import ChatRelay.Tls.Number

/-! The hash function SHA-512. A message is padded to blocks of 128 bytes, and each block is mixed
into a state of eight words. -/

namespace ChatRelay.Tls.Sha512

open Text (Bytes)

abbrev Word := UInt64

/-- Fractional parts of the square roots of the first eight primes. -/
def startWords : List Word :=
  [0x6A09E667F3BCC908, 0xBB67AE8584CAA73B, 0x3C6EF372FE94F82B, 0xA54FF53A5F1D36F1,
   0x510E527FADE682D1, 0x9B05688C2B3E6C1F, 0x1F83D9ABFB41BD6B, 0x5BE0CD19137E2179]

/-- Fractional parts of the cube roots of the first eighty primes. -/
def roundWords : List Word :=
  [0x428A2F98D728AE22, 0x7137449123EF65CD, 0xB5C0FBCFEC4D3B2F, 0xE9B5DBA58189DBBC,
   0x3956C25BF348B538, 0x59F111F1B605D019, 0x923F82A4AF194F9B, 0xAB1C5ED5DA6D8118,
   0xD807AA98A3030242, 0x12835B0145706FBE, 0x243185BE4EE4B28C, 0x550C7DC3D5FFB4E2,
   0x72BE5D74F27B896F, 0x80DEB1FE3B1696B1, 0x9BDC06A725C71235, 0xC19BF174CF692694,
   0xE49B69C19EF14AD2, 0xEFBE4786384F25E3, 0x0FC19DC68B8CD5B5, 0x240CA1CC77AC9C65,
   0x2DE92C6F592B0275, 0x4A7484AA6EA6E483, 0x5CB0A9DCBD41FBD4, 0x76F988DA831153B5,
   0x983E5152EE66DFAB, 0xA831C66D2DB43210, 0xB00327C898FB213F, 0xBF597FC7BEEF0EE4,
   0xC6E00BF33DA88FC2, 0xD5A79147930AA725, 0x06CA6351E003826F, 0x142929670A0E6E70,
   0x27B70A8546D22FFC, 0x2E1B21385C26C926, 0x4D2C6DFC5AC42AED, 0x53380D139D95B3DF,
   0x650A73548BAF63DE, 0x766A0ABB3C77B2A8, 0x81C2C92E47EDAEE6, 0x92722C851482353B,
   0xA2BFE8A14CF10364, 0xA81A664BBC423001, 0xC24B8B70D0F89791, 0xC76C51A30654BE30,
   0xD192E819D6EF5218, 0xD69906245565A910, 0xF40E35855771202A, 0x106AA07032BBD1B8,
   0x19A4C116B8D2D0C8, 0x1E376C085141AB53, 0x2748774CDF8EEB99, 0x34B0BCB5E19B48A8,
   0x391C0CB3C5C95A63, 0x4ED8AA4AE3418ACB, 0x5B9CCA4F7763E373, 0x682E6FF3D6B2B8A3,
   0x748F82EE5DEFB2FC, 0x78A5636F43172F60, 0x84C87814A1F0AB72, 0x8CC702081A6439EC,
   0x90BEFFFA23631E28, 0xA4506CEBDE82BDE9, 0xBEF9A3F7B2C67915, 0xC67178F2E372532B,
   0xCA273ECEEA26619C, 0xD186B8C721C0C207, 0xEADA7DD6CDE0EB1E, 0xF57D4F7FEE6ED178,
   0x06F067AA72176FBA, 0x0A637DC5A2C898A6, 0x113F9804BEF90DAE, 0x1B710B35131C471B,
   0x28DB77F523047D84, 0x32CAAB7B40C72493, 0x3C9EBE0A15C9BEBC, 0x431D67C49C100D4C,
   0x4CC5D4BECB3E42B6, 0x597F299CFC657E2A, 0x5FCB6FAB3AD6FAEC, 0x6C44198C4A475817]

structure State where
  a : Word
  b : Word
  c : Word
  d : Word
  e : Word
  f : Word
  g : Word
  h : Word
  deriving DecidableEq, Repr

namespace State

def words (s : State) : List Word := [s.a, s.b, s.c, s.d, s.e, s.f, s.g, s.h]

def ofWords (ws : List Word) : State :=
  let w (i : Nat) := ws.getD i 0
  ⟨w 0, w 1, w 2, w 3, w 4, w 5, w 6, w 7⟩

def start : State := ofWords startWords

end State

def rotate (x : Word) (n : Word) : Word := x >>> n ||| x <<< (64 - n)

def round (s : State) (w : Word) : State :=
  let sum₁ := rotate s.e 14 ^^^ rotate s.e 18 ^^^ rotate s.e 41
  let choice := s.e &&& s.f ^^^ (~~~s.e &&& s.g)
  let t₁ := s.h + sum₁ + choice + w
  let sum₀ := rotate s.a 28 ^^^ rotate s.a 34 ^^^ rotate s.a 39
  let majority := s.a &&& s.b ^^^ s.a &&& s.c ^^^ s.b &&& s.c
  ⟨t₁ + sum₀ + majority, s.a, s.b, s.c, s.d + t₁, s.e, s.f, s.g⟩

def nextWord (ws : List Word) : Word :=
  let x := ws.getD 1 0
  let y := ws.getD 14 0
  (rotate x 19 ^^^ rotate x 61 ^^^ x >>> 6) + ws.getD 6 0 +
    (rotate y 1 ^^^ rotate y 8 ^^^ y >>> 7) + ws.getD 15 0

def extend : Nat → List Word → List Word
  | 0, ws => ws
  | n + 1, ws => extend n (nextWord ws :: ws)

def schedule (block : List Word) : List Word := (extend 64 block.reverse).reverse

def mix (s : State) (block : List Word) : State :=
  let mixed := (List.zipWith (· + ·) roundWords (schedule block)).foldl round s
  .ofWords (List.zipWith (· + ·) s.words mixed.words)

/-! ### Messages -/

def parts {α : Type} (size : Nat) : Nat → List α → List (List α)
  | 0, _ => []
  | n + 1, xs => xs.take size :: parts size n (xs.drop size)

def blockBytes : Nat := 128

/-- A set bit, zeros, and the number of bits in the message fill the last block. -/
def pad (message : Bytes) : Bytes :=
  let filled := message.length + 1 + 16
  message ++ 0x80 :: List.replicate ((blockBytes - filled % blockBytes) % blockBytes) 0 ++
    Number.toBytes 16 (8 * message.length)

def blockWords (block : Bytes) : List Word :=
  (parts 8 16 block).map fun w => UInt64.ofNat (Number.ofBytes w)

def digest (message : Bytes) : Bytes :=
  let padded := pad message
  let blocks := parts blockBytes (padded.length / blockBytes) padded
  (blocks.foldl (fun s block => mix s (blockWords block)) .start).words.flatMap fun w =>
    Number.toBytes 8 w.toNat

theorem length_pad (message : Bytes) : (pad message).length % blockBytes = 0 := by
  simp [pad, blockBytes, Number.length_toBytes]
  omega

end ChatRelay.Tls.Sha512
