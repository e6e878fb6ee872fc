/-! Blank characters, and the ways a text is trimmed and cut at them. Blank is the Unicode
property White_Space, a set of twenty-five code points. -/

namespace ChatRelay.Text

def isBlank (c : Char) : Bool :=
  let n := c.toNat
  9 ≤ n && n ≤ 13 || n == 0x20 || n == 0x85 || n == 0xA0 || n == 0x1680 ||
    0x2000 ≤ n && n ≤ 0x200A || n == 0x2028 || n == 0x2029 || n == 0x202F || n == 0x205F ||
    n == 0x3000

def isLineEnding (c : Char) : Bool :=
  c == '\r' || c == '\n'

def isControl (c : Char) : Bool :=
  c.toNat < 0x20 || 0x7F ≤ c.toNat && c.toNat < 0xA0

def dropEndWhile (p : Char → Bool) (cs : List Char) : List Char :=
  (cs.reverse.dropWhile p).reverse

def dropLineEndings : List Char → List Char :=
  dropEndWhile isLineEnding

def trim (cs : List Char) : List Char :=
  dropEndWhile isBlank (cs.dropWhile isBlank)

def cutAtBlank : List Char → Option (List Char × List Char)
  | [] => none
  | c :: cs =>
    if isBlank c then some ([], cs)
    else (cutAtBlank cs).map fun (word, rest) => (c :: word, rest)

theorem dropEndWhile_nil (p : Char → Bool) : dropEndWhile p [] = [] := rfl

theorem dropEndWhile_concat (p : Char → Bool) (cs : List Char) (c : Char) :
    dropEndWhile p (cs ++ [c]) = if p c then dropEndWhile p cs else cs ++ [c] := by
  by_cases h : p c <;> simp [dropEndWhile, h]

theorem cutAtBlank_eq_none {cs : List Char} (h : cs.all (!isBlank ·)) : cutAtBlank cs = none := by
  induction cs with
  | nil => rfl
  | cons c cs ih =>
    simp only [List.all_cons, Bool.and_eq_true, Bool.not_eq_true'] at h
    simp [cutAtBlank, h.1, ih h.2]

theorem cutAtBlank_append {word : List Char} (h : word.all (!isBlank ·)) {b : Char}
    (hb : isBlank b) (rest : List Char) :
    cutAtBlank (word ++ b :: rest) = some (word, rest) := by
  induction word with
  | nil => simp [cutAtBlank, hb]
  | cons c cs ih =>
    simp only [List.all_cons, Bool.and_eq_true, Bool.not_eq_true'] at h
    simp [cutAtBlank, h.1, ih h.2]

end ChatRelay.Text
