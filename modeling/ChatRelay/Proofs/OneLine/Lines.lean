import ChatRelay.Line
import ChatRelay.Proofs.Logs
import ChatRelay.Proofs.OneLine.Text

/-! Where lines are counted. A text of one line is one line to whoever reads a line connection, and
one line more to whoever reads the log that it is added to; and nothing but texts of one line comes
out of either. -/

namespace ChatRelay

open Text (Bytes)

namespace Text

theorem toBytes_eq (s : String) : toBytes s = s.toList.flatMap String.utf8EncodeChar := by
  have h := String.toByteArray_ofList (l := s.toList)
  rw [String.ofList_toList] at h
  rw [toBytes, h, List.utf8Encode, List.data_toByteArray]

theorem mem_utf8EncodeChar {b : UInt8} (hb : b.toNat < 128) {c : Char} :
    b ∈ String.utf8EncodeChar c ↔ c.toNat = b.toNat := by
  have hc : c.toNat = c.val.toNat := rfl
  rw [hc]
  unfold String.utf8EncodeChar
  dsimp only
  repeat' split
  all_goals
    simp only [List.mem_cons, List.not_mem_nil, or_false, ← UInt8.toNat_inj, UInt8.toNat_ofNat']
    omega

theorem feed_mem_utf8EncodeChar {c : Char} : Line.feed ∈ String.utf8EncodeChar c ↔ c = '\n' := by
  rw [mem_utf8EncodeChar (by decide), ← Char.toNat_inj]
  rfl

theorem feed_mem_toBytes {s : String} : Line.feed ∈ toBytes s ↔ ¬ OneLine s := by
  rw [toBytes_eq, List.mem_flatMap, OneLine, not_not]
  simp only [feed_mem_utf8EncodeChar, exists_eq_right]

theorem not_mem_of_mem_splitOn {α : Type} [DecidableEq α] {sep : α} {xs piece : List α}
    (h : piece ∈ xs.splitOn sep) : sep ∉ piece := by
  induction xs generalizing piece with
  | nil =>
    rw [List.splitOn_nil, List.mem_singleton] at h
    rw [h]
    exact List.not_mem_nil
  | cons x xs ih =>
    rw [List.splitOn_cons_eq_if_modifyHead] at h
    by_cases hx : x = sep
    · rw [if_pos (beq_iff_eq.2 hx)] at h
      rcases List.mem_cons.1 h with rfl | h
      · exact List.not_mem_nil
      · exact ih h
    · rw [if_neg (mt beq_iff_eq.1 hx)] at h
      obtain ⟨first, pieces, hs⟩ := List.exists_cons_of_ne_nil (List.splitOn_ne_nil sep xs)
      rw [hs, List.modifyHead_cons] at h
      rw [hs] at ih
      rcases List.mem_cons.1 h with rfl | h
      · exact List.not_mem_cons_of_ne_of_not_mem (Ne.symm hx) (ih List.mem_cons_self)
      · exact ih (List.mem_cons_of_mem _ h)

end Text

namespace Line

theorem splitOn_encode {texts : List String} (h : ∀ t ∈ texts, OneLine t) :
    (texts.flatMap encode).splitOn feed = texts.map Text.toBytes ++ [[]] := by
  induction texts with
  | nil => rfl
  | cons t ts ih =>
    have ht : feed ∉ Text.toBytes t := fun hf =>
      Text.feed_mem_toBytes.1 hf (h t List.mem_cons_self)
    rw [List.flatMap_cons, encode, List.append_assoc, List.singleton_append,
      List.splitOn_append_cons_self_of_not_mem ht, ih fun u hu => h u (List.mem_cons_of_mem t hu)]
    rfl

theorem oneLine_of_read {limit : Nat} {line : Bytes} {text : String} (h : feed ∉ line)
    (hr : read limit line = .ok text) : OneLine text := by
  unfold read at hr
  split at hr
  · cases hr
  · split at hr
    · next hb =>
      cases hr
      by_contra ht
      have hm := Text.toBytes_of_ofBytes? hb ▸ Text.feed_mem_toBytes.2 ht
      unfold Text.dropFinal at hm
      split at hm
      · exact h (List.dropLast_subset _ hm)
      · exact h hm
    · cases hr

namespace Decoder

def readAll (d : Decoder) : List Bytes → List Item
  | [] => d.finish
  | chunk :: chunks => (d.push chunk).1 ++ (d.push chunk).2.readAll chunks

theorem readPieces_clean {limit : Nat} {pieces : List Bytes} (h : ∀ p ∈ pieces, feed ∉ p) :
    feed ∉ (readPieces limit pieces).2.rest ∧
      ∀ text, .ok text ∈ (readPieces limit pieces).1 → OneLine text := by
  induction pieces with
  | nil => exact ⟨List.not_mem_nil, fun _ ht => absurd ht List.not_mem_nil⟩
  | cons line pieces ih =>
    cases pieces with
    | nil =>
      unfold readPieces
      split
      · exact ⟨List.not_mem_nil, fun _ ht => nomatch List.mem_singleton.1 ht⟩
      · exact ⟨h line List.mem_cons_self, fun _ ht => absurd ht List.not_mem_nil⟩
    | cons next pieces =>
      obtain ⟨hrest, htexts⟩ := ih fun p hp => h p (List.mem_cons_of_mem _ hp)
      refine ⟨hrest, fun text ht => ?_⟩
      rcases List.mem_cons.1 ht with hr | ht
      · exact oneLine_of_read (h line List.mem_cons_self) hr.symm
      · exact htexts text ht

theorem push_clean {d : Decoder} (h : feed ∉ d.rest) (bytes : Bytes) :
    feed ∉ (d.push bytes).2.rest ∧ ∀ text, .ok text ∈ (d.push bytes).1 → OneLine text := by
  unfold push
  split
  · split
    · next first piece pieces hs =>
      refine readPieces_clean fun p hp => ?_
      exact Text.not_mem_of_mem_splitOn (hs ▸ List.mem_cons_of_mem first hp)
    · exact ⟨h, fun _ ht => absurd ht List.not_mem_nil⟩
  · exact readPieces_clean fun _ => Text.not_mem_of_mem_splitOn

theorem oneLine_of_mem_readAll {d : Decoder} (h : feed ∉ d.rest) {chunks : List Bytes}
    {text : String} (ht : .ok text ∈ d.readAll chunks) : OneLine text := by
  induction chunks generalizing d with
  | nil =>
    rw [readAll, finish] at ht
    split at ht
    · cases ht
    · exact oneLine_of_read h (List.mem_singleton.1 ht).symm
  | cons chunk chunks ih =>
    obtain ⟨hrest, htexts⟩ := push_clean h chunk
    rcases List.mem_append.1 ht with ht | ht
    · exact htexts text ht
    · exact ih hrest ht

end Decoder
end Line

/-! ### Logs -/

def Complete (content : String) : Prop := ∀ c, content.toList.getLast? = some c → c = '\n'

namespace Text

theorem fileLines_concat (cs : List Char) :
    fileLines (cs ++ ['\n']) = (cs.splitOn '\n').map (dropFinal '\r') := by
  unfold fileLines
  dsimp only
  rw [List.splitOn_append_cons_self, List.splitOn_nil, List.dropLast_concat, List.getLast?_concat]
  exact List.append_nil _

theorem lines_append {content line : String} (hc : Complete content) (hl : OneLine line)
    (hr : line.toList.getLast? ≠ some '\r') :
    lines (content ++ line ++ "\n") = lines content ++ [line] := by
  have hline : (line.toList.splitOn '\n').map (dropFinal '\r') = [line.toList] := by
    rw [List.splitOn_eq_singleton hl, List.map_singleton, dropFinal, if_neg hr]
  have hall : fileLines (content.toList ++ line.toList ++ ['\n']) =
      fileLines content.toList ++ [line.toList] := by
    rw [fileLines_concat]
    rcases List.eq_nil_or_concat' content.toList with hn | ⟨cs, c, hcs⟩
    · rw [hn]
      exact hline
    · have hfeed : c = '\n' := hc c (by rw [hcs, List.getLast?_concat])
      subst hfeed
      rw [hcs, List.append_assoc, List.singleton_append, List.splitOn_append_cons_self,
        List.map_append, hline, fileLines_concat]
  rw [lines, String.toList_append, String.toList_append]
  rw [show ("\n" : String).toList = ['\n'] from rfl, hall, List.map_append, List.map_singleton,
    String.ofList_toList]
  rfl

theorem lastN_concat {α : Type} (n : Nat) (xs : List α) (x : α) :
    lastN (n + 1) (xs ++ [x]) = lastN n xs ++ [x] := by
  unfold lastN
  rw [List.length_append, List.length_singleton, Nat.add_sub_add_right,
    List.drop_append_of_le_length (Nat.sub_le _ _)]

theorem oneLine_of_mem_lines {content line : String} (h : line ∈ lines content) : OneLine line := by
  obtain ⟨cs, hcs, rfl⟩ := List.mem_map.1 h
  refine oneLine_ofList ?_
  rcases List.mem_append.1 hcs with hcs | hcs
  · obtain ⟨piece, hp, rfl⟩ := List.mem_map.1 hcs
    have hn := not_mem_of_mem_splitOn (List.dropLast_subset _ hp)
    unfold dropFinal
    split
    · exact fun hm => hn (List.dropLast_subset _ hm)
    · exact hn
  · rw [Option.mem_toList, Option.filter_eq_some_iff] at hcs
    exact not_mem_of_mem_splitOn (List.mem_of_getLast? hcs.1)

end Text

namespace Archive

variable {a : Archive} {file : LogFile} {limit : Nat} {lines : List String}

def Ruled (a : Archive) (file : LogFile) : Prop :=
  ∀ content, a.get? file = some (.text content) → Complete content

theorem oneLine_of_tail (h : a.tail file limit = .ok lines) : ∀ line ∈ lines, OneLine line := by
  intro line hl
  unfold tail at h
  split at h
  · cases h
  · split at h
    · cases h
      cases hl
    · cases h
      exact Text.oneLine_of_mem_lines (List.mem_of_mem_drop hl)
    · cases h
    · cases h

theorem getLast?_line {stamp sender body : String} (h : body.toList.getLast? ≠ some '\r') :
    (line stamp sender body).toList.getLast? ≠ some '\r' := by
  rw [line, String.toList_append, List.getLast?_append]
  cases hb : body.toList.getLast? with
  | some c => rwa [Option.some_or, ← hb]
  | none =>
    have hmark : ("]: " : String).toList.getLast? = some ' ' := by decide
    rw [Option.none_or, String.toList_append, List.getLast?_append, hmark, Option.some_or]
    decide

theorem tail_append {line : String} (ha : a.Ruled file) (hl : OneLine line)
    (hr : line.toList.getLast? ≠ some '\r') (h : a.tail file limit = .ok lines) :
    (a.append file line).tail file (limit + 1) = .ok (lines ++ [line]) := by
  unfold tail at h ⊢
  split at h
  · cases h
  · next hlong =>
    rw [Bool.not_eq_true] at hlong
    rw [hlong, if_neg Bool.false_ne_true, get?_append, if_pos ⟨rfl, hlong⟩]
    split at h
    · next hget =>
      cases h
      have hempty : Complete "" := fun _ hc => nomatch hc
      have hnone : Text.lines "" = [] := by decide
      have hone := Text.lines_append hempty hl hr
      rw [String.empty_append, hnone] at hone
      rw [hget, Archived.extend]
      dsimp only
      rw [hone, Text.lastN_concat, Text.lastN, List.drop_nil]
    · next content hget =>
      cases h
      rw [hget, Archived.extend]
      dsimp only
      rw [Text.lines_append (ha content hget) hl hr, Text.lastN_concat]
    · cases h
    · cases h

end Archive

end ChatRelay
