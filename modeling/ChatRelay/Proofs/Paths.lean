import ChatRelay.Proofs.Logs

/-! Where logs are kept. Whatever a room or two people are called, and wherever the logs stand, the
path of their log leads to one file directly inside the folder of its kind. -/

namespace ChatRelay

namespace Pathname

inductive Part
  | root
  | here
  | up
  | name (name : String)
  deriving DecidableEq, Repr

def part? (piece : String) : Option Part :=
  if piece = "" ∨ piece = "." then none
  else if piece = ".." then some .up
  else some (.name piece)

def origin? (path : String) : Option Part :=
  if isAbsolute path then some .root
  else if (pieces path).head? = some "." then some .here
  else none

/-- What a path comes to. Slashes at its end, several in a row, and dots but for one at its front
make no difference. -/
def parts (path : String) : List Part := (origin? path).toList ++ (pieces path).filterMap part?

structure Plain (name : String) : Prop where
  whole : '/' ∉ name.toList
  sound : name.toList.any (·.toNat = 0) = false
  leads : part? name = some (.name name)

variable {base front name : String}

theorem isAbsolute_append (h : front ≠ "") (more : String) :
    isAbsolute (front ++ more) = isAbsolute front := by
  have hne : front.toList ≠ [] := mt String.toList_eq_nil_iff.1 h
  rw [isAbsolute, isAbsolute, String.toList_append, List.head?_append_of_ne_nil _ hne]

theorem parts_append (h : front ≠ "") (more : String) :
    parts (front ++ "/" ++ more) = parts front ++ (pieces more).filterMap part? := by
  have horigin : origin? (front ++ "/" ++ more) = origin? front := by
    rw [origin?, origin?, String.append_assoc, isAbsolute_append h, ← String.append_assoc,
      pieces_append, List.head?_append_of_ne_nil _ (pieces_ne_nil front)]
  rw [parts, horigin, pieces_append, List.filterMap_append, ← List.append_assoc, parts]

theorem parts_slash (more : String) :
    parts ("/" ++ more) = .root :: (pieces more).filterMap part? := by
  have hpieces : pieces ("/" ++ more) = pieces "" ++ pieces more := pieces_append "" more
  have habsolute : isAbsolute ("/" ++ more) = true := by simp [isAbsolute]
  rw [parts, origin?, if_pos habsolute, hpieces]
  rfl

namespace Plain

theorem ne (h : Plain name) {piece : String} (hp : part? piece ≠ some (.name piece)) :
    name ≠ piece := by
  rintro rfl
  exact hp h.leads

theorem not_isAbsolute (h : Plain name) : isAbsolute name = false := by
  have hhead : name.toList.head? ≠ some '/' := fun he => h.whole (List.mem_of_head? he)
  exact decide_eq_false hhead

theorem filterMap_pieces (h : Plain name) : (pieces name).filterMap part? = [.name name] := by
  rw [pieces_eq_singleton h.whole, List.filterMap_cons_some h.leads, List.filterMap_nil]

theorem parts_eq (h : Plain name) : parts name = [.name name] := by
  have hdot : some name ≠ some "." := mt Option.some.inj (h.ne (by decide))
  have horigin : origin? name = none := by
    rw [origin?, h.not_isAbsolute, if_neg Bool.false_ne_true, pieces_eq_singleton h.whole,
      List.head?_cons, if_neg hdot]
  rw [parts, horigin, h.filterMap_pieces]
  rfl

end Plain

theorem cases_of_trailing (h : base.toList.getLast?.all (· = '/')) :
    base = "" ∨ base = "/" ∨ ∃ front, front ≠ "" ∧ base = front ++ "/" := by
  rcases List.eq_nil_or_concat base.toList with hnil | ⟨cs, c, hcs⟩
  · exact .inl (String.toList_eq_nil_iff.1 hnil)
  · rw [hcs, List.concat_eq_append, List.getLast?_concat] at h
    have hbase : base = String.ofList cs ++ "/" := by
      apply String.toList_inj.1
      rw [hcs, of_decide_eq_true h]
      simp
    by_cases hfront : String.ofList cs = ""
    · rw [hfront] at hbase
      exact .inr (.inl hbase)
    · exact .inr (.inr ⟨_, hfront, hbase⟩)

theorem parts_join (base : String) (h : Plain name) :
    parts (join base name) = parts base ++ [.name name] := by
  rw [join, h.not_isAbsolute, if_neg Bool.false_ne_true]
  by_cases hlast : base.toList.getLast?.all (· = '/')
  · rw [if_pos hlast]
    rcases cases_of_trailing hlast with rfl | rfl | ⟨front, hfront, rfl⟩
    · exact (congrArg parts (String.empty_append)).trans h.parts_eq
    · rw [parts_slash, h.filterMap_pieces]
      rfl
    · have hempty : parts (front ++ "/") = parts front := by
        have hend := parts_append hfront ""
        rwa [String.append_empty, show (pieces "").filterMap part? = [] from rfl,
          List.append_nil] at hend
      rw [parts_append hfront, h.filterMap_pieces, hempty]
  · have hbase : base ≠ "" := by
      rintro rfl
      exact hlast rfl
    rw [if_neg hlast, parts_append hbase, h.filterMap_pieces]

end Pathname

open Pathname (Plain)

namespace LogFile

theorem plain_folder (folder : Folder) : Plain folder.text := by
  cases folder <;> exact ⟨by decide, by decide, by decide⟩

theorem not_unsafeChar_of_mem {name : String} {c : Char} (h : c ∈ (sanitize name).toList) :
    unsafeChar c = false := by
  rw [sanitize, String.toList_ofList, List.mem_map] at h
  obtain ⟨d, -, rfl⟩ := h
  by_cases hd : unsafeChar d
  · rw [if_pos hd]
    decide
  · rw [if_neg hd]
    exact Bool.not_eq_true _ ▸ hd

theorem plain_of_stem {stem : String} (h : ∀ c ∈ stem.toList, unsafeChar c = false) :
    Plain (stem ++ ".txt") := by
  have hslash : '/' ∉ stem.toList := fun hc => Bool.noConfusion (h _ hc)
  have hnull : stem.toList.any (·.toNat = 0) = false := by
    refine List.any_eq_false.2 fun c hc hz => ?_
    have hsafe := h c hc
    simp [unsafeChar, Text.isControl, of_decide_eq_true hz] at hsafe
  have hlong : ∀ short : String, short.length < 4 → stem ++ ".txt" ≠ short := by
    rintro short hshort rfl
    rw [String.length_append] at hshort
    exact absurd hshort (Nat.not_lt.2 (Nat.le_add_left 4 stem.length))
  refine ⟨?_, ?_, ?_⟩
  · rw [String.toList_append, List.mem_append, not_or]
    exact ⟨hslash, by decide⟩
  · rw [String.toList_append, List.any_append, hnull]
    decide
  · rw [Pathname.part?, if_neg (not_or.2 ⟨hlong _ (by decide), hlong _ (by decide)⟩),
      if_neg (hlong _ (by decide))]

theorem parts_pathFrom {file : LogFile} (h : Plain file.name) (root : String) :
    Pathname.parts (file.pathFrom root) =
      Pathname.parts root ++ [.name file.folder.text] ++ [.name file.name] := by
  rw [pathFrom, Pathname.parts_join _ h, Pathname.parts_join _ (plain_folder file.folder)]

theorem parts_pathFrom_inj {f g : LogFile} (hf : Plain f.name) (hg : Plain g.name) {root : String} :
    Pathname.parts (f.pathFrom root) = Pathname.parts (g.pathFrom root) ↔ f = g := by
  rw [parts_pathFrom hf, parts_pathFrom hg, List.append_assoc, List.append_assoc,
    List.append_cancel_left_eq, ← place_inj]
  simp [place]

end LogFile

namespace Archive

theorem follow_cons {name : String} (h : Plain name) (a : Archive) (place : LogFile.Place)
    (names : List String) : a.follow place (name :: names) = a.follow (place ++ [name]) names := by
  have hstays : ¬ (name = "" ∨ name = ".") := not_or.2 ⟨h.ne (by decide), h.ne (by decide)⟩
  have hup : name ≠ ".." := h.ne (by decide)
  rw [follow, if_neg hstays, if_neg hup, h.sound, if_neg Bool.false_ne_true]

theorem resolve?_path {file : LogFile} (h : Plain file.name) (a : Archive) :
    a.resolve? file.path = some file.place := by
  have hfolder := LogFile.plain_folder file.folder
  have hpath : file.path = file.folder.text ++ "/" ++ file.name := rfl
  have hrelative : Pathname.isAbsolute file.path = false := by
    rw [hpath, String.append_assoc, Pathname.isAbsolute_append, hfolder.not_isAbsolute]
    cases file.folder <;> decide
  rw [resolve?, hrelative, if_neg Bool.false_ne_true, hpath, Pathname.pieces_append,
    Pathname.pieces_eq_singleton hfolder.whole, Pathname.pieces_eq_singleton h.whole,
    List.singleton_append, follow_cons hfolder, follow_cons h, follow]
  rfl

end Archive

namespace LogFile

/-- Directly inside a folder that stands directly inside the root, called by a stem that holds
nothing but its own characters. -/
structure Confined (file : LogFile) (folder : Folder) : Prop where
  inside : ∀ root, Pathname.parts (file.pathFrom root) =
    Pathname.parts (Pathname.join root folder.text) ++ [.name file.name]
  beneath : ∀ root, Pathname.parts (Pathname.join root folder.text) =
    Pathname.parts root ++ [.name folder.text]
  called : ∃ stem, file.name = stem ++ ".txt" ∧
    ∀ c ∈ stem.toList, c ≠ '/' ∧ c ≠ '\\' ∧ c ≠ '.' ∧ Text.isControl c = false
  apart : ∀ root, Pathname.parts (file.pathFrom root) ≠ Pathname.parts (openChat.pathFrom root)
  leads : ∀ a : Archive, a.resolve? file.path = some [folder.text, file.name]

theorem confined_of_stem {file : LogFile} {stem : String} (hname : file.name = stem ++ ".txt")
    (safe : ∀ c ∈ stem.toList, unsafeChar c = false) (closed : file.folder ≠ .global) :
    file.Confined file.folder := by
  have hplain : Plain file.name := hname ▸ plain_of_stem safe
  have hfolder : Plain file.folder.text := plain_folder file.folder
  refine ⟨fun root => Pathname.parts_join _ hplain, fun root => Pathname.parts_join root hfolder,
    ⟨stem, hname, fun c hc => ?_⟩, fun root he => closed ?_, Archive.resolve?_path hplain⟩
  · have hsafe := safe c hc
    simp only [unsafeChar, Bool.or_eq_false_iff, decide_eq_false_iff_not] at hsafe
    obtain ⟨⟨⟨⟨hslash, hback⟩, hdot⟩, -⟩, hcontrol⟩ := hsafe
    exact ⟨hslash, hback, hdot, hcontrol⟩
  · have hopen : Plain openChat.name := ⟨by decide, by decide, by decide⟩
    exact congrArg LogFile.folder ((parts_pathFrom_inj hplain hopen).1 he)

/-- Whatever rooms and people are called, their logs are kept in the folder of their kind and
nowhere else, and two people share one log. -/
theorem paths_confined (name a b : String) :
    (room name).Confined .rooms ∧ (pair a b).Confined .pairs ∧
      ∀ root, (pair a b).pathFrom root = (pair b a).pathFrom root := by
  refine ⟨confined_of_stem rfl (fun c => not_unsafeChar_of_mem) nofun, ?_, fun root => ?_⟩
  · rw [pair_eq]
    exact confined_of_stem rfl (fun c => not_unsafeChar_of_mem) nofun
  · rw [pair_eq, pair_eq, sideBySide_comm]

example : (room "../etc/passwd").pathFrom "/logs/" = "/logs/rooms/___etc_passwd.txt" := by decide

end LogFile
end ChatRelay
