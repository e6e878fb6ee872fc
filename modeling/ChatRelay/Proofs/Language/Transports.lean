import ChatRelay.Proofs.Language.Words
import ChatRelay.Proofs.Link.Step
import ChatRelay.Proofs.OneLine.Lines
import ChatRelay.Wire

/-! One language on every transport. A line connection may cut what it carries anywhere, a message
comes whole; both drop line endings, though not equally many of them, and what is left of a unit is
read as the same command. -/

namespace ChatRelay

open Text (Bytes isLineEnding)

theorem Text.exists_front_of_getLast? {text : String}
    (h : (toBytes text).getLast? = some Line.carriageReturn) : ∃ front, text = front ++ "\r" := by
  rcases List.eq_nil_or_concat' text.toList with hnil | ⟨front, c, hcs⟩
  · rw [toBytes_eq, hnil] at h
    cases h
  · have hbytes : toBytes text =
        front.flatMap String.utf8EncodeChar ++ String.utf8EncodeChar c := by
      rw [toBytes_eq, hcs, List.flatMap_append, List.flatMap_singleton]
    have hne : String.utf8EncodeChar c ≠ [] := by
      have hlength := String.length_utf8EncodeChar c
      intro hnil
      rw [hnil] at hlength
      exact absurd hlength.symm (Nat.ne_of_gt c.utf8Size_pos)
    have hmem : Line.carriageReturn ∈ String.utf8EncodeChar c := by
      rw [hbytes, List.getLast?_append_of_ne_nil _ hne] at h
      exact List.mem_of_getLast? h
    have hc : c = '\r' := Char.toNat_inj.1 ((mem_utf8EncodeChar (by decide)).1 hmem)
    refine ⟨String.ofList front, String.toList_inj.1 ?_⟩
    rw [hcs, hc, String.toList_append, String.toList_ofList]
    rfl

namespace Line

variable {limit : Nat} {a b line : Bytes}

theorem feed_cases (bytes : Bytes) :
    feed ∉ bytes ∨ ∃ line more, bytes = line ++ feed :: more ∧ feed ∉ line := by
  by_cases h : feed ∈ bytes
  · exact .inr (List.eq_append_cons_of_mem h)
  · exact .inl h

namespace Decoder

variable {d : Decoder}

theorem readPieces_cons {pieces : List Bytes} (h : pieces ≠ []) :
    readPieces limit (line :: pieces) =
      (read limit line :: (readPieces limit pieces).1, (readPieces limit pieces).2) := by
  obtain ⟨piece, pieces, rfl⟩ := List.exists_cons_of_ne_nil h
  rfl

theorem readPieces_line (h : feed ∉ line) (more : Bytes) :
    readPieces limit ((line ++ feed :: more).splitOn feed) =
      (read limit line :: (readPieces limit (more.splitOn feed)).1,
        (readPieces limit (more.splitOn feed)).2) := by
  rw [List.splitOn_append_cons_self_of_not_mem h, readPieces_cons (List.splitOn_ne_nil feed more)]

theorem push_of_reading (h : d.skipping = false) (bytes : Bytes) :
    d.push bytes = readPieces d.limit ((d.rest ++ bytes).splitOn feed) := by
  rw [push, h, if_neg Bool.false_ne_true]

theorem push_of_skipping (h : d.skipping) (hb : feed ∉ b) : d.push b = ([], d) := by
  rw [push, if_pos h, List.splitOn_eq_singleton hb]

theorem push_line_of_skipping (h : d.skipping) (hline : feed ∉ line) (more : Bytes) :
    d.push (line ++ feed :: more) = readPieces d.limit (more.splitOn feed) := by
  obtain ⟨piece, pieces, hpieces⟩ := List.exists_cons_of_ne_nil (List.splitOn_ne_nil feed more)
  rw [push, if_pos h, List.splitOn_append_cons_self_of_not_mem hline, hpieces]

theorem push_start (bytes : Bytes) :
    (start limit).push bytes = readPieces limit (bytes.splitOn feed) :=
  push_of_reading rfl bytes

theorem readPieces_append (a b : Bytes) :
    readPieces limit ((a ++ b).splitOn feed) =
      ((readPieces limit (a.splitOn feed)).1 ++ ((readPieces limit (a.splitOn feed)).2.push b).1,
        ((readPieces limit (a.splitOn feed)).2.push b).2) := by
  induction hn : a.length using Nat.strong_induction_on generalizing a with
  | _ n ih =>
    rcases feed_cases a with ha | ⟨line, more, rfl, hline⟩
    · rw [List.splitOn_eq_singleton ha]
      by_cases hlong : limit < a.length
      -- an overlong line is reported before its feed, and only once
      · have hfirst : readPieces limit [a] = ([.error .tooLong], ⟨limit, [], true⟩) := if_pos hlong
        rw [hfirst]
        rcases feed_cases b with hb | ⟨line, more, rfl, hline⟩
        · have hab : feed ∉ a ++ b := List.not_mem_append ha hb
          have hlonger : limit < (a ++ b).length := by
            rw [List.length_append]
            omega
          rw [List.splitOn_eq_singleton hab, push_of_skipping rfl hb]
          exact if_pos hlonger
        · have hal : feed ∉ a ++ line := List.not_mem_append ha hline
          have hlonger : limit < (a ++ line).length := by
            rw [List.length_append]
            omega
          rw [← List.append_assoc, readPieces_line hal, push_line_of_skipping rfl hline, read,
            if_pos hlonger]
          rfl
      · have hfirst : readPieces limit [a] = ([], ⟨limit, a, false⟩) := if_neg hlong
        rw [hfirst, push_of_reading rfl]
        rfl
    · have hshort : more.length < n := by
        rw [← hn, List.length_append, List.length_cons]
        omega
      rw [List.append_assoc, List.cons_append, readPieces_line hline, readPieces_line hline,
        ih more.length hshort more rfl]
      rfl

theorem push_append (d : Decoder) (a b : Bytes) :
    d.push (a ++ b) = ((d.push a).1 ++ ((d.push a).2.push b).1, ((d.push a).2.push b).2) := by
  cases hskip : d.skipping with
  | false =>
    rw [push_of_reading hskip, push_of_reading hskip, ← List.append_assoc, readPieces_append]
  | true =>
    rcases feed_cases a with ha | ⟨line, more, rfl, hline⟩
    · rw [push_of_skipping hskip ha, List.nil_append]
      rcases feed_cases b with hb | ⟨line, more, rfl, hline⟩
      · rw [push_of_skipping hskip hb, push_of_skipping hskip (List.not_mem_append ha hb)]
      · rw [push_line_of_skipping hskip hline, ← List.append_assoc,
          push_line_of_skipping hskip (List.not_mem_append ha hline)]
    · rw [push_line_of_skipping hskip hline, List.append_assoc, List.cons_append,
        push_line_of_skipping hskip hline, readPieces_append]

def pushAll (d : Decoder) : List Bytes → List Item × Decoder
  | [] => ([], d)
  | chunk :: chunks =>
    ((d.push chunk).1 ++ ((d.push chunk).2.pushAll chunks).1, ((d.push chunk).2.pushAll chunks).2)

theorem push_push_nil (d : Decoder) (a : Bytes) : (d.push a).2.push [] = ([], (d.push a).2) := by
  have h := push_append d a []
  rw [List.append_nil] at h
  refine Prod.ext ?_ (congrArg Prod.snd h).symm
  exact List.self_eq_append_right.1 (congrArg Prod.fst h)

theorem pushAll_eq (h : d.push [] = ([], d)) (chunks : List Bytes) :
    d.pushAll chunks = d.push chunks.flatten := by
  induction chunks generalizing d with
  | nil => exact h.symm
  | cons chunk chunks ih =>
    rw [pushAll, ih (push_push_nil d chunk), List.flatten_cons, push_append]

theorem pushAll_line {chunks : List Bytes} {more : Bytes} (hline : feed ∉ line)
    (hchunks : chunks.flatten = line ++ feed :: more) :
    (start limit).pushAll chunks =
      (read limit line :: ((start limit).push more).1, ((start limit).push more).2) := by
  have hstart : (start limit).push [] = ([], start limit) := by
    rw [push_start, List.splitOn_nil]
    exact if_neg (Nat.not_lt_zero limit)
  rw [pushAll_eq hstart, hchunks, push_start, push_start, readPieces_line hline]

end Decoder

theorem exists_read {text : String} (fits : (Text.toBytes text).length ≤ limit) :
    ∃ line, read limit (Text.toBytes text) = .ok line ∧
      Text.dropLineEndings line.toList = Text.dropLineEndings text.toList := by
  rw [read, if_neg (Nat.not_lt.2 fits), Text.dropFinal]
  by_cases hlast : (Text.toBytes text).getLast? = some carriageReturn
  · obtain ⟨front, rfl⟩ := Text.exists_front_of_getLast? hlast
    have hbytes : Text.toBytes (front ++ "\r") = Text.toBytes front ++ [carriageReturn] :=
      Text.toBytes_append front "\r"
    refine ⟨front, ?_, ?_⟩
    · rw [if_pos hlast, hbytes, List.dropLast_concat, Text.ofBytes?_toBytes]
    · rw [String.toList_append]
      exact (Text.dropEndWhile_append (List.all_eq_true.1 (by decide))).symm
  · exact ⟨text, by rw [if_neg hlast, Text.ofBytes?_toBytes], rfl⟩

end Line

/-! ### Units -/

theorem Command.parse_congr {s t : String}
    (h : Text.dropLineEndings s.toList = Text.dropLineEndings t.toList) : parse s = parse t := by
  unfold parse
  rw [h]

theorem Link.step_congr {s t : String} (h : Command.parse s = Command.parse t) (l : Link)
    (session : Session) (now : Nat) :
    l.step session now (.input (.unit (.text s))) =
      l.step session now (.input (.unit (.text t))) := by
  have hdispatch : l.dispatch session now s = l.dispatch session now t := by
    unfold dispatch
    rw [h]
  have hread : ∀ flushing, l.read session now flushing (.unit (.text s)) =
      l.read session now flushing (.unit (.text t)) := by
    intro flushing
    simp only [read, hdispatch]
  simp only [step, hread]

namespace Inbound

/-- A unit that means what the text `u` means, to its reader and to the driver of any session. -/
structure Means (unit : Inbound) (u : String) : Prop where
  text : ∃ text, unit = .text text ∧ Command.parse text = Command.parse u
  acted : ∀ (l : Link) (s : Session) (now : Nat),
    l.step s now (.input (.unit unit)) = l.step s now (.input (.unit (.text u)))

theorem means_of_dropLineEndings {text u : String}
    (h : Text.dropLineEndings text.toList = Text.dropLineEndings u.toList) :
    (Inbound.text text).Means u := by
  have hparse := Command.parse_congr h
  exact ⟨⟨text, rfl, hparse⟩, Link.step_congr hparse⟩

end Inbound

def Frame.Foreign : Frame → Prop
  | .binary bytes => ∀ text, Text.toBytes text ≠ bytes
  | .ping _ | .pong _ => True
  | .text _ | .close => False

/-- The transports agree about a text `u` of which a line is at most `limit` bytes. -/
structure Transports (limit : Nat) (u : String) : Prop where
  line : ∀ ending, ending = "\n" ∨ ending = "\r\n" → ∀ chunks more,
    chunks.flatten = Text.toBytes (u ++ ending) ++ more → ∃ unit : Inbound, unit.Means u ∧
      ((Line.Decoder.start limit).pushAll chunks).1.map Wire.inputOfItem =
        .unit unit :: ((Line.Decoder.start limit).push more).1.map Wire.inputOfItem ∧
      ((Line.Decoder.start limit).pushAll chunks).2 = ((Line.Decoder.start limit).push more).2
  message : ∀ run : String, (∀ c ∈ run.toList, isLineEnding c) → ∀ frame,
    frame = .text (u ++ run) ∨ frame = .binary (Text.toBytes (u ++ run)) →
      (Inbound.ofFrame frame).Means u
  foreign : ∀ frame : Frame, frame.Foreign → Inbound.ofFrame frame = .skip ∧
    ∀ (l : Link) (s : Session) (now : Nat) (after : Link × Session),
      l.step s now (.input (.unit (Inbound.ofFrame frame))) = some after → after = (l, s)

variable {limit : Nat} {u : String}

theorem dropLineEndings_append {run : String} (h : ∀ c ∈ run.toList, isLineEnding c) :
    Text.dropLineEndings (u ++ run).toList = Text.dropLineEndings u.toList := by
  rw [String.toList_append]
  exact Text.dropEndWhile_append h

theorem dropLineEndings_dropLineEndings (cs : List Char) :
    Text.dropLineEndings (Text.dropLineEndings cs) = Text.dropLineEndings cs := by
  obtain ⟨hlast, -⟩ := Text.dropEndWhile_parts isLineEnding cs
  exact Text.dropEndWhile_eq_self hlast

theorem Inbound.means_of_message {run : String} (h : ∀ c ∈ run.toList, isLineEnding c) :
    (ofMessageText (u ++ run)).Means u := by
  apply means_of_dropLineEndings
  rw [String.toList_ofList, dropLineEndings_dropLineEndings, dropLineEndings_append h]

theorem Line.means_of_line (run : String) (feedless : OneLine (u ++ run))
    (h : ∀ c ∈ run.toList, isLineEnding c) (fits : (Text.toBytes (u ++ run)).length ≤ limit)
    {chunks : List Bytes} {more : Bytes}
    (hchunks : chunks.flatten = Text.toBytes (u ++ run ++ "\n") ++ more) :
    ∃ unit : Inbound, unit.Means u ∧
      ((Decoder.start limit).pushAll chunks).1.map Wire.inputOfItem =
        .unit unit :: ((Decoder.start limit).push more).1.map Wire.inputOfItem ∧
      ((Decoder.start limit).pushAll chunks).2 = ((Decoder.start limit).push more).2 := by
  have hline : feed ∉ Text.toBytes (u ++ run) := fun hfeed => Text.feed_mem_toBytes.1 hfeed feedless
  have hparts : chunks.flatten = Text.toBytes (u ++ run) ++ feed :: more := by
    rw [hchunks, Text.toBytes_append, List.append_assoc]
    rfl
  obtain ⟨line, hread, hdrop⟩ := exists_read fits
  rw [dropLineEndings_append h] at hdrop
  rw [Decoder.pushAll_line hline hparts, hread]
  exact ⟨.text line, Inbound.means_of_dropLineEndings hdrop, rfl, rfl⟩

theorem Frame.Foreign.skip {frame : Frame} (h : frame.Foreign) : Inbound.ofFrame frame = .skip := by
  cases frame with
  | binary bytes =>
    have hnone : Text.ofBytes? bytes = none := by
      rw [Option.eq_none_iff_forall_ne_some]
      exact fun text htext => h text (Text.toBytes_of_ofBytes? htext)
    rw [Inbound.ofFrame, hnone]
    rfl
  | ping bytes | pong bytes => rfl
  | text body | close => cases h

theorem transports_of_fits (feedless : OneLine u) (fits : (Text.toBytes u).length + 1 ≤ limit) :
    Transports limit u where
  line := by
    rintro ending (rfl | rfl) chunks more hchunks
    · have hu : u ++ "" = u := String.append_empty
      refine Line.means_of_line "" ?_ (List.all_eq_true.1 (by decide)) ?_ ?_
      all_goals rw [hu]
      · exact feedless
      · omega
      · exact hchunks
    · have hlength : (Text.toBytes (u ++ "\r")).length = (Text.toBytes u).length + 1 := by
        rw [Text.toBytes_append, List.length_append]
        rfl
      refine Line.means_of_line "\r" ?_ (List.all_eq_true.1 (by decide)) ?_ ?_
      · exact oneLine_append.2 ⟨feedless, by decide⟩
      · omega
      · rw [hchunks, String.append_assoc]
        rfl
  message := by
    rintro run hrun frame (rfl | rfl)
    · exact Inbound.means_of_message hrun
    · rw [Inbound.ofFrame, Text.ofBytes?_toBytes]
      exact Inbound.means_of_message hrun
  foreign := by
    intro frame hframe
    refine ⟨hframe.skip, fun l s now ⟨l', s'⟩ hafter => ?_⟩
    rw [hframe.skip] at hafter
    cases Link.step_of_eq_some hafter with
    | skip => rfl
    | hangUp ends => cases ends

theorem transports_of_fits_parts :
    OneLine "hi\r" ∧ (Text.toBytes "hi\r").length + 1 ≤ 4 ∧ ∃ unit : Inbound, unit.Means "hi\r" ∧
      ((Line.Decoder.start 4).pushAll [[104, 105, 13], [13], [10, 47]]).1.map Wire.inputOfItem =
        [.unit unit] := by
  have feedless : OneLine "hi\r" := by decide
  have fits : (Text.toBytes "hi\r").length + 1 ≤ 4 := by decide
  obtain ⟨unit, means, hunit, -⟩ := (transports_of_fits feedless fits).line "\r\n" (.inr rfl)
    [[104, 105, 13], [13], [10, 47]] [47] (by decide)
  exact ⟨feedless, fits, unit, means, hunit⟩

end ChatRelay
