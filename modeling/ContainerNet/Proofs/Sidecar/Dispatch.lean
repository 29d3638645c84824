import Mathlib.Data.List.TakeWhile
import ContainerNet.Proofs.Json.OneLine
import ContainerNet.Proofs.Text.Lines
import ContainerNet.Proofs.Wire.Event
import ContainerNet.Sidecar.Intake

/-!
# What the lines of an input ask for

The input is cut into lines as bytes and each line is read as text; `read_utf8` says that this is
the same as cutting the text into lines. So of an input that is text every line is either blank, or
a call, or noted as malformed, and what it is depends on nothing but the line.

The line of an event is a line among others, whatever texts are in the event: it has no line break
(`lines_join`).

A carriage return in front of a line feed belongs to the end of the line, whether the line is bytes
or text (`withoutReturn_bytes`), because a byte below 0x80 is never part of another character. The
reader stops at a line that is not text, so an input that is text is read to its end.
-/

namespace ContainerNet

/-- The call that an event asks for. -/
def Event.call (p : Places) : Event → Sidecar.Call
  | .configure _ netns config => .configure (netns.resolve p) config
  | .release _ => .release

/-- The lines of events, joined to a text. -/
def Event.lines (es : List Event) : String := "\n".intercalate (es.map Event.line)

namespace Sidecar

/-! ## Blank lines -/

theorem isBlank_eq_false_of_token? {c : Char} {r : List Text.Glyph}
    {x : Json.Token × List Text.Glyph} (h : Json.token? c r = some x) : Text.isBlank c = false := by
  unfold Json.token? at h
  split at h
  -- a numeral begins with a digit, and what else a token begins with is one of a few characters
  case h_12 =>
    obtain ⟨_, hnumeral, -⟩ := Option.map_eq_some_iff.mp h
    have hdigit := Json.isDigit_of_numeral? hnumeral
    simp only [Char.isDigit, Bool.and_eq_true, decide_eq_true_eq, ge_iff_le,
      UInt32.le_iff_toNat_le] at hdigit
    rw [Bool.eq_false_iff]
    intro hblank
    simp only [Text.isBlank, Char.toNat, Bool.or_eq_true, Bool.and_eq_true, decide_eq_true_eq,
      beq_iff_eq] at hblank
    have hrange : '0'.val.toNat = 48 ∧ '9'.val.toNat = 57 := by decide
    omega
  all_goals decide

theorem tokens_of_blank {s : List Char} (h : ∀ c ∈ s, Text.isBlank c = true) :
    (Json.tokens (Text.ofChars s)).tokens = [] := by
  induction s with
  | nil =>
    rw [Text.ofChars_nil, Json.tokens]
  | cons c s ih =>
    obtain ⟨hc, hs⟩ := List.forall_mem_cons.mp h
    rw [Text.ofChars_cons, Json.tokens]
    split
    · exact ih hs
    · split
      next => rfl
      next hsome =>
        rw [isBlank_eq_false_of_token? hsome] at hc
        exact absurd hc Bool.false_ne_true

theorem ofLine_eq_error_of_blank {s : List Char} (h : ∀ c ∈ s, Text.isBlank c = true) :
    Event.ofLine (String.ofList s) = .error .malformed := by
  have htree : (Json.Document.ofText (String.ofList s)).tree = .broken := by
    rw [Json.Document.ofText, String.toList_ofList, Json.Document.ofGlyphs, tokens_of_blank h]
    rfl
  rw [Event.ofLine, Json.Document.decode, htree]
  rfl

theorem isEmpty_trim_iff {s : List Char} :
    (Text.trim s).isEmpty = true ↔ ∀ c ∈ s, Text.isBlank c = true := by
  rw [Text.trim, Text.trimRight, Text.trimLeft, List.isEmpty_reverse, List.isEmpty_iff,
    List.dropWhile_eq_nil_iff]
  constructor
  · intro h c hc
    rw [← List.takeWhile_append_dropWhile (p := Text.isBlank) (l := s)] at hc
    rcases List.mem_append.mp hc with hc | hc
    · exact List.mem_takeWhile_imp hc
    · exact h c (List.mem_reverse.mpr hc)
  · exact fun h c hc ↦ h c (List.dropWhile_subset _ (List.mem_reverse.mp hc))

namespace Intake

/-! ## Lines of bytes -/

theorem linesFrom_append {piece : List UInt8} (h : 10 ∉ piece) (front rest : List UInt8) :
    linesFrom front (piece ++ rest) = linesFrom (piece.reverse ++ front) rest := by
  induction piece generalizing front with
  | nil => rfl
  | cons b piece ih =>
    rw [List.mem_cons, not_or] at h
    rw [List.cons_append, linesFrom, if_neg (Ne.symm h.1), ih h.2, List.reverse_cons,
      List.append_assoc, List.singleton_append]

theorem not_mem_bytes {b : Nat} (hb : b < 0x80) {s : List Char} (h : Char.ofNat b ∉ s) :
    UInt8.ofNat b ∉ Text.bytes s := by
  intro hmem
  obtain ⟨c, hc, hbyte⟩ := List.mem_flatMap.mp hmem
  exact h (Text.eq_of_mem_utf8EncodeChar hb hbyte ▸ hc)

theorem withoutReturn_of_head? {l : List UInt8} (h : l.head? ≠ some 13) : withoutReturn l = l := by
  unfold withoutReturn
  split
  · exact absurd rfl h
  · rfl

/-- A carriage return is taken away as a byte or as a character. -/
theorem withoutReturn_bytes (s : List Char) :
    (withoutReturn (Text.bytes s).reverse).reverse = Text.bytes (Text.withoutReturn s) := by
  rcases List.eq_nil_or_concat s with rfl | ⟨front, c, rfl⟩
  · rfl
  · have hbytes : Text.bytes (front ++ [c]) = Text.bytes front ++ String.utf8EncodeChar c := by
      rw [Text.bytes, List.flatMap_append, List.flatMap_singleton, Text.bytes]
    rw [List.concat_eq_append, Text.withoutReturn, List.getLast?_concat]
    by_cases hc : c = '\r'
    · rw [if_pos (congrArg some hc), List.dropLast_concat, hbytes, List.reverse_append, hc]
      exact List.reverse_reverse _
    · rw [if_neg fun h ↦ hc (Option.some.inj h), withoutReturn_of_head?, List.reverse_reverse]
      intro hlast
      have hchar := Text.bytes_ne_nil (List.cons_ne_nil c [])
      rw [Text.bytes, List.flatMap_singleton] at hchar
      rw [List.head?_reverse, hbytes, List.getLast?_append_of_ne_nil _ hchar] at hlast
      exact hc (Text.eq_of_mem_utf8EncodeChar (by decide) (List.mem_of_getLast? hlast))

theorem lines_bytes (s : List Char) :
    lines (Text.bytes s) = (Text.lines s).map Text.bytes := by
  induction s using Text.lines_induction with
  | last s h =>
    have hfeed : (10 : UInt8) ∉ Text.bytes s := not_mem_bytes (by decide) h
    rw [lines, Text.lines_of_not_mem h, ← List.append_nil (Text.bytes s), linesFrom_append hfeed,
      linesFrom, List.append_nil, List.isEmpty_reverse, List.reverse_reverse]
    by_cases hs : s = []
    · subst hs
      rfl
    · rw [if_neg (mt List.isEmpty_iff.mp (Text.bytes_ne_nil hs))]
      simp [hs]
  | line s rest h ih =>
    have hfeed : (10 : UInt8) ∉ Text.bytes s := not_mem_bytes (by decide) h
    have hbytes : Text.bytes (s ++ '\n' :: rest) = Text.bytes s ++ 10 :: Text.bytes rest :=
      List.flatMap_append
    rw [lines, hbytes, linesFrom_append hfeed, linesFrom, if_pos rfl, List.append_nil,
      withoutReturn_bytes, Text.lines_append_cons h, List.map_cons, ← ih, lines]

theorem ofLines_bytes (p : Places) (l : List (List Char)) :
    ofLines p (l.map Text.bytes) = (l.filterMap (ofLine? p), .ok ()) := by
  induction l with
  | nil => rfl
  | cons s l ih =>
    rw [List.map_cons, ofLines, Text.decode?_bytes]
    simp only [ih, List.filterMap_cons]
    cases ofLine? p s <;> rfl

theorem read_utf8 (p : Places) (text : String) :
    read p (Text.utf8 text) = ((Text.lines text.toList).filterMap (ofLine? p), .ok ()) := by
  have hbytes : Text.utf8 text = Text.bytes text.toList := Text.utf8_eq text
  rw [read, hbytes, lines_bytes, ofLines_bytes]

end Intake

/-! ## What is done about a line -/

/-- Something that is done about a line of the input. -/
inductive Act
  | called (id : ContainerId) (c : Call)
  | noted (entry : Log.Entry)

namespace Act

/-- What is done about a line: the call that its event asks for, or a note that it holds no event.
Lines of blanks are passed over. -/
def ofLine? (p : Places) (line : List Char) : Option Act :=
  match Event.ofLine (String.ofList line) with
  | .ok e => some (.called e.container (e.call p))
  | .error fault => if line.all Text.isBlank then none else some (.noted (Intake.skipNote fault))

/-- The call, if it is one. -/
def call? : Act → Option (ContainerId × Call)
  | .called id c => some (id, c)
  | .noted _ => none

end Act

/-- What is done about the lines of a text. -/
def acts (p : Places) (text : String) : List Act :=
  (Text.lines text.toList).filterMap (Act.ofLine? p)

/-- Whether a line holds an event. -/
def holdsEvent (line : List Char) : Bool := (Event.ofLine (String.ofList line)).isOk

/-- What serving does about something that was read. -/
def Intake.act : Intake → Act
  | .call id c => .called id c
  | .skip fault => .noted (skipNote fault)

variable {p : Places}

theorem map_act_ofLine? (line : List Char) :
    (Intake.ofLine? p line).map Intake.act = Act.ofLine? p line := by
  rw [Intake.ofLine?, Act.ofLine?]
  by_cases hblank : ∀ c ∈ line, Text.isBlank c = true
  · rw [if_pos (isEmpty_trim_iff.mpr hblank), ofLine_eq_error_of_blank hblank]
    exact (if_pos (List.all_eq_true.mpr hblank)).symm
  · rw [if_neg (mt isEmpty_trim_iff.mp hblank)]
    cases Event.ofLine (String.ofList line) with
    | ok e => cases e <;> rfl
    | error fault => exact (if_neg (mt List.all_eq_true.mp hblank)).symm

theorem map_act_read (p : Places) (text : String) :
    (Intake.read p (Text.utf8 text)).1.map Intake.act = acts p text := by
  rw [Intake.read_utf8, List.map_filterMap, acts]
  exact List.filterMap_congr fun line _ ↦ map_act_ofLine? line

/-- Only the lines that hold events make calls, so nothing that stands between them does. -/
theorem filterMap_call?_acts (p : Places) (text : String) :
    (acts p text).filterMap Act.call? = ((Text.lines text.toList).filter holdsEvent).filterMap
      fun line ↦ (Act.ofLine? p line).bind Act.call? := by
  rw [acts, List.filterMap_filterMap, List.filterMap_filter]
  refine List.filterMap_congr fun line _ ↦ ?_
  rw [holdsEvent, Act.ofLine?]
  cases Event.ofLine (String.ofList line) with
  | ok e => rfl
  | error fault => cases line.all Text.isBlank <;> rfl

/-! ## The lines of events -/

theorem isPlain_line (e : Event) : Text.IsPlain e.line.toList := by
  rw [Event.line, Json.render, String.toList_ofList]
  exact Json.isPlain_chars _

theorem line_ne_nil (e : Event) : e.line.toList ≠ [] := by
  rw [Event.line, Json.render, String.toList_ofList]
  cases e <;> exact List.cons_ne_nil _ _

/-- **The line of an event is a line among others**, whatever is in the event. -/
theorem lines_join (es : List Event) :
    Text.lines (Event.lines es).toList = es.map (·.line.toList) := by
  have hplain {c : Char} (hc : c.toNat < 0x20) {s : List Char}
      (hs : s ∈ es.map (·.line.toList)) : c ∉ s := by
    obtain ⟨e, -, rfl⟩ := List.mem_map.mp hs
    exact fun hmem ↦ absurd (isPlain_line e c hmem) (Nat.not_le_of_lt hc)
  rw [Event.lines, String.toList_intercalate, List.map_map]
  refine Text.lines_intercalate (fun s hs ↦ ?_) (fun s hs ↦ hplain (by decide) hs)
    fun s hs hlast ↦ hplain (by decide) hs (List.mem_of_getLast? hlast)
  obtain ⟨e, -, rfl⟩ := List.mem_map.mp hs
  exact line_ne_nil e

/-- What is done about the lines of events is decided for each by itself. -/
theorem acts_join (p : Places) (es : List Event) :
    acts p (Event.lines es) = es.filterMap fun e ↦ Act.ofLine? p e.line.toList := by
  rw [acts, lines_join, List.filterMap_map]
  rfl

/-- The lines of events that a text can carry are the calls that the events ask for. -/
theorem acts_join_of_isPortable {es : List Event} (h : ∀ e ∈ es, e.IsPortable)
    (hback : ∀ e ∈ es, ∀ c ∈ e.config?, c.ReadsBack) :
    acts p (Event.lines es) = es.map fun e ↦ .called e.container (e.call p) := by
  rw [acts_join, ← List.filterMap_eq_map]
  refine List.filterMap_congr fun e he ↦ ?_
  rw [Act.ofLine?, String.ofList_toList, Event.ofLine_line (h e he) (hback e he)]
  rfl

end Sidecar

end ContainerNet
