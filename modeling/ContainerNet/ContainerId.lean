import ContainerNet.Error
import ContainerNet.Text.Utf8

/-!
# Container identifiers

A container is named by one to 64 ASCII letters, digits, hyphens and underscores, of which the
first is a letter or a digit. The rule is kept in the type, so an identifier can be cut to its
short form without looking at it again: it is cut by bytes, and all its characters have one.
-/

namespace ContainerNet

namespace ContainerId

def maxLength : Nat := 64

/-- May start an identifier. -/
def isFirst (c : Char) : Bool := c.isAlphanum

/-- May stand behind the first character. -/
def isLater (c : Char) : Bool := c.isAlphanum || c == '-' || c == '_'

theorem isLater_of_isFirst {c : Char} (h : isFirst c = true) : isLater c = true := by
  rw [isLater, Bool.or_assoc, Bool.or_eq_true]
  exact .inl h

theorem utf8Size_of_isLater {c : Char} (h : isLater c = true) : c.utf8Size = 1 := by
  rw [Char.utf8Size_eq_one_iff]
  change (c.isUpper || c.isLower || c.isDigit || c == '-' || c == '_') = true at h
  simp only [Bool.or_eq_true, beq_iff_eq] at h
  rcases h with (((h | h) | h) | rfl) | rfl
  · have hupper : 'A'.val ≤ c.val ∧ c.val ≤ 'Z'.val := of_decide_eq_true h
    exact UInt32.le_trans hupper.2 (by decide)
  · have hlower : (decide ('a'.val ≤ c.val) && decide (c.val ≤ 'z'.val)) = true := h
    rw [Bool.and_eq_true, decide_eq_true_eq, decide_eq_true_eq] at hlower
    exact UInt32.le_trans hlower.2 (by decide)
  · have hdigit : (decide ('0'.val ≤ c.val) && decide (c.val ≤ '9'.val)) = true := h
    rw [Bool.and_eq_true, decide_eq_true_eq, decide_eq_true_eq] at hdigit
    exact UInt32.le_trans hdigit.2 (by decide)
  · decide
  · decide

/-- Whether a text is an identifier. -/
def isValid (s : String) : Bool :=
  s.utf8ByteSize ≤ maxLength &&
    match s.toList with
    | [] => false
    | c :: r => isFirst c && r.all isLater

end ContainerId

/-- The name of a container. -/
structure ContainerId where
  text : String
  valid : ContainerId.isValid text = true
deriving DecidableEq

namespace ContainerId

instance : Repr ContainerId := ⟨fun id _ ↦ repr id.text⟩

/-- The identifier with this text. -/
def parse (s : String) : Outcome ContainerId :=
  if h : isValid s = true then .ok ⟨s, h⟩ else .error (.invalidContainerId s)

theorem isLater_of_mem (id : ContainerId) {c : Char} (hc : c ∈ id.text.toList) :
    isLater c = true := by
  have hvalid := id.valid
  rw [isValid, Bool.and_eq_true] at hvalid
  match hs : id.text.toList with
  | [] =>
    rw [hs] at hc
    exact absurd hc List.not_mem_nil
  | d :: r =>
    rw [hs] at hvalid hc
    rw [Bool.and_eq_true, List.all_eq_true] at hvalid
    obtain rfl | hc := List.mem_cons.mp hc
    · exact isLater_of_isFirst hvalid.2.1
    · exact hvalid.2.2 c hc

theorem utf8Size_of_mem (id : ContainerId) : ∀ c ∈ id.text.toList, c.utf8Size = 1 := fun _ hc ↦
  utf8Size_of_isLater (id.isLater_of_mem hc)

/-- The length of short forms, in bytes. -/
def shortLength : Nat := 12

/-- The identifier if it is short, or else its first bytes, if they are a text. -/
def short? (id : ContainerId) : Option String :=
  if id.text.utf8ByteSize ≤ shortLength then some id.text
  else String.ofList <$> Text.firstBytes? shortLength id.text.toList

/-- An identifier is cut between characters. -/
theorem short?_eq (id : ContainerId) :
    id.short? = some (String.ofList (id.text.toList.take shortLength)) := by
  have hlength := Text.utf8ByteSize_of_utf8Size_eq_one id.utf8Size_of_mem
  rw [short?]
  split
  next h => rw [List.take_of_length_le (hlength ▸ h), String.ofList_toList]
  next h =>
    rw [Text.firstBytes?_of_utf8Size_eq_one id.utf8Size_of_mem (hlength ▸ Nat.le_of_not_le h)]
    rfl

/-- The first twelve characters. -/
def short (id : ContainerId) : String := id.short?.get (by rw [short?_eq]; rfl)

theorem short_eq (id : ContainerId) :
    id.short = String.ofList (id.text.toList.take shortLength) := by
  simp only [short, short?_eq, Option.get_some]

def toJson (id : ContainerId) : Json := .text id.text

def read (t : Json.Tree) : Json.Decoded ContainerId := do
  (parse (← t.asText)).mapError fun e ↦ .refusal e.message

end ContainerId

end ContainerNet
