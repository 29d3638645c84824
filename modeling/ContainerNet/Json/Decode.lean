import ContainerNet.Json.Tree
import ContainerNet.Text.Quoted

/-!
# Decoding JSON

Decoders turn what a text offers into domain values and say why when they cannot. They walk in the
order of the text, so of several faults the first one counts; only a missing field is noticed at
the end of its object. An object becomes a record by a table of its fields: each key may occur
once, keys that no field has are skipped or collected, and an array may stand for the object with
the values of the fields in order.
-/

namespace ContainerNet.Json

/-- Why a text cannot be decoded. -/
inductive Fault
  /-- The text is no JSON. -/
  | malformed
  /-- A value is of another kind than the one that has to stand there. If it is a text, the message
  repeats it. -/
  | mismatch (expected : String) (found : Option String := none)
  | missingField (name : String)
  | duplicateField (name : String)
  /-- A word is none of the known ones. -/
  | unknownVariant (word : String) (known : List String)
  /-- A value is of the right kind, but what it is meant for refuses it. The line is the one that
  the refusal names itself, or zero. -/
  | refused (message : String) (line : Nat)
deriving DecidableEq, Repr

namespace Fault

private def ticked (s : String) : String := "`" ++ s ++ "`"

/-- The known words, as a message lists them. -/
def choice : List String → String
  | [] => "there are no variants"
  | [a] => "expected " ++ ticked a
  | [a, b] => "expected " ++ ticked a ++ " or " ++ ticked b
  | l => "expected one of " ++ ", ".intercalate (l.map ticked)

def message : Fault → String
  | .malformed => "the text is not JSON"
  | .mismatch expected none => "invalid type, expected " ++ expected
  | .mismatch expected (some s) =>
    "invalid type: string " ++ Text.quoted s ++ ", expected " ++ expected
  | .missingField name => "missing field " ++ ticked name
  | .duplicateField name => "duplicate field " ++ ticked name
  | .unknownVariant word known => "unknown variant " ++ ticked word ++ ", " ++ choice known
  | .refused message _ => message

/-- A number below `2 ^ 64` at the end of a text, and what stands in front of it. -/
def numberAtEnd? (s : List Char) : Option (List Char × Nat) :=
  let digits := (s.reverse.takeWhile Char.isDigit).reverse
  ((Text.readNat? digits).filter (· < UInt64.size)).map (s.take (s.length - digits.length), ·)

/-- The line and column at the end of a text, of which only the line is kept, and what stands in
front of them. -/
def placeAtEnd? (s : List Char) : Option (List Char × Nat) := do
  let (s, _) ← numberAtEnd? s
  let (s, line) ← numberAtEnd? (← " column ".toList.isSuffixOf? s)
  return (← " at line ".toList.isSuffixOf? s, line)

/-- A refusal in some words. If they end with a place they are taken to say where the fault is, and
the place is no part of the message. -/
def refusal (words : String) : Fault :=
  match placeAtEnd? words.toList with
  | some (message, line) => .refused (String.ofList message) line
  | none => .refused words 0

/-- Whether a fault says itself where in the text it is. -/
def namesPlace : Fault → Bool
  | .refused _ line => line ≠ 0
  | _ => false

example : (refusal "x at line 3 column 4", refusal "x at line 3", refusal "x at line  column 4") =
    (.refused "x" 3, .refused "x at line 3" 0, .refused "x at line  column 4" 0) := by
  decide +kernel

end Fault

/-- What a decoder answers. -/
abbrev Decoded (α : Type) := Except Fault α

namespace Tree

/-- The fault of a value that does not have the expected kind. -/
def unexpected {α : Type} (expected : String) : Tree → Decoded α
  | .broken | .unreadable => .error .malformed
  | .text s => .error (.mismatch expected s)
  | _ => .error (.mismatch expected)

/-- Fails where an array or object is broken off. -/
def ended (closed : Bool) : Decoded Unit := if closed then .ok () else .error .malformed

mutual

/-- Passes over a value. What cannot be read can still be passed over. -/
def skip : Tree → Decoded Unit
  | .array items closed => do
    skipItems items
    ended closed
  | .object members closed => do
    skipMembers members
    ended closed
  | .broken => .error .malformed
  | _ => .ok ()

def skipItems : List Tree → Decoded Unit
  | [] => .ok ()
  | t :: r => do
    skip t
    skipItems r

def skipMembers : List (Option String × Tree) → Decoded Unit
  | [] => .ok ()
  | (_, t) :: r => do
    skip t
    skipMembers r

end

mutual

/-- The whole value. -/
def value : Tree → Decoded Json
  | .null => .ok .null
  | .bool b => .ok (.bool b)
  | .number n => .ok (.number n)
  | .text s => .ok (.text s)
  | .array items closed => do
    let items ← valueItems items
    ended closed
    return .array items
  | .object members closed => do
    let members ← valueMembers members
    ended closed
    return .object members
  | .unreadable | .broken => .error .malformed

def valueItems : List Tree → Decoded (List Json)
  | [] => .ok []
  | t :: r => do
    let v ← value t
    return v :: (← valueItems r)

def valueMembers : List (Option String × Tree) → Decoded (List (String × Json))
  | [] => .ok []
  | (none, _) :: _ => .error .malformed
  | (some k, t) :: r => do
    let v ← value t
    return (k, v) :: (← valueMembers r)

end

mutual

/-- What a value that is already known offers. -/
def ofJson : Json → Tree
  | .null => .null
  | .bool b => .bool b
  | .number n => .number n
  | .text s => .text s
  | .array items => .array (ofItems items) true
  | .object members => .object (ofMembers members) true

def ofItems : List Json → List Tree
  | [] => []
  | v :: r => ofJson v :: ofItems r

def ofMembers : List (String × Json) → List (Option String × Tree)
  | [] => []
  | (k, v) :: r => (some k, ofJson v) :: ofMembers r

end

/-! ## Simple values -/

def asText : Tree → Decoded String
  | .text s => .ok s
  | t => unexpected "a text" t

def asBool : Tree → Decoded Bool
  | .bool b => .ok b
  | t => unexpected "a truth value" t

/-- A whole number below a bound; a numeral with a fraction or an exponent is none. -/
def asNat (bound : Nat) : Tree → Decoded Nat
  | .number (.whole n) => if n < bound then .ok n else .error (.mismatch "a number in range")
  | t => unexpected "a whole number" t

/-- A number, rounded to four bytes. -/
def asSingle : Tree → Decoded Binary.Single
  | .number (.whole n) => .ok (.ofNat n)
  | .number (.below n) => .ok (.ofRatio true n 1)
  | .number (.double x) => .ok x.convert
  | .number (.single x) => .ok x
  | t => unexpected "a number" t

/-- A text that some type accepts or refuses. -/
def asParsed {α : Type} (parse : String → Except String α) (t : Tree) : Decoded α := do
  match parse (← t.asText) with
  | .ok a => return a
  | .error message => throw (.refusal message)

/-- A value, or null. -/
def asOption {α : Type} (read : Tree → Decoded α) : Tree → Decoded (Option α)
  | .null => .ok none
  | t => some <$> read t

/-- An array, item by item. -/
def asList {α : Type} (read : Tree → Decoded α) : Tree → Decoded (List α)
  | .array items closed => do
    let l ← items.mapM read
    ended closed
    return l
  | t => unexpected "an array" t

/-! ## Words -/

/-- Where a value is taken from. It decides two points about a word that is written as an object
with the word as its only key. -/
inductive Source
  /-- A text that is read as it goes: the key counts before the rest of the object is seen. -/
  | stream
  /-- Parts of an object that was taken in whole: an empty object may stand beside the key. -/
  | parts
  /-- A value known in whole. -/
  | whole
deriving DecidableEq

def word {α : Type} (known : List (String × α)) (s : String) : Decoded α :=
  match known.find? (·.1 = s) with
  | some (_, a) => .ok a
  | none => .error (.unknownVariant s (known.map (·.1)))

/-- One of some known words: a text, or an object with the word as its key and null as value. -/
def asWord {α : Type} (known : List (String × α)) (source : Source) : Tree → Decoded α
  | .text s => word known s
  | .object members closed =>
    match members, source with
    | [(some k, .null)], _ => do
      let a ← word known k
      ended closed
      return a
    | [(some k, .object [] true)], .parts => word known k
    | (some k, t) :: _, .stream => do
      discard (word known k)
      unexpected "null" t
    | [(some k, t)], _ => do
      discard (word known k)
      unexpected "null" t
    | _, _ => .error .malformed
  | t => unexpected "a word" t

end Tree

/-! ## Records -/

/-- A field of a record: how its value is read and put in. -/
structure Field (α : Type) where
  name : String
  set : Tree → α → Decoded α
  required : Bool := false

/-- A record that is filled field by field. -/
structure Record (α : Type) where
  initial : α
  fields : List (Field α)

namespace Record

variable {α : Type}

/-- A record that is being filled: the fields that have been set, and the members that belong to
no field, last first. -/
structure Filling (α : Type) where
  value : α
  seen : List String
  extra : List (String × Json)

/-- Takes in one member. -/
def member (r : Record α) (keep : Bool) (k : String) (t : Tree) (s : Filling α) :
    Decoded (Filling α) :=
  match r.fields.find? (·.name = k) with
  | some f => do
    if s.seen.contains k then throw (.duplicateField k)
    let value ← f.set t s.value
    return { s with value, seen := k :: s.seen }
  | none => do
    if keep then
      let v ← t.value
      return { s with extra := (k, v) :: s.extra }
    else
      t.skip
      return s

/-- Takes in the members in their order. -/
def members (r : Record α) (keep : Bool) :
    List (Option String × Tree) → Filling α → Decoded (Filling α)
  | [], s => .ok s
  | (none, _) :: _, _ => .error .malformed
  | (some k, t) :: l, s => do r.members keep l (← r.member keep k t s)

/-- The first required field that has not been set. -/
def missing? (r : Record α) (seen : List String) : Option String :=
  (r.fields.find? fun f ↦ f.required && !seen.contains f.name).map (·.name)

/-- Fills the record from an object, and gives the members that belong to no field if they are to
be kept. -/
def ofObject (r : Record α) (keep : Bool) (l : List (Option String × Tree)) (closed : Bool) :
    Decoded (α × List (String × Json)) := do
  let s ← r.members keep l ⟨r.initial, [], []⟩
  Tree.ended closed
  match r.missing? s.seen with
  | some name => throw (.missingField name)
  | none => return (s.value, s.extra.reverse)

/-- Fills fields from the items of an array. Fields that are left over must not be required. -/
def positional (closed : Bool) : List (Field α) → List Tree → α → Decoded α
  | [], [], a => do
    Tree.ended closed
    return a
  | [], _ :: _, _ => .error (.mismatch "a record of that length")
  | f :: fs, [], a => do
    Tree.ended closed
    if (f :: fs).any (·.required) then throw (.mismatch "a record of that length")
    return a
  | f :: fs, t :: l, a => do positional closed fs l (← f.set t a)

/-- The record in an object or an array. -/
def read (r : Record α) : Tree → Decoded α
  | .object l closed => (·.1) <$> r.ofObject false l closed
  | .array l closed => positional closed r.fields l r.initial
  | t => t.unexpected "an object"

/-- The record in an object or an array, of which items behind the last field do not count. -/
def readFront (r : Record α) : Tree → Decoded α
  | .array l closed => r.read (.array (l.take r.fields.length) closed)
  | t => r.read t

/-- The record in an object, with the members that belong to no field. -/
def readOpen (r : Record α) : Tree → Decoded (α × List (String × Json))
  | .object l closed => r.ofObject true l closed
  | t => t.unexpected "an object"

/-- The record in members that are known. -/
def ofMembers (r : Record α) (l : List (String × Json)) : Decoded α :=
  (·.1) <$> r.ofObject false (Tree.ofMembers l) true

end Record

/-! ## Whole texts -/

/-- Decodes a text: its value first, then the text must end. -/
def Document.decode {α : Type} (d : Document) (read : Tree → Decoded α) : Decoded α := do
  let a ← read d.tree
  if d.complete then return a else throw .malformed

end ContainerNet.Json
