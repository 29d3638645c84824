import ContainerNet.Binary.Shortest

/-!
# JSON values

A JSON value keeps the members of an object in the order, and as often, as they were written.
Where data is passed on rather than interpreted it is kept in *canonical* form: keys are sorted,
and of members with one key the last counts. Whole numbers stay whole as long as they fit eight
bytes; every other number is a binary floating-point number.
-/

namespace ContainerNet

/-- A number in a JSON text. `below n` is the whole number `-n`; `single` is a four-byte number,
which only printing tells apart from an eight-byte one. -/
inductive Json.Number
  | whole (n : Nat)
  | below (n : Nat)
  | double (x : Binary.Double)
  | single (x : Binary.Single)
deriving DecidableEq, Repr

inductive Json
  | null
  | bool (b : Bool)
  | number (n : Json.Number)
  | text (s : String)
  | array (items : List Json)
  | object (members : List (String × Json))
deriving Repr, Inhabited

namespace Json

/-! ## Equality -/

mutual

/-- Structural equality; the order of members counts. -/
def beq : Json → Json → Bool
  | .null, .null => true
  | .bool a, .bool b => a == b
  | .number a, .number b => a == b
  | .text a, .text b => a == b
  | .array a, .array b => beqItems a b
  | .object a, .object b => beqMembers a b
  | _, _ => false

def beqItems : List Json → List Json → Bool
  | [], [] => true
  | a :: r, b :: s => beq a b && beqItems r s
  | _, _ => false

def beqMembers : List (String × Json) → List (String × Json) → Bool
  | [], [] => true
  | (k, a) :: r, (l, b) :: s => k == l && beq a b && beqMembers r s
  | _, _ => false

end

instance : BEq Json := ⟨beq⟩

/-! ## Maps -/

/-- A map with sorted keys, as a list of members. -/
abbrev Members := List (String × Json)

/-- Puts a member into a sorted map, in place of one with the same key. -/
def Members.insert (k : String) (v : Json) : Members → Members
  | [] => [(k, v)]
  | (l, w) :: r =>
    if k < l then (k, v) :: (l, w) :: r
    else if k = l then (k, v) :: r
    else (l, w) :: Members.insert k v r

/-- The value under a key. -/
def Members.get? (k : String) (m : Members) : Option Json :=
  (m.find? (·.1 = k)).map (·.2)

/-- The sorted map of a list of members; later ones win. -/
def Members.ofList (l : List (String × Json)) : Members :=
  l.foldl (fun m (k, v) ↦ m.insert k v) []

mutual

/-- The value with every object's keys sorted and free of repetitions. -/
def canonical : Json → Json
  | .array items => .array (canonicalItems items)
  | .object members => .object (Members.ofList (canonicalMembers members))
  | v => v

def canonicalItems : List Json → List Json
  | [] => []
  | v :: r => canonical v :: canonicalItems r

def canonicalMembers : List (String × Json) → List (String × Json)
  | [] => []
  | (k, v) :: r => (k, canonical v) :: canonicalMembers r

end

/-! ## Writing -/

/-- Numbers of four bytes have an exponent below 1e-6 and from 1e13 on. -/
def singleLayout : Binary.Layout := ⟨some (-6), some 13, true, .toEven⟩

/-- Numbers of eight bytes have an exponent below 1e-5 and from 1e16 on. -/
def doubleLayout : Binary.Layout := ⟨some (-5), some 16, true, .toEven⟩

/-- What is no finite number is written as null. -/
def Number.chars : Number → List Char
  | .whole n => Text.natChars n
  | .below n => '-' :: Text.natChars n
  | .double x => if x.isFinite then doubleLayout.finite x else "null".toList
  | .single x => if x.isFinite then singleLayout.finite x else "null".toList

/-- Escapes the quote, the backslash and the control characters, and nothing else. -/
def escape (c : Char) : List Char :=
  if c = '"' then ['\\', '"']
  else if c = '\\' then ['\\', '\\']
  else if c = '\x08' then ['\\', 'b']
  else if c = '\x0c' then ['\\', 'f']
  else if c = '\n' then ['\\', 'n']
  else if c = '\r' then ['\\', 'r']
  else if c = '\t' then ['\\', 't']
  else if c.toNat < 0x20 then '\\' :: 'u' :: Text.hexPadded 4 c.toNat
  else [c]

def quoted (s : List Char) : List Char := '"' :: s.flatMap escape ++ ['"']

mutual

/-- The compact text of a value, without blanks. -/
def chars : Json → List Char
  | .null => "null".toList
  | .bool true => "true".toList
  | .bool false => "false".toList
  | .number n => n.chars
  | .text s => quoted s.toList
  | .array [] => ['[', ']']
  | .array (v :: r) => '[' :: (chars v ++ itemChars r)
  | .object [] => ['{', '}']
  | .object ((k, v) :: r) => '{' :: (quoted k.toList ++ ':' :: (chars v ++ memberChars r))

/-- The items after the first, up to the closing bracket. -/
def itemChars : List Json → List Char
  | [] => [']']
  | v :: r => ',' :: (chars v ++ itemChars r)

/-- The members after the first, up to the closing brace. -/
def memberChars : List (String × Json) → List Char
  | [] => ['}']
  | (k, v) :: r => ',' :: (quoted k.toList ++ ':' :: (chars v ++ memberChars r))

end

/-- The compact text of a value. -/
def render (v : Json) : String := String.ofList v.chars

/-! ## Building -/

def nat (n : Nat) : Json := .number (.whole n)

def option {α : Type} (f : α → Json) : Option α → Json
  | none => .null
  | some a => f a

/-- A member, left out when there is no value. -/
def optional {α : Type} (k : String) (f : α → Json) : Option α → List (String × Json)
  | none => []
  | some a => [(k, f a)]

def texts (l : List String) : Json := .array (l.map .text)

end Json

end ContainerNet
