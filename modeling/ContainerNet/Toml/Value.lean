import ContainerNet.Json.Tree

/-!
# TOML values

The values of a TOML document. A document of settings is decoded like a JSON text, so a value also
has a view as a tree: a number that fits nothing and a numeral without a meaning are broken there,
so they do no harm where nobody looks, and a date is an object of which no key is known.
-/

namespace ContainerNet

inductive Toml
  | text (s : String)
  | integer (i : Int)
  | float (x : Binary.Double)
  /-- What has the form of a numeral but denotes no number, or one that is too great. -/
  | numeral (s : String)
  | bool (b : Bool)
  /-- A date, a time, or both, as written. -/
  | moment (s : String)
  | array (items : List Toml)
  | table (members : List (String × Toml))
deriving Repr, Inhabited

namespace Toml

/-- A whole number that fits eight bytes with or without a sign. One of sixteen bytes can be skipped
but not read. -/
def integerTree (i : Int) : Json.Tree :=
  if 0 ≤ i ∧ i.toNat < UInt64.size then .number (.whole i.toNat)
  else if i < 0 ∧ (-i).toNat ≤ UInt64.size / 2 then .number (.below (-i).toNat)
  else if (-i).toNat ≤ Nat.pow 2 127 ∧ i.toNat < Nat.pow 2 128 then .unreadable
  else .broken

mutual

/-- What the value offers to a decoder. -/
def tree : Toml → Json.Tree
  | .text s => .text s
  | .integer i => integerTree i
  | .float x => .number (.double x)
  | .numeral _ => .broken
  | .bool b => .bool b
  | .moment s => .object [(some "moment", .text s)] true
  | .array items => .array (itemTrees items) true
  | .table members => .object (memberTrees members) true

def itemTrees : List Toml → List Json.Tree
  | [] => []
  | v :: r => v.tree :: itemTrees r

def memberTrees : List (String × Toml) → List (Option String × Json.Tree)
  | [] => []
  | (k, v) :: r => (some k, v.tree) :: memberTrees r

end

end Toml

end ContainerNet
