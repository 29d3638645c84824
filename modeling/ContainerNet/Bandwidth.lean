import ContainerNet.Error
import ContainerNet.Text.Blank

/-!
# Bandwidth

A rate in bits per second; zero means that there is no limit. As text a rate is a number with one
of the units `bit`, `kbit`, `mbit`, `gbit` and `tbit`, each a thousand times the one before, or a
plain number of bits. Every unit ends in the next smaller one's letters, so the reader tries the
longest first.
-/

namespace ContainerNet

/-- A rate in bits per second. -/
structure Bandwidth where
  bits : UInt64
deriving DecidableEq, Repr, Inhabited

namespace Bandwidth

/-- No limit. -/
def unlimited : Bandwidth := ⟨0⟩

def isUnlimited (b : Bandwidth) : Bool := b.bits == 0

def kbit (n : UInt64) : Bandwidth := ⟨n * 1000⟩
def mbit (n : UInt64) : Bandwidth := ⟨n * 1000000⟩
def gbit (n : UInt64) : Bandwidth := ⟨n * 1000000000⟩

/-- A unit of rates. -/
structure Scale where
  name : String
  factor : Nat
deriving DecidableEq, Repr

/-- The units, largest first. -/
def scales : List Scale :=
  [⟨"tbit", 1000000000000⟩, ⟨"gbit", 1000000000⟩, ⟨"mbit", 1000000⟩, ⟨"kbit", 1000⟩, ⟨"bit", 1⟩]

/-- Bits per second are kept in eight bytes. -/
def bound : Nat := UInt64.size

/-- The text in front of an ending, if the text ends so. -/
def before? (ending s : List Char) : Option (List Char) :=
  if ending.isSuffixOf s then some (s.take (s.length - ending.length)) else none

/-- The number of bits per second that a text without blanks around it denotes. -/
def readBits? (s : List Char) : Option Nat :=
  let units := scales.findSome? fun u ↦
    (before? u.name.toList s).map fun number ↦ (number, u.factor)
  match units with
  | some (number, factor) =>
    ((Text.readUnsigned? bound (Text.trim number)).map (· * factor)).filter (· < bound)
  | none => Text.readUnsigned? bound s

/-- The rate that a text denotes. -/
def parse (s : String) : Outcome Bandwidth :=
  let trimmed := Text.trim s.toList
  match readBits? trimmed with
  | some n => .ok ⟨UInt64.ofNat n⟩
  | none => .error (.invalidBandwidth (String.ofList trimmed))

/-- The rate in the largest unit of which it is a multiple. -/
def chars (b : Bandwidth) : List Char :=
  let n := b.bits.toNat
  match scales.find? fun u ↦ u.factor ≤ n && n % u.factor == 0 with
  | some u => Text.natChars (n / u.factor) ++ u.name.toList
  | none => Text.natChars n ++ "bit".toList

def text (b : Bandwidth) : String := String.ofList b.chars

/-- In JSON a rate is its number of bits. -/
def toJson (b : Bandwidth) : Json := .nat b.bits.toNat

/-- In JSON a rate is a number of bits or a text. -/
def read (t : Json.Tree) : Json.Decoded Bandwidth := do
  match ← t.value with
  | .number (.whole n) => return ⟨UInt64.ofNat n⟩
  | .text s => (parse s).mapError fun e ↦ .refusal e.message
  | _ => throw (.mismatch "a bandwidth")

end Bandwidth

end ContainerNet
