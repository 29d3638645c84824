import ContainerNet.Text.Decimal

/-!
# Binary floating point by its bits

A number of a binary interchange format is its bit pattern. The magnitude of a finite number is a
whole multiple of the least positive number of the format, its *units*; so exact comparison and
correct rounding are arithmetic on natural numbers, and a theorem about them needs nothing about
machine floats. Two facts keep the code short: a significand `m` shifted by `k` has the pattern
`k * 2 ^ fractionBits + m`, and on that scale a carry out of the significand moves into the
exponent by itself, up to the pattern of infinity.
-/

namespace ContainerNet.Binary

/-- The widths of the fraction and of the exponent. -/
structure Format where
  fractionBits : Nat
  exponentBits : Nat
deriving DecidableEq, Repr

/-- Four bytes: 23 bits of fraction, 8 of exponent. -/
def Format.single : Format := ⟨23, 8⟩

/-- Eight bytes: 52 bits of fraction, 11 of exponent. -/
def Format.double : Format := ⟨52, 11⟩

namespace Format

variable (f : Format)

/-- The pattern of infinity, without the sign: all ones in the exponent and a zero fraction. -/
def infinity : Nat := (Nat.pow 2 f.exponentBits - 1) * Nat.pow 2 f.fractionBits

/-- The least positive number is one over two to this power. -/
def scale : Nat := Nat.pow 2 (f.exponentBits - 1) - 2 + f.fractionBits

end Format

/-- Half a unit goes to the even neighbour, or upwards. -/
inductive Tie
  | toEven
  | up
deriving DecidableEq, Repr

/-- The quotient `num / den`, rounded to the nearest whole number. -/
def roundQuotient (tie : Tie) (num den : Nat) : Nat :=
  let q := num / den
  let r := num % den
  if 2 * r < den then q
  else if den < 2 * r then q + 1
  else match tie with
    | .toEven => q + q % 2
    | .up => q + 1

/-- A number of the format `f`: its sign and the rest of its bits. -/
structure Number (f : Format) where
  negative : Bool
  magnitude : Nat
deriving DecidableEq, Repr

abbrev Single := Number .single
abbrev Double := Number .double

namespace Number

variable {f : Format}

/-- The fraction with its leading bit, and by how many places it is shifted up from the least
positive number. Means something for finite numbers only. -/
def significand (x : Number f) : Nat × Nat :=
  let fraction := x.magnitude % Nat.pow 2 f.fractionBits
  match x.magnitude / Nat.pow 2 f.fractionBits with
  | 0 => (fraction, 0)
  | e + 1 => (Nat.pow 2 f.fractionBits + fraction, e)

/-- The magnitude of a finite number, counted in the least positive number. -/
def units (x : Number f) : Nat := let (m, k) := x.significand; m * Nat.pow 2 k

def isFinite (x : Number f) : Bool := x.magnitude < f.infinity
def isInfinite (x : Number f) : Bool := x.magnitude == f.infinity
def isNaN (x : Number f) : Bool := f.infinity < x.magnitude

def zero : Number f := ⟨false, 0⟩

instance : Inhabited (Number f) := ⟨zero⟩

def nan : Number f := ⟨false, f.infinity + Nat.pow 2 (f.fractionBits - 1)⟩

/-- Equality of values: the two zeros are equal, and what is no number differs from itself. -/
def same (x y : Number f) : Bool :=
  !x.isNaN && !y.isNaN && (x == y || (x.magnitude == 0 && y.magnitude == 0))

/-- Strictly above zero. -/
def isPositive (x : Number f) : Bool := !x.negative && !x.isNaN && 0 < x.magnitude

/-- Between zero and the natural number `n`, both included. -/
def isWithin (n : Nat) (x : Number f) : Bool :=
  !x.isNaN && (x.magnitude == 0 || (!x.negative && x.isFinite && x.units ≤ n * Nat.pow 2 f.scale))

/-- The pattern of the number nearest to `num / den`; an exact tie goes to the even significand,
and what lies beyond the greatest number becomes infinity. -/
def nearestPattern (f : Format) (num den : Nat) : Nat :=
  let n := num * Nat.pow 2 f.scale
  let whole := n / den
  let k := Nat.log2 whole - f.fractionBits
  min (k * Nat.pow 2 f.fractionBits + roundQuotient .toEven n (den * Nat.pow 2 k)) f.infinity

/-- The number nearest to plus or minus `num / den`. -/
def ofRatio (negative : Bool) (num den : Nat) : Number f := ⟨negative, nearestPattern f num den⟩

def ofNat (n : Nat) : Number f := ofRatio false n 1

/-- The same value in another format, rounded if need be. -/
def convert {g : Format} (x : Number f) : Number g :=
  if x.isNaN then ⟨x.negative, (nan : Number g).magnitude⟩
  else if x.isInfinite then ⟨x.negative, g.infinity⟩
  else ofRatio x.negative x.units (Nat.pow 2 f.scale)

/-- The product of two numbers of like sign, rounded. -/
def mul (x y : Number f) : Number f :=
  if x.isFinite && y.isFinite then ofRatio false (x.units * y.units) (Nat.pow 2 (2 * f.scale))
  else ⟨false, f.infinity⟩

/-- The quotient of two finite positive numbers, rounded. -/
def div (x y : Number f) : Number f := ofRatio false x.units y.units

end Number

example : (Number.ofNat 1 : Single).magnitude = 0x3F800000 := by decide +kernel
example : (Number.ofRatio false 1 10 : Double).magnitude = 0x3FB999999999999A := by decide +kernel
example : (Number.ofNat 16777217 : Single) = Number.ofNat 16777216 := by decide +kernel
example : ((Number.ofRatio false 1 (Nat.pow 10 45) : Single)).magnitude = 1 := by decide +kernel

end ContainerNet.Binary
