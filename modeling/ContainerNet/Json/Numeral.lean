import ContainerNet.Json.Value

/-!
# JSON numerals

A numeral in a text, and the number it denotes. A numeral without a fraction and an exponent is a
whole number if it fits; all others become floating-point numbers by a short route that is not
correctly rounded: as many digits as fit eight bytes are read as a whole number, which is rounded
once, and then multiplied or divided by a rounded power of ten.
-/

namespace ContainerNet.Json

open Binary (Double Number)

/-- The parts of a numeral, each as its digits. -/
structure Numeral where
  negative : Bool
  whole : List Char
  fraction : Option (List Char)
  /-- Whether the exponent is negative, and its digits. -/
  exponent : Option (Bool × List Char)
deriving DecidableEq, Repr

namespace Numeral

def wordBound : Nat := UInt64.size

def digitValue (c : Char) : Nat := c.toNat - 48

/-- Reads digits onto `n` as long as the result fits eight bytes; the digits left over start with
the first that does not fit. -/
def accumulate (n : Nat) : List Char → Nat × List Char
  | [] => (n, [])
  | c :: r =>
    let next := n * 10 + digitValue c
    if next < wordBound then accumulate next r else (n, c :: r)

/-- The rounded power of ten. -/
def power (n : Nat) : Double := Number.ofNat (Nat.pow 10 n)

/-- Divides by a power of ten, in steps where the power itself is too great for a number. -/
def scaleDown (x : Double) (n : Nat) : Double :=
  if n ≤ 308 then x.div (power n)
  else if x.magnitude = 0 then x
  else scaleDown (x.div (power 308)) (n - 308)
termination_by n

/-- The number `n * 10 ^ e`, or `none` if it is too great. -/
def scaled? (n : Nat) (e : Int) : Option Double :=
  let x : Double := Number.ofNat n
  if e < 0 then some (scaleDown x (-e).toNat)
  else if n = 0 then some x
  else if e ≤ 308 then
    let y := x.mul (power e.toNat)
    if y.isFinite then some y else none
  else none

/-- The number that a numeral denotes, or `none` if it is too great for eight bytes. -/
def value? (s : Numeral) : Option Json.Number :=
  let (n, left) := accumulate 0 s.whole
  match s.fraction, s.exponent, left with
  | none, none, [] =>
    if !s.negative then some (.whole n)
    else if 0 < n ∧ n ≤ UInt64.size / 2 then some (.below n)
    else some (.double { (Number.ofNat n : Double) with negative := true })
  | fraction, exponent, left =>
    let (m, unread) := accumulate n (fraction.getD [])
    let shift : Int := left.length - ((fraction.getD []).length - unread.length : Nat)
    let e : Int := match exponent with
      | none => 0
      | some (negative, digits) =>
        let k : Int := Nat.ofDigitChars 10 digits 0
        if negative then -k else k
    (scaled? m (shift + e)).map fun x ↦ .double { x with negative := s.negative }

end Numeral

end ContainerNet.Json
