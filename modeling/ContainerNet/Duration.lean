import ContainerNet.Text.Decimal

/-!
# Durations

A length of time in whole nanoseconds. Its text names the largest of the units second, millisecond,
microsecond and nanosecond of which it holds at least one, with the rest as a decimal fraction.
-/

namespace ContainerNet

/-- A length of time. -/
structure Duration where
  nanos : Nat
deriving DecidableEq, Repr, Inhabited

namespace Duration

def zero : Duration := ⟨0⟩
def ofMicros (n : Nat) : Duration := ⟨n * 1000⟩
def ofMillis (n : Nat) : Duration := ⟨n * 1000000⟩
def ofSeconds (n : Nat) : Duration := ⟨n * 1000000000⟩

def isZero (d : Duration) : Bool := d.nanos == 0

/-- Whole microseconds, the rest cut off. -/
def micros (d : Duration) : Nat := d.nanos / 1000

/-- Whole milliseconds, the rest cut off. -/
def millis (d : Duration) : Nat := d.nanos / 1000000

/-- The digits of `rest / 10 ^ width` behind the point, without trailing zeros. -/
private def fraction (rest width : Nat) : List Char :=
  let s := Text.natChars rest
  let padded := List.replicate (width - s.length) '0' ++ s
  let digits := (padded.reverse.dropWhile (· == '0')).reverse
  if digits.isEmpty then [] else '.' :: digits

/-- The count of units of `10 ^ width` nanoseconds, as a decimal number. -/
private def inUnits (d : Duration) (width : Nat) : List Char :=
  Text.natChars (d.nanos / Nat.pow 10 width) ++ fraction (d.nanos % Nat.pow 10 width) width

def text (d : Duration) : String :=
  String.ofList <|
    if 1000000000 ≤ d.nanos then d.inUnits 9 ++ ['s']
    else if 1000000 ≤ d.nanos then d.inUnits 6 ++ ['m', 's']
    else if 1000 ≤ d.nanos then d.inUnits 3 ++ ['µ', 's']
    else d.inUnits 0 ++ ['n', 's']

example : (ofMillis 2175).text = "2.175s" := by decide +kernel
example : (ofMillis 90061001).text = "90061.001s" := by decide +kernel
example : zero.text = "0ns" := by decide +kernel

end Duration

end ContainerNet
