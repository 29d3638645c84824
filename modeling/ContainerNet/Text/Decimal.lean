/-!
# Decimal numerals

Numbers as decimal digits and back. `readNat?` accepts digits only, at least one of them;
`readUnsigned?` is the more liberal form of configuration values, which may carry a plus sign and
must stay below a bound. The main statement is `readNat?_natChars`: what is written reads back.
-/

namespace ContainerNet.Text

/-- The decimal digits of `n`, without leading zeros; zero is one digit. -/
def natChars (n : Nat) : List Char := Nat.toDigits 10 n

/-- The decimal digits of `n`. -/
def natText (n : Nat) : String := String.ofList (natChars n)

/-- The number that a non-empty row of digits denotes. -/
def readNat? (s : List Char) : Option Nat :=
  if s ≠ [] ∧ s.all Char.isDigit then some (Nat.ofDigitChars 10 s 0) else none

/-- The number below `bound` that the digits denote; one plus sign may stand before them. -/
def readUnsigned? (bound : Nat) (s : List Char) : Option Nat :=
  let digits := match s with
    | '+' :: r => r
    | s => s
  (readNat? digits).filter (· < bound)

/-- The digits of `n` in base sixteen, in lower case. -/
def hexChars (n : Nat) : List Char := Nat.toDigits 16 n

/-- Two or four digits in base sixteen, padded with zeros on the left. -/
def hexPadded (width n : Nat) : List Char :=
  let s := hexChars n
  List.replicate (width - s.length) '0' ++ s

/-- The value of a digit in base sixteen, in either case. -/
def hexValue? (c : Char) : Option Nat :=
  if c.isDigit then some (c.toNat - 48)
  else if 'a' ≤ c ∧ c ≤ 'f' then some (c.toNat - 87)
  else if 'A' ≤ c ∧ c ≤ 'F' then some (c.toNat - 55)
  else none

theorem all_isDigit_natChars (n : Nat) : (natChars n).all Char.isDigit = true :=
  List.all_eq_true.2 fun _ h ↦
    Nat.isDigit_of_mem_toDigits (b := 10) (n := n) (by decide) (by decide) h

theorem natChars_ne_nil (n : Nat) : natChars n ≠ [] := Nat.toDigits_ne_nil

@[simp] theorem readNat?_natChars (n : Nat) : readNat? (natChars n) = some n := by
  rw [readNat?, if_pos ⟨natChars_ne_nil n, all_isDigit_natChars n⟩]
  simp [natChars]

end ContainerNet.Text
