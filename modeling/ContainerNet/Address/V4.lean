import ContainerNet.Text.Decimal

/-!
# IPv4 addresses

Addresses as numbers below `2 ^ 32`, their dotted text, and the reader of that text. Two readers
are in use: subnets allow zeros in front of an octet, bare addresses do not; the reader takes the
choice as an argument. Readers work on the front of a text and give the rest back.
-/

namespace ContainerNet

/-- An IPv4 address. -/
structure Address where
  bits : UInt32
deriving DecidableEq, Repr, Inhabited

namespace Address

def value (a : Address) : Nat := a.bits.toNat

def ofNat (n : Nat) : Address := ⟨UInt32.ofNat n⟩

def ofOctets (a b c d : Nat) : Address := ofNat (((a * 256 + b) * 256 + c) * 256 + d)

theorem value_lt (a : Address) : a.value < UInt32.size := a.bits.toNat_lt

@[ext] theorem ext_value {a b : Address} (h : a.value = b.value) : a = b := by
  cases a; cases b; simpa [value, UInt32.toNat_inj] using h

theorem value_ofNat {n : Nat} (h : n < UInt32.size) : (ofNat n).value = n :=
  UInt32.toNat_ofNat_of_lt' h

/-- The four octets, most significant first. -/
def octets (a : Address) : List Nat :=
  [a.value / 0x1000000, a.value / 0x10000 % 256, a.value / 0x100 % 256, a.value % 256]

/-- The dotted text. -/
def chars (a : Address) : List Char :=
  ['.'].intercalate (a.octets.map Text.natChars)

def text (a : Address) : String := String.ofList a.chars

/-! ## Reading -/

/-- The digits at the front of a text, and the rest. -/
def spanDigits (isDigit : Char → Bool) (s : List Char) : List Char × List Char :=
  (s.takeWhile isDigit, s.dropWhile isDigit)

/-- A number of one to `width` decimal digits below `bound`, at the front of a text. -/
def readNumber? (width bound : Nat) (leadingZeros : Bool) (s : List Char) :
    Option (Nat × List Char) :=
  let (digits, rest) := spanDigits Char.isDigit s
  let n := Nat.ofDigitChars 10 digits 0
  if digits.isEmpty || width < digits.length || bound ≤ n then none
  else if !leadingZeros && 1 < digits.length && digits.head? = some '0' then none
  else some (n, rest)

/-- A given character at the front of a text. -/
def readChar? (c : Char) : List Char → Option (List Char)
  | d :: r => if c = d then some r else none
  | [] => none

/-- An address at the front of a text. -/
def read? (leadingZeros : Bool) (s : List Char) : Option (Address × List Char) := do
  let (a, s) ← readNumber? 3 256 leadingZeros s
  let (b, s) ← readNumber? 3 256 leadingZeros (← readChar? '.' s)
  let (c, s) ← readNumber? 3 256 leadingZeros (← readChar? '.' s)
  let (d, s) ← readNumber? 3 256 leadingZeros (← readChar? '.' s)
  return (ofOctets a b c d, s)

end Address

end ContainerNet
