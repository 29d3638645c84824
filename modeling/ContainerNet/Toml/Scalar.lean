import ContainerNet.Toml.Value

/-!
# TOML scalars

Truth values, numbers, dates and times, each from the run of characters that makes it up. Single
underscores may stand between the digits of a number. Behind the first underscore only the
neighbours of underscores are looked at while a document is read, so there are numerals that denote
no number.
-/

namespace ContainerNet.Toml

open Binary (Double)

/-- The digits of a numeral without the underscores between them. -/
def ungroup? (isDigit : Char → Bool) : List Char → Option (List Char)
  | [] => none
  | [c] => if isDigit c then some [c] else none
  | c :: '_' :: r => if isDigit c then (c :: ·) <$> ungroup? isDigit r else none
  | c :: r => if isDigit c then (c :: ·) <$> ungroup? isDigit r else none

/-- Splits a text at the first character of a kind, if there is one. -/
def splitAt? (p : Char → Bool) (s : List Char) : List Char × Option (List Char) :=
  (s.takeWhile (!p ·), match s.dropWhile (!p ·) with
    | [] => none
    | _ :: r => some r)

/-! ## Numbers -/

/-- Decimal digits without a zero in front. -/
def decimalDigits? (s : List Char) : Option (List Char) :=
  match ungroup? Char.isDigit s with
  | some ('0' :: _ :: _) => none
  | digits => digits

/-- The number of digits in a base up to sixteen. -/
def inBase? (base : Nat) (s : List Char) : Option Nat := do
  let isDigit (c : Char) : Bool := (Text.hexValue? c).any (· < base)
  let digits ← ungroup? isDigit s
  return digits.foldl (fun n c ↦ n * base + (Text.hexValue? c).getD 0) 0

/-- A sign, if there is one, and the rest. -/
def sign : List Char → Option Bool × List Char
  | '+' :: r => (some false, r)
  | '-' :: r => (some true, r)
  | s => (none, s)

/-- A whole number: decimal with an optional sign, or in another base without one. -/
def integer? (s : List Char) : Option Int :=
  match s with
  | '0' :: 'x' :: r => (inBase? 16 r).map Int.ofNat
  | '0' :: 'o' :: r => (inBase? 8 r).map Int.ofNat
  | '0' :: 'b' :: r => (inBase? 2 r).map Int.ofNat
  | s => do
    let (negative, r) := sign s
    let n := Nat.ofDigitChars 10 (← decimalDigits? r) 0
    return if negative = some true then -(Int.ofNat n) else Int.ofNat n

/-- The number nearest to `n * 10 ^ e`; what is far out of range is not worked out. -/
def scaled (negative : Bool) (n : Nat) (e : Int) : Double :=
  if n = 0 then ⟨negative, 0⟩
  else if 0 ≤ e then
    if 400 < e then ⟨negative, Binary.Format.double.infinity⟩
    else .ofRatio negative (n * Nat.pow 10 e.toNat) 1
  else if (Text.natChars n).length + 400 < (-e).toNat then ⟨negative, 0⟩
  else .ofRatio negative n (Nat.pow 10 (-e).toNat)

/-- The exponent of a float, behind its mark. -/
def exponent? : Option (List Char) → Option Int
  | none => some 0
  | some s => do
    let (negative, r) := sign s
    let n := Nat.ofDigitChars 10 (← ungroup? Char.isDigit r) 0
    return if negative = some true then -(Int.ofNat n) else Int.ofNat n

/-- The number that a float denotes, which may be too great. -/
def float? (s : List Char) : Option Double :=
  let (negative, r) := sign s
  let negative := negative = some true
  if r = ['i', 'n', 'f'] then some ⟨negative, Binary.Format.double.infinity⟩
  else if r = ['n', 'a', 'n'] then some { (.nan : Double) with negative }
  else do
    let (mantissa, exponent) := splitAt? (fun c ↦ c = 'e' || c = 'E') r
    let (whole, fraction) := splitAt? (· = '.') mantissa
    if fraction.isNone && exponent.isNone then none
    let whole ← decimalDigits? whole
    let fraction ← match fraction with
      | none => some []
      | some f => ungroup? Char.isDigit f
    let e ← exponent? exponent
    return scaled negative (Nat.ofDigitChars 10 (whole ++ fraction) 0) (e - fraction.length)

/-- The scalar that a float is; an infinity that is not written as one is not kept. -/
def floatScalar (s : List Char) (x : Double) : Toml :=
  if x.isFinite || (sign s).2.all Char.isAlpha then .float x else .numeral (String.ofList s)

/-- Whether every underscore has digits of base sixteen as its neighbours, and none is last. -/
def isGrouped : List Char → Bool
  | [] => true
  | [c] => c ≠ '_'
  | c :: d :: r =>
    (c ≠ '_' || (Text.hexValue? d).isSome) && (d ≠ '_' || (Text.hexValue? c).isSome) &&
      isGrouped (d :: r)

/-- Whether a text has the form of a whole number, although it need not denote one: digits, an
underscore and anything behind it that is no float, or a base without digits. -/
def isNumeral (s : List Char) : Bool :=
  s ∈ [['0', 'x'], ['0', 'o'], ['0', 'b']] ||
    let r := (sign s).2
    match splitAt? (· = '_') r with
    | (front, some groups) =>
      (decimalDigits? front).isSome && front ≠ ['0'] && isGrouped r &&
        !groups.any fun c ↦ c = '.' || c = 'e' || c = 'E' || c = ' '
    | (_, none) => false

/-! ## Dates and times -/

/-- A number of a fixed count of digits below a bound, at the front of a text. -/
def fixed? (width low high : Nat) (s : List Char) : Option (Nat × List Char) :=
  let digits := s.take width
  let n := Nat.ofDigitChars 10 digits 0
  if digits.length = width ∧ digits.all Char.isDigit ∧ low ≤ n ∧ n ≤ high then
    some (n, s.drop width)
  else none

def char? (c : Char) : List Char → Option (List Char)
  | d :: r => if c = d then some r else none
  | [] => none

def daysInMonth (year month : Nat) : Nat :=
  if month = 2 then
    if year % 4 = 0 ∧ (year % 100 ≠ 0 ∨ year % 400 = 0) then 29 else 28
  else if month ∈ [4, 6, 9, 11] then 30 else 31

/-- A date, and what follows it. -/
def date? (s : List Char) : Option (List Char) := do
  let (year, s) ← fixed? 4 0 9999 s
  let (month, s) ← fixed? 2 1 12 (← char? '-' s)
  let (_, s) ← fixed? 2 1 (daysInMonth year month) (← char? '-' s)
  return s

/-- The fraction of a second, and what follows it. -/
def subsecond? : List Char → Option (List Char)
  | '.' :: r => if (r.takeWhile Char.isDigit).isEmpty then none else some (r.dropWhile Char.isDigit)
  | s => some s

/-- A time of day, and what follows it. The seconds may be left out. -/
def time? (s : List Char) : Option (List Char) := do
  let (_, s) ← fixed? 2 0 23 s
  let (_, s) ← fixed? 2 0 59 (← char? ':' s)
  match s with
  | ':' :: r =>
    let (_, r) ← fixed? 2 0 60 r
    subsecond? r
  | s => return s

/-- The distance of a time from the standard time, or nothing. -/
def isOffset (s : List Char) : Bool :=
  match s with
  | [] | ['Z'] | ['z'] => true
  | c :: r =>
    (c = '+' || c = '-') &&
      (do
        let (_, r) ← fixed? 2 0 23 r
        let (_, r) ← fixed? 2 0 59 (← char? ':' r)
        return r.isEmpty).getD false

/-- Whether a text is a date, a time of day, or a date with a time. -/
def isMoment (s : List Char) : Bool :=
  match date? s with
  | none => (time? s) == some []
  | some [] => true
  | some (c :: r) => (c = 'T' || c = 't' || c = ' ') && ((time? r).map isOffset).getD false

/-! ## Scalars -/

/-- May stand in a scalar that is not quoted: whatever has no other meaning. -/
def isScalarChar (c : Char) : Bool :=
  c ∉ ['=', ',', '[', ']', '\x7b', '\x7d', ' ', '\t', '#', '\r', '\n']

/-- The scalar that a run of characters makes up. -/
def scalar? (s : List Char) : Option Toml :=
  if s = "true".toList then some (.bool true)
  else if s = "false".toList then some (.bool false)
  else ((integer? s).map .integer).or <| ((float? s).map (floatScalar s)).or <|
    if isMoment s then some (.moment (String.ofList s))
    else if isNumeral s then some (.numeral (String.ofList s))
    else none

/-- The scalar at the front of a text. A date may be followed by a blank and a time. -/
def readScalar? (s : List Char) : Option (Toml × List Char) :=
  let run := s.takeWhile isScalarChar
  let rest := s.dropWhile isScalarChar
  match date? run, rest with
  | some [], ' ' :: c :: r =>
    if c.isDigit then
      let more := (c :: r).takeWhile isScalarChar
      (scalar? (run ++ ' ' :: more)).map (·, (c :: r).dropWhile isScalarChar)
    else (scalar? run).map (·, rest)
  | _, _ => (scalar? run).map (·, rest)

example : (integer? "-1_000".toList, integer? "0xFf".toList, integer? "007".toList) =
    (some (-1000), some 255, none) := by decide +kernel

example : (integer? "-_7".toList, integer? "-7".toList) = (none, some (-7)) := by decide +kernel

example : (["1e1_0", "-0.5", "6.", ".5", "inf", "1e400"].map fun s ↦ (float? s.toList).isSome) =
    [true, true, false, false, true, true] := by decide +kernel

example : (["0x", "1_0x", "+1_f", "-9_z", "1__0", "1_", "1_e", "0_1"].map fun s ↦
    isNumeral s.toList) = [true, true, true, false, false, false, false, false] := by
  decide +kernel

example : (["1979-05-27T07:32:00.5-07:00", "07:32", "1979-02-29", "1979-05-27 00:00Z"].map
    fun s ↦ isMoment s.toList) = [true, true, false, true] := by decide +kernel

end ContainerNet.Toml
