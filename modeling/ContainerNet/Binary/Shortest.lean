import ContainerNet.Binary.Format

/-!
# Shortest decimals

A finite number is written with the fewest digits that read back as the same number, and among
those with the ones nearest to its value. `shortest` decides that in exact arithmetic: the reals
that round to the number form an interval, and for each count of digits the only candidates are
the two neighbours of the value on that decimal grid.

How the digits are laid out is data: a `Layout` says which magnitudes are written without an
exponent, whether a whole number keeps a point and a zero, and where an exact tie goes.
-/

namespace ContainerNet.Binary

/-- A decimal `digits * 10 ^ exponent`. -/
structure Decimal where
  digits : Nat
  exponent : Int
deriving DecidableEq, Repr

/-- `n * 10 ^ e` as a quotient of natural numbers. -/
def scaleTen (n : Nat) (e : Int) : Nat × Nat :=
  if 0 ≤ e then (n * Nat.pow 10 e.toNat, 1) else (n, Nat.pow 10 (-e).toNat)

namespace Number

variable {f : Format}

/-- The interval of the reals that round to a finite number, as its ends and the number itself,
all counted in quarters of the least positive number. The ends belong to it iff the significand
is even. -/
structure Interval where
  low : Nat
  value : Nat
  high : Nat
  closed : Bool

/-- Below a power of two the numbers lie twice as dense as above it. -/
def interval (x : Number f) : Interval :=
  let (m, k) := x.significand
  let below := if m == Nat.pow 2 f.fractionBits && 0 < k then 1 else 2
  ⟨(4 * m - below) * Nat.pow 2 k, 4 * m * Nat.pow 2 k, (4 * m + 2) * Nat.pow 2 k, m % 2 == 0⟩

/-- Whether the decimal `d * 10 ^ e` lies in the interval. -/
def Interval.holds (f : Format) (i : Interval) (d : Nat) (e : Int) : Bool :=
  let (p, q) := scaleTen d e
  let point := p * 4 * Nat.pow 2 f.scale
  if i.closed then i.low * q ≤ point && point ≤ i.high * q
  else i.low * q < point && point < i.high * q

/-- The best decimal on the grid of multiples of `10 ^ e`, if one lies in the interval. -/
def Interval.onGrid? (f : Format) (tie : Tie) (i : Interval) (e : Int) : Option Decimal :=
  let (p, q) := scaleTen 1 e
  let num := i.value * q
  let den := 4 * Nat.pow 2 f.scale * p
  let below := num / den
  let nearest := roundQuotient tie num den
  let other := if nearest == below then below + 1 else below
  if nearest != 0 && i.holds f nearest e then some ⟨nearest, e⟩
  else if other != 0 && i.holds f other e then some ⟨other, e⟩
  else none

/-- The exponent of the first digit of `num / den`. -/
def leadingExponent (num den : Nat) : Int :=
  if den ≤ num then ((Nat.toDigits 10 (num / den)).length : Int) - 1
  else
    let up := (Nat.toDigits 10 (den / num)).length
    if den ≤ num * Nat.pow 10 (up - 1) then -((up : Int) - 1) else -(up : Int)

/-- The first hit among grids that grow finer. -/
def Interval.search (f : Format) (tie : Tie) (i : Interval) (e : Int) : Nat → Decimal
  | 0 => ⟨0, 0⟩
  | fuel + 1 =>
    match i.onGrid? f tie e with
    | some d => d
    | none => i.search f tie (e - 1) fuel

/-- The shortest decimal of a finite positive number; seventeen digits always suffice. -/
def shortest (tie : Tie) (x : Number f) : Decimal :=
  let i := x.interval
  i.search f tie (leadingExponent i.value (4 * Nat.pow 2 f.scale)) 20

end Number

/-- How the digits of a number are laid out. A magnitude whose first digit has an exponent from
`positionalFrom` up to, but not including, `positionalBelow` is written without one. -/
structure Layout where
  positionalFrom : Option Int
  positionalBelow : Option Int
  wholePoint : Bool
  tie : Tie

namespace Layout

/-- The digits without an exponent, the first of them at the place of ten to the power `first`. -/
def positional (l : Layout) (digits : List Char) (first : Int) : List Char :=
  let n : Int := digits.length
  if n ≤ first + 1 then
    digits ++ List.replicate (first + 1 - n).toNat '0' ++ (if l.wholePoint then ['.', '0'] else [])
  else if 0 ≤ first then
    digits.take (first + 1).toNat ++ '.' :: digits.drop (first + 1).toNat
  else
    '0' :: '.' :: List.replicate (-first - 1).toNat '0' ++ digits

/-- The digits with an exponent, of which the first is in front of the point. -/
def scientific (digits : List Char) (first : Int) : List Char :=
  let mantissa := match digits with
    | [] => []
    | [d] => [d]
    | d :: r => d :: '.' :: r
  let sign := if first < 0 then '-' else '+'
  mantissa ++ 'e' :: sign :: Text.natChars first.natAbs

/-- The digits of a number without trailing zeros, and the exponent of the first of them. -/
def trimmed (d : Decimal) : List Char × Int :=
  let s := Text.natChars d.digits
  let t := (s.reverse.dropWhile (· == '0')).reverse
  (t, d.exponent + s.length - 1)

/-- The text of a finite number; its sign is written for a negative zero too. -/
def finite {f : Format} (l : Layout) (x : Number f) : List Char :=
  let body :=
    if x.magnitude == 0 then '0' :: (if l.wholePoint then ['.', '0'] else [])
    else
      let (digits, first) := trimmed (x.shortest l.tie)
      let small := l.positionalFrom.any (first < ·)
      let large := l.positionalBelow.any (· ≤ first)
      if small || large then scientific digits first else l.positional digits first
  if x.negative then '-' :: body else body

/-- The text of any number, for people to read. -/
def text {f : Format} (l : Layout) (x : Number f) : List Char :=
  if x.isNaN then "NaN".toList
  else if x.isInfinite then (if x.negative then "-inf" else "inf").toList
  else l.finite x

end Layout

end ContainerNet.Binary
