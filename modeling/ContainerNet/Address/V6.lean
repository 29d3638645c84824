import ContainerNet.Address.V4

/-!
# IPv6 addresses

Addresses as eight groups. The text shortens the first longest run of at least two zero groups,
and writes an embedded IPv4 address with dots. The reader takes groups in front of `::` and groups
behind it; an IPv4 address may stand for the last two groups.
-/

namespace ContainerNet

/-- An IPv6 address. -/
structure Address6 where
  bits : BitVec 128
deriving DecidableEq, Repr, Inhabited

namespace Address6

/-- The number of the groups, most significant first. -/
def ofGroups (groups : List Nat) : Address6 :=
  ⟨BitVec.ofNat 128 (groups.foldl (fun n g ↦ n * 65536 + g) 0)⟩

/-- The eight groups, most significant first. -/
def groups (a : Address6) : List Nat :=
  (List.range 8).map fun i ↦ a.bits.toNat / Nat.pow 65536 (7 - i) % 65536

/-! ## Writing -/

/-- The length of the run of zeros that starts at each place. -/
def zeroRuns : List Nat → List Nat
  | [] => []
  | g :: r =>
    let rest := zeroRuns r
    (if g = 0 then rest.headD 0 + 1 else 0) :: rest

/-- The start and the length of the first longest run of zeros. -/
def longestRun (groups : List Nat) : Nat × Nat :=
  let runs := zeroRuns groups
  let longest := runs.foldl max 0
  (runs.findIdx (· == longest), longest)

def groupChars (groups : List Nat) : List Char :=
  [':'].intercalate (groups.map Text.hexChars)

/-- The text of an address. -/
def chars (a : Address6) : List Char :=
  let groups := a.groups
  match groups with
  | [0, 0, 0, 0, 0, 0xFFFF, hi, lo] =>
    "::ffff:".toList ++ (Address.ofNat (hi * 65536 + lo)).chars
  | _ =>
    let (start, length) := longestRun groups
    if 1 < length then
      groupChars (groups.take start) ++ ':' :: ':' :: groupChars (groups.drop (start + length))
    else groupChars groups

def text (a : Address6) : String := String.ofList a.chars

/-! ## Reading -/

def isHexDigit (c : Char) : Bool := (Text.hexValue? c).isSome

/-- A group at the front of a text: one to four digits in base sixteen. -/
def readGroup? (s : List Char) : Option (Nat × List Char) :=
  let (digits, rest) := Address.spanDigits isHexDigit s
  if digits.isEmpty || 4 < digits.length then none
  else some (digits.foldl (fun n c ↦ n * 16 + (Text.hexValue? c).getD 0) 0, rest)

/-- Up to `limit` groups, the first of them without a colon in front if `first`. Says whether an
IPv4 address stood for the last two. -/
def readGroups (leadingZeros first : Bool) (s : List Char) :
    Nat → List Nat × Bool × List Char
  | 0 => ([], false, s)
  | limit + 1 =>
    match (if first then some s else Address.readChar? ':' s) with
    | none => ([], false, s)
    | some t =>
      match (if limit = 0 then none else Address.read? leadingZeros t) with
      | some (a, rest) => ([a.value / 65536, a.value % 65536], true, rest)
      | none =>
        match readGroup? t with
        | none => ([], false, s)
        | some (g, rest) =>
          let (gs, embedded, rest) := readGroups leadingZeros false rest limit
          (g :: gs, embedded, rest)

/-- An address at the front of a text. The liberal reader allows zeros in front of an octet, and
lets `::` stand between eight groups for none. -/
def read? (liberal : Bool) (s : List Char) : Option (Address6 × List Char) := do
  let (head, embedded, rest) := readGroups liberal true s 8
  if head.length = 8 then return (ofGroups head, rest)
  if embedded then none
  let rest ← Address.readChar? ':' (← Address.readChar? ':' rest)
  let limit := (if liberal then 8 else 7) - head.length
  let (tail, _, rest) := readGroups liberal true rest limit
  let zeros := List.replicate (8 - head.length - tail.length) 0
  return (ofGroups (head ++ zeros ++ tail), rest)

end Address6

end ContainerNet
