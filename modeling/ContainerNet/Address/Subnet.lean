import ContainerNet.Address.V6

/-!
# Subnets

A subnet is an address with a prefix length; the bits behind the prefix are kept, since a subnet
also serves to write an address together with its network. Membership looks only at the bits of
the prefix: `contains` says whether an address lies in a subnet, and `covers` whether a whole
subnet does.
-/

namespace ContainerNet

/-- An IPv4 address with a prefix length. -/
structure Subnet where
  address : Address
  length : Nat
  length_le : length ≤ 32 := by decide
deriving DecidableEq, Repr

/-- An IPv6 address with a prefix length. -/
structure Subnet6 where
  address : Address6
  length : Nat
  length_le : length ≤ 128 := by decide
deriving DecidableEq, Repr

/-- A subnet of either family. -/
inductive AnySubnet
  | v4 (net : Subnet)
  | v6 (net : Subnet6)
deriving DecidableEq, Repr

/-- An address of either family. -/
inductive AnyAddress
  | v4 (a : Address)
  | v6 (a : Address6)
deriving DecidableEq, Repr

namespace Subnet

instance : Inhabited Subnet := ⟨{ address := default, length := 0 }⟩

/-- The subnet of a dotted address and a prefix length; a longer one than 32 counts as 32. -/
def ofOctets (a b c d length : Nat) : Subnet where
  address := .ofOctets a b c d
  length := min length 32
  length_le := Nat.min_le_right length 32

/-- The number of addresses in the subnet. -/
def size (net : Subnet) : Nat := Nat.pow 2 (32 - net.length)

/-- The bits of the prefix, as a number. -/
def network (net : Subnet) : Nat := net.address.value / net.size

/-- The subnet with the bits behind the prefix cleared. -/
def truncate (net : Subnet) : Subnet :=
  { net with address := Address.ofNat (net.network * net.size) }

/-- Whether an address lies in the subnet. -/
def contains (net : Subnet) (a : Address) : Bool := a.value / net.size == net.network

/-- Whether all of the subnet `inner` lies in the subnet `net`. -/
def covers (net inner : Subnet) : Bool :=
  net.length ≤ inner.length && net.contains inner.address

/-- Whether the subnet is all addresses. -/
def isDefault (net : Subnet) : Bool := net.length == 0

/-- The address and the prefix length with a slash between them. -/
def chars (net : Subnet) : List Char := net.address.chars ++ '/' :: Text.natChars net.length

def text (net : Subnet) : String := String.ofList net.chars

/-- A subnet at the front of a text. -/
def read? (s : List Char) : Option (Subnet × List Char) := do
  let (address, s) ← Address.read? true s
  let (length, s) ← Address.readNumber? 2 33 true (← Address.readChar? '/' s)
  if h : length ≤ 32 then return (⟨address, length, h⟩, s) else none

/-- The subnet that a whole text denotes. -/
def parse? (s : String) : Option Subnet :=
  match read? s.toList with
  | some (net, []) => some net
  | _ => none

end Subnet

namespace Subnet6

def chars (net : Subnet6) : List Char := net.address.chars ++ '/' :: Text.natChars net.length

def text (net : Subnet6) : String := String.ofList net.chars

/-- A subnet at the front of a text. -/
def read? (s : List Char) : Option (Subnet6 × List Char) := do
  let (address, s) ← Address6.read? true s
  let (length, s) ← Address.readNumber? 3 129 true (← Address.readChar? '/' s)
  if h : length ≤ 128 then return (⟨address, length, h⟩, s) else none

/-- The subnet that a whole text denotes. -/
def parse? (s : String) : Option Subnet6 :=
  match read? s.toList with
  | some (net, []) => some net
  | _ => none

end Subnet6

namespace AnySubnet

def text : AnySubnet → String
  | .v4 net => net.text
  | .v6 net => net.text

/-- The subnet that a whole text denotes. -/
def parse? (s : String) : Option AnySubnet :=
  ((Subnet.parse? s).map .v4).or ((Subnet6.parse? s).map .v6)

/-- The IPv4 subnet, if it is one. -/
def v4? : AnySubnet → Option Subnet
  | .v4 net => some net
  | .v6 _ => none

/-- The IPv6 subnet, if it is one. -/
def v6? : AnySubnet → Option Subnet6
  | .v4 _ => none
  | .v6 net => some net

end AnySubnet

namespace AnyAddress

def text : AnyAddress → String
  | .v4 a => a.text
  | .v6 a => a.text

/-- The address that a whole text denotes, written without zeros in front of an octet. -/
def parse? (s : String) : Option AnyAddress :=
  match Address.read? false s.toList with
  | some (a, []) => some (.v4 a)
  | _ =>
    match Address6.read? false s.toList with
    | some (a, []) => some (.v6 a)
    | _ => none

end AnyAddress

example : (Subnet.parse? "016.1.1.1/8").map Subnet.text = some "16.1.1.1/8" := by decide +kernel
example : Subnet.parse? "16.0.2.0/33" = none := by decide +kernel
example : (AnySubnet.parse? "fd00:0:0:1::5/64").map AnySubnet.text = some "fd00:0:0:1::5/64" := by
  decide +kernel
example : (AnyAddress.parse? "::ffff:1.2.3.4").map AnyAddress.text = some "::ffff:1.2.3.4" := by
  decide +kernel

end ContainerNet
