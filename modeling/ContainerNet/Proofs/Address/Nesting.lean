import ContainerNet.Address.Subnet

/-!
# Nesting of subnets

Two subnets that share an address are nested: the one with the shorter prefix covers the other.
This is what makes the longest prefix a well-defined choice, and all statements about lookups rest
on it. Clearing the bits behind a prefix changes nothing about the addresses of a subnet, and two
subnets that share an address and have one length are the same once those bits are cleared.

## Subnets as numbers

A prefix of some length cuts the addresses into blocks of one size, and a subnet is a block with a
number: to contain an address is to have the number of the block that the address is in
(`contains_iff`). The blocks of a shorter prefix are larger by a whole factor, so a block of a
longer one lies in one of them as a whole, and whether it does can be seen at any of its addresses.
-/

namespace ContainerNet

namespace Subnet

variable {m n : Subnet} {a : Address}

theorem size_pos (n : Subnet) : 0 < n.size := Nat.two_pow_pos _

theorem contains_iff : n.contains a = true ↔ a.value / n.size = n.network := by
  rw [contains, beq_iff_eq]

theorem size_eq_mul_of_length_le (h : m.length ≤ n.length) :
    m.size = n.size * Nat.pow 2 (n.length - m.length) := by
  have hm := m.length_le
  have hn := n.length_le
  rw [size, size, Nat.pow_eq, Nat.pow_eq, Nat.pow_eq, ← Nat.pow_add]
  congr 1
  omega

/-! ## Clearing the bits behind the prefix -/

@[simp] theorem length_truncate (n : Subnet) : n.truncate.length = n.length := rfl

@[simp] theorem size_truncate (n : Subnet) : n.truncate.size = n.size := rfl

theorem value_truncate (n : Subnet) : n.truncate.address.value = n.network * n.size := by
  have hle : n.network * n.size ≤ n.address.value := Nat.div_mul_le_self _ _
  exact Address.value_ofNat (Nat.lt_of_le_of_lt hle n.address.value_lt)

@[simp] theorem network_truncate (n : Subnet) : n.truncate.network = n.network := by
  rw [network, value_truncate, size_truncate, Nat.mul_div_cancel _ n.size_pos]

@[simp] theorem contains_truncate (n : Subnet) (a : Address) :
    n.truncate.contains a = n.contains a := by
  rw [contains, contains, network_truncate, size_truncate]

@[simp] theorem truncate_truncate (n : Subnet) : n.truncate.truncate = n.truncate := by
  rw [truncate, network_truncate, size_truncate]
  rfl

@[simp] theorem isDefault_truncate (n : Subnet) : n.truncate.isDefault = n.isDefault := rfl

/-! ## Nesting -/

theorem covers_iff : m.covers n = true ↔ m.length ≤ n.length ∧ m.contains n.address = true := by
  rw [covers, Bool.and_eq_true, decide_eq_true_eq]

theorem covers_self (n : Subnet) : n.covers n = true :=
  covers_iff.mpr ⟨Nat.le_refl _, contains_iff.mpr rfl⟩

/-- Whether a longer prefix lies in a shorter one can be seen at any of its addresses. -/
theorem contains_address_iff (h : m.length ≤ n.length) (ha : n.contains a = true) :
    m.contains n.address = true ↔ m.contains a = true := by
  have hsize := size_eq_mul_of_length_le h
  have hshare : n.address.value / m.size = a.value / m.size := by
    rw [hsize, ← Nat.div_div_eq_div_mul, ← Nat.div_div_eq_div_mul, contains_iff.mp ha, network]
  rw [contains_iff, contains_iff, hshare]

theorem contains_of_covers (h : m.covers n = true) (ha : n.contains a = true) :
    m.contains a = true := by
  obtain ⟨hlen, haddr⟩ := covers_iff.mp h
  exact (contains_address_iff hlen ha).mp haddr

theorem covers_of_contains (h : m.length ≤ n.length) (hm : m.contains a = true)
    (hn : n.contains a = true) : m.covers n = true :=
  covers_iff.mpr ⟨h, (contains_address_iff h hn).mpr hm⟩

theorem truncate_eq_of_contains (h : m.length = n.length) (hm : m.contains a = true)
    (hn : n.contains a = true) : m.truncate = n.truncate := by
  have hsize : m.size = n.size := by rw [size, size, h]
  have hnet : m.network = n.network := by
    rw [← contains_iff.mp hm, ← contains_iff.mp hn, hsize]
  rw [truncate, truncate, hsize, hnet]
  congr 1

/-! ## The default destination -/

theorem length_eq_zero_of_isDefault (h : n.isDefault = true) : n.length = 0 := by
  rwa [isDefault, beq_iff_eq] at h

theorem contains_of_isDefault (h : n.isDefault = true) (a : Address) : n.contains a = true := by
  have hlen : n.length = 0 := length_eq_zero_of_isDefault h
  have hsize : n.size = UInt32.size := by
    rw [size, hlen]
  have hzero (b : Address) : b.value / n.size = 0 := by
    rw [hsize]
    exact Nat.div_eq_of_lt b.value_lt
  rw [contains_iff, network, hzero, hzero]

theorem length_pos_of_not_isDefault (h : n.isDefault = false) : 0 < n.length := by
  rw [isDefault, beq_eq_false_iff_ne] at h
  exact Nat.pos_of_ne_zero h

end Subnet

end ContainerNet
