import ContainerNet.Address.Subnet
import Mathlib.Algebra.Group.Nat.Defs

/-!
# Subnets are read back from their text

An IPv4 subnet is written as four octets and a prefix length, and the reader gives back all of it:
the bits behind the prefix are part of the text. Octets and lengths have no end of their own, so
every lemma about them says what may stand behind.

What stands behind an octet must not be read as one more digit of it, and that is all that has to be
known of it (`endsRun`). What ends a run of a wider class of characters ends a run of a narrower
one, so the end of a whole subnet is also the end of its last number. Nothing is said about texts
that are written otherwise: leading zeros are read, but never written.
-/

namespace ContainerNet

namespace Address

open Text (natChars)

/-- Whether a text does not go on with a character of a class. -/
def endsRun (p : Char → Bool) (s : List Char) : Bool := s.head?.all (!p ·)

theorem endsRun_cons {p : Char → Bool} {c : Char} {s : List Char} :
    endsRun p (c :: s) = true ↔ p c = false := by simp [endsRun]

theorem endsRun_mono {p q : Char → Bool} (h : ∀ c, q c = true → p c = true) {s : List Char}
    (hs : endsRun p s = true) : endsRun q s = true := by
  match s with
  | [] => rfl
  | c :: r =>
    refine endsRun_cons.2 (Bool.eq_false_iff.2 fun hq ↦ ?_)
    exact absurd (h c hq) (Bool.eq_false_iff.1 (endsRun_cons.1 hs))

theorem spanDigits_append {p : Char → Bool} {s rest : List Char} (hs : ∀ c ∈ s, p c = true)
    (hrest : endsRun p rest = true) : spanDigits p (s ++ rest) = (s, rest) := by
  rw [spanDigits, List.takeWhile_append_of_pos hs, List.dropWhile_append_of_pos hs]
  match rest with
  | [] => simp
  | c :: r =>
    have hc : p c = false := endsRun_cons.1 hrest
    simp [hc]

theorem readNumber?_natChars {width bound n : Nat} (hn : n < bound) (hwidth : 0 < width)
    (hbound : bound ≤ 10 ^ width) {rest : List Char} (hrest : endsRun Char.isDigit rest = true) :
    readNumber? width bound true (natChars n ++ rest) = some (n, rest) := by
  have hlength : (natChars n).length ≤ width :=
    (Nat.length_toDigits_le_iff (by decide) hwidth).2 (Nat.lt_of_lt_of_le hn hbound)
  have hvalue : Nat.ofDigitChars 10 (natChars n) 0 = n := Nat.ofDigitChars_ten_toDigits
  rw [readNumber?, spanDigits_append (List.all_eq_true.1 (Text.all_isDigit_natChars n)) hrest]
  simp only [hvalue]
  rw [if_neg, if_neg]
  · simp
  · simp [Text.natChars_ne_nil, Nat.not_lt.2 hlength, Nat.not_le.2 hn]

theorem readChar?_cons (c : Char) (s : List Char) : readChar? c (c :: s) = some s := if_pos rfl

theorem ofOctets_octets (a : Address) :
    ofOctets (a.value / 0x1000000) (a.value / 0x10000 % 256) (a.value / 0x100 % 256)
      (a.value % 256) = a := by
  have hlt : a.value < 2 ^ 32 := a.value_lt
  have hsum : ((a.value / 0x1000000 * 256 + a.value / 0x10000 % 256) * 256 +
      a.value / 0x100 % 256) * 256 + a.value % 256 = a.value := by omega
  rw [ofOctets, hsum]
  exact ext_value (value_ofNat a.value_lt)

theorem chars_eq (a : Address) :
    a.chars = natChars (a.value / 0x1000000) ++ '.' :: (natChars (a.value / 0x10000 % 256) ++
      '.' :: (natChars (a.value / 0x100 % 256) ++ '.' :: natChars (a.value % 256))) := by
  simp [chars, octets, List.intercalate, List.intersperse]

theorem read?_chars (a : Address) {rest : List Char} (hrest : endsRun Char.isDigit rest = true) :
    read? true (a.chars ++ rest) = some (a, rest) := by
  have hlt : a.value < 2 ^ 32 := a.value_lt
  have octet {n : Nat} (hn : n < 256) {s : List Char} (hs : endsRun Char.isDigit s = true) :
      readNumber? 3 256 true (natChars n ++ s) = some (n, s) :=
    readNumber?_natChars hn (by decide) (by decide) hs
  rw [chars_eq, List.append_assoc, List.cons_append, List.append_assoc, List.cons_append,
    List.append_assoc, List.cons_append, read?, octet (by omega) rfl]
  simp only [Option.bind_eq_bind, Option.bind_some, readChar?_cons, Option.pure_def]
  rw [octet (by omega) rfl]
  simp only [Option.bind_some, readChar?_cons]
  rw [octet (by omega) rfl]
  simp only [Option.bind_some, readChar?_cons]
  rw [octet (by omega) hrest]
  simp only [Option.bind_some, ofOctets_octets]

end Address

namespace Subnet

/-- A subnet is read back from its text, the bits behind the prefix included. -/
@[simp] theorem parse?_text (net : Subnet) : parse? net.text = some net := by
  have hread : read? net.chars = some (net, []) := by
    rw [chars, read?, Address.read?_chars net.address rfl]
    simp only [Option.bind_eq_bind, Option.bind_some, Address.readChar?_cons]
    have hlength : Address.readNumber? 2 33 true (Text.natChars net.length ++ []) =
        some (net.length, []) :=
      Address.readNumber?_natChars (Nat.lt_succ_of_le net.length_le) (by decide) (by decide) rfl
    rw [List.append_nil] at hlength
    rw [hlength, Option.bind_some, dif_pos net.length_le]
    rfl
  rw [parse?, text, String.toList_ofList, hread]

end Subnet

end ContainerNet
