import ContainerNet.Proofs.Address.Text

/-!
# IPv6 subnets are read back from their text

The text of an IPv6 address leaves out a run of zeros and may end in an IPv4 address, so the reader
has to find out three things: where a group ends, that a group is not the first octet of an IPv4
address, and how many zeros two colons stand for. The first two are settled by what may stand
behind a group, no character of `isOfGroup`; the last by counting, since there are always eight
groups.

## From groups to addresses

A row of groups is read up to where no further group begins, so one lemma serves for eight groups,
for those in front of two colons and for those behind them (`readGroups_groupChars`). What the text
leaves out is the longest run of zeros, and around it there are the groups that are written
(`eq_append_longestRun`), so the reader puts as many zeros between them as are missing from eight.
That eight groups make up the address again is the last step (`ofGroups_groups`).
-/

namespace ContainerNet

namespace Address6

open Text (hexChars hexValue?)
open Address (endsRun endsRun_cons endsRun_mono)

/-! ## Groups -/

theorem hexValue?_digitChar : ∀ n < 16, hexValue? n.digitChar = some n := by decide

theorem isHexDigit_digitChar : ∀ n < 16, isHexDigit n.digitChar = true := by decide

/-- The number that digits in base sixteen stand for. -/
def ofHexDigits (s : List Char) : Nat := s.foldl (fun n c ↦ n * 16 + (hexValue? c).getD 0) 0

theorem hexChars_of_le {n : Nat} (h : 16 ≤ n) :
    hexChars n = hexChars (n / 16) ++ [(n % 16).digitChar] :=
  Nat.toDigits_of_base_le (by decide) h

theorem ofHexDigits_hexChars (n : Nat) : ofHexDigits (hexChars n) = n := by
  induction n using Nat.strongRecOn with
  | _ n ih =>
    by_cases hn : n < 16
    · rw [hexChars, Nat.toDigits_of_lt_base hn, ofHexDigits, List.foldl_cons, List.foldl_nil,
        hexValue?_digitChar n hn, Option.getD_some, Nat.zero_mul, Nat.zero_add]
    · have hlast : n % 16 < 16 := Nat.mod_lt n (by decide)
      have hfront := ih (n / 16) (by omega)
      rw [ofHexDigits] at hfront
      rw [hexChars_of_le (Nat.le_of_not_lt hn), ofHexDigits, List.foldl_append, hfront,
        List.foldl_cons, List.foldl_nil, hexValue?_digitChar _ hlast, Option.getD_some]
      omega

theorem all_isHexDigit_hexChars (n : Nat) : ∀ c ∈ hexChars n, isHexDigit c = true := by
  induction n using Nat.strongRecOn with
  | _ n ih =>
    by_cases hn : n < 16
    · rw [hexChars, Nat.toDigits_of_lt_base hn]
      intro c hc
      rw [List.mem_singleton.1 hc]
      exact isHexDigit_digitChar n hn
    · rw [hexChars_of_le (Nat.le_of_not_lt hn)]
      intro c hc
      obtain hc | hc := List.mem_append.1 hc
      · exact ih (n / 16) (by omega) c hc
      · rw [List.mem_singleton.1 hc]
        exact isHexDigit_digitChar _ (Nat.mod_lt n (by decide))

theorem hexChars_ne_nil (n : Nat) : hexChars n ≠ [] := Nat.toDigits_ne_nil

/-- The characters that must not stand behind a group: one more digit, or the point behind the first
octet of an IPv4 address. -/
def isOfGroup (c : Char) : Bool := isHexDigit c || c == '.'

theorem isOfGroup_of_isHexDigit {c : Char} (h : isHexDigit c = true) : isOfGroup c = true := by
  rw [isOfGroup, h, Bool.true_or]

variable {g : Nat} {gs : List Nat} {s rest : List Char}

theorem endsHexDigits_of_endsGroup (h : endsRun isOfGroup rest = true) :
    endsRun isHexDigit rest = true := endsRun_mono (fun _ ↦ isOfGroup_of_isHexDigit) h

theorem readGroup?_hexChars (hg : g < 65536) (hrest : endsRun isOfGroup rest = true) :
    readGroup? (hexChars g ++ rest) = some (g, rest) := by
  have hspan : Address.spanDigits isHexDigit (hexChars g ++ rest) = (hexChars g, rest) :=
    Address.spanDigits_append (all_isHexDigit_hexChars g) (endsHexDigits_of_endsGroup hrest)
  have hlength : (hexChars g).length ≤ 4 :=
    (Nat.length_toDigits_le_iff (by decide) (by decide)).2 hg
  have hvalue := ofHexDigits_hexChars g
  rw [ofHexDigits] at hvalue
  rw [readGroup?, hspan]
  simp only [hvalue]
  rw [if_neg (by simp [hexChars_ne_nil, Nat.not_lt.2 hlength])]

theorem isHexDigit_of_isDigit {c : Char} (h : c.isDigit = true) : isHexDigit c = true := by
  rw [isHexDigit, hexValue?, if_pos h]
  rfl

theorem ne_point_of_isHexDigit {c : Char} (h : isHexDigit c = true) : c ≠ '.' := by
  rintro rfl
  exact absurd h (by decide)

/-- Behind digits in base ten at the front of a group there is no point. -/
theorem head?_dropWhile_ne (hs : ∀ c ∈ s, isHexDigit c = true)
    (hrest : endsRun isOfGroup rest = true) :
    ((s ++ rest).dropWhile Char.isDigit).head? ≠ some '.' := by
  induction s with
  | nil =>
    match rest with
    | [] => exact nofun
    | c :: r =>
      obtain ⟨hc, hpoint⟩ : isHexDigit c = false ∧ c ≠ '.' := by
        simpa [isOfGroup] using endsRun_cons.1 hrest
      have hdigit : ¬c.isDigit = true := fun h ↦ by simp [isHexDigit_of_isDigit h] at hc
      rw [List.nil_append, List.dropWhile_cons_of_neg hdigit, List.head?_cons]
      exact fun h ↦ hpoint (Option.some.inj h)
  | cons c s ih =>
    by_cases hdigit : c.isDigit = true
    · rw [List.cons_append, List.dropWhile_cons_of_pos hdigit]
      exact ih fun d hd ↦ hs d (List.mem_cons_of_mem _ hd)
    · rw [List.cons_append, List.dropWhile_cons_of_neg hdigit, List.head?_cons]
      exact fun h ↦ ne_point_of_isHexDigit (hs c List.mem_cons_self) (Option.some.inj h)

theorem readNumber?_rest {width bound n : Nat} {leadingZeros : Bool}
    (h : Address.readNumber? width bound leadingZeros s = some (n, rest)) :
    rest = s.dropWhile Char.isDigit := by
  rw [Address.readNumber?, Address.spanDigits] at h
  simp only at h
  split at h
  · cases h
  · split at h
    · cases h
    · exact (Prod.mk.inj (Option.some.inj h)).2.symm

theorem read?_eq_none (h : (s.dropWhile Char.isDigit).head? ≠ some '.') (leadingZeros : Bool) :
    Address.read? leadingZeros s = none := by
  rw [Address.read?]
  cases hn : Address.readNumber? 3 256 leadingZeros s with
  | none => rfl
  | some read =>
    obtain ⟨n, rest⟩ := read
    rw [← readNumber?_rest hn] at h
    have hchar : Address.readChar? '.' rest = none := by
      cases rest with
      | nil => rfl
      | cons c r =>
        refine if_neg ?_
        rintro rfl
        exact h rfl
    simp [hchar]

/-- A group is not taken for the first octet of an IPv4 address. -/
theorem read?_hexChars (g : Nat) (hrest : endsRun isOfGroup rest = true) :
    Address.read? true (hexChars g ++ rest) = none :=
  read?_eq_none (head?_dropWhile_ne (all_isHexDigit_hexChars g) hrest) true

/-! ## Rows of groups -/

/-- The groups behind the first, each behind its colon. -/
def colonChars (gs : List Nat) : List Char := gs.flatMap fun g ↦ ':' :: hexChars g

theorem groupChars_cons (g : Nat) (gs : List Nat) :
    groupChars (g :: gs) = hexChars g ++ colonChars gs := by
  induction gs generalizing g with
  | nil => simp [groupChars, colonChars, List.intercalate]
  | cons h gs ih =>
    have hsplit : groupChars (g :: h :: gs) = hexChars g ++ ':' :: groupChars (h :: gs) := by
      simp [groupChars, List.intercalate]
    rw [hsplit, ih, colonChars, colonChars, List.flatMap_cons, List.cons_append]

theorem endsGroup_colonChars (hrest : endsRun isOfGroup rest = true) :
    endsRun isOfGroup (colonChars gs ++ rest) = true := by
  match gs with
  | [] => exact hrest
  | _ :: _ => rfl

theorem readGroups_group {first : Bool} {limit : Nat}
    (hs : (if first then some s else Address.readChar? ':' s) = some (hexChars g ++ rest))
    (hg : g < 65536) (hrest : endsRun isOfGroup rest = true) :
    readGroups true first s (limit + 1) =
      (g :: (readGroups true false rest limit).1, (readGroups true false rest limit).2) := by
  have hnone : (if limit = 0 then none else Address.read? true (hexChars g ++ rest)) = none := by
    rw [read?_hexChars g hrest, ite_self]
  rw [readGroups, hs]
  simp only [hnone, readGroup?_hexChars hg hrest]

theorem readGroups_colonChars (hgs : ∀ g ∈ gs, g < 65536) {limit : Nat}
    (hlimit : gs.length ≤ limit) (hends : endsRun isOfGroup rest = true)
    (hrest : readGroups true false rest (limit - gs.length) = ([], false, rest)) :
    readGroups true false (colonChars gs ++ rest) limit = (gs, false, rest) := by
  induction gs generalizing limit with
  | nil => exact hrest
  | cons g gs ih =>
    obtain ⟨limit, rfl⟩ : ∃ l, limit = l + 1 :=
      Nat.exists_eq_add_of_le' (Nat.le_trans (by simp) hlimit)
    rw [List.length_cons, Nat.add_sub_add_right] at hrest
    have htail := ih (fun h hh ↦ hgs h (List.mem_cons_of_mem _ hh)) (by simpa using hlimit) hrest
    have hcolon : Address.readChar? ':' (colonChars (g :: gs) ++ rest) =
        some (hexChars g ++ (colonChars gs ++ rest)) := by
      rw [colonChars, List.flatMap_cons, ← colonChars, List.cons_append, List.cons_append,
        List.append_assoc, Address.readChar?_cons]
    rw [readGroups_group ((if_neg Bool.false_ne_true).trans hcolon) (hgs g List.mem_cons_self)
      (endsGroup_colonChars hends), htail]

/-- A row of groups is read back, up to where no further group begins. -/
theorem readGroups_groupChars (hgs : ∀ g ∈ gs, g < 65536) {limit : Nat}
    (hlimit : gs.length ≤ limit) (hends : endsRun isOfGroup rest = true)
    (hrest : readGroups true gs.isEmpty rest (limit - gs.length) = ([], false, rest)) :
    readGroups true true (groupChars gs ++ rest) limit = (gs, false, rest) := by
  match gs with
  | [] => exact hrest
  | g :: gs =>
    obtain ⟨limit, rfl⟩ : ∃ l, limit = l + 1 :=
      Nat.exists_eq_add_of_le' (Nat.le_trans (by simp) hlimit)
    rw [List.length_cons, Nat.add_sub_add_right] at hrest
    have htail := readGroups_colonChars (fun h hh ↦ hgs h (List.mem_cons_of_mem _ hh))
      (by simpa using hlimit) hends hrest
    rw [groupChars_cons, List.append_assoc, readGroups_group (if_pos rfl)
      (hgs g List.mem_cons_self) (endsGroup_colonChars hends), htail]

theorem readGroups_of_endsGroup {first : Bool} {t : List Char} {limit : Nat}
    (ht : (if first then some s else Address.readChar? ':' s) = some t)
    (hends : endsRun isOfGroup t = true) : readGroups true first s limit = ([], false, s) := by
  have hv4 : Address.read? true t = none :=
    read?_eq_none (head?_dropWhile_ne (s := []) (List.forall_mem_nil _) hends) true
  have hg : readGroup? t = none := by
    cases t with
    | nil => rfl
    | cons c r =>
      have hc : isHexDigit c = false := endsRun_cons.1 (endsHexDigits_of_endsGroup hends)
      simp [readGroup?, Address.spanDigits, hc]
  cases limit with
  | zero => rw [readGroups]
  | succ limit =>
    have hnone : (if limit = 0 then none else Address.read? true t) = none := by
      rw [hv4, ite_self]
    rw [readGroups, ht]
    simp only [hnone, hg]

theorem readGroups_of_no_colon (h : Address.readChar? ':' s = none) (limit : Nat) :
    readGroups true false s limit = ([], false, s) := by
  match limit with
  | 0 => rw [readGroups]
  | limit + 1 =>
    rw [readGroups]
    simp only [Bool.false_eq_true, if_false, h]

/-! ## Addresses -/

/-- The characters that must not stand behind an address. -/
def isOfAddress (c : Char) : Bool := isOfGroup c || c == ':'

theorem isOfAddress_of_isOfGroup {c : Char} (h : isOfGroup c = true) : isOfAddress c = true := by
  rw [isOfAddress, h, Bool.true_or]

theorem endsGroup_of_endsAddress (h : endsRun isOfAddress rest = true) :
    endsRun isOfGroup rest = true := endsRun_mono (fun _ ↦ isOfAddress_of_isOfGroup) h

theorem readGroups_of_endsAddress (h : endsRun isOfAddress rest = true) (first : Bool)
    (limit : Nat) : readGroups true first rest limit = ([], false, rest) := by
  match first with
  | true => exact readGroups_of_endsGroup (if_pos rfl) (endsGroup_of_endsAddress h)
  | false =>
    refine readGroups_of_no_colon ?_ limit
    match rest with
    | [] => rfl
    | c :: r =>
      refine if_neg ?_
      rintro rfl
      exact absurd (endsRun_cons.1 h) (by decide)

theorem read?_groupChars (hgs : ∀ g ∈ gs, g < 65536) (hlength : gs.length = 8)
    (hrest : endsRun isOfAddress rest = true) :
    read? true (groupChars gs ++ rest) = some (ofGroups gs, rest) := by
  have hread : readGroups true true (groupChars gs ++ rest) 8 = (gs, false, rest) :=
    readGroups_groupChars hgs (Nat.le_of_eq hlength) (endsGroup_of_endsAddress hrest)
      (readGroups_of_endsAddress hrest _ _)
  rw [read?, hread]
  simp only [hlength, if_true]
  rfl

/-- Two colons stand for the zeros that are missing between the groups around them. -/
theorem read?_shortened {head tail : List Nat} {run : Nat}
    (hhead : ∀ g ∈ head, g < 65536) (htail : ∀ g ∈ tail, g < 65536)
    (hlength : head.length + run + tail.length = 8) (hrun : 0 < run)
    (hrest : endsRun isOfAddress rest = true) :
    read? true (groupChars head ++ ':' :: ':' :: (groupChars tail ++ rest)) =
      some (ofGroups (head ++ List.replicate run 0 ++ tail), rest) := by
  have hstop : readGroups true head.isEmpty (':' :: ':' :: (groupChars tail ++ rest))
      (8 - head.length) = ([], false, ':' :: ':' :: (groupChars tail ++ rest)) := by
    match head.isEmpty with
    | true => exact readGroups_of_endsGroup (if_pos rfl) rfl
    | false => exact readGroups_of_endsGroup (if_neg Bool.false_ne_true) rfl
  have hfront : readGroups true true
      (groupChars head ++ ':' :: ':' :: (groupChars tail ++ rest)) 8 =
      (head, false, ':' :: ':' :: (groupChars tail ++ rest)) :=
    readGroups_groupChars hhead (by omega) rfl hstop
  have hback : readGroups true true (groupChars tail ++ rest) (8 - head.length) =
      (tail, false, rest) :=
    readGroups_groupChars htail (by omega) (endsGroup_of_endsAddress hrest)
      (readGroups_of_endsAddress hrest _ _)
  have hzeros : 8 - head.length - tail.length = run := by omega
  rw [read?, hfront]
  simp only [Address.readChar?_cons, Option.bind_eq_bind, Option.bind_some, if_true, hback, hzeros,
    Bool.false_eq_true, if_false, if_neg (show ¬head.length = 8 by omega)]
  rfl

theorem endsDigits_of_endsAddress (h : endsRun isOfAddress rest = true) :
    endsRun Char.isDigit rest = true := by
  refine endsRun_mono (fun c hc ↦ ?_) h
  exact isOfAddress_of_isOfGroup (isOfGroup_of_isHexDigit (isHexDigit_of_isDigit hc))

theorem readGroups_v4 (a : Address) (hrest : endsRun isOfAddress rest = true) (limit : Nat) :
    readGroups true false (':' :: (a.chars ++ rest)) (limit + 2) =
      ([a.value / 65536, a.value % 65536], true, rest) := by
  have hread : (if limit + 1 = 0 then none else Address.read? true (a.chars ++ rest)) =
      some (a, rest) := by
    rw [if_neg (Nat.succ_ne_zero limit)]
    exact Address.read?_chars a (endsDigits_of_endsAddress hrest)
  rw [readGroups, if_neg Bool.false_ne_true, Address.readChar?_cons]
  simp only [hread]

/-- An IPv4 address stands for the last two groups. -/
theorem read?_mapped {hi lo : Nat} (hhi : hi < 65536) (hlo : lo < 65536)
    (hrest : endsRun isOfAddress rest = true) :
    read? true ("::ffff:".toList ++ ((Address.ofNat (hi * 65536 + lo)).chars ++ rest)) =
      some (ofGroups [0, 0, 0, 0, 0, 0xFFFF, hi, lo], rest) := by
  have hvalue : (Address.ofNat (hi * 65536 + lo)).value = hi * 65536 + lo :=
    Address.value_ofNat (by unfold UInt32.size; omega)
  generalize hv4 : (Address.ofNat (hi * 65536 + lo)) = a at hvalue ⊢
  have htext : "::ffff:".toList ++ (a.chars ++ rest) =
      ':' :: ':' :: (hexChars 0xFFFF ++ ':' :: (a.chars ++ rest)) := rfl
  have hfront (s : List Char) : readGroups true true (':' :: ':' :: s) 8 =
      ([], false, ':' :: ':' :: s) := readGroups_of_endsGroup (if_pos rfl) rfl
  have hlast : readGroups true false (':' :: (a.chars ++ rest)) 7 = ([hi, lo], true, rest) := by
    have hhigh : a.value / 65536 = hi := by omega
    have hlow : a.value % 65536 = lo := by omega
    rw [readGroups_v4 a hrest 5, hhigh, hlow]
  have hback : readGroups true true (hexChars 0xFFFF ++ ':' :: (a.chars ++ rest)) 8 =
      ([0xFFFF, hi, lo], true, rest) := by
    rw [readGroups_group (if_pos rfl) (by decide) rfl, hlast]
  rw [htext, read?, hfront]
  simp only [Address.readChar?_cons, Option.bind_eq_bind, Option.bind_some, if_true,
    Bool.false_eq_true, if_false, List.length_nil, Nat.sub_zero, hback]
  rfl

theorem lt_of_mem_groups (a : Address6) : ∀ g ∈ a.groups, g < 65536 := by
  intro g hg
  obtain ⟨i, -, rfl⟩ := List.mem_map.1 hg
  exact Nat.mod_lt _ (by decide)

theorem length_groups (a : Address6) : a.groups.length = 8 := rfl

theorem foldl_digits (b n k : Nat) :
    ((List.range k).map fun i ↦ n / b ^ (k - 1 - i) % b).foldl (fun m d ↦ m * b + d) 0 =
      n % b ^ k := by
  induction k generalizing n with
  | zero => rw [Nat.pow_zero, Nat.mod_one]; rfl
  | succ k ih =>
    have hfront : (List.range k).map (fun i ↦ n / b ^ (k - i) % b) =
        (List.range k).map fun i ↦ n / b / b ^ (k - 1 - i) % b := by
      refine List.map_congr_left fun i hi ↦ ?_
      have hpow : k - i = k - 1 - i + 1 := by have := List.mem_range.1 hi; omega
      rw [hpow, Nat.pow_succ', Nat.div_div_eq_div_mul]
    rw [List.range_succ, List.map_append, List.foldl_append, Nat.add_sub_cancel, hfront, ih,
      List.map_singleton, List.foldl_cons, List.foldl_nil, Nat.sub_self, Nat.pow_zero, Nat.div_one,
      Nat.pow_succ', Nat.mod_mul, Nat.mul_comm b, Nat.add_comm]

theorem ofGroups_groups (a : Address6) : ofGroups a.groups = a := by
  have hsum : a.groups.foldl (fun n g ↦ n * 65536 + g) 0 = a.bits.toNat % 65536 ^ 8 :=
    foldl_digits 65536 a.bits.toNat 8
  have hlt : a.bits.toNat < 65536 ^ 8 := a.bits.isLt
  rw [ofGroups, hsum, Nat.mod_eq_of_lt hlt, BitVec.ofNat_toNat, BitVec.setWidth_eq]

/-! ## The run that is left out -/

theorem drop_zeroRuns (gs : List Nat) (i : Nat) :
    (zeroRuns gs).drop i = zeroRuns (gs.drop i) := by
  induction gs generalizing i with
  | nil => simp [zeroRuns]
  | cons g r ih =>
    match i with
    | 0 => rfl
    | i + 1 => exact ih i

theorem take_headD_zeroRuns (gs : List Nat) :
    gs.take ((zeroRuns gs).headD 0) = List.replicate ((zeroRuns gs).headD 0) 0 := by
  induction gs with
  | nil => rfl
  | cons g r ih =>
    rw [zeroRuns, List.headD_cons]
    by_cases hg : g = 0
    · rw [if_pos hg, List.take_succ_cons, ih, hg, List.replicate_succ]
    · rw [if_neg hg]
      rfl

theorem foldl_max_eq_or_mem (l : List Nat) (n : Nat) : l.foldl max n = n ∨ l.foldl max n ∈ l := by
  induction l generalizing n with
  | nil => exact .inl rfl
  | cons m l ih =>
    rw [List.foldl_cons]
    obtain h | h := ih (max n m)
    · rw [h]
      obtain hmax | hmax := Nat.le_total m n
      · exact .inl (Nat.max_eq_left hmax)
      · exact .inr (by rw [Nat.max_eq_right hmax]; exact List.mem_cons_self)
    · exact .inr (List.mem_cons_of_mem _ h)

/-- Around the run that is left out there are the groups that are written. -/
theorem eq_append_longestRun {start length : Nat} (h : longestRun gs = (start, length))
    (hlength : 0 < length) :
    gs = gs.take start ++ List.replicate length 0 ++ gs.drop (start + length) := by
  obtain ⟨hstart, hlongest⟩ := Prod.mk.inj h
  rw [hlongest] at hstart
  have hmem : length ∈ zeroRuns gs := by
    obtain hzero | hmem := foldl_max_eq_or_mem (zeroRuns gs) 0
    · omega
    · exact hlongest ▸ hmem
  have hfound : start < (zeroRuns gs).length := by
    rw [← hstart, List.findIdx_lt_length]
    exact ⟨length, hmem, by simp⟩
  have hrun : (zeroRuns (gs.drop start)).headD 0 = length := by
    subst hstart
    have heq : (zeroRuns gs)[(zeroRuns gs).findIdx (· == length)] = length :=
      eq_of_beq (List.findIdx_getElem (p := (· == length)) (w := hfound))
    rw [← drop_zeroRuns, List.headD_eq_head?_getD, List.head?_drop,
      List.getElem?_eq_getElem hfound, heq, Option.getD_some]
  have hzeros := take_headD_zeroRuns (gs.drop start)
  rw [hrun] at hzeros
  rw [List.append_assoc, ← hzeros, ← List.drop_drop, List.take_append_drop, List.take_append_drop]

theorem read?_chars (a : Address6) (hrest : endsRun isOfAddress rest = true) :
    read? true (a.chars ++ rest) = some (a, rest) := by
  have hgs := a.lt_of_mem_groups
  rw [chars]
  split
  · rename_i hi lo hgroups
    rw [hgroups] at hgs
    rw [List.append_assoc, read?_mapped (hgs hi (by simp)) (hgs lo (by simp)) hrest, ← hgroups,
      ofGroups_groups]
  · rcases hrun : longestRun a.groups with ⟨start, length⟩
    simp only
    by_cases hlong : 1 < length
    · have hsplit := eq_append_longestRun hrun (Nat.lt_of_succ_lt hlong)
      have hlength := congrArg List.length hsplit
      rw [length_groups, List.length_append, List.length_append, List.length_replicate] at hlength
      rw [if_pos hlong, List.append_assoc, List.cons_append, List.cons_append,
        read?_shortened (fun g hg ↦ hgs g (List.mem_of_mem_take hg))
          (fun g hg ↦ hgs g (List.mem_of_mem_drop hg)) hlength.symm (Nat.lt_of_succ_lt hlong) hrest,
        ← hsplit, ofGroups_groups]
    · rw [if_neg hlong, read?_groupChars hgs a.length_groups hrest, ofGroups_groups]

end Address6

namespace Subnet6

/-- A subnet is read back from its text, the bits behind the prefix included. -/
@[simp] theorem parse?_text (net : Subnet6) : parse? net.text = some net := by
  have hread : read? net.chars = some (net, []) := by
    rw [chars, read?, Address6.read?_chars net.address rfl]
    simp only [Option.bind_eq_bind, Option.bind_some, Address.readChar?_cons]
    have hlength : Address.readNumber? 3 129 true (Text.natChars net.length ++ []) =
        some (net.length, []) :=
      Address.readNumber?_natChars (Nat.lt_succ_of_le net.length_le) (by decide) (by decide) rfl
    rw [List.append_nil] at hlength
    rw [hlength, Option.bind_some, dif_pos net.length_le]
    rfl
  unfold parse? text
  rw [String.toList_ofList, hread]

end Subnet6

end ContainerNet
