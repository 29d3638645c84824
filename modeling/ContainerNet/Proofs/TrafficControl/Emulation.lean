import ContainerNet.Proofs.Binary.Shortest
import ContainerNet.Proofs.Configurator.Recovery
import ContainerNet.TrafficControl.Command

/-!
# What the arguments of an emulator tell apart

An emulator is described by one flat row of words in which whatever is zero is left out, so many
words of one form follow each other and it is not obvious that they can be told apart. They can,
since every value stands behind a keyword and no value is a keyword: `valuesOf` reads the values of
a keyword back, whichever settings are there. `args_eq_iff` says that two shapes get the same words
exactly if they agree on everything that takes effect.

That different percentages have different texts is no assumption here, it is
`Binary.Layout.finite_injective`.
-/

namespace ContainerNet.TrafficControl.Netem

open Binary (Single Number)

/-! ## Settings -/

/-- The words that say what the values behind them are. -/
def keywords : List String := ["delay", "loss", "corrupt", "duplicate", "reorder"]

/-- A keyword with its values; without values it is left out. -/
def settingArgs (setting : String × List String) : List String :=
  if setting.2 = [] then [] else setting.1 :: setting.2

def microsValues (d : Duration) : List String := if !d.isZero then [microsText d] else []

def delayValues (delay jitter : Duration) : List String :=
  if !(delay.isZero && jitter.isZero) then microsText delay :: microsValues jitter else []

def percentValues (x : Single) : List String := if x.isPositive then [percentText x] else []

def impairmentValues (i : Impairment) : List String :=
  if i.percentage.isPositive then percentText i.percentage :: percentValues i.correlation else []

/-- The settings of an emulator in the order of its arguments. -/
def settings (n : Netem) : List (String × List String) :=
  [("delay", delayValues n.delay n.jitter), ("loss", percentValues n.loss),
    ("corrupt", impairmentValues n.corrupt), ("duplicate", impairmentValues n.duplicate),
    ("reorder", impairmentValues n.reorder)]

theorem map_fst_settings (n : Netem) : n.settings.map Prod.fst = keywords := rfl

theorem args_eq (n : Netem) : n.args = "netem" :: n.settings.flatMap settingArgs := by
  have hdelay : delayArgs n.delay n.jitter =
      settingArgs ("delay", delayValues n.delay n.jitter) := by
    cases hdelay : n.delay.isZero <;> cases hjitter : n.jitter.isZero <;>
      simp [delayArgs, delayValues, microsValues, settingArgs, hdelay, hjitter]
  have hloss : lossArgs n.loss = settingArgs ("loss", percentValues n.loss) := by
    rw [lossArgs, percentValues, settingArgs]
    split <;> simp
  have himpairment (name : String) (i : Impairment) :
      impairmentArgs name i = settingArgs (name, impairmentValues i) := by
    rw [impairmentArgs, impairmentValues, percentValues, settingArgs]
    split <;> simp
  simp only [args, hdelay, hloss, himpairment, settings, List.flatMap_cons, List.flatMap_nil,
    List.cons_append, List.append_assoc, List.append_nil]

/-- The values behind a keyword, up to the next keyword. -/
def valuesOf (keyword : String) (args : List String) : List String :=
  ((args.dropWhile (· ≠ keyword)).drop 1).takeWhile (· ∉ keywords)

/-- Keywords stand in front of values only, and values are no keywords. -/
structure IsSetting (setting : String × List String) : Prop where
  keyword : setting.1 ∈ keywords
  values : ∀ v ∈ setting.2, v ∉ keywords

variable {settings : List (String × List String)} {keyword : String} {values : List String}

/-- Behind settings there is nothing or a keyword. -/
theorem takeWhile_flatMap (h : ∀ s ∈ settings, IsSetting s) :
    (settings.flatMap settingArgs).takeWhile (· ∉ keywords) = [] := by
  induction settings with
  | nil => rfl
  | cons s rest ih =>
    obtain ⟨hs, hrest⟩ := List.forall_mem_cons.mp h
    rw [List.flatMap_cons, settingArgs]
    split
    · exact ih hrest
    · rw [List.cons_append, List.takeWhile_cons_of_neg (by simp [hs.keyword])]

theorem not_mem_settingArgs {s : String × List String} (hs : IsSetting s)
    (hkeyword : keyword ∈ keywords) (hne : s.1 ≠ keyword) : keyword ∉ settingArgs s := by
  rw [settingArgs]
  split
  · exact List.not_mem_nil
  · exact List.not_mem_cons_of_ne_of_not_mem hne.symm fun hmem ↦ hs.values _ hmem hkeyword

theorem valuesOf_append {front : List String} (h : keyword ∉ front) (args : List String) :
    valuesOf keyword (front ++ args) = valuesOf keyword args := by
  rw [valuesOf, valuesOf, List.dropWhile_append_of_pos]
  exact fun v hv ↦ decide_eq_true fun heq ↦ h (heq ▸ hv)

theorem valuesOf_flatMap (h : ∀ s ∈ settings, IsSetting s)
    (hnodup : (settings.map Prod.fst).Nodup) (hmem : (keyword, values) ∈ settings) :
    valuesOf keyword (settings.flatMap settingArgs) = values := by
  have hkeyword : keyword ∈ keywords := (h _ hmem).keyword
  induction settings with
  | nil => exact absurd hmem List.not_mem_nil
  | cons s rest ih =>
    obtain ⟨hs, hrest⟩ := List.forall_mem_cons.mp h
    obtain ⟨hfirst, hnodup⟩ := List.nodup_cons.mp hnodup
    rw [List.flatMap_cons]
    rcases List.mem_cons.mp hmem with rfl | hmem
    -- without values the keyword is left out, and then it is found nowhere else either
    · by_cases hnone : values = []
      · have habsent : keyword ∉ rest.flatMap settingArgs := by
          rintro hmem
          obtain ⟨s, hs, hmem⟩ := List.mem_flatMap.mp hmem
          refine not_mem_settingArgs (hrest s hs) hkeyword ?_ hmem
          exact fun heq ↦ hfirst (List.mem_map.mpr ⟨s, hs, heq⟩)
        rw [settingArgs, if_pos hnone, List.nil_append, ← List.append_nil (rest.flatMap _),
          valuesOf_append habsent, hnone]
        rfl
      · have hvalues : ∀ v ∈ values, decide (v ∉ keywords) = true :=
          fun v hv ↦ decide_eq_true (hs.values v hv)
        rw [settingArgs, if_neg hnone, valuesOf, List.cons_append,
          List.dropWhile_cons_of_neg (by simp), List.drop_one, List.tail_cons,
          List.takeWhile_append_of_pos hvalues, takeWhile_flatMap hrest, List.append_nil]
    · have hne : s.1 ≠ keyword :=
        fun heq ↦ hfirst (List.mem_map.mpr ⟨_, hmem, heq.symm⟩)
      rw [valuesOf_append (not_mem_settingArgs hs hkeyword hne)]
      exact ih hrest hnodup hmem

/-! ## Values -/

theorem toList_microsText (d : Duration) :
    (microsText d).toList = Text.natChars d.micros ++ "us".toList := by
  rw [microsText, String.toList_append, Text.natText, String.toList_ofList]

theorem toList_percentText (x : Single) :
    (percentText x).toList = Error.percentLayout.text x ++ ['%'] := by
  rw [percentText, String.toList_append, Error.percentText, String.toList_ofList]
  rfl

/-- A keyword begins with no digit, and a duration does. -/
theorem microsText_not_mem_keywords (d : Duration) : microsText d ∉ keywords := by
  have hkeywords : ∀ k ∈ keywords, k.toList.head?.any Char.isDigit = false := by decide +kernel
  intro hmem
  have hdigits := List.all_eq_true.mp (Text.all_isDigit_natChars d.micros)
  have hhead := hkeywords _ hmem
  rw [toList_microsText] at hhead
  cases hchars : Text.natChars d.micros with
  | nil => exact Text.natChars_ne_nil _ hchars
  | cons c r =>
    rw [hchars] at hhead hdigits
    exact absurd (hdigits c List.mem_cons_self) (by simpa using hhead)

/-- A keyword does not end in a percent sign. -/
theorem percentText_not_mem_keywords (x : Single) : percentText x ∉ keywords := by
  have hkeywords : ∀ k ∈ keywords, k.toList.getLast? ≠ some '%' := by decide +kernel
  intro hmem
  refine hkeywords _ hmem ?_
  rw [toList_percentText, List.getLast?_concat]

theorem not_mem_keywords_of_mem_percentValues {x : Single} {v : String}
    (h : v ∈ percentValues x) : v ∉ keywords := by
  rw [percentValues] at h
  split at h
  · exact List.mem_singleton.mp h ▸ percentText_not_mem_keywords x
  · exact absurd h List.not_mem_nil

theorem not_mem_keywords_of_mem_impairmentValues {i : Impairment} {v : String}
    (h : v ∈ impairmentValues i) : v ∉ keywords := by
  rw [impairmentValues] at h
  split at h
  · rcases List.mem_cons.mp h with rfl | h
    · exact percentText_not_mem_keywords i.percentage
    · exact not_mem_keywords_of_mem_percentValues h
  · exact absurd h List.not_mem_nil

theorem not_mem_keywords_of_mem_microsValues {d : Duration} {v : String}
    (h : v ∈ microsValues d) : v ∉ keywords := by
  rw [microsValues] at h
  split at h
  · exact List.mem_singleton.mp h ▸ microsText_not_mem_keywords d
  · exact absurd h List.not_mem_nil

theorem not_mem_keywords_of_mem_delayValues {delay jitter : Duration} {v : String}
    (h : v ∈ delayValues delay jitter) : v ∉ keywords := by
  rw [delayValues] at h
  split at h
  · rcases List.mem_cons.mp h with rfl | h
    · exact microsText_not_mem_keywords delay
    · exact not_mem_keywords_of_mem_microsValues h
  · exact absurd h List.not_mem_nil

theorem isSetting_settings (n : Netem) : ∀ s ∈ n.settings, IsSetting s := by
  refine fun s hs ↦ ⟨map_fst_settings n ▸ List.mem_map_of_mem hs, ?_⟩
  simp only [settings, List.mem_cons, List.not_mem_nil, or_false] at hs
  rcases hs with rfl | rfl | rfl | rfl | rfl
  · exact fun _ ↦ not_mem_keywords_of_mem_delayValues
  · exact fun _ ↦ not_mem_keywords_of_mem_percentValues
  all_goals exact fun _ ↦ not_mem_keywords_of_mem_impairmentValues

variable {n m : Netem}

/-- The values of every keyword of an emulator are found in its arguments. -/
theorem valuesOf_args (hmem : (keyword, values) ∈ n.settings) :
    valuesOf keyword n.args = values := by
  have hsettings := isSetting_settings n
  have hnetem : keyword ∉ ["netem"] := by
    have hother : "netem" ∉ keywords := by decide
    exact fun h ↦ hother (List.mem_singleton.mp h ▸ (hsettings _ hmem).keyword)
  have hnodup : (n.settings.map Prod.fst).Nodup := by
    rw [map_fst_settings]
    decide
  rw [args_eq, ← List.singleton_append, valuesOf_append hnetem]
  exact valuesOf_flatMap hsettings hnodup hmem

theorem settings_eq (n : Netem) : n.settings = keywords.map fun k ↦ (k, valuesOf k n.args) := by
  have hread : ∀ s ∈ n.settings, ((fun k ↦ (k, valuesOf k n.args)) ∘ Prod.fst) s = id s :=
    fun s hs ↦ Prod.ext rfl (valuesOf_args hs)
  rw [← map_fst_settings n, List.map_map, List.map_congr_left hread, List.map_id]

theorem args_eq_iff_settings : n.args = m.args ↔ n.settings = m.settings :=
  ⟨fun h ↦ by rw [settings_eq n, settings_eq m, h], fun h ↦ by rw [args_eq, args_eq, h]⟩

/-! ## Meanings -/

theorem ite_values_eq_iff {b c : Bool} {v w : String} {vs ws : List String} :
    (if b then v :: vs else []) = (if c then w :: ws else []) ↔
      b = c ∧ (b = true → v = w ∧ vs = ws) := by
  cases b <;> cases c <;> simp

/-- A whole number of microseconds. -/
def IsWhole (d : Duration) : Prop := ∃ n, d = .ofMicros n

variable {d e j k : Duration} {x y : Single}

theorem isZero_iff : d.isZero = true ↔ d = .zero := by
  rw [Duration.isZero, beq_iff_eq, Duration.zero, Duration.mk.injEq]

theorem microsText_eq_iff (hd : IsWhole d) (he : IsWhole e) :
    microsText d = microsText e ↔ d = e := by
  refine ⟨fun h ↦ ?_, congrArg microsText⟩
  obtain ⟨a, rfl⟩ := hd
  obtain ⟨b, rfl⟩ := he
  have htext := congrArg String.toList h
  rw [toList_microsText, toList_microsText] at htext
  have hread := congrArg Text.readNat? (List.append_cancel_right htext)
  rw [Text.readNat?_natChars, Text.readNat?_natChars, Option.some.injEq, Duration.ofMicros,
    Duration.ofMicros, Duration.micros, Duration.micros, Nat.mul_div_cancel _ (by decide),
    Nat.mul_div_cancel _ (by decide)] at hread
  rw [hread]

theorem microsValues_eq_iff (hd : IsWhole d) (he : IsWhole e) :
    microsValues d = microsValues e ↔ d = e := by
  rw [microsValues, microsValues, ite_values_eq_iff, microsText_eq_iff hd he]
  refine ⟨fun ⟨hzero, heq⟩ ↦ ?_, fun h ↦ h ▸ ⟨rfl, fun _ ↦ ⟨rfl, rfl⟩⟩⟩
  cases hdzero : d.isZero with
  | false => exact (heq (by rw [hdzero]; rfl)).1
  | true =>
    rw [hdzero, Bool.not_inj_iff, eq_comm, isZero_iff] at hzero
    exact (isZero_iff.mp hdzero).trans hzero.symm

theorem delayValues_eq_iff (hd : IsWhole d) (he : IsWhole e) (hj : IsWhole j) (hk : IsWhole k) :
    delayValues d j = delayValues e k ↔ d = e ∧ j = k := by
  rw [delayValues, delayValues, ite_values_eq_iff, microsText_eq_iff hd he,
    microsValues_eq_iff hj hk]
  refine ⟨fun ⟨hzero, heq⟩ ↦ ?_, fun ⟨hd, hj⟩ ↦ hd ▸ hj ▸ ⟨rfl, fun _ ↦ ⟨rfl, rfl⟩⟩⟩
  -- if both are zero nothing is written, and nothing is written only if both are
  cases hnone : d.isZero && j.isZero with
  | false => exact heq (by rw [hnone]; rfl)
  | true =>
    rw [hnone, Bool.not_inj_iff, eq_comm, Bool.and_eq_true, isZero_iff, isZero_iff] at hzero
    rw [Bool.and_eq_true, isZero_iff, isZero_iff] at hnone
    exact ⟨hnone.1.trans hzero.1.symm, hnone.2.trans hzero.2.symm⟩

theorem of_isPercentage (hx : Shape.isPercentage x = true) :
    x.isNaN = false ∧ (x.magnitude = 0 ∨ x.negative = false ∧ x.isFinite = true) := by
  simp only [Shape.isPercentage, Number.isWithin, Bool.and_eq_true, Bool.or_eq_true,
    Bool.not_eq_true', beq_iff_eq] at hx
  exact ⟨hx.1, hx.2.imp_right And.left⟩

theorem isPositive_eq_false_iff (hx : Shape.isPercentage x = true) :
    x.isPositive = false ↔ x.magnitude = 0 := by
  obtain ⟨hnumber, hsign⟩ := of_isPercentage hx
  simp only [Number.isPositive, hnumber, Bool.not_false, Bool.and_true, Bool.and_eq_false_iff,
    Bool.not_eq_false', decide_eq_false_iff_not, Nat.pos_iff_ne_zero, not_not]
  refine ⟨fun h ↦ h.elim (fun hneg ↦ ?_) id, .inr⟩
  exact hsign.resolve_right fun h ↦ absurd (h.1.symm.trans hneg) Bool.false_ne_true

/-- Percentages are the same number if they are equal, or if none of them is positive: then each of
them is one of the two zeros. -/
theorem same_iff (hx : Shape.isPercentage x = true) (hy : Shape.isPercentage y = true) :
    x.same y = true ↔ x.isPositive = y.isPositive ∧ (x.isPositive = true → x = y) := by
  have hsame : x.same y = true ↔ x = y ∨ x.magnitude = 0 ∧ y.magnitude = 0 := by
    simp [Number.same, (of_isPercentage hx).1, (of_isPercentage hy).1]
  rw [hsame, ← isPositive_eq_false_iff hx, ← isPositive_eq_false_iff hy]
  constructor
  · rintro (rfl | ⟨hxzero, hyzero⟩)
    · exact ⟨rfl, fun _ ↦ rfl⟩
    · exact ⟨hxzero.trans hyzero.symm, fun hxpos ↦ absurd (hxpos.symm.trans hxzero) nofun⟩
  · rintro ⟨hsign, heq⟩
    cases hxpos : x.isPositive with
    | true => exact .inl (heq hxpos)
    | false => exact .inr ⟨rfl, hsign.symm.trans hxpos⟩

theorem percentText_eq_iff (hx : Shape.isPercentage x = true) (hy : Shape.isPercentage y = true)
    (hxpos : x.isPositive = true) (hypos : y.isPositive = true) :
    percentText x = percentText y ↔ x = y := by
  have hfinite {x : Single} (hx : Shape.isPercentage x = true) (hxpos : x.isPositive = true) :
      Error.percentLayout.text x = Error.percentLayout.finite x := by
    obtain ⟨hnumber, hsign⟩ := of_isPercentage hx
    have hlt : x.magnitude < Binary.Format.single.infinity :=
      decide_eq_true_iff.mp (hsign.resolve_left (Number.sign_of_isPositive hxpos).2).2
    have hinfinite : x.isInfinite = false := beq_eq_false_iff_ne.mpr hlt.ne
    rw [Binary.Layout.text, hnumber, hinfinite]
    rfl
  refine ⟨fun h ↦ ?_, congrArg percentText⟩
  have htext := congrArg String.toList h
  rw [toList_percentText, toList_percentText, hfinite hx hxpos, hfinite hy hypos] at htext
  exact Binary.Layout.finite_injective rfl rfl (by decide) (by decide) hxpos hypos
    (List.append_cancel_right htext)

/-- With a percentage that is left out everything behind it is left out. -/
theorem percentValues_append_eq_iff (hx : Shape.isPercentage x = true)
    (hy : Shape.isPercentage y = true) {vs ws : List String} :
    (if x.isPositive then percentText x :: vs else []) =
        (if y.isPositive then percentText y :: ws else []) ↔
      x.same y = true ∧ (x.isPositive = true → vs = ws) := by
  rw [ite_values_eq_iff, same_iff hx hy, and_assoc]
  refine and_congr_right fun hsign ↦ ?_
  rw [← forall_and]
  exact forall_congr' fun hxpos ↦
    and_congr_left' (percentText_eq_iff hx hy hxpos (hsign.symm.trans hxpos))

theorem percentValues_eq_iff (hx : Shape.isPercentage x = true)
    (hy : Shape.isPercentage y = true) : percentValues x = percentValues y ↔ x.same y = true :=
  (percentValues_append_eq_iff hx hy).trans (and_iff_left fun _ ↦ rfl)

/-- Two impairments do the same to packets: their percentages are the same, and if there is anything
to correlate, their correlations too. -/
def SameImpairment (i j : Impairment) : Prop :=
  i.percentage.same j.percentage = true ∧
    (i.percentage.isPositive = true → i.correlation.same j.correlation = true)

theorem impairmentValues_eq_iff {i j : Impairment} (hi : Shape.isPercentage i.percentage = true)
    (hicor : Shape.isPercentage i.correlation = true)
    (hj : Shape.isPercentage j.percentage = true)
    (hjcor : Shape.isPercentage j.correlation = true) :
    impairmentValues i = impairmentValues j ↔ SameImpairment i j := by
  rw [impairmentValues, impairmentValues, percentValues_append_eq_iff hi hj,
    percentValues_eq_iff hicor hjcor, SameImpairment]

/-! ## Shapes -/

/-- Two shapes agree on everything that an emulator does. Percentages are compared as numbers. -/
structure SameEmulation (s t : Shape) : Prop where
  latency : s.latency = t.latency
  jitter : s.jitter = t.jitter
  loss : s.loss.same t.loss = true
  corrupt : SameImpairment ⟨s.corrupt, s.corruptCorrelation⟩ ⟨t.corrupt, t.corruptCorrelation⟩
  duplicate :
    SameImpairment ⟨s.duplicate, s.duplicateCorrelation⟩ ⟨t.duplicate, t.duplicateCorrelation⟩
  reorder : SameImpairment ⟨s.reorder, s.reorderCorrelation⟩ ⟨t.reorder, t.reorderCorrelation⟩

/-- **The arguments lose nothing that takes effect.** Valid shapes with whole microseconds have the
same arguments exactly if they agree on everything that an emulator does. -/
theorem args_ofShape_eq_iff {s t : Shape} (hs : s.validate = .ok ()) (ht : t.validate = .ok ())
    (hslatency : IsWhole s.latency) (hsjitter : IsWhole s.jitter) (htlatency : IsWhole t.latency)
    (htjitter : IsWhole t.jitter) :
    (ofShape s).args = (ofShape t).args ↔ SameEmulation s t := by
  rw [Shape.validate_eq_ok_iff] at hs ht
  simp only [Shape.percentages, List.forall_mem_cons] at hs ht
  obtain ⟨hsloss, hscorrupt, hscorruptCor, hsreorder, hsreorderCor, hsduplicate,
    hsduplicateCor, -⟩ := hs
  obtain ⟨htloss, htcorrupt, htcorruptCor, htreorder, htreorderCor, htduplicate,
    htduplicateCor, -⟩ := ht
  simp only [args_eq_iff_settings, settings, ofShape, List.cons.injEq, Prod.mk.injEq, true_and,
    and_true]
  rw [delayValues_eq_iff hslatency htlatency hsjitter htjitter, percentValues_eq_iff hsloss htloss,
    impairmentValues_eq_iff hscorrupt hscorruptCor htcorrupt htcorruptCor,
    impairmentValues_eq_iff hsduplicate hsduplicateCor htduplicate htduplicateCor,
    impairmentValues_eq_iff hsreorder hsreorderCor htreorder htreorderCor]
  constructor
  · rintro ⟨⟨hlatency, hjitter⟩, hloss, hcorrupt, hduplicate, hreorder⟩
    exact ⟨hlatency, hjitter, hloss, hcorrupt, hduplicate, hreorder⟩
  · rintro ⟨hlatency, hjitter, hloss, hcorrupt, hduplicate, hreorder⟩
    exact ⟨⟨hlatency, hjitter⟩, hloss, hcorrupt, hduplicate, hreorder⟩

/-- A correlation of nothing and the sign of a zero make no difference, but a delay and its
variation cannot be taken for each other. -/
theorem args_ofShape_eq_iff_correlated :
    let s : Shape :=
      { latency := .ofMicros 1500
        loss := ⟨true, 0⟩
        corrupt := .ofNat 5
        corruptCorrelation := .ofNat 10
        duplicateCorrelation := .ofNat 7 }
    let t : Shape := { s with loss := .zero, duplicateCorrelation := .ofNat 8 }
    let u : Shape := { t with latency := .zero, jitter := .ofMicros 1500 }
    (s.validate = .ok () ∧ t.validate = .ok () ∧ u.validate = .ok () ∧ IsWhole s.latency ∧
      IsWhole s.jitter ∧ IsWhole t.latency ∧ IsWhole t.jitter ∧ IsWhole u.latency ∧
      IsWhole u.jitter) ∧
    s ≠ t ∧ (ofShape s).args = (ofShape t).args ∧ (ofShape t).args ≠ (ofShape u).args := by
  intro s t u
  have hs : s.validate = .ok () := by decide +kernel
  have ht : t.validate = .ok () := by decide +kernel
  have hu : u.validate = .ok () := by decide +kernel
  have hwhole (n : Nat) : IsWhole (.ofMicros n) := ⟨n, rfl⟩
  refine ⟨⟨hs, ht, hu, hwhole 1500, hwhole 0, hwhole 1500, hwhole 0, hwhole 0, hwhole 1500⟩,
    by decide +kernel, ?_, ?_⟩
  · refine (args_ofShape_eq_iff hs ht (hwhole _) (hwhole 0) (hwhole _) (hwhole 0)).mpr ?_
    exact ⟨rfl, rfl, by decide +kernel, ⟨by decide +kernel, fun _ ↦ by decide +kernel⟩,
      ⟨by decide +kernel, fun h ↦ absurd h (by decide +kernel)⟩,
      ⟨by decide +kernel, fun h ↦ absurd h (by decide +kernel)⟩⟩
  · refine mt (args_ofShape_eq_iff ht hu (hwhole _) (hwhole 0) (hwhole 0) (hwhole _)).mp ?_
    exact fun h ↦ absurd h.latency (by decide)

end ContainerNet.TrafficControl.Netem
