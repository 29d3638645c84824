import ContainerNet.Json.Token

/-!
# Tokens that are read back

What is written as a number or as a quoted text is one token, and it is the token of what was
written, whatever stands behind it. A quoted text ends at its closing quote; a numeral has no end
of its own, so `endsNumeral` says what may follow it. Floating-point numbers have no general law
here: `Number.ofChars?` is the number that a numeral is read as, and for whole numbers below
`2 ^ 64` it is the number that was written.

In a quoted text every character is one piece: a letter behind a backslash, or the number of the
character in four digits, or the character itself (`escape_cases`). Only control characters are
written by their number, so the case does not arise in which two numbers make up one character.
-/

namespace ContainerNet.Json

open Text (Glyph ofChars)

/-! ## Where a numeral ends -/

/-- Whether a text that stands behind a numeral does not go on with it. -/
def endsNumeral : List Glyph → Bool
  | some c :: _ => !c.isDigit && c != '.' && c != 'e' && c != 'E'
  | _ => true

theorem spanDigits_append {s rest : List Glyph} (h : endsNumeral rest = true) :
    spanDigits (s ++ rest) = ((spanDigits s).1, (spanDigits s).2 ++ rest) := by
  fun_induction spanDigits s with
  | case1 c r hc ds rest' hd ih =>
    simp [spanDigits, hc, ih, hd]
  | case2 c r hc => simp [spanDigits, hc]
  | case3 s hs =>
    match s, rest with
    | some c :: _, _ => exact absurd rfl (hs c _)
    | none :: _, _ => simp [spanDigits]
    | [], [] => rfl
    | [], none :: _ => simp [spanDigits]
    | [], some c :: r =>
      simp [endsNumeral] at h
      simp [spanDigits, h]

theorem fraction?_append {s r rest : List Glyph} {f : Option (List Char)}
    (h : fraction? s = some (f, r)) (hr : endsNumeral rest = true) :
    fraction? (s ++ rest) = some (f, r ++ rest) := by
  unfold fraction? at h
  split at h
  · rename_i r'
    simp only [List.cons_append, fraction?, spanDigits_append hr]
    split at h <;> simp_all
  · rename_i hs
    obtain ⟨rfl, rfl⟩ : none = f ∧ s = r := by simpa using h
    match s, rest with
    | [], [] => rfl
    | [], none :: _ => rfl
    | [], some c :: _ =>
      have hc : c ≠ '.' := by rintro rfl; simp [endsNumeral] at hr
      simp [fraction?, hc]
    | none :: _, _ => rfl
    | some c :: r, _ =>
      have hc : c ≠ '.' := by rintro rfl; exact hs r rfl
      simp [fraction?, hc]

theorem exponentDigits?_append {b : Bool} {s r rest : List Glyph} {e : Option (Bool × List Char)}
    (h : exponentDigits? b s = some (e, r)) (hr : endsNumeral rest = true) :
    exponentDigits? b (s ++ rest) = some (e, r ++ rest) := by
  unfold exponentDigits? at h ⊢
  rw [spanDigits_append hr]
  split at h <;> simp_all

theorem exponent?_append {s r rest : List Glyph} {e : Option (Bool × List Char)}
    (h : exponent? s = some (e, r)) (hr : endsNumeral rest = true) :
    exponent? (s ++ rest) = some (e, r ++ rest) := by
  rcases s with - | ⟨- | c, s⟩
  · obtain ⟨rfl, rfl⟩ : none = e ∧ [] = r := by simpa [exponent?] using h
    rcases rest with - | ⟨- | c, rest⟩
    · rfl
    · rfl
    · have hc : ¬(c = 'e' ∨ c = 'E') := by rintro (rfl | rfl) <;> simp [endsNumeral] at hr
      simp [exponent?, hc]
  · obtain ⟨rfl, rfl⟩ : none = e ∧ none :: s = r := by simpa [exponent?] using h
    rfl
  · by_cases hc : c = 'e' ∨ c = 'E'
    · -- Behind the letter there is a sign or a digit, since the exponent has been read.
      simp only [exponent?, List.cons_append, if_pos hc] at h ⊢
      rcases s with - | ⟨- | d, s⟩
      · simp [exponentDigits?, spanDigits] at h
      · simp [exponentDigits?, spanDigits] at h
      · by_cases hp : d = '+'
        · subst hp; exact exponentDigits?_append h hr
        · by_cases hm : d = '-'
          · subst hm; exact exponentDigits?_append h hr
          · simp only [List.cons_append] at h ⊢
            split at h
            · simp_all
            · simp_all
            · split
              · simp_all
              · simp_all
              · exact exponentDigits?_append h hr
    · obtain ⟨rfl, rfl⟩ : none = e ∧ some c :: s = r := by simpa [exponent?, hc] using h
      simp [exponent?, hc]

/-- What is read as a numeral does not depend on what stands behind it. -/
theorem numeral?_append {b : Bool} {s r rest : List Glyph} {n : Numeral}
    (h : numeral? b s = some (n, r)) (hr : endsNumeral rest = true) :
    numeral? b (s ++ rest) = some (n, r ++ rest) := by
  unfold numeral? at h ⊢
  rw [spanDigits_append hr]
  split at h
  · simp at h
  · simp at h
  · rename_i whole r' hne hzero hd
    simp only [Option.bind_eq_bind, Option.bind_eq_some_iff, Prod.exists, Option.pure_def,
      Option.some.injEq, Prod.mk.injEq] at h
    obtain ⟨f, r₁, hf, e, r₂, he, rfl, rfl⟩ := h
    rw [hd]
    simp only [fraction?_append hf hr, exponent?_append he hr, Option.bind_eq_bind,
      Option.bind_some]
    rfl

/-! ## Whole numbers -/

theorem Numeral.accumulate_of_lt {n : Nat} {ds : List Char}
    (h : Nat.ofDigitChars 10 ds n < wordBound) :
    accumulate n ds = (Nat.ofDigitChars 10 ds n, []) := by
  induction ds generalizing n with
  | nil => rw [accumulate, Nat.ofDigitChars_nil]
  | cons c r ih =>
    have hnext : Nat.ofDigitChars 10 (c :: r) n =
        Nat.ofDigitChars 10 r (n * 10 + digitValue c) := by
      rw [Nat.ofDigitChars_cons, Nat.mul_comm]
      rfl
    rw [hnext] at h ⊢
    have hle : n * 10 + digitValue c ≤ Nat.ofDigitChars 10 r (n * 10 + digitValue c) := by
      rw [Nat.ofDigitChars_eq_ofDigitChars_zero]
      exact Nat.le_add_right_of_le (Nat.le_mul_of_pos_left _ (Nat.pow_pos (by decide)))
    rw [accumulate]
    simp only [if_pos (Nat.lt_of_le_of_lt hle h), ih h]

theorem eq_nil_of_natChars_eq_cons {n : Nat} {r : List Char} (h : Text.natChars n = '0' :: r) :
    r = [] := by
  induction n using Nat.strongRecOn generalizing r with
  | _ n ih =>
    by_cases hn : n < 10
    · rw [Text.natChars, Nat.toDigits_of_lt_base hn] at h
      exact (List.cons.inj h).2.symm
    · have hsplit : Text.natChars n = Text.natChars (n / 10) ++ [(n % 10).digitChar] :=
        Nat.toDigits_of_base_le (by decide) (by omega)
      obtain ⟨c, l, hl⟩ := List.exists_cons_of_ne_nil (Text.natChars_ne_nil (n / 10))
      rw [hsplit, hl, List.cons_append] at h
      obtain ⟨rfl, -⟩ := List.cons.inj h
      -- What is left of the number without its last digit would be zero.
      have hzero := Text.readNat?_natChars (n / 10)
      rw [hl, ih (n / 10) (by omega) hl] at hzero
      have : 0 = n / 10 := Option.some.inj hzero
      omega

theorem spanDigits_ofChars {s : List Char} (h : s.all Char.isDigit = true) :
    spanDigits (ofChars s) = (s, []) := by
  induction s with
  | nil => rfl
  | cons c r ih =>
    rw [List.all_cons, Bool.and_eq_true] at h
    rw [Text.ofChars_cons, spanDigits, if_pos h.1, ih h.2]

theorem numeral?_natChars (b : Bool) (n : Nat) :
    numeral? b (ofChars (Text.natChars n)) = some (⟨b, Text.natChars n, none, none⟩, []) := by
  rw [numeral?, spanDigits_ofChars (Text.all_isDigit_natChars n)]
  split
  · rename_i h
    exact absurd (Prod.mk.inj h).1 (Text.natChars_ne_nil n)
  · rename_i h
    exact absurd (eq_nil_of_natChars_eq_cons (Prod.mk.inj h).1) (List.cons_ne_nil _ _)
  · rename_i h
    obtain ⟨rfl, rfl⟩ := Prod.mk.inj h
    rfl

theorem Numeral.value?_natChars {n : Nat} (h : n < wordBound) :
    Numeral.value? ⟨false, Text.natChars n, none, none⟩ = some (.whole n) := by
  have hn : Nat.ofDigitChars 10 (Text.natChars n) 0 = n := Nat.ofDigitChars_ten_toDigits
  simp [value?, accumulate_of_lt (hn.symm ▸ h), hn]

/-! ## Tokens -/

theorem isDigit_of_numeral? {b : Bool} {c : Char} {r : List Glyph} {x : Numeral × List Glyph}
    (h : numeral? b (some c :: r) = some x) : c.isDigit = true := by
  by_cases hc : c.isDigit = true
  · exact hc
  · simp [numeral?, spanDigits, hc] at h

theorem token?_of_isDigit {c : Char} (hc : c.isDigit = true) (r : List Glyph) :
    token? c r = (numeral? false (some c :: r)).map fun (n, rest) ↦ (.number n.value?, rest) := by
  unfold token?
  split <;> first | rfl | exact absurd hc (by decide)

theorem isSpace_eq_false_of_token? {c : Char} {r : List Glyph} {x : Token × List Glyph}
    (h : token? c r = some x) : isSpace c = false := by
  rw [Bool.eq_false_iff]
  intro hc
  simp only [isSpace, Bool.or_eq_true, decide_eq_true_eq] at hc
  obtain ((rfl | rfl) | rfl) | rfl := hc <;> exact absurd h (by simp [token?, numeral?, spanDigits])

theorem tokens_cons {c : Char} {r rest : List Glyph} {t : Token}
    (h : token? c r = some (t, rest)) :
    tokens (some c :: r) = ⟨t :: (tokens rest).tokens, (tokens rest).complete⟩ := by
  rw [tokens, if_neg (by simp [isSpace_eq_false_of_token? h])]
  split <;> simp_all

theorem map_numeral?_append {b : Bool} {s r rest : List Glyph} {t : Token}
    (h : ((numeral? b s).map fun (n, rest) ↦ (Token.number n.value?, rest)) = some (t, r))
    (hr : endsNumeral rest = true) :
    ((numeral? b (s ++ rest)).map fun (n, rest) ↦ (Token.number n.value?, rest)) =
      some (t, r ++ rest) := by
  obtain ⟨⟨n, r'⟩, hn, heq⟩ := Option.map_eq_some_iff.1 h
  obtain ⟨rfl, rfl⟩ := Prod.mk.inj heq
  rw [numeral?_append hn hr, Option.map_some]

/-- A numeral that has been read is read whatever stands behind it. -/
theorem token?_append_of_number {c : Char} {s r rest : List Glyph} {n : Option Number}
    (h : token? c s = some (.number n, r)) (hr : endsNumeral rest = true) :
    token? c (s ++ rest) = some (.number n, r ++ rest) := by
  by_cases hminus : c = '-'
  · subst hminus
    exact map_numeral?_append h hr
  · have hc : c.isDigit = true := by
      unfold token? at h
      split at h <;> simp only [Option.map_eq_some_iff, Option.some.injEq, Prod.mk.injEq,
        reduceCtorEq, false_and, and_false, exists_false] at h
      · exact absurd rfl hminus
      · obtain ⟨_, hn, -⟩ := h
        exact isDigit_of_numeral? hn
    rw [token?_of_isDigit hc] at h ⊢
    exact map_numeral?_append h hr

/-- The number that a whole text is the numeral of. -/
def Number.ofChars? : List Char → Option Number
  | [] => none
  | c :: r =>
    match token? c (ofChars r) with
    | some (.number n, []) => n
    | _ => none

theorem Number.exists_of_ofChars? {s : List Char} {n : Number} (h : ofChars? s = some n) :
    ∃ c r, s = c :: r ∧ token? c (ofChars r) = some (.number (some n), []) := by
  match s with
  | [] => simp [ofChars?] at h
  | c :: r =>
    rw [ofChars?] at h
    split at h
    · rename_i ht
      exact ⟨c, r, rfl, by rw [ht, h]⟩
    · simp at h

@[simp] theorem Number.ofChars?_natChars {n : Nat} (h : n < UInt64.size) :
    ofChars? (Text.natChars n) = some (.whole n) := by
  obtain ⟨c, r, hcr⟩ := List.exists_cons_of_ne_nil (Text.natChars_ne_nil n)
  have hc : c.isDigit = true :=
    List.all_eq_true.1 (Text.all_isDigit_natChars n) c (by rw [hcr]; exact List.mem_cons_self)
  have hnumeral := numeral?_natChars false n
  rw [hcr, Text.ofChars_cons] at hnumeral
  rw [hcr, ofChars?, token?_of_isDigit hc, hnumeral, Option.map_some]
  simp only [← hcr, Numeral.value?_natChars h]

theorem tokens_numeral {s : List Char} {n : Number} (h : Number.ofChars? s = some n)
    {rest : List Glyph} (hr : endsNumeral rest = true) :
    tokens (ofChars s ++ rest) =
      ⟨.number (some n) :: (tokens rest).tokens, (tokens rest).complete⟩ := by
  obtain ⟨c, r, rfl, ht⟩ := Number.exists_of_ofChars? h
  exact tokens_cons (token?_append_of_number ht hr)

/-! ## Quoted texts -/

/-- An escape that stands for a character by its number. -/
theorem join?_unit {n : Nat} (h : n < 0xD800) (l : List Piece) :
    join? (.unit n :: l) = (Char.ofNat n :: ·) <$> join? l := by
  match l with
  | [] | .char _ :: _ | .invalid :: _ => simp [join?, h]
  | .unit _ :: _ => rw [join?, if_pos (.inl h)]

theorem hexPadded_of_lt : ∀ n < 0x20,
    Text.hexPadded 4 n = ['0', '0', (n / 16).digitChar, (n % 16).digitChar] := by
  decide +kernel

theorem fourHex?_of_lt : ∀ n < 0x20,
    fourHex? (some '0') (some '0') (some (n / 16).digitChar) (some (n % 16).digitChar) =
      some n := by
  decide +kernel

theorem pieces?_backslash {c e : Char} (hu : c ≠ 'u') (h : unescape? c = some e)
    (s : List Glyph) :
    pieces? (some '\\' :: some c :: s) =
      (pieces? s).map fun (l, rest) ↦ (.char e :: l, rest) := by
  rw [pieces?]
  · rw [h]
    rcases pieces? s with _ | ⟨l, rest⟩ <;> rfl
  · exact fun _ _ _ _ _ _ hc ↦ hu hc

theorem pieces?_of_control {c : Char} (h : c.toNat < 0x20) (s : List Glyph) :
    pieces? (ofChars ('\\' :: 'u' :: Text.hexPadded 4 c.toNat) ++ s) =
      (pieces? s).map fun (l, rest) ↦ (.unit c.toNat :: l, rest) := by
  rw [hexPadded_of_lt _ h]
  simp only [Text.ofChars_cons, Text.ofChars_nil, List.cons_append, List.nil_append]
  rw [pieces?, fourHex?_of_lt _ h]
  rcases pieces? s with _ | ⟨l, rest⟩ <;> rfl

theorem pieces?_of_plain {c : Char} (hquote : c ≠ '"') (hslash : c ≠ '\\')
    (h : ¬c.toNat < 0x20) (s : List Glyph) :
    pieces? (some c :: s) = (pieces? s).map fun (l, rest) ↦ (.char c :: l, rest) := by
  rw [pieces?, if_neg (by simp [hslash, h])]
  · rcases pieces? s with _ | ⟨l, rest⟩ <;> rfl
  · exact hquote
  · exact fun _ _ _ _ _ _ hc ↦ hslash hc
  · exact fun _ _ _ hc ↦ hslash hc

/-- A character is escaped by a letter, or by its number, or stands for itself. -/
theorem escape_cases (c : Char) :
    (∃ d, d ≠ 'u' ∧ unescape? d = some c ∧ escape c = ['\\', d]) ∨
      (c.toNat < 0x20 ∧ escape c = '\\' :: 'u' :: Text.hexPadded 4 c.toNat) ∨
      (c ≠ '"' ∧ c ≠ '\\' ∧ ¬c.toNat < 0x20 ∧ escape c = [c]) := by
  unfold escape
  by_cases hquote : c = '"'
  · rw [if_pos hquote]
    exact .inl ⟨'"', by decide, by rw [hquote]; rfl, rfl⟩
  by_cases hslash : c = '\\'
  · rw [if_neg hquote, if_pos hslash]
    exact .inl ⟨'\\', by decide, by rw [hslash]; rfl, rfl⟩
  rw [if_neg hquote, if_neg hslash]
  by_cases hb : c = '\x08'
  · rw [if_pos hb]
    exact .inl ⟨'b', by decide, by rw [hb]; rfl, rfl⟩
  by_cases hf : c = '\x0c'
  · rw [if_neg hb, if_pos hf]
    exact .inl ⟨'f', by decide, by rw [hf]; rfl, rfl⟩
  rw [if_neg hb, if_neg hf]
  by_cases hn : c = '\n'
  · rw [if_pos hn]
    exact .inl ⟨'n', by decide, by rw [hn]; rfl, rfl⟩
  by_cases hr : c = '\r'
  · rw [if_neg hn, if_pos hr]
    exact .inl ⟨'r', by decide, by rw [hr]; rfl, rfl⟩
  by_cases ht : c = '\t'
  · rw [if_neg hn, if_neg hr, if_pos ht]
    exact .inl ⟨'t', by decide, by rw [ht]; rfl, rfl⟩
  rw [if_neg hn, if_neg hr, if_neg ht]
  by_cases hcontrol : c.toNat < 0x20
  · rw [if_pos hcontrol]
    exact .inr (.inl ⟨hcontrol, rfl⟩)
  · rw [if_neg hcontrol]
    exact .inr (.inr ⟨hquote, hslash, hcontrol, rfl⟩)

/-- What a character is escaped to is one piece, which stands for the character. -/
theorem exists_piece_escape (c : Char) : ∃ p : Piece,
    (∀ s, pieces? (ofChars (escape c) ++ s) = (pieces? s).map fun (l, rest) ↦ (p :: l, rest)) ∧
    ∀ l, join? (p :: l) = (c :: ·) <$> join? l := by
  obtain ⟨d, hu, hd, hc⟩ | ⟨hcontrol, hc⟩ | ⟨hquote, hslash, hcontrol, hc⟩ := escape_cases c
  · refine ⟨.char c, fun s ↦ ?_, fun l ↦ rfl⟩
    rw [hc]
    exact pieces?_backslash hu hd s
  · refine ⟨.unit c.toNat, fun s ↦ ?_, fun l ↦ ?_⟩
    · rw [hc, pieces?_of_control hcontrol]
    · rw [join?_unit (by omega), Char.ofNat_toNat]
  · refine ⟨.char c, fun s ↦ ?_, fun l ↦ rfl⟩
    rw [hc]
    exact pieces?_of_plain hquote hslash hcontrol s

theorem exists_pieces?_escape (s : List Char) (rest : List Glyph) :
    ∃ l, pieces? (ofChars (s.flatMap escape) ++ some '"' :: rest) = some (l, rest) ∧
      join? l = some s := by
  induction s with
  | nil => exact ⟨[], rfl, rfl⟩
  | cons c s ih =>
    obtain ⟨l, hl, hjoin⟩ := ih
    obtain ⟨p, hp, hpjoin⟩ := exists_piece_escape c
    refine ⟨p :: l, ?_, by rw [hpjoin, hjoin]; rfl⟩
    rw [List.flatMap_cons, Text.ofChars_append, List.append_assoc, hp, hl, Option.map_some]

theorem tokens_quoted (s : List Char) (rest : List Glyph) :
    tokens (ofChars (quoted s) ++ rest) =
      ⟨.text (some (String.ofList s)) :: (tokens rest).tokens, (tokens rest).complete⟩ := by
  obtain ⟨l, hl, hjoin⟩ := exists_pieces?_escape s rest
  have ht : token? '"' (ofChars (s.flatMap escape) ++ some '"' :: rest) =
      some (.text (some (String.ofList s)), rest) :=
    Option.map_eq_some_iff.2 ⟨(l, rest), hl, by simp only [hjoin, Option.map_some]⟩
  rw [quoted, List.cons_append, Text.ofChars_cons, Text.ofChars_append, List.cons_append,
    List.append_assoc]
  exact tokens_cons ht

end ContainerNet.Json
