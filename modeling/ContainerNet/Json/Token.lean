import ContainerNet.Json.Numeral
import ContainerNet.Text.Utf8

/-!
# JSON tokens

A JSON text is cut into tokens up to the first place where no token begins. A token can be in
order as a token and still not denote anything: a numeral may be too great, and a quoted text may
hold half of a surrogate pair or bytes that are no text. Such a token has no value, and only a
reader that needs the value minds.
-/

namespace ContainerNet.Json

open Text (Glyph)

inductive Token
  | openBracket
  | closeBracket
  | openBrace
  | closeBrace
  | colon
  | comma
  | null
  | bool (b : Bool)
  | number (n : Option Json.Number)
  | text (s : Option String)
deriving DecidableEq, Repr

/-- The tokens of a text, and whether the text ends after the last of them. -/
structure Tokens where
  tokens : List Token
  complete : Bool
deriving DecidableEq, Repr

/-! ## Quoted texts -/

/-- A piece of a quoted text: a character, the number of a four-digit escape, or bytes that are no
text. -/
inductive Piece
  | char (c : Char)
  | unit (n : Nat)
  | invalid
deriving Repr

/-- The character after a backslash, other than `u`, and what the pair stands for. -/
def unescape? : Char → Option Char
  | '"' => some '"'
  | '\\' => some '\\'
  | '/' => some '/'
  | 'b' => some '\x08'
  | 'f' => some '\x0c'
  | 'n' => some '\n'
  | 'r' => some '\r'
  | 't' => some '\t'
  | _ => none

/-- The number of four digits in base sixteen. -/
def fourHex? (a b c d : Glyph) : Option Nat := do
  let a ← Text.hexValue? (← a)
  let b ← Text.hexValue? (← b)
  let c ← Text.hexValue? (← c)
  let d ← Text.hexValue? (← d)
  return ((a * 16 + b) * 16 + c) * 16 + d

/-- The pieces up to the closing quote, and the text after it; `none` if the quoted text does not
end, or holds a control character or an unknown escape. -/
def pieces? : List Glyph → Option (List Piece × List Glyph)
  | [] => none
  | some '"' :: r => some ([], r)
  | some '\\' :: some 'u' :: a :: b :: c :: d :: r => do
    let n ← fourHex? a b c d
    let (l, rest) ← pieces? r
    return (.unit n :: l, rest)
  | some '\\' :: some c :: r => do
    let e ← unescape? c
    let (l, rest) ← pieces? r
    return (.char e :: l, rest)
  | some c :: r =>
    if c = '\\' ∨ c.toNat < 0x20 then none
    else do
      let (l, rest) ← pieces? r
      return (.char c :: l, rest)
  | none :: r => do
    let (l, rest) ← pieces? r
    return (.invalid :: l, rest)

theorem length_of_pieces? {s : List Glyph} {l : List Piece} {rest : List Glyph}
    (h : pieces? s = some (l, rest)) : rest.length ≤ s.length := by
  fun_induction pieces? s generalizing l rest with
  | case1 => simp at h
  | case2 r => simp at h; simp [h.2]
  | case3 a b c d r ih =>
    simp only [Option.bind_eq_bind, Option.bind_eq_some_iff, Prod.exists, Option.pure_def,
      Option.some.injEq, Prod.mk.injEq] at h
    obtain ⟨n, -, l', rest', h', -, rfl⟩ := h
    have := ih h'
    simp only [List.length_cons]; omega
  | case4 c r _ ih =>
    simp only [Option.bind_eq_bind, Option.bind_eq_some_iff, Prod.exists, Option.pure_def,
      Option.some.injEq, Prod.mk.injEq] at h
    obtain ⟨n, -, l', rest', h', -, rfl⟩ := h
    have := ih h'
    simp only [List.length_cons]; omega
  | case5 => simp at h
  | case6 c r _ _ _ _ ih =>
    simp only [Option.bind_eq_bind, Option.bind_eq_some_iff, Prod.exists, Option.pure_def,
      Option.some.injEq, Prod.mk.injEq] at h
    obtain ⟨l', rest', h', -, rfl⟩ := h
    have := ih h'
    simp only [List.length_cons]; omega
  | case7 r ih =>
    simp only [Option.bind_eq_bind, Option.bind_eq_some_iff, Prod.exists, Option.pure_def,
      Option.some.injEq, Prod.mk.injEq] at h
    obtain ⟨l', rest', h', -, rfl⟩ := h
    have := ih h'
    simp only [List.length_cons]; omega

/-- The text that the pieces make up; two escapes that are a surrogate pair make one character. -/
def join? : List Piece → Option (List Char)
  | [] => some []
  | .char c :: r => (c :: ·) <$> join? r
  | .unit hi :: .unit lo :: r =>
    if hi < 0xD800 ∨ 0xDFFF < hi then (Char.ofNat hi :: ·) <$> join? (.unit lo :: r)
    else if hi < 0xDC00 ∧ 0xDC00 ≤ lo ∧ lo ≤ 0xDFFF then
      (Char.ofNat ((hi - 0xD800) * 0x400 + (lo - 0xDC00) + 0x10000) :: ·) <$> join? r
    else none
  | .unit n :: r =>
    if n < 0xD800 ∨ 0xDFFF < n then (Char.ofNat n :: ·) <$> join? r else none
  | .invalid :: _ => none

/-! ## Numerals -/

/-- The digits at the front of a text, and the rest. -/
def spanDigits : List Glyph → List Char × List Glyph
  | some c :: r =>
    if c.isDigit then
      let (ds, rest) := spanDigits r
      (c :: ds, rest)
    else ([], some c :: r)
  | s => ([], s)

theorem length_spanDigits (s : List Glyph) :
    (spanDigits s).1.length + (spanDigits s).2.length = s.length := by
  fun_induction spanDigits s with
  | case1 c r h ds rest hd ih => simp_all; omega
  | case2 => simp
  | case3 => simp

/-- The fraction of a numeral, if there is one: a point with digits after it. -/
def fraction? (s : List Glyph) : Option (Option (List Char) × List Glyph) :=
  match s with
  | some '.' :: r =>
    match spanDigits r with
    | ([], _) => none
    | (ds, rest) => some (some ds, rest)
  | s => some (none, s)

theorem length_of_fraction? {s : List Glyph} {f : Option (List Char)} {rest : List Glyph}
    (h : fraction? s = some (f, rest)) : rest.length ≤ s.length := by
  unfold fraction? at h
  split at h
  · rename_i r
    have := length_spanDigits r
    split at h
    · simp at h
    · rename_i hd
      simp only [Option.some.injEq, Prod.mk.injEq] at h
      obtain ⟨-, rfl⟩ := h
      rw [hd] at this
      simp only [List.length_cons] at *
      omega
  · simp_all

/-- The digits of an exponent, behind its sign. -/
def exponentDigits? (negative : Bool) (s : List Glyph) :
    Option (Option (Bool × List Char) × List Glyph) :=
  match spanDigits s with
  | ([], _) => none
  | (ds, rest) => some (some (negative, ds), rest)

theorem length_of_exponentDigits? {b : Bool} {s : List Glyph} {e : Option (Bool × List Char)}
    {rest : List Glyph} (h : exponentDigits? b s = some (e, rest)) : rest.length ≤ s.length := by
  have := length_spanDigits s
  unfold exponentDigits? at h
  split at h
  · simp at h
  · rename_i hd
    simp only [Option.some.injEq, Prod.mk.injEq] at h
    obtain ⟨-, rfl⟩ := h
    rw [hd] at this
    simp only at this
    omega

/-- The exponent of a numeral, if there is one. -/
def exponent? (s : List Glyph) : Option (Option (Bool × List Char) × List Glyph) :=
  match s with
  | some c :: r =>
    if c = 'e' ∨ c = 'E' then
      match r with
      | some '+' :: r => exponentDigits? false r
      | some '-' :: r => exponentDigits? true r
      | r => exponentDigits? false r
    else some (none, some c :: r)
  | s => some (none, s)

theorem length_of_exponent? {s : List Glyph} {e : Option (Bool × List Char)} {rest : List Glyph}
    (h : exponent? s = some (e, rest)) : rest.length ≤ s.length := by
  unfold exponent? at h
  split at h
  · split at h
    · split at h <;> have := length_of_exponentDigits? h <;> simp_all <;> omega
    · simp_all
  · simp_all

/-- A numeral, behind its sign. A zero in front stands alone. -/
def numeral? (negative : Bool) (s : List Glyph) : Option (Numeral × List Glyph) :=
  match spanDigits s with
  | ([], _) => none
  | ('0' :: _ :: _, _) => none
  | (whole, r) => do
    let (fraction, r) ← fraction? r
    let (exponent, r) ← exponent? r
    return (⟨negative, whole, fraction, exponent⟩, r)

theorem length_of_numeral? {b : Bool} {s : List Glyph} {n : Numeral} {rest : List Glyph}
    (h : numeral? b s = some (n, rest)) : rest.length < s.length := by
  have hs := length_spanDigits s
  unfold numeral? at h
  split at h
  · simp at h
  · simp at h
  · rename_i whole r hne _ hd
    simp only [Option.bind_eq_bind, Option.bind_eq_some_iff, Prod.exists, Option.pure_def,
      Option.some.injEq, Prod.mk.injEq] at h
    obtain ⟨f, r', hf, e, r'', he, -, rfl⟩ := h
    have h1 := length_of_fraction? hf
    have h2 := length_of_exponent? he
    have h3 : 0 < whole.length := List.length_pos_iff.2 hne
    rw [hd] at hs
    simp only at hs
    omega

/-! ## Tokens -/

/-- The text after a word, if it starts with the word. -/
def after? : List Char → List Glyph → Option (List Glyph)
  | [], s => some s
  | c :: w, some d :: r => if c = d then after? w r else none
  | _ :: _, _ => none

theorem length_of_after? {w : List Char} {s rest : List Glyph} (h : after? w s = some rest) :
    rest.length ≤ s.length := by
  fun_induction after? w s with
  | case1 => simp_all
  | case2 c w r ih => have := ih h; simp only [List.length_cons]; omega
  | case3 => simp at h
  | case4 => simp at h

/-- The characters that may stand between tokens. -/
def isSpace (c : Char) : Bool := c = ' ' || c = '\n' || c = '\t' || c = '\r'

/-- The token that starts with the character `c`, in front of `r`. -/
def token? (c : Char) (r : List Glyph) : Option (Token × List Glyph) :=
  match c with
  | '[' => some (.openBracket, r)
  | ']' => some (.closeBracket, r)
  | '{' => some (.openBrace, r)
  | '}' => some (.closeBrace, r)
  | ':' => some (.colon, r)
  | ',' => some (.comma, r)
  | 'n' => (after? ['u', 'l', 'l'] r).map (.null, ·)
  | 't' => (after? ['r', 'u', 'e'] r).map (.bool true, ·)
  | 'f' => (after? ['a', 'l', 's', 'e'] r).map (.bool false, ·)
  | '"' => (pieces? r).map fun (l, rest) ↦ (.text ((join? l).map String.ofList), rest)
  | '-' => (numeral? true r).map fun (n, rest) ↦ (.number n.value?, rest)
  | c => (numeral? false (some c :: r)).map fun (n, rest) ↦ (.number n.value?, rest)

theorem length_of_token? {c : Char} {r rest : List Glyph} {t : Token}
    (h : token? c r = some (t, rest)) : rest.length ≤ r.length := by
  unfold token? at h
  split at h <;>
    simp only [Option.map_eq_some_iff, Option.some.injEq, Prod.mk.injEq, Prod.exists] at h
  · simp [h.2]
  · simp [h.2]
  · simp [h.2]
  · simp [h.2]
  · simp [h.2]
  · simp [h.2]
  · obtain ⟨_, h, -, rfl⟩ := h; exact length_of_after? h
  · obtain ⟨_, h, -, rfl⟩ := h; exact length_of_after? h
  · obtain ⟨_, h, -, rfl⟩ := h; exact length_of_after? h
  · obtain ⟨_, _, h, -, rfl⟩ := h; exact length_of_pieces? h
  · obtain ⟨_, _, h, -, rfl⟩ := h; exact Nat.le_of_lt (length_of_numeral? h)
  · obtain ⟨_, _, h, -, rfl⟩ := h; exact Nat.le_of_lt_succ (length_of_numeral? h)

/-- The tokens of a text. -/
def tokens (s : List Glyph) : Tokens :=
  match s with
  | [] => ⟨[], true⟩
  | none :: _ => ⟨[], false⟩
  | some c :: r =>
    if isSpace c then tokens r
    else
      match _h : token? c r with
      | none => ⟨[], false⟩
      | some (t, rest) =>
        let l := tokens rest
        ⟨t :: l.tokens, l.complete⟩
termination_by s.length
decreasing_by
  · simp
  · exact Nat.lt_succ_of_le (length_of_token? _h)

end ContainerNet.Json
