/-!
# Texts and their bytes

A byte text is read into *glyphs*: a character where the bytes encode one, and `none` for every
longest run of bytes that begins an encoding and does not finish it. A reader that must accept
only text asks for glyphs that are all characters; one that must go on, for instance to show what
a program wrote on its error output, puts the replacement character in place of each `none`.

The decoder is a fold with one pending sequence, so it is structural in the bytes.

A text is cut at a number of bytes, and that must not be within a character. `firstBytes?` has no
answer then, and for characters of one byte it never comes to that.
-/

namespace ContainerNet.Text

/-- A character, or a run of bytes that encodes none. -/
abbrev Glyph := Option Char

namespace Utf8

/-- A multi-byte sequence of which some bytes are still missing. The next byte has to lie between
`low` and `high`; the bytes so far make up `code`. -/
structure Pending where
  missing : Nat
  low : Nat
  high : Nat
  code : Nat

/-- What a byte can do at the start of a sequence. -/
inductive Lead
  | char (c : Char)
  | start (p : Pending)
  | invalid

/-- Encodings are shortest, and surrogates and numbers above U+10FFFF have none: that narrows the
byte after `E0`, `ED`, `F0` and `F4`. -/
def lead (b : Nat) : Lead :=
  if b < 0x80 then .char (Char.ofNat b)
  else if b < 0xC2 then .invalid
  else if b < 0xE0 then .start ⟨1, 0x80, 0xBF, b - 0xC0⟩
  else if b == 0xE0 then .start ⟨2, 0xA0, 0xBF, 0⟩
  else if b == 0xED then .start ⟨2, 0x80, 0x9F, 0xD⟩
  else if b < 0xF0 then .start ⟨2, 0x80, 0xBF, b - 0xE0⟩
  else if b == 0xF0 then .start ⟨3, 0x90, 0xBF, 0⟩
  else if b < 0xF4 then .start ⟨3, 0x80, 0xBF, b - 0xF0⟩
  else if b == 0xF4 then .start ⟨3, 0x80, 0x8F, 4⟩
  else .invalid

/-- The glyph that the byte `b` completes, and what is pending after it. -/
def begin (b : Nat) : List Glyph × Option Pending :=
  match lead b with
  | .char c => ([some c], none)
  | .start p => ([], some p)
  | .invalid => ([none], none)

/-- The glyphs of a byte text, given the sequence that is pending. -/
def glyphsFrom : Option Pending → List UInt8 → List Glyph
  | none, [] => []
  | some _, [] => [none]
  | none, b :: r =>
    let (out, p) := begin b.toNat
    out ++ glyphsFrom p r
  | some p, b :: r =>
    if p.low ≤ b.toNat && b.toNat ≤ p.high then
      let code := p.code * 64 + b.toNat % 64
      if p.missing ≤ 1 then some (Char.ofNat code) :: glyphsFrom none r
      else glyphsFrom (some ⟨p.missing - 1, 0x80, 0xBF, code⟩) r
    else
      let (out, q) := begin b.toNat
      none :: (out ++ glyphsFrom q r)

end Utf8

/-- The glyphs of a byte text. -/
def glyphs (bytes : List UInt8) : List Glyph := Utf8.glyphsFrom none bytes

/-- The glyphs of a text: its characters. -/
def ofChars (s : List Char) : List Glyph := s.map some

@[simp] theorem ofChars_nil : ofChars [] = [] := rfl

@[simp] theorem ofChars_cons (c : Char) (s : List Char) : ofChars (c :: s) = some c :: ofChars s :=
  rfl

@[simp] theorem ofChars_append (s t : List Char) : ofChars (s ++ t) = ofChars s ++ ofChars t :=
  List.map_append

/-- The text that the bytes encode, or `none` if some bytes encode nothing. -/
def decode? (bytes : List UInt8) : Option (List Char) := (glyphs bytes).mapM id

/-- The text that the bytes encode, with U+FFFD for each run of bytes that encodes nothing. -/
def decodeLossy (bytes : List UInt8) : List Char :=
  (glyphs bytes).map (·.getD (Char.ofNat 0xFFFD))

example : decodeLossy [0x61, 0xE2, 0x82, 0x62, 0xFF] =
    ['a', Char.ofNat 0xFFFD, 'b', Char.ofNat 0xFFFD] := by
  decide

example : decode? [0xC3, 0xA9, 0xF0, 0x9F, 0x98, 0x80] = some ['é', '😀'] := by decide

example : decode? [0xED, 0xA0, 0x80] = none := by decide

/-! ## Cutting -/

/-- The first bytes of a text, as a text. There is none if they end within a character or if the
text has fewer of them. -/
def firstBytes? : Nat → List Char → Option (List Char)
  | 0, _ => some []
  | _ + 1, [] => none
  | n + 1, c :: r =>
    if c.utf8Size ≤ n + 1 then (c :: ·) <$> firstBytes? (n + 1 - c.utf8Size) r else none

/-- Characters of one byte can be cut apart anywhere. -/
theorem firstBytes?_of_utf8Size_eq_one {s : List Char} {n : Nat} (hs : ∀ c ∈ s, c.utf8Size = 1)
    (hn : n ≤ s.length) : firstBytes? n s = some (s.take n) := by
  induction s generalizing n with
  | nil =>
    obtain rfl : n = 0 := Nat.le_zero.mp hn
    rfl
  | cons c s ih =>
    cases n with
    | zero => rfl
    | succ n =>
      rw [List.forall_mem_cons] at hs
      rw [firstBytes?, hs.1, if_pos (Nat.le_add_left 1 n), Nat.add_sub_cancel,
        ih hs.2 (Nat.le_of_succ_le_succ hn)]
      rfl

example : firstBytes? 3 ['a', 'é', 'b'] = some ['a', 'é'] := by decide

example : firstBytes? 2 ['a', 'é', 'b'] = none := by decide

theorem utf8ByteSize_eq_length_flatMap (s : String) :
    s.utf8ByteSize = (s.toList.flatMap String.utf8EncodeChar).length := by
  rw [← List.size_toByteArray, ← List.utf8Encode, String.utf8Encode_toList]
  rfl

theorem utf8ByteSize_of_utf8Size_eq_one {s : String} (hs : ∀ c ∈ s.toList, c.utf8Size = 1) :
    s.utf8ByteSize = s.toList.length := by
  rw [utf8ByteSize_eq_length_flatMap]
  generalize s.toList = l at hs
  induction l with
  | nil => rfl
  | cons c l ih =>
    rw [List.forall_mem_cons] at hs
    rw [List.flatMap_cons, List.length_append, String.length_utf8EncodeChar, hs.1, ih hs.2,
      List.length_cons, Nat.add_comm]

end ContainerNet.Text
