import ContainerNet.Text.Decimal

/-!
# Quoted texts in TOML

A text in double quotes has escapes, one in single quotes has none. With three quotes at each end a
text may run over several lines; a line break right behind the opening quotes does not count, and
neither does one behind a backslash, with all blanks that follow. Other line breaks belong to the
text as they are written, with or without a carriage return. Each reader starts behind the opening
quotes and gives what follows the closing ones.
-/

namespace ContainerNet.Toml

/-- Control characters other than the tab must not stand in a document by themselves. -/
def isControl (c : Char) : Bool := (c.toNat < 0x20 && c != '\t') || c.toNat == 0x7F

/-- The character behind a backslash, and what the two stand for. -/
def unescape? : Char → Option Char
  | '"' => some '"'
  | '\\' => some '\\'
  | 'b' => some '\x08'
  | 'e' => some '\x1b'
  | 'f' => some '\x0c'
  | 'n' => some '\n'
  | 'r' => some '\r'
  | 't' => some '\t'
  | _ => none

/-- The character with the number that some digits in base sixteen denote. -/
def hexChar? (digits : List Char) : Option Char := do
  let n ← digits.foldlM (fun n c ↦ (Text.hexValue? c).map (n * 16 + ·)) 0
  if h : n.isValidChar then some (Char.ofNatAux n h) else none

/-- An escape behind its backslash, and what follows it. -/
def escape? : List Char → Option (Char × List Char)
  | 'x' :: a :: b :: r => (hexChar? [a, b]).map (·, r)
  | 'u' :: a :: b :: c :: d :: r => (hexChar? [a, b, c, d]).map (·, r)
  | 'U' :: a :: b :: c :: d :: e :: f :: g :: h :: r =>
    (hexChar? [a, b, c, d, e, f, g, h]).map (·, r)
  | c :: r => (unescape? c).map (·, r)
  | [] => none

def isSpace (c : Char) : Bool := c = ' ' || c = '\t'

/-- A line break at the front of a text, and what follows it. -/
def lineBreak? : List Char → Option (List Char × List Char)
  | '\n' :: r => some (['\n'], r)
  | '\r' :: '\n' :: r => some (['\r', '\n'], r)
  | _ => none

/-- The text without the blanks and line breaks in front. -/
def dropBlank : List Char → List Char
  | '\r' :: '\n' :: r => dropBlank r
  | c :: r => if isSpace c || c = '\n' then dropBlank r else c :: r
  | [] => []

/-- The text behind a backslash at the end of a line: the first character of what follows that is
not blank. -/
def afterBreak? (s : List Char) : Option (List Char) :=
  (lineBreak? (s.dropWhile isSpace)).map fun (_, r) ↦ dropBlank r

/-- A text in double quotes; `lines` says whether it may run over several lines. -/
def basic? (lines : Bool) (fuel : Nat) (s : List Char) : Option (List Char × List Char) :=
  match fuel with
  | 0 => none
  | fuel + 1 =>
    let go (c : List Char) (r : List Char) : Option (List Char × List Char) :=
      (basic? lines fuel r).map fun (l, rest) ↦ (c ++ l, rest)
    match s with
    | [] => none
    | '\r' :: '\n' :: r => if lines then go ['\r', '\n'] r else none
    | '\\' :: r =>
      match escape? r with
      | some (c, r) => go [c] r
      | none => if lines then (afterBreak? r).bind (go []) else none
    | '"' :: r =>
      if lines then
        match r with
        | '"' :: '"' :: '"' :: '"' :: r => some (['"', '"'], r)
        | '"' :: '"' :: '"' :: r => some (['"'], r)
        | '"' :: '"' :: r => some ([], r)
        | r => go ['"'] r
      else some ([], r)
    | c :: r => if isControl c && !(lines && c = '\n') then none else go [c] r

/-- A text in single quotes. -/
def literal? (lines : Bool) : List Char → Option (List Char × List Char)
  | [] => none
  | '\r' :: '\n' :: r =>
    if lines then (literal? lines r).map fun (l, rest) ↦ ('\r' :: '\n' :: l, rest) else none
  | '\'' :: '\'' :: '\'' :: '\'' :: '\'' :: r =>
    if lines then some (['\'', '\''], r) else some ([], '\'' :: '\'' :: '\'' :: '\'' :: r)
  | '\'' :: '\'' :: '\'' :: '\'' :: r =>
    if lines then some (['\''], r) else some ([], '\'' :: '\'' :: '\'' :: r)
  | '\'' :: '\'' :: '\'' :: r => some ([], if lines then r else '\'' :: '\'' :: r)
  | c :: r =>
    if c = '\'' && !lines then some ([], r)
    else if isControl c && !(lines && c = '\n') then none
    else (literal? lines r).map fun (l, rest) ↦ (c :: l, rest)

/-- The text without a line break in front. -/
def dropBreak (s : List Char) : List Char :=
  match lineBreak? s with
  | some (_, r) => r
  | none => s

/-- A quoted text on one line, and what follows it. -/
def quotedLine? : List Char → Option (String × List Char)
  | '"' :: r => (basic? false (r.length + 1) r).map fun (l, rest) ↦ (String.ofList l, rest)
  | '\'' :: r => (literal? false r).map fun (l, rest) ↦ (String.ofList l, rest)
  | _ => none

/-- A quoted text, and what follows it. -/
def quoted? : List Char → Option (String × List Char)
  | '"' :: '"' :: '"' :: r =>
    (basic? true (r.length + 1) (dropBreak r)).map fun (l, rest) ↦ (String.ofList l, rest)
  | '\'' :: '\'' :: '\'' :: r =>
    (literal? true (dropBreak r)).map fun (l, rest) ↦ (String.ofList l, rest)
  | s => quotedLine? s

example : quoted? "\"a\\x41\\u00e9\" = 1".toList = some ("aAé", " = 1".toList) := by decide +kernel

example : quoted? "\"\"\"\n/multi\\\n  line\"\"\"\"".toList = some ("/multiline\"", []) := by
  decide +kernel

example : quoted? "''''a'''''b".toList = some ("'a''", ['b']) := by decide +kernel

example : quoted? "'''\r\na\r\nb'''".toList = some ("a\r\nb", []) := by decide +kernel

end ContainerNet.Toml
