import ContainerNet.Toml.Quoted
import ContainerNet.Toml.Scalar
import ContainerNet.Toml.Table

/-!
# TOML documents

A document is read in two steps: its text into statements, one a line, and the statements into one
table. Of what is wrong with a document nothing is told.
-/

namespace ContainerNet.Toml

/-! ## Blanks and keys -/

/-- What follows blanks on the line. -/
def skipSpace (s : List Char) : List Char := s.dropWhile isSpace

/-- What follows blanks, line breaks and comments. -/
def skipLines (inComment : Bool) : List Char → Option (List Char)
  | [] => some []
  | '\n' :: r => skipLines false r
  | '\r' :: '\n' :: r => skipLines false r
  | c :: r =>
    if inComment then
      if isControl c then none else skipLines true r
    else if isSpace c then skipLines false r
    else if c = '#' then skipLines true r
    else some (c :: r)

/-- What follows a comment and the line break that ends it. -/
def afterComment? : List Char → Option (List Char)
  | [] => some []
  | '\n' :: r => some r
  | '\r' :: '\n' :: r => some r
  | c :: r => if isControl c then none else afterComment? r

/-- What follows the end of a line. -/
def lineEnd? (s : List Char) : Option (List Char) :=
  match skipSpace s with
  | [] => some []
  | '#' :: r => afterComment? r
  | s => (lineBreak? s).map (·.2)

/-- May stand in a key that is not quoted. -/
def isKeyChar (c : Char) : Bool := c.isAlphanum || c = '_' || c = '-'

/-- A simple key, and what follows it. -/
def key? (s : List Char) : Option (String × List Char) :=
  match s with
  | '"' :: _ | '\'' :: _ => quotedLine? s
  | s =>
    let name := s.takeWhile isKeyChar
    if name.isEmpty then none else some (String.ofList name, s.dropWhile isKeyChar)

/-- Arrays and inline tables may be nested this deep, and a key may have that many parts. -/
def maxDepth : Nat := 80

/-- A key of at most `parts` parts with points between them: the keys in front of the last one, the
last one, and what follows. -/
def keyOfParts? : (parts : Nat) → List Char → Option (List String × String × List Char)
  | 0, _ => none
  | parts + 1, s => do
    let (k, r) ← key? (skipSpace s)
    match skipSpace r with
    | '.' :: r =>
      let (path, last, r) ← keyOfParts? parts r
      return (k :: path, last, r)
    | r => return ([], k, r)

/-- A key that may have points in it. -/
def dottedKey? (s : List Char) : Option (List String × String × List Char) := keyOfParts? maxDepth s

/-! ## Values -/

mutual

/-- A value, and what follows it; `depth` more arrays or tables may open. -/
def value? : (fuel depth : Nat) → List Char → Option (Toml × List Char)
  | 0, _, _ => none
  | _, 0, '[' :: _ | _, 0, '{' :: _ => none
  | fuel + 1, depth + 1, '[' :: r => do
    let (items, r) ← items? fuel depth r
    return (.array items, r)
  | fuel + 1, depth + 1, '{' :: r => do
    let (pairs, r) ← pairs? fuel depth r
    return (← Draft.ofPairs pairs, r)
  | _, _, '"' :: r => (quoted? ('"' :: r)).map fun (s, r) ↦ (.text s, r)
  | _, _, '\'' :: r => (quoted? ('\'' :: r)).map fun (s, r) ↦ (.text s, r)
  | _, _, s => readScalar? s

/-- The items of an array up to its end. -/
def items? : (fuel depth : Nat) → List Char → Option (List Toml × List Char)
  | 0, _, _ => none
  | fuel + 1, depth, s => do
    match ← skipLines false s with
    | ']' :: r => return ([], r)
    | s =>
      let (v, r) ← value? fuel depth s
      match ← skipLines false r with
      | ']' :: r => return ([v], r)
      | ',' :: r =>
        let (items, r) ← items? fuel depth r
        return (v :: items, r)
      | _ => none

/-- The keys and values of an inline table up to its end. -/
def pairs? : (fuel depth : Nat) → List Char →
    Option (List (List String × String × Toml) × List Char)
  | 0, _, _ => none
  | fuel + 1, depth, s => do
    match ← skipLines false s with
    | '}' :: r => return ([], r)
    | s =>
      let (path, k, r) ← dottedKey? s
      match ← skipLines false r with
      | '=' :: r =>
        let (v, r) ← value? fuel depth (← skipLines false r)
        match ← skipLines false r with
        | '}' :: r => return ([(path, k, v)], r)
        | ',' :: r =>
          let (pairs, r) ← pairs? fuel depth r
          return ((path, k, v) :: pairs, r)
        | _ => none
      | _ => none

end

/-! ## Statements -/

inductive Statement
  | pair (path : List String) (key : String) (value : Toml)
  | header (path : List String) (key : String)
  | arrayHeader (path : List String) (key : String)

/-- One statement, with what follows the end of its line. -/
def statement? (s : List Char) : Option (Statement × List Char) := do
  match s with
  | '[' :: '[' :: r =>
    let (path, k, r) ← dottedKey? r
    match r with
    | ']' :: ']' :: r => return (.arrayHeader path k, ← lineEnd? r)
    | _ => none
  | '[' :: r =>
    let (path, k, r) ← dottedKey? r
    match r with
    | ']' :: r => return (.header path k, ← lineEnd? r)
    | _ => none
  | s =>
    let (path, k, r) ← dottedKey? s
    match r with
    | '=' :: r =>
      let (v, r) ← value? (2 * r.length + 2) maxDepth (skipSpace r)
      return (.pair path k v, ← lineEnd? r)
    | _ => none

/-- The statements of a text. -/
def statements? : (fuel : Nat) → List Char → Option (List Statement)
  | 0, _ => none
  | fuel + 1, s => do
    match ← skipLines false s with
    | [] => return []
    | s =>
      let (a, r) ← statement? s
      return a :: (← statements? fuel r)

/-- Carries out statements, given the header above them. -/
def run (header : List String) : List Statement → Draft → Option Draft
  | [], t => some t
  | .pair path k v :: rest, t => do run header rest (← t.defineIn header path k v)
  | .header path k :: rest, t => do run (path ++ [k]) rest (← t.openTable path k)
  | .arrayHeader path k :: rest, t => do run (path ++ [k]) rest (← t.addTable path k)

/-- A byte order mark in front of a text does not count. -/
def dropMark : List Char → List Char
  | c :: r => if c.toNat = 0xFEFF then r else c :: r
  | [] => []

/-- The table that a document describes. -/
def parse? (s : String) : Option Toml := do
  let text := dropMark s.toList
  let t ← run [] (← statements? (text.length + 1) text) []
  return .table (finishAll t)

end ContainerNet.Toml
