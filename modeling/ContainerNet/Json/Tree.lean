import ContainerNet.Json.Token

/-!
# What a text offers to a reader

A reader of JSON walks through a text in order and stops at the first thing it cannot use, so the
text in front of a fault counts even if what follows is no JSON at all. `Tree` keeps exactly that:
a text is read into a tree that may be broken off. An array or object that is not `closed` ends
where the text went wrong, and `broken` stands where a value should have begun.

A value that can be skipped but not read is `unreadable`: a numeral that is too great, a quoted
text that is no text, or an array or object nested too deeply.

The reader of tokens is a machine with a stack of the arrays and objects that are open, so it is
structural in the tokens.
-/

namespace ContainerNet.Json

inductive Tree
  | null
  | bool (b : Bool)
  | number (n : Json.Number)
  | text (s : String)
  | array (items : List Tree) (closed : Bool)
  | object (members : List (Option String × Tree)) (closed : Bool)
  | unreadable
  | broken
deriving Repr, Inhabited

/-- A text, read: its first value, and whether nothing follows it. -/
structure Document where
  tree : Tree
  complete : Bool

namespace Tree

/-- Arrays and objects may be nested this deep. -/
def maxDepth : Nat := 127

/-- An array or object that is still open; what it holds so far is in reverse order. An object
carries the key of the member that comes next. -/
inductive Frame
  | array (items : List Tree)
  | object (members : List (Option String × Tree)) (key : Option String)

/-- What may come next in the text. -/
inductive Expect
  /-- A value. -/
  | value
  /-- The first item of an array, or its end. -/
  | firstItem
  /-- The first key of an object, or its end. -/
  | firstKey
  /-- A key. -/
  | key
  /-- The colon between a key and its value. -/
  | colon
  /-- A comma, or the end of the array or object. -/
  | separator

/-- Whether an array or object above `below` open ones is too deep. -/
def tooDeep (below : List Frame) : Bool := !(below.drop (maxDepth - 1)).isEmpty

/-- The tree of a text that stops making sense while the frames are open. -/
def cut : Expect → List Frame → Tree
  | _, [] => .broken
  | _, .array items :: below => up below below.length (.array items.reverse false)
  | e, .object members key :: below =>
    let members := match e with
      | .colon | .value => (key, Tree.broken) :: members
      | _ => members
    up below below.length (.object members.reverse false)
where
  /-- Encloses a tree in the frames that are open around it, `depth` of them. -/
  up : List Frame → (depth : Nat) → Tree → Tree
    | [], _, t => t
    | .array items :: below, depth, t =>
      up below (depth - 1) (.array (limit (depth - 1) t :: items).reverse false)
    | .object members key :: below, depth, t =>
      up below (depth - 1) (.object ((key, limit (depth - 1) t) :: members).reverse false)
  /-- A broken array or object that lies too deep cannot even be entered. -/
  limit (below : Nat) (t : Tree) : Tree := if maxDepth ≤ below + 1 then .broken else t

/-- What a token that is a value by itself stands for. -/
def ofToken? : Token → Option Tree
  | .null => some .null
  | .bool b => some (.bool b)
  | .number (some n) => some (.number n)
  | .text (some s) => some (.text s)
  | .number none | .text none => some .unreadable
  | _ => none

/-- What a token does to the machine. -/
inductive Step
  /-- The text goes on. -/
  | next (expect : Expect) (frames : List Frame)
  /-- The first value is complete. -/
  | finished (t : Tree)
  /-- The token may not stand here. -/
  | refused

/-- Goes on after a complete value. -/
def place (t : Tree) : List Frame → Step
  | [] => .finished t
  | .array items :: below => .next .separator (.array (t :: items) :: below)
  | .object members key :: below => .next .separator (.object ((key, t) :: members) key :: below)

/-- One token, given what may come next and what is open. -/
def step : Expect → Token → List Frame → Step
  | .value, .openBracket, frames | .firstItem, .openBracket, frames =>
    .next .firstItem (.array [] :: frames)
  | .value, .openBrace, frames | .firstItem, .openBrace, frames =>
    .next .firstKey (.object [] none :: frames)
  | .firstItem, .closeBracket, .array items :: below
  | .separator, .closeBracket, .array items :: below =>
    place (if tooDeep below then .unreadable else .array items.reverse true) below
  | .firstKey, .closeBrace, .object members _ :: below
  | .separator, .closeBrace, .object members _ :: below =>
    place (if tooDeep below then .unreadable else .object members.reverse true) below
  | .firstKey, .text k, .object members _ :: below | .key, .text k, .object members _ :: below =>
    .next .colon (.object members k :: below)
  | .colon, .colon, frames => .next .value frames
  | .separator, .comma, .array items :: below => .next .value (.array items :: below)
  | .separator, .comma, .object members k :: below => .next .key (.object members k :: below)
  | .value, t, frames | .firstItem, t, frames =>
    match ofToken? t with
    | some v => place v frames
    | none => .refused
  | _, _, _ => .refused

/-- Reads tokens into a tree, given what may come next and what is open. -/
def read (expect : Expect) (frames : List Frame) (complete : Bool) : List Token → Document
  | [] => ⟨cut expect frames, false⟩
  | t :: r =>
    match step expect t frames with
    | .next expect frames => read expect frames complete r
    | .finished v => ⟨v, complete && r.isEmpty⟩
    | .refused => ⟨cut expect frames, false⟩

end Tree

/-- Reads a text. -/
def Document.ofGlyphs (s : List Text.Glyph) : Document :=
  let t := tokens s
  Tree.read .value [] t.complete t.tokens

/-- Reads a text. -/
def Document.ofText (s : String) : Document := ofGlyphs (Text.ofChars s.toList)

/-- Reads a text that is given as bytes. -/
def Document.ofBytes (s : List UInt8) : Document := ofGlyphs (Text.glyphs s)

end ContainerNet.Json
