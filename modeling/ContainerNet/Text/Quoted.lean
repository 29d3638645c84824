import ContainerNet.Text.Unprintable

/-!
# Quoted texts

A text in double quotes, in which quotes, backslashes and characters that would not be seen are
escaped. The log shows texts of uncertain content like this.
-/

namespace ContainerNet.Text

/-- A character between quotes. -/
def escape (c : Char) : List Char :=
  if c = '"' || c = '\\' then ['\\', c]
  else if c = '\n' then ['\\', 'n']
  else if c = '\r' then ['\\', 'r']
  else if c = '\t' then ['\\', 't']
  else if c = '\x00' then ['\\', '0']
  else if isUnprintable c then
    ['\\', 'u', '\x7b'] ++ Nat.toDigits 16 c.toNat ++ ['\x7d']
  else [c]

/-- A text between quotes. -/
def quoted (s : String) : String := String.ofList ('"' :: s.toList.flatMap escape ++ ['"'])

/-- A text that may be absent. -/
def quotedOption : Option String → String
  | none => "None"
  | some s => "Some(" ++ quoted s ++ ")"

/-- A list of texts. -/
def quotedList (l : List String) : String := "[" ++ ", ".intercalate (l.map quoted) ++ "]"

example : quoted "a\"b\\\n\x01é" = "\"a\\\"b\\\\\\n\\u\x7b1\x7dé\"" := by decide +kernel

end ContainerNet.Text
