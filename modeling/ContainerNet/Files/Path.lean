/-!
# Paths

Paths are texts with slashes. `join` appends one path to another, `parts` is what a path means: a
sequence of steps in which repeated and trailing slashes and inner `.` steps do not matter, while
`..` does, since it cannot be resolved without looking at the files. Two paths are the same iff
they have the same parts.
-/

namespace ContainerNet.Path

def isAbsolute (p : String) : Bool := p.toList.head? == some '/'

/-- The path `p`, seen from the directory `base`. -/
def join (base p : String) : String :=
  if isAbsolute p then p
  else if base.isEmpty || base.toList.getLast? == some '/' then base ++ p
  else base ++ "/" ++ p

/-- The pieces of a text between the separators. -/
def split (separator : Char) : List Char → List (List Char)
  | [] => [[]]
  | c :: r =>
    if c = separator then [] :: split separator r
    else match split separator r with
      | [] => [[c]]
      | piece :: rest => (c :: piece) :: rest

/-- The names between the slashes of a path, empty ones included. -/
def names (p : String) : List String := (split '/' p.toList).map String.ofList

/-- What a path means. -/
structure Parts where
  absolute : Bool
  steps : List String
deriving DecidableEq, Repr

/-- A leading `.` step counts, others do not. -/
def parts (p : String) : Parts :=
  let all := (names p).filter (· ≠ "")
  let steps := match all with
    | "." :: r => if isAbsolute p then r.filter (· ≠ ".") else "." :: r.filter (· ≠ ".")
    | l => l.filter (· ≠ ".")
  ⟨isAbsolute p, steps⟩

/-- Whether two texts are the same path. -/
def same (p q : String) : Bool := parts p == parts q

/-- A list of directories as one text with colons between them. A colon inside of a directory
cannot be told from a separator, so then there is no such text. -/
def joinSearch? (dirs : List String) : Option String :=
  if dirs.any (·.toList.contains ':') then none else some (":".intercalate dirs)

end ContainerNet.Path
