import ContainerNet.Files.Path
import ContainerNet.IoFault

/-!
# File trees

A directory tree as the list of what was put into it, and the resolution of a path in it, step by
step from its top directory. The tree lies somewhere inside of a system of which no more is known
than its usual directories: a path may lead out of the tree at its top, but not back into it.
-/

namespace ContainerNet

/-- What stands at a place of a file tree. -/
inductive FileTree.Entry
  | directory
  | file (content : String)
  /-- A device of which nothing can be read. -/
  | device
deriving DecidableEq, Repr

/-- The entries of a tree, by the names that lead to them. Directories above an entry need not be
listed. -/
structure FileTree where
  entries : List (List String × FileTree.Entry)
deriving Repr

namespace FileTree

def empty : FileTree := ⟨[]⟩

/-- Goes through the names of a path where each of them is made a directory on the way. Gives the
directories that `..` has left again and the place that is reached. -/
def passThrough : (left : List (List String)) → (place : List String) → (names : List String) →
    List (List String) × List String
  | left, place, [] => (left, place)
  | left, place, name :: rest =>
    if name = "" || name = "." then passThrough left place rest
    else if name = ".." then passThrough (left ++ [place]) place.dropLast rest
    else passThrough left (place ++ [name]) rest

/-- The place of a relative path whose directories are made. -/
def placeOf (path : String) : List String := (passThrough [] [] (Path.names path)).2

/-- Puts an entry at a relative path and makes the directories on the way to it. -/
def put (t : FileTree) (path : String) (e : Entry) : FileTree :=
  let (left, place) := passThrough [] [] (Path.names path)
  ⟨t.entries ++ left.map (·, .directory) ++ [(place, e)]⟩

example : (empty.put "a/../b/p" .directory).entries =
    [(["a"], .directory), (["b", "p"], .directory)] := by decide +kernel

/-- What stands at some names; a name on the way to an entry is a directory. -/
def get? (t : FileTree) (steps : List String) : Option Entry :=
  if steps.isEmpty then some .directory
  else match t.entries.reverse.find? (·.1 = steps) with
    | some (_, e) => some e
    | none => if t.entries.any fun e ↦ steps.isPrefixOf e.1 then some .directory else none

/-- Names have at most this many bytes. -/
def maxName : Nat := 255

/-- Paths have fewer bytes than this. -/
def maxPath : Nat := 4096

/-- Where a path leads. -/
inductive Spot
  /-- To some names in the tree. -/
  | inside (steps : List String)
  /-- To a directory around the tree. -/
  | around

/-- Follows the remaining names of a path from a spot; `above` is where the parent of the top
directory is. -/
def follow (t : FileTree) (above : Spot) : Spot → List String → Except IoFault Spot
  | spot, [] => .ok spot
  | .around, name :: rest =>
    if name ∈ ["", ".", ".."] then t.follow above .around rest
    else if maxName < name.utf8ByteSize then .error .nameTooLong
    else .error .notFound
  | .inside steps, name :: rest =>
    if t.get? steps ≠ some .directory then .error .notDirectory
    else if name = "" || name = "." then t.follow above (.inside steps) rest
    else if name = ".." then
      t.follow above (if steps.isEmpty then above else .inside steps.dropLast) rest
    else if maxName < name.utf8ByteSize then .error .nameTooLong
    else match t.get? (steps ++ [name]) with
      | none => .error .notFound
      | some _ => t.follow above (.inside (steps ++ [name])) rest

/-- What stands at a spot. -/
def at? (t : FileTree) : Spot → Option Entry
  | .inside steps => t.get? steps
  | .around => some .directory

/-- What is known of a system, seen from its root. -/
def system : FileTree :=
  ⟨(["dev", "null"], .device) :: ["bin", "etc", "home", "lib", "opt", "proc", "root", "run", "sbin",
    "sys", "tmp", "usr", "var"].map fun name ↦ ([name], .directory)⟩

/-- Where a path leads, and in which tree. -/
def locate (t : FileTree) (path : String) : Except IoFault (FileTree × Spot) :=
  if Path.isAbsolute path then
    (system.follow (.inside []) (.inside []) (Path.names path)).map (system, ·)
  else (t.follow .around (.inside []) (Path.names path)).map (t, ·)

/-- What a path leads to. -/
def resolve (t : FileTree) (path : String) : Except IoFault Entry :=
  if path.toList.contains '\x00' then .error .zeroInPath
  else if path.isEmpty then .error .notFound
  else if maxPath ≤ path.utf8ByteSize then .error .nameTooLong
  else do
    let (t, spot) ← t.locate path
    match t.at? spot with
    | some e => return e
    | none => throw .notFound

def isFile (t : FileTree) (path : String) : Bool :=
  match t.resolve path with
  | .ok (.file _) => true
  | _ => false

/-- The content of a file. -/
def read (t : FileTree) (path : String) : Except IoFault String := do
  match ← t.resolve path with
  | .file content => return content
  | .device => return ""
  | .directory => throw .isDirectory

end FileTree

end ContainerNet
