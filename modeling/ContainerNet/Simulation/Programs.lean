import ContainerNet.Plugin.Process

/-!
# Programs with a script

Plugin programs in a file tree of which it is laid down beforehand how each of them ends. Running
one leaves a record of what it was given.
-/

namespace ContainerNet.Simulation

open Plugin (Invocation)
open Plugin.Process (Remains)

/-- A program in a file tree. -/
structure Script where
  path : String
  executable : Bool
  /-- How a run ends, by the command that the program is given. -/
  ends : String → Remains

/-- A file tree with programs, and the runs so far, last first: the program and what it was
given. -/
structure Programs where
  scripts : List Script
  files : FileTree
  runs : List (String × Invocation)

namespace Programs

/-- The scripts among other files. -/
def ofScripts (scripts : List Script) (files : FileTree) : Programs :=
  ⟨scripts, scripts.foldl (fun t s ↦ t.put s.path (.file "")) files, []⟩

/-- The script that a path leads to; a later script takes the place of an earlier one. -/
def find? (p : Programs) (path : String) : Option Script :=
  if Path.isAbsolute path then none
  else match p.files.locate path with
    | .ok (_, .inside steps) => p.scripts.reverse.find? (FileTree.placeOf ·.path = steps)
    | _ => none

/-- What a variable of an environment is set to. -/
def valueOf (name : String) (i : Invocation) : String :=
  ((i.environment.find? (·.1 = name)).map (·.2)).getD ""

/-- Runs a program. A name without a slash would be searched for elsewhere, where nothing is. -/
def start (i : Invocation) (p : Programs) : Except IoFault Remains × Programs :=
  if i.environment.any fun (_, s) ↦ s.toList.contains '\x00' then (.error .zeroInEnvironment, p)
  else if !i.path.toList.contains '/' then (.error .notFound, p)
  else match p.find? i.path with
    | some s =>
      if s.executable then
        (.ok (s.ends (valueOf "CNI_COMMAND" i)), { p with runs := (s.path, i) :: p.runs })
      else (.error .permissionDenied, p)
    | none => (.error .permissionDenied, p)

end Programs

end ContainerNet.Simulation
