import ContainerNet.Files.FileTree
import ContainerNet.Text.Utf8

/-!
# Access to files

A file system, as far as it is looked at and read. Whether something is at a path and what is in it
are two questions, since a directory can be opened but not read.
-/

namespace ContainerNet

/-- A file system to read from. -/
structure FileAccess where
  /-- Looks for something at a path. -/
  find : String → Except IoFault Unit
  /-- What is in the file at a path. -/
  bytes : String → Except IoFault (List UInt8)

namespace FileAccess

variable (f : FileAccess)

/-- Whether there is something at a path. -/
def has (path : String) : Bool := (f.find path).isOk

/-- The text in the file at a path. -/
def text (path : String) : Except IoFault String := do
  match Text.decode? (← f.bytes path) with
  | some s => return String.ofList s
  | none => throw .notText

/-- A file tree as a file system. -/
def ofTree (t : FileTree) : FileAccess where
  find path := (t.resolve path).map fun _ ↦ ()
  bytes path := (t.read path).map fun content ↦ content.toUTF8.toList

end FileAccess

end ContainerNet
