import ContainerNet.Files.FileTree
import ContainerNet.Text.Decimal

/-!
# Places

Where the sidecar looks for things: the directories of plugins, searched in order, and the file
system of processes, through which the namespace of a process is reached.
-/

namespace ContainerNet

/-- Directories that the sidecar uses. -/
structure Places where
  /-- Directories with plugins, in the order of the search. -/
  pluginDirs : List String := ["/opt/cni/bin"]
  /-- The file system of processes. -/
  procRoot : String := "/proc"
deriving DecidableEq, Repr, Inhabited

namespace Places

/-- The network namespace of a process. -/
def netnsOfPid (p : Places) (pid : Nat) : String :=
  Path.join (Path.join (Path.join p.procRoot (Text.natText pid)) "ns") "net"

/-- The directories of plugins as one text; empty if there is no such text. -/
def searchText (p : Places) : String := (Path.joinSearch? p.pluginDirs).getD ""

/-- The first file of the plugin's name, given which paths are files. -/
def findPlugin? (p : Places) (isFile : String → Bool) (plugin : String) : Option String :=
  (p.pluginDirs.map fun dir ↦ Path.join dir plugin).find? isFile

end Places

end ContainerNet
