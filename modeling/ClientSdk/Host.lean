import ClientSdk.Event
import ClientSdk.FileTree

/-!
# Hosts

What a run may do to the world: read and write files, print, and report. A host that lives in
memory shows what a run leaves behind.

## Main definitions

* `Host`: the computations of a host.
* `Workspace`: the state of a host in memory.
-/

namespace ClientSdk

/-- What a run may do. -/
class Host (m : Type → Type) where
  /-- The contents of a file, if they can be read. -/
  read : String → m (Option ByteArray)
  /-- Makes a directory and those that it lies in, and tells whether it is there. -/
  createDirectories : String → m Bool
  /-- Gives a file its contents, and tells whether it has them. -/
  write : String → String → m Bool
  /-- Moves a file to the place of another, and tells whether it is there. -/
  rename : String → String → m Bool
  /-- Prints a text on the output. -/
  print : String → m Unit
  /-- Tells the user a line, apart from the output. -/
  report : String → m Unit
  /-- Takes note of an event. -/
  note : RunEvent → m Unit

/-- A host in memory: its files and what it has been told. -/
structure Workspace where
  /-- The files. -/
  files : FileTree := {}
  /-- The output. -/
  printed : String := ""
  /-- The lines for the user, in order. -/
  reports : List String := []
  /-- The events, in order. -/
  events : List RunEvent := []
  deriving Inhabited

namespace Workspace

/-- The workspace with other files, if there are any, and whether there are. -/
def replaceFiles (workspace : Workspace) : Option FileTree → Bool × Workspace
  | some files => (true, { workspace with files })
  | none => (false, workspace)

instance : Host (StateM Workspace) where
  read path := return (← get).files.read? path
  createDirectories path :=
    modifyGet fun workspace =>
      let (files, done) := workspace.files.createDirectories path
      (done, { workspace with files })
  write path content :=
    modifyGet fun workspace => workspace.replaceFiles (workspace.files.write? path content.toUTF8)
  rename source target :=
    modifyGet fun workspace => workspace.replaceFiles (workspace.files.rename? source target)
  print text := modify fun workspace => { workspace with printed := workspace.printed ++ text }
  report line := modify fun workspace => { workspace with reports := workspace.reports ++ [line] }
  note event := modify fun workspace => { workspace with events := workspace.events ++ [event] }

end Workspace

end ClientSdk
