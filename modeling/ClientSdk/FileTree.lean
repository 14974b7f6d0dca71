import ClientSdk.Path

/-!
# File Trees

Files and directories in memory, as a list of locations. The root is the directory that paths
start from. A path is followed part by part, and each part but the last has to lead to a
directory.

## Main definitions

* `FileTree`: the locations with what lies there.
* `FileTree.read?`, `FileTree.write?`, `FileTree.rename?`, `FileTree.createDirectories`.
* `FileTree.listing`: everything in order.
-/

namespace ClientSdk

/-- What lies at a location. -/
inductive FileEntry where
  /-- A directory. -/
  | directory
  /-- A file with its contents. -/
  | file (bytes : ByteArray)
  deriving Inhabited

/-- The names on the way from the root. -/
abbrev Location := List String

/-- Files and directories below the root. -/
structure FileTree where
  /-- The locations with what lies there, each location once. -/
  entries : List (Location × FileEntry) := []
  deriving Inhabited

namespace FileTree

/-- What lies at a location. The root is a directory. -/
def entry? (tree : FileTree) (location : Location) : Option FileEntry :=
  if location.isEmpty then some .directory else tree.entries.lookup location

/-- A directory lies at a location. -/
def isDirectory (tree : FileTree) (location : Location) : Bool :=
  match tree.entry? location with
  | some .directory => true
  | _ => false

/-- The tree without what lies at a location. -/
def erase (tree : FileTree) (location : Location) : FileTree where
  entries := tree.entries.filter fun item => item.1 != location

/-- The tree with an entry at a location. -/
def put (tree : FileTree) (location : Location) (entry : FileEntry) : FileTree where
  entries := (tree.erase location).entries ++ [(location, entry)]

/-! ### Following paths -/

/-- A text of at most 255 bytes without a null character. -/
def isName (name : String) : Bool := name.utf8ByteSize ≤ 255 && !name.toList.contains '\x00'

/-- Where a part of a path leads, from a directory. -/
def step? (tree : FileTree) (location : Location) (part : String) : Option Location :=
  if tree.isDirectory location then
    if Path.isIdle part then some location
    else if part = ".." then some location.dropLast
    else if isName part then some (location ++ [part])
    else none
  else none

/-- Where a path leads. Nothing needs to lie there. -/
def locate? (tree : FileTree) (path : String) : Option Location :=
  if path.isEmpty then none else (Path.parts path).foldlM tree.step? []

/-! ### Operations -/

/-- The contents of a file. -/
def read? (tree : FileTree) (path : String) : Option ByteArray := do
  match tree.entry? (← tree.locate? path) with
  | some (.file bytes) => some bytes
  | _ => none

/-- The tree in which a file has the given contents. A directory is in the way of a file. -/
def write? (tree : FileTree) (path : String) (bytes : ByteArray) : Option FileTree := do
  let location ← tree.locate? path
  match tree.entry? location with
  | some .directory => none
  | _ => some (tree.put location (.file bytes))

/-- The tree in which a file lies elsewhere. It takes the place of a file, but not that of a
directory. -/
def rename? (tree : FileTree) (source target : String) : Option FileTree := do
  let old ← tree.locate? source
  let new ← tree.locate? target
  match tree.entry? old, tree.entry? new with
  | some (.file _), some .directory => none
  | some (.file bytes), _ => some ((tree.erase old).put new (.file bytes))
  | _, _ => none

/-- The tree in which the parts of a path are directories, and whether all of them are. A file in
the way stops the work, and the directories before it remain. -/
def createFrom (tree : FileTree) (location : Location) : List String → FileTree × Bool
  | [] => (tree, true)
  | part :: parts =>
    match tree.step? location part with
    | none => (tree, false)
    | some next =>
      match tree.entry? next with
      | some .directory => tree.createFrom next parts
      | some (.file _) => (tree, false)
      | none => (tree.put next .directory).createFrom next parts

/-- The tree in which a path leads to a directory, and whether it does. -/
def createDirectories (tree : FileTree) (path : String) : FileTree × Bool :=
  tree.createFrom [] (Path.parts path)

/-! ### Listing -/

/-- The path of an entry from the root. That of a directory ends in a slash. -/
def entryPath (location : Location) : FileEntry → String
  | .directory => "/".intercalate location ++ "/"
  | .file _ => "/".intercalate location

/-- All entries with their paths, in the order of the paths. -/
def listing (tree : FileTree) : List (String × FileEntry) :=
  (tree.entries.map fun item => (entryPath item.1 item.2, item.2)).mergeSort
    fun a b => a.1 ≤ b.1

end FileTree

end ClientSdk
