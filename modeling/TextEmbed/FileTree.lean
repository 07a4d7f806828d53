import TextEmbed.Fault
import TextEmbed.Path
import TextEmbed.Source

/-!
# File trees

Files and directories below a root directory. A location says where a node is; a path leads to a
location from the root or from the working directory, step by step, through directories only.
-/

namespace TextEmbed

/-- What can be at a location. -/
inductive Node where
  | directory
  /-- A file with contents. -/
  | regular (contents : List UInt8)
  /-- A device that is empty and takes everything. -/
  | nullDevice
  /-- A device that takes nothing. It is meant for output: who reads from it gets zeros without end,
  so a run that does so never ends. Such runs are out of scope. -/
  | fullDevice
  deriving DecidableEq, Repr

/-- The names of the directories down to a node, and its own name. -/
abbrev Location := List (List UInt8)

/-- A tree of files. -/
structure FileTree where
  /-- The nodes other than the root directory. -/
  nodes : List (Location × Node)
  /-- Where relative paths start. -/
  workingDirectory : Location
  deriving Repr

namespace FileTree

/-- The node at a location. -/
def node? (tree : FileTree) (location : Location) : Option Node :=
  if location = [] then some .directory else tree.nodes.lookup location

/-- Puts a node at a location in place of what is there. -/
def put (tree : FileTree) (location : Location) (node : Node) : FileTree :=
  if (tree.nodes.lookup location).isSome then
    { tree with
      nodes := tree.nodes.map fun entry => if entry.1 = location then (location, node) else entry }
  else { tree with nodes := tree.nodes ++ [(location, node)] }

/-- The greatest length of a name. -/
def maxNameLength : Nat := 255

/-- Every path is shorter than this. -/
def pathLimit : Nat := 4096

/-- Looks up a name in a directory. -/
def lookUp (tree : FileTree) (directory : Location) (name : List UInt8) :
    Except SystemError Location :=
  if maxNameLength < name.length then .error .nameTooLong
  else if (tree.node? (directory ++ [name])).isSome then .ok (directory ++ [name])
  else .error .noSuchEntry

/-- Checks that a location is a directory. -/
def requireDirectory (tree : FileTree) (location : Location) : Except SystemError Unit :=
  match tree.node? location with
  | some .directory => .ok ()
  | some _ => .error .notADirectory
  | none => .error .noSuchEntry

/-- Goes one component further, which is possible from a directory only. -/
def enter (tree : FileTree) (location : Location) (component : Component) :
    Except SystemError Location := do
  tree.requireDirectory location
  match component with
  | .root => return []
  | .current => return location
  | .parent => return location.dropLast
  | .name name => tree.lookUp location name

/-- Where a path starts. -/
def start (tree : FileTree) (path : Path) : Location :=
  if path.isAbsolute then [] else tree.workingDirectory

/-- Follows the components of a path one after the other. -/
def follow (tree : FileTree) (path : Path) (components : List Component) :
    Except SystemError Location :=
  components.foldlM tree.enter (tree.start path)

/-- The location that a path leads to. A path that ends in a slash or a dot leads to directories
only. -/
def resolve (tree : FileTree) (path : Path) : Except SystemError Location := do
  let location ← tree.follow path path.components
  if path.endsAsDirectory then tree.requireDirectory location
  return location

/-- Refuses paths that no file can have. -/
def checkPath (path : Path) : Except Fault Unit :=
  if path.bytes.contains 0 then .error .zeroInPath
  else if path.bytes = [] then .error (.system .noSuchEntry)
  else if pathLimit ≤ path.bytes.length then .error (.system .nameTooLong)
  else .ok ()

/-- Opens a file, or a directory, to read from it. -/
def openPath (tree : FileTree) (path : Path) : Except Fault Location := do
  checkPath path
  (tree.resolve path).mapError .system

/-- Where a file is, or would be, that is opened to write to it. -/
def target (tree : FileTree) (path : Path) : Except SystemError Location :=
  match path.finalName? with
  | none => do
    let _ ← tree.resolve path
    .error .isADirectory
  | some name => do
    let directory ← tree.follow path path.components.dropLast
    tree.requireDirectory directory
    if path.endsInSlash then .error .isADirectory
    else if maxNameLength < name.length then .error .nameTooLong
    else if tree.node? (directory ++ [name]) = some .directory then .error .isADirectory
    else return directory ++ [name]

/-- Empties a file, which is made if there is none. Devices stay as they are. -/
def truncate (tree : FileTree) (location : Location) : FileTree :=
  match tree.node? location with
  | some .nullDevice | some .fullDevice => tree
  | _ => tree.put location (.regular [])

/-- Creates a file to write to it, or empties the one that is there. -/
def create (tree : FileTree) (path : Path) : Except Fault (Location × FileTree) := do
  checkPath path
  let location ← (tree.target path).mapError .system
  return (location, tree.truncate location)

/-- The contents of the regular file at a location, if there is one. -/
def contents? (tree : FileTree) (location : Location) : Option (List UInt8) :=
  match tree.node? location with
  | some (.regular contents) => some contents
  | _ => none

/-- What reading from a location gives. A source ends, so the zeros of the full device can't be
given. It stands as empty here, which it isn't: runs that read from it are out of scope. -/
def source (tree : FileTree) (location : Location) : Source :=
  match tree.node? location with
  | some (.regular contents) => .ofData contents
  | some .directory => [.fault (.system .isADirectory)]
  | some .nullDevice | some .fullDevice | none => []

/-- Puts the bytes that were written to a location into its file. Devices keep nothing. -/
def fill (tree : FileTree) (location : Location) (contents : List UInt8) : FileTree :=
  match tree.node? location with
  | some (.regular _) => tree.put location (.regular contents)
  | _ => tree

/-- The regular files below a location, with their contents. -/
def files (tree : FileTree) : List (Location × List UInt8) :=
  tree.nodes.filterMap fun
    | (location, .regular contents) => some (location, contents)
    | _ => none

end FileTree

end TextEmbed
