import TextEmbed.Utf8

/-!
# Paths

A path is a byte string; its components are what stands between its slashes.
-/

namespace TextEmbed

/-- A path as it was given. -/
structure Path where
  /-- The bytes of the path. -/
  bytes : List UInt8
  deriving DecidableEq, Repr

/-- A component of a path. -/
inductive Component where
  /-- The root directory, in front of an absolute path. -/
  | root
  /-- A dot in front of a relative path. -/
  | current
  /-- Two dots. -/
  | parent
  /-- The name of an entry. -/
  | name (bytes : List UInt8)
  deriving DecidableEq, Repr

namespace Path

/-- The slash between components. -/
def slash : UInt8 := 0x2F

/-- The dot. -/
def dot : UInt8 := 0x2E

/-- The path of a text. -/
def ofText (text : List Char) : Path :=
  ⟨Utf8.encode text⟩

/-- What stands between the slashes, empty parts included. -/
def parts (path : Path) : List (List UInt8) :=
  path.bytes.splitOn slash

/-- Whether the path starts at the root directory. -/
def isAbsolute (path : Path) : Bool :=
  path.bytes.head? == some slash

/-- The component that a part stands for behind another one. Empty parts and dots stand for none. -/
def componentOfPart (part : List UInt8) : Option Component :=
  if part = [] ∨ part = [dot] then none
  else if part = [dot, dot] then some .parent
  else some (.name part)

/-- The component in front: the root of an absolute path, the dot of a path that starts with one. -/
def leading (path : Path) : Option Component :=
  if path.isAbsolute then some .root
  else if path.parts.head? = some [dot] then some .current
  else none

/-- The components of a path. Two paths with equal components name the same file. -/
def components (path : Path) : List Component :=
  path.leading.toList ++ path.parts.filterMap componentOfPart

/-- The path that stands for a standard stream. -/
def standard : Path := ofText ['-']

/-- Whether a path stands for a standard stream: it has the components of `-`. -/
def isStandard (path : Path) : Bool :=
  path.components = standard.components

/-- The name of the file at the end of the path, if the path ends in a name. -/
def fileName? (path : Path) : Option (List UInt8) :=
  match path.components.getLast? with
  | some (.name bytes) => some bytes
  | _ => none

/-- The base name of a path, shown as text: the name at its end, or else the whole path. -/
def baseName (path : Path) : List Char :=
  Utf8.lossy (path.fileName?.getD path.bytes)

/-- Whether the last byte of a path is a slash. -/
def endsInSlash (path : Path) : Bool :=
  path.bytes.getLast? == some slash

/-- The last part of a path that isn't empty. -/
def lastPart? (path : Path) : Option (List UInt8) :=
  (path.parts.filter (· ≠ [])).getLast?

/-- Whether a path can lead to a directory only, because it ends in a slash or in a dot part. -/
def endsAsDirectory (path : Path) : Bool :=
  path.endsInSlash || path.lastPart? == some [dot]

/-- The last part of a path if it is a name. Unlike `fileName?`, a dot part behind a name counts. -/
def finalName? (path : Path) : Option (List UInt8) :=
  path.lastPart?.filter fun part => part ≠ [dot] ∧ part ≠ [dot, dot]

example : (ofText "./d//x/.".toList).components =
    [.current, .name (Utf8.encode ['d']), .name (Utf8.encode ['x'])] := by decide

/-- Slashes and dots behind a dash change nothing; a dot in front makes it the name of a file. -/
example : (ofText "-//.".toList).isStandard ∧ ¬ (ofText "./-".toList).isStandard := by decide

end Path

end TextEmbed
