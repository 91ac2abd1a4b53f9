import RetailReport.Partition.Path
import RetailReport.Partition.Table

/-!
# The folder of the partitions

Partitions are kept in files.  A `Folder` is the tree of directories and files around them.  A path
is followed name by name: a name leads into the directory where the path has got to, `..` leads back,
and nothing but a directory can be passed through, not even by a slash at the end of the path.  So
two paths may lead to one place, and the tree lists places, not paths.

What fails leaves the tree as it was, apart from the creation of several directories and the removal
of a tree, which may stop half-way.

## Main definitions

* `Folder`, `FolderNode`, `FolderError`, `Place`.
* `Folder.locate`: where a path leads to.
* `Folder.makeDir`, `Folder.makeDirs`, `Folder.write`, `Folder.rename`, `Folder.removeFile`,
  `Folder.removeTree`.
* `Folder.read`, `Folder.files`.
-/

namespace RetailReport

/-- A place in the tree: the names of the directories that it lies in, and its own. -/
abbrev Place := List String

/-- What stands at a place. -/
inductive FolderNode where
  /-- A directory. -/
  | directory
  /-- A file that holds a text. -/
  | text (content : String)
  /-- A file that holds a table. -/
  | table (content : FactTable)
deriving Repr

/-- Why a path cannot be used. -/
inductive FolderError where
  /-- Nothing stands there, or on the way. -/
  | notFound
  /-- What stands on the way is no directory. -/
  | notDirectory
  /-- What stands there is a directory. -/
  | isDirectory
  /-- Something stands there already. -/
  | occupied
  /-- The path or one of its names is too long. -/
  | tooLong
  /-- There is a null character in the path. -/
  | nullCharacter
  /-- What stands there is no text. -/
  | notText
deriving DecidableEq, Repr

/-- The wording of an error. -/
def FolderError.message : FolderError → String
  | .notFound => "No such file or directory (os error 2)"
  | .notDirectory => "Not a directory (os error 20)"
  | .isDirectory => "Is a directory (os error 21)"
  | .occupied => "File exists (os error 17)"
  | .tooLong => "File name too long (os error 36)"
  | .nullCharacter => "file name contained an unexpected NUL byte"
  | .notText => "stream did not contain valid UTF-8"

/-- Directories and files by their places. -/
structure Folder where
  /-- What stands at each place; at first, only the home and the directories that it lies in. -/
  nodes : SortedMap Place FolderNode :=
    .ofList [([], .directory), (["tmp"], .directory), (FolderPath.home, .directory)]

instance : Inhabited Folder := ⟨{}⟩

namespace Folder

/-! ### Following paths -/

/-- The number of bytes that a name has at most. -/
def maxName : Nat := 255

/-- The number of bytes that a path has at most. -/
def maxPath : Nat := 4095

/-- Where a name leads to from a place. -/
def follow (d : Folder) (place : Place) (name : String) : Except FolderError Place :=
  match d.nodes.get? place with
  | none => .error .notFound
  | some .directory =>
    if FolderPath.isBlank name then .ok place
    else if name = ".." then .ok place.dropLast
    else if maxName < name.utf8ByteSize then .error .tooLong
    else .ok (place ++ [name])
  | some _ => .error .notDirectory

/-- Where a path leads to.  Something need not stand there, but it does on the way. -/
def locate (d : Folder) (path : FolderPath) : Except FolderError Place :=
  if path.any fun name => name.toList.contains '\x00' then .error .nullCharacter
  else if maxPath < FolderPath.size path then .error .tooLong
  else path.foldlM d.follow []

/-- What a path leads to. -/
def node (d : Folder) (path : FolderPath) : Except FolderError FolderNode := do
  match d.nodes.get? (← d.locate path) with
  | some node => return node
  | none => throw .notFound

/-- Whether a path leads to something. -/
def contains (d : Folder) (path : FolderPath) : Bool := (d.node path).toBool

/-- Whether a path leads to a directory. -/
def isDirectory (d : Folder) (path : FolderPath) : Bool :=
  match d.node path with
  | .ok .directory => true
  | _ => false

/-! ### Directories -/

/-- Creates a directory. -/
def makeDir (d : Folder) (path : FolderPath) : Except FolderError Folder := do
  let place ← d.locate (FolderPath.withoutSlashes path)
  if d.nodes.contains place then throw .occupied
  return { d with nodes := d.nodes.insert place .directory }

/-- Creates a directory, unless it is there already. -/
def ensureDir (d : Folder) (path : FolderPath) : Except FolderError Folder :=
  match d.makeDir path with
  | .ok d => .ok d
  | .error e => if d.isDirectory path then .ok d else .error e

/-- Creates a directory, given its path and those of the directories that it lies in.  Those are only
created if the directory itself cannot be for want of them. -/
def ensureDirs (d : Folder) : List FolderPath → Except FolderError Unit × Folder
  | [] => (.error .notFound, d)
  | path :: above =>
    match d.ensureDir path with
    | .ok d => (.ok (), d)
    | .error .notFound =>
      match d.ensureDirs above with
      | (.error e, d) => (.error e, d)
      | (.ok (), d) =>
        match d.ensureDir path with
        | .ok d => (.ok (), d)
        | .error e => (.error e, d)
    | .error e => (.error e, d)

/-- Creates a directory and those that it lies in.  What was done before a failure stays done. -/
def makeDirs (d : Folder) (path : FolderPath) : Except FolderError Unit × Folder :=
  d.ensureDirs (FolderPath.ancestors path)

/-- Creates the directories that a path lies in. -/
def makeParents (d : Folder) (path : FolderPath) : Except FolderError Unit × Folder :=
  match FolderPath.parent? path with
  | some parent => d.makeDirs parent
  | none => (.ok (), d)

/-- Takes away a directory that is empty.  A path that ends in `.` or `..` does not say which one. -/
def removeDir (d : Folder) (path : FolderPath) : Except FolderError Folder :=
  match (FolderPath.withoutSlashes path).reverse with
  | [] => .error .occupied
  | name :: rest => do
    let around ← d.locate (rest.reverse ++ [""])
    if name = "." ∨ name = ".." then throw .occupied
    return { d with nodes := d.nodes.erase (around ++ [name]) }

/-- Removes a directory and everything in it, and tells whether it is gone.  What it holds is removed
first; then the directory itself counts as gone if that has made its path lead nowhere. -/
def removeTree (d : Folder) (path : FolderPath) : Bool × Folder :=
  match d.node path, d.locate path with
  | .ok .directory, .ok place =>
    let emptied : Folder :=
      { d with nodes := d.nodes.filter fun p _ => p = place || !place.isPrefixOf p }
    match emptied.removeDir path with
    | .ok d => (true, d)
    | .error .notFound => (true, emptied)
    | .error _ => (false, emptied)
  | _, _ => (false, d)

/-! ### Files -/

/-- Writes a file; a file at its place is replaced. -/
def write (d : Folder) (path : FolderPath) (node : FolderNode) : Except FolderError Folder := do
  let place ← d.locate path
  match d.nodes.get? place with
  | some .directory => throw .isDirectory
  | _ => return { d with nodes := d.nodes.insert place node }

/-- What a file holds. -/
def read (d : Folder) (path : FolderPath) : Except FolderError FolderNode := do
  match ← d.node path with
  | .directory => throw .isDirectory
  | node => return node

/-- Moves a file to another path; a file there is replaced. -/
def rename (d : Folder) (source target : FolderPath) : Except FolderError Folder := do
  let node ← d.read source
  let former ← d.locate source
  let next ← d.write target node
  return if (← d.locate target) = former then d else { next with nodes := next.nodes.erase former }

/-- Removes a file. -/
def removeFile (d : Folder) (path : FolderPath) : Except FolderError Folder := do
  let _ ← d.read path
  return { d with nodes := d.nodes.erase (← d.locate path) }

/-- Removes a file if there is one. -/
def discardFile (d : Folder) (path : FolderPath) : Folder :=
  match d.removeFile path with
  | .ok d => d
  | .error _ => d

/-! ### Listings -/

/-- Whether a place is one of a file in the home, or deeper. -/
def isFile (place : Place) : FolderNode → Bool
  | .directory => false
  | _ => FolderPath.home.isPrefixOf place

/-- The places of the files in the home. -/
def files (d : Folder) : List Place :=
  d.nodes.toList.filterMap fun (place, node) => if isFile place node then some place else none

/-- Whether the last name of a place has an extension. -/
def hasExtension (ext : String) (place : Place) : Bool :=
  place.getLast?.bind FolderPath.extension? == some ext

/-- The folder without the files in the home that have an extension. -/
def withoutExtension (d : Folder) (ext : String) : Folder :=
  { d with nodes := d.nodes.filter fun place node => !(isFile place node && hasExtension ext place) }

/-- The number of the files in the home that have an extension. -/
def countExtension (d : Folder) (ext : String) : Nat := d.files.countP (hasExtension ext)

/-- The files in the home, as texts that lead on from there, ascending. -/
def listing (d : Folder) : List String :=
  (d.files.map fun place => "/".intercalate (place.drop FolderPath.home.length)).mergeSort
    fun a b => !decide (b < a)

end Folder

end RetailReport
