/-!
# Paths

A path is the way to a place in a tree of directories, name by name from the root of the tree.  It is
kept as it is written: empty names, which come from doubled slashes or one at the end, and the names
`.` and `..` count only when the path is followed.  The store of the partitions lives in a directory
of its own, the home; a text that does not begin with a slash leads on from there.

## Main definitions

* `FolderPath`, `FolderPath.ofText`, `FolderPath.size`.
* `FolderPath.parent?`, `FolderPath.ancestors`: the directories that a path lies in.
* `FolderPath.withExtension`, `FolderPath.extended`: other paths beside it.
* `FolderPath.tidied`: how messages show a path from the home.
-/

namespace RetailReport

/-- The names that lead to a place, the first one from the root of the tree. -/
abbrev FolderPath := List String

namespace FolderPath

/-- The name of the home, which is ten bytes long.  Since it has a slash in it, no text names it. -/
def homeName : String := "the/folder"

/-- The path of the home. -/
def home : FolderPath := ["tmp", homeName]

/-- Whether a text leads on from the root, not from the home. -/
def isAbsolute (text : String) : Bool := text.toList.head? = some '/'

/-- The names in a text, which slashes keep apart. -/
def names (text : String) : List String := (text.toList.splitOn '/').map String.ofList

/-- The path that a text stands for. -/
def ofText (text : String) : FolderPath :=
  if isAbsolute text then (names text).drop 1 else home ++ names text

/-- The number of bytes that the path takes when it is written from the root. -/
def size (path : FolderPath) : Nat := path.foldl (fun n name => n + 1 + name.utf8ByteSize) 0

/-- Whether a name leads nowhere. -/
def isBlank (name : String) : Bool := name = "" || name = "."

/-- The path without empty names at its end. -/
def withoutSlashes (path : FolderPath) : FolderPath := (path.reverse.dropWhile (· = "")).reverse

/-- The path without names at its end that lead nowhere. -/
def trimmed (path : FolderPath) : FolderPath := (path.reverse.dropWhile isBlank).reverse

/-! ### Directories around a path -/

/-- The paths, nearest first, that remain when names are taken from the end of a path one by one,
given its names from the last to the first. -/
def above : List String → List FolderPath
  | [] => []
  | name :: rest => if isBlank name then above rest else trimmed rest.reverse :: above rest

/-- The path of the directory that a path lies in, as it is written. -/
def parent? (path : FolderPath) : Option FolderPath := (above path.reverse).head?

/-- A path and those of the directories that it lies in, nearest first. -/
def ancestors (path : FolderPath) : List FolderPath := path :: above path.reverse

/-! ### Names with extensions -/

/-- A name without the part from its last point on, and that part without the point.  A point at the
start does not count. -/
def splitName (name : String) : String × Option String :=
  let after := (name.toList.reverse.takeWhile (· ≠ '.')).reverse
  let before := name.toList.take (name.length - after.length - 1)
  if after.length < name.length ∧ before ≠ [] then
    (String.ofList before, some (String.ofList after))
  else (name, none)

/-- What follows the last point of a name. -/
def extension? (name : String) : Option String := (splitName name).2

/-- The last name of a path that leads somewhere, unless it leads back. -/
def fileName? (path : FolderPath) : Option String :=
  match (trimmed path).getLast? with
  | some name => if name = ".." then none else some name
  | none => none

/-- The path without a number of characters at its end, given its names from the last to the first;
each slash counts as one. -/
def dropChars : Nat → List String → List String
  | _, [] => []
  | n, name :: rest =>
    if n ≤ name.length then String.ofList (name.toList.take (name.length - n)) :: rest
    else dropChars (n - name.length - 1) rest

/-- The path with an extension in the place of all that follows the stem of its last name. -/
def replaceExtension (path : FolderPath) (ext : String) : FolderPath :=
  match fileName? path with
  | some name => (trimmed path).dropLast ++ [(splitName name).1 ++ "." ++ ext]
  | none => path

/-- The path with another extension.  As many characters as the former one has are taken from the end
of the path as it is written, even if something follows its last name; then the new one takes the
place of what is left.  So a name of two points and an extension only loses the extension. -/
def withExtension (path : FolderPath) (ext : String) : FolderPath :=
  match (fileName? path).bind extension? with
  | some former => replaceExtension (dropChars former.length path.reverse).reverse ext
  | none => replaceExtension path ext

/-- The path with a text added to its last name. -/
def extended (path : FolderPath) (more : String) : FolderPath :=
  match path.getLast? with
  | some name => path.dropLast ++ [name ++ more]
  | none => path

/-! ### Texts -/

/-- A text without the names at its start and its end that lead nowhere; nothing is shown of a text
that does not lead on from the home. -/
def tidied (text : String) : String :=
  if isAbsolute text then "" else "/".intercalate (trimmed ((names text).dropWhile isBlank))

end FolderPath

end RetailReport
