import RetailReport.Json.Basic

/-!
# Writing JSON texts

Values are written either without blanks, or with each item of a list and each member of an object on
a line of its own, two blanks deeper than the bracket that it stands in.  Empty brackets are never
broken up.

A string escapes the quote, the backslash and the control characters below U+0020, and nothing else.
A float is written with the fewest digits that read back; infinities and undefined numbers are
written as `null`.

## Main definitions

* `Json.quote`: a string as JSON.
* `Json.Layout`, `Json.write`: the characters of a value in a layout.
* `Json.render`, `Json.pretty`: a value as JSON, without blanks and line by line.
-/

namespace RetailReport.Json

open Digits

/-- A character inside of a string. -/
def escape (c : Char) : List Char :=
  if c = '"' then ['\\', '"']
  else if c = '\\' then ['\\', '\\']
  else if c = '\n' then ['\\', 'n']
  else if c = '\r' then ['\\', 'r']
  else if c = '\t' then ['\\', 't']
  else if c = '\x08' then ['\\', 'b']
  else if c = '\x0c' then ['\\', 'f']
  else if c.toNat < 0x20 then '\\' :: 'u' :: hex 4 c.toNat
  else [c]

/-- The characters of a string as JSON. -/
def quoteChars (s : String) : List Char := '"' :: s.toList.flatMap escape ++ ['"']

/-- A string as JSON. -/
def quote (s : String) : String := String.ofList (quoteChars s)

/-- A float as JSON. -/
def renderFloat (x : Binary64) : String := if x.isFinite then x.shortest else "null"

/-- How values are laid out. -/
inductive Layout where
  /-- Without blanks. -/
  | dense
  /-- On lines, which are indented. -/
  | indented
deriving DecidableEq, Repr

namespace Layout

/-- What stands in front of an item, a member or a closing bracket that is `level` deep. -/
def lineBreak : Layout → (level : Nat) → List Char
  | .dense, _ => []
  | .indented, level => '\n' :: List.replicate (2 * level) ' '

/-- What stands between the name of a member and its value. -/
def colon : Layout → List Char
  | .dense => [':']
  | .indented => [':', ' ']

/-- What stands in front of an item or member that is `level` deep; `first` says that none came
before. -/
def separator (layout : Layout) (level : Nat) (first : Bool) : List Char :=
  (if first then [] else [',']) ++ layout.lineBreak level

/-- What stands in front of a bracket that is `level` deep; `first` says that nothing came between it
and the opening one. -/
def ending (layout : Layout) (level : Nat) (first : Bool) : List Char :=
  if first then [] else layout.lineBreak level

end Layout

mutual

/-- The characters of a value whose brackets are `level` deep. -/
def write (layout : Layout) (level : Nat) : Json → List Char
  | .null | .unreadable | .unnamed _ | .broken => "null".toList
  | .bool true => "true".toList
  | .bool false => "false".toList
  | .int i => signed i
  | .float x => (renderFloat x).toList
  | .string s => quoteChars s
  | .array items => '[' :: writeItems layout level true items
  | .object members => '{' :: writeMembers layout level true members

/-- The characters of the items of a list with its closing bracket; `first` says that no item came
before. -/
def writeItems (layout : Layout) (level : Nat) (first : Bool) : List Json → List Char
  | [] => layout.ending level first ++ [']']
  | j :: rest =>
    layout.separator (level + 1) first ++ write layout (level + 1) j ++
      writeItems layout level false rest

/-- The characters of the members of an object with its closing brace; `first` says that no member
came before. -/
def writeMembers (layout : Layout) (level : Nat) (first : Bool) :
    List (String × Json) → List Char
  | [] => layout.ending level first ++ ['}']
  | (name, j) :: rest =>
    layout.separator (level + 1) first ++ quoteChars name ++ layout.colon ++
      write layout (level + 1) j ++ writeMembers layout level false rest

end

/-- A value as JSON, without blanks. -/
def render (j : Json) : String := String.ofList (write .dense 0 j)

/-- A value as JSON, line by line. -/
def pretty (j : Json) : String := String.ofList (write .indented 0 j)

end RetailReport.Json
