import RetailReport.Json.Basic

/-!
# TOML values

A TOML text says a table.  Its statements put values into it, name by name: `a.b = 1` puts a value
into the table `a`, a header `[a.b]` says which table the statements after it are about, and a header
`[[a.b]]` begins a new table in a list of tables.  A table can be named by several statements, but
not be given twice, so each table remembers how it came about.

## Main definitions

* `Toml`, `TableOrigin`.
* `Toml.Members.within`: changes the members of a table that a path leads to.
* `Toml.Members.assign`, `Toml.Members.enter`: what statements and headers do.
* `Toml.toJson`: the same value as JSON.
-/

namespace RetailReport

/-- How a table has come about. -/
inductive TableOrigin where
  /-- A header is about it, or it is the whole text. -/
  | stated
  /-- A header of a table inside of it leads through it. -/
  | implied
  /-- A dotted name leads through it. -/
  | dotted
  /-- It stands between braces. -/
  | braced
deriving DecidableEq, Repr

/-- What a TOML text says. -/
inductive Toml where
  /-- A string. -/
  | string (value : String)
  /-- A number without fraction and exponent. -/
  | int (value : Int)
  /-- Any other number. -/
  | float (value : Float)
  /-- A truth value. -/
  | bool (value : Bool)
  /-- A date, a time of day, or both. -/
  | moment (text : String)
  /-- A list; `growing` says that headers add tables to it. -/
  | array (growing : Bool) (items : List Toml)
  /-- Named values. -/
  | table (origin : TableOrigin) (members : List (String × Toml))
deriving Inhabited

namespace Toml

/-- Named values, in the order of the text. -/
abbrev Members := List (String × Toml)

namespace Members

/-- Replaces the value of a name. -/
def put (name : String) (t : Toml) (members : Members) : Members :=
  members.map fun (n, u) => if n = name then (n, t) else (n, u)

/-- Changes the members of the table that a path leads to; `byName` says whether the path is that of
a dotted name or that of a header.  Tables on the way that do not exist are created.  A dotted name
does not lead into a table that a header is about, and no path leads into a finished value. -/
def within (byName : Bool) (change : TableOrigin → Members → Option Members) :
    List String → TableOrigin → Members → Option Members
  | [], origin, members => change origin members
  | name :: path, _, members =>
    match members.lookup name with
    | none => do
      let origin : TableOrigin := if byName then .dotted else .implied
      let inner ← within byName change path origin []
      return members ++ [(name, .table origin inner)]
    | some (.table origin inner) =>
      if origin = .braced ∨ (byName ∧ origin = .stated) then none
      else do
        let inner ← within byName change path origin inner
        return put name (.table origin inner) members
    | some (.array true items) =>
      match items.getLast? with
      | some (.table origin inner) => do
        let inner ← within byName change path origin inner
        return put name (.array true (items.dropLast ++ [.table origin inner])) members
      | _ => none
    | some _ => none

/-- Puts a value into a table: names that lead to it, and its own name, which must be new.  A table
that such names lead to must owe its existence to such names. -/
def assign (path : List String) (name : String) (t : Toml) (members : Members) : Option Members :=
  within true
    (fun origin members =>
      if decide (origin = .dotted) == path.isEmpty then none
      else if (members.lookup name).isSome then none
      else some (members ++ [(name, t)]))
    path .stated members

/-- Fills the table that a header is about, in the members of the table around it.  A table can be
given once; before that, headers may only have led through it. -/
def enterTable (name : String) (fill : Members → Option Members) (members : Members) :
    Option Members :=
  match members.lookup name with
  | none => do
    let inner ← fill []
    return members ++ [(name, .table .stated inner)]
  | some (.table .implied inner) => do
    let inner ← fill inner
    return put name (.table .stated inner) members
  | some _ => none

/-- Adds a table to the list that a header is about, in the members of the table around it. -/
def enterList (name : String) (fill : Members → Option Members) (members : Members) :
    Option Members :=
  match members.lookup name with
  | none => do
    let inner ← fill []
    return members ++ [(name, .array true [.table .stated inner])]
  | some (.array true items) => do
    let inner ← fill []
    return put name (.array true (items ++ [.table .stated inner])) members
  | some _ => none

/-- What a header and the statements after it do to the whole text; `toList` says which kind of
header it is. -/
def enter (toList : Bool) (path : List String) (name : String) (fill : Members → Option Members)
    (members : Members) : Option Members :=
  within false
    (fun _ members => if toList then enterList name fill members else enterTable name fill members)
    path .stated members

end Members

mutual

/-- The same value as JSON; a moment is an object with its text. -/
def toJson : Toml → Json
  | .string s => .string s
  | .int i => .int i
  | .float x => .float x
  | .bool b => .bool b
  | .moment text => .object [("moment", .string text)]
  | .array _ items => .array (itemsToJson items)
  | .table _ members => .object (membersToJson members)

/-- The values of a list as JSON. -/
def itemsToJson : List Toml → List Json
  | [] => []
  | t :: rest => toJson t :: itemsToJson rest

/-- The members of a table as JSON. -/
def membersToJson : List (String × Toml) → List (String × Json)
  | [] => []
  | (name, t) :: rest => (name, toJson t) :: membersToJson rest

end

end Toml

end RetailReport
