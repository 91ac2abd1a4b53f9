import RetailReport.Toml.Number

/-!
# Reading TOML texts

A text is a sequence of lines: headers, and statements that give a name a value.  The statements
between two headers are about the table of the first one.

## Main definitions

* `Toml.Statement`, `Toml.Block`: a name with a value, and a header with the statements after it.
* `Toml.value?`: a value.
* `Toml.parse?`: the table that a text says.
-/

namespace RetailReport.Toml

/-! ### Values -/

/-- A name with a value. -/
structure Statement where
  /-- The names that lead to the name. -/
  path : List String
  /-- The name. -/
  name : String
  /-- The value. -/
  value : Toml

/-- The members of a table with one more value. -/
def Statement.apply (members : Members) (s : Statement) : Option Members :=
  members.assign s.path s.name s.value

/-- A truth value. -/
def bool? : Reader Toml := fun cs =>
  ((word? "true" cs).map fun rest => (.bool true, rest)).or
    ((word? "false" cs).map fun rest => (.bool false, rest))

/-- A value that holds no others. -/
def scalar? : Reader Toml := fun cs =>
  match cs with
  | '"' :: _ | '\'' :: _ => (string? cs).map fun (s, rest) => (.string s, rest)
  | _ => (bool? cs).or (numeric? cs)

mutual

/-- A value, nested at most `depth` deep. -/
def value? (fuel depth : Nat) : Reader Toml := fun cs =>
  match fuel with
  | 0 => none
  | fuel + 1 =>
    match cs with
    | '[' :: rest =>
      if depth = 0 then none
      else do
        let (items, rest) ← items? fuel (depth - 1) rest
        return (.array false items, rest)
    | '{' :: rest =>
      if depth = 0 then none
      else
        match skipBlanks rest with
        | '}' :: rest => some (.table .braced [], rest)
        | rest => do
          let (members, rest) ← members? fuel (depth - 1) [] rest
          return (.table .braced members, rest)
    | cs => scalar? cs

/-- The values of a list up to its closing bracket. -/
def items? (fuel depth : Nat) : Reader (List Toml) := fun cs =>
  match fuel with
  | 0 => none
  | fuel + 1 =>
    match skipGaps cs.length cs with
    | ']' :: rest => some ([], rest)
    | cs => do
      let (t, rest) ← value? fuel depth cs
      match skipGaps rest.length rest with
      | ',' :: rest =>
        let (items, rest) ← items? fuel depth rest
        return (t :: items, rest)
      | ']' :: rest => return ([t], rest)
      | _ => none

/-- The members of a table between braces up to the closing one, behind `members`. -/
def members? (fuel depth : Nat) (members : Members) : Reader Members := fun cs =>
  match fuel with
  | 0 => none
  | fuel + 1 => do
    let (s, rest) ← statement? fuel depth cs
    let members ← s.apply members
    match skipBlanks rest with
    | ',' :: rest => members? fuel depth members rest
    | '}' :: rest => return (members, rest)
    | _ => none

/-- A name with a value. -/
def statement? (fuel depth : Nat) : Reader Statement := fun cs =>
  match fuel with
  | 0 => none
  | fuel + 1 => do
    let ((path, name), rest) ← path? cs
    match rest with
    | '=' :: rest =>
      let (value, rest) ← value? fuel depth (skipBlanks rest)
      return (⟨path, name, value⟩, rest)
    | _ => none

end

/-! ### Lines -/

/-- A header and the statements after it. -/
structure Block where
  /-- Whether the header adds a table to a list. -/
  toList : Bool
  /-- The names that lead to the table or list. -/
  path : List String
  /-- The name of the table or list. -/
  name : String
  /-- The statements after the header. -/
  statements : List Statement

/-- The members of the whole text with what a block says. -/
def Block.apply (members : Members) (b : Block) : Option Members :=
  members.enter b.toList b.path b.name fun inner => b.statements.foldlM Statement.apply inner

/-- The text after a number of closing brackets. -/
def closing? (n : Nat) (cs : List Char) : Option (List Char) :=
  if (List.replicate n ']').isPrefixOf cs then some (cs.drop n) else none

/-- A header, without statements. -/
def header? : Reader Block
  | '[' :: '[' :: rest => do
    let ((path, name), rest) ← path? rest
    let rest ← closing? 2 rest
    return (⟨true, path, name, []⟩, rest)
  | '[' :: rest => do
    let ((path, name), rest) ← path? rest
    let rest ← closing? 1 rest
    return (⟨false, path, name, []⟩, rest)
  | _ => none

/-- The statements before the first header, and the blocks after them. -/
def lines? : (fuel : Nat) → List Char → Option (List Statement × List Block)
  | 0, _ => none
  | fuel + 1, cs =>
    match skipGaps cs.length cs with
    | [] => some ([], [])
    | '#' :: rest => if (lineEnd? ('#' :: rest)) = some [] then some ([], []) else none
    | '[' :: rest => do
      let (block, rest) ← header? ('[' :: rest)
      let rest ← lineEnd? rest
      let (statements, blocks) ← lines? fuel rest
      return ([], { block with statements } :: blocks)
    | cs => do
      let (s, rest) ← statement? (2 * cs.length + 2) maxDepth cs
      let rest ← lineEnd? rest
      let (statements, blocks) ← lines? fuel rest
      return (s :: statements, blocks)

/-- The text without a byte order mark. -/
def withoutMark : List Char → List Char
  | '\uFEFF' :: rest => rest
  | cs => cs

/-- **The table that a text says.** -/
def parse? (text : String) : Option Toml := do
  let cs := withoutMark text.toList
  let (statements, blocks) ← lines? (cs.length + 1) cs
  let members ← statements.foldlM Statement.apply ([] : Members)
  let members ← blocks.foldlM Block.apply members
  return .table .stated members

end RetailReport.Toml
