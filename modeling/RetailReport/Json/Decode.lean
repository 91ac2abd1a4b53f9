import RetailReport.Json.Reader
import RetailReport.Amount.Text

/-!
# From JSON values to the library's types

A decoder takes a value apart in the order of its text, so of several faults the first one counts.
Only faults of amounts have a wording of their own.

A record is read from an object, or from a list of its fields in order.  It ignores members that it
does not know and refuses one that is given twice; which fields may be missing is up to the record.

Values of another format can be decoded in the same way.  A `Dialect` says which format it is, since
formats differ in two points.

## Main definitions

* `Refusal`: why a value is refused.
* `Json.text`, `Json.natural`, `Json.list`, … : decoders for plain values.
* `Json.Dialect`: the formats.
* `Json.Shape`, `Json.Shape.readIn`: decoders for records.
* `Json.choiceIn`: decoders for enumerations.
-/

namespace RetailReport

-- Powers are those of the core library.
attribute [local instance (high)] instPowNat

/-- Why a JSON value is refused. -/
inductive Refusal where
  /-- It is not of the form that is asked for. -/
  | form
  /-- It is a string that is not an amount. -/
  | amount (error : AmountError)
  /-- It is a whole number of units beyond every amount. -/
  | amountRange
deriving DecidableEq, Repr

/-- The wording of a refusal, if it has one. -/
def Refusal.message? : Refusal → Option String
  | .form => none
  | .amount e => some e.message
  | .amountRange => some "amount out of range"

namespace Json

/-- What decodes a value. -/
abbrev Decoder (α : Type) := Json → Except Refusal α

/-! ### Plain values -/

/-- A string. -/
def text : Decoder String
  | .string s => .ok s
  | _ => .error .form

/-- A truth value. -/
def flag : Decoder Bool
  | .bool b => .ok b
  | _ => .error .form

/-- A natural number up to a bound. -/
def natural (bound : Nat) : Decoder Nat
  | .int i => if 0 ≤ i ∧ i ≤ bound then .ok i.toNat else .error .form
  | _ => .error .form

/-- A natural number of 64 bits. -/
def word64 : Decoder Nat := natural (2 ^ (64 : Nat) - 1)

/-- A natural number of 32 bits. -/
def word32 : Decoder Nat := natural (2 ^ (32 : Nat) - 1)

/-- A natural number of 16 bits. -/
def word16 : Decoder Nat := natural (2 ^ (16 : Nat) - 1)

/-- A signed number of 64 bits. -/
def signed64 : Decoder Int
  | .int i => if i ≤ 9223372036854775807 then .ok i else .error .form
  | _ => .error .form

/-- A float, or an integer as the float nearest to it. -/
def number : Decoder Float
  | .float x => .ok x.toFloat
  | .int i =>
    .ok (if i < 0 then -(UInt64.ofNat i.natAbs).toFloat else (UInt64.ofNat i.natAbs).toFloat)
  | _ => .error .form

/-- An amount: its written form, or a whole number of units. -/
def amount : Decoder Amount
  | .string s =>
    match Amount.parse s with
    | .ok a => .ok a
    | .error e => .error (.amount e)
  | .int i =>
    match Amount.ofRaw? (i * 10000) with
    | some a => .ok a
    | none => .error .amountRange
  | _ => .error .form

/-- A value, or `null` for none. -/
def optional (d : Decoder α) : Decoder (Option α)
  | .null => .ok none
  | j => (d j).map some

/-- The values of a list in order. -/
def list (d : Decoder α) : Decoder (List α)
  | .array items => items.mapM d
  | _ => .error .form

/-- The strings of a list as a set. -/
def textSet (j : Json) : Except Refusal (KeySet String) := (list text j).map KeySet.ofList

/-- The members of an object by name; the last of repeated members counts. -/
def table (d : Decoder α) : Decoder (SortedMap String α)
  | .object members =>
    members.foldlM (fun m (name, j) => (d j).map (m.insert name)) .empty
  | _ => .error .form

/-! ### Formats -/

/-- The formats that values are given in. -/
inductive Dialect where
  /-- After a name, `null` stands for nothing; a record given as a list has no surplus values. -/
  | json
  /-- After a name, an empty table or list stands for nothing; surplus values are ignored. -/
  | toml
deriving DecidableEq, Repr

namespace Dialect

/-- Whether a value stands for nothing. -/
def isNothing : Dialect → Json → Bool
  | .json, .null => true
  | .toml, .object [] | .toml, .array [] => true
  | _, _ => false

/-- Whether a record that is given as a list may have more values than fields. -/
def allowsSurplus : Dialect → Bool
  | .json => false
  | .toml => true

end Dialect

/-- One of several names, as a string, or as an object with that name and nothing. -/
def choiceIn (dialect : Dialect) (choices : List (String × α)) : Decoder α
  | .string s =>
    match choices.lookup s with
    | some a => .ok a
    | none => .error .form
  | .object [(s, j)] =>
    match choices.lookup s with
    | some a => if dialect.isNothing j then .ok a else .error .form
    | none => .error .form
  | _ => .error .form

/-- One of several names in JSON. -/
def choice (choices : List (String × α)) : Decoder α := choiceIn .json choices

/-! ### Records -/

/-- The fields of a record in order, each with what its value changes in a draft of the record. -/
abbrev Shape (σ : Type) := List (String × (Json → σ → Except Refusal σ))

namespace Shape

/-- A field of a record, decoded and put into the draft. -/
def field (name : String) (d : Decoder α) (put : α → σ → σ) :
    String × (Json → σ → Except Refusal σ) :=
  (name, fun j s => (d j).map fun a => put a s)

/-- The draft after the members of an object; `seen` are the names met before. -/
def readMembers (shape : Shape σ) (seen : List String) (s : σ) :
    List (String × Json) → Except Refusal σ
  | [] => .ok s
  | (_, .unnamed _) :: _ => .error .form
  | (name, j) :: rest =>
    match shape.lookup name with
    | some step =>
      if seen.contains name then .error .form
      else do
        let s ← step j s
        readMembers shape (name :: seen) s rest
    | none => if j.isWhole then readMembers shape seen s rest else .error .form

/-- The draft after the values of a list, one for each field in order; those that are missing at
the end are left as they are. -/
def readItems (dialect : Dialect) (s : σ) : Shape σ → List Json → Except Refusal σ
  | _, [] => .ok s
  | [], _ :: _ => if dialect.allowsSurplus then .ok s else .error .form
  | (_, step) :: shape, j :: rest => do
    let s ← step j s
    readItems dialect s shape rest

/-- Reads the fields of a record into a draft. -/
def readIn (dialect : Dialect) (shape : Shape σ) (draft : σ) : Decoder σ
  | .object members => readMembers shape [] draft members
  | .array items => readItems dialect draft shape items
  | _ => .error .form

/-- Reads the fields of a record in JSON into a draft. -/
def read (shape : Shape σ) (draft : σ) : Decoder σ := readIn .json shape draft

end Shape

/-- A field that may not be missing. -/
def need (value : Option α) : Except Refusal α :=
  match value with
  | some a => .ok a
  | none => .error .form

/-! ### Texts -/

/-- Decodes a text: a fault inside of the value counts before anything that follows it. -/
def decodeText (d : Decoder α) (source : String) : Except Refusal α :=
  let doc := read source
  match d doc.value with
  | .ok a => if doc.complete then .ok a else .error .form
  | .error e => .error e

end Json

end RetailReport
