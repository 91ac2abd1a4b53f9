import RetailReport.Json.Number

/-!
# Reading JSON texts

A text is read into the value it denotes up to its first fault.  Values may be nested 127 deep; what
is nested deeper denotes nothing.

## Main definitions

* `Json.Document`: a value and whether anything but blanks follows it.
* `Json.read`: reads a text.
-/

namespace RetailReport.Json

open Digits

/-- A value and, unless the text broke off inside of it, the text that follows. -/
abbrev Reading (α : Type) := α × Option (List Char)

/-- Whether a character is a blank between the parts of a text. -/
def isSpace (c : Char) : Bool := c == ' ' || c == '\n' || c == '\t' || c == '\r'

/-- The text after blanks. -/
def skipSpace (cs : List Char) : List Char := cs.dropWhile isSpace

/-! ### Strings -/

/-- Four hexadecimal digits. -/
def hexQuad? : List Char → Option (Nat × List Char)
  | a :: b :: c :: d :: rest => do
    let a ← hexValue? a
    let b ← hexValue? b
    let c ← hexValue? c
    let d ← hexValue? d
    return (((a * 16 + b) * 16 + c) * 16 + d, rest)
  | _ => none

/-- The character of an escape other than `\u`. -/
def escaped? : Char → Option Char
  | '"' => some '"'
  | '\\' => some '\\'
  | '/' => some '/'
  | 'b' => some '\x08'
  | 'f' => some '\x0c'
  | 'n' => some '\n'
  | 'r' => some '\r'
  | 't' => some '\t'
  | _ => none

/-- The characters of a string after its opening quote, in reverse order behind `acc`.  `none` for
the characters says that there is half of a surrogate pair; no text says that the string breaks. -/
def stringBody : (fuel : Nat) → (acc : Option (List Char)) → List Char →
    Reading (Option (List Char))
  | 0, acc, _ => (acc, none)
  | _ + 1, acc, [] => (acc, none)
  | fuel + 1, acc, c :: rest =>
    if c = '"' then (acc, some rest)
    else if c = '\\' then
      match rest with
      | 'u' :: rest =>
        match hexQuad? rest with
        | none => (acc, none)
        | some (n, rest) =>
          if 0xD800 ≤ n ∧ n < 0xDC00 then
            match rest with
            | '\\' :: 'u' :: rest' =>
              match hexQuad? rest' with
              | none => (acc, none)
              | some (m, rest') =>
                if 0xDC00 ≤ m ∧ m < 0xE000 then
                  let c := Char.ofNat (0x10000 + (n - 0xD800) * 0x400 + (m - 0xDC00))
                  stringBody fuel (acc.map (c :: ·)) rest'
                else stringBody fuel none rest'
            | _ => stringBody fuel none rest
          else if 0xDC00 ≤ n ∧ n < 0xE000 then stringBody fuel none rest
          else stringBody fuel (acc.map (Char.ofNat n :: ·)) rest
      | e :: rest =>
        match escaped? e with
        | some c => stringBody fuel (acc.map (c :: ·)) rest
        | none => (acc, none)
      | [] => (acc, none)
    else if c.toNat < 0x20 then (acc, none)
    else stringBody fuel (acc.map (c :: ·)) rest

/-- A string after its opening quote; no value if it denotes nothing. -/
def string? (fuel : Nat) (cs : List Char) : Option (Option String × List Char) :=
  match stringBody fuel (some []) cs with
  | (chars, some rest) => some (chars.map fun cs => String.ofList cs.reverse, rest)
  | (_, none) => none

/-! ### Numbers -/

/-- The digits at the start of a text, and the rest. -/
def digits (cs : List Char) : List Char × List Char := (cs.takeWhile isDigit, cs.dropWhile isDigit)

/-- The fraction of a number, if there is one; it needs a digit. -/
def fraction? (cs : List Char) : Option (Option (List Char) × List Char) :=
  match cs with
  | '.' :: rest =>
    let (ds, rest) := digits rest
    if ds.isEmpty then none else some (some ds, rest)
  | _ => some (none, cs)

/-- The digits of an exponent whose sign is known; it needs a digit. -/
def exponentDigits? (negative : Bool) (cs : List Char) :
    Option (Option (Bool × List Char) × List Char) :=
  let (ds, rest) := digits cs
  if ds.isEmpty then none else some (some (negative, ds), rest)

/-- The exponent of a number, if there is one. -/
def exponent? (cs : List Char) : Option (Option (Bool × List Char) × List Char) :=
  match cs with
  | c :: rest =>
    if c = 'e' ∨ c = 'E' then
      match rest with
      | '-' :: rest => exponentDigits? true rest
      | '+' :: rest => exponentDigits? false rest
      | _ => exponentDigits? false rest
    else some (none, cs)
  | [] => some (none, [])

/-- Whether there is a minus sign, and the text after it. -/
def minus : List Char → Bool × List Char
  | '-' :: rest => (true, rest)
  | cs => (false, cs)

/-- A number: no digit may follow a leading zero. -/
def number? (cs : List Char) : Option (Spelling × List Char) := do
  let (negative, cs) := minus cs
  let (whole, cs) := digits cs
  if whole.isEmpty ∨ (whole.head? = some '0' ∧ 1 < whole.length) then none
  let (fraction, cs) ← fraction? cs
  let (exponent, cs) ← exponent? cs
  return (⟨negative, whole, fraction, exponent⟩, cs)

/-! ### Values -/

/-- A word that has to stand at the start of a text. -/
def word? (word : String) (j : Json) (cs : List Char) : Reading Json :=
  if word.toList.isPrefixOf cs then (j, some (cs.drop word.length)) else (.broken, none)

/-- A list or an object with the text that follows, `depth` being how deep it may be nested. -/
def nested (depth : Nat) (j : Json) (rest : Option (List Char)) : Reading Json :=
  if depth = 0 ∧ rest.isSome then (.unreadable, rest) else (j, rest)

/-- A member of an object; a name that denotes nothing is left out. -/
def member (name : Option String) (j : Json) : String × Json :=
  match name with
  | some name => (name, j)
  | none => ("", .unnamed j)

mutual

/-- A value at the start of a text, which denotes nothing where it is nested more than `depth`
deep. -/
def readValue (fuel depth : Nat) (cs : List Char) : Reading Json :=
  match fuel with
  | 0 => (.broken, none)
  | fuel + 1 =>
    match skipSpace cs with
    | [] => (.broken, none)
    | c :: rest =>
      if c = '{' then
        let (members, rest) := readMembers fuel (depth - 1) true rest
        nested depth (.object members) rest
      else if c = '[' then
        let (items, rest) := readItems fuel (depth - 1) true rest
        nested depth (.array items) rest
      else if c = '"' then
        match string? fuel rest with
        | some (some s, rest) => (.string s, some rest)
        | some (none, rest) => (.unreadable, some rest)
        | none => (.broken, none)
      else if c = 't' then word? "true" (.bool true) (c :: rest)
      else if c = 'f' then word? "false" (.bool false) (c :: rest)
      else if c = 'n' then word? "null" .null (c :: rest)
      else
        match number? (c :: rest) with
        | some (n, rest) => (ofSpelling n, some rest)
        | none => (.broken, none)

/-- The values of a list up to its closing bracket; `first` says that none came before. -/
def readItems (fuel depth : Nat) (first : Bool) (cs : List Char) : Reading (List Json) :=
  match fuel with
  | 0 => ([.broken], none)
  | fuel + 1 =>
    match skipSpace cs with
    | ']' :: rest => ([], some rest)
    | cs =>
      match (if first then some cs else match cs with
        | ',' :: rest => some rest
        | _ => none) with
      | none => ([.broken], none)
      | some cs =>
        match readValue fuel depth cs with
        | (j, none) => ([j], none)
        | (j, some rest) =>
          let (items, rest) := readItems fuel depth false rest
          (j :: items, rest)

/-- The members of an object up to its closing brace; `first` says that none came before. -/
def readMembers (fuel depth : Nat) (first : Bool) (cs : List Char) :
    Reading (List (String × Json)) :=
  match fuel with
  | 0 => ([("", .broken)], none)
  | fuel + 1 =>
    match skipSpace cs with
    | '}' :: rest => ([], some rest)
    | cs =>
      match (if first then some cs else match cs with
        | ',' :: rest => some (skipSpace rest)
        | _ => none) with
      | some ('"' :: rest) =>
        match string? fuel rest with
        | some (name, rest) =>
          match skipSpace rest with
          | ':' :: rest =>
            match readValue fuel depth rest with
            | (j, none) => ([member name j], none)
            | (j, some rest) =>
              let (members, rest) := readMembers fuel depth false rest
              (member name j :: members, rest)
          | _ => ([member name .broken], none)
        | none => ([("", .broken)], none)
      | _ => ([("", .broken)], none)

end

/-- What a text says, and whether it ends there. -/
structure Document where
  /-- The value at the start of the text. -/
  value : Json
  /-- Whether only blanks follow. -/
  complete : Bool

/-- How deep values may be nested. -/
def maxDepth : Nat := 127

/-- Reads a text. -/
def read (text : String) : Document :=
  let cs := text.toList
  match readValue (2 * cs.length + 4) maxDepth cs with
  | (j, some rest) => ⟨j, (skipSpace rest).isEmpty⟩
  | (j, none) => ⟨j, false⟩

/-- The value of a text that is JSON throughout, each object settled. -/
def parse? (text : String) : Option Json :=
  let doc := read text
  if doc.complete && doc.value.isSound then some doc.value.settled else none

end RetailReport.Json
