import RetailReport.Text.Digits

/-!
# Blanks, names and strings in TOML

A reader takes something off the start of a text and gives what it has read and the rest, or nothing
if the text does not start with it.

## Main definitions

* `Toml.skipBlanks`, `Toml.newline?`, `Toml.skipComment`, `Toml.lineEnd?`, `Toml.skipGaps`.
* `Toml.string?`: a string in one of its four forms.
* `Toml.path?`: a name, or several with points between them.
-/

namespace RetailReport.Toml

open Digits

/-- What takes something off the start of a text. -/
abbrev Reader (α : Type) := List Char → Option (α × List Char)

/-! ### Blanks -/

/-- Whether a character is a blank within a line. -/
def isBlank (c : Char) : Bool := c == ' ' || c == '\t'

/-- The text after blanks. -/
def skipBlanks (cs : List Char) : List Char := cs.dropWhile isBlank

/-- The text after the end of a line. -/
def newline? : List Char → Option (List Char)
  | '\n' :: rest => some rest
  | '\r' :: '\n' :: rest => some rest
  | _ => none

/-- Whether a character may stand in a comment, or in a string between apostrophes or quotes, apart
from these marks themselves. -/
def isPlain (c : Char) : Bool := c == '\t' || (0x20 ≤ c.toNat && c.toNat ≠ 0x7F)

/-- The text after a comment, if there is one. -/
def skipComment (cs : List Char) : List Char :=
  match cs with
  | '#' :: rest => rest.dropWhile isPlain
  | _ => cs

/-- The text after the end of a line, which may be the end of the text; blanks and a comment may
stand before it. -/
def lineEnd? (cs : List Char) : Option (List Char) :=
  let cs := skipComment (skipBlanks cs)
  if cs.isEmpty then some [] else newline? cs

/-- The text after blanks, comments and line ends. -/
def skipGaps : (fuel : Nat) → List Char → List Char
  | 0, cs => cs
  | fuel + 1, cs =>
    match newline? (skipComment (skipBlanks cs)) with
    | some rest => skipGaps fuel rest
    | none => skipBlanks cs

/-! ### Strings -/

/-- The number of hexadecimal digits. -/
def hexNumber? (digits : List Char) : Option Nat :=
  digits.foldlM (fun n c => (hexValue? c).map (16 * n + ·)) 0

/-- The character with the code that the first `width` characters of a text spell. -/
def codePoint? (width : Nat) : Reader Char := fun cs => do
  let digits := cs.take width
  if digits.length ≠ width then none
  let n ← hexNumber? digits
  if n.isValidChar then return (Char.ofNat n, cs.drop width) else none

/-- The character of an escape, after its backslash. -/
def escape? : Reader Char
  | 'b' :: rest => some ('\x08', rest)
  | 't' :: rest => some ('\t', rest)
  | 'n' :: rest => some ('\n', rest)
  | 'f' :: rest => some ('\x0c', rest)
  | 'r' :: rest => some ('\r', rest)
  | '"' :: rest => some ('"', rest)
  | '\\' :: rest => some ('\\', rest)
  | 'u' :: rest => codePoint? 4 rest
  | 'U' :: rest => codePoint? 8 rest
  | _ => none

/-- The text after blanks and line ends. -/
def skipLines : List Char → List Char
  | '\r' :: '\n' :: rest => skipLines rest
  | c :: rest => if isBlank c || c == '\n' then skipLines rest else c :: rest
  | [] => []

/-- The text after a line end and all blanks and line ends that follow, if only blanks stand before
the line end. -/
def foldedLine? (cs : List Char) : Option (List Char) := (newline? (skipBlanks cs)).map skipLines

/-- How many marks a text starts with, and the rest. -/
def run (mark : Char) (cs : List Char) : Nat × List Char :=
  ((cs.takeWhile (· == mark)).length, cs.dropWhile (· == mark))

/-- The characters of a string within a line, up to its closing mark, in reverse order behind `acc`;
`escapes` says whether a backslash begins an escape. -/
def lineBody (mark : Char) (escapes : Bool) : (fuel : Nat) → (acc : List Char) → Reader (List Char)
  | 0, _, _ => none
  | _ + 1, _, [] => none
  | fuel + 1, acc, c :: rest =>
    if c = mark then some (acc, rest)
    else if escapes ∧ c = '\\' then do
      let (c, rest) ← escape? rest
      lineBody mark escapes fuel (c :: acc) rest
    else if isPlain c then lineBody mark escapes fuel (c :: acc) rest
    else none

/-- The characters of a string over several lines, up to its closing marks, in reverse order behind
`acc`.  Up to two marks may stand inside, and up to two before the closing ones. -/
def blockBody (mark : Char) (escapes : Bool) : (fuel : Nat) → (acc : List Char) →
    Reader (List Char)
  | 0, _, _ => none
  | _ + 1, _, [] => none
  | fuel + 1, acc, c :: rest =>
    if c = mark then
      let (n, rest) := run mark (c :: rest)
      if n < 3 then blockBody mark escapes fuel (List.replicate n mark ++ acc) rest
      else if n < 6 then some (List.replicate (n - 3) mark ++ acc, rest)
      else none
    else if escapes ∧ c = '\\' then
      match foldedLine? rest with
      | some rest => blockBody mark escapes fuel acc rest
      | none => do
        let (c, rest) ← escape? rest
        blockBody mark escapes fuel (c :: acc) rest
    else
      match newline? (c :: rest) with
      | some rest => blockBody mark escapes fuel ('\n' :: acc) rest
      | none => if isPlain c then blockBody mark escapes fuel (c :: acc) rest else none

/-- The text after a line end, if it starts with one. -/
def dropNewline (cs : List Char) : List Char := (newline? cs).getD cs

/-- The string of characters in reverse order. -/
def ofReversed (acc : List Char) : String := String.ofList acc.reverse

/-- A string within a line, between quotes or apostrophes. -/
def lineString? : Reader String
  | '"' :: rest => (lineBody '"' true (rest.length + 1) [] rest).map fun (s, rest) => (ofReversed s, rest)
  | '\'' :: rest =>
    (lineBody '\'' false (rest.length + 1) [] rest).map fun (s, rest) => (ofReversed s, rest)
  | _ => none

/-- A string over several lines, after its opening marks. -/
def blockString? (mark : Char) (escapes : Bool) : Reader String := fun cs =>
  (blockBody mark escapes (cs.length + 1) [] (dropNewline cs)).map fun (s, rest) =>
    (ofReversed s, rest)

/-- A string in any form. -/
def string? : Reader String
  | '"' :: '"' :: '"' :: rest => blockString? '"' true rest
  | '\'' :: '\'' :: '\'' :: rest => blockString? '\'' false rest
  | cs => lineString? cs

/-! ### Names -/

/-- Whether a character may stand in a name without quotes. -/
def isBare (c : Char) : Bool := c.isAlphanum || c == '-' || c == '_'

/-- A name, with or without quotes. -/
def name? : Reader String := fun cs =>
  match cs with
  | '"' :: _ | '\'' :: _ => lineString? cs
  | _ =>
    let bare := cs.takeWhile isBare
    if bare.isEmpty then none else some (String.ofList bare, cs.drop bare.length)

/-- Names with points between them: the last one, and those before it in reverse order behind
`acc`. -/
def pathFrom : (fuel : Nat) → (acc : List String) → Reader (List String × String)
  | 0, _, _ => none
  | fuel + 1, acc, cs => do
    let (name, rest) ← name? (skipBlanks cs)
    match skipBlanks rest with
    | '.' :: rest => pathFrom fuel (name :: acc) rest
    | rest => return ((acc, name), rest)

/-- How many names a path may have at most, and how deep values may be nested. -/
def maxDepth : Nat := 79

/-- A path: the names that lead to the last one, and the last one. -/
def path? : Reader (List String × String) := fun cs =>
  (pathFrom maxDepth [] cs).map fun ((before, name), rest) => ((before.reverse, name), rest)

end RetailReport.Toml
