import RetailReport.Text.Digits
import RetailReport.Text.Hidden

/-!
# Texts quoted in messages

A message quotes a text between double quotes.  Quotes and backslashes get a backslash, the null
character, tabulators and line ends have their usual short escapes, and any other hidden character
is spelt by its code point.  Lists and optional texts are quoted member by member.

## Main definitions

* `Text.quoted`, `Text.quotedList`, `Text.quotedOption`.
-/

namespace RetailReport.Text

open Digits

/-- A number in lower-case hexadecimal, without leading zeros. -/
def hexadecimal (n : Nat) : List Char :=
  match (hex 8 n).dropWhile (· == '0') with
  | [] => ['0']
  | cs => cs

/-- A character as it stands in a quoted text. -/
def quotedChar (c : Char) : List Char :=
  if c = '"' then ['\\', '"']
  else if c = '\\' then ['\\', '\\']
  else if c = '\x00' then ['\\', '0']
  else if c = '\t' then ['\\', 't']
  else if c = '\n' then ['\\', 'n']
  else if c = '\r' then ['\\', 'r']
  else if isHidden c then '\\' :: 'u' :: '\x7b' :: hexadecimal c.toNat ++ ['\x7d']
  else [c]

/-- A text between quotes. -/
def quoted (s : String) : String :=
  String.ofList ('"' :: s.toList.flatMap quotedChar ++ ['"'])

/-- A list of texts in brackets. -/
def quotedList (l : List String) : String := "[" ++ String.intercalate ", " (l.map quoted) ++ "]"

/-- A text that may be missing. -/
def quotedOption : Option String → String
  | none => "None"
  | some s => "Some(" ++ quoted s ++ ")"

end RetailReport.Text
