import RetailReport.Binary64
import RetailReport.SortedMap

/-!
# JSON values

A `Json` is what a JSON text says.  Integers and other numbers are told apart, because a count
refuses `1.0`; members of an object keep the order and the repetitions of the text, because a record
refuses a field that is given twice.

Three nodes stand for what is wrong with a text.  `unreadable` is a number or string that is spelt
correctly but denotes nothing: a number beyond every float, or half of a surrogate pair.  `unnamed`
is the value of a member whose name is such a string.  They only do harm where a value is wanted,
and can be skipped.  `broken` is the place where the text stops being JSON.  Since a broken text is
still a value up to that place, whoever reads it meets the first fault first, whichever kind it is.

## Main definitions

* `Json`, `Json.isSound`: no unreadable and no broken place.
* `Json.isWhole`: no broken place, so that it can be skipped.
* `Json.settled`: each object with its members sorted and the last of repeated members only.
-/

namespace RetailReport

/-- What a JSON text says. -/
inductive Json where
  /-- The word `null`. -/
  | null
  /-- A truth value. -/
  | bool (value : Bool)
  /-- A number without fraction and exponent, from `-2 ^ 63` to `2 ^ 64 - 1`. -/
  | int (value : Int)
  /-- Any other number. -/
  | float (value : Binary64)
  /-- A string. -/
  | string (value : String)
  /-- A list of values. -/
  | array (items : List Json)
  /-- Named values, in the order of the text. -/
  | object (members : List (String × Json))
  /-- A number or string that denotes nothing. -/
  | unreadable
  /-- The value of a member whose name denotes nothing. -/
  | unnamed (value : Json)
  /-- The place from which on the text is not JSON. -/
  | broken
deriving Inhabited

namespace Json

mutual

/-- Whether a value has neither an unreadable nor a broken place. -/
def isSound : Json → Bool
  | .array items => areSound items
  | .object members => membersAreSound members
  | .unreadable | .unnamed _ | .broken => false
  | _ => true

/-- Whether all values of a list are sound. -/
def areSound : List Json → Bool
  | [] => true
  | j :: rest => isSound j && areSound rest

/-- Whether all members of an object are sound. -/
def membersAreSound : List (String × Json) → Bool
  | [] => true
  | (_, j) :: rest => isSound j && membersAreSound rest

end

mutual

/-- Whether the text of a value is JSON to its end. -/
def isWhole : Json → Bool
  | .array items => areWhole items
  | .object members => membersAreWhole members
  | .unnamed j => isWhole j
  | .broken => false
  | _ => true

/-- Whether the texts of all values of a list are JSON to their ends. -/
def areWhole : List Json → Bool
  | [] => true
  | j :: rest => isWhole j && areWhole rest

/-- Whether the texts of all members of an object are JSON to their ends. -/
def membersAreWhole : List (String × Json) → Bool
  | [] => true
  | (_, j) :: rest => isWhole j && membersAreWhole rest

end

mutual

/-- Each object with its members sorted by name, and only the last of repeated members. -/
def settled : Json → Json
  | .array items => .array (settledItems items)
  | .object members => .object (settledMembers members).toList
  | j => j

/-- The settled values of a list. -/
def settledItems : List Json → List Json
  | [] => []
  | j :: rest => settled j :: settledItems rest

/-- The settled members of an object, by name. -/
def settledMembers : List (String × Json) → SortedMap String Json
  | [] => .empty
  | (name, j) :: rest =>
    let later := settledMembers rest
    if later.contains name then later else later.insert name (settled j)

end

/-- The first member of a given name. -/
def member? (j : Json) (name : String) : Option Json :=
  match j with
  | .object members => members.lookup name
  | _ => none

end Json

end RetailReport
