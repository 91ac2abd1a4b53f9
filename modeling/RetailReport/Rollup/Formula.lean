import RetailReport.Rollup.Metric
import RetailReport.Text.Quoted

/-!
# Formulas

A formula computes a derived field from the values of other fields of the same group.  Formulas are
looked up by name in a `FormulaTable`, which a report may extend by formulas of its own; five are
built in.

## Main definitions

* `Formula`, `Formula.evaluate`: a function with a fixed or variable number of inputs.
* `FormulaTable`, `FormulaTable.builtins`: `ratio`, `safe_ratio`, `percent`, `sum`, `difference`.
-/

namespace RetailReport

/-- Why a formula has no value. -/
inductive FormulaError where
  /-- The divisor is zero. -/
  | divisionByZero
  /-- The exact value is out of range. -/
  | overflow
  /-- The number of inputs is wrong. -/
  | arity (expected got : Nat)
  /-- A reason of the formula's own. -/
  | custom (text : String)
deriving DecidableEq, Repr

/-- The wording of an error. -/
def FormulaError.message : FormulaError → String
  | .divisionByZero => "division by zero"
  | .overflow => "arithmetic overflow"
  | .arity expected got =>
    "expected " ++ String.ofList (Digits.decimal expected) ++ " inputs, got " ++
      String.ofList (Digits.decimal got)
  | .custom text => text

/-- The name of an error, whatever its wording. -/
def FormulaError.code : FormulaError → String
  | .divisionByZero => "DivisionByZero"
  | .overflow => "Overflow"
  | .arity _ _ => "Arity"
  | .custom _ => "Custom"

/-- A function from values to a value. -/
structure Formula where
  /-- How many inputs it takes; any number if there is none. -/
  arity : Option Nat
  /-- The function. -/
  apply : List Metric → Except FormulaError Metric

instance : Inhabited Formula := ⟨⟨none, fun _ => .ok .null⟩⟩

/-- The value at given inputs, if their number is right. -/
def Formula.evaluate (f : Formula) (inputs : List Metric) : Except FormulaError Metric :=
  match f.arity with
  | some expected =>
    if inputs.length = expected then f.apply inputs else .error (.arity expected inputs.length)
  | none => f.apply inputs

namespace Formula

/-- A formula of two inputs. -/
def binary (f : Metric → Metric → Except FormulaError Metric) : Formula where
  arity := some 2
  apply
    | [a, b] => f a b
    | inputs => .error (.arity 2 inputs.length)

/-- The quotient of two values; what to answer if the divisor is zero is given. -/
def divide (onZero : Except FormulaError Metric) (a b : Metric) : Except FormulaError Metric :=
  match a.number?, b.number? with
  | some n, some d => if d.toFloat == 0.0 then onZero else .ok (.ratio (n / d))
  | _, _ => .ok .null

/-- The quotient of two values; division by zero is an error. -/
def ratio : Formula := binary (divide (.error .divisionByZero))

/-- The quotient of two values; division by zero has no value. -/
def safeRatio : Formula := binary (divide (.ok .null))

/-- A hundred times the quotient of two values; division by zero has no value. -/
def percent : Formula := binary fun a b =>
  match divide (.ok .null) a b with
  | .ok (.ratio r) => .ok (.ratio (r * Binary64.ofFloat 100.0))
  | other => other

/-- The difference of two values, exact for amounts. -/
def difference : Formula := binary fun a b =>
  match a, b with
  | .null, _ | _, .null => .ok .null
  | .amount x, .amount y =>
    match x.sub? y with
    | some z => .ok (.amount z)
    | none => .error .overflow
  | a, b => .ok (.ratio (a.number?.getD ⟨0⟩ - b.number?.getD ⟨0⟩))

/-- The sum of amounts, from the left. -/
def sumAmounts (values : List Amount) : Except FormulaError Amount :=
  values.foldlM (fun total a =>
    match total.add? a with
    | some total => .ok total
    | none => .error .overflow) Amount.zero

/-- The sum of counts, from the left. -/
def sumCounts (values : List Nat) : Except FormulaError Nat :=
  values.foldlM (fun total n => if total + n ≤ maxCount then .ok (total + n) else .error .overflow) 0

/-- The sum of any number of values: exact if all are amounts or all are counts, and without value if
one has none. -/
def sum : Formula where
  arity := none
  apply inputs :=
    if inputs.any Metric.isNull then .ok .null
    else if inputs.all (·.amount?.isSome) then
      (sumAmounts (inputs.filterMap Metric.amount?)).map .amount
    else if inputs.all (·.count?.isSome) then
      (sumCounts (inputs.filterMap Metric.count?)).map .count
    else .ok (.ratio ((inputs.filterMap Metric.number?).foldl (· + ·) (Binary64.ofFloat (-0.0))))

end Formula

/-- Formulas by name. -/
abbrev FormulaTable := SortedMap String Formula

namespace FormulaTable

/-- The built-in formulas. -/
def builtins : FormulaTable :=
  SortedMap.ofList
    [("ratio", Formula.ratio), ("safe_ratio", Formula.safeRatio), ("percent", Formula.percent),
     ("sum", Formula.sum), ("difference", Formula.difference)]

/-- The names of the formulas, as messages show them. -/
def describe (t : FormulaTable) : String :=
  "FormulaRegistry " ++ String.ofList ['\x7b'] ++ " formulas: " ++ Text.quotedList t.keys ++ " " ++
    String.ofList ['\x7d']

end FormulaTable

end RetailReport
