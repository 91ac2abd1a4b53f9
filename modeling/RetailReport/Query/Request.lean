import RetailReport.Rollup.Schema
import RetailReport.Rollup.Metric

/-!
# Requests and results

A request names a rollup and asks for its fields, grouped by some of its dimensions and restricted to
some stores, days and channels.  Two engines answer requests, one from the stored rollup and one from
the lines themselves; a result says which one it comes from and, if it has no rows, why.

## Main definitions

* `Engine`: the two engines and their names.
* `QueryFilter`, `MetricRequest`: what is asked for.
* `EmptyReason`, `AggregateResult`: what is answered.
-/

namespace RetailReport

open Digits

/-! ### Engines -/

/-- What answers requests. -/
inductive Engine where
  /-- The stored rollups. -/
  | rollup
  /-- The lines, partition by partition. -/
  | partition
deriving DecidableEq, Repr, Inhabited

namespace Engine

/-- The name of an engine. -/
def name : Engine → String
  | .rollup => "ROLLUP"
  | .partition => "PARTITION"

/-- The number that stands for an engine in measurements. -/
def gauge : Engine → Nat
  | .rollup => 0
  | .partition => 1

/-- All engines. -/
def all : List Engine := [.rollup, .partition]

/-- A name with its ASCII letters in upper case. -/
def upperCase (s : String) : String := s.map Char.toUpper

/-- The engine with a given name, in letters of either case. -/
def ofName? (s : String) : Option Engine := all.find? fun e => e.name = upperCase s

/-- The message about a name that is none of an engine. -/
def unknownMessage (s : String) : String := "Unknown engine: " ++ upperCase s

end Engine

/-! ### Requests -/

/-- What lines a request is about; what is not given is not restricted. -/
structure QueryFilter where
  /-- The stores. -/
  stores : Option (KeySet String) := none
  /-- The first and the last day. -/
  dateRange : Option (Date × Date) := none
  /-- The channels. -/
  channels : Option (KeySet String) := none
deriving DecidableEq, Repr, Inhabited

namespace QueryFilter

/-- Whether nothing is restricted. -/
def isEmpty (q : QueryFilter) : Bool :=
  q.stores.isNone && q.dateRange.isNone && q.channels.isNone

/-- Whether a store is asked for. -/
def matchesStore (q : QueryFilter) (storeId : String) : Bool :=
  q.stores.all fun s => s.contains storeId

/-- Whether a day is asked for. -/
def matchesDate (q : QueryFilter) (date : Date) : Bool :=
  q.dateRange.all fun (first, last) => first.le date && date.le last

/-- Whether a channel is asked for. -/
def matchesChannel (q : QueryFilter) (channel : String) : Bool :=
  q.channels.all fun s => s.contains channel

/-- Whether a line is asked for. -/
def matchesFact (q : QueryFilter) (f : FactRecord) : Bool :=
  q.matchesStore f.storeId && q.matchesDate f.date && q.matchesChannel f.channel

/-- Whether lines of a store on a day may be asked for. -/
def matchesPartition (q : QueryFilter) (storeId : String) (date : Date) : Bool :=
  q.matchesStore storeId && q.matchesDate date

end QueryFilter

/-- What tells a request apart from all others: 128 bits. -/
structure RequestId where
  /-- The bits as a number. -/
  value : Nat
deriving DecidableEq, Repr, Inhabited

namespace RequestId

/-- The number of 32 hexadecimal digits. -/
def ofHex? (cs : List Char) : Option RequestId :=
  if cs.length = 32 then
    (cs.foldlM (fun n c => (hexValue? c).map (16 * n + ·)) 0).map RequestId.mk
  else none

/-- The number of 32 hexadecimal digits in groups of 8, 4, 4, 4 and 12, with hyphens in between. -/
def ofGroups? (cs : List Char) : Option RequestId :=
  if cs.length = 36 ∧ [8, 13, 18, 23].all (fun i => cs[i]? == some '-') then
    ofHex? ((cs.take 8) ++ (cs.drop 9).take 4 ++ (cs.drop 14).take 4 ++ (cs.drop 19).take 4 ++
      cs.drop 24)
  else none

/-- The digits without what may stand around them: braces, or `urn:uuid:` in front in any case. -/
def unwrapped (cs : List Char) : List Char :=
  if cs.length = 38 ∧ cs.head? = some '\x7b' ∧ cs.getLast? = some '\x7d' then
    (cs.drop 1).dropLast
  else if cs.length = 45 ∧ (cs.take 9).map Char.toLower = "urn:uuid:".toList then cs.drop 9
  else cs

/-- Reads an id: digits alone, or in groups, which may be wrapped. -/
def parse? (text : String) : Option RequestId :=
  let cs := text.toList
  if cs.length = 32 then ofHex? cs else ofGroups? (unwrapped cs)

/-- The digits in groups. -/
def render (r : RequestId) : String :=
  let cs := hex 32 r.value
  String.ofList (cs.take 8 ++ '-' :: (cs.drop 8).take 4 ++ '-' :: (cs.drop 12).take 4 ++
    '-' :: (cs.drop 16).take 4 ++ '-' :: cs.drop 20)

end RequestId

/-- What is asked for. -/
structure MetricRequest where
  /-- What tells the request apart, if it says so. -/
  requestId : Option RequestId := none
  /-- The rollup. -/
  schema : String
  /-- What the answer is grouped by. -/
  dimensions : List Dimension := []
  /-- What lines the request is about. -/
  filter : QueryFilter := {}
  /-- The fields that are asked for; all if there are none. -/
  fields : List String := []
  /-- How long the answer may take, in milliseconds. -/
  timeoutMs : Option Nat := none
deriving DecidableEq, Repr, Inhabited

/-- Whether there is no time for an answer at all. -/
def MetricRequest.isOver (r : MetricRequest) : Bool := r.timeoutMs == some 0

/-! ### Results -/

/-- Why a result has no rows. -/
inductive EmptyReason where
  /-- No partition is asked for that is stored. -/
  | partitionMissing
  /-- No row is asked for that there is. -/
  | noMatchingRows
deriving DecidableEq, Repr, Inhabited

/-- The name of a reason. -/
def EmptyReason.name : EmptyReason → String
  | .partitionMissing => "PARTITION_MISSING"
  | .noMatchingRows => "NO_MATCHING_ROWS"

/-- The answer to a request. -/
structure AggregateResult where
  /-- The groups, in ascending order of their keys. -/
  rows : List AggregateRow
  /-- What gave the answer. -/
  engine : Engine
  /-- Why there are no groups. -/
  reason : Option EmptyReason
deriving DecidableEq, Repr, Inhabited

namespace AggregateResult

/-- A result with some rows; that there are none needs a reason. -/
def ofRows (rows : List AggregateRow) (engine : Engine) : AggregateResult :=
  { rows, engine, reason := if rows.isEmpty then some .noMatchingRows else none }

/-- A result without rows. -/
def empty (engine : Engine) (reason : EmptyReason) : AggregateResult :=
  { rows := [], engine, reason := some reason }

end AggregateResult

end RetailReport
