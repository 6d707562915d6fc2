import Hypernote.Sdk.CellStatus
import Mathlib.Data.List.Infix
/-!
# The status of a notebook

`NotebookStatus` with the compact cells that it shows, all of them or those that match a query.
-/

namespace Hypernote

open Foundation

namespace Sdk

/-- `str.lower`.  How it maps the characters is a table of the Unicode database; it maps each of
them to something. -/
structure CaseMap where
  lower : Chars → Chars
  lower_eq_nil_iff : ∀ s, lower s = [] ↔ s = []

/-- `str.lower` where only ASCII letters have case. -/
def CaseMap.ascii : CaseMap where
  lower s := s.map Char.toLower
  lower_eq_nil_iff _ := List.map_eq_nil_iff

structure NotebookStatus where
  cells : List CellStatus

def CellStatus.hasErrorOutput (status : CellStatus) : Bool :=
  status.shownOutputs.any (·.isType "error")

section

variable (caseMap : CaseMap) (printable : Char → Bool)

/-- `_matches_query`. -/
def matchesQuery (query : Option Chars) (textParts : List (Option Chars)) : Bool :=
  match query with
  | none => true
  | some query =>
      if query = [] then true
      else textParts.any fun part => decide (caseMap.lower query <:+: caseMap.lower (part.getD []))

/-- The settings of `compact_cells` that are about what is shown of outputs. -/
structure OutputLimits where
  includeOutputs : Bool
  fullOutput : Bool
  maxOutputChars : Int

/-- The body of the loop in `NotebookStatus.compact_cells`; `none` passes the cell over. -/
def CellStatus.compactCell (cell : CellStatus) (fullSource failedOnly : Bool)
    (query : Option Chars) (limits : OutputLimits) : Option CompactDict :=
  if failedOnly && !cell.hasErrorOutput then none
  else
    let preview := cell.compactDict printable fullSource limits.includeOutputs limits.fullOutput
      limits.maxOutputChars
    if matchesQuery caseMap query
        [cell.source, preview.outputPreview.bind (·.preview.text), some cell.id.toList] then
      some preview
    else none

/-- `NotebookStatus.compact_cells`. -/
def NotebookStatus.compactCells (status : NotebookStatus) (fullSource failedOnly : Bool)
    (query : Option Chars) (limits : OutputLimits) : List CompactDict :=
  status.cells.filterMap
    (·.compactCell caseMap printable fullSource failedOnly query limits)

end

end Sdk

end Hypernote
