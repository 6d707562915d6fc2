import Hypernote.RuntimeManager
import Hypernote.Sdk.NotebookStatus
import Hypernote.Sdk.Snapshot
import Mathlib.Algebra.GroupWithZero.Nat
/-!
# The numbers of a notebook

What `status` and `diff` return besides the cells.  The numbers are counted in four places:
`_status_aggregates` in one loop over the cells of a status, `_status_summary` in one pass for each
number, `_build_summary` on the cells as they were read, and `cat` on the entries that it shows.
-/

namespace Hypernote

namespace Sdk

/-- The numbers of `_status_aggregates`. -/
@[ext]
structure Aggregates where
  cellsTotal : Nat
  codeCells : Nat
  markdownCells : Nat
  rawCells : Nat
  executedCells : Nat
  failedCells : Nat
  changedCells : Nat
  outputCells : Nat
  outputCount : Nat
  deriving DecidableEq, Repr

namespace Aggregates

def zero : Aggregates := ⟨0, 0, 0, 0, 0, 0, 0, 0, 0⟩

def countType (a : Aggregates) : CellType → Aggregates
  | .code => { a with codeCells := a.codeCells + 1 }
  | .markdown => { a with markdownCells := a.markdownCells + 1 }
  | .raw => { a with rawCells := a.rawCells + 1 }

def countOutputs (a : Aggregates) (outputs : List OutputDict) : Aggregates :=
  if outputs = [] then a
  else
    { a with
      outputCells := a.outputCells + 1
      outputCount := a.outputCount + outputs.length }

/-- The body of the loop. -/
def count (a : Aggregates) (cell : CellStatus) : Aggregates :=
  let a := a.countType cell.type
  let a :=
    if cell.executionCount.isSome then { a with executedCells := a.executedCells + 1 } else a
  let a := a.countOutputs cell.shownOutputs
  let a := if cell.hasErrorOutput then { a with failedCells := a.failedCells + 1 } else a
  if cell.changeKinds ≠ [] then { a with changedCells := a.changedCells + 1 } else a

end Aggregates

/-- `_status_aggregates`. -/
def NotebookStatus.aggregates (status : NotebookStatus) : Aggregates :=
  { status.cells.foldl Aggregates.count .zero with cellsTotal := status.cells.length }

/-! ## What is said of a notebook in one line -/

/-- `os.path.basename`. -/
def basename (path : String) : String :=
  String.ofList (path.toList.reverse.takeWhile (· ≠ '/')).reverse

/-- `_build_summary`, of the cells as they were read. -/
def buildSummary (notebookPath : String) (runtimeStatus : RuntimeState) (cells : List NotebookCell)
    (diff : Bool) (changedCount : Nat) : String :=
  let codeCells := cells.countP (·.cellType = .code)
  let markdownCells := cells.countP (·.cellType = .markdown)
  let executed := cells.countP (·.executionCount.isSome)
  if diff then
    s!"{basename notebookPath} · {changedCount} changed cells · runtime {runtimeStatus.value}"
  else
    s!"{basename notebookPath} · {cells.length} cells" ++
      s!" ({codeCells} code, {markdownCells} markdown)" ++
      s!" · {executed} executed · runtime {runtimeStatus.value}"

/-- `NotebookStatus`, with what stands beside its cells. -/
structure NotebookReport where
  notebookPath : String
  baseline : Option Snapshot
  current : Snapshot
  runtime : RuntimeState
  status : NotebookStatus
  summary : String

/-- The numbers of `_status_summary` of the command line. -/
structure StatusSummary where
  cellCount : Nat
  codeCells : Nat
  markdownCells : Nat
  executedCells : Nat
  failedCells : Nat
  cellsWithOutput : Nat
  outputCount : Nat
  deriving DecidableEq

def NotebookStatus.statusSummary (status : NotebookStatus) : StatusSummary where
  cellCount := status.cells.length
  codeCells := status.cells.countP (·.type = .code)
  markdownCells := status.cells.countP (·.type = .markdown)
  executedCells := status.cells.countP (·.executionCount.isSome)
  failedCells := status.cells.countP (·.hasErrorOutput)
  cellsWithOutput := status.cells.countP (·.shownOutputs ≠ [])
  outputCount := (status.cells.map (·.shownOutputs.length)).sum

namespace Notebook

variable (sha256 : String → String) (printable : Char → Bool)

/-- `Notebook.status`, of the cells read and the runtime's state. -/
def status (notebookPath : String) (cells : List NotebookCell) (runtime : RuntimeState)
    (full : Bool) : NotebookReport where
  notebookPath := notebookPath
  baseline := none
  current := snapshot sha256 cells
  runtime := runtime
  status := ⟨cells.map fun cell => buildCellStatus printable cell full false []⟩
  summary := buildSummary notebookPath runtime cells false 0

/-- `Notebook.diff`. -/
def diffReport (notebookPath : String) (cells : List NotebookCell) (runtime : RuntimeState)
    (baseline : Snapshot) (full : Bool) : Except SdkError NotebookReport := do
  let changed ← diff sha256 printable cells baseline full
  return {
    notebookPath := notebookPath
    baseline := some baseline
    current := snapshot sha256 cells
    runtime := runtime
    status := ⟨changed⟩
    summary := buildSummary notebookPath runtime cells true changed.length }

end Notebook

/-! ## The numbers of `cat` -/

/-- What `_build_cat_payload` returns for the cells of a notebook, or for one of them. -/
structure CatPayload where
  summary : Aggregates
  headline : String
  cellsTotal : Nat
  failedCells : Nat
  cellsWithOutputs : Nat
  cellId : Option CellId
  cells : List CompactDict

/-- `NotebookStatus.cell`; `none` is the `CellNotFoundError`. -/
def NotebookStatus.cell (status : NotebookStatus) (cellId : CellId) : Option CellStatus :=
  status.cells.find? (·.id = cellId)

/-- How `cat` shows the cells. -/
structure CatOptions where
  fullSource : Bool
  limits : OutputLimits

section

variable (caseMap : CaseMap) (printable : Char → Bool)

/-- The entries of `cat`: of one cell, or of all. -/
def NotebookReport.catCells (report : NotebookReport) (options : CatOptions) :
    Option CellId → Option (List CompactDict)
  | some cellId =>
      if cellId = "" then
        some (report.status.compactCells caseMap printable options.fullSource false none
          options.limits)
      else
        (report.status.cell cellId).map fun cell =>
          [cell.compactDict printable options.fullSource options.limits.includeOutputs
            options.limits.fullOutput options.limits.maxOutputChars]
  | none =>
      some (report.status.compactCells caseMap printable options.fullSource false none
        options.limits)

/-- `_build_cat_payload`, without the views of one cell's outputs. -/
def NotebookReport.catPayload (report : NotebookReport) (options : CatOptions)
    (cellId : Option CellId) : Option CatPayload :=
  (report.catCells caseMap printable options cellId).map fun cells =>
    { summary := report.status.aggregates
      headline := report.summary
      cellsTotal := cells.length
      failedCells := cells.countP (·.hasErrorOutput)
      cellsWithOutputs := cells.countP (0 < ·.outputCount)
      cellId := cellId
      cells := cells }

end

end Sdk

end Hypernote
