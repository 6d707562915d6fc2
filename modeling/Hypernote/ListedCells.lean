import Hypernote.SharedNotebook
/-!
# The cells that a client is shown

`list_cells` gives an id to a cell that has none.  `get_cell` and the anchors of an edit compare the
ids of the exported cells, which in an old format have none.
-/

namespace Hypernote

open Foundation

/-- A cell as the document exports it.  The id may be missing or null. -/
structure ExportedCell (ι ω μ : Type) where
  id : Option (Option ι)
  cellType : Option String
  source : Option MultilineString
  /-- `cell.get("execution_count")`. -/
  executionCount : Option Int
  outputs : Option (List ω)
  metadata : Option μ

/-- An entry of `list_cells`. -/
structure ListedCell (ι ω μ : Type) where
  id : Option ι
  type : String
  source : Chars
  index : Nat
  executionCount : Option Int
  outputs : List ω
  metadata : μ

namespace ExportedCell

variable {ι ω μ : Type}

/-- `cell.get("id")`. -/
def getId (cell : ExportedCell ι ω μ) : Option ι := cell.id.join

/-- An entry of `list_cells`; `cellName` makes the id of a cell without one of its index. -/
def listed [EmptyCollection μ] (cellName : Nat → ι) (cell : ExportedCell ι ω μ) (index : Nat) :
    ListedCell ι ω μ where
  id := cell.id.getD (some (cellName index))
  type := cell.cellType.getD "code"
  source := (cell.source.getD (.string [])).joined
  index := index
  executionCount := cell.executionCount
  outputs := cell.outputs.getD []
  metadata := cell.metadata.getD ∅

/-- `list_cells`. -/
def listCells [EmptyCollection μ] (cellName : Nat → ι) (cells : List (ExportedCell ι ω μ)) :
    List (ListedCell ι ω μ) :=
  cells.mapIdx fun index cell => cell.listed cellName index

variable [DecidableEq ι]

/-- `get_cell`, by the place of the cell that it returns. -/
def getCell (cells : List (ExportedCell ι ω μ)) (cellId : Option ι) :
    Except (ValueError ι) (Fin cells.length) :=
  match cells.findFinIdx? fun cell => cell.getId = cellId with
  | some index => .ok index
  | none => .error (.notFound cellId)

/-- `_find_cell_index`. -/
def findCellIndex (cells : List (ExportedCell ι ω μ)) (cellId : ι) :
    Except (ValueError ι) (Fin cells.length) :=
  findIndex getId cells cellId

/-- `_resolve_insert_index`. -/
def resolveInsertIndex (cells : List (ExportedCell ι ω μ)) (before after : Option ι) :
    Except (ValueError ι) Nat :=
  match before, after with
  | none, none => .ok cells.length
  | some before, _ => (findCellIndex cells before).map Fin.val
  | none, some after => (findCellIndex cells after).map fun index => index.val + 1

/-- Where `insert_cell` inserts a cell. -/
def insertPlace (cells : List (ExportedCell ι ω μ)) (before after : Option ι) :
    Except (ValueError ι) Nat := do
  validatePosition before after
  resolveInsertIndex cells before after

/-- Where `move_cell` inserts the cell that it has taken out. -/
def movePlace (cells : List (ExportedCell ι ω μ)) (cellId : ι) (before after : Option ι) :
    Except (ValueError ι) Nat := do
  validatePosition before after
  let index ← findCellIndex cells cellId
  resolveInsertIndex (cells.eraseIdx index) before after

end ExportedCell

end Hypernote
