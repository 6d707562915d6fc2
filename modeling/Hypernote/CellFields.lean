import Hypernote.CellHandlers
/-!
# The fields of cells

The edits that the handlers make, on cells of which outputs and execution count may be missing.  The
notebook format has these fields in code cells and in no others.  The shared document stores exactly
the fields that it is given.  That reading all cells gives new ids to repeated ones is left out here:
no other field changes then.
-/

namespace Hypernote

open Foundation

/-- A cell as a dict, with or without the fields of a code cell. -/
structure FieldCell (ι ω μ : Type) where
  id : Option ι
  cellType : String
  source : Chars
  positionKey : Option String
  metadata : μ
  outputs : Option (List ω)
  executionCount : Option (Option Int)

namespace FieldCell

variable {ι ω μ : Type}

/-- The cell that `NotebookCellsHandler.post` makes of the body. -/
def ofBody [EmptyCollection μ] (body : PostBody ι μ) : FieldCell ι ω μ where
  id := body.id
  cellType := body.cellType.getD "code"
  source := body.source.getD []
  positionKey := (body.metadata.getD (none, ∅)).1
  metadata := (body.metadata.getD (none, ∅)).2
  outputs := some []
  executionCount := some none

/-- `_assign_position_keys` and `_assign_position_keys_ycells`. -/
def assignPositionKeys (cells : List (FieldCell ι ω μ)) : List (FieldCell ι ω μ) :=
  cells.mapIdx fun index cell => { cell with positionKey := some (positionKeyOf index) }

section

variable [DecidableEq ι]

/-- `_find_cell_index` and `_find_ycell_index`. -/
def findCellIndex (cells : List (FieldCell ι ω μ)) (cellId : ι) :
    Except (ValueError ι) (Fin cells.length) :=
  findIndex id cells cellId

/-- `_resolve_insert_index`. -/
def resolveInsertIndex (cells : List (FieldCell ι ω μ)) (before after : Option ι) :
    Except (ValueError ι) Nat :=
  match before, after with
  | none, none => .ok cells.length
  | some before, _ => (findCellIndex cells before).map Fin.val
  | none, some after => (findCellIndex cells after).map fun index => index.val + 1

/-- What `insert_cell` makes of the cells. -/
def insertCell (cell : FieldCell ι ω μ) (before after : Option ι)
    (cells : List (FieldCell ι ω μ)) : Except (ValueError ι) (List (FieldCell ι ω μ)) := do
  validatePosition before after
  let index ← resolveInsertIndex cells before after
  let inserted :=
    if index ≥ cells.length then cells ++ [cell] else cells.insertIdx index cell
  return assignPositionKeys inserted

/-- `replace_cell_source` and `clear_outputs`. -/
def rewriteCell (cellId : ι) (change : FieldCell ι ω μ → FieldCell ι ω μ)
    (cells : List (FieldCell ι ω μ)) : Except (ValueError ι) (List (FieldCell ι ω μ)) := do
  let index ← findCellIndex cells cellId
  return assignPositionKeys (cells.modify index change)

def replaceCellSource (cellId : ι) (source : Chars) (cells : List (FieldCell ι ω μ)) :
    Except (ValueError ι) (List (FieldCell ι ω μ)) :=
  rewriteCell cellId (fun cell => { cell with source := source }) cells

def clearOutputs (cellId : ι) (cells : List (FieldCell ι ω μ)) :
    Except (ValueError ι) (List (FieldCell ι ω μ)) :=
  rewriteCell cellId
    (fun cell => { cell with outputs := some [], executionCount := some none }) cells

def deleteCell (cellId : ι) (cells : List (FieldCell ι ω μ)) :
    Except (ValueError ι) (List (FieldCell ι ω μ)) := do
  let index ← findCellIndex cells cellId
  return assignPositionKeys (cells.eraseIdx index)

def moveCell (cellId : ι) (before after : Option ι) (cells : List (FieldCell ι ω μ)) :
    Except (ValueError ι) (List (FieldCell ι ω μ)) := do
  validatePosition before after
  let index ← findCellIndex cells cellId
  let rest := cells.eraseIdx index
  let target ← resolveInsertIndex rest before after
  return assignPositionKeys (rest.insertIdx target (cells.get index))

variable [EmptyCollection μ]

/-- What the handler of the request makes of the cells; `replace_cell_source` is not called without a
source. -/
def edit (request : CellRequest ι μ) (cells : List (FieldCell ι ω μ)) :
    Except (ValueError ι) (List (FieldCell ι ω μ)) :=
  match request with
  | .post body => insertCell (ofBody body) body.before body.after cells
  | .patch _ none => .ok cells
  | .patch cellId (some source) => replaceCellSource cellId source cells
  | .delete cellId => deleteCell cellId cells
  | .move cellId before after => moveCell cellId before after cells
  | .clearOutputs cellId => clearOutputs cellId cells

/-- The cells after a request; one that raises leaves them as they are. -/
def handle (cells : List (FieldCell ι ω μ)) (request : CellRequest ι μ) :
    List (FieldCell ι ω μ) :=
  match edit request cells with
  | .ok cells => cells
  | .error _ => cells

end

end FieldCell

end Hypernote
