import Hypernote.Foundation.RepeatedKeys
import Hypernote.Notebook
/-!
# The shared document

`SharedNotebookAccessor`: the edits of a notebook that is open in a room.  The document is an array
of shared cells; the library that keeps it, `jupyter_ydoc`, is a parameter.
-/

namespace Hypernote

open Foundation

/-- A cell as a dict.  Of its metadata the key of its position is told apart from the rest;
`metadata["hypernote"]` is a dict where it is there. -/
structure Cell (ι ω μ : Type) where
  id : Option ι
  cellType : String
  source : Chars
  outputs : List ω
  executionCount : Option Int
  positionKey : Option String
  metadata : μ
  deriving DecidableEq

/-- What the accessor uses of the shared document's library. -/
structure YNotebook (ι ω μ : Type) where
  YCell : Type
  /-- `ycell["id"]`. -/
  id : YCell → Option ι
  /-- `notebook.get_cell`, of the cell at the index. -/
  toPy : YCell → Cell ι ω μ
  /-- `notebook.create_ycell`, of a dict with the key `id`. -/
  createYcell : Cell ι ω μ → YCell
  /-- `notebook.set_cell`, of a dict that `get_cell` has returned. -/
  setCell : Cell ι ω μ → YCell
  /-- `ycell["metadata"]["hypernote"]["position_key"] = key`. -/
  setPositionKey : YCell → String → YCell
  /-- `ycell["outputs"].append(output)`. -/
  appendOutput : YCell → ω → YCell
  /-- The shared cells after `notebook.aset` of the given ones. -/
  aset : List (Cell ι ω μ) → List YCell → List YCell
  /-- The shared cells after `notebook.get` or `notebook.aget`. -/
  aget : List YCell → List YCell

/-- The cell as the format of its notebook has it: before nbformat 4.5 cells have no ids. -/
def Cell.exported {ι ω μ : Type} : Bool → Cell ι ω μ → Cell ι ω μ
  | true, cell => cell
  | false, cell => { cell with id := none }

/-- The cell under a new id. -/
def Cell.renamed {ι ω μ : Type} (id : ι) (cell : Cell ι ω μ) : Cell ι ω μ :=
  { cell with id := some id }

/-- What is written into the document can be read back, and reading all cells gives a new id to
each whose id a cell before it has.  `keepsIds` says that the format of the notebook has ids. -/
structure YNotebook.Lawful {ι ω μ : Type} (lib : YNotebook ι ω μ) (keepsIds : Bool := true) :
    Prop where
  id_toPy : ∀ y, (lib.toPy y).id = if keepsIds then lib.id y else none
  id_createYcell : ∀ cell, lib.id (lib.createYcell cell) = cell.id
  exported_createYcell : ∀ cell, lib.toPy (lib.createYcell cell) = cell.exported keepsIds
  id_setCell : keepsIds = true → ∀ cell, lib.id (lib.setCell cell) = cell.id
  exported_setCell : ∀ cell, lib.toPy (lib.setCell cell) = cell.exported keepsIds
  id_setPositionKey : ∀ y key, lib.id (lib.setPositionKey y key) = lib.id y
  toPy_setPositionKey : ∀ y key,
    lib.toPy (lib.setPositionKey y key) = { lib.toPy y with positionKey := some key }
  toPy_appendOutput : ∀ y output,
    lib.toPy (lib.appendOutput y output) =
      { lib.toPy y with outputs := (lib.toPy y).outputs ++ [output] }
  exported_aset : ∀ cells ycells, cells ≠ [] →
    (lib.aset cells ycells).map lib.toPy = cells.map (Cell.exported keepsIds)
  renamed_aget : keepsIds = true → ∀ ycells,
    Renamed lib.id (fun id y y' => lib.toPy y' = (lib.toPy y).renamed id) [] ycells
      (lib.aget ycells)
  /-- No id of these cells is repeated, or all have been read with these ids. -/
  aget_eq : ∀ ycells,
    (ycells.map lib.id).Nodup ∨ (∃ read, ycells.map lib.id = (lib.aget read).map lib.id) →
      lib.aget ycells = ycells

namespace YNotebook.Lawful

variable {ι ω μ : Type} {lib : YNotebook ι ω μ} (hlib : lib.Lawful)

include hlib

theorem id_eq (y : lib.YCell) : lib.id y = (lib.toPy y).id := (hlib.id_toPy y).symm

theorem toPy_createYcell (cell : Cell ι ω μ) : lib.toPy (lib.createYcell cell) = cell :=
  hlib.exported_createYcell cell

theorem toPy_setCell (cell : Cell ι ω μ) : lib.toPy (lib.setCell cell) = cell :=
  hlib.exported_setCell cell

theorem map_toPy_aset {cells : List (Cell ι ω μ)} (ycells : List lib.YCell) (hne : cells ≠ []) :
    (lib.aset cells ycells).map lib.toPy = cells :=
  (hlib.exported_aset cells ycells hne).trans (List.map_id' cells)

end YNotebook.Lawful

/-- A document whose shared cells are the dicts themselves. -/
def YNotebook.ofCells (ι ω μ : Type) [DecidableEq ι] [NewKey ι] (keepsIds : Bool := true) :
    YNotebook ι ω μ where
  YCell := Cell ι ω μ
  id := Cell.id
  toPy := Cell.exported keepsIds
  createYcell cell := cell
  setCell cell := if keepsIds then cell else { cell with id := some (NewKey.newKey []) }
  setPositionKey cell key := { cell with positionKey := some key }
  appendOutput cell output := { cell with outputs := cell.outputs ++ [output] }
  aset cells _ := cells
  aget cells :=
    if keepsIds then renameRepeated Cell.id Cell.renamed [] cells else cells

theorem Cell.renamed_renameRepeated {ι ω μ : Type} [DecidableEq ι] [NewKey ι]
    (cells : List (Cell ι ω μ)) :
    Renamed Cell.id (fun id cell cell' => cell' = cell.renamed id) [] cells
      (renameRepeated Cell.id Cell.renamed [] cells) := by
  have hset : ∀ (id : ι) (cell : Cell ι ω μ), (cell.renamed id).id = some id := fun _ _ => rfl
  exact Foundation.renamed_renameRepeated hset cells fun _ => by simp

theorem YNotebook.ofCells_lawful (ι ω μ : Type) [DecidableEq ι] [NewKey ι]
    (keepsIds : Bool := true) : (YNotebook.ofCells ι ω μ keepsIds).Lawful keepsIds where
  id_toPy _ := by cases keepsIds <;> rfl
  id_createYcell _ := rfl
  exported_createYcell _ := rfl
  id_setCell := by
    rintro rfl
    exact fun _ => rfl
  exported_setCell _ := by cases keepsIds <;> rfl
  id_setPositionKey _ _ := rfl
  toPy_setPositionKey _ _ := by cases keepsIds <;> rfl
  toPy_appendOutput _ _ := by cases keepsIds <;> rfl
  exported_aset _ _ _ := rfl
  renamed_aget := by
    rintro rfl cells
    exact Cell.renamed_renameRepeated cells
  aget_eq cells h := by
    cases keepsIds with
    | false => rfl
    | true =>
        refine renameRepeated_eq ?_ fun _ _ => List.not_mem_nil
        rcases h with hnodup | ⟨read, hread⟩
        · exact nodup_keysOf hnodup
        · exact keysOf_congr hread.symm ▸ (Cell.renamed_renameRepeated read).nodup.1

/-- The `ValueError`s of the accessor. -/
inductive ValueError (ι : Type)
  /-- "Specify only one of before= or after=". -/
  | positions
  /-- "Cell … not found". -/
  | notFound (cellId : Option ι)

section

variable {ι ω μ : Type} [DecidableEq ι]

/-- `_validate_position`. -/
def validatePosition (before after : Option ι) : Except (ValueError ι) Unit :=
  if before.isSome ∧ after.isSome then .error .positions else .ok ()

/-- The index of the first cell with the id. -/
def findIndex {α : Type} (idOf : α → Option ι) (cells : List α) (cellId : ι) :
    Except (ValueError ι) (Fin cells.length) :=
  match cells.findFinIdx? fun cell => idOf cell = some cellId with
  | some index => .ok index
  | none => .error (.notFound (some cellId))

/-- `_find_cell_index`. -/
def findCellIndex (cells : List (Cell ι ω μ)) (cellId : ι) :
    Except (ValueError ι) (Fin cells.length) :=
  findIndex Cell.id cells cellId

/-- `_resolve_insert_index`. -/
def resolveInsertIndex (cells : List (Cell ι ω μ)) (before after : Option ι) :
    Except (ValueError ι) Nat :=
  match before, after with
  | none, none => .ok cells.length
  | some before, _ => (findCellIndex cells before).map Fin.val
  | none, some after => (findCellIndex cells after).map fun index => index.val + 1

/-- `_assign_position_keys`. -/
def assignPositionKeys (cells : List (Cell ι ω μ)) : List (Cell ι ω μ) :=
  cells.mapIdx fun index cell => { cell with positionKey := some (positionKeyOf index) }

namespace YNotebook

variable (lib : YNotebook ι ω μ)

/-- `_find_ycell_index`. -/
def findYcellIndex (ycells : List lib.YCell) (cellId : ι) :
    Except (ValueError ι) (Fin ycells.length) :=
  findIndex lib.id ycells cellId

/-- `_assign_position_keys_ycells`. -/
def assignPositionKeysYcells (ycells : List lib.YCell) : List lib.YCell :=
  ycells.mapIdx fun index ycell => lib.setPositionKey ycell (positionKeyOf index)

/-- The first of the exported cells with the id. -/
def findCell (ycells : List lib.YCell) (cellId : Option ι) :
    Except (ValueError ι) (Cell ι ω μ) :=
  match (ycells.map lib.toPy).find? fun cell => cell.id = cellId with
  | some cell => .ok cell
  | none => .error (.notFound cellId)

/-- What a call returns or raises, and the document that it leaves. -/
abbrev Outcome (α : Type) : Type := Except (ValueError ι) α × List lib.YCell

/-- `get_cell` of the accessor.  The `aget` in it gives the shared cells whose ids are repeated new
ones; of a notebook of an old format it exports the cells without ids, and none is found by one. -/
def getCell (ycells : List lib.YCell) (cellId : Option ι) : lib.Outcome (Cell ι ω μ) :=
  let ycells := lib.aget ycells
  (lib.findCell ycells cellId, ycells)

/-- `insert_cell` up to the save. -/
def beginInsert (cell : Cell ι ω μ) (before after : Option ι) (ycells : List lib.YCell) :
    Except (ValueError ι) (List lib.YCell) := do
  validatePosition before after
  let index ← resolveInsertIndex (ycells.map lib.toPy) before after
  let ycell := lib.createYcell cell
  let inserted :=
    if index ≥ ycells.length then ycells ++ [ycell] else ycells.insertIdx index ycell
  return lib.assignPositionKeysYcells inserted

/-- Read the cell, change the dict and write it back: `replace_cell_source` and `clear_outputs` up
to the save. -/
def beginRewrite (cellId : ι) (change : Cell ι ω μ → Cell ι ω μ) (ycells : List lib.YCell) :
    Except (ValueError ι) (List lib.YCell) := do
  let index ← lib.findYcellIndex ycells cellId
  let written := ycells.modify index fun ycell => lib.setCell (change (lib.toPy ycell))
  return lib.assignPositionKeysYcells written

def beginReplaceCellSource (cellId : ι) (source : Chars) (ycells : List lib.YCell) :
    Except (ValueError ι) (List lib.YCell) :=
  lib.beginRewrite cellId (fun cell => { cell with source := source }) ycells

def beginClearOutputs (cellId : ι) (ycells : List lib.YCell) :
    Except (ValueError ι) (List lib.YCell) :=
  lib.beginRewrite cellId (fun cell => { cell with outputs := [], executionCount := none }) ycells

/-- The end of a call that has changed the document: the cell is looked up again. -/
def endEdit (cellId : Option ι) (ycells : List lib.YCell) :
    Except (ValueError ι) (List lib.YCell) → lib.Outcome (Cell ι ω μ)
  | .error error => (.error error, ycells)
  | .ok ycells => lib.getCell ycells cellId

def insertCell (cell : Cell ι ω μ) (before after : Option ι) (ycells : List lib.YCell) :
    lib.Outcome (Cell ι ω μ) :=
  lib.endEdit cell.id ycells (lib.beginInsert cell before after ycells)

def replaceCellSource (cellId : ι) (source : Chars) (ycells : List lib.YCell) :
    lib.Outcome (Cell ι ω μ) :=
  lib.endEdit (some cellId) ycells (lib.beginReplaceCellSource cellId source ycells)

def clearOutputs (cellId : ι) (ycells : List lib.YCell) : lib.Outcome (Cell ι ω μ) :=
  lib.endEdit (some cellId) ycells (lib.beginClearOutputs cellId ycells)

def deleteCell (cellId : ι) (ycells : List lib.YCell) : lib.Outcome Unit :=
  match lib.findYcellIndex ycells cellId with
  | .error error => (.error error, ycells)
  | .ok index => (.ok (), lib.assignPositionKeysYcells (ycells.eraseIdx index))

/-- The cells that `move_cell` gives to `aset`, of those that it has read. -/
def movedCells (cellId : ι) (before after : Option ι) (cells : List (Cell ι ω μ)) :
    Except (ValueError ι) (List (Cell ι ω μ)) := do
  validatePosition before after
  let index ← findCellIndex cells cellId
  let rest := cells.eraseIdx index
  let target ← resolveInsertIndex rest before after
  return assignPositionKeys (rest.insertIdx target cells[index])

/-- `move_cell`, if nothing else happens while it is suspended in `aset`.  What else it gives to
`aset` it reads with `get`. -/
def moveCell (cellId : ι) (before after : Option ι) (ycells : List lib.YCell) :
    lib.Outcome (Cell ι ω μ) :=
  let moved := movedCells cellId before after (ycells.map lib.toPy)
  lib.endEdit (some cellId) ycells (moved.map fun cells => lib.aset cells (lib.aget ycells))

end YNotebook

end

end Hypernote
