import Hypernote.SharedNotebook
import Hypernote.Foundation.Dict
/-!
# The shared document with its metadata

The edits of `SharedNotebook` once more, on cells whose metadata is kept as the document has it: the
two functions that number the cells read and write it differently.  `metadata` and
`metadata["hypernote"]` are objects, null or absent; in the document an object is a dict or a shared
`Map`.  A value under any other key is known by what it reads as.
-/

namespace Hypernote

open Foundation

namespace Numbered

/-- What a dict has under a key, if not a value of another kind than an object. -/
inductive Slot (δ : Type)
  | absent
  | null
  | dict (d : δ)
  deriving DecidableEq

/-- What a shared `Map` has under a key. -/
inductive SharedSlot (δ δ' : Type)
  | absent
  | null
  | dict (d : δ)
  | map (m : δ')
  deriving DecidableEq

abbrev Entries := Dict String Json

/-- The entries of `metadata`. -/
structure Metadata (η : Type) where
  hypernote : η
  others : Entries

abbrev DictMetadata := Slot (Metadata (Slot Entries))

abbrev SharedMetadata :=
  SharedSlot (Metadata (Slot Entries)) (Metadata (SharedSlot Entries Entries))

/-- `value or {}`. -/
def Slot.orEmpty {δ : Type} (slot : Slot δ) (empty : δ) : δ :=
  match slot with
  | .dict d => d
  | _ => empty

/-- The value itself if it is a `Map`, else `Map(value or {})`. -/
def SharedSlot.toMap {δ δ' : Type} (slot : SharedSlot δ δ') (ofDict : δ → δ') (empty : δ') : δ' :=
  match slot with
  | .map m => m
  | .dict d => ofDict d
  | _ => empty

/-- A value of a dict, in the `Map` that is made of it. -/
def SharedSlot.ofSlot {δ δ' : Type} : Slot δ → SharedSlot δ δ'
  | .absent => .absent
  | .null => .null
  | .dict d => .dict d

/-- `to_py()` of a value that is no more than an object of plain values. -/
def SharedSlot.toPy {δ δ' δ'' : Type} (ofDict : δ → δ'') (ofMap : δ' → δ'') :
    SharedSlot δ δ' → Slot δ''
  | .absent => .absent
  | .null => .null
  | .dict d => .dict (ofDict d)
  | .map m => .dict (ofMap m)

/-- What the metadata of a shared cell reads as. -/
def toPy (metadata : SharedMetadata) : DictMetadata :=
  SharedSlot.toPy id (fun m => ⟨SharedSlot.toPy id id m.hypernote, m.others⟩) metadata

/-- A turn of the loop of `_assign_position_keys`. -/
def assignPositionKey (index : Nat) (metadata : DictMetadata) : DictMetadata :=
  let metadata := metadata.orEmpty ⟨.absent, .empty⟩
  let hypernoteMeta := metadata.hypernote.orEmpty .empty
  .dict { metadata with
    hypernote := .dict (hypernoteMeta.set "position_key" (.str (positionKeyOf index))) }

/-- A turn of the loop of `_assign_position_keys_ycells`. -/
def assignPositionKeyYcell (index : Nat) (metadata : SharedMetadata) : SharedMetadata :=
  let metadata := metadata.toMap (fun d => ⟨.ofSlot d.hypernote, d.others⟩) ⟨.absent, .empty⟩
  let hypernoteMeta := metadata.hypernote.toMap id .empty
  .map { metadata with
    hypernote := .map (hypernoteMeta.set "position_key" (.str (positionKeyOf index))) }

/-- A cell, with its metadata as a dict or as the shared document has it. -/
structure Cell (ι ω μ : Type) where
  id : Option ι
  cellType : String
  source : Chars
  outputs : List ω
  executionCount : Option Int
  metadata : μ

variable {ι ω : Type}

abbrev DictCell (ι ω : Type) := Cell ι ω DictMetadata

abbrev YCell (ι ω : Type) := Cell ι ω SharedMetadata

/-- `notebook.get_cell`, of the cell at the index. -/
def YCell.toPy (ycell : YCell ι ω) : DictCell ι ω :=
  { ycell with metadata := Numbered.toPy ycell.metadata }

/-- What the accessor uses of the shared document's library. -/
structure Library (ι ω : Type) where
  /-- `notebook.create_ycell`. -/
  createYcell : DictCell ι ω → YCell ι ω
  /-- The shared cells after `notebook.aset` of the given ones. -/
  aset : List (DictCell ι ω) → List (YCell ι ω) → List (YCell ι ω)

/-- `metadata.get(key)`, for a key other than `"hypernote"`. -/
def entry (metadata : DictMetadata) (key : String) : Option Json :=
  (metadata.orEmpty ⟨.absent, .empty⟩).others.get? key

/-- `metadata["hypernote"].get(key)`. -/
def hypernoteEntry (metadata : DictMetadata) (key : String) : Option Json :=
  ((metadata.orEmpty ⟨.absent, .empty⟩).hypernote.orEmpty .empty).get? key

/-- The same entries. -/
def SameEntries (m m' : DictMetadata) : Prop :=
  ∀ key, entry m key = entry m' key ∧ hypernoteEntry m key = hypernoteEntry m' key

/-- What is written into the document can be read back. -/
structure Library.Lawful (lib : Library ι ω) : Prop where
  createYcell : ∀ cell, { (lib.createYcell cell).toPy with metadata := cell.metadata } = cell ∧
    SameEntries (lib.createYcell cell).toPy.metadata cell.metadata
  aset : ∀ cells ycells, cells ≠ [] →
    List.Forall₂ (fun ycell cell => { ycell.toPy with metadata := cell.metadata } = cell ∧
      SameEntries ycell.toPy.metadata cell.metadata) (lib.aset cells ycells) cells

section

variable [DecidableEq ι]

/-- `_resolve_insert_index`. -/
def resolveInsertIndex (cells : List (DictCell ι ω)) (before after : Option ι) :
    Except (ValueError ι) Nat :=
  match before, after with
  | none, none => .ok cells.length
  | some before, _ => (findIndex Cell.id cells before).map Fin.val
  | none, some after => (findIndex Cell.id cells after).map fun index => index.val + 1

/-- `_assign_position_keys`. -/
def assignPositionKeys (cells : List (DictCell ι ω)) : List (DictCell ι ω) :=
  cells.mapIdx fun index cell => { cell with metadata := assignPositionKey index cell.metadata }

/-- `_assign_position_keys_ycells`. -/
def assignPositionKeysYcells (ycells : List (YCell ι ω)) : List (YCell ι ω) :=
  ycells.mapIdx fun index ycell =>
    { ycell with metadata := assignPositionKeyYcell index ycell.metadata }

/-- `get_cell` of the accessor; the new ids that the `aget` in it gives to repeated ones, which change
no metadata, are left out. -/
def getCell (ycells : List (YCell ι ω)) (cellId : Option ι) :
    Except (ValueError ι) (DictCell ι ω) :=
  match (ycells.map YCell.toPy).find? fun cell => cell.id = cellId with
  | some cell => .ok cell
  | none => .error (.notFound cellId)

/-- What a call returns or raises, and the document that it leaves. -/
abbrev Outcome (ι ω α : Type) : Type := Except (ValueError ι) α × List (YCell ι ω)

def deleteCell (cellId : ι) (ycells : List (YCell ι ω)) : Outcome ι ω Unit :=
  match findIndex Cell.id ycells cellId with
  | .error error => (.error error, ycells)
  | .ok index => (.ok (), assignPositionKeysYcells (ycells.eraseIdx index))

namespace Library

variable (lib : Library ι ω)

def insertCell (cell : DictCell ι ω) (before after : Option ι) (ycells : List (YCell ι ω)) :
    Outcome ι ω (DictCell ι ω) :=
  match validatePosition before after with
  | .error error => (.error error, ycells)
  | .ok () =>
      match resolveInsertIndex (ycells.map YCell.toPy) before after with
      | .error error => (.error error, ycells)
      | .ok index =>
          let ycell := lib.createYcell cell
          let inserted :=
            if index ≥ ycells.length then ycells ++ [ycell] else ycells.insertIdx index ycell
          let ycells := assignPositionKeysYcells inserted
          (getCell ycells cell.id, ycells)

/-- Read the cell, change the dict and write it back: `replace_cell_source` and
`clear_outputs`. -/
def rewriteCell (cellId : ι) (change : DictCell ι ω → DictCell ι ω) (ycells : List (YCell ι ω)) :
    Outcome ι ω (DictCell ι ω) :=
  match findIndex Cell.id ycells cellId with
  | .error error => (.error error, ycells)
  | .ok index =>
      let written := ycells.modify index fun ycell => lib.createYcell (change ycell.toPy)
      let ycells := assignPositionKeysYcells written
      (getCell ycells (some cellId), ycells)

def replaceCellSource (cellId : ι) (source : Chars) (ycells : List (YCell ι ω)) :
    Outcome ι ω (DictCell ι ω) :=
  lib.rewriteCell cellId (fun cell => { cell with source := source }) ycells

def clearOutputs (cellId : ι) (ycells : List (YCell ι ω)) : Outcome ι ω (DictCell ι ω) :=
  lib.rewriteCell cellId (fun cell => { cell with outputs := [], executionCount := none }) ycells

/-- `move_cell`, if nothing else happens while it is suspended in `aset`. -/
def moveCell (cellId : ι) (before after : Option ι) (ycells : List (YCell ι ω)) :
    Outcome ι ω (DictCell ι ω) :=
  let cells := ycells.map YCell.toPy
  let moved := do
    validatePosition before after
    let index ← findIndex Cell.id cells cellId
    let target ← resolveInsertIndex (cells.eraseIdx index) before after
    return assignPositionKeys ((cells.eraseIdx index).insertIdx target cells[index])
  match moved with
  | .error error => (.error error, ycells)
  | .ok cells =>
      let ycells := lib.aset cells ycells
      (getCell ycells (some cellId), ycells)

end Library

end

end Numbered

end Hypernote
