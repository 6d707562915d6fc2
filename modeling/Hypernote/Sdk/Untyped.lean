import Hypernote.Foundation.JsonValue
import Hypernote.Sdk.Snapshot
/-!
# Snapshots of cells as JSON carries them

The functions behind `Notebook.snapshot` and `Notebook.diff` again, on cells whose ids may repeat and
whose metadata can be any JSON.  What is recorded as the order of a cell is then any JSON as well, and
a value that is no dict where one is read raises.  On cells that are well formed they do what the
functions of `Sdk.Snapshot` do.
-/

namespace Hypernote

open Foundation

namespace Sdk

namespace Untyped

/-- A cell of the notebook's content. -/
structure JsonCell where
  id : CellId
  /-- `cell.get("cell_type")`. -/
  cellType : Option String
  source : Option MultilineString
  outputs : Option Json
  /-- `cell.get("execution_count")`. -/
  executionCount : Option Int
  metadata : Option Json
  unique_keys : ∀ x ∈ metadata, x.UniqueKeys
  no_nan : ∀ x ∈ metadata, x.NoNaN

/-- What the code raises. -/
inductive Error
  | attributeError
  | sdk (error : SdkError)

/-- `_SnapshotCell`. -/
structure SnapshotCell where
  id : CellId
  type : String
  order : Json
  sourceHash : String
  outputsHash : String
  executionCount : Option Int

section

variable (F : FloatValues) (sha256 : String → String)

/-- `value or {}`, of which `get` is called. -/
def orEmpty : Option Json → Except Error (List (String × Json))
  | none => .ok []
  | some x =>
      if !x.truthy F then .ok []
      else
        match x with
        | .obj members => .ok members
        | _ => .error .attributeError

/-- The `order` of `_snapshot_cells`. -/
def orderOf (cell : JsonCell) (index : Nat) : Except Error Json := do
  let metadata ← orEmpty F cell.metadata
  let hypernoteMeta ← orEmpty F (metadata.lookup "hypernote")
  return (hypernoteMeta.lookup "position_key").getD (.str (positionKeyOf index))

/-- `_cell_source`. -/
def JsonCell.cellSource (cell : JsonCell) : Chars := (cell.source.getD (.string [])).joined

/-- The entry of a cell whose order has been read. -/
def snapshotCellOf (cell : JsonCell) (order : Json) : SnapshotCell where
  id := cell.id
  type := cell.cellType.getD CellType.code.value
  order := order
  sourceHash := sha256 (String.ofList cell.cellSource)
  outputsHash := sha256 (cell.outputs.getD (.arr [])).dumpsSorted
  executionCount := cell.executionCount

/-- An entry of `_snapshot_cells`. -/
def snapshotCell (cell : JsonCell) (index : Nat) : Except Error SnapshotCell :=
  (orderOf F cell index).map (snapshotCellOf sha256 cell)

/-- `_snapshot_cells`. -/
def snapshotCells (cells : List JsonCell) : Except Error (List SnapshotCell) :=
  cells.zipIdx.mapM fun entry => snapshotCell F sha256 entry.1 entry.2

/-- `asdict(entry)`. -/
def SnapshotCell.toJson (entry : SnapshotCell) : Json :=
  .obj
    [("id", .str entry.id), ("type", .str entry.type), ("order", entry.order),
      ("source_hash", .str entry.sourceHash), ("outputs_hash", .str entry.outputsHash),
      ("execution_count", entry.executionCount.elim .null .int)]

/-- `_SnapshotCell(**entry)`, of an entry whose other values have the types of the fields. -/
def SnapshotCell.ofJson? (x : Json) : Option SnapshotCell := do
  let id ← (x.get? "id").bind Json.str?
  let type ← (x.get? "type").bind Json.str?
  let order ← x.get? "order"
  let sourceHash ← (x.get? "source_hash").bind Json.str?
  let outputsHash ← (x.get? "outputs_hash").bind Json.str?
  let executionCount ← (x.get? "execution_count").bind Json.count?
  match x with
  | .obj members =>
      if members.length = 6 then
        return ⟨id, type, order, sourceHash, outputsHash, executionCount⟩
      else none
  | _ => none

def writeToken (entries : List SnapshotCell) : String :=
  let payload := Json.obj [("cells", .arr (entries.map SnapshotCell.toJson))]
  String.ofList (Base64.encode (utf8Encode (payload.sortKeys.writeChars .compact)))

/-- `_encode_snapshot_token`. -/
def encodeSnapshotToken (cells : List JsonCell) : Except Error String :=
  (snapshotCells F sha256 cells).map writeToken

/-- `_decode_snapshot_token`. -/
def decodeSnapshotToken (token : String) : Except Error (List SnapshotCell) :=
  let entries := do
    let raw ← Base64.decode token.toList
    let text ← utf8Decode? raw
    let payload ← Json.loads text
    match payload.get? "cells" with
    | some (.arr cells) => cells.mapM SnapshotCell.ofJson?
    | _ => none
  match entries with
  | some entries => .ok entries
  | none => .error (.sdk (.hypernoteError "Invalid snapshot token"))

/-! ## The comparison -/

/-- `{cell.id: cell for cell in cells}`. -/
def byId (entries : List SnapshotCell) : Dict CellId SnapshotCell :=
  entries.foldl (fun d entry => d.set entry.id entry) Dict.empty

/-- The `change_kinds` of a cell that the notebook has. -/
def changeKindsOf (baselineEntry : Option SnapshotCell) (currentEntry : SnapshotCell) :
    List ChangeKind :=
  match baselineEntry with
  | none => [.added]
  | some baselineEntry =>
      (if baselineEntry.order.pyEq F currentEntry.order then [] else [.moved]) ++
        (if baselineEntry.sourceHash ≠ currentEntry.sourceHash then [.sourceEdited] else []) ++
        (if baselineEntry.outputsHash ≠ currentEntry.outputsHash then [.outputChanged] else []) ++
        if baselineEntry.executionCount ≠ currentEntry.executionCount then [.executionCount]
        else []

/-- What a diff lists, before it is shown as the status of a cell. -/
inductive Change
  | cell (cell : JsonCell) (changeKinds : List ChangeKind)
  | deleted (removed : SnapshotCell)

/-- The first loop of `Notebook.diff`. -/
def changedCells (baselineById currentById : Dict CellId SnapshotCell) :
    List JsonCell → Except Error (List Change)
  | [] => return []
  | cell :: cells => do
      let currentEntry ← (currentById.get? cell.id).elim (.error (.sdk (.keyError cell.id))) .ok
      let changeKinds := changeKindsOf F (baselineById.get? cell.id) currentEntry
      let rest ← changedCells baselineById currentById cells
      return if changeKinds = [] then rest else .cell cell changeKinds :: rest

/-- The second loop. -/
def deletedCells (baselineById currentById : Dict CellId SnapshotCell) : List Change :=
  baselineById.entries.filterMap fun entry =>
    if (currentById.get? entry.1).isSome then none else some (.deleted entry.2)

/-- The comparison of `Notebook.diff`. -/
def changesSince (cells : List JsonCell) (token : String) : Except Error (List Change) := do
  let _current ← encodeSnapshotToken F sha256 cells
  let baselineData ← decodeSnapshotToken token
  let currentData ← snapshotCells F sha256 cells
  let changed ← changedCells F (byId baselineData) (byId currentData) cells
  return changed ++ deletedCells (byId baselineData) (byId currentData)

/-- The cells of `Notebook.diff`; `statusOf` makes the status of a change, or raises. -/
def diff {σ : Type} (statusOf : Change → Except Error σ) (cells : List JsonCell) (token : String) :
    Except Error (List σ) := do
  let changes ← changesSince F sha256 cells token
  changes.mapM statusOf

end

end Untyped

end Sdk

end Hypernote
