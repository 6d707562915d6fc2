import Hypernote.Foundation.Base64
import Hypernote.Foundation.Dict
import Hypernote.Foundation.Utf8
import Hypernote.Sdk.CellStatus
/-!
# Snapshots of a notebook

What a snapshot records of the cells, the token that carries it, and `Notebook.diff`, which compares
the notebook with it.  `sha256` stands for the hash of the standard library, as hexadecimal digits.
-/

namespace Hypernote

open Foundation

namespace Sdk

/-- `_SnapshotCell`. -/
structure SnapshotCell where
  id : CellId
  type : String
  order : String
  sourceHash : String
  outputsHash : String
  executionCount : Option Int
  deriving DecidableEq

/-- The position key of the cell at a place of the notebook. -/
def orderOf (cell : NotebookCell) (index : Nat) : String :=
  cell.positionKey.getD (positionKeyOf index)

/-- `cell["outputs"]` as JSON. -/
def outputsJson (cell : NotebookCell) : Json := .arr (cell.outputs.map fun o => .obj o.members)

section

variable (sha256 : String → String)

/-- An entry of `_snapshot_cells`. -/
def snapshotCell (cell : NotebookCell) (index : Nat) : SnapshotCell where
  id := cell.id
  type := cell.cellType.value
  order := orderOf cell index
  sourceHash := sha256 (String.ofList cell.cellSource)
  outputsHash := sha256 (outputsJson cell).dumpsSorted
  executionCount := cell.executionCount

/-- `_snapshot_cells`. -/
def snapshotCells (cells : List NotebookCell) : List SnapshotCell :=
  cells.zipIdx.map fun entry => snapshotCell sha256 entry.1 entry.2

end

/-! ## The token -/

/-- `asdict(entry)`. -/
def SnapshotCell.toJson (entry : SnapshotCell) : Json :=
  .obj
    [("id", .str entry.id), ("type", .str entry.type), ("order", .str entry.order),
      ("source_hash", .str entry.sourceHash), ("outputs_hash", .str entry.outputsHash),
      ("execution_count", entry.executionCount.elim .null .int)]

def Json.str? (x : Json) : Option String :=
  match x with
  | .str s => some s
  | _ => none

/-- An integer or `None`. -/
def Json.count? (x : Json) : Option (Option Int) :=
  match x with
  | .int n => some (some n)
  | .null => some none
  | _ => none

/-- `_SnapshotCell(**entry)`, of an entry whose values have the types of the fields. -/
def SnapshotCell.ofJson? (x : Json) : Option SnapshotCell := do
  let id ← (x.get? "id").bind Json.str?
  let type ← (x.get? "type").bind Json.str?
  let order ← (x.get? "order").bind Json.str?
  let sourceHash ← (x.get? "source_hash").bind Json.str?
  let outputsHash ← (x.get? "outputs_hash").bind Json.str?
  let executionCount ← (x.get? "execution_count").bind Json.count?
  match x with
  | .obj members =>
      if members.length = 6 then
        return ⟨id, type, order, sourceHash, outputsHash, executionCount⟩
      else none
  | _ => none

/-- `_encode_snapshot_token`, of the entries of `_snapshot_cells`. -/
def encodeSnapshotToken (entries : List SnapshotCell) : String :=
  let payload := Json.obj [("cells", .arr (entries.map SnapshotCell.toJson))]
  String.ofList (Base64.encode (utf8Encode (payload.sortKeys.writeChars .compact)))

/-- `_decode_snapshot_token`. -/
def decodeSnapshotToken (token : String) : Except SdkError (List SnapshotCell) :=
  let entries := do
    let raw ← Base64.decode token.toList
    let text ← utf8Decode? raw
    let payload ← Json.loads text
    match payload.get? "cells" with
    | some (.arr cells) => cells.mapM SnapshotCell.ofJson?
    | _ => none
  match entries with
  | some entries => .ok entries
  | none => .error (.hypernoteError "Invalid snapshot token")

structure Snapshot where
  token : String
  cellCount : Nat

/-! ## The comparison -/

/-- `{cell.id: cell for cell in cells}`. -/
def byId (entries : List SnapshotCell) : Dict CellId SnapshotCell :=
  entries.foldl (fun d entry => d.set entry.id entry) Dict.empty

/-- The `change_kinds` of a cell that the notebook has. -/
def changeKindsOf (baselineEntry : Option SnapshotCell) (currentEntry : SnapshotCell) :
    List ChangeKind :=
  match baselineEntry with
  | none => [.added]
  | some baselineEntry =>
      (if baselineEntry.order ≠ currentEntry.order then [.moved] else []) ++
        (if baselineEntry.sourceHash ≠ currentEntry.sourceHash then [.sourceEdited] else []) ++
        (if baselineEntry.outputsHash ≠ currentEntry.outputsHash then [.outputChanged] else []) ++
        if baselineEntry.executionCount ≠ currentEntry.executionCount then [.executionCount]
        else []

section

variable (sha256 : String → String) (printable : Char → Bool)

/-- The first loop of `Notebook.diff`, over the cells of the notebook. -/
def changedCells (baselineById currentById : Dict CellId SnapshotCell) (full : Bool) :
    List NotebookCell → Except SdkError (List CellStatus)
  | [] => return []
  | cell :: cells => do
      let currentEntry ← (currentById.get? cell.id).elim (.error (.keyError cell.id)) .ok
      let changeKinds := changeKindsOf (baselineById.get? cell.id) currentEntry
      let rest ← changedCells baselineById currentById full cells
      return if changeKinds = [] then rest
        else buildCellStatus printable cell full true changeKinds :: rest

/-- The second loop, over the cells of the baseline. -/
def deletedCells (currentById : Dict CellId SnapshotCell) :
    List (CellId × SnapshotCell) → Except SdkError (List CellStatus)
  | [] => return []
  | (removedId, removed) :: entries =>
      if (currentById.get? removedId).isSome then deletedCells currentById entries
      else do
        let type ← (CellType.ofValue? removed.type).elim (.error .valueError) .ok
        let rest ← deletedCells currentById entries
        return ⟨removedId, type, true, [.deleted], none, none, removed.executionCount⟩ :: rest

namespace Notebook

/-- `Notebook.snapshot`, of the cells read. -/
def snapshot (cells : List NotebookCell) : Snapshot :=
  ⟨encodeSnapshotToken (snapshotCells sha256 cells), cells.length⟩

/-- The cells of `Notebook.diff`, of the cells read. -/
def diff (cells : List NotebookCell) (snapshot : Snapshot) (full : Bool) :
    Except SdkError (List CellStatus) := do
  let baselineData ← decodeSnapshotToken snapshot.token
  let baselineById := byId baselineData
  let currentById := byId (snapshotCells sha256 cells)
  let changed ← changedCells printable baselineById currentById full cells
  let deleted ← deletedCells currentById baselineById.entries
  return changed ++ deleted

end Notebook

end

end Sdk

end Hypernote
