import Hypernote.Foundation.PyJson
import Hypernote.Sdk.Untyped
/-!
# A diff against any token

`Notebook.diff` again, for a token that need not come from `Notebook.snapshot`: the fields of
`_SnapshotCell` are not checked, so that what is read from the token as an id, a type or an order is
any JSON.  The cells of the notebook are those of `Sdk.Untyped`.
-/

namespace Hypernote

open Foundation

namespace Sdk

namespace AnyToken

open Untyped (JsonCell)

/-- What leaves `Notebook.diff`. -/
inductive Raised
  | hypernoteError (message : String)
  /-- The key of a dict is a list or a dict. -/
  | typeError
  /-- The value is none of the enumeration. -/
  | valueError
  /-- A cell of the notebook is not what the code expects. -/
  | ofNotebook (error : Untyped.Error)

/-- `_SnapshotCell`, as it is made from a token. -/
structure Entry where
  id : PyJson
  type : PyJson
  order : PyJson
  sourceHash : PyJson
  outputsHash : PyJson
  executionCount : PyJson

/-- `_SnapshotCell(**entry)`. -/
def Entry.ofDict? (entry : PyJson) : Option Entry :=
  match entry with
  | .obj members => do
      let id ← members.lookup (pyStr "id")
      let type ← members.lookup (pyStr "type")
      let order ← members.lookup (pyStr "order")
      let sourceHash ← members.lookup (pyStr "source_hash")
      let outputsHash ← members.lookup (pyStr "outputs_hash")
      let executionCount ← members.lookup (pyStr "execution_count")
      if members.length = 6 then
        return ⟨id, type, order, sourceHash, outputsHash, executionCount⟩
      else none
  | _ => none

/-- The entries that a loop over a value gives.  The characters of a string and the keys of a dict are
no entries. -/
def entriesOf? (cells : PyJson) : Option (List Entry) :=
  match cells with
  | .arr items => items.mapM Entry.ofDict?
  | .str s => if s.isEmpty then some [] else none
  | .obj members => if members.isEmpty then some [] else none
  | _ => none

/-- `tuple(_SnapshotCell(**entry) for entry in payload["cells"])`. -/
def payloadEntries? (payload : PyJson) : Option (List Entry) :=
  match payload with
  | .obj members => (members.lookup (pyStr "cells")).bind entriesOf?
  | _ => none

/-- `_decode_snapshot_token`.  All that is raised inside becomes one error. -/
def decodeSnapshotToken (limits : PyJson.ReadLimits) (token : PyStr) :
    Except Raised (List Entry) :=
  let entries := do
    let chars ← token.toChars?
    let raw ← Base64.decode chars
    let text ← utf8Decode? raw
    let payload ← PyJson.loads limits text
    payloadEntries? payload
  match entries with
  | some entries => .ok entries
  | none => .error (.hypernoteError "Invalid snapshot token")

/-- `CellType(value)`. -/
def cellType? (value : PyJson) : Option CellType :=
  match value with
  | .str s => [CellType.code, .markdown, .raw].find? fun type => pyStr type.value = s
  | _ => none

section

variable (F : FloatValues)

/-- The entry with its id as a key. -/
def keyed (entry : Entry) : Except Raised (PyJson.DictKey × Entry) :=
  if h : entry.id.hashable = true then .ok (⟨entry.id, h⟩, entry) else .error .typeError

/-- `{cell.id: cell for cell in baseline_data}`. -/
def baselineById (entries : List Entry) : Except Raised (List (PyJson.DictKey × Entry)) :=
  (entries.mapM keyed).map (PyDict.ofPairs (PyJson.DictKey.same F))

/-- The `change_kinds` of a cell of the notebook. -/
def changeKindsOf (baselineEntry : Option Entry) (currentEntry : Untyped.SnapshotCell) :
    List ChangeKind :=
  match baselineEntry with
  | none => [.added]
  | some baselineEntry =>
      (if baselineEntry.order.pyEq F (.ofJson currentEntry.order) then [] else [.moved]) ++
        (if baselineEntry.sourceHash.pyEq F (.str (pyStr currentEntry.sourceHash)) then []
          else [.sourceEdited]) ++
        (if baselineEntry.outputsHash.pyEq F (.str (pyStr currentEntry.outputsHash)) then []
          else [.outputChanged]) ++
        if baselineEntry.executionCount.pyEq F (currentEntry.executionCount.elim .null .int) then []
        else [.executionCount]

section

variable {σ : Type} (statusOf : JsonCell → List ChangeKind → Except Untyped.Error σ)
  (deletedStatus : PyJson → CellType → PyJson → σ)

/-- The first loop of `Notebook.diff`; `statusOf` is `_build_cell_status`. -/
def changedCells (baselineById : List (PyJson.DictKey × Entry))
    (currentById : Dict CellId Untyped.SnapshotCell) : List JsonCell → Except Raised (List σ)
  | [] => return []
  | cell :: cells => do
      let currentEntry ←
        (currentById.get? cell.id).elim (.error (.ofNotebook (.sdk (.keyError cell.id)))) .ok
      let baselineEntry :=
        PyDict.get? (PyJson.DictKey.same F) baselineById ⟨.str (pyStr cell.id), rfl⟩
      let changeKinds := changeKindsOf F baselineEntry currentEntry
      if changeKinds = [] then changedCells baselineById currentById cells
      else do
        let status ← (statusOf cell changeKinds).mapError .ofNotebook
        let rest ← changedCells baselineById currentById cells
        return status :: rest

/-- `removed_id in current_by_id`. -/
def isCurrent (currentById : Dict CellId Untyped.SnapshotCell) (id : PyJson) : Bool :=
  match id with
  | .str s => currentById.keys.any fun id => pyStr id = s
  | _ => false

/-- The second loop. -/
def deletedCells (currentById : Dict CellId Untyped.SnapshotCell) :
    List (PyJson.DictKey × Entry) → Except Raised (List σ)
  | [] => return []
  | (removedId, removed) :: entries =>
      if isCurrent currentById removedId.1 then deletedCells currentById entries
      else do
        let type ← (cellType? removed.type).elim (.error .valueError) .ok
        let rest ← deletedCells currentById entries
        return deletedStatus removedId.1 type removed.executionCount :: rest

/-- The cells of `Notebook.diff`. -/
def diff (limits : PyJson.ReadLimits) (sha256 : String → String) (cells : List JsonCell)
    (token : PyStr) : Except Raised (List σ) := do
  let _current ← (Untyped.encodeSnapshotToken F sha256 cells).mapError .ofNotebook
  let baselineData ← decodeSnapshotToken limits token
  let currentData ← (Untyped.snapshotCells F sha256 cells).mapError .ofNotebook
  let baselineById ← baselineById F baselineData
  let currentById := Untyped.byId currentData
  let changed ← changedCells F statusOf baselineById currentById cells
  let deleted ← deletedCells deletedStatus currentById baselineById
  return changed ++ deleted

end

end

end AnyToken

end Sdk

end Hypernote
