import Hypernote.Sdk.Snapshot
/-!
# What a diff lists

The token gives back the entries that it was made of, so a diff compares the cells of two notebooks
entry by entry, and equal hashes mean equal sources and outputs.
-/

namespace Hypernote

open Foundation

namespace Sdk

/-! ## The token -/

theorem sortKeys_toJson (entry : SnapshotCell) :
    entry.toJson.sortKeys =
      .obj
        [("execution_count", entry.executionCount.elim .null .int), ("id", .str entry.id),
          ("order", .str entry.order), ("outputs_hash", .str entry.outputsHash),
          ("source_hash", .str entry.sourceHash), ("type", .str entry.type)] := by
  obtain ⟨id, type, order, sourceHash, outputsHash, executionCount⟩ := entry
  cases executionCount <;>
    simp [SnapshotCell.toJson, Json.sortKeys, Json.sortMembers, List.orderedInsert]

theorem ofJson?_toJson (entry : SnapshotCell) :
    SnapshotCell.ofJson? entry.toJson.sortKeys.dicts = some entry := by
  rw [sortKeys_toJson]
  obtain ⟨id, type, order, sourceHash, outputsHash, executionCount⟩ := entry
  cases executionCount <;>
    simp [Json.dicts, Json.dictMembers, Json.dictOf, Json.setMember, SnapshotCell.ofJson?,
      Json.get?, List.lookup_cons, Json.str?, Json.count?]

theorem mapM_ofJson? (entries : List SnapshotCell) :
    (Json.dictItems (Json.sortItems (entries.map SnapshotCell.toJson))).mapM SnapshotCell.ofJson? =
      some entries := by
  induction entries with
  | nil => rfl
  | cons entry entries ih =>
      rw [List.map_cons, Json.sortItems, Json.dictItems, List.mapM_cons, ofJson?_toJson, ih]
      rfl

theorem decode_encodeSnapshotToken (entries : List SnapshotCell) :
    decodeSnapshotToken (encodeSnapshotToken entries) = .ok entries := by
  have hpayload : (Json.obj [("cells", .arr (entries.map SnapshotCell.toJson))]).sortKeys =
      .obj [("cells", .arr (Json.sortItems (entries.map SnapshotCell.toJson)))] := by
    rw [Json.sortKeys, Json.sortMembers, Json.sortMembers, Json.sortKeys]
    rfl
  have hdicts : (Json.obj [("cells", .arr (Json.sortItems
        (entries.map SnapshotCell.toJson)))]).dicts.get? "cells" =
      some (.arr (Json.dictItems (Json.sortItems (entries.map SnapshotCell.toJson)))) := by
    rw [Json.dicts, Json.dictMembers, Json.dictMembers, Json.dicts]
    rfl
  rw [decodeSnapshotToken, encodeSnapshotToken, String.toList_ofList, Base64.decode_encode,
    hpayload]
  simp only [Option.bind_eq_bind, Option.bind_some, utf8Decode?_utf8Encode, Json.loads_writeChars,
    hdicts, mapM_ofJson?]

/-! ## The entries by id -/

section

variable {entries : List SnapshotCell}

theorem entries_byId (h : (entries.map (·.id)).Nodup) :
    (byId entries).entries = entries.map fun entry => (entry.id, entry) := by
  have hrun : ∀ (rest : List SnapshotCell) (d : Dict CellId SnapshotCell),
      (d.keys ++ rest.map (·.id)).Nodup →
      (rest.foldl (fun d entry => d.set entry.id entry) d).entries =
        d.entries ++ rest.map fun entry => (entry.id, entry) := by
    intro rest
    induction rest with
    | nil => intro d _; exact (List.append_nil _).symm
    | cons entry rest ih =>
        intro d hnodup
        have hnew : entry.id ∉ d.keys := fun hmem =>
          (List.disjoint_of_nodup_append hnodup) hmem List.mem_cons_self
        have hentries := Dict.entries_set_of_not_mem entry hnew
        have hkeys : (d.set entry.id entry).keys = d.keys ++ [entry.id] := by
          rw [Dict.keys, hentries, List.map_append]
          rfl
        rw [List.foldl_cons, ih (d.set entry.id entry), hentries, List.append_assoc]
        · rfl
        · rw [hkeys, List.append_assoc]
          exact hnodup
  exact hrun entries Dict.empty h

theorem get?_byId (h : (entries.map (·.id)).Nodup) {id : CellId} {entry : SnapshotCell} :
    (byId entries).get? id = some entry ↔ entry ∈ entries ∧ entry.id = id := by
  rw [Dict.get?_eq_some_iff, entries_byId h, List.mem_map]
  constructor
  · rintro ⟨entry, hmem, heq⟩
    obtain ⟨rfl, rfl⟩ := Prod.mk.inj heq
    exact ⟨hmem, rfl⟩
  · rintro ⟨hmem, rfl⟩
    exact ⟨entry, hmem, rfl⟩

theorem get?_byId_eq_none (h : (entries.map (·.id)).Nodup) {id : CellId} :
    (byId entries).get? id = none ↔ id ∉ entries.map (·.id) := by
  rw [Option.eq_none_iff_forall_ne_some]
  simp only [ne_eq, get?_byId h, List.mem_map, not_exists]

end

/-! ## The two loops -/

section

variable (printable : Char → Bool) (baselineById currentById : Dict CellId SnapshotCell)
  (full : Bool)

/-- What the first loop adds for a cell. -/
def listed (cell : NotebookCell) : Option CellStatus :=
  (currentById.get? cell.id).bind fun currentEntry =>
    if changeKindsOf (baselineById.get? cell.id) currentEntry = [] then none
    else
      some (buildCellStatus printable cell full true
        (changeKindsOf (baselineById.get? cell.id) currentEntry))

/-- What the second loop adds for an entry. -/
def removal (entry : CellId × SnapshotCell) : Option CellStatus :=
  if (currentById.get? entry.1).isSome then none
  else
    (CellType.ofValue? entry.2.type).map fun type =>
      ⟨entry.1, type, true, [.deleted], none, none, entry.2.executionCount⟩

variable {printable baselineById currentById full}

theorem changedCells_eq {cells : List NotebookCell}
    (hknown : ∀ cell ∈ cells, ∃ entry, currentById.get? cell.id = some entry) :
    changedCells printable baselineById currentById full cells =
      .ok (cells.filterMap (listed printable baselineById currentById full)) := by
  induction cells with
  | nil => rfl
  | cons cell cells ih =>
      obtain ⟨entry, hentry⟩ := hknown cell List.mem_cons_self
      have hrest := ih fun c hc => hknown c (List.mem_cons_of_mem _ hc)
      rw [changedCells, hentry, hrest, List.filterMap_cons, listed, hentry, Option.bind_some]
      by_cases hkinds : changeKindsOf (baselineById.get? cell.id) entry = []
      · rw [if_pos hkinds]
        exact congrArg Except.ok (if_pos hkinds)
      · rw [if_neg hkinds]
        exact congrArg Except.ok (if_neg hkinds)

theorem deletedCells_eq {entries : List (CellId × SnapshotCell)}
    (htypes : ∀ entry ∈ entries, ∃ type : CellType, entry.2.type = type.value) :
    deletedCells currentById entries = .ok (entries.filterMap (removal currentById)) := by
  induction entries with
  | nil => rfl
  | cons entry entries ih =>
      obtain ⟨type, htype⟩ := htypes entry List.mem_cons_self
      have hrest := ih fun e he => htypes e (List.mem_cons_of_mem _ he)
      rw [deletedCells, List.filterMap_cons, removal, htype, CellType.ofValue?_value, hrest]
      split <;> rfl

end

/-! ## What the change kinds say -/

theorem uniqueKeys_outputsJson (cell : NotebookCell) : (outputsJson cell).UniqueKeys := by
  have hall : ∀ outputs : List OutputDict,
      (∀ output ∈ outputs, (Json.obj output.members).UniqueKeys) →
      Json.UniqueItems (outputs.map fun o => .obj o.members) := by
    intro outputs h
    induction outputs with
    | nil => trivial
    | cons output outputs ih =>
        exact ⟨h output List.mem_cons_self, ih fun o ho => h o (List.mem_cons_of_mem _ ho)⟩
  exact hall cell.outputs cell.unique_keys

theorem mem_ite (p : Prop) [Decidable p] (kind kind' : ChangeKind) :
    kind ∈ (if p then [kind'] else []) ↔ p ∧ kind = kind' := by
  split <;> simp [*]

section

variable {sha256 : String → String} {cells : List NotebookCell}

theorem map_id_snapshotCells (sha256 : String → String) (cells : List NotebookCell) :
    (snapshotCells sha256 cells).map (·.id) = cells.map (·.id) := by
  have hfst : (fun entry : SnapshotCell => entry.id) ∘
      (fun entry : NotebookCell × Nat => snapshotCell sha256 entry.1 entry.2) =
      (fun cell : NotebookCell => cell.id) ∘ Prod.fst := rfl
  rw [snapshotCells, List.map_map, hfst, ← List.map_map, List.zipIdx_map_fst]

theorem mem_snapshotCells {entry : SnapshotCell} :
    entry ∈ snapshotCells sha256 cells ↔
      ∃ cell index, (cell, index) ∈ cells.zipIdx ∧ entry = snapshotCell sha256 cell index := by
  rw [snapshotCells, List.mem_map]
  constructor
  · rintro ⟨⟨cell, index⟩, hmem, rfl⟩
    exact ⟨cell, index, hmem, rfl⟩
  · rintro ⟨cell, index, hmem, rfl⟩
    exact ⟨(cell, index), hmem, rfl⟩

theorem nodup_snapshotCells (sha256 : String → String) (h : (cells.map (·.id)).Nodup) :
    ((snapshotCells sha256 cells).map (·.id)).Nodup := by
  rw [map_id_snapshotCells]
  exact h

theorem get?_byId_of_mem (h : (cells.map (·.id)).Nodup) {cell : NotebookCell} {index : Nat}
    (hmem : (cell, index) ∈ cells.zipIdx) :
    (byId (snapshotCells sha256 cells)).get? cell.id = some (snapshotCell sha256 cell index) :=
  (get?_byId (nodup_snapshotCells sha256 h)).mpr
    ⟨mem_snapshotCells.mpr ⟨cell, index, hmem, rfl⟩, rfl⟩

theorem get?_byId_of_not_mem (h : (cells.map (·.id)).Nodup) {id : CellId}
    (hid : id ∉ cells.map (·.id)) : (byId (snapshotCells sha256 cells)).get? id = none := by
  rw [get?_byId_eq_none (nodup_snapshotCells sha256 h), map_id_snapshotCells]
  exact hid

theorem exists_mem_zipIdx {cell : NotebookCell} (h : cell ∈ cells) :
    ∃ index, (cell, index) ∈ cells.zipIdx := by
  obtain ⟨index, hindex, heq⟩ := List.getElem_of_mem h
  exact ⟨index, List.mem_zipIdx_iff_getElem?.mpr (heq ▸ List.getElem?_eq_getElem hindex)⟩

end

/-! ## The diff -/

section

variable {sha256 : String → String} {B C : List NotebookCell}

theorem isSome_get?_byId (hC : (C.map (·.id)).Nodup) (id : CellId) :
    ((byId (snapshotCells sha256 C)).get? id).isSome = true ↔ id ∈ C.map (·.id) := by
  rw [← not_iff_not, Option.not_isSome_iff_eq_none,
    get?_byId_eq_none (nodup_snapshotCells sha256 hC), map_id_snapshotCells]

theorem known_type {entry : CellId × SnapshotCell} (hB : (B.map (·.id)).Nodup)
    (hentry : entry ∈ (byId (snapshotCells sha256 B)).entries) :
    ∃ type : CellType, entry.2.type = type.value := by
  rw [entries_byId (nodup_snapshotCells sha256 hB)] at hentry
  obtain ⟨entry, hmem, rfl⟩ := List.mem_map.mp hentry
  obtain ⟨cell, index, -, rfl⟩ := mem_snapshotCells.mp hmem
  exact ⟨cell.cellType, rfl⟩

theorem ids_of_removals (hC : (C.map (·.id)).Nodup) {entries : List (CellId × SnapshotCell)}
    (htypes : ∀ entry ∈ entries, ∃ type : CellType, entry.2.type = type.value) :
    (entries.filterMap (removal (byId (snapshotCells sha256 C)))).map (·.id) =
      (entries.map Prod.fst).filter (· ∉ C.map (·.id)) := by
  induction entries with
  | nil => rfl
  | cons entry entries ih =>
      obtain ⟨type, htype⟩ := htypes entry List.mem_cons_self
      have hrest := ih fun e he => htypes e (List.mem_cons_of_mem _ he)
      rw [List.filterMap_cons, removal, htype, CellType.ofValue?_value, List.map_cons,
        List.filter_cons]
      by_cases hmem : entry.1 ∈ C.map (·.id)
      · rw [if_pos ((isSome_get?_byId hC _).mpr hmem), if_neg (by simpa using hmem)]
        exact hrest
      · rw [if_neg fun h => hmem ((isSome_get?_byId hC _).mp h), if_pos (by simpa using hmem)]
        exact congrArg _ hrest

theorem removal_changeKinds {current : Dict CellId SnapshotCell} {entry : CellId × SnapshotCell}
    {status : CellStatus} (h : removal current entry = some status) :
    status.changeKinds = [.deleted] := by
  obtain ⟨-, h⟩ := Option.ite_none_left_eq_some.mp h
  obtain ⟨type, -, rfl⟩ := Option.map_eq_some_iff.mp h
  rfl

end

section

variable (sha256 : String → String) (printable : Char → Bool) (full : Bool) (B C : List NotebookCell)

/-- What the first loop adds. -/
def changedSince : List CellStatus :=
  C.filterMap
    (listed printable (byId (snapshotCells sha256 B)) (byId (snapshotCells sha256 C)) full)

/-- What the second loop adds. -/
def deletedSince : List CellStatus :=
  (byId (snapshotCells sha256 B)).entries.filterMap (removal (byId (snapshotCells sha256 C)))

variable {sha256 printable full B C}

theorem diff_eq (hB : (B.map (·.id)).Nodup) (hC : (C.map (·.id)).Nodup) :
    Notebook.diff sha256 printable C (Notebook.snapshot sha256 B) full =
      .ok (changedSince sha256 printable full B C ++ deletedSince sha256 B C) := by
  have hchanged : changedCells printable (byId (snapshotCells sha256 B))
      (byId (snapshotCells sha256 C)) full C = .ok (changedSince sha256 printable full B C) := by
    apply changedCells_eq
    intro cell hcell
    obtain ⟨index, hindex⟩ := exists_mem_zipIdx hcell
    exact ⟨_, get?_byId_of_mem hC hindex⟩
  have hdeleted : deletedCells (byId (snapshotCells sha256 C))
      (byId (snapshotCells sha256 B)).entries = .ok (deletedSince sha256 B C) := by
    apply deletedCells_eq
    intro entry hentry
    exact known_type hB hentry
  rw [Notebook.diff, Notebook.snapshot, decode_encodeSnapshotToken]
  simp only [bind, Except.bind, hchanged, hdeleted]
  rfl

theorem deletedSince_ids (hB : (B.map (·.id)).Nodup) (hC : (C.map (·.id)).Nodup) :
    (deletedSince sha256 B C).map (·.id) = (B.map (·.id)).filter (· ∉ C.map (·.id)) := by
  rw [deletedSince, ids_of_removals hC fun entry => known_type hB,
    entries_byId (nodup_snapshotCells sha256 hB), List.map_map]
  exact congrArg _ (map_id_snapshotCells sha256 B)

end

/-- The hash of an empty source and of no outputs; no digest begins as the others do here. -/
private def digest (text : String) : String :=
  if text = "" then "e3b0c44298fc1c149afbf4c8996fb92427ae41e4649b934ca495991b7852b855"
  else if text = "[]" then "4f53cda18c2baa0c0354bb5f9a3ecbe5ed12ab4d8e11ba873c2f11161202b945"
  else String.ofList ('#' :: text.toList)

end Sdk

end Hypernote
