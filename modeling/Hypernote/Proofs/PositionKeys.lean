import Hypernote.NotebookMetadata
import Hypernote.Proofs.ListEdits
/-!
# Positions and their keys

Both ways of numbering the cells set the key of the position and leave every other entry of the
metadata as it is, whatever there was before, so after every edit each key is the one of the
position.
-/

namespace Hypernote

open Foundation

namespace Numbered

/-! ## One cell -/

/-- The key is the one of the index, and no other entry has changed. -/
structure Renumbered (index : Nat) (before after : DictMetadata) : Prop where
  position_key : hypernoteEntry after "position_key" = some (.str (positionKeyOf index))
  hypernote_kept : ∀ key, key ≠ "position_key" →
    hypernoteEntry after key = hypernoteEntry before key
  others_kept : ∀ key, entry after key = entry before key

theorem renumbered_assignPositionKey (index : Nat) (metadata : DictMetadata) :
    Renumbered index metadata (assignPositionKey index metadata) where
  position_key := Dict.get?_set_self _ _ _
  hypernote_kept _ hkey := Dict.get?_set_of_ne _ _ hkey
  others_kept _ := rfl

/-- What the one function writes into a dict the other one writes into the shared document. -/
theorem toPy_assignPositionKeyYcell (index : Nat) (metadata : SharedMetadata) :
    toPy (assignPositionKeyYcell index metadata) = assignPositionKey index (toPy metadata) := by
  cases metadata with
  | absent => rfl
  | null => rfl
  | dict d =>
      obtain ⟨hypernote, others⟩ := d
      cases hypernote <;> rfl
  | map m =>
      obtain ⟨hypernote, others⟩ := m
      cases hypernote <;> rfl

theorem Renumbered.of_same {index : Nat} {m m' after : DictMetadata} (h : Renumbered index m after)
    (hsame : SameEntries m m') : Renumbered index m' after where
  position_key := h.position_key
  hypernote_kept key hkey := (h.hypernote_kept key hkey).trans (hsame key).2
  others_kept key := (h.others_kept key).trans (hsame key).1

theorem Renumbered.to_same {index : Nat} {m after after' : DictMetadata}
    (h : Renumbered index m after) (hsame : SameEntries after' after) :
    Renumbered index m after' where
  position_key := (hsame _).2.trans h.position_key
  hypernote_kept key hkey := (hsame key).2.trans (h.hypernote_kept key hkey)
  others_kept key := (hsame key).1.trans (h.others_kept key)

theorem SameEntries.refl (m : DictMetadata) : SameEntries m m := fun _ => ⟨rfl, rfl⟩

/-! ## All cells -/

variable {ι ω : Type}

/-- The metadata of the document's cells. -/
def metadataOf (ycells : List (YCell ι ω)) : List DictMetadata :=
  ycells.map fun ycell => ycell.toPy.metadata

/-- The keys are those of the positions, and no other entry has changed. -/
def AllRenumbered (before after : List DictMetadata) : Prop :=
  List.Forall₂ (fun b a => Renumbered b.2 b.1 a) before.zipIdx after

theorem forall₂_mapIdx {α β : Type} {R : α × Nat → β → Prop} {f : Nat → α → β}
    (hf : ∀ index a, R (a, index) (f index a)) (as : List α) :
    List.Forall₂ R as.zipIdx (as.mapIdx f) := by
  rw [List.mapIdx_eq_zipIdx_map]
  exact List.forall₂_map_right_iff.mpr (List.forall₂_same.mpr fun entry _ => hf entry.2 entry.1)

/-- The dict version and the version of the shared document assign the same. -/
theorem map_toPy_assignPositionKeysYcells (ycells : List (YCell ι ω)) :
    (assignPositionKeysYcells ycells).map YCell.toPy =
      assignPositionKeys (ycells.map YCell.toPy) := by
  unfold assignPositionKeysYcells assignPositionKeys
  apply List.ext_getElem
  · simp only [List.length_map, List.length_mapIdx]
  · intro index h h'
    simp only [List.getElem_map, List.getElem_mapIdx, YCell.toPy, toPy_assignPositionKeyYcell]

theorem map_metadata_assignPositionKeys (cells : List (DictCell ι ω)) :
    (assignPositionKeys cells).map Cell.metadata =
      (cells.map Cell.metadata).mapIdx assignPositionKey := by
  unfold assignPositionKeys
  apply List.ext_getElem
  · simp only [List.length_map, List.length_mapIdx]
  · intro index h h'
    simp only [List.getElem_map, List.getElem_mapIdx]

theorem metadataOf_eq (ycells : List (YCell ι ω)) :
    metadataOf ycells = (ycells.map YCell.toPy).map Cell.metadata := by
  rw [List.map_map]
  rfl

theorem metadataOf_assignPositionKeysYcells (ycells : List (YCell ι ω)) :
    metadataOf (assignPositionKeysYcells ycells) =
      (metadataOf ycells).mapIdx assignPositionKey := by
  rw [metadataOf_eq, map_toPy_assignPositionKeysYcells, map_metadata_assignPositionKeys,
    ← metadataOf_eq]

theorem allRenumbered_assign (ycells : List (YCell ι ω)) :
    AllRenumbered (metadataOf ycells) (metadataOf (assignPositionKeysYcells ycells)) := by
  rw [metadataOf_assignPositionKeysYcells]
  exact forall₂_mapIdx renumbered_assignPositionKey _

/-- Metadata of the same entries can stand for one another. -/
theorem AllRenumbered.of_same {before before' after : List DictMetadata}
    (h : AllRenumbered before after) (hsame : List.Forall₂ SameEntries before before') :
    AllRenumbered before' after := by
  have hrun : ∀ {before before' : List DictMetadata}, List.Forall₂ SameEntries before before' →
      ∀ {after : List DictMetadata} (start : Nat),
        List.Forall₂ (fun b a => Renumbered b.2 b.1 a) (before.zipIdx start) after →
          List.Forall₂ (fun b a => Renumbered b.2 b.1 a) (before'.zipIdx start) after := by
    intro before before' hsame
    induction hsame with
    | nil => intro after start h; exact h
    | cons hhead _ ih =>
        intro after start h
        cases h with
        | cons hfirst hrest => exact .cons (hfirst.of_same hhead) (ih _ hrest)
  exact hrun hsame 0 h

theorem AllRenumbered.to_same {before after after' : List DictMetadata}
    (h : AllRenumbered before after) (hsame : List.Forall₂ SameEntries after' after) :
    AllRenumbered before after' := by
  unfold AllRenumbered at h ⊢
  generalize before.zipIdx = entries at h ⊢
  induction h generalizing after' with
  | nil =>
      cases hsame
      exact .nil
  | cons hfirst _ ih =>
      cases hsame with
      | cons hhead hrest => exact .cons (hfirst.to_same hhead) (ih hrest)

/-! ## The edits before the numbering -/

theorem forall₂_insertIdx {α : Type} {R : α → α → Prop} (hrefl : ∀ a, R a a) {x y : α}
    (h : R x y) (as : List α) (index : Nat) :
    List.Forall₂ R (as.insertIdx index x) (as.insertIdx index y) := by
  induction as generalizing index with
  | nil =>
      cases index with
      | zero => exact .cons h .nil
      | succ index => exact .nil
  | cons a as ih =>
      cases index with
      | zero => exact .cons h (List.forall₂_same.mpr fun a _ => hrefl a)
      | succ index => exact .cons (hrefl a) (ih index)

theorem forall₂_modify {α β : Type} {R : β → β → Prop} (hrefl : ∀ b, R b b) {f : α → α} {g : α → β}
    (hf : ∀ a, R (g (f a)) (g a)) (as : List α) (index : Nat) :
    List.Forall₂ R ((as.modify index f).map g) (as.map g) := by
  induction as generalizing index with
  | nil =>
      rw [List.modify_nil]
      exact .nil
  | cons a as ih =>
      cases index with
      | zero => exact .cons (hf a) (List.forall₂_same.mpr fun b _ => hrefl b)
      | succ index => exact .cons (hrefl (g a)) (ih index)

variable {lib : Library ι ω}

theorem same_written (hlib : lib.Lawful) {change : DictCell ι ω → DictCell ι ω}
    (hchange : ∀ cell, (change cell).metadata = cell.metadata) (ycells : List (YCell ι ω))
    (index : Nat) :
    List.Forall₂ SameEntries
      (metadataOf (ycells.modify index fun ycell => lib.createYcell (change ycell.toPy)))
      (metadataOf ycells) := by
  apply forall₂_modify SameEntries.refl
  intro ycell
  have hcreated := (hlib.createYcell (change ycell.toPy)).2
  rwa [hchange] at hcreated

section

variable [DecidableEq ι] {ycells ycells' : List (YCell ι ω)} {cellId : ι} {before after : Option ι}
  {result cell : DictCell ι ω}

theorem rewriteCell_renumbers (hlib : lib.Lawful) {change : DictCell ι ω → DictCell ι ω}
    (hchange : ∀ cell, (change cell).metadata = cell.metadata)
    (h : lib.rewriteCell cellId change ycells = (.ok result, ycells')) :
    AllRenumbered (metadataOf ycells) (metadataOf ycells') := by
  unfold Library.rewriteCell at h
  split at h
  · cases h
  · obtain ⟨-, rfl⟩ := Prod.mk.inj h
    exact (allRenumbered_assign _).of_same (same_written hlib hchange ycells _)

theorem resolveInsertIndex_le {cells : List (DictCell ι ω)} {index : Nat}
    (h : resolveInsertIndex cells before after = .ok index) : index ≤ cells.length := by
  cases before with
  | some before =>
      obtain ⟨found, -, rfl⟩ := exists_of_map_ok h
      exact found.isLt.le
  | none =>
      cases after with
      | some after =>
          obtain ⟨found, -, rfl⟩ := exists_of_map_ok h
          exact found.isLt
      | none => exact (Except.ok.inj h) ▸ le_refl _

theorem insertCell_renumbers (hlib : lib.Lawful)
    (h : lib.insertCell cell before after ycells = (.ok result, ycells')) :
    ∃ index, resolveInsertIndex (ycells.map YCell.toPy) before after = .ok index ∧
      AllRenumbered ((metadataOf ycells).insertIdx index cell.metadata) (metadataOf ycells') := by
  unfold Library.insertCell at h
  split at h
  · cases h
  · split at h
    · cases h
    · rename_i index hindex
      obtain ⟨-, rfl⟩ := Prod.mk.inj h
      refine ⟨index, hindex, ?_⟩
      have hle : index ≤ ycells.length := by
        have hbound := resolveInsertIndex_le hindex
        rwa [List.length_map] at hbound
      rw [append_or_insertIdx hle]
      apply (allRenumbered_assign _).of_same
      rw [metadataOf, List.map_insertIdx]
      exact forall₂_insertIdx SameEntries.refl (hlib.createYcell cell).2 _ index

omit [DecidableEq ι] in
theorem findIndex_eq_ok {α : Type} [DecidableEq ι] {idOf : α → Option ι} {cells : List α}
    {index : Fin cells.length} (h : findIndex idOf cells cellId = .ok index) :
    idOf (cells.get index) = some cellId := by
  unfold findIndex at h
  split at h
  · rename_i found hfound
    obtain rfl := Except.ok.inj h
    exact of_decide_eq_true (List.findFinIdx?_eq_some_iff.mp hfound).1
  · cases h

theorem deleteCell_renumbers (h : deleteCell cellId ycells = (.ok (), ycells')) :
    ∃ index ycell, ycells[index]? = some ycell ∧ ycell.id = some cellId ∧
      AllRenumbered ((metadataOf ycells).eraseIdx index) (metadataOf ycells') := by
  unfold deleteCell at h
  split at h
  · cases h
  · rename_i index hindex
    obtain ⟨-, rfl⟩ := Prod.mk.inj h
    refine ⟨index, ycells[index], List.getElem?_eq_getElem index.isLt, findIndex_eq_ok hindex, ?_⟩
    rw [metadataOf, List.eraseIdx_map]
    exact allRenumbered_assign _

omit [DecidableEq ι] in
/-- What `aset` is given comes to the document. -/
theorem aset_same (hlib : lib.Lawful) {cells : List (DictCell ι ω)} (hne : cells ≠ [])
    (ycells : List (YCell ι ω)) :
    List.Forall₂ SameEntries (metadataOf (lib.aset cells ycells)) (cells.map Cell.metadata) := by
  apply List.forall₂_map_left_iff.mpr
  apply List.forall₂_map_right_iff.mpr
  exact (hlib.aset cells ycells hne).imp fun _ _ h => h.2

theorem moveCell_renumbers (hlib : lib.Lawful)
    (h : lib.moveCell cellId before after ycells = (.ok result, ycells')) :
    ∃ index target ycell, ycells[index]? = some ycell ∧ ycell.id = some cellId ∧
      resolveInsertIndex ((ycells.map YCell.toPy).eraseIdx index) before after = .ok target ∧
      AllRenumbered
        (((metadataOf ycells).eraseIdx index).insertIdx target ycell.toPy.metadata)
        (metadataOf ycells') := by
  unfold Library.moveCell at h
  cases hvalid : validatePosition before after with
  | error error => simp [hvalid, bind, Except.bind] at h
  | ok _ =>
      cases hfind : findIndex Cell.id (ycells.map YCell.toPy) cellId with
      | error error => simp [hvalid, hfind, bind, Except.bind] at h
      | ok index =>
          cases htarget : resolveInsertIndex ((ycells.map YCell.toPy).eraseIdx index) before
              after with
          | error error => simp [hvalid, hfind, htarget, bind, Except.bind] at h
          | ok target =>
              simp only [hvalid, hfind, htarget, bind, Except.bind, pure, Except.pure] at h
              obtain ⟨-, rfl⟩ := Prod.mk.inj h
              have hlt : (index : Nat) < ycells.length :=
                lt_of_lt_of_eq index.isLt (List.length_map _)
              have hid := findIndex_eq_ok hfind
              rw [List.get_eq_getElem, List.getElem_map] at hid
              refine ⟨index, target, ycells[(index : Nat)], List.getElem?_eq_getElem hlt, hid,
                htarget, ?_⟩
              have hne : assignPositionKeys (((ycells.map YCell.toPy).eraseIdx index).insertIdx
                  target (ycells.map YCell.toPy)[index]) ≠ [] := by
                intro hempty
                have hlen := congrArg List.length hempty
                rw [assignPositionKeys, List.length_mapIdx,
                  List.length_insertIdx_of_le_length (resolveInsertIndex_le htarget)] at hlen
                cases hlen
              refine AllRenumbered.to_same ?_ (aset_same hlib hne ycells)
              rw [map_metadata_assignPositionKeys, List.map_insertIdx, ← List.eraseIdx_map,
                ← metadataOf_eq, Fin.getElem_fin, List.getElem_map]
              exact forall₂_mapIdx renumbered_assignPositionKey _

/-- Every edit of the document leaves each cell with the key of its position and all other entries
as they were, and both ways of numbering assign the same. -/
structure PositionsRestored (lib : Library ι ω) (ycells : List (YCell ι ω)) : Prop where
  insertCell : ∀ cell before after result ycells',
    lib.insertCell cell before after ycells = (.ok result, ycells') →
      ∃ index, resolveInsertIndex (ycells.map YCell.toPy) before after = .ok index ∧
        AllRenumbered ((metadataOf ycells).insertIdx index cell.metadata) (metadataOf ycells')
  replaceCellSource : ∀ cellId source result ycells',
    lib.replaceCellSource cellId source ycells = (.ok result, ycells') →
      AllRenumbered (metadataOf ycells) (metadataOf ycells')
  clearOutputs : ∀ cellId result ycells',
    lib.clearOutputs cellId ycells = (.ok result, ycells') →
      AllRenumbered (metadataOf ycells) (metadataOf ycells')
  deleteCell : ∀ cellId ycells', deleteCell cellId ycells = (.ok (), ycells') →
    ∃ index ycell, ycells[index]? = some ycell ∧ ycell.id = some cellId ∧
      AllRenumbered ((metadataOf ycells).eraseIdx index) (metadataOf ycells')
  moveCell : ∀ cellId before after result ycells',
    lib.moveCell cellId before after ycells = (.ok result, ycells') →
      ∃ index target ycell, ycells[index]? = some ycell ∧ ycell.id = some cellId ∧
        resolveInsertIndex ((ycells.map YCell.toPy).eraseIdx index) before after = .ok target ∧
        AllRenumbered
          (((metadataOf ycells).eraseIdx index).insertIdx target ycell.toPy.metadata)
          (metadataOf ycells')
  agree : (assignPositionKeysYcells ycells).map YCell.toPy =
    assignPositionKeys (ycells.map YCell.toPy)

theorem positions_restored (hlib : lib.Lawful) (ycells : List (YCell ι ω)) :
    PositionsRestored lib ycells where
  insertCell _ _ _ _ _ h := insertCell_renumbers hlib h
  replaceCellSource _ _ _ _ h := by
    refine rewriteCell_renumbers hlib ?_ h
    exact fun _ => rfl
  clearOutputs _ _ _ h := by
    refine rewriteCell_renumbers hlib ?_ h
    exact fun _ => rfl
  deleteCell _ _ h := deleteCell_renumbers h
  moveCell _ _ _ _ _ h := moveCell_renumbers hlib h
  agree := map_toPy_assignPositionKeysYcells ycells

end

/-- A library that makes a `Map` of the metadata and writes every cell anew. -/
def Library.plain (ι ω : Type) : Library ι ω :=
  let createYcell := fun cell : DictCell ι ω =>
    { cell with
      metadata := .map
        ((SharedSlot.ofSlot cell.metadata : SharedMetadata).toMap
          (fun d => ⟨.ofSlot d.hypernote, d.others⟩) ⟨.absent, .empty⟩) }
  ⟨createYcell, fun cells _ => cells.map createYcell⟩

theorem Library.plain_lawful (ι ω : Type) : (Library.plain ι ω).Lawful := by
  have hcreate : ∀ cell : DictCell ι ω,
      { ((Library.plain ι ω).createYcell cell).toPy with metadata := cell.metadata } = cell ∧
        SameEntries ((Library.plain ι ω).createYcell cell).toPy.metadata cell.metadata := by
    intro cell
    refine ⟨rfl, fun key => ?_⟩
    obtain ⟨id, cellType, source, outputs, executionCount, metadata⟩ := cell
    cases metadata with
    | absent => exact ⟨rfl, rfl⟩
    | null => exact ⟨rfl, rfl⟩
    | dict d =>
        obtain ⟨hypernote, others⟩ := d
        cases hypernote <;> exact ⟨rfl, rfl⟩
  refine ⟨hcreate, fun cells ycells _ => ?_⟩
  exact List.forall₂_map_left_iff.mpr (List.forall₂_same.mpr fun cell _ => hcreate cell)

/-- A notebook whose metadata is null, a dict with a null and a `Map` with a stale key. -/
theorem mixed_metadata_restored :
    PositionsRestored (Library.plain String String)
      [⟨some "a", "code", [], [], none, .null⟩,
        ⟨some "b", "code", [], [], none, .dict ⟨.null, Dict.empty.set "tags" (.arr [])⟩⟩,
        ⟨some "c", "code", [], [], none,
          .map ⟨.dict (Dict.empty.set "position_key" (.str "000000000")), .empty⟩⟩] :=
  positions_restored (Library.plain_lawful String String) _

/-! ## Without the metadata -/

/-- The cell as `SharedNotebook` has it. -/
def DictCell.abstract (cell : DictCell ι ω) :
    Hypernote.Cell ι ω ((String → Option Json) × (String → Option Json)) where
  id := cell.id
  cellType := cell.cellType
  source := cell.source
  outputs := cell.outputs
  executionCount := cell.executionCount
  positionKey :=
    match hypernoteEntry cell.metadata "position_key" with
    | some (.str key) => some key
    | _ => none
  metadata :=
    (entry cell.metadata, fun key =>
      if key = "position_key" then none else hypernoteEntry cell.metadata key)

theorem abstract_assignPositionKey (index : Nat) (cell : DictCell ι ω) :
    DictCell.abstract { cell with metadata := assignPositionKey index cell.metadata } =
      { cell.abstract with positionKey := some (positionKeyOf index) } := by
  have hnumbered := renumbered_assignPositionKey index cell.metadata
  unfold DictCell.abstract
  simp only [hnumbered.position_key, Hypernote.Cell.mk.injEq, true_and, Prod.mk.injEq]
  constructor
  · funext key
    exact hnumbered.others_kept key
  · funext key
    by_cases hkey : key = "position_key"
    · rw [if_pos hkey, if_pos hkey]
    · rw [if_neg hkey, if_neg hkey, hnumbered.hypernote_kept key hkey]

/-- The numbering is the one of `SharedNotebook`. -/
theorem map_abstract_assignPositionKeys (cells : List (DictCell ι ω)) :
    (assignPositionKeys cells).map DictCell.abstract =
      Hypernote.assignPositionKeys (cells.map DictCell.abstract) := by
  unfold assignPositionKeys Hypernote.assignPositionKeys
  apply List.ext_getElem
  · simp only [List.length_map, List.length_mapIdx]
  · intro index h h'
    simp only [List.getElem_map, List.getElem_mapIdx, abstract_assignPositionKey]

end Numbered

end Hypernote
