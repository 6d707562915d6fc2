import Hypernote.Proofs.SnapshotTokens
/-!
# Which cells a diff calls moved

A diff compares what has been recorded as the orders of a cell: its position key, which Hypernote
alone maintains, or its index where it has none.
-/

namespace Hypernote

open Foundation

namespace Sdk

namespace Untyped

variable {F : FloatValues} {sha256 : String → String} {B C : List JsonCell} {b c : JsonCell}
  {j i : Nat}

/-- The same is recorded as the order of the two cells at their places. -/
def SameOrder (F : FloatValues) (b : JsonCell) (j : Nat) (c : JsonCell) (i : Nat) : Prop :=
  ∃ order order', orderOf F b j = .ok order ∧ orderOf F c i = .ok order' ∧
    order.pyEq F order' = true

/-- The changes list the cell as moved. -/
def ListsMoved (changes : List Change) (c : JsonCell) : Prop :=
  ∃ changeKinds, .cell c changeKinds ∈ changes ∧ .moved ∈ changeKinds

/-! ## The entry of a cell -/

theorem map_id_of_snapshotCells {cells : List JsonCell} {entries : List SnapshotCell}
    (h : snapshotCells F sha256 cells = .ok entries) :
    entries.map (·.id) = cells.map (·.id) := by
  have hids : List.Forall₂ (fun (entry : JsonCell × Nat) (e : SnapshotCell) => entry.1.id = e.id)
      cells.zipIdx entries := by
    apply (forall₂_snapshotCells h).imp
    intro entry e he
    obtain ⟨order, -, rfl⟩ := snapshotCell_eq_ok he
    rfl
  have hmap := List.forall₂_eq_eq_eq ▸ List.forall₂_map_left_iff.mpr
    (List.forall₂_map_right_iff.mpr hids)
  rw [← hmap, show (fun entry : JsonCell × Nat => entry.1.id) = (·.id) ∘ Prod.fst from rfl,
    ← List.map_map, List.zipIdx_map_fst]

theorem exists_entry_of_mem {cells : List JsonCell} {entries : List SnapshotCell}
    (h : snapshotCells F sha256 cells = .ok entries) (hc : (c, i) ∈ cells.zipIdx) :
    ∃ order, orderOf F c i = .ok order ∧ snapshotCellOf sha256 c order ∈ entries := by
  have hforall := forall₂_snapshotCells h
  obtain ⟨index, hindex, heq⟩ := List.getElem_of_mem hc
  have hlength : index < entries.length := hforall.length_eq ▸ hindex
  have hentry := hforall.get hindex hlength
  rw [List.get_eq_getElem, heq] at hentry
  obtain ⟨order, horder, hget⟩ := snapshotCell_eq_ok hentry
  exact ⟨order, horder, hget ▸ List.get_mem entries ⟨index, hlength⟩⟩

/-- Where ids are distinct an entry is found by its id. -/
theorem get?_byId_of_mem {entries : List SnapshotCell} (hnodup : (entries.map (·.id)).Nodup)
    {entry : SnapshotCell} (hmem : entry ∈ entries) :
    (byId entries).get? entry.id = some entry := by
  have hlast : ∀ last, (byId entries).get? entry.id = some last → last = entry := by
    intro last hget
    rw [get?_byId] at hget
    have hmem' := List.mem_reverse.mp (List.mem_of_find?_eq_some hget)
    have hid : last.id = entry.id := by simpa using List.find?_some hget
    exact List.inj_on_of_nodup_map hnodup hmem' hmem hid
  obtain ⟨last, -, hget⟩ := exists_get?_byId hmem
  rw [hget, hlast last hget]

/-! ## The change kinds -/

theorem moved_mem_changeKindsOf {entry entry' : SnapshotCell} :
    .moved ∈ changeKindsOf F (some entry) entry' ↔ entry.order.pyEq F entry'.order = false := by
  have hother : ∀ (kind : ChangeKind) {p : Prop} [Decidable p], kind ≠ .moved →
      ChangeKind.moved ∉ if p then [kind] else [] := by
    intro kind p _ hkind
    split
    · simpa using Ne.symm hkind
    · exact List.not_mem_nil
  unfold changeKindsOf
  simp only [List.mem_append, hother .sourceEdited (by decide), hother .outputChanged (by decide),
    hother .executionCount (by decide), or_false]
  cases entry.order.pyEq F entry'.order with
  | true => simp
  | false => simp

theorem mem_changedCells {baselineById currentById : Dict CellId SnapshotCell}
    {cells : List JsonCell} {changes : List Change} {changeKinds : List ChangeKind}
    (h : changedCells F baselineById currentById cells = .ok changes) :
    .cell c changeKinds ∈ changes ↔
      c ∈ cells ∧ changeKinds ≠ [] ∧ ∃ entry, currentById.get? c.id = some entry ∧
        changeKinds = changeKindsOf F (baselineById.get? c.id) entry := by
  induction cells generalizing changes with
  | nil =>
      obtain rfl := Except.ok.inj h
      simp
  | cons cell cells ih =>
      rw [changedCells] at h
      cases hentry : currentById.get? cell.id with
      | none => simp [hentry, bind, Except.bind] at h
      | some entry =>
          cases hrest : changedCells F baselineById currentById cells with
          | error error => simp [hentry, hrest, bind, Except.bind] at h
          | ok rest =>
              simp only [hentry, hrest, bind, Except.bind, Option.elim_some, pure, Except.pure,
                Except.ok.injEq] at h
              have hhead : (c = cell ∧ changeKinds ≠ [] ∧ ∃ entry,
                  currentById.get? c.id = some entry ∧
                    changeKinds = changeKindsOf F (baselineById.get? c.id) entry) ↔
                  c = cell ∧ changeKindsOf F (baselineById.get? cell.id) entry ≠ [] ∧
                    changeKinds = changeKindsOf F (baselineById.get? cell.id) entry := by
                constructor
                · rintro ⟨rfl, hne, entry', hentry', rfl⟩
                  obtain rfl := Option.some.inj (hentry.symm.trans hentry')
                  exact ⟨rfl, hne, rfl⟩
                · rintro ⟨rfl, hne, rfl⟩
                  exact ⟨rfl, hne, entry, hentry, rfl⟩
              rw [List.mem_cons, or_and_right, hhead, ← ih hrest, ← h]
              by_cases hkinds : changeKindsOf F (baselineById.get? cell.id) entry = []
              · simp [hkinds]
              · simp [hkinds]

/-! ## The diff -/

/-- The comparison, from the entries of both notebooks on. -/
theorem changesSince_writeToken {baseline current : List SnapshotCell}
    (hbaseline : snapshotCells F sha256 B = .ok baseline)
    (hcurrent : snapshotCells F sha256 C = .ok current) :
    changesSince F sha256 C (writeToken baseline) =
      (changedCells F (byId (baseline.map SnapshotCell.sorted)) (byId current) C).map
        (· ++ deletedCells (byId (baseline.map SnapshotCell.sorted)) (byId current)) := by
  have hdecode := decode_writeToken fun entry hentry =>
    (snapshotCells_wellFormed hbaseline hentry).1
  unfold changesSince encodeSnapshotToken
  rw [hcurrent, hdecode]
  cases hchanged : changedCells F (byId (baseline.map SnapshotCell.sorted)) (byId current) C with
  | error error => simp [hchanged, Except.map, bind, Except.bind]
  | ok changed => simp [hchanged, Except.map, bind, Except.bind, pure, Except.pure]

theorem changesSince_eq_ok {token : String} {changes : List Change}
    (htoken : encodeSnapshotToken F sha256 B = .ok token)
    (h : changesSince F sha256 C token = .ok changes) :
    ∃ baseline current changed, snapshotCells F sha256 B = .ok baseline ∧
      snapshotCells F sha256 C = .ok current ∧
      changedCells F (byId (baseline.map SnapshotCell.sorted)) (byId current) C = .ok changed ∧
      changes = changed ++
        deletedCells (byId (baseline.map SnapshotCell.sorted)) (byId current) := by
  unfold encodeSnapshotToken at htoken
  cases hbaseline : snapshotCells F sha256 B with
  | error error => simp [hbaseline, Except.map] at htoken
  | ok baseline =>
      simp only [hbaseline, Except.map, Except.ok.injEq] at htoken
      subst htoken
      cases hcurrent : snapshotCells F sha256 C with
      | error error =>
          simp [changesSince, encodeSnapshotToken, hcurrent, Except.map, bind, Except.bind] at h
      | ok current =>
          rw [changesSince_writeToken hbaseline hcurrent] at h
          cases hchanged : changedCells F (byId (baseline.map SnapshotCell.sorted))
              (byId current) C with
          | error error => simp [hchanged, Except.map] at h
          | ok changed =>
              simp only [hchanged, Except.map, Except.ok.injEq] at h
              exact ⟨baseline, current, changed, rfl, rfl, hchanged, h.symm⟩

/-- A cell that both notebooks have is listed as moved if and only if its recorded orders
differ. -/
theorem listsMoved_iff (hB : (B.map (·.id)).Nodup) (hC : (C.map (·.id)).Nodup) {token : String}
    {changes : List Change} (htoken : encodeSnapshotToken F sha256 B = .ok token)
    (h : changesSince F sha256 C token = .ok changes) (hb : (b, j) ∈ B.zipIdx)
    (hc : (c, i) ∈ C.zipIdx) (hid : b.id = c.id) :
    ListsMoved changes c ↔ ¬ SameOrder F b j c i := by
  obtain ⟨baseline, current, changed, hbaseline, hcurrent, hchanged, rfl⟩ :=
    changesSince_eq_ok htoken h
  obtain ⟨order, horder, hbmem⟩ := exists_entry_of_mem hbaseline hb
  obtain ⟨order', horder', hcmem⟩ := exists_entry_of_mem hcurrent hc
  have hbaselineEntry : (byId (baseline.map SnapshotCell.sorted)).get? c.id =
      some (snapshotCellOf sha256 b order).sorted := by
    have hget := get?_byId_of_mem (map_id_of_snapshotCells hbaseline ▸ hB) hbmem
    rw [get?_byId_sorted, ← hid, show b.id = (snapshotCellOf sha256 b order).id from rfl, hget]
    rfl
  have hcurrentEntry : (byId current).get? c.id = some (snapshotCellOf sha256 c order') :=
    get?_byId_of_mem (map_id_of_snapshotCells hcurrent ▸ hC) hcmem
  have hmember : ∀ changeKinds, Change.cell c changeKinds ∈
      changed ++ deletedCells (byId (baseline.map SnapshotCell.sorted)) (byId current) ↔
        .cell c changeKinds ∈ changed := by
    intro changeKinds
    rw [List.mem_append, or_iff_left]
    intro hdeleted
    obtain ⟨entry, -, hentry⟩ := List.mem_filterMap.mp hdeleted
    split at hentry <;> cases hentry
  have hmoved : ListsMoved (changed ++
      deletedCells (byId (baseline.map SnapshotCell.sorted)) (byId current)) c ↔
      .moved ∈ changeKindsOf F (some (snapshotCellOf sha256 b order).sorted)
        (snapshotCellOf sha256 c order') := by
    constructor
    · rintro ⟨changeKinds, hmem, hkind⟩
      obtain ⟨-, -, entry, hentry, rfl⟩ := (mem_changedCells hchanged).mp ((hmember _).mp hmem)
      obtain rfl := Option.some.inj (hcurrentEntry.symm.trans hentry)
      rwa [hbaselineEntry] at hkind
    · intro hkind
      refine ⟨_, (hmember _).mpr ((mem_changedCells hchanged).mpr ⟨List.fst_mem_of_mem_zipIdx hc,
        List.ne_nil_of_mem hkind, _, hcurrentEntry, ?_⟩), hkind⟩
      rw [hbaselineEntry]
  have hpyEq : (snapshotCellOf sha256 b order).sorted.order.pyEq F
      (snapshotCellOf sha256 c order').order = order.pyEq F order' :=
    (Json.same_sortKeys order).pyEq_eq order'
  have hsame : SameOrder F b j c i ↔ order.pyEq F order' = true := by
    constructor
    · rintro ⟨o, o', ho, ho', heq⟩
      obtain rfl := Except.ok.inj (horder.symm.trans ho)
      obtain rfl := Except.ok.inj (horder'.symm.trans ho')
      exact heq
    · intro heq
      exact ⟨order, order', horder, horder', heq⟩
  rw [hmoved, moved_mem_changeKindsOf, hpyEq, hsame, Bool.not_eq_true]

/-- A diff calls exactly the cells moved whose index has changed if and only if, for every cell that
both notebooks have, the recorded orders are the same exactly if the indexes are. -/
theorem moved_iff_index_changed_iff (F : FloatValues) (sha256 : String → String)
    (B C : List JsonCell) (hB : (B.map (·.id)).Nodup) (hC : (C.map (·.id)).Nodup) (token : String)
    (changes : List Change) (htoken : encodeSnapshotToken F sha256 B = .ok token)
    (h : changesSince F sha256 C token = .ok changes) :
    (∀ b j c i, (b, j) ∈ B.zipIdx → (c, i) ∈ C.zipIdx → b.id = c.id →
        (ListsMoved changes c ↔ i ≠ j)) ↔
      ∀ b j c i, (b, j) ∈ B.zipIdx → (c, i) ∈ C.zipIdx → b.id = c.id →
        (SameOrder F b j c i ↔ i = j) := by
  refine forall₄_congr fun b j c i => forall₃_congr fun hb hc hid => ?_
  rw [listsMoved_iff hB hC htoken h hb hc hid, ne_eq, not_iff_not]

/-- Position keys that are missing or true to the position meet the condition. -/
theorem sameOrder_iff_of_fresh (hb : orderOf F b j = .ok (.str (positionKeyOf j)))
    (hc : orderOf F c i = .ok (.str (positionKeyOf i))) : SameOrder F b j c i ↔ i = j := by
  constructor
  · rintro ⟨order, order', horder, horder', heq⟩
    obtain rfl := Except.ok.inj (hb.symm.trans horder)
    obtain rfl := Except.ok.inj (hc.symm.trans horder')
    exact positionKeyOf_injective (of_decide_eq_true heq).symm
  · rintro rfl
    exact ⟨_, _, hb, hc, decide_eq_true rfl⟩

/-- A cell with a position key, or without one. -/
private def keyedCell (id : CellId) (key : Option String) : JsonCell where
  id := id
  cellType := none
  source := none
  outputs := none
  executionCount := none
  metadata := key.map fun key => .obj [("hypernote", .obj [("position_key", .str key)])]
  unique_keys := by
    intro x hx
    obtain ⟨key, -, rfl⟩ := Option.map_eq_some_iff.mp hx
    simp [Json.UniqueKeys, Json.UniqueMembers]
  no_nan := by
    intro x hx
    obtain ⟨key, -, rfl⟩ := Option.map_eq_some_iff.mp hx
    simp [Json.NoNaN, Json.NoNaNMembers]

private def keyedBefore : List JsonCell := [keyedCell "a" none, keyedCell "b" (some "000000001")]

private def keyedAfter : List JsonCell :=
  [keyedCell "b" (some "000000000"), keyedCell "a" (some "000000001")]

/-- Two cells that Hypernote has exchanged. -/
theorem exchanged_cells_moved :
    ∃ token changes, encodeSnapshotToken .byText id keyedBefore = .ok token ∧
      changesSince .byText id keyedAfter token = .ok changes ∧
      ListsMoved changes (keyedCell "a" (some "000000001")) ∧
      ListsMoved changes (keyedCell "b" (some "000000000")) := by
  have hcondition : ∀ b j c i, (b, j) ∈ keyedBefore.zipIdx → (c, i) ∈ keyedAfter.zipIdx →
      b.id = c.id → (SameOrder .byText b j c i ↔ i = j) := by
    intro b j c i hb hc _
    simp only [keyedBefore, keyedAfter, List.zipIdx_cons, List.zipIdx_nil, List.mem_cons,
      List.not_mem_nil, or_false, Prod.mk.injEq] at hb hc
    rcases hb with ⟨rfl, rfl⟩ | ⟨rfl, rfl⟩ <;> rcases hc with ⟨rfl, rfl⟩ | ⟨rfl, rfl⟩ <;>
      exact sameOrder_iff_of_fresh rfl rfl
  obtain ⟨token, changes, htoken, hchanges⟩ : ∃ token changes,
      encodeSnapshotToken .byText id keyedBefore = .ok token ∧
        changesSince .byText id keyedAfter token = .ok changes :=
    ⟨_, _, rfl, (changesSince_writeToken (B := keyedBefore) rfl rfl).trans rfl⟩
  have hmoved := (moved_iff_index_changed_iff .byText id keyedBefore keyedAfter (by decide)
    (by decide) token changes htoken hchanges).mpr hcondition
  refine ⟨token, changes, htoken, hchanges, ?_, ?_⟩
  · exact (hmoved (keyedCell "a" none) 0 (keyedCell "a" (some "000000001")) 1
      (by simp [keyedBefore]) (by simp [keyedAfter]) rfl).mpr (by decide)
  · exact (hmoved (keyedCell "b" (some "000000001")) 1 (keyedCell "b" (some "000000000")) 0
      (by simp [keyedBefore]) (by simp [keyedAfter]) rfl).mpr (by decide)

/-- The cells of a notebook before and after an editor exchanges them and leaves the position keys
as they are. -/
private def staleBefore : List JsonCell :=
  [keyedCell "a" (some "000000000"), keyedCell "b" (some "000000001")]

/-- Nothing is listed. -/
theorem stale_keys_not_moved :
    ∃ token, encodeSnapshotToken .byText id staleBefore = .ok token ∧
      changesSince .byText id staleBefore.reverse token = .ok [] :=
  ⟨_, rfl, (changesSince_writeToken (B := staleBefore) rfl rfl).trans rfl⟩

end Untyped

end Sdk

end Hypernote
