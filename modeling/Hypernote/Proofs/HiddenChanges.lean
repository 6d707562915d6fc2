import Hypernote.Proofs.MovedCells
/-!
# Which changes a diff does not show

A token carries everything that a snapshot records of the cells, in their sequence.  A diff compares
the recorded entries by id and does not look at their types, nor at the sequence, and it compares the
orders as Python does.
-/

namespace Hypernote

open Foundation

namespace Sdk

namespace Untyped

variable {F : FloatValues} {sha256 : String → String} {B C : List JsonCell} {b c : JsonCell}
  {j i : Nat}

/-- Everything that a diff compares is the same for the two cells at their places. -/
structure ComparedAlike (F : FloatValues) (sha256 : String → String) (b : JsonCell) (j : Nat)
    (c : JsonCell) (i : Nat) : Prop where
  order : SameOrder F b j c i
  source : sha256 (String.ofList b.cellSource) = sha256 (String.ofList c.cellSource)
  outputs : sha256 (b.outputs.getD (.arr [])).dumpsSorted =
    sha256 (c.outputs.getD (.arr [])).dumpsSorted
  count : b.executionCount = c.executionCount

/-- What is recorded beyond that is the same: the type, and the order as it is written. -/
structure RecordedAlike (F : FloatValues) (b : JsonCell) (j : Nat) (c : JsonCell) (i : Nat) :
    Prop where
  type : b.cellType.getD CellType.code.value = c.cellType.getD CellType.code.value
  order : ∃ order order', orderOf F b j = .ok order ∧ orderOf F c i = .ok order' ∧
    order.sortKeys = order'.sortKeys

/-- All pairs of a cell of one notebook and the cell of the other one that has its id. -/
def ForCommonCells (B C : List JsonCell) (P : JsonCell → Nat → JsonCell → Nat → Prop) : Prop :=
  ∀ b j c i, (b, j) ∈ B.zipIdx → (c, i) ∈ C.zipIdx → b.id = c.id → P b j c i

/-! ## The entries of two notebooks -/

theorem exists_cell_of_mem {cells : List JsonCell} {entries : List SnapshotCell}
    (h : snapshotCells F sha256 cells = .ok entries) {entry : SnapshotCell} (hmem : entry ∈ entries) :
    ∃ c i order, (c, i) ∈ cells.zipIdx ∧ orderOf F c i = .ok order ∧
      entry = snapshotCellOf sha256 c order := by
  have hforall := forall₂_snapshotCells h
  obtain ⟨index, hindex, rfl⟩ := List.getElem_of_mem hmem
  have hlength : index < cells.zipIdx.length := hforall.length_eq.symm ▸ hindex
  have hentry := hforall.get hlength hindex
  obtain ⟨order, horder, heq⟩ := snapshotCell_eq_ok hentry
  exact ⟨_, _, order, List.get_mem cells.zipIdx ⟨index, hlength⟩, horder, heq⟩

/-- What holds of all cells with a common id is a fact about the entries with a common id. -/
theorem forCommonCells_iff {baseline current : List SnapshotCell}
    {P : JsonCell → Nat → JsonCell → Nat → Prop} {Q : SnapshotCell → SnapshotCell → Prop}
    (hB : snapshotCells F sha256 B = .ok baseline) (hC : snapshotCells F sha256 C = .ok current)
    (hPQ : ∀ b j c i order order', orderOf F b j = .ok order → orderOf F c i = .ok order' →
      (P b j c i ↔ Q (snapshotCellOf sha256 b order) (snapshotCellOf sha256 c order'))) :
    ForCommonCells B C P ↔ ∀ e ∈ baseline, ∀ e' ∈ current, e.id = e'.id → Q e e' := by
  constructor
  · intro hP e he e' he' hid
    obtain ⟨b, j, order, hb, horder, rfl⟩ := exists_cell_of_mem hB he
    obtain ⟨c, i, order', hc, horder', rfl⟩ := exists_cell_of_mem hC he'
    exact (hPQ b j c i order order' horder horder').mp (hP b j c i hb hc hid)
  · intro hQ b j c i hb hc hid
    obtain ⟨order, horder, hbmem⟩ := exists_entry_of_mem hB hb
    obtain ⟨order', horder', hcmem⟩ := exists_entry_of_mem hC hc
    exact (hPQ b j c i order order' horder horder').mpr (hQ _ hbmem _ hcmem hid)

/-! ## Equal tokens -/

theorem sortKeys_toJson_sorted (entry : SnapshotCell) :
    entry.sorted.toJson.sortKeys = entry.toJson.sortKeys := by
  rw [sortKeys_toJson, sortKeys_toJson]
  simp only [SnapshotCell.sorted, Json.sortKeys_sortKeys]

theorem sortItems_toJson_sorted (entries : List SnapshotCell) :
    Json.sortItems ((entries.map SnapshotCell.sorted).map SnapshotCell.toJson) =
      Json.sortItems (entries.map SnapshotCell.toJson) := by
  induction entries with
  | nil => rfl
  | cons entry entries ih =>
      rw [List.map_cons, List.map_cons, List.map_cons, Json.sortItems, Json.sortItems,
        sortKeys_toJson_sorted, ih]

theorem sortKeys_payload (items : List Json) :
    (Json.obj [("cells", .arr items)]).sortKeys =
      .obj [("cells", .arr (Json.sortItems items))] := by
  rw [Json.sortKeys, Json.sortMembers, Json.sortMembers, Json.sortKeys]
  rfl

/-- What the token is made from is the entries as they are read from it. -/
theorem writeToken_sorted (entries : List SnapshotCell) :
    writeToken (entries.map SnapshotCell.sorted) = writeToken entries := by
  unfold writeToken
  dsimp only
  rw [sortKeys_payload, sortKeys_payload, sortItems_toJson_sorted]

theorem writeToken_eq_iff {baseline current : List SnapshotCell}
    (hbaseline : ∀ entry ∈ baseline, entry.order.UniqueKeys)
    (hcurrent : ∀ entry ∈ current, entry.order.UniqueKeys) :
    writeToken baseline = writeToken current ↔
      baseline.map SnapshotCell.sorted = current.map SnapshotCell.sorted := by
  constructor
  · intro heq
    have hdecode := decode_writeToken hbaseline
    rw [heq, decode_writeToken hcurrent] at hdecode
    exact (Except.ok.inj hdecode).symm
  · intro heq
    rw [← writeToken_sorted, heq, writeToken_sorted]

/-- Lists with distinct keys have the same images if they have the same keys in the same sequence,
and each key the same image. -/
theorem map_eq_map_iff_of_nodup {α β κ : Type} {f : α → β} {k : α → κ} {as bs : List α}
    (hkey : ∀ a b, f a = f b → k a = k b) (hbs : (bs.map k).Nodup) :
    as.map f = bs.map f ↔ as.map k = bs.map k ∧ ∀ a ∈ as, ∀ b ∈ bs, k a = k b → f a = f b := by
  constructor
  · intro heq
    constructor
    · apply List.ext_getElem
      · simpa using congrArg List.length heq
      · intro n hn hn'
        rw [List.getElem_map, List.getElem_map]
        apply hkey
        have hget := List.getElem_of_eq heq (by simpa using hn)
        rwa [List.getElem_map, List.getElem_map] at hget
    · intro a ha b hb hab
      have hmem : f a ∈ bs.map f := heq ▸ List.mem_map_of_mem ha
      obtain ⟨b', hb', hfb'⟩ := List.mem_map.mp hmem
      obtain rfl := List.inj_on_of_nodup_map hbs hb' hb ((hkey _ _ hfb').trans hab)
      exact hfb'.symm
  · rintro ⟨hkeys, heq⟩
    apply List.ext_getElem
    · simpa using congrArg List.length hkeys
    · intro n hn hn'
      rw [List.getElem_map, List.getElem_map]
      have hget := List.getElem_of_eq hkeys (by simpa using hn)
      rw [List.getElem_map, List.getElem_map] at hget
      exact heq _ (List.getElem_mem _) _ (List.getElem_mem _) hget

/-! ## An empty diff -/

theorem changeKindsOf_eq_nil_iff {baselineEntry : Option SnapshotCell}
    {currentEntry : SnapshotCell} :
    changeKindsOf F baselineEntry currentEntry = [] ↔
      ∃ entry, baselineEntry = some entry ∧ entry.order.pyEq F currentEntry.order = true ∧
        entry.sourceHash = currentEntry.sourceHash ∧
        entry.outputsHash = currentEntry.outputsHash ∧
        entry.executionCount = currentEntry.executionCount := by
  cases baselineEntry with
  | none => simp [changeKindsOf]
  | some entry => simp [changeKindsOf]

theorem changedCells_eq_nil_iff {baselineById currentById : Dict CellId SnapshotCell}
    {cells : List JsonCell} :
    changedCells F baselineById currentById cells = .ok [] ↔
      ∀ cell ∈ cells, ∃ entry, currentById.get? cell.id = some entry ∧
        changeKindsOf F (baselineById.get? cell.id) entry = [] := by
  induction cells with
  | nil => simp [changedCells, pure, Except.pure]
  | cons cell cells ih =>
      rw [changedCells, List.forall_mem_cons, ← ih]
      cases hentry : currentById.get? cell.id with
      | none => simp [bind, Except.bind]
      | some entry =>
          cases hrest : changedCells F baselineById currentById cells with
          | error error => simp [bind, Except.bind]
          | ok rest =>
              by_cases hkinds : changeKindsOf F (baselineById.get? cell.id) entry = []
              · simp [bind, Except.bind, pure, Except.pure, hkinds]
              · simp [bind, Except.bind, pure, Except.pure, hkinds]

theorem deletedCells_eq_nil_iff {baselineById currentById : Dict CellId SnapshotCell} :
    deletedCells baselineById currentById = [] ↔
      ∀ id entry, baselineById.get? id = some entry → (currentById.get? id).isSome := by
  rw [deletedCells, List.filterMap_eq_nil_iff]
  constructor
  · intro h id entry hget
    have hnone := h _ (Dict.get?_eq_some_iff.mp hget)
    by_contra hsome
    rw [if_neg hsome] at hnone
    cases hnone
  · intro h entry hentry
    rw [if_pos (h _ _ (Dict.get?_eq_some_iff.mpr hentry))]

/-- Nothing is listed if and only if there is nothing to list. -/
theorem diff_eq_nil_iff {σ : Type} {statusOf : Change → Except Error σ} {token : String} :
    diff F sha256 statusOf C token = .ok [] ↔ changesSince F sha256 C token = .ok [] := by
  unfold diff
  cases changesSince F sha256 C token with
  | error error => simp [bind, Except.bind]
  | ok changes =>
      simp only [bind, Except.bind, Except.ok.injEq]
      constructor
      · intro h
        exact List.length_eq_zero_iff.mp (forall₂_mapM h).length_eq
      · rintro rfl
        rfl

/-! ## Both on the cells -/

/-- What a diff compares of two entries is the same. -/
def SnapshotCell.ComparedAlike (F : FloatValues) (e e' : SnapshotCell) : Prop :=
  e.order.pyEq F e'.order = true ∧ e.sourceHash = e'.sourceHash ∧
    e.outputsHash = e'.outputsHash ∧ e.executionCount = e'.executionCount

theorem comparedAlike_iff {order order' : Json} (horder : orderOf F b j = .ok order)
    (horder' : orderOf F c i = .ok order') :
    ComparedAlike F sha256 b j c i ↔
      (snapshotCellOf sha256 b order).ComparedAlike F (snapshotCellOf sha256 c order') := by
  constructor
  · rintro ⟨⟨o, o', ho, ho', heq⟩, hsource, houtputs, hcount⟩
    obtain rfl := Except.ok.inj (horder.symm.trans ho)
    obtain rfl := Except.ok.inj (horder'.symm.trans ho')
    exact ⟨heq, hsource, houtputs, hcount⟩
  · rintro ⟨heq, hsource, houtputs, hcount⟩
    exact ⟨⟨order, order', horder, horder', heq⟩, hsource, houtputs, hcount⟩

theorem recordedAlike_iff {order order' : Json} (horder : orderOf F b j = .ok order)
    (horder' : orderOf F c i = .ok order') :
    RecordedAlike F b j c i ↔
      (snapshotCellOf sha256 b order).type = (snapshotCellOf sha256 c order').type ∧
        order.sortKeys = order'.sortKeys := by
  constructor
  · rintro ⟨htype, o, o', ho, ho', heq⟩
    obtain rfl := Except.ok.inj (horder.symm.trans ho)
    obtain rfl := Except.ok.inj (horder'.symm.trans ho')
    exact ⟨htype, heq⟩
  · rintro ⟨htype, heq⟩
    exact ⟨htype, order, order', horder, horder', heq⟩

theorem changeKindsOf_sorted_eq_nil_iff {entry currentEntry : SnapshotCell} :
    changeKindsOf F (some entry.sorted) currentEntry = [] ↔
      entry.ComparedAlike F currentEntry := by
  rw [changeKindsOf_eq_nil_iff]
  constructor
  · rintro ⟨_, hentry, horder, hrest⟩
    obtain rfl := Option.some.inj hentry
    exact ⟨((Json.same_sortKeys entry.order).pyEq_eq _).symm.trans horder, hrest⟩
  · rintro ⟨horder, hrest⟩
    exact ⟨_, rfl, ((Json.same_sortKeys entry.order).pyEq_eq _).trans horder, hrest⟩

/-- Two entries are read alike from tokens if and only if all their fields are alike. -/
theorem sorted_eq_sorted_iff {e e' : SnapshotCell} (hunique : e'.order.UniqueKeys)
    (hnan : e'.order.NoNaN) (hid : e.id = e'.id) :
    e.sorted = e'.sorted ↔
      e.ComparedAlike F e' ∧ e.type = e'.type ∧ e.order.sortKeys = e'.order.sortKeys := by
  obtain ⟨id, type, order, sourceHash, outputsHash, executionCount⟩ := e
  obtain ⟨id', type', order', sourceHash', outputsHash', executionCount'⟩ := e'
  simp only [SnapshotCell.sorted, SnapshotCell.ComparedAlike, SnapshotCell.mk.injEq]
  constructor
  · rintro ⟨-, htype, horder, hsource, houtputs, hcount⟩
    have heq : order.pyEq F order' = true := by
      rw [← (Json.same_sortKeys order).pyEq_eq order', horder]
      exact Json.pyEq_of_same (Json.same_sortKeys order') hunique hnan
    exact ⟨⟨heq, hsource, houtputs, hcount⟩, htype, horder⟩
  · rintro ⟨⟨-, hsource, houtputs, hcount⟩, htype, horder⟩
    exact ⟨hid, htype, horder, hsource, houtputs, hcount⟩

theorem changedCells_entries_eq_nil_iff {baseline current : List SnapshotCell}
    (hbaseline : (baseline.map (·.id)).Nodup) (hcurrent : (current.map (·.id)).Nodup)
    (hC : current.map (·.id) = C.map (·.id)) :
    changedCells F (byId (baseline.map SnapshotCell.sorted)) (byId current) C = .ok [] ↔
      (∀ id ∈ C.map (·.id), id ∈ baseline.map (·.id)) ∧
        ∀ e ∈ baseline, ∀ e' ∈ current, e.id = e'.id → e.ComparedAlike F e' := by
  rw [changedCells_eq_nil_iff]
  constructor
  · intro h
    have hentry : ∀ e' ∈ current, ∃ e ∈ baseline, e.id = e'.id ∧ e.ComparedAlike F e' := by
      intro e' he'
      obtain ⟨cell, hcell, hid⟩ := List.mem_map.mp (hC ▸ List.mem_map_of_mem he')
      obtain ⟨entry, hget, hkinds⟩ := h cell hcell
      rw [hid, get?_byId_of_mem hcurrent he', Option.some.injEq] at hget
      subst hget
      obtain ⟨e, he, -⟩ := changeKindsOf_eq_nil_iff.mp hkinds
      rw [get?_byId_sorted, hid, Option.map_eq_some_iff] at he
      obtain ⟨e, he, -⟩ := he
      have hmem := exists_get?_byId_iff.mp ⟨e, he⟩
      obtain ⟨e₀, he₀, hid₀⟩ := List.mem_map.mp hmem
      rw [get?_byId_sorted, hid, ← hid₀, get?_byId_of_mem hbaseline he₀] at hkinds
      exact ⟨e₀, he₀, hid₀, changeKindsOf_sorted_eq_nil_iff.mp hkinds⟩
    constructor
    · intro id hid
      rw [← hC] at hid
      obtain ⟨e', he', rfl⟩ := List.mem_map.mp hid
      obtain ⟨e, he, heq, -⟩ := hentry e' he'
      exact heq ▸ List.mem_map_of_mem he
    · intro e he e' he' hid
      obtain ⟨e₀, he₀, hid₀, halike⟩ := hentry e' he'
      obtain rfl := List.inj_on_of_nodup_map hbaseline he₀ he (hid₀.trans hid.symm)
      exact halike
  · rintro ⟨hids, halike⟩ cell hcell
    have hmem : cell.id ∈ C.map (·.id) := List.mem_map_of_mem hcell
    obtain ⟨e, he, hid⟩ := List.mem_map.mp (hids _ hmem)
    obtain ⟨e', he', hid'⟩ := List.mem_map.mp (hC ▸ hmem)
    refine ⟨e', hid' ▸ get?_byId_of_mem hcurrent he', ?_⟩
    rw [get?_byId_sorted, ← hid, get?_byId_of_mem hbaseline he]
    exact changeKindsOf_sorted_eq_nil_iff.mpr (halike e he e' he' (hid.trans hid'.symm))

theorem deletedCells_entries_eq_nil_iff (baseline current : List SnapshotCell) :
    deletedCells (byId (baseline.map SnapshotCell.sorted)) (byId current) = [] ↔
      ∀ id ∈ baseline.map (·.id), id ∈ current.map (·.id) := by
  rw [deletedCells_eq_nil_iff]
  constructor
  · intro h id hid
    obtain ⟨entry, hget⟩ := exists_get?_byId_iff.mpr hid
    have hsorted := (get?_byId_sorted baseline id).trans (congrArg (Option.map _) hget)
    exact exists_get?_byId_iff.mp (Option.isSome_iff_exists.mp (h id _ hsorted))
  · intro h id entry hget
    rw [get?_byId_sorted, Option.map_eq_some_iff] at hget
    obtain ⟨entry, hget, -⟩ := hget
    exact Option.isSome_iff_exists.mpr
      (exists_get?_byId_iff.mpr (h id (exists_get?_byId_iff.mp ⟨entry, hget⟩)))

/-- The diff against a token of `B` is empty if and only if the same ids occur, each with everything
alike that is compared. -/
theorem diff_writeToken_eq_nil_iff {σ : Type} {statusOf : Change → Except Error σ}
    {baseline current : List SnapshotCell} (hB : (B.map (·.id)).Nodup) (hC : (C.map (·.id)).Nodup)
    (hbaseline : snapshotCells F sha256 B = .ok baseline)
    (hcurrent : snapshotCells F sha256 C = .ok current) :
    diff F sha256 statusOf C (writeToken baseline) = .ok [] ↔
      (∀ id, id ∈ B.map (·.id) ↔ id ∈ C.map (·.id)) ∧
        ForCommonCells B C (ComparedAlike F sha256) := by
  have hBids := map_id_of_snapshotCells hbaseline
  have hCids := map_id_of_snapshotCells hcurrent
  have hchanged := changedCells_entries_eq_nil_iff (F := F) (hBids ▸ hB) (hCids ▸ hC) hCids
  have hdeleted := deletedCells_entries_eq_nil_iff baseline current
  rw [hBids] at hchanged
  rw [hBids, hCids] at hdeleted
  have hmap : changesSince F sha256 C (writeToken baseline) = .ok [] ↔
      changedCells F (byId (baseline.map SnapshotCell.sorted)) (byId current) C = .ok [] ∧
        deletedCells (byId (baseline.map SnapshotCell.sorted)) (byId current) = [] := by
    rw [changesSince_writeToken hbaseline hcurrent]
    cases changedCells F (byId (baseline.map SnapshotCell.sorted)) (byId current) C with
    | error error => simp [Except.map]
    | ok changed => simp [Except.map]
  rw [diff_eq_nil_iff, hmap, hchanged, hdeleted,
    forCommonCells_iff hbaseline hcurrent fun b j c i order order' ho ho' =>
      comparedAlike_iff ho ho']
  constructor
  · rintro ⟨⟨hids, halike⟩, hids'⟩
    exact ⟨fun id => ⟨hids' id, hids id⟩, halike⟩
  · rintro ⟨hids, halike⟩
    exact ⟨⟨fun id => (hids id).mpr, halike⟩, fun id => (hids id).mp⟩

/-- The tokens are equal if and only if the notebooks have the same cells in the same sequence, each
with everything alike that is recorded. -/
theorem writeToken_eq_iff_forCommonCells {baseline current : List SnapshotCell}
    (hC : (C.map (·.id)).Nodup) (hbaseline : snapshotCells F sha256 B = .ok baseline)
    (hcurrent : snapshotCells F sha256 C = .ok current) :
    writeToken baseline = writeToken current ↔
      B.map (·.id) = C.map (·.id) ∧ ForCommonCells B C (ComparedAlike F sha256) ∧
        ForCommonCells B C (RecordedAlike F) := by
  have hCids := map_id_of_snapshotCells hcurrent
  rw [writeToken_eq_iff (fun e he => (snapshotCells_wellFormed hbaseline he).1)
      (fun e he => (snapshotCells_wellFormed hcurrent he).1),
    map_eq_map_iff_of_nodup (k := (·.id)) (fun e e' h => congrArg SnapshotCell.id h)
      (hCids ▸ hC),
    map_id_of_snapshotCells hbaseline, hCids,
    forCommonCells_iff hbaseline hcurrent fun b j c i order order' ho ho' =>
      comparedAlike_iff ho ho',
    forCommonCells_iff (Q := fun e e' => e.type = e'.type ∧ e.order.sortKeys = e'.order.sortKeys)
      hbaseline hcurrent fun b j c i order order' ho ho' => recordedAlike_iff ho ho']
  apply and_congr_right
  intro _
  constructor
  · intro h
    have hfields := fun e he e' he' (hid : e.id = e'.id) =>
      (sorted_eq_sorted_iff (F := F) (snapshotCells_wellFormed hcurrent he').1
        (snapshotCells_wellFormed hcurrent he').2 hid).mp (h e he e' he' hid)
    exact ⟨fun e he e' he' hid => (hfields e he e' he' hid).1,
      fun e he e' he' hid => (hfields e he e' he' hid).2⟩
  · rintro ⟨hcompared, hrecorded⟩ e he e' he' hid
    exact (sorted_eq_sorted_iff (snapshotCells_wellFormed hcurrent he').1
      (snapshotCells_wellFormed hcurrent he').2 hid).mpr
      ⟨hcompared e he e' he' hid, hrecorded e he e' he' hid⟩

/-- The diff of `C` against a snapshot of `B` is empty exactly if the tokens are equal, if and only
if two notebooks with the same ids, each with everything alike that is compared, also have the same
sequence of cells, types and orders as they are written. -/
theorem diff_empty_iff_same_token_iff (F : FloatValues) (sha256 : String → String)
    (B C : List JsonCell) (hB : (B.map (·.id)).Nodup) (hC : (C.map (·.id)).Nodup)
    (tokenB tokenC : String) (htokenB : encodeSnapshotToken F sha256 B = .ok tokenB)
    (htokenC : encodeSnapshotToken F sha256 C = .ok tokenC) {σ : Type}
    (statusOf : Change → Except Error σ) :
    (diff F sha256 statusOf C tokenB = .ok [] ↔ tokenB = tokenC) ↔
      ((∀ id, id ∈ B.map (·.id) ↔ id ∈ C.map (·.id)) →
        ForCommonCells B C (ComparedAlike F sha256) →
          B.map (·.id) = C.map (·.id) ∧ ForCommonCells B C (RecordedAlike F)) := by
  unfold encodeSnapshotToken at htokenB htokenC
  cases hbaseline : snapshotCells F sha256 B with
  | error error => simp [hbaseline, Except.map] at htokenB
  | ok baseline =>
      cases hcurrent : snapshotCells F sha256 C with
      | error error => simp [hcurrent, Except.map] at htokenC
      | ok current =>
          rw [hbaseline] at htokenB
          rw [hcurrent] at htokenC
          obtain rfl := Except.ok.inj htokenB
          obtain rfl := Except.ok.inj htokenC
          rw [diff_writeToken_eq_nil_iff hB hC hbaseline hcurrent,
            writeToken_eq_iff_forCommonCells hC hbaseline hcurrent]
          constructor
          · intro h hids hcompared
            obtain ⟨hsequence, -, hrecorded⟩ := h.mp ⟨hids, hcompared⟩
            exact ⟨hsequence, hrecorded⟩
          · intro h
            constructor
            · rintro ⟨hids, hcompared⟩
              obtain ⟨hsequence, hrecorded⟩ := h hids hcompared
              exact ⟨hsequence, hcompared, hrecorded⟩
            · rintro ⟨hsequence, hcompared, -⟩
              exact ⟨fun id => hsequence ▸ Iff.rfl, hcompared⟩

/-- A notebook of one cell. -/
private def soleCell (type : CellType) (source : MultilineString) : List JsonCell :=
  [⟨"a", some type.value, some source, none, none, none, nofun, nofun⟩]

/-- A cell whose source has been edited. -/
theorem edited_cell_shown :
    ∃ tokenB tokenC, encodeSnapshotToken .byText id (soleCell .code (.string ['1'])) = .ok tokenB ∧
      encodeSnapshotToken .byText id (soleCell .code (.string ['2'])) = .ok tokenC ∧
      (diff .byText id (fun change => .ok change) (soleCell .code (.string ['2'])) tokenB = .ok [] ↔
        tokenB = tokenC) := by
  refine ⟨_, _, rfl, rfl, ?_⟩
  refine (diff_empty_iff_same_token_iff .byText id (soleCell .code (.string ['1']))
    (soleCell .code (.string ['2'])) (List.nodup_singleton _) (List.nodup_singleton _) _ _ rfl rfl
    _).mpr ?_
  intro _ hcompared
  have hsource := (hcompared _ 0 _ 0 List.mem_cons_self List.mem_cons_self rfl).source
  exact absurd hsource (by decide)

/-- A code cell that has become a markdown cell. -/
theorem changed_type_not_shown :
    ∃ tokenB tokenC, encodeSnapshotToken .byText id (soleCell .code (.string [])) = .ok tokenB ∧
      encodeSnapshotToken .byText id (soleCell .markdown (.string [])) = .ok tokenC ∧
      tokenB ≠ tokenC ∧
      diff .byText id (fun change => .ok change) (soleCell .markdown (.string [])) tokenB =
        .ok [] := by
  refine ⟨_, _, rfl, rfl, ?_, ?_⟩
  · intro heq
    have hsorted := (writeToken_eq_iff (by simp [snapshotCellOf, Json.UniqueKeys])
      (by simp [snapshotCellOf, Json.UniqueKeys])).mp heq
    have htype := congrArg SnapshotCell.type (List.head_eq_of_cons_eq hsorted)
    exact absurd htype (by decide)
  · exact diff_eq_nil_iff.mpr ((changesSince_writeToken (B := soleCell .code (.string [])) rfl
      rfl).trans rfl)

end Untyped

end Sdk

end Hypernote
