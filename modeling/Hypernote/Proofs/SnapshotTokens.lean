import Hypernote.Sdk.Untyped
/-!
# Tokens of any cells

What is read from a token are the entries that it was made of, but for the order of the keys in what
they record as orders.  Where ids repeat, the two indexes of a diff keep the same one of several
entries.
-/

namespace Hypernote

open Foundation

namespace Sdk

namespace Untyped

variable {F : FloatValues} {sha256 : String → String}

/-! ## One entry -/

/-- Equal but for the order of keys. -/
def SnapshotCell.Same (e e' : SnapshotCell) : Prop :=
  Json.Same e.order e'.order ∧ e' = { e with order := e'.order }

/-- The entry as it is read from a token. -/
def SnapshotCell.sorted (entry : SnapshotCell) : SnapshotCell :=
  { entry with order := entry.order.sortKeys }

theorem SnapshotCell.same_sorted (entry : SnapshotCell) : entry.sorted.Same entry :=
  ⟨Json.same_sortKeys entry.order, rfl⟩

theorem sortKeys_toJson (entry : SnapshotCell) :
    entry.toJson.sortKeys =
      .obj
        [("execution_count", entry.executionCount.elim .null .int), ("id", .str entry.id),
          ("order", entry.order.sortKeys), ("outputs_hash", .str entry.outputsHash),
          ("source_hash", .str entry.sourceHash), ("type", .str entry.type)] := by
  obtain ⟨id, type, order, sourceHash, outputsHash, executionCount⟩ := entry
  cases executionCount <;>
    simp [SnapshotCell.toJson, Json.sortKeys, Json.sortMembers, List.orderedInsert]

theorem uniqueKeys_toJson {entry : SnapshotCell} (h : entry.order.UniqueKeys) :
    entry.toJson.UniqueKeys := by
  obtain ⟨id, type, order, sourceHash, outputsHash, executionCount⟩ := entry
  constructor
  · change ["id", "type", "order", "source_hash", "outputs_hash", "execution_count"].Nodup
    decide
  · cases executionCount <;> exact ⟨trivial, trivial, h, trivial, trivial, trivial, trivial⟩

theorem ofJson?_sortKeys (entry : SnapshotCell) :
    SnapshotCell.ofJson? entry.toJson.sortKeys = some entry.sorted := by
  rw [sortKeys_toJson]
  obtain ⟨id, type, order, sourceHash, outputsHash, executionCount⟩ := entry
  cases executionCount <;>
    simp [SnapshotCell.ofJson?, SnapshotCell.sorted, Json.get?, List.lookup_cons, Json.str?,
      Json.count?]

theorem mapM_ofJson? (entries : List SnapshotCell) :
    (Json.sortItems (entries.map SnapshotCell.toJson)).mapM SnapshotCell.ofJson? =
      some (entries.map SnapshotCell.sorted) := by
  induction entries with
  | nil => rfl
  | cons entry entries ih =>
      rw [List.map_cons, Json.sortItems, List.mapM_cons, ofJson?_sortKeys, ih]
      rfl

/-! ## The token -/

theorem uniqueItems_toJson {entries : List SnapshotCell}
    (h : ∀ entry ∈ entries, entry.order.UniqueKeys) :
    Json.UniqueItems (entries.map SnapshotCell.toJson) := by
  induction entries with
  | nil => trivial
  | cons entry entries ih =>
      have hrest := ih fun e he => h e (List.mem_cons_of_mem _ he)
      exact ⟨uniqueKeys_toJson (h entry List.mem_cons_self), hrest⟩

theorem decode_writeToken {entries : List SnapshotCell}
    (h : ∀ entry ∈ entries, entry.order.UniqueKeys) :
    decodeSnapshotToken (writeToken entries) = .ok (entries.map SnapshotCell.sorted) := by
  have hunique : (Json.obj [("cells", .arr (entries.map SnapshotCell.toJson))]).UniqueKeys :=
    ⟨List.nodup_singleton _, uniqueItems_toJson h, trivial⟩
  have hcells :
      (Json.obj [("cells", .arr (entries.map SnapshotCell.toJson))]).sortKeys.get? "cells" =
        some (.arr (Json.sortItems (entries.map SnapshotCell.toJson))) := by
    rw [Json.sortKeys, Json.sortMembers, Json.sortMembers, Json.sortKeys]
    rfl
  rw [decodeSnapshotToken, writeToken, String.toList_ofList, Base64.decode_encode]
  simp only [Option.bind_eq_bind, Option.bind_some, utf8Decode?_utf8Encode,
    Json.loads_writeChars_sortKeys _ hunique, hcells, mapM_ofJson?]

/-! ## What is recorded of a cell -/

theorem orEmpty_eq_ok {x : Option Json} {members : List (String × Json)}
    (h : orEmpty F x = .ok members) : members = [] ∨ x = some (.obj members) := by
  unfold orEmpty at h
  split at h
  · exact .inl (Except.ok.inj h).symm
  · split at h
    · exact .inl (Except.ok.inj h).symm
    · split at h
      · exact .inr (Except.ok.inj h ▸ rfl)
      · cases h

theorem mem_of_lookup {members : List (String × Json)} {key : String} {x : Json}
    (h : members.lookup key = some x) : (key, x) ∈ members := by
  obtain ⟨before, after, rfl, -⟩ := List.lookup_eq_some_iff.mp h
  exact List.mem_append_right _ List.mem_cons_self

/-- A property of all values in a dict is one of what is recorded as the order, if strings have
it. -/
theorem orderOf_property {P : Json → Prop} {cell : JsonCell} {index : Nat} {order : Json}
    (hobj : ∀ {members key x}, P (.obj members) → (key, x) ∈ members → P x)
    (hstr : ∀ s, P (.str s)) (hcell : ∀ x ∈ cell.metadata, P x)
    (h : orderOf F cell index = .ok order) : P order := by
  unfold orderOf at h
  cases hmetadata : orEmpty F cell.metadata with
  | error error => simp [hmetadata, bind, Except.bind] at h
  | ok metadata =>
      cases hmeta : orEmpty F (metadata.lookup "hypernote") with
      | error error => simp [hmetadata, hmeta, bind, Except.bind] at h
      | ok hypernoteMeta =>
          simp only [hmetadata, hmeta, bind, Except.bind, pure, Except.pure, Except.ok.injEq] at h
          subst h
          cases hkey : hypernoteMeta.lookup "position_key" with
          | none => exact hstr _
          | some order =>
              rcases orEmpty_eq_ok hmeta with rfl | hmeta
              · cases hkey
              · rcases orEmpty_eq_ok hmetadata with rfl | hmetadata
                · cases hmeta
                · have hmember : P (.obj hypernoteMeta) :=
                    hobj (hcell _ hmetadata) (mem_of_lookup hmeta)
                  exact hobj hmember (mem_of_lookup hkey)

theorem noNaNMembers_iff {ms : List (String × Json)} :
    Json.NoNaNMembers ms ↔ ∀ m ∈ ms, m.2.NoNaN := by
  induction ms with
  | nil => simp [Json.NoNaNMembers]
  | cons m ms ih => simp [Json.NoNaNMembers, ih]

/-- The recorded order is what Python holds as a dict or reads from strict JSON. -/
theorem orderOf_wellFormed {cell : JsonCell} {index : Nat} {order : Json}
    (h : orderOf F cell index = .ok order) : order.UniqueKeys ∧ order.NoNaN := by
  constructor
  · refine orderOf_property (P := Json.UniqueKeys) ?_ (fun _ => trivial) cell.unique_keys h
    intro members key x hmembers hmem
    exact Json.uniqueMembers_iff.mp hmembers.2 _ hmem
  · refine orderOf_property (P := Json.NoNaN) ?_ (fun _ => trivial) cell.no_nan h
    intro members key x hmembers hmem
    exact noNaNMembers_iff.mp hmembers _ hmem

theorem snapshotCell_eq_ok {cell : JsonCell} {index : Nat} {entry : SnapshotCell}
    (h : snapshotCell F sha256 cell index = .ok entry) :
    ∃ order, orderOf F cell index = .ok order ∧ entry = snapshotCellOf sha256 cell order := by
  unfold snapshotCell at h
  cases horder : orderOf F cell index with
  | error error => simp [horder, Except.map] at h
  | ok order =>
      simp only [horder, Except.map, Except.ok.injEq] at h
      exact ⟨order, rfl, h.symm⟩

/-- The entries are those of the cells, in their order. -/
theorem forall₂_mapM {ε α β : Type} {f : α → Except ε β} {as : List α} {bs : List β}
    (h : as.mapM f = .ok bs) : List.Forall₂ (fun a b => f a = .ok b) as bs := by
  induction as generalizing bs with
  | nil =>
      obtain rfl := Except.ok.inj h
      exact .nil
  | cons a as ih =>
      rw [List.mapM_cons] at h
      cases ha : f a with
      | error error => simp [ha, bind, Except.bind] at h
      | ok b =>
          cases has : as.mapM f with
          | error error => simp [ha, has, bind, Except.bind] at h
          | ok bs' =>
              simp only [ha, has, bind, Except.bind, pure, Except.pure, Except.ok.injEq] at h
              exact h ▸ .cons ha (ih has)

theorem forall₂_snapshotCells {cells : List JsonCell} {entries : List SnapshotCell}
    (h : snapshotCells F sha256 cells = .ok entries) :
    List.Forall₂ (fun entry e => snapshotCell F sha256 entry.1 entry.2 = .ok e) cells.zipIdx
      entries :=
  forall₂_mapM h

theorem snapshotCells_wellFormed {cells : List JsonCell} {entries : List SnapshotCell}
    (h : snapshotCells F sha256 cells = .ok entries) {entry : SnapshotCell} (hmem : entry ∈ entries) :
    entry.order.UniqueKeys ∧ entry.order.NoNaN := by
  obtain ⟨index, hindex, rfl⟩ := List.getElem_of_mem hmem
  have hentry := (forall₂_snapshotCells h).get (by rwa [(forall₂_snapshotCells h).length_eq]) hindex
  obtain ⟨order, horder, heq⟩ := snapshotCell_eq_ok hentry
  rw [List.get_eq_getElem] at heq
  rw [heq]
  exact orderOf_wellFormed horder

/-! ## The entries by id -/

/-- Of several entries with one id the last counts. -/
theorem get?_byId (entries : List SnapshotCell) (id : CellId) :
    (byId entries).get? id = entries.reverse.find? fun entry => entry.id = id := by
  induction entries using List.reverseRecOn with
  | nil => rfl
  | append_singleton entries entry ih =>
      have hbyId : byId (entries ++ [entry]) = (byId entries).set entry.id entry := by
        unfold byId
        rw [List.foldl_append]
        rfl
      rw [hbyId, Dict.get?_set, List.reverse_append, List.reverse_singleton, List.singleton_append,
        List.find?_cons, ih]
      by_cases hid : id = entry.id
      · rw [if_pos hid, decide_eq_true hid.symm]
      · rw [if_neg hid, decide_eq_false (Ne.symm hid)]

theorem get?_byId_sorted (entries : List SnapshotCell) (id : CellId) :
    (byId (entries.map SnapshotCell.sorted)).get? id =
      ((byId entries).get? id).map SnapshotCell.sorted := by
  rw [get?_byId, get?_byId, ← List.map_reverse, List.find?_map]
  rfl

theorem exists_get?_byId {entries : List SnapshotCell} {entry : SnapshotCell}
    (h : entry ∈ entries) :
    ∃ last ∈ entries, (byId entries).get? entry.id = some last := by
  have hsome : (entries.reverse.find? fun e => e.id = entry.id).isSome = true :=
    List.find?_isSome.mpr ⟨entry, List.mem_reverse.mpr h, decide_eq_true rfl⟩
  obtain ⟨last, hlast⟩ := Option.isSome_iff_exists.mp hsome
  exact ⟨last, List.mem_reverse.mp (List.mem_of_find?_eq_some hlast), (get?_byId ..).trans hlast⟩

theorem exists_get?_byId_iff {entries : List SnapshotCell} {id : CellId} :
    (∃ entry, (byId entries).get? id = some entry) ↔ id ∈ entries.map (·.id) := by
  constructor
  · rintro ⟨entry, hget⟩
    rw [get?_byId] at hget
    have hid : entry.id = id := by simpa using List.find?_some hget
    exact hid ▸ List.mem_map_of_mem (List.mem_reverse.mp (List.mem_of_find?_eq_some hget))
  · intro hmem
    obtain ⟨entry, hentry, rfl⟩ := List.mem_map.mp hmem
    obtain ⟨last, -, hget⟩ := exists_get?_byId hentry
    exact ⟨last, hget⟩

/-! ## An unchanged notebook -/

theorem changeKindsOf_sorted {entry : SnapshotCell} (hunique : entry.order.UniqueKeys)
    (hnan : entry.order.NoNaN) : changeKindsOf F (some entry.sorted) entry = [] := by
  have horder : entry.order.sortKeys.pyEq F entry.order = true :=
    Json.pyEq_of_same (Json.same_sortKeys entry.order) hunique hnan
  unfold changeKindsOf
  simp only [horder, SnapshotCell.sorted, ne_eq, not_true_eq_false, if_false, if_true,
    List.append_nil]

theorem exists_entry {cells : List JsonCell} {entries : List SnapshotCell}
    (h : snapshotCells F sha256 cells = .ok entries) {cell : JsonCell} (hcell : cell ∈ cells) :
    ∃ entry ∈ entries, entry.id = cell.id := by
  obtain ⟨index, hindex, rfl⟩ := List.getElem_of_mem hcell
  have hforall := forall₂_snapshotCells h
  have hlength : index < entries.length := by
    rw [← hforall.length_eq, List.length_zipIdx]
    exact hindex
  have hentry := hforall.get (by rwa [List.length_zipIdx]) hlength
  obtain ⟨order, -, heq⟩ := snapshotCell_eq_ok hentry
  refine ⟨_, List.get_mem entries ⟨index, hlength⟩, ?_⟩
  rw [heq, List.get_eq_getElem, List.getElem_zipIdx]
  rfl

theorem changedCells_unchanged {entries : List SnapshotCell}
    (hwellFormed : ∀ entry ∈ entries, entry.order.UniqueKeys ∧ entry.order.NoNaN)
    {cells : List JsonCell} (hcells : ∀ cell ∈ cells, ∃ entry ∈ entries, entry.id = cell.id) :
    changedCells F (byId (entries.map SnapshotCell.sorted)) (byId entries) cells = .ok [] := by
  induction cells with
  | nil => rfl
  | cons cell cells ih =>
      obtain ⟨entry, hentry, hid⟩ := hcells cell List.mem_cons_self
      obtain ⟨last, hlast, hget⟩ := exists_get?_byId hentry
      rw [hid] at hget
      have hkinds := changeKindsOf_sorted (F := F) (hwellFormed last hlast).1 (hwellFormed last hlast).2
      have hrest := ih fun c hc => hcells c (List.mem_cons_of_mem _ hc)
      rw [changedCells, get?_byId_sorted, hget, hrest]
      simp only [Option.elim_some, Option.map_some, hkinds, bind, Except.bind, if_true]
      rfl

theorem deletedCells_unchanged (entries : List SnapshotCell) :
    deletedCells (byId (entries.map SnapshotCell.sorted)) (byId entries) = [] := by
  apply List.filterMap_eq_nil_iff.mpr
  intro entry hentry
  have hbaseline := Dict.get?_eq_some_iff.mpr hentry
  rw [get?_byId_sorted] at hbaseline
  obtain ⟨last, hlast, -⟩ := Option.map_eq_some_iff.mp hbaseline
  rw [hlast]
  rfl

/-- What two results have in common if they raise the same or are the same but for the order of
keys. -/
inductive SameResult : Except Error (List SnapshotCell) → Except Error (List SnapshotCell) → Prop
  | ok {es es' : List SnapshotCell} (h : List.Forall₂ SnapshotCell.Same es es') :
      SameResult (.ok es) (.ok es')
  | error (e : Error) : SameResult (.error e) (.error e)

/-- A token gives back what the snapshot has recorded, and the diff of an unchanged notebook against
its own snapshot lists nothing. -/
theorem snapshot_round_trip (F : FloatValues) (sha256 : String → String) (cells : List JsonCell) :
    SameResult (encodeSnapshotToken F sha256 cells >>= decodeSnapshotToken)
        (snapshotCells F sha256 cells) ∧
      ∀ {σ : Type} (statusOf : Change → Except Error σ) (token : String),
        encodeSnapshotToken F sha256 cells = .ok token →
          diff F sha256 statusOf cells token = .ok [] := by
  unfold diff changesSince
  cases hentries : snapshotCells F sha256 cells with
  | error e =>
      constructor
      · rw [encodeSnapshotToken, hentries]
        exact .error e
      · intro σ statusOf token htoken
        rw [encodeSnapshotToken, hentries] at htoken
        cases htoken
  | ok entries =>
      have hwellFormed : ∀ entry ∈ entries, entry.order.UniqueKeys ∧ entry.order.NoNaN :=
        fun entry hentry => snapshotCells_wellFormed hentries hentry
      have hdecode := decode_writeToken fun entry hentry => (hwellFormed entry hentry).1
      have hencode : encodeSnapshotToken F sha256 cells = .ok (writeToken entries) := by
        rw [encodeSnapshotToken, hentries]
        rfl
      rw [hencode]
      constructor
      · simp only [bind, Except.bind, hdecode]
        refine .ok (List.forall₂_map_left_iff.mpr (List.forall₂_same.mpr fun entry _ => ?_))
        exact entry.same_sorted
      · intro σ statusOf token htoken
        obtain rfl := Except.ok.inj htoken
        have hchanged := changedCells_unchanged (F := F) hwellFormed fun cell hcell =>
          exists_entry hentries hcell
        simp only [hdecode, bind, Except.bind, hchanged, deletedCells_unchanged, List.append_nil,
          pure, Except.pure]
        rfl

/-- A cell whose metadata is this. -/
private def cellWith (id : CellId) (source : MultilineString) (metadata : Json)
    (hunique : metadata.UniqueKeys) (hnan : metadata.NoNaN) : JsonCell :=
  ⟨id, none, some source, none, none, some metadata, fun _ h => Option.some.inj h ▸ hunique,
    fun _ h => Option.some.inj h ▸ hnan⟩

/-- Two cells of one id, the position key of the first one a dict and that of the second one null. -/
private def repeatedIds : List JsonCell :=
  [cellWith "a" (.lines [['x', '\n'], ['y']])
      (.obj [("hypernote", .obj [("position_key", .obj [("b", .int 1), ("a", .null)])])])
      (by simp [Json.UniqueKeys, Json.UniqueMembers]) (by simp [Json.NoNaN, Json.NoNaNMembers]),
    cellWith "a" (.string ['é']) (.obj [("hypernote", .obj [("position_key", .null)])])
      (by simp [Json.UniqueKeys, Json.UniqueMembers]) (by simp [Json.NoNaN, Json.NoNaNMembers])]

theorem repeated_ids_unchanged :
    ∃ token, encodeSnapshotToken .byText id repeatedIds = .ok token ∧
      diff .byText id (fun change => .ok change) repeatedIds token = .ok [] :=
  ⟨_, rfl, (snapshot_round_trip .byText id repeatedIds).2 _ _ rfl⟩

/-! ## Cells that are well formed -/

/-- The cell as JSON carries it. -/
def JsonCell.ofCell (cell : NotebookCell) : JsonCell where
  id := cell.id
  cellType := some cell.cellType.value
  source := some cell.source
  outputs := some (outputsJson cell)
  executionCount := cell.executionCount
  metadata := cell.positionKey.map fun key =>
    .obj [("hypernote", .obj [("position_key", .str key)])]
  unique_keys := by
    intro x hx
    obtain ⟨key, -, rfl⟩ := Option.map_eq_some_iff.mp hx
    simp [Json.UniqueKeys, Json.UniqueMembers]
  no_nan := by
    intro x hx
    obtain ⟨key, -, rfl⟩ := Option.map_eq_some_iff.mp hx
    simp [Json.NoNaN, Json.NoNaNMembers]

def SnapshotCell.ofTyped (entry : Sdk.SnapshotCell) : SnapshotCell :=
  ⟨entry.id, entry.type, .str entry.order, entry.sourceHash, entry.outputsHash,
    entry.executionCount⟩

theorem orderOf_ofCell (cell : NotebookCell) (index : Nat) :
    orderOf F (.ofCell cell) index = .ok (.str (Sdk.orderOf cell index)) := by
  have hmetadata : (JsonCell.ofCell cell).metadata = cell.positionKey.map fun key =>
      .obj [("hypernote", .obj [("position_key", .str key)])] := rfl
  unfold orderOf Sdk.orderOf
  rw [hmetadata]
  cases cell.positionKey with
  | none => rfl
  | some key => rfl

theorem snapshotCells_ofCell (cells : List NotebookCell) :
    snapshotCells F sha256 (cells.map .ofCell) =
      .ok ((Sdk.snapshotCells sha256 cells).map SnapshotCell.ofTyped) := by
  have hcell : ∀ cell index, snapshotCell F sha256 (.ofCell cell) index =
      .ok (SnapshotCell.ofTyped (Sdk.snapshotCell sha256 cell index)) := by
    intro cell index
    rw [snapshotCell, orderOf_ofCell]
    rfl
  have hrun : ∀ (cells : List NotebookCell) (start : Nat),
      ((cells.map JsonCell.ofCell).zipIdx start).mapM
          (fun entry => snapshotCell F sha256 entry.1 entry.2) =
        .ok (((cells.zipIdx start).map fun entry =>
          Sdk.snapshotCell sha256 entry.1 entry.2).map SnapshotCell.ofTyped) := by
    intro cells
    induction cells with
    | nil => intro start; rfl
    | cons cell cells ih =>
        intro start
        rw [List.map_cons, List.zipIdx_cons, List.mapM_cons, hcell, ih]
        rfl
  exact hrun cells 0

/-- The token of well-formed cells is the one of `Sdk.Snapshot`. -/
theorem encodeSnapshotToken_ofCell (cells : List NotebookCell) :
    encodeSnapshotToken F sha256 (cells.map .ofCell) =
      .ok (Sdk.encodeSnapshotToken (Sdk.snapshotCells sha256 cells)) := by
  have htoken : ∀ entries : List Sdk.SnapshotCell,
      writeToken (entries.map SnapshotCell.ofTyped) = Sdk.encodeSnapshotToken entries := by
    intro entries
    unfold writeToken Sdk.encodeSnapshotToken
    rw [List.map_map]
    rfl
  rw [encodeSnapshotToken, snapshotCells_ofCell, ← htoken]
  rfl

end Untyped

end Sdk

end Hypernote
