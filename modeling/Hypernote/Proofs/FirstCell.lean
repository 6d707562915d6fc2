import Hypernote.Client.Ix
import Hypernote.Proofs.ListEdits
/-!
# Cells found by their id

The first cell with an id is the one that is found, and a new cell goes next to the first one with
the id of its anchor.  When all cells are read others with the id get new ones, so what is said of
a document here is said up to that.
-/

namespace Hypernote

open Foundation

/-! ## The first cell with an id -/

section

variable {ι ω μ : Type}

/-- The first cell with the id, and its index. -/
def FirstAt (id : ι) (keys : List (CellKey ι)) (key : CellKey ι) (index : Nat) : Prop :=
  ∃ pre post, keys = pre ++ key :: post ∧ pre.length = index ∧ key.1 = some id ∧
    ∀ key ∈ pre, key.1 ≠ some id

variable {id : ι} {keys pre post : List (CellKey ι)} {key key' : CellKey ι} {index index' : Nat}

theorem exists_firstAt (h : ∃ key ∈ keys, key.1 = some id) :
    ∃ key index, FirstAt id keys key index := by
  induction keys with
  | nil =>
      obtain ⟨key, hkey, -⟩ := h
      cases hkey
  | cons head keys ih =>
      by_cases hhead : head.1 = some id
      · exact ⟨head, 0, [], keys, rfl, rfl, hhead, fun _ h => nomatch h⟩
      · obtain ⟨key, hkey, hid⟩ := h
        rcases List.mem_cons.mp hkey with rfl | hkey
        · exact absurd hid hhead
        · obtain ⟨key, index, pre, post, rfl, rfl, hid, hpre⟩ := ih ⟨key, hkey, hid⟩
          refine ⟨key, (head :: pre).length, head :: pre, post, rfl, rfl, hid, ?_⟩
          intro key hkey
          rcases List.mem_cons.mp hkey with rfl | hkey
          · exact hhead
          · exact hpre key hkey

namespace FirstAt

theorem id_eq (h : FirstAt id keys key index) : key.1 = some id := by
  obtain ⟨_, _, -, -, hid, -⟩ := h
  exact hid

theorem mem (h : FirstAt id keys key index) : key ∈ keys := by
  obtain ⟨pre, post, rfl, -⟩ := h
  exact List.mem_append_right _ List.mem_cons_self

theorem lt_length (h : FirstAt id keys key index) : index < keys.length := by
  obtain ⟨pre, post, rfl, rfl, -⟩ := h
  rw [List.length_append, List.length_cons]
  omega

theorem append (h : FirstAt id keys key index) (post : List (CellKey ι)) :
    FirstAt id (keys ++ post) key index := by
  obtain ⟨pre, rest, rfl, hlength, hid, hpre⟩ := h
  exact ⟨pre, rest ++ post, by rw [List.append_assoc, List.cons_append], hlength, hid, hpre⟩

theorem unique (h : FirstAt id keys key index) (h' : FirstAt id keys key' index') :
    key = key' ∧ index = index' := by
  obtain ⟨pre, post, rfl, rfl, hid, hpre⟩ := h
  obtain ⟨pre', post', hsplit, rfl, hid', hpre'⟩ := h'
  rcases List.append_eq_append_iff.mp hsplit with ⟨between, rfl, hbetween⟩ | ⟨between, rfl, hbetween⟩
  · cases between with
    | nil =>
        rw [List.nil_append, List.cons.injEq] at hbetween
        exact ⟨hbetween.1, by rw [List.append_nil]⟩
    | cons head between =>
        cases hbetween
        exact absurd hid (hpre' _ (List.mem_append_right _ List.mem_cons_self))
  · cases between with
    | nil =>
        rw [List.nil_append, List.cons.injEq] at hbetween
        exact ⟨hbetween.1.symm, by rw [List.append_nil]⟩
    | cons head between =>
        cases hbetween
        exact absurd hid' (hpre _ (List.mem_append_right _ List.mem_cons_self))

end FirstAt

theorem firstAt_new (hkey : key.1 = some id) (hpre : ∀ key ∈ pre, key.1 ≠ some id) :
    FirstAt id (pre ++ key :: post) key pre.length :=
  ⟨pre, post, rfl, rfl, hkey, hpre⟩

/-! ## What the server finds -/

variable [DecidableEq ι]

theorem findIndex_firstAt {α : Type} {idOf : α → Option ι} {keyOf : α → CellKey ι}
    (hkey : ∀ cell, (keyOf cell).1 = idOf cell) {cells : List α}
    (h : FirstAt id (cells.map keyOf) key index) :
    ∃ found, findIndex idOf cells id = .ok found ∧ (found : Nat) = index := by
  obtain ⟨pre, post, hsplit, rfl, hid, hpre⟩ := h
  obtain ⟨before, rest, rfl, rfl, hrest⟩ := List.map_eq_append_iff.mp hsplit
  obtain ⟨cell, after, rfl, rfl, rfl⟩ := List.map_eq_cons_iff.mp hrest
  have hlt : before.length < (before ++ cell :: after).length := by
    rw [List.length_append, List.length_cons]
    omega
  have hfind : ((before ++ cell :: after).findFinIdx? fun cell => idOf cell = some id) =
      some ⟨before.length, hlt⟩ := by
    rw [List.findFinIdx?_eq_some_iff]
    constructor
    · rw [Fin.getElem_fin, List.getElem_append_right (le_refl _)]
      simpa [← hkey] using hid
    · intro earlier hearlier
      rw [Fin.lt_def] at hearlier
      rw [Fin.getElem_fin, List.getElem_append_left hearlier]
      have hne := hpre (keyOf before[earlier.val]) (List.mem_map_of_mem (List.getElem_mem _))
      simpa [← hkey] using hne
  refine ⟨_, by rw [findIndex, hfind], ?_⟩
  rw [List.length_map]

namespace YNotebook

variable {lib : YNotebook ι ω μ} {ycells : List lib.YCell}

omit [DecidableEq ι] in
theorem keys_eq_map_toPy (hlib : lib.Lawful) (ycells : List lib.YCell) :
    lib.keys ycells = (ycells.map lib.toPy).map Cell.key := by
  rw [List.map_map]
  refine List.map_congr_left fun ycell _ => ?_
  rw [hlib.id_eq]
  rfl

theorem findCellIndex_firstAt (hlib : lib.Lawful) (h : FirstAt id (lib.keys ycells) key index) :
    ∃ found, findCellIndex (ycells.map lib.toPy) id = .ok found ∧ (found : Nat) = index := by
  rw [keys_eq_map_toPy hlib] at h
  exact findIndex_firstAt (fun _ => rfl) h

theorem findYcellIndex_firstAt (h : FirstAt id (lib.keys ycells) key index) :
    ∃ found, lib.findYcellIndex ycells id = .ok found ∧ (found : Nat) = index :=
  findIndex_firstAt (fun _ => rfl) h

theorem findCell_firstAt (hlib : lib.Lawful) (h : FirstAt id (lib.keys ycells) key index) :
    ∃ cell, lib.findCell ycells (some id) = .ok cell ∧ cell.key = key := by
  rw [keys_eq_map_toPy hlib] at h
  obtain ⟨pre, post, hsplit, rfl, hid, hpre⟩ := h
  obtain ⟨before, rest, hcells, rfl, hrest⟩ := List.map_eq_append_iff.mp hsplit
  obtain ⟨cell, after, rfl, rfl, rfl⟩ := List.map_eq_cons_iff.mp hrest
  refine ⟨cell, ?_, rfl⟩
  have hbefore : (before.find? fun cell => cell.id = some id) = none := by
    rw [List.find?_eq_none]
    intro cell hcell hfound
    exact hpre cell.key (List.mem_map_of_mem hcell) (of_decide_eq_true hfound)
  have hfind : ((before ++ cell :: after).find? fun cell => cell.id = some id) = some cell := by
    have hid : cell.id = some id := hid
    rw [List.find?_append, hbefore, Option.none_or, List.find?_cons, decide_eq_true hid]
  rw [findCell, hcells, hfind]

end YNotebook

end

/-! ## Documents up to new ids -/

namespace YNotebook

variable {ι ω μ : Type} {lib : YNotebook ι ω μ} {ycells ycells' : List lib.YCell}
  {keys : List (CellKey ι)} {key : CellKey ι} {id : ι} {index : Nat}

/-- Reading all cells never makes this id up. -/
def NeverNew (lib : YNotebook ι ω μ) (id : ι) : Prop :=
  ∀ ycells, some id ∈ (lib.aget ycells).map lib.id → some id ∈ ycells.map lib.id

/-- The document has cells with these keys, but that some may have got new ids. -/
def Shows (lib : YNotebook ι ω μ) (keys : List (CellKey ι)) (ycells : List lib.YCell) : Prop :=
  Alike Prod.fst Prod.snd lib.NeverNew [] keys (lib.keys ycells)

/-- All cells of the document have been read with their ids. -/
def Read (lib : YNotebook ι ω μ) (ycells : List lib.YCell) : Prop :=
  ∃ read, ycells.map lib.id = (lib.aget read).map lib.id

theorem ofCells_neverNew [DecidableEq ι] [NewKey ι] (h : ∀ ids, id ≠ NewKey.newKey ids) :
    (ofCells ι ω μ).NeverNew id := by
  intro cells hmem
  have hset : ∀ (id : ι) (cell : Cell ι ω μ), (cell.renamed id).id = some id := fun _ _ => rfl
  rcases mem_map_renameRepeated hset hmem with hold | ⟨ids, hnew⟩
  · exact hold
  · exact absurd hnew (h ids)

theorem map_fst_keys (lib : YNotebook ι ω μ) (ycells : List lib.YCell) :
    (lib.keys ycells).map Prod.fst = ycells.map lib.id := by
  rw [keys, List.map_map]
  rfl

theorem Read.aget_eq (hlib : lib.Lawful) (h : lib.Read ycells) : lib.aget ycells = ycells :=
  hlib.aget_eq ycells (.inr h)

theorem Read.of_keys_eq (h : lib.Read ycells) (hkeys : lib.keys ycells' = lib.keys ycells) :
    lib.Read ycells' := by
  obtain ⟨read, hread⟩ := h
  refine ⟨read, ?_⟩
  rw [← map_fst_keys, hkeys, map_fst_keys, hread]

/-- No id is repeated in cells that have been read. -/
theorem Read.nodup (hlib : lib.Lawful) (h : lib.Read ycells) :
    (keysOf lib.id ycells).Nodup := by
  obtain ⟨read, hread⟩ := h
  exact keysOf_congr hread.symm ▸ (hlib.renamed_aget rfl read).nodup.1

theorem shows_keys (ycells : List lib.YCell) : lib.Shows (lib.keys ycells) ycells := .refl _ _

theorem Shows.aget (hlib : lib.Lawful) (h : lib.Shows keys ycells) :
    lib.Shows keys (lib.aget ycells) := by
  have hrenamed : Renamed Prod.fst (fun id key key' => key' = (some id, key.2)) []
      (lib.keys ycells) (lib.keys (lib.aget ycells)) := by
    refine (hlib.renamed_aget rfl ycells).map _ (fun _ => rfl) fun id y y' hid hy' => ?_
    have hid : lib.id y' = some id := hid
    rw [hid, hy']
    rfl
  refine Alike.renamed h hrenamed ?_ (fun _ _ hmem => hmem) fun id hid hmem => .inr ?_
  · rintro id key _ rfl
    rfl
  · rw [map_fst_keys] at hmem ⊢
    exact hid ycells hmem

/-- Of an id that is never made up the first cell is the same. -/
theorem Shows.firstAt (h : lib.Shows keys ycells) (hid : lib.NeverNew id)
    (hfirst : FirstAt id keys key index) : FirstAt id (lib.keys ycells) key index := by
  obtain ⟨pre, post, rfl, rfl, hkey, hpre⟩ := hfirst
  obtain ⟨pre', post', hkeys, hlength, hpre'⟩ := h.first hid hkey List.not_mem_nil hpre
  exact ⟨pre', post', hkeys, hlength, hkey, hpre'⟩

end YNotebook

/-! ## Where a cell is inserted -/

section

variable {ι ω μ : Type}

/-- A cell with these anchors goes between the two parts. -/
inductive Place : Option ι → Option ι → List (CellKey ι) → List (CellKey ι) → Prop
  | before {id : ι} {key : CellKey ι} {pre post : List (CellKey ι)}
      (hid : key.1 = some id) (hpre : ∀ key ∈ pre, key.1 ≠ some id) :
      Place (some id) none pre (key :: post)
  | after {id : ι} {key : CellKey ι} {pre post : List (CellKey ι)}
      (hid : key.1 = some id) (hpre : ∀ key ∈ pre, key.1 ≠ some id) :
      Place none (some id) (pre ++ [key]) post
  | last {pre : List (CellKey ι)} : Place none none pre []

variable {before after : Option ι} {id : ι} {keys pre post : List (CellKey ι)} {key : CellKey ι}

/-- The place after the first cell with an id. -/
theorem FirstAt.place {index : Nat} (h : FirstAt id keys key index) :
    ∃ pre post, keys = pre ++ post ∧ pre.length = index + 1 ∧ Place none (some id) pre post := by
  obtain ⟨pre, post, rfl, rfl, hid, hpre⟩ := h
  refine ⟨pre ++ [key], post, ?_, ?_, .after hid hpre⟩
  · rw [List.append_assoc, List.singleton_append]
  · rw [List.length_append, List.length_singleton]

theorem Place.validatePosition (h : Place before after pre post) :
    validatePosition before after = .ok () := by
  apply validatePosition_ok
  rintro ⟨hbefore, hafter⟩
  cases h <;> contradiction

variable [DecidableEq ι] {lib : YNotebook ι ω μ} {ycells : List lib.YCell}

omit [DecidableEq ι] in
theorem YNotebook.Shows.length_eq (h : lib.Shows keys ycells) : ycells.length = keys.length := by
  have hlength := congrArg List.length (Alike.map_eq h)
  rw [List.length_map, List.length_map, YNotebook.keys, List.length_map] at hlength
  exact hlength.symm

theorem Place.resolveInsertIndex (hlib : lib.Lawful) (h : Place before after pre post)
    (hkeys : lib.Shows (pre ++ post) ycells)
    (hanchor : ∀ id, before = some id ∨ after = some id → lib.NeverNew id) :
    resolveInsertIndex (ycells.map lib.toPy) before after = .ok pre.length := by
  cases h with
  | @before id key pre post hid hpre =>
      have hfirst : FirstAt id (pre ++ key :: post) key pre.length := firstAt_new hid hpre
      obtain ⟨found, hfound, hindex⟩ := YNotebook.findCellIndex_firstAt hlib
        (hkeys.firstAt (hanchor id (.inl rfl)) hfirst)
      simp only [Hypernote.resolveInsertIndex, hfound, Except.map, hindex]
  | @after id key pre post hid hpre =>
      have hfirst : FirstAt id (pre ++ key :: post) key pre.length := firstAt_new hid hpre
      rw [List.append_assoc, List.singleton_append] at hkeys
      obtain ⟨found, hfound, hindex⟩ := YNotebook.findCellIndex_firstAt hlib
        (hkeys.firstAt (hanchor id (.inr rfl)) hfirst)
      rw [List.length_append, List.length_singleton]
      simp only [Hypernote.resolveInsertIndex, hfound, Except.map, hindex]
  | last =>
      rw [Hypernote.resolveInsertIndex, List.length_map, hkeys.length_eq, List.append_nil]

/-- The cell that is inserted may take its id from others, which get new ones. -/
theorem YNotebook.insertCell_place (hlib : lib.Lawful) {cell : Cell ι ω μ}
    (hid : cell.id = some id) (hnew : lib.NeverNew id) (hkeys : lib.Shows (pre ++ post) ycells)
    (h : Place before after pre post)
    (hanchor : ∀ id, before = some id ∨ after = some id → lib.NeverNew id) :
    ∃ inserted ycells', lib.insertCell cell before after ycells = (.ok inserted, ycells') ∧
      lib.Shows (pre ++ cell.key :: post) ycells' ∧ lib.Read ycells' := by
  have hlength : pre.length ≤ ycells.length := by
    rw [hkeys.length_eq, List.length_append]
    omega
  have hinsert := append_or_insertIdx hlength (lib.createYcell cell)
  generalize hbegun : lib.assignPositionKeysYcells
    (ycells.insertIdx pre.length (lib.createYcell cell)) = begun
  have hbegin : lib.beginInsert cell before after ycells = .ok begun := by
    rw [beginInsert, h.validatePosition, h.resolveInsertIndex hlib hkeys hanchor]
    simp only [bind, Except.bind, hinsert, hbegun]
    rfl
  have hshows : lib.Shows (pre ++ cell.key :: post) begun := by
    have hassign : lib.keys begun =
        (lib.keys ycells).insertIdx pre.length cell.key := by
      rw [← hbegun, YNotebook.keys, YNotebook.keys, YNotebook.assignPositionKeysYcells]
      rw [map_mapIdx_eq (k := fun y => (lib.id y, (lib.toPy y).cellType, (lib.toPy y).source))
        fun index y => by rw [hlib.id_setPositionKey, hlib.toPy_setPositionKey]]
      rw [List.map_insertIdx, hlib.id_createYcell, hlib.toPy_createYcell]
      rfl
    obtain ⟨pre', post', hsplit, hlength', hinserted⟩ := Alike.insert hkeys cell.key
    rw [YNotebook.Shows, hassign, hsplit, ← hlength', insertIdx_length]
    exact hinserted
  have hread := hshows.aget hlib
  obtain ⟨key, index, hfirst⟩ := exists_firstAt
    (⟨cell.key, List.mem_append_right _ List.mem_cons_self, hid⟩ :
      ∃ key ∈ pre ++ cell.key :: post, key.1 = some id)
  obtain ⟨inserted, hinserted, -⟩ := findCell_firstAt hlib (hread.firstAt hnew hfirst)
  refine ⟨inserted, lib.aget begun, ?_, hread, begun, rfl⟩
  rw [insertCell, hbegin, endEdit, getCell, hid, hinserted]

end

end Hypernote
