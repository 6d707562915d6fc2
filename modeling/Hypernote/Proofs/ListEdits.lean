import Hypernote.SharedNotebook
/-!
# The edits as edits of a list

Seen without the position keys, a call on the shared document is one edit of the list of its cells,
or raises `ValueError` and leaves the document as it is.  It is so as long as no cell is inserted
with an id in use and, in a notebook of an old format, nothing is looked for among the exported
cells, which have no ids there.
-/

namespace Hypernote

open Foundation

section

variable {ι ω μ : Type}

/-- The cell without the key of its position. -/
def Cell.bare (cell : Cell ι ω μ) : Cell ι ω μ := { cell with positionKey := none }

/-- The shared cell with its id, without the key of its position. -/
def YNotebook.content (lib : YNotebook ι ω μ) (ycell : lib.YCell) : Cell ι ω μ :=
  { lib.toPy ycell with id := lib.id ycell, positionKey := none }

/-- The cells of the document, without their position keys. -/
def YNotebook.contents (lib : YNotebook ι ω μ) (ycells : List lib.YCell) : List (Cell ι ω μ) :=
  ycells.map lib.content

/-- The cell stands before its anchor, after it, or last. -/
inductive InsertedAt (cell : Cell ι ω μ) :
    Option ι → Option ι → List (Cell ι ω μ) → List (Cell ι ω μ) → Prop
  | before {anchor : ι} {a : Cell ι ω μ} {pre post : List (Cell ι ω μ)}
      (h : a.id = some anchor) :
      InsertedAt cell (some anchor) none (pre ++ a :: post) (pre ++ cell :: a :: post)
  | after {anchor : ι} {a : Cell ι ω μ} {pre post : List (Cell ι ω μ)}
      (h : a.id = some anchor) :
      InsertedAt cell none (some anchor) (pre ++ a :: post) (pre ++ a :: cell :: post)
  | last {cells : List (Cell ι ω μ)} : InsertedAt cell none none cells (cells ++ [cell])

/-- One cell is changed and all others stay. -/
inductive ChangedAt (cellId : ι) (change : Cell ι ω μ → Cell ι ω μ) :
    List (Cell ι ω μ) → List (Cell ι ω μ) → Prop
  | intro {cell : Cell ι ω μ} {pre post : List (Cell ι ω μ)} (h : cell.id = some cellId) :
      ChangedAt cellId change (pre ++ cell :: post) (pre ++ change cell :: post)

/-- One cell is taken out. -/
inductive RemovedAt (cellId : ι) : List (Cell ι ω μ) → List (Cell ι ω μ) → Cell ι ω μ → Prop
  | intro {cell : Cell ι ω μ} {pre post : List (Cell ι ω μ)} (h : cell.id = some cellId) :
      RemovedAt cellId (pre ++ cell :: post) (pre ++ post) cell

/-- Both anchors are given, or one that is not there. -/
def BadAnchor (ids : List (Option ι)) (before after : Option ι) : Prop :=
  before.isSome = true ∧ after.isSome = true ∨
    ∃ anchor, (before = some anchor ∨ after = some anchor) ∧ some anchor ∉ ids

theorem InsertedAt.map_bare {cell : Cell ι ω μ} {before after : Option ι}
    {cells cells' : List (Cell ι ω μ)} (h : InsertedAt cell before after cells cells') :
    InsertedAt cell.bare before after (cells.map Cell.bare) (cells'.map Cell.bare) := by
  cases h with
  | before h =>
      simp only [List.map_append, List.map_cons]
      exact .before h
  | after h =>
      simp only [List.map_append, List.map_cons]
      exact .after h
  | last =>
      rw [List.map_append]
      exact .last

theorem InsertedAt.perm {cell : Cell ι ω μ} {before after : Option ι}
    {cells cells' : List (Cell ι ω μ)} (h : InsertedAt cell before after cells cells') :
    cells'.Perm (cell :: cells) := by
  cases h with
  | before h => exact List.perm_middle
  | after h =>
      apply (List.Perm.append_left _ (List.Perm.swap _ _ _)).trans
      exact List.perm_middle
  | last => exact List.perm_append_singleton _ _

theorem ChangedAt.ids_eq {cellId : ι} {change : Cell ι ω μ → Cell ι ω μ}
    {cells cells' : List (Cell ι ω μ)} (h : ChangedAt cellId change cells cells')
    (hid : ∀ cell, (change cell).id = cell.id) : cells'.map (·.id) = cells.map (·.id) := by
  cases h
  simp only [List.map_append, List.map_cons, hid]

theorem RemovedAt.perm {cellId : ι} {cells rest : List (Cell ι ω μ)} {cell : Cell ι ω μ}
    (h : RemovedAt cellId cells rest cell) : cells.Perm (cell :: rest) := by
  cases h
  exact List.perm_middle

/-! ## Finding a cell -/

variable [DecidableEq ι]

/-- The cell found splits the list. -/
theorem findIndex_ok {α : Type} {idOf : α → Option ι} {cells : List α} {cellId : ι}
    (h : some cellId ∈ cells.map idOf) :
    ∃ (index : Fin cells.length) (pre post : List α),
      findIndex idOf cells cellId = .ok index ∧ cells = pre ++ cells[index] :: post ∧
        (index : Nat) = pre.length ∧ idOf cells[index] = some cellId := by
  cases hfind : cells.findFinIdx? fun cell => idOf cell = some cellId with
  | none =>
      obtain ⟨cell, hcell, hid⟩ := List.mem_map.mp h
      have hnone := List.findFinIdx?_eq_none_iff.mp hfind cell hcell
      exact absurd (decide_eq_true hid) hnone
  | some index =>
      have hid := (List.findFinIdx?_eq_some_iff.mp hfind).1
      refine ⟨index, cells.take index, cells.drop (index + 1), by rw [findIndex, hfind], ?_, ?_,
        of_decide_eq_true hid⟩
      · rw [Fin.getElem_fin, List.getElem_cons_drop, List.take_append_drop]
      · rw [List.length_take, Nat.min_eq_left index.isLt.le]

theorem findIndex_error {α : Type} {idOf : α → Option ι} {cells : List α} {cellId : ι}
    (h : some cellId ∉ cells.map idOf) :
    findIndex idOf cells cellId = .error (.notFound (some cellId)) := by
  have hfind : (cells.findFinIdx? fun cell => idOf cell = some cellId) = none := by
    rw [List.findFinIdx?_eq_none_iff]
    intro cell hcell hid
    exact h (List.mem_map.mpr ⟨cell, hcell, of_decide_eq_true hid⟩)
  rw [findIndex, hfind]

omit [DecidableEq ι] in
theorem validatePosition_ok {before after : Option ι}
    (h : ¬ (before.isSome = true ∧ after.isSome = true)) :
    validatePosition before after = .ok () :=
  if_neg h

theorem insertIdx_length {α : Type} (pre post : List α) (x : α) :
    (pre ++ post).insertIdx pre.length x = pre ++ x :: post := by
  induction pre with
  | nil => rfl
  | cons y pre ih => exact congrArg (y :: ·) ih

theorem insertIdx_length_succ {α : Type} (pre post : List α) (a x : α) :
    (pre ++ a :: post).insertIdx (pre.length + 1) x = pre ++ a :: x :: post := by
  have h := insertIdx_length (pre ++ [a]) post x
  rw [List.length_append, List.length_singleton, List.append_assoc, List.append_assoc] at h
  exact h

/-- Both ways of adding a cell are an insertion at the index. -/
theorem append_or_insertIdx {α : Type} {xs : List α} {index : Nat} (hle : index ≤ xs.length)
    (x : α) :
    (if index ≥ xs.length then xs ++ [x] else xs.insertIdx index x) = xs.insertIdx index x := by
  split
  · rename_i hlast
    obtain rfl : index = xs.length := Nat.le_antisymm hle hlast
    rw [List.insertIdx_length_self]
  · rfl

theorem exists_of_map_ok {ε α β : Type} {f : α → β} {found : Except ε α} {b : β}
    (h : found.map f = .ok b) : ∃ a, found = .ok a ∧ f a = b := by
  cases found with
  | error error => cases h
  | ok a => exact ⟨a, rfl, Except.ok.inj h⟩

theorem resolveInsertIndex_le {cells : List (Cell ι ω μ)} {before after : Option ι} {index : Nat}
    (h : resolveInsertIndex cells before after = .ok index) : index ≤ cells.length := by
  cases before with
  | some before =>
      obtain ⟨found, -, rfl⟩ := exists_of_map_ok h
      exact found.isLt.le
  | none =>
      cases after with
      | some after =>
          obtain ⟨found, -, rfl⟩ := exists_of_map_ok h
          exact found.isLt
      | none => exact (Except.ok.inj h) ▸ le_refl _

theorem resolveInsertIndex_ok {cells : List (Cell ι ω μ)} {before after : Option ι}
    (h : ¬ BadAnchor (cells.map (·.id)) before after) :
    ∃ index, resolveInsertIndex cells before after = .ok index ∧ index ≤ cells.length ∧
      ∀ cell, InsertedAt cell before after cells (cells.insertIdx index cell) := by
  simp only [BadAnchor, not_or, not_exists, not_and, not_not] at h
  obtain ⟨hone, hanchor⟩ := h
  cases before with
  | some before =>
      obtain rfl : after = none := Option.not_isSome_iff_eq_none.mp (hone rfl)
      obtain ⟨index, pre, post, hfind, hsplit, hlength, hid⟩ := findIndex_ok (hanchor before (.inl rfl))
      refine ⟨index, ?_, index.isLt.le, fun cell => ?_⟩
      · rw [resolveInsertIndex, findCellIndex, hfind]
        rfl
      · generalize cells[index] = a at hsplit hid
        rw [hlength, hsplit, insertIdx_length]
        exact .before hid
  | none =>
      cases after with
      | some after =>
          obtain ⟨index, pre, post, hfind, hsplit, hlength, hid⟩ :=
            findIndex_ok (hanchor after (.inr rfl))
          refine ⟨index + 1, ?_, index.isLt, fun cell => ?_⟩
          · rw [resolveInsertIndex, findCellIndex, hfind]
            rfl
          · generalize cells[index] = a at hsplit hid
            rw [hlength, hsplit, insertIdx_length_succ]
            exact .after hid
      | none =>
          refine ⟨cells.length, rfl, le_refl _, fun cell => ?_⟩
          rw [List.insertIdx_length_self]
          exact .last

theorem resolveInsertIndex_error {cells : List (Cell ι ω μ)} {before after : Option ι}
    (hone : ¬ (before.isSome = true ∧ after.isSome = true))
    (h : BadAnchor (cells.map (·.id)) before after) :
    ∃ error, resolveInsertIndex cells before after = .error error := by
  obtain ⟨anchor, hanchor, habsent⟩ := h.resolve_left hone
  have hfind := findIndex_error habsent
  cases before with
  | some before =>
      have hsame : anchor = before := by
        rcases hanchor with hbefore | hafter
        · exact (Option.some.inj hbefore).symm
        · exact absurd ⟨rfl, by rw [hafter]; rfl⟩ hone
      subst hsame
      exact ⟨_, by rw [resolveInsertIndex, findCellIndex, hfind]; rfl⟩
  | none =>
      obtain rfl : after = some anchor := hanchor.resolve_left (fun h => nomatch h)
      exact ⟨_, by rw [resolveInsertIndex, findCellIndex, hfind]; rfl⟩

theorem modify_length {α : Type} (pre post : List α) (a : α) (f : α → α) :
    (pre ++ a :: post).modify pre.length f = pre ++ f a :: post := by
  induction pre with
  | nil => rfl
  | cons y pre ih => exact congrArg (y :: ·) ih

theorem eraseIdx_length {α : Type} (pre post : List α) (a : α) :
    (pre ++ a :: post).eraseIdx pre.length = pre ++ post := by
  induction pre with
  | nil => rfl
  | cons y pre ih => exact congrArg (y :: ·) ih

theorem map_mapIdx_eq {α β γ : Type} {f : Nat → α → β} {g : β → γ} {k : α → γ}
    (hfg : ∀ index a, g (f index a) = k a) {as : List α} : (as.mapIdx f).map g = as.map k := by
  apply List.ext_getElem
  · rw [List.length_map, List.length_mapIdx, List.length_map]
  · intro index h₁ h₂
    rw [List.getElem_map, List.getElem_mapIdx, List.getElem_map, hfg]

/-! ## What the document holds -/

namespace YNotebook

variable {lib : YNotebook ι ω μ} {ycells : List lib.YCell}

omit [DecidableEq ι] in
theorem map_id_contents (lib : YNotebook ι ω μ) (ycells : List lib.YCell) :
    (lib.contents ycells).map (·.id) = ycells.map lib.id := by
  rw [contents, List.map_map]
  rfl

section Laws

variable {keepsIds : Bool}

omit [DecidableEq ι]

theorem content_setPositionKey (hlib : lib.Lawful keepsIds) (ycell : lib.YCell) (key : String) :
    lib.content (lib.setPositionKey ycell key) = lib.content ycell := by
  rw [content, hlib.toPy_setPositionKey, hlib.id_setPositionKey]
  rfl

theorem contents_assignPositionKeysYcells (hlib : lib.Lawful keepsIds) :
    lib.contents (lib.assignPositionKeysYcells ycells) = lib.contents ycells :=
  map_mapIdx_eq fun _ ycell => content_setPositionKey hlib ycell _

theorem content_eq (hlib : lib.Lawful) (ycell : lib.YCell) :
    lib.content ycell = (lib.toPy ycell).bare := by
  rw [content, hlib.id_eq]
  rfl

theorem map_toPy_bare (hlib : lib.Lawful) (ycells : List lib.YCell) :
    (ycells.map lib.toPy).map Cell.bare = lib.contents ycells := by
  rw [List.map_map]
  exact List.map_congr_left fun ycell _ => (content_eq hlib ycell).symm

theorem map_id_toPy (hlib : lib.Lawful) (ycells : List lib.YCell) :
    (ycells.map lib.toPy).map (·.id) = ycells.map lib.id := by
  rw [List.map_map]
  exact List.map_congr_left fun ycell _ => (hlib.id_eq ycell).symm

/-- No exported cell of a notebook of an old format has an id. -/
theorem notMem_exported (hlib : lib.Lawful false) (ycells : List lib.YCell) (cellId : ι) :
    some cellId ∉ (ycells.map lib.toPy).map (·.id) := by
  intro hmem
  rw [List.map_map] at hmem
  obtain ⟨ycell, -, hid⟩ := List.mem_map.mp hmem
  cases (hlib.id_toPy ycell).symm.trans hid

theorem map_bare_assignPositionKeys (cells : List (Cell ι ω μ)) :
    (assignPositionKeys cells).map Cell.bare = cells.map Cell.bare := by
  apply map_mapIdx_eq
  intro index cell
  rfl

end Laws

/-! ## Looking a cell up -/

theorem findCell_ok {cellId : Option ι} (h : cellId ∈ (ycells.map lib.toPy).map (·.id)) :
    ∃ cell, lib.findCell ycells cellId = .ok cell := by
  obtain ⟨cell, hcell, hid⟩ := List.mem_map.mp h
  cases hfind : (ycells.map lib.toPy).find? fun cell => cell.id = cellId with
  | none => exact absurd (decide_eq_true hid) (List.find?_eq_none.mp hfind cell hcell)
  | some cell => exact ⟨cell, by rw [findCell, hfind]⟩

theorem findCell_error {cellId : Option ι} (h : cellId ∉ (ycells.map lib.toPy).map (·.id)) :
    lib.findCell ycells cellId = .error (.notFound cellId) := by
  have hfind : ((ycells.map lib.toPy).find? fun cell => cell.id = cellId) = none := by
    rw [List.find?_eq_none]
    intro cell hcell hid
    exact h (List.mem_map.mpr ⟨cell, hcell, of_decide_eq_true hid⟩)
  rw [findCell, hfind]

theorem getCell_of_nodup (hlib : lib.Lawful) (hnodup : (ycells.map lib.id).Nodup)
    {cellId : Option ι} (h : cellId ∈ ycells.map lib.id) :
    ∃ cell, lib.getCell ycells cellId = (.ok cell, ycells) := by
  rw [← map_id_toPy hlib] at h
  obtain ⟨cell, hcell⟩ := findCell_ok h
  exact ⟨cell, by rw [getCell, hlib.aget_eq ycells (.inl hnodup), hcell]⟩

/-! ## The calls -/

/-- The call raises and changes nothing. -/
def Raises {α : Type} (run : lib.Outcome α) (ycells : List lib.YCell) : Prop :=
  ∃ error, run = (.error error, ycells)

/-- The call returns and leaves a document as specified. -/
def Returns {α : Type} (run : lib.Outcome α) (spec : List (Cell ι ω μ) → Prop) : Prop :=
  ∃ result ycells', run = (.ok result, ycells') ∧ spec (lib.contents ycells')

/-- The call raises, changing nothing, exactly under the condition, and is otherwise the edit. -/
def Edits {α : Type} (run : lib.Outcome α) (ycells : List lib.YCell) (bad : Prop)
    (spec : List (Cell ι ω μ) → Prop) : Prop :=
  (bad → Raises run ycells) ∧ (¬ bad → Returns run spec)

theorem beginInsert_error (cell : Cell ι ω μ) {before after : Option ι}
    (hbad : BadAnchor ((ycells.map lib.toPy).map (·.id)) before after) :
    ∃ error, lib.beginInsert cell before after ycells = .error error := by
  by_cases hboth : before.isSome = true ∧ after.isSome = true
  · exact ⟨.positions, by rw [beginInsert, validatePosition, if_pos hboth]; rfl⟩
  · obtain ⟨error, herror⟩ := resolveInsertIndex_error hboth hbad
    exact ⟨error, by rw [beginInsert, validatePosition_ok hboth, herror]; rfl⟩

theorem beginInsert_ok (hlib : lib.Lawful) (cell : Cell ι ω μ) {before after : Option ι}
    (hgood : ¬ BadAnchor (ycells.map lib.id) before after) :
    ∃ ycells', lib.beginInsert cell before after ycells = .ok ycells' ∧
      InsertedAt cell.bare before after (lib.contents ycells) (lib.contents ycells') := by
  rw [← map_id_toPy hlib] at hgood
  obtain ⟨index, hindex, hle, hinserted⟩ := resolveInsertIndex_ok hgood
  have hboth : ¬ (before.isSome = true ∧ after.isSome = true) := fun h => hgood (.inl h)
  have hinsert := append_or_insertIdx (List.length_map lib.toPy ▸ hle) (lib.createYcell cell)
  refine ⟨lib.assignPositionKeysYcells (ycells.insertIdx index (lib.createYcell cell)), ?_, ?_⟩
  · rw [beginInsert, validatePosition_ok hboth, hindex]
    simp only [bind, Except.bind, hinsert]
    rfl
  · have hmap := (hinserted cell).map_bare
    rw [contents_assignPositionKeysYcells hlib, ← map_toPy_bare hlib, ← map_toPy_bare hlib,
      List.map_insertIdx, hlib.toPy_createYcell]
    exact hmap

theorem beginRewrite_error {cellId : ι} (change : Cell ι ω μ → Cell ι ω μ)
    (habsent : some cellId ∉ ycells.map lib.id) :
    lib.beginRewrite cellId change ycells = .error (.notFound (some cellId)) := by
  rw [beginRewrite, findYcellIndex, findIndex_error habsent]
  rfl

theorem beginRewrite_ok (hlib : lib.Lawful) {cellId : ι} (change : Cell ι ω μ → Cell ι ω μ)
    (hbare : ∀ cell, (change cell).bare = change cell.bare)
    (hpresent : some cellId ∈ ycells.map lib.id) :
    ∃ ycells', lib.beginRewrite cellId change ycells = .ok ycells' ∧
      ChangedAt cellId change (lib.contents ycells) (lib.contents ycells') := by
  obtain ⟨index, pre, post, hfind, hsplit, hlength, hfound⟩ := findIndex_ok hpresent
  refine ⟨lib.assignPositionKeysYcells
    (ycells.modify index fun y => lib.setCell (change (lib.toPy y))), ?_, ?_⟩
  · rw [beginRewrite, findYcellIndex, hfind]
    rfl
  · rw [contents_assignPositionKeysYcells hlib]
    generalize ycells[index] = y at hsplit hfound
    rw [hlength, hsplit, modify_length, contents, contents, List.map_append, List.map_append,
      List.map_cons, List.map_cons, content_eq hlib (lib.setCell _), hlib.toPy_setCell, hbare,
      ← content_eq hlib]
    exact .intro hfound

theorem insertCell_edits (hlib : lib.Lawful) (hnodup : (ycells.map lib.id).Nodup)
    (cell : Cell ι ω μ) (before after : Option ι)
    (hnew : BadAnchor (ycells.map lib.id) before after ∨ cell.id ∉ ycells.map lib.id) :
    Edits (lib.insertCell cell before after ycells) ycells
      (BadAnchor (ycells.map lib.id) before after)
      (InsertedAt cell.bare before after (lib.contents ycells)) := by
  constructor
  · intro hbad
    rw [← map_id_toPy hlib] at hbad
    obtain ⟨error, herror⟩ := beginInsert_error cell hbad
    exact ⟨error, by rw [insertCell, herror]; rfl⟩
  · intro hgood
    obtain ⟨ycells', hbegin, hinserted⟩ := beginInsert_ok hlib cell hgood
    have hids : (ycells'.map lib.id).Perm (cell.id :: ycells.map lib.id) := by
      have hperm := hinserted.perm.map (·.id)
      rwa [List.map_cons, map_id_contents, map_id_contents] at hperm
    have hnodup' : (ycells'.map lib.id).Nodup :=
      hids.nodup_iff.mpr (List.nodup_cons.mpr ⟨hnew.resolve_left hgood, hnodup⟩)
    obtain ⟨result, hresult⟩ := getCell_of_nodup hlib hnodup'
      (hids.mem_iff.mpr List.mem_cons_self)
    exact ⟨result, ycells', by rw [insertCell, hbegin]; exact hresult, hinserted⟩

theorem endRewrite_edits (hlib : lib.Lawful) (hnodup : (ycells.map lib.id).Nodup) (cellId : ι)
    {change : Cell ι ω μ → Cell ι ω μ} (hid : ∀ cell, (change cell).id = cell.id)
    (hbare : ∀ cell, (change cell).bare = change cell.bare) :
    Edits (lib.endEdit (some cellId) ycells (lib.beginRewrite cellId change ycells)) ycells
      (some cellId ∉ ycells.map lib.id) (ChangedAt cellId change (lib.contents ycells)) := by
  constructor
  · intro habsent
    exact ⟨_, by rw [beginRewrite_error change habsent]; rfl⟩
  · intro hpresent
    rw [not_not] at hpresent
    obtain ⟨ycells', hbegin, hchanged⟩ := beginRewrite_ok hlib change hbare hpresent
    have hids : ycells'.map lib.id = ycells.map lib.id := by
      rw [← map_id_contents, ← map_id_contents]
      exact hchanged.ids_eq hid
    rw [← hids] at hnodup hpresent
    obtain ⟨result, hresult⟩ := getCell_of_nodup hlib hnodup hpresent
    exact ⟨result, ycells', by rw [hbegin]; exact hresult, hchanged⟩

theorem replaceCellSource_edits (hlib : lib.Lawful) (hnodup : (ycells.map lib.id).Nodup)
    (cellId : ι) (source : Chars) :
    Edits (lib.replaceCellSource cellId source ycells) ycells (some cellId ∉ ycells.map lib.id)
      (ChangedAt cellId (fun cell => { cell with source := source }) (lib.contents ycells)) :=
  endRewrite_edits hlib hnodup cellId (fun _ => rfl) fun _ => rfl

theorem clearOutputs_edits (hlib : lib.Lawful) (hnodup : (ycells.map lib.id).Nodup)
    (cellId : ι) :
    Edits (lib.clearOutputs cellId ycells) ycells (some cellId ∉ ycells.map lib.id)
      (ChangedAt cellId (fun cell => { cell with outputs := [], executionCount := none })
        (lib.contents ycells)) :=
  endRewrite_edits hlib hnodup cellId (fun _ => rfl) fun _ => rfl

theorem deleteCell_edits {keepsIds : Bool} (hlib : lib.Lawful keepsIds) (cellId : ι) :
    Edits (lib.deleteCell cellId ycells) ycells (some cellId ∉ ycells.map lib.id)
      (fun cells' => ∃ cell, RemovedAt cellId (lib.contents ycells) cells' cell) := by
  constructor
  · intro habsent
    exact ⟨_, by rw [deleteCell, findYcellIndex, findIndex_error habsent]⟩
  · intro hpresent
    obtain ⟨index, pre, post, hfind, hsplit, hlength, hfound⟩ := findIndex_ok (not_not.mp hpresent)
    refine ⟨(), lib.assignPositionKeysYcells (ycells.eraseIdx index), ?_, ?_⟩
    · rw [deleteCell, findYcellIndex, hfind]
    · rw [contents_assignPositionKeysYcells hlib]
      generalize ycells[index] = y at hsplit hfound
      refine ⟨lib.content y, ?_⟩
      rw [hlength, hsplit, eraseIdx_length, contents, contents, List.map_append, List.map_append,
        List.map_cons]
      exact .intro hfound

/-! ## Moving a cell -/

omit [DecidableEq ι] in
/-- The cell itself is no anchor: it is taken out before the anchor is looked up. -/
theorem badAnchor_rest {ids rest : List (Option ι)} {cellId : ι} {before after : Option ι}
    (hrest : ∀ id, id ∈ rest ↔ id ∈ ids ∧ id ≠ some cellId) :
    BadAnchor rest before after ↔
      BadAnchor ids before after ∨ before = some cellId ∨ after = some cellId := by
  constructor
  · rintro (hboth | ⟨anchor, hanchor, habsent⟩)
    · exact .inl (.inl hboth)
    · by_cases hself : anchor = cellId
      · subst hself
        exact .inr hanchor
      · refine .inl (.inr ⟨anchor, hanchor, fun hmem => habsent ((hrest _).mpr ⟨hmem, ?_⟩)⟩)
        exact fun heq => hself (Option.some.inj heq)
  · rintro ((hboth | ⟨anchor, hanchor, habsent⟩) | hself)
    · exact .inl hboth
    · exact .inr ⟨anchor, hanchor, fun hmem => habsent ((hrest _).mp hmem).1⟩
    · exact .inr ⟨cellId, hself, fun hmem => ((hrest _).mp hmem).2 rfl⟩

omit [DecidableEq ι] in
theorem mem_rest_iff {pre post : List (Option ι)} {cellId : ι}
    (hnodup : (pre ++ some cellId :: post).Nodup) (id : Option ι) :
    id ∈ pre ++ post ↔ id ∈ pre ++ some cellId :: post ∧ id ≠ some cellId := by
  have hnot := (List.nodup_middle.mp hnodup)
  rw [List.nodup_cons] at hnot
  simp only [List.mem_append, List.mem_cons] at hnot ⊢
  constructor
  · intro hmem
    refine ⟨by tauto, ?_⟩
    rintro rfl
    exact hnot.1 hmem
  · tauto

/-- What moving the cell makes impossible. -/
def BadMove (ids : List (Option ι)) (cellId : ι) (before after : Option ι) : Prop :=
  some cellId ∉ ids ∨ BadAnchor ids before after ∨ before = some cellId ∨ after = some cellId

/-- The cell is taken out and put next to its anchor. -/
def MovedTo (cellId : ι) (before after : Option ι) (cells cells' : List (Cell ι ω μ)) : Prop :=
  ∃ rest cell, RemovedAt cellId cells rest cell ∧ InsertedAt cell before after rest cells'

omit [DecidableEq ι] in
theorem MovedTo.perm {cellId : ι} {before after : Option ι} {cells cells' : List (Cell ι ω μ)}
    (h : MovedTo cellId before after cells cells') : cells'.Perm cells := by
  obtain ⟨rest, cell, hremoved, hinserted⟩ := h
  exact hinserted.perm.trans hremoved.perm.symm

omit [DecidableEq ι] in
theorem MovedTo.mem_ids {cellId : ι} {before after : Option ι} {cells cells' : List (Cell ι ω μ)}
    (h : MovedTo cellId before after cells cells') : some cellId ∈ cells.map (·.id) := by
  obtain ⟨rest, cell, ⟨hid⟩, -⟩ := h
  rw [List.map_append, List.map_cons, hid]
  exact List.mem_append_right _ List.mem_cons_self

theorem movedCells_ok {cells : List (Cell ι ω μ)} {cellId : ι} {before after : Option ι}
    (hnodup : (cells.map (·.id)).Nodup) (hgood : ¬ BadMove (cells.map (·.id)) cellId before after) :
    ∃ cells', movedCells cellId before after cells = .ok cells' ∧ cells' ≠ [] ∧
      MovedTo cellId before after (cells.map Cell.bare) (cells'.map Cell.bare) := by
  rw [BadMove, not_or, not_not] at hgood
  obtain ⟨hpresent, hgood⟩ := hgood
  have hboth : ¬ (before.isSome = true ∧ after.isSome = true) := fun h => hgood (.inl (.inl h))
  obtain ⟨index, pre, post, hfind, hsplit, hlength, hfound⟩ := findIndex_ok hpresent
  have hrest : cells.eraseIdx index = pre ++ post := by
    generalize cells[index] = cell at hsplit
    rw [hlength, hsplit, eraseIdx_length]
  have hids : cells.map (·.id) = pre.map (·.id) ++ some cellId :: post.map (·.id) := by
    rw [← hfound, ← List.map_cons, ← List.map_append, ← hsplit]
  rw [hids] at hnodup hgood
  rw [← badAnchor_rest (mem_rest_iff hnodup), ← List.map_append] at hgood
  obtain ⟨target, htarget, hle, hinserted⟩ := resolveInsertIndex_ok hgood
  have hmove : movedCells cellId before after cells =
      .ok (assignPositionKeys ((pre ++ post).insertIdx target cells[index])) := by
    rw [movedCells, validatePosition_ok hboth, findCellIndex, hfind]
    simp only [bind, Except.bind, hrest, htarget]
    rfl
  refine ⟨_, hmove, ?_, pre.map Cell.bare ++ post.map Cell.bare, cells[index].bare, ?_, ?_⟩
  · intro hempty
    have hlen := congrArg List.length hempty
    rw [assignPositionKeys, List.length_mapIdx, List.length_insertIdx_of_le_length hle] at hlen
    cases hlen
  · generalize cells[index] = cell at hsplit hfound
    rw [hsplit, List.map_append, List.map_cons]
    exact .intro hfound
  · rw [map_bare_assignPositionKeys, ← List.map_append]
    exact (hinserted cells[index]).map_bare

theorem movedCells_error {cells : List (Cell ι ω μ)} {cellId : ι} {before after : Option ι}
    (hnodup : (cells.map (·.id)).Nodup) (hbad : BadMove (cells.map (·.id)) cellId before after) :
    ∃ error, movedCells cellId before after cells = .error error := by
  by_cases hboth : before.isSome = true ∧ after.isSome = true
  · exact ⟨.positions, by rw [movedCells, validatePosition, if_pos hboth]; rfl⟩
  · by_cases hpresent : some cellId ∈ cells.map (·.id)
    · obtain ⟨index, pre, post, hfind, hsplit, hlength, hfound⟩ := findIndex_ok hpresent
      have hrest : cells.eraseIdx index = pre ++ post := by
        generalize cells[index] = cell at hsplit
        rw [hlength, hsplit, eraseIdx_length]
      have hids : cells.map (·.id) = pre.map (·.id) ++ some cellId :: post.map (·.id) := by
        rw [← hfound, ← List.map_cons, ← List.map_append, ← hsplit]
      have hbad := hbad.resolve_left (not_not.mpr hpresent)
      rw [hids] at hnodup hbad
      rw [← badAnchor_rest (mem_rest_iff hnodup), ← List.map_append] at hbad
      obtain ⟨error, herror⟩ := resolveInsertIndex_error hboth hbad
      refine ⟨error, ?_⟩
      rw [movedCells, validatePosition_ok hboth, findCellIndex, hfind]
      simp only [bind, Except.bind, hrest, herror]
    · refine ⟨.notFound (some cellId), ?_⟩
      rw [movedCells, validatePosition_ok hboth, findCellIndex, findIndex_error hpresent]
      rfl

theorem moveCell_edits (hlib : lib.Lawful) (hnodup : (ycells.map lib.id).Nodup) (cellId : ι)
    (before after : Option ι) :
    Edits (lib.moveCell cellId before after ycells) ycells
      (BadMove (ycells.map lib.id) cellId before after)
      (MovedTo cellId before after (lib.contents ycells)) := by
  have hexported := map_id_toPy hlib ycells
  constructor
  · intro hbad
    rw [← hexported] at hnodup hbad
    obtain ⟨error, herror⟩ := movedCells_error hnodup hbad
    exact ⟨error, by rw [moveCell, herror]; rfl⟩
  · intro hgood
    rw [← hexported] at hgood
    obtain ⟨cells', hcells', hne, hmoved⟩ := movedCells_ok (hexported.symm ▸ hnodup) hgood
    have hcontents : lib.contents (lib.aset cells' (lib.aget ycells)) = cells'.map Cell.bare := by
      rw [← map_toPy_bare hlib, hlib.map_toPy_aset _ hne]
    rw [map_toPy_bare hlib, ← hcontents] at hmoved
    have hids : ((lib.aset cells' (lib.aget ycells)).map lib.id).Perm (ycells.map lib.id) := by
      rw [← map_id_contents, ← map_id_contents]
      exact hmoved.perm.map _
    obtain ⟨result, hresult⟩ := getCell_of_nodup hlib (hids.nodup_iff.mpr hnodup)
      (hids.mem_iff.mpr (map_id_contents lib ycells ▸ hmoved.mem_ids))
    exact ⟨result, _, by rw [moveCell, hcells']; exact hresult, hmoved⟩

/-! ## All the calls -/

/-- The calls on the document. -/
inductive DocumentCall (ι ω μ : Type)
  | insertCell (cell : Cell ι ω μ) (before after : Option ι)
  | replaceCellSource (cellId : ι) (source : Chars)
  | clearOutputs (cellId : ι)
  | deleteCell (cellId : ι)
  | moveCell (cellId : ι) (before after : Option ι)

section

variable (hlib : lib.Lawful false)

include hlib

end

/-! ### Any format -/

/-- A code cell without outputs. -/
def codeCell (id : Option String) (source : Chars) : Cell String String (List String) where
  id := id
  cellType := "code"
  source := source
  outputs := []
  executionCount := none
  positionKey := none
  metadata := []

end YNotebook

end

end Hypernote
