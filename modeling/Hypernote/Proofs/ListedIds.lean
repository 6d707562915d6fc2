import Hypernote.ListedCells
import Hypernote.Proofs.ListEdits
/-!
# Which listed ids are accepted

An id that a client has read from the list of cells designates its cell in `get_cell` and as an anchor
if and only if it is the cell's own and no other cell has it.
-/

namespace Hypernote

namespace ExportedCell

variable {ι ω μ : Type} [DecidableEq ι] {cells : List (ExportedCell ι ω μ)}

/-- The index of a cell after the one at another index has been taken out. -/
def indexWithout (moved index : Nat) : Nat := if index < moved then index else index - 1

/-- The id designates the cell at the index wherever a call takes an id. -/
structure Designates (cells : List (ExportedCell ι ω μ)) (index : Fin cells.length)
    (id : Option ι) : Prop where
  getCell : getCell cells id = .ok index
  insertBefore : insertPlace cells id none = .ok index
  insertAfter : insertPlace cells none id = .ok (index + 1)
  moveBefore : ∀ cellId moved, findCellIndex cells cellId = .ok moved → moved ≠ index →
    movePlace cells cellId id none = .ok (indexWithout moved index)
  moveAfter : ∀ cellId moved, findCellIndex cells cellId = .ok moved → moved ≠ index →
    movePlace cells cellId none id = .ok (indexWithout moved index + 1)

theorem findCellIndex_of_nodup (hnodup : (cells.map getId).Nodup) {index : Nat}
    (hindex : index < cells.length) {cellId : ι} (hid : cells[index].getId = some cellId) :
    findCellIndex cells cellId = .ok ⟨index, hindex⟩ := by
  have hmem : some cellId ∈ cells.map getId :=
    List.mem_map.mpr ⟨cells[index], List.getElem_mem hindex, hid⟩
  obtain ⟨found, -, -, hfound, -, -, hfoundId⟩ := findIndex_ok hmem
  have hsame : cells.get found = cells.get ⟨index, hindex⟩ :=
    List.inj_on_of_nodup_map hnodup (List.get_mem ..) (List.get_mem ..) (hfoundId.trans hid.symm)
  have hinjective := List.nodup_iff_injective_get.mp (List.Nodup.of_map _ hnodup)
  rw [findCellIndex, hfound, hinjective hsame]

/-- The anchors of an edit, where ids are distinct. -/
theorem insertPlace_of_nodup (hnodup : (cells.map getId).Nodup) {index : Nat}
    (hindex : index < cells.length) {cellId : ι} (hid : cells[index].getId = some cellId) :
    insertPlace cells (some cellId) none = .ok index ∧
      insertPlace cells none (some cellId) = .ok (index + 1) := by
  have hfind := findCellIndex_of_nodup hnodup hindex hid
  constructor
  · rw [insertPlace, resolveInsertIndex, hfind]
    rfl
  · rw [insertPlace, resolveInsertIndex, hfind]
    rfl

omit [DecidableEq ι] in
theorem getElem_eraseIdx_indexWithout {moved index : Nat} (hindex : index < cells.length)
    (hmoved : moved < cells.length) (hne : moved ≠ index) :
    ∃ h : indexWithout moved index < (cells.eraseIdx moved).length,
      (cells.eraseIdx moved)[indexWithout moved index] = cells[index] := by
  have hlength := List.length_eraseIdx_of_lt hmoved
  unfold indexWithout
  by_cases hlt : index < moved
  · refine ⟨by rw [if_pos hlt, hlength]; omega, ?_⟩
    simp only [if_pos hlt, List.getElem_eraseIdx, dif_pos hlt]
  · refine ⟨by rw [if_neg hlt, hlength]; omega, ?_⟩
    have hge : ¬ index - 1 < moved := by omega
    have hsucc : index - 1 + 1 = index := by omega
    simp only [if_neg hlt, List.getElem_eraseIdx, dif_neg hge, hsucc]

theorem movePlace_eq (cellId : ι) {moved : Fin cells.length}
    (hmoved : findCellIndex cells cellId = .ok moved) (before after : Option ι) :
    movePlace cells cellId before after = insertPlace (cells.eraseIdx moved) before after := by
  unfold movePlace insertPlace
  rw [hmoved]
  rfl

theorem designates_of_nodup (hnodup : (cells.map getId).Nodup) (index : Fin cells.length)
    {cellId : ι} (hid : cells[index].getId = some cellId) :
    Designates cells index (some cellId) where
  getCell := by
    have hfind := findCellIndex_of_nodup hnodup index.isLt hid
    unfold findCellIndex findIndex at hfind
    unfold getCell
    split at hfind
    · rename_i found hfound
      rw [hfound]
      exact hfind
    · cases hfind
  insertBefore := (insertPlace_of_nodup hnodup index.isLt hid).1
  insertAfter := (insertPlace_of_nodup hnodup index.isLt hid).2
  moveBefore := by
    intro movedId moved hmoved hne
    obtain ⟨hlt, hcell⟩ :=
      getElem_eraseIdx_indexWithout index.isLt moved.isLt fun h => hne (Fin.ext h)
    rw [movePlace_eq movedId hmoved]
    refine (insertPlace_of_nodup ?_ hlt (hcell ▸ hid)).1
    exact (hnodup.sublist ((List.eraseIdx_sublist ..).map getId))
  moveAfter := by
    intro movedId moved hmoved hne
    obtain ⟨hlt, hcell⟩ :=
      getElem_eraseIdx_indexWithout index.isLt moved.isLt fun h => hne (Fin.ext h)
    rw [movePlace_eq movedId hmoved]
    refine (insertPlace_of_nodup ?_ hlt (hcell ▸ hid)).2
    exact (hnodup.sublist ((List.eraseIdx_sublist ..).map getId))

/-- An id that designates a cell is the cell's own. -/
theorem getId_of_designates {index : Fin cells.length} {id : Option ι}
    (h : Designates cells index id) : cells[index].getId = id ∧ id ≠ none := by
  constructor
  · have hget := h.getCell
    unfold getCell at hget
    split at hget
    · rename_i found hfound
      obtain rfl := Except.ok.inj hget
      exact of_decide_eq_true (List.findFinIdx?_eq_some_iff.mp hfound).1
    · cases hget
  · rintro rfl
    have hlast : cells.length = index := Except.ok.inj h.insertBefore
    exact absurd index.isLt (by omega)

omit [DecidableEq ι] in
theorem forall_mem_listCells [EmptyCollection μ] {cellName : Nat → ι}
    {P : ListedCell ι ω μ → Prop} :
    (∀ entry ∈ listCells cellName cells, P entry) ↔
      ∀ index : Fin cells.length, P ((cells.get index).listed cellName index) := by
  constructor
  · intro h index
    exact h _ (List.mem_mapIdx.mpr ⟨index, index.isLt, rfl⟩)
  · intro h entry hentry
    obtain ⟨index, hindex, rfl⟩ := List.mem_mapIdx.mp hentry
    exact h ⟨index, hindex⟩

/-- Every listed id is accepted and designates the cell that it is listed for if and only if every
cell has an id, which is not null and which no other cell has. -/
theorem listed_ids_designate_iff [EmptyCollection μ] (cellName : Nat → ι)
    (cells : List (ExportedCell ι ω μ)) :
    (∀ entry ∈ listCells cellName cells, ∃ index : Fin cells.length,
        entry.index = index ∧ Designates cells index entry.id) ↔
      (∀ cell ∈ cells, cell.getId ≠ none) ∧ (cells.map getId).Nodup := by
  rw [forall_mem_listCells]
  constructor
  · intro hlisted
    have h : ∀ index : Fin cells.length,
        Designates cells index ((cells.get index).listed cellName index).id := by
      intro index
      obtain ⟨index', heq, hindex⟩ := hlisted index
      obtain rfl := Fin.ext heq
      exact hindex
    have hown := fun index => getId_of_designates (h index)
    constructor
    · intro cell hcell
      obtain ⟨index, rfl⟩ := List.get_of_mem hcell
      obtain ⟨hid, hne⟩ := hown index
      exact fun hnone => hne (hid.symm.trans hnone)
    · rw [List.Nodup, List.pairwise_map, List.pairwise_iff_getElem]
      intro i j hi hj hlt heq
      have hget := (h ⟨i, hi⟩).getCell
      rw [← (hown ⟨i, hi⟩).1, Fin.getElem_fin, heq] at hget
      have hget' := (h ⟨j, hj⟩).getCell
      rw [← (hown ⟨j, hj⟩).1, Fin.getElem_fin, hget] at hget'
      exact absurd (Fin.mk.inj (Except.ok.inj hget')) (Nat.ne_of_lt hlt)
  · rintro ⟨hown, hnodup⟩ index
    cases hid : (cells.get index).getId with
    | none => exact absurd hid (hown _ (List.get_mem ..))
    | some cellId =>
        have hlisted : ((cells.get index).listed cellName index).id = some cellId := by
          unfold listed
          rw [Option.join_eq_some_iff.mp hid]
          rfl
        refine ⟨index, rfl, ?_⟩
        rw [hlisted]
        exact designates_of_nodup hnodup index hid

/-- A document of an old format, whose cell is listed as "cell-0". -/
theorem invented_id_not_found :
    let cells : List (ExportedCell String String (List String)) :=
      [⟨none, some "code", some (.string []), none, some [], none⟩]
    (listCells (fun index => "cell-" ++ toString index) cells).map (·.id) = [some "cell-0"] ∧
      getCell cells (some "cell-0") = .error (.notFound (some "cell-0")) :=
  ⟨by decide, rfl⟩

end ExportedCell

end Hypernote
