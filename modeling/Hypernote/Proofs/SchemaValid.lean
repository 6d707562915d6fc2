import Hypernote.CellFields
import Hypernote.Foundation.Machine
import Hypernote.Proofs.ListEdits
/-!
# Which edits keep a notebook valid

A new cell is given outputs and an execution count whatever its type, and so is a cell whose outputs
are cleared.
-/

namespace Hypernote

open Foundation

namespace FieldCell

variable {ι ω μ : Type} {cells cells' : List (FieldCell ι ω μ)} {cell : FieldCell ι ω μ}

/-- The format has no outputs and no execution count for these cells. -/
def IsText (cellType : String) : Prop :=
  cellType = CellType.markdown.value ∨ cellType = CellType.raw.value

/-- The cell has the fields of its type. -/
structure Valid (cell : FieldCell ι ω μ) : Prop where
  text : IsText cell.cellType → cell.outputs = none ∧ cell.executionCount = none
  code : cell.cellType = CellType.code.value →
    cell.outputs.isSome = true ∧ cell.executionCount.isSome = true

def AllValid (cells : List (FieldCell ι ω μ)) : Prop := ∀ cell ∈ cells, cell.Valid

/-! ## One cell -/

/-- A cell with the fields of a code cell is valid if and only if it is no text cell. -/
theorem valid_iff_of_isSome (houtputs : cell.outputs.isSome = true)
    (hcount : cell.executionCount.isSome = true) : cell.Valid ↔ ¬ IsText cell.cellType := by
  constructor
  · intro hvalid htext
    rw [(hvalid.text htext).1] at houtputs
    cases houtputs
  · exact fun htext => ⟨fun h => absurd h htext, fun _ => ⟨houtputs, hcount⟩⟩

/-- The fields of a cell are kept under its position key. -/
theorem allValid_assignPositionKeys :
    AllValid (assignPositionKeys cells) ↔ AllValid cells := by
  unfold AllValid assignPositionKeys
  constructor
  · intro h cell hcell
    obtain ⟨index, hindex, rfl⟩ := List.getElem_of_mem hcell
    have hvalid := h _ (List.mem_mapIdx.mpr ⟨index, hindex, rfl⟩)
    exact ⟨hvalid.text, hvalid.code⟩
  · intro h cell hcell
    obtain ⟨index, hindex, rfl⟩ := List.mem_mapIdx.mp hcell
    have hvalid := h _ (List.getElem_mem hindex)
    exact ⟨hvalid.text, hvalid.code⟩

theorem allValid_of_perm (h : cells.Perm cells') : AllValid cells ↔ AllValid cells' :=
  forall_congr' fun _ => by rw [h.mem_iff]

theorem allValid_cons : AllValid (cell :: cells) ↔ cell.Valid ∧ AllValid cells :=
  List.forall_mem_cons

/-! ## The edits -/

section

variable [DecidableEq ι]

theorem resolveInsertIndex_le {before after : Option ι} {index : Nat}
    (h : resolveInsertIndex cells before after = .ok index) : index ≤ cells.length := by
  have hmap : ∀ {anchor : ι} {f : Fin cells.length → Nat} (_ : ∀ place, f place ≤ cells.length),
      (findCellIndex cells anchor).map f = .ok index → index ≤ cells.length := by
    intro anchor f hf hmap
    cases hfind : findCellIndex cells anchor with
    | error error => simp [hfind, Except.map] at hmap
    | ok place =>
        rw [hfind] at hmap
        exact Except.ok.inj hmap ▸ hf place
  unfold resolveInsertIndex at h
  split at h
  · exact (Except.ok.inj h).symm.le
  · exact hmap (fun place => place.isLt.le) h
  · exact hmap (fun place => place.isLt) h

/-- An inserted cell stands among the others. -/
theorem insertCell_perm {before after : Option ι}
    (h : insertCell cell before after cells = .ok cells') :
    ∃ inserted : List (FieldCell ι ω μ), cells' = assignPositionKeys inserted ∧
      inserted.Perm (cell :: cells) := by
  unfold insertCell at h
  cases hvalid : validatePosition before after with
  | error error => simp [hvalid, bind, Except.bind] at h
  | ok _ =>
      cases hindex : resolveInsertIndex cells before after with
      | error error => simp [hvalid, hindex, bind, Except.bind] at h
      | ok index =>
          simp only [hvalid, hindex, bind, Except.bind, pure, Except.pure, Except.ok.injEq] at h
          refine ⟨_, h.symm, ?_⟩
          split
          · exact List.perm_append_singleton cell cells
          · exact List.perm_insertIdx cell cells (resolveInsertIndex_le hindex)

/-- A move only reorders the cells. -/
theorem moveCell_perm {cellId : ι} {before after : Option ι}
    (h : moveCell cellId before after cells = .ok cells') :
    ∃ moved : List (FieldCell ι ω μ), cells' = assignPositionKeys moved ∧ moved.Perm cells := by
  unfold moveCell at h
  cases hvalid : validatePosition before after with
  | error error => simp [hvalid, bind, Except.bind] at h
  | ok _ =>
      cases hfind : findCellIndex cells cellId with
      | error error => simp [hvalid, hfind, bind, Except.bind] at h
      | ok index =>
          cases htarget : resolveInsertIndex (cells.eraseIdx index) before after with
          | error error => simp [hvalid, hfind, htarget, bind, Except.bind] at h
          | ok target =>
              simp only [hvalid, hfind, htarget, bind, Except.bind, pure, Except.pure,
                Except.ok.injEq] at h
              refine ⟨_, h.symm, ?_⟩
              have hinsert := List.perm_insertIdx (cells.get index) _ (resolveInsertIndex_le htarget)
              exact hinsert.trans (List.getElem_cons_eraseIdx_perm index.isLt)

theorem rewriteCell_ok {cellId : ι} {change : FieldCell ι ω μ → FieldCell ι ω μ}
    (h : rewriteCell cellId change cells = .ok cells') :
    ∃ index, findCellIndex cells cellId = .ok index ∧
      cells' = assignPositionKeys (cells.modify index change) := by
  unfold rewriteCell at h
  cases hfind : findCellIndex cells cellId with
  | error error => simp [hfind, bind, Except.bind] at h
  | ok index =>
      simp only [hfind, bind, Except.bind, pure, Except.pure, Except.ok.injEq] at h
      exact ⟨index, rfl, h.symm⟩

theorem deleteCell_ok {cellId : ι} (h : deleteCell cellId cells = .ok cells') :
    ∃ index, cells' = assignPositionKeys (cells.eraseIdx index) := by
  unfold deleteCell at h
  cases hfind : findCellIndex cells cellId with
  | error error => simp [hfind, bind, Except.bind] at h
  | ok index =>
      simp only [hfind, bind, Except.bind, pure, Except.pure, Except.ok.injEq] at h
      exact ⟨index, h.symm⟩

omit [DecidableEq ι] in
/-- Where all cells are valid, they still are if the one that is changed is. -/
theorem allValid_modify (hcells : AllValid cells) (index : Fin cells.length)
    (change : FieldCell ι ω μ → FieldCell ι ω μ) :
    AllValid (cells.modify index change) ↔ (change (cells.get index)).Valid := by
  have hlength : (cells.modify index change).length = cells.length := List.length_modify ..
  constructor
  · intro h
    have hlt : index.val < (cells.modify index change).length := by
      rw [hlength]
      exact index.isLt
    have hmem := List.getElem_mem hlt
    rw [List.getElem_modify_eq] at hmem
    exact h _ hmem
  · intro hchange cell hcell
    obtain ⟨other, hother, rfl⟩ := List.getElem_of_mem hcell
    rw [List.getElem_modify]
    split
    · rename_i heq
      subst heq
      exact hchange
    · exact hcells _ (List.getElem_mem _)

variable [EmptyCollection μ]

/-- No text cell is inserted and no outputs of a text cell are cleared. -/
def KeepsFields (cells : List (FieldCell ι ω μ)) : CellRequest ι μ → Prop
  | .post body => ∀ cells', insertCell (ofBody body) body.before body.after cells = .ok cells' →
      ¬ IsText (body.cellType.getD "code")
  | .clearOutputs cellId => ∀ index, findCellIndex cells cellId = .ok index →
      ¬ IsText (cells.get index).cellType
  | _ => True

theorem allValid_edit_iff (hcells : AllValid cells) {request : CellRequest ι μ}
    (h : edit request cells = .ok cells') : AllValid cells' ↔ KeepsFields cells request := by
  cases request with
  | post body =>
      obtain ⟨inserted, rfl, hperm⟩ := insertCell_perm h
      have hnew : (ofBody (ω := ω) body).Valid ↔ ¬ IsText (body.cellType.getD "code") :=
        valid_iff_of_isSome rfl rfl
      rw [allValid_assignPositionKeys, allValid_of_perm hperm, allValid_cons, and_iff_left hcells,
        hnew]
      exact ⟨fun htext _ _ => htext, fun hkeeps => hkeeps _ h⟩
  | patch cellId source =>
      refine iff_of_true ?_ trivial
      cases source with
      | none =>
          obtain rfl := Except.ok.inj h
          exact hcells
      | some source =>
          obtain ⟨index, -, rfl⟩ := rewriteCell_ok h
          rw [allValid_assignPositionKeys, allValid_modify hcells]
          have hvalid := hcells _ (List.get_mem cells index)
          exact ⟨hvalid.text, hvalid.code⟩
  | delete cellId =>
      refine iff_of_true ?_ trivial
      obtain ⟨index, rfl⟩ := deleteCell_ok h
      rw [allValid_assignPositionKeys]
      exact fun cell hcell => hcells cell (List.mem_of_mem_eraseIdx hcell)
  | move cellId before after =>
      refine iff_of_true ?_ trivial
      obtain ⟨moved, rfl, hperm⟩ := moveCell_perm h
      rw [allValid_assignPositionKeys, allValid_of_perm hperm]
      exact hcells
  | clearOutputs cellId =>
      obtain ⟨index, hfind, rfl⟩ := rewriteCell_ok h
      rw [allValid_assignPositionKeys, allValid_modify hcells, valid_iff_of_isSome rfl rfl]
      constructor
      · rintro htext index' hfind'
        obtain rfl := Except.ok.inj (hfind.symm.trans hfind')
        exact htext
      · exact fun hkeeps => hkeeps index hfind

/-- A request that raises has not inserted or cleared anything. -/
theorem keepsFields_of_error {request : CellRequest ι μ} {error : ValueError ι}
    (h : edit request cells = .error error) : KeepsFields cells request := by
  cases request with
  | post body =>
      intro cells' hok
      cases h.symm.trans hok
  | clearOutputs cellId =>
      intro index hfind
      rw [edit, clearOutputs, rewriteCell, hfind] at h
      cases h
  | _ => trivial

theorem allValid_handle_iff (hcells : AllValid cells) (request : CellRequest ι μ) :
    AllValid (handle cells request) ↔ KeepsFields cells request := by
  unfold handle
  cases h : edit request cells with
  | ok cells' => exact allValid_edit_iff hcells h
  | error error => exact iff_of_true hcells (keepsFields_of_error h)

/-- In every sequence of requests that insert no text cell and clear no text cell's outputs all cells
keep the fields of their type, and no other request leaves them so. -/
theorem edits_keep_schema (cells : List (FieldCell ι ω μ)) (hcells : AllValid cells) :
    (∀ cells', Run (fun cells request => some (handle cells request)) KeepsFields cells cells' →
        AllValid cells') ∧
      ∀ cells', Run (fun cells request => some (handle cells request)) KeepsFields cells cells' →
        ∀ request, (AllValid (handle cells' request) ↔ KeepsFields cells' request) := by
  have hinv : ∀ cells', Run (fun cells request => some (handle cells request)) KeepsFields cells
      cells' → AllValid cells' := by
    intro cells' hrun
    refine hrun.invariant hcells ?_
    intro cells request cells' hcells hkeeps hstep
    obtain rfl := Option.some.inj hstep
    exact (allValid_handle_iff hcells request).mpr hkeeps
  exact ⟨hinv, fun cells' hrun request => allValid_handle_iff (hinv cells' hrun) request⟩

end

/-- A cell of the format. -/
private def cellOf (id : String) (type : CellType) : FieldCell String String (List String) where
  id := some id
  cellType := type.value
  source := []
  positionKey := none
  metadata := []
  outputs := if type = .code then some ["1"] else none
  executionCount := if type = .code then some (some 1) else none

private def mixed : List (FieldCell String String (List String)) :=
  [cellOf "a" .code, cellOf "b" .markdown]

private theorem allValid_mixed : AllValid mixed := by
  intro cell hcell
  rcases List.mem_cons.mp hcell with rfl | hcell
  · exact ⟨fun h => absurd h (by unfold IsText; decide), fun _ => ⟨rfl, rfl⟩⟩
  · obtain rfl := List.mem_singleton.mp hcell
    exact ⟨fun _ => ⟨rfl, rfl⟩, fun h => absurd h (by decide)⟩

/-- A notebook of a code cell and a markdown cell, of which the code cell's outputs are cleared. -/
theorem cleared_code_cell_valid : AllValid (handle mixed (.clearOutputs "a")) := by
  refine ((edits_keep_schema mixed allValid_mixed).2 mixed .refl (.clearOutputs "a")).mpr ?_
  intro index hfind
  obtain rfl := Except.ok.inj ((show findCellIndex mixed "a" = .ok ⟨0, by decide⟩ from rfl).symm.trans hfind)
  unfold IsText
  decide

/-- A markdown cell is inserted into an empty notebook. -/
theorem posted_markdown_cell_invalid :
    AllValid ([] : List (FieldCell String String (List String))) ∧
      ∃ cell, handle ([] : List (FieldCell String String (List String)))
          (.post ⟨some "markdown", some "a", none, none, none, none⟩) = [cell] ∧
        cell.cellType = CellType.markdown.value ∧ cell.outputs = some [] ∧
        cell.executionCount = some none :=
  ⟨nofun, _, rfl, rfl, rfl, rfl⟩

end FieldCell

end Hypernote
