import Hypernote.EditCalls
import Hypernote.Foundation.Machine
import Hypernote.Proofs.ListEdits
/-!
# Edits that fail after their change

A call checks its arguments before it changes the document.  The look-up after the save is another
check, and by then the cell may be gone, or the document may not give away the ids of its cells.
-/

namespace Hypernote

open Foundation

namespace YNotebook

variable {ι ω μ : Type} [DecidableEq ι] {lib : YNotebook ι ω μ} {s s' : EditRoom lib}

/-- No call that has raised has changed the document. -/
def FailedUnchanged (s : EditRoom lib) : Prop :=
  ∀ index error changes, s.calls index = .raised error changes →
    ∀ change ∈ changes, change.1 = change.2

/-- When the document has been saved, it still has a cell with the id that the call looks up, or
neither the call nor this reading has changed it. -/
def FoundAfterSave (s : EditRoom lib) : EditLabel lib → Prop
  | .saved index => ∀ cellId changes, s.calls index = .saving cellId changes →
      (∃ ycell ∈ lib.aget s.ycells, (lib.toPy ycell).id = cellId) ∨
        (∀ change ∈ changes, change.1 = change.2) ∧ s.ycells = lib.aget s.ycells
  | _ => True

/-! ## Calls that nobody interrupts -/

/-- What the call returns or raises, and the document that it leaves. -/
def edit (request : EditRequest ι ω μ) (ycells : List lib.YCell) : lib.Outcome (Cell ι ω μ) :=
  match request with
  | .insertCell cell before after => lib.insertCell cell before after ycells
  | .replaceCellSource cellId source => lib.replaceCellSource cellId source ycells
  | .moveCell cellId before after => lib.moveCell cellId before after ycells
  | .clearOutputs cellId => lib.clearOutputs cellId ycells

/-- The call has ended with the result. -/
def EndedWith (result : Except (ValueError ι) (Cell ι ω μ)) (call : EditCall lib) : Prop :=
  match result with
  | .ok cell => call = .returned cell
  | .error error => ∃ changes, call = .raised error changes

theorem editStep_saved {index : Nat} {cellId : Option ι} {changes : Changes lib}
    (h : s.calls index = .saving cellId changes) :
    lib.editStep s (.saved index) = some (lib.endCall s index cellId changes) := by
  simp only [editStep, h]

theorem endCall_ended (s : EditRoom lib) (index : Nat) (cellId : Option ι)
    (changes : Changes lib) :
    EndedWith (lib.getCell s.ycells cellId).1 ((lib.endCall s index cellId changes).calls index) := by
  unfold endCall EndedWith
  dsimp only
  rw [Function.update_self]
  cases (lib.getCell s.ycells cellId).1 with
  | error error => exact ⟨_, rfl⟩
  | ok cell => rfl

/-- What is left of a call after its change, if nobody else edits the document. -/
theorem run_edited (s : EditRoom lib) (index : Nat) (cellId : Option ι) (changes : Changes lib)
    (result : Except (ValueError ι) (List lib.YCell)) :
    ∃ s', Run lib.editStep anyStep (lib.edited s index cellId changes result) s' ∧
      s'.ycells = (lib.endEdit cellId s.ycells result).2 ∧
      EndedWith (lib.endEdit cellId s.ycells result).1 (s'.calls index) := by
  cases result with
  | error error => exact ⟨_, .refl, rfl, changes, Function.update_self ..⟩
  | ok ycells =>
      have hsaving : (lib.edited s index cellId changes (.ok ycells)).calls index =
          .saving cellId (changes ++ [(s.ycells, ycells)]) := Function.update_self ..
      refine ⟨_, .single trivial (editStep_saved hsaving), rfl, ?_⟩
      exact endCall_ended (lib.edited s index cellId changes (.ok ycells)) index cellId _

/-- A call that nobody interrupts does what the edit of the shared document does. -/
theorem exists_run_edit (request : EditRequest ι ω μ) {index : Nat}
    (h : s.calls index = .notCalled) :
    ∃ s', Run lib.editStep anyStep s s' ∧ s'.ycells = (edit request s.ycells).2 ∧
      EndedWith (edit request s.ycells).1 (s'.calls index) := by
  have hcall : lib.editStep s (.call index request) = some (lib.beginCall s index request) := by
    simp only [editStep, h]
  have hrun : Run lib.editStep anyStep s (lib.beginCall s index request) := .single trivial hcall
  cases request with
  | insertCell cell before after =>
      obtain ⟨s', hrest, hs'⟩ := run_edited s index cell.id []
        (lib.beginInsert cell before after s.ycells)
      exact ⟨s', hrun.trans hrest, hs'⟩
  | replaceCellSource cellId source =>
      obtain ⟨s', hrest, hs'⟩ := run_edited s index (some cellId) []
        (lib.beginReplaceCellSource cellId source s.ycells)
      exact ⟨s', hrun.trans hrest, hs'⟩
  | clearOutputs cellId =>
      obtain ⟨s', hrest, hs'⟩ := run_edited s index (some cellId) []
        (lib.beginClearOutputs cellId s.ycells)
      exact ⟨s', hrun.trans hrest, hs'⟩
  | moveCell cellId before after =>
      rw [edit, moveCell]
      rw [beginCall] at hrun
      cases hmoved : movedCells cellId before after (s.ycells.map lib.toPy) with
      | error error =>
          rw [hmoved] at hrun
          exact ⟨_, hrun, rfl, [], Function.update_self ..⟩
      | ok given =>
          rw [hmoved] at hrun
          dsimp only at hrun
          generalize hmoving : (⟨lib.aget s.ycells, Function.update s.calls index
            (.moving cellId given [(s.ycells, lib.aget s.ycells)])⟩ : EditRoom lib) = moving at hrun
          have hcalls : moving.calls index =
              .moving cellId given [(s.ycells, lib.aget s.ycells)] := by
            rw [← hmoving]
            exact Function.update_self ..
          have haset : lib.editStep moving (.aset index) = some (lib.edited moving index
              (some cellId) [(s.ycells, lib.aget s.ycells)] (.ok (lib.aset given moving.ycells))) := by
            simp only [editStep, hcalls]
          obtain ⟨s', hrest, hs'⟩ := run_edited moving index (some cellId)
            [(s.ycells, lib.aget s.ycells)] (.ok (lib.aset given moving.ycells))
          refine ⟨s', (hrun.tail trivial haset).trans hrest, ?_⟩
          rw [← hmoving] at hs'
          exact hs'

/-! ## Failed calls -/

/-- The look-up finds a cell if and only if the document has one. -/
theorem exists_findCell_iff {ycells : List lib.YCell} {cellId : Option ι} :
    (∃ cell, lib.findCell ycells cellId = .ok cell) ↔
      ∃ ycell ∈ ycells, (lib.toPy ycell).id = cellId := by
  unfold findCell
  cases hfind : (ycells.map lib.toPy).find? fun cell => cell.id = cellId with
  | none =>
      rw [List.find?_eq_none] at hfind
      simpa using hfind
  | some cell =>
      have hmem := List.mem_of_find?_eq_some hfind
      have hid := List.find?_some hfind
      obtain ⟨ycell, hycell, rfl⟩ := List.mem_map.mp hmem
      exact ⟨fun _ => ⟨ycell, hycell, of_decide_eq_true hid⟩, fun _ => ⟨_, rfl⟩⟩

omit [DecidableEq ι] in
/-- The state of one call is replaced. -/
theorem failedUnchanged_update {ycells : List lib.YCell} {index : Nat} {call : EditCall lib} :
    FailedUnchanged (⟨ycells, Function.update s.calls index call⟩ : EditRoom lib) ↔
      (∀ error changes, call = .raised error changes → ∀ change ∈ changes, change.1 = change.2) ∧
        ∀ other error changes, other ≠ index → s.calls other = .raised error changes →
          ∀ change ∈ changes, change.1 = change.2 := by
  unfold FailedUnchanged
  constructor
  · intro h
    refine ⟨fun error changes hcall => h index error changes ?_,
      fun other error changes hother hcall => h other error changes ?_⟩
    · exact (Function.update_self ..).trans hcall
    · exact (Function.update_of_ne hother ..).trans hcall
  · rintro ⟨hcall, hothers⟩ other error changes hother
    change Function.update s.calls index call other = _ at hother
    by_cases heq : other = index
    · subst heq
      refine hcall error changes ?_
      rwa [Function.update_self] at hother
    · refine hothers other error changes heq ?_
      rwa [Function.update_of_ne heq] at hother

omit [DecidableEq ι] in
theorem failedUnchanged_update_of_not_failed {ycells : List lib.YCell} {index : Nat}
    {call : EditCall lib} (hs : FailedUnchanged s)
    (hcall : ∀ error changes, call = .raised error changes → changes = []) :
    FailedUnchanged (⟨ycells, Function.update s.calls index call⟩ : EditRoom lib) := by
  refine failedUnchanged_update.mpr ⟨fun error changes heq => ?_,
    fun other error changes _ => hs other error changes⟩
  rw [hcall error changes heq]
  exact List.forall_mem_nil _

omit [DecidableEq ι] in
/-- A call that comes to its save has not failed yet, and one that raises before it has changed
nothing. -/
theorem failedUnchanged_edited {index : Nat} {cellId : Option ι} {changes : Changes lib}
    (hs : FailedUnchanged s) (result : Except (ValueError ι) (List lib.YCell))
    (hchanges : ∀ error, result = .error error → changes = []) :
    FailedUnchanged (lib.edited s index cellId changes result) := by
  cases result with
  | error error =>
      obtain rfl := hchanges error rfl
      refine failedUnchanged_update_of_not_failed hs ?_
      rintro _ _ ⟨⟩
      rfl
  | ok ycells => exact failedUnchanged_update_of_not_failed hs (by simp)

theorem failedUnchanged_beginCall {index : Nat} (hs : FailedUnchanged s)
    (request : EditRequest ι ω μ) : FailedUnchanged (lib.beginCall s index request) := by
  cases request with
  | insertCell cell before after => exact failedUnchanged_edited hs _ fun _ _ => rfl
  | replaceCellSource cellId source => exact failedUnchanged_edited hs _ fun _ _ => rfl
  | clearOutputs cellId => exact failedUnchanged_edited hs _ fun _ _ => rfl
  | moveCell cellId before after =>
      rw [beginCall]
      split
      · refine failedUnchanged_update_of_not_failed hs ?_
        rintro _ _ ⟨⟩
        rfl
      · exact failedUnchanged_update_of_not_failed hs (by simp)

/-- The end of a call leaves the failed calls without a change if and only if the cell is found, or
nothing has been changed. -/
theorem failedUnchanged_endCall {index : Nat} {cellId : Option ι} {changes : Changes lib}
    (hs : FailedUnchanged s) :
    FailedUnchanged (lib.endCall s index cellId changes) ↔
      (∃ ycell ∈ lib.aget s.ycells, (lib.toPy ycell).id = cellId) ∨
        (∀ change ∈ changes, change.1 = change.2) ∧ s.ycells = lib.aget s.ycells := by
  unfold endCall
  dsimp only
  rw [failedUnchanged_update, and_iff_left fun other error changes _ => hs other error changes,
    ← exists_findCell_iff, getCell]
  cases lib.findCell (lib.aget s.ycells) cellId with
  | ok cell => simp
  | error error =>
      simp only [EditCall.raised.injEq, reduceCtorEq, exists_false, false_or]
      constructor
      · intro h
        have hall := h error _ ⟨rfl, rfl⟩
        exact ⟨fun change hchange => hall change (List.mem_append_left _ hchange),
          hall _ (List.mem_append_right _ (List.mem_singleton_self _))⟩
      · rintro ⟨hchanges, hread⟩ _ _ ⟨-, rfl⟩ change hchange
        rcases List.mem_append.mp hchange with hold | hnew
        · exact hchanges change hold
        · rw [List.mem_singleton.mp hnew]
          exact hread

theorem failedUnchanged_step_iff (hs : FailedUnchanged s) {l : EditLabel lib}
    (hstep : lib.editStep s l = some s') : FailedUnchanged s' ↔ FoundAfterSave s l := by
  cases l with
  | call index request =>
      simp only [editStep] at hstep
      split at hstep
      · cases hstep
        exact iff_of_true (failedUnchanged_beginCall hs request) trivial
      · cases hstep
  | aset index =>
      simp only [editStep] at hstep
      split at hstep
      · cases hstep
        exact iff_of_true (failedUnchanged_edited hs _ (by simp)) trivial
      · cases hstep
  | saved index =>
      simp only [editStep] at hstep
      split at hstep
      · rename_i cellId changes hsaving
        cases hstep
        rw [failedUnchanged_endCall hs]
        constructor
        · rintro hfound cellId' changes' hsaving'
          obtain ⟨rfl, rfl⟩ := EditCall.saving.inj (hsaving.symm.trans hsaving')
          exact hfound
        · exact fun hfound => hfound cellId changes hsaving
      · cases hstep
  | others ycells =>
      cases hstep
      exact iff_of_true hs trivial

/-- In every run in which a call finds its cell again after the save, or has changed nothing, a call
that raises has changed nothing; and these are the only steps that keep it so. -/
theorem failed_edit_changes_nothing (lib : YNotebook ι ω μ) (ycells : List lib.YCell) :
    (∀ s, Run lib.editStep FoundAfterSave (lib.editStart ycells) s → FailedUnchanged s) ∧
      ∀ s, Run lib.editStep FoundAfterSave (lib.editStart ycells) s → ∀ l s',
        lib.editStep s l = some s' → (FailedUnchanged s' ↔ FoundAfterSave s l) := by
  have hinv : ∀ s, Run lib.editStep FoundAfterSave (lib.editStart ycells) s →
      FailedUnchanged s := by
    intro s hrun
    refine hrun.invariant (I := FailedUnchanged) (fun _ _ _ h => by cases h) ?_
    intro s l t hs hfound hstep
    exact (failedUnchanged_step_iff hs hstep).mpr hfound
  exact ⟨hinv, fun s hrun l s' hstep => failedUnchanged_step_iff (hinv s hrun) hstep⟩

/-- A cell with an output. -/
private def outputCell : Cell String String (List String) where
  id := some "a"
  cellType := "code"
  source := []
  outputs := ["1"]
  executionCount := some 1
  positionKey := none
  metadata := []

/-- The outputs of a cell are cleared, and before the save is over another client deletes the
cell. -/
theorem deleted_cell_cleared :
    ∃ s : EditRoom (ofCells String String (List String)),
      Run (ofCells String String (List String)).editStep anyStep
          ((ofCells String String (List String)).editStart [outputCell]) s ∧
        ∃ before after reading,
          s.calls 0 = .raised (.notFound (some "a")) [(before, after), reading] ∧
            before.map Cell.outputs = [["1"]] ∧ after.map Cell.outputs = [[]] := by
  let start := (ofCells String String (List String)).editStart [outputCell]
  have hexec : exec (ofCells String String (List String)).editStep start
      [.call 0 (.clearOutputs "a"), .others [], .saved 0] = some _ := rfl
  exact ⟨_, run_of_exec hexec, _, _, _, rfl, rfl, rfl⟩

end YNotebook

end Hypernote
