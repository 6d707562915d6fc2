import Hypernote.Foundation.Histories
import Hypernote.LedgerRuns
import Mathlib.Data.List.Induction
/-!
# The last writers of a cell

The record of a cell is a register.  The calls for the cell write to it, each role on its own, and
an eviction of its notebook clears it; nothing else touches it.
-/

namespace Hypernote

open Foundation

/-- What an actor is to a cell. -/
inductive Role
  | editor
  | executor
  deriving DecidableEq

namespace MemoryLedger

def AttributionUpdate.id (u : AttributionUpdate) : Role → Option String
  | .editor => u.editorId
  | .executor => u.executorId

/-- The type of the actor, as the record keeps it. -/
def AttributionUpdate.type (u : AttributionUpdate) : Role → Option String
  | .editor => u.editorType.map ActorType.value
  | .executor => u.executorType.map ActorType.value

end MemoryLedger

namespace CellAttribution

def lastId (attr : CellAttribution) : Role → Option String
  | .editor => attr.lastEditorId
  | .executor => attr.lastExecutorId

def lastType (attr : CellAttribution) : Role → Option String
  | .editor => attr.lastEditorType
  | .executor => attr.lastExecutorType

end CellAttribution

namespace LedgerOp

/-- A call of `update_cell_attribution` for the cell. -/
def Updates (nb : NotebookId) (c : CellId) (op : LedgerOp) : Prop :=
  ∃ u now, op = .updateCellAttribution nb c u now

/-- A call that names an actor for the role. -/
def Credits (nb : NotebookId) (c : CellId) (role : Role) (op : LedgerOp) : Prop :=
  ∃ u now, op = .updateCellAttribution nb c u now ∧ (u.id role).isSome = true

/-- The operations that forget the attribution of a notebook. -/
def Clears (nb : NotebookId) (op : LedgerOp) : Prop := op = .evictNotebook nb ∨ op = .close

/-- Calls for the cell, and operations that forget the attribution of its notebook. -/
def concerns (nb : NotebookId) (c : CellId) : LedgerOp → Bool
  | .updateCellAttribution nb' c' _ _ => nb' = nb && c' = c
  | .evictNotebook nb' => nb' = nb
  | .close => true
  | _ => false

theorem Credits.updates {nb : NotebookId} {c : CellId} {role : Role} {op : LedgerOp}
    (h : op.Credits nb c role) : op.Updates nb c := by
  obtain ⟨u, now, rfl, -⟩ := h
  exact ⟨u, now, rfl⟩

end LedgerOp

namespace MemoryLedger

open LedgerOp

/-- The ledger after a sequence of operations. -/
def performAll (l : MemoryLedger) (ops : List LedgerOp) : MemoryLedger := ops.foldl perform l

/-- The record says what the latest calls since the last eviction have said. -/
structure LastWriters (nb : NotebookId) (c : CellId) (ops : List LedgerOp)
    (attr : CellAttribution) : Prop where
  notebook : attr.notebookId = nb
  cell : attr.cellId = c
  time : ∃ u now, LatestSince (Clears nb) (Updates nb c) (.updateCellAttribution nb c u now) ops ∧
    attr.updatedAt = now
  role : ∀ role,
    NoneSince (Clears nb) (Credits nb c role) ops ∧
        attr.lastId role = none ∧ attr.lastType role = none ∨
      ∃ u now,
        LatestSince (Clears nb) (Credits nb c role) (.updateCellAttribution nb c u now) ops ∧
          attr.lastId role = u.id role ∧ attr.lastType role = u.type role

/-! ## The register of a cell -/

variable {l : MemoryLedger} {nb : NotebookId} {c : CellId} {ops ops' : List LedgerOp}
  {op : LedgerOp} {found : Option CellAttribution}

/-- What an operation does to the record of the cell. -/
def register (nb : NotebookId) (c : CellId) (found : Option CellAttribution) :
    LedgerOp → Option CellAttribution
  | .updateCellAttribution nb' c' u now =>
      if nb = nb' ∧ c = c' then
        some (applyAttribution (found.getD ⟨nb, c, now, none, none, none, none⟩) u now)
      else found
  | .evictNotebook nb' => if nb = nb' then none else found
  | .close => none
  | _ => found

theorem getCellAttribution_perform (l : MemoryLedger) (op : LedgerOp) (nb : NotebookId)
    (c : CellId) :
    (l.perform op).getCellAttribution nb c = register nb c (l.getCellAttribution nb c) op := by
  cases op with
  | createJob =>
      rw [perform, getCellAttribution, cellAttribution_createJob]
      rfl
  | updateJobStatus =>
      rw [perform, getCellAttribution, cellAttribution_updateJobStatus]
      rfl
  | appendRequestUid jobId uid =>
      rw [perform]
      cases happend : l.appendRequestUid jobId uid with
      | none => rfl
      | some l' =>
          rw [Option.getD_some, getCellAttribution, cellAttribution_appendRequestUid happend]
          rfl
  | updateCellAttribution => exact getCellAttribution_updateCellAttribution
  | evictNotebook => exact getCellAttribution_evictNotebook
  | close => rfl

theorem getCellAttribution_performAll (l : MemoryLedger) (ops : List LedgerOp) :
    (l.performAll ops).getCellAttribution nb c =
      ops.foldl (register nb c) (l.getCellAttribution nb c) := by
  induction ops generalizing l with
  | nil => rfl
  | cons op ops ih =>
      rw [List.foldl_cons, ← getCellAttribution_perform, ← ih]
      rfl

theorem register_of_not_concerns (h : op.concerns nb c = false) :
    register nb c found op = found := by
  cases op with
  | updateCellAttribution nb' c' u now =>
      have hne : ¬ (nb = nb' ∧ c = c') := by
        rintro ⟨rfl, rfl⟩
        simp [concerns] at h
      rw [register, if_neg hne]
  | evictNotebook nb' =>
      have hne : nb ≠ nb' := by
        rintro rfl
        simp [concerns] at h
      rw [register, if_neg hne]
  | close => cases h
  | _ => rfl

theorem foldl_register_filter (ops : List LedgerOp) (found : Option CellAttribution) :
    (ops.filter (·.concerns nb c)).foldl (register nb c) found =
      ops.foldl (register nb c) found := by
  induction ops generalizing found with
  | nil => rfl
  | cons op ops ih =>
      rw [List.foldl_cons, List.filter_cons]
      split
      · rw [List.foldl_cons, ih]
      · rename_i hother
        rw [ih, register_of_not_concerns (Bool.eq_false_iff.mpr hother)]

/-! ## What the register holds -/

/-- The history that a record, or its absence, stands for. -/
def Recorded (nb : NotebookId) (c : CellId) (ops : List LedgerOp) : Option CellAttribution → Prop
  | none => NoneSince (Clears nb) (Updates nb c) ops
  | some attr => LastWriters nb c ops attr

/-- An operation that neither writes nor clears the record leaves it to what came before. -/
theorem Recorded.concat (h : Recorded nb c ops found) (hupdates : ¬ op.Updates nb c)
    (hclears : ¬ op.Clears nb) : Recorded nb c (ops ++ [op]) found := by
  cases found with
  | none => exact NoneSince.concat h hupdates
  | some attr =>
      obtain ⟨hnotebook, hcell, ⟨u, now, hlatest, htime⟩, hrole⟩ := h
      refine ⟨hnotebook, hcell, ⟨u, now, hlatest.concat hupdates hclears, htime⟩, fun role => ?_⟩
      have hcredits : ¬ op.Credits nb c role := fun h => hupdates h.updates
      rcases hrole role with ⟨hnone, hlast⟩ | ⟨u, now, hlatest, hlast⟩
      · exact .inl ⟨hnone.concat hcredits, hlast⟩
      · exact .inr ⟨u, now, hlatest.concat hcredits hclears, hlast⟩

theorem applyAttribution_role (attr : CellAttribution) (u : AttributionUpdate) (now : Time)
    (role : Role) :
    (applyAttribution attr u now).lastId role =
        (if (u.id role).isSome then u.id role else attr.lastId role) ∧
      (applyAttribution attr u now).lastType role =
        if (u.id role).isSome then u.type role else attr.lastType role := by
  cases role <;> exact ⟨rfl, rfl⟩

/-- A call for the cell becomes the latest one, also for each role that it names an actor for. -/
theorem Recorded.update (h : Recorded nb c ops found) (u : AttributionUpdate) (now : Time) :
    LastWriters nb c (ops ++ [.updateCellAttribution nb c u now])
      (applyAttribution (found.getD ⟨nb, c, now, none, none, none, none⟩) u now) := by
  have hclears : ¬ (LedgerOp.updateCellAttribution nb c u now).Clears nb := by
    rintro (h | h) <;> cases h
  have hnames : (found.getD ⟨nb, c, now, none, none, none, none⟩).notebookId = nb ∧
      (found.getD ⟨nb, c, now, none, none, none, none⟩).cellId = c := by
    cases found with
    | none => exact ⟨rfl, rfl⟩
    | some attr => exact ⟨h.notebook, h.cell⟩
  refine ⟨hnames.1, hnames.2, ⟨u, now, latestSince_concat ⟨u, now, rfl⟩, rfl⟩, fun role => ?_⟩
  obtain ⟨hid, htype⟩ := applyAttribution_role (found.getD ⟨nb, c, now, none, none, none, none⟩) u
    now role
  rw [hid, htype]
  by_cases hnamed : (u.id role).isSome = true
  · rw [if_pos hnamed, if_pos hnamed]
    exact .inr ⟨u, now, latestSince_concat ⟨u, now, rfl, hnamed⟩, rfl, rfl⟩
  · rw [if_neg hnamed, if_neg hnamed]
    have hcredits : ¬ (LedgerOp.updateCellAttribution nb c u now).Credits nb c role := by
      rintro ⟨u', now', heq, hsome⟩
      cases heq
      exact hnamed hsome
    cases found with
    | none =>
        have hnone : NoneSince (Clears nb) (Credits nb c role) ops :=
          NoneSince.imp h fun _ => Credits.updates
        left
        refine ⟨hnone.concat hcredits, ?_⟩
        cases role <;> exact ⟨rfl, rfl⟩
    | some attr =>
        rcases h.role role with ⟨hnone, hlast⟩ | ⟨u', now', hlatest, hlast⟩
        · exact .inl ⟨hnone.concat hcredits, hlast⟩
        · exact .inr ⟨u', now', hlatest.concat hcredits hclears, hlast⟩

theorem Recorded.register (h : Recorded nb c ops found) (op : LedgerOp) :
    Recorded nb c (ops ++ [op]) (MemoryLedger.register nb c found op) := by
  have hcleared : ∀ op : LedgerOp, op.Clears nb → Recorded nb c (ops ++ [op]) none := by
    intro op hclears
    refine noneSince_concat_of_cut hclears ?_
    rintro ⟨u, now, rfl⟩
    rcases hclears with h | h <;> cases h
  cases op with
  | updateCellAttribution nb' c' u now =>
      rw [MemoryLedger.register]
      split
      · rename_i hkey
        obtain ⟨rfl, rfl⟩ := hkey
        exact h.update u now
      · rename_i hkey
        apply h.concat
        · rintro ⟨u', now', heq⟩
          cases heq
          exact hkey ⟨rfl, rfl⟩
        · rintro (h | h) <;> cases h
  | evictNotebook nb' =>
      rw [MemoryLedger.register]
      split
      · rename_i hname
        exact hcleared _ (.inl (hname ▸ rfl))
      · rename_i hname
        apply h.concat
        · rintro ⟨u, now, heq⟩
          cases heq
        · rintro (heq | heq) <;> cases heq
          exact hname rfl
  | close => exact hcleared _ (.inr rfl)
  | _ =>
      apply h.concat
      · rintro ⟨u, now, heq⟩
        cases heq
      · rintro (heq | heq) <;> cases heq

theorem recorded_foldl (ops : List LedgerOp) :
    Recorded nb c ops (ops.foldl (MemoryLedger.register nb c) none) := by
  induction ops using List.reverseRecOn with
  | nil => exact noneSince_nil
  | append_singleton ops op ih =>
      rw [List.foldl_append]
      exact ih.register op

/-- After any sequence of operations there is a record of a cell exactly if it has been updated since
the last eviction of its notebook.  The record has the time of the latest of these calls and, for
each role, the actor of the latest of them that names one; operations that neither are calls for the
cell nor evict its notebook do not matter. -/
theorem last_writer_wins (maxCompleted : Int) (ops : List LedgerOp) (nb : NotebookId) (c : CellId) :
    let found := ((empty maxCompleted).performAll ops).getCellAttribution nb c
    (found = none ↔ NoneSince (Clears nb) (Updates nb c) ops) ∧
      (∀ attr, found = some attr → LastWriters nb c ops attr) ∧
      ∀ ops' : List LedgerOp,
        ops'.filter (·.concerns nb c) = ops.filter (·.concerns nb c) →
          ((empty maxCompleted).performAll ops').getCellAttribution nb c = found := by
  intro found
  have hfold : ∀ ops, ((empty maxCompleted).performAll ops).getCellAttribution nb c =
      ops.foldl (MemoryLedger.register nb c) none :=
    (empty maxCompleted).getCellAttribution_performAll
  have hrecorded : Recorded nb c ops found := by
    rw [show found = _ from hfold ops]
    exact recorded_foldl ops
  refine ⟨⟨fun hnone => ?_, fun hnone => ?_⟩, fun attr hsome => ?_, fun ops' hfilter => ?_⟩
  · rw [hnone] at hrecorded
    exact hrecorded
  · cases hfound : found with
    | none => rfl
    | some attr =>
        rw [hfound] at hrecorded
        obtain ⟨u, now, hlatest, -⟩ := hrecorded.time
        exact absurd hnone hlatest.not_noneSince
  · rw [hsome] at hrecorded
    exact hrecorded
  · rw [show found = _ from hfold ops, hfold, ← foldl_register_filter ops',
      ← foldl_register_filter ops, hfilter]

end MemoryLedger

end Hypernote
