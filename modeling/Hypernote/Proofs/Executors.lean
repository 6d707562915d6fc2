import Hypernote.Executions
import Hypernote.Proofs.UniqueIds
/-!
# Who is credited with a cell

The ledger keeps the executor of a cell under the id of the cell alone, so an id that is used again
brings its executor with it.  Apart from that, and from results that are not saved, the executor
reported is the one who has executed the cell last.
-/

namespace Hypernote

open Foundation

/-! ## The executors in the ledger -/

namespace MemoryLedger

variable {l : MemoryLedger} {notebookId : NotebookId} {cellId c : CellId} {actor : Actor}
  {now : Time}

theorem getCellAttribution_update {u : AttributionUpdate} :
    (l.updateCellAttribution notebookId cellId u now).getCellAttribution notebookId c =
      if c = cellId then
        some (applyAttribution ((l.getCellAttribution notebookId cellId).getD
          ⟨notebookId, cellId, now, none, none, none, none⟩) u now)
      else l.getCellAttribution notebookId c := by
  rw [getCellAttribution_updateCellAttribution]
  simp only [true_and]
  split
  · rename_i hc
    rw [hc]
  · rfl

theorem executorOf_setEditor :
    (l.setEditor notebookId cellId actor now).executorOf notebookId c =
      l.executorOf notebookId c := by
  unfold executorOf setEditor
  rw [getCellAttribution_update]
  split
  · rename_i hc
    subst hc
    cases l.getCellAttribution notebookId c with
    | none => rfl
    | some attr => simp [applyAttribution]
  · rfl

theorem executorOf_setExecutor :
    (l.setExecutor notebookId cellId actor now).executorOf notebookId c =
      if c = cellId then some actor.credit else l.executorOf notebookId c := by
  unfold executorOf setExecutor
  rw [getCellAttribution_update]
  split
  · simp [applyAttribution, Actor.credit]
  · rfl

end MemoryLedger

namespace AttributedNotebook

open MemoryLedger

variable {ω μ : Type} {lib : YNotebook CellId ω μ} {notebookId : NotebookId}
  {s s' : AttributedNotebook lib} {l : NotebookLabel μ} {c : CellId} {actor : Actor}
  {rest : List CellId} {execution : CellExecution}

/-- Whoever is reported has executed the cell last since it was inserted last. -/
def Credited (notebookId : NotebookId) (s : AttributedNotebook lib) : Prop :=
  ∀ c executor, s.ledger.executorOf notebookId c = some executor →
    (s.executions c).map Actor.credit = some executor

/-- A cell is inserted with an id that is credited to nobody; an execution whose result is saved has
run the cell that has the id now; and one whose result is not saved has run a cell credited to
nobody or to the same actor, or one that has been inserted again. -/
def Attributable (notebookId : NotebookId) (s : AttributedNotebook lib) : NotebookLabel μ → Prop
  | .request _ request _ =>
      ∀ c, insertedId lib s.ycells request = some c → s.ledger.executorOf notebookId c = none
  | .endCell _ saved _ =>
      ∀ job, s.job = some job → ∀ execution, job.execution = some execution →
        if saved then s.insertions execution.cellId = execution.insertion
        else
          s.insertions execution.cellId = execution.insertion →
            ∀ executor, s.ledger.executorOf notebookId execution.cellId = some executor →
              executor = job.actor.credit
  | _ => True

instance (notebookId : NotebookId) (s : AttributedNotebook lib) (l : NotebookLabel μ) :
    Decidable (Attributable notebookId s l) :=
  match l with
  | .request _ _ _ => inferInstanceAs (Decidable (∀ c, _ = some c → _ = none))
  | .endCell _ _ _ =>
      inferInstanceAs (Decidable (∀ job, _ = some job → ∀ execution, _ = some execution → ite _ _ _))
  | .startJob _ _ => .isTrue trivial
  | .nextCell => .isTrue trivial
  | .jobRaises => .isTrue trivial

/-- Nobody has executed the cell that has taken the id of the one that the job runs. -/
def ReplacedUnexecuted (s : AttributedNotebook lib) : Prop :=
  ∀ job execution, s.job = some job → job.execution = some execution →
    s.insertions execution.cellId ≠ execution.insertion → s.executions execution.cellId = none

/-! ## What a step does -/

theorem noteInsertion_executions (s : AttributedNotebook lib) (id : Option CellId) (c : CellId) :
    (s.noteInsertion id).executions c = if id = some c then none else s.executions c := by
  cases id with
  | none => rfl
  | some cellId =>
      unfold noteInsertion
      dsimp only
      rw [Function.update_apply]
      simp only [Option.some.injEq, eq_comm]

@[simp] theorem noteInsertion_job (s : AttributedNotebook lib) (id : Option CellId) :
    (s.noteInsertion id).job = s.job := by
  cases id <;> rfl

theorem noteInsertion_insertions_of_ne {id : Option CellId} (h : id ≠ some c) :
    (s.noteInsertion id).insertions c = s.insertions c := by
  cases id with
  | none => rfl
  | some cellId => exact Function.update_of_ne (fun heq => h (congrArg some heq.symm)) _ _

theorem noteExecution_executions (s : AttributedNotebook lib) (execution : CellExecution)
    (actor : Actor) (c : CellId) :
    (s.noteExecution execution actor).executions c =
      if c = execution.cellId ∧ s.insertions execution.cellId = execution.insertion then some actor
      else s.executions c := by
  unfold noteExecution
  by_cases hsame : s.insertions execution.cellId = execution.insertion
  · rw [if_pos hsame]
    dsimp only
    rw [Function.update_apply]
    simp only [hsame, and_true]
  · rw [if_neg hsame, if_neg fun h => hsame h.2]

@[simp] theorem noteExecution_ledger (s : AttributedNotebook lib) (execution : CellExecution)
    (actor : Actor) : (s.noteExecution execution actor).ledger = s.ledger := by
  unfold noteExecution
  split <;> rfl

variable [EmptyCollection μ]

theorem serve_executorOf (actor : Actor) (request : CellRequest CellId μ) (now : Time) :
    (s.serve notebookId actor request now).ledger.executorOf notebookId c =
      s.ledger.executorOf notebookId c := by
  unfold serve
  dsimp only
  split
  · exact executorOf_setEditor
  · rfl

/-- What a step does to the job, to the executions and to the executors reported. -/
inductive CreditStep (notebookId : NotebookId) (s : AttributedNotebook lib) (l : NotebookLabel μ)
    (s' : AttributedNotebook lib) : Prop
  | served {actor request now} (hl : l = .request actor request now)
      (hs' : s' = s.serve notebookId actor request now)
  | kept (hadmitted : Attributable notebookId s l) (hledger : s'.ledger = s.ledger)
      (hexecutions : s'.executions = s.executions)
      (hjob : ∀ job execution, s'.job = some job → job.execution = some execution →
        s'.insertions execution.cellId = execution.insertion)
  | ended {failed saved now actor rest execution} (hl : l = .endCell failed saved now)
      (hjob : s.job = some ⟨actor, rest, some execution⟩)
      (hexecutions : s'.executions = (s.noteExecution execution actor).executions)
      (hledger : s'.ledger =
        if saved then s.ledger.setExecutor notebookId execution.cellId actor now else s.ledger)
      (hnone : ∀ job, s'.job = some job → job.execution = none)

theorem creditStep (h : step notebookId s l = some s') : CreditStep notebookId s l s' := by
  cases l with
  | request actor request now => exact .served rfl (Option.some.inj h).symm
  | startJob actor cellIds =>
      obtain ⟨-, h⟩ := Option.ite_none_right_eq_some.mp h
      obtain rfl := Option.some.inj h
      refine .kept trivial rfl rfl ?_
      rintro job execution hjob hexecution
      cases hjob
      cases hexecution
  | nextCell =>
      simp only [step] at h
      split at h
      · obtain rfl := Option.some.inj h
        exact .kept trivial rfl rfl fun _ _ hjob => nomatch hjob
      · split at h
        · obtain rfl := Option.some.inj h
          refine .kept trivial rfl rfl ?_
          rintro job execution hjob hexecution
          cases hjob
          cases hexecution
          rfl
        · obtain rfl := Option.some.inj h
          exact .kept trivial rfl rfl fun _ _ hjob => nomatch hjob
      · cases h
  | endCell failed saved now =>
      simp only [step] at h
      split at h
      · rename_i actor rest execution hjob
        obtain rfl := Option.some.inj h
        refine .ended rfl hjob ?_ ?_ ?_
        · cases saved <;> rfl
        · cases saved with
          | true => rfl
          | false => exact noteExecution_ledger s execution actor
        · rintro job hjob'
          cases saved with
          | true =>
              cases failed with
              | true => cases hjob'
              | false =>
                  cases hjob'
                  rfl
          | false => cases hjob'
      · cases h
  | jobRaises =>
      obtain ⟨-, h⟩ := Option.ite_none_right_eq_some.mp h
      obtain rfl := Option.some.inj h
      exact .kept trivial rfl rfl fun _ _ hjob => nomatch hjob

theorem replacedUnexecuted_step (hs : s.ReplacedUnexecuted) (h : step notebookId s l = some s') :
    s'.ReplacedUnexecuted := by
  intro job execution hjob hexecution hreplaced
  cases creditStep h with
  | @served actor request now _ hs' =>
      subst hs'
      unfold serve at hjob hreplaced ⊢
      dsimp only at hjob hreplaced ⊢
      rw [noteInsertion_job] at hjob
      rw [noteInsertion_executions]
      split
      · rfl
      · rename_i hother
        rw [noteInsertion_insertions_of_ne hother] at hreplaced
        exact hs job execution hjob hexecution hreplaced
  | kept _ _ _ hfresh => exact absurd (hfresh job execution hjob hexecution) hreplaced
  | ended _ _ _ _ hnone => cases (hnone job hjob).symm.trans hexecution

/-! ## What keeps the credits right -/

theorem credited_serve_iff (hs : s.Credited notebookId) (actor : Actor)
    (request : CellRequest CellId μ) (now : Time) :
    (s.serve notebookId actor request now).Credited notebookId ↔
      s.Attributable notebookId (.request actor request now) := by
  unfold Credited Attributable
  simp only [serve_executorOf]
  have hexecutions : ∀ c, (s.serve notebookId actor request now).executions c =
      if insertedId lib s.ycells request = some c then none else s.executions c :=
    fun c => noteInsertion_executions s _ c
  simp only [hexecutions]
  constructor
  · intro hcredited c hinserted
    rw [Option.eq_none_iff_forall_ne_some]
    intro executor hexecutor
    have hmap := hcredited c executor hexecutor
    rw [if_pos hinserted] at hmap
    cases hmap
  · intro hfree c executor hexecutor
    by_cases hinserted : insertedId lib s.ycells request = some c
    · rw [hfree c hinserted] at hexecutor
      cases hexecutor
    · rw [if_neg hinserted]
      exact hs c executor hexecutor

omit [EmptyCollection μ] in
theorem credited_saved_iff (hs : s.Credited notebookId)
    (hreplaced : s.insertions execution.cellId ≠ execution.insertion →
      s.executions execution.cellId = none) {now : Time}
    (hledger : s'.ledger = s.ledger.setExecutor notebookId execution.cellId actor now)
    (hexecutions : s'.executions = (s.noteExecution execution actor).executions) :
    s'.Credited notebookId ↔ s.insertions execution.cellId = execution.insertion := by
  unfold Credited
  rw [hledger, hexecutions]
  simp only [executorOf_setExecutor, noteExecution_executions]
  constructor
  · intro hcredited
    by_contra hstale
    have hmap := hcredited execution.cellId actor.credit (if_pos rfl)
    rw [if_neg fun h => hstale h.2, hreplaced hstale] at hmap
    cases hmap
  · intro hsame c executor hexecutor
    by_cases hc : c = execution.cellId
    · rw [if_pos hc] at hexecutor
      rw [if_pos ⟨hc, hsame⟩]
      exact hexecutor
    · rw [if_neg hc] at hexecutor
      rw [if_neg fun h => hc h.1]
      exact hs c executor hexecutor

omit [EmptyCollection μ] in
theorem credited_unsaved_iff (hs : s.Credited notebookId) (hledger : s'.ledger = s.ledger)
    (hexecutions : s'.executions = (s.noteExecution execution actor).executions) :
    s'.Credited notebookId ↔
      (s.insertions execution.cellId = execution.insertion →
        ∀ executor, s.ledger.executorOf notebookId execution.cellId = some executor →
          executor = actor.credit) := by
  unfold Credited
  rw [hledger, hexecutions]
  simp only [noteExecution_executions]
  constructor
  · intro hcredited hsame executor hexecutor
    have hmap := hcredited execution.cellId executor hexecutor
    rw [if_pos ⟨rfl, hsame⟩] at hmap
    exact (Option.some.inj hmap).symm
  · intro hactor c executor hexecutor
    split
    · rename_i hc
      obtain ⟨rfl, hsame⟩ := hc
      rw [hactor hsame executor hexecutor]
      rfl
    · exact hs c executor hexecutor

omit [EmptyCollection μ] in
theorem attributable_endCell_iff (hjob : s.job = some ⟨actor, rest, some execution⟩)
    (failed saved : Bool) (now : Time) :
    s.Attributable notebookId (.endCell failed saved now) ↔
      if saved then s.insertions execution.cellId = execution.insertion
      else
        s.insertions execution.cellId = execution.insertion →
          ∀ executor, s.ledger.executorOf notebookId execution.cellId = some executor →
            executor = actor.credit := by
  unfold Attributable
  constructor
  · intro h
    exact h _ hjob _ rfl
  · rintro h job hjob' execution' hexecution
    rw [hjob] at hjob'
    cases hjob'
    cases hexecution
    exact h

/-- A step leaves the credits right if and only if it is attributable. -/
theorem credited_step_iff (hs : s.Credited notebookId) (hreplaced : s.ReplacedUnexecuted)
    (h : step notebookId s l = some s') :
    s'.Credited notebookId ↔ s.Attributable notebookId l := by
  cases creditStep h with
  | served hl hs' =>
      subst hl hs'
      exact credited_serve_iff hs _ _ _
  | kept hadmitted hledger hexecutions =>
      refine iff_of_true ?_ hadmitted
      unfold Credited
      rw [hledger, hexecutions]
      exact hs
  | @ended failed saved now actor rest execution hl hjob hexecutions hledger =>
      subst hl
      have hattributable : s.Attributable notebookId (.endCell failed saved now) ↔ _ :=
        attributable_endCell_iff hjob failed saved now
      cases saved with
      | true =>
          exact (credited_saved_iff hs (hreplaced _ _ hjob rfl) hledger hexecutions).trans
            hattributable.symm
      | false => exact (credited_unsaved_iff hs hledger hexecutions).trans hattributable.symm

section

variable {start : List lib.YCell} {maxCompleted : Int}

theorem credited_of_run
    (hrun : Run (step notebookId) (Attributable notebookId) (initial start maxCompleted) s) :
    s.Credited notebookId ∧ s.ReplacedUnexecuted := by
  refine hrun.invariant (I := fun s => s.Credited notebookId ∧ s.ReplacedUnexecuted) ?_ ?_
  · refine ⟨?_, fun _ _ hjob => nomatch hjob⟩
    intro c executor hexecutor
    cases hexecutor
  · rintro s l s' ⟨hcredited, hreplaced⟩ hadmitted hstep
    exact ⟨(credited_step_iff hcredited hreplaced hstep).mpr hadmitted,
      replacedUnexecuted_step hreplaced hstep⟩

/-- As long as every step is attributable, whoever is reported as the last executor of a cell has
executed it last since it was inserted last; and the first step that is not ends that. -/
theorem executor_is_latest (notebookId : NotebookId) (start : List lib.YCell) (maxCompleted : Int) :
    (∀ s, Run (step notebookId) (Attributable notebookId) (initial start maxCompleted) s →
        ∀ c attr executorId, s.ledger.getCellAttribution notebookId c = some attr →
          attr.lastExecutorId = some executorId →
            ∃ actor, s.executions c = some actor ∧ executorId = actor.actorId ∧
              attr.lastExecutorType = some actor.actorType.value) ∧
      ∀ s, Run (step notebookId) (Attributable notebookId) (initial start maxCompleted) s →
        ∀ l s', step notebookId s l = some s' →
          (s'.Credited notebookId ↔ s.Attributable notebookId l) := by
  constructor
  · intro s hrun c attr executorId hattr hexecutor
    have hreported : s.ledger.executorOf notebookId c = some (executorId, attr.lastExecutorType) := by
      rw [executorOf, hattr, Option.bind_some, hexecutor, Option.map_some]
    obtain ⟨actor, hactor, hcredit⟩ :=
      Option.map_eq_some_iff.mp ((credited_of_run hrun).1 c _ hreported)
    obtain ⟨hid, htype⟩ := Prod.mk.inj hcredit
    exact ⟨actor, hactor, hid.symm, htype.symm⟩
  · intro s hrun l s' hstep
    obtain ⟨hcredited, hreplaced⟩ := credited_of_run hrun
    exact credited_step_iff hcredited hreplaced hstep

end

/-! ## Two actors and one id -/

private def alice : Actor := ⟨"alice", .human⟩

private def bob : Actor := ⟨"bob", .agent⟩

private def insertsA : NotebookLabel (List String) :=
  .request bob (.post (YNotebook.bodyWithId (some "a"))) 0

private def runsA (actor : Actor) : List (NotebookLabel (List String)) :=
  [.startJob actor ["a"], .nextCell, .endCell false true 1, .nextCell]

private abbrev blank : AttributedNotebook (YNotebook.ofCells String String (List String)) :=
  initial [] 0

/-- Bob executes the cell after Alice. -/
theorem second_executor_reported :
    ∃ s, Run (step "n") (Attributable "n") blank s ∧
      s.ledger.executorOf "n" "a" = some ("bob", some "agent") ∧
      ∃ actor, s.executions "a" = some actor ∧ "bob" = actor.actorId ∧
        some "agent" = some actor.actorType.value := by
  have hguarded : guardedBy (step "n") (Attributable "n") blank
      (insertsA :: runsA alice ++ runsA bob) = true := by decide
  have hexec : (exec (step "n") blank (insertsA :: runsA alice ++ runsA bob)).any
      (fun s => s.ledger.getCellAttribution "n" "a" =
        some ⟨"n", "a", 1, some "bob", some "agent", some "bob", some "agent"⟩) = true := by
    decide
  obtain ⟨s, hrun, hattr⟩ := exists_guarded_run_of_exec hguarded hexec
  refine ⟨s, hrun, ?_, ?_⟩
  · rw [executorOf, hattr]
    rfl
  · exact (executor_is_latest "n" _ 0).1 s hrun "a" _ "bob" hattr rfl

/-- Alice is reported for a cell that nobody has executed: she has executed a deleted cell with its
id. -/
theorem deleted_cell_credited :
    ∃ s, Run (step "n") anyStep blank s ∧
      s.ledger.executorOf "n" "a" = some ("alice", some "human") ∧ s.executions "a" = none := by
  have hexec : (exec (step "n") blank
      (insertsA :: runsA alice ++ [.request bob (.delete "a") 2, insertsA])).any
      (fun s => s.ledger.executorOf "n" "a" = some ("alice", some "human") ∧
        s.executions "a" = none) = true := by
    decide
  exact exists_run_of_exec hexec

end AttributedNotebook

end Hypernote
