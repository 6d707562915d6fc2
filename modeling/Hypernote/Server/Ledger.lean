import Hypernote.LedgerRuns
import Hypernote.Server.Jobs
/-!
# The extension as a user of the ledger

Whatever the tasks do, the ledger goes through a sequence of its own operations, so
what every such sequence keeps holds in every reachable state.
-/

namespace Hypernote

open Foundation MemoryLedger

namespace Server

variable {s s' s₀ : Server} {t : TaskId} {op : Op} {l : Label} {pc : Pc} {n : Next}

theorem ledgerRun_one {ledger ledger' : MemoryLedger} (op : LedgerOp)
    (h : ledger.perform op = ledger') : LedgerRun ledger ledger' :=
  .single trivial (congrArg some h)

theorem ledgerRun_attributed (s : Server) (o : Oracle) (run : JobRun) (cells : List CellId) :
    LedgerRun s.ledger (s.attributed o run cells) := by
  cases cells with
  | nil => exact .refl
  | cons c cells => exact ledgerRun_one (.updateCellAttribution ..) rfl

/-- A move performs at most two operations. -/
theorem TaskStep.ledgerRun (h : TaskStep s t op l pc n) : LedgerRun s.ledger n.state.ledger := by
  cases h with
  | call h =>
      cases h with
      | queued => exact ledgerRun_one (.createJob ..) rfl
      | interruptSubshell => exact ledgerRun_one (.createJob ..) rfl
      | interrupted => exact ledgerRun_one (.createJob ..) rfl
      | stdinSent =>
          exact (ledgerRun_one (.createJob ..) rfl).trans (ledgerRun_one (.updateJobStatus ..) rfl)
      | _ => exact .refl
  | ensure h => cases h <;> exact .refl
  | stop h =>
      cases h with
      | unknown => cases op <;> exact .refl
      | already => cases op <;> exact .refl
      | cleared =>
          rw [state_stopReturned]
          exact ledgerRun_one (.evictNotebook _) rfl
      | _ => exact .refl
  | @job run l pc n h =>
      cases h with
      | locked => exact ledgerRun_one (.updateJobStatus ..) rfl
      | succeeded => exact ledgerRun_one (.updateJobStatus ..) rfl
      | awaiting => exact ledgerRun_one (.updateJobStatus ..) rfl
      | awaitingUnregistered => exact ledgerRun_one (.updateJobStatus ..) rfl
      | flushedError =>
          exact (s.ledgerRun_attributed _ run _).trans (ledgerRun_one (.updateJobStatus ..) rfl)
      | flushed => exact s.ledgerRun_attributed _ run _
      | failed => exact ledgerRun_one (.updateJobStatus ..) rfl
      | @put o r c cells k source document uid ledger hput hk hledger =>
          apply ledgerRun_one (.appendRequestUid run.jobId uid)
          rw [perform, hledger]
          rfl
      | _ => exact .refl

/-- Attributions are forgotten by the callback of a stop, and made where a flush returns. -/
theorem TaskStep.cellAttribution (h : TaskStep s t op l pc n) :
    n.state.ledger.cellAttribution = s.ledger.cellAttribution ∨
    (∃ r rest stopped, pc = .stopFinally r rest stopped none ∧
      n.state.ledger = s.ledger.evictNotebook (s.room r).notebookId) ∨
    ∃ run r cells result o, op = .runJob run ∧ pc = .flushing r cells result ∧
      l = .resume t .returned o ∧
      n.state.ledger.cellAttribution = (s.attributed o run cells).cellAttribution := by
  cases h with
  | call h =>
      cases h with
      | queued => exact .inl cellAttribution_createJob
      | interruptSubshell => exact .inl cellAttribution_createJob
      | interrupted => exact .inl cellAttribution_createJob
      | stdinSent => exact .inl (cellAttribution_updateJobStatus.trans cellAttribution_createJob)
      | _ => exact .inl rfl
  | ensure h => cases h <;> exact .inl rfl
  | stop h =>
      cases h with
      | unknown => cases op <;> exact .inl rfl
      | already => cases op <;> exact .inl rfl
      | cleared =>
          rw [state_stopReturned]
          exact .inr (.inl ⟨_, _, _, rfl, rfl⟩)
      | _ => exact .inl rfl
  | @job run l pc n h =>
      cases h with
      | locked => exact .inl cellAttribution_updateJobStatus
      | succeeded => exact .inl cellAttribution_updateJobStatus
      | awaiting => exact .inl cellAttribution_updateJobStatus
      | awaitingUnregistered => exact .inl cellAttribution_updateJobStatus
      | flushedError =>
          exact .inr (.inr ⟨_, _, _, _, _, rfl, rfl, rfl, cellAttribution_updateJobStatus⟩)
      | flushed => exact .inr (.inr ⟨_, _, _, _, _, rfl, rfl, rfl, rfl⟩)
      | failed => exact .inl cellAttribution_updateJobStatus
      | put _ _ hledger => exact .inl (cellAttribution_appendRequestUid hledger)
      | _ => exact .inl rfl

theorem ledgerRun {G : Server → Label → Prop} (h : ServerRun G s₀ s) :
    LedgerRun s₀.ledger s.ledger := by
  apply Run.invariant (I := fun s : Server => LedgerRun s₀.ledger s.ledger) h .refl
  intro u l u' hu _ hstep
  rcases (step_cases hstep).ledger with hsame | ⟨t, op, pc, n, -, hmove, rfl, -⟩
  · exact hsame ▸ hu
  · exact hu.trans hmove.ledgerRun

theorem indexed_run {ttl : Time} {maxCompleted : Int} {alive : KernelId → Bool}
    {kernelspec : NotebookId → Option String} {G : Server → Label → Prop}
    (h : ServerRun G (boot ttl maxCompleted alive kernelspec) s) : Indexed s.ledger :=
  Indexed.empty.run (ledgerRun h)

theorem bounded_run {ttl : Time} {m : Nat} {alive : KernelId → Bool}
    {kernelspec : NotebookId → Option String} {G : Server → Label → Prop}
    (h : ServerRun G (boot ttl m alive kernelspec) s) (nb : NotebookId) :
    (s.ledger.completedIds nb).length ≤ m := by
  have hbound := (bounded_empty m).run (ledgerRun h) .empty nb
  rw [maxCompleted_run (ledgerRun h)] at hbound
  exact Int.ofNat_le.mp hbound

end Server

end Hypernote
