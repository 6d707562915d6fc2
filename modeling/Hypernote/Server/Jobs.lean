import Hypernote.Server.WellFormed
/-!
# What one step does to a job's record

A record is written by the task that runs the job and by the calls of `send_stdin` for
it, and it is forgotten when its notebook is evicted or, once completed, pruned.
`JobChange` lists these together with the program points at which they happen.
-/

namespace Hypernote

open Foundation MemoryLedger

/-- The points after the last write of `_run_job` to its job. -/
def Pc.isSettled : Pc → Bool
  | .jobFinally .. | .done _ => true
  | _ => false

def Pc.isDone : Pc → Bool
  | .done _ => true
  | _ => false

/-- The notebook for which a call records a job of its own when it moves from a program point. -/
def Pc.recordsFor : Pc → Op → Option NotebookId
  | .ensured nb _, .queueExecution .. | .ensured nb _, .interrupt .. => some nb
  | .interrupting (some _), .interrupt nb _ => some nb
  | .sendingInput nb _, .sendStdin .. => some nb
  | _, _ => none

namespace Server

/-- The writes of `_run_job` to the status of its job. -/
inductive Writes : Pc → Pc → JobStatus → Prop
  | running {r cells} : Writes (.locked r) (.nextCell r cells) .running
  | awaiting {r cells uid pc'}
      (hpc' : pc' = .sleeping r cells uid ∨ ∃ error, pc' = .jobRaised r error) :
      Writes (.polling r cells uid) pc' .awaitingInput
  | succeeded {r} : Writes (.nextCell r []) (.jobFinally r none) .succeeded
  | cellFailed {r cells result} : Writes (.flushing r cells result) (.jobFinally r none) .failed
  | failed {r error} (herror : error.isException = true) :
      Writes (.jobRaised r error) (.jobFinally r none) .failed

/-- What a move does to the record of a job. -/
inductive JobChange (s : Server) (op : Op) (l : Label) (pc : Pc) (n : Next) (j : JobId) :
    Option Job → Prop
  | forgets {job} (h : Forgets (s.ledger.getJob j) job) : JobChange s op l pc n j job
  | evicted {r rest stopped} (hpc : pc = .stopFinally r rest stopped none) :
      JobChange s op l pc n j none
  | created {job} (hj : j = s.ledger.nextJobId)
      (hnext : n.state.ledger.nextJobId = s.ledger.nextJobId + 1) (hstatus : job.status = .queued)
      (hcompleted : job.completedAt = none) (huids : job.requestUids = [])
      (hrecords : pc.recordsFor op = some job.notebookId) : JobChange s op l pc n j (some job)
  | written {run job job' status r now} (hop : op = .runJob run) (hj : j = run.jobId)
      (hwrites : Writes pc n.pc status) (hold : s.ledger.getJob j = some job)
      (h : Forgets (some (setStatus job status r now)) job') : JobChange s op l pc n j job'
  | answered {value actor nb r job t o} (hop : op = .sendStdin j value actor)
      (hpc : pc = .sendingInput nb r) (hl : l = .resume t .returned o)
      (hold : s.ledger.getJob j = some job) :
      JobChange s op l pc n j (some (setStatus job .running (some r) o.now))
  | put {run job r c cells source uid} (hop : op = .runJob run) (hj : j = run.jobId)
      (hpc : pc = .readingDocument r (c :: cells) source)
      (hpc' : n.pc = .polling r (c :: cells) uid) (hold : s.ledger.getJob j = some job) :
      JobChange s op l pc n j (some { job with requestUids := job.requestUids ++ [uid] })

variable {s s' : Server} {t t' : TaskId} {op : Op} {l : Label} {pc pc' : Pc} {n : Next}
  {r : RoomId} {j : JobId} {run : JobRun} {job : Job}

theorem Writes.isSettled {status : JobStatus} (h : Writes pc pc' status) :
    pc.isSettled = false := by
  cases h <;> rfl

/-- A write to the status of one job, as seen by all of them. -/
theorem jobChange_written {ledger : MemoryLedger} {status : JobStatus} {rid : Option RoomId}
    {now : Time} (hledger : ∀ j, ledger.getJob j = s.ledger.getJob j)
    (hwrites : Writes pc n.pc status) :
    JobChange s (.runJob run) l pc n j
      ((ledger.updateJobStatus run.jobId status rid now).getJob j) := by
  by_cases hj : j = run.jobId
  · subst hj
    have h : Forgets ((s.ledger.getJob run.jobId).map (setStatus · status rid now))
        ((ledger.updateJobStatus run.jobId status rid now).getJob run.jobId) := by
      rw [← hledger run.jobId]
      exact ledger.getJob_updateJobStatus_self run.jobId status rid now
    cases hjob : s.ledger.getJob run.jobId with
    | none =>
        rw [hjob] at h
        exact .forgets (hjob ▸ h)
    | some job =>
        rw [hjob] at h
        exact .written rfl rfl hwrites hjob h
  · refine .forgets ?_
    rw [← hledger j]
    exact ledger.getJob_updateJobStatus_of_ne status rid now hj

/-- The record of a new job, as seen by all of them. -/
theorem jobChange_created {nb : NotebookId} {actor : Actor} {action : JobAction}
    {targetCells : Option String} {rid : Option RoomId} {now : Time}
    (hrecords : pc.recordsFor op = some nb)
    (hledger : n.state.ledger = s.ledger.createJob nb actor action targetCells rid now) :
    JobChange s op l pc n j (n.state.ledger.getJob j) := by
  rw [hledger]
  have hnext := hledger ▸ nextJobId_createJob
  by_cases hj : j = s.ledger.nextJobId
  · subst hj
    rw [getJob_createJob_self]
    exact .created rfl hnext rfl rfl rfl hrecords
  · exact .forgets (getJob_createJob_of_ne hj)

/-- The last lines of `send_stdin`, as seen by all jobs. -/
theorem jobChange_answered {jobId : JobId} {value : String} {actor actor' : Actor}
    {nb : NotebookId} {o : Oracle} {targetCells : Option String} {action : JobAction}
    (hlt : jobId < s.ledger.nextJobId) (hop : op = .sendStdin jobId value actor)
    (hpc : pc = .sendingInput nb r) (hl : l = .resume t .returned o)
    (hledger : n.state.ledger = (s.ledger.createJob nb actor' action targetCells (some r)
      o.now).updateJobStatus jobId .running (some r) o.now) :
    JobChange s op l pc n j (n.state.ledger.getJob j) := by
  have hnext : n.state.ledger.nextJobId = s.ledger.nextJobId + 1 := by rw [hledger]; simp
  rw [hledger]
  clear hledger
  have hcreated := s.ledger.getJob_createJob nb actor' action targetCells (some r) o.now j
  generalize s.ledger.createJob nb actor' action targetCells (some r) o.now = created at hcreated ⊢
  by_cases hj : j = jobId
  · subst hj
    rw [if_neg (Nat.ne_of_lt hlt)] at hcreated
    have hupdated := created.getJob_updateJobStatus_self j .running (some r) o.now
    generalize (created.updateJobStatus j .running (some r) o.now).getJob j = after at hupdated ⊢
    generalize created.getJob j = between at hcreated hupdated
    cases hcreated with
    | kept =>
        cases hjob : s.ledger.getJob j with
        | none =>
            rw [hjob] at hupdated
            exact .forgets (hjob ▸ hupdated)
        | some job =>
            rw [hjob] at hupdated
            rw [Forgets.of_active hupdated rfl]
            exact .answered hop hpc hl hjob
    | pruned hjob hterminal =>
        cases hupdated with
        | kept => exact .forgets (.pruned hjob hterminal)
        | pruned h => cases h
  · have hupdated := created.getJob_updateJobStatus_of_ne .running (some r) o.now hj
    generalize (created.updateJobStatus jobId .running (some r) o.now).getJob j = after
      at hupdated ⊢
    split at hcreated
    · rw [Forgets.of_active hcreated rfl] at hupdated
      rw [Forgets.of_active hupdated rfl]
      exact .created ‹_› hnext rfl rfl rfl (by rw [hpc, hop]; rfl)
    · exact .forgets (hcreated.trans hupdated)

@[simp] theorem getJob_attributed (s : Server) (o : Oracle) (run : JobRun) (cells : List CellId)
    (j : JobId) : (s.attributed o run cells).getJob j = s.ledger.getJob j := by
  cases cells <;> rfl

@[simp] theorem nextJobId_attributed (s : Server) (o : Oracle) (run : JobRun)
    (cells : List CellId) : (s.attributed o run cells).nextJobId = s.ledger.nextJobId := by
  cases cells <;> rfl

theorem TaskStep.job_change (h : TaskStep s t op l pc n)
    (hstdin : ∀ j value actor nb r, op = .sendStdin j value actor → pc = .sendingInput nb r →
      j < s.ledger.nextJobId) (j : JobId) :
    JobChange s op l pc n j (n.state.ledger.getJob j) := by
  cases h with
  | call h =>
      cases h with
      | queued => exact jobChange_created rfl rfl
      | interruptSubshell => exact jobChange_created rfl rfl
      | interrupted => exact jobChange_created rfl rfl
      | @stdinSent o nb r jobId value actor mgr outcome =>
          have hlt := hstdin jobId value actor nb r rfl rfl
          exact jobChange_answered hlt rfl rfl rfl rfl
      | _ => exact .forgets .kept
  | ensure h => cases h <;> exact .forgets .kept
  | stop h =>
      cases h with
      | unknown => cases op <;> exact .forgets .kept
      | already => cases op <;> exact .forgets .kept
      | cleared =>
          rw [state_stopReturned]
          rcases getJob_evictNotebook (l := s.ledger) (j := j) with h | h
          · dsimp only
            rw [h]
            exact .forgets .kept
          · dsimp only
            rw [h]
            exact .evicted rfl
      | _ => exact .forgets .kept
  | @job run l pc n h =>
      cases h with
      | locked => exact jobChange_written (fun _ => rfl) .running
      | succeeded => exact jobChange_written (fun _ => rfl) .succeeded
      | awaiting => exact jobChange_written (fun _ => rfl) (.awaiting (.inl rfl))
      | awaitingUnregistered =>
          exact jobChange_written (fun _ => rfl) (.awaiting (.inr ⟨_, rfl⟩))
      | flushedError => exact jobChange_written (s.getJob_attributed _ run _) .cellFailed
      | flushed =>
          rw [getJob_attributed]
          exact .forgets .kept
      | failed herror => exact jobChange_written (fun _ => rfl) (.failed herror)
      | put hput hk hledger =>
          dsimp only
          rw [getJob_appendRequestUid hledger]
          split
          · rename_i hj
            subst hj
            cases hjob : s.ledger.getJob run.jobId with
            | none =>
                rw [Option.map_none]
                exact .forgets (hjob ▸ .kept)
            | some job => exact .put rfl rfl rfl rfl hjob
          · exact .forgets .kept
      | _ => exact .forgets .kept

/-- A record is of the notebook it was for, or has just been made for its own. -/
theorem JobChange.notebookId (h : JobChange s op l pc n j (some job)) :
    (∃ old, s.ledger.getJob j = some old ∧ old.notebookId = job.notebookId) ∨
      pc.recordsFor op = some job.notebookId := by
  cases h with
  | forgets h => exact .inl ⟨_, h.of_some, rfl⟩
  | created _ _ _ _ _ hrecords => exact .inr hrecords
  | written _ _ _ hold h =>
      cases h.of_some
      exact .inl ⟨_, hold, rfl⟩
  | answered _ _ _ hold => exact .inl ⟨_, hold, rfl⟩
  | put _ _ _ _ hold => exact .inl ⟨_, hold, rfl⟩

/-- Only a call hands out a job number; what a job or a stop does hands out none. -/
theorem TaskStep.nextJobId_kept (h : TaskStep s t op l pc n) :
    n.state.ledger.nextJobId = s.ledger.nextJobId ∨ CallStep s t op l pc n := by
  cases h with
  | call h => exact .inr h
  | ensure h =>
      left
      cases h <;> rfl
  | stop h =>
      left
      cases h with
      | unknown => cases op <;> rfl
      | already => cases op <;> rfl
      | cleared =>
          rw [state_stopReturned]
          rfl
      | _ => rfl
  | job h =>
      left
      cases h with
      | locked => exact nextJobId_updateJobStatus
      | succeeded => exact nextJobId_updateJobStatus
      | awaiting => exact nextJobId_updateJobStatus
      | awaitingUnregistered => exact nextJobId_updateJobStatus
      | flushedError => exact nextJobId_updateJobStatus.trans (s.nextJobId_attributed ..)
      | flushed => exact s.nextJobId_attributed ..
      | failed => exact nextJobId_updateJobStatus
      | put _ _ hledger => exact nextJobId_appendRequestUid hledger
      | _ => rfl

theorem TaskStep.nextJobId (h : TaskStep s t op l pc n) :
    n.state.ledger.nextJobId = s.ledger.nextJobId ∨
      n.state.ledger.nextJobId = s.ledger.nextJobId + 1 := by
  rcases h.nextJobId_kept with hkept | h
  · exact .inl hkept
  · cases h with
    | queued => exact .inr nextJobId_createJob
    | interruptSubshell => exact .inr nextJobId_createJob
    | interrupted => exact .inr nextJobId_createJob
    | stdinSent => exact .inr (nextJobId_updateJobStatus.trans nextJobId_createJob)
    | _ => exact .inl rfl

theorem StepCase.ledger (h : StepCase s l s') :
    s'.ledger = s.ledger ∨ ∃ t op pc n, s.tasks t = some ⟨op, pc⟩ ∧ TaskStep s t op l pc n ∧
      s' = n.commit t op ∧ s.mover l = some t := by
  cases h with
  | call => exact .inl rfl
  | task ht h hrun hmover => exact .inr ⟨_, _, _, _, ht, h, rfl, hmover⟩
  | @outside c => exact .inl (by cases c <;> rfl)

theorem nextJobId_le (h : StepCase s l s') : s.ledger.nextJobId ≤ s'.ledger.nextJobId := by
  rcases h.ledger with hledger | ⟨t, op, pc, n, -, hmove, rfl, -⟩
  · rw [hledger]
  · rcases hmove.nextJobId with hn | hn
    · exact hn.ge
    · exact hn ▸ Nat.le_succ _

/-- A call of `send_stdin` has found its job before it goes on. -/
theorem TaskStep.stdin_started {value : String} {actor : Actor}
    (h : TaskStep s t (.sendStdin j value actor) l .start n) :
    (∃ outcome, n.pc = .done outcome) ∨ ∃ job, s.ledger.getJob j = some job := by
  cases h with
  | call h =>
      cases h with
      | load hop => cases hop
      | explicit hop => cases hop
      | resolving hop => cases hop
      | stop hop => cases hop
      | stdinAccepted hjob => exact .inr ⟨_, hjob⟩
      | refused => exact .inl ⟨_, rfl⟩
      | raised hpc => simp at hpc
  | ensure h => cases h
  | stop h => cases h

theorem TaskStep.not_done {outcome : Outcome} (h : TaskStep s t op l (.done outcome) n) :
    False := by
  cases h with
  | call h =>
      cases h with
      | raised hpc => simp at hpc
  | ensure h => cases h
  | stop h => cases h
  | job h =>
      cases h with
      | stepRaised hpc => simp at hpc

theorem TaskStep.isDone (h : TaskStep s t op l pc n) : pc.isDone = false := by
  cases pc with
  | done => exact h.not_done.elim
  | _ => rfl

theorem TaskStep.of_jobFinally {pending : Option PyError}
    (h : TaskStep s t op l (.jobFinally r pending) n) : ∃ outcome, n.pc = .done outcome := by
  obtain ⟨job, rfl, hjob⟩ := h.jobStep rfl
  cases hjob with
  | stepRaised hpc => simp at hpc
  | finished => exact ⟨_, rfl⟩

/-- `_run_job` does not go back before its last write. -/
theorem TaskStep.isSettled (h : TaskStep s t op l pc n) (hpc : pc.isSettled = true) :
    n.pc.isSettled = true := by
  cases pc with
  | done => exact h.not_done.elim
  | jobFinally =>
      obtain ⟨outcome, hn⟩ := h.of_jobFinally
      rw [hn]
      rfl
  | _ => cases hpc

/-! ## The invariant -/

/-- Job ids in use have been handed out, each to one task, and a task that has not made its
last write finds its job active. -/
structure JobsInv (s : Server) : Prop where
  recorded : ∀ {j job}, s.ledger.getJob j = some job → j < s.ledger.nextJobId
  handedOut : ∀ {t run pc}, s.tasks t = some ⟨.runJob run, pc⟩ → run.jobId < s.ledger.nextJobId
  once : ∀ {t t' run run' pc pc'}, s.tasks t = some ⟨.runJob run, pc⟩ →
    s.tasks t' = some ⟨.runJob run', pc'⟩ → run.jobId = run'.jobId → t = t'
  answered : ∀ {t j value actor pc}, s.tasks t = some ⟨.sendStdin j value actor, pc⟩ →
    pc ≠ .start → (∀ outcome, pc ≠ .done outcome) → j < s.ledger.nextJobId
  active : ∀ {t run pc job}, s.tasks t = some ⟨.runJob run, pc⟩ → pc.isSettled = false →
    s.ledger.getJob run.jobId = some job → job.status.isTerminal = false

theorem jobsInv_boot {ttl : Time} {maxCompleted : Int} {alive : KernelId → Bool}
    {kernelspec : NotebookId → Option String} :
    JobsInv (boot ttl maxCompleted alive kernelspec) where
  recorded h := by cases h
  handedOut h := by cases h
  once h := by cases h
  answered h := by cases h
  active h := by cases h

namespace JobsInv

/-- What a step does to a job's record. -/
theorem job_change (hs : JobsInv s) (h : StepCase s l s') (j : JobId) :
    s'.ledger.getJob j = s.ledger.getJob j ∨ ∃ t op pc n, s.tasks t = some ⟨op, pc⟩ ∧
      TaskStep s t op l pc n ∧ s' = n.commit t op ∧ s.mover l = some t ∧
        JobChange s op l pc n j (s'.ledger.getJob j) := by
  rcases h.ledger with hledger | ⟨t, op, pc, n, ht, hmove, rfl, hmover⟩
  · exact .inl (by rw [hledger])
  · refine .inr ⟨t, op, pc, n, ht, hmove, rfl, hmover, hmove.job_change ?_ j⟩
    rintro j value actor nb r rfl rfl
    exact hs.answered ht (fun h => by cases h) (fun _ h => by cases h)

theorem recorded_step (hs : JobsInv s) (h : StepCase s l s')
    (hjob : s'.ledger.getJob j = some job) : j < s'.ledger.nextJobId := by
  have hlt : (∃ job, s.ledger.getJob j = some job) → j < s'.ledger.nextJobId :=
    fun ⟨_, hold⟩ => (hs.recorded hold).trans_le (nextJobId_le h)
  rcases hs.job_change h j with hsame | ⟨t, op, pc, n, ht, hmove, heq, hmover, hchange⟩
  · exact hlt ⟨job, hsame ▸ hjob⟩
  · rw [hjob] at hchange
    cases hchange with
    | forgets h => exact hlt ⟨job, h.of_some⟩
    | created hj hnext =>
        rw [heq, hj]
        exact hnext ▸ Nat.lt_succ_self _
    | written _ _ _ hold => exact hlt ⟨_, hold⟩
    | answered _ _ _ hold => exact hlt ⟨_, hold⟩
    | put _ _ _ _ hold => exact hlt ⟨_, hold⟩

/-- A task that runs a job ran it before, or has just been created for a new one. -/
theorem runJob_origin (h : StepCase s l s') (ht : s'.tasks t = some ⟨.runJob run, pc⟩) :
    (∃ pc₀, s.tasks t = some ⟨.runJob run, pc₀⟩) ∨
      t = s.nextTask ∧ run.jobId = s.ledger.nextJobId ∧
        s'.ledger.nextJobId = s.ledger.nextJobId + 1 := by
  generalize hop : Op.runJob run = op at ht
  cases task_origin h ht with
  | kept ht₀ => exact .inl ⟨pc, ht₀⟩
  | moved ht₀ => exact .inl ⟨_, ht₀⟩
  | called _ hcallable =>
      subst hop
      cases hcallable
  | spawned hnew hl =>
      cases hop
      exact .inr ⟨hnew, rfl, hl⟩

theorem handedOut_step (hs : JobsInv s) (h : StepCase s l s')
    (ht : s'.tasks t = some ⟨.runJob run, pc⟩) : run.jobId < s'.ledger.nextJobId := by
  rcases runJob_origin h ht with ⟨pc₀, ht₀⟩ | ⟨-, hj, hnext⟩
  · exact (hs.handedOut ht₀).trans_le (nextJobId_le h)
  · rw [hj, hnext]
    exact Nat.lt_succ_self _

theorem once_step {run' : JobRun} (hs : JobsInv s) (h : StepCase s l s')
    (ht : s'.tasks t = some ⟨.runJob run, pc⟩) (ht' : s'.tasks t' = some ⟨.runJob run', pc'⟩)
    (hj : run.jobId = run'.jobId) : t = t' := by
  rcases runJob_origin h ht with ⟨pc₀, ht₀⟩ | ⟨hnew, hid, -⟩ <;>
    rcases runJob_origin h ht' with ⟨pc₀', ht₀'⟩ | ⟨hnew', hid', -⟩
  · exact hs.once ht₀ ht₀' hj
  · exact absurd (hj.trans hid') (hs.handedOut ht₀).ne
  · exact absurd (hj.symm.trans hid) (hs.handedOut ht₀').ne
  · exact hnew.trans hnew'.symm

theorem answered_step {value : String} {actor : Actor} (hs : JobsInv s) (h : StepCase s l s')
    (ht : s'.tasks t = some ⟨.sendStdin j value actor, pc⟩) (hstart : pc ≠ .start)
    (hdone : ∀ outcome, pc ≠ .done outcome) : j < s'.ledger.nextJobId := by
  generalize hop : Op.sendStdin j value actor = op at ht
  refine Nat.lt_of_lt_of_le ?_ (nextJobId_le h)
  cases task_origin h ht with
  | kept ht₀ =>
      subst hop
      exact hs.answered ht₀ hstart hdone
  | @moved _ pc₀ n ht₀ hmove =>
      subst hop
      by_cases hpc₀ : pc₀ = .start
      · subst hpc₀
        rcases hmove.stdin_started with ⟨outcome, hpc⟩ | ⟨job, hjob⟩
        · exact absurd hpc (hdone outcome)
        · exact hs.recorded hjob
      · apply hs.answered ht₀ hpc₀
        rintro outcome rfl
        exact hmove.not_done
  | called => exact absurd rfl hstart
  | spawned => exact absurd rfl hstart

/-- A record under an id that had not been handed out is that of a new job. -/
theorem new_job (hs : JobsInv s) (h : StepCase s l s')
    (hjob : s'.ledger.getJob s.ledger.nextJobId = some job) :
    job.status = .queued ∧ job.completedAt = none ∧ job.requestUids = [] := by
  have hfresh : ∀ job, s.ledger.getJob s.ledger.nextJobId ≠ some job :=
    fun job hold => lt_irrefl _ (hs.recorded hold)
  rcases hs.job_change h s.ledger.nextJobId with hsame | ⟨t, op, pc, n, -, -, -, -, hchange⟩
  · exact absurd (hsame ▸ hjob) (hfresh job)
  · rw [hjob] at hchange
    cases hchange with
    | forgets h => exact absurd h.of_some (hfresh job)
    | created _ _ hstatus hcompleted huids => exact ⟨hstatus, hcompleted, huids⟩
    | written _ _ _ hold => exact absurd hold (hfresh _)
    | answered _ _ _ hold => exact absurd hold (hfresh _)
    | put _ _ _ _ hold => exact absurd hold (hfresh _)

/-- A task's job is written by the task itself and by the answers to its prompts only. -/
theorem job_change_of_kept (hs : JobsInv s) (h : StepCase s l s')
    (ht : s.tasks t = some ⟨.runJob run, pc⟩) (hmover : s.mover l ≠ some t)
    (hjob : s'.ledger.getJob run.jobId = some job) :
    s.ledger.getJob run.jobId = some job ∨
      ∃ old r value actor nb t' o, s.tasks t' = some ⟨.sendStdin run.jobId value actor,
        .sendingInput nb r⟩ ∧ s.mover l = some t' ∧ l = .resume t' .returned o ∧
        s.ledger.getJob run.jobId = some old ∧ job = setStatus old .running (some r) o.now := by
  rcases hs.job_change h run.jobId with hsame | ⟨t', op, pc', n, ht', -, -, hmover', hchange⟩
  · exact .inl (hsame ▸ hjob)
  · have hother : ∀ run', op = .runJob run' → run.jobId ≠ run'.jobId := by
      rintro run' rfl hj
      cases hs.once ht ht' hj
      exact hmover hmover'
    rw [hjob] at hchange
    cases hchange with
    | forgets h => exact .inl h.of_some
    | created hj => exact absurd hj (hs.handedOut ht).ne
    | written hop hj => exact absurd hj (hother _ hop)
    | answered hop hpc hl hold =>
        subst hop hpc hl
        cases Option.some.inj hmover'
        exact .inr ⟨_, _, _, _, _, _, _, ht', rfl, rfl, hold, rfl⟩
    | put hop hj => exact absurd hj (hother _ hop)

theorem active_step (hs : JobsInv s) (h : StepCase s l s')
    (ht : s'.tasks t = some ⟨.runJob run, pc⟩) (hpc : pc.isSettled = false)
    (hjob : s'.ledger.getJob run.jobId = some job) : job.status.isTerminal = false := by
  generalize hop : Op.runJob run = op at ht
  cases task_origin h ht with
  | kept ht₀ _ hmover =>
      subst hop
      rcases hs.job_change_of_kept h ht₀ hmover hjob with
        hold | ⟨old, r, value, actor, nb, t', o, -, -, -, -, rfl⟩
      · exact hs.active ht₀ hpc hold
      · rfl
  | @moved _ pc₀ n ht₀ hmove heq =>
      subst hop
      have hpc₀ : pc₀.isSettled = false := by
        by_contra hsettled
        rw [hmove.isSettled (Bool.eq_true_of_not_eq_false hsettled)] at hpc
        cases hpc
      have hchange := hmove.job_change nofun run.jobId
      rw [heq] at hjob
      rw [show n.state.ledger.getJob run.jobId = some job from hjob] at hchange
      cases hchange with
      | forgets h => exact hs.active ht₀ hpc₀ h.of_some
      | created hj => exact absurd hj (hs.handedOut ht₀).ne
      | @written _ _ _ status _ _ _ _ hwrites hold h =>
          cases h.of_some
          cases hn : n.pc <;> rw [hn] at hwrites hpc <;> cases hwrites <;>
            first | rfl | cases hpc
      | answered => rfl
      | @put _ old _ _ _ _ _ _ _ _ _ hold =>
          have hactive : old.status.isTerminal = false := hs.active ht₀ hpc₀ hold
          exact hactive
  | called _ hcallable =>
      subst hop
      cases hcallable
  | spawned =>
      cases hop
      rw [(hs.new_job h hjob).1]
      rfl

theorem step (hs : JobsInv s) (h : s.step l = some s') : JobsInv s' :=
  have h := step_cases h
  { recorded := hs.recorded_step h
    handedOut := hs.handedOut_step h
    once := hs.once_step h
    answered := hs.answered_step h
    active := hs.active_step h }

end JobsInv

theorem jobsInv_run {G : Server → Label → Prop} {s₀ : Server} (h : ServerRun G s₀ s)
    (hs : JobsInv s₀) : JobsInv s :=
  h.invariant hs fun _ _ _ hs _ hstep => hs.step hstep

end Server

end Hypernote
