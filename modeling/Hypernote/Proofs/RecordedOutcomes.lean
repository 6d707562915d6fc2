import Hypernote.Proofs.JobHistories
/-!
# What a recorded status tells

An answer that arrives late makes a completed job look running again, and a task that is cancelled
leaves its job as it is.  But a job that is recorded as succeeded has succeeded, and one that is
recorded as failed has failed.
-/

namespace Hypernote

open Foundation MemoryLedger

/-- A status that says how a job has ended is true of its history. -/
structure JobStatus.Tells (status : JobStatus) (cells : List CellId) (history : List Event) :
    Prop where
  succeeded : status = .succeeded → Succeeds cells history
  failed : status = .failed → Fails history
  /-- No job is recorded as interrupted. -/
  interrupted : status ≠ .interrupted

theorem JobStatus.tells_of_active {status : JobStatus} {cells : List CellId}
    {history : List Event} (h : status.isTerminal = false) : status.Tells cells history := by
  constructor
  · rintro rfl
    cases h
  · rintro rfl
    cases h
  · rintro rfl
    cases h

namespace Server

/-- The task has not begun to execute its cells, or is over. -/
inductive Idle : Pc → Prop
  | before {pc} (hpc : 2 ≤ pc.rank) : Idle pc
  | locked {r} : Idle (.locked r)
  | done {outcome} : Idle (.done outcome)

variable {s s' : Server} {l : Label} {t : TaskId} {pc : Pc} {n : Next} {j : JobId} {run : JobRun}
  {cells : List CellId} {history es : List Event} {status : JobStatus} {job : Job}
  {nb : NotebookId}

/-! ## The writes of `_run_job` -/

theorem Course.execution_at {stage : Stage} (h : Course s run history pc)
    (hreaches : ∀ stage', StageAt run pc stage' → stage' = stage) (hrank : pc.rank < 2) :
    ∃ k uids, Execution k run.jobId run.cellIds history uids stage := by
  cases h with
  | waiting hpc => omega
  | working _ hstage hexecution =>
      obtain rfl := hreaches _ hstage
      exact ⟨_, _, hexecution⟩

theorem stage_nextCell {r : RoomId} {stage : Stage} (h : StageAt run (.nextCell r cells) stage) :
    stage = .ready cells := by
  cases h with
  | reaches hreaches =>
      cases hreaches
      rfl
  | settled hpc => cases hpc

theorem stage_flushing {r : RoomId} {result : ExecutionResult} {stage : Stage}
    (h : StageAt run (.flushing r cells result) stage) : stage = .answered cells.tail result := by
  cases h with
  | reaches hreaches =>
      cases hreaches
      rfl
  | settled hpc => cases hpc

/-- A move that adds no event leaves the history of a job. -/
theorem history_same (hsame : n.state.events = s.events) (hes : n.state.events = s.events ++ es) :
    history ++ es.filter (Event.isOf j) = history := by
  have hnil : es = [] := List.self_eq_append_right.mp (hsame.symm.trans hes)
  rw [hnil, List.filter_nil, List.append_nil]

/-- What `_run_job` writes is true once it is written. -/
theorem TaskStep.tells (h : TaskStep s t (.runJob run) l pc n) (hwrites : Writes pc n.pc status)
    (hcourse : Course s run history pc) (hes : n.state.events = s.events ++ es) :
    status.Tells run.cellIds (history ++ es.filter (Event.isOf run.jobId)) := by
  generalize hn : n.pc = pc' at hwrites
  cases hwrites with
  | running => exact JobStatus.tells_of_active rfl
  | awaiting => exact JobStatus.tells_of_active rfl
  | succeeded =>
      obtain ⟨run', hop, hjob⟩ := h.jobStep rfl
      cases hop
      cases hjob with
      | stepRaised => cases hn
      | succeeded =>
          rw [history_same rfl hes]
          obtain ⟨k, uids, hexecution⟩ :=
            hcourse.execution_at (fun _ => stage_nextCell) (by simp [Pc.rank, Pc.holds])
          obtain ⟨-, hsucceeds⟩ | ⟨hfailed, -⟩ := hexecution.succeeded.status_of_ended
          · exact ⟨fun _ => hsucceeds, by simp, by simp⟩
          · cases hfailed
  | cellFailed =>
      obtain ⟨run', hop, hjob⟩ := h.jobStep rfl
      cases hop
      cases hjob with
      | stepRaised => cases hn
      | flushed => cases hn
      | flushedError hresult =>
          rw [history_same rfl hes]
          obtain ⟨k, uids, hexecution⟩ :=
            hcourse.execution_at (fun _ => stage_flushing) (by simp [Pc.rank, Pc.holds])
          obtain ⟨hsucceeded, -⟩ | ⟨-, hfails⟩ := (hexecution.failed hresult).status_of_ended
          · cases hsucceeded
          · exact ⟨by simp, fun _ => hfails, by simp⟩
  | @failed r error herror =>
      obtain ⟨run', hop, hjob⟩ := h.jobStep rfl
      cases hop
      cases hjob with
      | stepRaised => cases hn
      | cancelled => cases hn
      | failed =>
          have hes' : es = [.stepRaised run.jobId error] :=
            (List.append_cancel_left (show s.events ++ [_] = s.events ++ es from hes)).symm
          subst hes'
          refine ⟨by simp, fun _ => .inr ⟨.stepRaised run.jobId error, ?_, rfl⟩, by simp⟩
          simp [Event.isOf]

/-- After its last write a task says nothing. -/
theorem TaskStep.silent (h : TaskStep s t (.runJob run) l pc n) (hpc : pc.isSettled = true) :
    n.state.events = s.events := by
  cases pc with
  | jobFinally =>
      obtain ⟨run', hop, hjob⟩ := h.jobStep rfl
      cases hop
      cases hjob with
      | finished => rfl
      | stepRaised hpc' => simp at hpc'
  | done => exact h.not_done.elim
  | _ => cases hpc

/-! ## Jobs that are recorded as queued -/

/-- A job that stays recorded as queued stays idle. -/
theorem TaskStep.idle (h : TaskStep s t (.runJob run) l pc n) (hidle : Idle pc)
    (hjob : n.state.ledger.getJob run.jobId = some job) (hstatus : job.status = .queued) :
    Idle n.pc ∧ pc.rank ≠ 1 := by
  cases hidle with
  | before hpc =>
      refine ⟨?_, by omega⟩
      rcases h.from_waiting hpc with hn | hdone | ⟨r, hn⟩
      · exact .before hn
      · cases hn : n.pc with
        | done => exact .done
        | _ =>
            rw [hn] at hdone
            cases hdone
      · rw [hn]
        exact .locked
  | locked =>
      -- The first line inside the `async with` records the job as running.
      obtain ⟨run', hop, hjobStep⟩ := h.jobStep rfl
      cases hop
      cases hjobStep with
      | locked =>
          rw [status_updateJobStatus hjob] at hstatus
          cases hstatus
      | stepRaised hpc => simp at hpc
  | done => exact h.not_done.elim

/-! ## All jobs, in every run -/

structure Truthful (s : Server) : Prop where
  tells : ∀ {t run pc job}, s.tasks t = some ⟨.runJob run, pc⟩ →
    s.ledger.getJob run.jobId = some job →
    job.status.Tells run.cellIds (s.events.filter (Event.isOf run.jobId))
  queued : ∀ {t run pc job}, s.tasks t = some ⟨.runJob run, pc⟩ →
    s.ledger.getJob run.jobId = some job → job.status = .queued →
    s.events.filter (Event.isOf run.jobId) = [] ∧ Idle pc

namespace Truthful

theorem boot {ttl : Time} {maxCompleted : Int} {alive : KernelId → Bool}
    {kernelspec : NotebookId → Option String} :
    Truthful (boot ttl maxCompleted alive kernelspec) where
  tells ht := nomatch ht
  queued ht := nomatch ht

theorem tells_moved (hs : Truthful s) (hhistories : Histories s) (hinv : ServerInv s)
    (ht : s.tasks t = some ⟨.runJob run, pc⟩) (hmove : TaskStep s t (.runJob run) l pc n)
    (hes : n.state.events = s.events ++ es)
    (hjob : n.state.ledger.getJob run.jobId = some job) :
    job.status.Tells run.cellIds
      (s.events.filter (Event.isOf run.jobId) ++ es.filter (Event.isOf run.jobId)) := by
  have hkept : ∀ {old}, s.ledger.getJob run.jobId = some old → old.status.Tells run.cellIds
      (s.events.filter (Event.isOf run.jobId) ++ es.filter (Event.isOf run.jobId)) := by
    intro old hold
    by_cases hpc : pc.isSettled = true
    · rw [history_same (hmove.silent hpc) hes]
      exact hs.tells ht hold
    · apply JobStatus.tells_of_active
      exact hinv.jobs.active ht (Bool.eq_false_of_not_eq_true hpc) hold
  have hchange := hmove.job_change nofun run.jobId
  rw [hjob] at hchange
  cases hchange with
  | forgets h => exact hkept h.of_some
  | created hj => exact absurd hj (hinv.jobs.handedOut ht).ne
  | written _ _ hwrites _ h =>
      cases h.of_some
      exact hmove.tells hwrites (hhistories.course ht) hes
  | answered => exact JobStatus.tells_of_active rfl
  | @put _ old _ _ _ _ _ _ _ _ _ hold => exact @hkept old hold

theorem queued_moved (hs : Truthful s) (hinv : ServerInv s) (h : StepCase s l s')
    (hes : s'.events = s.events ++ es) (ht : s.tasks t = some ⟨.runJob run, pc⟩)
    (hmove : TaskStep s t (.runJob run) l pc n)
    (hjob : n.state.ledger.getJob run.jobId = some job) (hstatus : job.status = .queued) :
    s.events.filter (Event.isOf run.jobId) ++ es.filter (Event.isOf run.jobId) = [] ∧
      Idle n.pc := by
  have hold : ∃ old, s.ledger.getJob run.jobId = some old ∧ old.status = .queued := by
    have hchange := hmove.job_change nofun run.jobId
    rw [hjob] at hchange
    cases hchange with
    | forgets h => exact ⟨job, h.of_some, hstatus⟩
    | created hj => exact absurd hj (hinv.jobs.handedOut ht).ne
    | written _ _ hwrites _ h =>
        cases h.of_some
        cases hn : n.pc <;> rw [hn] at hwrites <;> cases hwrites <;> cases hstatus
    | answered => cases hstatus
    | @put _ old _ _ _ _ _ _ _ _ _ hold => exact ⟨old, hold, hstatus⟩
  obtain ⟨old, hold, hqueued⟩ := hold
  obtain ⟨hnil, hidle⟩ := hs.queued ht hold hqueued
  obtain ⟨hidle', hrank⟩ := hmove.idle hidle hjob hstatus
  rw [hnil, own_events hinv.jobs h hes ht (.inr hrank)]
  exact ⟨rfl, hidle'⟩

theorem tells_step (hs : Truthful s) (hhistories : Histories s) (hinv : ServerInv s)
    (h : StepCase s l s') (hes : s'.events = s.events ++ es)
    (ht : s'.tasks t = some ⟨.runJob run, pc⟩) (hjob : s'.ledger.getJob run.jobId = some job) :
    job.status.Tells run.cellIds (s'.events.filter (Event.isOf run.jobId)) := by
  rw [hes, List.filter_append]
  generalize hop : Op.runJob run = op at ht
  cases task_origin h ht with
  | kept ht₀ _ hmover =>
      subst hop
      rw [own_events hinv.jobs h hes ht₀ (.inl hmover), List.append_nil]
      rcases hinv.jobs.job_change_of_kept h ht₀ hmover hjob with
        hold | ⟨old, r, value, actor, nb, t', o, -, -, -, -, rfl⟩
      · exact hs.tells ht₀ hold
      · exact JobStatus.tells_of_active rfl
  | moved ht₀ hmove heq =>
      subst hop heq
      exact hs.tells_moved hhistories hinv ht₀ hmove hes hjob
  | called _ hcallable =>
      subst hop
      cases hcallable
  | spawned =>
      cases hop
      apply JobStatus.tells_of_active
      rw [(hinv.jobs.new_job h hjob).1]
      rfl

theorem queued_step (hs : Truthful s) (hhistories : Histories s) (hinv : ServerInv s)
    (h : StepCase s l s') (hes : s'.events = s.events ++ es)
    (ht : s'.tasks t = some ⟨.runJob run, pc⟩) (hjob : s'.ledger.getJob run.jobId = some job)
    (hstatus : job.status = .queued) :
    s'.events.filter (Event.isOf run.jobId) = [] ∧ Idle pc := by
  generalize hop : Op.runJob run = op at ht
  cases task_origin h ht with
  | kept ht₀ _ hmover =>
      subst hop
      rw [hes, List.filter_append, own_events hinv.jobs h hes ht₀ (.inl hmover), List.append_nil]
      rcases hinv.jobs.job_change_of_kept h ht₀ hmover hjob with
        hold | ⟨old, r, value, actor, nb, t', o, -, -, -, -, rfl⟩
      · exact hs.queued ht₀ hold hstatus
      · cases hstatus
  | moved ht₀ hmove heq =>
      subst hop
      rw [hes, List.filter_append]
      subst heq
      exact hs.queued_moved hinv h hes ht₀ hmove hjob hstatus
  | called _ hcallable =>
      subst hop
      cases hcallable
  | spawned =>
      cases hop
      exact ⟨hhistories.nothing_new hinv.jobs h hes, .before (by decide)⟩

theorem step (hs : Truthful s) (hhistories : Histories s) (hinv : ServerInv s)
    (hstep : s.step l = some s') : Truthful s' := by
  have h := step_cases hstep
  obtain ⟨es, hes, -⟩ := h.events
  exact
    { tells := hs.tells_step hhistories hinv h hes
      queued := hs.queued_step hhistories hinv h hes }

end Truthful

theorem truthful_run {ttl : Time} {maxCompleted : Int} {alive : KernelId → Bool}
    {kernelspec : NotebookId → Option String}
    (h : ServerRun anyStep (Server.boot ttl maxCompleted alive kernelspec) s) : Truthful s :=
  h.invariant_of (J := fun s => ServerInv s ∧ Histories s)
    (fun _ hu => ⟨serverInv_run hu, histories_run hu⟩) .boot fun _ _ _ hinv _ hs _ hstep =>
      hs.step hinv.2 hinv.1 hstep

/-- What the ledger says of an accepted job. -/
theorem outcome_of_run {ttl : Time} {maxCompleted : Int} {alive : KernelId → Bool}
    {kernelspec : NotebookId → Option String}
    (h : ServerRun anyStep (Server.boot ttl maxCompleted alive kernelspec) s)
    (hqueued : .queued j nb cells ∈ s.events) (hjob : s.ledger.getJob j = some job) :
    job.status.Tells cells (s.events.filter (Event.isOf j)) := by
  obtain ⟨t, run, pc, ht, rfl, rfl⟩ := (histories_run h).queued hqueued
  exact (truthful_run h).tells ht hjob

/-- In every run, also one with stops, dying kernels, late answers and cancelled tasks: a job that
the ledger has as queued has done nothing, one that it has as succeeded has requested all its cells
in order and got all their results, none of them an error, one that it has as failed has got an
error or has raised something, and none is recorded as interrupted. -/
theorem recorded_outcomes_true {ttl : Time} {maxCompleted : Int} {alive : KernelId → Bool}
    {kernelspec : NotebookId → Option String}
    (h : ServerRun anyStep (Server.boot ttl maxCompleted alive kernelspec) s)
    (hqueued : .queued j nb cells ∈ s.events) (hjob : s.ledger.getJob j = some job) :
    (job.status = .queued → s.events.filter (Event.isOf j) = []) ∧
      (job.status = .succeeded → Succeeds cells (s.events.filter (Event.isOf j))) ∧
      (job.status = .failed → Fails (s.events.filter (Event.isOf j))) ∧
      job.status ≠ .interrupted := by
  have htells := outcome_of_run h hqueued hjob
  refine ⟨fun hstatus => ?_, htells.succeeded, htells.failed, htells.interrupted⟩
  obtain ⟨t, run, pc, ht, rfl, -⟩ := (histories_run h).queued hqueued
  exact ((truthful_run h).queued ht hjob hstatus).1

/-- A job of two cells is queued by task 0, and task 1 runs it up to its first cell. -/
private def twoCellsBegun : List Label :=
  [.call (.queueExecution "nb" ["first", "second"] ⟨"alice", .human⟩ (some "python3")),
    .proceed (.quiet 0), .proceed (.quiet 0), .resume 0 (.raised (.http 404 "")) (.quiet 0),
    .proceed (.quiet 0), .proceed (.quiet 0),
    .resume 0 (.session ⟨"session", "kernel", some "python3"⟩) (.quiet 0), .proceed (.quiet 0),
    .resume 1 .returned (.quiet 0)] ++ List.replicate 6 (.proceed (.quiet 0)) ++
    [.resume 1 .returned (.quiet 0), .resume 1 (.raised .timeout) (.quiet 0)]

/-- The next cell is requested and polled for its result. -/
private def cellPolled (result : ExecutionResult) : List Label :=
  [.resume 1 (.text "source") (.quiet 0), .resume 1 (.text "document") (.quiet 0),
    .proceed { Oracle.quiet 0 with poll := .result result }, .resume 1 .returned (.quiet 0)]

/-- The first cell succeeds and the second one does not. -/
private def secondCellFails : List Label :=
  twoCellsBegun ++ cellPolled ⟨false, some "ok"⟩ ++
    [.proceed (.quiet 0), .resume 1 .returned (.quiet 0),
      .resume 1 (.raised .timeout) (.quiet 0)] ++
    cellPolled ⟨true, none⟩ ++ [.proceed (.quiet 0)]

theorem failed_job_recorded :
    ∃ (s : Server) (job : Job), s.ledger.getJob 0 = some job ∧ job.status = .failed ∧
      requestedCells s.events = ["first", "second"] ∧
      Fails (s.events.filter (Event.isOf 0)) := by
  obtain ⟨s, hrun, hqueued, hstatus, hcells⟩ :=
    (boot 10 20 (fun _ => false) fun _ => none).exists_run secondCellFails
      (fun s => .queued 0 "nb" ["first", "second"] ∈ s.events ∧
        (s.ledger.getJob 0).map (·.status) = some .failed ∧
        requestedCells s.events = ["first", "second"])
      (by decide +kernel)
  obtain ⟨job, hjob, hfailed⟩ := Option.map_eq_some_iff.mp hstatus
  obtain ⟨-, -, hfails, -⟩ := recorded_outcomes_true hrun hqueued hjob
  exact ⟨s, job, hjob, hfailed, hcells, hfails hfailed⟩

end Server

end Hypernote
