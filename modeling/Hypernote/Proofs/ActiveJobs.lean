import Hypernote.Proofs.JobStatus
import Hypernote.Server.Ledger
/-!
# Records that are real work

`queue_execution` records a job and creates the task that runs it.  `interrupt` and
`send_stdin` also record a job each, which nothing ever runs or completes: it stays in
the list of active jobs, and the pruner never counts it.  Here it is shown that where
these two record nothing, every active job has an unfinished task and the ledger is
bounded.
-/

namespace Hypernote

open Foundation MemoryLedger

namespace Server

variable {s s' : Server} {t : TaskId} {op : Op} {l : Label} {pc : Pc} {n : Next} {r : RoomId}
  {j : JobId} {run : JobRun} {job : Job} {nb : NotebookId}

/-- Neither an interrupt nor an answer to a prompt gets as far as its record. -/
def recordsRuns (s : Server) (l : Label) : Bool :=
  match s.moving l, l with
  | some ⟨.interrupt .., .ensured _ r⟩, .proceed o =>
      (s.pool.interruptViaSubshell o.client o.sent (s.room r).kernelId).2.isNone
  | some ⟨.interrupt .., .interrupting _⟩, .resume _ .returned _ => false
  | some ⟨.sendStdin .., .sendingInput ..⟩, .resume _ .returned _ => false
  | _, _ => true

/-- A new job is recorded by `queue_execution` or by one of the two calls that the guard
excludes. -/
theorem TaskStep.records (h : TaskStep s t op l pc n) (hmoving : s.moving l = some ⟨op, pc⟩)
    (hguard : s.recordsRuns l = true) :
    (n.state.ledger.nextJobId = s.ledger.nextJobId) ∨
      ∃ nb nb' r cells actor name o, op = .queueExecution nb' cells actor name ∧
        n = s.jobQueued o nb r cells actor := by
  rcases h.nextJobId_kept with hkept | h
  · exact .inl hkept
  · cases h with
    | queued => exact .inr ⟨_, _, _, _, _, _, _, rfl, rfl⟩
    | interruptSubshell hvia => simp [recordsRuns, hmoving, hvia] at hguard
    | interrupted => simp [recordsRuns, hmoving] at hguard
    | stdinSent => simp [recordsRuns, hmoving] at hguard
    | _ => exact .inl rfl

/-- Every recorded job has been handed to a task for its notebook. -/
def RunsRecorded (s : Server) : Prop :=
  ∀ ⦃j job⦄, s.ledger.getJob j = some job →
    ∃ t run pc, s.tasks t = some ⟨.runJob run, pc⟩ ∧ run.jobId = j ∧
      run.notebookId = job.notebookId

theorem runsRecorded_step (hw : WellFormed s) (hjobs : JobsInv s) (h : StepCase s l s')
    (hguard : s.recordsRuns l = true) (hs : RunsRecorded s) : RunsRecorded s' := by
  -- a job recorded before keeps its notebook, and its task goes on
  have hkept : ∀ {j} {job old : Job}, s.ledger.getJob j = some old → job.notebookId = old.notebookId →
      ∃ t run pc, s'.tasks t = some ⟨.runJob run, pc⟩ ∧ run.jobId = j ∧
        run.notebookId = job.notebookId := by
    intro j job old hold hname
    obtain ⟨t, run, pc, ht, hj, hrun⟩ := hs hold
    obtain ⟨pc', ht'⟩ := hw.task_stays h ht
    exact ⟨t, run, pc', ht', hj, hrun.trans hname.symm⟩
  intro j job hjob
  rcases hjobs.job_change h j with hsame | ⟨t, op, pc, n, ht, hmove, rfl, hmover, hchange⟩
  · exact hkept (hsame ▸ hjob) rfl
  · rw [hjob] at hchange
    cases hchange with
    | forgets h => exact hkept h.of_some rfl
    | written _ _ _ hold h =>
        cases h.of_some
        exact hkept hold rfl
    | answered _ _ _ hold => exact hkept hold rfl
    | put _ _ _ _ hold => exact hkept hold rfl
    | created hj hnext =>
        rcases hmove.records (moving_eq hmover ht) hguard with hsame |
          ⟨nb, nb', r, cells, actor, name, o, rfl, rfl⟩
        · exact absurd (hsame.symm.trans hnext) (Nat.lt_succ_self _).ne
        · subst hj
          cases getJob_createJob_self.symm.trans hjob
          have hne : s.nextTask ≠ t := (hw.lt_nextTask ht).ne'
          refine ⟨s.nextTask, ⟨s.ledger.nextJobId, nb, cells, actor⟩, .start, ?_, rfl, rfl⟩
          rw [commit_tasks, if_neg hne]
          exact Function.update_self ..

/-- The jobs of a notebook whose tasks have not ended. -/
def unfinishedRuns (s : Server) (nb : NotebookId) : List JobId :=
  (List.range s.nextTask).filterMap fun t =>
    match s.tasks t with
    | some ⟨.runJob run, pc⟩ =>
        if run.notebookId = nb ∧ pc.isDone = false then some run.jobId else none
    | _ => none

theorem mem_unfinishedRuns (hw : WellFormed s) (ht : s.tasks t = some ⟨.runJob run, pc⟩)
    (hpc : pc.isDone = false) : run.jobId ∈ s.unfinishedRuns run.notebookId := by
  rw [unfinishedRuns, List.mem_filterMap]
  exact ⟨t, List.mem_range.mpr (hw.lt_nextTask ht), by simp [ht, hpc]⟩

/-- What the theorem is proved from: every record has its task, and an ended task has left
its record completed. -/
structure RealWork (s : Server) : Prop where
  wellFormed : WellFormed s
  recorded : RunsRecorded s
  settled : Settled s

/-- An active record belongs to an unfinished task for its notebook. -/
theorem RealWork.unfinished (hs : RealWork s) (hjob : s.ledger.getJob j = some job)
    (hactive : job.status.isActive = true) :
    ∃ t run pc, s.tasks t = some ⟨.runJob run, pc⟩ ∧ run.jobId = j ∧
      run.notebookId = job.notebookId ∧ pc.isDone = false := by
  obtain ⟨t, run, pc, ht, rfl, hname⟩ := hs.recorded hjob
  refine ⟨t, run, pc, ht, rfl, hname, ?_⟩
  cases pc with
  | done outcome =>
      have hterminal := hs.settled.completed ht rfl hjob
      rw [JobStatus.isActive_eq, hterminal] at hactive
      cases hactive
  | _ => rfl

theorem realWork_run {ttl : Time} {maxCompleted : Int} {alive : KernelId → Bool}
    {kernelspec : NotebookId → Option String}
    (h : ServerRun (fun s l => s.recordsRuns l = true ∧ s.settlesJobs l = true)
      (boot ttl maxCompleted alive kernelspec) s) : RealWork s where
  wellFormed := wellFormed_run h wellFormed_boot
  settled := settled_run (h.mono fun _ _ hguard => hguard.2)
  recorded := by
    refine Run.invariant_of (J := fun u => WellFormed u ∧ JobsInv u) h
      (fun _ hu => ⟨wellFormed_run hu wellFormed_boot, jobsInv_run hu jobsInv_boot⟩)
      (fun _ _ hjob => by cases hjob) ?_
    rintro u l u' ⟨hw, hjobs⟩ - hs ⟨hguard, -⟩ hstep
    exact runsRecorded_step hw hjobs (step_cases hstep) hguard hs

/-- The active jobs of a notebook are no more than its unfinished tasks. -/
theorem RealWork.active_le (hs : RealWork s) (hl : Indexed s.ledger) (nb : NotebookId) :
    ((s.ledger.jobIdsByNotebook nb).filter fun j => !s.ledger.isCompleted j).length ≤
      (s.unfinishedRuns nb).length := by
  refine ((hl.nodup nb).filter _).subperm (fun j hj => ?_) |>.length_le
  obtain ⟨hlisted, hactive⟩ := List.mem_filter.mp hj
  obtain ⟨job, hjob, rfl⟩ := hl.listed.mp hlisted
  rw [isCompleted_eq, hjob, Option.any_some, ← JobStatus.isActive_eq] at hactive
  obtain ⟨t, run, pc, ht, rfl, hname, hpc⟩ := hs.unfinished hjob hactive
  exact hname ▸ mem_unfinishedRuns hs.wellFormed ht hpc

/-- Where interrupts and answers record nothing and every job's task ends through its
`except`, each job that `list_active_jobs` returns has a task that has not ended, and the
ledger holds at most the configured number of completed jobs of a notebook besides those. -/
theorem active_jobs_unfinished {ttl : Time} {m : Nat} {alive : KernelId → Bool}
    {kernelspec : NotebookId → Option String}
    (h : ServerRun (fun s l => s.recordsRuns l = true ∧ s.settlesJobs l = true)
      (boot ttl m alive kernelspec) s) :
    (∀ job ∈ s.ledger.listActiveJobs nb, ∃ t run pc, s.tasks t = some ⟨.runJob run, pc⟩ ∧
      run.jobId = job.jobId ∧ run.notebookId = nb ∧ pc.isDone = false) ∧
    (s.ledger.jobIdsByNotebook nb).length ≤ m + (s.unfinishedRuns nb).length := by
  have hs := realWork_run h
  have hl := indexed_run h
  constructor
  · intro job hmem
    obtain ⟨⟨j, hlisted, hjob⟩, hactive⟩ := mem_listActiveJobs.mp hmem
    obtain ⟨job', hjob', hname⟩ := hl.listed.mp hlisted
    cases hjob.symm.trans hjob'
    obtain ⟨t, run, pc, ht, hj, hrun, hpc⟩ := hs.unfinished hjob hactive
    exact ⟨t, run, pc, ht, hj.trans (hl.keyed hjob).symm, hrun.trans hname, hpc⟩
  · have hcompleted := bounded_run h nb
    have hactive := hs.active_le hl nb
    calc
      (s.ledger.jobIdsByNotebook nb).length
        = (s.ledger.completedIds nb).length +
            ((s.ledger.jobIdsByNotebook nb).filter fun j => !s.ledger.isCompleted j).length :=
          List.length_eq_length_filter_add _
      _ ≤ m + (s.unfinishedRuns nb).length := by omega

section Schedules

/-- Task 0 finds no session for its notebook and creates one. -/
private def firstSession : List Label :=
  [.proceed (.quiet 0), .resume 0 (.raised (.http 404 "")) (.quiet 0), .proceed (.quiet 0),
    .proceed (.quiet 0), .resume 0 (.session ⟨"session", "kernel", some "python3"⟩) (.quiet 0)]

theorem queued_job_unfinished :
    ∃ (s : Server) (job : Job), job ∈ s.ledger.listActiveJobs "nb" ∧
      ∃ t run pc, s.tasks t = some ⟨.runJob run, pc⟩ ∧ run.jobId = job.jobId ∧
        run.notebookId = "nb" ∧ pc.isDone = false := by
  obtain ⟨s, hrun, hlisted, hjob⟩ := (boot 10 (1 : Nat) (fun _ => false) fun _ => none).exists_guarded_run
    (fun s l => s.recordsRuns l && s.settlesJobs l)
    ([.call (.queueExecution "nb" ["cell"] ⟨"alice", .human⟩ none), .proceed (.quiet 0),
      .resume 0 .returned (.quiet 0)] ++ firstSession ++ [.proceed (.quiet 0)])
    (fun s => 0 ∈ s.ledger.jobIdsByNotebook "nb" ∧
      (s.ledger.getJob 0).map Job.status = some .queued)
    (by decide) (by decide)
  obtain ⟨job, hjob, hstatus⟩ := Option.map_eq_some_iff.mp hjob
  have hmem : job ∈ s.ledger.listActiveJobs "nb" :=
    mem_listActiveJobs.mpr ⟨⟨0, hlisted, hjob⟩, by rw [hstatus]; rfl⟩
  exact ⟨s, job, hmem, (active_jobs_unfinished (hrun.mono fun _ _ h => by simpa using h)).1 job hmem⟩

/-- The record of an interrupt stays queued: no task has the job, and it is one job more than
the ledger may hold. -/
theorem interrupt_leaves_queued_record :
    ∃ (s : Server) (job : Job),
      ServerRun anyStep (boot 10 (0 : Nat) (fun _ => false) fun _ => none) s ∧
      job ∈ s.ledger.listActiveJobs "nb" ∧
      (¬∃ t run pc, s.tasks t = some ⟨.runJob run, pc⟩ ∧ run.jobId = job.jobId ∧
        run.notebookId = "nb" ∧ pc.isDone = false) ∧
      0 + (s.unfinishedRuns "nb").length < (s.ledger.jobIdsByNotebook "nb").length := by
  obtain ⟨s, hrun, hlisted, hjob, hnone⟩ := (boot 10 (0 : Nat) (fun _ => false) fun _ => none).exists_run
    ([.call (.interrupt "nb" ⟨"alice", .human⟩), .proceed (.quiet 0)] ++ firstSession ++
      [.proceed (.quiet 0), .resume 0 .returned (.quiet 0)])
    (fun s => 0 ∈ s.ledger.jobIdsByNotebook "nb" ∧
      (s.ledger.getJob 0).map Job.status = some .queued ∧ s.unfinishedRuns "nb" = [])
    (by decide)
  obtain ⟨job, hjob, hstatus⟩ := Option.map_eq_some_iff.mp hjob
  refine ⟨s, job, hrun, mem_listActiveJobs.mpr ⟨⟨0, hlisted, hjob⟩, by rw [hstatus]; rfl⟩, ?_, ?_⟩
  · rintro ⟨t, run, pc, ht, -, hname, hpc⟩
    have hmem := mem_unfinishedRuns (wellFormed_run hrun wellFormed_boot) ht hpc
    rw [hname, hnone] at hmem
    cases hmem
  · rw [hnone]
    exact List.length_pos_of_mem hlisted

end Schedules

end Server

end Hypernote
