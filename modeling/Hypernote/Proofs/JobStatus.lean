import Hypernote.Server.Jobs
/-!
# How the status of a job ends

Two tasks write the status of a job: `_run_job`, and `send_stdin` once its value is
delivered.  The ledger enforces no order between them.  The first part shows that a
completed job stays completed when no answer arrives late, the second that the task
which runs a job leaves it completed when, in addition, nothing ends the task outside
the `except` of `_run_job`.
-/

namespace Hypernote

open Foundation MemoryLedger

/-- What may be raised at an await of `_run_job` without ending the task before its last
write: the first `ensure_room` is not inside the `try`, and the `except` does not catch a
`CancelledError`. -/
def Pc.handles : Pc → PyError → Bool
  | .loading .., error => error.isHttp
  | .creating .., _ => false
  | _, error => error.isException

namespace Server

variable {s s' : Server} {t : TaskId} {op : Op} {l : Label} {pc : Pc} {n : Next}
  {r : RoomId} {j : JobId} {run : JobRun} {job : Job}

/-! ## Completed jobs stay completed -/

/-- A `send_stdin` whose value has been delivered finds its job not completed. -/
def answersActive (s : Server) (l : Label) : Bool :=
  match s.moving l, l with
  | some ⟨.sendStdin j _ _, .sendingInput ..⟩, .resume _ .returned _ =>
      (s.ledger.getJob j).all fun job => !job.status.isTerminal
  | _, _ => true

theorem active_of_answersActive {value : String} {actor : Actor} {nb : NotebookId} {o : Oracle}
    {t' : TaskId} (hguard : s.answersActive l = true) (hmover : s.mover l = some t)
    (ht : s.tasks t = some ⟨.sendStdin j value actor, .sendingInput nb r⟩)
    (hl : l = .resume t' .returned o) (hjob : s.ledger.getJob j = some job) :
    job.status.isTerminal = false := by
  have hmoving := moving_eq hmover ht
  subst hl
  simpa [answersActive, hmoving, hjob] using hguard

/-- The task that writes the status of a job finds it active. -/
theorem active_of_writes {pc' : Pc} {status : JobStatus} (hs : JobsInv s)
    (ht : s.tasks t = some ⟨.runJob run, pc⟩) (hwrites : Writes pc pc' status)
    (hjob : s.ledger.getJob run.jobId = some job) : job.status.isTerminal = false :=
  hs.active ht hwrites.isSettled hjob

/-- `completed_at` is set for the completed jobs. -/
def Dated (s : Server) : Prop :=
  ∀ ⦃j job⦄, s.ledger.getJob j = some job → job.completedAt.isSome = job.status.isTerminal

theorem dated_step (hs : JobsInv s) (h : StepCase s l s') (hguard : s.answersActive l = true)
    (hdated : Dated s) : Dated s' := by
  have hwrite : ∀ {j job status rid now}, s.ledger.getJob j = some job →
      job.status.isTerminal = false →
      (setStatus job status rid now).completedAt.isSome = status.isTerminal := by
    intro j job status rid now hjob hactive
    have hnone : job.completedAt.isSome = false := (hdated hjob).trans hactive
    simp only [setStatus]
    cases status.isTerminal with
    | true => rfl
    | false => exact hnone
  intro j job hjob
  rcases hs.job_change h j with hsame | ⟨t, op, pc, n, ht, -, -, hmover, hchange⟩
  · exact hdated (hsame ▸ hjob)
  · rw [hjob] at hchange
    cases hchange with
    | forgets h => exact hdated h.of_some
    | created _ _ hstatus hcompleted =>
        rw [hstatus, hcompleted]
        rfl
    | written hop hj hwrites hold h =>
        subst hop hj
        cases h.of_some
        exact hwrite hold (active_of_writes hs ht hwrites hold)
    | answered hop hpc hl hold =>
        subst hop hpc
        exact hwrite hold (active_of_answersActive hguard hmover ht hl hold)
    | put _ _ _ _ hold =>
        have := hdated hold
        exact this

/-- A job recorded with a terminal status keeps it as long as it is recorded. -/
theorem completed_step {status : JobStatus} (hs : JobsInv s) (h : StepCase s l s')
    (hguard : s.answersActive l = true) (hterminal : status.isTerminal = true)
    (hj : j < s.ledger.nextJobId)
    (hstatus : ∀ job, s.ledger.getJob j = some job → job.status = status)
    (hjob : s'.ledger.getJob j = some job) : job.status = status := by
  have hcompleted : ∀ {job}, s.ledger.getJob j = some job → job.status.isTerminal ≠ false := by
    intro job hold
    rw [hstatus job hold, hterminal]
    decide
  rcases hs.job_change h j with hsame | ⟨t, op, pc, n, ht, -, -, hmover, hchange⟩
  · exact hstatus job (hsame ▸ hjob)
  · rw [hjob] at hchange
    cases hchange with
    | forgets h => exact hstatus job h.of_some
    | created hnew => exact absurd hnew hj.ne
    | written hop hj hwrites hold =>
        subst hop hj
        exact absurd (active_of_writes hs ht hwrites hold) (hcompleted hold)
    | answered hop hpc hl hold =>
        subst hop hpc
        exact absurd (active_of_answersActive hguard hmover ht hl hold) (hcompleted hold)
    | put _ _ _ _ hold =>
        have := hstatus _ hold
        exact this

/-- In every run in which no answer arrives for a completed job, `completed_at` is set
exactly for the completed jobs, and the status of a completed job never changes. -/
theorem completed_jobs_stay {ttl : Time} {maxCompleted : Int} {alive : KernelId → Bool}
    {kernelspec : NotebookId → Option String}
    (h : ServerRun (answersActive · ·) (boot ttl maxCompleted alive kernelspec) s) :
    (∀ j job, s.ledger.getJob j = some job → job.completedAt.isSome = job.status.isTerminal) ∧
      ∀ s', ServerRun (answersActive · ·) s s' → ∀ j job job', s.ledger.getJob j = some job →
        job.status.isTerminal = true → s'.ledger.getJob j = some job' →
          job'.status = job.status := by
  have hs := jobsInv_run h jobsInv_boot
  refine ⟨?_, ?_⟩
  · have hdated : Dated s := by
      refine h.invariant_of (fun _ hu => jobsInv_run hu jobsInv_boot)
        (fun _ _ hjob => by cases hjob) ?_
      intro u l u' hu _ hdated hguard hstep
      exact dated_step hu (step_cases hstep) hguard hdated
    exact fun j job => @hdated j job
  · intro s' h' j job job' hjob hterminal
    have hstays := Run.invariant_of (I := fun u => j < u.ledger.nextJobId ∧
        ∀ job', u.ledger.getJob j = some job' → job'.status = job.status)
      h' (fun _ hu => jobsInv_run hu hs) ⟨hs.recorded hjob, ?_⟩ ?_
    · exact hstays.2 job'
    · intro job' hjob'
      cases hjob.symm.trans hjob'
      rfl
    · rintro u l u' hu - ⟨hj, hstatus⟩ hguard hstep
      have hcase := step_cases hstep
      exact ⟨hj.trans_le (nextJobId_le hcase),
        fun _ => completed_step hu hcase hguard hterminal hj hstatus⟩

/-! ## A job whose task has ended is completed -/

/-- What the collaborators of `_run_job` raise is handled before its last write, and no
`send_stdin` finds its job completed when its value has been delivered. -/
def settlesJobs (s : Server) (l : Label) : Bool :=
  match s.moving l, l with
  | some ⟨.runJob _, pc⟩, .resume _ (.raised error) _ => pc.handles error
  | some ⟨.runJob _, .readingDocument ..⟩, .resume _ (.text _) o =>
      match o.put with
      | .error error => error.isException
      | .ok _ => true
  | some ⟨.runJob _, .polling ..⟩, .proceed o =>
      match o.poll with
      | .raised error => error.isException
      | _ => true
  | _, _ => s.answersActive l

theorem answersActive_of_settlesJobs (h : s.settlesJobs l = true) : s.answersActive l = true := by
  unfold answersActive
  split
  · rename_i hmoving
    simpa [settlesJobs, answersActive, hmoving] using h
  · rfl

/-- How the task that runs a job can come to its end. -/
theorem TaskStep.settles (h : TaskStep s t (.runJob run) l pc n)
    (hadmits : (Op.runJob run).admits pc) (hn : n.pc.isSettled = true) :
    pc.isSettled = true ∨
      (∀ job, n.state.ledger.getJob run.jobId = some job → job.status.isTerminal = true) ∨
      (∃ error o, l = .resume t (.raised error) o ∧ pc.handles error = false) ∨
      ∃ r error, pc = .jobRaised r error ∧ error.isException = false := by
  have hterminal : ∀ {ledger status rid now}, status.isTerminal = true →
      ∀ job, (updateJobStatus ledger run.jobId status rid now).getJob run.jobId = some job →
        job.status.isTerminal = true := by
    intro ledger status rid now hstatus job hjob
    rw [status_updateJobStatus hjob]
    exact hstatus
  cases h with
  | call h =>
      cases h with
      | refused hop => cases hop
      | stop hop => cases hop
      | opened hop => cases hop
      | resolving hop => cases hop
      | interruptedNative =>
          obtain ⟨k, hop⟩ := hadmits
          cases hop
      | raised hpc =>
          rcases hpc with rfl | ⟨_, _, rfl⟩ | ⟨_ | _, rfl⟩ | rfl <;>
            simp [Op.admits, Op.resolves] at hadmits
      | _ => cases hn
  | ensure h =>
      cases h with
      | loadFailed herror => exact .inr (.inr (.inl ⟨_, _, rfl, herror⟩))
      | status hop => cases hop
      | mismatch _ _ hmatch =>
          rcases hadmits with hload | ⟨_, _, hload, -⟩ | ⟨-, rfl⟩
          · cases hload
            cases hmatch
          · cases hload
          · cases hmatch
      | createFailed => exact .inr (.inr (.inl ⟨_, _, rfl, rfl⟩))
      | _ => cases hn
  | stop h => cases h <;> simp [Op.admits, Op.stopsRooms] at hadmits
  | job h =>
      cases h with
      | abandoned herror => exact .inr (.inr (.inl ⟨_, _, rfl, herror⟩))
      | clientReady hpc => rcases hpc with rfl | ⟨_, rfl⟩ | ⟨_, -, rfl⟩ <;> cases hn
      | subshellMessage hpc => rcases hpc with rfl | ⟨_, rfl⟩ | ⟨_, -, rfl⟩ <;> cases hn
      | succeeded => exact .inr (.inl (hterminal rfl))
      | flushedError => exact .inr (.inl (hterminal rfl))
      | failed => exact .inr (.inl (hterminal rfl))
      | cancelled herror => exact .inr (.inr (.inr ⟨_, _, rfl, herror⟩))
      | finished => exact .inl rfl
      | _ => cases hn

/-- What reaches the `except` of `_run_job`. -/
theorem TaskStep.raises {error : PyError} (h : TaskStep s t (.runJob run) l pc n)
    (hn : n.pc = .jobRaised r error) :
    error.isException = true ∨
      (∃ o, l = .resume t (.raised error) o ∧ pc.handles error = error.isException) ∨
      (∃ cells uid o, pc = .polling r cells uid ∧ l = .proceed o ∧ o.poll = .raised error) ∨
      ∃ cells source document o, pc = .readingDocument r cells source ∧
        l = .resume t (.text document) o ∧ o.put = .error error := by
  cases h with
  | call h => cases h <;> cases hn
  | ensure h => cases h <;> cases hn
  | stop h =>
      cases h with
      | stopping _ _ hpc => rcases hpc with rfl | rfl <;> cases hn
      | _ => cases hn
  | job h =>
      cases h with
      | noClient herror =>
          cases hn
          exact .inl herror
      | clientReady hpc =>
          rcases hpc with rfl | ⟨_, rfl⟩ | ⟨_, herror, rfl⟩ <;> cases hn
          exact .inl herror
      | subshellMessage hpc =>
          rcases hpc with rfl | ⟨_, rfl⟩ | ⟨_, herror, rfl⟩ <;> cases hn
          exact .inl herror
      | putForgotten _ _ herror =>
          cases hn
          exact .inl herror
      | putRaised hput =>
          cases hn
          rcases hput with hput | ⟨herror, -⟩
          · exact .inr (.inr (.inr ⟨_, _, _, _, rfl, rfl, hput⟩))
          · exact .inl herror
      | awaitingUnregistered =>
          cases hn
          exact .inl rfl
      | pollRaised hpoll =>
          cases hn
          exact .inr (.inr (.inl ⟨_, _, _, rfl, rfl, hpoll⟩))
      | stepRaised hpc =>
          cases hn
          refine .inr (.inl ⟨_, rfl, ?_⟩)
          rcases hpc with ⟨_, _, rfl⟩ | ⟨_, rfl⟩ | ⟨_, _, rfl⟩ | ⟨_, _, rfl⟩ | ⟨_, _, rfl⟩ |
            ⟨-, _, _, _, rfl⟩ <;> rfl
      | _ => cases hn

/-- What the tasks that run jobs have raised is an `Exception`, and one that has made its
last write has left its job completed. -/
structure Settled (s : Server) : Prop where
  raised : ∀ ⦃t run r error⦄, s.tasks t = some ⟨.runJob run, .jobRaised r error⟩ →
    error.isException = true
  completed : ∀ ⦃t run pc job⦄, s.tasks t = some ⟨.runJob run, pc⟩ → pc.isSettled = true →
    s.ledger.getJob run.jobId = some job → job.status.isTerminal = true

namespace Settled

theorem raised_step {error : PyError} (hs : Settled s) (h : StepCase s l s')
    (hguard : s.settlesJobs l = true) (ht : s'.tasks t = some ⟨.runJob run, .jobRaised r error⟩) :
    error.isException = true := by
  generalize hop : Op.runJob run = op at ht
  generalize hpc : Pc.jobRaised r error = pc at ht
  cases task_origin h ht with
  | kept ht₀ =>
      subst hop hpc
      exact hs.raised ht₀
  | moved ht₀ hmove _ hmover =>
      subst hop
      have hmoving := moving_eq hmover ht₀
      rcases hmove.raises hpc.symm with herror | ⟨o, rfl, hhandles⟩ |
        ⟨cells, uid, o, rfl, rfl, hpoll⟩ | ⟨cells, source, document, o, rfl, rfl, hput⟩
      · exact herror
      · rw [← hhandles]
        simpa [settlesJobs, hmoving] using hguard
      · simpa [settlesJobs, hmoving, hpoll] using hguard
      · simpa [settlesJobs, hmoving, hput] using hguard
  | called => cases hpc
  | spawned => cases hpc

theorem completed_step (hs : Settled s) (hw : WellFormed s) (hjobs : JobsInv s)
    (h : StepCase s l s') (hguard : s.settlesJobs l = true)
    (ht : s'.tasks t = some ⟨.runJob run, pc⟩) (hpc : pc.isSettled = true)
    (hjob : s'.ledger.getJob run.jobId = some job) : job.status.isTerminal = true := by
  generalize hop : Op.runJob run = op at ht
  cases task_origin h ht with
  | kept ht₀ _ hmover =>
      subst hop
      rcases hjobs.job_change_of_kept h ht₀ hmover hjob with
        hold | ⟨old, r, value, actor, nb, t', o, ht', hmover', hl, hold, -⟩
      · exact hs.completed ht₀ hpc hold
      · have hactive := active_of_answersActive (answersActive_of_settlesJobs hguard) hmover' ht'
          hl hold
        rw [hs.completed ht₀ hpc hold] at hactive
        cases hactive
  | @moved _ pc₀ n ht₀ hmove heq hmover =>
      subst hop heq
      have hmoving := moving_eq hmover ht₀
      rcases hmove.settles (hw.admits ht₀) hpc with hpc₀ | hterminal | ⟨error, o, rfl, hhandles⟩ |
        ⟨r, error, rfl, herror⟩
      · -- the task ends after its last write, which stays as it is
        have hchange := hmove.job_change nofun run.jobId
        rw [show n.state.ledger.getJob run.jobId = some job from hjob] at hchange
        cases hchange with
        | forgets h => exact hs.completed ht₀ hpc₀ h.of_some
        | created hj => exact absurd hj (hjobs.handedOut ht₀).ne
        | written _ _ hwrites =>
            rw [hwrites.isSettled] at hpc₀
            cases hpc₀
        | answered hop => cases hop
        | put _ _ hread =>
            subst hread
            cases hpc₀
      · exact hterminal job hjob
      · simp [settlesJobs, hmoving, hhandles] at hguard
      · rw [hs.raised ht₀] at herror
        cases herror
  | called => cases hpc
  | spawned => cases hpc

theorem step (hs : Settled s) (hw : WellFormed s) (hjobs : JobsInv s)
    (hguard : s.settlesJobs l = true) (hstep : s.step l = some s') : Settled s' where
  raised _ _ _ _ := hs.raised_step (step_cases hstep) hguard
  completed _ _ _ _ := hs.completed_step hw hjobs (step_cases hstep) hguard

end Settled

theorem settled_run {ttl : Time} {maxCompleted : Int} {alive : KernelId → Bool}
    {kernelspec : NotebookId → Option String}
    (h : ServerRun (settlesJobs · ·) (boot ttl maxCompleted alive kernelspec) s) : Settled s := by
  refine Run.invariant_of (J := fun u => WellFormed u ∧ JobsInv u) h
    (fun _ hu => ⟨wellFormed_run hu wellFormed_boot, jobsInv_run hu jobsInv_boot⟩) ?_ ?_
  · constructor <;> intro _ _ _ _ ht <;> cases ht
  · rintro u l u' ⟨hw, hjobs⟩ - hs hguard hstep
    exact hs.step hw hjobs hguard hstep

/-- A job whose task has ended is completed, as long as the ledger records it, in every run
in which what ends the task passes through its `except`. -/
theorem ended_job_completed {ttl : Time} {maxCompleted : Int} {alive : KernelId → Bool}
    {kernelspec : NotebookId → Option String} {outcome : Outcome}
    (h : ServerRun (settlesJobs · ·) (boot ttl maxCompleted alive kernelspec) s)
    (ht : s.tasks t = some ⟨.runJob run, .done outcome⟩)
    (hjob : s.ledger.getJob run.jobId = some job) : job.status.isTerminal = true :=
  (settled_run h).completed ht rfl hjob

section Schedules

/-- A job of one cell is queued by task 0 on a notebook without a runtime, and task 1 runs
it up to the poll of its request. -/
private def oneCell : List Label :=
  [.call (.queueExecution "nb" ["cell"] ⟨"alice", .human⟩ none), .proceed (.quiet 0),
    .resume 0 .returned (.quiet 0), .proceed (.quiet 0),
    .resume 0 (.raised (.http 404 "")) (.quiet 0), .proceed (.quiet 0), .proceed (.quiet 0),
    .resume 0 (.session ⟨"session", "kernel", some "python3"⟩) (.quiet 0), .proceed (.quiet 0),
    .resume 1 .returned (.quiet 0), .proceed (.quiet 0), .proceed (.quiet 0),
    .proceed (.quiet 0), .proceed (.quiet 0), .proceed (.quiet 0), .proceed (.quiet 0),
    .resume 1 .returned (.quiet 0), .resume 1 (.raised .timeout) (.quiet 0),
    .resume 1 (.text "input()") (.quiet 0), .resume 1 (.text "document") (.quiet 0)]

/-- The poll finds a result without an error. -/
private def resultRead : Label :=
  .proceed { Oracle.quiet 0 with poll := .result ⟨false, some "ok"⟩ }

/-- The job ends after the result of its cell. -/
private def ending : List Label :=
  [.resume 1 .returned (.quiet 0), .proceed (.quiet 0), .proceed (.quiet 0)]

/-- The cell asks for input, and task 2 delivers a value up to the await of `send_input`. -/
private def answering : List Label :=
  [.proceed { Oracle.quiet 0 with poll := .inputRequest (.obj [("prompt", .str "> ")]) },
    .call (.sendStdin 0 "value" ⟨"alice", .human⟩), .proceed (.quiet 0), .proceed (.quiet 0),
    .proceed (.quiet 0), .proceed (.quiet 0)]

theorem ended_job_succeeded :
    ∃ (s : Server) (job : Job), s.tasks 1 = some ⟨.runJob ⟨0, "nb", ["cell"], ⟨"alice", .human⟩⟩,
        .done .returned⟩ ∧ s.ledger.getJob 0 = some job ∧ job.status.isTerminal = true := by
  obtain ⟨s, hrun, ht, hjob⟩ := (boot 10 20 (fun _ => false) fun _ => none).exists_guarded_run
    settlesJobs (oneCell ++ [resultRead] ++ ending)
    (fun s => s.tasks 1 = some ⟨.runJob ⟨0, "nb", ["cell"], ⟨"alice", .human⟩⟩, .done .returned⟩ ∧
      (s.ledger.getJob 0).isSome = true)
    (by decide) (by decide)
  obtain ⟨job, hjob⟩ := Option.isSome_iff_exists.mp hjob
  exact ⟨s, job, ht, hjob, ended_job_completed hrun ht hjob⟩

/-- The save of the document is cancelled by a newer save: the `CancelledError` passes the
`except` by, the task ends, and its job is recorded as running for ever. -/
theorem cancelled_save_leaves_job_running :
    ∃ (s : Server) (t : TaskId) (run : JobRun) (outcome : Outcome) (job : Job),
      ServerRun anyStep (boot 10 20 (fun _ => false) fun _ => none) s ∧
      s.tasks t = some ⟨.runJob run, .done outcome⟩ ∧
      s.ledger.getJob run.jobId = some job ∧ job.status.isTerminal = false := by
  obtain ⟨s, hrun, ht, hstatus⟩ := (boot 10 20 (fun _ => false) fun _ => none).exists_run
    (oneCell ++ [resultRead, .resume 1 (.raised .cancelled) (.quiet 0), .proceed (.quiet 0),
      .proceed (.quiet 0)])
    (fun s => s.tasks 1 = some ⟨.runJob ⟨0, "nb", ["cell"], ⟨"alice", .human⟩⟩,
        .done (.raised .cancelled)⟩ ∧
      (s.ledger.getJob 0).map Job.status = some .running)
    (by decide)
  obtain ⟨job, hjob, hrunning⟩ := Option.map_eq_some_iff.mp hstatus
  exact ⟨s, 1, _, _, job, hrun, ht, hjob, by rw [hrunning]; rfl⟩

theorem succeeded_job_dated :
    ∃ (s : Server) (job : Job), s.ledger.getJob 0 = some job ∧ job.status = .succeeded ∧
      job.completedAt.isSome = true := by
  obtain ⟨s, hrun, hstatus⟩ := (boot 10 20 (fun _ => false) fun _ => none).exists_guarded_run
    answersActive (oneCell ++ answering ++ [.resume 2 .returned (.quiet 0),
      .resume 1 .returned (.quiet 0), resultRead] ++ ending)
    (fun s => (s.ledger.getJob 0).map Job.status = some .succeeded)
    (by decide) (by decide)
  obtain ⟨job, hjob, hsucceeded⟩ := Option.map_eq_some_iff.mp hstatus
  refine ⟨s, job, hjob, hsucceeded, ?_⟩
  rw [(completed_jobs_stay hrun).1 0 job hjob, hsucceeded]
  rfl

/-- The cell gets its value and finishes while `send_stdin` is still inside `send_input`;
the call then records the completed job as running. -/
theorem late_answer_reopens_job :
    ∃ (s s' : Server) (j : JobId) (job job' : Job),
      ServerRun anyStep (boot 10 20 (fun _ => false) fun _ => none) s ∧
      s.ledger.getJob j = some job ∧ job.action = .execute ∧ job.status.isTerminal = true ∧
      ServerRun anyStep s s' ∧ s'.ledger.getJob j = some job' ∧ job'.status ≠ job.status ∧
      job'.completedAt.isSome ≠ job'.status.isTerminal := by
  obtain ⟨s, hrun, hjob, hexec⟩ := (boot 10 20 (fun _ => false) fun _ => none).exists_run
    (oneCell ++ answering ++ [.resume 1 .returned (.quiet 0), resultRead] ++ ending)
    (fun s => (s.ledger.getJob 0).map (fun job => (job.action, job.status)) =
        some (.execute, .succeeded) ∧
      (exec step s [.resume 2 .returned (.quiet 0)]).any fun s' =>
        (s'.ledger.getJob 0).map (fun job => (job.status, job.completedAt)) =
          some (.running, some 0))
    (by decide)
  obtain ⟨s', hrun', hjob'⟩ := exists_run_of_exec hexec
  obtain ⟨job, hjob, hfields⟩ := Option.map_eq_some_iff.mp hjob
  obtain ⟨job', hjob', hfields'⟩ := Option.map_eq_some_iff.mp hjob'
  obtain ⟨haction, hstatus⟩ := Prod.mk.inj hfields
  obtain ⟨hstatus', hcompleted'⟩ := Prod.mk.inj hfields'
  refine ⟨s, s', 0, job, job', hrun, hjob, haction, ?_, hrun', hjob', ?_, ?_⟩
  · rw [hstatus]
    rfl
  · rw [hstatus, hstatus']
    decide
  · rw [hstatus', hcompleted']
    decide

end Schedules

end Server

end Hypernote
