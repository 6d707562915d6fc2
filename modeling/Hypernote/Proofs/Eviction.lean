import Hypernote.Proofs.Cleanup
import Hypernote.Server.Ledger
/-!
# What a stop evicts

The callback at the end of `stop_runtime` forgets every job of the notebook, whatever
runtime the job belongs to.  A newer runtime of the notebook can have jobs by then: the
stop gives up control while it deletes its session.
-/

namespace Hypernote

open Foundation

namespace Server

variable {s s' v : Server} {l : Label} {t t' : TaskId} {op : Op} {pc : Pc} {n : Next}
  {r : RoomId} {j : JobId} {run : JobRun} {job : Job}

/-- The room whose `on_notebook_stopped` callback runs in this step. -/
def notifies (s : Server) (l : Label) : Option RoomId :=
  match s.moving l with
  | some ⟨_, .stopFinally r _ _ none⟩ => some r
  | _ => none

/-- The callback finds no job of its notebook that belongs to another runtime. -/
def evictsOwn (s : Server) (l : Label) : Bool :=
  match s.notifies l with
  | some r =>
      (s.ledger.jobIdsByNotebook (s.room r).notebookId).all fun j =>
        (s.ledger.getJob j).all fun job => job.runtimeId.all (· = r)
  | none => true

/-- No callback runs for the runtime that the job belongs to. -/
def sparesRuntime (j : JobId) (s : Server) (l : Label) : Bool :=
  (s.notifies l).all fun r => (s.ledger.getJob j).all fun job => job.runtimeId ≠ some r

theorem StopStep.evicts {rest stopped : List RoomId}
    (h : StopStep s t op l (.stopFinally r rest stopped none) n) :
    n.state.ledger = s.ledger.evictNotebook (s.room r).notebookId := by
  cases h with
  | cleared => rw [state_stopReturned]

theorem notifies_eq (h : s.notifies l = some r) :
    ∃ op rest stopped, s.moving l = some ⟨op, .stopFinally r rest stopped none⟩ := by
  cases hmoving : s.moving l with
  | none =>
      rw [notifies, hmoving] at h
      cases h
  | some task =>
      obtain ⟨op, pc⟩ := task
      rw [notifies, hmoving] at h
      cases pc with
      | stopFinally r' rest stopped pending =>
          cases pending with
          | none =>
              cases h
              exact ⟨op, rest, stopped, rfl⟩
          | some error => cases h
      | _ => cases h

/-- What the callback leaves of the ledger. -/
theorem getJob_notified (hl : MemoryLedger.Indexed s.ledger) (h : StepCase s l s')
    (hnotifies : s.notifies l = some r) (j : JobId) :
    s'.ledger.getJob j = (s.ledger.getJob j).filter fun job =>
      job.notebookId ≠ (s.room r).notebookId := by
  obtain ⟨op, rest, stopped, hmoving⟩ := notifies_eq hnotifies
  obtain ⟨t, n, -, hmove, rfl, -⟩ := h.of_moving hmoving
  rw [Next.commit, (hmove.stopStep rfl).evicts]
  exact hl.getJob_evict _ j

/-- The jobs of other runtimes outlive a callback just when there are none in its notebook. -/
theorem evictsOwn_iff (hl : MemoryLedger.Indexed s.ledger) (h : StepCase s l s')
    (hnotifies : s.notifies l = some r) :
    (∀ j job r', s.ledger.getJob j = some job → job.runtimeId = some r' → r' ≠ r →
      s'.ledger.getJob j = some job) ↔ s.evictsOwn l = true := by
  simp only [evictsOwn, hnotifies, List.all_eq_true]
  constructor
  · intro hkept j hj
    obtain ⟨job, hjob, hname⟩ := hl.listed.mp hj
    rw [hjob, Option.all_some]
    cases hrun : job.runtimeId with
    | none => rfl
    | some r' =>
        by_contra hne
        have hafter := hkept j job r' hjob hrun (by simpa using hne)
        rw [getJob_notified hl h hnotifies, hjob] at hafter
        simp [Option.filter, hname] at hafter
  · intro hown j job r' hjob hrun hne
    rw [getJob_notified hl h hnotifies, hjob]
    have hname : job.notebookId ≠ (s.room r).notebookId := by
      intro hname
      have hall := hown j (hl.listed.mpr ⟨job, hjob, hname⟩)
      rw [hjob, Option.all_some, hrun] at hall
      exact hne (by simpa using hall)
    simp [Option.filter, hname]

/-- The job of a task that has not ended is recorded, under some runtime. -/
def RunKept (t : TaskId) (run : JobRun) (s : Server) : Prop :=
  ∃ pc, s.tasks t = some ⟨.runJob run, pc⟩ ∧ (pc.isSettled = false →
    ∃ job, s.ledger.getJob run.jobId = some job ∧ job.runtimeId ≠ none)

theorem runKept_step (hs : ServerInv s) (hl : MemoryLedger.Indexed s.ledger)
    (hstep : s.step l = some s') (hown : s.evictsOwn l = true)
    (hspares : s.sparesRuntime run.jobId l = true) (hkept : RunKept t run s) :
    RunKept t run s' := by
  have h := step_cases hstep
  obtain ⟨pc, ht, hjob⟩ := hkept
  obtain ⟨pc', ht'⟩ := hs.wellFormed.task_stays h ht
  refine ⟨pc', ht', fun hpc' => ?_⟩
  have hpc : pc.isSettled = false := by
    rcases hs.wellFormed.task_next h ht with ⟨hsame, -⟩ | ⟨n, hmove, rfl, -⟩
    · cases hsame.symm.trans ht'
      exact hpc'
    · rw [commit_tasks, if_pos rfl] at ht'
      cases ht'
      exact Bool.eq_false_iff.mpr fun hsettled => Bool.eq_false_iff.mp hpc' (hmove.isSettled hsettled)
  obtain ⟨job, hjob, hrun⟩ := hjob hpc
  have hactive := hs.jobs.active ht hpc hjob
  rcases hs.jobs.job_change h run.jobId with hsame | ⟨t₀, op₀, pc₀, n, ht₀, hmove, heq, hmover, hchange⟩
  · exact ⟨job, hsame.trans hjob, hrun⟩
  · have hmoving := moving_eq hmover ht₀
    generalize hafter : s'.ledger.getJob run.jobId = after at hchange
    cases hchange with
    | forgets hforgets =>
        rw [hjob] at hforgets
        exact ⟨job, hforgets.of_active hactive, hrun⟩
    | @evicted r rest stopped hpc₀ =>
        -- the job belongs to the notebook, so to the runtime of the callback
        subst hpc₀
        have hnotifies : s.notifies l = some r := by rw [notifies, hmoving]
        rw [getJob_notified hl h hnotifies, hjob] at hafter
        have hname : job.notebookId = (s.room r).notebookId := by
          by_contra hne
          simp [Option.filter, hne] at hafter
        simp only [evictsOwn, hnotifies, List.all_eq_true] at hown
        have hmine := hown run.jobId (hl.listed.mpr ⟨job, hjob, hname⟩)
        rw [hjob, Option.all_some] at hmine
        obtain ⟨r', hr'⟩ := Option.ne_none_iff_exists'.mp hrun
        rw [hr', Option.all_some, decide_eq_true_eq] at hmine
        simp [sparesRuntime, hnotifies, hjob, hr', hmine] at hspares
    | created hj => exact absurd hj (hs.jobs.handedOut ht).ne
    | @written run₀ old _ status rid now hop hj hwrites hold hforgets =>
        subst hop
        cases hs.jobs.once ht ht₀ hj
        cases ht.symm.trans ht₀
        cases hold.symm.trans hjob
        rw [heq, commit_tasks, if_pos rfl] at ht'
        cases ht'
        have hstatus : status.isTerminal = false := by
          cases hn : n.pc <;> rw [hn] at hwrites hpc' <;> cases hwrites <;> first | rfl | cases hpc'
        refine ⟨_, hforgets.of_active hstatus, ?_⟩
        cases rid with
        | none => exact hrun
        | some rid => exact Option.some_ne_none rid
    | answered => exact ⟨_, rfl, Option.some_ne_none _⟩
    | put _ _ _ _ hold =>
        cases hold.symm.trans hjob
        exact ⟨_, rfl, hrun⟩

/-- The jobs of other runtimes outlive the callback of a stop just when there are none in its
notebook.  Where no callback finds one, the job of a task that has not ended stays recorded
for as long as no callback runs for its own runtime. -/
theorem stop_evicts_own_jobs {ttl : Time} {maxCompleted : Int} {alive : KernelId → Bool}
    {kernelspec : NotebookId → Option String}
    (h : ServerRun anyStep (boot ttl maxCompleted alive kernelspec) s) :
    (∀ l s' r, s.step l = some s' → s.notifies l = some r →
      ((∀ j job r', s.ledger.getJob j = some job → job.runtimeId = some r' → r' ≠ r →
        s'.ledger.getJob j = some job) ↔ s.evictsOwn l = true)) ∧
    ∀ s' t run job r, s.tasks t = some ⟨.runJob run, .start⟩ →
      s.ledger.getJob run.jobId = some job → job.runtimeId = some r →
      ServerRun (fun s l => s.evictsOwn l = true ∧ s.sparesRuntime run.jobId l = true) s s' →
      ∃ pc, s'.tasks t = some ⟨.runJob run, pc⟩ ∧ (pc.isSettled = false →
        ∃ job', s'.ledger.getJob run.jobId = some job' ∧ job'.status.isTerminal = false) := by
  constructor
  · intro l s' r hstep hnotifies
    exact evictsOwn_iff (indexed_run h) (step_cases hstep) hnotifies
  · intro s' t run job r ht hjob hrun hguarded
    have hkept : RunKept t run s' := by
      refine Run.invariant_of (I := RunKept t run) hguarded
        (fun u hu => show ServerInv u ∧ MemoryLedger.Indexed u.ledger from
          ⟨serverInv_run (h.trans hu.weaken), indexed_run (h.trans hu.weaken)⟩)
        ⟨_, ht, fun _ => ⟨job, hjob, by rw [hrun]; exact Option.some_ne_none r⟩⟩ ?_
      rintro u l u' ⟨hu, hl⟩ - hinv ⟨hown, hspares⟩ hstep
      exact runKept_step hu hl hstep hown hspares hinv
    obtain ⟨pc, ht', hrecorded⟩ := hkept
    refine ⟨pc, ht', fun hpc => ?_⟩
    obtain ⟨job', hjob', -⟩ := hrecorded hpc
    exact ⟨job', hjob', (serverInv_run (h.trans hguarded.weaken)).jobs.active ht' hpc hjob'⟩

section Schedules

/-- Task `t` creates a room for a notebook that Jupyter has no session for. -/
private def roomOf (t : TaskId) (nb : NotebookId) (session : Session) : List Label :=
  [.call (.ensureRoom nb none), .proceed (.quiet 0), .proceed (.quiet 0),
    .resume t (.raised (.http 404 "")) (.quiet 0), .proceed (.quiet 0), .proceed (.quiet 0),
    .resume t (.session session) (.quiet 0), .proceed (.quiet 0)]

/-- Task 1 stops room 0 up to the await of `delete_session`. -/
private def stopBegun : List Label :=
  [.call (.stopRuntime 0), .proceed (.quiet 0), .proceed (.quiet 0)]

/-- Task 2 queues a job, which makes `ensure_room` create room 1. -/
private def queuedOn (nb : NotebookId) (found : List Label) : List Label :=
  [.call (.queueExecution nb ["cell"] ⟨"alice", .human⟩ none), .proceed (.quiet 0),
    .resume 2 .returned (.quiet 0), .proceed (.quiet 0)] ++ found ++
    [.proceed (.quiet 0), .resume 2 (.session ⟨"session2", "kernel2", some "python3"⟩) (.quiet 0),
      .proceed (.quiet 0), .resume 1 .returned (.quiet 0)]

theorem other_job_not_evicted :
    ∃ s s' : Server, s.step (.proceed (.quiet 0)) = some s' ∧
      s.notifies (.proceed (.quiet 0)) = some 0 ∧
      (s'.ledger.getJob 0).map Job.runtimeId = some (some 1) := by
  obtain ⟨s, hrun, hnotifies, hown, hjob, hexec⟩ :=
    (boot 10 20 (fun _ => false) fun _ => none).exists_run
      (roomOf 0 "nb" ⟨"session", "kernel", some "python3"⟩ ++ stopBegun ++
        queuedOn "other" [.resume 2 (.raised (.http 404 "")) (.quiet 0), .proceed (.quiet 0)])
      (fun s => s.notifies (.proceed (.quiet 0)) = some 0 ∧
        s.evictsOwn (.proceed (.quiet 0)) = true ∧
        (s.ledger.getJob 0).map Job.runtimeId = some (some 1) ∧
        (s.step (.proceed (.quiet 0))).isSome = true)
      (by decide)
  obtain ⟨s', hstep⟩ := Option.isSome_iff_exists.mp hexec
  obtain ⟨job, hjob, hid⟩ := Option.map_eq_some_iff.mp hjob
  refine ⟨s, s', hstep, hnotifies, ?_⟩
  rw [((stop_evicts_own_jobs hrun).1 _ s' 0 hstep hnotifies).mpr hown 0 job 1 hjob hid (by decide)]
  exact congrArg some hid

/-- While the first room of a notebook is being stopped, a job is queued on a second one: the
end of the stop forgets it. -/
theorem stop_evicts_newer_job :
    ∃ s s' : Server, ServerRun anyStep (boot 10 20 (fun _ => false) fun _ => none) s ∧
      s.tasks 3 = some ⟨.runJob ⟨0, "nb", ["cell"], ⟨"alice", .human⟩⟩, .start⟩ ∧
      (s.ledger.getJob 0).map (fun job => (job.notebookId, job.runtimeId, job.status)) =
        some ("nb", some 1, .queued) ∧
      (s.room 1).isLive = true ∧ 1 ∈ s.mgr.rooms ∧
      s.notifies (.proceed (.quiet 0)) = some 0 ∧ s.step (.proceed (.quiet 0)) = some s' ∧
      s'.tasks 1 = some ⟨.stopRuntime 0, .done (.room 0)⟩ ∧ s'.ledger.getJob 0 = none := by
  obtain ⟨s, hrun, htask, hjob, hlive, hr, hnotifies, hexec⟩ :=
    (boot 10 20 (fun _ => false) fun _ => none).exists_run
      (roomOf 0 "nb" ⟨"session", "kernel", some "python3"⟩ ++ stopBegun ++
        queuedOn "nb" [.proceed (.quiet 0)])
      (fun s => s.tasks 3 = some ⟨.runJob ⟨0, "nb", ["cell"], ⟨"alice", .human⟩⟩, .start⟩ ∧
        (s.ledger.getJob 0).map (fun job => (job.notebookId, job.runtimeId, job.status)) =
          some ("nb", some 1, .queued) ∧
        (s.room 1).isLive = true ∧ 1 ∈ s.mgr.rooms ∧
        s.notifies (.proceed (.quiet 0)) = some 0 ∧
        (s.step (.proceed (.quiet 0))).any fun s' =>
          s'.tasks 1 = some ⟨.stopRuntime 0, .done (.room 0)⟩ ∧ s'.ledger.getJob 0 = none)
      (by decide)
  obtain ⟨s', hstep, h⟩ := (Option.any_eq_true _ _).mp hexec
  obtain ⟨hdone, hgone⟩ := of_decide_eq_true h
  exact ⟨s, s', hrun, htask, hjob, hlive, hr, hnotifies, hstep, hdone, hgone⟩

end Schedules

end Server

end Hypernote
