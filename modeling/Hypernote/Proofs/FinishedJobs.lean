import Hypernote.LedgerRuns
import Mathlib.Data.List.Basic
/-!
# Looking up a job that has finished

The update that finishes a job prunes the completed jobs of its notebook by the order of their
creation.  The job survives its own update unless as many jobs as the ledger keeps have been created
after it and are completed already.
-/

namespace Hypernote

open Foundation

namespace MemoryLedger

variable {l : MemoryLedger} {j : JobId} {job : Job} {nb : NotebookId} {status : JobStatus}
  {runtimeId : Option RoomId} {now : Time}

/-- The completed jobs of the notebook that have been created after the job. -/
def newerCompletedIds (l : MemoryLedger) (notebookId : NotebookId) (jobId : JobId) : List JobId :=
  (l.completedIds notebookId).filter fun newer => jobId < newer

/-! ## A prefix of a sorted list -/

theorem filter_lt_of_pairwise {older newer : List Nat}
    (h : (older ++ j :: newer).Pairwise (· < ·)) :
    (older ++ j :: newer).filter (fun i => j < i) = newer := by
  obtain ⟨-, hnewer, holder⟩ := List.pairwise_append.mp h
  have hbelow : older.filter (fun i => j < i) = [] := by
    apply List.filter_eq_nil_iff.mpr
    intro i hi
    have hlt : i < j := holder i hi j List.mem_cons_self
    simpa using Nat.le_of_lt hlt
  have habove : newer.filter (fun i => j < i) = newer := by
    apply List.filter_eq_self.mpr
    intro i hi
    simpa using List.rel_of_pairwise_cons hnewer hi
  rw [List.filter_append, hbelow, List.nil_append, List.filter_cons_of_neg (by simp), habove]

/-- An entry of a sorted list is dropped with all but the last `m` entries if and only if at least
`m` entries are greater. -/
theorem mem_take_iff_filter_lt {ids : List Nat} (hsorted : ids.Pairwise (· < ·)) (hj : j ∈ ids)
    (m : Nat) :
    j ∈ ids.take (ids.length - m) ↔ m ≤ (ids.filter fun i => j < i).length := by
  obtain ⟨older, newer, rfl⟩ := List.mem_iff_append.mp hj
  have hnotMem : j ∉ older := by
    intro hmem
    obtain ⟨-, -, holder⟩ := List.pairwise_append.mp hsorted
    exact lt_irrefl j (holder j hmem j List.mem_cons_self)
  rw [List.mem_take_iff_idxOf_lt hj, List.idxOf_append_of_notMem hnotMem, List.idxOf_cons_self,
    filter_lt_of_pairwise hsorted, List.length_append, List.length_cons]
  omega

/-! ## The update that finishes a job -/

/-- The ledger that the update prunes. -/
def withStatus (l : MemoryLedger) (job : Job) (status : JobStatus) (runtimeId : Option RoomId)
    (now : Time) : MemoryLedger :=
  { l with jobsById := l.jobsById.set job.jobId (setStatus job status runtimeId now) }

theorem getJob_withStatus_self :
    (l.withStatus job status runtimeId now).getJob job.jobId =
      some (setStatus job status runtimeId now) :=
  Dict.get?_set_self ..

theorem Indexed.withStatus (hl : Indexed l) (hjob : l.getJob job.jobId = some job) :
    Indexed (l.withStatus job status runtimeId now) :=
  hl.set hjob rfl rfl

/-- The newer jobs are completed as they were before. -/
theorem newerCompletedIds_withStatus :
    (l.withStatus job status runtimeId now).newerCompletedIds nb job.jobId =
      l.newerCompletedIds nb job.jobId := by
  unfold newerCompletedIds completedIds
  rw [List.filter_filter, List.filter_filter]
  apply List.filter_congr
  intro i _
  by_cases hi : job.jobId < i
  · have hkept : (l.withStatus job status runtimeId now).getJob i = l.getJob i :=
      Dict.get?_set_of_ne _ _ (Nat.ne_of_gt hi)
    rw [isCompleted_eq, isCompleted_eq, hkept]
  · simp [hi]

/-- The update forgets the job that it finishes if and only if the ledger keeps no more than the
newer ones. -/
theorem mem_staleIds_withStatus_iff (hl : Indexed l) (hjob : l.getJob job.jobId = some job)
    (hterminal : status.isTerminal = true) {m : Nat} (hm : l.maxCompletedJobsPerNotebook = m) :
    job.jobId ∈ (l.withStatus job status runtimeId now).staleIds job.notebookId ↔
      m ≤ (l.newerCompletedIds job.notebookId job.jobId).length := by
  have hset : Indexed (l.withStatus job status runtimeId now) := hl.withStatus hjob
  have hsorted := (hset.ordered job.notebookId).filter
    (l.withStatus job status runtimeId now).isCompleted
  have hcompleted :
      job.jobId ∈ (l.withStatus job status runtimeId now).completedIds job.notebookId := by
    refine mem_completedIds.mpr ⟨hset.listed.mpr ⟨_, getJob_withStatus_self, rfl⟩, ?_⟩
    rw [isCompleted_eq, getJob_withStatus_self]
    exact hterminal
  have hbound : (l.withStatus job status runtimeId now).maxCompletedJobsPerNotebook = m := hm
  have hnewer : (l.withStatus job status runtimeId now).newerCompletedIds job.notebookId job.jobId =
      l.newerCompletedIds job.notebookId job.jobId := newerCompletedIds_withStatus
  rw [← hnewer, staleIds, hbound, if_neg (by omega), Int.toNat_sub]
  exact mem_take_iff_filter_lt hsorted hcompleted m

theorem getJob_finished (hl : Indexed l) (hjob : l.getJob j = some job)
    (hterminal : status.isTerminal = true) {m : Nat} (hm : l.maxCompletedJobsPerNotebook = m) :
    (l.updateJobStatus j status runtimeId now).getJob j =
      if (l.newerCompletedIds job.notebookId j).length < m then
        some (setStatus job status runtimeId now)
      else none := by
  obtain rfl := hl.keyed hjob
  have hupdate : l.updateJobStatus job.jobId status runtimeId now =
      (l.withStatus job status runtimeId now).pruneCompletedJobs job.notebookId := by
    rw [updateJobStatus, show l.jobsById.get? job.jobId = some job from hjob]
    rfl
  rw [hupdate, getJob_pruned, getJob_withStatus_self]
  simp only [mem_staleIds_withStatus_iff hl hjob hterminal hm]
  split_ifs with hstale hfew
  · omega
  · rfl
  · rfl
  · omega

/-- A job is found with the status that has just finished it if and only if fewer than `m` of the
jobs created after it in its notebook are completed. -/
theorem finished_job_found_iff {m : Nat} (h : LedgerRun (.empty m) l) (hjob : l.getJob j = some job)
    (hterminal : status.isTerminal = true) (runtimeId : Option RoomId) (now : Time) :
    (∃ found, (l.updateJobStatus j status runtimeId now).getJob j = some found ∧
        found.status = status) ↔
      (l.newerCompletedIds job.notebookId j).length < m := by
  have hl : Indexed l := Indexed.empty.run h
  rw [getJob_finished hl hjob hterminal (maxCompleted_run h)]
  split_ifs with hfew
  · exact iff_of_true ⟨_, rfl, rfl⟩ hfew
  · exact iff_of_false (fun ⟨_, hnone, _⟩ => nomatch hnone) hfew

private def executeJob : LedgerOp := .createJob "nb" ⟨"alice", .human⟩ .execute none (some 0) 0

/-- The jobs finish in the order of their creation, and the second one is found. -/
theorem second_job_found :
    ∃ l, LedgerRun (.empty (1 : Nat)) l ∧
      ∃ found, (l.updateJobStatus 1 .failed none 2).getJob 1 = some found ∧
        found.status = .failed := by
  obtain ⟨l, hrun, hjob, hnewer⟩ := exists_ledgerRun (.empty (1 : Nat))
    [executeJob, executeJob, .updateJobStatus 0 .succeeded none 1]
    (fun l => ((l.getJob 1).map fun job => job.notebookId) = some "nb" ∧
      (l.newerCompletedIds "nb" 1).length < 1) (by decide)
  obtain ⟨job, hjob, hname⟩ := Option.map_eq_some_iff.mp hjob
  exact ⟨l, hrun, (finished_job_found_iff hrun hjob rfl none 2).mpr (hname ▸ hnewer)⟩

/-- The second job has finished before the first one, which its own update forgets. -/
theorem first_job_forgotten :
    ∃ l, LedgerRun (.empty (1 : Nat)) l ∧ (l.getJob 0).isSome = true ∧
      (l.updateJobStatus 0 .succeeded none 2).getJob 0 = none := by
  obtain ⟨l, hrun, hpresent, hgone⟩ := exists_ledgerRun (.empty (1 : Nat))
    [executeJob, executeJob, .updateJobStatus 1 .succeeded none 1]
    (fun l => (l.getJob 0).isSome = true ∧
      (l.updateJobStatus 0 .succeeded none 2).getJob 0 = none) (by decide)
  exact ⟨l, hrun, hpresent, hgone⟩

end MemoryLedger

end Hypernote
