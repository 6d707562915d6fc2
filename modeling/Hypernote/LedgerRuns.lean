import Hypernote.ActorLedger
import Hypernote.Foundation.Machine
/-!
# What the ledger keeps

The ledger finds a job by its id and the jobs of a notebook by the list of their ids.
Every operation keeps the two indexes in step, and the two operations that can leave a
notebook with one completed job too many end with the pruner.
-/

namespace Hypernote

open Foundation

/-- The operations that write the ledger. -/
inductive LedgerOp
  | createJob (notebookId : NotebookId) (actor : Actor) (action : JobAction)
      (targetCells : Option String) (runtimeId : Option RoomId) (now : Time)
  | updateJobStatus (jobId : JobId) (status : JobStatus) (runtimeId : Option RoomId) (now : Time)
  | appendRequestUid (jobId : JobId) (uid : RequestUid)
  | updateCellAttribution (notebookId : NotebookId) (cellId : CellId) (update : MemoryLedger.AttributionUpdate)
      (now : Time)
  | evictNotebook (notebookId : NotebookId)
  | close

/-- The status that a job has when the operation prunes the jobs of its notebook. -/
def LedgerOp.statusOf (op : LedgerOp) (j : JobId) (job : Job) : JobStatus :=
  match op with
  | .updateJobStatus jobId status _ _ => if j = jobId then status else job.status
  | _ => job.status

namespace MemoryLedger

/-- The ledger after an operation; one that raises leaves it as it is. -/
def perform (l : MemoryLedger) : LedgerOp → MemoryLedger
  | .createJob notebookId actor action targetCells runtimeId now =>
      l.createJob notebookId actor action targetCells runtimeId now
  | .updateJobStatus jobId status runtimeId now => l.updateJobStatus jobId status runtimeId now
  | .appendRequestUid jobId uid => (l.appendRequestUid jobId uid).getD l
  | .updateCellAttribution notebookId cellId update now =>
      l.updateCellAttribution notebookId cellId update now
  | .evictNotebook notebookId => l.evictNotebook notebookId
  | .close => l.close

/-- The notebook that an operation is on; `close` is on all of them. -/
def target (l : MemoryLedger) : LedgerOp → Option NotebookId
  | .createJob notebookId .. | .updateCellAttribution notebookId .. | .evictNotebook notebookId =>
      some notebookId
  | .updateJobStatus jobId .. | .appendRequestUid jobId _ => (l.getJob jobId).map Job.notebookId
  | .close => none

/-- The completed jobs of a notebook, oldest first. -/
def completedIds (l : MemoryLedger) (notebookId : NotebookId) : List JobId :=
  (l.jobIdsByNotebook notebookId).filter l.isCompleted

/-- The jobs that the pruner forgets. -/
def staleIds (l : MemoryLedger) (notebookId : NotebookId) : List JobId :=
  if l.maxCompletedJobsPerNotebook < 0 then []
  else
    (l.completedIds notebookId).take
      ((l.completedIds notebookId).length - l.maxCompletedJobsPerNotebook).toNat

/-- The two indexes agree. -/
structure Indexed (l : MemoryLedger) : Prop where
  ordered : ∀ nb, (l.jobIdsByNotebook nb).Pairwise (· < ·)
  listed : ∀ {nb j}, j ∈ l.jobIdsByNotebook nb ↔ ∃ job, l.getJob j = some job ∧ job.notebookId = nb
  handedOut : ∀ {j job}, l.getJob j = some job → j < l.nextJobId
  keyed : ∀ {j job}, l.getJob j = some job → job.jobId = j

variable {l l' : MemoryLedger} {j : JobId} {job job' : Job} {nb nb' : NotebookId} {op : LedgerOp}

theorem isCompleted_eq (l : MemoryLedger) (j : JobId) :
    l.isCompleted j = (l.getJob j).any fun job => job.status.isTerminal := by
  unfold isCompleted getJob
  split <;> simp [*]

/-! ## The pruner -/

theorem getJob_pruned (l : MemoryLedger) (nb : NotebookId) (j : JobId) :
    (l.pruneCompletedJobs nb).getJob j = if j ∈ l.staleIds nb then none else l.getJob j := by
  unfold pruneCompletedJobs staleIds
  split
  · simp
  · dsimp only
    split
    · rename_i hbound
      rw [completedIds, Int.toNat_of_nonpos hbound]
      simp
    · rw [getJob, Dict.get?_filterKeys]
      simp only [completedIds, decide_not, Bool.not_eq_true', decide_eq_false_iff_not, ite_not]
      rfl

theorem jobIdsByNotebook_prune (l : MemoryLedger) (nb nb' : NotebookId) :
    (l.pruneCompletedJobs nb).jobIdsByNotebook nb' =
      if nb' = nb then (l.jobIdsByNotebook nb).filter fun j => j ∉ l.staleIds nb
      else l.jobIdsByNotebook nb' := by
  unfold pruneCompletedJobs staleIds
  split
  · simp
    rintro rfl
    rfl
  · dsimp only
    split
    · rename_i hbound
      rw [completedIds, Int.toNat_of_nonpos hbound]
      simp
      rintro rfl
      rfl
    · dsimp only
      rw [Function.update_apply]
      rfl

theorem mem_completedIds :
    j ∈ l.completedIds nb ↔ j ∈ l.jobIdsByNotebook nb ∧ l.isCompleted j = true :=
  List.mem_filter

theorem mem_staleIds (h : j ∈ l.staleIds nb) :
    j ∈ l.jobIdsByNotebook nb ∧ l.isCompleted j = true := by
  unfold staleIds at h
  split at h
  · cases h
  · exact mem_completedIds.mp (List.mem_of_mem_take h)

/-- Removing a prefix of a list without duplicates leaves the rest. -/
theorem filter_notMem_take {ι : Type} [DecidableEq ι] {ids : List ι} (h : ids.Nodup) (k : Nat) :
    (ids.filter fun j => j ∉ ids.take k) = ids.drop k := by
  have hdisjoint := List.disjoint_take_drop h (le_refl k)
  calc
    (ids.filter fun j => j ∉ ids.take k)
      = ((ids.take k ++ ids.drop k).filter fun j => j ∉ ids.take k) := by
        rw [List.take_append_drop]
    _ = (ids.take k).filter (fun j => j ∉ ids.take k) ++
          (ids.drop k).filter (fun j => j ∉ ids.take k) := List.filter_append ..
    _ = [] ++ ids.drop k := by
        congr 1
        · exact List.filter_eq_nil_iff.mpr fun j hj => by simpa using hj
        · apply List.filter_eq_self.mpr
          intro j hj
          simpa using fun hmem => hdisjoint hmem hj
    _ = ids.drop k := List.nil_append _

namespace Indexed

theorem nodup (hl : Indexed l) (nb : NotebookId) : (l.jobIdsByNotebook nb).Nodup :=
  (hl.ordered nb).imp Nat.ne_of_lt

/-- A job is listed under its own notebook only. -/
theorem notebook_unique (hl : Indexed l) (h : j ∈ l.jobIdsByNotebook nb)
    (h' : j ∈ l.jobIdsByNotebook nb') : nb = nb' := by
  obtain ⟨job, hjob, rfl⟩ := hl.listed.mp h
  obtain ⟨job', hjob', rfl⟩ := hl.listed.mp h'
  cases hjob.symm.trans hjob'
  rfl

theorem not_stale (hl : Indexed l) (h : j ∈ l.jobIdsByNotebook nb') (hne : nb' ≠ nb) :
    j ∉ l.staleIds nb :=
  fun hstale => hne (hl.notebook_unique h (mem_staleIds hstale).1)

theorem prune (hl : Indexed l) (nb : NotebookId) : Indexed (l.pruneCompletedJobs nb) where
  ordered nb' := by
    rw [jobIdsByNotebook_prune]
    split
    · exact (hl.ordered nb).filter _
    · exact hl.ordered nb'
  listed := by
    intro nb' j
    rw [jobIdsByNotebook_prune, getJob_pruned]
    by_cases hstale : j ∈ l.staleIds nb
    · rw [if_pos hstale]
      split
      · simp [hstale]
      · rename_i hne
        simpa using fun hmem => hl.not_stale hmem hne hstale
    · rw [if_neg hstale]
      split
      · rename_i heq
        subst heq
        simpa [hstale] using hl.listed
      · exact hl.listed
  handedOut := by
    intro j job hjob
    rw [getJob_pruned] at hjob
    split at hjob
    · cases hjob
    · rw [nextJobId_prune]
      exact hl.handedOut hjob
  keyed := by
    intro j job hjob
    rw [getJob_pruned] at hjob
    split at hjob
    · cases hjob
    · exact hl.keyed hjob

/-- The pruner leaves a notebook with at most the configured number of completed jobs. -/
theorem completedIds_prune (hl : Indexed l) (hbound : 0 ≤ l.maxCompletedJobsPerNotebook)
    (nb : NotebookId) : ((l.pruneCompletedJobs nb).completedIds nb).length ≤
      l.maxCompletedJobsPerNotebook := by
  have hnodup : (l.completedIds nb).Nodup := (hl.nodup nb).filter _
  have hrest : (l.pruneCompletedJobs nb).completedIds nb =
      (l.completedIds nb).filter fun j => j ∉ l.staleIds nb := by
    rw [completedIds, jobIdsByNotebook_prune, if_pos rfl, completedIds, List.filter_filter,
      List.filter_filter]
    apply List.filter_congr
    intro j _
    rw [isCompleted_eq, isCompleted_eq, getJob_pruned]
    by_cases hstale : j ∈ l.staleIds nb <;> simp [hstale]
  rw [hrest, staleIds, if_neg (by omega), filter_notMem_take hnodup, List.length_drop]
  omega

/-- The pruner at one notebook leaves the completed jobs of another. -/
theorem completedIds_prune_of_ne (hl : Indexed l) (hne : nb' ≠ nb) :
    (l.pruneCompletedJobs nb).completedIds nb' = l.completedIds nb' := by
  rw [completedIds, jobIdsByNotebook_prune, if_neg hne]
  apply List.filter_congr
  intro j hj
  rw [isCompleted_eq, isCompleted_eq, getJob_pruned, if_neg (hl.not_stale hj hne)]

/-! ## The other operations -/

/-- A record overwritten by one of the same notebook. -/
theorem set (hl : Indexed l) (hjob : l.getJob j = some job) (hid : job'.jobId = job.jobId)
    (hname : job'.notebookId = job.notebookId) :
    Indexed { l with jobsById := l.jobsById.set j job' } where
  ordered := hl.ordered
  listed := by
    intro nb i
    rw [hl.listed, getJob, getJob, Dict.get?_set]
    split
    · rename_i heq
      subst heq
      rw [show l.jobsById.get? i = some job from hjob]
      simp [hname]
    · rfl
  handedOut := by
    intro i old hold
    rw [getJob, Dict.get?_set] at hold
    split at hold
    · rename_i heq
      subst heq
      exact hl.handedOut hjob
    · exact hl.handedOut hold
  keyed := by
    intro i old hold
    rw [getJob, Dict.get?_set] at hold
    split at hold
    · rename_i heq
      subst heq
      cases hold
      exact hid.trans (hl.keyed hjob)
    · exact hl.keyed hold

/-- A record entered under a new id. -/
theorem insert (hl : Indexed l) (hid : job.jobId = l.nextJobId) (hname : job.notebookId = nb) :
    Indexed
      { l with
        jobsById := l.jobsById.set l.nextJobId job
        jobIdsByNotebook := Function.update l.jobIdsByNotebook nb
          (l.jobIdsByNotebook nb ++ [l.nextJobId])
        nextJobId := l.nextJobId + 1 } := by
  have hfresh : ∀ {nb j}, j ∈ l.jobIdsByNotebook nb → j < l.nextJobId := by
    intro nb j hj
    obtain ⟨job, hjob, -⟩ := hl.listed.mp hj
    exact hl.handedOut hjob
  constructor
  · intro nb'
    dsimp only
    rw [Function.update_apply]
    split
    · refine List.pairwise_append.mpr ⟨hl.ordered nb, List.pairwise_singleton _ _, ?_⟩
      intro i hi i' hi'
      rw [List.mem_singleton.mp hi']
      exact hfresh hi
    · exact hl.ordered nb'
  · intro nb' i
    dsimp only [getJob]
    rw [Function.update_apply, Dict.get?_set]
    by_cases hi : i = l.nextJobId
    · subst hi
      simp only [if_true, Option.some.injEq, exists_eq_left']
      split
      · rename_i heq
        simp [heq, hname]
      · rename_i hne
        constructor
        · exact fun hmem => absurd (hfresh hmem) (lt_irrefl _)
        · exact fun heq => absurd (hname.symm.trans heq).symm hne
    · rw [if_neg hi]
      split
      · rename_i heq
        subst heq
        simpa [hi, getJob] using hl.listed
      · exact hl.listed
  · intro i old hold
    rw [getJob, Dict.get?_set] at hold
    split at hold
    · rename_i heq
      exact heq ▸ Nat.lt_succ_self _
    · exact (hl.handedOut hold).trans (Nat.lt_succ_self _)
  · intro i old hold
    rw [getJob, Dict.get?_set] at hold
    split at hold
    · rename_i heq
      cases hold
      exact hid.trans heq.symm
    · exact hl.keyed hold

theorem getJob_evict (hl : Indexed l) (nb : NotebookId) (j : JobId) :
    (l.evictNotebook nb).getJob j = (l.getJob j).filter fun job => job.notebookId ≠ nb := by
  rw [getJob, evictNotebook, Dict.get?_filterKeys]
  change (if _ then l.getJob j else none) = _
  cases hjob : l.getJob j with
  | none => simp
  | some job =>
      have hmem : j ∈ l.jobIdsByNotebook nb ↔ job.notebookId = nb := by
        rw [hl.listed, hjob]
        simp
      by_cases hname : job.notebookId = nb <;> simp [hmem, hname, Option.filter]

theorem evict (hl : Indexed l) (nb : NotebookId) : Indexed (l.evictNotebook nb) where
  ordered nb' := by
    dsimp only [evictNotebook]
    rw [Function.update_apply]
    split
    · exact List.Pairwise.nil
    · exact hl.ordered nb'
  listed := by
    intro nb' j
    rw [hl.getJob_evict]
    dsimp only [evictNotebook]
    rw [Function.update_apply]
    split
    · rename_i heq
      subst heq
      simp [Option.filter_eq_some_iff]
    · rename_i hne
      rw [hl.listed]
      simp only [Option.filter_eq_some_iff, decide_eq_true_eq]
      constructor
      · rintro ⟨job, hjob, rfl⟩
        exact ⟨job, ⟨hjob, hne⟩, rfl⟩
      · rintro ⟨job, ⟨hjob, -⟩, hname⟩
        exact ⟨job, hjob, hname⟩
  handedOut := by
    intro j job hjob
    rw [hl.getJob_evict, Option.filter_eq_some_iff] at hjob
    exact hl.handedOut hjob.1
  keyed := by
    intro j job hjob
    rw [hl.getJob_evict, Option.filter_eq_some_iff] at hjob
    exact hl.keyed hjob.1

theorem close : Indexed l.close where
  ordered _ := List.Pairwise.nil
  listed := by simp [MemoryLedger.close, getJob]
  handedOut h := by cases h
  keyed h := by cases h

theorem empty {maxCompleted : Int} : Indexed (.empty maxCompleted) where
  ordered _ := List.Pairwise.nil
  listed := by simp [MemoryLedger.empty, getJob]
  handedOut h := by cases h
  keyed h := by cases h

theorem perform (hl : Indexed l) (op : LedgerOp) : Indexed (l.perform op) := by
  cases op with
  | createJob => exact (hl.insert rfl rfl).prune _
  | updateJobStatus jobId status runtimeId now =>
      rw [MemoryLedger.perform, updateJobStatus]
      split
      · exact hl
      · rename_i hjob
        refine Indexed.prune ?_ _
        exact hl.set hjob rfl rfl
  | appendRequestUid jobId uid =>
      rw [MemoryLedger.perform, appendRequestUid]
      cases hjob : l.jobsById.get? jobId with
      | none => exact hl
      | some job => exact hl.set hjob rfl rfl
  | updateCellAttribution => exact ⟨hl.ordered, hl.listed, hl.handedOut, hl.keyed⟩
  | evictNotebook => exact hl.evict _
  | close => exact Indexed.close

end Indexed

/-! ## The bound on completed jobs -/

/-- No notebook has more completed jobs than the pruner keeps. -/
def Bounded (l : MemoryLedger) : Prop :=
  ∀ nb, ((l.completedIds nb).length : Int) ≤ l.maxCompletedJobsPerNotebook

/-- The completed jobs of a notebook depend on its list and the statuses of its jobs. -/
theorem completedIds_congr (hids : l'.jobIdsByNotebook nb = l.jobIdsByNotebook nb)
    (hstatus : ∀ j ∈ l.jobIdsByNotebook nb, (l'.getJob j).map Job.status = (l.getJob j).map Job.status) :
    l'.completedIds nb = l.completedIds nb := by
  rw [completedIds, hids]
  apply List.filter_congr
  intro j hj
  have hcompleted : ∀ l : MemoryLedger, l.isCompleted j =
      ((l.getJob j).map Job.status).any JobStatus.isTerminal := by
    intro l
    rw [isCompleted_eq]
    cases l.getJob j <;> rfl
  rw [hcompleted, hcompleted, hstatus j hj]

@[simp] theorem maxCompleted_prune : (l.pruneCompletedJobs nb).maxCompletedJobsPerNotebook =
    l.maxCompletedJobsPerNotebook := by
  unfold pruneCompletedJobs
  dsimp only
  split
  · rfl
  · split <;> rfl

namespace Bounded

theorem nonneg (hb : Bounded l) : 0 ≤ l.maxCompletedJobsPerNotebook :=
  (Int.natCast_nonneg _).trans (hb "")

/-- Pruning the one notebook whose completed jobs have changed restores the bound. -/
theorem prune (hb : Bounded l) (hl : Indexed l')
    (hmax : l'.maxCompletedJobsPerNotebook = l.maxCompletedJobsPerNotebook)
    (hother : ∀ nb', nb' ≠ nb → l'.completedIds nb' = l.completedIds nb') :
    Bounded (l'.pruneCompletedJobs nb) := by
  intro nb'
  rw [maxCompleted_prune]
  by_cases hne : nb' = nb
  · subst hne
    exact hl.completedIds_prune (hmax ▸ hb.nonneg) nb'
  · rw [hl.completedIds_prune_of_ne hne, hother nb' hne, hmax]
    exact hb nb'

/-- The bound survives a change that adds no completed job. -/
theorem of_sublist (hb : Bounded l)
    (hmax : l'.maxCompletedJobsPerNotebook = l.maxCompletedJobsPerNotebook)
    (hsub : ∀ nb, l'.completedIds nb = l.completedIds nb ∨ l'.completedIds nb = []) :
    Bounded l' := by
  intro nb
  rw [hmax]
  rcases hsub nb with heq | heq <;> rw [heq]
  · exact hb nb
  · exact hb.nonneg

theorem perform (hb : Bounded l) (hl : Indexed l) (op : LedgerOp) : Bounded (l.perform op) := by
  cases op with
  | createJob notebookId actor action targetCells runtimeId now =>
      apply hb.prune (hl.insert rfl rfl) rfl
      intro nb' hne
      apply completedIds_congr (Function.update_of_ne hne _ _)
      intro j hj
      obtain ⟨job, hjob, -⟩ := hl.listed.mp hj
      rw [getJob, Dict.get?_set_of_ne _ _ (Nat.ne_of_lt (hl.handedOut hjob))]
      rfl
  | updateJobStatus jobId status runtimeId now =>
      rw [MemoryLedger.perform, updateJobStatus]
      split
      · exact hb
      · rename_i job hjob
        refine hb.prune ?_ rfl fun nb' hne => completedIds_congr rfl fun j hj => ?_
        · exact hl.set hjob rfl rfl
        · have hne' : j ≠ jobId := by
            rintro rfl
            exact hne (hl.notebook_unique hj (hl.listed.mpr ⟨job, hjob, rfl⟩))
          rw [getJob, Dict.get?_set_of_ne _ _ hne']
          rfl
  | appendRequestUid jobId uid =>
      rw [MemoryLedger.perform, appendRequestUid]
      cases hjob : l.jobsById.get? jobId with
      | none => exact hb
      | some job =>
          refine hb.of_sublist rfl fun nb => .inl (completedIds_congr rfl fun j _ => ?_)
          simp only [Option.map_some, Option.getD_some, getJob, Dict.get?_set]
          split
          · rename_i heq
            rw [heq, hjob]
            rfl
          · rfl
  | updateCellAttribution => exact hb
  | evictNotebook notebookId =>
      refine hb.of_sublist rfl fun nb => ?_
      by_cases hne : nb = notebookId
      · right
        subst hne
        simp [completedIds, MemoryLedger.perform, evictNotebook]
      · left
        apply completedIds_congr (Function.update_of_ne hne _ _)
        intro j hj
        obtain ⟨job, hjob, hname⟩ := hl.listed.mp hj
        rw [MemoryLedger.perform, hl.getJob_evict, hjob]
        simp [hname, hne, Option.filter]
  | close => exact hb.of_sublist rfl fun nb => .inr rfl

end Bounded

/-! ## What an operation leaves alone -/

namespace Indexed

/-- An operation on one notebook changes no job of another. -/
theorem getJob_perform_of_ne (hl : Indexed l) (hjob : l.getJob j = some job)
    (htarget : l.target op ≠ some job.notebookId) (hclose : op ≠ .close) :
    (l.perform op).getJob j = some job := by
  have hlisted : j ∈ l.jobIdsByNotebook job.notebookId := hl.listed.mpr ⟨job, hjob, rfl⟩
  cases op with
  | createJob notebookId actor action targetCells runtimeId now =>
      have hne : job.notebookId ≠ notebookId := fun heq => htarget (congrArg some heq.symm)
      have hold : j ≠ l.nextJobId := Nat.ne_of_lt (hl.handedOut hjob)
      rw [MemoryLedger.perform, createJob, getJob_pruned, if_neg, getJob,
        Dict.get?_set_of_ne _ _ hold]
      · exact hjob
      · refine Indexed.not_stale (by exact hl.insert rfl rfl) ?_ hne
        dsimp only
        rwa [Function.update_of_ne hne]
  | updateJobStatus jobId status runtimeId now =>
      rw [MemoryLedger.perform, updateJobStatus]
      split
      · exact hjob
      · rename_i old hold
        have hne : job.notebookId ≠ old.notebookId := by
          intro heq
          exact htarget (by rw [target, getJob, hold, heq]; rfl)
        have hne' : j ≠ jobId := by
          rintro rfl
          cases hjob.symm.trans hold
          exact hne rfl
        rw [getJob_pruned, if_neg, getJob, Dict.get?_set_of_ne _ _ hne']
        · exact hjob
        · exact Indexed.not_stale (by exact hl.set hold rfl rfl) hlisted hne
  | appendRequestUid jobId uid =>
      rw [MemoryLedger.perform, appendRequestUid]
      cases hold : l.jobsById.get? jobId with
      | none => exact hjob
      | some old =>
          have hne' : j ≠ jobId := by
            rintro rfl
            cases hjob.symm.trans hold
            exact htarget (by rw [target, getJob, hold]; rfl)
          rw [Option.map_some, Option.getD_some, getJob, Dict.get?_set_of_ne _ _ hne']
          exact hjob
  | updateCellAttribution => exact hjob
  | evictNotebook notebookId =>
      have hne : job.notebookId ≠ notebookId := fun heq => htarget (congrArg some heq.symm)
      rw [MemoryLedger.perform, hl.getJob_evict, hjob]
      simp [hne, Option.filter]
  | close => exact absurd rfl hclose

/-- A job that an operation does not leave completed is forgotten with its notebook only. -/
theorem evicted_of_active (hl : Indexed l) (hjob : l.getJob j = some job)
    (hactive : (op.statusOf j job).isActive = true) (hgone : (l.perform op).getJob j = none) :
    op = .evictNotebook job.notebookId ∨ op = .close := by
  have hkept : ∀ {job : Job}, job.status.isActive = true → ¬Forgets (some job) none := by
    intro job hactive h
    rw [JobStatus.isActive_eq, Bool.not_eq_true'] at hactive
    cases h.of_active hactive
  cases op with
  | createJob notebookId actor action targetCells runtimeId now =>
      have h : Forgets (l.getJob j) ((l.perform (.createJob notebookId actor action targetCells
          runtimeId now)).getJob j) := getJob_createJob_of_ne (Nat.ne_of_lt (hl.handedOut hjob))
      rw [hjob, hgone] at h
      exact absurd h (hkept hactive)
  | updateJobStatus jobId status runtimeId now =>
      by_cases hj : j = jobId
      · subst hj
        have h := l.getJob_updateJobStatus_self j status runtimeId now
        rw [hjob, show (l.updateJobStatus j status runtimeId now).getJob j = none from hgone] at h
        rw [LedgerOp.statusOf, if_pos rfl] at hactive
        exact absurd h (hkept hactive)
      · have h := l.getJob_updateJobStatus_of_ne status runtimeId now hj
        rw [hjob, show (l.updateJobStatus jobId status runtimeId now).getJob j = none from hgone] at h
        rw [LedgerOp.statusOf, if_neg hj] at hactive
        exact absurd h (hkept hactive)
  | appendRequestUid jobId uid =>
      rw [MemoryLedger.perform] at hgone
      cases happend : l.appendRequestUid jobId uid with
      | none =>
          rw [happend] at hgone
          cases hjob.symm.trans hgone
      | some l' =>
          rw [happend, Option.getD_some, getJob_appendRequestUid happend] at hgone
          split at hgone
          · rename_i heq
            subst heq
            rw [hjob] at hgone
            cases hgone
          · cases hjob.symm.trans hgone
  | updateCellAttribution => cases hjob.symm.trans hgone
  | evictNotebook notebookId =>
      left
      rw [MemoryLedger.perform, hl.getJob_evict, hjob] at hgone
      by_contra hne
      have hname : job.notebookId ≠ notebookId := fun heq => hne (congrArg _ heq.symm)
      simp [hname, Option.filter] at hgone
  | close => exact .inr rfl

end Indexed

/-! ## Runs -/

/-- Sequences of operations. -/
abbrev LedgerRun : MemoryLedger → MemoryLedger → Prop :=
  Run (fun l op => some (l.perform op)) anyStep

/-- Performing a list of operations is a run. -/
theorem exists_ledgerRun (l : MemoryLedger) (ops : List LedgerOp) (P : MemoryLedger → Prop)
    [DecidablePred P]
    (h : (exec (fun l op => some (perform l op)) l ops).any P = true) : ∃ l', LedgerRun l l' ∧ P l' :=
  exists_run_of_exec h

@[simp] theorem maxCompleted_perform (l : MemoryLedger) (op : LedgerOp) :
    (l.perform op).maxCompletedJobsPerNotebook = l.maxCompletedJobsPerNotebook := by
  cases op with
  | createJob => simp [perform, createJob]
  | updateJobStatus =>
      rw [perform, updateJobStatus]
      split <;> simp
  | appendRequestUid jobId uid =>
      rw [perform, appendRequestUid]
      cases l.jobsById.get? jobId <;> rfl
  | _ => rfl

theorem Indexed.run (h : LedgerRun l l') (hl : Indexed l) : Indexed l' :=
  h.invariant hl fun _ op _ hl _ hstep => Option.some.inj hstep ▸ hl.perform op

theorem Bounded.run (h : LedgerRun l l') (hl : Indexed l) (hb : Bounded l) : Bounded l' :=
  h.invariant_of (fun _ h => hl.run h) hb
    fun _ op _ hl _ hb _ hstep => Option.some.inj hstep ▸ hb.perform hl op

theorem maxCompleted_run (h : LedgerRun l l') :
    l'.maxCompletedJobsPerNotebook = l.maxCompletedJobsPerNotebook :=
  Run.invariant (I := fun l' : MemoryLedger =>
    l'.maxCompletedJobsPerNotebook = l.maxCompletedJobsPerNotebook) h rfl
    fun l op _ heq _ hstep => Option.some.inj hstep ▸ (l.maxCompleted_perform op).trans heq

theorem bounded_empty (m : Nat) : Bounded (.empty m) :=
  fun _ => Int.natCast_nonneg m

/-- After any sequence of operations the lists of the notebooks are duplicate-free and in the
order of creation, disjoint, and hold exactly the recorded jobs, each under its notebook; no
notebook has more than `m` completed jobs; and no operation removes a job it does not leave
completed, except by evicting its notebook, or changes a job of another notebook. -/
theorem indexes_agree {m : Nat} (h : LedgerRun (.empty m) l) :
    (∀ nb, (l.jobIdsByNotebook nb).Nodup ∧ (l.jobIdsByNotebook nb).Pairwise (· < ·)) ∧
      (∀ nb nb', nb ≠ nb' → List.Disjoint (l.jobIdsByNotebook nb) (l.jobIdsByNotebook nb')) ∧
      (∀ j, j ∈ l.jobsById.keys ↔ ∃ nb, j ∈ l.jobIdsByNotebook nb) ∧
      (∀ j job, l.getJob j = some job → j ∈ l.jobIdsByNotebook job.notebookId) ∧
      (∀ nb, (l.completedIds nb).length ≤ m) ∧
      ∀ op j job, l.getJob j = some job →
        ((op.statusOf j job).isActive = true → (l.perform op).getJob j = none →
          op = .evictNotebook job.notebookId ∨ op = .close) ∧
        (l.target op ≠ some job.notebookId → op ≠ .close →
          (l.perform op).getJob j = some job) := by
  have hl : Indexed l := Indexed.empty.run h
  have hb : Bounded l := (bounded_empty m).run h .empty
  have hlisted : ∀ j job, l.getJob j = some job → j ∈ l.jobIdsByNotebook job.notebookId :=
    fun j job hjob => hl.listed.mpr ⟨job, hjob, rfl⟩
  refine ⟨fun nb => ⟨hl.nodup nb, hl.ordered nb⟩, ?_, ?_, hlisted, ?_, ?_⟩
  · intro nb nb' hne j hj hj'
    exact hne (hl.notebook_unique hj hj')
  · intro j
    rw [Dict.mem_keys, Option.isSome_iff_exists]
    constructor
    · rintro ⟨job, hjob⟩
      exact ⟨_, hlisted j job hjob⟩
    · rintro ⟨nb, hj⟩
      obtain ⟨job, hjob, -⟩ := hl.listed.mp hj
      exact ⟨job, hjob⟩
  · intro nb
    have hbound := hb nb
    rw [maxCompleted_run h] at hbound
    exact Int.ofNat_le.mp hbound
  · intro op j job hjob
    exact ⟨hl.evicted_of_active hjob, hl.getJob_perform_of_ne hjob⟩

/-- Two jobs of a notebook complete, and the older one is forgotten. -/
theorem older_job_pruned :
    ∃ l : MemoryLedger, l.getJob 0 = none ∧ 1 ∈ l.completedIds "nb" ∧
      (l.completedIds "nb").length ≤ 1 := by
  let create : LedgerOp := .createJob "nb" ⟨"alice", .human⟩ .execute none (some 0) 0
  obtain ⟨l, hrun, hgone, hkept⟩ := exists_ledgerRun (.empty (1 : Nat))
    [create, create, .updateJobStatus 0 .succeeded none 1, .updateJobStatus 1 .failed none 2]
    (fun l => l.getJob 0 = none ∧ 1 ∈ l.completedIds "nb") (by decide)
  exact ⟨l, hgone, hkept, (indexes_agree hrun).2.2.2.2.1 "nb"⟩

end MemoryLedger

end Hypernote
