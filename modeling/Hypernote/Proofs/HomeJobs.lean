import Hypernote.Client.Home
import Hypernote.Foundation.StableSort
import Hypernote.LedgerRuns
/-!
# The active jobs of the home view

The server cuts the list of jobs before the client takes the active ones out of it: an active job is
hidden by a hundred jobs that are listed before it, whatever their status.
-/

namespace Hypernote

open Foundation

namespace Home

/-- The payload that the home view makes of a ledger. -/
def ofLedger (l : MemoryLedger) : Payload := homePayload (JobsHandler.get l none none)

/-- The jobs that are queued, running or awaiting input. -/
def ledgerActive (l : MemoryLedger) : List Job := l.jobsById.values.filter fun job => job.status.isActive

/-- How the home view shows a job. -/
def shown (job : Job) : ActiveJob :=
  ⟨job.jobId, job.status.value, job.notebookId, targetCellCount job.targetCells⟩

/-- Every active job is shown, and their number is right. -/
structure HidesNone (l : MemoryLedger) (payload : Payload) : Prop where
  contains : ∀ job ∈ ledgerActive l, shown job ∈ payload.activeJobs
  count : payload.activeJobCount = (ledgerActive l).length

/-- Of two jobs, each with its place in the ledger, the first is created later, or at the same time
and held for longer. -/
def listedBefore (p q : Job × Nat) : Bool :=
  q.1.createdAt < p.1.createdAt || p.1.createdAt = q.1.createdAt && p.2 < q.2

/-- Fewer jobs than the limit are listed before any active job. -/
def FewBefore (l : MemoryLedger) : Prop :=
  ∀ p ∈ l.jobsById.values.zipIdx, p.1.status.isActive = true →
    l.jobsById.values.zipIdx.countP (listedBefore · p) < MemoryLedger.defaultLimit

instance (l : MemoryLedger) : Decidable (FewBefore l) :=
  inferInstanceAs (Decidable (∀ p ∈ l.jobsById.values.zipIdx, _ → _))

variable {l : MemoryLedger} {job : Job}

/-! ## What is shown -/

theorem activeJob?_row (job : Job) :
    activeJob? (JobsHandler.row job) = if job.status.isActive then some (shown job) else none := by
  cases hstatus : job.status <;>
    simp [activeJob?, JobsHandler.row, hstatus, JobStatus.value, JobStatus.isActive, shown]

/-- The home view shows the active jobs among those that the server lists. -/
theorem ofLedger_eq (l : MemoryLedger) :
    ofLedger l =
      let jobs := ((l.iterJobs none none).take MemoryLedger.defaultLimit).filter
        fun job => job.status.isActive
      ⟨true, jobs.map shown, jobs.length⟩ := by
  have hshown : ∀ jobs : List Job, (jobs.map JobsHandler.row).filterMap activeJob? =
      (jobs.filter fun job => job.status.isActive).map shown := by
    intro jobs
    induction jobs with
    | nil => rfl
    | cons job jobs ih =>
        rw [List.map_cons, List.filterMap_cons, activeJob?_row, ih]
        cases hactive : job.status.isActive <;> simp [hactive]
  rw [ofLedger, JobsHandler.get, homePayload]
  dsimp only
  rw [MemoryLedger.listJobs, hshown, List.length_map]

/-- What the limit leaves out holds no active job just when few jobs are listed before each. -/
theorem fewBefore_iff (l : MemoryLedger) :
    FewBefore l ↔ ∀ job ∈ (l.iterJobs none none).drop MemoryLedger.defaultLimit,
      ¬ job.status.isActive = true := by
  have hbefore : listedBefore =
      sortsBefore fun job job' : Job => decide (job'.createdAt ≤ job.createdAt) := by
    funext p q
    rw [Bool.eq_iff_iff]
    simp only [listedBefore, sortsBefore, Bool.or_eq_true, Bool.and_eq_true, Bool.not_eq_true',
      decide_eq_true_eq, decide_eq_false_iff_not, not_le]
    constructor
    · rintro (hlt | ⟨heq, hplace⟩)
      · exact ⟨hlt.le, .inl hlt⟩
      · exact ⟨heq.ge, .inr hplace⟩
    · rintro ⟨hle, hlt | hplace⟩
      · exact .inl hlt
      · exact hle.lt_or_eq.imp_right fun heq => ⟨heq.symm, hplace⟩
  rw [FewBefore, hbefore]
  refine (forall_mem_drop_mergeSort ?_ ?_ _ _ fun job : Job => job.status.isActive = true).symm
  · intro a b c hab hbc
    simp only [decide_eq_true_eq] at hab hbc ⊢
    exact hbc.trans hab
  · intro a b
    simp only [Bool.or_eq_true, decide_eq_true_eq]
    exact le_total _ _

/-- The home view shows every active job of the ledger, and counts them right, just when fewer jobs
than the limit are listed before each of them. -/
theorem home_hides_none_iff (l : MemoryLedger) : HidesNone l (ofLedger l) ↔ FewBefore l := by
  have hperm : (l.iterJobs none none).Perm l.jobsById.values := List.mergeSort_perm ..
  have hsplit := (l.iterJobs none none).take_append_drop MemoryLedger.defaultLimit
  have hactive := (hperm.filter fun job => job.status.isActive).length_eq
  rw [← hsplit, List.filter_append, List.length_append] at hactive
  rw [fewBefore_iff, ofLedger_eq]
  constructor
  · rintro ⟨-, hcount⟩ job hjob hjobActive
    have hdropped : 0 < (((l.iterJobs none none).drop MemoryLedger.defaultLimit).filter
        fun job => job.status.isActive).length :=
      List.length_pos_of_mem (List.mem_filter.mpr ⟨hjob, hjobActive⟩)
    have hcount' : (((l.iterJobs none none).take MemoryLedger.defaultLimit).filter
        fun job => job.status.isActive).length = (ledgerActive l).length := hcount
    rw [ledgerActive] at hcount'
    omega
  · intro hdropped
    have hnone := List.filter_eq_nil_iff.mpr hdropped
    rw [hnone, List.length_nil, Nat.add_zero] at hactive
    refine ⟨fun job hjob => ?_, hactive⟩
    obtain ⟨hvalues, hjobActive⟩ := List.mem_filter.mp hjob
    have hlisted := hperm.mem_iff.mpr hvalues
    rw [← hsplit, List.mem_append] at hlisted
    have htake := hlisted.resolve_right fun h => hdropped job h hjobActive
    exact List.mem_map_of_mem (List.mem_filter.mpr ⟨htake, hjobActive⟩)

/-! ## A hundred and one queued jobs -/

private def someAgent : Actor := ⟨"agent", .agent⟩

private def queuedAt (i : Nat) : Job :=
  ⟨i, "a.ipynb", someAgent, .execute, .queued, i, none, none, [], none, none⟩

/-- The ledger after `n` jobs have been created, one after the other, and none has begun. -/
private def queuedJobs : Nat → MemoryLedger
  | 0 => .empty 20
  | n + 1 => (queuedJobs n).createJob "a.ipynb" someAgent .execute none none n

private theorem run_queuedJobs (n : Nat) :
    MemoryLedger.LedgerRun (.empty 20) (queuedJobs n) := by
  induction n with
  | zero => exact .refl
  | succ n ih =>
      exact .tail (l := .createJob "a.ipynb" someAgent .execute none none n) ih trivial rfl

/-- Nothing is pruned of a ledger that holds no completed job. -/
theorem prune_of_active (h : ∀ p ∈ l.jobsById.entries, p.2.status.isTerminal = false)
    (notebookId : NotebookId) : l.pruneCompletedJobs notebookId = l := by
  have hnone : (l.jobIdsByNotebook notebookId).filter l.isCompleted = [] := by
    refine List.filter_eq_nil_iff.mpr fun j _ => ?_
    unfold MemoryLedger.isCompleted
    split
    · exact Bool.false_ne_true
    · rename_i job hjob
      rw [h _ (Dict.get?_eq_some_iff.mp hjob)]
      exact Bool.false_ne_true
  unfold MemoryLedger.pruneCompletedJobs
  rw [hnone]
  split
  · rfl
  · rw [if_pos]
    rw [List.length_nil]
    omega

private theorem entries_queuedJobs (n : Nat) :
    (queuedJobs n).nextJobId = n ∧
      (queuedJobs n).jobsById.entries = (List.range n).map fun i => (i, queuedAt i) := by
  induction n with
  | zero => exact ⟨rfl, rfl⟩
  | succ n ih =>
      obtain ⟨hnext, hentries⟩ := ih
      refine ⟨by rw [queuedJobs, MemoryLedger.nextJobId_createJob, hnext], ?_⟩
      have hnew : n ∉ (queuedJobs n).jobsById.keys := by
        rw [Dict.keys, hentries, List.map_map]
        simp
      have hset := Dict.entries_set_of_not_mem (queuedAt n) hnew
      rw [hentries, ← List.map_singleton (f := fun i => (i, queuedAt i)), ← List.map_append,
        ← List.range_succ] at hset
      rw [queuedJobs, MemoryLedger.createJob, hnext, prune_of_active]
      · exact hset
      · intro p hp
        have hmem : p ∈ ((queuedJobs n).jobsById.set n (queuedAt n)).entries := hp
        rw [hset] at hmem
        obtain ⟨i, -, rfl⟩ := List.mem_map.mp hmem
        rfl

/-- The job that has waited for longest is hidden by a hundred others. -/
theorem oldest_queued_job_hidden :
    ∃ l, MemoryLedger.LedgerRun (.empty 20) l ∧ (ledgerActive l).length = 101 ∧
      (ofLedger l).activeJobCount = 100 ∧ ¬ HidesNone l (ofLedger l) := by
  have hvalues : (queuedJobs 101).jobsById.values = (List.range 101).map queuedAt := by
    rw [Dict.values, (entries_queuedJobs 101).2, List.map_map]
    rfl
  have hactive : ledgerActive (queuedJobs 101) = (List.range 101).map queuedAt := by
    rw [ledgerActive, hvalues, List.filter_eq_self]
    intro job hjob
    obtain ⟨i, -, rfl⟩ := List.mem_map.mp hjob
    rfl
  have hcount : (ofLedger (queuedJobs 101)).activeJobCount = 100 := by
    have hperm : ((queuedJobs 101).iterJobs none none).Perm ((List.range 101).map queuedAt) :=
      hvalues ▸ List.mergeSort_perm ..
    have hall : (((queuedJobs 101).iterJobs none none).take MemoryLedger.defaultLimit).filter
        (fun job => job.status.isActive) =
          ((queuedJobs 101).iterJobs none none).take MemoryLedger.defaultLimit := by
      refine List.filter_eq_self.mpr fun job hjob => ?_
      obtain ⟨i, -, rfl⟩ := List.mem_map.mp (hperm.mem_iff.mp (List.mem_of_mem_take hjob))
      rfl
    rw [ofLedger_eq, hall]
    dsimp only
    rw [List.length_take, hperm.length_eq, List.length_map, List.length_range]
    rfl
  have hnumber : (ledgerActive (queuedJobs 101)).length = 101 := by
    rw [hactive, List.length_map, List.length_range]
  refine ⟨queuedJobs 101, run_queuedJobs 101, hnumber, hcount, fun h => ?_⟩
  have hboth := h.count
  omega

end Home

end Hypernote
