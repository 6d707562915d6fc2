import Hypernote.Foundation.StableSort
import Hypernote.Client.Home
import Hypernote.Proofs.Attribution
/-!
# What the ledger lists

The jobs of one notebook are listed through the index of the notebook, all jobs from the table of
the jobs.  Both ways the jobs come newest first, those of one moment in the order of their creation,
so they agree.  The records of the cells of a notebook come in the order of their last update.
-/

namespace Hypernote

open Foundation

/-- The order of a listing. -/
def Job.ListedBefore (job job' : Job) : Prop :=
  job'.createdAt < job.createdAt ∨ job.createdAt = job'.createdAt ∧ job.jobId < job'.jobId

theorem Job.ListedBefore.asymm {job job' : Job} (h : job.ListedBefore job') :
    ¬ job'.ListedBefore job := by
  rintro (h' | ⟨htime', hid'⟩)
  · rcases h with h | ⟨htime, -⟩
    · exact lt_asymm h h'
    · exact absurd h' (htime ▸ lt_irrefl _)
  · rcases h with h | ⟨-, hid⟩
    · exact absurd h (htime' ▸ lt_irrefl _)
    · exact lt_asymm hid hid'

namespace MemoryLedger

open LedgerOp

variable {l l' : MemoryLedger} {j : JobId} {job : Job} {nb : NotebookId} {op : LedgerOp}

/-- The jobs of the ledger that meet a condition, newest first. -/
structure Lists (l : MemoryLedger) (P : Job → Prop) (jobs : List Job) : Prop where
  mem_iff : ∀ job, job ∈ jobs ↔ l.getJob job.jobId = some job ∧ P job
  ordered : jobs.Pairwise Job.ListedBefore

namespace Lists

variable {P Q : Job → Prop} {jobs jobs' : List Job}

theorem nodup (h : Lists l P jobs) : jobs.Nodup :=
  h.ordered.imp fun hbefore heq => (heq ▸ hbefore).asymm (heq ▸ hbefore)

/-- There is one list of the jobs that meet a condition. -/
theorem unique (h : Lists l P jobs) (h' : Lists l P jobs') : jobs = jobs' := by
  have hperm : jobs.Perm jobs' := by
    apply (List.perm_ext_iff_of_nodup h.nodup h'.nodup).mpr
    intro job
    rw [h.mem_iff, h'.mem_iff]
  apply hperm.eq_of_pairwise _ h.ordered h'.ordered
  intro job job' _ _ hbefore hafter
  exact absurd hafter hbefore.asymm

theorem filter (h : Lists l P jobs) (Q : Job → Prop) [DecidablePred Q] :
    Lists l (fun job => P job ∧ Q job) (jobs.filter (Q ·)) where
  mem_iff job := by
    rw [List.mem_filter, h.mem_iff, decide_eq_true_eq, and_assoc]
  ordered := h.ordered.filter _

theorem congr (h : Lists l P jobs) (hPQ : ∀ job, P job ↔ Q job) : Lists l Q jobs where
  mem_iff job := by rw [h.mem_iff, hPQ]
  ordered := h.ordered

/-- Sorting the jobs by their times of creation, in whatever way they are collected by id. -/
theorem mergeSort (hmem : ∀ job, job ∈ jobs ↔ l.getJob job.jobId = some job ∧ P job)
    (hids : jobs.Pairwise fun job job' => job.jobId < job'.jobId) :
    Lists l P (jobs.mergeSort fun job job' => decide (job'.createdAt ≤ job.createdAt)) where
  mem_iff job := List.mem_mergeSort.trans (hmem job)
  ordered := by
    refine (pairwise_mergeSort_stable ?_ ?_ hids).imp ?_
    · intro a b c hab hbc
      simp only [decide_eq_true_eq] at hab hbc ⊢
      exact hbc.trans hab
    · intro a b
      simpa using le_total b.createdAt a.createdAt
    · rintro a b ⟨hle, hids⟩
      simp only [decide_eq_true_eq] at hle hids
      rcases hle.lt_or_eq with hlt | heq
      · exact .inl hlt
      · exact .inr ⟨heq.symm, hids heq.symm.le⟩

end Lists

/-! ## The table of the jobs -/

/-- The table keeps the jobs in the order of their creation. -/
def InOrder (l : MemoryLedger) : Prop := l.jobsById.keys.Pairwise (· < ·)

theorem keys_prune (l : MemoryLedger) (nb : NotebookId) :
    (l.pruneCompletedJobs nb).jobsById.keys.Sublist l.jobsById.keys := by
  unfold pruneCompletedJobs
  dsimp only
  split
  · exact .refl _
  · split
    · exact .refl _
    · rw [Dict.keys_filterKeys]
      exact List.filter_sublist

theorem keys_overwrite (hjob : l.jobsById.get? j = some job) (job' : Job) :
    (l.jobsById.set j job').keys = l.jobsById.keys := by
  rw [Dict.keys_set, if_pos]
  rw [Dict.mem_keys, hjob]
  rfl

theorem InOrder.perform (hs : InOrder l) (hl : Indexed l) (op : LedgerOp) :
    InOrder (l.perform op) := by
  cases op with
  | createJob =>
      refine List.Pairwise.sublist (keys_prune _ _) ?_
      have hlt : ∀ j ∈ l.jobsById.keys, j < l.nextJobId := by
        intro j hj
        obtain ⟨job, hjob⟩ := Option.isSome_iff_exists.mp (Dict.mem_keys.mp hj)
        exact hl.handedOut hjob
      rw [Dict.keys_set, if_neg fun hmem => lt_irrefl _ (hlt _ hmem)]
      refine List.pairwise_append.mpr ⟨hs, List.pairwise_singleton _ _, ?_⟩
      intro j hj j' hj'
      rw [List.mem_singleton.mp hj']
      exact hlt j hj
  | updateJobStatus jobId =>
      rw [MemoryLedger.perform, updateJobStatus]
      split
      · exact hs
      · rename_i hjob
        refine List.Pairwise.sublist (keys_prune _ _) ?_
        rw [keys_overwrite hjob]
        exact hs
  | appendRequestUid jobId uid =>
      rw [MemoryLedger.perform, appendRequestUid]
      cases hjob : l.jobsById.get? jobId with
      | none => exact hs
      | some job =>
          rw [Option.map_some, Option.getD_some, InOrder, keys_overwrite hjob]
          exact hs
  | updateCellAttribution => exact hs
  | evictNotebook =>
      rw [InOrder, MemoryLedger.perform, evictNotebook, Dict.keys_filterKeys]
      exact hs.filter _
  | close => exact List.Pairwise.nil

theorem InOrder.run (h : LedgerRun l l') (hl : Indexed l) (hs : InOrder l) : InOrder l' :=
  h.invariant_of (fun _ h => hl.run h) hs
    fun _ op _ hl _ hs _ hstep => Option.some.inj hstep ▸ hs.perform hl op

namespace Indexed

theorem mem_values (hl : Indexed l) : job ∈ l.jobsById.values ↔ l.getJob job.jobId = some job := by
  rw [Dict.mem_values]
  constructor
  · rintro ⟨j, hjob⟩
    rw [hl.keyed hjob]
    exact hjob
  · exact fun hjob => ⟨_, hjob⟩

theorem values_ordered (hl : Indexed l) (hs : InOrder l) :
    l.jobsById.values.Pairwise fun job job' => job.jobId < job'.jobId := by
  have hkeys : l.jobsById.values.map Job.jobId = l.jobsById.keys := by
    rw [Dict.values, Dict.keys, List.map_map]
    apply List.map_congr_left
    rintro ⟨j, job⟩ hmem
    exact hl.keyed (Dict.get?_eq_some_iff.mpr hmem)
  rw [InOrder, ← hkeys] at hs
  exact List.pairwise_map.mp hs

theorem mem_indexed (hl : Indexed l) :
    job ∈ (l.jobIdsByNotebook nb).filterMap l.jobsById.get? ↔
      l.getJob job.jobId = some job ∧ job.notebookId = nb := by
  rw [List.mem_filterMap]
  constructor
  · rintro ⟨j, hmem, hjob⟩
    obtain ⟨job', hjob', hname⟩ := hl.listed.mp hmem
    cases hjob'.symm.trans hjob
    rw [hl.keyed hjob']
    exact ⟨hjob', hname⟩
  · rintro ⟨hjob, hname⟩
    exact ⟨job.jobId, hl.listed.mpr ⟨job, hjob, hname⟩, hjob⟩

theorem indexed_ordered (hl : Indexed l) (nb : NotebookId) :
    ((l.jobIdsByNotebook nb).filterMap l.jobsById.get?).Pairwise
      fun job job' => job.jobId < job'.jobId := by
  refine List.Pairwise.filterMap _ ?_ (hl.ordered nb)
  intro j j' hlt job hjob job' hjob'
  rw [hl.keyed hjob, hl.keyed hjob']
  exact hlt

end Indexed

/-- The jobs that a call of `_iter_jobs_locked` is for. -/
def Matches (notebookId : Option NotebookId) (status : Option JobStatus) (job : Job) : Prop :=
  (∀ nb ∈ notebookId, job.notebookId = nb) ∧ ∀ st ∈ status, job.status = st

instance (notebookId : Option NotebookId) (status : Option JobStatus) :
    DecidablePred (Matches notebookId status) :=
  fun _ => inferInstanceAs (Decidable (_ ∧ _))

theorem Indexed.lists_iterJobs (hl : Indexed l) (hs : InOrder l) (notebookId : Option NotebookId)
    (status : Option JobStatus) :
    Lists l (Matches notebookId status) (l.iterJobs notebookId status) := by
  -- the jobs of the notebook, however they are found
  obtain ⟨jobs, hjobs, hmem, hids⟩ : ∃ jobs : List Job,
      l.iterJobs notebookId status =
        (status.elim jobs fun status => jobs.filter fun job => job.status = status).mergeSort
            (fun job job' => decide (job'.createdAt ≤ job.createdAt)) ∧
      (∀ job, job ∈ jobs ↔ l.getJob job.jobId = some job ∧
        ∀ nb ∈ notebookId, job.notebookId = nb) ∧
      jobs.Pairwise fun job job' => job.jobId < job'.jobId := by
    cases notebookId with
    | none =>
        refine ⟨_, by cases status <;> rfl, fun job => ?_, hl.values_ordered hs⟩
        rw [hl.mem_values]
        simp
    | some nb =>
        refine ⟨_, by cases status <;> rfl, fun job => ?_, hl.indexed_ordered nb⟩
        rw [hl.mem_indexed]
        simp
  rw [hjobs]
  cases status with
  | none =>
      refine Lists.mergeSort (fun job => ?_) hids
      rw [Option.elim_none, hmem]
      simp [Matches]
  | some status =>
      refine Lists.mergeSort (fun job => ?_) (hids.filter _)
      rw [Option.elim_some, List.mem_filter, hmem]
      simp [Matches, and_assoc]

/-- After any sequence of operations: what is listed for a notebook and a status are the recorded
jobs of that notebook and that status, each once, newest first, and those of one moment in the order
of their creation.  So the way through the index of a notebook gives what a scan of all jobs gives,
also cut to a limit, and the active jobs of a notebook are those of the scan. -/
theorem listings_agree_with_scan {m : Nat} (h : LedgerRun (.empty m) l)
    (notebookId : Option NotebookId) (status : Option JobStatus) (nb : NotebookId) (limit : Nat) :
    Lists l (Matches notebookId status) (l.iterJobs notebookId status) ∧
      l.listJobs (some nb) status limit =
        ((l.iterJobs none none).filter (Matches (some nb) status ·)).take limit ∧
      l.listActiveJobs nb =
        (l.iterJobs none none).filter fun job =>
          Matches (some nb) none job ∧ job.status.isActive = true := by
  have hl : Indexed l := Indexed.empty.run h
  have hs : InOrder l := InOrder.run h .empty List.Pairwise.nil
  have hscan := hl.lists_iterJobs hs none none
  refine ⟨hl.lists_iterJobs hs notebookId status, ?_, ?_⟩
  · rw [listJobs]
    congr 1
    refine (hl.lists_iterJobs hs (some nb) status).unique ((hscan.filter _).congr fun job => ?_)
    simp [Matches]
  · have hactive : Lists l (fun job => Matches (some nb) none job ∧ job.status.isActive = true)
        (l.listActiveJobs nb) := by
      simpa [listActiveJobs] using
        (hl.lists_iterJobs hs (some nb) none).filter fun job => job.status.isActive = true
    refine hactive.unique ((hscan.filter _).congr fun job => ?_)
    simp [Matches]

/-- Two jobs of one moment on a notebook, with one of another notebook between them. -/
theorem listing_skips_other_notebook :
    ∃ l : MemoryLedger, l.jobIdsByNotebook "nb" = [0, 2] ∧ l.jobsById.keys = [0, 1, 2] ∧
      l.listJobs (some "nb") none 100 =
        ((l.iterJobs none none).filter (Matches (some "nb") none ·)).take 100 := by
  let create : NotebookId → LedgerOp :=
    fun nb => .createJob nb ⟨"alice", .human⟩ .execute none (some 0) 0
  obtain ⟨l, hrun, hids, hkeys⟩ := exists_ledgerRun (.empty (1 : Nat))
    [create "nb", create "other", create "nb"]
    (fun l => l.jobIdsByNotebook "nb" = [0, 2] ∧ l.jobsById.keys = [0, 1, 2]) (by decide)
  exact ⟨l, hids, hkeys, (listings_agree_with_scan hrun none none "nb" 100).2.1⟩

/-! ## The records of the cells -/

/-- The record of a cell, or that there is none, says what has been said of the cell. -/
theorem recorded_performAll (maxCompleted : Int) (ops : List LedgerOp) (nb : NotebookId)
    (c : CellId) :
    Recorded nb c ops (((empty maxCompleted).performAll ops).getCellAttribution nb c) := by
  rw [getCellAttribution_performAll]
  exact recorded_foldl ops

/-- Every record is under its own cell. -/
theorem attribution_keyed {maxCompleted : Int} {ops : List LedgerOp} {c : CellId}
    {attr : CellAttribution}
    (h : ((empty maxCompleted).performAll ops).getCellAttribution nb c = some attr) :
    LastWriters nb c ops attr := by
  have hrecorded := recorded_performAll maxCompleted ops nb c
  rwa [h] at hrecorded

theorem mem_attributions {maxCompleted : Int} {ops : List LedgerOp} {attr : CellAttribution} :
    attr ∈ ((empty maxCompleted).performAll ops).listCellAttributions nb ↔
      ((empty maxCompleted).performAll ops).getCellAttribution nb attr.cellId = some attr := by
  rw [listCellAttributions, List.mem_mergeSort, List.mem_filter, Dict.mem_values, decide_eq_true_eq]
  constructor
  · rintro ⟨⟨⟨nb', c⟩, hattr⟩, hname⟩
    have hkeyed := attribution_keyed hattr
    rw [hkeyed.cell, ← hname, hkeyed.notebook]
    exact hattr
  · intro hattr
    exact ⟨⟨_, hattr⟩, (attribution_keyed hattr).notebook⟩

/-- A cell has one record in the table. -/
theorem nodup_attributions (maxCompleted : Int) (ops : List LedgerOp) (nb : NotebookId) :
    ((((empty maxCompleted).performAll ops).listCellAttributions nb).map
      CellAttribution.cellId).Nodup := by
  rw [listCellAttributions, ((List.mergeSort_perm _ _).map CellAttribution.cellId).nodup_iff]
  have hkeys : ((empty maxCompleted).performAll ops).cellAttribution.values.map
      (fun attr => (attr.notebookId, attr.cellId)) =
        ((empty maxCompleted).performAll ops).cellAttribution.keys := by
    rw [Dict.values, Dict.keys, List.map_map]
    apply List.map_congr_left
    rintro ⟨⟨nb, c⟩, attr⟩ hmem
    have hkeyed := attribution_keyed (Dict.get?_eq_some_iff.mpr hmem)
    exact congrArg₂ Prod.mk hkeyed.notebook hkeyed.cell
  have hnodup : ((empty maxCompleted).performAll ops).cellAttribution.keys.Nodup :=
    Dict.nodup _
  rw [← hkeys] at hnodup
  have hdistinct := List.pairwise_map.mp hnodup
  refine List.pairwise_map.mpr (List.pairwise_filter.mpr (hdistinct.imp ?_))
  intro attr attr' hne hnb hnb' hcell
  rw [decide_eq_true_eq] at hnb hnb'
  exact hne (congrArg₂ Prod.mk (hnb.trans hnb'.symm) hcell)

/-- The cells of the records that are listed. -/
theorem mem_cells_attributions {maxCompleted : Int} {ops : List LedgerOp} {c : CellId} :
    c ∈ (((empty maxCompleted).performAll ops).listCellAttributions nb).map
        CellAttribution.cellId ↔
      (((empty maxCompleted).performAll ops).getCellAttribution nb c).isSome = true := by
  rw [List.mem_map, Option.isSome_iff_exists]
  constructor
  · rintro ⟨attr, hmem, rfl⟩
    exact ⟨attr, mem_attributions.mp hmem⟩
  · rintro ⟨attr, hattr⟩
    obtain rfl := (attribution_keyed hattr).cell
    exact ⟨attr, mem_attributions.mpr hattr, rfl⟩

/-- After any sequence of operations, the records that are listed for a notebook are those of the
cells that have been updated since the notebook was last evicted, one for each cell; each says what
the latest calls for its cell have said; and the cell that was updated last comes first. -/
theorem attributions_list_updated_cells (maxCompleted : Int) (ops : List LedgerOp)
    (nb : NotebookId) :
    let attrs := ((empty maxCompleted).performAll ops).listCellAttributions nb
    (attrs.map CellAttribution.cellId).Nodup ∧
      (∀ c, c ∈ attrs.map CellAttribution.cellId ↔ ¬ NoneSince (Clears nb) (Updates nb c) ops) ∧
      (∀ attr ∈ attrs, LastWriters nb attr.cellId ops attr) ∧
      attrs.Pairwise fun attr attr' => attr'.updatedAt ≤ attr.updatedAt := by
  refine ⟨nodup_attributions maxCompleted ops nb, fun c => ?_, fun attr hmem => ?_, ?_⟩
  · rw [mem_cells_attributions]
    have hrecorded := recorded_performAll maxCompleted ops nb c
    cases hfound : ((empty maxCompleted).performAll ops).getCellAttribution nb c with
    | none =>
        rw [hfound] at hrecorded
        exact iff_of_false Bool.false_ne_true (not_not_intro hrecorded)
    | some attr =>
        rw [hfound] at hrecorded
        obtain ⟨u, now, hlatest, -⟩ := hrecorded.time
        exact iff_of_true rfl hlatest.not_noneSince
  · exact attribution_keyed (mem_attributions.mp hmem)
  · refine (List.pairwise_mergeSort (fun a b c hab hbc => ?_) (fun a b => ?_) _).imp
      of_decide_eq_true
    · rw [decide_eq_true_eq] at hab hbc ⊢
      exact hbc.trans hab
    · simpa using le_total b.updatedAt a.updatedAt

end MemoryLedger

end Hypernote
