import Hypernote.Foundation.Dict
import Hypernote.Foundation.Json
import Mathlib.Data.List.Sort
/-!
# The actor ledger

Jobs and cell attribution, in memory and per notebook.  The code guards every
operation with one `asyncio.Lock` whose critical sections never await, so each
operation runs to its end without a switch of task and is a plain function here.
Generated job ids are natural numbers handed out in order; `now` is what
`time.time()` returns during the operation.
-/

namespace Hypernote

open Foundation

abbrev NotebookId := String
abbrev CellId := String
abbrev JobId := Nat
abbrev RoomId := Nat
abbrev RequestUid := String

/-- Clock readings, in an arbitrary unit. -/
abbrev Time := Int

inductive JobStatus
  | queued
  | running
  | awaitingInput
  | succeeded
  | failed
  | interrupted
  deriving DecidableEq, Repr

inductive ActorType
  | human
  | agent
  deriving DecidableEq, Repr

inductive JobAction
  | execute
  | interrupt
  | stdinReply
  deriving DecidableEq, Repr

/-- The set that `update_job_status` and the pruner test a status against. -/
def JobStatus.isTerminal : JobStatus → Bool
  | .succeeded | .failed | .interrupted => true
  | .queued | .running | .awaitingInput => false

/-- The set that `list_active_jobs` tests a status against. -/
def JobStatus.isActive : JobStatus → Bool
  | .queued | .running | .awaitingInput => true
  | .succeeded | .failed | .interrupted => false

theorem JobStatus.isActive_eq (status : JobStatus) : status.isActive = !status.isTerminal := by
  cases status <;> rfl

def JobStatus.value : JobStatus → String
  | .queued => "queued"
  | .running => "running"
  | .awaitingInput => "awaiting_input"
  | .succeeded => "succeeded"
  | .failed => "failed"
  | .interrupted => "interrupted"

/-- How an f-string shows a member. -/
def JobStatus.format : JobStatus → String
  | .queued => "JobStatus.QUEUED"
  | .running => "JobStatus.RUNNING"
  | .awaitingInput => "JobStatus.AWAITING_INPUT"
  | .succeeded => "JobStatus.SUCCEEDED"
  | .failed => "JobStatus.FAILED"
  | .interrupted => "JobStatus.INTERRUPTED"

def ActorType.value : ActorType → String
  | .human => "human"
  | .agent => "agent"

/-- Who asked: the two actor arguments that travel together. -/
structure Actor where
  actorId : String
  actorType : ActorType
  deriving DecidableEq, Repr

structure Job where
  jobId : JobId
  notebookId : NotebookId
  actor : Actor
  action : JobAction
  status : JobStatus
  createdAt : Time
  runtimeId : Option RoomId
  targetCells : Option String
  requestUids : List RequestUid
  startedAt : Option Time
  completedAt : Option Time
  deriving DecidableEq

structure CellAttribution where
  notebookId : NotebookId
  cellId : CellId
  updatedAt : Time
  lastEditorId : Option String
  lastEditorType : Option String
  lastExecutorId : Option String
  lastExecutorType : Option String
  deriving DecidableEq

structure MemoryLedger where
  /-- `_policy.max_completed_jobs_per_notebook`; a negative bound disables pruning. -/
  maxCompletedJobsPerNotebook : Int
  jobsById : Dict JobId Job
  jobIdsByNotebook : NotebookId → List JobId
  cellAttribution : Dict (NotebookId × CellId) CellAttribution
  nextJobId : JobId

namespace MemoryLedger

def empty (maxCompleted : Int) : MemoryLedger where
  maxCompletedJobsPerNotebook := maxCompleted
  jobsById := .empty
  jobIdsByNotebook := fun _ => []
  cellAttribution := .empty
  nextJobId := 0

def getJob (l : MemoryLedger) (jobId : JobId) : Option Job := l.jobsById.get? jobId

def isCompleted (l : MemoryLedger) (jobId : JobId) : Bool :=
  match l.jobsById.get? jobId with
  | none => false
  | some job => job.status.isTerminal

/-- `_prune_completed_jobs_locked`: forget the oldest completed jobs of a notebook
beyond the bound. -/
def pruneCompletedJobs (l : MemoryLedger) (notebookId : NotebookId) : MemoryLedger :=
  if l.maxCompletedJobsPerNotebook < 0 then l
  else
    let completedIds := (l.jobIdsByNotebook notebookId).filter l.isCompleted
    let overflow := (completedIds.length : Int) - l.maxCompletedJobsPerNotebook
    if overflow ≤ 0 then l
    else
      let staleIds := completedIds.take overflow.toNat
      { l with
        jobIdsByNotebook := Function.update l.jobIdsByNotebook notebookId
          ((l.jobIdsByNotebook notebookId).filter fun jobId => jobId ∉ staleIds)
        jobsById := l.jobsById.filterKeys fun jobId => jobId ∉ staleIds }

def createJob (l : MemoryLedger) (notebookId : NotebookId) (actor : Actor)
    (action : JobAction) (targetCells : Option String) (runtimeId : Option RoomId)
    (now : Time) : MemoryLedger :=
  let job : Job :=
    { jobId := l.nextJobId
      notebookId := notebookId
      actor := actor
      action := action
      status := .queued
      createdAt := now
      runtimeId := runtimeId
      targetCells := targetCells
      requestUids := []
      startedAt := none
      completedAt := none }
  pruneCompletedJobs
    { l with
      jobsById := l.jobsById.set job.jobId job
      jobIdsByNotebook := Function.update l.jobIdsByNotebook notebookId
        (l.jobIdsByNotebook notebookId ++ [job.jobId])
      nextJobId := l.nextJobId + 1 }
    notebookId

/-- What `update_job_status` does to the record it finds. -/
def setStatus (job : Job) (status : JobStatus) (runtimeId : Option RoomId) (now : Time) : Job :=
  { job with
    status := status
    startedAt := if status = .running ∧ job.startedAt = none then some now else job.startedAt
    completedAt := if status.isTerminal then some now else job.completedAt
    runtimeId := runtimeId.or job.runtimeId }

def updateJobStatus (l : MemoryLedger) (jobId : JobId) (status : JobStatus)
    (runtimeId : Option RoomId) (now : Time) : MemoryLedger :=
  match l.jobsById.get? jobId with
  | none => l
  | some job =>
      pruneCompletedJobs
        { l with jobsById := l.jobsById.set jobId (setStatus job status runtimeId now) }
        job.notebookId

/-- `none` is the `ValueError` for a job the ledger does not hold. -/
def appendRequestUid (l : MemoryLedger) (jobId : JobId) (uid : RequestUid) :
    Option MemoryLedger :=
  (l.jobsById.get? jobId).map fun job =>
    { l with jobsById := l.jobsById.set jobId { job with requestUids := job.requestUids ++ [uid] } }

/-- The editor and executor fields of one `update_cell_attribution` call. -/
structure AttributionUpdate where
  editorId : Option String
  editorType : Option ActorType
  executorId : Option String
  executorType : Option ActorType

def applyAttribution (attr : CellAttribution) (u : AttributionUpdate) (now : Time) :
    CellAttribution :=
  { attr with
    lastEditorId := if u.editorId.isSome then u.editorId else attr.lastEditorId
    lastEditorType :=
      if u.editorId.isSome then u.editorType.map ActorType.value else attr.lastEditorType
    lastExecutorId := if u.executorId.isSome then u.executorId else attr.lastExecutorId
    lastExecutorType :=
      if u.executorId.isSome then u.executorType.map ActorType.value else attr.lastExecutorType
    updatedAt := now }

def updateCellAttribution (l : MemoryLedger) (notebookId : NotebookId) (cellId : CellId)
    (u : AttributionUpdate) (now : Time) : MemoryLedger :=
  let existing := (l.cellAttribution.get? (notebookId, cellId)).getD
    { notebookId := notebookId
      cellId := cellId
      updatedAt := now
      lastEditorId := none
      lastEditorType := none
      lastExecutorId := none
      lastExecutorType := none }
  { l with
    cellAttribution := l.cellAttribution.set (notebookId, cellId) (applyAttribution existing u now) }

def getCellAttribution (l : MemoryLedger) (notebookId : NotebookId) (cellId : CellId) :
    Option CellAttribution :=
  l.cellAttribution.get? (notebookId, cellId)

def evictNotebook (l : MemoryLedger) (notebookId : NotebookId) : MemoryLedger :=
  { l with
    jobsById := l.jobsById.filterKeys fun jobId => jobId ∉ l.jobIdsByNotebook notebookId
    jobIdsByNotebook := Function.update l.jobIdsByNotebook notebookId []
    cellAttribution := l.cellAttribution.filterKeys fun key => key.1 ≠ notebookId }

def close (l : MemoryLedger) : MemoryLedger :=
  { l with
    jobsById := .empty
    jobIdsByNotebook := fun _ => []
    cellAttribution := .empty }

/-- `_iter_jobs_locked`: newest first, jobs created at the same time in the order of their
creation. -/
def iterJobs (l : MemoryLedger) (notebookId : Option NotebookId) (status : Option JobStatus) :
    List Job :=
  let jobs :=
    match notebookId with
    | none => l.jobsById.values
    | some nb => (l.jobIdsByNotebook nb).filterMap l.jobsById.get?
  let jobs :=
    match status with
    | none => jobs
    | some status => jobs.filter fun job => job.status = status
  jobs.mergeSort fun job job' => decide (job'.createdAt ≤ job.createdAt)

/-- `list_cell_attributions`: the latest first, those of one moment in the order in which their
cells came into the ledger. -/
def listCellAttributions (l : MemoryLedger) (notebookId : NotebookId) : List CellAttribution :=
  let attrs := l.cellAttribution.values.filter fun attr => attr.notebookId = notebookId
  attrs.mergeSort fun attr attr' => decide (attr'.updatedAt ≤ attr.updatedAt)

def listActiveJobs (l : MemoryLedger) (notebookId : NotebookId) : List Job :=
  (l.iterJobs (some notebookId) none).filter fun job => job.status.isActive

theorem mem_listActiveJobs {l : MemoryLedger} {notebookId : NotebookId} {job : Job} :
    job ∈ l.listActiveJobs notebookId ↔
      (∃ j ∈ l.jobIdsByNotebook notebookId, l.getJob j = some job) ∧
        job.status.isActive = true := by
  simp [listActiveJobs, iterJobs, getJob]

/-! ## What each operation does to a job that is looked up -/

/-- A look-up that finds what it found before, or no longer finds a completed job. -/
inductive Forgets (before : Option Job) : Option Job → Prop
  | kept : Forgets before before
  | pruned {job} (hjob : before = some job) (hterminal : job.status.isTerminal = true) :
      Forgets before none

theorem Forgets.trans {before between after : Option Job} (h : Forgets before between)
    (h' : Forgets between after) : Forgets before after := by
  cases h with
  | kept => exact h'
  | pruned hjob hterminal =>
      cases h' with
      | kept => exact .pruned hjob hterminal
      | pruned h => cases h

theorem Forgets.of_some {before : Option Job} {job : Job} (h : Forgets before (some job)) :
    before = some job := by
  cases h
  rfl

/-- A job that is not completed is not forgotten. -/
theorem Forgets.of_active {job : Job} {after : Option Job} (h : Forgets (some job) after)
    (hactive : job.status.isTerminal = false) : after = some job := by
  cases h with
  | kept => rfl
  | pruned hjob hterminal =>
      cases hjob
      rw [hactive] at hterminal
      cases hterminal

variable {l l' : MemoryLedger} {j k : JobId} {job : Job} {notebookId : NotebookId} {actor : Actor}
  {action : JobAction} {targetCells : Option String} {runtimeId : Option RoomId} {now : Time}
  {status : JobStatus} {uid : RequestUid}

theorem getJob_prune (l : MemoryLedger) (notebookId : NotebookId) (j : JobId) :
    Forgets (l.getJob j) ((l.pruneCompletedJobs notebookId).getJob j) := by
  unfold pruneCompletedJobs
  dsimp only
  split
  · exact .kept
  · split
    · exact .kept
    · simp only [getJob, Dict.get?_filterKeys, decide_eq_true_eq]
      split
      · exact .kept
      · rename_i hstale
        have hcompleted := (List.mem_filter.mp (List.mem_of_mem_take (not_not.mp hstale))).2
        unfold isCompleted at hcompleted
        split at hcompleted
        · cases hcompleted
        · exact .pruned ‹_› hcompleted

@[simp] theorem nextJobId_prune : (l.pruneCompletedJobs notebookId).nextJobId = l.nextJobId := by
  unfold pruneCompletedJobs
  dsimp only
  split
  · rfl
  · split <;> rfl

@[simp] theorem nextJobId_createJob :
    (l.createJob notebookId actor action targetCells runtimeId now).nextJobId =
      l.nextJobId + 1 := by
  simp [createJob]

theorem getJob_createJob (l : MemoryLedger) (notebookId : NotebookId) (actor : Actor)
    (action : JobAction) (targetCells : Option String) (runtimeId : Option RoomId) (now : Time)
    (j : JobId) :
    Forgets
      (if j = l.nextJobId then
        some ⟨l.nextJobId, notebookId, actor, action, .queued, now, runtimeId, targetCells, [],
          none, none⟩
      else l.getJob j)
      ((l.createJob notebookId actor action targetCells runtimeId now).getJob j) := by
  unfold createJob
  dsimp only
  refine (congrArg (Forgets · _) ?_).mp (getJob_prune _ notebookId j)
  rw [getJob, Dict.get?_set]
  rfl

theorem getJob_createJob_of_ne (hj : j ≠ l.nextJobId) :
    Forgets (l.getJob j)
      ((l.createJob notebookId actor action targetCells runtimeId now).getJob j) := by
  have h := l.getJob_createJob notebookId actor action targetCells runtimeId now j
  rwa [if_neg hj] at h

/-- A new job is queued and survives the pruning at its creation. -/
theorem getJob_createJob_self :
    (l.createJob notebookId actor action targetCells runtimeId now).getJob l.nextJobId =
      some ⟨l.nextJobId, notebookId, actor, action, .queued, now, runtimeId, targetCells, [],
        none, none⟩ := by
  refine Forgets.of_active ?_ rfl
  have h := l.getJob_createJob notebookId actor action targetCells runtimeId now l.nextJobId
  rwa [if_pos rfl] at h

@[simp] theorem nextJobId_updateJobStatus :
    (l.updateJobStatus k status runtimeId now).nextJobId = l.nextJobId := by
  unfold updateJobStatus
  split <;> simp

theorem getJob_updateJobStatus_of_ne (l : MemoryLedger) (status : JobStatus)
    (runtimeId : Option RoomId) (now : Time) (hj : j ≠ k) :
    Forgets (l.getJob j) ((l.updateJobStatus k status runtimeId now).getJob j) := by
  unfold updateJobStatus
  split
  · exact .kept
  · rename_i job _
    have hset := getJob_prune
      { l with jobsById := l.jobsById.set k (setStatus job status runtimeId now) } job.notebookId j
    rwa [getJob, Dict.get?_set_of_ne _ _ hj] at hset

theorem getJob_updateJobStatus_self (l : MemoryLedger) (j : JobId) (status : JobStatus)
    (runtimeId : Option RoomId) (now : Time) :
    Forgets ((l.getJob j).map (setStatus · status runtimeId now))
      ((l.updateJobStatus j status runtimeId now).getJob j) := by
  unfold updateJobStatus
  split
  · rename_i hnone
    rw [getJob, hnone]
    exact .kept
  · rename_i job hsome
    have hset := getJob_prune
      { l with jobsById := l.jobsById.set j (setStatus job status runtimeId now) } job.notebookId j
    rw [getJob, Dict.get?_set_self] at hset
    rwa [getJob, hsome]

theorem status_updateJobStatus
    (h : (l.updateJobStatus j status runtimeId now).getJob j = some job) : job.status = status := by
  have hset := l.getJob_updateJobStatus_self j status runtimeId now
  rw [h] at hset
  obtain ⟨old, -, rfl⟩ := Option.map_eq_some_iff.mp hset.of_some
  rfl

theorem getJob_appendRequestUid (h : l.appendRequestUid k uid = some l') :
    l'.getJob j =
      if j = k then (l.getJob k).map fun job => { job with requestUids := job.requestUids ++ [uid] }
      else l.getJob j := by
  simp only [appendRequestUid, Option.map_eq_some_iff] at h
  obtain ⟨job, hjob, rfl⟩ := h
  rw [getJob, Dict.get?_set]
  split
  · rw [getJob, hjob, Option.map_some]
  · rfl

theorem nextJobId_appendRequestUid (h : l.appendRequestUid k uid = some l') :
    l'.nextJobId = l.nextJobId := by
  simp only [appendRequestUid, Option.map_eq_some_iff] at h
  obtain ⟨job, -, rfl⟩ := h
  rfl

theorem appendRequestUid_isSome (j : JobId) (uid : RequestUid) :
    (l.appendRequestUid j uid).isSome = (l.getJob j).isSome := by
  simp [appendRequestUid, getJob]

@[simp] theorem cellAttribution_pruneCompletedJobs :
    (l.pruneCompletedJobs notebookId).cellAttribution = l.cellAttribution := by
  unfold pruneCompletedJobs
  split
  · rfl
  · dsimp only
    split <;> rfl

@[simp] theorem cellAttribution_createJob :
    (l.createJob notebookId actor action targetCells runtimeId now).cellAttribution =
      l.cellAttribution := by
  simp [createJob]

@[simp] theorem cellAttribution_updateJobStatus :
    (l.updateJobStatus k status runtimeId now).cellAttribution = l.cellAttribution := by
  unfold updateJobStatus
  split <;> simp

theorem cellAttribution_appendRequestUid (h : l.appendRequestUid k uid = some l') :
    l'.cellAttribution = l.cellAttribution := by
  simp only [appendRequestUid, Option.map_eq_some_iff] at h
  obtain ⟨job, -, rfl⟩ := h
  rfl

theorem getCellAttribution_updateCellAttribution {nb : NotebookId} {cellId c : CellId}
    {u : AttributionUpdate} :
    (l.updateCellAttribution notebookId cellId u now).getCellAttribution nb c =
      if nb = notebookId ∧ c = cellId then
        some (applyAttribution ((l.getCellAttribution nb c).getD
          ⟨nb, c, now, none, none, none, none⟩) u now)
      else l.getCellAttribution nb c := by
  unfold getCellAttribution updateCellAttribution
  rw [Dict.get?_set]
  simp only [Prod.mk.injEq]
  split
  · rename_i hkey
    rw [hkey.1, hkey.2]
  · rfl

theorem getCellAttribution_evictNotebook {nb : NotebookId} {c : CellId} :
    (l.evictNotebook notebookId).getCellAttribution nb c =
      if nb = notebookId then none else l.getCellAttribution nb c := by
  simp only [getCellAttribution, evictNotebook, Dict.get?_filterKeys, decide_eq_true_eq, ne_eq,
    ite_not]

theorem getJob_evictNotebook :
    (l.evictNotebook notebookId).getJob j = l.getJob j ∨
      (l.evictNotebook notebookId).getJob j = none := by
  simp only [getJob, evictNotebook, Dict.get?_filterKeys]
  split
  · exact .inl rfl
  · exact .inr rfl

end MemoryLedger

end Hypernote
