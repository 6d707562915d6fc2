import Hypernote.ActorLedger
import Hypernote.Foundation.JsonText
/-!
# The home view

`GET /hypernote/api/jobs` and what `_home_payload` of the command line makes of it: the server sorts
the jobs and cuts the list, and the client leaves out the jobs that are over.
-/

namespace Hypernote

open Foundation

def JobAction.value : JobAction → String
  | .execute => "execute"
  | .interrupt => "interrupt"
  | .stdinReply => "stdin_reply"

/-- `JobStatus(value)`; `none` is the `ValueError`. -/
def JobStatus.ofValue? (value : String) : Option JobStatus :=
  [JobStatus.queued, .running, .awaitingInput, .succeeded, .failed, .interrupted].find? fun status =>
    status.value = value

/-- A job in the response. -/
structure JobRow where
  jobId : JobId
  notebookId : NotebookId
  actorId : String
  actorType : String
  action : String
  status : String
  targetCells : Option String
  requestUids : List RequestUid
  createdAt : Time
  startedAt : Option Time
  completedAt : Option Time
  runtimeId : Option RoomId
  deriving DecidableEq

namespace MemoryLedger

/-- The limit of a `list_jobs` that is given none. -/
def defaultLimit : Nat := 100

def listJobs (l : MemoryLedger) (notebookId : Option NotebookId) (status : Option JobStatus)
    (limit : Nat) : List Job :=
  (l.iterJobs notebookId status).take limit

end MemoryLedger

namespace JobsHandler

def row (job : Job) : JobRow where
  jobId := job.jobId
  notebookId := job.notebookId
  actorId := job.actor.actorId
  actorType := job.actor.actorType.value
  action := job.action.value
  status := job.status.value
  targetCells := job.targetCells
  requestUids := job.requestUids
  createdAt := job.createdAt
  startedAt := job.startedAt
  completedAt := job.completedAt
  runtimeId := job.runtimeId

/-- `JobsHandler.get`, for a notebook id that has been decoded; `none` is the `ValueError` of a
status that is none.  `orch.list_jobs` passes no limit on. -/
def get (l : MemoryLedger) (notebookId : Option NotebookId) (statusStr : Option String) :
    Option (List JobRow) :=
  let rows := fun status => (l.listJobs notebookId status MemoryLedger.defaultLimit).map row
  match statusStr with
  | none | some "" => some (rows none)
  | some value => (JobStatus.ofValue? value).map fun status => rows (some status)

end JobsHandler

namespace Home

structure ActiveJob where
  jobId : JobId
  status : String
  path : NotebookId
  targetCellCount : Nat
  deriving DecidableEq

/-- The members of `_home_payload` that are about jobs. -/
structure Payload where
  serverReachable : Bool
  activeJobs : List ActiveJob
  activeJobCount : Nat

/-- `len(_job_target_cells(raw_target_cells))`, for what a job of the ledger has there. -/
def targetCellCount (rawTargetCells : Option String) : Nat :=
  match rawTargetCells.bind fun text => Json.loads text.toList with
  | some (.arr items) => items.length
  | _ => 0

/-- What the loop over the jobs appends. -/
def activeJob? (job : JobRow) : Option ActiveJob :=
  if job.status ∈ ["succeeded", "failed", "interrupted"] then none
  else some ⟨job.jobId, job.status, job.notebookId, targetCellCount job.targetCells⟩

/-- `_home_payload`; `none` is a `list_jobs` that raises. -/
def homePayload (jobs : Option (List JobRow)) : Payload :=
  match jobs with
  | none => ⟨false, [], 0⟩
  | some jobs =>
      let activeJobs := jobs.filterMap activeJob?
      ⟨true, activeJobs, activeJobs.length⟩

end Home

end Hypernote
