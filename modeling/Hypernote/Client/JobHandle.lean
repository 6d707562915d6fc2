import Hypernote.Client.Home
import Hypernote.Foundation.PyText
/-!
# The client's handle of a job

What `run` returns, `refresh` updates, and `get_job` makes from the id of a job alone: the cells of
the job travel as a JSON text inside the JSON of the response.
-/

namespace Hypernote

open Foundation

/-- How ids and times are written in a response. -/
structure Wire where
  jobId : JobId → String
  roomId : RoomId → String
  time : Time → FloatText

namespace JobHandler

/-- What `JobHandler.get` hands to `write_json`. -/
def payload (wire : Wire) (job : Job) : Json :=
  .obj
    [("job_id", .str (wire.jobId job.jobId)),
      ("notebook_id", .str job.notebookId),
      ("actor_id", .str job.actor.actorId),
      ("actor_type", .str job.actor.actorType.value),
      ("action", .str job.action.value),
      ("status", .str job.status.value),
      ("target_cells", job.targetCells.elim .null .str),
      ("request_uids", .arr (job.requestUids.map .str)),
      ("created_at", .float (wire.time job.createdAt)),
      ("started_at", job.startedAt.elim .null fun time => .float (wire.time time)),
      ("completed_at", job.completedAt.elim .null fun time => .float (wire.time time)),
      ("runtime_id", job.runtimeId.elim .null fun roomId => .str (wire.roomId roomId))]

/-- `JobHandler.get`: the body of the response, or the status and the reason of the error. -/
def get (wire : Wire) (l : MemoryLedger) (jobId : JobId) : Except (Nat × String) Chars :=
  match l.getJob jobId with
  | none => .error (404, s!"Job {wire.jobId jobId} not found")
  | some job => .ok (payload wire job).dumpsChars

end JobHandler

/-- The `Job` of the SDK, but for its notebook. -/
structure JobHandle where
  id : String
  status : JobStatus
  cellIds : List Json
  notebookPath : NotebookId

namespace JobHandle

/-- `tuple(value)`; `none` is the `TypeError`. -/
def tuple? : Json → Option (List Json)
  | .arr items => some items
  | .str s => some (s.toList.map fun c => .str (String.ofList [c]))
  | .obj members => some (members.map fun member => .str member.1)
  | _ => none

/-- `payload[key]`, where the server writes a text; `none` is the `KeyError`. -/
def text? (payload : Json) (key : String) : Option String :=
  match payload.get? key with
  | some (.str s) => some s
  | _ => none

/-- The cells of a payload that names some; the outer `none` is an exception. -/
def targetCells? (payload : Json) : Option (Option (List Json)) :=
  match payload.get? "target_cells" with
  | none | some .null | some (.str "") => some none
  | some (.str text) => ((Json.loads text.toList).bind tuple?).map some
  | some _ => none

/-- `_job_from_payload`. -/
def ofPayload (payload : Json) : Option JobHandle := do
  let targetCells ← targetCells? payload
  let notebookPath ← text? payload "notebook_id"
  let id ← text? payload "job_id"
  let status ← (text? payload "status").bind JobStatus.ofValue?
  return ⟨id, status, targetCells.getD [], notebookPath⟩

/-- `refresh`, from the payload on. -/
def update (handle : JobHandle) (payload : Json) : Option JobHandle := do
  let status ← (text? payload "status").bind JobStatus.ofValue?
  let targetCells ← targetCells? payload
  return { handle with status := status, cellIds := targetCells.getD handle.cellIds }

/-- `response.json()`; `none` is what `_raise_response` raises, or the `JSONDecodeError`. -/
def responseJson (response : Except (Nat × String) Chars) : Option Json :=
  match response with
  | .error _ => none
  | .ok body => Json.loads body

section

variable (wire : Wire) (l : MemoryLedger) (jobId : JobId)

/-- `_ControlPlane.get_job`. -/
def getJob : Option JobHandle := (responseJson (JobHandler.get wire l jobId)).bind ofPayload

/-- `Job.refresh`, for the handle of the job. -/
def refresh (handle : JobHandle) : Option JobHandle :=
  (responseJson (JobHandler.get wire l jobId)).bind handle.update

/-- What `_run_cells` returns once the job has been accepted. -/
def submitted (path : NotebookId) (cellIds : List CellId) : JobHandle :=
  ⟨wire.jobId jobId, .queued, cellIds.map .str, path⟩

end

end JobHandle

end Hypernote
