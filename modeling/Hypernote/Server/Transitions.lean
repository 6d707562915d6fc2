import Hypernote.Server.State
/-!
# What the coroutines do between two awaits

Every function below is named after the code it executes and says where it leaves
the running task: at another running point (`goto`), at an await (`park`) or ended
(`finish`).  What a collaborator called without an await answers is the step's
`Oracle`.
-/

namespace Hypernote

open Foundation

/-- What one call of `stack.get` produces. -/
inductive PollAnswer
  | pending
  | inputRequest (request : Json)
  | result (result : ExecutionResult)
  | raised (error : PyError)

/-- What the collaborators called without an await do during one step, and the time. -/
structure Oracle where
  now : Time
  /-- `_get_client` (and `start_channels` after it) succeeds. -/
  client : Bool
  /-- The channel accepts the message sent on it. -/
  sent : Bool
  put : Except PyError RequestUid
  poll : PollAnswer

/-- Every collaborator works, and no result is ready. -/
def Oracle.quiet (now : Time) : Oracle := ⟨now, true, true, .ok "uid", .pending⟩

namespace Server

variable (s : Server) (t : TaskId) (op : Op) (o : Oracle)

/-! ## Stopping a runtime -/

/-- `stop_runtime` has returned its room: to the sweep or to the caller. -/
def stopReturned (roomId : RoomId) (rest stopped : List RoomId) : Next :=
  match op with
  | .gcSweep | .shutdown => s.goto (.sweeping rest (stopped ++ [roomId]))
  | _ => s.finish (.room roomId)

/-- `stop_runtime` has raised an `Exception`, which a sweep swallows. -/
def stopRaised (error : PyError) (rest stopped : List RoomId) : Next :=
  match op with
  | .gcSweep | .shutdown => s.goto (.sweeping rest stopped)
  | _ => s.finish (.raised error)

theorem state_stopReturned (roomId : RoomId) (rest stopped : List RoomId) :
    (s.stopReturned op roomId rest stopped).state = s := by
  cases op <;> rfl

theorem state_stopRaised (error : PyError) (rest stopped : List RoomId) :
    (s.stopRaised op error rest stopped).state = s := by
  cases op <;> rfl

/-- `stop_runtime`, up to its await. -/
def stopRoom (roomId : RoomId) (rest stopped : List RoomId) : Next :=
  if roomId ∉ s.mgr.rooms then s.stopRaised op (notFound roomId) rest stopped
  else
    let room := s.room roomId
    if room.state = .stopped ∨ room.state = .stopping then s.stopReturned op roomId rest stopped
    else
      let s' := { s with mgr := s.mgr.setRuntimeState roomId .stopping o.now }.record
        (.stopping roomId)
      match room.sessionId, room.kernelId with
      | some sessionId, _ =>
          (s'.record (.deleteSession roomId sessionId)).park (.deleting roomId rest stopped)
      | none, some kernelId =>
          if s.alive kernelId then
            (s'.record (.shutdownKernel roomId kernelId)).park (.deleting roomId rest stopped)
          else s'.goto (.stopFinally roomId rest stopped none)
      | none, none => s'.goto (.stopFinally roomId rest stopped none)

/-- The `finally` of `stop_runtime` and the callback after it, which in the extension
is `ledger.evict_notebook`. -/
def stopFinally (roomId : RoomId) (rest stopped : List RoomId) (pending : Option PyError) :
    Next :=
  let notebookId := (s.room roomId).notebookId
  let s' := { s with mgr := (s.mgr.modify roomId (·.cleared o.now)).unregister roomId }
  match pending with
  | some error => s'.finish (.raised error)
  | none =>
      ({ s' with ledger := s'.ledger.evictNotebook notebookId }.record
        (.notebookStopped notebookId)).stopReturned op roomId rest stopped

/-- The loops of `gc_sweep` and `shutdown` over the rooms they stop. -/
def sweeping (rest stopped : List RoomId) : Next :=
  match rest with
  | roomId :: rest => s.goto (.stopRoom roomId rest stopped)
  | [] =>
      match op with
      | .gcSweep => s.finish (.swept stopped)
      | _ => s.finish .returned

/-! ## Ensuring a room -/

/-- `_load_or_refresh_room`, up to its await. -/
def loadRoom (notebookId : NotebookId) (choice : KernelChoice) : Next :=
  match s.mgr.roomForNotebook notebookId with
  | some roomId =>
      { s with mgr := s.mgr.refresh s.alive roomId }.goto
        (.loaded notebookId choice (some roomId))
  | none => s.park (.loading notebookId choice)

/-- `_load_or_refresh_room`, once `get_session` has returned a session.  A session
that Jupyter reports has a running kernel. -/
def adoptSession (notebookId : NotebookId) (choice : KernelChoice) (session : Session) : Next :=
  { s with
    mgr := s.mgr.register (.adopted notebookId session o.now)
    alive := Function.update s.alive session.kernelId true }.goto
    (.loaded notebookId choice (some s.mgr.nextRoomId))

/-- The kernel of a live room is not the one that the caller names. -/
def kernelMismatch (roomId : RoomId) (kernelName : Option String) : Bool :=
  match kernelName, (s.room roomId).kernelName with
  | some requested, some active => active ≠ requested
  | _, _ => false

/-- `ensure_room` and `get_runtime_status`, on what `_load_or_refresh_room` returned. -/
def loaded (notebookId : NotebookId) (choice : KernelChoice) (existing : Option RoomId) : Next :=
  match op, existing with
  | .getRuntimeStatus _, none => s.finish (.status NotebookRoom.statusOfNone)
  | .getRuntimeStatus _, some roomId =>
      s.finish (.status (NotebookRoom.statusOf roomId (s.room roomId)))
  | _, none => s.goto (.startRoom notebookId choice)
  | _, some roomId =>
      if (s.room roomId).isLive then
        if s.kernelMismatch roomId choice.kernelName then
          s.finish (.raised (.kernelMismatch notebookId (s.room roomId).kernelName
            (choice.kernelName.getD "")))
        else
          { s with mgr := s.mgr.touchActivity roomId o.now }.goto (.ensured notebookId roomId)
      else s.goto (.startRoom notebookId choice)

/-- `ensure_room`, from the new room to the await of `create_session`. -/
def startRoom (notebookId : NotebookId) (choice : KernelChoice) : Next :=
  ({ s with mgr := s.mgr.register (.fresh notebookId o.now) }.record
    (.createSession op notebookId (orDefault choice.kernelName "python3") choice
      (s.kernelspec notebookId))).park (.creating notebookId s.mgr.nextRoomId)

/-- `ensure_room`, once `create_session` has returned. -/
def sessionCreated (notebookId : NotebookId) (roomId : RoomId) (session : Session) : Next :=
  { s with
    mgr := s.mgr.modify roomId (·.started session o.now)
    alive := Function.update s.alive session.kernelId true }.goto (.ensured notebookId roomId)

/-- `ensure_room`, once `create_session` has raised. -/
def createFailed (roomId : RoomId) (error : PyError) : Next :=
  { s with
    mgr := if error.isException then
        s.mgr.modify roomId fun room => { room with state := .failed }
      else s.mgr }.finish (.raised error)

/-! ## After the room is ensured -/

/-- `open_runtime`. -/
def attachOpened (roomId : RoomId) (client : ClientName) : Next :=
  { s with mgr := s.mgr.modify roomId (·.attach client o.now) }.finish (.room roomId)

/-- `queue_execution`: record the job, mark it, and create the task that runs it. -/
def jobQueued (notebookId : NotebookId) (roomId : RoomId) (cellIds : List CellId) (actor : Actor) :
    Next :=
  let jobId := s.ledger.nextJobId
  let targetCells := (Json.arr (cellIds.map Json.str)).dumps
  let job : JobRun :=
    { jobId := jobId, notebookId := notebookId, cellIds := cellIds, actor := actor }
  (({ s with
      ledger := s.ledger.createJob notebookId actor .execute (some targetCells) (some roomId) o.now
      mgr := s.mgr.markJobStarted notebookId jobId o.now }.record
    (.queued jobId notebookId cellIds)).spawn (.runJob job)).finish (.job jobId)

/-- `async with room.job_lock`. -/
def acquireLock (roomId : RoomId) : Next :=
  if (s.room roomId).jobLock.canAcquire then
    { s with mgr := s.mgr.modify roomId fun room =>
        { room with jobLock := room.jobLock.acquire } }.goto (.locked roomId)
  else
    { s with mgr := s.mgr.modify roomId fun room =>
        { room with jobLock := room.jobLock.enqueue t } }.park (.awaitingLock roomId)

/-- `send_stdin`, up to the await of `stack.send_input`. -/
def sendInput (notebookId : NotebookId) (roomId : RoomId) (jobId : JobId) (value : String) :
    Next :=
  match (s.room roomId).kernelId with
  | none => s.finish (.raised (.value s!"Notebook {notebookId} has no live runtime"))
  | some kernelId =>
      (s.record (.sendInput jobId kernelId value)).park (.sendingInput notebookId roomId)

/-- The record of an interrupt, the last line of `interrupt`. -/
def recordInterrupt (notebookId : NotebookId) (roomId : RoomId) (actor : Actor) : Next :=
  { s with
    ledger := s.ledger.createJob notebookId actor .interrupt none (some roomId) o.now }.finish
    .returned

/-- `interrupt`, up to the await in `interrupt_runtime`. -/
def interruptRoom (notebookId : NotebookId) (roomId : RoomId) (actor : Actor) : Next :=
  let room := s.room roomId
  let attempt := s.pool.interruptViaSubshell o.client o.sent room.kernelId
  let s' := { s with pool := attempt.1 }
  match attempt.2 with
  | some (client, subshellId) =>
      { s'.record (.subshellInterrupt client subshellId) with
        mgr := s.mgr.touchActivity roomId o.now }.recordInterrupt o notebookId roomId actor
  | none =>
      if roomId ∉ s.mgr.rooms then s'.finish (.raised (notFound roomId))
      else
        match room.kernelId, room.isLive with
        | some kernelId, true =>
            (s'.record (.interruptKernel kernelId)).park (.interrupting (some roomId))
        | _, _ => s'.finish (.raised (.value s!"Room {roomId} has no live kernel"))

/-- What each caller of `ensure_room` does with the room. -/
def ensured (notebookId : NotebookId) (roomId : RoomId) : Option Next :=
  match op with
  | .ensureRoom _ _ => some (s.finish (.room roomId))
  | .openRuntime _ client _ => some (s.attachOpened o roomId client)
  | .runtimeOpen _ client _ => some (s.attachOpened o roomId client)
  | .queueExecution _ cellIds actor _ => some (s.jobQueued o notebookId roomId cellIds actor)
  | .runJob _ => some (s.acquireLock t roomId)
  | .sendStdin jobId value _ => some (s.sendInput notebookId roomId jobId value)
  | .interrupt _ actor => some (s.interruptRoom o notebookId roomId actor)
  | _ => none

/-! ## Running a job -/

variable (job : JobRun)

def updateStatus (jobId : JobId) (status : JobStatus) (runtimeId : Option RoomId) : Server :=
  { s with ledger := s.ledger.updateJobStatus jobId status runtimeId o.now }

/-- The lock is held: the first two lines of the `async with` body. -/
def jobLocked (roomId : RoomId) : Next :=
  { s.updateStatus o job.jobId .running (some roomId) with
    mgr := s.mgr.touchActivity roomId o.now }.goto (.nextCell roomId job.cellIds)

/-- The head of the loop over the cells, and `_ensure_kernel_client_ready` up to its
first await. -/
def nextCell (roomId : RoomId) (cells : List CellId) : Next :=
  match cells, (s.room roomId).kernelId with
  | [], _ => (s.updateStatus o job.jobId .succeeded none).goto (.jobFinally roomId none)
  | _ :: _, some kernelId =>
      if o.client then
        let found := s.pool.getClient kernelId
        { s with pool := found.1 }.park (.clientReady roomId cells found.2)
      else s.goto (.jobRaised roomId (.other "kernel client"))
  | _ :: _, none => s.goto (.jobRaised roomId (.other "kernel client"))

/-- The end of `_ensure_kernel_client_ready`. -/
def clientPrepared (roomId : RoomId) (cells : List CellId) (client : ClientId) : Next :=
  match (s.room roomId).kernelId with
  | none => s.park (.readingSource roomId cells)
  | some kernelId =>
      { s with pool := s.pool.installHooks kernelId client }.park
        (.readingSource roomId cells)

/-- `ensure_subshell`, up to its first await. -/
def ensureSubshell (roomId : RoomId) (cells : List CellId) (client : ClientId) : Next :=
  match (s.pool.clients client).subshellId with
  | some _ => s.clientPrepared roomId cells client
  | none =>
      if o.sent then
        { s with pool := { s.pool with nextRequest := s.pool.nextRequest + 1 } }.park
          (.subshellReply roomId cells client s.pool.nextRequest)
      else s.goto (.jobRaised roomId (.other "control channel"))

/-- `ensure_subshell`, on a message of the control channel. -/
def subshellMessage (roomId : RoomId) (cells : List CellId) (client : ClientId)
    (requestId : RequestId) (reply : ControlReply) (beforeDeadline : Bool) : Next :=
  match readReply requestId reply with
  | .foreign =>
      if beforeDeadline then s.park (.subshellReply roomId cells client requestId)
      else s.clientPrepared roomId cells client
  | .malformed => s.goto (.jobRaised roomId .attribute)
  | .rejected => s.clientPrepared roomId cells client
  | .created subshellId =>
      ({ s with pool := s.pool.modify client fun c => { c with subshellId := subshellId } }.record
        (.subshellCreated client subshellId)).clientPrepared roomId cells client

/-- `stack.put` and the record of its uid. -/
def putCell (roomId : RoomId) (cells : List CellId) : Next :=
  match o.put, cells.head?, (s.room roomId).kernelId with
  | .ok uid, some cellId, some kernelId =>
      let s' := s.record (.put job.jobId cellId kernelId uid)
      match s'.ledger.appendRequestUid job.jobId uid with
      | some ledger => { s' with ledger := ledger }.goto (.polling roomId cells uid)
      | none => s'.goto (.jobRaised roomId (.value s!"Job {job.jobId} not found"))
  | .error error, _, _ => s.goto (.jobRaised roomId error)
  | _, _, _ => s.goto (.jobRaised roomId (.other "stack.put"))

def inputRequestSignature (request : Json) : String := request.dumpsSorted

/-- The first two lines of `_poll_request` on an input request. -/
def signatureRead (request : Json) : Server :=
  { s with
    awaitingInputSignatures :=
      Function.update s.awaitingInputSignatures job.jobId (some (inputRequestSignature request)) }

/-- `_poll_request` on an input request. -/
def inputRequested (roomId : RoomId) (cells : List CellId) (uid : RequestUid) (request : Json) :
    Next :=
  let s' := s.signatureRead job request
  if s.resumedInputSignatures job.jobId = some (inputRequestSignature request) then
    s'.park (.sleeping roomId cells uid)
  else
    let s' := s'.updateStatus o job.jobId .awaitingInput none
    if roomId ∈ s.mgr.rooms then
      { s' with mgr := s'.mgr.setRuntimeState roomId .awaitingInput o.now }.park
        (.sleeping roomId cells uid)
    else s'.goto (.jobRaised roomId (notFound roomId))

/-- `_poll_request` on the final result. -/
def polled (roomId : RoomId) (cells : List CellId) (result : ExecutionResult) : Next :=
  ({ s with
    awaitingInputSignatures := Function.update s.awaitingInputSignatures job.jobId none
    resumedInputSignatures := Function.update s.resumedInputSignatures job.jobId none
    mgr := s.mgr.touchActivity roomId o.now }.record (.polled job.jobId result)).park
    (.flushing roomId cells result)

/-- One iteration of `_poll_request`. -/
def pollRequest (roomId : RoomId) (cells : List CellId) (uid : RequestUid) : Next :=
  match o.poll with
  | .pending => s.park (.sleeping roomId cells uid)
  | .inputRequest request => s.inputRequested o job roomId cells uid request
  | .result result => s.polled o job roomId cells result
  | .raised error => s.goto (.jobRaised roomId error)

/-- The ledger after the head of the remaining cells is attributed to the job's actor. -/
def attributed (cells : List CellId) : MemoryLedger :=
  match cells.head? with
  | none => s.ledger
  | some cellId =>
      s.ledger.updateCellAttribution job.notebookId cellId
        { editorId := none
          editorType := none
          executorId := some job.actor.actorId
          executorType := some job.actor.actorType } o.now

/-- The lines of the loop after `flush_document`. -/
def cellFlushed (roomId : RoomId) (cells : List CellId) (result : ExecutionResult) : Next :=
  let s' : Server := { s with ledger := s.attributed o job cells }
  if result.isError then
    (s'.updateStatus o job.jobId .failed none).goto (.jobFinally roomId none)
  else s'.goto (.nextCell roomId cells.tail)

/-- The `except Exception` of `_run_job`; a `CancelledError` passes it by. -/
def jobRaised (roomId : RoomId) (error : PyError) : Next :=
  let s' := s.record (.stepRaised job.jobId error)
  if error.isException then
    (s'.updateStatus o job.jobId .failed none).goto (.jobFinally roomId none)
  else s'.goto (.jobFinally roomId (some error))

def releaseLock (roomId : RoomId) : Server :=
  { s with mgr := s.mgr.modify roomId fun room => { room with jobLock := room.jobLock.release } }

/-- The `finally` of `_run_job`, and the end of the `async with`. -/
def jobFinally (roomId : RoomId) (pending : Option PyError) : Next :=
  let s' := { s with mgr := s.mgr.markJobFinished job.notebookId job.jobId o.now }
  let outcome := pending.elim Outcome.returned .raised
  if (s'.room roomId).state = .awaitingInput then
    if roomId ∈ s'.mgr.rooms then
      ({ s' with mgr := s'.mgr.setRuntimeState roomId .liveDetached o.now }.releaseLock
        roomId).finish outcome
    else (s'.releaseLock roomId).finish (.raised (notFound roomId))
  else
    ({ s' with mgr := s'.mgr.touchActivity roomId o.now }.releaseLock roomId).finish outcome

/-! ## The end of `send_stdin` -/

/-- `send_stdin` marks the signature read last as answered. -/
def resumedSignatures (jobId : JobId) : JobId → Option String :=
  match s.awaitingInputSignatures jobId with
  | some signature => Function.update s.resumedInputSignatures jobId (some signature)
  | none => s.resumedInputSignatures

def stdinSent (notebookId : NotebookId) (roomId : RoomId) (jobId : JobId) (actor : Actor) :
    Next :=
  let ledger := (s.ledger.createJob notebookId actor .stdinReply none (some roomId) o.now).updateJobStatus
    jobId .running (some roomId) o.now
  let s' := { s with resumedInputSignatures := s.resumedSignatures jobId, ledger := ledger }
  let nextState : RuntimeState :=
    if (s.room roomId).attachedClients = ∅ then .liveDetached else .liveAttached
  if roomId ∈ s.mgr.rooms then
    { s' with mgr := s'.mgr.setRuntimeState roomId nextState o.now }.finish .returned
  else s'.finish (.raised (notFound roomId))

end Server

end Hypernote
