import Hypernote.Server.Transitions
import Hypernote.Foundation.Machine
/-!
# The event loop

One step starts a call, resumes a suspended task with what its await produced,
lets the running task pass to its next program point, or is a change outside the
extension.  Only when no task is running can another one get control.
-/

namespace Hypernote

open Foundation

/-- How an await ends. -/
inductive Answer
  | returned
  | session (session : Session)
  | text (text : String)
  /-- A control-channel message, and whether the deadline is still ahead after it. -/
  | reply (reply : ControlReply) (beforeDeadline : Bool)
  | raised (error : PyError)

/-- Changes made by Jupyter, the kernels and other clients. -/
inductive Outside
  | kernelDied (kernelId : KernelId)
  | kernelStarted (kernelId : KernelId)
  /-- The autorestarter fires the callbacks registered for a kernel. -/
  | kernelAutorestarted (kernelId : KernelId)
  | kernelspecEdited (notebookId : NotebookId) (name : Option String)

inductive Label
  | call (op : Op)
  | resume (task : TaskId) (answer : Answer) (oracle : Oracle)
  | proceed (oracle : Oracle)
  | outside (change : Outside)

namespace Server

variable (s : Server) (t : TaskId) (op : Op) (o : Oracle)

/-- `attach_client`. -/
def attachClient (roomId : RoomId) (client : ClientName) : Next :=
  if roomId ∉ s.mgr.rooms then s.finish (.raised (notFound roomId))
  else if (s.room roomId).isLive then s.attachOpened o roomId client
  else
    s.finish
      (.raised (.value s!"Room {roomId} is {(s.room roomId).state.format}, cannot attach"))

/-- `detach_client`. -/
def detachClient (roomId : RoomId) (client : ClientName) : Next :=
  if roomId ∉ s.mgr.rooms then s.finish (.raised (notFound roomId))
  else
    { s with mgr := s.mgr.modify roomId (·.detach client o.now) }.finish (.room roomId)

/-- `send_stdin`, up to the call of `ensure_room`. -/
def startStdin (jobId : JobId) : Next :=
  match s.ledger.getJob jobId with
  | none => s.finish (.raised (.value s!"Job {jobId} not found"))
  | some job =>
      if job.status = .awaitingInput then s.goto (.loadRoom job.notebookId .unresolved)
      else
        s.finish
          (.raised (.value s!"Job {jobId} is {job.status.format}, not awaiting input"))

/-- `KernelInterruptInterceptHandler.post`, up to its await. -/
def kernelInterrupt (kernelId : KernelId) : Next :=
  let attempt := s.pool.interruptViaSubshell o.client o.sent (some kernelId)
  let s' := { s with pool := attempt.1 }
  match attempt.2 with
  | some (client, subshellId) =>
      (s'.record (.subshellInterrupt client subshellId)).finish .returned
  | none => (s'.record (.interruptKernel kernelId)).park (.interrupting none)

/-- `resolve_kernel_name` before `ensure_room`, up to its await. -/
def resolveKernel (notebookId : NotebookId) (explicit : Option String) : Next :=
  if orDefault explicit "" = "" then s.park .resolving
  else s.goto (.loadRoom notebookId (.resolved explicit none))

/-- The first line of each call. -/
def start : Next :=
  match op with
  | .ensureRoom notebookId kernelName => s.goto (.loadRoom notebookId (.direct kernelName))
  | .openRuntime notebookId _ kernelName => s.goto (.loadRoom notebookId (.direct kernelName))
  | .attachClient roomId client => s.attachClient o roomId client
  | .detachClient roomId client => s.detachClient o roomId client
  | .stopRuntime roomId => s.goto (.stopRoom roomId [] [])
  | .getRuntimeStatus notebookId => s.goto (.loadRoom notebookId (.direct none))
  | .gcSweep => s.goto (.sweeping (s.mgr.sweepTargets o.now) [])
  | .shutdown => s.goto (.sweeping s.mgr.rooms [])
  | .queueExecution notebookId _ _ kernelName => s.resolveKernel notebookId kernelName
  | .runJob job => s.goto (.loadRoom job.notebookId .unresolved)
  | .sendStdin jobId _ _ => s.startStdin jobId
  | .interrupt notebookId _ => s.goto (.loadRoom notebookId .unresolved)
  | .runtimeOpen notebookId _ kernelName => s.resolveKernel notebookId kernelName
  | .runtimeStop notebookId =>
      match s.mgr.roomForNotebook notebookId with
      | none => s.finish (.raised (.http 404 "No runtime for notebook"))
      | some roomId => s.goto (.stopRoom roomId [] [])
  | .kernelInterrupt kernelId => s.kernelInterrupt o kernelId
  | .kernelRestart _ => s.park .restarting

/-- The running task passes to its next program point. -/
def advance (pc : Pc) : Option Next :=
  match pc, op with
  | .start, _ => some (s.start op o)
  | .loadRoom notebookId choice, _ => some (s.loadRoom notebookId choice)
  | .loaded notebookId choice existing, _ => some (s.loaded op o notebookId choice existing)
  | .startRoom notebookId choice, _ => some (s.startRoom op o notebookId choice)
  | .ensured notebookId roomId, _ => s.ensured t op o notebookId roomId
  | .sweeping rest stopped, _ => some (s.sweeping op rest stopped)
  | .stopRoom roomId rest stopped, _ => some (s.stopRoom op o roomId rest stopped)
  | .stopFinally roomId rest stopped pending, _ =>
      some (s.stopFinally op o roomId rest stopped pending)
  | .locked roomId, .runJob job => some (s.jobLocked o job roomId)
  | .nextCell roomId cells, .runJob job => some (s.nextCell o job roomId cells)
  | .polling roomId cells uid, .runJob job => some (s.pollRequest o job roomId cells uid)
  | .jobRaised roomId error, .runJob job => some (s.jobRaised o job roomId error)
  | .jobFinally roomId pending, .runJob job => some (s.jobFinally o job roomId pending)
  | _, _ => none

/-- An await ends by returning. -/
def resumed (pc : Pc) (answer : Answer) : Option Next :=
  match pc, op, answer with
  | .start, .runJob _, .returned => some (s.goto .start)
  | .resolving, .queueExecution notebookId _ _ explicit, .returned =>
      some (s.goto (.loadRoom notebookId (.resolved explicit (s.kernelspec notebookId))))
  | .resolving, .runtimeOpen notebookId _ explicit, .returned =>
      some (s.goto (.loadRoom notebookId (.resolved explicit (s.kernelspec notebookId))))
  | .loading notebookId choice, _, .session session =>
      some (s.adoptSession o notebookId choice session)
  | .creating notebookId roomId, _, .session session =>
      some (s.sessionCreated o notebookId roomId session)
  | .awaitingLock roomId, .runJob _, .returned =>
      if (s.room roomId).jobLock.mayWake t then
        some ({ s with mgr := s.mgr.modify roomId fun room =>
          { room with jobLock := room.jobLock.wake } }.goto (.locked roomId))
      else none
  | .clientReady roomId cells client, .runJob _, .returned =>
      some (s.ensureSubshell o roomId cells client)
  | .subshellReply roomId cells client requestId, .runJob _, .reply reply beforeDeadline =>
      some (s.subshellMessage roomId cells client requestId reply beforeDeadline)
  | .readingSource roomId cells, .runJob _, .text source =>
      some (s.park (.readingDocument roomId cells source))
  | .readingDocument roomId cells _, .runJob job, .text _ =>
      some (s.putCell o job roomId cells)
  | .sleeping roomId cells uid, .runJob _, .returned =>
      some (s.goto (.polling roomId cells uid))
  | .flushing roomId cells result, .runJob job, .returned =>
      some (s.cellFlushed o job roomId cells result)
  | .sendingInput notebookId roomId, .sendStdin jobId _ actor, .returned =>
      some (s.stdinSent o notebookId roomId jobId actor)
  | .interrupting (some roomId), .interrupt notebookId actor, .returned =>
      some ({ s with mgr := s.mgr.modify roomId fun room =>
        { room with lastActivity := o.now } }.recordInterrupt o notebookId roomId actor)
  | .interrupting none, _, .returned => some (s.finish .returned)
  | .restarting, .kernelRestart kernelId, .returned =>
      some ({ s with
        pool := s.pool.cleanupAfterRestart kernelId
        events := s.events ++ (s.pool.kernelClients kernelId).toList.map Event.subshellReset }.finish
          .returned)
  | .deleting roomId rest stopped, _, .returned =>
      some (s.goto (.stopFinally roomId rest stopped none))
  | _, _, _ => none

/-- An await ends by raising. -/
def interrupted (pc : Pc) (error : PyError) : Option Next :=
  match pc, op with
  | .resolving, _ | .sendingInput .., _ | .interrupting _, _ | .restarting, _ =>
      some (s.finish (.raised error))
  | .loading notebookId choice, _ =>
      if error.isHttp then some (s.goto (.loaded notebookId choice none))
      else some (s.finish (.raised error))
  | .creating _ roomId, _ => some (s.createFailed roomId error)
  | .awaitingLock roomId, .runJob _ =>
      if error.isException then none
      else
        some ({ s with mgr := s.mgr.modify roomId fun room =>
          { room with jobLock := room.jobLock.abandon t } }.finish (.raised error))
  | .clientReady roomId .., .runJob _ | .readingSource roomId _, .runJob _
  | .readingDocument roomId .., .runJob _ | .sleeping roomId .., .runJob _
  | .flushing roomId .., .runJob _ => some (s.goto (.jobRaised roomId error))
  | .subshellReply roomId cells client _, .runJob _ =>
      if error.isException then some (s.clientPrepared roomId cells client)
      else some (s.goto (.jobRaised roomId error))
  | .deleting roomId rest stopped, _ =>
      some (s.goto (.stopFinally roomId rest stopped
        (if error.isException then none else some error)))
  | _, _ => none

def resume (pc : Pc) : Answer → Option Next
  | .raised error => s.interrupted t op pc error
  | answer => s.resumed t op o pc answer

def change : Outside → Server
  | .kernelDied kernelId =>
      { s with alive := Function.update s.alive kernelId false }.record (.kernelDied kernelId)
  | .kernelStarted kernelId => { s with alive := Function.update s.alive kernelId true }
  | .kernelAutorestarted kernelId =>
      { s with
        pool := s.pool.fireRestartHooks kernelId
        events := s.events ++ (s.pool.restartHooks kernelId).map Event.subshellReset }
  | .kernelspecEdited notebookId name =>
      { s with kernelspec := Function.update s.kernelspec notebookId name }

/-- The task that a step moves. -/
def mover : Label → Option TaskId
  | .resume t _ _ => some t
  | .proceed _ => s.running
  | .call _ | .outside _ => none

def moving (l : Label) : Option Task := (s.mover l).bind s.tasks

/-- `_run_job` is only ever called through `create_task`. -/
def callable : Op → Bool
  | .runJob _ => false
  | _ => true

def step : Label → Option Server
  | .call op =>
      if s.running = none ∧ callable op = true then
        some { s.spawn op with running := some s.nextTask }
      else none
  | .resume t answer o =>
      if s.running = none then do
        let task ← s.tasks t
        let n ← s.resume t task.op o task.pc answer
        some (n.commit t task.op)
      else none
  | .proceed o => do
      let t ← s.running
      let task ← s.tasks t
      let n ← s.advance t task.op o task.pc
      some (n.commit t task.op)
  | .outside change => if s.running = none then some (s.change change) else none

end Server

/-- Runs of the extension in which every step satisfies a guard. -/
abbrev ServerRun (G : Server → Label → Prop) : Server → Server → Prop := Run Server.step G

namespace Server

/-- Executing a schedule to a state that satisfies `P` reaches one. -/
theorem exists_run (s : Server) (schedule : List Label) (P : Server → Prop) [DecidablePred P]
    (h : (exec step s schedule).any P = true) : ∃ t, ServerRun anyStep s t ∧ P t :=
  exists_run_of_exec h

theorem exists_guarded_run (s : Server) (G : Server → Label → Bool) (schedule : List Label)
    (P : Server → Prop) [DecidablePred P] (hG : guardedBy step (fun s l => G s l) s schedule = true)
    (h : (exec step s schedule).any P = true) : ∃ t, ServerRun (fun s l => G s l) s t ∧ P t :=
  exists_guarded_run_of_exec hG h

end Server

end Hypernote
