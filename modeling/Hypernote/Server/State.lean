import Hypernote.Subshell
/-!
# The state of the extension

The registry, the ledger and the orchestrator's dictionaries, together with the
event loop that runs its coroutines.  A coroutine in progress is a `Task`: the call
it executes and a program counter.  Program counters marked *running* are points
the coroutine passes without giving up control; the others are its awaits, where
any other task may be resumed.
-/

namespace Hypernote

open Foundation

/-- How the `kernel_name` argument of an `ensure_room` call came about. -/
inductive KernelChoice
  /-- Handed over by a direct caller of the runtime manager. -/
  | direct (kernelName : Option String)
  /-- Resolved by `resolve_kernel_name` from an override and the name it read from
  the notebook's metadata. -/
  | resolved (explicit metadata : Option String)
  /-- Not given: `_run_job`, `send_stdin` and `interrupt`. -/
  | unresolved
  deriving DecidableEq, Repr

/-- Python's `name or default` on an optional string. -/
def orDefault (name : Option String) (default : String) : String :=
  match name with
  | none => default
  | some n => if n = "" then default else n

/-- `get_kernelspec_name`, on the name found in the metadata. -/
def kernelspecName (metadata : Option String) : String := orDefault metadata "python3"

/-- `resolve_kernel_name`. -/
def resolveKernelName (explicit metadata : Option String) : String :=
  orDefault explicit (kernelspecName metadata)

def KernelChoice.kernelName : KernelChoice → Option String
  | .direct kernelName => kernelName
  | .resolved explicit metadata => some (resolveKernelName explicit metadata)
  | .unresolved => none

/-- The arguments of `_run_job`. -/
structure JobRun where
  jobId : JobId
  notebookId : NotebookId
  cellIds : List CellId
  actor : Actor
  deriving DecidableEq

/-- The calls a coroutine can execute: the manager's and the orchestrator's methods,
and the handlers that do more than forward to one of them. -/
inductive Op
  | ensureRoom (notebookId : NotebookId) (kernelName : Option String)
  | openRuntime (notebookId : NotebookId) (client : ClientName) (kernelName : Option String)
  | attachClient (roomId : RoomId) (client : ClientName)
  | detachClient (roomId : RoomId) (client : ClientName)
  | stopRuntime (roomId : RoomId)
  | getRuntimeStatus (notebookId : NotebookId)
  | gcSweep
  | shutdown
  | queueExecution (notebookId : NotebookId) (cellIds : List CellId) (actor : Actor)
      (kernelName : Option String)
  | runJob (job : JobRun)
  | sendStdin (jobId : JobId) (value : String) (actor : Actor)
  | interrupt (notebookId : NotebookId) (actor : Actor)
  /-- `RuntimeOpenHandler.post`. -/
  | runtimeOpen (notebookId : NotebookId) (client : ClientName) (kernelName : Option String)
  /-- `RuntimeStopHandler.post`. -/
  | runtimeStop (notebookId : NotebookId)
  /-- `KernelInterruptInterceptHandler.post`. -/
  | kernelInterrupt (kernelId : KernelId)
  /-- `KernelRestartInterceptHandler.post`. -/
  | kernelRestart (kernelId : KernelId)
  deriving DecidableEq

/-- The execution result that `stack.get` hands back: whether it has an `"error"`
key, and its `"status"`. -/
structure ExecutionResult where
  hasError : Bool
  status : Option String
  deriving DecidableEq, Repr

def ExecutionResult.isError (r : ExecutionResult) : Bool :=
  r.hasError || r.status = some "error"

inductive Outcome
  | returned
  | room (roomId : RoomId)
  | job (jobId : JobId)
  | status (payload : NotebookRoom.Status)
  | swept (stopped : List RoomId)
  | raised (error : PyError)
  deriving DecidableEq

inductive Pc
  /-- running: the first line (a task made by `create_task` waits here to be started). -/
  | start
  /-- `await get_kernelspec_name`. -/
  | resolving
  /-- running: the call of `_load_or_refresh_room`. -/
  | loadRoom (notebookId : NotebookId) (choice : KernelChoice)
  /-- `await get_session`. -/
  | loading (notebookId : NotebookId) (choice : KernelChoice)
  /-- running: `_load_or_refresh_room` has returned. -/
  | loaded (notebookId : NotebookId) (choice : KernelChoice) (existing : Option RoomId)
  /-- running: `ensure_room` found no live room. -/
  | startRoom (notebookId : NotebookId) (choice : KernelChoice)
  /-- `await create_session`. -/
  | creating (notebookId : NotebookId) (roomId : RoomId)
  /-- running: `ensure_room` has returned. -/
  | ensured (notebookId : NotebookId) (roomId : RoomId)
  /-- `await room.job_lock.acquire()`. -/
  | awaitingLock (roomId : RoomId)
  /-- running: the lock is held. -/
  | locked (roomId : RoomId)
  /-- running: the head of the loop over the cells. -/
  | nextCell (roomId : RoomId) (cells : List CellId)
  /-- `await wait_for_ready`. -/
  | clientReady (roomId : RoomId) (cells : List CellId) (client : ClientId)
  /-- `await control_channel.get_msg` in `ensure_subshell`. -/
  | subshellReply (roomId : RoomId) (cells : List CellId) (client : ClientId)
      (requestId : RequestId)
  /-- `await get_cell_source`. -/
  | readingSource (roomId : RoomId) (cells : List CellId)
  /-- `await ensure_document_room`. -/
  | readingDocument (roomId : RoomId) (cells : List CellId) (source : String)
  /-- running: the head of the loop of `_poll_request`. -/
  | polling (roomId : RoomId) (cells : List CellId) (uid : RequestUid)
  /-- `await asyncio.sleep` in `_poll_request`. -/
  | sleeping (roomId : RoomId) (cells : List CellId) (uid : RequestUid)
  /-- `await flush_document`. -/
  | flushing (roomId : RoomId) (cells : List CellId) (result : ExecutionResult)
  /-- running: something was raised inside the `try` of `_run_job`. -/
  | jobRaised (roomId : RoomId) (error : PyError)
  /-- running: the `finally` of `_run_job`. -/
  | jobFinally (roomId : RoomId) (pending : Option PyError)
  /-- `await stack.send_input`. -/
  | sendingInput (notebookId : NotebookId) (roomId : RoomId)
  /-- `await kernel_manager.interrupt_kernel`. -/
  | interrupting (roomId : Option RoomId)
  /-- `await kernel_manager.restart_kernel`. -/
  | restarting
  /-- running: the loop of a sweep over the rooms still to stop. -/
  | sweeping (rest stopped : List RoomId)
  /-- running: the call of `stop_runtime`. -/
  | stopRoom (roomId : RoomId) (rest stopped : List RoomId)
  /-- `await delete_session` or `await shutdown_kernel`. -/
  | deleting (roomId : RoomId) (rest stopped : List RoomId)
  /-- running: the `finally` of `stop_runtime`. -/
  | stopFinally (roomId : RoomId) (rest stopped : List RoomId) (pending : Option PyError)
  | done (outcome : Outcome)
  deriving DecidableEq

structure Task where
  op : Op
  pc : Pc
  deriving DecidableEq

/-- What the extension has done to its collaborators, oldest first, and the deaths
of kernels; nothing in the code reads it. -/
inductive Event
  /-- By the call `op`, with the name in the notebook's metadata at that moment. -/
  | createSession (op : Op) (notebookId : NotebookId) (kernelName : String)
      (choice : KernelChoice) (metadata : Option String)
  | stopping (roomId : RoomId)
  | deleteSession (roomId : RoomId) (sessionId : SessionId)
  | shutdownKernel (roomId : RoomId) (kernelId : KernelId)
  | notebookStopped (notebookId : NotebookId)
  | queued (jobId : JobId) (notebookId : NotebookId) (cellIds : List CellId)
  | put (jobId : JobId) (cellId : CellId) (kernelId : KernelId) (uid : RequestUid)
  | polled (jobId : JobId) (result : ExecutionResult)
  | stepRaised (jobId : JobId) (error : PyError)
  | sendInput (jobId : JobId) (kernelId : KernelId) (value : String)
  | interruptKernel (kernelId : KernelId)
  | subshellInterrupt (client : ClientId) (subshellId : String)
  | subshellCreated (client : ClientId) (subshellId : Option String)
  | subshellReset (client : ClientId)
  | kernelDied (kernelId : KernelId)
  deriving DecidableEq

structure Server where
  mgr : RuntimeManager
  ledger : MemoryLedger
  awaitingInputSignatures : JobId → Option String
  resumedInputSignatures : JobId → Option String
  pool : ClientPool
  /-- `kernel_id in kernel_manager`. -/
  alive : KernelId → Bool
  /-- The `kernelspec.name` in the notebook's metadata. -/
  kernelspec : NotebookId → Option String
  tasks : TaskId → Option Task
  nextTask : TaskId
  /-- The task that has control; `none` while the event loop chooses. -/
  running : Option TaskId
  events : List Event

namespace Server

/-- The extension right after start-up, over any kernels and notebooks. -/
def boot (idleTtl : Time) (maxCompleted : Int) (alive : KernelId → Bool)
    (kernelspec : NotebookId → Option String) : Server where
  mgr := .empty idleTtl
  ledger := .empty maxCompleted
  awaitingInputSignatures := fun _ => none
  resumedInputSignatures := fun _ => none
  pool := .empty
  alive := alive
  kernelspec := kernelspec
  tasks := fun _ => none
  nextTask := 0
  running := none
  events := []

def room (s : Server) (roomId : RoomId) : NotebookRoom := s.mgr.heap roomId

/-- `asyncio.create_task`. -/
def spawn (s : Server) (op : Op) : Server :=
  { s with
    tasks := Function.update s.tasks s.nextTask (some ⟨op, .start⟩)
    nextTask := s.nextTask + 1 }

def record (s : Server) (e : Event) : Server := { s with events := s.events ++ [e] }

end Server

/-- What a coroutine leaves behind when it reaches its next program point: the new
state (its own entry in `tasks` still the old one), that point, and whether it keeps
control there. -/
structure Next where
  state : Server
  pc : Pc
  keepsControl : Bool

namespace Server

/-- Pass to another running point. -/
def goto (s : Server) (pc : Pc) : Next := ⟨s, pc, true⟩

/-- Suspend at an await. -/
def park (s : Server) (pc : Pc) : Next := ⟨s, pc, false⟩

def finish (s : Server) (outcome : Outcome) : Next := s.park (.done outcome)

end Server

/-- The state after task `t`, executing `op`, has moved. -/
def Next.commit (n : Next) (t : TaskId) (op : Op) : Server :=
  { n.state with
    tasks := Function.update n.state.tasks t (some ⟨op, n.pc⟩)
    running := if n.keepsControl then some t else none }

end Hypernote
