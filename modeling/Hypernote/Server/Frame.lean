import Hypernote.Server.Step
/-!
# What one step can do

Inversion of `Server.step`, stated once.  `StepCase` splits a step into a call, a
move of one task and a change from outside; `TaskStep` lists the branches of a move,
grouped by the part of the code the task is in, each with the conditions under which
it is taken.  The invariants of the later modules are read off these.
-/

namespace Hypernote

open Foundation

namespace Pc

/-- The points a task passes without giving up control.  `start` is not among them:
a created task waits there. -/
def isRunning : Pc → Bool
  | .loadRoom .. | .loaded .. | .startRoom .. | .ensured .. | .locked .. | .nextCell ..
  | .polling .. | .jobRaised .. | .jobFinally .. | .sweeping .. | .stopRoom .. | .stopFinally .. =>
      true
  | _ => false

/-- The points of `_load_or_refresh_room` and `ensure_room`. -/
def isEnsure : Pc → Bool
  | .loadRoom .. | .loading .. | .loaded .. | .startRoom .. | .creating .. => true
  | _ => false

/-- The points of `stop_runtime` and of the loops around it. -/
def isStop : Pc → Bool
  | .sweeping .. | .stopRoom .. | .deleting .. | .stopFinally .. => true
  | _ => false

end Pc

namespace Op

/-- `get_runtime_status` shares `_load_or_refresh_room` with the calls of `ensure_room`. -/
def isStatus : Op → Bool
  | .getRuntimeStatus _ => true
  | _ => false

/-- The notebook and kernel choice of a call that begins with `_load_or_refresh_room`. -/
def loads : Op → Option (NotebookId × KernelChoice)
  | .ensureRoom nb name => some (nb, .direct name)
  | .openRuntime nb _ name => some (nb, .direct name)
  | .getRuntimeStatus nb => some (nb, .direct none)
  | .runJob job => some (job.notebookId, .unresolved)
  | .interrupt nb _ => some (nb, .unresolved)
  | _ => none

/-- The notebook and override of a call that begins with `resolve_kernel_name`. -/
def resolves : Op → Option (NotebookId × Option String)
  | .queueExecution nb _ _ name => some (nb, name)
  | .runtimeOpen nb _ name => some (nb, name)
  | _ => none

/-- The room that a call of `stop_runtime` stops. -/
def stops (mgr : RuntimeManager) : Op → Option RoomId
  | .stopRuntime r => some r
  | .runtimeStop nb => mgr.roomForNotebook nb
  | _ => none

/-- The client that a call of `open_runtime` attaches. -/
def opens : Op → Option ClientName
  | .openRuntime _ client _ => some client
  | .runtimeOpen _ client _ => some client
  | _ => none

end Op

namespace Server

/-- The branches of `_load_or_refresh_room`, `ensure_room` and `get_runtime_status`. -/
inductive EnsureStep (s : Server) (t : TaskId) (op : Op) : Label → Pc → Next → Prop
  | found {o nb choice r} (hfound : s.mgr.roomForNotebook nb = some r) :
      EnsureStep s t op (.proceed o) (.loadRoom nb choice)
        ⟨{ s with mgr := s.mgr.refresh s.alive r }, .loaded nb choice (some r), true⟩
  | absent {o nb choice} (habsent : s.mgr.roomForNotebook nb = none) :
      EnsureStep s t op (.proceed o) (.loadRoom nb choice) ⟨s, .loading nb choice, false⟩
  | adopted {o nb choice session} :
      EnsureStep s t op (.resume t (.session session) o) (.loading nb choice)
        (s.adoptSession o nb choice session)
  | missing {o nb choice error} (herror : error.isHttp = true) :
      EnsureStep s t op (.resume t (.raised error) o) (.loading nb choice)
        ⟨s, .loaded nb choice none, true⟩
  | loadFailed {o nb choice error} (herror : error.isHttp = false) :
      EnsureStep s t op (.resume t (.raised error) o) (.loading nb choice)
        ⟨s, .done (.raised error), false⟩
  | status {o nb choice existing payload} (hop : op.isStatus = true) :
      EnsureStep s t op (.proceed o) (.loaded nb choice existing)
        ⟨s, .done (.status payload), false⟩
  | live {o nb choice r} (hop : op.isStatus = false) (hlive : (s.room r).isLive = true)
      (hmatch : s.kernelMismatch r choice.kernelName = false) :
      EnsureStep s t op (.proceed o) (.loaded nb choice (some r))
        ⟨{ s with mgr := s.mgr.touchActivity r o.now }, .ensured nb r, true⟩
  | mismatch {o nb choice r error} (hop : op.isStatus = false) (hlive : (s.room r).isLive = true)
      (hmatch : s.kernelMismatch r choice.kernelName = true) :
      EnsureStep s t op (.proceed o) (.loaded nb choice (some r))
        ⟨s, .done (.raised error), false⟩
  | dead {o nb choice existing} (hop : op.isStatus = false)
      (hdead : ∀ r, existing = some r → (s.room r).isLive = false) :
      EnsureStep s t op (.proceed o) (.loaded nb choice existing)
        ⟨s, .startRoom nb choice, true⟩
  | created {o nb choice} :
      EnsureStep s t op (.proceed o) (.startRoom nb choice) (s.startRoom op o nb choice)
  | started {o nb r session} :
      EnsureStep s t op (.resume t (.session session) o) (.creating nb r)
        (s.sessionCreated o nb r session)
  | createFailed {o nb r error} :
      EnsureStep s t op (.resume t (.raised error) o) (.creating nb r) (s.createFailed r error)

/-- The branches of `stop_runtime` and of the loops of `gc_sweep` and `shutdown`. -/
inductive StopStep (s : Server) (t : TaskId) (op : Op) : Label → Pc → Next → Prop
  | next {o r rest stopped} :
      StopStep s t op (.proceed o) (.sweeping (r :: rest) stopped)
        ⟨s, .stopRoom r rest stopped, true⟩
  | swept {o stopped outcome} :
      StopStep s t op (.proceed o) (.sweeping [] stopped) ⟨s, .done outcome, false⟩
  | unknown {o r rest stopped} (hr : r ∉ s.mgr.rooms) :
      StopStep s t op (.proceed o) (.stopRoom r rest stopped)
        (s.stopRaised op (notFound r) rest stopped)
  | already {o r rest stopped} (hr : r ∈ s.mgr.rooms)
      (hstate : (s.room r).state = .stopped ∨ (s.room r).state = .stopping) :
      StopStep s t op (.proceed o) (.stopRoom r rest stopped)
        (s.stopReturned op r rest stopped)
  | stopping {o r rest stopped pc es} (hr : r ∈ s.mgr.rooms)
      (hstate : ¬((s.room r).state = .stopped ∨ (s.room r).state = .stopping))
      (hpc : pc = .deleting r rest stopped ∨ pc = .stopFinally r rest stopped none)
      (hes : es = [] ∨ (∃ id, es = [.deleteSession r id]) ∨ (∃ k, es = [.shutdownKernel r k])) :
      StopStep s t op (.proceed o) (.stopRoom r rest stopped)
        ⟨{ s with
            mgr := s.mgr.setRuntimeState r .stopping o.now
            events := s.events ++ .stopping r :: es }, pc, pc.isRunning⟩
  | deleted {o r rest stopped} :
      StopStep s t op (.resume t .returned o) (.deleting r rest stopped)
        ⟨s, .stopFinally r rest stopped none, true⟩
  | deleteRaised {o r rest stopped error} :
      StopStep s t op (.resume t (.raised error) o) (.deleting r rest stopped)
        ⟨s, .stopFinally r rest stopped (if error.isException then none else some error), true⟩
  | cancelled {o r rest stopped error} :
      StopStep s t op (.proceed o) (.stopFinally r rest stopped (some error))
        ⟨{ s with mgr := (s.mgr.modify r (·.cleared o.now)).unregister r },
          .done (.raised error), false⟩
  | cleared {o r rest stopped} :
      StopStep s t op (.proceed o) (.stopFinally r rest stopped none)
        (Server.stopReturned
          { s with
            mgr := (s.mgr.modify r (·.cleared o.now)).unregister r
            ledger := s.ledger.evictNotebook (s.room r).notebookId
            events := s.events ++ [.notebookStopped (s.room r).notebookId] } op r rest stopped)

/-- Where the code of `_ensure_kernel_client_ready` can leave a job. -/
def PreparePc (r : RoomId) (cells : List CellId) (client : ClientId) (pc : Pc) : Prop :=
  pc = .readingSource r cells ∨ (∃ requestId, pc = .subshellReply r cells client requestId) ∨
    ∃ error : PyError, error.isException = true ∧ pc = .jobRaised r error

/-- The branches of `_run_job` once it has its room. -/
inductive JobStep (s : Server) (t : TaskId) (job : JobRun) : Label → Pc → Next → Prop
  | acquired {o nb r} (hlock : (s.room r).jobLock.canAcquire = true) :
      JobStep s t job (.proceed o) (.ensured nb r)
        ⟨{ s with mgr := s.mgr.modify r fun room => { room with jobLock := room.jobLock.acquire } },
          .locked r, true⟩
  | enqueued {o nb r} (hlock : (s.room r).jobLock.canAcquire = false) :
      JobStep s t job (.proceed o) (.ensured nb r)
        ⟨{ s with mgr := s.mgr.modify r fun room =>
            { room with jobLock := room.jobLock.enqueue t } }, .awaitingLock r, false⟩
  | woken {o r} (hlock : (s.room r).jobLock.mayWake t = true) :
      JobStep s t job (.resume t .returned o) (.awaitingLock r)
        ⟨{ s with mgr := s.mgr.modify r fun room => { room with jobLock := room.jobLock.wake } },
          .locked r, true⟩
  | abandoned {o r error} (herror : error.isException = false) :
      JobStep s t job (.resume t (.raised error) o) (.awaitingLock r)
        ⟨{ s with mgr := s.mgr.modify r fun room =>
            { room with jobLock := room.jobLock.abandon t } }, .done (.raised error), false⟩
  | locked {o r} : JobStep s t job (.proceed o) (.locked r) (s.jobLocked o job r)
  | succeeded {o r} :
      JobStep s t job (.proceed o) (.nextCell r [])
        ⟨s.updateStatus o job.jobId .succeeded none, .jobFinally r none, true⟩
  | preparing {o r c cells k} (hk : (s.room r).kernelId = some k) :
      JobStep s t job (.proceed o) (.nextCell r (c :: cells))
        ⟨{ s with pool := (s.pool.getClient k).1 },
          .clientReady r (c :: cells) (s.pool.getClient k).2, false⟩
  | noClient {o r c cells error} (herror : error.isException = true) :
      JobStep s t job (.proceed o) (.nextCell r (c :: cells)) ⟨s, .jobRaised r error, true⟩
  | clientReady {o r cells client pool pc} (hpc : PreparePc r cells client pc)
      (hn : s.ensureSubshell o r cells client = ⟨{ s with pool := pool }, pc, pc.isRunning⟩) :
      JobStep s t job (.resume t .returned o) (.clientReady r cells client)
        ⟨{ s with pool := pool }, pc, pc.isRunning⟩
  | subshellMessage {o r cells client requestId reply beforeDeadline pool pc es}
      (hpc : PreparePc r cells client pc) (hes : es = [] ∨ ∃ id, es = [.subshellCreated client id])
      (hn : s.subshellMessage r cells client requestId reply beforeDeadline =
        ⟨{ s with pool := pool, events := s.events ++ es }, pc, pc.isRunning⟩) :
      JobStep s t job (.resume t (.reply reply beforeDeadline) o)
        (.subshellReply r cells client requestId)
        ⟨{ s with pool := pool, events := s.events ++ es }, pc, pc.isRunning⟩
  | subshellFailed {o r cells client requestId error pool} (herror : error.isException = true)
      (hn : s.clientPrepared r cells client =
        ⟨{ s with pool := pool }, .readingSource r cells, false⟩) :
      JobStep s t job (.resume t (.raised error) o) (.subshellReply r cells client requestId)
        ⟨{ s with pool := pool }, .readingSource r cells, false⟩
  | sourceRead {o r cells source} :
      JobStep s t job (.resume t (.text source) o) (.readingSource r cells)
        ⟨s, .readingDocument r cells source, false⟩
  | put {o r c cells k source document uid ledger} (hput : o.put = .ok uid)
      (hk : (s.room r).kernelId = some k)
      (hledger : s.ledger.appendRequestUid job.jobId uid = some ledger) :
      JobStep s t job (.resume t (.text document) o) (.readingDocument r (c :: cells) source)
        ⟨{ s with
            ledger := ledger
            events := s.events ++ [.put job.jobId c k uid] }, .polling r (c :: cells) uid, true⟩
  | putForgotten {o r c cells k source document uid error} (hput : o.put = .ok uid)
      (hk : (s.room r).kernelId = some k) (herror : error.isException = true)
      (hledger : s.ledger.getJob job.jobId = none) :
      JobStep s t job (.resume t (.text document) o) (.readingDocument r (c :: cells) source)
        ⟨{ s with events := s.events ++ [.put job.jobId c k uid] }, .jobRaised r error, true⟩
  | putRaised {o r cells source document error}
      (hput : o.put = .error error ∨
        error.isException = true ∧ (cells = [] ∨ (s.room r).kernelId = none)) :
      JobStep s t job (.resume t (.text document) o) (.readingDocument r cells source)
        ⟨s, .jobRaised r error, true⟩
  | slept {o r cells uid} :
      JobStep s t job (.resume t .returned o) (.sleeping r cells uid)
        ⟨s, .polling r cells uid, true⟩
  | pending {o r cells uid} (hpoll : o.poll = .pending) :
      JobStep s t job (.proceed o) (.polling r cells uid) ⟨s, .sleeping r cells uid, false⟩
  | echoed {o r cells uid request} (hpoll : o.poll = .inputRequest request)
      (hresumed : s.resumedInputSignatures job.jobId = some (inputRequestSignature request)) :
      JobStep s t job (.proceed o) (.polling r cells uid)
        ⟨s.signatureRead job request, .sleeping r cells uid, false⟩
  | awaiting {o r cells uid request} (hpoll : o.poll = .inputRequest request)
      (hresumed : s.resumedInputSignatures job.jobId ≠ some (inputRequestSignature request))
      (hr : r ∈ s.mgr.rooms) :
      JobStep s t job (.proceed o) (.polling r cells uid)
        ⟨{ s.signatureRead job request with
            ledger := s.ledger.updateJobStatus job.jobId .awaitingInput none o.now
            mgr := s.mgr.setRuntimeState r .awaitingInput o.now }, .sleeping r cells uid, false⟩
  | awaitingUnregistered {o r cells uid request} (hpoll : o.poll = .inputRequest request)
      (hresumed : s.resumedInputSignatures job.jobId ≠ some (inputRequestSignature request))
      (hr : r ∉ s.mgr.rooms) :
      JobStep s t job (.proceed o) (.polling r cells uid)
        ⟨{ s.signatureRead job request with
            ledger := s.ledger.updateJobStatus job.jobId .awaitingInput none o.now },
          .jobRaised r (notFound r), true⟩
  | polled {o r cells uid result} (hpoll : o.poll = .result result) :
      JobStep s t job (.proceed o) (.polling r cells uid) (s.polled o job r cells result)
  | pollRaised {o r cells uid error} (hpoll : o.poll = .raised error) :
      JobStep s t job (.proceed o) (.polling r cells uid) ⟨s, .jobRaised r error, true⟩
  | flushedError {o r cells result} (hresult : result.isError = true) :
      JobStep s t job (.resume t .returned o) (.flushing r cells result)
        ⟨{ s with
            ledger := (s.attributed o job cells).updateJobStatus job.jobId .failed none o.now },
          .jobFinally r none, true⟩
  | flushed {o r cells result} (hresult : result.isError = false) :
      JobStep s t job (.resume t .returned o) (.flushing r cells result)
        ⟨{ s with ledger := s.attributed o job cells }, .nextCell r cells.tail, true⟩
  | stepRaised {o pc r error}
      (hpc : (∃ cells client, pc = .clientReady r cells client) ∨
        (∃ cells, pc = .readingSource r cells) ∨
        (∃ cells source, pc = .readingDocument r cells source) ∨
        (∃ cells uid, pc = .sleeping r cells uid) ∨
        (∃ cells result, pc = .flushing r cells result) ∨
        error.isException = false ∧
          ∃ cells client requestId, pc = .subshellReply r cells client requestId) :
      JobStep s t job (.resume t (.raised error) o) pc ⟨s, .jobRaised r error, true⟩
  | failed {o r error} (herror : error.isException = true) :
      JobStep s t job (.proceed o) (.jobRaised r error)
        ⟨{ s with
            ledger := s.ledger.updateJobStatus job.jobId .failed none o.now
            events := s.events ++ [.stepRaised job.jobId error] }, .jobFinally r none, true⟩
  | cancelled {o r error} (herror : error.isException = false) :
      JobStep s t job (.proceed o) (.jobRaised r error)
        ⟨{ s with events := s.events ++ [.stepRaised job.jobId error] },
          .jobFinally r (some error), true⟩
  | finished {o r pending mgr outcome}
      (hn : s.jobFinally o job r pending = ⟨{ s with mgr := mgr }, .done outcome, false⟩) :
      JobStep s t job (.proceed o) (.jobFinally r pending)
        ⟨{ s with mgr := mgr }, .done outcome, false⟩

/-- The first lines of the calls, and what the calls other than `_run_job` do with
their room. -/
inductive CallStep (s : Server) (t : TaskId) : Op → Label → Pc → Next → Prop
  | begun {job o} : CallStep s t (.runJob job) (.resume t .returned o) .start ⟨s, .start, true⟩
  | load {op o nb choice} (hop : op.loads = some (nb, choice)) :
      CallStep s t op (.proceed o) .start ⟨s, .loadRoom nb choice, true⟩
  | explicit {op o nb name} (hop : op.resolves = some (nb, name)) (hname : orDefault name "" ≠ "") :
      CallStep s t op (.proceed o) .start ⟨s, .loadRoom nb (.resolved name none), true⟩
  | resolving {op o nb name} (hop : op.resolves = some (nb, name)) (hname : orDefault name "" = "") :
      CallStep s t op (.proceed o) .start ⟨s, .resolving, false⟩
  | resolved {op o nb name} (hop : op.resolves = some (nb, name)) :
      CallStep s t op (.resume t .returned o) .resolving
        ⟨s, .loadRoom nb (.resolved name (s.kernelspec nb)), true⟩
  | stdinAccepted {o jobId value actor job} (hjob : s.ledger.getJob jobId = some job)
      (hstatus : job.status = .awaitingInput) :
      CallStep s t (.sendStdin jobId value actor) (.proceed o) .start
        ⟨s, .loadRoom job.notebookId .unresolved, true⟩
  | refused {op o error} (hop : op.loads = none) :
      CallStep s t op (.proceed o) .start ⟨s, .done (.raised error), false⟩
  | attached {o r client} (hr : r ∈ s.mgr.rooms) (hlive : (s.room r).isLive = true) :
      CallStep s t (.attachClient r client) (.proceed o) .start (s.attachOpened o r client)
  | detached {o r client} (hr : r ∈ s.mgr.rooms) :
      CallStep s t (.detachClient r client) (.proceed o) .start
        ⟨{ s with mgr := s.mgr.modify r (·.detach client o.now) }, .done (.room r), false⟩
  | stop {op o r} (hop : op.stops s.mgr = some r) :
      CallStep s t op (.proceed o) .start ⟨s, .stopRoom r [] [], true⟩
  | gcSweep {o} :
      CallStep s t .gcSweep (.proceed o) .start
        ⟨s, .sweeping (s.mgr.sweepTargets o.now) [], true⟩
  | shutdown {o} : CallStep s t .shutdown (.proceed o) .start ⟨s, .sweeping s.mgr.rooms [], true⟩
  | kernelSubshell {o k pool client id}
      (hvia : s.pool.interruptViaSubshell o.client o.sent (some k) = (pool, some (client, id))) :
      CallStep s t (.kernelInterrupt k) (.proceed o) .start
        ⟨{ s with
            pool := pool
            events := s.events ++ [.subshellInterrupt client id] }, .done .returned, false⟩
  | kernelNative {o k pool}
      (hvia : s.pool.interruptViaSubshell o.client o.sent (some k) = (pool, none)) :
      CallStep s t (.kernelInterrupt k) (.proceed o) .start
        ⟨{ s with
            pool := pool
            events := s.events ++ [.interruptKernel k] }, .interrupting none, false⟩
  | restarting {o k} : CallStep s t (.kernelRestart k) (.proceed o) .start ⟨s, .restarting, false⟩
  | ensured {o nb nb' name r} :
      CallStep s t (.ensureRoom nb' name) (.proceed o) (.ensured nb r) ⟨s, .done (.room r), false⟩
  | opened {op o nb r client} (hop : op.opens = some client) :
      CallStep s t op (.proceed o) (.ensured nb r) (s.attachOpened o r client)
  | queued {o nb nb' r cells actor name} :
      CallStep s t (.queueExecution nb' cells actor name) (.proceed o) (.ensured nb r)
        (s.jobQueued o nb r cells actor)
  | sendInput {o nb r jobId value actor k} (hk : (s.room r).kernelId = some k) :
      CallStep s t (.sendStdin jobId value actor) (.proceed o) (.ensured nb r)
        ⟨{ s with events := s.events ++ [.sendInput jobId k value] }, .sendingInput nb r, false⟩
  | noKernel {o nb r jobId value actor error} (hk : (s.room r).kernelId = none) :
      CallStep s t (.sendStdin jobId value actor) (.proceed o) (.ensured nb r)
        ⟨s, .done (.raised error), false⟩
  | interruptSubshell {o nb nb' r actor pool client id}
      (hvia : s.pool.interruptViaSubshell o.client o.sent (s.room r).kernelId =
        (pool, some (client, id))) :
      CallStep s t (.interrupt nb' actor) (.proceed o) (.ensured nb r)
        ⟨{ s with
            pool := pool
            events := s.events ++ [.subshellInterrupt client id]
            mgr := s.mgr.touchActivity r o.now
            ledger := s.ledger.createJob nb actor .interrupt none (some r) o.now },
          .done .returned, false⟩
  | interruptKernel {o nb nb' r actor pool k}
      (hvia : s.pool.interruptViaSubshell o.client o.sent (s.room r).kernelId = (pool, none))
      (hr : r ∈ s.mgr.rooms) (hk : (s.room r).kernelId = some k)
      (hlive : (s.room r).isLive = true) :
      CallStep s t (.interrupt nb' actor) (.proceed o) (.ensured nb r)
        ⟨{ s with
            pool := pool
            events := s.events ++ [.interruptKernel k] }, .interrupting (some r), false⟩
  | interruptRefused {o nb nb' r actor pool error}
      (hvia : s.pool.interruptViaSubshell o.client o.sent (s.room r).kernelId = (pool, none))
      (hroom : r ∉ s.mgr.rooms ∨ (s.room r).kernelId = none ∨ (s.room r).isLive = false) :
      CallStep s t (.interrupt nb' actor) (.proceed o) (.ensured nb r)
        ⟨{ s with pool := pool }, .done (.raised error), false⟩
  | stdinSent {o nb r jobId value actor mgr outcome}
      (hmgr : r ∈ s.mgr.rooms ∧ mgr = s.mgr.setRuntimeState r
          (if (s.room r).attachedClients = ∅ then .liveDetached else .liveAttached) o.now ∨
        r ∉ s.mgr.rooms ∧ mgr = s.mgr) :
      CallStep s t (.sendStdin jobId value actor) (.resume t .returned o) (.sendingInput nb r)
        ⟨{ s with
            resumedInputSignatures := s.resumedSignatures jobId
            ledger := (s.ledger.createJob nb actor .stdinReply none (some r) o.now).updateJobStatus
              jobId .running (some r) o.now
            mgr := mgr }, .done outcome, false⟩
  | interrupted {o nb r actor} :
      CallStep s t (.interrupt nb actor) (.resume t .returned o) (.interrupting (some r))
        (Server.recordInterrupt
          { s with mgr := s.mgr.modify r fun room => { room with lastActivity := o.now } }
          o nb r actor)
  | interruptedNative {op o} :
      CallStep s t op (.resume t .returned o) (.interrupting none) ⟨s, .done .returned, false⟩
  | restarted {o k} :
      CallStep s t (.kernelRestart k) (.resume t .returned o) .restarting
        ⟨{ s with
            pool := s.pool.cleanupAfterRestart k
            events := s.events ++ (s.pool.kernelClients k).toList.map Event.subshellReset },
          .done .returned, false⟩
  | raised {op o pc error}
      (hpc : pc = .resolving ∨ (∃ nb r, pc = .sendingInput nb r) ∨
        (∃ room, pc = .interrupting room) ∨ pc = .restarting) :
      CallStep s t op (.resume t (.raised error) o) pc ⟨s, .done (.raised error), false⟩

/-- What one task can do. -/
inductive TaskStep (s : Server) (t : TaskId) : Op → Label → Pc → Next → Prop
  | call {op l pc n} (h : CallStep s t op l pc n) : TaskStep s t op l pc n
  | ensure {op l pc n} (h : EnsureStep s t op l pc n) : TaskStep s t op l pc n
  | stop {op l pc n} (h : StopStep s t op l pc n) : TaskStep s t op l pc n
  | job {job l pc n} (h : JobStep s t job l pc n) : TaskStep s t (.runJob job) l pc n

section Inversion

variable {s : Server} {t : TaskId} {op : Op} {o : Oracle} {pc : Pc} {answer : Answer} {n : Next}

theorem TaskStep.ensureStep {l : Label} (h : TaskStep s t op l pc n) (hpc : pc.isEnsure = true) :
    EnsureStep s t op l pc n := by
  cases h with
  | ensure h => exact h
  | stop h => cases h <;> cases hpc
  | call h =>
      cases h with
      | raised h => rcases h with rfl | ⟨_, _, rfl⟩ | ⟨_, rfl⟩ | rfl <;> cases hpc
      | _ => cases hpc
  | job h =>
      cases h with
      | stepRaised h =>
          rcases h with ⟨_, _, rfl⟩ | ⟨_, rfl⟩ | ⟨_, _, rfl⟩ | ⟨_, _, rfl⟩ | ⟨_, _, rfl⟩ |
            ⟨-, _, _, _, rfl⟩ <;> cases hpc
      | _ => cases hpc

theorem TaskStep.stopStep {l : Label} (h : TaskStep s t op l pc n) (hpc : pc.isStop = true) :
    StopStep s t op l pc n := by
  cases h with
  | stop h => exact h
  | ensure h => cases h <;> cases hpc
  | call h =>
      cases h with
      | raised h => rcases h with rfl | ⟨_, _, rfl⟩ | ⟨_, rfl⟩ | rfl <;> cases hpc
      | _ => cases hpc
  | job h =>
      cases h with
      | stepRaised h =>
          rcases h with ⟨_, _, rfl⟩ | ⟨_, rfl⟩ | ⟨_, _, rfl⟩ | ⟨_, _, rfl⟩ | ⟨_, _, rfl⟩ |
            ⟨-, _, _, _, rfl⟩ <;> cases hpc
      | _ => cases hpc

theorem start_cases : TaskStep s t op (.proceed o) .start (s.start op o) := by
  refine .call ?_
  cases op with
  | ensureRoom nb name => exact .load rfl
  | openRuntime nb client name => exact .load rfl
  | getRuntimeStatus nb => exact .load rfl
  | runJob job => exact .load rfl
  | interrupt nb actor => exact .load rfl
  | attachClient r client =>
      simp only [start, attachClient]
      split
      · exact .refused rfl
      · split
        · exact .attached (not_not.mp ‹_›) ‹_›
        · exact .refused rfl
  | detachClient r client =>
      simp only [start, detachClient]
      split
      · exact .refused rfl
      · exact .detached (not_not.mp ‹_›)
  | stopRuntime r => exact .stop rfl
  | runtimeStop nb =>
      simp only [start]
      split
      · exact .refused rfl
      · exact .stop ‹_›
  | gcSweep => exact .gcSweep
  | shutdown => exact .shutdown
  | queueExecution nb cells actor name =>
      simp only [start, resolveKernel]
      split
      · exact .resolving rfl ‹_›
      · exact .explicit rfl ‹_›
  | runtimeOpen nb client name =>
      simp only [start, resolveKernel]
      split
      · exact .resolving rfl ‹_›
      · exact .explicit rfl ‹_›
  | sendStdin jobId value actor =>
      simp only [start, startStdin]
      split
      · exact .refused rfl
      · split
        · exact .stdinAccepted ‹_› ‹_›
        · exact .refused rfl
  | kernelInterrupt k =>
      simp only [start, kernelInterrupt]
      split
      · exact .kernelSubshell (Prod.ext rfl ‹_›)
      · exact .kernelNative (Prod.ext rfl ‹_›)
  | kernelRestart k => exact .restarting

theorem finally_cases {job : JobRun} {r : RoomId} {pending : Option PyError} :
    JobStep s t job (.proceed o) (.jobFinally r pending) (s.jobFinally o job r pending) := by
  obtain ⟨mgr, outcome, hn⟩ : ∃ mgr outcome,
      s.jobFinally o job r pending = ⟨{ s with mgr := mgr }, .done outcome, false⟩ := by
    unfold jobFinally
    dsimp only
    split
    · split <;> exact ⟨_, _, rfl⟩
    · exact ⟨_, _, rfl⟩
  rw [hn]
  exact .finished hn

theorem interrupt_cases {nb nb' : NotebookId} {r : RoomId} {actor : Actor} :
    CallStep s t (.interrupt nb' actor) (.proceed o) (.ensured nb r)
      (s.interruptRoom o nb r actor) := by
  unfold interruptRoom
  dsimp only
  split
  · exact .interruptSubshell (Prod.ext rfl ‹_›)
  · rename_i hvia
    split
    · exact .interruptRefused (Prod.ext rfl hvia) (.inl ‹_›)
    · rename_i hr
      split
      · exact .interruptKernel (Prod.ext rfl hvia) (not_not.mp hr) ‹_› ‹_›
      · rename_i hroom
        refine .interruptRefused (Prod.ext rfl hvia) (.inr ?_)
        cases hk : (s.room r).kernelId with
        | none => exact .inl rfl
        | some k => exact .inr (Bool.eq_false_iff.mpr (hroom k hk))

theorem input_cases {job : JobRun} {r : RoomId} {cells : List CellId} {uid : RequestUid}
    {request : Json} (hpoll : o.poll = .inputRequest request) :
    JobStep s t job (.proceed o) (.polling r cells uid)
      (s.inputRequested o job r cells uid request) := by
  unfold inputRequested
  dsimp only
  split
  · exact .echoed hpoll ‹_›
  · rename_i hresumed
    split
    · exact .awaiting hpoll hresumed ‹_›
    · exact .awaitingUnregistered hpoll hresumed ‹_›

theorem advance_cases (h : s.advance t op o pc = some n) : TaskStep s t op (.proceed o) pc n := by
  cases pc with
  | start =>
      simp only [advance, Option.some.injEq] at h
      subst h
      exact start_cases
  | loadRoom nb choice =>
      simp only [advance, Option.some.injEq] at h
      subst h
      refine .ensure ?_
      unfold loadRoom
      split
      · exact .found ‹_›
      · exact .absent ‹_›
  | loaded nb choice existing =>
      simp only [advance, Option.some.injEq] at h
      subst h
      refine .ensure ?_
      unfold loaded
      split
      · exact .status rfl
      · exact .status rfl
      · exact .dead (by cases op <;> simp_all [Op.isStatus]) (by simp)
      · have hop : op.isStatus = false := by cases op <;> simp_all [Op.isStatus]
        split
        · rename_i hlive
          split
          · exact .mismatch hop hlive ‹_›
          · exact .live hop hlive (Bool.eq_false_iff.mpr ‹_›)
        · rename_i hdead
          exact .dead hop (by simpa using hdead)
  | startRoom nb choice =>
      simp only [advance, Option.some.injEq] at h
      subst h
      exact .ensure .created
  | ensured nb r =>
      cases op <;> simp only [advance, ensured, Option.some.injEq, reduceCtorEq] at h <;> subst h
      case ensureRoom => exact .call .ensured
      case openRuntime => exact .call (.opened rfl)
      case runtimeOpen => exact .call (.opened rfl)
      case queueExecution => exact .call .queued
      case interrupt => exact .call interrupt_cases
      case runJob =>
          refine .job ?_
          unfold acquireLock
          split
          · exact .acquired ‹_›
          · exact .enqueued (Bool.eq_false_iff.mpr ‹_›)
      case sendStdin =>
          refine .call ?_
          unfold sendInput
          split
          · exact .noKernel ‹_›
          · exact .sendInput ‹_›
  | sweeping rest stopped =>
      simp only [advance, Option.some.injEq] at h
      subst h
      refine .stop ?_
      unfold sweeping
      split
      · exact .next
      · split <;> exact .swept
  | stopRoom r rest stopped =>
      simp only [advance, Option.some.injEq] at h
      subst h
      refine .stop ?_
      unfold stopRoom
      split
      · exact .unknown ‹_›
      · rename_i hr
        have hr := not_not.mp hr
        dsimp only
        split
        · exact .already hr ‹_›
        · rename_i hstate
          split
          · simp only [record, List.append_assoc]
            exact .stopping hr hstate (.inl rfl) (.inr (.inl ⟨_, rfl⟩))
          · split
            · simp only [record, List.append_assoc]
              exact .stopping hr hstate (.inl rfl) (.inr (.inr ⟨_, rfl⟩))
            · exact .stopping hr hstate (.inr rfl) (.inl rfl)
          · exact .stopping hr hstate (.inr rfl) (.inl rfl)
  | stopFinally r rest stopped pending =>
      simp only [advance, Option.some.injEq] at h
      subst h
      refine .stop ?_
      cases pending with
      | none => exact .cleared
      | some error => exact .cancelled
  | locked r =>
      cases op <;> simp only [advance, Option.some.injEq, reduceCtorEq] at h
      subst h
      exact .job .locked
  | nextCell r cells =>
      cases op <;> simp only [advance, Option.some.injEq, reduceCtorEq] at h
      subst h
      refine .job ?_
      unfold nextCell
      split
      · exact .succeeded
      · split
        · exact .preparing ‹_›
        · exact .noClient rfl
      · exact .noClient rfl
  | polling r cells uid =>
      cases op <;> simp only [advance, Option.some.injEq, reduceCtorEq] at h
      subst h
      refine .job ?_
      unfold pollRequest
      split
      · exact .pending ‹_›
      · exact input_cases ‹_›
      · exact .polled ‹_›
      · exact .pollRaised ‹_›
  | jobRaised r error =>
      cases op <;> simp only [advance, Option.some.injEq, reduceCtorEq] at h
      subst h
      refine .job ?_
      unfold jobRaised
      dsimp only
      split
      · exact .failed ‹_›
      · exact .cancelled (Bool.eq_false_iff.mpr ‹_›)
  | jobFinally r pending =>
      cases op <;> simp only [advance, Option.some.injEq, reduceCtorEq] at h
      subst h
      exact .job finally_cases
  | _ => simp only [advance, reduceCtorEq] at h

theorem put_cases {job : JobRun} {r : RoomId} {cells : List CellId} {source document : String} :
    JobStep s t job (.resume t (.text document) o) (.readingDocument r cells source)
      (s.putCell o job r cells) := by
  unfold putCell
  split
  · rename_i uid c k hput hc hk
    obtain ⟨rest, rfl⟩ : ∃ rest, cells = c :: rest := by
      cases cells with
      | nil => cases hc
      | cons c' rest =>
          simp only [List.head?_cons, Option.some.injEq] at hc
          exact ⟨rest, by rw [hc]⟩
    dsimp only
    split
    · exact .put hput hk ‹_›
    · rename_i hledger
      refine .putForgotten hput hk rfl ?_
      have hsome := s.ledger.appendRequestUid_isSome job.jobId uid
      simp only [record] at hledger
      rw [hledger] at hsome
      simpa using hsome.symm
  · exact .putRaised (.inl ‹_›)
  · rename_i hput
    refine .putRaised (.inr ⟨rfl, ?_⟩)
    cases cells with
    | nil => exact .inl rfl
    | cons c rest =>
        right
        cases ho : o.put with
        | error error => simp_all
        | ok uid => 
            by_contra hk
            obtain ⟨k, hk⟩ := Option.ne_none_iff_exists'.mp hk
            exact hput _ _ _ ho rfl hk

theorem clientPrepared_eq (s : Server) (r : RoomId) (cells : List CellId) (client : ClientId) :
    ∃ pool, s.clientPrepared r cells client =
      ⟨{ s with pool := pool }, .readingSource r cells, false⟩ := by
  unfold clientPrepared
  split <;> exact ⟨_, rfl⟩

theorem clientReady_cases {job : JobRun} {r : RoomId} {cells : List CellId} {client : ClientId} :
    JobStep s t job (.resume t .returned o) (.clientReady r cells client)
      (s.ensureSubshell o r cells client) := by
  obtain ⟨pool, pc, hpc, hn⟩ : ∃ pool pc, PreparePc r cells client pc ∧
      s.ensureSubshell o r cells client = ⟨{ s with pool := pool }, pc, pc.isRunning⟩ := by
    unfold ensureSubshell
    split
    · obtain ⟨pool, hn⟩ := s.clientPrepared_eq r cells client
      exact ⟨pool, _, .inl rfl, hn⟩
    · split
      · exact ⟨_, _, .inr (.inl ⟨_, rfl⟩), rfl⟩
      · exact ⟨_, _, .inr (.inr ⟨_, rfl, rfl⟩), rfl⟩
  rw [hn]
  exact .clientReady hpc hn

theorem message_cases {job : JobRun} {r : RoomId} {cells : List CellId} {client : ClientId}
    {requestId : RequestId} {reply : ControlReply} {beforeDeadline : Bool} :
    JobStep s t job (.resume t (.reply reply beforeDeadline) o)
      (.subshellReply r cells client requestId)
      (s.subshellMessage r cells client requestId reply beforeDeadline) := by
  obtain ⟨pool, pc, es, hpc, hes, hn⟩ : ∃ pool pc es, PreparePc r cells client pc ∧
      (es = [] ∨ ∃ id, es = [.subshellCreated client id]) ∧
      s.subshellMessage r cells client requestId reply beforeDeadline =
        ⟨{ s with pool := pool, events := s.events ++ es }, pc, pc.isRunning⟩ := by
    have hprepared := s.clientPrepared_eq r cells client
    unfold subshellMessage
    split
    · split
      · exact ⟨s.pool, _, [], .inr (.inl ⟨requestId, rfl⟩), .inl rfl, by simp [park, Pc.isRunning]⟩
      · obtain ⟨pool, hn⟩ := hprepared
        exact ⟨pool, _, [], .inl rfl, .inl rfl, by simpa [Pc.isRunning] using hn⟩
    · exact ⟨s.pool, _, [], .inr (.inr ⟨.attribute, rfl, rfl⟩), .inl rfl, by simp [goto, Pc.isRunning]⟩
    · obtain ⟨pool, hn⟩ := hprepared
      exact ⟨pool, _, [], .inl rfl, .inl rfl, by simpa [Pc.isRunning] using hn⟩
    · rename_i id _
      let created : Server := Server.record
        { s with pool := s.pool.modify client fun c => { c with subshellId := id } }
        (.subshellCreated client id)
      obtain ⟨pool, hn⟩ :=
        created.clientPrepared_eq r cells client
      exact ⟨pool, _, _, .inl rfl, .inr ⟨id, rfl⟩, hn⟩
  rw [hn]
  exact .subshellMessage hpc hes hn

theorem stdin_cases {nb : NotebookId} {r : RoomId} {jobId : JobId} {value : String} {actor : Actor} :
    CallStep s t (.sendStdin jobId value actor) (.resume t .returned o) (.sendingInput nb r)
      (s.stdinSent o nb r jobId actor) := by
  unfold stdinSent
  dsimp only
  split
  · rename_i hr
    exact .stdinSent (.inl ⟨hr, rfl⟩)
  · rename_i hr
    exact .stdinSent (.inr ⟨hr, rfl⟩)

theorem flushed_cases {job : JobRun} {r : RoomId} {cells : List CellId} {result : ExecutionResult} :
    JobStep s t job (.resume t .returned o) (.flushing r cells result)
      (s.cellFlushed o job r cells result) := by
  unfold cellFlushed
  dsimp only
  split
  · exact .flushedError ‹_›
  · exact .flushed (Bool.eq_false_iff.mpr ‹_›)

theorem resumed_cases (h : s.resumed t op o pc answer = some n) :
    TaskStep s t op (.resume t answer o) pc n := by
  unfold resumed at h
  split at h <;> try simp only [Option.some.injEq, reduceCtorEq] at h
  all_goals try subst h
  · exact .call .begun
  · exact .call (.resolved rfl)
  · exact .call (.resolved rfl)
  · exact .ensure .adopted
  · exact .ensure .started
  · split at h <;> simp only [Option.some.injEq, reduceCtorEq] at h
    subst h
    exact .job (.woken ‹_›)
  · exact .job clientReady_cases
  · exact .job message_cases
  · exact .job .sourceRead
  · exact .job put_cases
  · exact .job .slept
  · exact .job flushed_cases
  · exact .call stdin_cases
  · exact .call .interrupted
  · exact .call .interruptedNative
  · exact .call .restarted
  · exact .stop .deleted

theorem interrupted_cases {error : PyError} (h : s.interrupted t op pc error = some n) :
    TaskStep s t op (.resume t (.raised error) o) pc n := by
  unfold interrupted at h
  split at h <;> try simp only [Option.some.injEq, reduceCtorEq] at h
  all_goals try subst h
  · exact .call (.raised (.inl rfl))
  · exact .call (.raised (.inr (.inl ⟨_, _, rfl⟩)))
  · exact .call (.raised (.inr (.inr (.inl ⟨_, rfl⟩))))
  · exact .call (.raised (.inr (.inr (.inr rfl))))
  · split at h <;> simp only [Option.some.injEq] at h <;> subst h
    · exact .ensure (.missing ‹_›)
    · exact .ensure (.loadFailed (Bool.eq_false_iff.mpr ‹_›))
  · exact .ensure .createFailed
  · split at h <;> simp only [Option.some.injEq, reduceCtorEq] at h
    subst h
    exact .job (.abandoned (Bool.eq_false_iff.mpr ‹_›))
  · exact .job (.stepRaised (.inl ⟨_, _, rfl⟩))
  · exact .job (.stepRaised (.inr (.inl ⟨_, rfl⟩)))
  · exact .job (.stepRaised (.inr (.inr (.inl ⟨_, _, rfl⟩))))
  · exact .job (.stepRaised (.inr (.inr (.inr (.inl ⟨_, _, rfl⟩)))))
  · exact .job (.stepRaised (.inr (.inr (.inr (.inr (.inl ⟨_, _, rfl⟩))))))
  · split at h <;> simp only [Option.some.injEq] at h <;> subst h
    · rename_i roomId cells client _ _ _
      obtain ⟨pool, hn⟩ := s.clientPrepared_eq roomId cells client
      rw [hn]
      exact .job (.subshellFailed ‹_› hn)
    · exact .job (.stepRaised (.inr (.inr (.inr (.inr (.inr ⟨Bool.eq_false_iff.mpr ‹_›, _, _, _, rfl⟩))))))
  · exact .stop .deleteRaised

end Inversion

/-- The kinds of step. -/
inductive StepCase (s : Server) : Label → Server → Prop
  | call {op} (hrun : s.running = none) (hop : callable op = true) :
      StepCase s (.call op) { s.spawn op with running := some s.nextTask }
  | task {t op l pc n} (ht : s.tasks t = some ⟨op, pc⟩) (h : TaskStep s t op l pc n)
      (hrun : s.running = none ∨ s.running = some t) (hmover : s.mover l = some t) :
      StepCase s l (n.commit t op)
  | outside {c} (hrun : s.running = none) : StepCase s (.outside c) (s.change c)

theorem moving_eq {s : Server} {t : TaskId} {op : Op} {pc : Pc} {l : Label}
    (hmover : s.mover l = some t) (ht : s.tasks t = some ⟨op, pc⟩) :
    s.moving l = some ⟨op, pc⟩ := by
  rw [moving, hmover]
  exact ht

theorem step_cases {s s' : Server} {l : Label} (h : s.step l = some s') : StepCase s l s' := by
  cases l with
  | call op =>
      simp only [step, Option.ite_none_right_eq_some, Option.some.injEq] at h
      obtain ⟨⟨hrun, hop⟩, rfl⟩ := h
      exact .call hrun hop
  | resume t answer o =>
      simp only [step, Option.ite_none_right_eq_some, Option.bind_eq_bind,
        Option.bind_eq_some_iff, Option.some.injEq] at h
      obtain ⟨hrun, ⟨op, pc⟩, ht, n, h, rfl⟩ := h
      refine .task ht ?_ (.inl hrun) rfl
      cases answer with
      | raised error => exact interrupted_cases h
      | returned => exact resumed_cases h
      | session session => exact resumed_cases h
      | text text => exact resumed_cases h
      | reply reply beforeDeadline => exact resumed_cases h
  | proceed o =>
      simp only [step, Option.bind_eq_bind, Option.bind_eq_some_iff, Option.some.injEq] at h
      obtain ⟨t, hrun, ⟨op, pc⟩, ht, n, h, rfl⟩ := h
      exact .task ht (advance_cases h) (.inr hrun) hrun
  | outside c =>
      simp only [step, Option.ite_none_right_eq_some, Option.some.injEq] at h
      obtain ⟨hrun, rfl⟩ := h
      exact .outside hrun

theorem StepCase.of_moving {s s' : Server} {l : Label} {op : Op} {pc : Pc} (h : StepCase s l s')
    (hmoving : s.moving l = some ⟨op, pc⟩) :
    ∃ t n, s.tasks t = some ⟨op, pc⟩ ∧ TaskStep s t op l pc n ∧ s' = n.commit t op ∧
      s.mover l = some t := by
  cases h with
  | call => cases hmoving
  | task ht h _ hmover =>
      cases hmoving.symm.trans (moving_eq hmover ht)
      exact ⟨_, _, ht, h, rfl, hmover⟩
  | outside => cases hmoving

/-! ## Back to the functions -/

theorem step_proceed {s s' : Server} {op : Op} {pc : Pc} {o : Oracle}
    (hmoving : s.moving (.proceed o) = some ⟨op, pc⟩)
    (hstep : s.step (.proceed o) = some s') :
    ∃ t n, s.tasks t = some ⟨op, pc⟩ ∧ s.advance t op o pc = some n ∧ s' = n.commit t op ∧
      s.running = some t := by
  simp only [step, Option.bind_eq_bind, Option.bind_eq_some_iff, Option.some.injEq] at hstep
  obtain ⟨t, hrun, task, ht, n, hadvance, rfl⟩ := hstep
  rw [moving, mover, hrun, Option.bind_some, ht] at hmoving
  cases hmoving
  exact ⟨t, n, ht, hadvance, rfl, hrun⟩

theorem step_resume {s s' : Server} {t : TaskId} {op : Op} {pc : Pc} {answer : Answer} {o : Oracle}
    (ht : s.tasks t = some ⟨op, pc⟩)
    (hstep : s.step (.resume t answer o) = some s') :
    ∃ n, s.resume t op o pc answer = some n ∧ s' = n.commit t op := by
  simp only [step, Option.ite_none_right_eq_some, Option.bind_eq_bind, Option.bind_eq_some_iff,
    Option.some.injEq] at hstep
  obtain ⟨-, task, ht', n, hn, rfl⟩ := hstep
  cases ht.symm.trans ht'
  exact ⟨n, hn, rfl⟩

end Server

end Hypernote
