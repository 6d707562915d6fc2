import Hypernote.ActorLedger
import Hypernote.Foundation.AsyncLock
import Mathlib.Data.Finset.Basic
/-!
# The runtime manager's registry

The synchronous parts of `RuntimeManager`: what its methods do to the registry
between two awaits.  Room objects outlive their registration (a job keeps the room
it runs on), so `heap` holds every room object ever built and `rooms` the keys of
`_rooms`, oldest first.  Room ids are handed out in order, and an object is its id.
-/

namespace Hypernote

open Foundation

abbrev KernelId := String
abbrev SessionId := String
abbrev ClientName := String
abbrev TaskId := Nat

inductive RuntimeState
  | starting
  | liveAttached
  | liveDetached
  | awaitingInput
  | stopping
  | stopped
  | failed
  deriving DecidableEq, Repr

def RuntimeState.value : RuntimeState → String
  | .starting => "starting"
  | .liveAttached => "live-attached"
  | .liveDetached => "live-detached"
  | .awaitingInput => "awaiting-input"
  | .stopping => "stopping"
  | .stopped => "stopped"
  | .failed => "failed"

/-- How an f-string shows a member. -/
def RuntimeState.format : RuntimeState → String
  | .starting => "RuntimeState.STARTING"
  | .liveAttached => "RuntimeState.LIVE_ATTACHED"
  | .liveDetached => "RuntimeState.LIVE_DETACHED"
  | .awaitingInput => "RuntimeState.AWAITING_INPUT"
  | .stopping => "RuntimeState.STOPPING"
  | .stopped => "RuntimeState.STOPPED"
  | .failed => "RuntimeState.FAILED"

/-- The set tested by `NotebookRoom.is_live`. -/
def RuntimeState.isLive : RuntimeState → Bool
  | .liveAttached | .liveDetached | .awaitingInput => true
  | .starting | .stopping | .stopped | .failed => false

/-- What a coroutine can raise.  `cancelled` is `asyncio.CancelledError`, which is
not an `Exception`. -/
inductive PyError
  | value (message : String)
  | http (status : Nat) (reason : String)
  | kernelMismatch (notebookId : NotebookId) (activeKernelName : Option String)
      (requestedKernelName : String)
  | timeout
  | attribute
  | other (message : String)
  | cancelled
  deriving DecidableEq, Repr

def PyError.isException : PyError → Bool
  | .cancelled => false
  | _ => true

/-- `web.HTTPError`. -/
def PyError.isHttp : PyError → Bool
  | .http .. => true
  | _ => false

structure NotebookRoom where
  notebookId : NotebookId
  sessionId : Option SessionId
  kernelId : Option KernelId
  kernelName : Option String
  state : RuntimeState
  lastActivity : Time
  attachedClients : Finset ClientName
  activeJobs : Finset JobId
  jobLock : AsyncLock TaskId

/-- The part of a Jupyter session model that the manager reads. -/
structure Session where
  id : SessionId
  kernelId : KernelId
  kernelName : Option String
  deriving DecidableEq, Repr

namespace NotebookRoom

def isLive (room : NotebookRoom) : Bool := room.state.isLive

/-- `NotebookRoom(room_id=…, notebook_id=…)`. -/
def fresh (notebookId : NotebookId) (now : Time) : NotebookRoom where
  notebookId := notebookId
  sessionId := none
  kernelId := none
  kernelName := none
  state := .starting
  lastActivity := now
  attachedClients := ∅
  activeJobs := ∅
  jobLock := .free

/-- The room that `_load_or_refresh_room` builds around a session it found. -/
def adopted (notebookId : NotebookId) (session : Session) (now : Time) : NotebookRoom :=
  { fresh notebookId now with
    sessionId := some session.id
    kernelId := some session.kernelId
    kernelName := session.kernelName
    state := .liveDetached }

/-- The tail of `ensure_room`, once `create_session` has returned. -/
def started (room : NotebookRoom) (session : Session) (now : Time) : NotebookRoom :=
  { room with
    sessionId := some session.id
    kernelId := some session.kernelId
    kernelName := session.kernelName
    state := .liveDetached
    lastActivity := now }

def attach (room : NotebookRoom) (client : ClientName) (now : Time) : NotebookRoom :=
  { room with
    attachedClients := insert client room.attachedClients
    state := .liveAttached
    lastActivity := now }

def detach (room : NotebookRoom) (client : ClientName) (now : Time) : NotebookRoom :=
  let clients := room.attachedClients.erase client
  { room with
    attachedClients := clients
    state := if clients = ∅ ∧ room.state = .liveAttached then .liveDetached else room.state
    lastActivity := now }

/-- The `finally` block of `stop_runtime`, the room's part. -/
def cleared (room : NotebookRoom) (now : Time) : NotebookRoom :=
  { room with
    state := .stopped
    attachedClients := ∅
    activeJobs := ∅
    lastActivity := now }

/-- The payload of `get_runtime_status`. -/
structure Status where
  state : RuntimeState
  roomId : Option RoomId
  sessionId : Option SessionId
  kernelId : Option KernelId
  kernelName : Option String
  attachedClients : Finset ClientName
  activeJobs : Finset JobId
  lastActivity : Option Time
  recoverable : Bool
  deriving DecidableEq

def statusOf (roomId : RoomId) (room : NotebookRoom) : Status where
  state := room.state
  roomId := some roomId
  sessionId := room.sessionId
  kernelId := room.kernelId
  kernelName := room.kernelName
  attachedClients := room.attachedClients
  activeJobs := room.activeJobs
  lastActivity := some room.lastActivity
  recoverable := room.isLive && room.state = .liveDetached

def statusOfNone : Status where
  state := .stopped
  roomId := none
  sessionId := none
  kernelId := none
  kernelName := none
  attachedClients := ∅
  activeJobs := ∅
  lastActivity := none
  recoverable := false

end NotebookRoom

structure RuntimeManager where
  /-- `_policy.idle_ttl_seconds`. -/
  idleTtlSeconds : Time
  heap : RoomId → NotebookRoom
  rooms : List RoomId
  notebookToRoom : NotebookId → Option RoomId
  nextRoomId : RoomId

namespace RuntimeManager

def empty (idleTtl : Time) : RuntimeManager where
  idleTtlSeconds := idleTtl
  heap := fun _ => .fresh "" 0
  rooms := []
  notebookToRoom := fun _ => none
  nextRoomId := 0

/-- `get_room_for_notebook`. -/
def roomForNotebook (m : RuntimeManager) (notebookId : NotebookId) : Option RoomId :=
  (m.notebookToRoom notebookId).filter fun roomId => roomId ∈ m.rooms

def listRuntimes (m : RuntimeManager) (notebookId : Option NotebookId) : List RoomId :=
  match notebookId with
  | none => m.rooms
  | some notebookId => m.rooms.filter fun roomId => (m.heap roomId).notebookId = notebookId

def modify (m : RuntimeManager) (roomId : RoomId) (f : NotebookRoom → NotebookRoom) :
    RuntimeManager :=
  { m with heap := Function.update m.heap roomId (f (m.heap roomId)) }

/-- Build a room object and enter it in both dictionaries. -/
def register (m : RuntimeManager) (room : NotebookRoom) : RuntimeManager :=
  { m with
    heap := Function.update m.heap m.nextRoomId room
    rooms := m.rooms ++ [m.nextRoomId]
    notebookToRoom := Function.update m.notebookToRoom room.notebookId (some m.nextRoomId)
    nextRoomId := m.nextRoomId + 1 }

/-- The two `pop`s in the `finally` block of `stop_runtime`. -/
def unregister (m : RuntimeManager) (roomId : RoomId) : RuntimeManager :=
  { m with
    rooms := m.rooms.filter fun r => r ≠ roomId
    notebookToRoom := Function.update m.notebookToRoom (m.heap roomId).notebookId none }

def touchActivity (m : RuntimeManager) (roomId : RoomId) (now : Time) : RuntimeManager :=
  if roomId ∈ m.rooms then m.modify roomId fun room => { room with lastActivity := now } else m

/-- `set_runtime_state` on a registered room; otherwise it raises. -/
def setRuntimeState (m : RuntimeManager) (roomId : RoomId) (state : RuntimeState) (now : Time) :
    RuntimeManager :=
  m.modify roomId fun room => { room with state := state, lastActivity := now }

def markJobStarted (m : RuntimeManager) (notebookId : NotebookId) (jobId : JobId) (now : Time) :
    RuntimeManager :=
  match m.roomForNotebook notebookId with
  | none => m
  | some roomId =>
      m.modify roomId fun room =>
        { room with activeJobs := insert jobId room.activeJobs, lastActivity := now }

def markJobFinished (m : RuntimeManager) (notebookId : NotebookId) (jobId : JobId) (now : Time) :
    RuntimeManager :=
  match m.roomForNotebook notebookId with
  | none => m
  | some roomId =>
      m.modify roomId fun room =>
        { room with activeJobs := room.activeJobs.erase jobId, lastActivity := now }

/-- Whether `kernel_id` is set and `kernel_id in self._kernel_manager`. -/
def kernelIsAlive (alive : KernelId → Bool) (room : NotebookRoom) : Bool :=
  room.kernelId.any alive

/-- What `_load_or_refresh_room` does to the room it finds registered. -/
def refresh (m : RuntimeManager) (alive : KernelId → Bool) (roomId : RoomId) : RuntimeManager :=
  let room := m.heap roomId
  if kernelIsAlive alive room then m
  else if room.state ≠ .stopped ∧ room.state ≠ .failed then
    m.modify roomId fun room => { room with state := .stopped }
  else m

/-- The sweep's test of one room. -/
def idle (m : RuntimeManager) (now : Time) (roomId : RoomId) : Bool :=
  let room := m.heap roomId
  room.state = .liveDetached && decide (now - room.lastActivity > m.idleTtlSeconds)

/-- The rooms that `gc_sweep` decides to stop. -/
def sweepTargets (m : RuntimeManager) (now : Time) : List RoomId := m.rooms.filter (m.idle now)

/-! ## What the operations leave alone -/

section Frame

variable {m m' m'' : RuntimeManager} {r r' : RoomId} {nb : NotebookId} {now : Time}

/-- The two registries differ in their room objects only. -/
structure Agrees (m m' : RuntimeManager) : Prop where
  idleTtlSeconds : m'.idleTtlSeconds = m.idleTtlSeconds
  rooms : m'.rooms = m.rooms
  notebookToRoom : m'.notebookToRoom = m.notebookToRoom
  nextRoomId : m'.nextRoomId = m.nextRoomId

theorem Agrees.refl (m : RuntimeManager) : m.Agrees m := ⟨rfl, rfl, rfl, rfl⟩

theorem Agrees.trans (h : m.Agrees m') (h' : m'.Agrees m'') : m.Agrees m'' :=
  ⟨h'.1.trans h.1, h'.2.trans h.2, h'.3.trans h.3, h'.4.trans h.4⟩

theorem Agrees.roomForNotebook (h : m.Agrees m') (nb : NotebookId) :
    m'.roomForNotebook nb = m.roomForNotebook nb := by
  simp only [RuntimeManager.roomForNotebook, h.rooms, h.notebookToRoom]

theorem agrees_modify (m : RuntimeManager) (r : RoomId) (f : NotebookRoom → NotebookRoom) :
    m.Agrees (m.modify r f) := ⟨rfl, rfl, rfl, rfl⟩

theorem agrees_touchActivity (m : RuntimeManager) (r : RoomId) (now : Time) :
    m.Agrees (m.touchActivity r now) := by
  unfold touchActivity
  split
  · exact agrees_modify m r _
  · exact .refl m

theorem agrees_refresh (m : RuntimeManager) (alive : KernelId → Bool) (r : RoomId) :
    m.Agrees (m.refresh alive r) := by
  unfold refresh
  dsimp only
  split
  · exact .refl m
  · split
    · exact agrees_modify m r _
    · exact .refl m

theorem agrees_markJobStarted (m : RuntimeManager) (nb : NotebookId) (jobId : JobId) (now : Time) :
    m.Agrees (m.markJobStarted nb jobId now) := by
  unfold markJobStarted
  split
  · exact .refl m
  · exact agrees_modify m _ _

theorem agrees_markJobFinished (m : RuntimeManager) (nb : NotebookId) (jobId : JobId)
    (now : Time) : m.Agrees (m.markJobFinished nb jobId now) := by
  unfold markJobFinished
  split
  · exact .refl m
  · exact agrees_modify m _ _

theorem heap_modify (m : RuntimeManager) (r : RoomId) (f : NotebookRoom → NotebookRoom)
    (r' : RoomId) : (m.modify r f).heap r' = if r' = r then f (m.heap r') else m.heap r' := by
  simp only [modify, Function.update_apply]
  split
  · rename_i h
    rw [h]
  · rfl

theorem heap_touchActivity (m : RuntimeManager) (r : RoomId) (now : Time) (r' : RoomId) :
    ∃ now', (m.touchActivity r now).heap r' = { m.heap r' with lastActivity := now' } := by
  unfold touchActivity
  split
  · rw [heap_modify]
    split <;> exact ⟨_, rfl⟩
  · exact ⟨_, rfl⟩

theorem roomForNotebook_eq_some :
    m.roomForNotebook nb = some r ↔ m.notebookToRoom nb = some r ∧ r ∈ m.rooms := by
  simp [roomForNotebook, Option.filter_eq_some_iff]

end Frame

end RuntimeManager

def notFound (roomId : RoomId) : PyError := .value s!"Room {roomId} not found"

end Hypernote
