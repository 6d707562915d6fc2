import Hypernote.Foundation.Machine
/-!
# The rooms of the documents

`SharedNotebookAccessor.get_document_room` as its calls run in one event loop.  The server of the
rooms belongs to the collaboration extension, which adds and deletes rooms of its own.
-/

namespace Hypernote

/-- An entry of `server.rooms`; a room is known by when it was made. -/
structure YRoom where
  index : Nat
  isDocumentRoom : Bool
  deriving DecidableEq

/-- Where a call of `get_document_room` is. -/
inductive OpenPc (ρ : Type)
  /-- `await server.started.wait()`. -/
  | waitingStarted (roomId : ρ)
  /-- `await server.get_room(room_id)`, which has found the room. -/
  | gettingRoom (roomId : ρ) (room : YRoom)
  /-- `await server.start_room(room)` with the room that the call has made. -/
  | startingRoom (roomId : ρ) (room : Nat)
  /-- `await room.initialize()`. -/
  | initializing (roomId : ρ) (room : Nat)
  | returned (roomId : ρ) (room : Nat)
  | raised (roomId : ρ)
  deriving DecidableEq

/-- The server of the rooms, and the calls in the order in which they were made. -/
structure RoomServer (ρ : Type) where
  /-- `server.started.is_set()`. -/
  started : Bool
  /-- The tasks that run `server.start()`. -/
  starts : Nat
  rooms : ρ → Option YRoom
  made : Nat
  calls : List (OpenPc ρ)

inductive RoomLabel (ρ : Type)
  | call (roomId : ρ)
  | serverStarted
  | wake (call : Nat)
  | gotRoom (call : Nat)
  | roomStarted (call : Nat)
  | initialized (call : Nat)
  /-- What the call awaits raises. -/
  | fail (call : Nat)
  /-- The collaboration extension adds a room, or deletes the one that is there. -/
  | addRoom (roomId : ρ) (isDocumentRoom : Bool)
  | deleteRoom (roomId : ρ)

namespace RoomServer

variable {ρ : Type} [DecidableEq ρ]

def start : RoomServer ρ := ⟨false, 0, fun _ => none, 0, []⟩

/-- What follows `server.started.wait()`, up to the next await. -/
def findRoom (s : RoomServer ρ) (roomId : ρ) : RoomServer ρ × OpenPc ρ :=
  match s.rooms roomId with
  | some room => (s, .gettingRoom roomId room)
  | none => ({ s with made := s.made + 1 }, .startingRoom roomId s.made)

/-- `get_document_room` up to its first await. -/
def getDocumentRoom (s : RoomServer ρ) (roomId : ρ) : RoomServer ρ × OpenPc ρ :=
  if s.started then s.findRoom roomId
  else ({ s with starts := s.starts + 1 }, .waitingStarted roomId)

/-- What follows `server.get_room(room_id)`. -/
def gotRoom (roomId : ρ) (room : YRoom) : OpenPc ρ :=
  if room.isDocumentRoom then .initializing roomId room.index
  else .raised roomId -- "Room {room_id} is not a DocumentRoom"

/-- `server.add_room(room_id, room)`. -/
def addRoom (s : RoomServer ρ) (roomId : ρ) (room : YRoom) : RoomServer ρ :=
  { s with rooms := Function.update s.rooms roomId (some room) }

def setCall (s : RoomServer ρ) (call : Nat) (pc : OpenPc ρ) : RoomServer ρ :=
  { s with calls := s.calls.set call pc }

def step (s : RoomServer ρ) : RoomLabel ρ → Option (RoomServer ρ)
  | .call roomId =>
      let (s, pc) := s.getDocumentRoom roomId
      some { s with calls := s.calls ++ [pc] }
  | .serverStarted => if 0 < s.starts then some { s with started := true } else none
  | .wake call =>
      match s.calls[call]? with
      | some (.waitingStarted roomId) =>
          if s.started then
            let (s, pc) := s.findRoom roomId
            some (s.setCall call pc)
          else none
      | _ => none
  | .gotRoom call =>
      match s.calls[call]? with
      | some (.gettingRoom roomId room) => some (s.setCall call (gotRoom roomId room))
      | _ => none
  | .roomStarted call =>
      match s.calls[call]? with
      | some (.startingRoom roomId room) =>
          some ((s.addRoom roomId ⟨room, true⟩).setCall call (.initializing roomId room))
      | _ => none
  | .initialized call =>
      match s.calls[call]? with
      | some (.initializing roomId room) => some (s.setCall call (.returned roomId room))
      | _ => none
  | .fail call =>
      match s.calls[call]? with
      | some (.gettingRoom roomId _) | some (.startingRoom roomId _)
      | some (.initializing roomId _) => some (s.setCall call (.raised roomId))
      | _ => none
  | .addRoom roomId isDocumentRoom =>
      some { s.addRoom roomId ⟨s.made, isDocumentRoom⟩ with made := s.made + 1 }
  | .deleteRoom roomId => some { s with rooms := Function.update s.rooms roomId none }

end RoomServer

end Hypernote
