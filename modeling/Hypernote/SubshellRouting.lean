import Hypernote.Subshell
import Hypernote.Foundation.Machine
/-!
# Execute requests through a subshell

One client object while its kernel is restarted: the calls of `ensure_subshell` read the control
channel together, each at its own pace, and the patched `execute` sends what is cached.  The
processes of the kernel are numbered; every reply is kept with the process that has made it.
-/

namespace Hypernote

abbrev ProcessId := Nat

/-- A message of the control channel, and the kernel process that it comes from. -/
structure ControlMessage where
  reply : ControlReply
  sender : ProcessId
  deriving DecidableEq, Repr

/-- Where a call of `ensure_subshell` is. -/
inductive EnsureCall
  /-- `client.control_channel.get_msg` has no message yet. -/
  | reading (request : RequestId)
  /-- `get_msg` has taken the message, and the coroutine has not gone on. -/
  | holding (request : RequestId) (message : ControlMessage)
  | ended
  deriving DecidableEq, Repr

/-- An `execute_request`; `subshell` is the id of its header and the process that has created that
subshell, `receiver` the process that runs when it is sent. -/
structure ExecuteRequest where
  subshell : Option (String × ProcessId)
  receiver : ProcessId
  deriving DecidableEq, Repr

structure RoutedClient where
  client : KernelClient
  /-- The process that has created the cached subshell. -/
  createdBy : ProcessId
  /-- The kernel process that runs since the latest restart callback. -/
  process : ProcessId
  channel : List ControlMessage
  calls : List EnsureCall
  nextRequest : RequestId
  requests : List ExecuteRequest
  deriving DecidableEq, Repr

inductive RoutingLabel
  | installRouting
  /-- `available` says whether the kernel manager has `add_restart_callback`. -/
  | registerRestartHook (available : Bool)
  /-- A call of `ensure_subshell`; `sent` says whether the control channel accepts the request. -/
  | ensure (sent : Bool)
  /-- The kernel sends a message on the control channel. -/
  | reply (reply : ControlReply)
  /-- `get_msg` takes the oldest message for the call. -/
  | take (call : Nat)
  /-- The coroutine of the call goes on with the message that it has been given. -/
  | resume (call : Nat)
  /-- The call ends in a timeout or in an error of the channel. -/
  | giveUp (call : Nat)
  /-- The kernel is restarted, and the registered callback fires. -/
  | restart
  | execute
  deriving DecidableEq, Repr

namespace RoutedClient

def initial : RoutedClient := ⟨.fresh, 0, 0, [], [], 0, []⟩

/-- `ensure_subshell` up to its first await. -/
def ensureSubshell (s : RoutedClient) (sent : Bool) : RoutedClient :=
  if s.client.subshellId.isSome then { s with calls := s.calls ++ [.ended] }
  else
    { s with
      calls := s.calls ++ [if sent then .reading s.nextRequest else .ended]
      nextRequest := s.nextRequest + 1 }

def setCall (s : RoutedClient) (call : Nat) (c : EnsureCall) : RoutedClient :=
  { s with calls := s.calls.set call c }

/-- `ensure_subshell` from a message on. -/
def readMessage (s : RoutedClient) (call : Nat) (request : RequestId) (message : ControlMessage) :
    RoutedClient :=
  match readReply request message.reply with
  | .foreign => s.setCall call (.reading request)
  | .malformed => s.setCall call .ended
  | .rejected => s.setCall call .ended
  | .created subshellId =>
      { s.setCall call .ended with
        client := { s.client with subshellId := subshellId }
        createdBy := message.sender }

/-- `execute_via_subshell`. -/
def executeViaSubshell (s : RoutedClient) : RoutedClient :=
  { s with
    requests :=
      s.requests ++ [⟨s.client.subshellId.map fun id => (id, s.createdBy), s.process⟩] }

/-- The restart callback of the client, and the process that follows. -/
def onRestart (s : RoutedClient) : RoutedClient :=
  { s with client := s.client.reset, process := s.process + 1 }

def step (s : RoutedClient) : RoutingLabel → Option RoutedClient
  | .installRouting => some { s with client := { s.client with routingInstalled := true } }
  | .registerRestartHook available =>
      some { s with
        client :=
          { s.client with restartHookInstalled := s.client.restartHookInstalled || available } }
  | .ensure sent => some (s.ensureSubshell sent)
  | .reply reply => some { s with channel := s.channel ++ [⟨reply, s.process⟩] }
  | .take call =>
      match s.calls[call]?, s.channel with
      | some (.reading request), message :: channel =>
          some { s.setCall call (.holding request message) with channel := channel }
      | _, _ => none
  | .resume call =>
      match s.calls[call]? with
      | some (.holding request message) => some (s.readMessage call request message)
      | _ => none
  | .giveUp call =>
      match s.calls[call]? with
      | some (.reading _) | some (.holding _ _) => some (s.setCall call .ended)
      | _ => none
  | .restart => if s.client.restartHookInstalled then some s.onRestart else none
  | .execute => if s.client.routingInstalled then some s.executeViaSubshell else none

end RoutedClient

end Hypernote
