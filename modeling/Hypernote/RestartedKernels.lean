import Hypernote.SubshellRouting
/-!
# Kernels that are restarted by request

`KernelRestartInterceptHandler.post` restarts a kernel and then, when it has the orchestrator,
cleans up after the restart.  No restart callback fires on this path.  The client objects are those
of all kernels; a call of `ensure_subshell` keeps the client that it was given, also when the stack
has long dropped it.
-/

namespace Hypernote

/-- An `execute_request`; `subshell` is the id of its header, with the kernel and the process that
have created that subshell, `receiver` the process of the kernel that runs when it is sent. -/
structure KernelRequest where
  kernelId : KernelId
  subshell : Option (String × KernelId × ProcessId)
  receiver : ProcessId
  deriving DecidableEq, Repr

structure RestartedKernels where
  pool : ClientPool
  /-- The kernel that the client was made for. -/
  kernelOf : ClientId → KernelId
  /-- The process that has created the cached subshell. -/
  createdBy : ClientId → ProcessId
  channel : ClientId → List ControlMessage
  calls : ClientId → List EnsureCall
  /-- The process of the kernel that runs. -/
  process : KernelId → ProcessId
  /-- The kernel has been restarted, and nothing has been cleaned up since. -/
  restarted : KernelId → Bool
  requests : List KernelRequest

inductive RestartLabel
  /-- `_get_client` of the stack, by whatever calls it. -/
  | getClient (kernelId : KernelId)
  /-- `install_subshell_routing` and `register_restart_hook`. -/
  | installHooks (client : ClientId)
  /-- A call of `ensure_subshell`; `sent` says whether the control channel accepts the request. -/
  | ensure (client : ClientId) (sent : Bool)
  /-- The kernel of the client sends a message on the control channel. -/
  | reply (client : ClientId) (reply : ControlReply)
  /-- `get_msg` takes the oldest message for the call. -/
  | take (client : ClientId) (call : Nat)
  /-- The coroutine of the call goes on with the message that it has been given. -/
  | resume (client : ClientId) (call : Nat)
  /-- The call ends in a timeout or in an error of the channel. -/
  | giveUp (client : ClientId) (call : Nat)
  /-- The `restart_kernel` of a handler is done. -/
  | restarted (kernelId : KernelId)
  /-- The `cleanup_after_restart` of a handler. -/
  | cleanup (kernelId : KernelId)
  /-- The worker of the kernel calls `execute` of its client. -/
  | execute (kernelId : KernelId)
  deriving DecidableEq, Repr

/-- The client that the label is about. -/
def RestartLabel.client? : RestartLabel → Option ClientId
  | .installHooks client | .ensure client _ | .reply client _ | .take client _
  | .resume client _ | .giveUp client _ => some client
  | _ => none

namespace RestartedKernels

def start : RestartedKernels where
  pool := .empty
  kernelOf := fun _ => ""
  createdBy := fun _ => 0
  channel := fun _ => []
  calls := fun _ => []
  process := fun _ => 0
  restarted := fun _ => false
  requests := []

section

variable (s : RestartedKernels)

def getClient (kernelId : KernelId) : RestartedKernels :=
  let found := s.pool.getClient kernelId
  { s with pool := found.1, kernelOf := Function.update s.kernelOf found.2 kernelId }

def setCalls (client : ClientId) (calls : List EnsureCall) : RestartedKernels :=
  { s with calls := Function.update s.calls client calls }

/-- `ensure_subshell` up to its first await. -/
def ensureSubshell (client : ClientId) (sent : Bool) : RestartedKernels :=
  if (s.pool.clients client).subshellId.isSome then
    s.setCalls client (s.calls client ++ [.ended])
  else
    { s.setCalls client
        (s.calls client ++ [if sent then .reading s.pool.nextRequest else .ended]) with
      pool := { s.pool with nextRequest := s.pool.nextRequest + 1 } }

/-- `ensure_subshell` from a message on. -/
def readMessage (client : ClientId) (call : Nat) (request : RequestId) (message : ControlMessage) :
    RestartedKernels :=
  match readReply request message.reply with
  | .foreign => s.setCalls client ((s.calls client).set call (.reading request))
  | .malformed => s.setCalls client ((s.calls client).set call .ended)
  | .rejected => s.setCalls client ((s.calls client).set call .ended)
  | .created subshellId =>
      { s.setCalls client ((s.calls client).set call .ended) with
        pool := s.pool.modify client fun c => { c with subshellId := subshellId }
        createdBy := Function.update s.createdBy client message.sender }

/-- What the client of a kernel sends for `execute`. -/
def request (kernelId : KernelId) (client : ClientId) : KernelRequest where
  kernelId := kernelId
  subshell :=
    if (s.pool.clients client).routingInstalled then
      (s.pool.clients client).subshellId.map fun id => (id, s.kernelOf client, s.createdBy client)
    else none
  receiver := s.process kernelId

end

/-- What happens to a client that there is. -/
def clientStep (s : RestartedKernels) : RestartLabel → Option RestartedKernels
  | .installHooks client => some { s with pool := s.pool.installHooks (s.kernelOf client) client }
  | .ensure client sent => some (s.ensureSubshell client sent)
  | .reply client reply =>
      some { s with
        channel :=
          Function.update s.channel client
            (s.channel client ++ [⟨reply, s.process (s.kernelOf client)⟩]) }
  | .take client call =>
      match (s.calls client)[call]?, s.channel client with
      | some (.reading request), message :: channel =>
          some { s.setCalls client ((s.calls client).set call (.holding request message)) with
            channel := Function.update s.channel client channel }
      | _, _ => none
  | .resume client call =>
      match (s.calls client)[call]? with
      | some (.holding request message) => some (s.readMessage client call request message)
      | _ => none
  | .giveUp client call =>
      match (s.calls client)[call]? with
      | some (.reading _) | some (.holding _ _) =>
          some (s.setCalls client ((s.calls client).set call .ended))
      | _ => none
  | _ => none

def step (s : RestartedKernels) : RestartLabel → Option RestartedKernels
  | .getClient kernelId => some (s.getClient kernelId)
  | .restarted kernelId =>
      some { s with
        process := Function.update s.process kernelId (s.process kernelId + 1)
        restarted := Function.update s.restarted kernelId true }
  | .cleanup kernelId =>
      some { s with
        pool := s.pool.cleanupAfterRestart kernelId
        restarted := Function.update s.restarted kernelId false }
  | .execute kernelId =>
      (s.pool.kernelClients kernelId).map fun client =>
        { s with requests := s.requests ++ [s.request kernelId client] }
  | l =>
      if l.client?.any (· < s.pool.nextClient) then s.clientStep l else none

end RestartedKernels

end Hypernote
