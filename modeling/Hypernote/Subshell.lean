import Hypernote.RuntimeManager
/-!
# Subshell state of a kernel client

The three attributes Hypernote keeps on a `jupyter_client` client object, and how
`ensure_subshell` reads one message of the control channel.  Client objects are
numbered in the order in which they are built, as are the create requests.
-/

namespace Hypernote

abbrev ClientId := Nat
abbrev RequestId := Nat

structure KernelClient where
  /-- `_hypernote_subshell_id`; unset and `None` read the same. -/
  subshellId : Option String
  /-- `_hypernote_routing_installed`. -/
  routingInstalled : Bool
  /-- `_hypernote_restart_hook_installed`. -/
  restartHookInstalled : Bool
  deriving DecidableEq, Repr

namespace KernelClient

def fresh : KernelClient := ⟨none, false, false⟩

/-- `reset_subshell_state`. -/
def reset (c : KernelClient) : KernelClient := { c with subshellId := none }

end KernelClient

/-- A member of a message that may be missing or null. -/
inductive MessagePart (α : Type)
  | absent
  | null
  | object (a : α)
  deriving DecidableEq, Repr

structure ReplyContent where
  status : Option String
  /-- Outer `none`: the key is absent. -/
  subshellId : Option (Option String)
  deriving DecidableEq, Repr

structure ControlReply where
  /-- The parent's `msg_id`. -/
  parentHeader : MessagePart (Option RequestId)
  content : MessagePart ReplyContent
  deriving DecidableEq, Repr

/-- What `ensure_subshell` makes of one message. -/
inductive ReplyVerdict
  | foreign
  | malformed
  | rejected
  | created (subshellId : Option String)
  deriving DecidableEq, Repr

def readReplyContent : MessagePart ReplyContent → ReplyVerdict
  | .absent => .rejected
  | .null => .malformed
  | .object c =>
      match c.subshellId with
      | none => .rejected
      | some subshellId => if c.status = some "ok" then .created subshellId else .rejected

def readReply (requestId : RequestId) (reply : ControlReply) : ReplyVerdict :=
  match reply.parentHeader with
  | .absent => .foreign
  | .null => .malformed
  | .object msgId =>
      if msgId = some requestId then readReplyContent reply.content else .foreign

/-- The client objects, which of them the execution stack caches for a kernel, and
whose restart callback is registered with the kernel manager. -/
structure ClientPool where
  clients : ClientId → KernelClient
  kernelClients : KernelId → Option ClientId
  restartHooks : KernelId → List ClientId
  nextClient : ClientId
  nextRequest : RequestId

namespace ClientPool

def empty : ClientPool where
  clients := fun _ => .fresh
  kernelClients := fun _ => none
  restartHooks := fun _ => []
  nextClient := 0
  nextRequest := 0

/-- nbmodel's `_get_client`: the cached client of a kernel, or a new one. -/
def getClient (p : ClientPool) (kernelId : KernelId) : ClientPool × ClientId :=
  match p.kernelClients kernelId with
  | some client => (p, client)
  | none =>
      ({ p with
          clients := Function.update p.clients p.nextClient .fresh
          kernelClients := Function.update p.kernelClients kernelId (some p.nextClient)
          nextClient := p.nextClient + 1 },
        p.nextClient)

def modify (p : ClientPool) (client : ClientId) (f : KernelClient → KernelClient) : ClientPool :=
  { p with clients := Function.update p.clients client (f (p.clients client)) }

/-- `install_subshell_routing` and `register_restart_hook`. -/
def installHooks (p : ClientPool) (kernelId : KernelId) (client : ClientId) : ClientPool :=
  { p.modify client fun c => { c with routingInstalled := true, restartHookInstalled := true } with
    restartHooks :=
      if (p.clients client).restartHookInstalled then p.restartHooks
      else Function.update p.restartHooks kernelId (p.restartHooks kernelId ++ [client]) }

/-- The kernel manager fires the callbacks of a kernel. -/
def fireRestartHooks (p : ClientPool) (kernelId : KernelId) : ClientPool :=
  { p with
    clients := fun client =>
      if client ∈ p.restartHooks kernelId then (p.clients client).reset else p.clients client }

/-- `cleanup_after_restart`. -/
def cleanupAfterRestart (p : ClientPool) (kernelId : KernelId) : ClientPool :=
  match p.kernelClients kernelId with
  | none => p
  | some client =>
      { p.modify client fun _ => .fresh with
        kernelClients := Function.update p.kernelClients kernelId none }

/-- `_interrupt_via_subshell`: the client and subshell that the snippet was sent to.
`client` says whether `_get_client` succeeds, `sent` whether the channel accepts the
snippet. -/
def interruptViaSubshell (p : ClientPool) (client sent : Bool) :
    Option KernelId → ClientPool × Option (ClientId × String)
  | none => (p, none)
  | some kernelId =>
      if client then
        let found := p.getClient kernelId
        (found.1,
          if sent then ((found.1.clients found.2).subshellId).map fun id => (found.2, id) else none)
      else (p, none)

end ClientPool

end Hypernote
