import Hypernote.Foundation.PyJson
import Hypernote.Subshell
/-!
# A call of `ensure_subshell`

The call as a whole: the cached id, the request, and the loop over whatever the control channel
brings.  What the channel brings is any JSON; a message that `ensure_subshell` cannot read is one on
which `dict.get` raises.
-/

namespace Hypernote

open Foundation

namespace SubshellCall

/-- What `get_msg` comes to in the time that is left. -/
inductive Received
  | reply (reply : PyJson)
  /-- `asyncio.TimeoutError`. -/
  | timedOut
  /-- Any other exception. -/
  | failed

/-- A turn of the loop: what `time.monotonic` is at its test, and what `get_msg` comes to then. -/
structure Turn (τ : Type) where
  clock : τ
  received : Received

/-- What the loop makes of one message. -/
inductive Reading
  | foreign
  | rejected
  | created (subshellId : PyJson)

/-- The lines from the content of a reply on; `none` is the `AttributeError` of a value that has no
`get`. -/
def readContent (content : PyJson) : Option Reading := do
  let status ← content.get "status"
  if status.any (·.isStr (pyStr "ok")) then
    return ((← content.get "subshell_id").elim .rejected .created)
  else
    return .rejected

/-- The body of the loop from a message on. -/
def readMessage (requestId : PyStr) (reply : PyJson) : Option Reading := do
  let parentHeader ← reply.get "parent_header"
  let msgId ← (parentHeader.getD (.obj [])).get "msg_id"
  if msgId.any (·.isStr requestId) then
    readContent ((← reply.get "content").getD (.obj []))
  else
    return .foreign

/-- How the loop ends. -/
inductive LoopEnd
  | raised
  | fallsBack
  | created (subshellId : PyJson)

/-- What a call leaves behind. -/
structure Result where
  /-- The value that is returned, `None` as `null`; nothing if the call raises. -/
  returned : Option PyJson
  /-- `_hypernote_subshell_id`; unset and `None` read the same. -/
  cached : PyJson
  /-- How often `control_channel.send` is called. -/
  sent : Nat

variable {τ : Type} [LinearOrder τ]

/-- The `while` loop.  Where no turn is left, no message comes any more, and `get_msg` times out. -/
def readLoop (deadline : τ) (requestId : PyStr) : List (Turn τ) → LoopEnd
  | [] => .fallsBack
  | turn :: turns =>
      if turn.clock < deadline then
        match turn.received with
        | .timedOut => .fallsBack
        | .failed => .fallsBack
        | .reply reply =>
            match readMessage requestId reply with
            | none => .raised
            | some .foreign => readLoop deadline requestId turns
            | some .rejected => .fallsBack
            | some (.created subshellId) => .created subshellId
      else .fallsBack

/-- `ensure_subshell`.  The request is the id of the message that `session.msg` makes, or nothing if
it raises; `sends` says whether the control channel accepts it. -/
def ensureSubshell (deadline : τ) (cached : PyJson) (request : Option PyStr) (sends : Bool)
    (turns : List (Turn τ)) : Result :=
  match cached with
  | .null =>
      match request with
      | none => ⟨none, .null, 0⟩
      | some requestId =>
          if sends then
            match readLoop deadline requestId turns with
            | .raised => ⟨none, .null, 1⟩
            | .fallsBack => ⟨some .null, .null, 1⟩
            | .created subshellId => ⟨some subshellId, subshellId, 1⟩
          else ⟨none, .null, 1⟩
  | subshellId => ⟨some subshellId, subshellId, 0⟩

end SubshellCall

/-! ## The messages of the server's model -/

namespace ReplyContent

/-- The content as it is read from the channel. -/
def toDict (content : ReplyContent) : PyJson :=
  .obj ((content.status.elim [] fun s => [(pyStr "status", .str (pyStr s))]) ++
    content.subshellId.elim [] fun id =>
      [(pyStr "subshell_id", id.elim .null fun s => .str (pyStr s))])

end ReplyContent

/-- A member of a dict, or none of it. -/
def MessagePart.toMembers {α : Type} (key : String) (toDict : α → PyJson) :
    MessagePart α → List (PyStr × PyJson)
  | .absent => []
  | .null => [(pyStr key, .null)]
  | .object a => [(pyStr key, toDict a)]

/-- The reply as it is read from the channel, where the requests have these ids. -/
def ControlReply.toDict (msgId : RequestId → PyStr) (reply : ControlReply) : PyJson :=
  .obj (reply.parentHeader.toMembers "parent_header" (fun id =>
      .obj (id.elim [] fun id => [(pyStr "msg_id", .str (msgId id))])) ++
    reply.content.toMembers "content" ReplyContent.toDict)

end Hypernote
