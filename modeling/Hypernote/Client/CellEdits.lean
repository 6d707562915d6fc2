import Hypernote.ActorLedger
import Hypernote.CellHandlers
import Hypernote.Foundation.JsonValue
import Hypernote.Urls
/-!
# Editing cells from a client

The methods of `CellCollection` and `CellHandle` that edit a document: what they send, how the
handlers read it, and what comes back.  The same server has the documents of many notebooks, and
many clients edit them.
-/

namespace Hypernote

open Foundation

inductive Method
  | get
  | post
  | put
  | patch
  | delete
  deriving DecidableEq

/-- What `_request` sends to the extension. -/
structure HttpRequest where
  method : Method
  /-- The segments of the path, quoted. -/
  segments : List Chars
  /-- `X-Hypernote-Actor-Id`. -/
  actorId : Chars
  /-- `X-Hypernote-Actor-Type`. -/
  actorType : Chars
  jsonBody : Option Json

/-- What httpx and Tornado do with a request. -/
structure HttpWeb extends Web where
  /-- The value of a header as it arrives. -/
  header : Chars → Chars
  /-- The text of a body. -/
  body : Json → Chars

/-- Printable ASCII, without a blank at either end. -/
def IsHeaderText (value : Chars) : Prop :=
  (∀ c ∈ value, 32 ≤ c.toNat ∧ c.toNat < 127) ∧ value.head? ≠ some ' ' ∧
    value.getLast? ≠ some ' '

instance (value : Chars) : Decidable (IsHeaderText value) :=
  @instDecidableAnd _ _ (List.decidableBAll _ value) inferInstance

/-- Such a header arrives as it is, and a body is the JSON of its value. -/
structure HttpWeb.Lawful (web : HttpWeb) : Prop extends web.toWeb.Lawful where
  header_eq : ∀ value, IsHeaderText value → web.header value = value
  loads_body : ∀ x : Json, x.UniqueKeys → Json.loads (web.body x) = some x
  body_ne : ∀ x, web.body x ≠ []

/-! ## The client -/

/-- The methods that edit a document; `insert` is `_insert`, with the id that `_generated_cell_id`
makes. -/
inductive EditMethod
  | insert (cellType : CellType) (source : Chars) (id : Option Chars) (generated : Chars)
      (before after : Option Chars)
  | replace (cellId source : Chars)
  | delete (cellId : Chars)
  | move (cellId : Chars) (before after : Option Chars)
  | clearOutputs (cellId : Chars)

/-- The actor of a `_Config`. -/
structure ClientActor where
  actorId : Chars
  actorType : Chars

/-- `id or _generated_cell_id()`. -/
def givenOrGenerated (id : Option Chars) (generated : Chars) : Chars :=
  if id.getD [] = [] then generated else id.getD []

def textJson (text : Chars) : Json := .str (String.ofList text)

/-- A string or `None`. -/
def optionalJson (text : Option Chars) : Json := text.elim .null textJson

namespace EditMethod

/-- The cell that the method is about. -/
def cellId : EditMethod → Chars
  | .insert _ _ id generated _ _ => givenOrGenerated id generated
  | .replace cellId _ | .delete cellId | .move cellId _ _ | .clearOutputs cellId => cellId

/-- `before` and `after`. -/
def positions : EditMethod → Option Chars × Option Chars
  | .insert _ _ _ _ before after | .move _ before after => (before, after)
  | _ => (none, none)

def method : EditMethod → Method
  | .insert _ _ _ _ _ _ | .move _ _ _ | .clearOutputs _ => .post
  | .replace _ _ => .patch
  | .delete _ => .delete

/-- The path that the method requests. -/
def path : EditMethod → NotebookRequest
  | .insert _ _ _ _ _ _ => .cells
  | .replace cellId _ | .delete cellId => .cell cellId
  | .move cellId _ _ => .moveCell cellId
  | .clearOutputs cellId => .clearOutputs cellId

def jsonBody : EditMethod → Option Json
  | .insert cellType source id generated before after =>
      some (.obj
        [("id", textJson (givenOrGenerated id generated)), ("cell_type", .str cellType.value),
          ("source", textJson source), ("before", optionalJson before),
          ("after", optionalJson after)])
  | .replace _ source => some (.obj [("source", textJson source)])
  | .delete _ => none
  | .move _ before after =>
      some (.obj [("before", optionalJson before), ("after", optionalJson after)])
  | .clearOutputs _ => some (.obj [])

/-- The request for the notebook, unless `_validate_position` raises. -/
def request (notebook : Chars) (actor : ClientActor) (m : EditMethod) : Option HttpRequest :=
  if m.positions.1.isSome ∧ m.positions.2.isSome then none
  else some ⟨m.method, requestPath notebook m.path, actor.actorId, actor.actorType, m.jsonBody⟩

end EditMethod

/-! ## The handlers -/

/-- `get_json_body`. -/
def getJsonBody (body : Chars) : Json :=
  if body = [] then .obj [] else (Json.loads body).getD (.obj [])

/-- `get_actor`. -/
def getActor (actorId actorType : Chars) : Actor :=
  ⟨String.ofList actorId, if actorType = "agent".toList then .agent else .human⟩

section Body

variable (body : Json) (key : String)

/-- `body.get(key)`, with the outer `none` for a member that is no string. -/
def bodyText? : Option (Option Chars) :=
  match body.get? key with
  | none => some none
  | some (.str s) => some (some s.toList)
  | some _ => none

/-- `body.get(key)`, with the outer `none` for a member that is neither a string nor null. -/
def bodyOptional? : Option (Option Chars) :=
  match body.get? key with
  | none | some .null => some none
  | some (.str s) => some (some s.toList)
  | some _ => none

end Body

section

variable {ω μ : Type} (readMetadata : Json → Option (Option String × μ))

/-- What `NotebookCellsHandler.post` takes from its body; `none` for members of other types. -/
def postBody? (body : Json) : Option (PostBody Chars μ) := do
  let cellType ← bodyText? body "cell_type"
  let id ← bodyOptional? body "id"
  let source ← bodyText? body "source"
  let metadata ← (body.get? "metadata").elim (some none) fun x => (readMetadata x).map some
  let before ← bodyOptional? body "before"
  let after ← bodyOptional? body "after"
  return ⟨cellType.map String.ofList, id, source, metadata, before, after⟩

/-- What the handlers that edit cells take from a request; `none` for the other handlers and
methods. -/
def cellRequest? (method : Method) (handler : Handler) (cellId : Option Chars) (body : Json) :
    Option (CellRequest Chars μ) :=
  match method, handler, cellId with
  | .post, .notebookCells, none => (postBody? readMetadata body).map .post
  | .patch, .notebookCell, some cellId => (bodyText? body "source").map (.patch cellId)
  | .delete, .notebookCell, some cellId => some (.delete cellId)
  | .post, .notebookCellMove, some cellId => do
      let before ← bodyOptional? body "before"
      let after ← bodyOptional? body "after"
      return .move cellId before after
  | .post, .notebookCellClearOutputs, some cellId => some (.clearOutputs cellId)
  | _, _, _ => none

/-- A call of `update_cell_attribution` by a handler. -/
structure Edited where
  notebook : Chars
  cellId : Option Chars
  editor : Actor

/-- The documents of the server, and the attributions that the handlers have recorded. -/
structure Workspace (lib : YNotebook Chars ω μ) where
  ycells : Chars → List lib.YCell
  edited : List Edited

/-- The status of an answer. -/
def CellReply.status : CellReply Chars ω μ → Nat
  | .cell status _ => status
  | .deleted => 200
  | .httpError status _ => status

/-- `response.is_success`. -/
def isSuccess (status : Nat) : Bool := 200 ≤ status ∧ status < 300

variable [EmptyCollection μ] (web : HttpWeb) {lib : YNotebook Chars ω μ} (s : Workspace lib)

/-- The status of the answer to the request, and what the request leaves. -/
def serve (request : HttpRequest) : Option (Nat × Workspace lib) := do
  let (handler, notebookId, cellId) ← dispatch (web.sentPath request.segments)
  let notebook := decodeNotebookId (web.pathArgument notebookId)
  let body := getJsonBody (request.jsonBody.elim [] web.body)
  let cellRequest ←
    cellRequest? readMetadata request.method handler (cellId.map web.pathArgument) body
  let handled := lib.handle (s.ycells notebook) cellRequest
  let editor := getActor (web.header request.actorId) (web.header request.actorType)
  return (handled.reply.status,
    { ycells := Function.update s.ycells notebook handled.ycells
      edited :=
        s.edited ++ handled.attributed.toList.map fun cellId => ⟨notebook, cellId, editor⟩ })

/-- A method of the client: whether it returns (or raises), and what it leaves. -/
def EditMethod.call (notebook : Chars) (actor : ClientActor) (m : EditMethod) :
    Option (Bool × Workspace lib) :=
  match m.request notebook actor with
  | none => some (false, s)
  | some request =>
      (serve readMetadata web s request).map fun (status, s) => (isSuccess status, s)

/-- A method that is called on a notebook's handle. -/
structure SdkCall where
  notebook : Chars
  actor : ClientActor
  method : EditMethod

/-- The calls of all clients, one after the other: which of them return, and what they leave. -/
def serveAll : List SdkCall → Workspace lib → Option (List Bool × Workspace lib)
  | [], s => some ([], s)
  | call :: calls, s => do
      let (returned, s) ← call.method.call readMetadata web s call.notebook call.actor
      let (results, s) ← serveAll calls s
      return (returned :: results, s)

end

end Hypernote
