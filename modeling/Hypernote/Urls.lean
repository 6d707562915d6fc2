import Hypernote.Foundation.Percent
import Hypernote.Foundation.PyJson
import Hypernote.Foundation.PyText
/-!
# From the SDK's requests to the handlers

The path that the SDK puts together, the routes of the extension, and what a handler takes from the
groups that its route captures.  A path is the list of its segments.
-/

namespace Hypernote

open Foundation

/-- The requests of the SDK about a notebook and its cells. -/
inductive NotebookRequest (α : Type := Chars)
  | document
  | runtime
  | runtimeOpen
  | runtimeStop
  | execute
  | interrupt
  | cells
  | cell (cellId : α)
  | moveCell (cellId : α)
  | clearOutputs (cellId : α)

inductive Handler
  | notebookDocument
  | notebookCells
  | notebookCell
  | notebookCellMove
  | notebookCellClearOutputs
  | execute
  | runtimeStatus
  | runtimeOpen
  | runtimeStop
  | interrupt
  | cellAttribution
  deriving DecidableEq

/-! ## The SDK -/

/-- `/hypernote/api/notebooks/`. -/
def notebooksRoot : List Chars := ["hypernote".toList, "api".toList, "notebooks".toList]

/-- What follows the notebook in the path. -/
def NotebookRequest.segments : NotebookRequest → List Chars
  | .document => ["document".toList]
  | .runtime => ["runtime".toList]
  | .runtimeOpen => ["runtime".toList, "open".toList]
  | .runtimeStop => ["runtime".toList, "stop".toList]
  | .execute => ["execute".toList]
  | .interrupt => ["interrupt".toList]
  | .cells => ["cells".toList]
  | .cell cellId => ["cells".toList, Percent.quote cellId]
  | .moveCell cellId => ["cells".toList, Percent.quote cellId, "move".toList]
  | .clearOutputs cellId => ["cells".toList, Percent.quote cellId, "clear-outputs".toList]

/-- The path of the request, with `_quote_path`. -/
def requestPath (path : Chars) (request : NotebookRequest) : List Chars :=
  notebooksRoot ++ Percent.quote path :: request.segments

/-- `params` of `list_jobs`. -/
def listJobsParam (notebookId : PyStr) : Option PyStr :=
  if notebookId = [] then none else some notebookId

/-- The request with its cell id as a text that can be encoded: `quote` raises where there is a
lone surrogate. -/
def NotebookRequest.encode? : NotebookRequest PyStr → Option NotebookRequest
  | .document => some .document
  | .runtime => some .runtime
  | .runtimeOpen => some .runtimeOpen
  | .runtimeStop => some .runtimeStop
  | .execute => some .execute
  | .interrupt => some .interrupt
  | .cells => some .cells
  | .cell cellId => (PyStr.toChars? cellId).map .cell
  | .moveCell cellId => (PyStr.toChars? cellId).map .moveCell
  | .clearOutputs cellId => (PyStr.toChars? cellId).map .clearOutputs

/-! ## The way to the server -/

/-- The segments put out so far, and the next one. -/
def putSegment (out : List Chars) (segment : Chars) : List Chars :=
  if segment = ['.'] then out
  else if segment = ['.', '.'] then out.dropLast
  else out ++ [segment]

/-- Drop `.` segments, and `..` segments with the segment before them. -/
def removeDotSegments (segments : List Chars) : List Chars := segments.foldl putSegment []

/-- What httpx and Tornado do with the path of a URL. -/
structure Web where
  /-- The path that httpx sends. -/
  sentPath : List Chars → List Chars
  /-- The text that Tornado hands over for a captured group. -/
  pathArgument : Chars → Chars

/-- httpx sends quoted segments as they are, once the dot segments are removed, and Tornado
percent-decodes each group once. -/
structure Web.Lawful (web : Web) : Prop where
  sentPath_eq : ∀ segments : List Chars, (∀ s ∈ segments, ∃ text, s = Percent.quote text) →
    web.sentPath segments = removeDotSegments segments
  pathArgument_eq : ∀ s text, Percent.unquoteToBytes s = utf8Encode text →
    web.pathArgument s = text

/-- What httpx and Tornado do with a value of the query. -/
structure Query where
  /-- The value of `params` as httpx writes it. -/
  written : Chars → Chars
  /-- The value as Tornado reads it, before `get_argument` hands it over. -/
  read : Chars → Chars

/-- Tornado percent-decodes each value of the query once. -/
structure Query.Lawful (query : Query) : Prop where
  read_written : ∀ value, query.read (query.written value) = value

/-- The control characters that `get_argument` does not hand over. -/
def isControlChar (c : Char) : Bool := c.toNat ≤ 8 || 14 ≤ c.toNat && c.toNat ≤ 31

/-- `get_argument`, of the value that was read: each control character becomes a space, and the
white space at the ends is stripped. -/
def getArgument (value : Chars) : Chars :=
  PyText.strip (value.map fun c => if isControlChar c then ' ' else c)

/-! ## The server -/

/-- A segment of a route after the notebook: a text, or `(?P<cell_id>[^/]+)`. -/
inductive Piece
  | text (s : Chars)
  | cellId
  deriving DecidableEq

/-- The routes that begin with `/hypernote/api/notebooks/(?P<notebook_id>.+)`, in their order. -/
def routes : List (List Piece × Handler) :=
  [([.text "document".toList], .notebookDocument),
    ([.text "cells".toList], .notebookCells),
    ([.text "cells".toList, .cellId], .notebookCell),
    ([.text "cells".toList, .cellId, .text "move".toList], .notebookCellMove),
    ([.text "cells".toList, .cellId, .text "clear-outputs".toList], .notebookCellClearOutputs),
    ([.text "execute".toList], .execute),
    ([.text "runtime".toList], .runtimeStatus),
    ([.text "runtime".toList, .text "open".toList], .runtimeOpen),
    ([.text "runtime".toList, .text "stop".toList], .runtimeStop),
    ([.text "interrupt".toList], .interrupt),
    ([.text "cells".toList, .cellId, .text "attribution".toList], .cellAttribution)]

/-- The cell id that the end of a route captures. -/
def matchPieces : List Piece → List Chars → Option (Option Chars)
  | [], [] => some none
  | .text s :: pieces, segment :: segments =>
      if segment = s then matchPieces pieces segments else none
  | .cellId :: pieces, segment :: segments =>
      if segment = [] then none else (matchPieces pieces segments).map fun _ => some segment
  | _, _ => none

/-- What a route captures of the segments after `notebooks/`: `.+` goes over all segments but those
of the end. -/
def matchRoute (pieces : List Piece) (segments : List Chars) : Option (Chars × Option Chars) :=
  let count := segments.length - pieces.length
  let notebookId := ['/'].intercalate (segments.take count)
  if notebookId = [] then none
  else (matchPieces pieces (segments.drop count)).map fun cellId => (notebookId, cellId)

/-- The handler of the first route that matches, and the captured groups. -/
def dispatch : List Chars → Option (Handler × Chars × Option Chars)
  | hypernote :: api :: notebooks :: segments =>
      if [hypernote, api, notebooks] = notebooksRoot then
        routes.findSome? fun route =>
          (matchRoute route.1 segments).map fun groups => (route.2, groups)
      else none
  | _ => none

/-- `decode_notebook_id`. -/
def decodeNotebookId (notebookId : Chars) : Chars := Percent.unquote notebookId

/-- The handler that gets the request, with the notebook and the cell it operates on. -/
def operatesOn (web : Web) (path : Chars) (request : NotebookRequest) :
    Option (Handler × Chars × Option Chars) :=
  (dispatch (web.sentPath (requestPath path request))).map fun (handler, notebookId, cellId) =>
    (handler, decodeNotebookId (web.pathArgument notebookId), cellId.map web.pathArgument)

/-- The same for a call of the SDK, of which the path and the cell id are strings of Python;
nothing where quoting one of them raises, or where no route matches. -/
def callOperatesOn (web : Web) (path : PyStr) (request : NotebookRequest PyStr) :
    Option (Handler × PyStr × Option PyStr) := do
  let chars ← path.toChars?
  let encoded ← request.encode?
  let (handler, notebookId, cellId) ← operatesOn web chars encoded
  return (handler, PyStr.ofChars notebookId, cellId.map PyStr.ofChars)

/-- The notebook whose jobs `JobsHandler.get` lists for `list_jobs`; nothing where httpx cannot
encode the path. -/
def listedNotebook (query : Query) (notebookId : PyStr) : Option PyStr := do
  let value ← listJobsParam notebookId
  let chars ← value.toChars?
  return PyStr.ofChars (decodeNotebookId (getArgument (query.read (query.written chars))))

end Hypernote
