import Hypernote.SharedNotebook
/-!
# The handlers that edit cells

What each handler takes from the path and the body of its request, and how it answers.
-/

namespace Hypernote

open Foundation

/-- The body of `NotebookCellsHandler.post`; a missing id is `None`, as is a null one. -/
structure PostBody (ι μ : Type) where
  cellType : Option String
  id : Option ι
  source : Option Chars
  /-- `metadata["hypernote"]["position_key"]` and the rest of the metadata. -/
  metadata : Option (Option String × μ)
  before : Option ι
  after : Option ι

inductive CellRequest (ι μ : Type)
  | post (body : PostBody ι μ)
  | patch (cellId : ι) (source : Option Chars)
  | delete (cellId : ι)
  | move (cellId : ι) (before after : Option ι)
  | clearOutputs (cellId : ι)

inductive HttpReason (ι : Type)
  /-- "source required". -/
  | sourceRequired
  | exc (error : ValueError ι)

inductive CellReply (ι ω μ : Type)
  | cell (status : Nat) (cell : Cell ι ω μ)
  | deleted
  | httpError (status : Nat) (reason : HttpReason ι)

/-- The answer, the cell for which `update_cell_attribution` is called, and the document. -/
structure Handled {ι ω μ : Type} (lib : YNotebook ι ω μ) where
  reply : CellReply ι ω μ
  attributed : Option (Option ι)
  ycells : List lib.YCell

section

variable {ι ω μ : Type} [EmptyCollection μ]

/-- The cell that `post` makes of the body. -/
def PostBody.cell (body : PostBody ι μ) : Cell ι ω μ where
  id := body.id
  cellType := body.cellType.getD "code"
  source := body.source.getD []
  outputs := []
  executionCount := none
  positionKey := (body.metadata.getD (none, ∅)).1
  metadata := (body.metadata.getD (none, ∅)).2

namespace YNotebook

variable (lib : YNotebook ι ω μ)

omit [EmptyCollection μ] in
/-- The end of a handler that edits one cell: a `ValueError` is answered with an error status, and
otherwise the editor of the cell is recorded. -/
def answered (errorStatus status : Nat) (cellId : Cell ι ω μ → Option ι) :
    lib.Outcome (Cell ι ω μ) → Handled lib
  | (.error error, ycells) => ⟨.httpError errorStatus (.exc error), none, ycells⟩
  | (.ok cell, ycells) => ⟨.cell status cell, some (cellId cell), ycells⟩

variable [DecidableEq ι]

/-- The handler of the request. -/
def handle (ycells : List lib.YCell) : CellRequest ι μ → Handled lib
  | .post body =>
      lib.answered 400 201 (·.id) (lib.insertCell body.cell body.before body.after ycells)
  | .patch _ none => ⟨.httpError 400 .sourceRequired, none, ycells⟩
  | .patch cellId (some source) =>
      lib.answered 400 200 (fun _ => some cellId) (lib.replaceCellSource cellId source ycells)
  | .delete cellId =>
      match lib.deleteCell cellId ycells with
      | (.error error, ycells) => ⟨.httpError 404 (.exc error), none, ycells⟩
      | (.ok (), ycells) => ⟨.deleted, none, ycells⟩
  | .move cellId before after =>
      lib.answered 400 200 (fun _ => some cellId) (lib.moveCell cellId before after ycells)
  | .clearOutputs cellId =>
      lib.answered 404 200 (fun _ => some cellId) (lib.clearOutputs cellId ycells)

/-- The document after the requests. -/
def handleAll (requests : List (CellRequest ι μ)) (ycells : List lib.YCell) : List lib.YCell :=
  requests.foldl (fun ycells request => (lib.handle ycells request).ycells) ycells

end YNotebook

end

end Hypernote
