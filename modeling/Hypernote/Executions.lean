import Hypernote.CellHandlers
import Hypernote.Foundation.Machine
/-!
# Executions of cells beside their edits

One notebook whose cells are edited by requests and executed by jobs: the document, what the ledger
holds of the cells, and the job that has the lock of the notebook's room.  Beside them is kept how
often every cell has been inserted and who has executed it last since then.
-/

namespace Hypernote

open Foundation

/-- A cell that the kernel runs; `insertion` tells which of the cells of this id it is. -/
structure CellExecution where
  cellId : CellId
  insertion : Nat
  deriving DecidableEq

/-- The job in `_run_job`, and the cells that it has still to run. -/
structure RunningJob where
  actor : Actor
  rest : List CellId
  execution : Option CellExecution
  deriving DecidableEq

/-- The notebook; `insertions` and `executions` are no part of the program's state. -/
structure AttributedNotebook {ω μ : Type} (lib : YNotebook CellId ω μ) where
  ycells : List lib.YCell
  ledger : MemoryLedger
  job : Option RunningJob
  insertions : CellId → Nat
  /-- Who has executed the cell last since it was inserted last. -/
  executions : CellId → Option Actor

inductive NotebookLabel (μ : Type)
  | request (actor : Actor) (request : CellRequest CellId μ) (now : Time)
  | startJob (actor : Actor) (cellIds : List CellId)
  /-- The job puts its next cell into the stack, or ends: there is none, or it is not found. -/
  | nextCell
  /-- The result of the cell arrives; `failed` says whether it is an error, `saved` whether
  `flush_document` returns. -/
  | endCell (failed saved : Bool) (now : Time)
  /-- Another call of `_run_job` raises. -/
  | jobRaises

namespace MemoryLedger

/-- The last executor that the ledger reports, with its type. -/
def executorOf (l : MemoryLedger) (notebookId : NotebookId) (cellId : CellId) :
    Option (String × Option String) :=
  (l.getCellAttribution notebookId cellId).bind fun attr =>
    attr.lastExecutorId.map fun executorId => (executorId, attr.lastExecutorType)

def setEditor (l : MemoryLedger) (notebookId : NotebookId) (cellId : CellId) (editor : Actor)
    (now : Time) : MemoryLedger :=
  l.updateCellAttribution notebookId cellId
    ⟨some editor.actorId, some editor.actorType, none, none⟩ now

def setExecutor (l : MemoryLedger) (notebookId : NotebookId) (cellId : CellId) (executor : Actor)
    (now : Time) : MemoryLedger :=
  l.updateCellAttribution notebookId cellId
    ⟨none, none, some executor.actorId, some executor.actorType⟩ now

end MemoryLedger

/-- How the ledger reports the actor. -/
def Actor.credit (actor : Actor) : String × Option String :=
  (actor.actorId, some actor.actorType.value)

namespace AttributedNotebook

variable {ω μ : Type} {lib : YNotebook CellId ω μ}

def initial (ycells : List lib.YCell) (maxCompleted : Int) : AttributedNotebook lib :=
  ⟨ycells, .empty maxCompleted, none, fun _ => 0, fun _ => none⟩

/-- The id of the cell that the request inserts into the document. -/
def insertedId (lib : YNotebook CellId ω μ) (ycells : List lib.YCell) :
    CellRequest CellId μ → Option CellId
  | .post body =>
      match validatePosition body.before body.after,
        resolveInsertIndex (ycells.map lib.toPy) body.before body.after with
      | .ok _, .ok _ => body.id
      | _, _ => none
  | _ => none

/-- A cell is inserted; it has not been executed yet. -/
def noteInsertion (s : AttributedNotebook lib) : Option CellId → AttributedNotebook lib
  | none => s
  | some cellId =>
      { s with
        insertions := Function.update s.insertions cellId (s.insertions cellId + 1)
        executions := Function.update s.executions cellId none }

/-- An execution has come to its end; it counts if the cell has not been inserted again. -/
def noteExecution (s : AttributedNotebook lib) (execution : CellExecution) (actor : Actor) :
    AttributedNotebook lib :=
  if s.insertions execution.cellId = execution.insertion then
    { s with executions := Function.update s.executions execution.cellId (some actor) }
  else s

variable (notebookId : NotebookId) [EmptyCollection μ]

/-- The handler of the request. -/
def serve (s : AttributedNotebook lib) (actor : Actor) (request : CellRequest CellId μ)
    (now : Time) : AttributedNotebook lib :=
  let handled := lib.handle s.ycells request
  { s.noteInsertion (insertedId lib s.ycells request) with
    ycells := handled.ycells
    ledger :=
      match handled.attributed with
      | some (some cellId) => s.ledger.setEditor notebookId cellId actor now
      | _ => s.ledger }

def step (s : AttributedNotebook lib) : NotebookLabel μ → Option (AttributedNotebook lib)
  | .request actor request now => some (s.serve notebookId actor request now)
  | .startJob actor cellIds =>
      if s.job.isNone then some { s with job := some ⟨actor, cellIds, none⟩ } else none
  | .nextCell =>
      match s.job with
      | some ⟨_, [], none⟩ => some { s with job := none }
      | some ⟨actor, cellId :: rest, none⟩ =>
          if some cellId ∈ s.ycells.map lib.id then
            some { s with job := some ⟨actor, rest, some ⟨cellId, s.insertions cellId⟩⟩ }
          else some { s with job := none }
      | _ => none
  | .endCell failed saved now =>
      match s.job with
      | some ⟨actor, rest, some execution⟩ =>
          some
            (if saved then
              { s.noteExecution execution actor with
                ledger := s.ledger.setExecutor notebookId execution.cellId actor now
                job := if failed then none else some ⟨actor, rest, none⟩ }
            else { s.noteExecution execution actor with job := none })
      | _ => none
  | .jobRaises => if s.job.isSome then some { s with job := none } else none

end AttributedNotebook

end Hypernote
