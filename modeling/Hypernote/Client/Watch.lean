import Hypernote.Foundation.Machine
import Hypernote.Notebook
/-!
# Watching a job

`_watch_job` of the command line: a loop that reads the status of the job and then the outputs of
each of its cells, and emits what is new in them.  Every read is a request of its own, so the job
may begin a cell between any two of them.
-/

namespace Hypernote

open Foundation

/-- An output of a cell: the members that the watcher reads, and the others. -/
structure Output (δ : Type) where
  outputType : String
  name : Option String
  text : Option MultilineString
  rest : δ
  deriving DecidableEq

namespace Output

variable {δ : Type}

def isStream (o : Output δ) : Bool := o.outputType = "stream"

/-- `str(output.get("text", ""))`. -/
def textStr (printable : Char → Bool) (o : Output δ) : Chars := o.text.elim [] (·.str printable)

def joinedText (o : Output δ) : Chars := o.text.elim [] MultilineString.joined

end Output

/-- An item of `_output_deltas`: a new stream output with the rest of a text, or an output as it
was read. -/
inductive Delta (δ : Type)
  | suffix (name : Option String) (text : Chars)
  | output (o : Output δ)

/-- The events that `_watch_job` emits. -/
inductive EventType
  | cellInserted
  | jobStarted
  | cellStarted
  | outputDelta
  | awaitingInput
  | cellCompleted
  | jobCompleted
  | jobFailed
  deriving DecidableEq

/-- What `_event` builds; the job's id and path are the same in every event. -/
structure Payload (δ : Type) where
  event : EventType
  cellId : Option CellId
  status : Option JobStatus
  text : Option Chars
  output : Option (Output δ)
  deriving DecidableEq

inductive Mode
  | streamJson
  | watchHuman
  deriving DecidableEq

inductive Progress
  | quiet
  | events
  | full
  deriving DecidableEq

/-- The arguments of `_watch_job`. -/
structure Watch where
  mode : Mode
  progress : Progress
  jobCellIds : List CellId
  insertedCellIds : List CellId
  /-- A timeout is given. -/
  hasDeadline : Bool

namespace Watch

/-- Where the loop is. -/
inductive Point
  /-- `job.refresh()`. -/
  | refreshing
  /-- The loop over the cells: the read of the first of them, or the end of the loop. -/
  | reading (cells : List CellId)
  /-- `cell.execution_count`. -/
  | counting (cellId : CellId) (cells : List CellId)
  /-- The test of the deadline, and `time.sleep`. -/
  | waiting
  | returned
  | raised
  deriving DecidableEq

/-- What has happened, oldest first; nothing in the code reads it. -/
inductive Event (δ : Type)
  /-- The job has begun to execute the cell. -/
  | began (cellId : CellId)
  | read (cellId : CellId) (outputs : List (Output δ))
  | emitted (payload : Payload δ)
  deriving DecidableEq

structure State (δ : Type) where
  point : Point
  /-- `job.status`. -/
  status : JobStatus
  seenOutputs : CellId → List (Output δ)
  startedCells : List CellId
  events : List (Event δ)

/-- What the requests of the loop produce, and what happens besides. -/
inductive Label (δ : Type)
  | begins (cellId : CellId)
  | refreshed (status : JobStatus)
  /-- `notebook.cells[cell_id]` raises `CellNotFoundError`. -/
  | missing
  | outputs (outputs : List (Output δ))
  | executionCount (count : Option Int)
  /-- The loop over the cells is over. -/
  | settles
  | slept
  | timedOut
  /-- A request raises anything else. -/
  | failed

section Deltas

variable {δ : Type} [DecidableEq δ] (printable : Char → Bool)

/-- What `_output_deltas` appends for one position. -/
def outputDelta (prev curr : Output δ) : Option (Delta δ) :=
  let prevText := prev.textStr printable
  let currText := curr.textStr printable
  if prev.isStream ∧ curr.isStream ∧ prev.name = curr.name then
    if prevText.isPrefixOf currText ∧ currText ≠ prevText then
      some (.suffix curr.name (currText.drop prevText.length))
    else if curr ≠ prev then some (.output curr)
    else none
  else if curr ≠ prev then some (.output curr)
  else none

/-- `_output_deltas`. -/
def outputDeltas (previous current : List (Output δ)) : List (Delta δ) :=
  (previous.zip current).filterMap (fun pair => outputDelta printable pair.1 pair.2) ++
    (current.drop (min previous.length current.length)).map .output

/-- The event for one item of `_output_deltas`. -/
def deltaPayload (cellId : CellId) : Delta δ → Payload δ
  | .suffix _ text => ⟨.outputDelta, some cellId, none, some text, none⟩
  | .output o =>
      if o.isStream then ⟨.outputDelta, some cellId, none, some (o.textStr printable), none⟩
      else ⟨.outputDelta, some cellId, none, none, some o⟩

end Deltas

variable {δ : Type} (w : Watch)

/-- `_emit_human_event` writes something.  An output always has members. -/
def humanEventEchoes (payload : Payload δ) : Bool :=
  if w.progress = .quiet ∧ payload.event ∉ [.jobCompleted, .jobFailed, .awaitingInput] then false
  else
    match payload.event with
    | .cellStarted | .cellCompleted => w.progress = .full
    | .outputDelta => payload.text.getD [] ≠ [] || payload.output.isSome
    | _ => true

/-- An event that `--progress quiet` leaves in. -/
def emit (payload : Payload δ) : List (Event δ) :=
  match w.mode with
  | .streamJson => [.emitted payload]
  | .watchHuman => if w.humanEventEchoes payload then [.emitted payload] else []

/-- An event that `--progress quiet` leaves out. -/
def emitProgress (payload : Payload δ) : List (Event δ) :=
  match w.mode with
  | .streamJson => if w.progress ≠ .quiet then [.emitted payload] else []
  | .watchHuman => if w.humanEventEchoes payload then [.emitted payload] else []

/-- `tuple(job.cell_ids or inserted)`. -/
def cellIds : List CellId := if w.jobCellIds = [] then w.insertedCellIds else w.jobCellIds

/-- The lines before the loop, for a job whose status was last read as given. -/
def start (status : JobStatus) : State δ where
  point := .refreshing
  status := status
  seenOutputs := fun _ => []
  startedCells := []
  events :=
    w.insertedCellIds.flatMap (fun cellId => w.emit ⟨.cellInserted, some cellId, none, none, none⟩) ++
      w.emitProgress ⟨.jobStarted, none, some status, none, none⟩

variable (s : State δ)

def record (events : List (Event δ)) : State δ := { s with events := s.events ++ events }

/-- The first half of the loop's body: the cell is noted as started. -/
def cellStarted (cellId : CellId) : State δ :=
  { record s (w.emitProgress ⟨.cellStarted, some cellId, none, none, none⟩) with
    startedCells := cellId :: s.startedCells }

/-- The second half of the loop's body. -/
def cellRead [DecidableEq δ] (printable : Char → Bool) (cellId : CellId)
    (outputs : List (Output δ)) (rest : List CellId) : State δ :=
  { record s (.read cellId outputs ::
      (outputDeltas printable (s.seenOutputs cellId) outputs).flatMap fun delta =>
        w.emitProgress (deltaPayload printable cellId delta)) with
    seenOutputs := Function.update s.seenOutputs cellId outputs
    point := .reading rest }

/-- The lines after the loop over the cells. -/
def settle : State δ :=
  if s.status = .awaitingInput then
    { record s (w.emit ⟨.awaitingInput, none, some s.status, none, none⟩) with point := .returned }
  else if s.status.isTerminal then
    let completed :=
      if w.progress = .full then
        w.cellIds.flatMap fun cellId => w.emit ⟨.cellCompleted, some cellId, none, none, none⟩
      else []
    let event := if s.status = .succeeded then EventType.jobCompleted else .jobFailed
    { record s (completed ++ w.emit ⟨event, none, some s.status, none, none⟩) with
      point := .returned }
  else { s with point := .waiting }

def step [DecidableEq δ] (printable : Char → Bool) (s : State δ) : Label δ → Option (State δ)
  | .begins cellId => some (record s [.began cellId])
  | .refreshed status =>
      if s.point = .refreshing then some { s with status := status, point := .reading w.cellIds }
      else none
  | .missing =>
      match s.point with
      | .reading (_ :: rest) => some { s with point := .reading rest }
      | _ => none
  | .outputs outputs =>
      match s.point with
      | .reading (cellId :: rest) =>
          if cellId ∈ s.startedCells then some (w.cellRead s printable cellId outputs rest)
          else if outputs ≠ [] then
            some (w.cellRead (w.cellStarted s cellId) printable cellId outputs rest)
          else some { s with point := .counting cellId rest }
      | _ => none
  | .executionCount count =>
      match s.point with
      | .counting cellId rest =>
          if count ≠ none ∨ s.status = .running then
            some (w.cellRead (w.cellStarted s cellId) printable cellId [] rest)
          else some (w.cellRead s printable cellId [] rest)
      | _ => none
  | .settles => if s.point = .reading [] then some (w.settle s) else none
  | .slept => if s.point = .waiting then some { s with point := .refreshing } else none
  | .timedOut =>
      if s.point = .waiting ∧ w.hasDeadline then some { s with point := .raised } else none
  | .failed =>
      match s.point with
      | .refreshing | .reading (_ :: _) | .counting _ _ => some { s with point := .raised }
      | _ => none

end Watch

end Hypernote
