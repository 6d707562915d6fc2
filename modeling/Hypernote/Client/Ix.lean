import Hypernote.ActorLedger
import Hypernote.CellHandlers
import Hypernote.Foundation.PyJson
/-!
# Inserting and executing cells from the command line

`ix` without `--no-wait`: the payload, the loop over its cells, and what it reports.  Nobody else
edits the notebook meanwhile, every job ends, and its cells keep their ids, types and sources.
-/

namespace Hypernote

open Foundation

/-- What identifies a cell of the document, for the command. -/
abbrev CellKey (ι : Type) := Option ι × String × Chars

def Cell.key {ι ω μ : Type} (cell : Cell ι ω μ) : CellKey ι := (cell.id, cell.cellType, cell.source)

/-- The cells by the ids of the shared cells. -/
def YNotebook.keys {ι ω μ : Type} (lib : YNotebook ι ω μ) (ycells : List lib.YCell) :
    List (CellKey ι) :=
  ycells.map fun ycell => (lib.id ycell, (lib.toPy ycell).cellType, (lib.toPy ycell).source)

namespace JobStatus

/-- `TERMINAL_STATUSES` of the command line, and the set in which `wait` and `_watch_job` end. -/
def isSettled : JobStatus → Bool
  | .succeeded | .failed | .interrupted | .awaitingInput => true
  | .queued | .running => false

/-- `FAILED_JOB_STATUSES`. -/
def isFailure : JobStatus → Bool
  | .failed | .interrupted => true
  | _ => false

/-- The set in which the loop of `ix` breaks. -/
def isHalting : JobStatus → Bool
  | .failed | .interrupted | .awaitingInput => true
  | _ => false

end JobStatus

namespace Ix

/-! ## The payload -/

/-- An id as it goes into the document.  A value that is no text is known by its `str`, and by
whether it can be hashed: the command fails on any. -/
inductive IdValue
  | text (id : PyStr)
  | other (hashable : Bool) (shown : PyStr)
  deriving DecidableEq

def IdValue.asText : IdValue → PyStr
  | .text id => id
  | .other _ _ => []

instance : NewKey IdValue where
  newKey ids := .text (longerText 45 (ids.map IdValue.asText))
  newKey_notMem _ hmem := longerText_notMem 45 _ (List.mem_map_of_mem (f := IdValue.asText) hmem)

/-- The types that `_read_cells_payload` lets pass. -/
inductive SpecType
  | code
  | markdown
  deriving DecidableEq

def SpecType.cellType : SpecType → CellType
  | .code => .code
  | .markdown => .markdown

structure CellSpec where
  cellType : SpecType
  source : PyStr
  id : PyJson

/-- `--source` or `--source-file`, and `--cells-json` or `--cells-file`. -/
inductive Input
  | source (text : PyStr)
  | cells (payload : PyJson)

/-- What Python makes of values. -/
structure Builtins extends FloatValues where
  /-- `str(x)`, where `x` is no text. -/
  shown : PyJson → PyStr
  isFinite : FloatText → Bool

namespace Builtins

variable (B : Builtins)

/-- `str(x)`. -/
def str : PyJson → PyStr
  | .str text => text
  | x => B.shown x

/-- Python's `x or y`. -/
def pyOr (x y : PyJson) : PyJson := if x.truthy B.toFloatValues then x else y

end Builtins

section

variable (B : Builtins)

/-- An item of the payload. -/
def readCellSpec (defaultCellType : String) : PyJson → Except PyStr CellSpec
  | .obj members =>
      let get key := (members.lookup (pyStr key)).getD .null
      let source := (members.lookup (pyStr "source")).elim [] B.str
      let cellType :=
        B.str (B.pyOr (get "type") (B.pyOr (get "cell_type") (.str (pyStr defaultCellType))))
      if cellType = pyStr SpecType.code.cellType.value then .ok ⟨.code, source, get "id"⟩
      else if cellType = pyStr SpecType.markdown.cellType.value then
        .ok ⟨.markdown, source, get "id"⟩
      else .error (pyStr "Unsupported cell type: " ++ cellType)
  | _ => .error (pyStr "Each cell payload must be an object")

/-- `_read_cells_payload`, with the default type that `ix` gives. -/
def readCellsPayload : Input → Except PyStr (List CellSpec)
  | .source text => .ok [⟨.code, text, .null⟩]
  | .cells (.arr items) => items.mapM (readCellSpec B "code")
  | .cells _ => .error (pyStr "Cells payload must be a JSON array")

/-- `id or _generated_cell_id()`. -/
def CellSpec.givenId (spec : CellSpec) (generatedId : String) : PyJson :=
  B.pyOr spec.id (.str (pyStr generatedId))

def idValue : PyJson → IdValue
  | .str id => .text id
  | x => .other x.hashable (B.shown x)

end

/-! ## The flags -/

structure Flags where
  json : Bool
  pretty : Bool
  human : Bool
  watch : Bool
  streamJson : Bool
  brief : Bool
  /-- `_stdout_is_tty()`. -/
  tty : Bool

inductive OutputMode
  | json
  | human
  | watchHuman
  | streamJson
  deriving DecidableEq

/-- `_watch_job` is called. -/
def OutputMode.watches : OutputMode → Bool
  | .watchHuman | .streamJson => true
  | .json | .human => false

namespace Flags

variable (flags : Flags)

/-- `_validate_brief_run_flags`. -/
def validateBriefRunFlags : Except String Unit :=
  if flags.brief && (flags.watch || flags.streamJson || flags.human) then
    .error "--brief cannot be combined with --watch, --stream-json, or --human"
  else .ok ()

/-- `_final_output_mode`. -/
def finalOutputMode : Except String OutputMode :=
  if flags.json && flags.human then .error "Choose only one of --json or --human"
  else if flags.json then .ok .json
  else if flags.human then .ok .human
  else .ok (if flags.tty then .human else .json)

/-- `_run_output_mode`. -/
def runOutputMode : Except String OutputMode :=
  if flags.streamJson && (flags.json || flags.human || flags.watch) then
    .error "--stream-json cannot be combined with --json, --human, or --watch"
  else if flags.watch && flags.json then .error "--watch cannot be combined with --json"
  else if flags.json && flags.human then .error "Choose only one of --json or --human"
  else if flags.streamJson then .ok .streamJson
  else if flags.watch then .ok .watchHuman
  else if flags.json then .ok .json
  else if flags.human then .ok .human
  else .ok (if flags.tty then .watchHuman else .json)

/-- The flags that `_run_command_output` gets: those of the command, if it has one cell. -/
def ofCell (batch : Bool) : Flags :=
  if batch then
    { flags with json := true, human := false, watch := false, streamJson := false, brief := false }
  else flags

end Flags

/-! ## Jobs and cells -/

section

variable {ω μ : Type}

/-- A job of one cell, as the command sees it. -/
structure CellJob (lib : YNotebook IdValue ω μ) where
  /-- In the answer to the request that starts it. -/
  status : JobStatus
  /-- What `refresh` reads, one time after the other. -/
  refreshed : List JobStatus
  ends : ∃ status ∈ refreshed, status.isSettled = true
  /-- What its execution makes of the document. -/
  effect : List lib.YCell → List lib.YCell
  keys_effect : ∀ ycells, lib.keys (effect ycells) = lib.keys ycells

/-- The status in which `wait` and `_watch_job` return. -/
def CellJob.waited {lib : YNotebook IdValue ω μ} (job : CellJob lib) : JobStatus :=
  (job.refreshed.find? (·.isSettled)).getD job.status

/-- The status after `_run_command_output`, which waits only where it must. -/
def CellJob.settled {lib : YNotebook IdValue ω μ} (job : CellJob lib) : JobStatus :=
  if job.status.isSettled then job.status else job.waited

/-- What is there for a cell of the payload besides what the payload says. -/
structure CellRun (lib : YNotebook IdValue ω μ) where
  generatedId : String
  job : CellJob lib

structure PlannedCell (lib : YNotebook IdValue ω μ) where
  spec : CellSpec
  run : CellRun lib

/-- The cells of the payload, in their order. -/
def plan {lib : YNotebook IdValue ω μ} (specs : List CellSpec) (runs : Nat → CellRun lib) :
    List (PlannedCell lib) :=
  specs.mapIdx fun index spec => ⟨spec, runs index⟩

namespace PlannedCell

variable {lib : YNotebook IdValue ω μ} (B : Builtins) (cell : PlannedCell lib)

def cellId : IdValue := idValue B (cell.spec.givenId B cell.run.generatedId)

/-- The source in a request that can be encoded; in it and in the id there is no lone surrogate, and
no number in the id is infinite or `NaN`. -/
def encodedSource? : Option Chars :=
  if (cell.spec.givenId B cell.run.generatedId).encodable B.isFinite then cell.spec.source.toChars?
  else none

/-- The body of the request that inserts it. -/
def body (source : Chars) (before after : Option IdValue) : PostBody IdValue μ where
  cellType := some cell.spec.cellType.cellType.value
  id := some (cell.cellId B)
  source := some source
  metadata := none
  before := before
  after := after

/-- The status with which the command goes on after the job of the cell. -/
def outcome (flags : Flags) (batch : Bool) : JobStatus :=
  if flags.brief && batch then cell.run.job.waited
  else
    match (flags.ofCell batch).runOutputMode with
    | .ok mode => if mode.watches then cell.run.job.waited else cell.run.job.settled
    | .error _ => cell.run.job.settled

end PlannedCell

/-! ## What the command does to the notebook -/

/-- The errors that click shows; its exit code is 1 then. -/
inductive ClickError
  | usage (message : PyStr)
  /-- `HypernoteError` of `_validate_position`. -/
  | positions
  | badRequest (reason : HttpReason IdValue)
  | serverError
  | cellNotFound (cellId : IdValue)

/-- How the command ends. -/
inductive Ending
  | exit (code : Nat)
  | click (error : ClickError)
  | typeError
  /-- `UnicodeEncodeError` is one. -/
  | valueError
  | indexError

/-- A request that changes the notebook, with the index of the cell that it inserts or runs. -/
inductive Act
  | inserted (index : Nat)
  | ran (index : Nat)
  deriving DecidableEq

/-- The notebook, and what has been done to it so far. -/
structure Session (lib : YNotebook IdValue ω μ) where
  ycells : List lib.YCell
  acts : List Act

/-- What a call raises, and the notebook that it leaves. -/
structure Failure (lib : YNotebook IdValue ω μ) where
  ending : Ending
  session : Session lib

/-- Whether `…/cells/{quote(cell_id)}` is routed to the handler of the cell. -/
def isRouted (cellId : PyStr) : Bool :=
  cellId ∉ ["", ".", "..", "cells", "document"].map pyStr

namespace Session

variable [EmptyCollection μ] {lib : YNotebook IdValue ω μ} (B : Builtins)
  (session : Session lib) (cell : PlannedCell lib)

/-- `_insert`.  The ledger cannot take an id that cannot be hashed. -/
def insert (before after : Option IdValue) : Except (Failure lib) (Session lib) :=
  match validatePosition before after, cell.encodedSource? B with
  | .error _, _ => .error ⟨.click .positions, session⟩
  | .ok (), none => .error ⟨.valueError, session⟩
  | .ok (), some source =>
      let handled := lib.handle session.ycells (.post (cell.body B source before after))
      let index := resolveInsertIndex (session.ycells.map lib.toPy) before after
      let session := ⟨handled.ycells, session.acts ++ [.inserted (index.toOption.getD 0)]⟩
      match handled.reply, cell.cellId B with
      | .cell _ _, .other false _ => .error ⟨.click .serverError, session⟩
      | .cell _ _, _ => .ok session
      | .httpError _ reason, _ => .error ⟨.click (.badRequest reason), ⟨handled.ycells, session.acts⟩⟩
      | .deleted, _ => .error ⟨.click .serverError, session⟩

omit [EmptyCollection μ] in
/-- `CellHandle.type`; `quote` takes a text, and a URL that is routed elsewhere finds no cell. -/
def readType (cellId : IdValue) : Except (Failure lib) (CellType × Session lib) :=
  match cellId with
  | .other _ _ => .error ⟨.typeError, session⟩
  | .text id =>
      if isRouted id then
        let (result, ycells) := lib.getCell session.ycells (some cellId)
        let session := { session with ycells := ycells }
        match result with
        | .ok cell =>
            match CellType.ofValue? cell.cellType with
            | some type => .ok (type, session)
            | none => .error ⟨.valueError, session⟩
        | .error _ => .error ⟨.click (.cellNotFound cellId), session⟩
      else .error ⟨.click (.cellNotFound cellId), session⟩

omit [EmptyCollection μ] in
/-- The execution of the first cell with the id. -/
def run : Session lib :=
  let index := lib.findYcellIndex session.ycells (cell.cellId B)
  ⟨cell.run.job.effect session.ycells,
    session.acts ++ [.ran (index.toOption.elim 0 Fin.val)]⟩

end Session

variable [EmptyCollection μ] {lib : YNotebook IdValue ω μ} (B : Builtins) (flags : Flags)

/-- A click error about the usage of the command. -/
def usageError (session : Session lib) (message : String) : Failure lib :=
  ⟨.click (.usage (pyStr message)), session⟩

omit [EmptyCollection μ] in
/-- `_run_command_output`, with the status that it leaves in the job. -/
def runCommandOutput (exitOnFailure : Bool) (session : Session lib) (cell : PlannedCell lib) :
    Except (Failure lib) (Session lib × JobStatus) := do
  flags.validateBriefRunFlags.mapError (usageError session)
  let mode ← flags.runOutputMode.mapError (usageError session)
  let status := if mode.watches then cell.run.job.waited else cell.run.job.settled
  let session ←
    if mode.watches then pure session else (session.readType (cell.cellId B)).map Prod.snd
  if exitOnFailure && status.isFailure then throw ⟨.exit 1, session⟩
  return (session, status)

/-- One turn of the loop, up to the test of the job's status. -/
def ixCell (batch : Bool) (session : Session lib) (cell : PlannedCell lib)
    (before after : Option IdValue) :
    Except (Failure lib) (Session lib × Option JobStatus) := do
  let session ← session.insert B cell before after
  let (type, session) ← session.readType (cell.cellId B)
  if type = .code then
    let session := session.run B cell
    if flags.brief && batch then return (session, some cell.run.job.waited)
    let (session, status) ← runCommandOutput B (flags.ofCell batch) (!batch) session cell
    return (session, some status)
  return (session, none)

/-- The variables of the loop. -/
structure LoopState (lib : YNotebook IdValue ω μ) where
  session : Session lib
  insertedCells : List IdValue
  finalJob : Option JobStatus
  /-- `halt_reason`, which is `None` as long as `halted_early` is false. -/
  haltReason : Option String

/-- `_halt_reason`. -/
def haltReason : JobStatus → Option String
  | .failed => some "job_failed"
  | .interrupted => some "job_interrupted"
  | .awaitingInput => some "awaiting_input"
  | _ => none

/-- The loop over the cells. -/
def loop (batch : Bool) : List (PlannedCell lib) → Option IdValue → Option IdValue →
    LoopState lib → Except (Failure lib) (LoopState lib)
  | [], _, _, state => .ok state
  | cell :: rest, before, after, state => do
      let (session, job) ← ixCell B flags batch state.session cell before after
      let state :=
        { state with
          session := session
          insertedCells := state.insertedCells ++ [cell.cellId B]
          finalJob := job <|> state.finalJob }
      match job with
      | none => loop batch rest none (some (cell.cellId B)) state
      | some status =>
          if status.isHalting then
            return { state with haltReason := if rest.isEmpty then none else haltReason status }
          else loop batch rest none (some (cell.cellId B)) state

/-! ## The report -/

structure Halt where
  haltReason : String
  lastProcessedCellId : IdValue
  cellsRemaining : Nat

/-- What is printed about more than one cell; of a result its id and its type. -/
structure BatchReport where
  status : String
  cellsInserted : Nat
  cellsTotal : Nat
  results : List (IdValue × CellType)
  halt : Option Halt

structure Result (lib : YNotebook IdValue ω μ) where
  session : Session lib
  report : Option BatchReport
  ending : Ending

omit [EmptyCollection μ] in
/-- `cell.id` and `cell.type` of every cell. -/
def readResults (session : Session lib) :
    List IdValue → Except (Failure lib) (Session lib × List (IdValue × CellType))
  | [] => .ok (session, [])
  | cellId :: cellIds => do
      let (type, session) ← session.readType cellId
      let (session, results) ← readResults session cellIds
      return (session, (cellId, type) :: results)

/-- `FAILED_JOB_STATUSES`, of the last job. -/
def jobFailed (finalJob : Option JobStatus) : Bool := finalJob.any (·.isFailure)

omit [EmptyCollection μ] in
def batchReport (total : Nat) (state : LoopState lib) (results : List (IdValue × CellType)) :
    BatchReport where
  status := if jobFailed state.finalJob then "error" else "ok"
  cellsInserted := state.insertedCells.length
  cellsTotal := total
  results := results
  halt :=
    match state.haltReason, state.insertedCells.getLast? with
    | some reason, some last => some ⟨reason, last, total - state.insertedCells.length⟩
    | _, _ => none

/-- The end of a command that has started no job. -/
def renderInserted (insertedCells : List IdValue) : Ending :=
  if flags.brief || flags.pretty then .exit 0
  else
    match flags.finalOutputMode with
    | .error message => .click (.usage (pyStr message))
    | .ok .human => if insertedCells.isEmpty then .indexError else .exit 0
    | .ok _ => .exit 0

/-- What follows the loop. -/
def conclude (total : Nat) (state : LoopState lib) : Result lib :=
  if 1 < total then
    match readResults state.session state.insertedCells with
    | .error failure => ⟨failure.session, none, failure.ending⟩
    | .ok (session, results) =>
        ⟨session, some (batchReport total state results),
          .exit (if jobFailed state.finalJob then 1 else 0)⟩
  else if state.finalJob.isSome then ⟨state.session, none, .exit 0⟩
  else
    match readResults state.session state.insertedCells with
    | .error failure => ⟨failure.session, none, failure.ending⟩
    | .ok (session, _) => ⟨session, none, renderInserted flags state.insertedCells⟩

/-- `ix_cmd`. -/
def ix (input : Input) (runs : Nat → CellRun lib) (before after : Option String)
    (ycells : List lib.YCell) : Result lib :=
  match flags.validateBriefRunFlags, readCellsPayload B input with
  | .error message, _ => ⟨⟨ycells, []⟩, none, .click (.usage (pyStr message))⟩
  | .ok (), .error message => ⟨⟨ycells, []⟩, none, .click (.usage message)⟩
  | .ok (), .ok specs =>
      let cells := plan specs runs
      match loop B flags (decide (1 < cells.length)) cells (before.map (.text ∘ pyStr))
          (after.map (.text ∘ pyStr)) ⟨⟨ycells, []⟩, [], none, none⟩ with
      | .error failure => ⟨failure.session, none, failure.ending⟩
      | .ok state => conclude flags cells.length state

end

end Ix

end Hypernote
