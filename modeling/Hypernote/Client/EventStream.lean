import Hypernote.Client.Watch
import Hypernote.Foundation.JsonLines
/-!
# The stream of events

What `_watch_job` writes with `--stream-json`: each event as an object on a line of its own, which
another program reads while the job runs.
-/

namespace Hypernote

open Foundation

def EventType.value : EventType → String
  | .cellInserted => "cell_inserted"
  | .jobStarted => "job_started"
  | .cellStarted => "cell_started"
  | .outputDelta => "output_delta"
  | .awaitingInput => "awaiting_input"
  | .cellCompleted => "cell_completed"
  | .jobCompleted => "job_completed"
  | .jobFailed => "job_failed"

namespace Watch

/-! ## The writer -/

section Writer

variable {δ : Type} (jobId notebookPath : String) (outputJson : Output δ → Json)

/-- The members of an event, in the order of `_event`. -/
def eventFields (payload : Payload δ) : List (String × Option Json) :=
  [("event", some (.str payload.event.value)), ("job_id", some (.str jobId)),
    ("notebook_path", some (.str notebookPath)), ("cell_id", payload.cellId.map .str),
    ("status", payload.status.map fun status => .str status.value),
    ("text", payload.text.map fun text => .str (String.ofList text)),
    ("output", payload.output.map outputJson)]

/-- `_event`. -/
def eventJson (payload : Payload δ) : Json :=
  .obj (Json.present (eventFields jobId notebookPath outputJson payload))

/-- `_emit_stream_json`; `click.echo` ends the line. -/
def emitStreamJson (payload : Payload δ) : List Char :=
  (eventJson jobId notebookPath outputJson payload).writeChars .compact ++ ['\n']

/-- What has been written when these things have happened. -/
def written (events : List (Event δ)) : List Char :=
  events.flatMap fun
    | .emitted payload => emitStreamJson jobId notebookPath outputJson payload
    | _ => []

end Writer

/-! ## A reader -/

/-- The event that the line of this value stands for. -/
def isEvent (event : EventType) (x : Json) : Bool :=
  (x.get? "event").any fun value => value.isStr event.value

/-- The event is one of those with which a job leaves the watch. -/
def endsStream (x : Json) : Bool :=
  isEvent .awaitingInput x || isEvent .jobCompleted x || isEvent .jobFailed x

section Reader

variable (cellId : CellId)

/-- The value is that of an output of the cell. -/
def isDelta (x : Json) : Bool :=
  isEvent .outputDelta x && (x.get? "cell_id").any fun value => value.isStr cellId

/-- The stream text of the cell, put together. -/
def cellText (values : List Json) : Chars :=
  (values.filter (isDelta cellId)).flatMap fun x => (x.get? "text").elim [] Json.text

/-- The other outputs of the cell. -/
def cellOutputs (values : List Json) : List Json :=
  (values.filter (isDelta cellId)).filterMap (·.get? "output")

end Reader

end Watch

end Hypernote
