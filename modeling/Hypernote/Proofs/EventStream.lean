import Hypernote.Client.EventStream
import Hypernote.Proofs.WatchEvents
/-!
# Reading the stream of events

A program that reads the lines of `--stream-json` while the job runs has at any moment some first
part of them.  From that it gets the first events, each as it was built, and the event that ends the
stream only when there is nothing left to read.
-/

namespace Hypernote

open Foundation

namespace Watch

variable {δ : Type} {jobId notebookPath : String} {outputJson : Output δ → Json}

/-! ## One event -/

theorem eventFields_nodup (payload : Payload δ) :
    ((eventFields jobId notebookPath outputJson payload).map Prod.fst).Nodup := by
  change ["event", "job_id", "notebook_path", "cell_id", "status", "text", "output"].Nodup
  decide

theorem get?_eventJson (payload : Payload δ) (key : String) :
    (eventJson jobId notebookPath outputJson payload).get? key =
      ((eventFields jobId notebookPath outputJson payload).lookup key).join :=
  Json.lookup_present (eventFields_nodup payload) key

theorem uniqueKeys_eventJson (houtput : ∀ o, (outputJson o).UniqueKeys) (payload : Payload δ) :
    (eventJson jobId notebookPath outputJson payload).UniqueKeys := by
  have hstr : ∀ s : String, (Json.str s).UniqueKeys := fun _ => trivial
  apply Json.uniqueKeys_present (eventFields_nodup payload)
  simp only [eventFields, List.forall_mem_cons, Option.mem_def, Option.some.injEq,
    Option.map_eq_some_iff]
  refine ⟨?_, ?_, ?_, ?_, ?_, ?_, ?_, List.forall_mem_nil _⟩
  · rintro _ rfl
    exact hstr _
  · rintro _ rfl
    exact hstr _
  · rintro _ rfl
    exact hstr _
  · rintro _ ⟨_, -, rfl⟩
    exact hstr _
  · rintro _ ⟨_, -, rfl⟩
    exact hstr _
  · rintro _ ⟨_, -, rfl⟩
    exact hstr _
  · rintro _ ⟨o, -, rfl⟩
    exact houtput o

theorem value_eq_iff : ∀ event event' : EventType, event.value = event'.value ↔ event = event' := by
  intro event event'
  constructor
  · cases event <;> cases event' <;> decide
  · exact congrArg _

theorem isEvent_eventJson (event : EventType) (payload : Payload δ) :
    isEvent event (eventJson jobId notebookPath outputJson payload) =
      decide (payload.event = event) := by
  rw [isEvent, get?_eventJson]
  exact decide_eq_decide.mpr (value_eq_iff payload.event event)

theorem endsStream_eventJson (payload : Payload δ) :
    endsStream (eventJson jobId notebookPath outputJson payload) = isFinal payload := by
  rw [endsStream, isEvent_eventJson, isEvent_eventJson, isEvent_eventJson, isFinal]
  cases payload.event <;> rfl

/-- The event has an output of the cell. -/
def isOutputOf (cellId : CellId) (payload : Payload δ) : Bool :=
  payload.event = .outputDelta ∧ payload.cellId = some cellId

theorem isDelta_eventJson (cellId : CellId) (payload : Payload δ) :
    isDelta cellId (eventJson jobId notebookPath outputJson payload) =
      isOutputOf cellId payload := by
  have hcell : (eventJson jobId notebookPath outputJson payload).get? "cell_id" =
      payload.cellId.map .str := get?_eventJson payload "cell_id"
  rw [isDelta, isEvent_eventJson, hcell, isOutputOf, Bool.decide_and]
  congr 1
  cases payload.cellId with
  | none => rfl
  | some c => exact decide_eq_decide.mpr Option.some_inj.symm

theorem text_eventJson (payload : Payload δ) :
    ((eventJson jobId notebookPath outputJson payload).get? "text").elim [] Json.text =
      payload.text.getD [] := by
  have htext : (eventJson jobId notebookPath outputJson payload).get? "text" =
      payload.text.map fun text => .str (String.ofList text) := get?_eventJson payload "text"
  rw [htext]
  cases payload.text with
  | none => rfl
  | some text => exact String.toList_ofList

variable (jobId notebookPath) in
theorem output_eventJson (payload : Payload δ) :
    (eventJson jobId notebookPath outputJson payload).get? "output" =
      payload.output.map outputJson :=
  get?_eventJson payload "output"

/-! ## All events -/

theorem written_eq (events : List (Event δ)) :
    written jobId notebookPath outputJson events =
      Json.writeLines ((payloads events).map (eventJson jobId notebookPath outputJson)) := by
  induction events with
  | nil => rfl
  | cons e events ih =>
      rw [written, List.flatMap_cons, ← written, ih]
      cases e <;> rfl

theorem filter_isDelta (cellId : CellId) (ps : List (Payload δ)) :
    (ps.map (eventJson jobId notebookPath outputJson)).filter (isDelta cellId) =
      (ps.filter (isOutputOf cellId)).map (eventJson jobId notebookPath outputJson) := by
  rw [List.filter_map]
  exact congrArg _ (List.filter_congr fun payload _ => isDelta_eventJson cellId payload)

theorem streamedText_eq (cellId : CellId) (events : List (Event δ)) :
    streamedText cellId events =
      ((payloads events).filter (isOutputOf cellId)).flatMap fun p => p.text.getD [] := by
  induction events with
  | nil => rfl
  | cons e events ih =>
      rw [streamedText, List.flatMap_cons, ← streamedText, ih]
      cases e with
      | began => rfl
      | read => rfl
      | emitted p =>
          by_cases hp : p.event = .outputDelta ∧ p.cellId = some cellId <;>
            simp [payloads, Event.payload?, isOutputOf, hp]

theorem emittedOutputs_eq (cellId : CellId) (events : List (Event δ)) :
    emittedOutputs cellId events =
      ((payloads events).filter (isOutputOf cellId)).filterMap Payload.output := by
  rw [payloads, List.filterMap_filter, List.filterMap_filterMap]
  apply List.filterMap_congr
  intro e _
  cases e with
  | began => rfl
  | read => rfl
  | emitted p => simp [Event.payload?, isOutputOf]

theorem cellText_events (cellId : CellId) (events : List (Event δ)) :
    cellText cellId ((payloads events).map (eventJson jobId notebookPath outputJson)) =
      streamedText cellId events := by
  rw [cellText, filter_isDelta, List.flatMap_map, streamedText_eq]
  exact congrArg (List.flatMap · _) (funext text_eventJson)

theorem cellOutputs_events (cellId : CellId) (events : List (Event δ)) :
    cellOutputs cellId ((payloads events).map (eventJson jobId notebookPath outputJson)) =
      (emittedOutputs cellId events).map outputJson := by
  rw [cellOutputs, filter_isDelta, List.filterMap_map, emittedOutputs_eq, List.map_filterMap]
  exact List.filterMap_congr fun payload _ =>
    output_eventJson jobId notebookPath payload

/-- The text and the outputs that a reader has of a cell when it has read everything. -/
theorem reader_of_all (cellId : CellId) (events : List (Event δ)) :
    cellText cellId ((payloads events).map (eventJson jobId notebookPath outputJson)) =
        streamedText cellId events ∧
      cellOutputs cellId ((payloads events).map (eventJson jobId notebookPath outputJson)) =
        (emittedOutputs cellId events).map outputJson :=
  ⟨cellText_events cellId events, cellOutputs_events cellId events⟩

/-! ## The end of the stream -/

variable [DecidableEq δ] {printable : Char → Bool} {w : Watch} {s : State δ} {status : JobStatus}

/-- What a call has written is what its options leave in of the stream it has built. -/
theorem exists_filtered (h : Run (w.step printable) anyStep (w.start status) s) :
    ∃ u, Run (w.unfiltered.step printable) anyStep (w.unfiltered.start status) u ∧
      w.filtered u = s := by
  induction h with
  | refl => exact ⟨_, .refl, start_filtered status⟩
  | tail _ _ hstep ih =>
      obtain ⟨u, hu, rfl⟩ := ih
      rw [step_filtered, Option.map_eq_some_iff] at hstep
      obtain ⟨u', hstep, heq⟩ := hstep
      exact ⟨u', .tail hu trivial hstep, heq⟩

omit [DecidableEq δ] in
theorem payloads_filtered (u : State δ) :
    payloads (w.filtered u).events = (payloads u.events).filter w.writes := by
  rw [filtered, payloads, payloads, List.filterMap_filter, List.filter_filterMap]
  apply List.filterMap_congr
  intro e _
  cases e with
  | began => rfl
  | read => rfl
  | emitted p => rfl

omit [DecidableEq δ] in
/-- The event that ends the stream is written. -/
theorem writes_of_isFinal (hmode : w.mode = .streamJson) {payload : Payload δ}
    (h : isFinal payload = true) : w.writes payload = true := by
  rw [isFinal] at h
  rw [writes, hmode]
  revert h
  cases payload.event <;> simp [isFinalType]

/-- An event that ends the stream is written when the loop returns, and nothing after it. -/
theorem stream_ends (hmode : w.mode = .streamJson)
    (h : Run (w.step printable) anyStep (w.start status) s) :
    (s.point ≠ .returned → ∀ p ∈ payloads s.events, isFinal p = false) ∧
      (s.point = .returned → EndsOnce (fun p => isFinal p = true) (payloads s.events)) := by
  obtain ⟨u, hu, rfl⟩ := exists_filtered h
  have hstream := stream_run hu
  rw [payloads_filtered]
  constructor
  · intro hpoint p hp
    exact hstream.goesOn hpoint p (List.mem_of_mem_filter hp)
  · intro hpoint
    exact (hstream.ends hpoint).filter fun p => writes_of_isFinal hmode

/-- At any moment, and however the loop goes on or ends, a reader that has some first part of what
is written has the first events in it as they were built.  It has an event that ends the stream
only when it has everything, and the loop has returned; and then it has the text and the outputs of
every cell. -/
theorem stream_read_back (houtput : ∀ o, (outputJson o).UniqueKeys) (hmode : w.mode = .streamJson)
    (h : Run (w.step printable) anyStep (w.start status) s) {text : List Char}
    (htext : text <+: written jobId notebookPath outputJson s.events) :
    ∃ values, Json.readLines text = some values ∧
      values = ((payloads s.events).take (text.count '\n')).map
        (eventJson jobId notebookPath outputJson) ∧
      ((∃ x ∈ values, endsStream x = true) ↔
        s.point = .returned ∧ text = written jobId notebookPath outputJson s.events) ∧
      (text = written jobId notebookPath outputJson s.events → ∀ cellId,
        cellText cellId values = streamedText cellId s.events ∧
          cellOutputs cellId values = (emittedOutputs cellId s.events).map outputJson) := by
  rw [written_eq] at htext ⊢
  have hunique : ∀ x ∈ (payloads s.events).map (eventJson jobId notebookPath outputJson),
      x.UniqueKeys := by
    intro x hx
    obtain ⟨payload, -, rfl⟩ := List.mem_map.mp hx
    exact uniqueKeys_eventJson houtput payload
  have hall := Json.eq_writeLines_iff htext
  rw [List.length_map] at hall
  obtain ⟨hgoesOn, hends⟩ := stream_ends hmode h
  refine ⟨_, Json.readLines_prefix hunique htext, List.map_take.symm, ?_, ?_⟩
  · rw [hall, ← List.map_take]
    simp only [List.mem_map, exists_exists_and_eq_and, endsStream_eventJson]
    by_cases hpoint : s.point = .returned
    · rw [(hends hpoint).exists_take_iff]
      exact (and_iff_right hpoint).symm
    · refine iff_of_false ?_ fun hand => hpoint hand.1
      rintro ⟨p, hp, hfinal⟩
      rw [hgoesOn hpoint p (List.mem_of_mem_take hp)] at hfinal
      cases hfinal
  · intro heq cellId
    rw [List.take_of_length_le (by simpa using hall.mp heq)]
    exact reader_of_all cellId s.events

section Schedule

/-- A job of one cell, watched with `--stream-json`. -/
private def streamedWatch : Watch := ⟨.streamJson, .events, ["c"], [], false⟩

private def stdoutOf (text : String) : Output Unit :=
  ⟨"stream", some "stdout", some (.string text.toList), ()⟩

private def streamJson (o : Output Unit) : Json := .obj [("output_type", .str o.outputType)]

/-- The cell prints two lines, one before each of two reads. -/
private def twoReads : List (Label Unit) :=
  [.begins "c", .refreshed .running, .outputs [stdoutOf "1\n"], .settles, .slept,
    .refreshed .succeeded, .outputs [stdoutOf "1\n2\n"], .settles]

/-- The reader of the whole stream has both lines, and has seen the end. -/
theorem printed_lines_read_back :
    ∃ (s : State Unit) (values : List Json),
      Json.readLines (written "1" "a.ipynb" streamJson s.events) = some values ∧
        cellText "c" values = "1\n2\n".toList ∧ ∃ x ∈ values, endsStream x = true := by
  obtain ⟨s, hrun, hpoint, htext⟩ :=
    @exists_run_of_exec _ _ (streamedWatch.step fun _ => true) (streamedWatch.start .queued)
      twoReads
      (fun s => s.point = .returned ∧ streamedText "c" s.events = "1\n2\n".toList) _ (by decide)
  obtain ⟨values, hread, -, hends, hall⟩ :=
    @stream_read_back _ "1" "a.ipynb" streamJson _ _ _ _ _
      (fun _ => ⟨List.nodup_singleton _, trivial, trivial⟩) rfl hrun _ List.prefix_rfl
  exact ⟨s, values, hread, (hall rfl "c").1.trans htext, hends.mpr ⟨hpoint, rfl⟩⟩

end Schedule

end Watch

end Hypernote
