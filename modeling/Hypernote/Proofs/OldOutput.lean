import Hypernote.Foundation.Histories
import Hypernote.Proofs.WatchedOutput
/-!
# Output from an earlier run

The watcher takes a cell for started when it has outputs or an execution count, or when the job
runs, and compares its first read with no outputs at all.  None of this tells what the job has
done to the cell: what an earlier run left there is shown as new.
-/

namespace Hypernote

open Foundation

namespace Watch

variable {δ : Type} {printable : Char → Bool} {w : Watch} {s s' : State δ} {l : Label δ}
  {c cellId : CellId}

/-- The job has begun to execute the cell. -/
def hasBegun (s : State δ) (cellId : CellId) : Bool :=
  s.events.any fun
    | .began c => c = cellId
    | _ => false

/-- `cell_started` is not written. -/
def hidesStart (w : Watch) : Bool :=
  w.progress = .quiet || w.mode = .watchHuman && w.progress ≠ .full

/-- Nothing is written of the output. -/
def hidesOutput (w : Watch) (printable : Char → Bool) (o : Output δ) : Bool :=
  w.progress = .quiet || w.mode = .watchHuman && o.isStream && o.textStr printable = []

/-- A cell that the job has not begun shows no outputs, and neither its execution count nor the
status of the job makes it look started. -/
def readsNothingOld (w : Watch) (printable : Char → Bool) (s : State δ) (l : Label δ) : Bool :=
  match s.point, l with
  | .reading (cellId :: _), .outputs outputs =>
      hasBegun s cellId || outputs.isEmpty ||
        w.hidesStart && outputs.all (w.hidesOutput printable)
  | .counting cellId _, .executionCount count =>
      hasBegun s cellId || w.hidesStart || count.isNone && s.status ≠ .running
  | _, _ => true

/-- The event is a `cell_started` or an `output_delta` of the cell. -/
def Event.shows (cellId : CellId) : Event δ → Bool
  | .emitted p => (p.event = .cellStarted || p.event = .outputDelta) && p.cellId = some cellId
  | _ => false

/-- Nothing is shown of the cell before the job has begun it. -/
def ShownBegun (cellId : CellId) (events : List (Event δ)) : Prop :=
  ∀ pre e post, events = pre ++ e :: post → e.shows cellId = true → .began cellId ∈ pre

theorem hasBegun_iff : hasBegun s cellId = true ↔ .began cellId ∈ s.events := by
  rw [hasBegun, List.any_eq_true]
  constructor
  · rintro ⟨e, he, hbegan⟩
    split at hbegan
    · rw [← of_decide_eq_true hbegan]
      exact he
    · cases hbegan
  · exact fun h => ⟨_, h, decide_eq_true rfl⟩

theorem shownBegun_iff {events : List (Event δ)} :
    ShownBegun cellId events ↔
      Follows (· = .began cellId) (fun e => e.shows cellId = true) events := by
  simp only [ShownBegun, Follows, exists_eq_right]

theorem ShownBegun.append {events es : List (Event δ)} (h : ShownBegun cellId events)
    (hes : ∀ e ∈ es, e.shows cellId = true → .began cellId ∈ events) :
    ShownBegun cellId (events ++ es) := by
  rw [shownBegun_iff] at h ⊢
  exact h.append fun e he hshows => ⟨_, hes e he hshows, rfl⟩

/-! ## What a step shows -/

theorem emitProgress_cellStarted (h : w.hidesStart = true) (c : CellId) :
    w.emitProgress (δ := δ) ⟨.cellStarted, some c, none, none, none⟩ = [] := by
  simp only [hidesStart, Bool.or_eq_true, Bool.and_eq_true, decide_eq_true_eq] at h
  rcases h with hquiet | ⟨hmode, hprogress⟩
  · cases hmode : w.mode <;> simp [emitProgress, humanEventEchoes, hmode, hquiet]
  · simp [emitProgress, humanEventEchoes, hmode, hprogress]

theorem deltaPayload_event (printable : Char → Bool) (c : CellId) (d : Delta δ) :
    (deltaPayload printable c d).event = .outputDelta ∧
      (deltaPayload printable c d).cellId = some c := by
  cases d with
  | suffix => exact ⟨rfl, rfl⟩
  | output o =>
      rw [deltaPayload]
      split <;> exact ⟨rfl, rfl⟩

theorem shows_of_mem {payload : Payload δ} {e : Event δ} (he : e ∈ w.emitProgress payload)
    (hshows : e.shows cellId = true) : payload.cellId = some cellId := by
  rw [mem_emit (.inr he)] at hshows
  simp only [Event.shows, Bool.and_eq_true, decide_eq_true_eq] at hshows
  exact hshows.2

variable [DecidableEq δ]

/-- An item of `_output_deltas` is an output that was read, or the end of the text of one. -/
theorem mem_outputDeltas {seen outputs : List (Output δ)} {d : Delta δ}
    (h : d ∈ outputDeltas printable seen outputs) :
    ∃ o ∈ outputs, d = .output o ∨
      o.isStream = true ∧ ∃ n, d = .suffix o.name ((o.textStr printable).drop n) := by
  rw [outputDeltas, List.mem_append] at h
  rcases h with h | h
  · obtain ⟨⟨p, o⟩, hpair, hd⟩ := List.mem_filterMap.mp h
    refine ⟨o, (List.of_mem_zip hpair).2, ?_⟩
    dsimp only [outputDelta] at hd
    split at hd
    · rename_i hstream
      split at hd
      · cases hd
        exact .inr ⟨hstream.2.1, _, rfl⟩
      · split at hd <;> cases hd
        exact .inl rfl
    · split at hd <;> cases hd
      exact .inl rfl
  · obtain ⟨o, ho, rfl⟩ := List.mem_map.mp h
    exact ⟨o, List.mem_of_mem_drop ho, .inl rfl⟩

/-- The event of an item for hidden outputs is not written. -/
theorem emitProgress_deltaPayload {seen outputs : List (Output δ)} {d : Delta δ}
    (hidden : ∀ o ∈ outputs, w.hidesOutput printable o = true)
    (hd : d ∈ outputDeltas printable seen outputs) (c : CellId) :
    w.emitProgress (deltaPayload printable c d) = [] := by
  have hevent := (deltaPayload_event printable c d).1
  obtain ⟨o, ho, hcases⟩ := mem_outputDeltas hd
  have hhides := hidden o ho
  simp only [hidesOutput, Bool.or_eq_true, Bool.and_eq_true, decide_eq_true_eq] at hhides
  rcases hhides with hquiet | ⟨⟨hmode, hstream⟩, hempty⟩
  · cases hmode : w.mode <;> simp [emitProgress, humanEventEchoes, hmode, hquiet, hevent]
  · have hpayload : deltaPayload printable c d = ⟨.outputDelta, some c, none, some [], none⟩ := by
      rcases hcases with rfl | ⟨-, n, rfl⟩
      · rw [deltaPayload, if_pos hstream, hempty]
      · rw [deltaPayload, hempty, List.drop_nil]
    rw [hpayload]
    simp [emitProgress, humanEventEchoes, hmode]

/-- Every event that an admitted read appends for a cell comes after the beginning of that cell. -/
theorem shown_read {outputs : List (Output δ)}
    (h : hasBegun s c = true ∨ ∀ o ∈ outputs, w.hidesOutput printable o = true)
    (seen : List (Output δ)) :
    ∀ e ∈ Event.read c outputs :: (outputDeltas printable seen outputs).flatMap fun d =>
        w.emitProgress (deltaPayload printable c d),
      e.shows cellId = true → .began cellId ∈ s.events := by
  intro e he hshows
  rcases List.mem_cons.mp he with rfl | he
  · cases hshows
  · obtain ⟨d, hd, he⟩ := List.mem_flatMap.mp he
    rcases h with hbegun | hidden
    · have hcell := shows_of_mem he hshows
      rw [(deltaPayload_event printable c d).2, Option.some.injEq] at hcell
      exact hcell ▸ hasBegun_iff.mp hbegun
    · rw [emitProgress_deltaPayload hidden hd] at he
      cases he

omit [DecidableEq δ] in
theorem shown_started (h : hasBegun s c = true ∨ w.hidesStart = true) :
    ∀ e ∈ w.emitProgress (δ := δ) ⟨.cellStarted, some c, none, none, none⟩,
      e.shows cellId = true → .began cellId ∈ s.events := by
  intro e he hshows
  rcases h with hbegun | hhides
  · exact Option.some.inj (shows_of_mem he hshows) ▸ hasBegun_iff.mp hbegun
  · rw [emitProgress_cellStarted hhides] at he
    cases he

theorem shown_step (h : StepCase w printable s l s')
    (hold : w.readsNothingOld printable s l = true) (hshown : ShownBegun cellId s.events) :
    ShownBegun cellId s'.events := by
  have happend : ∀ {es es' : List (Event δ)},
      (∀ e ∈ es, e.shows cellId = true → .began cellId ∈ s.events) →
      (∀ e ∈ es', e.shows cellId = true → .began cellId ∈ s.events) →
      ShownBegun cellId (s.events ++ es ++ es') := by
    intro es es' hes hes'
    exact (hshown.append hes).append fun e he hshows => List.mem_append_left _ (hes' e he hshows)
  cases h with
  | other hevents hes =>
      rw [hevents]
      apply hshown.append
      intro e he hshows
      have hnot := hes e he
      cases e with
      | emitted p => simp_all [Event.isOfCell, Event.shows]
      | _ => cases hshows
  | again hpoint =>
      refine hshown.append (shown_read ?_ _)
      simp only [readsNothingOld, hpoint, Bool.or_eq_true, Bool.and_eq_true, List.isEmpty_iff,
        List.all_eq_true] at hold
      rcases hold with (hbegun | rfl) | ⟨-, hidden⟩
      · exact .inl hbegun
      · exact .inr fun o ho => by cases ho
      · exact .inr hidden
  | first hpoint hne =>
      simp only [readsNothingOld, hpoint, Bool.or_eq_true, Bool.and_eq_true, List.isEmpty_iff,
        List.all_eq_true] at hold
      rcases hold with (hbegun | hempty) | ⟨hhides, hidden⟩
      · exact happend (shown_started (.inl hbegun)) (shown_read (.inl hbegun) _)
      · exact absurd hempty hne
      · exact happend (shown_started (.inr hhides)) (shown_read (.inr hidden) _)
  | counted hpoint hstarts =>
      have hnothing : ∀ o ∈ ([] : List (Output δ)), w.hidesOutput printable o = true :=
        fun o ho => by cases ho
      refine happend (shown_started ?_) (shown_read (.inr hnothing) _)
      simp only [readsNothingOld, hpoint, Bool.or_eq_true, Bool.and_eq_true, Option.isNone_iff_eq_none,
        decide_eq_true_eq] at hold
      rcases hold with (hbegun | hhides) | ⟨hcount, hstatus⟩
      · exact .inl hbegun
      · exact .inr hhides
      · exact absurd hstarts (not_or.mpr ⟨not_not.mpr hcount, hstatus⟩)
  | idle =>
      exact hshown.append (shown_read (.inr fun o ho => by cases ho) _)

/-- Where no read of a cell that the job has not begun shows anything of an earlier run, or makes
the cell look started, nothing is shown of a cell before the job has begun it. -/
theorem old_output_not_replayed {status : JobStatus}
    (h : Run (w.step printable) (fun s l => w.readsNothingOld printable s l = true)
      (w.start status) s) (cellId : CellId) :
    ∀ pre payload post, s.events = pre ++ .emitted payload :: post →
      payload.event = .cellStarted ∨ payload.event = .outputDelta →
      payload.cellId = some cellId → .began cellId ∈ pre := by
  have hs : ShownBegun cellId s.events := by
    refine Run.invariant (I := fun s => ShownBegun cellId s.events) h ?_ ?_
    · have hnone : ∀ e ∈ (w.start status : State δ).events, e.shows cellId = false := by
        intro e he
        rcases List.mem_append.mp he with he | he
        · obtain ⟨c, -, he⟩ := List.mem_flatMap.mp he
          rw [mem_emit (.inl he)]
          rfl
        · rw [mem_emit (.inr he)]
          rfl
      intro pre e post heq hshows
      rw [hnone e (heq ▸ List.mem_append_right _ (List.mem_cons_self ..))] at hshows
      cases hshows
    · intro u l u' hu hold hstep
      exact shown_step (step_cases hstep) hold hu
  intro pre payload post heq hevent hcell
  apply hs pre _ post heq
  rcases hevent with hevent | hevent <;> simp [Event.shows, hevent, hcell]

section Schedules

private def printed (text : String) : Output Unit :=
  ⟨"stream", some "stdout", some (.string text.toList), ()⟩

private def started (cellId : CellId) : Watch.Event Unit :=
  .emitted ⟨.cellStarted, some cellId, none, none, none⟩

private def shown (cellId : CellId) (text : String) : Watch.Event Unit :=
  .emitted ⟨.outputDelta, some cellId, none, some text.toList, none⟩

/-- A job of two cells, watched with `--stream-json`. -/
private def twoCellWatch : Watch := ⟨.streamJson, .events, ["first", "second"], [], false⟩

/-- Both cells are read while the job is queued, and again when it has begun the first. -/
private def firstBegun (second : List (Output Unit)) : List (Label Unit) :=
  [.refreshed .queued, .outputs [], .executionCount none, .outputs [], .executionCount none,
    .settles, .slept, .begins "first", .refreshed .running, .outputs [printed "new"],
    .outputs second]

/-- The history up to the second read of the first cell. -/
private def firstShown : List (Watch.Event Unit) :=
  [.emitted ⟨.jobStarted, none, some .queued, none, none⟩, .read "first" [], .read "second" [],
    .began "first", started "first", .read "first" [printed "new"]]

theorem begun_cell_shown :
    ∃ s : State Unit, s.events = firstShown ++ [shown "first" "new"] ∧ .began "first" ∈ firstShown := by
  obtain ⟨s, hrun, hevents⟩ :=
    @exists_guarded_run_of_exec _ _ (twoCellWatch.step fun _ => true)
      (fun s l => twoCellWatch.readsNothingOld (fun _ => true) s l = true) _
      (twoCellWatch.start .queued) (firstBegun [])
      (fun s => s.events = firstShown ++ [shown "first" "new"]) _ (by decide) (by decide)
  exact ⟨s, hevents, old_output_not_replayed hrun "first" _ _ [] hevents (.inr rfl) rfl⟩

/-- What an earlier run left in the second cell is shown as new while the job runs the first. -/
theorem waiting_cell_replayed :
    ∃ (s : State Unit) (pre : List (Watch.Event Unit)),
      Run (twoCellWatch.step fun _ => true) anyStep (twoCellWatch.start .queued) s ∧
      s.events = pre ++ [shown "second" "old"] ∧ started "second" ∈ pre ∧
      .began "second" ∉ pre := by
  obtain ⟨s, hrun, hevents⟩ :=
    @exists_run_of_exec _ _ (twoCellWatch.step fun _ => true) (twoCellWatch.start .queued)
      (firstBegun [printed "old"])
      (fun s => s.events = firstShown ++ [shown "first" "new", started "second",
        .read "second" [printed "old"]] ++ [shown "second" "old"])
      _ (by decide)
  exact ⟨s, _, hrun, hevents, by decide, by decide⟩

end Schedules

end Watch

end Hypernote
