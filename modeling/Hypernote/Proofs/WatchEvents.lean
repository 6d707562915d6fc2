import Hypernote.Proofs.OldOutput
/-!
# The stream of a watched job

The events that `_watch_job` builds, before the options decide which of them are written.  The loop
keeps them in order: a cell starts once, before its outputs, and one event ends the stream.  Only
`cell_completed` is off: it is built for every cell of a job that has ended, whatever the job has
done of it.
-/

namespace Hypernote

open Foundation

namespace Watch

/-- The call that writes every event it builds.  `cell_completed` is built only for
`--progress full`. -/
def unfiltered (w : Watch) : Watch :=
  { w with
    mode := .streamJson
    progress := if w.progress = .full then .full else .events }

section Filter

variable {δ : Type} (w : Watch)

/-- What the options leave in of the events that are built. -/
def writes (payload : Payload δ) : Bool :=
  match w.mode with
  | .streamJson =>
      payload.event ∉ [.jobStarted, .cellStarted, .outputDelta] || w.progress ≠ .quiet
  | .watchHuman => w.humanEventEchoes payload

def keeps : Event δ → Bool
  | .emitted payload => w.writes payload
  | _ => true

/-- The state of the call, for that of the call that writes everything. -/
def filtered (u : State δ) : State δ := { u with events := u.events.filter w.keeps }

end Filter

variable {δ : Type} {w : Watch} {s s' : State δ} {l : Label δ} {c : CellId}

/-! ## What the options leave out -/

@[simp] theorem emit_unfiltered (payload : Payload δ) :
    w.unfiltered.emit payload = [.emitted payload] := rfl

@[simp] theorem emitProgress_unfiltered (payload : Payload δ) :
    w.unfiltered.emitProgress payload = [.emitted payload] := by
  rw [emitProgress]
  refine if_pos ?_
  rw [unfiltered]
  dsimp only
  split <;> simp

theorem progress_unfiltered : w.unfiltered.progress = .full ↔ w.progress = .full := by
  rw [unfiltered]
  dsimp only
  split <;> simp_all

theorem emit_filtered {payload : Payload δ}
    (h : payload.event ∉ [.jobStarted, .cellStarted, .outputDelta]) :
    (w.unfiltered.emit payload).filter w.keeps = w.emit payload := by
  rw [emit_unfiltered, List.filter_singleton, keeps, writes, emit]
  cases hmode : w.mode <;> simp [h]

theorem emitProgress_filtered {payload : Payload δ}
    (h : payload.event ∈ [.jobStarted, .cellStarted, .outputDelta]) :
    (w.unfiltered.emitProgress payload).filter w.keeps = w.emitProgress payload := by
  rw [emitProgress_unfiltered, List.filter_singleton, keeps, writes, emitProgress]
  cases hmode : w.mode <;> simp [h]

theorem flatMap_filtered {α : Type} {f g : α → List (Event δ)}
    (h : ∀ a, (f a).filter w.keeps = g a) (as : List α) :
    (as.flatMap f).filter w.keeps = as.flatMap g := by
  rw [List.filter_flatMap]
  exact congrArg as.flatMap (funext h)

theorem start_filtered (status : JobStatus) :
    w.filtered (w.unfiltered.start status) = (w.start status : State δ) := by
  have hevents : (w.unfiltered.start status : State δ).events.filter w.keeps =
      (w.start status : State δ).events := by
    rw [start, start, List.filter_append]
    refine congrArg₂ _ (flatMap_filtered (fun c => ?_) _) ?_
    · exact emit_filtered (by simp)
    · exact emitProgress_filtered (by simp)
  rw [filtered, hevents]
  rfl

theorem record_filtered (u : State δ) (es : List (Event δ)) :
    w.filtered (record u es) = record (w.filtered u) (es.filter w.keeps) := by
  rw [filtered, record, List.filter_append]
  rfl

theorem cellStarted_filtered (u : State δ) (c : CellId) :
    w.filtered (w.unfiltered.cellStarted u c) = w.cellStarted (w.filtered u) c := by
  have hrecord := record_filtered (w := w) u
    (w.unfiltered.emitProgress ⟨.cellStarted, some c, none, none, none⟩)
  rw [emitProgress_filtered (by simp)] at hrecord
  exact congrArg (fun u' : State δ => { u' with startedCells := c :: u.startedCells }) hrecord

variable [DecidableEq δ] {printable : Char → Bool}

theorem cellRead_filtered (u : State δ) (c : CellId) (outputs : List (Output δ))
    (rest : List CellId) :
    w.filtered (w.unfiltered.cellRead u printable c outputs rest) =
      w.cellRead (w.filtered u) printable c outputs rest := by
  have hrecord := record_filtered (w := w) u (.read c outputs ::
    (outputDeltas printable (u.seenOutputs c) outputs).flatMap fun d =>
      w.unfiltered.emitProgress (deltaPayload printable c d))
  rw [List.filter_cons_of_pos rfl, flatMap_filtered fun d => emitProgress_filtered
    (by simp [deltaPayload_event])] at hrecord
  exact congrArg (fun u' : State δ =>
    { u' with
      seenOutputs := Function.update u.seenOutputs c outputs
      point := .reading rest }) hrecord

omit [DecidableEq δ] in
theorem settle_filtered (u : State δ) :
    w.filtered (w.unfiltered.settle u) = w.settle (w.filtered u) := by
  have hreturns : ∀ {es es' : List (Event δ)}, es.filter w.keeps = es' →
      w.filtered { record u es with point := .returned } =
        { record (w.filtered u) es' with point := .returned } := by
    rintro es _ rfl
    exact congrArg (fun u' : State δ => { u' with point := .returned }) (record_filtered u es)
  have hcompleted : (w.cellIds.flatMap fun c =>
        w.unfiltered.emit (δ := δ) ⟨.cellCompleted, some c, none, none, none⟩).filter w.keeps =
      w.cellIds.flatMap fun c => w.emit ⟨.cellCompleted, some c, none, none, none⟩ :=
    flatMap_filtered (fun c => emit_filtered (by simp)) _
  rw [settle, settle]
  change _ = if u.status = .awaitingInput then _ else if u.status.isTerminal then _ else _
  split
  · exact hreturns (emit_filtered (by simp))
  · split
    · refine hreturns ?_
      rw [List.filter_append]
      refine congrArg₂ _ ?_ (emit_filtered ?_)
      · by_cases hfull : w.progress = .full
        · rw [if_pos hfull, if_pos (progress_unfiltered.mpr hfull)]
          exact hcompleted
        · rw [if_neg hfull, if_neg (mt progress_unfiltered.mp hfull)]
          rfl
      · dsimp only
        split <;> simp
    · rfl

/-- The options decide nothing but which events are written. -/
theorem step_filtered (u : State δ) (l : Label δ) :
    w.step printable (w.filtered u) l = (w.unfiltered.step printable u l).map w.filtered := by
  have hpoint : (w.filtered u).point = u.point := rfl
  unfold step
  cases l with
  | begins c => rw [Option.map_some, record_filtered, List.filter_cons_of_pos rfl, List.filter_nil]
  | missing =>
      dsimp only
      rw [hpoint]
      rcases u.point with _ | (_ | ⟨c, rest⟩) | ⟨c, rest⟩ | _ | _ | _ <;> rfl
  | outputs outputs =>
      dsimp only
      rw [hpoint]
      rcases u.point with _ | (_ | ⟨c, rest⟩) | ⟨c, rest⟩ | _ | _ | _ <;> try rfl
      change (if c ∈ u.startedCells then _ else _) = _
      dsimp only
      split
      · rw [Option.map_some, cellRead_filtered]
      · split
        · rw [Option.map_some, cellRead_filtered, cellStarted_filtered]
        · rfl
  | executionCount count =>
      dsimp only
      rw [hpoint]
      rcases u.point with _ | (_ | ⟨c, rest⟩) | ⟨c, rest⟩ | _ | _ | _ <;> try rfl
      change (if count ≠ none ∨ u.status = .running then _ else _) = _
      dsimp only
      split
      · rw [Option.map_some, cellRead_filtered, cellStarted_filtered]
      · rw [Option.map_some, cellRead_filtered]
  | settles =>
      dsimp only
      rw [hpoint]
      split
      · rw [Option.map_some, settle_filtered]
      · rfl
  | failed =>
      dsimp only
      rw [hpoint]
      rcases u.point with _ | (_ | ⟨c, rest⟩) | ⟨c, rest⟩ | _ | _ | _ <;> rfl
  | timedOut =>
      dsimp only
      rw [hpoint, show w.unfiltered.hasDeadline = w.hasDeadline from rfl]
      split <;> rfl
  | refreshed | slept =>
      dsimp only
      rw [hpoint]
      split <;> rfl

/-! ## The order of the events -/

def isFinalType (event : EventType) : Bool := event ∈ [.awaitingInput, .jobCompleted, .jobFailed]

/-- One of the events that end the stream. -/
def isFinal (payload : Payload δ) : Bool := isFinalType payload.event

def Event.payload? : Event δ → Option (Payload δ)
  | .emitted payload => some payload
  | _ => none

/-- The payloads of the stream. -/
def payloads (events : List (Event δ)) : List (Payload δ) := events.filterMap Event.payload?

/-- The event is in the stream, of this kind and for this cell. -/
def Event.isOf (event : EventType) (cellId : CellId) (e : Event δ) : Bool :=
  e.payload?.any fun p => p.event = event && p.cellId = some cellId

/-- A cell starts once, before its outputs, and one event ends the stream of a call that has
returned. -/
structure Ordered (s : State δ) : Prop where
  ends : s.point = .returned → EndsOnce (fun p => isFinal p = true) (payloads s.events)
  startedOnce : ∀ c, s.events.countP (Event.isOf .cellStarted c) ≤ 1
  startedFirst : ∀ c, Follows (fun e => e.isOf .cellStarted c = true)
    (fun e => e.isOf .outputDelta c = true) s.events

/-- A cell has completed only after it started, and after the job began to execute it. -/
structure WellFormed (s : State δ) : Prop extends Ordered s where
  completedStarted : ∀ c, Follows (fun e => e.isOf .cellStarted c = true)
    (fun e => e.isOf .cellCompleted c = true) s.events
  completedBegun : ∀ c, Follows (· = .began c) (fun e => e.isOf .cellCompleted c = true) s.events

/-- The cells for which the step builds `cell_completed`. -/
def completes (w : Watch) (s : State δ) : Label δ → List CellId
  | .settles => if s.status.isTerminal ∧ w.progress = .full then w.cellIds else []
  | _ => []

def completed (cellId : CellId) : Event δ :=
  .emitted ⟨.cellCompleted, some cellId, none, none, none⟩

/-- The job has executed every cell for which the step builds `cell_completed`, and the loop has
noted it as started. -/
def completesExecuted (w : Watch) (s : State δ) (l : Label δ) : Bool :=
  (w.completes s l).all fun c => c ∈ s.startedCells && hasBegun s c

/-- What one step of the loop adds to the stream. -/
inductive StreamCase (w : Watch) (s : State δ) (l : Label δ) (s' : State δ) : Prop
  | silent (es : List (Event δ)) (hevents : s'.events = s.events ++ es)
      (hes : ∀ e ∈ es, e.payload? = none) (hcells : s'.startedCells = s.startedCells)
      (hreturned : s'.point = .returned ↔ s.point = .returned)
      (hcounting : ∀ c rest, s'.point = .counting c rest → c ∉ s.startedCells)
      (hcompletes : w.completes s l = [])
  | deltas (c : CellId) (rest : List CellId) (es : List (Event δ)) (hstarted : c ∈ s.startedCells)
      (hevents : s'.events = s.events ++ es)
      (hes : ∀ e ∈ es, ∀ p, e.payload? = some p → p.event = .outputDelta ∧ p.cellId = some c)
      (hcells : s'.startedCells = s.startedCells) (hbefore : s.point ≠ .returned)
      (hpoint : s'.point = .reading rest) (hcompletes : w.completes s l = [])
  | starts (c : CellId) (rest : List CellId) (es : List (Event δ)) (hnew : c ∉ s.startedCells)
      (hevents : s'.events =
        s.events ++ [.emitted ⟨.cellStarted, some c, none, none, none⟩] ++ es)
      (hes : ∀ e ∈ es, ∀ p, e.payload? = some p → p.event = .outputDelta ∧ p.cellId = some c)
      (hcells : s'.startedCells = c :: s.startedCells) (hbefore : s.point ≠ .returned)
      (hpoint : s'.point = .reading rest) (hcompletes : w.completes s l = [])
  | ends (final : Payload δ) (hfinal : isFinal final = true)
      (hevents : s'.events = s.events ++ (w.completes s l).map completed ++ [.emitted final])
      (hcells : s'.startedCells = s.startedCells) (hbefore : s.point ≠ .returned)
      (hpoint : s'.point = .returned)

/-- What a read adds, for a cell that has started. -/
theorem payload_of_mem_read {outputs : List (Output δ)} {seen : List (Output δ)} :
    ∀ e ∈ Event.read c outputs :: (outputDeltas printable seen outputs).flatMap fun d =>
        w.unfiltered.emitProgress (deltaPayload printable c d),
      ∀ p, e.payload? = some p → p.event = .outputDelta ∧ p.cellId = some c := by
  intro e he p hp
  rcases List.mem_cons.mp he with rfl | he
  · cases hp
  · obtain ⟨d, -, he⟩ := List.mem_flatMap.mp he
    rw [emitProgress_unfiltered, List.mem_singleton] at he
    subst he
    cases hp
    exact deltaPayload_event printable c d

/-- A read of no outputs builds no event. -/
theorem outputDeltas_of_nil (seen : List (Output δ)) :
    outputDeltas printable seen [] = [] := by
  simp [outputDeltas]

/-- A cell that starts and is read. -/
theorem stream_starts {outputs : List (Output δ)} {rest : List CellId}
    (hnew : c ∉ s.startedCells) (hbefore : s.point ≠ .returned) (hcompletes : w.completes s l = []) :
    StreamCase w s l
      (w.unfiltered.cellRead (w.unfiltered.cellStarted s c) printable c outputs rest) := by
  refine .starts c rest _ hnew ?_
    (@payload_of_mem_read _ w c _ printable outputs (s.seenOutputs c)) rfl hbefore rfl hcompletes
  rw [← emitProgress_unfiltered (w := w)]
  rfl

omit [DecidableEq δ] in
theorem stream_settle (hpoint : s.point = .reading []) :
    StreamCase w s .settles (w.unfiltered.settle s) := by
  have hbefore : s.point ≠ .returned := by
    rw [hpoint]
    exact Point.noConfusion
  have hcompletes : w.completes s .settles =
      if s.status.isTerminal ∧ w.progress = .full then w.cellIds else [] := rfl
  unfold settle
  split
  · rename_i hstatus
    rw [hstatus] at hcompletes
    refine .ends ⟨.awaitingInput, none, some s.status, none, none⟩ rfl ?_ rfl hbefore rfl
    rw [hcompletes, emit_unfiltered]
    simp [record, JobStatus.isTerminal]
  · split
    · rename_i hterminal
      refine .ends ⟨if s.status = .succeeded then .jobCompleted else .jobFailed, none,
        some s.status, none, none⟩ ?_ ?_ rfl hbefore rfl
      · rw [isFinal]
        dsimp only
        split <;> rfl
      · by_cases hfull : w.progress = .full
        · rw [if_pos ⟨hterminal, hfull⟩] at hcompletes
          rw [hcompletes, List.map_eq_flatMap, List.append_assoc,
            if_pos (progress_unfiltered.mpr hfull)]
          rfl
        · rw [if_neg fun h => hfull h.2] at hcompletes
          rw [hcompletes, List.map_nil, List.append_nil, if_neg (mt progress_unfiltered.mp hfull)]
          rfl
    · rename_i hterminal
      refine .silent [] (List.append_nil _).symm (fun e he => by cases he) rfl ?_ ?_ ?_
      · simp [hpoint]
      · intro c rest hc
        cases hc
      · rw [hcompletes, if_neg fun h => hterminal h.1]

theorem stream_cases (hcounted : ∀ c rest, s.point = .counting c rest → c ∉ s.startedCells)
    (h : w.unfiltered.step printable s l = some s') : StreamCase w s l s' := by
  have hsilent : ∀ {u : State δ}, u.events = s.events → u.startedCells = s.startedCells →
      (u.point = .returned ↔ s.point = .returned) →
      (∀ c rest, u.point = .counting c rest → c ∉ s.startedCells) → w.completes s l = [] →
      StreamCase w s l u := by
    intro u hevents hcells hreturned hcounting hcompletes
    refine .silent [] (by rw [hevents, List.append_nil]) ?_ hcells hreturned hcounting hcompletes
    intro e he
    cases he
  unfold step at h
  cases l with
  | begins c =>
      cases h
      refine .silent [.began c] rfl ?_ rfl Iff.rfl hcounted rfl
      intro e he
      rw [List.mem_singleton.mp he]
      rfl
  | refreshed status =>
      obtain ⟨hpoint, heq⟩ := Option.ite_none_right_eq_some.mp h
      cases heq
      exact hsilent rfl rfl (by simp [hpoint]) (fun c rest hc => by cases hc) rfl
  | missing =>
      dsimp only at h
      split at h <;> cases h
      exact hsilent rfl rfl (by simp [*]) (fun c rest hc => by cases hc) rfl
  | outputs outputs =>
      dsimp only at h
      split at h
      · rename_i c rest hpoint
        split at h
        · rename_i hstarted
          cases h
          exact .deltas c rest _ hstarted rfl payload_of_mem_read rfl (by simp [hpoint]) rfl rfl
        · rename_i hnew
          split at h
          · cases h
            exact stream_starts hnew (by simp [hpoint]) rfl
          · cases h
            refine hsilent rfl rfl (by simp [hpoint]) ?_ rfl
            intro c' rest' hc
            cases hc
            exact hnew
      · cases h
  | executionCount count =>
      dsimp only at h
      split at h
      · rename_i c rest hpoint
        split at h
        · cases h
          exact stream_starts (hcounted c rest hpoint) (by simp [hpoint]) rfl
        · cases h
          refine .silent [.read c []] ?_ ?_ rfl (by simp [hpoint, cellRead]) ?_ rfl
          · rw [cellRead, outputDeltas_of_nil]
            rfl
          · intro e he
            rw [List.mem_singleton.mp he]
            rfl
          · intro c' rest' hc
            cases hc
      · cases h
  | settles =>
      obtain ⟨hpoint, heq⟩ := Option.ite_none_right_eq_some.mp h
      cases heq
      exact stream_settle hpoint
  | slept =>
      obtain ⟨hpoint, heq⟩ := Option.ite_none_right_eq_some.mp h
      cases heq
      exact hsilent rfl rfl (by simp [hpoint]) (fun c rest hc => by cases hc) rfl
  | timedOut =>
      obtain ⟨hpoint, heq⟩ := Option.ite_none_right_eq_some.mp h
      cases heq
      exact hsilent rfl rfl (by simp [hpoint.1]) (fun c rest hc => by cases hc) rfl
  | failed =>
      dsimp only at h
      split at h <;> cases h <;>
        exact hsilent rfl rfl (by simp [*]) (fun c rest hc => by cases hc) rfl

/-! ## What a step preserves -/

omit [DecidableEq δ] in
theorem payloads_append (es es' : List (Event δ)) :
    payloads (es ++ es') = payloads es ++ payloads es' :=
  List.filterMap_append

omit [DecidableEq δ] in
theorem payload_of_isOf {event : EventType} {e : Event δ} (h : e.isOf event c = true) :
    ∃ p, e.payload? = some p ∧ p.event = event ∧ p.cellId = some c := by
  obtain ⟨p, hp, hand⟩ := Option.any_eq_true .. |>.mp h
  rw [Bool.and_eq_true, decide_eq_true_eq, decide_eq_true_eq] at hand
  exact ⟨p, hp, hand⟩

/-- What the loop keeps of the stream. -/
structure Stream (s : State δ) : Prop where
  goesOn : s.point ≠ .returned → ∀ p ∈ payloads s.events, isFinal p = false
  ends : s.point = .returned → EndsOnce (fun p => isFinal p = true) (payloads s.events)
  started : ∀ c, s.events.countP (Event.isOf .cellStarted c) = if c ∈ s.startedCells then 1 else 0
  startedFirst : ∀ c, Follows (fun e => e.isOf .cellStarted c = true)
    (fun e => e.isOf .outputDelta c = true) s.events
  counted : ∀ c rest, s.point = .counting c rest → c ∉ s.startedCells

omit [DecidableEq δ] in
theorem Stream.ordered (h : Stream s) : Ordered s where
  ends := h.ends
  startedOnce c := by
    rw [h.started c]
    split <;> omega
  startedFirst := h.startedFirst

omit [DecidableEq δ] in
theorem Stream.exists_started (h : Stream s) :
    (∃ e ∈ s.events, e.isOf .cellStarted c = true) ↔ c ∈ s.startedCells := by
  have hcount := h.started c
  rw [← List.countP_pos_iff, hcount]
  split <;> simp_all

omit [DecidableEq δ] in
theorem not_isOf {event : EventType} {es : List (Event δ)}
    (hes : ∀ e ∈ es, ∀ p, e.payload? = some p → p.event ≠ event) :
    ∀ e ∈ es, ¬ e.isOf event c = true := by
  intro e he hof
  obtain ⟨p, hp, hevent, -⟩ := payload_of_isOf hof
  exact hes e he p hp hevent

omit [DecidableEq δ] in
/-- A read of a cell that has started. -/
theorem Stream.read {es : List (Event δ)} {rest : List CellId} (h : Stream s)
    (hstarted : c ∈ s.startedCells) (hbefore : s.point ≠ .returned)
    (hevents : s'.events = s.events ++ es)
    (hes : ∀ e ∈ es, ∀ p, e.payload? = some p → p.event = .outputDelta ∧ p.cellId = some c)
    (hcells : s'.startedCells = s.startedCells) (hpoint : s'.point = .reading rest) :
    Stream s' where
  goesOn _ p hp := by
    rw [hevents, payloads_append, List.mem_append] at hp
    rcases hp with hp | hp
    · exact h.goesOn hbefore p hp
    · obtain ⟨e, he, hp⟩ := List.mem_filterMap.mp hp
      rw [isFinal, (hes e he p hp).1]
      rfl
  ends hreturned' := by
    rw [hpoint] at hreturned'
    cases hreturned'
  started c' := by
    have hnone : es.countP (Event.isOf .cellStarted c') = 0 :=
      List.countP_eq_zero.mpr (not_isOf fun e he p hp => by simp [(hes e he p hp).1])
    rw [hevents, List.countP_append, hnone, hcells, h.started c', Nat.add_zero]
  startedFirst c' := by
    rw [hevents]
    apply (h.startedFirst c').append
    intro e he hof
    obtain ⟨p, hp, -, hcell⟩ := payload_of_isOf hof
    rw [(hes e he p hp).2, Option.some.injEq] at hcell
    exact h.exists_started.mpr (hcell ▸ hstarted)
  counted c' rest' hc := by
    rw [hpoint] at hc
    cases hc

omit [DecidableEq δ] in
/-- A cell that starts. -/
theorem Stream.start {rest : List CellId} (h : Stream s) (hnew : c ∉ s.startedCells)
    (hbefore : s.point ≠ .returned) :
    Stream { s with
      events := s.events ++ [.emitted ⟨.cellStarted, some c, none, none, none⟩]
      startedCells := c :: s.startedCells
      point := .reading rest } where
  goesOn _ p hp := by
    rw [payloads_append, List.mem_append] at hp
    rcases hp with hp | hp
    · exact h.goesOn hbefore p hp
    · rw [List.mem_singleton.mp hp]
      rfl
  ends hreturned := by cases hreturned
  started c' := by
    rw [List.countP_append, h.started c']
    by_cases hc : c = c'
    · subst hc
      simp [hnew, Event.isOf, Event.payload?]
    · simp [Ne.symm hc, hc, Event.isOf, Event.payload?]
  startedFirst c' := by
    apply (h.startedFirst c').append
    intro e he hof
    rw [List.mem_singleton.mp he] at hof
    cases hof
  counted c' rest' hc := by cases hc

omit [DecidableEq δ] in
/-- The events at the end of the call are those that end the stream, and `cell_completed`. -/
theorem isOf_of_mem_ends {event : EventType} {cells : List CellId} {final : Payload δ}
    (hfinal : isFinal final = true) {e : Event δ}
    (he : e ∈ cells.map completed ++ [.emitted final]) (hof : e.isOf event c = true) :
    isFinalType event = true ∨ event = .cellCompleted ∧ c ∈ cells := by
  obtain ⟨p, hp, hevent, hcell⟩ := payload_of_isOf hof
  rcases List.mem_append.mp he with he | he
  · obtain ⟨c', hc', rfl⟩ := List.mem_map.mp he
    cases hp
    cases hcell
    exact .inr ⟨hevent.symm, hc'⟩
  · rw [List.mem_singleton.mp he] at hp
    cases hp
    exact .inl (hevent ▸ hfinal)

omit [DecidableEq δ] in
theorem stream_step (h : Stream s) (hcase : StreamCase w s l s') : Stream s' := by
  cases hcase with
  | silent es hevents hes hcells hreturned hcounting =>
      have hpayloads : payloads s'.events = payloads s.events := by
        have hnone : payloads es = [] := List.filterMap_eq_nil_iff.mpr hes
        rw [hevents, payloads_append, hnone, List.append_nil]
      have hnot : ∀ event c', ∀ e ∈ es, ¬ e.isOf event c' = true :=
        fun event c' => not_isOf fun e he p hp => by simp [hes e he] at hp
      refine ⟨?_, ?_, ?_, ?_, ?_⟩
      · rw [hpayloads, Ne, hreturned]
        exact h.goesOn
      · rw [hpayloads, hreturned]
        exact h.ends
      · intro c'
        rw [hevents, List.countP_append, List.countP_eq_zero.mpr (hnot _ c'), hcells, h.started c',
          Nat.add_zero]
      · intro c'
        rw [hevents]
        exact (h.startedFirst c').append fun e he hof => absurd hof (hnot _ c' e he)
      · rw [hcells]
        exact hcounting
  | deltas c rest es hstarted hevents hes hcells hbefore hpoint =>
      exact h.read hstarted hbefore hevents hes hcells hpoint
  | starts c rest es hnew hevents hes hcells hbefore hpoint =>
      have hstart : Stream { s with
          events := s.events ++ [.emitted ⟨.cellStarted, some c, none, none, none⟩]
          startedCells := c :: s.startedCells
          point := .reading rest } := h.start hnew hbefore
      exact hstart.read (List.mem_cons_self ..) Point.noConfusion hevents hes hcells hpoint
  | ends final hfinal hevents hcells hbefore hpoint =>
      have hnot : ∀ event c', isFinalType event = false → event ≠ .cellCompleted →
          ∀ e ∈ (w.completes s l).map completed ++ [.emitted final], ¬ e.isOf event c' = true := by
        intro event c' hevent hne e he hof
        rcases isOf_of_mem_ends hfinal he hof with hevent' | ⟨heq, -⟩
        · rw [hevent] at hevent'
          cases hevent'
        · exact hne heq
      rw [List.append_assoc] at hevents
      refine ⟨fun hreturned => absurd hpoint hreturned, fun _ => ?_, fun c' => ?_, fun c' => ?_, ?_⟩
      · rw [hevents, ← List.append_assoc, payloads_append]
        refine endsOnce_concat (fun p hp => ?_) hfinal
        rw [payloads_append, List.mem_append] at hp
        rcases hp with hp | hp
        · simp [h.goesOn hbefore p hp]
        · obtain ⟨e, he, hp⟩ := List.mem_filterMap.mp hp
          obtain ⟨c', -, rfl⟩ := List.mem_map.mp he
          cases hp
          simp [isFinal, isFinalType]
      · rw [hevents, List.countP_append, List.countP_eq_zero.mpr (hnot _ c' rfl (by simp)),
          hcells, h.started c', Nat.add_zero]
      · rw [hevents]
        exact (h.startedFirst c').append fun e he hof => absurd hof (hnot _ c' rfl (by simp) e he)
      · intro c' rest hc
        rw [hpoint] at hc
        cases hc

omit [DecidableEq δ] in
/-- A step that builds no `cell_completed` keeps the stream well formed. -/
theorem wellFormed_of_no_completed (h : WellFormed s) (hs' : Stream s') {es : List (Event δ)}
    (hevents : s'.events = s.events ++ es)
    (hes : ∀ c, ∀ e ∈ es, ¬ e.isOf .cellCompleted c = true) : WellFormed s' where
  toOrdered := hs'.ordered
  completedStarted c := by
    rw [hevents]
    exact (h.completedStarted c).append fun e he hof => absurd hof (hes c e he)
  completedBegun c := by
    rw [hevents]
    exact (h.completedBegun c).append fun e he hof => absurd hof (hes c e he)

omit [DecidableEq δ] in
/-- The end of the call keeps the stream well formed just when every cell that it calls completed
has started, and the job has begun it. -/
theorem wellFormed_ends_iff (h : WellFormed s) (hs : Stream s) (hs' : Stream s') {cells : List CellId}
    {final : Payload δ} (hfinal : isFinal final = true)
    (hevents : s'.events = s.events ++ (cells.map completed ++ [.emitted final])) :
    WellFormed s' ↔ ∀ c ∈ cells, c ∈ s.startedCells ∧ hasBegun s c = true := by
  have hcompleted : ∀ c, (∃ e ∈ cells.map completed ++ [.emitted final],
      e.isOf .cellCompleted c = true) ↔ c ∈ cells := by
    intro c
    constructor
    · rintro ⟨e, he, hof⟩
      rcases isOf_of_mem_ends hfinal he hof with hevent | ⟨-, hc⟩
      · cases hevent
      · exact hc
    · intro hc
      exact ⟨completed c, List.mem_append_left _ (List.mem_map_of_mem hc), by
        simp [completed, Event.isOf, Event.payload?]⟩
  have hnoStart : ∀ c, ∀ e ∈ cells.map completed ++ [.emitted final],
      ¬ e.isOf .cellStarted c = true := by
    intro c e he hof
    rcases isOf_of_mem_ends hfinal he hof with hevent | ⟨hevent, -⟩ <;> cases hevent
  have hnoBegin : ∀ c, ∀ e ∈ cells.map completed ++ [.emitted final], ¬ e = Event.began c := by
    rintro c e he rfl
    rcases List.mem_append.mp he with he | he
    · obtain ⟨c', -, heq⟩ := List.mem_map.mp he
      cases heq
    · cases List.mem_singleton.mp he
  constructor
  · intro hs'' c hc
    have hstarted := hs''.completedStarted c
    have hbegun := hs''.completedBegun c
    rw [hevents, follows_append_iff_of_none (hnoStart c)] at hstarted
    rw [hevents, follows_append_iff_of_none (hnoBegin c)] at hbegun
    obtain ⟨e, he, rfl⟩ := hbegun.2 ((hcompleted c).mpr hc)
    exact ⟨hs.exists_started.mp (hstarted.2 ((hcompleted c).mpr hc)), hasBegun_iff.mpr he⟩
  · intro hexecuted
    refine ⟨hs'.ordered, fun c => ?_, fun c => ?_⟩
    · rw [hevents, follows_append_iff_of_none (hnoStart c)]
      exact ⟨h.completedStarted c, fun he =>
        hs.exists_started.mpr (hexecuted c ((hcompleted c).mp he)).1⟩
    · rw [hevents, follows_append_iff_of_none (hnoBegin c)]
      exact ⟨h.completedBegun c, fun he =>
        ⟨_, hasBegun_iff.mp (hexecuted c ((hcompleted c).mp he)).2, rfl⟩⟩

omit [DecidableEq δ] in
theorem wellFormed_step_iff (h : WellFormed s) (hs : Stream s) (hcase : StreamCase w s l s') :
    WellFormed s' ↔ w.completesExecuted s l = true := by
  have hs' := stream_step hs hcase
  have hnone : w.completes s l = [] → w.completesExecuted s l = true := by
    intro hcompletes
    rw [completesExecuted, hcompletes]
    rfl
  cases hcase with
  | silent es hevents hes hcells hreturned hcounting hcompletes =>
      refine iff_of_true (wellFormed_of_no_completed h hs' hevents fun c => ?_) (hnone hcompletes)
      exact not_isOf fun e he p hp => by simp [hes e he] at hp
  | deltas c rest es hstarted hevents hes hcells hbefore hpoint hcompletes =>
      refine iff_of_true (wellFormed_of_no_completed h hs' hevents fun c => ?_) (hnone hcompletes)
      exact not_isOf fun e he p hp => by simp [(hes e he p hp).1]
  | starts c rest es hnew hevents hes hcells hbefore hpoint hcompletes =>
      rw [List.append_assoc] at hevents
      refine iff_of_true (wellFormed_of_no_completed h hs' hevents fun c => ?_) (hnone hcompletes)
      apply not_isOf
      intro e he p hp
      rcases List.mem_append.mp he with he | he
      · rw [List.mem_singleton.mp he] at hp
        cases hp
        simp
      · simp [(hes e he p hp).1]
  | ends final hfinal hevents hcells hbefore hpoint =>
      rw [List.append_assoc] at hevents
      rw [wellFormed_ends_iff h hs hs' hfinal hevents, completesExecuted, List.all_eq_true]
      simp only [Bool.and_eq_true, decide_eq_true_eq]

/-! ## Runs -/

omit [DecidableEq δ] in
/-- Before the loop the cells are inserted, and the job starts. -/
theorem mem_start {status : JobStatus} {e : Event δ}
    (he : e ∈ (w.unfiltered.start status : State δ).events) :
    ∃ p, e = .emitted p ∧ p.event ∈ [.cellInserted, .jobStarted] := by
  rw [start, List.mem_append] at he
  rcases he with he | he
  · obtain ⟨c, -, he⟩ := List.mem_flatMap.mp he
    rw [emit_unfiltered, List.mem_singleton] at he
    exact ⟨_, he, by simp⟩
  · rw [emitProgress_unfiltered, List.mem_singleton] at he
    exact ⟨_, he, by simp⟩

omit [DecidableEq δ] in
theorem wellFormed_start (w : Watch) (status : JobStatus) :
    Stream (w.unfiltered.start status : State δ) ∧ WellFormed (w.unfiltered.start status : State δ) := by
  have hnot : ∀ event c, event ∉ [.cellInserted, .jobStarted] →
      ∀ e ∈ (w.unfiltered.start status : State δ).events, ¬ e.isOf event c = true := by
    intro event c hevent
    apply not_isOf
    rintro e he p hp rfl
    obtain ⟨p', rfl, hp'⟩ := mem_start he
    cases hp
    exact hevent hp'
  have hstream : Stream (w.unfiltered.start status : State δ) := by
    refine ⟨fun _ p hp => ?_, nofun, fun c => ?_, fun c => ?_, nofun⟩
    · obtain ⟨e, he, hp⟩ := List.mem_filterMap.mp hp
      obtain ⟨p', rfl, hp'⟩ := mem_start he
      cases hp
      rw [List.mem_cons, List.mem_singleton] at hp'
      rcases hp' with hp' | hp' <;> rw [isFinal, hp'] <;> rfl
    · exact List.countP_eq_zero.mpr (hnot _ c (by simp))
    · exact .of_none (hnot _ c (by simp))
  exact ⟨hstream, hstream.ordered, fun c => .of_none (hnot _ c (by simp)),
    fun c => .of_none (hnot _ c (by simp))⟩

theorem stream_run {status : JobStatus}
    (h : Run (w.unfiltered.step printable) anyStep (w.unfiltered.start status) s) : Stream s := by
  apply Run.invariant (I := Stream) h (wellFormed_start w status).1
  intro u l u' hu _ hstep
  exact stream_step hu (stream_cases hu.counted hstep)

/-- Whatever the loop reads, a cell starts once and before its outputs, and one event ends the
stream. -/
theorem stream_ordered {status : JobStatus}
    (h : Run (w.unfiltered.step printable) anyStep (w.unfiltered.start status) s) : Ordered s :=
  (stream_run h).ordered

/-- What a call writes is what its options leave in of the stream. -/
theorem run_filtered {G : State δ → Label δ → Prop} {status : JobStatus}
    (h : Run (w.unfiltered.step printable) G (w.unfiltered.start status) s) :
    Run (w.step printable) anyStep (w.start status) (w.filtered s) := by
  induction h with
  | refl =>
      rw [start_filtered]
      exact .refl
  | @tail t u l _ _ hstep ih =>
      have hfiltered : w.step printable (w.filtered t) l = some (w.filtered u) := by
        rw [step_filtered, hstep]
        rfl
      exact .tail ih trivial hfiltered

/-- In a call that calls no cell completed but those that the job has executed, and that it has
noted as started, the stream is well formed; the first step that does otherwise breaks it. -/
theorem watch_stream_well_formed {status : JobStatus}
    (h : Run (w.unfiltered.step printable) (fun s l => w.completesExecuted s l = true)
      (w.unfiltered.start status) s) :
    Run (w.step printable) anyStep (w.start status) (w.filtered s) ∧ WellFormed s ∧
      ∀ l s', w.unfiltered.step printable s l = some s' →
        (WellFormed s' ↔ w.completesExecuted s l = true) := by
  have hcases : ∀ {u u' : State δ} {l : Label δ}, Stream u →
      w.unfiltered.step printable u l = some u' → StreamCase w u l u' :=
    fun hu hstep => stream_cases hu.counted hstep
  have hwell : WellFormed s := by
    refine Run.invariant_of (J := Stream) h (fun t ht => stream_run ht.weaken)
      (wellFormed_start w status).2 ?_
    intro u l u' hu _ hwell hexecuted hstep
    exact (wellFormed_step_iff hwell hu (hcases hu hstep)).mpr hexecuted
  have hs := stream_run h.weaken
  exact ⟨run_filtered h, hwell, fun l s' hstep => wellFormed_step_iff hwell hs (hcases hs hstep)⟩

section Schedules

/-- A job of two cells, watched with `--stream-json --progress full`. -/
private def fullWatch : Watch := ⟨.streamJson, .full, ["first", "second"], [], false⟩

private def printedLine : Output Unit := ⟨"stream", some "stdout", some (.string "1".toList), ()⟩

/-- The job has executed both cells by the time they are read. -/
private def bothExecuted : List (Label Unit) :=
  [.begins "first", .begins "second", .refreshed .succeeded, .outputs [printedLine], .outputs [],
    .executionCount (some 2), .settles]

/-- The job has failed in the first cell, and has left the second alone. -/
private def firstFailed : List (Label Unit) :=
  [.begins "first", .refreshed .failed, .outputs [printedLine], .outputs [], .executionCount none,
    .settles]

theorem executed_cells_completed :
    ∃ s : State Unit, s.point = .returned ∧ completed "second" ∈ s.events ∧ WellFormed s := by
  obtain ⟨s, hrun, hpoint, hmem⟩ :=
    @exists_guarded_run_of_exec _ _ (fullWatch.unfiltered.step fun _ => true)
      (fun s l => fullWatch.completesExecuted s l = true) _
      (fullWatch.unfiltered.start .queued) bothExecuted
      (fun s => s.point = .returned ∧ completed "second" ∈ s.events) _ (by decide) (by decide)
  exact ⟨s, hpoint, hmem, (watch_stream_well_formed hrun).2.1⟩

/-- A cell after the one that failed is called completed. -/
theorem unexecuted_cell_completed :
    ∃ s : State Unit,
      Run (fullWatch.unfiltered.step fun _ => true) anyStep (fullWatch.unfiltered.start .queued) s ∧
        s.point = .returned ∧ s.status = .failed ∧ completed "second" ∈ s.events ∧
        ¬ WellFormed s := by
  obtain ⟨s, hrun, hpoint, hstatus, hmem, hbegun⟩ :=
    @exists_run_of_exec _ _ (fullWatch.unfiltered.step fun _ => true)
      (fullWatch.unfiltered.start .queued) firstFailed
      (fun s => s.point = .returned ∧ s.status = .failed ∧ completed "second" ∈ s.events ∧
        .began "second" ∉ s.events)
      _ (by decide)
  refine ⟨s, hrun, hpoint, hstatus, hmem, fun hwell => ?_⟩
  obtain ⟨pre, post, heq⟩ := List.append_of_mem hmem
  obtain ⟨e, he, rfl⟩ := hwell.completedBegun "second" pre _ post heq rfl
  exact hbegun (heq ▸ List.mem_append_left _ he)

end Schedules

end Watch

end Hypernote
