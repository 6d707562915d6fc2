import Hypernote.Server.Events
/-!
# Which kernel `create_session` is asked for

The order of the documentation is: the caller's override, the name in the notebook's
metadata, `"python3"`.  `queue_execution` and the runtime-open handler resolve the
name before `ensure_room`; `_run_job`, `send_stdin` and `interrupt` do not, and any
of them can be the call that creates the session.
-/

namespace Hypernote

open Foundation

namespace Op

/-- The `kernel_name` that the caller of an operation gives. -/
def override : Op → Option String
  | .queueExecution _ _ _ name => name
  | .runtimeOpen _ _ name => name
  | _ => none

/-- The operations of the orchestrator and the runtime-open handler, as against
direct calls of the manager's methods. -/
def isOrchestrated : Op → Bool
  | .queueExecution .. | .runtimeOpen .. | .runJob _ | .sendStdin .. | .interrupt .. => true
  | _ => false

end Op

/-- The name in the metadata, as the operation read it if it did. -/
def KernelChoice.metadataRead (choice : KernelChoice) (current : Option String) : Option String :=
  match choice with
  | .resolved _ metadata => metadata
  | _ => current

/-- The documented order of kernel selection. -/
def askedKernelName (op : Op) (choice : KernelChoice) (metadata : Option String) : String :=
  resolveKernelName op.override (choice.metadataRead metadata)

namespace Server

variable {s s' : Server} {op : Op} {nb : NotebookId} {choice : KernelChoice}
  {name : String} {metadata : Option String} {l : Label}

/-- The call of `create_session` that the step makes, if any, asks for the notebook's
own kernel or for one that its caller resolved. -/
def resolvedOrDefault (s : Server) (l : Label) : Bool :=
  match s.moving l with
  | some ⟨op, .startRoom nb _⟩ =>
      !op.isOrchestrated || op.resolves.isSome || kernelspecName (s.kernelspec nb) = "python3"
  | _ => true

theorem orDefault_ne_empty {name : Option String} {default : String} (h : default ≠ "") :
    orDefault name default ≠ "" := by
  unfold orDefault
  split
  · exact h
  · split <;> assumption

theorem kernelspecName_ne_empty : kernelspecName metadata ≠ "" :=
  orDefault_ne_empty (by decide)

/-- A resolved name is never replaced by the default of `ensure_room`. -/
theorem orDefault_resolveKernelName {explicit : Option String} {default : String} :
    orDefault (some (resolveKernelName explicit metadata)) default =
      resolveKernelName explicit metadata := by
  have h : resolveKernelName explicit metadata ≠ "" := orDefault_ne_empty kernelspecName_ne_empty
  simp [orDefault, h]

/-- How the recorded choice depends on the call. -/
theorem ensures_cases (hop : op.isOrchestrated = true) (h : op.ensures nb choice) :
    (op.resolves.isSome = true ∧ ∃ read, choice = .resolved op.override read) ∨
      (op.resolves = none ∧ op.override = none ∧ choice = .unresolved) := by
  rcases h with h | ⟨explicit, read, h, rfl⟩ | ⟨⟨jobId, value, actor, rfl⟩, rfl⟩
  · cases op <;> simp_all [Op.isOrchestrated, Op.loads, Op.resolves, Op.override]
  · left
    cases op <;> simp_all [Op.isOrchestrated, Op.resolves, Op.override]
  · exact .inr ⟨rfl, rfl, rfl⟩

/-- The name passed by one call of `create_session` is the one asked for exactly when
the call has resolved it or nothing but the default was to be found. -/
theorem passed_iff_asked (hop : op.isOrchestrated = true) (h : op.ensures nb choice) :
    orDefault choice.kernelName "python3" = askedKernelName op choice metadata ↔
      op.resolves.isSome = true ∨ kernelspecName metadata = "python3" := by
  rcases ensures_cases hop h with ⟨hres, read, rfl⟩ | ⟨hres, hover, rfl⟩
  · rw [KernelChoice.kernelName, orDefault_resolveKernelName]
    exact ⟨fun _ => .inl hres, fun _ => rfl⟩
  · have hasked : askedKernelName op .unresolved metadata = kernelspecName metadata := by
      rw [askedKernelName, hover]
      rfl
    rw [hasked, hres]
    simp only [KernelChoice.kernelName, orDefault, Option.isSome_none, Bool.false_eq_true, false_or]
    exact eq_comm

/-- What is known of every recorded call of `create_session`. -/
def SessionsRecorded (s : Server) : Prop :=
  ∀ ⦃op nb name choice metadata⦄, .createSession op nb name choice metadata ∈ s.events →
    name = orDefault choice.kernelName "python3" ∧ op.ensures nb choice

/-- A step that records a call of `create_session` is a move from `startRoom`. -/
theorem createSession_step (h : StepCase s l s')
    (he : .createSession op nb name choice metadata ∈ s'.events) :
    .createSession op nb name choice metadata ∈ s.events ∨
      ∃ t, s.tasks t = some ⟨op, .startRoom nb choice⟩ ∧
        s.moving l = some ⟨op, .startRoom nb choice⟩ ∧ name = orDefault choice.kernelName "python3" ∧ metadata = s.kernelspec nb := by
  obtain ⟨es, hes, hcase⟩ := h.events
  rw [hes, List.mem_append] at he
  clear hes
  rcases he with he | he
  · exact .inl he
  · rcases hcase with hcontrol | ⟨t, op', pc, n, ht, -, -, hmover, hevents⟩
    · cases hcontrol _ he
    · cases hevents with
      | created hl hpc =>
          subst hpc
          cases List.mem_singleton.mp he
          exact .inr ⟨t, ht, moving_eq hmover ht, rfl, rfl⟩
      | stopping hpc hr hes =>
          rcases hes with rfl | ⟨_, rfl⟩ | ⟨_, rfl⟩ <;> simp at he
      | control hes => cases hes _ he
      | _ => simp at he

theorem sessionsRecorded_step (hw : WellFormed s) (h : StepCase s l s')
    (hs : SessionsRecorded s) : SessionsRecorded s' := by
  intro op nb name choice metadata he
  rcases createSession_step h he with he | ⟨t, ht, -, rfl, -⟩
  · exact hs he
  · exact ⟨rfl, (hw.admits ht).1⟩

section Runs

variable {ttl : Time} {maxCompleted : Int} {alive : KernelId → Bool}
  {kernelspec : NotebookId → Option String}

theorem sessionsRecorded_run {G : Server → Label → Prop}
    (h : ServerRun G (boot ttl maxCompleted alive kernelspec) s) : SessionsRecorded s := by
  refine h.invariant_of (fun t ht => wellFormed_run ht wellFormed_boot) ?_ ?_
  · intro op nb name choice metadata he
    cases he
  · intro s l s' hw _ hs _ hstep
    exact sessionsRecorded_step hw (step_cases hstep) hs

/-- In a run whose unresolved calls find no other kernel named, every call of
`create_session` meets the condition of `passed_iff_asked`. -/
theorem resolvedOrDefault_run
    (h : ServerRun (resolvedOrDefault · ·) (boot ttl maxCompleted alive kernelspec) s)
    (he : .createSession op nb name choice metadata ∈ s.events) (hop : op.isOrchestrated = true) :
    op.resolves.isSome = true ∨ kernelspecName metadata = "python3" := by
  let I : Server → Prop := fun s =>
    ∀ ⦃op nb name choice metadata⦄, .createSession op nb name choice metadata ∈ s.events →
      op.isOrchestrated = true → op.resolves.isSome = true ∨ kernelspecName metadata = "python3"
  suffices hI : I s from hI he hop
  refine h.invariant_of (fun t ht => wellFormed_run ht wellFormed_boot) ?_ ?_
  · intro op nb name choice metadata he
    cases he
  · intro s l s' hw _ hs hguard hstep op nb name choice metadata he hop
    rcases createSession_step (step_cases hstep) he with he | ⟨t, -, hmoving, -, rfl⟩
    · exact hs he hop
    · simpa [resolvedOrDefault, hmoving, hop] using hguard

/-- Every call of `create_session` made by an operation of the orchestrator passes the
name asked for exactly when the operation resolved it first or the notebook names no
kernel but the default; so in a run where no other call happens, each passes it. -/
theorem createSession_asked :
    (∀ s, ServerRun anyStep (boot ttl maxCompleted alive kernelspec) s →
      ∀ op nb name choice metadata, .createSession op nb name choice metadata ∈ s.events →
        op.isOrchestrated = true →
          (name = askedKernelName op choice metadata ↔
            op.resolves.isSome = true ∨ kernelspecName metadata = "python3")) ∧
    (∀ s, ServerRun (resolvedOrDefault · ·) (boot ttl maxCompleted alive kernelspec) s →
      ∀ op nb name choice metadata, .createSession op nb name choice metadata ∈ s.events →
        op.isOrchestrated = true → name = askedKernelName op choice metadata) := by
  constructor
  · intro s h op nb name choice metadata he hop
    obtain ⟨hname, hensures⟩ := sessionsRecorded_run h he
    rw [hname]
    exact passed_iff_asked hop hensures
  · intro s h op nb name choice metadata he hop
    obtain ⟨hname, hensures⟩ := sessionsRecorded_run h he
    rw [hname]
    exact (passed_iff_asked hop hensures).mpr (resolvedOrDefault_run h he hop)

end Runs

section Schedules

/-- A notebook that names `"julia"`. -/
private def juliaNotebook : Server := boot 10 20 (fun _ => false) fun _ => some "julia"

/-- From the call of `_load_or_refresh_room` to that of `create_session`. -/
private def creatingSession : List Label :=
  [.proceed (.quiet 0), .resume 0 (.raised (.http 404 "")) (.quiet 0), .proceed (.quiet 0),
    .proceed (.quiet 0)]

theorem createSession_asked_queue :
    ∃ s op, ServerRun (resolvedOrDefault · ·) juliaNotebook s ∧
      .createSession op "nb" "julia" (.resolved none (some "julia")) (some "julia") ∈ s.events ∧
      "julia" = askedKernelName op (.resolved none (some "julia")) (some "julia") := by
  obtain ⟨s, hrun, he⟩ := juliaNotebook.exists_guarded_run resolvedOrDefault
    ([.call (.queueExecution "nb" ["cell"] ⟨"alice", .human⟩ none), .proceed (.quiet 0),
      .resume 0 .returned (.quiet 0)] ++ creatingSession)
    (fun s => .createSession (.queueExecution "nb" ["cell"] ⟨"alice", .human⟩ none) "nb" "julia"
      (.resolved none (some "julia")) (some "julia") ∈ s.events)
    (by decide) (by decide)
  exact ⟨s, _, hrun, he, createSession_asked.2 s hrun _ _ _ _ _ he rfl⟩

/-- An interrupt of a notebook without a runtime starts `"python3"` whatever the notebook
names. -/
theorem interrupt_starts_default :
    ∃ s, ServerRun anyStep juliaNotebook s ∧
      ∃ op nb name choice metadata, .createSession op nb name choice metadata ∈ s.events ∧
        op.isOrchestrated = true ∧ name ≠ askedKernelName op choice metadata := by
  obtain ⟨s, hrun, he⟩ := juliaNotebook.exists_run
    ([.call (.interrupt "nb" ⟨"alice", .human⟩), .proceed (.quiet 0)] ++ creatingSession)
    (fun s => .createSession (.interrupt "nb" ⟨"alice", .human⟩) "nb" "python3" .unresolved
      (some "julia") ∈ s.events)
    (by decide)
  exact ⟨s, hrun, _, _, _, _, _, he, rfl, by decide⟩

end Schedules

end Server

end Hypernote
