import Hypernote.Server.WellFormed
/-!
# What one step appends to the history

`EventStep` lists the events of a move together with the program point that produces
them, so that a fact about the history of a run is a fact about program points.
-/

namespace Hypernote

open Foundation

/-- Events at kernels and their clients. -/
def Event.isControl : Event → Bool
  | .sendInput .. | .interruptKernel _ | .subshellInterrupt .. | .subshellCreated ..
  | .subshellReset _ | .kernelDied _ => true
  | _ => false

namespace Server

/-- The events of one move. -/
inductive EventStep (s : Server) (op : Op) (l : Label) (pc : Pc) : List Event → Prop
  | nothing : EventStep s op l pc []
  | created {nb choice o} (hl : l = .proceed o) (hpc : pc = .startRoom nb choice) :
      EventStep s op l pc
        [.createSession op nb (orDefault choice.kernelName "python3") choice (s.kernelspec nb)]
  | stopping {r rest stopped es} (hpc : pc = .stopRoom r rest stopped) (hr : r ∈ s.mgr.rooms)
      (hes : es = [] ∨ (∃ id, es = [.deleteSession r id]) ∨ ∃ k, es = [.shutdownKernel r k]) :
      EventStep s op l pc (.stopping r :: es)
  | stopped {r rest stopped pending nb} (hpc : pc = .stopFinally r rest stopped pending) :
      EventStep s op l pc [.notebookStopped nb]
  | queued {nb r cells} (hpc : pc = .ensured nb r) :
      EventStep s op l pc [.queued s.ledger.nextJobId nb cells]
  | put {job r c cells source k uid} (hop : op = .runJob job)
      (hpc : pc = .readingDocument r (c :: cells) source) :
      EventStep s op l pc [.put job.jobId c k uid]
  | polled {job r cells uid result} (hop : op = .runJob job) (hpc : pc = .polling r cells uid) :
      EventStep s op l pc [.polled job.jobId result]
  | stepRaised {job r error} (hop : op = .runJob job) (hpc : pc = .jobRaised r error) :
      EventStep s op l pc [.stepRaised job.jobId error]
  | control {es} (hes : ∀ e ∈ es, e.isControl = true) : EventStep s op l pc es

variable {s s' : Server} {t : TaskId} {op : Op} {l : Label} {pc : Pc} {n : Next}

theorem TaskStep.events (h : TaskStep s t op l pc n) :
    ∃ es, n.state.events = s.events ++ es ∧ EventStep s op l pc es := by
  have hsame : n.state.events = s.events →
      ∃ es, n.state.events = s.events ++ es ∧ EventStep s op l pc es := by
    intro h
    exact ⟨[], by simp [h], .nothing⟩
  cases h with
  | call h =>
      cases h with
      | queued => exact ⟨_, rfl, .queued rfl⟩
      | kernelSubshell => exact ⟨_, rfl, .control (by simp [Event.isControl])⟩
      | kernelNative => exact ⟨_, rfl, .control (by simp [Event.isControl])⟩
      | sendInput => exact ⟨_, rfl, .control (by simp [Event.isControl])⟩
      | interruptSubshell => exact ⟨_, rfl, .control (by simp [Event.isControl])⟩
      | interruptKernel => exact ⟨_, rfl, .control (by simp [Event.isControl])⟩
      | restarted => exact ⟨_, rfl, .control (by simp [Event.isControl])⟩
      | _ => exact hsame rfl
  | ensure h =>
      cases h with
      | created => exact ⟨_, rfl, .created rfl rfl⟩
      | _ => exact hsame rfl
  | stop h =>
      cases h with
      | unknown => cases op <;> exact hsame rfl
      | already => cases op <;> exact hsame rfl
      | stopping hr hstate hpc hes => exact ⟨_, rfl, .stopping rfl hr hes⟩
      | cleared => cases op <;> exact ⟨_, rfl, .stopped rfl⟩
      | _ => exact hsame rfl
  | job h =>
      cases h with
      | subshellMessage hpc hes hn =>
          refine ⟨_, rfl, ?_⟩
          rcases hes with rfl | ⟨id, rfl⟩
          · exact .nothing
          · exact .control (by simp [Event.isControl])
      | put => exact ⟨_, rfl, .put rfl rfl⟩
      | putForgotten => exact ⟨_, rfl, .put rfl rfl⟩
      | polled => exact ⟨_, rfl, .polled rfl rfl⟩
      | failed => exact ⟨_, rfl, .stepRaised rfl rfl⟩
      | cancelled => exact ⟨_, rfl, .stepRaised rfl rfl⟩
      | _ => exact hsame rfl

/-- Every step extends the history: by events at kernels, or by those of a move. -/
theorem StepCase.events (h : StepCase s l s') :
    ∃ es, s'.events = s.events ++ es ∧ ((∀ e ∈ es, e.isControl = true) ∨
      ∃ t op pc n, s.tasks t = some ⟨op, pc⟩ ∧ TaskStep s t op l pc n ∧ s' = n.commit t op ∧
        s.mover l = some t ∧ EventStep s op l pc es) := by
  cases h with
  | call => exact ⟨[], by simp [spawn], .inl (by simp)⟩
  | task ht h hrun hmover =>
      obtain ⟨es, hes, hevents⟩ := h.events
      exact ⟨es, hes, .inr ⟨_, _, _, _, ht, h, rfl, hmover, hevents⟩⟩
  | @outside c =>
      cases c with
      | kernelDied k => exact ⟨[.kernelDied k], rfl, .inl (by simp [Event.isControl])⟩
      | kernelStarted k => exact ⟨[], by simp [change], .inl (by simp)⟩
      | kernelspecEdited nb name => exact ⟨[], by simp [change], .inl (by simp)⟩
      | kernelAutorestarted k => exact ⟨_, rfl, .inl (by simp [Event.isControl])⟩

/-- What has happened stays in the history. -/
theorem StepCase.mem_events {e : Event} (h : StepCase s l s') (he : e ∈ s.events) :
    e ∈ s'.events := by
  obtain ⟨es, hes, -⟩ := h.events
  rw [hes]
  exact List.mem_append_left es he

theorem mem_events_run {G : Server → Label → Prop} {e : Event} (h : ServerRun G s s')
    (he : e ∈ s.events) : e ∈ s'.events :=
  Run.invariant (I := fun s : Server => e ∈ s.events) h he fun _ _ _ he _ hstep =>
    (step_cases hstep).mem_events he

end Server

end Hypernote
