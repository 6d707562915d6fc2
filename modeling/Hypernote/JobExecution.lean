import Hypernote.Server.State
/-!
# What executing a job means

The meaning of `_run_job` apart from locks, tasks and the ledger.  The cells are requested in
order, each after the result of the one before; the first error or exception ends the job.
An `Execution` is one run of this description: the events of the job so far, the uids of its
requests, and how far it has got.
-/

namespace Hypernote

/-- The event belongs to the execution of the job. -/
def Event.isOf (j : JobId) : Event → Bool
  | .put j' _ _ _ | .polled j' _ | .stepRaised j' _ => j' = j
  | _ => false

/-- How far a job has got, with the cells that have not been requested. -/
inductive Stage
  | ready (rest : List CellId)
  | requested (rest : List CellId)
  | answered (rest : List CellId) (result : ExecutionResult)
  | ended (status : JobStatus)

inductive Execution (k : KernelId) (j : JobId) (cells : List CellId) :
    List Event → List RequestUid → Stage → Prop
  | start : Execution k j cells [] [] (.ready cells)
  | put {es uids c rest uid} (h : Execution k j cells es uids (.ready (c :: rest))) :
      Execution k j cells (es ++ [.put j c k uid]) (uids ++ [uid]) (.requested rest)
  | polled {es uids rest result} (h : Execution k j cells es uids (.requested rest)) :
      Execution k j cells (es ++ [.polled j result]) uids (.answered rest result)
  | passed {es uids rest result} (h : Execution k j cells es uids (.answered rest result))
      (hresult : result.isError = false) : Execution k j cells es uids (.ready rest)
  | succeeded {es uids} (h : Execution k j cells es uids (.ready [])) :
      Execution k j cells es uids (.ended .succeeded)
  | failed {es uids rest result} (h : Execution k j cells es uids (.answered rest result))
      (hresult : result.isError = true) : Execution k j cells es uids (.ended .failed)
  | raised {es uids stage error} (h : Execution k j cells es uids stage)
      (hstage : ∀ status, stage ≠ .ended status) :
      Execution k j cells (es ++ [.stepRaised j error]) uids (.ended .failed)

/-! ## Reading a history -/

def Event.cell? : Event → Option CellId
  | .put _ cellId _ _ => some cellId
  | _ => none

def Event.uid? : Event → Option RequestUid
  | .put _ _ _ uid => some uid
  | _ => none

def Event.result? : Event → Option ExecutionResult
  | .polled _ result => some result
  | _ => none

def Event.isRaise : Event → Bool
  | .stepRaised _ _ => true
  | _ => false

/-- The cells that have been requested, in order. -/
def requestedCells (es : List Event) : List CellId := es.filterMap Event.cell?

def requestUids (es : List Event) : List RequestUid := es.filterMap Event.uid?

/-- The results that the polls have returned, in order. -/
def polledResults (es : List Event) : List ExecutionResult := es.filterMap Event.result?

/-- Every cell has been requested, every result is there and is no error, and nothing was
raised. -/
structure Succeeds (cells : List CellId) (es : List Event) : Prop where
  requested : requestedCells es = cells
  polled : (polledResults es).length = cells.length
  results : ∀ result ∈ polledResults es, result.isError = false
  raised : ∀ e ∈ es, e.isRaise = false

/-- A result is an error, or something was raised. -/
def Fails (es : List Event) : Prop :=
  (∃ result ∈ polledResults es, result.isError = true) ∨ ∃ e ∈ es, e.isRaise = true

theorem Succeeds.not_fails {cells : List CellId} {es : List Event} (h : Succeeds cells es) :
    ¬ Fails es := by
  rintro (⟨result, hresult, herror⟩ | ⟨e, he, hraise⟩)
  · rw [h.results result hresult] at herror
    cases herror
  · rw [h.raised e he] at hraise
    cases hraise

namespace Execution

variable {k : KernelId} {j : JobId} {cells : List CellId} {es : List Event}
  {uids : List RequestUid} {stage : Stage}

theorem isOf (h : Execution k j cells es uids stage) : ∀ e ∈ es, e.isOf j = true := by
  induction h with
  | start => simp
  | put _ ih => simpa [Event.isOf, or_imp, forall_and] using ih
  | polled _ ih => simpa [Event.isOf, or_imp, forall_and] using ih
  | passed _ _ ih => exact ih
  | succeeded _ ih => exact ih
  | failed _ _ ih => exact ih
  | raised _ _ ih => simpa [Event.isOf, or_imp, forall_and] using ih

/-- The requests go to the kernel. -/
theorem kernel (h : Execution k j cells es uids stage) {j' : JobId} {c : CellId} {k' : KernelId}
    {uid : RequestUid} (he : .put j' c k' uid ∈ es) : k' = k := by
  induction h with
  | start => simp at he
  | put _ ih =>
      rcases List.mem_append.mp he with he | he
      · exact ih he
      · cases List.mem_singleton.mp he
        rfl
  | polled _ ih => exact ih (by simpa using he)
  | passed _ _ ih => exact ih he
  | succeeded _ ih => exact ih he
  | failed _ _ ih => exact ih he
  | raised _ _ ih => exact ih (by simpa using he)

theorem uids_eq (h : Execution k j cells es uids stage) : uids = requestUids es := by
  induction h with
  | start => rfl
  | put _ ih => simp [requestUids, Event.uid?, ih]
  | polled _ ih => simpa [requestUids, Event.uid?, List.filterMap_cons] using ih
  | passed _ _ ih => exact ih
  | succeeded _ ih => exact ih
  | failed _ _ ih => exact ih
  | raised _ _ ih => simpa [requestUids, Event.uid?, List.filterMap_cons] using ih

/-- What the stage of a job says about its history. -/
inductive Reached (cells : List CellId) (es : List Event) : Stage → Prop
  | ready {rest} (hcells : requestedCells es ++ rest = cells)
      (hcount : (polledResults es).length = (requestedCells es).length)
      (hresults : ∀ result ∈ polledResults es, result.isError = false)
      (hraised : ∀ e ∈ es, e.isRaise = false) : Reached cells es (.ready rest)
  | requested {rest} (hcells : requestedCells es ++ rest = cells)
      (hcount : (polledResults es).length + 1 = (requestedCells es).length)
      (hresults : ∀ result ∈ polledResults es, result.isError = false)
      (hraised : ∀ e ∈ es, e.isRaise = false) : Reached cells es (.requested rest)
  | answered {rest result} (hcells : requestedCells es ++ rest = cells)
      (hcount : (polledResults es).length = (requestedCells es).length)
      (hresults : ∀ result' ∈ polledResults es, result'.isError = false ∨ result' = result)
      (hresult : result ∈ polledResults es)
      (hraised : ∀ e ∈ es, e.isRaise = false) : Reached cells es (.answered rest result)
  | succeeded (h : Succeeds cells es) : Reached cells es (.ended .succeeded)
  | failed (hcells : requestedCells es <+: cells) (h : Fails es) : Reached cells es (.ended .failed)

theorem reached (h : Execution k j cells es uids stage) : Reached cells es stage := by
  induction h with
  | start => exact .ready rfl rfl (by simp [polledResults]) (by simp)
  | @put es uids c rest uid _ ih =>
      cases ih with
      | ready hcells hcount hresults hraised =>
          refine .requested ?_ ?_ ?_ ?_
          · simpa [requestedCells, Event.cell?] using hcells
          · simpa [requestedCells, polledResults, Event.cell?, Event.result?,
              List.filterMap_cons] using hcount
          · simpa [polledResults, Event.result?, List.filterMap_cons] using hresults
          · simpa [Event.isRaise, or_imp, forall_and] using hraised
  | @polled es uids rest result _ ih =>
      cases ih with
      | requested hcells hcount hresults hraised =>
          refine .answered ?_ ?_ ?_ ?_ ?_
          · simpa [requestedCells, Event.cell?, List.filterMap_cons] using hcells
          · simpa [requestedCells, polledResults, Event.cell?, Event.result?,
              List.filterMap_cons] using hcount
          · intro result' hresult'
            simp only [polledResults, List.filterMap_append, List.mem_append] at hresult'
            rcases hresult' with hresult' | hresult'
            · exact .inl (hresults result' hresult')
            · exact .inr (by simpa [Event.result?] using hresult')
          · simp [polledResults, Event.result?]
          · simpa [Event.isRaise, or_imp, forall_and] using hraised
  | passed _ hresult ih =>
      cases ih with
      | answered hcells hcount hresults _ hraised =>
          refine .ready hcells hcount ?_ hraised
          intro result' hresult'
          rcases hresults result' hresult' with hok | rfl
          · exact hok
          · exact hresult
  | succeeded _ ih =>
      cases ih with
      | ready hcells hcount hresults hraised =>
          rw [List.append_nil] at hcells
          exact .succeeded ⟨hcells, hcells ▸ hcount, hresults, hraised⟩
  | failed _ hresult ih =>
      cases ih with
      | answered hcells _ _ hmem _ =>
          exact .failed ⟨_, hcells⟩ (.inl ⟨_, hmem, hresult⟩)
  | @raised es uids stage error _ hstage ih =>
      have hprefix : requestedCells es <+: cells := by
        cases ih with
        | ready hcells => exact ⟨_, hcells⟩
        | requested hcells => exact ⟨_, hcells⟩
        | answered hcells => exact ⟨_, hcells⟩
        | succeeded => exact absurd rfl (hstage _)
        | failed => exact absurd rfl (hstage _)
      refine .failed ?_ (.inr ⟨.stepRaised j error, by simp, rfl⟩)
      simpa [requestedCells, Event.cell?, List.filterMap_cons] using hprefix

/-- The cells that a job has requested are a prefix of its cells. -/
theorem requested_prefix (h : Execution k j cells es uids stage) : requestedCells es <+: cells := by
  cases h.reached with
  | ready hcells => exact ⟨_, hcells⟩
  | requested hcells => exact ⟨_, hcells⟩
  | answered hcells => exact ⟨_, hcells⟩
  | succeeded hsucceeds => exact hsucceeds.requested ▸ List.prefix_rfl
  | failed hcells => exact hcells

/-- A job that has ended has succeeded or failed, according to its history. -/
theorem status_of_ended {status : JobStatus} (h : Execution k j cells es uids (.ended status)) :
    status = .succeeded ∧ Succeeds cells es ∨ status = .failed ∧ Fails es := by
  cases h.reached with
  | succeeded hsucceeds => exact .inl ⟨rfl, hsucceeds⟩
  | failed _ hfails => exact .inr ⟨rfl, hfails⟩

/-- The last element of a list that is split in two. -/
theorem append_singleton_eq {es before after : List Event} {e e' : Event}
    (h : es ++ [e] = before ++ e' :: after) :
    es = before ∧ e = e' ∨ ∃ after', es = before ++ e' :: after' := by
  rcases List.eq_nil_or_concat after with rfl | ⟨after', last, rfl⟩
  · obtain ⟨hes, hlast⟩ := List.append_inj' h rfl
    exact .inl ⟨hes, List.singleton_inj.mp hlast⟩
  · rw [List.concat_eq_append, ← List.cons_append, ← List.append_assoc] at h
    exact .inr ⟨after', (List.append_inj' h rfl).1⟩

/-- A request is put after all those before have been answered without an error, and nothing
has been raised. -/
theorem answered_before_put (h : Execution k j cells es uids stage) {before after : List Event}
    {c : CellId} {k' : KernelId} {uid : RequestUid} (hes : es = before ++ .put j c k' uid :: after) :
    (polledResults before).length = (requestedCells before).length ∧
      (∀ result ∈ polledResults before, result.isError = false) ∧
      ∀ e ∈ before, e.isRaise = false := by
  induction h generalizing after with
  | start => simp at hes
  | put h ih =>
      rcases append_singleton_eq hes with ⟨rfl, -⟩ | ⟨after', hes⟩
      · cases h.reached with
        | ready hcells hcount hresults hraised => exact ⟨hcount, hresults, hraised⟩
      · exact ih hes
  | polled _ ih =>
      rcases append_singleton_eq hes with ⟨-, he⟩ | ⟨after', hes⟩
      · cases he
      · exact ih hes
  | passed _ _ ih => exact ih hes
  | succeeded _ ih => exact ih hes
  | failed _ _ ih => exact ih hes
  | raised _ _ ih =>
      rcases append_singleton_eq hes with ⟨-, he⟩ | ⟨after', hes⟩
      · cases he
      · exact ih hes

end Execution

end Hypernote
