import Hypernote.Client.JobHandle
import Hypernote.Foundation.JsonValue
import Hypernote.Proofs.JobHistories
/-!
# A handle from the id of a job

What a job was asked for stays in the ledger for as long as the ledger has the job.  So a client
that knows nothing but the id of a job gets the handle that the client has which has submitted it.
-/

namespace Hypernote

open Foundation

/-! ## What a job was asked for -/

/-- What is written when the job is created and never afterwards. -/
def Job.asked (job : Job) : NotebookId × Actor × JobAction × Option String :=
  (job.notebookId, job.actor, job.action, job.targetCells)

/-- `json.dumps(cell_ids)`. -/
def targetText (cells : List CellId) : String := (Json.arr (cells.map .str)).dumps

namespace Server

variable {s s' : Server} {l : Label} {t : TaskId} {op : Op} {pc : Pc} {n : Next} {j : JobId}
  {nb : NotebookId} {cells : List CellId} {job : Job} {es : List Event}

theorem JobChange.asked (h : JobChange s op l pc n j (some job)) :
    (∃ old, s.ledger.getJob j = some old ∧ job.asked = old.asked) ∨ j = s.ledger.nextJobId := by
  cases h with
  | forgets h => exact .inl ⟨job, h.of_some, rfl⟩
  | created hj => exact .inr hj
  | written _ _ _ hold h =>
      cases h.of_some
      exact .inl ⟨_, hold, rfl⟩
  | answered _ _ _ hold => exact .inl ⟨_, hold, rfl⟩
  | put _ _ _ _ hold => exact .inl ⟨_, hold, rfl⟩

/-- The jobs that have been queued are recorded with their cells. -/
def Asked (s : Server) : Prop :=
  ∀ j nb cells job, .queued j nb cells ∈ s.events → s.ledger.getJob j = some job →
    ∃ actor, job.asked = (nb, actor, .execute, some (targetText cells))

/-- A job that has been queued is not the next one. -/
theorem queued_lt (hs : Histories s) (hjobs : JobsInv s) (h : .queued j nb cells ∈ s.events) :
    j < s.ledger.nextJobId := by
  obtain ⟨t, run, pc, ht, rfl, -⟩ := hs.queued h
  exact hjobs.handedOut ht

/-- A job that is queued by a step is recorded by it. -/
theorem asked_new (h : StepCase s l s') (hes : s'.events = s.events ++ es)
    (hmem : .queued j nb cells ∈ es) (hjob : s'.ledger.getJob j = some job) :
    ∃ actor, job.asked = (nb, actor, .execute, some (targetText cells)) := by
  obtain ⟨es', hes', hcases⟩ := h.events
  cases List.append_cancel_left (hes.symm.trans hes')
  rcases hcases with hcontrol | ⟨t, op, pc, n, ht, hmove, rfl, hmover, -⟩
  · cases hcontrol _ hmem
  · rcases hmove.queues hes with hnone | ⟨o, nb', r, cells', actor, rfl⟩
    · have hmem' : (j, cells) ∈ queuedJobs nb es :=
        List.mem_filterMap.mpr ⟨_, hmem, by simp [Event.queuedOn]⟩
      rw [hnone nb] at hmem'
      cases hmem'
    · have hnew : es = [.queued s.ledger.nextJobId nb' cells'] :=
        (List.append_cancel_left (show s.events ++ [_] = s.events ++ es from hes)).symm
      rw [hnew] at hmem
      cases List.mem_singleton.mp hmem
      have hcreated := hjob.symm.trans MemoryLedger.getJob_createJob_self
      cases hcreated
      exact ⟨actor, rfl⟩

theorem Asked.step (hs : Asked s) (hinv : ServerInv s) (hhistories : Histories s)
    (h : StepCase s l s') : Asked s' := by
  intro j nb cells job hmem hjob
  obtain ⟨es, hes, -⟩ := h.events
  rw [hes] at hmem
  rcases List.mem_append.mp hmem with hold | hnew
  · have hlt := queued_lt hhistories hinv.jobs hold
    have hkept : ∃ old, s.ledger.getJob j = some old ∧ job.asked = old.asked := by
      rcases hinv.jobs.job_change h j with hsame | ⟨t, op, pc, n, -, -, -, -, hchange⟩
      · exact ⟨job, hsame ▸ hjob, rfl⟩
      · rw [hjob] at hchange
        exact hchange.asked.resolve_right hlt.ne
    obtain ⟨old, hget, hasked⟩ := hkept
    rw [hasked]
    exact hs j nb cells old hold hget
  · exact asked_new h hes hnew hjob

theorem asked_run {ttl : Time} {maxCompleted : Int} {alive : KernelId → Bool}
    {kernelspec : NotebookId → Option String}
    (h : ServerRun anyStep (boot ttl maxCompleted alive kernelspec) s) : Asked s :=
  h.invariant_of (J := fun s => ServerInv s ∧ Histories s)
    (fun _ hu => ⟨serverInv_run hu, histories_run hu⟩) (fun _ _ _ _ hmem => by cases hmem)
    fun _ _ _ hinv _ hs _ hstep => hs.step hinv.1 hinv.2 (step_cases hstep)

end Server

/-! ## What the client reads -/

theorem JobStatus.ofValue?_value (status : JobStatus) :
    JobStatus.ofValue? status.value = some status := by
  cases status <;> decide

theorem uniqueKeys_texts (texts : List String) : (Json.arr (texts.map .str)).UniqueKeys := by
  induction texts with
  | nil => trivial
  | cons text texts ih => exact ⟨trivial, ih⟩

/-- The text of the cells is read as the cells. -/
theorem loads_targetText (cells : List CellId) :
    Json.loads (targetText cells).toList = some (.arr (cells.map .str)) := by
  rw [targetText, Json.dumps, String.toList_ofList, Json.dumpsChars, Json.loads_writeChars,
    (uniqueKeys_texts cells).dicts_eq]

theorem targetText_ne (cells : List CellId) : targetText cells ≠ "" := by
  intro h
  have hread := loads_targetText cells
  rw [h] at hread
  cases hread

namespace JobHandle

variable {wire : Wire} {l : MemoryLedger} {j : JobId} {job : Job} {cells : List CellId}

theorem uniqueKeys_payload (wire : Wire) (job : Job) :
    (JobHandler.payload wire job).UniqueKeys := by
  have hnull {α : Type} {f : α → Json} (o : Option α) (hf : ∀ a, (f a).UniqueKeys) :
      (o.elim .null f).UniqueKeys := by
    cases o with
    | none => trivial
    | some a => exact hf a
  have hkeys : ["job_id", "notebook_id", "actor_id", "actor_type", "action", "status",
      "target_cells", "request_uids", "created_at", "started_at", "completed_at",
      "runtime_id"].Nodup := by decide
  refine ⟨hkeys, trivial, trivial, trivial, trivial, trivial, trivial, ?_,
    uniqueKeys_texts job.requestUids, trivial, ?_, ?_, ?_, trivial⟩
  · exact hnull _ fun _ => trivial
  · exact hnull _ fun _ => trivial
  · exact hnull _ fun _ => trivial
  · exact hnull _ fun _ => trivial

/-- The body of the response is read as what was written. -/
theorem responseJson_get (hjob : l.getJob j = some job) :
    responseJson (JobHandler.get wire l j) = some (JobHandler.payload wire job) := by
  rw [JobHandler.get, hjob]
  exact (Json.loads_writeChars _ _).trans (by rw [(uniqueKeys_payload wire job).dicts_eq])

theorem targetCells?_payload (h : job.targetCells = some (targetText cells)) :
    targetCells? (JobHandler.payload wire job) = some (some (cells.map .str)) := by
  have hget : (JobHandler.payload wire job).get? "target_cells" =
      some (.str (targetText cells)) := by
    rw [JobHandler.payload, h]
    rfl
  have hne := targetText_ne cells
  unfold targetCells?
  rw [hget]
  split
  case h_1 heq => cases heq
  case h_2 heq => cases heq
  case h_3 heq => exact absurd (Json.str.inj (Option.some.inj heq)) hne
  case h_4 heq =>
      cases heq
      rw [loads_targetText]
      rfl
  case h_5 htext heq => exact absurd (Option.some.inj heq).symm (htext _)

theorem status_payload (wire : Wire) (job : Job) :
    (text? (JobHandler.payload wire job) "status").bind JobStatus.ofValue? = some job.status :=
  JobStatus.ofValue?_value job.status

section

variable {ttl : Time} {maxCompleted : Int} {alive : KernelId → Bool}
  {kernelspec : NotebookId → Option String} {s : Server} {nb : NotebookId}
  (h : ServerRun anyStep (Server.boot ttl maxCompleted alive kernelspec) s)
  (hqueued : .queued j nb cells ∈ s.events)

include h hqueued

theorem targetCells?_of_run (hjob : s.ledger.getJob j = some job) :
    targetCells? (JobHandler.payload wire job) = some (some (cells.map .str)) := by
  obtain ⟨actor, hasked⟩ := Server.asked_run h j nb cells job hqueued hjob
  exact targetCells?_payload (congrArg (·.2.2.2) hasked)

/-- What the client makes of the response, if there is one. -/
theorem getJob_eq (wire : Wire) : getJob wire s.ledger j =
    (s.ledger.getJob j).map fun job => { submitted wire j nb cells with status := job.status } := by
  cases hjob : s.ledger.getJob j with
  | none =>
      rw [getJob, JobHandler.get, hjob]
      rfl
  | some job =>
      obtain ⟨actor, hasked⟩ := Server.asked_run h j nb cells job hqueued hjob
      have hid := (Server.indexed_run h).keyed hjob
      have hpath : job.notebookId = nb := congrArg Prod.fst hasked
      rw [getJob, responseJson_get hjob, Option.bind_some, ofPayload,
        targetCells?_of_run h hqueued hjob, status_payload wire job]
      show some (JobHandle.mk (wire.jobId job.jobId) job.status _ job.notebookId) = _
      rw [hid, hpath]
      rfl

theorem refresh_eq (wire : Wire) (handle : JobHandle) : refresh wire s.ledger j handle =
    (s.ledger.getJob j).map fun job =>
      { handle with status := job.status, cellIds := cells.map .str } := by
  cases hjob : s.ledger.getJob j with
  | none =>
      rw [refresh, JobHandler.get, hjob]
      rfl
  | some job =>
      rw [refresh, responseJson_get hjob, Option.bind_some, update,
        targetCells?_of_run h hqueued hjob, status_payload wire job]
      rfl

end

/-- In every run: of a job that has been accepted, a client that has only the id gets the handle
that `run` has returned, with the present status, for as long as the ledger has the job; a refresh
of the handle gives the same. -/
theorem handle_from_id {ttl : Time} {maxCompleted : Int} {alive : KernelId → Bool}
    {kernelspec : NotebookId → Option String} {s : Server} {nb : NotebookId}
    (h : ServerRun anyStep (Server.boot ttl maxCompleted alive kernelspec) s)
    (hqueued : .queued j nb cells ∈ s.events) (wire : Wire) :
    getJob wire s.ledger j =
        (s.ledger.getJob j).map (fun job =>
          { submitted wire j nb cells with status := job.status }) ∧
      refresh wire s.ledger j (submitted wire j nb cells) = getJob wire s.ledger j := by
  refine ⟨getJob_eq h hqueued wire, ?_⟩
  rw [getJob_eq h hqueued wire, refresh_eq h hqueued wire]
  rfl

/-- The cells of the job have quotes in their ids, and the job runs. -/
private def oneJobRuns : List Label :=
  [.call (.queueExecution "nb" ["a\"b", ""] ⟨"alice", .human⟩ (some "python3")),
    .proceed (.quiet 0), .proceed (.quiet 0), .resume 0 (.raised (.http 404 "")) (.quiet 0),
    .proceed (.quiet 0), .proceed (.quiet 0),
    .resume 0 (.session ⟨"session", "kernel", some "python3"⟩) (.quiet 0), .proceed (.quiet 0),
    .resume 1 .returned (.quiet 0)] ++ List.replicate 6 (.proceed (.quiet 0))

theorem running_job_reattached :
    ∃ s : Server, (s.ledger.getJob 0).map (·.status) = some .running ∧
      ∀ wire : Wire,
        getJob wire s.ledger 0 = (s.ledger.getJob 0).map (fun job =>
          { submitted wire 0 "nb" ["a\"b", ""] with status := job.status }) ∧
        refresh wire s.ledger 0 (submitted wire 0 "nb" ["a\"b", ""]) =
          getJob wire s.ledger 0 := by
  obtain ⟨s, hrun, hqueued, hstatus⟩ :=
    (Server.boot 10 20 (fun _ => false) fun _ => none).exists_run oneJobRuns
      (fun s => .queued 0 "nb" ["a\"b", ""] ∈ s.events ∧
        (s.ledger.getJob 0).map (·.status) = some .running)
      (by decide +kernel)
  exact ⟨s, hstatus, fun wire => handle_from_id hrun hqueued wire⟩

end JobHandle

end Hypernote
