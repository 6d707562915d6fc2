import Hypernote.Proofs.JobOrder
/-!
# What a job has done, in every run

Runtimes are stopped, kernels die, prompts are answered and tasks are cancelled while a job is
under way.  Whatever happens, what its task has done so far is an `Execution` of the job, and
the ledger, as long as it has the job, has the uids of its requests.  Two jobs that a kernel
has served have not overlapped, unless two rooms have the kernel.
-/

namespace Hypernote

open Foundation MemoryLedger

namespace Pc

theorem isSettled_of_isDone {pc : Pc} (h : pc.isDone = true) : pc.isSettled = true := by
  cases pc <;> first | rfl | cases h

theorem holds_of_isDone {pc : Pc} (h : pc.isDone = true) : pc.holds = none := by
  cases pc <;> first | rfl | cases h

end Pc

/-- How far the execution of a job has got when its task is at a program point, also when it
has been cancelled. -/
inductive StageAt (run : JobRun) : Pc → Stage → Prop
  | reaches {pc stage} (h : Reaches run pc stage) : StageAt run pc stage
  | raised {r error stage} (hstage : ∀ status, stage ≠ .ended status) :
      StageAt run (.jobRaised r error) stage
  | settled {pc stage} (hpc : pc.isSettled = true) : StageAt run pc stage

theorem StageAt.active {run : JobRun} {pc : Pc} {stage : Stage} (h : StageAt run pc stage)
    (hpc : pc.isSettled = false) : ∀ status, stage ≠ .ended status := by
  cases h with
  | reaches hreaches => exact hreaches.active
  | raised hstage => exact hstage
  | settled hsettled =>
      rw [hsettled] at hpc
      cases hpc

namespace Server

/-- What the task of a job has done when it is at a program point. -/
inductive Course (s : Server) (run : JobRun) (history : List Event) : Pc → Prop
  | waiting {pc} (hpc : 2 ≤ pc.rank) (hhistory : history = []) : Course s run history pc
  | working {pc k uids stage} (hk : ∀ r, pc.holds = some r → (s.room r).kernelId = some k)
      (hstage : StageAt run pc stage)
      (hexecution : Execution k run.jobId run.cellIds history uids stage) :
      Course s run history pc

/-- Every job that has been queued has a task, and no other job has one; the task has taken its
course. -/
structure Histories (s : Server) : Prop where
  task : ∀ {e j}, e ∈ s.events → e.isOf j = true → ∃ t run pc,
    s.tasks t = some ⟨.runJob run, pc⟩ ∧ run.jobId = j
  queued : ∀ {j nb cells}, .queued j nb cells ∈ s.events → ∃ t run pc,
    s.tasks t = some ⟨.runJob run, pc⟩ ∧ run.jobId = j ∧ run.cellIds = cells
  listed : ∀ {t run pc}, s.tasks t = some ⟨.runJob run, pc⟩ →
    .queued run.jobId run.notebookId run.cellIds ∈ s.events
  course : ∀ {t run pc}, s.tasks t = some ⟨.runJob run, pc⟩ →
    Course s run (s.events.filter (Event.isOf run.jobId)) pc
  uids : ∀ {t run pc job}, s.tasks t = some ⟨.runJob run, pc⟩ →
    s.ledger.getJob run.jobId = some job →
    job.requestUids = requestUids (s.events.filter (Event.isOf run.jobId))

variable {s s' : Server} {l : Label} {t t' : TaskId} {op op' : Op} {pc pc' : Pc} {n : Next}
  {r r' : RoomId} {nb nb' : NotebookId} {k : KernelId} {run run' : JobRun} {i j : JobId}
  {uids : List RequestUid} {stage : Stage} {history es : List Event} {job : Job}

/-! ## One move of a job -/

theorem Course.commit (h : Course n.state run history pc) :
    Course (n.commit t op) run history pc := by
  cases h with
  | waiting hpc hhistory => exact .waiting hpc hhistory
  | working hk hstage hexecution => exact .working hk hstage hexecution

/-- A move that says nothing, of a job that is inside the `async with`. -/
theorem Course.unsaid {stage' : Stage} (hevents : n.state.events = s.events)
    (hk : ∀ r, n.pc.holds = some r → (n.state.room r).kernelId = some k)
    (hstage : StageAt run n.pc stage')
    (hexecution : Execution k run.jobId run.cellIds history uids stage') :
    ∃ es, n.state.events = s.events ++ es ∧
      Course n.state run (history ++ es.filter (Event.isOf run.jobId)) n.pc := by
  refine ⟨[], by rw [hevents, List.append_nil], ?_⟩
  rw [List.filter_nil, List.append_nil]
  exact .working hk hstage hexecution

/-- A move that says something of its job. -/
theorem Course.said {stage' : Stage} {uids' : List RequestUid} {e : Event}
    (hevents : n.state.events = s.events ++ [e]) (he : e.isOf run.jobId = true)
    (hk : ∀ r, n.pc.holds = some r → (n.state.room r).kernelId = some k)
    (hstage : StageAt run n.pc stage')
    (hexecution : Execution k run.jobId run.cellIds (history ++ [e]) uids' stage') :
    ∃ es, n.state.events = s.events ++ es ∧
      Course n.state run (history ++ es.filter (Event.isOf run.jobId)) n.pc := by
  refine ⟨[e], hevents, ?_⟩
  rw [List.filter_singleton, he]
  exact .working hk hstage hexecution

/-- A job inside the `async with` goes on with its execution, whatever is raised. -/
theorem JobStep.goes_on (h : JobStep s t run l pc n) (hreaches : Reaches run pc stage)
    (hexecution : Execution k run.jobId run.cellIds history uids stage)
    (hkernel : ∀ r, pc.usedRoom = some r → (s.room r).kernelId = some k)
    (hk : ∀ r, n.pc.holds = some r → (n.state.room r).kernelId = some k) :
    ∃ es, n.state.events = s.events ++ es ∧
      Course n.state run (history ++ es.filter (Event.isOf run.jobId)) n.pc := by
  have hquiet : ∀ {stage'}, n.state.events = s.events → Reaches run n.pc stage' →
      Execution k run.jobId run.cellIds history uids stage' → ∃ es,
        n.state.events = s.events ++ es ∧
          Course n.state run (history ++ es.filter (Event.isOf run.jobId)) n.pc :=
    fun hevents hreaches' hexecution' => Course.unsaid hevents hk (.reaches hreaches') hexecution'
  have hraised : ∀ {r error}, n.state.events = s.events → n.pc = .jobRaised r error → ∃ es,
      n.state.events = s.events ++ es ∧
        Course n.state run (history ++ es.filter (Event.isOf run.jobId)) n.pc := by
    intro r error hevents hpc
    refine Course.unsaid hevents hk ?_ hexecution
    rw [hpc]
    exact .raised hreaches.active
  cases hreaches with
  | locked =>
      cases h with
      | locked => exact hquiet rfl .nextCell hexecution
      | stepRaised => exact hraised rfl rfl
  | nextCell =>
      cases h with
      | succeeded => exact Course.unsaid rfl hk (.settled rfl) hexecution.succeeded
      | preparing => exact hquiet rfl .clientReady hexecution
      | noClient => exact hraised rfl rfl
      | stepRaised => exact hraised rfl rfl
  | clientReady =>
      cases h with
      | clientReady hpc =>
          rcases hpc with rfl | ⟨_, rfl⟩ | ⟨_, -, rfl⟩
          · exact hquiet rfl .readingSource hexecution
          · exact hquiet rfl .subshellReply hexecution
          · exact hraised rfl rfl
      | stepRaised => exact hraised rfl rfl
  | subshellReply =>
      cases h with
      | @subshellMessage o r cells client requestId reply beforeDeadline pool pc es hpc hes =>
          refine ⟨es, rfl, ?_⟩
          have hnone : es.filter (Event.isOf run.jobId) = [] := by
            rcases hes with rfl | ⟨id, rfl⟩ <;> rfl
          rw [hnone, List.append_nil]
          rcases hpc with rfl | ⟨_, rfl⟩ | ⟨_, -, rfl⟩
          · exact .working hk (.reaches .readingSource) hexecution
          · exact .working hk (.reaches .subshellReply) hexecution
          · exact .working hk (.raised fun _ h => by cases h) hexecution
      | subshellFailed => exact hquiet rfl .readingSource hexecution
      | stepRaised => exact hraised rfl rfl
  | readingSource =>
      cases h with
      | sourceRead => exact hquiet rfl .readingDocument hexecution
      | stepRaised => exact hraised rfl rfl
  | readingDocument =>
      cases h with
      | put hput hk' =>
          cases (hkernel _ rfl).symm.trans hk'
          exact Course.said rfl (by simp [Event.isOf]) hk (.reaches .polling) hexecution.put
      | putForgotten hput hk' =>
          cases (hkernel _ rfl).symm.trans hk'
          exact Course.said rfl (by simp [Event.isOf]) hk (.raised fun _ h => by cases h)
            hexecution.put
      | putRaised => exact hraised rfl rfl
      | stepRaised => exact hraised rfl rfl
  | polling =>
      cases h with
      | pending => exact hquiet rfl .sleeping hexecution
      | echoed => exact hquiet rfl .sleeping hexecution
      | awaiting => exact hquiet rfl .sleeping hexecution
      | awaitingUnregistered => exact hraised rfl rfl
      | polled =>
          exact Course.said rfl (by simp [Event.isOf]) hk (.reaches .flushing) hexecution.polled
      | pollRaised => exact hraised rfl rfl
      | stepRaised => exact hraised rfl rfl
  | sleeping =>
      cases h with
      | slept => exact hquiet rfl .polling hexecution
      | stepRaised => exact hraised rfl rfl
  | flushing =>
      cases h with
      | flushedError hresult => exact Course.unsaid rfl hk (.settled rfl) (hexecution.failed hresult)
      | flushed hresult => exact hquiet rfl .nextCell (hexecution.passed hresult)
      | stepRaised => exact hraised rfl rfl
  | jobRaised _ hstage =>
      cases h with
      | failed =>
          exact Course.said rfl (by simp [Event.isOf]) hk (.settled rfl) (hexecution.raised hstage)
      | cancelled =>
          exact Course.said rfl (by simp [Event.isOf]) hk (.settled rfl) (hexecution.raised hstage)
      | stepRaised => exact hraised rfl rfl

/-- A job that has no lock gets one, goes on without one or ends. -/
theorem TaskStep.from_waiting (h : TaskStep s t (.runJob run) l pc n) (hpc : 2 ≤ pc.rank) :
    2 ≤ n.pc.rank ∨ n.pc.isDone = true ∨ ∃ r, n.pc = .locked r := by
  cases h with
  | call h =>
      cases h with
      | begun => exact .inl hpc
      | load => exact .inl (Nat.le_succ 2)
      | explicit hop => cases hop
      | resolving hop => cases hop
      | resolved hop => cases hop
      | stop hop => cases hop
      | opened hop => cases hop
      | refused => exact .inr (.inl rfl)
      | interruptedNative => exact .inr (.inl rfl)
      | raised => exact .inr (.inl rfl)
  | ensure h =>
      cases h with
      | loadFailed => exact .inr (.inl rfl)
      | status => exact .inr (.inl rfl)
      | mismatch => exact .inr (.inl rfl)
      | createFailed => exact .inr (.inl rfl)
      | _ => exact .inl (Nat.le_succ 2)
  | stop h =>
      rcases h.stays with hstop | ⟨_, hdone⟩
      · left
        cases hn : n.pc <;> rw [hn] at hstop <;> first | exact Nat.le_succ 2 | cases hstop
      · exact .inr (.inl (by rw [hdone]; rfl))
  | job h =>
      cases h with
      | acquired => exact .inr (.inr ⟨_, rfl⟩)
      | enqueued => exact .inl le_rfl
      | woken => exact .inr (.inr ⟨_, rfl⟩)
      | abandoned => exact .inr (.inl rfl)
      | stepRaised hpc' =>
          rcases hpc' with ⟨_, _, rfl⟩ | ⟨_, rfl⟩ | ⟨_, _, rfl⟩ | ⟨_, _, rfl⟩ | ⟨_, _, rfl⟩ |
            ⟨-, _, _, _, rfl⟩ <;> simp [Pc.rank, Pc.holds] at hpc
      | _ => simp [Pc.rank, Pc.holds] at hpc

/-- A move of a job, wherever its task is. -/
theorem TaskStep.takes_course (h : TaskStep s t (.runJob run) l pc n)
    (hevents : n.state.events = s.events ++ es)
    (hown : pc.rank ≠ 1 → es.filter (Event.isOf run.jobId) = [])
    (hkernel : ∀ r, pc.usedRoom = some r → (s.room r).kernelId ≠ none)
    (hkept : ∀ r k, pc.usedRoom = some r → (s.room r).kernelId = some k →
      (n.state.room r).kernelId = some k)
    (hcourse : Course s run history pc) :
    Course n.state run (history ++ es.filter (Event.isOf run.jobId)) n.pc := by
  have huses : ∀ {r}, n.pc.holds = some r → pc.usedRoom = some r := by
    intro r hr
    refine (h.usedRoom (Pc.usedRoom_of_holds hr)).resolve_right ?_
    rintro ⟨nb, hpc⟩
    rw [hpc] at hr
    cases hr
  cases hcourse with
  | waiting hpc hhistory =>
      rw [hown (by omega), List.append_nil, hhistory]
      rcases h.from_waiting hpc with hn | hdone | ⟨r, hn⟩
      · exact .waiting hn rfl
      · refine .working (k := "") ?_ (.settled (Pc.isSettled_of_isDone hdone)) .start
        intro r hr
        rw [Pc.holds_of_isDone hdone] at hr
        cases hr
      · have hr := huses (r := r) (by rw [hn]; rfl)
        obtain ⟨k, hk⟩ := Option.ne_none_iff_exists'.mp (hkernel r hr)
        rw [hn]
        refine .working (k := k) ?_ (.reaches .locked) .start
        rintro r' hr'
        cases hr'
        exact hkept r k hr hk
  | @working k uids stage hk hstage hexecution =>
      have hjob : pc.isJob = true → ∃ es, n.state.events = s.events ++ es ∧
          Course n.state run (history ++ es.filter (Event.isOf run.jobId)) n.pc := by
        intro hpc
        obtain ⟨run', hop, hjob⟩ := h.jobStep hpc
        cases hop
        have hk' : pc.holds = pc.usedRoom → ∀ r, n.pc.holds = some r →
            (n.state.room r).kernelId = some k := by
          intro hused r hr
          exact hkept r k (huses hr) (hk r (hused.trans (huses hr)))
        cases hstage with
        | reaches hreaches =>
            have hused : pc.holds = pc.usedRoom := by cases hreaches <;> rfl
            exact hjob.goes_on hreaches hexecution (fun r hr => hk r (hused.trans hr)) (hk' hused)
        | raised hstage =>
            cases hjob with
            | failed =>
                exact Course.said rfl (by simp [Event.isOf]) (hk' rfl) (.settled rfl)
                  (hexecution.raised hstage)
            | cancelled =>
                exact Course.said rfl (by simp [Event.isOf]) (hk' rfl) (.settled rfl)
                  (hexecution.raised hstage)
            | stepRaised hpc' => simp at hpc'
        | settled hpc' =>
            cases hjob with
            | finished => exact Course.unsaid rfl (hk' rfl) (.settled rfl) hexecution
            | stepRaised hpc'' =>
                rcases hpc'' with ⟨_, _, rfl⟩ | ⟨_, rfl⟩ | ⟨_, _, rfl⟩ | ⟨_, _, rfl⟩ |
                  ⟨_, _, rfl⟩ | ⟨-, _, _, _, rfl⟩ <;> cases hpc'
            | _ => cases hpc'
      have hpc : pc.isJob = true := by
        cases hstage with
        | reaches hreaches => cases hreaches <;> rfl
        | raised => rfl
        | settled hpc =>
            cases pc with
            | jobFinally => rfl
            | done => exact h.not_done.elim
            | _ => cases hpc
      obtain ⟨es', hes', hcourse⟩ := hjob hpc
      rwa [List.append_cancel_left (hevents.symm.trans hes')]

/-! ## The record of a job -/

theorem requestUids_append (es es' : List Event) :
    requestUids (es ++ es') = requestUids es ++ requestUids es' := List.filterMap_append

/-- A change of its status leaves the requests of a job. -/
theorem requestUids_updateJobStatus {ledger : MemoryLedger} {status : JobStatus}
    {rid : Option RoomId} {now : Time}
    (h : (ledger.updateJobStatus j status rid now).getJob j = some job) :
    ∃ old, ledger.getJob j = some old ∧ job.requestUids = old.requestUids := by
  have hupdated := ledger.getJob_updateJobStatus_self j status rid now
  rw [h] at hupdated
  obtain ⟨old, hold, rfl⟩ := Option.map_eq_some_iff.mp hupdated.of_some
  exact ⟨old, hold, rfl⟩

theorem requestUids_filter {es : List Event} (h : requestUids es = []) (p : Event → Bool) :
    requestUids (es.filter p) = [] := by
  apply List.filterMap_eq_nil_iff.mpr
  intro e he
  exact List.filterMap_eq_nil_iff.mp h e (List.mem_of_mem_filter he)

/-- When a job moves, its record gets the uid of the request that it puts. -/
theorem JobStep.puts_uid (h : JobStep s t run l pc n) :
    ∃ es, n.state.events = s.events ++ es ∧ ∀ job, n.state.ledger.getJob run.jobId = some job →
      ∃ old, s.ledger.getJob run.jobId = some old ∧ job.requestUids =
        old.requestUids ++ requestUids (es.filter (Event.isOf run.jobId)) := by
  -- a step that does not put a request
  have hquiet : ∀ es, n.state.events = s.events ++ es → requestUids es = [] →
      (∀ job, n.state.ledger.getJob run.jobId = some job → ∃ old,
        s.ledger.getJob run.jobId = some old ∧ job.requestUids = old.requestUids) →
      ∃ es, n.state.events = s.events ++ es ∧ ∀ job,
        n.state.ledger.getJob run.jobId = some job → ∃ old, s.ledger.getJob run.jobId = some old ∧
          job.requestUids = old.requestUids ++ requestUids (es.filter (Event.isOf run.jobId)) := by
    intro es hes huids hledger
    refine ⟨es, hes, ?_⟩
    rw [requestUids_filter huids]
    simpa only [List.append_nil] using hledger
  have hnil : n.state.events = s.events → n.state.events = s.events ++ [] :=
    fun h => h.trans (List.append_nil _).symm
  have hsame : n.state.ledger = s.ledger → ∀ job, n.state.ledger.getJob run.jobId = some job →
      ∃ old, s.ledger.getJob run.jobId = some old ∧ job.requestUids = old.requestUids :=
    fun h job hjob => ⟨job, h ▸ hjob, rfl⟩
  cases h with
  | locked => exact hquiet [] (hnil rfl) rfl fun _ => requestUids_updateJobStatus
  | succeeded => exact hquiet [] (hnil rfl) rfl fun _ => requestUids_updateJobStatus
  | awaiting => exact hquiet [] (hnil rfl) rfl fun _ => requestUids_updateJobStatus
  | awaitingUnregistered => exact hquiet [] (hnil rfl) rfl fun _ => requestUids_updateJobStatus
  | flushedError =>
      refine hquiet [] (hnil rfl) rfl fun job hjob => ?_
      obtain ⟨old, hold, huids⟩ := requestUids_updateJobStatus hjob
      exact ⟨old, (getJob_attributed s _ run _ run.jobId).symm.trans hold, huids⟩
  | flushed =>
      refine hquiet [] (hnil rfl) rfl fun job hjob => ?_
      exact ⟨job, (getJob_attributed s _ run _ run.jobId).symm.trans hjob, rfl⟩
  | failed => exact hquiet _ rfl rfl fun _ => requestUids_updateJobStatus
  | cancelled => exact hquiet _ rfl rfl (hsame rfl)
  | polled => exact hquiet _ rfl rfl (hsame rfl)
  | subshellMessage hpc hes =>
      refine hquiet _ rfl ?_ (hsame rfl)
      rcases hes with rfl | ⟨id, rfl⟩ <;> rfl
  | put hput hk hledger =>
      refine ⟨_, rfl, fun job hjob => ?_⟩
      rw [getJob_appendRequestUid hledger, if_pos rfl] at hjob
      obtain ⟨old, hold, rfl⟩ := Option.map_eq_some_iff.mp hjob
      refine ⟨old, hold, ?_⟩
      simp [Event.isOf, requestUids, Event.uid?]
  | putForgotten hput hk herror hforgotten =>
      refine ⟨_, rfl, fun job hjob => ?_⟩
      cases hforgotten.symm.trans hjob
  | _ => exact hquiet [] (hnil rfl) rfl (hsame rfl)

/-- The record of a job follows its task. -/
theorem TaskStep.puts_uid (h : TaskStep s t (.runJob run) l pc n)
    (hes : n.state.events = s.events ++ es)
    (hown : pc.rank ≠ 1 → es.filter (Event.isOf run.jobId) = [])
    (hjob : n.state.ledger.getJob run.jobId = some job) :
    ∃ old, s.ledger.getJob run.jobId = some old ∧
      job.requestUids = old.requestUids ++ requestUids (es.filter (Event.isOf run.jobId)) := by
  -- outside the `async with` a task leaves the record
  have houtside : pc.rank ≠ 1 → s.ledger.getJob run.jobId = some job →
      ∃ old, s.ledger.getJob run.jobId = some old ∧
        job.requestUids = old.requestUids ++ requestUids (es.filter (Event.isOf run.jobId)) := by
    intro hrank hold
    rw [hown hrank]
    exact ⟨job, hold, (List.append_nil _).symm⟩
  cases h with
  | job h =>
      obtain ⟨es', hes', hledger⟩ := h.puts_uid
      rw [List.append_cancel_left (hes.symm.trans hes')]
      exact hledger job hjob
  | call h =>
      cases h with
      | begun => exact houtside (by decide) hjob
      | load => exact houtside (by decide) hjob
      | explicit hop => cases hop
      | resolving hop => cases hop
      | resolved hop => cases hop
      | stop hop => cases hop
      | opened hop => cases hop
      | refused => exact houtside (by decide) hjob
      | interruptedNative => exact houtside (by simp [Pc.rank, Pc.holds]) hjob
      | raised hpc =>
          refine houtside ?_ hjob
          rcases hpc with rfl | ⟨_, _, rfl⟩ | ⟨_, rfl⟩ | rfl <;> simp [Pc.rank, Pc.holds]
  | ensure h => cases h <;> exact houtside (by simp [Pc.rank, Pc.holds]) hjob
  | stop h =>
      cases h with
      | cleared =>
          refine houtside (by simp [Pc.rank, Pc.holds]) ?_
          rw [state_stopReturned] at hjob
          rcases getJob_evictNotebook (l := s.ledger) (j := run.jobId) with hkept | hnone
          · exact hkept.symm.trans hjob
          · cases hnone.symm.trans hjob
      | stopping _ _ hpc => exact houtside (by simp [Pc.rank, Pc.holds]) hjob
      | _ => exact houtside (by simp [Pc.rank, Pc.holds]) hjob

/-! ## All jobs, in every run -/

/-- A room that has a kernel keeps it. -/
theorem kernelId_kept (hinv : ServerInv s) (h : StepCase s l s') (hr : r < s.mgr.nextRoomId)
    (hk : (s.room r).kernelId = some k) : (s'.room r).kernelId = some k := by
  cases room_change h (hr.trans_le (nextRoomId_le h)) with
  | kept _ hroom => rwa [hroom]
  | moved _ ht _ _ _ hroom =>
      rcases hroom.kernelId with hsame | ⟨nb, session, rfl, -⟩
      · rwa [hsame]
      · cases (hinv.createdOnce ht).1.symm.trans hk
  | fresh heq => exact absurd heq hr.ne
  | adopted heq => exact absurd heq hr.ne

theorem holds_lt (hw : WellFormed s) (ht : s.tasks t = some ⟨op, pc⟩) (hr : pc.usedRoom = some r) :
    r < s.mgr.nextRoomId :=
  hw.held ht (Pc.mem_rooms_of_usedRoom hr)

/-- What a step adds to the history of a job is added by the job's task, at a point inside the
`async with`. -/
theorem own_events (hjobs : JobsInv s) (h : StepCase s l s') (hes : s'.events = s.events ++ es)
    (ht : s.tasks t = some ⟨.runJob run, pc⟩) (hother : s.mover l ≠ some t ∨ pc.rank ≠ 1) :
    es.filter (Event.isOf run.jobId) = [] := by
  apply List.filter_eq_nil_iff.mpr
  intro e he hof
  obtain ⟨t', run', pc', ht', hmover, hj, hrank⟩ := isOf_mover h hes he hof
  cases hjobs.once ht ht' hj.symm
  cases ht.symm.trans ht'
  rcases hother with hother | hother
  · exact hother hmover
  · exact hother hrank

namespace Histories

theorem boot {ttl : Time} {maxCompleted : Int} {alive : KernelId → Bool}
    {kernelspec : NotebookId → Option String} :
    Histories (boot ttl maxCompleted alive kernelspec) where
  task he := nomatch he
  queued he := nomatch he
  listed ht := nomatch ht
  course ht := nomatch ht
  uids ht := nomatch ht

theorem task_step (hs : Histories s) (hw : WellFormed s) (h : StepCase s l s')
    (hes : s'.events = s.events ++ es) {e : Event} (he : e ∈ s'.events) (hof : e.isOf j = true) :
    ∃ t run pc, s'.tasks t = some ⟨.runJob run, pc⟩ ∧ run.jobId = j := by
  have hold : ∃ t run pc, s.tasks t = some ⟨.runJob run, pc⟩ ∧ run.jobId = j := by
    rw [hes] at he
    rcases List.mem_append.mp he with he | he
    · exact hs.task he hof
    · obtain ⟨t, run, pc, ht, -, hj, -⟩ := isOf_mover h hes he hof
      exact ⟨t, run, pc, ht, hj⟩
  obtain ⟨t, run, pc, ht, hj⟩ := hold
  obtain ⟨pc', ht'⟩ := hw.task_stays h ht
  exact ⟨t, run, pc', ht', hj⟩

theorem queued_step (hs : Histories s) (hw : WellFormed s) (h : StepCase s l s')
    (hes : s'.events = s.events ++ es) {cells : List CellId}
    (he : .queued j nb cells ∈ s'.events) :
    ∃ t run pc, s'.tasks t = some ⟨.runJob run, pc⟩ ∧ run.jobId = j ∧ run.cellIds = cells := by
  rw [hes] at he
  rcases List.mem_append.mp he with he | he
  · obtain ⟨t, run, pc, ht, hrun⟩ := hs.queued he
    obtain ⟨pc', ht'⟩ := hw.task_stays h ht
    exact ⟨t, run, pc', ht', hrun⟩
  · cases queue_step hw h hes with
    | none hnone =>
        have hmem : (j, cells) ∈ queuedJobs nb es :=
          List.mem_filterMap.mpr ⟨_, he, by simp [Event.queuedOn]⟩
        rw [hnone nb] at hmem
        cases hmem
    | queued hnew _ htask =>
        rw [hnew] at he
        cases List.mem_singleton.mp he
        exact ⟨_, _, _, htask, rfl, rfl⟩

theorem listed_step (hs : Histories s) (hw : WellFormed s) (h : StepCase s l s')
    (hes : s'.events = s.events ++ es) (ht : s'.tasks t = some ⟨.runJob run, pc⟩) :
    .queued run.jobId run.notebookId run.cellIds ∈ s'.events := by
  have hold : ∀ {pc₀}, s.tasks t = some ⟨.runJob run, pc₀⟩ →
      .queued run.jobId run.notebookId run.cellIds ∈ s'.events := by
    intro pc₀ ht₀
    rw [hes]
    exact List.mem_append_left _ (hs.listed ht₀)
  cases queue_step hw h hes with
  | none _ hkept =>
      obtain ⟨pc₀, ht₀⟩ := hkept ht
      exact hold ht₀
  | queued hnew _ htask _ hkept =>
      by_cases heq : t = s.nextTask
      · subst heq
        cases htask.symm.trans ht
        rw [hes, hnew]
        exact List.mem_append_right _ (List.mem_singleton_self _)
      · obtain ⟨pc₀, ht₀⟩ := hkept ht heq
        exact hold ht₀

/-- A job that has just been queued has done nothing. -/
theorem nothing_new (hs : Histories s) (hjobs : JobsInv s) (h : StepCase s l s')
    (hes : s'.events = s.events ++ es) :
    s'.events.filter (Event.isOf s.ledger.nextJobId) = [] := by
  apply List.filter_eq_nil_iff.mpr
  intro e he hof
  have hold : ∃ t run pc, s.tasks t = some ⟨.runJob run, pc⟩ ∧
      run.jobId = s.ledger.nextJobId := by
    rw [hes] at he
    rcases List.mem_append.mp he with he | he
    · exact hs.task he hof
    · obtain ⟨t, run, pc, ht, -, hj, -⟩ := isOf_mover h hes he hof
      exact ⟨t, run, pc, ht, hj⟩
  obtain ⟨t, run, pc, ht, hj⟩ := hold
  exact (hjobs.handedOut ht).ne hj

theorem course_step (hs : Histories s) (hinv : ServerInv s) (h : StepCase s l s')
    (hes : s'.events = s.events ++ es) (ht : s'.tasks t = some ⟨.runJob run, pc⟩) :
    Course s' run (s'.events.filter (Event.isOf run.jobId)) pc := by
  have hw := hinv.wellFormed
  generalize hop : Op.runJob run = op at ht
  cases task_origin h ht with
  | kept ht₀ _ hmover =>
      subst hop
      rw [hes, List.filter_append, own_events hinv.jobs h hes ht₀ (.inl hmover), List.append_nil]
      cases hs.course ht₀ with
      | waiting hpc hhistory => exact .waiting hpc hhistory
      | working hk hstage hexecution =>
          refine .working (fun r hr => ?_) hstage hexecution
          exact kernelId_kept hinv h (holds_lt hw ht₀ (Pc.usedRoom_of_holds hr)) (hk r hr)
  | moved ht₀ hmove heq =>
      subst hop
      rw [hes, List.filter_append]
      subst heq
      have hkept : ∀ r k, _ → (s.room r).kernelId = some k → ((Next.commit _ _ _).room r).kernelId =
          some k := fun r k hr hk => kernelId_kept hinv h (holds_lt hw ht₀ hr) hk
      exact .commit (hmove.takes_course hes
        (fun hrank => own_events hinv.jobs h hes ht₀ (.inr hrank))
        (fun r hr => hinv.kernels.used ht₀ hr) hkept (hs.course ht₀))
  | called _ hcallable =>
      subst hop
      cases hcallable
  | spawned =>
      cases hop
      exact .waiting (by decide) (hs.nothing_new hinv.jobs h hes)

theorem uids_step (hs : Histories s) (hinv : ServerInv s) (h : StepCase s l s')
    (hes : s'.events = s.events ++ es) (ht : s'.tasks t = some ⟨.runJob run, pc⟩)
    (hjob : s'.ledger.getJob run.jobId = some job) :
    job.requestUids = requestUids (s'.events.filter (Event.isOf run.jobId)) := by
  generalize hop : Op.runJob run = op at ht
  cases task_origin h ht with
  | kept ht₀ _ hmover =>
      subst hop
      rw [hes, List.filter_append, own_events hinv.jobs h hes ht₀ (.inl hmover), List.append_nil]
      rcases hinv.jobs.job_change_of_kept h ht₀ hmover hjob with
        hold | ⟨old, r, value, actor, nb, t', o, -, -, -, hold, hanswered⟩
      · exact hs.uids ht₀ hold
      · have huids := hs.uids ht₀ hold
        rw [hanswered]
        exact huids
  | moved ht₀ hmove heq =>
      subst hop heq
      obtain ⟨old, hold, huids⟩ := hmove.puts_uid hes
        (fun hrank => own_events hinv.jobs h hes ht₀ (.inr hrank)) hjob
      rw [hes, List.filter_append, requestUids_append, huids, hs.uids ht₀ hold]
  | called _ hcallable =>
      subst hop
      cases hcallable
  | spawned =>
      cases hop
      rw [hs.nothing_new hinv.jobs h hes]
      exact (hinv.jobs.new_job h hjob).2.2

theorem step (hs : Histories s) (hinv : ServerInv s) (hstep : s.step l = some s') :
    Histories s' := by
  have h := step_cases hstep
  obtain ⟨es, hes, -⟩ := h.events
  exact
    { task := hs.task_step hinv.wellFormed h hes
      queued := hs.queued_step hinv.wellFormed h hes
      listed := hs.listed_step hinv.wellFormed h hes
      course := hs.course_step hinv h hes
      uids := hs.uids_step hinv h hes }

end Histories

theorem histories_run {ttl : Time} {maxCompleted : Int} {alive : KernelId → Bool}
    {kernelspec : NotebookId → Option String}
    (h : ServerRun anyStep (Server.boot ttl maxCompleted alive kernelspec) s) : Histories s :=
  h.invariant_of (fun _ hu => serverInv_run hu) .boot fun _ _ _ hinv _ hs _ hstep =>
    hs.step hinv hstep

end Server

namespace Execution

variable {k : KernelId} {j : JobId} {cells : List CellId} {es : List Event}
  {uids : List RequestUid} {stage : Stage}

/-- Until it has ended, nothing has been raised in an execution. -/
theorem not_raised (h : Execution k j cells es uids stage) (hstage : ∀ status, stage ≠ .ended status) :
    ∀ e ∈ es, e.isRaise = false := by
  cases h.reached with
  | ready _ _ _ hraised => exact hraised
  | requested _ _ _ hraised => exact hraised
  | answered _ _ _ _ hraised => exact hraised
  | succeeded => exact absurd rfl (hstage _)
  | failed => exact absurd rfl (hstage _)

/-- The event with which an execution fails is its last. -/
theorem raise_is_last (h : Execution k j cells es uids stage) {before after : List Event}
    {error : PyError} (hes : es = before ++ .stepRaised j error :: after) : after = [] := by
  -- before the last event the execution has not ended
  have hearlier : ∀ {es uids stage e}, Execution k j cells es uids stage →
      (∀ status, stage ≠ .ended status) → es ++ [e] = before ++ .stepRaised j error :: after →
      after = [] := by
    intro es uids stage e h hstage hes
    rcases List.eq_nil_or_concat after with rfl | ⟨after', last, rfl⟩
    · rfl
    · rw [List.concat_eq_append, ← List.cons_append, ← List.append_assoc] at hes
      have hmem : .stepRaised j error ∈ es := by
        rw [(List.append_inj' hes rfl).1]
        simp
      cases h.not_raised hstage _ hmem
  induction h with
  | start => simp at hes
  | put h => exact hearlier h nofun hes
  | polled h => exact hearlier h nofun hes
  | passed _ _ ih => exact ih hes
  | succeeded _ ih => exact ih hes
  | failed _ _ ih => exact ih hes
  | raised h hstage => exact hearlier h hstage hes

/-- Nothing has happened in an execution without a request that has not ended. -/
theorem nil_of_no_request (h : Execution k j cells es uids stage)
    (hstage : ∀ status, stage ≠ .ended status) (hnone : requestedCells es = []) : es = [] := by
  have hpolled : polledResults es = [] := by
    apply List.length_eq_zero_iff.mp
    have hlength : (requestedCells es).length = 0 := by rw [hnone]; rfl
    cases h.reached with
    | ready _ hcount => omega
    | requested _ hcount => omega
    | answered _ hcount => omega
    | succeeded => exact absurd rfl (hstage _)
    | failed => exact absurd rfl (hstage _)
  apply List.eq_nil_iff_forall_not_mem.mpr
  intro e he
  have hof := h.isOf e he
  cases e with
  | put => simpa [Event.cell?] using List.filterMap_eq_nil_iff.mp hnone _ he
  | polled => simpa [Event.result?] using List.filterMap_eq_nil_iff.mp hpolled _ he
  | stepRaised => simpa [Event.isRaise] using h.not_raised hstage _ he
  | _ => cases hof

end Execution

namespace Server

variable {s s' : Server} {l : Label} {t : TaskId} {op : Op} {pc : Pc} {n : Next} {r : RoomId}
  {k : KernelId} {i j : JobId} {run : JobRun} {es : List Event}

/-- What an accepted job has done by some moment. -/
structure DoneSoFar (s : Server) (j : JobId) (cells : List CellId) (history : List Event) :
    Prop where
  /-- The requests are for the first cells of the job, in order. -/
  requested : requestedCells history <+: cells
  /-- They all went to one kernel. -/
  kernel : ∃ k, ∀ c k' uid, .put j c k' uid ∈ history → k' = k
  /-- All requests before have their results, without an error, and nothing has been raised. -/
  afterResults : ∀ before after c k uid, history = before ++ .put j c k uid :: after →
    (polledResults before).length = (requestedCells before).length ∧
      (∀ result ∈ polledResults before, result.isError = false) ∧
      ∀ e ∈ before, e.isRaise = false
  /-- A job does nothing more once something has been raised in it. -/
  raised : ∀ before after error, history = before ++ .stepRaised j error :: after → after = []
  recorded : ∀ job, s.ledger.getJob j = some job → job.requestUids = requestUids history

theorem Course.execution {run : JobRun} {history : List Event} {pc : Pc}
    (h : Course s run history pc) :
    ∃ k uids stage, Execution k run.jobId run.cellIds history uids stage := by
  cases h with
  | waiting _ hhistory =>
      subst hhistory
      exact ⟨"", [], _, Execution.start⟩
  | working _ _ hexecution => exact ⟨_, _, _, hexecution⟩

theorem Histories.doneSoFar (hs : Histories s) {nb : NotebookId} {cells : List CellId}
    (hqueued : .queued j nb cells ∈ s.events) :
    DoneSoFar s j cells (s.events.filter (Event.isOf j)) := by
  obtain ⟨t, run, pc, ht, rfl, rfl⟩ := hs.queued hqueued
  obtain ⟨k, uids, stage, hexecution⟩ := (hs.course ht).execution
  exact
    { requested := hexecution.requested_prefix
      kernel := ⟨k, fun _ _ _ he => hexecution.kernel he⟩
      afterResults := fun _ _ _ _ _ hes => hexecution.answered_before_put hes
      raised := fun _ _ _ hes => hexecution.raise_is_last hes
      recorded := fun _ hjob => hs.uids ht hjob }

/-- Whatever happens to runtimes, kernels, prompts and tasks: a job that has been accepted has
requested the first of its cells, in order and at one kernel, each after the results of those
before, none of which is an error; nothing follows an exception; the ledger has the uids of
the requests for as long as it has the job; and nothing is requested that is not a cell of an
accepted job. -/
theorem accepted_jobs_execute {ttl : Time} {maxCompleted : Int} {alive : KernelId → Bool}
    {kernelspec : NotebookId → Option String}
    (h : ServerRun anyStep (boot ttl maxCompleted alive kernelspec) s) :
    (∀ j nb cells, .queued j nb cells ∈ s.events →
      DoneSoFar s j cells (s.events.filter (Event.isOf j))) ∧
    ∀ j c k uid, .put j c k uid ∈ s.events →
      ∃ nb cells, .queued j nb cells ∈ s.events ∧ c ∈ cells := by
  have hs := histories_run h
  refine ⟨fun j nb cells => hs.doneSoFar, fun j c k uid hput => ?_⟩
  have hof : (Event.put j c k uid).isOf j = true := by simp [Event.isOf]
  obtain ⟨t, run, pc, ht, rfl⟩ := hs.task hput hof
  refine ⟨run.notebookId, run.cellIds, hs.listed ht, ?_⟩
  apply (hs.doneSoFar (hs.listed ht)).requested.subset
  exact List.mem_filterMap.mpr ⟨_, List.mem_filter.mpr ⟨hput, hof⟩, rfl⟩

section Schedules

/-- A job of two cells and one of a single cell are queued on a notebook without a runtime. -/
private def jobsAccepted : List Label :=
  [.call (.queueExecution "nb" ["a", "b"] ⟨"alice", .human⟩ (some "python3")), .proceed (.quiet 0),
    .proceed (.quiet 0), .resume 0 (.raised (.http 404 "")) (.quiet 0), .proceed (.quiet 0),
    .proceed (.quiet 0), .resume 0 (.session ⟨"session", "kernel", some "python3"⟩) (.quiet 0),
    .proceed (.quiet 0),
    .call (.queueExecution "nb" ["c"] ⟨"bob", .human⟩ (some "python3"))] ++
    List.replicate 4 (.proceed (.quiet 0))

/-- Task `t` starts and requests its first cell. -/
private def firstRequested (t : TaskId) : List Label :=
  [.resume t .returned (.quiet 0)] ++ List.replicate 6 (.proceed (.quiet 0)) ++
    [.resume t .returned (.quiet 0), .resume t (.raised .timeout) (.quiet 0),
      .resume t (.text "source") (.quiet 0), .resume t (.text "document") (.quiet 0),
      .proceed (.quiet 0)]

/-- The next poll raises, and the job ends. -/
private def pollLost (t : TaskId) : List Label :=
  [.resume t .returned (.quiet 0),
    .proceed { Oracle.quiet 0 with poll := .raised (.other "connection lost") },
    .proceed (.quiet 0), .proceed (.quiet 0)]

/-- The first job requests one of its cells before a poll raises, the second goes on. -/
private def jobsInTurn : List Label :=
  jobsAccepted ++ firstRequested 1 ++ pollLost 1 ++ firstRequested 3

theorem lost_job_requested_first_cell :
    ∃ s : Server, .queued 0 "nb" ["a", "b"] ∈ s.events ∧ .put 0 "a" "kernel" "uid" ∈ s.events ∧
      DoneSoFar s 0 ["a", "b"] (s.events.filter (Event.isOf 0)) := by
  obtain ⟨s, hrun, hqueued, hput⟩ :=
    (boot 10 20 (fun _ => false) fun _ => none).exists_run jobsInTurn
      (fun s => .queued 0 "nb" ["a", "b"] ∈ s.events ∧ .put 0 "a" "kernel" "uid" ∈ s.events)
      (by decide +kernel)
  exact ⟨s, hqueued, hput, (accepted_jobs_execute hrun).1 0 "nb" ["a", "b"] hqueued⟩

end Schedules

/-! ## A kernel and its jobs -/

/-- The job has requested a cell at the kernel. -/
def Requested (s : Server) (j : JobId) (k : KernelId) : Prop := ∃ c uid, .put j c k uid ∈ s.events

/-- No two rooms have the kernel. -/
def OneRoomHas (s : Server) (k : KernelId) : Prop :=
  ∀ r r', r < s.mgr.nextRoomId → r' < s.mgr.nextRoomId → (s.room r).kernelId = some k →
    (s.room r').kernelId = some k → r = r'

def HasEnded (s : Server) (j : JobId) : Prop :=
  ∃ t run pc, s.tasks t = some ⟨.runJob run, pc⟩ ∧ run.jobId = j ∧ pc.isDone = true

/-- All that the first job does comes before what the second does, and the first has ended. -/
def EndsBefore (s : Server) (i j : JobId) : Prop :=
  Precedes (Event.isOf i) (Event.isOf j) s.events ∧ HasEnded s i

theorem OneRoomHas.earlier (hinv : ServerInv s) (h : StepCase s l s') (hs : OneRoomHas s' k) :
    OneRoomHas s k := by
  intro r r' hr hr' hk hk'
  have hle := nextRoomId_le h
  exact hs r r' (hr.trans_le hle) (hr'.trans_le hle) (kernelId_kept hinv h hr hk)
    (kernelId_kept hinv h hr' hk')

theorem HasEnded.later (hw : WellFormed s) (h : StepCase s l s') (hs : HasEnded s j) :
    HasEnded s' j := by
  obtain ⟨t, run, pc, ht, hj, hdone⟩ := hs
  rcases hw.task_next h ht with ⟨ht', -⟩ | ⟨n, hmove, -, -⟩
  · exact ⟨t, run, pc, ht', hj, hdone⟩
  · rw [hmove.isDone] at hdone
    cases hdone

/-- The kernel at which a job requests its cells is that of the room whose lock it holds. -/
theorem Histories.kernelId_of_holds (hs : Histories s) (ht : s.tasks t = some ⟨.runJob run, pc⟩)
    (hr : pc.holds = some r) (hput : Requested s run.jobId k) : (s.room r).kernelId = some k := by
  obtain ⟨c, uid, hput⟩ := hput
  have hmem : .put run.jobId c k uid ∈ s.events.filter (Event.isOf run.jobId) :=
    List.mem_filter.mpr ⟨hput, by simp [Event.isOf]⟩
  cases hs.course ht with
  | waiting _ hhistory =>
      rw [hhistory] at hmem
      cases hmem
  | working hk hstage hexecution =>
      cases hexecution.kernel hmem
      exact hk r hr

/-- A job that has requested something and has not ended holds the lock of a room with the
kernel. -/
theorem Histories.holds_or_ended (hs : Histories s) (hput : Requested s j k) :
    HasEnded s j ∨ ∃ t run pc r, s.tasks t = some ⟨.runJob run, pc⟩ ∧ run.jobId = j ∧
      pc.holds = some r ∧ (s.room r).kernelId = some k := by
  have hrequested := hput
  obtain ⟨c, uid, hput⟩ := hput
  obtain ⟨t, run, pc, ht, rfl⟩ := hs.task hput (j := j) (by simp [Event.isOf])
  by_cases hdone : pc.isDone = true
  · exact .inl ⟨t, run, pc, ht, rfl, hdone⟩
  · obtain ⟨r, hr⟩ : ∃ r, pc.holds = some r := by
      cases hs.course ht with
      | waiting _ hhistory =>
          have hmem : .put run.jobId c k uid ∈ s.events.filter (Event.isOf run.jobId) :=
            List.mem_filter.mpr ⟨hput, by simp [Event.isOf]⟩
          rw [hhistory] at hmem
          cases hmem
      | working _ hstage =>
          cases hstage with
          | reaches hreaches => cases hreaches <;> exact ⟨_, rfl⟩
          | raised => exact ⟨_, rfl⟩
          | settled hpc => cases pc <;> first | exact ⟨_, rfl⟩ | exact absurd rfl hdone | cases hpc
    exact .inr ⟨t, run, pc, r, ht, rfl, hr, hs.kernelId_of_holds ht hr hrequested⟩

/-- A job that goes on at a kernel finds the others ended. -/
theorem Histories.others_ended (hs : Histories s) (hlocks : LockInv s) (hw : WellFormed s)
    (hone : OneRoomHas s k) (ht : s.tasks t = some ⟨.runJob run, pc⟩) (hr : pc.holds = some r)
    (hk : (s.room r).kernelId = some k) (hne : i ≠ run.jobId) (hput : Requested s i k) :
    HasEnded s i := by
  refine (hs.holds_or_ended hput).resolve_right ?_
  rintro ⟨t', run', pc', r', ht', rfl, hr', hk'⟩
  have hlt := holds_lt hw ht (Pc.usedRoom_of_holds hr)
  cases hone r r' hlt (holds_lt hw ht' (Pc.usedRoom_of_holds hr')) hk hk'
  have heq : t = t' := (hlocks.locks hlt).single ⟨_, _, ht, hr⟩ ⟨_, _, ht', hr'⟩
  subst heq
  cases ht.symm.trans ht'
  exact hne rfl

/-- A job that says something holds its lock and keeps it. -/
theorem TaskStep.keeps_lock (h : TaskStep s t op l pc n) (hr : pc.holds = some r)
    (hlt : r ≠ s.mgr.nextRoomId) (hpc : pc.isSettled = false) : n.pc.holds = some r := by
  generalize hlock : (n.state.room r).jobLock = lock
  have hstep := h.lock hlt
  rw [hlock] at hstep
  cases hstep with
  | kept hholds => exact hholds.mpr hr
  | acquired hpc' => simp [hpc', Pc.holds] at hr
  | enqueued hpc' => simp [hpc', Pc.holds] at hr
  | woken hpc' => simp [hpc', Pc.holds] at hr
  | abandoned hpc' => simp [hpc', Pc.holds] at hr
  | released hpc' =>
      rw [hpc'] at hpc
      cases hpc

/-- What the jobs of a kernel have done does not overlap. -/
def TakeTurns (s : Server) (k : KernelId) : Prop :=
  ∀ i j, i ≠ j → Requested s i k → Requested s j k → EndsBefore s i j ∨ EndsBefore s j i

/-- Events of other jobs change nothing between two. -/
theorem EndsBefore.later (hw : WellFormed s) (h : StepCase s l s')
    (hes : s'.events = s.events ++ es) (hi : ∀ e ∈ es, e.isOf i = false) (hs : EndsBefore s i j) :
    EndsBefore s' i j := by
  refine ⟨?_, hs.2.later hw h⟩
  rw [hes]
  refine hs.1.append (fun hnew => ?_) (.of_forall fun _ _ b hb _ => hi b hb)
  obtain ⟨b, hb, hof⟩ := hnew
  rw [hi b hb] at hof
  cases hof

theorem Requested.earlier (hes : s'.events = s.events ++ es) (hi : ∀ e ∈ es, e.isOf i = false)
    (h : Requested s' i k) : Requested s i k := by
  obtain ⟨c, uid, hput⟩ := h
  rw [hes] at hput
  rcases List.mem_append.mp hput with hput | hput
  · exact ⟨c, uid, hput⟩
  · have hof := hi _ hput
    simp [Event.isOf] at hof

/-- A job that says something comes after the others at its kernel. -/
theorem Histories.comes_after (hs : Histories s) (hs' : Histories s') (hinv : ServerInv s)
    (hlocks : LockInv s) (h : StepCase s l s') (hes : s'.events = s.events ++ es)
    (hone : OneRoomHas s k) (hturns : TakeTurns s k) {e : Event} (he : e ∈ es)
    (hof : e.isOf j = true) (hi : ∀ e ∈ es, e.isOf i = false) (hne : i ≠ j)
    (hput : Requested s i k) (hput' : Requested s' j k) : EndsBefore s' i j := by
  have hw := hinv.wellFormed
  obtain ⟨t, run, pc, ht, hmover, rfl, hrank⟩ := isOf_mover h hes he hof
  obtain ⟨r, hr⟩ := Pc.holds_of_rank hrank
  have hlt := holds_lt hw ht (Pc.usedRoom_of_holds hr)
  obtain ⟨n, hmove, rfl⟩ : ∃ n, TaskStep s t (.runJob run) l pc n ∧ s' = n.commit t (.runJob run) := by
    rcases hw.task_next h ht with ⟨-, hne⟩ | ⟨n, hmove, heq, -⟩
    · exact absurd hmover hne
    · exact ⟨n, hmove, heq⟩
  have hunsettled : pc.isSettled = false := by
    by_contra hsettled
    cases pc with
    | jobFinally =>
        obtain ⟨_, hop, hjob⟩ := hmove.jobStep rfl
        cases hop
        cases hjob with
        | finished =>
            cases List.self_eq_append_right.mp hes
            cases he
        | stepRaised hpc => simp at hpc
    | done => exact hmove.not_done
    | _ => exact hsettled rfl
  -- the room whose lock it holds has the kernel
  have hk : (s.room r).kernelId = some k := by
    obtain ⟨k', hk'⟩ := Option.ne_none_iff_exists'.mp
      (hinv.kernels.used ht (Pc.usedRoom_of_holds hr))
    have ht' : (n.commit t (.runJob run)).tasks t = some ⟨.runJob run, n.pc⟩ := by
      rw [commit_tasks, if_pos rfl]
    have hk := hs'.kernelId_of_holds ht' (hmove.keeps_lock hr hlt.ne hunsettled) hput'
    cases (kernelId_kept hinv h hlt hk').symm.trans hk
    exact hk'
  have hended := hs.others_ended hlocks hw hone ht hr hk hne hput
  refine EndsBefore.later hw h hes hi ⟨?_, hended⟩
  by_cases hrequested : Requested s run.jobId k
  · rcases hturns i run.jobId hne hput hrequested with hbefore | ⟨-, t', run', pc', ht', hj, hdone⟩
    · exact hbefore.1
    · cases hinv.jobs.once ht ht' hj.symm
      cases ht.symm.trans ht'
      rw [hmove.isDone] at hdone
      cases hdone
  -- a job that has requested nothing at its kernel has done nothing
  · apply Precedes.of_none
    have hnil : s.events.filter (Event.isOf run.jobId) = [] := by
      cases hs.course ht with
      | waiting _ hhistory => exact hhistory
      | working hk' hstage hexecution =>
          apply hexecution.nil_of_no_request (hstage.active hunsettled)
          apply List.filterMap_eq_nil_iff.mpr
          intro e he
          cases e with
          | put j c k₁ uid =>
              have hj := hexecution.isOf _ he
              simp only [Event.isOf, decide_eq_true_eq] at hj
              subst hj
              cases hexecution.kernel he
              cases (hk' r hr).symm.trans hk
              exact absurd ⟨c, uid, (List.mem_filter.mp he).1⟩ hrequested
          | _ => rfl
    intro e he
    simpa using List.filter_eq_nil_iff.mp hnil e he

theorem takeTurns_step (hinv : ServerInv s) (hlocks : LockInv s) (hs : Histories s)
    (hs' : Histories s') (h : StepCase s l s') (hone : OneRoomHas s k) (hturns : TakeTurns s k) :
    TakeTurns s' k := by
  have hw := hinv.wellFormed
  obtain ⟨es, hes, -⟩ := h.events
  -- all that a step says is said of one job
  have hsingle : ∀ {e e' i j}, e ∈ es → e' ∈ es → e.isOf i = true → e'.isOf j = true → i = j := by
    intro e e' i j he he' hi hj
    obtain ⟨t, run, pc, ht, hmover, rfl, -⟩ := isOf_mover h hes he hi
    obtain ⟨t', run', pc', ht', hmover', rfl, -⟩ := isOf_mover h hes he' hj
    cases hmover.symm.trans hmover'
    cases ht.symm.trans ht'
    rfl
  have hsilent : ∀ {e i j}, e ∈ es → e.isOf j = true → i ≠ j → ∀ e' ∈ es, e'.isOf i = false := by
    intro e i j he hof hne e' he'
    by_contra hi
    exact hne (hsingle he' he (by simpa using hi) hof)
  intro i j hne hi hj
  by_cases hsaid : ∃ e ∈ es, e.isOf i = true ∨ e.isOf j = true
  · obtain ⟨e, he, hof | hof⟩ := hsaid
    · have hother := hsilent he hof hne.symm
      exact .inr (hs.comes_after hs' hinv hlocks h hes hone hturns he hof hother hne.symm
        (hj.earlier hes hother) hi)
    · have hother := hsilent he hof hne
      exact .inl (hs.comes_after hs' hinv hlocks h hes hone hturns he hof hother hne
        (hi.earlier hes hother) hj)
  · have hothers : ∀ e ∈ es, e.isOf i = false ∧ e.isOf j = false := by
      intro e he
      constructor
      · exact Bool.eq_false_iff.mpr fun hi => hsaid ⟨e, he, .inl hi⟩
      · exact Bool.eq_false_iff.mpr fun hj => hsaid ⟨e, he, .inr hj⟩
    have hi' := hi.earlier hes fun e he => (hothers e he).1
    have hj' := hj.earlier hes fun e he => (hothers e he).2
    rcases hturns i j hne hi' hj' with hbefore | hbefore
    · exact .inl (hbefore.later hw h hes fun e he => (hothers e he).1)
    · exact .inr (hbefore.later hw h hes fun e he => (hothers e he).2)

/-- Whatever is stopped, dies, is answered or is cancelled: of two jobs that have requested cells
at a kernel that only one room has ever had, one had ended before the other did anything. -/
theorem kernel_serves_jobs_in_turn {ttl : Time} {maxCompleted : Int} {alive : KernelId → Bool}
    {kernelspec : NotebookId → Option String}
    (h : ServerRun anyStep (boot ttl maxCompleted alive kernelspec) s) (hone : OneRoomHas s k)
    (hne : i ≠ j) (hi : Requested s i k) (hj : Requested s j k) :
    EndsBefore s i j ∨ EndsBefore s j i := by
  have hturns : ∀ k, OneRoomHas s k → TakeTurns s k := by
    refine Run.invariant_of (J := fun u => ServerInv u ∧ LockInv u ∧ Histories u)
      (I := fun u => ∀ k, OneRoomHas u k → TakeTurns u k) h
      (fun u hu => ⟨serverInv_run hu, lockInv_run hu, histories_run hu⟩)
      (fun k _ i j _ hi => ?_) ?_
    · obtain ⟨_, _, hput⟩ := hi
      cases hput
    · rintro u l u' ⟨hinv, hlocks, hs⟩ ⟨-, -, hs'⟩ hturns - hstep k hone
      have h := step_cases hstep
      have hearlier := hone.earlier hinv h
      exact takeTurns_step hinv hlocks hs hs' h hearlier (hturns k hearlier)
  exact hturns k hone i j hne hi hj

theorem lost_job_and_next_in_turn :
    ∃ s : Server, .put 0 "a" "kernel" "uid" ∈ s.events ∧ .put 1 "c" "kernel" "uid" ∈ s.events ∧
      (EndsBefore s 0 1 ∨ EndsBefore s 1 0) := by
  obtain ⟨s, hrun, hnext, hi, hj⟩ :=
    (boot 10 20 (fun _ => false) fun _ => none).exists_run jobsInTurn
      (fun s => s.mgr.nextRoomId = 1 ∧ .put 0 "a" "kernel" "uid" ∈ s.events ∧
        .put 1 "c" "kernel" "uid" ∈ s.events) (by decide +kernel)
  have hone : OneRoomHas s "kernel" := by
    intro r r' hr hr' _ _
    rw [hnext] at hr hr'
    exact (Nat.lt_one_iff.mp hr).trans (Nat.lt_one_iff.mp hr').symm
  exact ⟨s, hi, hj, kernel_serves_jobs_in_turn hrun hone (by decide) ⟨_, _, hi⟩ ⟨_, _, hj⟩⟩

end Server

end Hypernote
