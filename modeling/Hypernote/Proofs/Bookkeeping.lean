import Hypernote.Proofs.Locks
import Hypernote.Proofs.Replies
/-!
# What a job leaves behind

`queue_execution` marks a job in the room of its notebook and `_poll_request` keeps the signatures
of its prompts.  The mark is taken away in the room that the notebook has when the task ends, and
only a result of the poll takes the signatures away.  A task that ends otherwise leaves them.
-/

namespace Hypernote

open Foundation

namespace Server

variable {s s' : Server} {t : TaskId} {op : Op} {l : Label} {pc : Pc} {n : Next} {r : RoomId}
  {j : JobId} {run : JobRun}

/-- No registered room has the job among its active jobs. -/
def Unmarked (s : Server) (j : JobId) : Prop :=
  ∀ r ∈ s.mgr.rooms, j ∉ (s.room r).activeJobs

/-- No registered room but that of its notebook has the job among its active jobs. -/
def MarkedInPlace (s : Server) (run : JobRun) : Prop :=
  ∀ r ∈ s.mgr.rooms, run.jobId ∈ (s.room r).activeJobs →
    s.mgr.roomForNotebook run.notebookId = some r

instance (s : Server) (j : JobId) : Decidable (s.Unmarked j) :=
  inferInstanceAs (Decidable (∀ r ∈ s.mgr.rooms, _))

instance (s : Server) (run : JobRun) : Decidable (s.MarkedInPlace run) :=
  inferInstanceAs (Decidable (∀ r ∈ s.mgr.rooms, _ → _))

/-- Nothing of the job is in the registry or in the orchestrator's dictionaries. -/
structure Forgotten (s : Server) (j : JobId) : Prop where
  unmarked : s.Unmarked j
  awaiting : s.awaitingInputSignatures j = none
  resumed : s.resumedInputSignatures j = none

/-- The task of a job reaches its `finally` while the job is marked in place, and ends before its
`try` only while it is not marked; `_poll_request` raises only while it has read no prompt that is
still open. -/
def clearsUp (s : Server) (l : Label) : Bool :=
  match s.moving l, l with
  | some ⟨.runJob run, .loading ..⟩, .resume _ (.raised error) _ =>
      error.isHttp || s.Unmarked run.jobId
  | some ⟨.runJob run, .creating ..⟩, .resume _ (.raised _) _
  | some ⟨.runJob run, .awaitingLock _⟩, .resume _ (.raised _) _ => s.Unmarked run.jobId
  | some ⟨.runJob run, .sleeping ..⟩, .resume _ (.raised _) _ =>
      (s.awaitingInputSignatures run.jobId).isNone
  | some ⟨.runJob run, .polling r ..⟩, .proceed o =>
      match o.poll with
      | .raised _ => (s.awaitingInputSignatures run.jobId).isNone
      | .inputRequest request =>
          s.resumedInputSignatures run.jobId = some (inputRequestSignature request) ||
            r ∈ s.mgr.rooms
      | _ => true
  | some ⟨.runJob run, .jobFinally ..⟩, _ => s.MarkedInPlace run
  | _, _ => true

/-! ## Marks -/

/-- A room has the jobs that it had before, and perhaps a new one. -/
theorem TaskStep.activeJobs (h : TaskStep s t op l pc n) (hr : r ≠ s.mgr.nextRoomId)
    (hj : j ∈ (n.state.room r).activeJobs) :
    j ∈ (s.room r).activeJobs ∨ j = s.ledger.nextJobId := by
  generalize hroom : n.state.room r = room at hj
  have hstep := h.room hr
  rw [hroom] at hstep
  cases hstep with
  | @jobStarted nb nb' r' cells actor name jobId now hop hpc hmapped =>
      subst hop hpc
      cases h with
      | ensure h => cases h
      | stop h => cases h
      | call h =>
          cases h with
          | opened hop => cases hop
          | raised hpc => simp at hpc
          | @queued o =>
              have hmarked : j ∈
                  ((s.mgr.markJobStarted nb s.ledger.nextJobId o.now).heap r).activeJobs := by
                rw [← hroom] at hj
                exact hj
              unfold RuntimeManager.markJobStarted at hmarked
              rw [hmapped] at hmarked
              dsimp only at hmarked
              rw [RuntimeManager.heap_modify, if_pos rfl, Finset.mem_insert] at hmarked
              exact hmarked.symm
  | cleared => cases hj
  | jobFinished _ hjobs => exact .inl (hjobs hj)
  | _ => exact .inl hj

/-- A room that is registered was so before, or is new and has no job. -/
theorem TaskStep.registered (h : TaskStep s t op l pc n) (hr : r ∈ n.state.mgr.rooms) :
    r ∈ s.mgr.rooms ∨ r = s.mgr.nextRoomId ∧ (n.state.room r).activeJobs = ∅ := by
  cases h.registry with
  | kept h => exact .inl (h.rooms ▸ hr)
  | created hmgr =>
      rw [hmgr] at hr
      rcases List.mem_append.mp hr with hr | hr
      · exact .inl hr
      · obtain rfl := List.mem_singleton.mp hr
        refine .inr ⟨rfl, ?_⟩
        rw [Server.room, hmgr]
        simp [RuntimeManager.register, NotebookRoom.fresh]
  | adopted _ hmgr =>
      rw [hmgr] at hr
      rcases List.mem_append.mp hr with hr | hr
      · exact .inl hr
      · obtain rfl := List.mem_singleton.mp hr
        refine .inr ⟨rfl, ?_⟩
        rw [Server.room, hmgr]
        simp [RuntimeManager.register, NotebookRoom.adopted, NotebookRoom.fresh]
  | unregistered hmgr =>
      rw [hmgr] at hr
      exact .inl (List.mem_filter.mp hr).1

/-- Where a mark comes from. -/
theorem TaskStep.marked (hw : WellFormed s) (h : TaskStep s t op l pc n)
    (hr : r ∈ n.state.mgr.rooms) (hj : j ∈ (n.state.room r).activeJobs) :
    r ∈ s.mgr.rooms ∧ j ∈ (s.room r).activeJobs ∨ j = s.ledger.nextJobId := by
  rcases h.registered hr with hold | ⟨-, hempty⟩
  · exact (h.activeJobs (hw.registered r hold).ne hj).imp (⟨hold, ·⟩) id
  · rw [hempty] at hj
    cases hj

theorem TaskStep.unmarked (hw : WellFormed s) (h : TaskStep s t op l pc n)
    (hlt : j < s.ledger.nextJobId) (hs : s.Unmarked j) : n.state.Unmarked j := by
  intro r hr hj
  rcases h.marked hw hr hj with ⟨hold, hj⟩ | rfl
  · exact hs r hold hj
  · exact lt_irrefl _ hlt

theorem unmarked_step (hw : WellFormed s) (h : StepCase s l s') (hlt : j < s.ledger.nextJobId)
    (hs : s.Unmarked j) : s'.Unmarked j := by
  rcases h.mgr with hmgr | ⟨t, op, pc, n, -, hmove, rfl, -⟩
  · unfold Unmarked Server.room
    rw [hmgr]
    exact hs
  · exact hmove.unmarked hw hlt hs

/-- The `finally` of `_run_job` takes the mark in the notebook's room away, and no other. -/
theorem activeJobs_jobFinally {o : Oracle} {r₀ : RoomId} {pending : Option PyError}
    {mgr : RuntimeManager} {outcome : Outcome}
    (hn : s.jobFinally o run r₀ pending = ⟨{ s with mgr := mgr }, .done outcome, false⟩) :
    run.jobId ∈ (mgr.heap r).activeJobs ↔
      run.jobId ∈ (s.room r).activeJobs ∧
        s.mgr.roomForNotebook run.notebookId ≠ some r := by
  obtain ⟨mgr', rfl, hmgr'⟩ := jobFinally_mgr hn
  have hmarked : ((mgr'.modify r₀ fun room =>
      { room with jobLock := room.jobLock.release }).heap r).activeJobs =
      ((s.mgr.markJobFinished run.notebookId run.jobId o.now).heap r).activeJobs := by
    have hlock : ∀ m : RuntimeManager, ((m.modify r₀ fun room =>
        { room with jobLock := room.jobLock.release }).heap r).activeJobs =
        (m.heap r).activeJobs := by
      intro m
      rw [RuntimeManager.heap_modify]
      split <;> rfl
    rw [hlock]
    rcases hmgr' with rfl | rfl | ⟨-, -, rfl⟩
    · rfl
    · obtain ⟨now', hroom⟩ := RuntimeManager.heap_touchActivity
        (s.mgr.markJobFinished run.notebookId run.jobId o.now) r₀ o.now r
      rw [hroom]
    · rw [RuntimeManager.setRuntimeState, RuntimeManager.heap_modify]
      split <;> rfl
  rw [hmarked]
  by_cases hmapped : s.mgr.roomForNotebook run.notebookId = some r
  · unfold RuntimeManager.markJobFinished
    rw [hmapped]
    dsimp only
    rw [RuntimeManager.heap_modify, if_pos rfl]
    simp
  · rw [markJobFinished_of_ne hmapped]
    exact (and_iff_left hmapped).symm

/-! ## The end of a task -/

/-- In `finally` the mark goes if and only if it is in place. -/
theorem unmarked_jobFinally {o : Oracle} {r₀ : RoomId} {pending : Option PyError}
    {mgr : RuntimeManager} {outcome : Outcome}
    (hn : s.jobFinally o run r₀ pending = ⟨{ s with mgr := mgr }, .done outcome, false⟩) :
    Unmarked { s with mgr := mgr } run.jobId ↔ s.MarkedInPlace run := by
  have hrooms : mgr.rooms = s.mgr.rooms := (agrees_jobFinally hn).rooms
  unfold Unmarked MarkedInPlace
  dsimp only [Server.room]
  rw [hrooms]
  refine forall₂_congr fun r hr => ?_
  rw [activeJobs_jobFinally hn, not_and, not_not]
  rfl

/-- A step that changes nothing in a room but its state or its lock leaves the marks. -/
theorem unmarked_modify {r : RoomId} {f : NotebookRoom → NotebookRoom}
    (hf : ∀ room, (f room).activeJobs = room.activeJobs) :
    Unmarked { s with mgr := s.mgr.modify r f } j ↔ s.Unmarked j := by
  unfold Unmarked
  dsimp only [Server.room]
  refine forall₂_congr fun r' _ => ?_
  rw [RuntimeManager.heap_modify]
  split
  · rw [hf]
  · rfl

/-- The task of a job is never at a point of `stop_runtime`. -/
theorem not_stopStep (hadmits : (Op.runJob run).admits pc) (h : StopStep s t (.runJob run) l pc n) :
    False := by
  have hstops : ∀ {rest}, ¬ (Op.runJob run).stopsRooms rest := by
    rintro rest (hop | hop | ⟨⟨_, hop⟩ | ⟨_, hop⟩, -⟩) <;> cases hop
  cases h with
  | next => rcases hadmits with hop | hop <;> cases hop
  | swept => rcases hadmits with hop | hop <;> cases hop
  | _ => exact hstops hadmits

/-- When its task ends, the job is unmarked if and only if the step clears up. -/
theorem TaskStep.unmarked_iff (hmoving : s.moving l = some ⟨.runJob run, pc⟩)
    (hadmits : (Op.runJob run).admits pc) (h : TaskStep s t (.runJob run) l pc n)
    (hdone : n.pc.isDone = true) :
    n.state.Unmarked run.jobId ↔ s.clearsUp l = true := by
  unfold clearsUp
  rw [hmoving]
  cases h with
  | call h =>
      cases h with
      | refused hop => cases hop
      | opened hop => cases hop
      | interruptedNative =>
          obtain ⟨k, hop⟩ := hadmits
          cases hop
      | raised hpc =>
          rcases hpc with rfl | ⟨_, _, rfl⟩ | ⟨_ | _, rfl⟩ | rfl
          · obtain ⟨_, _, hop⟩ := hadmits
            cases hop
          · obtain ⟨⟨_, _, _, hop⟩, -⟩ := hadmits
            cases hop
          · obtain ⟨_, hop⟩ := hadmits
            cases hop
          · obtain ⟨_, _, hop⟩ := hadmits
            cases hop
          · obtain ⟨_, hop⟩ := hadmits
            cases hop
      | _ => cases hdone
  | ensure h =>
      cases h with
      | loadFailed herror => simp [herror]
      | status hop => cases hop
      | mismatch _ _ hmatch =>
          obtain ⟨-, rfl⟩ := ensures_runJob hadmits
          cases hmatch
      | createFailed =>
          dsimp only
          rw [decide_eq_true_iff]
          unfold createFailed
          dsimp only [finish, park]
          split
          · exact unmarked_modify fun _ => rfl
          · rfl
      | _ => cases hdone
  | stop h => exact (not_stopStep hadmits h).elim
  | job h =>
      cases h with
      | abandoned =>
          dsimp only
          rw [decide_eq_true_iff]
          exact unmarked_modify fun _ => rfl
      | finished hn =>
          dsimp only
          rw [decide_eq_true_iff]
          exact unmarked_jobFinally hn
      | clientReady hpc => rcases hpc with rfl | ⟨_, rfl⟩ | ⟨_, -, rfl⟩ <;> cases hdone
      | subshellMessage hpc => rcases hpc with rfl | ⟨_, rfl⟩ | ⟨_, -, rfl⟩ <;> cases hdone
      | _ => cases hdone

/-! ## Signatures -/

/-- A poll goes on with its request, or ends without the signature of an open prompt, or raises and
leaves one. -/
inductive PollEnd (s : Server) (l : Label) (n : Next) (j : JobId) : Prop
  | polls (hpc : n.pc.isPolling = true) (hclears : s.clearsUp l = true)
  | clean (hawaiting : n.state.awaitingInputSignatures j = none) (hclears : s.clearsUp l = true)
  | leaves {r error} (hpc : n.pc = .jobRaised r error)
      (hawaiting : n.state.awaitingInputSignatures j ≠ none) (hclears : s.clearsUp l = false)

/-- A poll that raises. -/
theorem pollEnd_raised {r : RoomId} {error : PyError}
    (hclears : s.clearsUp l = (s.awaitingInputSignatures j).isNone) :
    PollEnd s l ⟨s, .jobRaised r error, true⟩ j := by
  cases hawaiting : s.awaitingInputSignatures j with
  | none =>
      rw [hawaiting] at hclears
      exact .clean hawaiting hclears
  | some signature =>
      rw [hawaiting] at hclears
      exact .leaves rfl (fun hnone => by cases hawaiting.symm.trans hnone) hclears

theorem TaskStep.pollEnd (hmoving : s.moving l = some ⟨.runJob run, pc⟩)
    (h : TaskStep s t (.runJob run) l pc n) (hpc : pc.isPolling = true) :
    PollEnd s l n run.jobId := by
  obtain ⟨run', hrun, hjob⟩ := h.jobStep (by cases pc <;> first | rfl | cases hpc)
  cases hrun
  have hclears : s.clearsUp l = s.clearsUp l := rfl
  conv_rhs at hclears =>
    unfold clearsUp
    rw [hmoving]
  cases hjob with
  | slept => exact .polls rfl hclears
  | pending hpoll =>
      dsimp only at hclears
      rw [hpoll] at hclears
      exact .polls rfl hclears
  | echoed hpoll hresumed =>
      dsimp only at hclears
      rw [hpoll] at hclears
      exact .polls rfl (by simp [hclears, hresumed])
  | awaiting hpoll _ hr =>
      dsimp only at hclears
      rw [hpoll] at hclears
      exact .polls rfl (by simp [hclears, hr])
  | awaitingUnregistered hpoll hresumed hr =>
      dsimp only at hclears
      rw [hpoll] at hclears
      exact .leaves rfl (by simp [signatureRead]) (by simp [hclears, hresumed, hr])
  | polled hpoll =>
      dsimp only at hclears
      rw [hpoll] at hclears
      exact .clean (Function.update_self ..) hclears
  | pollRaised hpoll =>
      dsimp only at hclears
      rw [hpoll] at hclears
      exact pollEnd_raised hclears
  | stepRaised hpc' =>
      rcases hpc' with ⟨_, _, rfl⟩ | ⟨_, rfl⟩ | ⟨_, _, rfl⟩ | ⟨_, _, rfl⟩ | ⟨_, _, rfl⟩ |
        ⟨-, _, _, _, rfl⟩
      · cases hpc
      · cases hpc
      · cases hpc
      · exact pollEnd_raised hclears
      · cases hpc
      · cases hpc
  | _ => cases hpc

/-- An answered prompt is one that has been read. -/
theorem answered_read_step (hs : ∀ j, s.resumedInputSignatures j ≠ none →
      s.awaitingInputSignatures j ≠ none) (h : StepCase s l s') (j : JobId)
    (hresumed : s'.resumedInputSignatures j ≠ none) : s'.awaitingInputSignatures j ≠ none := by
  cases h with
  | call => exact hs j hresumed
  | @outside c => cases c <;> exact hs j hresumed
  | @task t op l pc n ht hmove =>
      change n.state.resumedInputSignatures j ≠ none at hresumed
      change n.state.awaitingInputSignatures j ≠ none
      rcases hmove.signatures j with ⟨hawaiting, hkept⟩ |
        ⟨run, r, cells, uid, o, rfl, rfl, rfl, rfl⟩ |
        ⟨value, actor, nb, r, o, rfl, rfl, rfl, hawaiting, hanswered⟩
      · rw [hawaiting]
        rw [hkept] at hresumed
        exact hs j hresumed
      · obtain ⟨run', hrun, hjob⟩ := hmove.jobStep rfl
        cases hrun
        cases hjob with
        | pending => exact hs _ hresumed
        | pollRaised => exact hs _ hresumed
        | echoed => simp [signatureRead]
        | awaiting => simp [signatureRead]
        | awaitingUnregistered => simp [signatureRead]
        | polled => exact absurd (Function.update_self ..) hresumed
      · rw [hawaiting]
        intro hnone
        unfold resumedSignatures at hanswered
        rw [hnone] at hanswered
        dsimp only at hanswered
        exact hs j (hanswered ▸ hresumed) hnone

/-- A job whose prompt has been read was polled, before the step or in it. -/
theorem polled_before (h : StepCase s l s') (hawaiting : s'.awaitingInputSignatures j ≠ none) :
    s.awaitingInputSignatures j ≠ none ∨
      ∃ t run r cells uid, s.tasks t = some ⟨.runJob run, .polling r cells uid⟩ ∧ run.jobId = j := by
  cases h with
  | call => exact .inl hawaiting
  | @outside c => cases c <;> exact .inl hawaiting
  | @task t op l pc n ht hmove =>
      change n.state.awaitingInputSignatures j ≠ none at hawaiting
      rcases hmove.signatures j with ⟨hkept, -⟩ | ⟨run, r, cells, uid, o, rfl, rfl, rfl, hj⟩ |
        ⟨_, _, _, _, _, rfl, rfl, rfl, hkept, -⟩
      · exact .inl (hkept ▸ hawaiting)
      · exact .inr ⟨t, run, r, cells, uid, ht, hj⟩
      · exact .inl (hkept ▸ hawaiting)

/-! ## The invariant -/

/-- A job that is over is marked nowhere, and only a job that is polled has signatures. -/
structure Tidy (s : Server) : Prop where
  unmarked : ∀ ⦃t run pc⦄, s.tasks t = some ⟨.runJob run, pc⟩ → pc.isDone = true →
    s.Unmarked run.jobId
  polled : ∀ ⦃j⦄, s.awaitingInputSignatures j ≠ none →
    ∃ t run pc, s.tasks t = some ⟨.runJob run, pc⟩ ∧ run.jobId = j ∧ pc.isPolling = true
  read : ∀ j, s.resumedInputSignatures j ≠ none → s.awaitingInputSignatures j ≠ none

theorem tidy_boot {ttl : Time} {maxCompleted : Int} {alive : KernelId → Bool}
    {kernelspec : NotebookId → Option String} : Tidy (boot ttl maxCompleted alive kernelspec) where
  unmarked _ _ _ ht := by cases ht
  polled _ hawaiting := absurd rfl hawaiting
  read _ hresumed := absurd rfl hresumed

namespace Tidy

theorem forgotten (hs : Tidy s) (hjobs : JobsInv s) (ht : s.tasks t = some ⟨.runJob run, pc⟩)
    (hdone : pc.isDone = true) : s.Forgotten run.jobId := by
  have hawaiting : s.awaitingInputSignatures run.jobId = none := by
    by_contra hsome
    obtain ⟨t', run', pc', ht', hj, hpc'⟩ := hs.polled hsome
    cases hjobs.once ht' ht hj
    cases ht.symm.trans ht'
    cases pc with
    | done => cases hpc'
    | _ => cases hdone
  refine ⟨hs.unmarked ht hdone, hawaiting, ?_⟩
  by_contra hsome
  exact hs.read _ hsome hawaiting

theorem unmarked_step (hs : Tidy s) (hw : WellFormed s) (hjobs : JobsInv s) (h : StepCase s l s')
    (hclears : s.clearsUp l = true) (ht : s'.tasks t = some ⟨.runJob run, pc⟩)
    (hdone : pc.isDone = true) : s'.Unmarked run.jobId := by
  generalize hop : Op.runJob run = op at ht
  cases task_origin h ht with
  | kept ht₀ =>
      subst hop
      exact Server.unmarked_step hw h (hjobs.handedOut ht₀) (hs.unmarked ht₀ hdone)
  | moved ht₀ hmove heq hmover =>
      subst hop
      rw [heq]
      exact (hmove.unmarked_iff (moving_eq hmover ht₀) (hw.admits ht₀) hdone).mpr hclears
  | called => cases hdone
  | spawned => cases hdone

theorem polled_step (hs : Tidy s) (hw : WellFormed s) (h : StepCase s l s')
    (hclears : s.clearsUp l = true) (hawaiting : s'.awaitingInputSignatures j ≠ none) :
    ∃ t run pc, s'.tasks t = some ⟨.runJob run, pc⟩ ∧ run.jobId = j ∧ pc.isPolling = true := by
  obtain ⟨t, run, pc, ht, rfl, hpc⟩ : ∃ t run pc, s.tasks t = some ⟨.runJob run, pc⟩ ∧
      run.jobId = j ∧ pc.isPolling = true := by
    rcases polled_before h hawaiting with hread | ⟨t, run, r, cells, uid, ht, hj⟩
    · exact hs.polled hread
    · exact ⟨t, run, _, ht, hj, rfl⟩
  rcases hw.task_next h ht with ⟨ht', -⟩ | ⟨n, hmove, rfl, hmover⟩
  · exact ⟨t, run, pc, ht', rfl, hpc⟩
  · cases hmove.pollEnd (moving_eq hmover ht) hpc with
    | polls hpc' => exact ⟨t, run, n.pc, by rw [commit_tasks, if_pos rfl], rfl, hpc'⟩
    | clean hnone => exact absurd hnone hawaiting
    | leaves _ _ hleaves => cases hclears.symm.trans hleaves

theorem step (hs : Tidy s) (hw : WellFormed s) (hjobs : JobsInv s) (h : StepCase s l s')
    (hclears : s.clearsUp l = true) : Tidy s' where
  unmarked _ _ _ := hs.unmarked_step hw hjobs h hclears
  polled _ := hs.polled_step hw h hclears
  read := answered_read_step hs.read h

end Tidy

/-! ## What is left -/

/-- The task of the job has raised in a poll that had read a prompt, or is past that. -/
def LeftAwaiting (s : Server) (run : JobRun) : Prop :=
  s.awaitingInputSignatures run.jobId ≠ none ∧
    ∃ t pc, s.tasks t = some ⟨.runJob run, pc⟩ ∧
      ((∃ r error, pc = .jobRaised r error) ∨ pc.isSettled = true)

theorem leftAwaiting_step (hw : WellFormed s) (hjobs : JobsInv s) (h : StepCase s l s')
    (hs : s.LeftAwaiting run) : s'.LeftAwaiting run := by
  obtain ⟨hawaiting, t, pc, ht, hpc⟩ := hs
  constructor
  · cases h with
    | call => exact hawaiting
    | @outside c => cases c <;> exact hawaiting
    | @task t' op l pc' n ht' hmove =>
        change n.state.awaitingInputSignatures run.jobId ≠ none
        rcases hmove.signatures run.jobId with ⟨hkept, -⟩ | ⟨run', r, cells, uid, o, rfl, rfl, rfl, hj⟩ |
          ⟨_, _, _, _, _, rfl, rfl, rfl, hkept, -⟩
        · exact hkept ▸ hawaiting
        · cases hjobs.once ht' ht hj
          cases ht.symm.trans ht'
          rcases hpc with ⟨_, _, hpc⟩ | hpc <;> cases hpc
        · exact hkept ▸ hawaiting
  · rcases hw.task_next h ht with ⟨ht', -⟩ | ⟨n, hmove, rfl, -⟩
    · exact ⟨t, pc, ht', hpc⟩
    · refine ⟨t, n.pc, by rw [commit_tasks, if_pos rfl], .inr ?_⟩
      rcases hpc with ⟨r, error, rfl⟩ | hpc
      · obtain ⟨run', -, hjob⟩ := hmove.jobStep rfl
        cases hjob with
        | stepRaised hpc => simp at hpc
        | failed => rfl
        | cancelled => rfl
      · exact hmove.isSettled hpc

/-- Only a poll and the end of a task can fail to clear up. -/
theorem TaskStep.leaves (hmoving : s.moving l = some ⟨op, pc⟩) (h : TaskStep s t op l pc n)
    (hleaves : s.clearsUp l = false) :
    ∃ run, op = .runJob run ∧ (pc.isPolling = true ∨ n.pc.isDone = true) := by
  unfold clearsUp at hleaves
  rw [hmoving] at hleaves
  split at hleaves
  · rename_i run nb choice t' error o hmoved
    cases hmoved
    refine ⟨run, rfl, .inr ?_⟩
    cases h.ensureStep rfl with
    | missing herror =>
        rw [herror] at hleaves
        cases hleaves
    | loadFailed => rfl
  · rename_i hmoved
    cases hmoved
    refine ⟨_, rfl, .inr ?_⟩
    cases h.ensureStep rfl with
    | createFailed => rfl
  · rename_i hmoved
    cases hmoved
    refine ⟨_, rfl, .inr ?_⟩
    obtain ⟨run', -, hjob⟩ := h.jobStep rfl
    cases hjob with
    | stepRaised hpc => simp at hpc
    | abandoned => rfl
  · rename_i hmoved
    cases hmoved
    exact ⟨_, rfl, .inl rfl⟩
  · rename_i hmoved
    cases hmoved
    exact ⟨_, rfl, .inl rfl⟩
  · rename_i hmoved
    cases hmoved
    refine ⟨_, rfl, .inr ?_⟩
    obtain ⟨outcome, hn⟩ := h.of_jobFinally
    rw [hn]
    rfl
  · cases hleaves

/-- A step that does not clear up ends the task of a marked job, or raises in a poll. -/
theorem leaves_step (hw : WellFormed s) (h : StepCase s l s') (hleaves : s.clearsUp l = false) :
    ∃ t run pc, s'.tasks t = some ⟨.runJob run, pc⟩ ∧
      (pc.isDone = true ∧ ¬ s'.Unmarked run.jobId ∨ s'.LeftAwaiting run) := by
  cases h with
  | call => cases hleaves
  | outside => cases hleaves
  | @task t op l pc n ht hmove _ hmover =>
      have hmoving := moving_eq hmover ht
      obtain ⟨run, rfl, hpc⟩ := hmove.leaves hmoving hleaves
      have ht' : (n.commit t (.runJob run)).tasks t = some ⟨.runJob run, n.pc⟩ := by
        rw [commit_tasks, if_pos rfl]
      refine ⟨t, run, n.pc, ht', ?_⟩
      rcases hpc with hpc | hdone
      · right
        cases hmove.pollEnd hmoving hpc with
        | polls _ hclears => cases hleaves.symm.trans hclears
        | clean _ hclears => cases hleaves.symm.trans hclears
        | leaves hpc' hawaiting => exact ⟨hawaiting, t, n.pc, ht', .inl ⟨_, _, hpc'⟩⟩
      · refine .inl ⟨hdone, fun hunmarked => ?_⟩
        have hclears := (hmove.unmarked_iff hmoving (hw.admits ht) hdone).mp hunmarked
        cases hleaves.symm.trans hclears

/-- As long as every step clears up, a job whose task has ended is forgotten.  The first step that
does not ends the task of a job that is still marked, or leaves signatures of its job for good. -/
theorem ended_jobs_forgotten (ttl : Time) (maxCompleted : Int) (alive : KernelId → Bool)
    (kernelspec : NotebookId → Option String) :
    (∀ s, ServerRun (fun s l => s.clearsUp l = true) (boot ttl maxCompleted alive kernelspec) s →
      ∀ t run outcome, s.tasks t = some ⟨.runJob run, .done outcome⟩ →
        (∀ r ∈ s.mgr.rooms, run.jobId ∉ (s.room r).activeJobs) ∧
          s.awaitingInputSignatures run.jobId = none ∧
          s.resumedInputSignatures run.jobId = none) ∧
      ∀ s, ServerRun (fun s l => s.clearsUp l = true) (boot ttl maxCompleted alive kernelspec) s →
        ∀ l s', s.step l = some s' → s.clearsUp l = false →
          ∃ t run pc, s'.tasks t = some ⟨.runJob run, pc⟩ ∧
            (pc.isDone = true ∧ (∃ r ∈ s'.mgr.rooms, run.jobId ∈ (s'.room r).activeJobs) ∨
              ∀ u, ServerRun anyStep s' u → u.awaitingInputSignatures run.jobId ≠ none) := by
  have hinv : ∀ s, ServerRun (fun s l => s.clearsUp l = true)
      (boot ttl maxCompleted alive kernelspec) s → WellFormed s ∧ JobsInv s ∧ Tidy s := by
    intro s hrun
    refine ⟨wellFormed_run hrun wellFormed_boot, jobsInv_run hrun jobsInv_boot, ?_⟩
    apply Run.invariant_of (I := Tidy) (J := fun u => WellFormed u ∧ JobsInv u) hrun
      (fun _ hu => ⟨wellFormed_run hu wellFormed_boot, jobsInv_run hu jobsInv_boot⟩) tidy_boot
    rintro u l u' ⟨hw, hjobs⟩ - hs hclears hstep
    exact hs.step hw hjobs (step_cases hstep) hclears
  constructor
  · intro s hrun t run outcome ht
    obtain ⟨-, hjobs, hs⟩ := hinv s hrun
    obtain ⟨hunmarked, hawaiting, hresumed⟩ := hs.forgotten hjobs ht rfl
    exact ⟨hunmarked, hawaiting, hresumed⟩
  · intro s hrun l s' hstep hleaves
    obtain ⟨hw, hjobs, -⟩ := hinv s hrun
    obtain ⟨t, run, pc, ht, hleft⟩ := leaves_step hw (step_cases hstep) hleaves
    refine ⟨t, run, pc, ht, ?_⟩
    rcases hleft with ⟨hdone, hmarked⟩ | hleft
    · refine .inl ⟨hdone, ?_⟩
      obtain ⟨r, hr⟩ := not_forall.mp hmarked
      obtain ⟨hr, hmarked⟩ := Classical.not_imp.mp hr
      exact ⟨r, hr, not_not.mp hmarked⟩
    · refine .inr fun u hu => ?_
      have hw' := hw.step hstep
      have hjobs' := hjobs.step hstep
      have hleft' : u.LeftAwaiting run := by
        apply Run.invariant_of (I := fun u => u.LeftAwaiting run)
          (J := fun u => WellFormed u ∧ JobsInv u) hu
          (fun _ hu => ⟨wellFormed_run hu hw', jobsInv_run hu hjobs'⟩) hleft
        rintro u l u' ⟨hw, hjobs⟩ - hs - hstep
        exact leftAwaiting_step hw hjobs (step_cases hstep) hs
      exact hleft'.1

section Schedules

/-- A job of one cell is queued on a notebook without a runtime and run up to the poll of its
request. -/
private def pollsCell : List Label :=
  [.call (.queueExecution "nb" ["cell"] ⟨"alice", .human⟩ none), .proceed (.quiet 0),
    .resume 0 .returned (.quiet 0), .proceed (.quiet 0),
    .resume 0 (.raised (.http 404 "")) (.quiet 0), .proceed (.quiet 0), .proceed (.quiet 0),
    .resume 0 (.session ⟨"session", "kernel", some "python3"⟩) (.quiet 0), .proceed (.quiet 0),
    .resume 1 .returned (.quiet 0), .proceed (.quiet 0), .proceed (.quiet 0),
    .proceed (.quiet 0), .proceed (.quiet 0), .proceed (.quiet 0), .proceed (.quiet 0),
    .resume 1 .returned (.quiet 0), .resume 1 (.raised .timeout) (.quiet 0),
    .resume 1 (.text "input()") (.quiet 0), .resume 1 (.text "document") (.quiet 0)]

private def namePrompt : Label :=
  .proceed { Oracle.quiet 0 with poll := .inputRequest (.obj [("prompt", .str "name> ")]) }

/-- Task 2 answers the prompt. -/
private def answersPrompt : List Label :=
  [.call (.sendStdin 0 "value" ⟨"alice", .human⟩), .proceed (.quiet 0), .proceed (.quiet 0),
    .proceed (.quiet 0), .proceed (.quiet 0), .resume 2 .returned (.quiet 0)]

/-- The request of the job ends, and so does its task. -/
private def jobEnds : List Label :=
  [.resume 1 .returned (.quiet 0),
    .proceed { Oracle.quiet 0 with poll := .result ⟨false, some "ok"⟩ },
    .resume 1 .returned (.quiet 0), .proceed (.quiet 0), .proceed (.quiet 0)]

/-- Task 2 stops the runtime while the job awaits input; the next poll finds its room gone. -/
private def stoppedWhileAwaiting : List Label :=
  [.call (.stopRuntime 0), .proceed (.quiet 0), .proceed (.quiet 0), .resume 2 .returned (.quiet 0),
    .proceed (.quiet 0), .resume 1 .returned (.quiet 0), namePrompt, .proceed (.quiet 0),
    .proceed (.quiet 0)]

theorem answered_job_forgotten :
    ∃ (s : Server) (run : JobRun) (outcome : Outcome),
      s.tasks 1 = some ⟨.runJob run, .done outcome⟩ ∧
      (∀ r ∈ s.mgr.rooms, run.jobId ∉ (s.room r).activeJobs) ∧
      s.awaitingInputSignatures run.jobId = none ∧ s.resumedInputSignatures run.jobId = none := by
  obtain ⟨s, hrun, ht⟩ := (boot 10 20 (fun _ => false) fun _ => none).exists_guarded_run
    clearsUp (pollsCell ++ namePrompt :: answersPrompt ++ jobEnds)
    (fun s => s.tasks 1 =
      some ⟨.runJob ⟨0, "nb", ["cell"], ⟨"alice", .human⟩⟩, .done .returned⟩)
    (by decide) (by decide)
  exact ⟨s, _, _, ht, (ended_jobs_forgotten 10 20 (fun _ => false) fun _ => none).1 s hrun 1 _ _ ht⟩

/-- A job that awaits input when its runtime is stopped leaves the signature of its prompt. -/
theorem stopped_job_leaves_signature :
    ∃ (s : Server) (run : JobRun) (outcome : Outcome),
      ServerRun anyStep (boot 10 20 (fun _ => false) fun _ => none) s ∧
      s.tasks 1 = some ⟨.runJob run, .done outcome⟩ ∧
      s.awaitingInputSignatures run.jobId ≠ none := by
  obtain ⟨s, hrun, ht, hawaiting⟩ := (boot 10 20 (fun _ => false) fun _ => none).exists_run
    (pollsCell ++ namePrompt :: stoppedWhileAwaiting)
    (fun s => s.tasks 1 =
      some ⟨.runJob ⟨0, "nb", ["cell"], ⟨"alice", .human⟩⟩, .done .returned⟩ ∧
      s.awaitingInputSignatures 0 ≠ none)
    (by decide)
  exact ⟨s, _, _, hrun, ht, hawaiting⟩

end Schedules

end Server

end Hypernote
