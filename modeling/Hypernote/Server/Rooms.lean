import Hypernote.Server.Frame
/-!
# What one move does to the registry

`RegistryStep` lists the moves that write `_rooms` or `_notebook_to_room`, `RoomStep`
what a move can do to the object of one room.
-/

namespace Hypernote

open Foundation

/-- The room whose last activity a move from this point may renew, and nothing else of it. -/
def Pc.touched : Pc → Op → Option RoomId
  | .loaded _ _ existing, op => if op.isStatus then none else existing
  | .ensured _ r, .interrupt .. => some r
  | .interrupting r, .interrupt .. => r
  | .locked r, _ | .polling r _ _, _ => some r
  | _, _ => none

namespace Server

/-- What one move does to the two dictionaries of the registry. -/
inductive RegistryStep (s : Server) (l : Label) : Pc → Next → Prop
  | kept {pc n} (h : s.mgr.Agrees n.state.mgr) : RegistryStep s l pc n
  | created {nb choice now n}
      (hmgr : n.state.mgr = s.mgr.register (.fresh nb now))
      (hpc : n.pc = .creating nb s.mgr.nextRoomId) : RegistryStep s l (.startRoom nb choice) n
  | adopted {nb choice session now t o n} (hl : l = .resume t (.session session) o)
      (hmgr : n.state.mgr = s.mgr.register (.adopted nb session now))
      (hpc : n.pc = .loaded nb choice (some s.mgr.nextRoomId)) :
      RegistryStep s l (.loading nb choice) n
  | unregistered {r rest stopped pending now n}
      (hmgr : n.state.mgr = (s.mgr.modify r (·.cleared now)).unregister r) :
      RegistryStep s l (.stopFinally r rest stopped pending) n

/-- What one move does to a room object that exists. -/
inductive RoomStep (s : Server) (op : Op) (pc pc' : Pc) (r : RoomId) : NotebookRoom → Prop
  | kept : RoomStep s op pc pc' r (s.room r)
  | touched {now} (hpc : pc.touched op = some r) :
      RoomStep s op pc pc' r { s.room r with lastActivity := now }
  | died {nb choice} (hpc : pc = .loadRoom nb choice) (hr : s.mgr.roomForNotebook nb = some r)
      (halive : RuntimeManager.kernelIsAlive s.alive (s.room r) = false)
      (hstate : (s.room r).state ≠ .stopped ∧ (s.room r).state ≠ .failed) :
      RoomStep s op pc pc' r { s.room r with state := .stopped }
  | started {nb session now} (hpc : pc = .creating nb r) (hpc' : pc' = .ensured nb r) :
      RoomStep s op pc pc' r ((s.room r).started session now)
  | failed {nb} (hpc : pc = .creating nb r) :
      RoomStep s op pc pc' r { s.room r with state := .failed }
  | attached {client now} (hlive : (s.room r).isLive = true ∨ ∃ nb, pc = .ensured nb r)
      (hop : op = .attachClient r client ∧ pc = .start ∨
        op.opens = some client ∧ ∃ nb, pc = .ensured nb r) :
      RoomStep s op pc pc' r ((s.room r).attach client now)
  | detached {client now} (hop : op = .detachClient r client) (hpc : pc = .start) :
      RoomStep s op pc pc' r ((s.room r).detach client now)
  | jobStarted {nb nb' r' cells actor name jobId now}
      (hop : op = .queueExecution nb' cells actor name) (hpc : pc = .ensured nb r')
      (hr : s.mgr.roomForNotebook nb = some r) :
      RoomStep s op pc pc' r
        { s.room r with activeJobs := insert jobId (s.room r).activeJobs, lastActivity := now }
  | lock {lock} (hpc : (∃ nb, pc = .ensured nb r) ∨ pc = .awaitingLock r)
      (hop : ∃ job, op = .runJob job) : RoomStep s op pc pc' r { s.room r with jobLock := lock }
  | awaiting {cells uid now} (hpc : pc = .polling r cells uid) (hr : r ∈ s.mgr.rooms) :
      RoomStep s op pc pc' r { s.room r with state := .awaitingInput, lastActivity := now }
  | stdin {nb state now} (hpc : pc = .sendingInput nb r) (hr : r ∈ s.mgr.rooms)
      (hstate : state =
        if (s.room r).attachedClients = ∅ then RuntimeState.liveDetached else .liveAttached) :
      RoomStep s op pc pc' r { s.room r with state := state, lastActivity := now }
  | stopping {rest stopped now} (hpc : pc = .stopRoom r rest stopped)
      (hpc' : pc' = .deleting r rest stopped ∨ pc' = .stopFinally r rest stopped none) :
      RoomStep s op pc pc' r { s.room r with state := .stopping, lastActivity := now }
  | cleared {rest stopped pending now} (hpc : pc = .stopFinally r rest stopped pending) :
      RoomStep s op pc pc' r ((s.room r).cleared now)
  | jobFinished {r' pending jobs state now lock} (hpc : pc = .jobFinally r' pending)
      (hjobs : jobs ⊆ (s.room r).activeJobs)
      (hstate : state = (s.room r).state ∨
        r = r' ∧ r ∈ s.mgr.rooms ∧ state = .liveDetached ∧ (s.room r).state = .awaitingInput)
      (hop : ∃ job, op = .runJob job ∧
        (r = r' ∨ s.mgr.roomForNotebook job.notebookId = some r))
      (hlock : lock = if r = r' then (s.room r).jobLock.release else (s.room r).jobLock) :
      RoomStep s op pc pc' r
        { s.room r with
          activeJobs := jobs
          state := state
          lastActivity := now
          jobLock := lock }

variable {s : Server} {t : TaskId} {op : Op} {l : Label} {pc pc' : Pc} {n : Next} {r : RoomId}

/-- The registry after the `finally` of `_run_job` and the release of the lock. -/
theorem jobFinally_mgr {o : Oracle} {job : JobRun} {pending : Option PyError}
    {mgr : RuntimeManager} {outcome : Outcome}
    (hn : s.jobFinally o job r pending = ⟨{ s with mgr := mgr }, .done outcome, false⟩) :
    ∃ mgr', mgr = mgr'.modify r (fun room => { room with jobLock := room.jobLock.release }) ∧
      let marked := s.mgr.markJobFinished job.notebookId job.jobId o.now
      (mgr' = marked ∨ mgr' = marked.touchActivity r o.now ∨
        (marked.heap r).state = .awaitingInput ∧ r ∈ marked.rooms ∧
          mgr' = marked.setRuntimeState r .liveDetached o.now) := by
  have hmgr : mgr = (s.jobFinally o job r pending).state.mgr := by rw [hn]
  rw [hmgr]
  unfold jobFinally
  dsimp only
  split
  · split
    · exact ⟨_, rfl, .inr (.inr ⟨‹_›, ‹_›, rfl⟩)⟩
    · exact ⟨_, rfl, .inl rfl⟩
  · exact ⟨_, rfl, .inr (.inl rfl)⟩

theorem agrees_jobFinally {o : Oracle} {job : JobRun} {pending : Option PyError}
    {mgr : RuntimeManager} {outcome : Outcome}
    (hn : s.jobFinally o job r pending = ⟨{ s with mgr := mgr }, .done outcome, false⟩) :
    s.mgr.Agrees mgr := by
  have hmark := s.mgr.agrees_markJobFinished job.notebookId job.jobId o.now
  obtain ⟨mgr', rfl, rfl | rfl | ⟨-, -, rfl⟩⟩ := jobFinally_mgr hn
  · exact hmark.trans ⟨rfl, rfl, rfl, rfl⟩
  · exact (hmark.trans (RuntimeManager.agrees_touchActivity _ r o.now)).trans ⟨rfl, rfl, rfl, rfl⟩
  · exact hmark.trans ⟨rfl, rfl, rfl, rfl⟩

theorem TaskStep.registry (h : TaskStep s t op l pc n) : RegistryStep s l pc n := by
  cases h with
  | call h =>
      cases h with
      | attached => exact .kept ⟨rfl, rfl, rfl, rfl⟩
      | detached => exact .kept ⟨rfl, rfl, rfl, rfl⟩
      | opened => exact .kept ⟨rfl, rfl, rfl, rfl⟩
      | queued => exact .kept (RuntimeManager.agrees_markJobStarted ..)
      | interruptSubshell => exact .kept (RuntimeManager.agrees_touchActivity ..)
      | interrupted => exact .kept ⟨rfl, rfl, rfl, rfl⟩
      | stdinSent hmgr =>
          rcases hmgr with ⟨-, rfl⟩ | ⟨-, rfl⟩
          · exact .kept ⟨rfl, rfl, rfl, rfl⟩
          · exact .kept ⟨rfl, rfl, rfl, rfl⟩
      | _ => exact .kept ⟨rfl, rfl, rfl, rfl⟩
  | ensure h =>
      cases h with
      | found => exact .kept (RuntimeManager.agrees_refresh ..)
      | live => exact .kept (RuntimeManager.agrees_touchActivity ..)
      | adopted => exact .adopted rfl rfl rfl
      | created => exact .created rfl rfl
      | started => exact .kept ⟨rfl, rfl, rfl, rfl⟩
      | createFailed =>
          refine .kept ?_
          unfold createFailed
          dsimp only [finish, park]
          split
          · exact ⟨rfl, rfl, rfl, rfl⟩
          · exact .refl _
      | _ => exact .kept ⟨rfl, rfl, rfl, rfl⟩
  | stop h =>
      cases h with
      | unknown => cases op <;> exact .kept ⟨rfl, rfl, rfl, rfl⟩
      | already => cases op <;> exact .kept ⟨rfl, rfl, rfl, rfl⟩
      | stopping => exact .kept ⟨rfl, rfl, rfl, rfl⟩
      | cancelled => exact .unregistered rfl
      | cleared => cases op <;> exact .unregistered rfl
      | _ => exact .kept ⟨rfl, rfl, rfl, rfl⟩
  | job h =>
      cases h with
      | acquired => exact .kept ⟨rfl, rfl, rfl, rfl⟩
      | enqueued => exact .kept ⟨rfl, rfl, rfl, rfl⟩
      | woken => exact .kept ⟨rfl, rfl, rfl, rfl⟩
      | abandoned => exact .kept ⟨rfl, rfl, rfl, rfl⟩
      | locked => exact .kept (RuntimeManager.agrees_touchActivity ..)
      | awaiting => exact .kept ⟨rfl, rfl, rfl, rfl⟩
      | polled => exact .kept (RuntimeManager.agrees_touchActivity ..)
      | finished hn => exact .kept (agrees_jobFinally hn)
      | _ => exact .kept ⟨rfl, rfl, rfl, rfl⟩


theorem room_modify {r' : RoomId} {room' : NotebookRoom}
    (h : r = r' → RoomStep s op pc pc' r room') :
    RoomStep s op pc pc' r (Function.update s.mgr.heap r' room' r) := by
  rw [Function.update_apply]
  split
  · exact h ‹_›
  · exact .kept

theorem room_register {room : NotebookRoom} (hr : r ≠ s.mgr.nextRoomId) :
    RoomStep s op pc pc' r ((s.mgr.register room).heap r) := by
  simp only [RuntimeManager.register, Function.update_of_ne hr]
  exact .kept

theorem room_touchActivity {r' : RoomId} {now : Time} (hpc : pc.touched op = some r') :
    RoomStep s op pc pc' r ((s.mgr.touchActivity r' now).heap r) := by
  unfold RuntimeManager.touchActivity
  split
  · apply room_modify
    rintro rfl
    exact .touched hpc
  · exact .kept

theorem room_refresh {r' : RoomId} {nb : NotebookId} {choice : KernelChoice}
    (hr' : s.mgr.roomForNotebook nb = some r') :
    RoomStep s op (.loadRoom nb choice) pc' r ((s.mgr.refresh s.alive r').heap r) := by
  unfold RuntimeManager.refresh
  dsimp only
  split
  · exact .kept
  · rename_i hdead
    split
    · rename_i hstate
      apply room_modify
      rintro rfl
      exact .died rfl hr' (Bool.eq_false_iff.mpr hdead) hstate
    · exact .kept

theorem markJobFinished_room (s : Server) (r : RoomId) (nb : NotebookId) (jobId : JobId)
    (now : Time) :
    ∃ jobs now', jobs ⊆ (s.room r).activeJobs ∧ (s.mgr.markJobFinished nb jobId now).heap r =
      { s.room r with activeJobs := jobs, lastActivity := now' } := by
  unfold RuntimeManager.markJobFinished
  split
  · exact ⟨_, _, subset_rfl, rfl⟩
  · rw [RuntimeManager.heap_modify]
    split
    · exact ⟨_, _, Finset.erase_subset _ _, rfl⟩
    · exact ⟨_, _, subset_rfl, rfl⟩

theorem markJobFinished_of_ne {nb : NotebookId} {jobId : JobId} {now : Time}
    (hr : s.mgr.roomForNotebook nb ≠ some r) :
    (s.mgr.markJobFinished nb jobId now).heap r = s.room r := by
  unfold RuntimeManager.markJobFinished
  split
  · rfl
  · rename_i r' hr'
    rw [RuntimeManager.heap_modify, if_neg]
    · rfl
    · rintro rfl
      exact hr hr'

theorem room_jobFinally {o : Oracle} {job : JobRun} {r' : RoomId} {pending : Option PyError}
    {mgr : RuntimeManager} {outcome : Outcome}
    (hn : s.jobFinally o job r' pending = ⟨{ s with mgr := mgr }, .done outcome, false⟩) :
    RoomStep s (.runJob job) (.jobFinally r' pending) pc' r (mgr.heap r) := by
  obtain ⟨jobs, now, hjobs, hmark⟩ :=
    markJobFinished_room s r job.notebookId job.jobId o.now
  obtain ⟨mgr', rfl, hmgr'⟩ := jobFinally_mgr hn
  by_cases hr : r = r'
  · subst hr
    obtain ⟨state, now', hstate, hroom⟩ : ∃ state now',
        (state = (s.room r).state ∨
          r = r ∧ r ∈ s.mgr.rooms ∧ state = .liveDetached ∧ (s.room r).state = .awaitingInput) ∧
        mgr'.heap r =
          { s.room r with activeJobs := jobs, state := state, lastActivity := now' } := by
      rcases hmgr' with rfl | rfl | ⟨hawaiting, hmem, rfl⟩
      · exact ⟨_, _, .inl rfl, hmark⟩
      · unfold RuntimeManager.touchActivity
        split
        · rw [RuntimeManager.heap_modify, if_pos rfl, hmark]
          exact ⟨_, _, .inl rfl, rfl⟩
        · exact ⟨_, _, .inl rfl, hmark⟩
      · rw [RuntimeManager.setRuntimeState, RuntimeManager.heap_modify, if_pos rfl]
        rw [(s.mgr.agrees_markJobFinished ..).rooms] at hmem
        rw [hmark] at hawaiting ⊢
        exact ⟨_, _, .inr ⟨rfl, hmem, rfl, hawaiting⟩, rfl⟩
    rw [RuntimeManager.heap_modify, if_pos rfl, hroom]
    exact .jobFinished rfl hjobs hstate ⟨job, rfl, .inl rfl⟩ (if_pos rfl).symm
  · have hroom : mgr'.heap r =
        (s.mgr.markJobFinished job.notebookId job.jobId o.now).heap r := by
      rcases hmgr' with rfl | rfl | ⟨-, -, rfl⟩
      · rfl
      · unfold RuntimeManager.touchActivity
        split
        · rw [RuntimeManager.heap_modify, if_neg hr]
        · rfl
      · rw [RuntimeManager.setRuntimeState, RuntimeManager.heap_modify, if_neg hr]
    rw [RuntimeManager.heap_modify, if_neg hr, hroom]
    by_cases hmapped : s.mgr.roomForNotebook job.notebookId = some r
    · rw [hmark]
      exact .jobFinished rfl hjobs (.inl rfl) ⟨job, rfl, .inr hmapped⟩ (if_neg hr).symm
    · rw [markJobFinished_of_ne hmapped]
      exact .kept

theorem TaskStep.room (h : TaskStep s t op l pc n) (hr : r ≠ s.mgr.nextRoomId) :
    RoomStep s op pc n.pc r (n.state.room r) := by
  cases h with
  | call h =>
      cases h with
      | attached hr' hlive =>
          apply room_modify
          rintro rfl
          exact .attached (.inl hlive) (.inl ⟨rfl, rfl⟩)
      | detached =>
          apply room_modify
          rintro rfl
          exact .detached rfl rfl
      | opened hop =>
          apply room_modify
          rintro rfl
          exact .attached (.inr ⟨_, rfl⟩) (.inr ⟨hop, _, rfl⟩)
      | @queued o nb nb' r' cells actor name =>
          show RoomStep _ _ _ _ _ ((s.mgr.markJobStarted nb _ _).heap r)
          unfold RuntimeManager.markJobStarted
          split
          · exact .kept
          · rename_i hroom
            apply room_modify
            rintro rfl
            exact .jobStarted rfl rfl hroom
      | interruptSubshell => exact room_touchActivity rfl
      | interrupted =>
          apply room_modify
          rintro rfl
          exact .touched rfl
      | stdinSent hmgr =>
          rcases hmgr with ⟨hroom, rfl⟩ | ⟨-, rfl⟩
          · apply room_modify
            rintro rfl
            exact .stdin rfl hroom rfl
          · exact .kept
      | _ => exact .kept
  | ensure h =>
      cases h with
      | found hfound => exact room_refresh hfound
      | live hop =>
          apply room_touchActivity
          rw [Pc.touched, hop]
          rfl
      | adopted => exact room_register hr
      | created => exact room_register hr
      | started =>
          apply room_modify
          rintro rfl
          exact .started rfl rfl
      | createFailed =>
          unfold createFailed
          dsimp only [finish, park, Server.room]
          split
          · apply room_modify
            rintro rfl
            exact .failed rfl
          · exact .kept
      | _ => exact .kept
  | stop h =>
      cases h with
      | unknown => cases op <;> exact .kept
      | already => cases op <;> exact .kept
      | stopping _ _ hpc =>
          apply room_modify
          rintro rfl
          exact .stopping rfl hpc
      | cancelled =>
          apply room_modify
          rintro rfl
          exact .cleared rfl
      | cleared =>
          cases op
          all_goals
            apply room_modify
            rintro rfl
            exact .cleared rfl
      | _ => exact .kept
  | job h =>
      cases h with
      | acquired =>
          apply room_modify
          rintro rfl
          exact .lock (.inl ⟨_, rfl⟩) ⟨_, rfl⟩
      | enqueued =>
          apply room_modify
          rintro rfl
          exact .lock (.inl ⟨_, rfl⟩) ⟨_, rfl⟩
      | woken =>
          apply room_modify
          rintro rfl
          exact .lock (.inr rfl) ⟨_, rfl⟩
      | abandoned =>
          apply room_modify
          rintro rfl
          exact .lock (.inr rfl) ⟨_, rfl⟩
      | locked => exact room_touchActivity rfl
      | awaiting _ _ hroom =>
          apply room_modify
          rintro rfl
          exact .awaiting rfl hroom
      | polled => exact room_touchActivity rfl
      | finished hn => exact room_jobFinally hn
      | _ => exact .kept

/-! ## The invariant -/

theorem RoomStep.notebookId {room : NotebookRoom} (h : RoomStep s op pc pc' r room) :
    room.notebookId = (s.room r).notebookId := by
  cases h <;> rfl

theorem RegistryStep.nextRoomId_le (h : RegistryStep s l pc n) :
    s.mgr.nextRoomId ≤ n.state.mgr.nextRoomId := by
  cases h with
  | kept h => exact h.nextRoomId.ge
  | created h => rw [h]; exact Nat.le_succ _
  | adopted _ h => rw [h]; exact Nat.le_succ _
  | unregistered h => rw [h]; exact le_refl _

end Server

end Hypernote
