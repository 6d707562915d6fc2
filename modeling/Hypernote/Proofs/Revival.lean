import Hypernote.Proofs.Cleanup
/-!
# A stopped room

`stop_runtime` announces itself in the state of the room, which three other calls
write after an await of theirs: `ensure_room` when `create_session` ends, a poll that
reads an input request, and `send_stdin` when its answer is sent.  None of them looks
at the state it overwrites.
-/

namespace Hypernote

open Foundation

namespace Server

variable {s s' u v : Server} {l : Label} {t : TaskId} {op : Op} {pc : Pc} {n : Next}
  {r : RoomId} {nb : NotebookId} {e : Event}

/-- The step writes a state to the room without looking at the one it has. -/
def revives (r : RoomId) (s : Server) (l : Label) : Bool :=
  match s.moving l, l with
  | some ⟨_, .creating _ r'⟩, .resume _ (.session _) _ => r' = r
  | some ⟨_, .creating _ r'⟩, .resume _ (.raised error) _ => r' = r && error.isException
  | some ⟨.runJob job, .polling r' _ _⟩, .proceed o =>
      r' = r && r ∈ s.mgr.rooms &&
        match o.poll with
        | .inputRequest request =>
            s.resumedInputSignatures job.jobId ≠ some (inputRequestSignature request)
        | _ => false
  | some ⟨_, .sendingInput _ r'⟩, .resume _ .returned _ => r' = r && r ∈ s.mgr.rooms
  | _, _ => false

/-- `stop_runtime` has begun, as far as the room shows. -/
def Stopped (s : Server) (r : RoomId) : Prop :=
  (s.room r).state = .stopping ∨ (s.room r).state = .stopped

theorem Stopped.not_live (h : Stopped s r) : (s.room r).isLive = false := by
  rw [NotebookRoom.isLive]
  rcases h with h | h <;> rw [h] <;> rfl

/-! ## Nothing else writes the state -/

theorem state_modify_of_ne {r' : RoomId} {f : NotebookRoom → NotebookRoom} (hr : r' ≠ r) :
    ((s.mgr.modify r' f).heap r).state = (s.room r).state := by
  rw [RuntimeManager.heap_modify, if_neg (Ne.symm hr), Server.room]

theorem TaskStep.state_creating {r' : RoomId} (h : TaskStep s t op l (.creating nb r') n)
    (hmoving : s.moving l = some ⟨op, .creating nb r'⟩) (hrevives : s.revives r l = false) :
    (n.state.room r).state = (s.room r).state := by
  cases h.ensureStep rfl with
  | @started o _ _ session =>
      show ((s.mgr.modify r' (·.started session o.now)).heap r).state = _
      apply state_modify_of_ne
      simpa [revives, hmoving] using hrevives
  | @createFailed o _ _ error =>
      dsimp only [createFailed, finish, park, Server.room]
      split
      · rename_i herror
        apply state_modify_of_ne
        simpa [revives, hmoving, herror] using hrevives
      · rfl

theorem TaskStep.state_polling {r' : RoomId} {cells : List CellId} {uid : RequestUid}
    (h : TaskStep s t op l (.polling r' cells uid) n)
    (hmoving : s.moving l = some ⟨op, .polling r' cells uid⟩) (hrevives : s.revives r l = false) :
    (n.state.room r).state = (s.room r).state := by
  obtain ⟨job, rfl, hjob⟩ := h.jobStep rfl
  cases hjob with
  | stepRaised hpc => simp at hpc
  | @awaiting o _ _ _ request hpoll hresumed hmem =>
      show ((s.mgr.setRuntimeState r' .awaitingInput o.now).heap r).state = _
      apply state_modify_of_ne
      rintro rfl
      simp [revives, hmoving, hpoll, hresumed, hmem] at hrevives
  | @polled o =>
      obtain ⟨now, hroom⟩ := s.mgr.heap_touchActivity r' o.now r
      show ((s.mgr.touchActivity r' o.now).heap r).state = _
      rw [hroom, Server.room]
  | _ => rfl

theorem TaskStep.state_sendingInput {r' : RoomId} (h : TaskStep s t op l (.sendingInput nb r') n)
    (hmoving : s.moving l = some ⟨op, .sendingInput nb r'⟩) (hrevives : s.revives r l = false) :
    (n.state.room r).state = (s.room r).state := by
  cases h with
  | ensure h => cases h
  | stop h => cases h
  | job h =>
      cases h with
      | stepRaised hpc => simp at hpc
  | call h =>
      cases h with
      | raised => rfl
      | @stdinSent o _ _ _ _ _ mgr _ hmgr =>
          show (mgr.heap r).state = _
          rcases hmgr with ⟨hmem, rfl⟩ | ⟨-, rfl⟩
          · apply state_modify_of_ne
            rintro rfl
            simp [revives, hmoving, hmem] at hrevives
          · rfl

theorem stopped_step (hlive : ReturnsLive s) (h : StepCase s l s') (hr : r < s.mgr.nextRoomId)
    (hrevives : s.revives r l = false) (hs : Stopped s r) : Stopped s' r := by
  cases room_change h (hr.trans_le (nextRoomId_le h)) with
  | kept _ heq =>
      rw [Stopped, heq]
      exact hs
  | fresh heq => exact absurd heq hr.ne
  | adopted heq => exact absurd heq hr.ne
  | @moved t op pc n _ ht hmove heq hmover hroom =>
      have hmoving := moving_eq hmover ht
      have hkept : (n.state.room r).state = (s.room r).state → Stopped s' r := by
        intro hsame
        rw [Stopped, show s'.room r = n.state.room r by rw [heq]; rfl, hsame]
        exact hs
      generalize hnew : s'.room r = room at hroom
      rw [Stopped, hnew]
      cases hroom with
      | kept => exact hs
      | touched => exact hs
      | died => exact .inr rfl
      | started hpc =>
          subst hpc
          exact hnew ▸ hkept (hmove.state_creating hmoving hrevives)
      | failed hpc =>
          subst hpc
          exact hnew ▸ hkept (hmove.state_creating hmoving hrevives)
      | attached hattached =>
          rcases hattached with hattached | ⟨nb, rfl⟩
          · rw [hs.not_live] at hattached
            cases hattached
          · have hreturned := hlive.returned ht
            rw [liveRoom, hs.not_live] at hreturned
            cases hreturned
      | detached =>
          dsimp only [NotebookRoom.detach]
          rw [if_neg]
          · exact hs
          · rintro ⟨-, hstate⟩
            rcases hs with hs | hs <;> (rw [hstate] at hs; cases hs)
      | jobStarted => exact hs
      | lock => exact hs
      | awaiting hpc =>
          subst hpc
          exact hnew ▸ hkept (hmove.state_polling hmoving hrevives)
      | stdin hpc =>
          subst hpc
          exact hnew ▸ hkept (hmove.state_sendingInput hmoving hrevives)
      | stopping => exact .inl rfl
      | cleared => exact .inr rfl
      | jobFinished _ _ hstate =>
          rcases hstate with rfl | ⟨-, -, -, hstate⟩
          · exact hs
          · rcases hs with hs | hs <;> (rw [hstate] at hs; cases hs)

/-! ## The session of a stopped room -/

/-- A room that has a kernel keeps its session. -/
theorem sessionId_step (honce : CreatedOnce s) (h : StepCase s l s') (hr : r < s.mgr.nextRoomId)
    (hk : (s.room r).kernelId ≠ none) : (s'.room r).sessionId = (s.room r).sessionId := by
  rcases session_step h hr with ⟨-, hkept⟩ | ⟨t, op, nb, -, ht⟩
  · exact hkept
  · exact absurd (honce ht).1 hk

/-- `ensure_room` keeps the session that `create_session` has returned. -/
theorem sessionId_created {session : Session} {o : Oracle}
    (ht : s.tasks t = some ⟨op, .creating nb r⟩)
    (hstep : s.step (.resume t (.session session) o) = some s') :
    (s'.room r).sessionId = some session.id ∧ (s'.room r).kernelId ≠ none := by
  obtain ⟨n, hn, rfl⟩ := step_resume ht hstep
  cases hn
  have hroom : (Next.commit (s.sessionCreated o nb r session) t op).room r =
      (s.room r).started session o.now := Function.update_self ..
  rw [hroom]
  exact ⟨rfl, Option.some_ne_none _⟩

/-- A stop that is not skipped deletes the session of its room. -/
theorem deletes_session {rest stopped : List RoomId} {id : SessionId}
    (hmoving : s.moving l = some ⟨op, .stopRoom r rest stopped⟩) (hr : r ∈ s.mgr.rooms)
    (hskips : s.skipsStop l = false) (hid : (s.room r).sessionId = some id)
    (hstep : s.step l = some s') : .deleteSession r id ∈ s'.events := by
  obtain ⟨t, n, ht, hmove, -, -⟩ := (step_cases hstep).of_moving hmoving
  obtain ⟨o, rfl⟩ : ∃ o, l = .proceed o := by cases hmove.stopStep rfl <;> exact ⟨_, rfl⟩
  obtain ⟨t, n, -, hn, rfl, -⟩ := step_proceed hmoving hstep
  rw [advance, Option.some.injEq] at hn
  have hstate : ¬((s.room r).state = .stopped ∨ (s.room r).state = .stopping) := by
    simpa [skipsStop, hmoving, hr] using hskips
  rw [← hn, stopRoom, if_neg (not_not.mpr hr)]
  dsimp only
  rw [if_neg hstate, hid]
  simp [Next.commit, park, record]

/-- From the moment its stop begins, a room is `STOPPING` or `STOPPED` as long as no step writes
another state to it unseen, and every session created for it has been deleted. -/
theorem stopped_room_stays_stopped {ttl : Time} {maxCompleted : Int} {alive : KernelId → Bool}
    {kernelspec : NotebookId → Option String} {u u' : Server} {rest stopped : List RoomId}
    (hu : ServerRun anyStep (boot ttl maxCompleted alive kernelspec) u)
    (hmoving : u.moving l = some ⟨op, .stopRoom r rest stopped⟩) (hr : r ∈ u.mgr.rooms)
    (hstep : u.step l = some u') (h : ServerRun (fun s l => s.revives r l = false) u' s) :
    ((s.room r).state = .stopping ∨ (s.room r).state = .stopped) ∧ (s.room r).isLive = false ∧
      (u.skipsStop l = false → ∀ v v' t op nb session o,
        ServerRun anyStep (boot ttl maxCompleted alive kernelspec) v →
        v.tasks t = some ⟨op, .creating nb r⟩ →
        v.step (.resume t (.session session) o) = some v' → ServerRun anyStep v' u →
        .deleteSession r session.id ∈ s.events) := by
  have hinv := serverInv_run hu
  have hlt := hinv.wellFormed.registered r hr
  have hu' : ServerRun anyStep (boot ttl maxCompleted alive kernelspec) u' := .tail hu trivial hstep
  have hbegun : Stopped u' r := by
    obtain ⟨t, n, ht, hmove, rfl, -⟩ := (step_cases hstep).of_moving hmoving
    cases hmove.stopStep rfl with
    | unknown hr' => exact absurd hr hr'
    | already _ hstate =>
        rw [Stopped, Server.room, Next.commit, state_stopReturned]
        exact hstate.symm
    | @stopping o =>
        left
        have hroom := u.mgr.heap_modify r
          (fun room => { room with state := .stopping, lastActivity := o.now }) r
        rw [if_pos rfl] at hroom
        exact congrArg NotebookRoom.state hroom
  have hs : r < s.mgr.nextRoomId ∧ Stopped s r := by
    refine Run.invariant_of (I := fun s : Server => r < s.mgr.nextRoomId ∧ Stopped s r) h
      (fun w hw => serverInv_run (hu'.trans hw.weaken))
      ⟨hlt.trans_le (nextRoomId_le (step_cases hstep)), hbegun⟩ ?_
    rintro w l w' hw - ⟨hlt, hstopped⟩ hrevives hstep
    exact ⟨hlt.trans_le (nextRoomId_le (step_cases hstep)),
      stopped_step hw.returnsLive (step_cases hstep) hlt hrevives hstopped⟩
  refine ⟨hs.2, hs.2.not_live, ?_⟩
  intro hskips v v' t op nb session o hv ht hcreated hrun
  have hv' : ServerRun anyStep (boot ttl maxCompleted alive kernelspec) v' := .tail hv trivial hcreated
  obtain ⟨hid, hk⟩ := sessionId_created ht hcreated
  have hltv : r < v'.mgr.nextRoomId :=
    ((serverInv_run hv).wellFormed.held ht (List.mem_singleton_self r)).trans_le
      (nextRoomId_le (step_cases hcreated))
  -- from its creation on, the room keeps its kernel and with it its session
  have hkept : r < u.mgr.nextRoomId ∧ (u.room r).kernelId ≠ none ∧
      (u.room r).sessionId = some session.id := by
    refine Run.invariant_of (I := fun w : Server => r < w.mgr.nextRoomId ∧
      (w.room r).kernelId ≠ none ∧ (w.room r).sessionId = some session.id) hrun
      (fun w hw => serverInv_run (hv'.trans hw)) ⟨hltv, hk, hid⟩ ?_
    rintro w l w' hw - ⟨hlt, hk, hid⟩ - hstep
    have hcase := step_cases hstep
    exact ⟨hlt.trans_le (nextRoomId_le hcase), KernelsInv.kernelId_mono hcase hlt hk,
      (sessionId_step hw.createdOnce hcase hlt hk).trans hid⟩
  exact mem_events_run h (deletes_session hmoving hr hskips hkept.2.2 hstep)

section Schedules

/-- A call that has `create_session` awaited for the first room. -/
private def startAwaited : List Label :=
  [.call (.ensureRoom "nb" none), .proceed (.quiet 0), .proceed (.quiet 0),
    .resume 0 (.raised (.http 404 "")) (.quiet 0), .proceed (.quiet 0), .proceed (.quiet 0)]

private def kernelSession : Label :=
  .resume 0 (.session ⟨"session", "kernel", some "python3"⟩) (.quiet 0)

theorem stopped_room_session_deleted :
    ∃ s : Server, s.tasks 1 = some ⟨.stopRuntime 0, .done (.room 0)⟩ ∧
      (s.room 0).isLive = false ∧ .deleteSession 0 "session" ∈ s.events := by
  obtain ⟨v, hv, ht, hexec⟩ := (boot 10 20 (fun _ => false) fun _ => none).exists_run startAwaited
    (fun v => v.tasks 0 = some ⟨.ensureRoom "nb" none, .creating "nb" 0⟩ ∧
      (v.step kernelSession).any fun v' =>
        (exec step v' [.proceed (.quiet 0), .call (.stopRuntime 0), .proceed (.quiet 1)]).any
          fun u => u.moving (.proceed (.quiet 1)) = some ⟨.stopRuntime 0, .stopRoom 0 [] []⟩ ∧
            0 ∈ u.mgr.rooms ∧ u.skipsStop (.proceed (.quiet 1)) = false ∧
            (u.step (.proceed (.quiet 1))).any fun u' =>
              guardedBy step (fun s l => s.revives 0 l = false) u'
                [.resume 1 .returned (.quiet 1), .proceed (.quiet 1)] = true ∧
              (exec step u' [.resume 1 .returned (.quiet 1), .proceed (.quiet 1)]).any
                fun s => s.tasks 1 = some ⟨.stopRuntime 0, .done (.room 0)⟩)
    (by decide)
  obtain ⟨v', hcreated, hexec⟩ := (Option.any_eq_true _ _).mp hexec
  obtain ⟨u, hu, hmoving, hr, hskips, hexec⟩ := exists_run_of_exec hexec
  obtain ⟨u', hstep, hexec⟩ := (Option.any_eq_true _ _).mp hexec
  obtain ⟨hguarded, hexec⟩ := of_decide_eq_true hexec
  obtain ⟨s, hs, hdone⟩ := exists_guarded_run_of_exec hguarded hexec
  have hu₀ := (Run.tail hv trivial hcreated).trans hu
  obtain ⟨-, hlive, hdeleted⟩ := stopped_room_stays_stopped hu₀ hmoving hr hstep hs
  exact ⟨s, hdone, hlive, hdeleted hskips v v' 0 _ _ _ _ hv ht hcreated hu⟩

/-- A room is stopped while `create_session` is awaited for it: it becomes live afterwards, and
nothing deletes its session. -/
theorem room_starts_after_stop :
    ∃ (u u' s : Server) (l : Label),
      ServerRun anyStep (boot 10 20 (fun _ => false) fun _ => none) u ∧
      u.moving l = some ⟨.stopRuntime 0, .stopRoom 0 [] []⟩ ∧ 0 ∈ u.mgr.rooms ∧
      u.skipsStop l = false ∧ u.step l = some u' ∧ ServerRun anyStep u' s ∧
      s.tasks 0 = some ⟨.ensureRoom "nb" none, .done (.room 0)⟩ ∧
      s.tasks 1 = some ⟨.stopRuntime 0, .done (.room 0)⟩ ∧
      (s.room 0).isLive = true ∧ (s.room 0).sessionId = some "session" ∧
      .deleteSession 0 "session" ∉ s.events := by
  obtain ⟨u, hu, hmoving, hr, hskips, hexec⟩ :=
    (boot 10 20 (fun _ => false) fun _ => none).exists_run
      (startAwaited ++ [.call (.stopRuntime 0), .proceed (.quiet 1)])
      (fun u => u.moving (.proceed (.quiet 1)) = some ⟨.stopRuntime 0, .stopRoom 0 [] []⟩ ∧
        0 ∈ u.mgr.rooms ∧ u.skipsStop (.proceed (.quiet 1)) = false ∧
        (u.step (.proceed (.quiet 1))).any fun u' =>
          (exec step u' [.proceed (.quiet 1), kernelSession, .proceed (.quiet 1)]).any fun s =>
            s.tasks 0 = some ⟨.ensureRoom "nb" none, .done (.room 0)⟩ ∧
            s.tasks 1 = some ⟨.stopRuntime 0, .done (.room 0)⟩ ∧
            (s.room 0).isLive = true ∧ (s.room 0).sessionId = some "session" ∧
            .deleteSession 0 "session" ∉ s.events)
      (by decide)
  obtain ⟨u', hstep, hexec⟩ := (Option.any_eq_true _ _).mp hexec
  obtain ⟨s, hs, h⟩ := exists_run_of_exec hexec
  exact ⟨u, u', s, _, hu, hmoving, hr, hskips, hstep, hs, h⟩

end Schedules

end Server

end Hypernote
