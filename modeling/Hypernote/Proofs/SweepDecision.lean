import Hypernote.Proofs.IdleSweep
import Hypernote.Proofs.Revival
/-!
# From the sweep's decision to its stop

`gc_sweep` decides for all rooms at one reading of the clock, and stops them one await
after the other.  `stop_runtime` does not ask again whether the room is idle, and the
decision did not ask whether it has clients.
-/

namespace Hypernote

open Foundation

namespace Server

variable {s s' u u' : Server} {l : Label} {t : TaskId} {op : Op} {pc : Pc} {n : Next}
  {r : RoomId} {nb : NotebookId}

/-- A move of a call from this point may write the state of the room, its clients or its last
activity; the moves of `stop_runtime` are not among them. -/
def uses (s : Server) (r : RoomId) (op : Op) (pc : Pc) : Bool :=
  pc.touched op = some r ||
    match op, pc with
    | .attachClient r' _, .start | .detachClient r' _, .start => r' = r
    | _, .loadRoom nb _ =>
        s.mgr.roomForNotebook nb = some r && !RuntimeManager.kernelIsAlive s.alive (s.room r)
    | _, .creating _ r' | _, .sendingInput _ r' => r' = r
    | .queueExecution .., .ensured nb _ => s.mgr.roomForNotebook nb = some r
    | _, .ensured _ r' => op.opens.isSome && r' = r
    | .runJob job, .jobFinally r' _ =>
        r' = r || s.mgr.roomForNotebook job.notebookId = some r
    | _, _ => false

/-- No call uses the room in this step. -/
def unused (r : RoomId) (s : Server) (l : Label) : Bool :=
  match s.moving l with
  | some ⟨op, pc⟩ => !s.uses r op pc
  | none => true

/-- What the sweep's decision was about. -/
structure Undisturbed (room room' : NotebookRoom) : Prop where
  state : room'.state = room.state
  attachedClients : room'.attachedClients = room.attachedClients
  lastActivity : room'.lastActivity = room.lastActivity

/-- A step in which no call uses the room leaves it as it is or stops it. -/
theorem undisturbed_step (h : StepCase s l s') (hr : r < s.mgr.nextRoomId)
    (hunused : s.unused r l = true) :
    Undisturbed (s.room r) (s'.room r) ∨ Stopped s' r := by
  cases room_change h (hr.trans_le (nextRoomId_le h)) with
  | kept _ heq =>
      rw [heq]
      exact .inl ⟨rfl, rfl, rfl⟩
  | fresh heq => exact absurd heq hr.ne
  | adopted heq => exact absurd heq hr.ne
  | @moved t op pc n _ ht hmove _ hmover hroom =>
      have huses : s.uses r op pc = false := by
        simpa [unused, moving_eq hmover ht] using hunused
      rw [Stopped]
      generalize s'.room r = room at hroom ⊢
      cases hroom with
      | kept => exact .inl ⟨rfl, rfl, rfl⟩
      | touched hpc => simp [uses, hpc] at huses
      | died hpc hfound halive =>
          subst hpc
          cases op <;> simp [uses, hfound, halive] at huses
      | started hpc =>
          subst hpc
          cases op <;> simp [uses] at huses
      | failed hpc =>
          subst hpc
          cases op <;> simp [uses] at huses
      | attached _ hop =>
          rcases hop with ⟨rfl, rfl⟩ | ⟨hop, nb, rfl⟩
          · simp [uses] at huses
          · cases op <;> cases hop <;> simp [uses, Op.opens] at huses
      | detached hop hpc =>
          subst hop hpc
          simp [uses] at huses
      | jobStarted hop hpc hfound =>
          subst hop hpc
          simp [uses, hfound] at huses
      | lock => exact .inl ⟨rfl, rfl, rfl⟩
      | awaiting hpc =>
          subst hpc
          simp [uses, Pc.touched] at huses
      | stdin hpc =>
          subst hpc
          cases op <;> simp [uses] at huses
      | stopping => exact .inr (.inl rfl)
      | cleared => exact .inr (.inr rfl)
      | jobFinished hpc _ _ hop =>
          obtain ⟨job, rfl, hmine⟩ := hop
          subst hpc
          rcases hmine with rfl | hmapped
          · simp [uses] at huses
          · simp [uses, hmapped] at huses

theorem Undisturbed.trans {room room' room'' : NotebookRoom} (h : Undisturbed room room')
    (h' : Undisturbed room' room'') : Undisturbed room room'' where
  state := h'.state.trans h.state
  attachedClients := h'.attachedClients.trans h.attachedClients
  lastActivity := h'.lastActivity.trans h.lastActivity

theorem idleTtlSeconds_step (h : StepCase s l s') :
    s'.mgr.idleTtlSeconds = s.mgr.idleTtlSeconds := by
  rcases h.mgr with hmgr | ⟨t, op, pc, n, -, hmove, rfl, -⟩
  · rw [hmgr]
  · change n.state.mgr.idleTtlSeconds = _
    cases hmove.registry with
    | kept h => exact h.idleTtlSeconds
    | created hmgr => rw [hmgr]; rfl
    | adopted _ hmgr => rw [hmgr]; rfl
    | unregistered hmgr => rw [hmgr]; rfl

/-- The sweep `t` has begun, and has yet to stop only rooms of `targets`. -/
def SweepsAmong (t : TaskId) (targets : List RoomId) (s : Server) : Prop :=
  ∃ pc, s.tasks t = some ⟨.gcSweep, pc⟩ ∧ pc ≠ .start ∧ ∀ r ∈ pc.pendingStops, r ∈ targets

/-- No call goes back to its first line. -/
theorem TaskStep.not_start (h : TaskStep s t op l pc n) (hpc : n.pc = .start) : pc = .start := by
  cases h with
  | call h =>
      cases h with
      | begun => rfl
      | _ => cases hpc
  | ensure h => cases h <;> cases hpc
  | stop h => rcases h.stays with h | ⟨_, h⟩ <;> (rw [hpc] at h; cases h)
  | job h => rcases h.stays with h | ⟨_, h⟩ <;> (rw [hpc] at h; cases h)

theorem sweepsAmong_step {targets : List RoomId} (hw : WellFormed s) (h : StepCase s l s')
    (hs : SweepsAmong t targets s) : SweepsAmong t targets s' := by
  obtain ⟨pc, ht, hstart, hpending⟩ := hs
  rcases hw.task_next h ht with ⟨ht', -⟩ | ⟨n, hmove, rfl, -⟩
  · exact ⟨pc, ht', hstart, hpending⟩
  · refine ⟨n.pc, by rw [commit_tasks, if_pos rfl], fun hpc => hstart (hmove.not_start hpc), ?_⟩
    intro r hr
    rcases hmove.pendingStops hr with hr | ⟨hpc, -⟩
    · exact hpending r hr
    · exact absurd hpc hstart

/-- A stop that moves its room to `STOPPING` has not found it stopped. -/
theorem StopStep.not_stopped {rest stopped : List RoomId}
    (h : StopStep s t op l (.stopRoom r rest stopped) n)
    (hstopping : (n.state.room r).state = .stopping) : (s.room r).state ≠ .stopped := by
  intro hstopped
  cases h with
  | unknown =>
      rw [state_stopRaised, hstopped] at hstopping
      cases hstopping
  | already =>
      rw [state_stopReturned, hstopped] at hstopping
      cases hstopping
  | stopping _ hstate => exact hstate (.inl hstopped)

/-- Where the sweep's decision is about a room without clients, no call uses the room from then
on and the clock does not go back, the decision still holds when the sweep moves the room to
`STOPPING`. -/
theorem idle_decision_holds {ttl : Time} {maxCompleted : Int} {alive : KernelId → Bool}
    {kernelspec : NotebookId → Option String} {o o' : Oracle} {rest stopped : List RoomId}
    (hu : ServerRun anyStep (boot ttl maxCompleted alive kernelspec) u)
    (ht : u.tasks t = some ⟨.gcSweep, .start⟩) (hrunning : u.running = some t)
    (hstep : u.step (.proceed o) = some u')
    (h : ServerRun (fun s l => s.unused r l = true) u' s)
    (ht' : s.tasks t = some ⟨.gcSweep, .stopRoom r rest stopped⟩)
    (hstep' : s.step (.proceed o') = some s') (hstate : (s.room r).state ≠ .stopping)
    (hstate' : (s'.room r).state = .stopping) (hclients : (u.room r).attachedClients = ∅)
    (hclock : o.now ≤ o'.now) :
    (s.room r).state = .liveDetached ∧ (s.room r).attachedClients = ∅ ∧
      o'.now - (s.room r).lastActivity > s.mgr.idleTtlSeconds := by
  have hinv := serverInv_run hu
  have hu' : ServerRun anyStep (boot ttl maxCompleted alive kernelspec) u' := .tail hu trivial hstep
  have hwell : ∀ w, ServerRun (fun s l => s.unused r l = true) u' w → ServerInv w :=
    fun w hw => serverInv_run (hu'.trans hw.weaken)
  have hdecided : u'.mgr = u.mgr ∧ SweepsAmong t (u.mgr.sweepTargets o.now) u' := by
    obtain ⟨t₀, n, -, hn, rfl, hmover⟩ := step_proceed (moving_eq hrunning ht) hstep
    cases hmover.symm.trans hrunning
    cases hn
    refine ⟨rfl, .sweeping (u.mgr.sweepTargets o.now) [], ?_, (fun h => by cases h), fun r hr => hr⟩
    rw [commit_tasks, if_pos rfl]
    rfl
  have hamong : SweepsAmong t (u.mgr.sweepTargets o.now) s :=
    h.invariant_of hwell hdecided.2 fun w l w' hw _ hs _ hstep =>
      sweepsAmong_step hw.wellFormed (step_cases hstep) hs
  have htarget : r ∈ u.mgr.sweepTargets o.now := by
    obtain ⟨pc, hpc, -, hpending⟩ := hamong
    cases hpc.symm.trans ht'
    exact hpending r List.mem_cons_self
  obtain ⟨hr, hidle⟩ := List.mem_filter.mp htarget
  simp only [RuntimeManager.idle, Bool.and_eq_true, decide_eq_true_eq] at hidle
  have hroom : u'.room r = u.room r := by rw [Server.room, hdecided.1, Server.room]
  have hs : (r < s.mgr.nextRoomId ∧ s.mgr.idleTtlSeconds = u.mgr.idleTtlSeconds) ∧
      (Undisturbed (u.room r) (s.room r) ∨ Stopped s r) := by
    refine Run.invariant (I := fun w : Server =>
      (r < w.mgr.nextRoomId ∧ w.mgr.idleTtlSeconds = u.mgr.idleTtlSeconds) ∧
      (Undisturbed (u.room r) (w.room r) ∨ Stopped w r)) h ?_ ?_
    · rw [hroom, hdecided.1]
      exact ⟨⟨hinv.wellFormed.registered r hr, rfl⟩, .inl ⟨rfl, rfl, rfl⟩⟩
    · rintro w l w' ⟨⟨hlt, httl⟩, hkept⟩ hunused hstep
      have hcase := step_cases hstep
      refine ⟨⟨hlt.trans_le (nextRoomId_le hcase), (idleTtlSeconds_step hcase).trans httl⟩, ?_⟩
      rcases undisturbed_step hcase hlt hunused with hsame | hstopped
      · exact hkept.imp (fun h => h.trans hsame) fun hs => hs.imp hsame.state.trans hsame.state.trans
      · exact .inr hstopped
  obtain ⟨⟨-, httl⟩, hkept⟩ := hs
  have hnot : (s.room r).state ≠ .stopped := by
    have hw := (hwell s h).wellFormed
    obtain ⟨t₀, n, ht₀, hmove, rfl, hmover⟩ :=
      (step_cases hstep').of_moving (moving_eq (hw.control ht' rfl) ht')
    exact (hmove.stopStep rfl).not_stopped hstate'
  have hsame := hkept.resolve_right fun hs => hs.elim hstate hnot
  rw [hsame.state, hsame.attachedClients, hsame.lastActivity, httl]
  refine ⟨hidle.1, hclients, ?_⟩
  exact lt_of_lt_of_le hidle.2 (Int.sub_le_sub_right hclock _)

section Schedules

/-- Tasks 0 and 1 create the rooms of two notebooks, and task 2 begins a sweep when both have
been idle for longer than the limit. -/
private def twoRooms : List Label :=
  [.call (.ensureRoom "nb" none), .proceed (.quiet 0), .proceed (.quiet 0),
    .resume 0 (.session ⟨"session", "kernel", some "python3"⟩) (.quiet 0), .proceed (.quiet 0),
    .proceed (.quiet 0),
    .call (.ensureRoom "other" none), .proceed (.quiet 0), .proceed (.quiet 0),
    .resume 1 (.session ⟨"session2", "kernel2", some "python3"⟩) (.quiet 0), .proceed (.quiet 0),
    .proceed (.quiet 0), .call .gcSweep]

/-- The sweep stops the first room up to the await of `delete_session`. -/
private def firstStopped : List Label := [.proceed (.quiet 20), .proceed (.quiet 20)]

/-- The first stop ends, and the sweep comes to the second room. -/
private def secondReached : List Label :=
  [.resume 2 .returned (.quiet 20), .proceed (.quiet 20), .proceed (.quiet 20)]

theorem idle_room_swept :
    ∃ s : Server, s.tasks 2 = some ⟨.gcSweep, .stopRoom 1 [] [0]⟩ ∧
      (s.room 1).state = .liveDetached ∧ 20 - (s.room 1).lastActivity > 10 := by
  obtain ⟨u, hu, ht, hrunning, hclients, httl, hexec⟩ :=
    (boot 10 20 (fun _ => false) fun _ => none).exists_run twoRooms
      (fun u => u.tasks 2 = some ⟨.gcSweep, .start⟩ ∧ u.running = some 2 ∧
        (u.room 1).attachedClients = ∅ ∧ u.mgr.idleTtlSeconds = 10 ∧
        (u.step (.proceed (.quiet 20))).any fun u' =>
          guardedBy step (fun s l => s.unused 1 l = true) u' (firstStopped ++ secondReached) = true ∧
          (exec step u' (firstStopped ++ secondReached)).any fun s =>
            s.tasks 2 = some ⟨.gcSweep, .stopRoom 1 [] [0]⟩ ∧ s.mgr.idleTtlSeconds = 10 ∧
            (s.room 1).state ≠ .stopping ∧
            (s.step (.proceed (.quiet 20))).any fun s' => (s'.room 1).state = .stopping)
      (by decide)
  obtain ⟨u', hstep, hexec⟩ := (Option.any_eq_true _ _).mp hexec
  obtain ⟨hguarded, hexec⟩ := of_decide_eq_true hexec
  obtain ⟨s, hs, ht', httl', hstate, hexec⟩ := exists_guarded_run_of_exec hguarded hexec
  obtain ⟨s', hstep', hstate'⟩ := (Option.any_eq_true _ _).mp hexec
  obtain ⟨hdetached, -, hidle⟩ := idle_decision_holds hu ht hrunning hstep hs ht' hstep' hstate
    (of_decide_eq_true hstate') hclients (le_refl _)
  exact ⟨s, ht', hdetached, httl' ▸ hidle⟩

/-- While the sweep stops the first of two rooms, a client attaches to the second: the sweep
stops it all the same. -/
theorem sweep_stops_attached_room :
    ∃ s s' : Server, ServerRun anyStep (boot 10 20 (fun _ => false) fun _ => none) s ∧
      s.tasks 2 = some ⟨.gcSweep, .stopRoom 1 [] [0]⟩ ∧
      s.step (.proceed (.quiet 20)) = some s' ∧
      (s.room 1).state = .liveAttached ∧ (s.room 1).attachedClients = {"tab"} ∧
      (s.room 1).lastActivity = 20 ∧ (s'.room 1).state = .stopping := by
  obtain ⟨s, hs, ht, hstate, hclients, hactivity, hexec⟩ :=
    (boot 10 20 (fun _ => false) fun _ => none).exists_run
      (twoRooms ++ [.proceed (.quiet 20)] ++ firstStopped ++
        [.call (.attachClient 1 "tab"), .proceed (.quiet 20)] ++ secondReached)
      (fun s => s.tasks 2 = some ⟨.gcSweep, .stopRoom 1 [] [0]⟩ ∧
        (s.room 1).state = .liveAttached ∧ (s.room 1).attachedClients = {"tab"} ∧
        (s.room 1).lastActivity = 20 ∧
        (s.step (.proceed (.quiet 20))).any fun s' => (s'.room 1).state = .stopping)
      (by decide)
  obtain ⟨s', hstep, hstopping⟩ := (Option.any_eq_true _ _).mp hexec
  exact ⟨s, s', hs, ht, hstep, hstate, hclients, hactivity, of_decide_eq_true hstopping⟩

end Schedules

end Server

end Hypernote
