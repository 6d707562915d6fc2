import Hypernote.Proofs.Eviction
import Hypernote.Proofs.Revival
/-!
# A runtime is torn down once

`stop_runtime` announces itself in the state of the room, and every other stop of the room
leaves at its first lines.  The room's session is deleted by the stop that moved it to
`STOPPING`, and the callback runs at the end of that stop, unless a `CancelledError` ends it:
the `finally` is executed then, and the callback after it is not.
-/

namespace Hypernote

open Foundation

/-- The event is the deletion of the room's session or kernel. -/
def Event.deletes (r : RoomId) : Event → Bool
  | .deleteSession r' _ | .shutdownKernel r' _ => r' = r
  | _ => false

theorem Event.not_deletes_of_isControl {r : RoomId} {e : Event} (h : e.isControl = true) :
    e ≠ .stopping r ∧ e.deletes r = false := by
  constructor
  · rintro rfl
    cases h
  · cases e <;> first | rfl | cases h

/-- The points of `stop_runtime` from which it goes on to its callback. -/
inductive Pc.Tears (r : RoomId) : Pc → Prop
  | deleting {rest stopped} : Pc.Tears r (.deleting r rest stopped)
  | ending {rest stopped} : Pc.Tears r (.stopFinally r rest stopped none)

theorem Pc.Tears.stoppingRoom {r : RoomId} {pc : Pc} (h : pc.Tears r) :
    pc.stoppingRoom = some r := by
  cases h <;> rfl

/-- The calls that stop rooms. -/
def Op.isStop : Op → Bool
  | .stopRuntime _ | .gcSweep | .shutdown => true
  | _ => false

namespace Server

variable {s s' : Server} {l : Label} {t : TaskId} {op : Op} {pc : Pc} {n : Next}
  {r : RoomId} {nb : NotebookId} {callbacks : List RoomId}

/-- The rooms for which the step calls `on_notebook_stopped`. -/
def notified (s : Server) (l : Label) : List RoomId := (s.notifies l).toList

/-- A `CancelledError` ends the await of `stop_runtime`. -/
def cancelsStop (s : Server) (l : Label) : Bool :=
  match s.moving l, l with
  | some ⟨_, .deleting ..⟩, .resume _ (.raised error) _ => !error.isException
  | _, _ => false

/-- A poll or an answered prompt writes a state over that of a room whose stop has begun. -/
def overwritesStop (s : Server) (l : Label) : Bool :=
  match s.moving l with
  | some ⟨_, .polling r _ _⟩ | some ⟨_, .sendingInput _ r⟩ =>
      ((s.room r).state = .stopping || (s.room r).state = .stopped) && s.revives r l
  | _ => false

/-- The room that `stop_runtime` moves to `STOPPING` in this step. -/
def beginsStop (s : Server) (l : Label) : Option RoomId :=
  match s.moving l with
  | some ⟨_, .stopRoom r _ _⟩ =>
      if r ∈ s.mgr.rooms ∧ ¬((s.room r).state = .stopped ∨ (s.room r).state = .stopping) then some r
      else none
  | _ => none

/-- No call is past the first lines of a stop of the room. -/
def StopsEnded (s : Server) (r : RoomId) : Prop :=
  ∀ ⦃t op pc⦄, s.tasks t = some ⟨op, pc⟩ → pc.stoppingRoom ≠ some r

theorem stopsEnded_of_all (hw : WellFormed s)
    (h : ∀ t < s.nextTask, ∀ task ∈ s.tasks t, task.pc.stoppingRoom ≠ some r) : s.StopsEnded r :=
  fun t _ _ ht => h t (hw.lt_nextTask ht) _ ht

/-! ## The beginning of a stop -/

theorem beginsStop_eq (h : s.beginsStop l = some r) :
    ∃ op rest stopped, s.moving l = some ⟨op, .stopRoom r rest stopped⟩ ∧ r ∈ s.mgr.rooms ∧
      ¬((s.room r).state = .stopped ∨ (s.room r).state = .stopping) := by
  unfold beginsStop at h
  split at h
  · obtain ⟨hbegins, rfl⟩ := Option.ite_none_right_eq_some.mp h |>.imp_right Option.some.inj
    exact ⟨_, _, _, ‹_›, hbegins⟩
  · cases h

/-- A step that does not begin to stop the room leaves its history alone. -/
theorem tearsDown_events (h : StepCase s l s') (hbegins : s.beginsStop l ≠ some r) :
    ∃ es, s'.events = s.events ++ es ∧ ∀ e ∈ es, e ≠ .stopping r ∧ e.deletes r = false := by
  obtain ⟨es, hes, hcases⟩ := h.events
  refine ⟨es, hes, fun e he => ?_⟩
  rcases hcases with hcontrol | ⟨t, op, pc, n, ht, hmove, rfl, hmover, hevents⟩
  · exact Event.not_deletes_of_isControl (hcontrol e he)
  · have hmoving := moving_eq hmover ht
    cases hevents with
    | nothing => cases he
    | control hcontrol => exact Event.not_deletes_of_isControl (hcontrol e he)
    | @stopping r' rest stopped es hpc hr hdeletes =>
        subst hpc
        have hne : r' ≠ r := by
          rintro rfl
          apply hbegins
          rw [beginsStop, hmoving]
          refine if_pos ⟨hr, fun hstate => ?_⟩
          cases hmove.stopStep rfl with
          | unknown hr' => exact hr' hr
          | already =>
              rw [Next.commit, state_stopReturned] at hes
              exact List.cons_ne_nil _ _ (List.self_eq_append_right.mp hes)
          | stopping _ hstate' => exact hstate' hstate
        rcases List.mem_cons.mp he with rfl | he
        · exact ⟨by simpa using hne, rfl⟩
        · rcases hdeletes with rfl | ⟨id, rfl⟩ | ⟨k, rfl⟩
          · cases he
          · rw [List.mem_singleton.mp he]
            exact ⟨by simp, by simpa [Event.deletes] using hne⟩
          · rw [List.mem_singleton.mp he]
            exact ⟨by simp, by simpa [Event.deletes] using hne⟩
    | _ =>
        rw [List.mem_singleton.mp he]
        exact ⟨by simp, rfl⟩

/-- A call is past the first lines of a stop of the room because it was, or because it begins
the stop. -/
theorem stoppingRoom_origin (h : StepCase s l s') (ht : s'.tasks t = some ⟨op, pc⟩)
    (hpc : pc.stoppingRoom = some r) :
    (∃ pc₀, s.tasks t = some ⟨op, pc₀⟩ ∧ pc₀.stoppingRoom = some r ∧
      (s.mover l = some t ∨ pc₀ = pc)) ∨
      s.beginsStop l = some r ∧ s.mover l = some t := by
  cases task_origin h ht with
  | kept ht₀ => exact .inl ⟨pc, ht₀, hpc, .inr rfl⟩
  | @moved _ pc₀ n ht₀ hmove _ hmover =>
      rcases (hmove.begins_stop hpc).2 with hpc₀ | ⟨hr, -, rest, stopped, rfl⟩
      · exact .inl ⟨pc₀, ht₀, hpc₀, .inl hmover⟩
      · refine .inr ⟨?_, hmover⟩
        rw [beginsStop, moving_eq hmover ht₀]
        refine if_pos ⟨hr, fun hstate => ?_⟩
        cases hmove.stopStep rfl with
        | unknown hr' => exact hr' hr
        | already => cases op <;> cases hpc
        | stopping _ hstate' => exact hstate' hstate
  | called => cases hpc
  | spawned => cases hpc

/-! ## Rooms being created -/

/-- A room being created has no session yet. -/
def SessionFree (s : Server) : Prop :=
  ∀ ⦃t op nb r⦄, s.tasks t = some ⟨op, .creating nb r⟩ → (s.room r).sessionId = none

theorem sessionFree_step (hs : ServerInv s) (h : StepCase s l s') (hfree : SessionFree s) :
    SessionFree s' := by
  intro t op nb r ht
  rcases creating_origin h ht with ⟨ht₀, hmover⟩ | ⟨-, -, now, hroom⟩
  · have hlt := hs.wellFormed.held ht₀ (List.mem_singleton_self r)
    rcases session_step h hlt with ⟨-, hkept⟩ | ⟨t', op', nb', hmover', ht'⟩
    · rw [hkept, hfree ht₀]
    · rw [(hs.createdOnce ht₀).2 ht'] at hmover'
      exact absurd hmover' hmover
  · rw [hroom]
    rfl

/-- A stop that awaits a deletion has found a session or a kernel. -/
theorem deleting_of_beginsStop {rest stopped : List RoomId}
    (h : s.beginsStop l = some r) (hstep : s.step l = some s') (hmover : s.mover l = some t)
    (ht : s'.tasks t = some ⟨op, .deleting r rest stopped⟩) :
    (s.room r).sessionId ≠ none ∨ (s.room r).kernelId ≠ none := by
  obtain ⟨op₀, rest₀, stopped₀, hmoving, hr, hstate⟩ := beginsStop_eq h
  obtain ⟨t', n, -, hmove, -, -⟩ := (step_cases hstep).of_moving hmoving
  obtain ⟨o, rfl⟩ : ∃ o, l = .proceed o := by cases hmove.stopStep rfl <;> exact ⟨_, rfl⟩
  obtain ⟨t', n, -, hn, rfl, hrun⟩ := step_proceed hmoving hstep
  cases hmover.symm.trans hrun
  rw [advance, Option.some.injEq] at hn
  rw [commit_tasks, if_pos rfl, ← hn, stopRoom, if_neg (not_not.mpr hr)] at ht
  dsimp only at ht
  rw [if_neg hstate] at ht
  split at ht
  · rename_i hid
    left
    rw [hid]
    exact Option.some_ne_none _
  · rename_i hk
    right
    rw [hk]
    exact Option.some_ne_none _
  · cases ht

/-! ## The teardown of one room -/

/-- A room that has been handed out enters or leaves `_rooms` only at the end of its own stop. -/
theorem rooms_step (h : StepCase s l s') (hr : r < s.mgr.nextRoomId) :
    (r ∈ s'.mgr.rooms ↔ r ∈ s.mgr.rooms) ∨
      r ∉ s'.mgr.rooms ∧ ∃ t op rest stopped pending, s.mover l = some t ∧
        s.tasks t = some ⟨op, .stopFinally r rest stopped pending⟩ := by
  rcases h.mgr with hmgr | ⟨t, op, pc, n, ht, hmove, rfl, hmover⟩
  · rw [hmgr]
    exact .inl Iff.rfl
  · change (r ∈ n.state.mgr.rooms ↔ _) ∨ r ∉ n.state.mgr.rooms ∧ _
    have happend : r ∈ s.mgr.rooms ++ [s.mgr.nextRoomId] ↔ r ∈ s.mgr.rooms := by
      rw [List.mem_append, List.mem_singleton]
      exact or_iff_left hr.ne
    cases hmove.registry with
    | kept hagrees =>
        rw [hagrees.rooms]
        exact .inl Iff.rfl
    | created hmgr =>
        rw [hmgr]
        exact .inl happend
    | adopted _ hmgr =>
        rw [hmgr]
        exact .inl happend
    | @unregistered r' rest stopped pending now n hmgr =>
        rw [hmgr]
        by_cases hsame : r = r'
        · subst hsame
          refine .inr ⟨?_, t, op, rest, stopped, pending, hmover, ht⟩
          intro hmem
          exact of_decide_eq_true (List.mem_filter.mp hmem).2 rfl
        · left
          refine List.mem_filter.trans (and_iff_left ?_)
          exact decide_eq_true hsame

/-- The stop of the room has not begun, has one call carry it out, or is over, given the rooms
whose callback has been called so far. -/
inductive Teardown (s : Server) (callbacks : List RoomId) (r : RoomId) : Prop
  | before (hended : s.StopsEnded r) (hevents : .stopping r ∉ s.events)
      (hdeleted : s.events.countP (Event.deletes r) = 0) (hcallbacks : r ∉ callbacks)
  | during {t : TaskId} {op : Op} {pc : Pc} (ht : s.tasks t = some ⟨op, pc⟩) (hpc : pc.Tears r)
      (halone : ∀ ⦃t' op' pc'⦄, s.tasks t' = some ⟨op', pc'⟩ → pc'.stoppingRoom = some r → t' = t)
      (hr : r ∈ s.mgr.rooms) (hstopped : Stopped s r)
      (hcreated : pc.isRunning = false → ∀ t op nb, s.tasks t ≠ some ⟨op, .creating nb r⟩)
      (hdeleted : s.events.countP (Event.deletes r) ≤ 1) (hcallbacks : r ∉ callbacks)
  | after (hr : r ∉ s.mgr.rooms) (hlt : r < s.mgr.nextRoomId) (hended : s.StopsEnded r)
      (hdeleted : s.events.countP (Event.deletes r) ≤ 1) (hcallbacks : callbacks.count r = 1)

/-- What the steps between the beginning and the end of a stop leave alone. -/
theorem deletes_step (h : StepCase s l s') (hbegins : s.beginsStop l ≠ some r) :
    s'.events.countP (Event.deletes r) = s.events.countP (Event.deletes r) ∧
      (.stopping r ∈ s'.events ↔ .stopping r ∈ s.events) := by
  obtain ⟨es, hes, hnone⟩ := tearsDown_events h hbegins
  rw [hes]
  constructor
  · rw [List.countP_append, Nat.add_eq_left, List.countP_eq_zero]
    intro e he
    rw [(hnone e he).2]
    exact Bool.false_ne_true
  · rw [List.mem_append]
    exact or_iff_left fun he => (hnone _ he).1 rfl

/-- While a task has control, no other moves. -/
theorem StepCase.mover_of_running (h : StepCase s l s') (hrun : s.running = some t) :
    s.mover l = some t := by
  cases h with
  | call hnone =>
      rw [hrun] at hnone
      cases hnone
  | task _ _ hrun' hmover =>
      rw [hrun] at hrun'
      rcases hrun' with hnone | hsame
      · cases hnone
      · rw [hmover, ← hsame]
  | outside hnone =>
      rw [hrun] at hnone
      cases hnone

theorem mem_notified (h : r ∈ s.notified l) :
    ∃ t op rest stopped, s.mover l = some t ∧
      s.tasks t = some ⟨op, .stopFinally r rest stopped none⟩ := by
  obtain ⟨op, rest, stopped, hmoving⟩ := notifies_eq (Option.mem_toList.mp h)
  obtain ⟨t, hmover, ht⟩ := Option.bind_eq_some_iff.mp hmoving
  exact ⟨t, op, rest, stopped, hmover, ht⟩

/-- Without a stop in progress, a step that begins none leaves none in progress. -/
theorem stopsEnded_step (h : StepCase s l s') (hbegins : s.beginsStop l ≠ some r)
    (hended : s.StopsEnded r) : s'.StopsEnded r := by
  intro t op pc ht hpc
  rcases stoppingRoom_origin h ht hpc with ⟨pc₀, ht₀, hpc₀, -⟩ | ⟨hbegins', -⟩
  · exact hended ht₀ hpc₀
  · exact hbegins hbegins'

/-- The step is admitted: it neither cancels a stop nor writes over the state of a stopped room. -/
structure Admitted (s : Server) (l : Label) : Prop where
  cancels : s.cancelsStop l = false
  overwrites : s.overwritesStop l = false

theorem teardown_before (h : StepCase s l s') (hbegins : s.beginsStop l ≠ some r)
    (hended : s.StopsEnded r) (hevents : .stopping r ∉ s.events)
    (hdeleted : s.events.countP (Event.deletes r) = 0) (hcallbacks : r ∉ callbacks) :
    Teardown s' (callbacks ++ s.notified l) r := by
  obtain ⟨hcount, hstopping⟩ := deletes_step h hbegins
  refine .before (stopsEnded_step h hbegins hended) (hstopping.not.mpr hevents)
    (hcount.trans hdeleted) ?_
  rw [List.mem_append, not_or]
  refine ⟨hcallbacks, fun hmem => ?_⟩
  obtain ⟨t, op, rest, stopped, -, ht⟩ := mem_notified hmem
  exact hended ht rfl

theorem teardown_after (h : StepCase s l s') (hr : r ∉ s.mgr.rooms)
    (hlt : r < s.mgr.nextRoomId) (hended : s.StopsEnded r)
    (hdeleted : s.events.countP (Event.deletes r) ≤ 1) (hcallbacks : callbacks.count r = 1) :
    Teardown s' (callbacks ++ s.notified l) r := by
  have hbegins : s.beginsStop l ≠ some r := by
    intro hbegins
    obtain ⟨-, -, -, -, hmem, -⟩ := beginsStop_eq hbegins
    exact hr hmem
  obtain ⟨hcount, -⟩ := deletes_step h hbegins
  refine .after ?_ (hlt.trans_le (nextRoomId_le h)) (stopsEnded_step h hbegins hended)
    (hcount.trans_le hdeleted) ?_
  · rcases rooms_step h hlt with hsame | ⟨hgone, -⟩
    · exact hsame.not.mpr hr
    · exact hgone
  · rw [List.count_append, hcallbacks, Nat.add_eq_left, List.count_eq_zero]
    intro hmem
    obtain ⟨t, op, rest, stopped, -, ht⟩ := mem_notified hmem
    exact hended ht rfl

/-- The stop begins. -/
theorem teardown_begins (hs : ServerInv s) (hfree : SessionFree s) (hstep : s.step l = some s')
    (hbegins : s.beginsStop l = some r) (hended : s.StopsEnded r)
    (hdeleted : s.events.countP (Event.deletes r) = 0) (hcallbacks : r ∉ callbacks) :
    Teardown s' (callbacks ++ s.notified l) r := by
  have h := step_cases hstep
  obtain ⟨op, rest, stopped, hmoving, hr, hstate⟩ := beginsStop_eq hbegins
  obtain ⟨t, n, ht, hmove, rfl, hmover⟩ := h.of_moving hmoving
  have hnotified : s.notified l = [] := by
    rw [notified, notifies, hmoving]
    rfl
  have hlt := hs.wellFormed.registered r hr
  rw [hnotified, List.append_nil]
  cases hmove.stopStep rfl with
  | unknown hr' => exact absurd hr hr'
  | already _ hstate' => exact absurd hstate' hstate
  | @stopping o _ _ _ pc' es _ _ hpc' hes =>
      have ht' : ∀ n : Next, (n.commit t op).tasks t = some ⟨op, n.pc⟩ := by
        intro n
        rw [commit_tasks, if_pos rfl]
      refine .during (ht' _) ?_ ?_ hr ?_ ?_ ?_ hcallbacks
      · rcases hpc' with rfl | rfl
        · exact .deleting
        · exact .ending
      · intro t' op' pc₁ ht₁ hpc₁
        rcases stoppingRoom_origin h ht₁ hpc₁ with ⟨pc₀, ht₀, hpc₀, -⟩ | ⟨-, hmover'⟩
        · exact absurd hpc₀ (hended ht₀)
        · rw [hmover] at hmover'
          exact (Option.some.inj hmover').symm
      · left
        change ((s.mgr.setRuntimeState r .stopping o.now).heap r).state = .stopping
        rw [RuntimeManager.setRuntimeState, RuntimeManager.heap_modify, if_pos rfl]
      · intro hpc t₁ op₁ nb₁ ht₁
        rcases hpc' with rfl | rfl
        · -- the room has a session or a kernel, so no call is creating it
          have hfound := deleting_of_beginsStop hbegins hstep hmover (ht' _)
          rcases creating_origin h ht₁ with ⟨ht₀, -⟩ | ⟨-, rfl, -⟩
          · rcases hfound with hid | hk
            · exact hid (hfree ht₀)
            · exact hk (hs.createdOnce ht₀).1
          · exact absurd hlt (lt_irrefl _)
        · cases hpc
      · change (s.events ++ .stopping r :: es).countP (Event.deletes r) ≤ 1
        rw [List.countP_append, hdeleted, Nat.zero_add]
        rcases hes with rfl | ⟨id, rfl⟩ | ⟨k, rfl⟩ <;> simp [Event.deletes]

theorem revives_cases (h : s.revives r l = true) :
    ∃ t op, s.mover l = some t ∧ ((∃ nb, s.tasks t = some ⟨op, .creating nb r⟩) ∨
      (∃ cells uid, s.moving l = some ⟨op, .polling r cells uid⟩) ∨
      ∃ nb, s.moving l = some ⟨op, .sendingInput nb r⟩) := by
  cases hmoving : s.moving l with
  | none => simp [revives, hmoving] at h
  | some task =>
      obtain ⟨op, pc⟩ := task
      obtain ⟨t, hmover, ht⟩ := Option.bind_eq_some_iff.mp hmoving
      refine ⟨t, op, hmover, ?_⟩
      unfold revives at h
      rw [hmoving] at h
      split at h
      case h_5 => cases h
      all_goals
        rename_i heq
        cases heq
        simp only [Bool.and_eq_true, decide_eq_true_eq] at h
      · exact .inl ⟨_, h ▸ ht⟩
      · exact .inl ⟨_, h.1 ▸ ht⟩
      · exact .inr (.inl ⟨_, _, by rw [h.1.1]⟩)
      · exact .inr (.inr ⟨_, by rw [h.1]⟩)

/-- An admitted step writes no state over that of a room whose stop is being carried out. -/
theorem Admitted.not_revives (h : Admitted s l) (hstopped : Stopped s r)
    (hcreated : ∀ t op nb, s.tasks t ≠ some ⟨op, .creating nb r⟩) : s.revives r l = false := by
  rw [Bool.eq_false_iff]
  intro hrevives
  have hover := h.overwrites
  obtain ⟨t, op, -, ⟨nb, ht⟩ | ⟨cells, uid, hmoving⟩ | ⟨nb, hmoving⟩⟩ := revives_cases hrevives
  · exact hcreated t op nb ht
  · simp only [overwritesStop, hmoving, hrevives, Bool.and_true, Bool.or_eq_false_iff,
      decide_eq_false_iff_not] at hover
    exact hstopped.elim hover.1 hover.2
  · simp only [overwritesStop, hmoving, hrevives, Bool.and_true, Bool.or_eq_false_iff,
      decide_eq_false_iff_not] at hover
    exact hstopped.elim hover.1 hover.2

/-- The call that carries the stop out goes on to the callback, and ends the stop there. -/
theorem TaskStep.tears (h : TaskStep s t op l pc n) (hpc : pc.Tears r)
    (hmoving : s.moving l = some ⟨op, pc⟩) (hadmitted : Admitted s l) :
    pc.isRunning = false ∧ n.pc.Tears r ∧ n.pc.isRunning = true ∧ s.notifies l = none ∨
      n.pc.stoppingRoom = none ∧ s.notifies l = some r ∧ r ∉ n.state.mgr.rooms := by
  cases hpc with
  | deleting =>
      left
      have hnone : s.notifies l = none := by rw [notifies, hmoving]
      cases h.stopStep rfl with
      | deleted => exact ⟨rfl, .ending, rfl, hnone⟩
      | @deleteRaised o _ _ _ error =>
          have herror : error.isException = true := by
            simpa [cancelsStop, hmoving] using hadmitted.cancels
          rw [if_pos herror]
          exact ⟨rfl, .ending, rfl, hnone⟩
  | ending =>
      right
      have hcleared := (h.stopStep rfl).cleared_up
      refine ⟨?_, by rw [notifies, hmoving], hcleared.unregistered⟩
      cases h.stopStep rfl with
      | cleared => cases op <;> rfl

theorem teardown_during (hs : ServerInv s) (h : StepCase s l s') (hadmitted : Admitted s l)
    (ht : s.tasks t = some ⟨op, pc⟩) (hpc : pc.Tears r)
    (halone : ∀ ⦃t' op' pc'⦄, s.tasks t' = some ⟨op', pc'⟩ → pc'.stoppingRoom = some r → t' = t)
    (hr : r ∈ s.mgr.rooms) (hstopped : Stopped s r)
    (hcreated : pc.isRunning = false → ∀ t op nb, s.tasks t ≠ some ⟨op, .creating nb r⟩)
    (hdeleted : s.events.countP (Event.deletes r) ≤ 1) (hcallbacks : r ∉ callbacks) :
    Teardown s' (callbacks ++ s.notified l) r := by
  have hlt := hs.wellFormed.registered r hr
  have hbegins : s.beginsStop l ≠ some r := by
    intro hbegins
    obtain ⟨-, -, -, -, -, hstate⟩ := beginsStop_eq hbegins
    exact hstate hstopped.symm
  obtain ⟨hcount, -⟩ := deletes_step h hbegins
  have halone' : ∀ ⦃t' op' pc'⦄, s'.tasks t' = some ⟨op', pc'⟩ → pc'.stoppingRoom = some r →
      t' = t := by
    intro t' op' pc' ht' hpc'
    rcases stoppingRoom_origin h ht' hpc' with ⟨pc₀, ht₀, hpc₀, -⟩ | ⟨hbegins', -⟩
    · exact halone ht₀ hpc₀
    · exact absurd hbegins' hbegins
  by_cases hmover : s.mover l = some t
  · have hmoving := moving_eq hmover ht
    obtain ⟨t', n, ht', hmove, rfl, hmover'⟩ := h.of_moving hmoving
    cases hmover.symm.trans hmover'
    have hnext : (n.commit t op).tasks t = some ⟨op, n.pc⟩ := by rw [commit_tasks, if_pos rfl]
    rcases hmove.tears hpc hmoving hadmitted with
      ⟨hawaits, hpc', hruns, hnone⟩ | ⟨hpc', hsome, hgone⟩
    · have hcreated := hcreated hawaits
      have hstep : Stopped (n.commit t op) r :=
        stopped_step hs.returnsLive h hlt
          (hadmitted.not_revives hstopped hcreated) hstopped
      have hrooms : r ∈ (n.commit t op).mgr.rooms := by
        rcases rooms_step h hlt with hsame | ⟨-, t', op', rest, stopped, pending, hmover', ht'⟩
        · exact hsame.mpr hr
        · cases hmover.symm.trans hmover'
          cases ht.symm.trans ht'
          cases hawaits
      refine .during hnext hpc' halone' hrooms hstep ?_ (hcount.trans_le hdeleted) ?_
      · rw [hruns]
        exact fun hfalse => absurd hfalse (Bool.noConfusion)
      · rw [notified, hnone]
        simpa using hcallbacks
    · refine .after hgone (hlt.trans_le (nextRoomId_le h)) ?_ (hcount.trans_le hdeleted) ?_
      · intro t₁ op₁ pc₁ ht₁ hpc₁
        cases halone' ht₁ hpc₁
        cases hnext.symm.trans ht₁
        rw [hpc'] at hpc₁
        cases hpc₁
      · rw [notified, hsome, List.count_append, List.count_eq_zero.mpr hcallbacks]
        simp
  · have ht' : s'.tasks t = some ⟨op, pc⟩ := by
      rcases hs.wellFormed.task_next h ht with ⟨ht', -⟩ | ⟨n, -, -, hmover'⟩
      · exact ht'
      · exact absurd hmover' hmover
    -- another task moves, so this one awaits the deletion
    have hawaits : pc.isRunning = false := by
      rw [Bool.eq_false_iff]
      intro hruns
      exact hmover (h.mover_of_running (hs.wellFormed.control ht hruns))
    have hcreated := hcreated hawaits
    refine .during ht' hpc halone' ?_ ?_ ?_ (hcount.trans_le hdeleted) ?_
    · rcases rooms_step h hlt with hsame | ⟨-, t', op', rest, stopped, pending, hmover', ht₁⟩
      · exact hsame.mpr hr
      · exact absurd (halone ht₁ rfl ▸ hmover') hmover
    · exact stopped_step hs.returnsLive h hlt
        (hadmitted.not_revives hstopped hcreated) hstopped
    · intro _ t₁ op₁ nb₁ ht₁
      rcases creating_origin h ht₁ with ⟨ht₀, -⟩ | ⟨-, rfl, -⟩
      · exact hcreated t₁ op₁ nb₁ ht₀
      · exact lt_irrefl _ hlt
    · rw [List.mem_append, not_or]
      refine ⟨hcallbacks, fun hmem => ?_⟩
      obtain ⟨t', op', rest, stopped, hmover', ht₁⟩ := mem_notified hmem
      exact hmover (halone ht₁ rfl ▸ hmover')

theorem teardown_step (hs : ServerInv s) (hfree : SessionFree s) (hstep : s.step l = some s')
    (hadmitted : Admitted s l) (h : Teardown s callbacks r) :
    Teardown s' (callbacks ++ s.notified l) r := by
  cases h with
  | before hended hevents hdeleted hcallbacks =>
      by_cases hbegins : s.beginsStop l = some r
      · exact teardown_begins hs hfree hstep hbegins hended hdeleted hcallbacks
      · exact teardown_before (step_cases hstep) hbegins hended hevents hdeleted hcallbacks
  | during ht hpc halone hr hstopped hcreated hdeleted hcallbacks =>
      exact teardown_during hs (step_cases hstep) hadmitted ht hpc halone hr hstopped hcreated
        hdeleted hcallbacks
  | after hr hlt hended hdeleted hcallbacks =>
      exact teardown_after (step_cases hstep) hr hlt hended hdeleted hcallbacks

/-! ## What a stop raises -/

/-- A stop at this point raises nothing but the error for an unknown room. -/
def raisesUnknown (op : Op) : Pc → Prop
  | .stopRoom r _ _ => ∀ r', op = .stopRuntime r' → r' = r
  | .stopFinally _ _ _ pending => pending = none
  | .done (.raised error) => ∃ r, op = .stopRuntime r ∧ error = notFound r
  | _ => True

def RaisesUnknown (s : Server) : Prop :=
  ∀ ⦃t op pc⦄, s.tasks t = some ⟨op, pc⟩ → op.isStop = true → raisesUnknown op pc

/-- The points that a stop can reach. -/
theorem admits_of_isStop (hop : op.isStop = true) (h : op.admits pc) :
    pc = .start ∨ pc.isStop = true ∨ ∃ outcome, pc = .done outcome := by
  cases pc with
  | start => exact .inl rfl
  | done outcome => exact .inr (.inr ⟨outcome, rfl⟩)
  | sweeping | stopRoom | deleting | stopFinally => exact .inr (.inl rfl)
  | interrupting room => cases room <;> cases op <;> simp_all [Op.isStop, Op.admits]
  | _ => cases op <;> simp_all [Op.isStop, Op.admits, Op.ensures, Op.loads, Op.resolves]

theorem advance_raisesUnknown {o : Oracle} (h : s.advance t op o pc = some n)
    (hop : op.isStop = true) (hadmits : op.admits pc) (hraises : raisesUnknown op pc) :
    raisesUnknown op n.pc := by
  rcases admits_of_isStop hop hadmits with rfl | hpc | ⟨outcome, rfl⟩
  · rw [advance, Option.some.injEq] at h
    subst h
    cases op with
    | stopRuntime r =>
        rintro r' heq
        exact Op.stopRuntime.inj heq.symm
    | gcSweep => exact trivial
    | shutdown => exact trivial
    | _ => cases hop
  · cases pc with
    | sweeping rest stopped =>
        rw [advance, Option.some.injEq] at h
        subst h
        have hsweeps : op = .gcSweep ∨ op = .shutdown := hadmits
        cases rest with
        | nil => rcases hsweeps with rfl | rfl <;> exact trivial
        | cons r rest =>
            intro r' heq
            rcases hsweeps with rfl | rfl <;> cases heq
    | stopRoom r rest stopped =>
        rw [advance, Option.some.injEq] at h
        subst h
        have hreturned : raisesUnknown op (s.stopReturned op r rest stopped).pc := by
          cases op <;> exact trivial
        unfold stopRoom
        split
        · cases op with
          | stopRuntime r' => exact ⟨r', rfl, by rw [hraises r' rfl]⟩
          | gcSweep => exact trivial
          | shutdown => exact trivial
          | _ => cases hop
        · dsimp only
          split
          · exact hreturned
          · split
            · exact trivial
            · split
              · exact trivial
              · exact rfl
            · exact rfl
    | deleting => cases h
    | stopFinally r rest stopped pending =>
        rw [advance, Option.some.injEq] at h
        cases hraises
        subst h
        cases op <;> exact trivial
    | _ => cases hpc
  · cases h

theorem resume_raisesUnknown {answer : Answer} {o : Oracle}
    (h : s.resume t op o pc answer = some n) (ht : s.tasks t = some ⟨op, pc⟩)
    (hadmitted : Admitted s (.resume t answer o)) (hop : op.isStop = true)
    (hadmits : op.admits pc) : raisesUnknown op n.pc := by
  rcases admits_of_isStop hop hadmits with rfl | hpc | ⟨outcome, rfl⟩
  · cases op with
    | stopRuntime => cases answer <;> cases h
    | gcSweep => cases answer <;> cases h
    | shutdown => cases answer <;> cases h
    | _ => cases hop
  · cases pc with
    | deleting r rest stopped =>
        cases answer with
        | returned =>
            cases h
            exact rfl
        | raised error =>
            have herror : error.isException = true := by
              simpa [cancelsStop, moving_eq (l := .resume t (.raised error) o) rfl ht] using
                hadmitted.cancels
            cases h
            exact if_pos herror
        | _ => cases h
    | sweeping | stopRoom | stopFinally => cases answer <;> cases h
    | _ => cases hpc
  · cases answer <;> cases h

/-- The task that a step moves goes on by the code. -/
theorem step_moves (hmover : s.mover l = some t) (ht : s.tasks t = some ⟨op, pc⟩)
    (hstep : s.step l = some s') :
    ∃ n, s' = n.commit t op ∧ ((∃ o, l = .proceed o ∧ s.advance t op o pc = some n) ∨
      ∃ answer o, l = .resume t answer o ∧ s.resume t op o pc answer = some n) := by
  cases l with
  | call => cases hmover
  | outside => cases hmover
  | proceed o =>
      obtain ⟨t', n, -, hn, heq, hrun⟩ := step_proceed (moving_eq hmover ht) hstep
      cases hmover.symm.trans hrun
      exact ⟨n, heq, .inl ⟨o, rfl, hn⟩⟩
  | resume t' answer o =>
      cases hmover
      obtain ⟨n, hn, heq⟩ := step_resume ht hstep
      exact ⟨n, heq, .inr ⟨answer, o, rfl, hn⟩⟩

theorem raisesUnknown_step (hs : ServerInv s) (hstep : s.step l = some s')
    (hadmitted : Admitted s l) (hinv : RaisesUnknown s) : RaisesUnknown s' := by
  intro t op pc ht hop
  cases task_origin (step_cases hstep) ht with
  | kept ht₀ => exact hinv ht₀ hop
  | moved ht₀ _ _ hmover =>
      have hadmits := hs.wellFormed.admits ht₀
      obtain ⟨n, rfl, hn⟩ := step_moves hmover ht₀ hstep
      rw [commit_tasks, if_pos rfl, Option.some.injEq, Task.mk.injEq] at ht
      rw [← ht.2]
      rcases hn with ⟨o, -, hn⟩ | ⟨answer, o, rfl, hn⟩
      · exact advance_raisesUnknown hn hop hadmits (hinv ht₀ hop)
      · exact resume_raisesUnknown hn ht₀ hadmitted hop hadmits
  | called => exact trivial
  | spawned => exact trivial

/-! ## One teardown -/

/-- What holds along a run of admitted steps, given the callbacks so far. -/
structure TeardownInv (s : Server) (callbacks : List RoomId) : Prop where
  inv : ServerInv s
  sessionFree : SessionFree s
  raisesUnknown : RaisesUnknown s
  teardown : ∀ r, Teardown s callbacks r

theorem teardownInv_run {ttl : Time} {maxCompleted : Int} {alive : KernelId → Bool}
    {kernelspec : NotebookId → Option String} {p : Server × List RoomId}
    (h : Run (observed step notified) (fun p l => Admitted p.1 l)
      (boot ttl maxCompleted alive kernelspec, []) p) : TeardownInv p.1 p.2 := by
  refine Run.invariant (I := fun p => TeardownInv p.1 p.2) h ?_ ?_
  · exact
      { inv := serverInv_boot
        sessionFree := fun _ _ _ _ ht => by cases ht
        raisesUnknown := fun _ _ _ ht => by cases ht
        teardown := fun r => .before (fun _ _ _ ht => by cases ht) List.not_mem_nil rfl
          List.not_mem_nil }
  · rintro ⟨s, callbacks⟩ l p hs hadmitted hobserved
    obtain ⟨s', hstep, rfl⟩ := observed_eq_some.mp hobserved
    have hcase := step_cases hstep
    exact
      { inv := hs.inv.step hstep
        sessionFree := sessionFree_step hs.inv hcase hs.sessionFree
        raisesUnknown := raisesUnknown_step hs.inv hstep hadmitted hs.raisesUnknown
        teardown := fun r => teardown_step hs.inv hs.sessionFree hstep hadmitted (hs.teardown r) }

/-- A room that has left `_rooms` never returns. -/
theorem unregistered_run {G : Server → Label → Prop} (h : ServerRun G s s')
    (hlt : r < s.mgr.nextRoomId) (hr : r ∉ s.mgr.rooms) : r ∉ s'.mgr.rooms := by
  suffices hs : r < s'.mgr.nextRoomId ∧ r ∉ s'.mgr.rooms from hs.2
  refine Run.invariant (I := fun s : Server => r < s.mgr.nextRoomId ∧ r ∉ s.mgr.rooms) h
    ⟨hlt, hr⟩ ?_
  rintro u l u' ⟨hlt, hr⟩ - hstep
  refine ⟨hlt.trans_le (nextRoomId_le (step_cases hstep)), ?_⟩
  rcases rooms_step (step_cases hstep) hlt with hsame | ⟨hgone, -⟩
  · exact hsame.not.mpr hr
  · exact hgone

/-- As long as no `CancelledError` ends a stop and nothing writes over the state of a stopped
room, the room that a stop has moved to `STOPPING` has its session or kernel deleted at most
once, and when its stops have ended its callback has been called once and it is gone for good;
and a stop raises only for an unknown room. -/
theorem runtime_torn_down_once {ttl : Time} {maxCompleted : Int} {alive : KernelId → Bool}
    {kernelspec : NotebookId → Option String} {callbacks : List RoomId}
    (h : Run (observed step notified)
      (fun p l => p.1.cancelsStop l = false ∧ p.1.overwritesStop l = false)
      (boot ttl maxCompleted alive kernelspec, []) (s, callbacks)) :
    (∀ r, .stopping r ∈ s.events → s.events.countP (Event.deletes r) ≤ 1 ∧
      (s.StopsEnded r → callbacks.count r = 1 ∧ r ∉ s.mgr.rooms ∧
        ∀ s', ServerRun anyStep s s' → r ∉ s'.mgr.rooms)) ∧
    ∀ t op error, s.tasks t = some ⟨op, .done (.raised error)⟩ → op.isStop = true →
      ∃ r, op = .stopRuntime r ∧ error = notFound r := by
  have hinv := teardownInv_run (h.mono fun _ _ hguard => ⟨hguard.1, hguard.2⟩)
  constructor
  · intro r hstopping
    cases hinv.teardown r with
    | before _ hevents => exact absurd hstopping hevents
    | during ht hpc _ _ _ _ hdeleted =>
        exact ⟨hdeleted, fun hended => absurd hpc.stoppingRoom (hended ht)⟩
    | after hr hlt _ hdeleted hcallbacks =>
        exact ⟨hdeleted, fun _ => ⟨hcallbacks, hr, fun _ hrun => unregistered_run hrun hlt hr⟩⟩
  · intro t op error ht hop
    exact hinv.raisesUnknown ht hop

section Schedules

/-- Task 0 creates the room of a notebook that Jupyter has no session for, and task 1 carries a
stop of it up to the await of `delete_session`. -/
private def deletionAwaited (stop : Op) (steps : List Label) : List Label :=
  [.call (.ensureRoom "nb" none), .proceed (.quiet 0), .proceed (.quiet 0),
    .resume 0 (.raised (.http 404 "")) (.quiet 0), .proceed (.quiet 0), .proceed (.quiet 0),
    .resume 0 (.session ⟨"session", "kernel", some "python3"⟩) (.quiet 0), .proceed (.quiet 0),
    .call stop, .proceed (.quiet 11)] ++ steps

theorem room_torn_down_once :
    ∃ (s : Server) (callbacks : List RoomId),
      s.tasks 1 = some ⟨.stopRuntime 0, .done (.room 0)⟩ ∧ callbacks.count 0 = 1 ∧
      ∀ s', ServerRun anyStep s s' → 0 ∉ s'.mgr.rooms := by
  obtain ⟨⟨s, callbacks⟩, hrun, hdone, hended, hstopping⟩ :=
    @exists_guarded_run_of_exec _ _ (observed step notified)
      (fun p l => p.1.cancelsStop l = false ∧ p.1.overwritesStop l = false) _
      (boot 10 20 (fun _ => false) fun _ => none, [])
      (deletionAwaited (.stopRuntime 0)
        [.proceed (.quiet 11), .resume 1 (.raised (.http 404 "")) (.quiet 12),
          .proceed (.quiet 12)])
      (fun p => p.1.tasks 1 = some ⟨.stopRuntime 0, .done (.room 0)⟩ ∧
        (∀ t < p.1.nextTask, ∀ task ∈ p.1.tasks t, task.pc.stoppingRoom ≠ some 0) ∧
        .stopping 0 ∈ p.1.events)
      _ (by decide) (by decide)
  have hended := stopsEnded_of_all (teardownInv_run (hrun.mono fun _ _ h => ⟨h.1, h.2⟩)).inv.wellFormed
    hended
  obtain ⟨hcount, -, hgone⟩ := ((runtime_torn_down_once hrun).1 0 hstopping).2 hended
  exact ⟨s, callbacks, hdone, hcount, hgone⟩

/-- `shutdown` cancels the sweep that awaits the deletion: the room is cleared and its callback
is never called. -/
theorem cancelled_sweep_skips_callback :
    ∃ (s : Server) (callbacks : List RoomId),
      Run (observed step notified) anyStep (boot 10 20 (fun _ => false) fun _ => none, [])
        (s, callbacks) ∧
      .stopping 0 ∈ s.events ∧ s.tasks 1 = some ⟨.gcSweep, .done (.raised .cancelled)⟩ ∧
      s.tasks 2 = some ⟨.shutdown, .done .returned⟩ ∧ s.StopsEnded 0 ∧ callbacks.count 0 ≠ 1 := by
  obtain ⟨⟨s, callbacks⟩, hrun, hstopping, hsweep, hshutdown, hended, hcount⟩ :=
    @exists_run_of_exec _ _ (observed step notified)
      (boot 10 20 (fun _ => false) fun _ => none, [])
      (deletionAwaited .gcSweep
        [.proceed (.quiet 11), .proceed (.quiet 11), .resume 1 (.raised .cancelled) (.quiet 12),
          .proceed (.quiet 12), .call .shutdown, .proceed (.quiet 12), .proceed (.quiet 12)])
      (fun p => .stopping 0 ∈ p.1.events ∧
        p.1.tasks 1 = some ⟨.gcSweep, .done (.raised .cancelled)⟩ ∧
        p.1.tasks 2 = some ⟨.shutdown, .done .returned⟩ ∧
        (∀ t < p.1.nextTask, ∀ task ∈ p.1.tasks t, task.pc.stoppingRoom ≠ some 0) ∧
        p.2.count 0 ≠ 1)
      _ (by decide)
  have hinv := serverInv_run (Run.of_observed (G := anyStep) hrun)
  exact ⟨s, callbacks, hrun, hstopping, hsweep, hshutdown,
    stopsEnded_of_all hinv.wellFormed hended, hcount⟩

end Schedules

end Server

end Hypernote
