import Hypernote.Server.Events
/-!
# A live room stays reachable

`_rooms` and `_notebook_to_room` are written by three steps, each after an await of
its own: `ensure_room` builds a room, `_load_or_refresh_room` adopts a session, and
the `finally` of `stop_runtime` removes both entries.  The last removes the entry of
the notebook whatever room it holds by then, the other two overwrite it.  What
follows when no step does that to a room in use is that a room returned as live is
found under its notebook until it is stopped itself.
-/

namespace Hypernote

open Foundation

namespace Pc

/-- The room that `stop_runtime` is past its first line for. -/
def stoppingRoom : Pc → Option RoomId
  | .deleting r _ _ | .stopFinally r _ _ _ => some r
  | _ => none

/-- The room that `ensure_room` has found or is creating, with its notebook. -/
def ensuredRoom : Pc → Option (NotebookId × RoomId)
  | .loaded nb _ (some r) | .creating nb r | .ensured nb r => some (nb, r)
  | _ => none

/-- The room that `_load_or_refresh_room` has returned. -/
def foundRoom : Pc → Option RoomId
  | .loaded _ _ existing => existing
  | _ => none

theorem stoppingRoom_of_isJob {pc : Pc} (h : pc.isJob = true) : pc.stoppingRoom = none := by
  cases pc <;> first | rfl | cases h

theorem ensuredRoom_of_isJob {pc : Pc} (h : pc.isJob = true) : pc.ensuredRoom = none := by
  cases pc <;> first | rfl | cases h

theorem foundRoom_of_isJob {pc : Pc} (h : pc.isJob = true) : pc.foundRoom = none := by
  cases pc <;> first | rfl | cases h

theorem ensuredRoom_of_isStop {pc : Pc} (h : pc.isStop = true) : pc.ensuredRoom = none := by
  cases pc <;> first | rfl | cases h

theorem foundRoom_of_isStop {pc : Pc} (h : pc.isStop = true) : pc.foundRoom = none := by
  cases pc <;> first | rfl | cases h

theorem isRunning_of_foundRoom {pc : Pc} {r : RoomId} (h : pc.foundRoom = some r) :
    pc.isRunning = true := by
  cases pc <;> first | rfl | cases h

end Pc

namespace Server

variable {s s' : Server} {l : Label} {t t' : TaskId} {op : Op} {pc : Pc} {n : Next}
  {r : RoomId} {nb : NotebookId} {k : KernelId}

/-- Some call is awaiting `create_session` for the room. -/
def beingCreated (s : Server) (r : RoomId) : Bool :=
  (List.range s.nextTask).any fun t =>
    match s.tasks t with
    | some ⟨_, .creating _ r'⟩ => r' = r
    | _ => false

/-- The room is registered, and live with its kernel or about to be. -/
def inUse (s : Server) (r : RoomId) : Bool :=
  r ∈ s.mgr.rooms && (s.beingCreated r ||
    (s.room r).isLive && RuntimeManager.kernelIsAlive s.alive (s.room r))

/-- The entry of the notebook in `_notebook_to_room` is not that of a room in use, `r` apart. -/
def entryFree (s : Server) (nb : NotebookId) (r : Option RoomId) : Bool :=
  match s.mgr.notebookToRoom nb with
  | none => true
  | some r' => some r' = r || !s.inUse r'

/-- The step neither overwrites nor removes the notebook's entry while it is that of
another room in use. -/
def keepsEntry (nb : NotebookId) (s : Server) (l : Label) : Bool :=
  match s.moving l, l with
  | some ⟨_, .startRoom nb' _⟩, _ => nb' ≠ nb || s.entryFree nb none
  | some ⟨_, .loading nb' _⟩, .resume _ (.session _) _ => nb' ≠ nb || s.entryFree nb none
  | some ⟨_, .stopFinally r _ _ _⟩, _ => (s.room r).notebookId ≠ nb || s.entryFree nb (some r)
  | _, _ => true

/-- The step is not the death of the kernel. -/
def sparesKernel (k : KernelId) (_ : Server) (l : Label) : Bool :=
  match l with
  | .outside (.kernelDied k') => k' ≠ k
  | _ => true

theorem beingCreated_of_task (hw : WellFormed s) (ht : s.tasks t = some ⟨op, .creating nb r⟩) :
    s.beingCreated r = true := by
  simp only [beingCreated, List.any_eq_true, List.mem_range]
  exact ⟨t, hw.lt_nextTask ht, by simp [ht]⟩

/-! ## Stops -/

/-- A stop begins at the call of `stop_runtime`, is recorded there and leaves the rooms as they
are until its `finally`. -/
theorem TaskStep.begins_stop (h : TaskStep s t op l pc n) (hr : n.pc.stoppingRoom = some r) :
    n.state.mgr.rooms = s.mgr.rooms ∧
      (pc.stoppingRoom = some r ∨
        r ∈ s.mgr.rooms ∧ .stopping r ∈ n.state.events ∧
          ∃ rest stopped, pc = .stopRoom r rest stopped) := by
  cases h with
  | call h => cases h <;> cases hr
  | ensure h => cases h <;> cases hr
  | job h =>
      rcases h.stays with hpc | ⟨_, hpc⟩
      · rw [Pc.stoppingRoom_of_isJob hpc] at hr
        cases hr
      · rw [hpc] at hr
        cases hr
  | stop h =>
      cases h with
      | stopping hmem _ hpc =>
          rcases hpc with rfl | rfl <;> (cases hr; exact ⟨rfl, .inr ⟨hmem, by simp, _, _, rfl⟩⟩)
      | unknown => cases op <;> cases hr
      | already => cases op <;> cases hr
      | cleared => cases op <;> cases hr
      | deleted => exact ⟨rfl, .inl hr⟩
      | deleteRaised => exact ⟨rfl, .inl hr⟩
      | _ => cases hr

/-- A stop in progress is in the history. -/
def StopsRecorded (s : Server) : Prop :=
  ∀ ⦃t op pc r⦄, s.tasks t = some ⟨op, pc⟩ → pc.stoppingRoom = some r → .stopping r ∈ s.events

theorem stopsRecorded_step (h : StepCase s l s') (hs : StopsRecorded s) : StopsRecorded s' := by
  intro t op pc r ht hpc
  cases task_origin h ht with
  | kept ht₀ => exact h.mem_events (hs ht₀ hpc)
  | moved ht₀ hmove heq =>
      rcases (hmove.begins_stop hpc).2 with hpc | ⟨-, hmem, -⟩
      · exact h.mem_events (hs ht₀ hpc)
      · rw [heq]
        exact hmem
  | called => cases hpc
  | spawned => cases hpc

/-! ## Entries of rooms in use -/

/-- The entry of a room in use outlives the step. -/
theorem entry_step (hs : StopsRecorded s) (h : StepCase s l s') (hguard : s.keepsEntry nb l = true)
    (huse : s.inUse r = true) (hentry : s.mgr.roomForNotebook nb = some r)
    (hstop : .stopping r ∉ s.events) : s'.mgr.roomForNotebook nb = some r := by
  rcases h.mgr with hmgr | ⟨t, op, pc, n, ht, hmove, rfl, hmover⟩
  · rw [hmgr]
    exact hentry
  · change n.state.mgr.roomForNotebook nb = some r
    have hmoving := moving_eq hmover ht
    obtain ⟨hmap, hr⟩ := RuntimeManager.roomForNotebook_eq_some.mp hentry
    rw [RuntimeManager.roomForNotebook_eq_some]
    cases hmove.registry with
    | kept h =>
        rw [h.notebookToRoom, h.rooms]
        exact ⟨hmap, hr⟩
    | @created nb' choice now n hmgr =>
        have hne : nb ≠ nb' := by
          rintro rfl
          simp [keepsEntry, hmoving, entryFree, hmap, huse] at hguard
        rw [hmgr]
        exact ⟨by simpa [RuntimeManager.register, NotebookRoom.fresh, hne] using hmap,
          List.mem_append_left _ hr⟩
    | @adopted nb' choice session now t' o n hl hmgr =>
        have hne : nb ≠ nb' := by
          rintro rfl
          subst hl
          simp [keepsEntry, hmoving, entryFree, hmap, huse] at hguard
        rw [hmgr]
        exact ⟨by simpa [RuntimeManager.register, NotebookRoom.adopted, NotebookRoom.fresh, hne]
          using hmap, List.mem_append_left _ hr⟩
    | @unregistered r' rest stopped pending now n hmgr =>
        have hne : r ≠ r' := by
          rintro rfl
          exact hstop (hs ht rfl)
        have hname : nb ≠ (s.room r').notebookId := by
          rintro rfl
          simp [keepsEntry, hmoving, entryFree, hmap, huse, hne] at hguard
        rw [hmgr]
        refine ⟨?_, List.mem_filter.mpr ⟨hr, by simpa using hne⟩⟩
        simpa [RuntimeManager.unregister, RuntimeManager.modify, NotebookRoom.cleared,
          Function.update_apply, Server.room] using ⟨hname, hmap⟩

/-! ## Rooms on their way to a caller -/

/-- The room that a call has found or is creating is the notebook's, unless it is stopped. -/
def EnsuredMapped (nb : NotebookId) (s : Server) : Prop :=
  ∀ ⦃t op pc r⦄, s.tasks t = some ⟨op, pc⟩ → pc.ensuredRoom = some (nb, r) →
    .stopping r ∉ s.events → s.mgr.roomForNotebook nb = some r

theorem TaskStep.ensuredRoom (h : TaskStep s t op l pc n) (hr : n.pc.ensuredRoom = some (nb, r)) :
    pc.ensuredRoom = some (nb, r) ∧ s.mgr.Agrees n.state.mgr ∨
      n.state.mgr.roomForNotebook nb = some r := by
  cases h with
  | call h => cases h <;> cases hr
  | ensure h =>
      cases h with
      | found hfound =>
          cases hr
          right
          rw [(RuntimeManager.agrees_refresh ..).roomForNotebook]
          exact hfound
      | adopted =>
          cases hr
          right
          rw [RuntimeManager.roomForNotebook_eq_some]
          exact ⟨by simp [adoptSession, goto, RuntimeManager.register, NotebookRoom.adopted,
            NotebookRoom.fresh], List.mem_append_right _ (List.mem_singleton_self _)⟩
      | created =>
          cases hr
          right
          rw [RuntimeManager.roomForNotebook_eq_some]
          exact ⟨by simp [startRoom, park, record, RuntimeManager.register, NotebookRoom.fresh],
            List.mem_append_right _ (List.mem_singleton_self _)⟩
      | live => exact .inl ⟨hr, RuntimeManager.agrees_touchActivity ..⟩
      | started => exact .inl ⟨hr, ⟨rfl, rfl, rfl, rfl⟩⟩
      | _ => cases hr
  | job h =>
      rcases h.stays with hpc | ⟨_, hpc⟩
      · rw [Pc.ensuredRoom_of_isJob hpc] at hr
        cases hr
      · rw [hpc] at hr
        cases hr
  | stop h =>
      rcases h.stays with hstop | ⟨_, hdone⟩
      · rw [Pc.ensuredRoom_of_isStop hstop] at hr
        cases hr
      · rw [hdone] at hr
        cases hr

theorem ensuredMapped_step (hw : WellFormed s) (hrec : StopsRecorded s) (h : StepCase s l s')
    (hguard : s.keepsEntry nb l = true) (hs : EnsuredMapped nb s) :
    EnsuredMapped nb s' := by
  intro t op pc r ht hpc hstop'
  have hstop : .stopping r ∉ s.events := fun hmem => hstop' (h.mem_events hmem)
  cases task_origin h ht with
  | kept ht₀ hrun _ =>
      have hentry := hs ht₀ hpc hstop
      refine entry_step hrec h hguard ?_ hentry hstop
      have hr := (RuntimeManager.roomForNotebook_eq_some.mp hentry).2
      -- the other two points are running, and another task has control
      cases pc with
      | creating nb' r' =>
          cases hpc
          simp [inUse, hr, beingCreated_of_task hw ht₀]
      | loaded => exact absurd (hw.control ht₀ rfl) hrun
      | ensured => exact absurd (hw.control ht₀ rfl) hrun
      | _ => cases hpc
  | moved ht₀ hmove heq =>
      rcases hmove.ensuredRoom hpc with ⟨hpc, hagrees⟩ | hentry
      · rw [heq]
        exact (hagrees.roomForNotebook nb).trans (hs ht₀ hpc hstop)
      · rw [heq]
        exact hentry
  | called => cases hpc
  | spawned => cases hpc

/-- A room being created has no kernel yet, and one call creates it. -/
def CreatedOnce (s : Server) : Prop :=
  ∀ ⦃t op nb r⦄, s.tasks t = some ⟨op, .creating nb r⟩ → (s.room r).kernelId = none ∧
    ∀ ⦃t' op' nb'⦄, s.tasks t' = some ⟨op', .creating nb' r⟩ → t' = t

theorem TaskStep.creating (h : TaskStep s t op l pc n) (hpc : n.pc = .creating nb r) :
    r = s.mgr.nextRoomId ∧ ∃ now, n.state.room r = .fresh nb now := by
  cases h with
  | call h => cases h <;> cases hpc
  | ensure h =>
      cases h with
      | @created o =>
          cases hpc
          exact ⟨rfl, o.now, Function.update_self ..⟩
      | _ => cases hpc
  | job h => rcases h.stays with h | ⟨_, h⟩ <;> (rw [hpc] at h; cases h)
  | stop h => rcases h.stays with h | ⟨_, h⟩ <;> (rw [hpc] at h; cases h)

/-- The kernel and the session of a room change only when the call that creates the room
returns. -/
theorem session_step (h : StepCase s l s') (hr : r < s.mgr.nextRoomId) :
    (s'.room r).kernelId = (s.room r).kernelId ∧ (s'.room r).sessionId = (s.room r).sessionId ∨
      ∃ t op nb, s.mover l = some t ∧ s.tasks t = some ⟨op, .creating nb r⟩ := by
  rcases h.mgr with hmgr | ⟨t, op, pc, n, ht, hmove, rfl, hmover⟩
  · left
    constructor <;> rw [Server.room, hmgr, Server.room]
  · change (n.state.room r).kernelId = _ ∧ (n.state.room r).sessionId = _ ∨ _
    generalize hroom : n.state.room r = room
    have hstep := hmove.room (Nat.ne_of_lt hr)
    rw [hroom] at hstep
    cases hstep with
    | started hpc =>
        subst hpc
        exact .inr ⟨t, op, _, hmover, ht⟩
    | _ => exact .inl ⟨rfl, rfl⟩

/-- A call that creates a room did so before the step, or builds the room in it. -/
theorem creating_origin (h : StepCase s l s') (ht : s'.tasks t = some ⟨op, .creating nb r⟩) :
    s.tasks t = some ⟨op, .creating nb r⟩ ∧ s.mover l ≠ some t ∨
      s.mover l = some t ∧ r = s.mgr.nextRoomId ∧ ∃ now, s'.room r = .fresh nb now := by
  generalize hpc : Pc.creating nb r = pc at ht
  cases task_origin h ht with
  | kept ht₀ _ hmover =>
      subst hpc
      exact .inl ⟨ht₀, hmover⟩
  | moved _ hmove heq hmover =>
      obtain ⟨hr, now, hroom⟩ := hmove.creating hpc.symm
      exact .inr ⟨hmover, hr, now, heq ▸ hroom⟩
  | called => cases hpc
  | spawned => cases hpc

theorem createdOnce_step (hw : WellFormed s) (h : StepCase s l s') (hs : CreatedOnce s) :
    CreatedOnce s' := by
  intro t op nb r ht
  rcases creating_origin h ht with ⟨ht₀, hmover⟩ | ⟨hmover, rfl, now, hroom⟩
  · obtain ⟨hk, honce⟩ := hs ht₀
    have hlt := hw.held ht₀ (List.mem_singleton_self r)
    constructor
    · rcases session_step h hlt with ⟨hkept, -⟩ | ⟨t', op', nb', hmover', ht'⟩
      · rw [hkept, hk]
      · rw [honce ht'] at hmover'
        exact absurd hmover' hmover
    · intro t' op' nb' ht'
      rcases creating_origin h ht' with ⟨ht', -⟩ | ⟨-, rfl, -⟩
      · exact honce ht'
      · exact absurd hlt (lt_irrefl _)
  · refine ⟨by rw [hroom]; rfl, ?_⟩
    intro t' op' nb' ht'
    rcases creating_origin h ht' with ⟨ht', -⟩ | ⟨hmover', -, -⟩
    · exact absurd (hw.held ht' (List.mem_singleton_self _)) (lt_irrefl _)
    · rw [hmover] at hmover'
      exact (Option.some.inj hmover').symm

/-- The room is live and the kernel manager knows its kernel. -/
def liveRoom (s : Server) (r : RoomId) : Bool :=
  (s.room r).isLive && RuntimeManager.kernelIsAlive s.alive (s.room r)

/-- A room that `_load_or_refresh_room` returns as live has its kernel alive, and
`ensure_room` returns no other. -/
structure ReturnsLive (s : Server) : Prop where
  found : ∀ ⦃t op pc r⦄, s.tasks t = some ⟨op, pc⟩ → pc.foundRoom = some r →
    (s.room r).isLive = true → s.liveRoom r = true
  returned : ∀ ⦃t op nb r⦄, s.tasks t = some ⟨op, .ensured nb r⟩ → s.liveRoom r = true

theorem liveRoom_refresh {alive : KernelId → Bool} {m : RuntimeManager}
    (hlive : ((m.refresh alive r).heap r).isLive = true) :
    RuntimeManager.kernelIsAlive alive ((m.refresh alive r).heap r) = true := by
  unfold RuntimeManager.refresh at hlive ⊢
  dsimp only at hlive ⊢
  split at hlive
  · rename_i halive
    rw [if_pos halive]
    exact halive
  · split at hlive
    · rw [RuntimeManager.heap_modify, if_pos rfl] at hlive
      cases hlive
    · rename_i hstate
      cases hst : (m.heap r).state <;> simp_all [NotebookRoom.isLive, RuntimeState.isLive]

theorem liveRoom_touchActivity (s : Server) (r r' : RoomId) (now : Time) :
    Server.liveRoom { s with mgr := s.mgr.touchActivity r' now } r = s.liveRoom r := by
  obtain ⟨now', hroom⟩ := s.mgr.heap_touchActivity r' now r
  simp only [liveRoom, Server.room, hroom]
  rfl

theorem TaskStep.foundRoom (h : TaskStep s t op l pc n) (hr : n.pc.foundRoom = some r)
    (hlive : (n.state.room r).isLive = true) : n.state.liveRoom r = true := by
  cases h with
  | call h => cases h <;> cases hr
  | ensure h =>
      cases h with
      | found =>
          cases hr
          simp only [liveRoom, hlive, Bool.true_and]
          exact liveRoom_refresh hlive
      | adopted =>
          cases hr
          simp [liveRoom, adoptSession, goto, Server.room, RuntimeManager.register,
            NotebookRoom.adopted, NotebookRoom.isLive, RuntimeState.isLive,
            RuntimeManager.kernelIsAlive]
      | _ => cases hr
  | stop h =>
      rcases h.stays with hstop | ⟨_, hdone⟩
      · rw [Pc.foundRoom_of_isStop hstop] at hr
        cases hr
      · rw [hdone] at hr
        cases hr
  | job h =>
      rcases h.stays with h | ⟨_, h⟩
      · rw [Pc.foundRoom_of_isJob h] at hr
        cases hr
      · rw [h] at hr
        cases hr

theorem TaskStep.returnedRoom (h : TaskStep s t op l pc n) (hpc : n.pc = .ensured nb r) :
    n.state.liveRoom r = true ∨
      pc.foundRoom = some r ∧ (s.room r).isLive = true ∧ n.state.liveRoom r = s.liveRoom r := by
  cases h with
  | call h => cases h <;> cases hpc
  | ensure h =>
      cases h with
      | live _ hlive =>
          cases hpc
          exact .inr ⟨rfl, hlive, liveRoom_touchActivity ..⟩
      | started =>
          cases hpc
          left
          simp [liveRoom, sessionCreated, goto, Server.room, RuntimeManager.modify,
            NotebookRoom.started, NotebookRoom.isLive, RuntimeState.isLive,
            RuntimeManager.kernelIsAlive]
      | _ => cases hpc
  | stop h => rcases h.stays with h | ⟨_, h⟩ <;> (rw [hpc] at h; cases h)
  | job h => rcases h.stays with h | ⟨_, h⟩ <;> (rw [hpc] at h; cases h)

theorem returnsLive_step (hw : WellFormed s) (h : StepCase s l s') (hs : ReturnsLive s) :
    ReturnsLive s' where
  found := by
    intro t op pc r ht hr hlive
    obtain ⟨_, n, -, hmove, rfl, rfl, -⟩ := hw.moved_to h ht (Pc.isRunning_of_foundRoom hr)
    exact hmove.foundRoom hr hlive
  returned := by
    intro t op nb r ht
    obtain ⟨_, n, ht₀, hmove, hpc, rfl, -⟩ := hw.moved_to h ht rfl
    rcases hmove.returnedRoom hpc with hlive | ⟨hr, hlive, hsame⟩
    · exact hlive
    · exact hsame.trans (hs.found ht₀ hr hlive)

theorem returnsLive_boot {ttl : Time} {maxCompleted : Int} {alive : KernelId → Bool}
    {kernelspec : NotebookId → Option String} :
    ReturnsLive (boot ttl maxCompleted alive kernelspec) where
  found _ _ _ _ ht := by cases ht
  returned _ _ _ _ ht := by cases ht

theorem returnsLive_run {G : Server → Label → Prop} {ttl : Time} {maxCompleted : Int}
    {alive : KernelId → Bool} {kernelspec : NotebookId → Option String}
    (h : ServerRun G (boot ttl maxCompleted alive kernelspec) s) : ReturnsLive s :=
  h.invariant_of (fun _ hu => wellFormed_run hu wellFormed_boot) returnsLive_boot
    fun _ _ _ hw _ hs _ hstep => returnsLive_step hw (step_cases hstep) hs

/-! ## From the return of a room to its stop -/

theorem alive_step (h : StepCase s l s') (hk : s.alive k = true)
    (hspares : s.sparesKernel k l = true) : s'.alive k = true := by
  cases h with
  | call => exact hk
  | @task t op l pc n ht h =>
      change n.state.alive k = true
      have hupdate : ∀ k', Function.update s.alive k' true k = true := by
        intro k'
        rw [Function.update_apply]
        split
        · rfl
        · exact hk
      cases h with
      | call h => cases h <;> exact hk
      | ensure h =>
          cases h with
          | adopted => exact hupdate _
          | started => exact hupdate _
          | _ => exact hk
      | stop h =>
          cases h with
          | unknown => cases op <;> exact hk
          | already => cases op <;> exact hk
          | cleared => cases op <;> exact hk
          | _ => exact hk
      | job h => cases h <;> exact hk
  | @outside c =>
      cases c with
      | kernelDied k' =>
          have hne : k ≠ k' := by
            rintro rfl
            simp [sparesKernel] at hspares
          simpa [change, record, hne] using hk
      | kernelStarted k' =>
          simp only [change, Function.update_apply]
          split
          · rfl
          · exact hk
      | _ => exact hk

/-- What a caller may rely on after `ensure_room` has returned the room. -/
structure Held (s : Server) (nb : NotebookId) (r : RoomId) (k : KernelId) : Prop where
  entry : s.mgr.roomForNotebook nb = some r
  kernelId : (s.room r).kernelId = some k
  alive : s.alive k = true
  live : (s.room r).isLive = true

theorem Held.kernelIsAlive (h : Held s nb r k) :
    RuntimeManager.kernelIsAlive s.alive (s.room r) = true := by
  rw [RuntimeManager.kernelIsAlive, h.kernelId]
  exact h.alive

theorem Held.inUse (h : Held s nb r k) : s.inUse r = true := by
  have hr := (RuntimeManager.roomForNotebook_eq_some.mp h.entry).2
  simp [Server.inUse, hr, h.live, h.kernelIsAlive]

/-- A held room stays live until it is stopped. -/
theorem live_step (hrec : StopsRecorded s) (honce : CreatedOnce s) (h : StepCase s l s')
    (hr : r < s.mgr.nextRoomId) (hheld : Held s nb r k) (hstop : .stopping r ∉ s'.events) :
    (s'.room r).isLive = true := by
  have hstop₀ : .stopping r ∉ s.events := fun hmem => hstop (h.mem_events hmem)
  rcases h.mgr with hmgr | ⟨t, op, pc, n, ht, hmove, rfl, hmover⟩
  · rw [Server.room, hmgr]
    exact hheld.live
  · change (n.state.room r).isLive = true
    generalize hroom : n.state.room r = room
    have hstep := hmove.room (Nat.ne_of_lt hr)
    rw [hroom] at hstep
    cases hstep with
    | died _ _ halive =>
        rw [hheld.kernelIsAlive] at halive
        cases halive
    | failed hpc =>
        subst hpc
        have hk := hheld.kernelId
        rw [(honce ht).1] at hk
        cases hk
    | stdin _ _ hstate =>
        rw [hstate]
        dsimp only [NotebookRoom.isLive]
        split <;> rfl
    | stopping hpc hpc' =>
        subst hpc
        have hstopping : n.pc.stoppingRoom = some r := by rcases hpc' with h | h <;> rw [h] <;> rfl
        rcases (hmove.begins_stop hstopping).2 with hpc | ⟨-, hmem, -⟩
        · cases hpc
        · exact absurd hmem hstop
    | cleared hpc =>
        subst hpc
        exact absurd (hrec ht rfl) hstop₀
    | detached =>
        simp only [NotebookRoom.detach, NotebookRoom.isLive]
        split
        · rfl
        · exact hheld.live
    | jobFinished _ _ hstate =>
        rcases hstate with rfl | ⟨-, -, rfl, -⟩
        · exact hheld.live
        · rfl
    | started => rfl
    | attached => rfl
    | awaiting => rfl
    | _ => exact hheld.live

/-- The invariants of the first phase together. -/
structure RegistryInv (nb : NotebookId) (s : Server) : Prop where
  wellFormed : WellFormed s
  stopsRecorded : StopsRecorded s
  ensuredMapped : EnsuredMapped nb s
  createdOnce : CreatedOnce s
  returnsLive : ReturnsLive s

theorem registryInv_step (hs : RegistryInv nb s) (hguard : s.keepsEntry nb l = true)
    (hstep : s.step l = some s') : RegistryInv nb s' :=
  have h := step_cases hstep
  { wellFormed := hs.wellFormed.step hstep
    stopsRecorded := stopsRecorded_step h hs.stopsRecorded
    ensuredMapped := ensuredMapped_step hs.wellFormed hs.stopsRecorded h hguard hs.ensuredMapped
    createdOnce := createdOnce_step hs.wellFormed h hs.createdOnce
    returnsLive := returnsLive_step hs.wellFormed h hs.returnsLive }

theorem registryInv_run {ttl : Time} {maxCompleted : Int} {alive : KernelId → Bool}
    {kernelspec : NotebookId → Option String}
    (h : ServerRun (keepsEntry nb · ·) (boot ttl maxCompleted alive kernelspec) s) :
    RegistryInv nb s := by
  refine h.invariant ?_ fun _ _ _ hs hguard hstep => registryInv_step hs hguard hstep
  exact
    { wellFormed := wellFormed_boot
      stopsRecorded := fun _ _ _ _ ht => by cases ht
      ensuredMapped := fun _ _ _ _ ht => by cases ht
      createdOnce := fun _ _ _ _ ht => by cases ht
      returnsLive := returnsLive_boot }

theorem held_step (hs : RegistryInv nb s) (h : StepCase s l s') (hguard : s.keepsEntry nb l = true)
    (hspares : s.sparesKernel k l = true) (hstop : .stopping r ∉ s'.events)
    (hheld : Held s nb r k) : Held s' nb r k := by
  have hstop₀ : .stopping r ∉ s.events := fun hmem => hstop (h.mem_events hmem)
  have hr := hs.wellFormed.registered r (RuntimeManager.roomForNotebook_eq_some.mp hheld.entry).2
  refine
    { entry := entry_step hs.stopsRecorded h hguard hheld.inUse hheld.entry hstop₀
      kernelId := ?_
      alive := alive_step h hheld.alive hspares
      live := live_step hs.stopsRecorded hs.createdOnce h hr hheld hstop }
  rcases session_step h hr with ⟨hkept, -⟩ | ⟨t, op, nb', -, ht⟩
  · rw [hkept, hheld.kernelId]
  · have hk := hheld.kernelId
    rw [(hs.createdOnce ht).1] at hk
    cases hk

/-- A room that `ensure_room` has returned is held at that moment. -/
theorem held_of_ensured (hs : RegistryInv nb s) (ht : s.tasks t = some ⟨op, .ensured nb r⟩)
    (hk : (s.room r).kernelId = some k) (hstop : .stopping r ∉ s.events) : Held s nb r k := by
  have hlive := hs.returnsLive.returned ht
  simp only [liveRoom, Bool.and_eq_true, RuntimeManager.kernelIsAlive, hk, Option.any_some] at hlive
  exact
    { entry := hs.ensuredMapped ht rfl hstop
      kernelId := hk
      alive := hlive.2
      live := hlive.1 }

/-- A live room that `ensure_room` has returned is the room of its notebook until it is
stopped, as long as its kernel lives, in every run whose steps neither overwrite nor
remove the notebook's entry while it is that of another room in use. -/
theorem ensured_room_stays_mapped {ttl : Time} {maxCompleted : Int} {alive : KernelId → Bool}
    {kernelspec : NotebookId → Option String}
    (hrun : ServerRun (keepsEntry nb · ·) (boot ttl maxCompleted alive kernelspec) s)
    (hreturned : s.tasks t = some ⟨op, .ensured nb r⟩) (hk : (s.room r).kernelId = some k)
    (hrun' : ServerRun (fun s l => s.keepsEntry nb l = true ∧ s.sparesKernel k l = true) s s')
    (hstop : .stopping r ∉ s'.events) : s'.mgr.roomForNotebook nb = some r := by
  suffices hheld : RegistryInv nb s' ∧ (.stopping r ∉ s'.events → Held s' nb r k) from
    (hheld.2 hstop).entry
  have hs := registryInv_run hrun
  refine Run.invariant (I := fun s => RegistryInv nb s ∧ (.stopping r ∉ s.events → Held s nb r k))
    hrun' ⟨hs, held_of_ensured hs hreturned hk⟩ ?_
  rintro u l u' ⟨hu, hheld⟩ ⟨hguard, hspares⟩ hstep
  refine ⟨registryInv_step hu hguard hstep, ?_⟩
  intro hstop
  have hstop₀ : .stopping r ∉ u.events := fun hmem => hstop ((step_cases hstep).mem_events hmem)
  exact held_step hu (step_cases hstep) hguard hspares hstop (hheld hstop₀)

section Schedules

/-- `ensure_room` of a notebook that Jupyter has no session for, up to its return. -/
private def firstRoom : List Label :=
  [.call (.ensureRoom "nb" none), .proceed (.quiet 0), .proceed (.quiet 0),
    .resume 0 (.raised (.http 404 "")) (.quiet 0), .proceed (.quiet 0), .proceed (.quiet 0),
    .resume 0 (.session ⟨"session", "kernel", some "python3"⟩) (.quiet 0)]

theorem first_room_stays_mapped :
    ∃ s : Server, s.tasks 0 = some ⟨.ensureRoom "nb" none, .done (.room 0)⟩ ∧
      s.mgr.roomForNotebook "nb" = some 0 := by
  obtain ⟨s, hrun, ht, hk, hguarded, hexec⟩ :=
    (boot 10 20 (fun _ => false) fun _ => none).exists_guarded_run (keepsEntry "nb") firstRoom
      (fun s => s.tasks 0 = some ⟨.ensureRoom "nb" none, .ensured "nb" 0⟩ ∧
        (s.room 0).kernelId = some "kernel" ∧
        guardedBy step (fun s l => s.keepsEntry "nb" l = true ∧ s.sparesKernel "kernel" l = true) s
          [.proceed (.quiet 1)] = true ∧
        (exec step s [.proceed (.quiet 1)]).any fun s' =>
          s'.tasks 0 = some ⟨.ensureRoom "nb" none, .done (.room 0)⟩ ∧ .stopping 0 ∉ s'.events)
      (by decide) (by decide)
  obtain ⟨s', hrun', ht', hstop⟩ := exists_guarded_run_of_exec hguarded hexec
  exact ⟨s', ht', ensured_room_stays_mapped hrun ht hk hrun' hstop⟩

/-- While the first room's stop waits for `delete_session`, the notebook gets a second
room; the stop then removes the notebook's entry, and the second room, live and
registered, is no longer found. -/
theorem stop_unmaps_new_room :
    ∃ s s' t op nb r k,
      ServerRun anyStep (boot 10 20 (fun _ => false) fun _ => none) s ∧
      s.tasks t = some ⟨op, .ensured nb r⟩ ∧ (s.room r).kernelId = some k ∧
      ServerRun (fun s l => s.sparesKernel k l = true) s s' ∧ .stopping r ∉ s'.events ∧
      r ∈ s'.mgr.rooms ∧ s'.liveRoom r = true ∧ s'.mgr.roomForNotebook nb ≠ some r := by
  obtain ⟨s, hrun, ht, hk, hguarded, hexec⟩ :=
    (boot 10 20 (fun _ => false) fun _ => none).exists_run
      (firstRoom ++ [.proceed (.quiet 1), .call (.stopRuntime 0), .proceed (.quiet 1),
        .proceed (.quiet 1), .call (.ensureRoom "nb" none), .proceed (.quiet 2),
        .proceed (.quiet 2), .proceed (.quiet 2), .proceed (.quiet 2),
        .resume 2 (.session ⟨"session2", "kernel2", some "python3"⟩) (.quiet 2)])
      (fun s => s.tasks 2 = some ⟨.ensureRoom "nb" none, .ensured "nb" 1⟩ ∧
        (s.room 1).kernelId = some "kernel2" ∧
        guardedBy step (fun s l => s.sparesKernel "kernel2" l = true) s
          [.proceed (.quiet 2), .resume 1 .returned (.quiet 3), .proceed (.quiet 3)] = true ∧
        (exec step s
          [.proceed (.quiet 2), .resume 1 .returned (.quiet 3), .proceed (.quiet 3)]).any fun s' =>
            .stopping 1 ∉ s'.events ∧ 1 ∈ s'.mgr.rooms ∧ s'.liveRoom 1 = true ∧
              s'.mgr.roomForNotebook "nb" ≠ some 1)
      (by decide)
  obtain ⟨s', hrun', hstop, hr, hlive, hentry⟩ := exists_guarded_run_of_exec hguarded hexec
  exact ⟨s, s', 2, _, "nb", 1, "kernel2", hrun, ht, hk, hrun', hstop, hr, hlive, hentry⟩

end Schedules

end Server

end Hypernote
