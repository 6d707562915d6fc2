import Hypernote.Proofs.Kernels
/-!
# A room while it starts

From its registration until `create_session` returns, a room is `STARTING` and has no
kernel.  `_load_or_refresh_room` asks after the kernel alone: it takes such a room for one
whose kernel has died and makes it `STOPPED`, on behalf of every call that looks the
notebook up in the meantime.
-/

namespace Hypernote

open Foundation

namespace Server

variable {s s' : Server} {l : Label} {t : TaskId} {op : Op} {pc : Pc} {n : Next}
  {r : RoomId} {nb : NotebookId}

/-- The step is one of `stop_runtime` for the room. -/
def stopMoves (s : Server) (r : RoomId) (l : Label) : Bool :=
  match s.moving l with
  | some ⟨_, .stopRoom r' _ _⟩ => r' = r
  | some ⟨_, .stopFinally r' _ _ _⟩ => r' = r
  | _ => false

/-- What the step shows of a room that task `t` awaits `create_session` for. -/
structure LooksStarting (s : Server) (l : Label) (s' : Server) (t : TaskId) (nb : NotebookId)
    (r : RoomId) : Prop where
  /-- A `get_runtime_status` for the notebook that ends reports the room as starting. -/
  reported : ∀ ⦃t' outcome⦄, s.mover l = some t' →
    s'.tasks t' = some ⟨.getRuntimeStatus nb, .done outcome⟩ →
    ∃ payload, outcome = .status payload ∧ payload.state = .starting ∧ payload.roomId = some r
  /-- Only `stop_runtime` and the end of the `ensure_room` change the state of the room. -/
  kept : (s'.room r).state ≠ (s.room r).state → s.mover l = some t ∨ s.stopMoves r l = true

/-- Every room that is being created looks like it is starting. -/
def ShowsStarting (s : Server) (l : Label) (s' : Server) : Prop :=
  ∀ ⦃t op nb r⦄, s.tasks t = some ⟨op, .creating nb r⟩ → LooksStarting s l s' t nb r

/-- The step ends a `get_runtime_status` for the notebook, or `_load_or_refresh_room` finds the
room neither stopped nor failed. -/
def hidesStarting (nb : NotebookId) (r : RoomId) (s : Server) (l : Label) : Bool :=
  match s.moving l, l with
  | some ⟨.getRuntimeStatus nb', .loaded ..⟩, _ => nb' = nb
  | some ⟨.getRuntimeStatus nb', .loading ..⟩, .resume _ (.raised error) _ =>
      nb' = nb && !error.isHttp
  | some ⟨_, .loadRoom nb' _⟩, _ =>
      s.mgr.roomForNotebook nb' = some r && (s.room r).state ≠ .stopped &&
        (s.room r).state ≠ .failed
  | _, _ => false

/-- The step does so for no room that is being created. -/
def sparesStarting (s : Server) (l : Label) : Bool :=
  (List.range s.nextTask).all fun t =>
    match s.tasks t with
    | some ⟨_, .creating nb r⟩ => !s.hidesStarting nb r l
    | _ => true

theorem sparesStarting_iff (hw : WellFormed s) :
    s.sparesStarting l = true ↔
      ∀ t op nb r, s.tasks t = some ⟨op, .creating nb r⟩ → hidesStarting nb r s l = false := by
  simp only [sparesStarting, List.all_eq_true, List.mem_range]
  constructor
  · intro h t op nb r ht
    simpa [ht] using h t (hw.lt_nextTask ht)
  · intro h t _
    split
    · rename_i ht
      simp [h _ _ _ _ ht]
    · rfl

/-! ## Nothing reports a room as starting -/

/-- A starting room has no kernel, and `_load_or_refresh_room` returns no such room. -/
structure StartingInv (s : Server) : Prop where
  noKernel : ∀ ⦃r⦄, r < s.mgr.nextRoomId → (s.room r).state = .starting →
    (s.room r).kernelId = none
  found : ∀ ⦃t op pc r⦄, s.tasks t = some ⟨op, pc⟩ → pc.foundRoom = some r →
    (s.room r).state ≠ .starting

theorem startingInv_boot {ttl : Time} {maxCompleted : Int} {alive : KernelId → Bool}
    {kernelspec : NotebookId → Option String} :
    StartingInv (boot ttl maxCompleted alive kernelspec) where
  noKernel _ h := absurd h (Nat.not_lt_zero _)
  found _ _ _ _ ht := by cases ht

theorem RoomStep.starting {pc' : Pc} {room : NotebookRoom} (h : RoomStep s op pc pc' r room)
    (hstate : room.state = .starting) :
    (s.room r).state = .starting ∧ room.kernelId = (s.room r).kernelId := by
  cases h with
  | detached =>
      dsimp only [NotebookRoom.detach] at hstate ⊢
      split at hstate
      · cases hstate
      · exact ⟨hstate, rfl⟩
  | stdin _ _ hnew =>
      dsimp only at hstate
      rw [hnew] at hstate
      split at hstate <;> cases hstate
  | jobFinished _ _ hnew =>
      rcases hnew with rfl | ⟨-, -, rfl, -⟩
      · exact ⟨hstate, rfl⟩
      · cases hstate
  | _ => first | exact ⟨hstate, rfl⟩ | cases hstate

theorem noKernel_step (hs : StartingInv s) (h : StepCase s l s') (hr : r < s'.mgr.nextRoomId)
    (hstate : (s'.room r).state = .starting) : (s'.room r).kernelId = none := by
  cases room_change h hr with
  | kept hlt heq =>
      rw [heq] at hstate ⊢
      exact hs.noKernel hlt hstate
  | moved hlt _ _ _ _ hroom =>
      obtain ⟨hold, hkernel⟩ := hroom.starting hstate
      rw [hkernel]
      exact hs.noKernel hlt hold
  | fresh _ heq =>
      rw [heq]
      rfl
  | adopted _ heq =>
      rw [heq] at hstate
      cases hstate

/-- The room that `_load_or_refresh_room` finds is not starting afterwards. -/
theorem refresh_not_starting (hs : StartingInv s) (hr : r < s.mgr.nextRoomId) :
    ((s.mgr.refresh s.alive r).heap r).state ≠ .starting := by
  intro hstate
  unfold RuntimeManager.refresh at hstate
  dsimp only at hstate
  split at hstate
  · rename_i halive
    have hkernel : (s.mgr.heap r).kernelId = none := hs.noKernel hr hstate
    rw [RuntimeManager.kernelIsAlive, hkernel] at halive
    cases halive
  · split at hstate
    · rw [RuntimeManager.heap_modify, if_pos rfl] at hstate
      cases hstate
    · rename_i hstopped
      exact hstopped (by simp [hstate])

theorem TaskStep.found_not_starting (hs : StartingInv s) (hw : WellFormed s)
    (h : TaskStep s t op l pc n) (hr : n.pc.foundRoom = some r) :
    (n.state.room r).state ≠ .starting := by
  cases h with
  | call h => cases h <;> cases hr
  | ensure h =>
      cases h with
      | found hfound =>
          cases hr
          exact refresh_not_starting hs
            (hw.registered r (RuntimeManager.roomForNotebook_eq_some.mp hfound).2)
      | adopted =>
          cases hr
          simp [adoptSession, goto, Server.room, RuntimeManager.register, NotebookRoom.adopted]
      | _ => cases hr
  | stop h =>
      rcases h.stays with hstop | ⟨_, hdone⟩
      · rw [Pc.foundRoom_of_isStop hstop] at hr
        cases hr
      · rw [hdone] at hr
        cases hr
  | job h =>
      rcases h.stays with h | ⟨_, h⟩
      · rw [Pc.foundRoom_of_isJob h] at hr
        cases hr
      · rw [h] at hr
        cases hr

theorem StartingInv.step (hs : StartingInv s) (hw : WellFormed s) (hstep : s.step l = some s') :
    StartingInv s' where
  noKernel _ hr hstate := noKernel_step hs (step_cases hstep) hr hstate
  found := by
    intro t op pc r ht hr
    obtain ⟨_, n, -, hmove, rfl, rfl, -⟩ :=
      hw.moved_to (step_cases hstep) ht (Pc.isRunning_of_foundRoom hr)
    exact hmove.found_not_starting hs hw hr

theorem startingInv_run {G : Server → Label → Prop} {ttl : Time} {maxCompleted : Int}
    {alive : KernelId → Bool} {kernelspec : NotebookId → Option String}
    (h : ServerRun G (boot ttl maxCompleted alive kernelspec) s) : StartingInv s :=
  h.invariant_of (fun _ hu => wellFormed_run hu wellFormed_boot) startingInv_boot
    fun _ _ _ hw _ hs _ hstep => hs.step hw hstep

/-! ## What one step shows -/

/-- A `get_runtime_status` ends where it reports, or where `get_session` fails. -/
theorem TaskStep.ends_status {outcome : Outcome} (h : TaskStep s t (.getRuntimeStatus nb) l pc n)
    (hadmits : (Op.getRuntimeStatus nb).admits pc) (hpc : n.pc = .done outcome) :
    (∃ nb' choice existing, pc = .loaded nb' choice existing) ∨
      ∃ nb' choice error o, pc = .loading nb' choice ∧ l = .resume t (.raised error) o ∧
        error.isHttp = false := by
  cases h with
  | call h =>
      cases h with
      | refused hop => cases hop
      | opened hop => cases hop
      | interruptedNative =>
          obtain ⟨k, hop⟩ := hadmits
          cases hop
      | raised hraised =>
          rcases hraised with rfl | ⟨_, _, rfl⟩ | ⟨room, rfl⟩ | rfl
          · obtain ⟨_, _, hop⟩ := hadmits
            cases hop
          · obtain ⟨⟨_, _, _, hop⟩, -⟩ := hadmits
            cases hop
          · cases room with
            | none =>
                obtain ⟨_, hop⟩ := hadmits
                cases hop
            | some r =>
                obtain ⟨_, _, hop⟩ := hadmits
                cases hop
          · obtain ⟨_, hop⟩ := hadmits
            cases hop
      | _ => cases hpc
  | ensure h =>
      cases h with
      | status => exact .inl ⟨_, _, _, rfl⟩
      | loadFailed herror => exact .inr ⟨_, _, _, _, rfl, rfl, herror⟩
      | mismatch hop => cases hop
      | createFailed => cases hadmits.2
      | _ => cases hpc
  | stop h =>
      have hstop : ∀ rest, ¬(Op.getRuntimeStatus nb).stopsRooms rest := by
        rintro rest (hop | hop | ⟨⟨_, hop⟩ | ⟨_, hop⟩, -⟩) <;> cases hop
      cases h with
      | next => cases hpc
      | swept => rcases hadmits with hop | hop <;> cases hop
      | _ => exact absurd hadmits (hstop _)

/-- A step that does not hide a starting room changes its state on behalf of `stop_runtime` or
of the call that creates the room. -/
theorem state_step (hs : ServerInv s) (h : StepCase s l s')
    (ht : s.tasks t = some ⟨op, .creating nb r⟩) (hhides : hidesStarting nb r s l = false)
    (hstate : (s'.room r).state ≠ (s.room r).state) :
    s.mover l = some t ∨ s.stopMoves r l = true := by
  have hr := hs.wellFormed.held ht (List.mem_singleton_self r)
  obtain ⟨hkernel, honce⟩ := hs.createdOnce ht
  have hlive := (hs.creating ht).1
  cases room_change h (hr.trans_le (nextRoomId_le h)) with
  | kept _ heq => exact absurd (congrArg NotebookRoom.state heq) hstate
  | fresh heq => exact absurd heq hr.ne
  | adopted heq => exact absurd heq hr.ne
  | @moved t' op' pc n _ ht' hmove _ hmover hroom =>
      have hmoving := moving_eq hmover ht'
      -- the room has no kernel yet, and every call that works with a room has one with a kernel
      have hunused : pc.usedRoom ≠ some r := fun hused => hs.kernels.used ht' hused hkernel
      generalize s'.room r = room at hroom hstate
      cases hroom with
      | died hpc hfound _ hold =>
          subst hpc
          cases op' <;> simp [hidesStarting, hmoving, hfound, hold] at hhides
      | started hpc =>
          subst hpc
          rw [honce ht'] at hmover
          exact .inl hmover
      | failed hpc =>
          subst hpc
          rw [honce ht'] at hmover
          exact .inl hmover
      | attached hattached =>
          rcases hattached with hattached | ⟨_, rfl⟩
          · rw [hlive] at hattached
            cases hattached
          · exact absurd rfl hunused
      | detached =>
          dsimp only [NotebookRoom.detach] at hstate
          split at hstate
          · rename_i hattached
            rw [NotebookRoom.isLive, hattached.2] at hlive
            cases hlive
          · exact absurd rfl hstate
      | awaiting hpc =>
          subst hpc
          exact absurd rfl hunused
      | stdin hpc =>
          subst hpc
          exact absurd rfl hunused
      | stopping hpc =>
          subst hpc
          exact .inr (by simp [stopMoves, hmoving])
      | cleared hpc =>
          subst hpc
          exact .inr (by simp [stopMoves, hmoving])
      | jobFinished _ _ hnew =>
          rcases hnew with rfl | ⟨-, -, -, hawaiting⟩
          · exact absurd rfl hstate
          · rw [NotebookRoom.isLive, hawaiting] at hlive
            cases hlive
      | _ => exact absurd rfl hstate

/-- What `get_runtime_status` reports is never a starting room. -/
theorem status_not_starting {nb' : NotebookId} {choice : KernelChoice} {existing : Option RoomId}
    (hs : StartingInv s)
    (hmoving : s.moving l = some ⟨.getRuntimeStatus nb, .loaded nb' choice existing⟩)
    (hstep : s.step l = some s') :
    ∃ t payload, s.mover l = some t ∧
      s'.tasks t = some ⟨.getRuntimeStatus nb, .done (.status payload)⟩ ∧
      payload.state ≠ .starting := by
  obtain ⟨t, n, ht, hmove, -, hmover⟩ := (step_cases hstep).of_moving hmoving
  obtain ⟨o, rfl⟩ : ∃ o, l = .proceed o := by cases hmove.ensureStep rfl <;> exact ⟨_, rfl⟩
  obtain ⟨t', n, -, hn, rfl, hrun⟩ := step_proceed hmoving hstep
  obtain rfl : t' = t := Option.some.inj (hrun.symm.trans hmover)
  rw [advance, Option.some.injEq] at hn
  subst hn
  cases existing with
  | none =>
      exact ⟨t', NotebookRoom.statusOfNone, hmover, by rw [commit_tasks, if_pos rfl]; rfl,
        by decide⟩
  | some r =>
      exact ⟨t', NotebookRoom.statusOf r (s.room r), hmover,
        by rw [commit_tasks, if_pos rfl]; rfl, hs.found ht rfl⟩

/-- A room that `_load_or_refresh_room` finds without a kernel is stopped. -/
theorem lookup_stops {nb' : NotebookId} {choice : KernelChoice} (hkernel : (s.room r).kernelId = none)
    (hmoving : s.moving l = some ⟨op, .loadRoom nb' choice⟩)
    (hfound : s.mgr.roomForNotebook nb' = some r)
    (hstate : (s.room r).state ≠ .stopped ∧ (s.room r).state ≠ .failed)
    (h : StepCase s l s') : (s'.room r).state = .stopped := by
  obtain ⟨t, n, -, hmove, rfl, -⟩ := h.of_moving hmoving
  have hdead : RuntimeManager.kernelIsAlive s.alive (s.mgr.heap r) = false := by
    rw [RuntimeManager.kernelIsAlive, show (s.mgr.heap r).kernelId = none from hkernel]
    rfl
  cases hmove.ensureStep rfl with
  | found hfound' =>
      rw [hfound] at hfound'
      cases hfound'
      change ((s.mgr.refresh s.alive r).heap r).state = .stopped
      rw [Server.room] at hstate
      unfold RuntimeManager.refresh
      dsimp only
      rw [if_neg (by simp [hdead]), if_pos hstate, RuntimeManager.heap_modify, if_pos rfl]
  | absent habsent =>
      rw [hfound] at habsent
      cases habsent

theorem not_looksStarting (hs : ServerInv s) (hstarting : StartingInv s)
    (hstep : s.step l = some s') (ht : s.tasks t = some ⟨op, .creating nb r⟩)
    (hhides : hidesStarting nb r s l = true) : ¬LooksStarting s l s' t nb r := by
  intro hlooks
  have hkernel := (hs.createdOnce ht).1
  unfold hidesStarting at hhides
  split at hhides
  · rename_i hmoving
    obtain rfl := of_decide_eq_true hhides
    obtain ⟨t', payload, hmover, hdone, hstate⟩ := status_not_starting hstarting hmoving hstep
    obtain ⟨_, heq, hreported, -⟩ := hlooks.reported hmover hdone
    cases heq
    exact hstate hreported
  · rename_i hmoving
    rw [Bool.and_eq_true, decide_eq_true_eq] at hhides
    obtain ⟨rfl, herror⟩ := hhides
    obtain ⟨t', n, -, hmove, rfl, hmover⟩ := (step_cases hstep).of_moving hmoving
    cases hmove.ensureStep rfl with
    | missing hhttp => simp [hhttp] at herror
    | loadFailed =>
        obtain ⟨_, heq, -⟩ := hlooks.reported hmover (by rw [commit_tasks, if_pos rfl])
        cases heq
  · rename_i hmoving
    simp only [Bool.and_eq_true, decide_eq_true_eq] at hhides
    obtain ⟨⟨hfound, hstopped⟩, hfailed⟩ := hhides
    have hstate := lookup_stops hkernel hmoving hfound ⟨hstopped, hfailed⟩ (step_cases hstep)
    rcases hlooks.kept (by rw [hstate]; exact hstopped.symm) with hmover | hstops
    · have := (moving_eq hmover ht).symm.trans hmoving
      cases this
    · simp [stopMoves, hmoving] at hstops
  · cases hhides

/-- What a step shows of a room that is being created. -/
theorem looksStarting_iff (hs : ServerInv s) (hstarting : StartingInv s)
    (hstep : s.step l = some s') (ht : s.tasks t = some ⟨op, .creating nb r⟩) :
    LooksStarting s l s' t nb r ↔ hidesStarting nb r s l = false := by
  constructor
  · intro hlooks
    by_contra hhides
    exact not_looksStarting hs hstarting hstep ht (Bool.eq_true_of_not_eq_false hhides) hlooks
  · intro hhides
    refine ⟨?_, state_step hs (step_cases hstep) ht hhides⟩
    intro t' outcome hmover hdone
    exfalso
    generalize hpc : Pc.done outcome = pc at hdone
    cases task_origin (step_cases hstep) hdone with
    | kept _ _ hkept => exact hkept hmover
    | called => cases hpc
    | moved ht' hmove =>
        have hmoving := moving_eq hmover ht'
        rcases hmove.ends_status (hs.wellFormed.admits ht') hpc.symm with
          ⟨_, _, _, rfl⟩ | ⟨_, _, error, _, rfl, rfl, herror⟩
        · simp [hidesStarting, hmoving] at hhides
        · simp [hidesStarting, hmoving, herror] at hhides

theorem showsStarting_iff (hs : ServerInv s) (hstarting : StartingInv s)
    (hstep : s.step l = some s') : ShowsStarting s l s' ↔ s.sparesStarting l = true := by
  rw [sparesStarting_iff hs.wellFormed]
  constructor
  · intro hshows t op nb r ht
    exact (looksStarting_iff hs hstarting hstep ht).mp (hshows ht)
  · intro hspares t op nb r ht
    exact (looksStarting_iff hs hstarting hstep ht).mpr (hspares t op nb r ht)

/-! ## What a run shows -/

/-- Where `stop_runtime` changes the state of a room, the stop is in the history. -/
theorem stop_recorded (hrec : StopsRecorded s) (h : StepCase s l s')
    (hstops : s.stopMoves r l = true) (hstate : (s'.room r).state ≠ (s.room r).state) :
    .stopping r ∈ s'.events := by
  unfold stopMoves at hstops
  split at hstops
  · rename_i op r' rest stopped hmoving
    obtain rfl : r' = r := of_decide_eq_true hstops
    obtain ⟨t, n, -, hmove, rfl, -⟩ := h.of_moving hmoving
    cases hmove.stopStep rfl with
    | unknown =>
        rw [Server.room, Next.commit, state_stopRaised] at hstate
        exact absurd rfl hstate
    | already =>
        rw [Server.room, Next.commit, state_stopReturned] at hstate
        exact absurd rfl hstate
    | stopping => simp [Next.commit]
  · rename_i hmoving
    obtain rfl := of_decide_eq_true hstops
    obtain ⟨t, n, ht, -⟩ := h.of_moving hmoving
    exact h.mem_events (hrec ht rfl)
  · cases hstops

/-- A room that is being created is starting, unless it is stopped. -/
def CreatedStarting (s : Server) : Prop :=
  ∀ ⦃t op nb r⦄, s.tasks t = some ⟨op, .creating nb r⟩ →
    (s.room r).state = .starting ∨ .stopping r ∈ s.events

theorem createdStarting_step (hs : ServerInv s) (hspares : s.sparesStarting l = true)
    (hstep : s.step l = some s') (hcreated : CreatedStarting s) : CreatedStarting s' := by
  have h := step_cases hstep
  intro t op nb r ht
  rcases creating_origin h ht with ⟨ht₀, hmover⟩ | ⟨-, -, now, hroom⟩
  · by_cases hstate : (s'.room r).state = (s.room r).state
    · rw [hstate]
      exact (hcreated ht₀).imp_right h.mem_events
    · right
      have hhides := (sparesStarting_iff hs.wellFormed).mp hspares t op nb r ht₀
      rcases state_step hs h ht₀ hhides hstate with hmover' | hstops
      · exact absurd hmover' hmover
      · exact stop_recorded hs.stopsRecorded h hstops hstate
  · left
    rw [hroom]
    rfl

/-- A starting runtime looks like it is starting in exactly the steps that neither end a
`get_runtime_status` for its notebook nor look the notebook up; in a run of such steps it is
`STARTING` until it is stopped. -/
theorem starting_room_looks_starting {ttl : Time} {maxCompleted : Int} {alive : KernelId → Bool}
    {kernelspec : NotebookId → Option String} :
    (∀ s l s', ServerRun anyStep (boot ttl maxCompleted alive kernelspec) s →
      s.step l = some s' → (ShowsStarting s l s' ↔ s.sparesStarting l = true)) ∧
    ∀ s, ServerRun (fun s l => s.sparesStarting l = true)
        (boot ttl maxCompleted alive kernelspec) s →
      ∀ t op nb r, s.tasks t = some ⟨op, .creating nb r⟩ →
        (s.room r).state = .starting ∨ .stopping r ∈ s.events := by
  constructor
  · intro s l s' hrun hstep
    exact showsStarting_iff (serverInv_run hrun) (startingInv_run hrun) hstep
  · intro s hrun t op nb r ht
    have hcreated : CreatedStarting s := by
      refine hrun.invariant_of (fun _ hu => serverInv_run hu) ?_ ?_
      · intro _ _ _ _ ht
        cases ht
      · intro _ _ _ hs _ hcreated hspares hstep
        exact createdStarting_step hs hspares hstep hcreated
    exact hcreated ht

section Schedules

/-- `ensure_room`, up to the await of `create_session` for the first room. -/
private def roomStarting : List Label :=
  [.call (.ensureRoom "nb" none), .proceed (.quiet 0), .proceed (.quiet 0),
    .resume 0 (.raised (.http 404 "")) (.quiet 0), .proceed (.quiet 0), .proceed (.quiet 0)]

/-- The status of another notebook, up to its report. -/
private def otherStatus : List Label :=
  [.call (.getRuntimeStatus "other"), .proceed (.quiet 1), .proceed (.quiet 1),
    .resume 1 (.raised (.http 404 "")) (.quiet 1)]

theorem starting_room_shown :
    ∃ s s' : Server, s.tasks 0 = some ⟨.ensureRoom "nb" none, .creating "nb" 0⟩ ∧
      (s.room 0).state = .starting ∧ s.step (.proceed (.quiet 1)) = some s' ∧
      s'.tasks 1 = some ⟨.getRuntimeStatus "other", .done (.status NotebookRoom.statusOfNone)⟩ ∧
      ShowsStarting s (.proceed (.quiet 1)) s' := by
  obtain ⟨s, hrun, ht, hstop, hspares, hexec⟩ :=
    (boot 10 20 (fun _ => false) fun _ => none).exists_guarded_run sparesStarting
      (roomStarting ++ otherStatus)
      (fun s => s.tasks 0 = some ⟨.ensureRoom "nb" none, .creating "nb" 0⟩ ∧
        .stopping 0 ∉ s.events ∧ s.sparesStarting (.proceed (.quiet 1)) = true ∧
        (s.step (.proceed (.quiet 1))).any fun s' => s'.tasks 1 =
          some ⟨.getRuntimeStatus "other", .done (.status NotebookRoom.statusOfNone)⟩)
      (by decide) (by decide)
  obtain ⟨s', hstep, hdone⟩ := (Option.any_eq_true _ _).mp hexec
  refine ⟨s, s', ht, ?_, hstep, of_decide_eq_true hdone, ?_⟩
  · exact (starting_room_looks_starting.2 s hrun _ _ _ _ ht).resolve_right hstop
  · exact (starting_room_looks_starting.1 s _ s' hrun.weaken hstep).mpr hspares

/-- A status query that comes while `create_session` is awaited stops the starting room, and
reports it as stopped. -/
theorem starting_room_stopped_by_status :
    ∃ s u s' : Server, ServerRun anyStep (boot 10 20 (fun _ => false) fun _ => none) s ∧
      s.tasks 0 = some ⟨.ensureRoom "nb" none, .creating "nb" 0⟩ ∧
      (s.room 0).state = .starting ∧ s.step (.proceed (.quiet 1)) = some u ∧
      ¬ShowsStarting s (.proceed (.quiet 1)) u ∧ (u.room 0).state = .stopped ∧
      u.step (.proceed (.quiet 1)) = some s' ∧ ¬ShowsStarting u (.proceed (.quiet 1)) s' := by
  obtain ⟨s, hrun, ht, hstate, hmover, hstops, hexec⟩ :=
    (boot 10 20 (fun _ => false) fun _ => none).exists_run
      (roomStarting ++ [.call (.getRuntimeStatus "nb"), .proceed (.quiet 1)])
      (fun s => s.tasks 0 = some ⟨.ensureRoom "nb" none, .creating "nb" 0⟩ ∧
        (s.room 0).state = .starting ∧ s.mover (.proceed (.quiet 1)) ≠ some 0 ∧
        s.stopMoves 0 (.proceed (.quiet 1)) = false ∧
        (s.step (.proceed (.quiet 1))).any fun u => (u.room 0).state = .stopped ∧
          u.tasks 0 = some ⟨.ensureRoom "nb" none, .creating "nb" 0⟩ ∧
          u.mover (.proceed (.quiet 1)) = some 1 ∧
          (u.step (.proceed (.quiet 1))).any fun s' => s'.tasks 1 =
            some ⟨.getRuntimeStatus "nb", .done (.status (NotebookRoom.statusOf 0 (u.room 0)))⟩)
      (by decide)
  obtain ⟨u, hstep, hexec⟩ := (Option.any_eq_true _ _).mp hexec
  obtain ⟨hstopped, ht', hmover', hexec⟩ := of_decide_eq_true hexec
  obtain ⟨s', hstep', hdone⟩ := (Option.any_eq_true _ _).mp hexec
  refine ⟨s, u, s', hrun, ht, hstate, hstep, ?_, hstopped, hstep', ?_⟩
  · intro hshows
    rcases (hshows ht).kept (by rw [hstopped, hstate]; decide) with hmoved | hmoved
    · exact hmover hmoved
    · rw [hstops] at hmoved
      cases hmoved
  · intro hshows
    obtain ⟨_, heq, hreported, -⟩ := (hshows ht').reported hmover' (of_decide_eq_true hdone)
    cases heq
    rw [NotebookRoom.statusOf, hstopped] at hreported
    cases hreported

end Schedules

end Server

end Hypernote
