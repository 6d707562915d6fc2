import Hypernote.Proofs.Registry
/-!
# One kernel for concurrent first calls

`ensure_room` looks the notebook up, awaits `get_session`, registers a room without a
kernel and awaits `create_session`.  A second call that looks the notebook up between
the first await and the end of the second finds no room, or a room it takes for dead,
and starts another kernel.  Here it is shown that nothing else does: when no call
looks the notebook up while another is at one of the two awaits, and no status query
adopts the session made in the meantime, there is one call of `create_session` and
every caller gets its room.
-/

namespace Hypernote

open Foundation

/-- A call of `create_session` for the notebook. -/
def Event.creates (nb : NotebookId) : Event → Bool
  | .createSession _ nb' _ _ _ => nb' = nb
  | _ => false

theorem Event.not_creates {nb : NotebookId} {e : Event} (h : e.isControl = true) :
    e.creates nb = false := by
  cases e <;> first | rfl | cases h

/-- The notebook of a direct call of `ensure_room` or `open_runtime`. -/
def Op.opensNotebook : Op → Option NotebookId
  | .ensureRoom nb _ | .openRuntime nb _ _ => some nb
  | _ => none

/-- The points of a call that has found no room to use and has not registered its own. -/
def Pc.seeks (nb : NotebookId) : Pc → Bool
  | .loading nb' _ | .loaded nb' _ none | .startRoom nb' _ => nb' = nb
  | _ => false

theorem Pc.seeks_of_isJob {pc : Pc} {nb : NotebookId} (h : pc.isJob = true) : pc.seeks nb = false := by
  cases pc <;> first | rfl | cases h

theorem Pc.seeks_of_isStop {pc : Pc} {nb : NotebookId} (h : pc.isStop = true) :
    pc.seeks nb = false := by
  cases pc <;> first | rfl | cases h

namespace Server

/-- How often `create_session` was called for the notebook. -/
def created (nb : NotebookId) (s : Server) : Nat := s.events.countP (Event.creates nb)

/-- The setting: `get_session` answers with a session only when one has been asked for and
otherwise raises an `HTTPError`, `create_session` succeeds, no caller names another kernel
than the one that runs, and nothing stops the notebook's rooms or kills their kernels. -/
def undisturbed (nb : NotebookId) (s : Server) (l : Label) : Bool :=
  match s.moving l, l with
  | some ⟨_, .loading nb' _⟩, .resume _ (.session _) _ => nb' ≠ nb || 0 < s.created nb
  | some ⟨_, .loading nb' _⟩, .resume _ (.raised error) _ => nb' ≠ nb || error.isHttp
  | some ⟨_, .creating nb' _⟩, .resume _ (.raised _) _ => nb' ≠ nb
  | some ⟨_, .loaded nb' choice (some r)⟩, _ =>
      nb' ≠ nb || !s.kernelMismatch r choice.kernelName
  | some ⟨_, .stopRoom r _ _⟩, _ => r ∉ s.mgr.rooms || (s.room r).notebookId ≠ nb
  | none, .outside (.kernelDied k) =>
      s.mgr.rooms.all fun r => (s.room r).notebookId ≠ nb || (s.room r).kernelId ≠ some k
  | _, _ => true

/-- A call is at an await of `ensure_room` for the notebook. -/
def ensuring (nb : NotebookId) (s : Server) : Bool :=
  (List.range s.nextTask).any fun t =>
    match s.tasks t with
    | some ⟨op, .loading nb' _⟩ => nb' = nb && !op.isStatus
    | some ⟨_, .creating nb' _⟩ => nb' = nb
    | _ => false

/-- No call of `ensure_room` looks the notebook up while another is at one of its awaits,
and no `get_session` is answered with a session once the notebook has a room. -/
def oneAtATime (nb : NotebookId) (s : Server) (l : Label) : Bool :=
  match s.moving l, l with
  | some ⟨op, .loadRoom nb' _⟩, _ => nb' ≠ nb || op.isStatus || !s.ensuring nb
  | some ⟨_, .loading nb' _⟩, .resume _ (.session _) _ =>
      nb' ≠ nb || s.mgr.roomForNotebook nb = none
  | _, _ => true

/-- A task that seeks a room for the notebook, to create one if need be. -/
def Seeks (nb : NotebookId) (s : Server) (t : TaskId) : Prop :=
  ∃ op pc, s.tasks t = some ⟨op, pc⟩ ∧ pc.seeks nb = true ∧ op.isStatus = false

/-- Some call awaits `create_session` for the room. -/
def Creating (nb : NotebookId) (s : Server) (r : RoomId) : Prop :=
  ∃ t op, s.tasks t = some ⟨op, .creating nb r⟩

/-- Before the first call of `create_session`, and after it. -/
inductive Phase (nb : NotebookId) (s : Server) : Prop
  | absent (hcreated : s.created nb = 0) (hentry : s.mgr.notebookToRoom nb = none)
      (halone : ∀ t t', Seeks nb s t → Seeks nb s t' → t = t')
  | present {r} (hcreated : s.created nb = 1) (hentry : s.mgr.roomForNotebook nb = some r)
      (hseeks : ∀ t, ¬Seeks nb s t) (hroom : Creating nb s r ∨ ∃ k, Held s nb r k)

structure Flight (nb : NotebookId) (s : Server) : Prop where
  registry : RegistryInv nb s
  stops : ∀ r, .stopping r ∈ s.events → r < s.mgr.nextRoomId ∧ (s.room r).notebookId ≠ nb
  phase : Phase nb s
  found : ∀ t op choice r, s.tasks t = some ⟨op, .loaded nb choice (some r)⟩ →
    op.isStatus = false → ∃ k, Held s nb r k
  returned : ∀ t op outcome, s.tasks t = some ⟨op, .done outcome⟩ → op.opensNotebook = some nb →
    ∃ r k, outcome = .room r ∧ Held s nb r k

variable {s s' : Server} {l : Label} {t : TaskId} {op : Op} {pc : Pc} {n : Next}
  {r : RoomId} {nb : NotebookId} {k : KernelId}

/-! ## The moves of a call of `ensure_room` -/

theorem TaskStep.seeks (h : TaskStep s t op l pc n) (hpc : n.pc.seeks nb = true)
    (hop : op.isStatus = false) :
    pc.seeks nb = true ∨
      (∃ choice, pc = .loadRoom nb choice ∧ s.mgr.roomForNotebook nb = none) ∨
      ∃ choice r, pc = .loaded nb choice (some r) ∧ (s.room r).isLive = false := by
  cases h with
  | call h => cases h <;> cases hpc
  | ensure h =>
      cases h with
      | @absent o nb' choice habsent =>
          have hname : nb' = nb := by simpa [Pc.seeks] using hpc
          subst hname
          exact .inr (.inl ⟨choice, rfl, habsent⟩)
      | missing => exact .inl hpc
      | @dead o nb' choice existing _ hdead =>
          have hname : nb' = nb := by simpa [Pc.seeks] using hpc
          subst hname
          cases existing with
          | none => exact .inl hpc
          | some r => exact .inr (.inr ⟨choice, r, rfl, hdead r rfl⟩)
      | _ => cases hpc
  | stop h =>
      rcases h.stays with hstop | ⟨_, hdone⟩
      · rw [Pc.seeks_of_isStop hstop] at hpc
        cases hpc
      · rw [hdone] at hpc
        cases hpc
  | job h =>
      rcases h.stays with hpc' | ⟨_, hpc'⟩
      · rw [Pc.seeks_of_isJob hpc'] at hpc
        cases hpc
      · rw [hpc'] at hpc
        cases hpc

theorem TaskStep.of_startRoom {choice : KernelChoice}
    (h : TaskStep s t op l (.startRoom nb choice) n) : ∃ o, n = s.startRoom op o nb choice := by
  cases h.ensureStep rfl with
  | created => exact ⟨_, rfl⟩

theorem TaskStep.of_creating (h : TaskStep s t op l (.creating nb r) n) :
    n.pc = .ensured nb r ∨ ∃ error o, l = .resume t (.raised error) o := by
  cases h.ensureStep rfl with
  | started => exact .inl rfl
  | createFailed => exact .inr ⟨_, _, rfl⟩

theorem TaskStep.to_loaded {choice : KernelChoice} (h : TaskStep s t op l pc n)
    (hpc : n.pc = .loaded nb choice (some r)) :
    pc = .loadRoom nb choice ∧ s.mgr.roomForNotebook nb = some r ∨
      pc = .loading nb choice ∧ ∃ session o, l = .resume t (.session session) o := by
  cases h with
  | call h => cases h <;> cases hpc
  | ensure h =>
      cases h with
      | found hfound =>
          cases hpc
          exact .inl ⟨rfl, hfound⟩
      | adopted =>
          cases hpc
          exact .inr ⟨rfl, _, _, rfl⟩
      | _ => cases hpc
  | stop h =>
      rcases h.stays with hpc' | ⟨_, hpc'⟩ <;> rw [hpc] at hpc' <;> cases hpc'
  | job h =>
      rcases h.stays with hpc' | ⟨_, hpc'⟩ <;> rw [hpc] at hpc' <;> cases hpc'

/-- How a direct call of `ensure_room` or `open_runtime` ends. -/
theorem TaskStep.opened {outcome : Outcome} (h : TaskStep s t op l pc n) (hadmits : op.admits pc)
    (hpc : n.pc = .done outcome) (hop : op.opensNotebook = some nb) :
    (∃ r, pc = .ensured nb r ∧ outcome = .room r) ∨
      (∃ choice error o, pc = .loading nb choice ∧ l = .resume t (.raised error) o ∧
        error.isHttp = false) ∨
      (∃ choice r, pc = .loaded nb choice (some r) ∧ s.kernelMismatch r choice.kernelName = true) ∨
      ∃ r error o, pc = .creating nb r ∧ l = .resume t (.raised error) o := by
  have hname : ∀ {nb' choice}, op.ensures nb' choice → nb' = nb := by
    intro nb' choice h
    cases op <;> simp_all [Op.opensNotebook, Op.ensures, Op.loads, Op.resolves]
  cases h with
  | call h =>
      cases h with
      | refused hloads => cases op <;> cases hop <;> cases hloads
      | ensured =>
          obtain ⟨⟨choice, hensures⟩, -⟩ := hadmits
          cases hpc
          cases hname hensures
          exact .inl ⟨_, rfl, rfl⟩
      | opened =>
          obtain ⟨⟨choice, hensures⟩, -⟩ := hadmits
          cases hpc
          cases hname hensures
          exact .inl ⟨_, rfl, rfl⟩
      | interruptedNative =>
          obtain ⟨k, rfl⟩ := hadmits
          cases hop
      | raised hpc' =>
          rcases hpc' with rfl | ⟨_, _, rfl⟩ | ⟨room, rfl⟩ | rfl
          · obtain ⟨nb', name, hresolves⟩ := hadmits
            cases op <;> cases hop <;> cases hresolves
          · obtain ⟨⟨jobId, value, actor, rfl⟩, -⟩ := hadmits
            cases hop
          · cases room with
            | none =>
                obtain ⟨k, rfl⟩ := hadmits
                cases hop
            | some r =>
                obtain ⟨nb', actor, rfl⟩ := hadmits
                cases hop
          · obtain ⟨k, rfl⟩ := hadmits
            cases hop
      | _ => first | cases hop | cases hpc
  | ensure h =>
      cases h with
      | loadFailed herror =>
          cases hname hadmits
          exact .inr (.inl ⟨_, _, _, rfl, rfl, herror⟩)
      | status hstatus => cases op <;> cases hop <;> cases hstatus
      | mismatch _ _ hmatch =>
          cases hname hadmits
          exact .inr (.inr (.inl ⟨_, _, rfl, hmatch⟩))
      | createFailed =>
          obtain ⟨⟨choice, hensures⟩, -⟩ := hadmits
          cases hname hensures
          exact .inr (.inr (.inr ⟨_, _, _, rfl, rfl⟩))
      | _ => cases hpc
  | stop h =>
      have hstops : ∀ rest, ¬op.stopsRooms rest := by
        rintro rest (rfl | rfl | ⟨⟨_, rfl⟩ | ⟨_, rfl⟩, -⟩) <;> cases hop
      cases h with
      | next => cases hpc
      | swept => rcases hadmits with rfl | rfl <;> cases hop
      | _ => exact absurd hadmits (hstops _)
  | job h => cases hop

/-! ## What the guards exclude -/

theorem Seeks.ensuring (hw : WellFormed s) (hs : Seeks nb s t) (hrun : s.running ≠ some t) :
    s.ensuring nb = true := by
  obtain ⟨op, pc, ht, hpc, hop⟩ := hs
  simp only [Server.ensuring, List.any_eq_true, List.mem_range]
  refine ⟨t, hw.lt_nextTask ht, ?_⟩
  cases pc with
  | loading nb' choice =>
      have hname : nb' = nb := by simpa [Pc.seeks] using hpc
      simp [ht, hname, hop]
  | loaded => exact absurd (hw.control ht rfl) hrun
  | startRoom => exact absurd (hw.control ht rfl) hrun
  | _ => cases hpc

theorem Creating.ensuring (hw : WellFormed s) (hs : Creating nb s r) : s.ensuring nb = true := by
  obtain ⟨t, op, ht⟩ := hs
  simp only [Server.ensuring, List.any_eq_true, List.mem_range]
  exact ⟨t, hw.lt_nextTask ht, by simp [ht]⟩

theorem held_of_returned (hs : RegistryInv nb s) (ht : s.tasks t = some ⟨op, .ensured nb r⟩)
    (hstop : .stopping r ∉ s.events) : ∃ k, Held s nb r k := by
  have hlive := hs.returnsLive.returned ht
  simp only [liveRoom, Bool.and_eq_true, RuntimeManager.kernelIsAlive, Option.any_eq_true] at hlive
  obtain ⟨-, k, hk, -⟩ := hlive
  exact ⟨k, held_of_ensured hs ht hk hstop⟩

namespace Flight

/-- No room of the notebook is stopped. -/
theorem not_stopping (hs : Flight nb s) (hname : (s.room r).notebookId = nb) :
    .stopping r ∉ s.events :=
  fun hmem => (hs.stops r hmem).2 hname

theorem notebookId (hs : Flight nb s) (hentry : s.mgr.roomForNotebook nb = some r) :
    (s.room r).notebookId = nb :=
  (hs.registry.wellFormed.mapped (RuntimeManager.roomForNotebook_eq_some.mp hentry).1).2

/-- A task that can build a room for the notebook does so before the first. -/
theorem absent_of_seeks (hs : Flight nb s) (hseeks : Seeks nb s t) :
    s.created nb = 0 ∧ s.mgr.notebookToRoom nb = none ∧ ∀ t', Seeks nb s t' → t' = t := by
  cases hs.phase with
  | absent hcreated hentry halone =>
      exact ⟨hcreated, hentry, fun t' ht' => halone t' t ht' hseeks⟩
  | present _ _ hnone => exact absurd hseeks (hnone t)

theorem startRoom_seeks (hs : Flight nb s) {choice : KernelChoice}
    (ht : s.tasks t = some ⟨op, .startRoom nb choice⟩) : Seeks nb s t :=
  ⟨op, _, ht, by simp [Pc.seeks], (hs.registry.wellFormed.admits ht).2⟩

/-- No session is adopted for the notebook. -/
theorem not_adopted (hs : Flight nb s) {choice : KernelChoice} {session : Session} {o : Oracle}
    (hl : l = .resume t (.session session) o)
    (hundisturbed : s.undisturbed nb l = true) (hone : s.oneAtATime nb l = true) :
    s.moving l ≠ some ⟨op, .loading nb choice⟩ := by
  intro hmoving
  subst hl
  simp only [undisturbed, hmoving] at hundisturbed
  simp only [oneAtATime, hmoving] at hone
  cases hs.phase with
  | absent hcreated => simp [hcreated] at hundisturbed
  | present _ hentry => simp [hentry] at hone

theorem keepsEntry (hs : Flight nb s) (hundisturbed : s.undisturbed nb l = true)
    (hone : s.oneAtATime nb l = true) : s.keepsEntry nb l = true := by
  unfold Server.keepsEntry
  split
  · rename_i l' op nb' choice hmoving
    obtain ⟨t, -, ht⟩ := Option.bind_eq_some_iff.mp hmoving
    by_cases hname : nb' = nb
    · subst hname
      obtain ⟨-, hentry, -⟩ := hs.absent_of_seeks (hs.startRoom_seeks ht)
      simp [entryFree, hentry]
    · simp [hname]
  · rename_i op nb' choice t session o hmoving
    by_cases hname : nb' = nb
    · subst hname
      exact absurd hmoving (hs.not_adopted rfl hundisturbed hone)
    · simp [hname]
  · rename_i l' op r rest stopped pending hmoving
    obtain ⟨t, -, ht⟩ := Option.bind_eq_some_iff.mp hmoving
    have hname := (hs.stops r (hs.registry.stopsRecorded ht rfl)).2
    simp [hname]
  · rfl

/-! ## One step -/

theorem stops_step (hs : Flight nb s) (h : StepCase s l s')
    (hundisturbed : s.undisturbed nb l = true) (hstop : .stopping r ∈ s'.events) :
    r < s'.mgr.nextRoomId ∧ (s'.room r).notebookId ≠ nb := by
  suffices hold : r < s.mgr.nextRoomId ∧ (s.room r).notebookId ≠ nb from
    ⟨hold.1.trans_le (nextRoomId_le h), by rw [room_notebookId h hold.1]; exact hold.2⟩
  obtain ⟨es, hes, hcase⟩ := h.events
  rw [hes] at hstop
  clear hes
  rcases List.mem_append.mp hstop with hstop | hstop
  · exact hs.stops r hstop
  rcases hcase with hcontrol | ⟨t, op, pc, n, ht, -, -, hmover, hevents⟩
  · cases hcontrol _ hstop
  cases hevents with
  | @stopping r' rest stopped es hpc hr hes =>
      have heq : r' = r := by
        rcases hes with rfl | ⟨_, rfl⟩ | ⟨_, rfl⟩ <;> simpa [eq_comm] using hstop
      subst hpc heq
      refine ⟨hs.registry.wellFormed.registered r' hr, ?_⟩
      simpa [undisturbed, moving_eq hmover ht, hr] using hundisturbed
  | control hes => cases hes _ hstop
  | _ => simp at hstop

theorem not_stopping_step (hs : Flight nb s) (h : StepCase s l s')
    (hundisturbed : s.undisturbed nb l = true) (hentry : s.mgr.roomForNotebook nb = some r) :
    .stopping r ∉ s'.events := by
  intro hmem
  have hlt := hs.registry.wellFormed.registered r
    (RuntimeManager.roomForNotebook_eq_some.mp hentry).2
  exact (hs.stops_step h hundisturbed hmem).2
    ((room_notebookId h hlt).trans (hs.notebookId hentry))

/-- Nobody takes a held room from its callers. -/
theorem held_step (hs : Flight nb s) (hundisturbed : s.undisturbed nb l = true)
    (hone : s.oneAtATime nb l = true) (hstep : s.step l = some s') (hheld : Held s nb r k) :
    Held s' nb r k := by
  have h := step_cases hstep
  refine Server.held_step hs.registry h (hs.keepsEntry hundisturbed hone) ?_
    (hs.not_stopping_step h hundisturbed hheld.entry) hheld
  unfold sparesKernel
  split
  · rename_i l k'
    have hr := (RuntimeManager.roomForNotebook_eq_some.mp hheld.entry).2
    have hspared := List.all_eq_true.mp hundisturbed r hr
    rcases Bool.or_eq_true_iff.mp hspared with hname | hk
    · exact absurd (hs.notebookId hheld.entry) (of_decide_eq_true hname)
    · rw [hheld.kernelId] at hk
      have hne : some k ≠ some k' := of_decide_eq_true hk
      exact decide_eq_true fun heq => hne (congrArg some heq.symm)
  · rfl

/-- `create_session` is called for the notebook by the call that seeks a room. -/
theorem created_step (h : StepCase s l s') :
    s'.created nb = s.created nb ∨
      s'.created nb = s.created nb + 1 ∧
        ∃ t op choice, s.mover l = some t ∧ s.tasks t = some ⟨op, .startRoom nb choice⟩ := by
  obtain ⟨es, hes, hcase⟩ := h.events
  have hcount : s'.created nb = s.created nb + es.countP (Event.creates nb) := by
    rw [created, hes, List.countP_append, created]
  rw [hcount]
  clear hes hcount
  have hnone : (∀ e ∈ es, e.isControl = true) → es.countP (Event.creates nb) = 0 :=
    fun hcontrol => List.countP_eq_zero.mpr fun e he => by simp [Event.not_creates (hcontrol e he)]
  rcases hcase with hcontrol | ⟨t, op, pc, n, ht, -, -, hmover, hevents⟩
  · exact .inl (by rw [hnone hcontrol, Nat.add_zero])
  · cases hevents with
    | @created nb' choice o hl hpc =>
        subst hpc
        by_cases hname : nb' = nb
        · subst hname
          exact .inr ⟨by simp [Event.creates], t, op, choice, hmover, ht⟩
        · exact .inl (by simp [Event.creates, hname])
    | stopping _ _ hes =>
        rcases hes with rfl | ⟨_, rfl⟩ | ⟨_, rfl⟩ <;> exact .inl (by simp [Event.creates])
    | control hes => exact .inl (by rw [hnone hes, Nat.add_zero])
    | _ => exact .inl (by simp [Event.creates])

theorem seeks_step (hs : Flight nb s) (h : StepCase s l s') (hseeks : Seeks nb s' t) :
    Seeks nb s t ∨ s.mgr.roomForNotebook nb = none ∧ s.mover l = some t ∧
      ∃ op choice, op.isStatus = false ∧ s.tasks t = some ⟨op, .loadRoom nb choice⟩ := by
  obtain ⟨op, pc, ht, hpc, hop⟩ := hseeks
  cases task_origin h ht with
  | kept ht₀ => exact .inl ⟨op, pc, ht₀, hpc, hop⟩
  | moved ht₀ hmove heq hmover =>
      rcases hmove.seeks hpc hop with hpc | ⟨choice, rfl, hnone⟩ | ⟨choice, r, rfl, hdead⟩
      · exact .inl ⟨op, _, ht₀, hpc, hop⟩
      · exact .inr ⟨hnone, hmover, op, choice, hop, ht₀⟩
      · obtain ⟨k, hheld⟩ := hs.found t op choice r ht₀ hop
        rw [hheld.live] at hdead
        cases hdead
  | called => cases hpc
  | spawned => cases hpc

theorem ensured (hs : Flight nb s) (ht : s.tasks t = some ⟨op, .ensured nb r⟩) :
    ∃ k, Held s nb r k :=
  held_of_returned hs.registry ht (hs.not_stopping (hs.registry.wellFormed.named ht rfl))

/-- The first call of `create_session` ends the first phase. -/
theorem present_of_startRoom (hs : Flight nb s) (h : StepCase s l s') {choice : KernelChoice}
    (ht : s.tasks t = some ⟨op, .startRoom nb choice⟩) (hmover : s.mover l = some t) :
    Phase nb s' := by
  have hw := hs.registry.wellFormed
  obtain ⟨hcreated, -, halone⟩ := hs.absent_of_seeks (hs.startRoom_seeks ht)
  rcases hw.task_next h ht with ⟨-, hkept⟩ | ⟨n, hmove, heq, -⟩
  · exact absurd hmover hkept
  have hseeks : ∀ t', ¬Seeks nb s' t' := by
    intro t' hseeks
    rcases hs.seeks_step h hseeks with hold | ⟨-, hmover', op', choice', -, ht'⟩
    · cases halone t' hold
      obtain ⟨op', pc', ht', hpc, -⟩ := hseeks
      obtain ⟨o, rfl⟩ := hmove.of_startRoom
      rw [heq, commit_tasks, if_pos rfl] at ht'
      cases ht'
      cases hpc
    · cases Option.some.inj (hmover.symm.trans hmover')
      rw [ht] at ht'
      cases ht'
  obtain ⟨o, rfl⟩ := hmove.of_startRoom
  subst heq
  refine .present (r := s.mgr.nextRoomId) ?_ ?_ hseeks (.inl ⟨t, op, ?_⟩)
  · rw [created] at hcreated ⊢
    simp [Next.commit, startRoom, park, record, hcreated, Event.creates]
  · rw [RuntimeManager.roomForNotebook_eq_some]
    exact ⟨by simp [Next.commit, startRoom, park, record, RuntimeManager.register,
      NotebookRoom.fresh], List.mem_append_right _ (List.mem_singleton_self _)⟩
  · rw [commit_tasks, if_pos rfl]
    rfl

/-- Nothing else registers a room for the notebook. -/
theorem entry_none_step (hs : Flight nb s) (h : StepCase s l s')
    (hundisturbed : s.undisturbed nb l = true) (hone : s.oneAtATime nb l = true)
    (hstart : ∀ t op choice, s.mover l = some t → s.tasks t ≠ some ⟨op, .startRoom nb choice⟩)
    (hentry : s.mgr.notebookToRoom nb = none) : s'.mgr.notebookToRoom nb = none := by
  rcases h.mgr with hmgr | ⟨t, op, pc, n, ht, hmove, rfl, hmover⟩
  · rw [hmgr]
    exact hentry
  · change n.state.mgr.notebookToRoom nb = none
    cases hmove.registry with
    | kept h => rw [h.notebookToRoom, hentry]
    | @created nb' choice now n hmgr =>
        have hne : nb ≠ nb' := by
          rintro rfl
          exact hstart t op choice hmover ht
        rw [hmgr]
        simpa [RuntimeManager.register, NotebookRoom.fresh, hne] using hentry
    | @adopted nb' choice session now t' o n hl hmgr =>
        have hne : nb ≠ nb' := by
          rintro rfl
          exact hs.not_adopted hl hundisturbed hone (moving_eq hmover ht)
        rw [hmgr]
        simpa [RuntimeManager.register, NotebookRoom.adopted, NotebookRoom.fresh, hne] using hentry
    | unregistered hmgr =>
        rw [hmgr]
        simp only [RuntimeManager.unregister, RuntimeManager.modify, Function.update_apply, hentry,
          ite_self]

/-- A call that looks the notebook up finds no other that seeks a room for it. -/
theorem alone_step (hs : Flight nb s) (h : StepCase s l s') (hone : s.oneAtATime nb l = true)
    (halone : ∀ t t', Seeks nb s t → Seeks nb s t' → t = t') {t t' : TaskId}
    (ht : Seeks nb s' t) (ht' : Seeks nb s' t') : t = t' := by
  have hw := hs.registry.wellFormed
  have hnew : ∀ {t t' op choice}, s.mover l = some t →
      s.tasks t = some ⟨op, .loadRoom nb choice⟩ → op.isStatus = false → Seeks nb s t' → t = t' := by
    intro t t' op choice hmover ht hop hseeks
    by_contra hne
    have hrun : s.running ≠ some t' := by
      rw [hw.control ht rfl]
      exact fun heq => hne (Option.some.inj heq)
    simp [oneAtATime, moving_eq hmover ht, hop, hseeks.ensuring hw hrun] at hone
  rcases hs.seeks_step h ht with hold | ⟨-, hmover, op, choice, hop, hload⟩ <;>
    rcases hs.seeks_step h ht' with hold' | ⟨-, hmover', op', choice', hop', hload'⟩
  · exact halone t t' hold hold'
  · exact (hnew hmover' hload' hop' hold).symm
  · exact hnew hmover hload hop hold'
  · exact Option.some.inj (hmover.symm.trans hmover')

/-- The call that creates the room goes on to return it. -/
theorem creating_step (hs : Flight nb s) (hundisturbed : s.undisturbed nb l = true)
    (hone : s.oneAtATime nb l = true) (hstep : s.step l = some s')
    (hstop : .stopping r ∉ s'.events) (ht : s.tasks t = some ⟨op, .creating nb r⟩) :
    Creating nb s' r ∨ ∃ k, Held s' nb r k := by
  have hw := hs.registry.wellFormed
  have hs' := registryInv_step hs.registry (hs.keepsEntry hundisturbed hone) hstep
  rcases hw.task_next (step_cases hstep) ht with ⟨ht', -⟩ | ⟨n, hmove, heq, hmover⟩
  · exact .inl ⟨t, op, ht'⟩
  rcases hmove.of_creating with hpc | ⟨error, o, rfl⟩
  · right
    have ht' : s'.tasks t = some ⟨op, .ensured nb r⟩ := by
      rw [heq, commit_tasks, if_pos rfl, hpc]
    exact held_of_returned hs' ht' hstop
  · simp [undisturbed, moving_eq hmover ht] at hundisturbed

theorem phase_step (hs : Flight nb s) (hundisturbed : s.undisturbed nb l = true)
    (hone : s.oneAtATime nb l = true) (hstep : s.step l = some s') : Phase nb s' := by
  have h := step_cases hstep
  by_cases hstart : ∃ t op choice, s.mover l = some t ∧ s.tasks t = some ⟨op, .startRoom nb choice⟩
  · obtain ⟨t, op, choice, hmover, ht⟩ := hstart
    exact hs.present_of_startRoom h ht hmover
  have hcreated : s'.created nb = s.created nb := by
    rcases created_step h with hsame | ⟨-, hnew⟩
    · exact hsame
    · exact absurd hnew hstart
  simp only [not_exists, not_and] at hstart
  cases hs.phase with
  | absent hnone hentry halone =>
      exact .absent (hcreated.trans hnone) (hs.entry_none_step h hundisturbed hone hstart hentry)
        fun _ _ => hs.alone_step h hone halone
  | @present r hsome hentry hseeks hroom =>
      have hstop := hs.not_stopping_step h hundisturbed hentry
      have hseeks' : ∀ t, ¬Seeks nb s' t := by
        intro t ht
        rcases hs.seeks_step h ht with hold | ⟨hnone, -⟩
        · exact hseeks t hold
        · rw [hentry] at hnone
          cases hnone
      have huse : s.inUse r = true := by
        rcases hroom with ⟨t, op, ht⟩ | ⟨k, hheld⟩
        · have hr := (RuntimeManager.roomForNotebook_eq_some.mp hentry).2
          simp [inUse, hr, beingCreated_of_task hs.registry.wellFormed ht]
        · exact hheld.inUse
      have hentry' := entry_step hs.registry.stopsRecorded h (hs.keepsEntry hundisturbed hone)
        huse hentry (hs.not_stopping (hs.notebookId hentry))
      refine .present (hcreated.trans hsome) hentry' hseeks' ?_
      rcases hroom with ⟨t, op, ht⟩ | ⟨k, hheld⟩
      · exact hs.creating_step hundisturbed hone hstep hstop ht
      · exact .inr ⟨k, hs.held_step hundisturbed hone hstep hheld⟩

theorem found_step (hs : Flight nb s) (hundisturbed : s.undisturbed nb l = true)
    (hone : s.oneAtATime nb l = true) (hstep : s.step l = some s') {choice : KernelChoice}
    (ht : s'.tasks t = some ⟨op, .loaded nb choice (some r)⟩) (hop : op.isStatus = false) :
    ∃ k, Held s' nb r k := by
  have hw := hs.registry.wellFormed
  obtain ⟨_, n, ht₀, hmove, hpc, -, hmover⟩ := hw.moved_to (step_cases hstep) ht rfl
  have hmoving := moving_eq hmover ht₀
  rcases hmove.to_loaded hpc with ⟨rfl, hentry⟩ | ⟨rfl, session, o, hl⟩
  · cases hs.phase with
    | absent _ hnone =>
        rw [(RuntimeManager.roomForNotebook_eq_some.mp hentry).1] at hnone
        cases hnone
    | present _ hentry' _ hroom =>
        cases Option.some.inj (hentry.symm.trans hentry')
        rcases hroom with hcreating | ⟨k, hheld⟩
        · simp [oneAtATime, hmoving, hop, hcreating.ensuring hw] at hone
        · exact ⟨k, hs.held_step hundisturbed hone hstep hheld⟩
  · exact absurd hmoving (hs.not_adopted hl hundisturbed hone)

theorem returned_step (hs : Flight nb s) (hundisturbed : s.undisturbed nb l = true)
    (hone : s.oneAtATime nb l = true) (hstep : s.step l = some s') {outcome : Outcome}
    (ht : s'.tasks t = some ⟨op, .done outcome⟩) (hop : op.opensNotebook = some nb) :
    ∃ r k, outcome = .room r ∧ Held s' nb r k := by
  generalize hpc : Pc.done outcome = pc at ht
  cases task_origin (step_cases hstep) ht with
  | kept ht₀ =>
      subst hpc
      obtain ⟨r, k, rfl, hheld⟩ := hs.returned t op outcome ht₀ hop
      exact ⟨r, k, rfl, hs.held_step hundisturbed hone hstep hheld⟩
  | moved ht₀ hmove _ hmover =>
      have hmoving := moving_eq hmover ht₀
      rcases hmove.opened (hs.registry.wellFormed.admits ht₀) hpc.symm hop with
        ⟨r, rfl, rfl⟩ | ⟨choice, error, o, rfl, rfl, herror⟩ | ⟨choice, r, rfl, hmatch⟩ |
        ⟨r, error, o, rfl, rfl⟩
      · obtain ⟨k, hheld⟩ := hs.ensured ht₀
        exact ⟨r, k, rfl, hs.held_step hundisturbed hone hstep hheld⟩
      · simp [undisturbed, hmoving, herror] at hundisturbed
      · simp [undisturbed, hmoving, hmatch] at hundisturbed
      · simp [undisturbed, hmoving] at hundisturbed
  | called => cases hpc
  | spawned => cases hpc

theorem step (hs : Flight nb s) (hundisturbed : s.undisturbed nb l = true)
    (hone : s.oneAtATime nb l = true) (hstep : s.step l = some s') : Flight nb s' where
  registry := registryInv_step hs.registry (hs.keepsEntry hundisturbed hone) hstep
  stops _ := hs.stops_step (step_cases hstep) hundisturbed
  phase := hs.phase_step hundisturbed hone hstep
  found _ _ _ _ := hs.found_step hundisturbed hone hstep
  returned _ _ _ := hs.returned_step hundisturbed hone hstep

end Flight

theorem flight_boot {ttl : Time} {maxCompleted : Int} {alive : KernelId → Bool}
    {kernelspec : NotebookId → Option String} :
    Flight nb (boot ttl maxCompleted alive kernelspec) where
  registry := registryInv_run .refl
  stops _ h := by cases h
  phase := .absent rfl rfl fun _ _ ⟨_, _, ht, _⟩ => by cases ht
  found _ _ _ _ h := by cases h
  returned _ _ _ h := by cases h

/-- Where no call looks the notebook up while another waits inside `ensure_room`, and none
adopts the session of the room, `create_session` is called at most once for the notebook,
and every call that has ended returned the one room that is registered for it. -/
theorem ensure_room_single_flight {ttl : Time} {maxCompleted : Int} {alive : KernelId → Bool}
    {kernelspec : NotebookId → Option String}
    (h : ServerRun (fun s l => s.undisturbed nb l = true ∧ s.oneAtATime nb l = true)
      (boot ttl maxCompleted alive kernelspec) s) :
    s.created nb ≤ 1 ∧ ∀ t op outcome, s.tasks t = some ⟨op, .done outcome⟩ →
      op.opensNotebook = some nb →
        s.created nb = 1 ∧ ∃ r, s.mgr.roomForNotebook nb = some r ∧ outcome = .room r := by
  have hs : Flight nb s := h.invariant flight_boot
    fun _ _ _ hs ⟨hundisturbed, hone⟩ hstep => hs.step hundisturbed hone hstep
  constructor
  · cases hs.phase with
    | absent hnone => exact hnone ▸ Nat.zero_le 1
    | present hsome => exact hsome.le
  · intro t op outcome ht hop
    obtain ⟨r, k, rfl, hheld⟩ := hs.returned t op outcome ht hop
    refine ⟨?_, r, hheld.entry, rfl⟩
    cases hs.phase with
    | absent _ hentry =>
        rw [(RuntimeManager.roomForNotebook_eq_some.mp hheld.entry).1] at hentry
        cases hentry
    | present hsome => exact hsome

section Schedules

/-- The steps of a call that finds no room and no session, up to its await of `create_session`. -/
private def creatingRoom (t : TaskId) : List Label :=
  [.resume t (.raised (.http 404 "")) (.quiet 0), .proceed (.quiet 0), .proceed (.quiet 0)]

/-- The steps of a call up to its await of `get_session`. -/
private def lookingUp : List Label :=
  [.call (.ensureRoom "nb" none), .proceed (.quiet 0), .proceed (.quiet 0)]

/-- The return of `create_session` to the call, and of the call. -/
private def returning (t : TaskId) (kernelId : KernelId) : List Label :=
  [.resume t (.session ⟨"session", kernelId, some "python3"⟩) (.quiet 0), .proceed (.quiet 0)]

theorem second_call_finds_room :
    ∃ s : Server, s.created "nb" = 1 ∧
      s.tasks 0 = some ⟨.ensureRoom "nb" none, .done (.room 0)⟩ ∧
      s.tasks 1 = some ⟨.ensureRoom "nb" none, .done (.room 0)⟩ := by
  obtain ⟨s, hrun, ht, ht'⟩ := (boot 10 20 (fun _ => false) fun _ => none).exists_guarded_run
    (fun s l => s.undisturbed "nb" l && s.oneAtATime "nb" l)
    (lookingUp ++ creatingRoom 0 ++ returning 0 "kernel" ++ lookingUp ++
      [.proceed (.quiet 0), .proceed (.quiet 0)])
    (fun s => s.tasks 0 = some ⟨.ensureRoom "nb" none, .done (.room 0)⟩ ∧
      s.tasks 1 = some ⟨.ensureRoom "nb" none, .done (.room 0)⟩)
    (by decide) (by decide)
  have hflight := ensure_room_single_flight (hrun.mono fun _ _ h => by simpa using h)
  exact ⟨s, (hflight.2 0 _ _ ht rfl).1, ht, ht'⟩

/-- Two calls that wait for `get_session` at the same time start two kernels and return
two rooms. -/
theorem concurrent_calls_start_two_kernels :
    ∃ s : Server, ServerRun (fun s l => s.undisturbed "nb" l = true)
        (boot 10 20 (fun _ => false) fun _ => none) s ∧ s.created "nb" = 2 ∧
      s.tasks 0 = some ⟨.ensureRoom "nb" none, .done (.room 0)⟩ ∧
      s.tasks 1 = some ⟨.ensureRoom "nb" none, .done (.room 1)⟩ :=
  exists_guarded_run _ (undisturbed "nb")
    (lookingUp ++ lookingUp ++ creatingRoom 0 ++ creatingRoom 1 ++ returning 0 "kernel" ++
      returning 1 "kernel2")
    (fun s => s.created "nb" = 2 ∧ s.tasks 0 = some ⟨.ensureRoom "nb" none, .done (.room 0)⟩ ∧
      s.tasks 1 = some ⟨.ensureRoom "nb" none, .done (.room 1)⟩)
    (by decide) (by decide)

end Schedules

end Server

end Hypernote
