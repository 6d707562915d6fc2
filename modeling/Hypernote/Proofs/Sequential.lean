import Hypernote.Proofs.IdleSweep
import Hypernote.Proofs.Kernels
/-!
# One operation at a time

When a call of the manager begins only after all others have ended, the registry is a
bijection as long as no call finds the registered room of its notebook dead: it then
registers a second room and leaves the first behind.  A shutdown skips the rooms it finds
stopped.  Jobs and the other calls of the orchestrator run in between.
-/

namespace Hypernote

open Foundation

namespace RuntimeManager

/-- The two dictionaries describe one bijection between notebooks and rooms. -/
structure Bijective (m : RuntimeManager) : Prop where
  nodup : m.rooms.Nodup
  mapped : ∀ {nb r}, m.notebookToRoom nb = some r → r ∈ m.rooms ∧ (m.heap r).notebookId = nb
  registered : ∀ {r}, r ∈ m.rooms → m.notebookToRoom (m.heap r).notebookId = some r

variable {m m' : RuntimeManager} {r : RoomId} {nb : NotebookId}

namespace Bijective

theorem of_agrees (hb : Bijective m) (h : m.Agrees m')
    (hname : ∀ r ∈ m.rooms, (m'.heap r).notebookId = (m.heap r).notebookId) : Bijective m' where
  nodup := h.rooms ▸ hb.nodup
  mapped := by
    intro nb r hmap
    rw [h.notebookToRoom] at hmap
    obtain ⟨hr, hnb⟩ := hb.mapped hmap
    rw [h.rooms, hname r hr]
    exact ⟨hr, hnb⟩
  registered := by
    intro r hr
    rw [h.rooms] at hr
    rw [h.notebookToRoom, hname r hr]
    exact hb.registered hr

/-- A new room for a notebook that has none. -/
theorem register {room : NotebookRoom} (hb : Bijective m) (hlt : ∀ r ∈ m.rooms, r < m.nextRoomId)
    (hnone : ∀ r ∈ m.rooms, (m.heap r).notebookId ≠ room.notebookId) :
    Bijective (m.register room) := by
  have hheap : ∀ r ∈ m.rooms, (m.register room).heap r = m.heap r :=
    fun r hr => Function.update_of_ne (hlt r hr).ne _ _
  have hnew : (m.register room).heap m.nextRoomId = room := Function.update_self ..
  constructor
  · refine List.nodup_append.mpr ⟨hb.nodup, List.nodup_singleton _, ?_⟩
    intro r hr r' hr'
    rw [List.mem_singleton.mp hr']
    exact (hlt r hr).ne
  · intro nb r hmap
    simp only [RuntimeManager.register, Function.update_apply] at hmap
    split at hmap
    · rename_i heq
      cases hmap
      exact ⟨List.mem_append_right _ (List.mem_singleton_self _), by rw [hnew, heq]⟩
    · obtain ⟨hr, hnb⟩ := hb.mapped hmap
      exact ⟨List.mem_append_left _ hr, by rw [hheap r hr, hnb]⟩
  · intro r hr
    rcases List.mem_append.mp hr with hr | hr
    · rw [hheap r hr]
      exact (Function.update_of_ne (hnone r hr) _ _).trans (hb.registered hr)
    · rw [List.mem_singleton.mp hr, hnew]
      exact Function.update_self ..

theorem unregister (hb : Bijective m) (hr : r ∈ m.rooms) : Bijective (m.unregister r) where
  nodup := hb.nodup.filter _
  mapped := by
    intro nb r' hmap
    simp only [RuntimeManager.unregister, Function.update_apply] at hmap
    split at hmap
    · cases hmap
    · rename_i hne
      obtain ⟨hr', hnb⟩ := hb.mapped hmap
      refine ⟨List.mem_filter.mpr ⟨hr', ?_⟩, hnb⟩
      rw [decide_eq_true_eq]
      rintro rfl
      exact hne hnb.symm
  registered := by
    intro r' hr'
    obtain ⟨hr', hne⟩ := List.mem_filter.mp hr'
    rw [decide_eq_true_eq] at hne
    refine (Function.update_of_ne ?_ _ _).trans (hb.registered hr')
    intro hnb
    have hsame := hb.registered hr
    rw [show (m.heap r).notebookId = (m.heap r').notebookId from hnb.symm, hb.registered hr'] at hsame
    exact hne (Option.some.inj hsame)

/-- `list_runtimes` of a notebook has at most one room. -/
theorem listRuntimes_length (hb : Bijective m) (nb : NotebookId) :
    (m.listRuntimes (some nb)).length ≤ 1 := by
  have hsame : ∀ r ∈ m.listRuntimes (some nb), ∀ r' ∈ m.listRuntimes (some nb), r = r' := by
    intro r hr r' hr'
    obtain ⟨hr, hnb⟩ := List.mem_filter.mp hr
    obtain ⟨hr', hnb'⟩ := List.mem_filter.mp hr'
    have hmap := hb.registered hr
    have hmap' := hb.registered hr'
    rw [of_decide_eq_true hnb] at hmap
    rw [of_decide_eq_true hnb', hmap] at hmap'
    exact Option.some.inj hmap'
  have hnodup : (m.listRuntimes (some nb)).Nodup := hb.nodup.filter _
  match hrooms : m.listRuntimes (some nb) with
  | [] => exact Nat.zero_le 1
  | [_] => exact le_refl 1
  | r :: r' :: rest =>
      rw [hrooms] at hnodup hsame
      have heq := hsame r (by simp) r' (by simp)
      simp [heq] at hnodup

end Bijective

end RuntimeManager

/-- The points at which a call is inside one of the manager's methods. -/
def Pc.inManager : Pc → Bool
  | .loadRoom .. | .loading .. | .loaded .. | .startRoom .. | .creating .. | .ensured ..
  | .sweeping .. | .stopRoom .. | .deleting .. | .stopFinally .. => true
  | _ => false

theorem Pc.inManager_of_isJob {pc : Pc} (h : pc.isJob = true) : pc.inManager = false := by
  cases pc <;> first | rfl | cases h

namespace Server

/-- No call is inside one of the manager's methods. -/
def managerFree (s : Server) : Bool :=
  (List.range s.nextTask).all fun t =>
    match s.tasks t with
    | some ⟨_, pc⟩ => !pc.inManager
    | none => true

/-- A call of one of the manager's methods begins only when no other is in progress. -/
def oneByOne (s : Server) (l : Label) : Bool :=
  match s.moving l with
  | some ⟨_, .start⟩ | some ⟨_, .resolving⟩ => s.managerFree
  | _ => true

variable {s s' : Server} {l : Label} {t t' : TaskId} {op : Op} {pc : Pc} {n : Next}
  {r : RoomId} {nb : NotebookId}

theorem not_inManager (hw : WellFormed s) (hfree : s.managerFree = true)
    (ht : s.tasks t = some ⟨op, pc⟩) : pc.inManager = false := by
  have htask := List.all_eq_true.mp hfree t (List.mem_range.mpr (hw.lt_nextTask ht))
  rw [ht] at htask
  simpa using htask

/-- A call enters the manager from its first line, or once the kernel name is resolved. -/
theorem TaskStep.inManager (h : TaskStep s t op l pc n) (hpc : n.pc.inManager = true) :
    pc.inManager = true ∨ pc = .start ∨ pc = .resolving := by
  cases h with
  | call h =>
      cases h with
      | load => exact .inr (.inl rfl)
      | explicit => exact .inr (.inl rfl)
      | resolved => exact .inr (.inr rfl)
      | stdinAccepted => exact .inr (.inl rfl)
      | stop => exact .inr (.inl rfl)
      | gcSweep => exact .inr (.inl rfl)
      | shutdown => exact .inr (.inl rfl)
      | _ => cases hpc
  | ensure h => cases h <;> exact .inl rfl
  | stop h => cases h <;> exact .inl rfl
  | job h =>
      rcases h.stays with hjob | ⟨_, hdone⟩
      · rw [Pc.inManager_of_isJob hjob] at hpc
        cases hpc
      · rw [hdone] at hpc
        cases hpc

/-- Only a call inside the manager changes the two dictionaries. -/
theorem RegistryStep.inManager (h : RegistryStep s l pc n) :
    s.mgr.Agrees n.state.mgr ∨ pc.inManager = true := by
  cases h with
  | kept h => exact .inl h
  | created => exact .inr rfl
  | adopted => exact .inr rfl
  | unregistered => exact .inr rfl

/-! ## The call in progress -/

/-- What the call inside the manager relies on, as no other changes the registry meanwhile. -/
structure InProgress (s : Server) : Prop where
  alone : ∀ {t t' op op' pc pc'}, s.tasks t = some ⟨op, pc⟩ → s.tasks t' = some ⟨op', pc'⟩ →
    pc.inManager = true → pc'.inManager = true → t = t'
  absent : ∀ {t op nb choice}, s.tasks t = some ⟨op, .loading nb choice⟩ →
    s.mgr.roomForNotebook nb = none
  found : ∀ {t op pc nb r}, s.tasks t = some ⟨op, pc⟩ → pc.ensuredRoom = some (nb, r) →
    s.mgr.roomForNotebook nb = some r
  stopped : ∀ {t op pc r}, s.tasks t = some ⟨op, pc⟩ → pc.stoppingRoom = some r → r ∈ s.mgr.rooms

theorem inProgress_boot {ttl : Time} {maxCompleted : Int} {alive : KernelId → Bool}
    {kernelspec : NotebookId → Option String} :
    InProgress (boot ttl maxCompleted alive kernelspec) where
  alone h := by cases h
  absent h := by cases h
  found h := by cases h
  stopped h := by cases h

theorem inManager_of_ensuredRoom (h : pc.ensuredRoom = some (nb, r)) :
    pc.inManager = true := by
  cases pc <;> first | rfl | cases h

theorem inManager_of_stoppingRoom (h : pc.stoppingRoom = some r) : pc.inManager = true := by
  cases pc <;> first | rfl | cases h

theorem TaskStep.to_loading {choice : KernelChoice} (h : TaskStep s t op l pc n)
    (hpc : n.pc = .loading nb choice) : s.mgr.roomForNotebook nb = none ∧ n.state = s := by
  cases h with
  | call h => cases h <;> cases hpc
  | ensure h =>
      cases h with
      | absent habsent =>
          cases hpc
          exact ⟨habsent, rfl⟩
      | _ => cases hpc
  | stop h => rcases h.stays with h | ⟨_, h⟩ <;> (rw [hpc] at h; cases h)
  | job h => rcases h.stays with h | ⟨_, h⟩ <;> (rw [hpc] at h; cases h)

namespace InProgress

/-- The call that a step moves is the one in progress, or is outside the manager. -/
theorem mover_outside (hs : InProgress s) (ht : s.tasks t = some ⟨op, pc⟩)
    (hpc : pc.inManager = true) (hmover : s.mover l ≠ some t) {t' : TaskId} {op' : Op} {pc' : Pc}
    (ht' : s.tasks t' = some ⟨op', pc'⟩) (hmover' : s.mover l = some t') :
    pc'.inManager = false := by
  by_contra hpc'
  rw [hs.alone ht ht' hpc (by simpa using hpc')] at hmover
  exact hmover hmover'

/-- The two dictionaries stay as they are while the call in progress waits. -/
theorem mgr_kept (hs : InProgress s) (h : StepCase s l s') (ht : s.tasks t = some ⟨op, pc⟩)
    (hpc : pc.inManager = true) (hmover : s.mover l ≠ some t) : s.mgr.Agrees s'.mgr := by
  rcases h.mgr with hmgr | ⟨t', op', pc', n, ht', hmove, rfl, hmover'⟩
  · rw [hmgr]
    exact .refl _
  · apply hmove.registry.inManager.resolve_right
    intro hpc'
    rw [hs.mover_outside ht hpc hmover ht' hmover'] at hpc'
    cases hpc'

theorem alone_step (hs : InProgress s) (hw : WellFormed s) (h : StepCase s l s')
    (hguard : s.oneByOne l = true) {op' : Op} {pc' : Pc} (ht : s'.tasks t = some ⟨op, pc⟩)
    (ht' : s'.tasks t' = some ⟨op', pc'⟩) (hpc : pc.inManager = true)
    (hpc' : pc'.inManager = true) : t = t' := by
  -- A task that enters the manager in this step finds no other there.
  have hentry : ∀ {t₀ op₀ pc₀ n t₁ op₁ pc₁}, s.tasks t₀ = some ⟨op₀, pc₀⟩ →
      TaskStep s t₀ op₀ l pc₀ n → s.mover l = some t₀ → n.pc.inManager = true →
      s.tasks t₁ = some ⟨op₁, pc₁⟩ → pc₁.inManager = true → t₀ = t₁ := by
    intro t₀ op₀ pc₀ n t₁ op₁ pc₁ ht₀ hmove hmover hn ht₁ hpc₁
    rcases hmove.inManager hn with hpc₀ | hpc₀ | hpc₀
    · exact hs.alone ht₀ ht₁ hpc₀ hpc₁
    all_goals
      subst hpc₀
      simp only [oneByOne, moving_eq hmover ht₀] at hguard
      rw [not_inManager hw hguard ht₁] at hpc₁
      cases hpc₁
  cases task_origin h ht with
  | kept ht₀ =>
      cases task_origin h ht' with
      | kept ht₀' => exact hs.alone ht₀ ht₀' hpc hpc'
      | moved ht₀' hmove _ hmover => exact (hentry ht₀' hmove hmover hpc' ht₀ hpc).symm
      | called => cases hpc'
      | spawned => cases hpc'
  | moved ht₀ hmove _ hmover =>
      cases task_origin h ht' with
      | kept ht₀' => exact hentry ht₀ hmove hmover hpc ht₀' hpc'
      | moved _ _ _ hmover' => exact Option.some.inj (hmover.symm.trans hmover')
      | called => cases hpc'
      | spawned => cases hpc'
  | called => cases hpc
  | spawned => cases hpc

theorem step (hs : InProgress s) (hw : WellFormed s) (hguard : s.oneByOne l = true)
    (hstep : s.step l = some s') : InProgress s' := by
  have h := step_cases hstep
  constructor
  · intro t t' op op' pc pc' ht ht'
    exact hs.alone_step hw h hguard ht ht'
  · intro t op nb choice ht
    generalize hpc : Pc.loading nb choice = pc at ht
    cases task_origin h ht with
    | kept ht₀ _ hmover =>
        subst hpc
        rw [(hs.mgr_kept h ht₀ rfl hmover).roomForNotebook]
        exact hs.absent ht₀
    | moved ht₀ hmove heq =>
        obtain ⟨hnone, hstate⟩ := hmove.to_loading hpc.symm
        rw [heq, Next.commit, hstate]
        exact hnone
    | called => cases hpc
    | spawned => cases hpc
  · intro t op pc nb r ht hpc
    cases task_origin h ht with
    | kept ht₀ _ hmover =>
        rw [(hs.mgr_kept h ht₀ (inManager_of_ensuredRoom hpc) hmover).roomForNotebook]
        exact hs.found ht₀ hpc
    | moved ht₀ hmove heq =>
        rcases hmove.ensuredRoom hpc with ⟨hpc, hagrees⟩ | hentry
        · rw [heq]
          exact (hagrees.roomForNotebook nb).trans (hs.found ht₀ hpc)
        · rw [heq]
          exact hentry
    | called => cases hpc
    | spawned => cases hpc
  · intro t op pc r ht hpc
    cases task_origin h ht with
    | kept ht₀ _ hmover =>
        rw [(hs.mgr_kept h ht₀ (inManager_of_stoppingRoom hpc) hmover).rooms]
        exact hs.stopped ht₀ hpc
    | moved ht₀ hmove heq =>
        obtain ⟨hrooms, hr⟩ := hmove.begins_stop hpc
        rw [heq, Next.commit, hrooms]
        exact hr.elim (hs.stopped ht₀) And.left
    | called => cases hpc
    | spawned => cases hpc

end InProgress

/-! ## The registry is a bijection -/

/-- No call registers a second room for a notebook: it has not found the registered one dead. -/
def replacesNone (s : Server) (l : Label) : Bool :=
  match s.moving l with
  | some ⟨_, .startRoom nb _⟩ => s.mgr.rooms.all fun r => (s.room r).notebookId ≠ nb
  | _ => true

/-- No shutdown finds a room that is stopped or being stopped. -/
def stopsAll (s : Server) (l : Label) : Bool :=
  match s.moving l with
  | some ⟨.shutdown, .start⟩ =>
      s.mgr.rooms.all fun r => (s.room r).state ≠ .stopped && (s.room r).state ≠ .stopping
  | _ => true

theorem bijective_step (hs : InProgress s) (hw : WellFormed s) (h : StepCase s l s')
    (hguard : s.replacesNone l = true) (hb : s.mgr.Bijective) : s'.mgr.Bijective := by
  rcases h.mgr with hmgr | ⟨t, op, pc, n, ht, hmove, rfl, hmover⟩
  · rw [hmgr]
    exact hb
  · change n.state.mgr.Bijective
    have hmoving := moving_eq hmover ht
    cases hmove.registry with
    | kept hagrees =>
        exact hb.of_agrees hagrees fun r hr =>
          (hmove.room (Nat.ne_of_lt (hw.registered r hr))).notebookId
    | @created nb choice now n hmgr =>
        rw [hmgr]
        apply hb.register hw.registered
        intro r hr
        simp only [replacesNone, hmoving, List.all_eq_true, decide_eq_true_eq] at hguard
        exact hguard r hr
    | @adopted nb choice session now t o n hl hmgr =>
        rw [hmgr]
        apply hb.register hw.registered
        intro r hr hname
        have hentry : s.mgr.roomForNotebook nb = some r :=
          RuntimeManager.roomForNotebook_eq_some.mpr
            ⟨(congrArg _ hname).symm.trans (hb.registered hr), hr⟩
        rw [hs.absent ht] at hentry
        cases hentry
    | @unregistered r rest stopped pending now n hmgr =>
        rw [hmgr]
        have hr : r ∈ s.mgr.rooms := hs.stopped ht rfl
        refine RuntimeManager.Bijective.unregister ?_ hr
        apply hb.of_agrees (RuntimeManager.agrees_modify ..)
        intro r' _
        rw [RuntimeManager.heap_modify]
        split <;> rfl

/-! ## Shutting down -/

/-- A shutdown in progress is stopping the registered room, or has yet to. -/
def ShutdownStops (s : Server) : Prop :=
  ∀ ⦃t pc⦄, s.tasks t = some ⟨.shutdown, pc⟩ → pc ≠ .start → pc.isDone = false →
    ∀ r ∈ s.mgr.rooms, pc.stoppingRoom = some r ∨
      r ∈ pc.pendingStops ∧ (s.room r).state ≠ .stopped ∧ (s.room r).state ≠ .stopping

theorem shutdownStops_move (h : TaskStep s t .shutdown l pc n)
    (hmoving : s.moving l = some ⟨.shutdown, pc⟩) (hguard : s.stopsAll l = true)
    (hs : pc ≠ .start → ∀ r ∈ s.mgr.rooms, pc.stoppingRoom = some r ∨
      r ∈ pc.pendingStops ∧ (s.room r).state ≠ .stopped ∧ (s.room r).state ≠ .stopping)
    (hadmits : Op.shutdown.admits pc) (hdone : n.pc.isDone = false) :
    ∀ r ∈ n.state.mgr.rooms, n.pc.stoppingRoom = some r ∨
      r ∈ n.pc.pendingStops ∧ (n.state.room r).state ≠ .stopped ∧
        (n.state.room r).state ≠ .stopping := by
  cases h with
  | call h =>
      cases h with
      | load hop => cases hop
      | explicit hop => cases hop
      | resolving hop => cases hop
      | resolved hop => cases hop
      | stop hop => cases hop
      | opened hop => cases hop
      | shutdown =>
          intro r hr
          simp only [stopsAll, hmoving, List.all_eq_true, Bool.and_eq_true,
            decide_eq_true_eq] at hguard
          exact .inr ⟨hr, hguard r hr⟩
      | _ => cases hdone
  | ensure h => cases h <;> simp [Op.admits, Op.ensures, Op.loads, Op.resolves] at hadmits
  | stop h =>
      cases h with
      | next => exact hs (fun h => by cases h)
      | swept => cases hdone
      | @unknown o r' rest stopped hr' =>
          intro r hr
          rcases hs (fun h => by cases h) r hr with hstop | ⟨hmem, hstate⟩
          · cases hstop
          · refine .inr ⟨?_, hstate⟩
            rcases List.mem_cons.mp hmem with rfl | hmem
            · exact absurd hr hr'
            · exact hmem
      | @already o r' rest stopped hr' hstate' =>
          rcases hs (fun h => by cases h) r' hr' with hstop | ⟨-, hstopped, hstopping⟩
          · cases hstop
          · exact (hstate'.elim hstopped hstopping).elim
      | @stopping o r' rest stopped pc es hr' hstate' hpc =>
          intro r hr
          have hpc' : pc.stoppingRoom = some r' ∧ pc.pendingStops = rest := by
            rcases hpc with rfl | rfl <;> exact ⟨rfl, rfl⟩
          dsimp only
          rw [hpc'.1, hpc'.2]
          rcases hs (fun h => by cases h) r hr with hstop | ⟨hmem, hstate⟩
          · cases hstop
          · rcases List.mem_cons.mp hmem with rfl | hmem
            · exact .inl rfl
            · by_cases heq : r' = r
              · exact .inl (congrArg some heq)
              · refine .inr ⟨hmem, ?_⟩
                rw [Server.room, RuntimeManager.setRuntimeState, RuntimeManager.heap_modify,
                  if_neg (Ne.symm heq)]
                exact hstate
      | deleted => exact hs (fun h => by cases h)
      | deleteRaised => exact hs (fun h => by cases h)
      | cancelled => cases hdone
      | @cleared o r' rest stopped =>
          intro r hr
          obtain ⟨hr, hne⟩ := List.mem_filter.mp hr
          rw [decide_eq_true_eq] at hne
          rcases hs (fun h => by cases h) r hr with hstop | ⟨hmem, hstate⟩
          · exact absurd (Option.some.inj hstop).symm hne
          · refine .inr ⟨hmem, ?_⟩
            change (((s.mgr.modify r' _).unregister r').heap r).state ≠ _ ∧
              (((s.mgr.modify r' _).unregister r').heap r).state ≠ _
            rw [show ((s.mgr.modify r' (·.cleared o.now)).unregister r').heap r = s.mgr.heap r from
              Function.update_of_ne hne _ _]
            exact hstate

/-- A room becomes stopped or stopping by a call inside the manager only. -/
theorem RoomStep.of_stopped {pc' : Pc} {room : NotebookRoom} (h : RoomStep s op pc pc' r room)
    (hpc : pc.inManager = false) (hstate : room.state = .stopped ∨ room.state = .stopping) :
    (s.room r).state = room.state := by
  cases h with
  | died hpc' =>
      subst hpc'
      cases hpc
  | stopping hpc' =>
      subst hpc'
      cases hpc
  | cleared hpc' =>
      subst hpc'
      cases hpc
  | started => rcases hstate with h | h <;> cases h
  | failed => rcases hstate with h | h <;> cases h
  | attached => rcases hstate with h | h <;> cases h
  | awaiting => rcases hstate with h | h <;> cases h
  | detached =>
      dsimp only [NotebookRoom.detach] at hstate ⊢
      split at hstate
      · rcases hstate with h | h <;> cases h
      · rename_i hclients
        rw [if_neg hclients]
  | stdin _ _ hstate' =>
      dsimp only at hstate
      rw [hstate'] at hstate
      split at hstate <;> rcases hstate with h | h <;> cases h
  | jobFinished _ _ hstate' =>
      rcases hstate' with rfl | ⟨-, -, rfl, -⟩
      · rfl
      · rcases hstate with h | h <;> cases h
  | _ => rfl

theorem inManager_of_shutdown (hadmits : Op.shutdown.admits pc) (hstart : pc ≠ .start)
    (hdone : pc.isDone = false) : pc.inManager = true := by
  cases pc with
  | start => exact absurd rfl hstart
  | done => cases hdone
  | sweeping | stopRoom | deleting | stopFinally => rfl
  | interrupting room => cases room <;> simp [Op.admits] at hadmits
  | _ => simp [Op.admits, Op.ensures, Op.loads, Op.resolves] at hadmits

theorem shutdownStops_step (hp : InProgress s) (hw : WellFormed s) (h : StepCase s l s')
    (hguard : s.stopsAll l = true) (hs : ShutdownStops s) : ShutdownStops s' := by
  intro t pc ht hstart hdone
  generalize hop : Op.shutdown = op at ht
  cases task_origin h ht with
  | kept ht₀ _ hmover =>
      subst hop
      have hpc := inManager_of_shutdown (hw.admits ht₀) hstart hdone
      intro r hr
      rw [(hp.mgr_kept h ht₀ hpc hmover).rooms] at hr
      refine (hs ht₀ hstart hdone r hr).imp_right fun ⟨hmem, hstopped, hstopping⟩ => ⟨hmem, ?_⟩
      have hlt := hw.registered r hr
      cases room_change h (hlt.trans_le (nextRoomId_le h)) with
      | kept _ heq =>
          rw [heq]
          exact ⟨hstopped, hstopping⟩
      | moved _ ht' _ _ hmover' hroom =>
          have hsame := hroom.of_stopped (hp.mover_outside ht₀ hpc hmover ht' hmover')
          constructor
          · exact fun hstate => hstopped ((hsame (.inl hstate)).trans hstate)
          · exact fun hstate => hstopping ((hsame (.inr hstate)).trans hstate)
      | fresh heq => exact absurd heq hlt.ne
      | adopted heq => exact absurd heq hlt.ne
  | @moved _ pc₀ n ht₀ hmove heq hmover =>
      subst hop
      rw [heq]
      exact shutdownStops_move hmove (moving_eq hmover ht₀) hguard
        (fun hstart => hs ht₀ hstart hmove.isDone) (hw.admits ht₀) hdone
  | called => exact absurd rfl hstart
  | spawned => cases hop

theorem TaskStep.shutdown_returned (h : TaskStep s t .shutdown l pc n)
    (hadmits : Op.shutdown.admits pc) (hpc : n.pc = .done .returned) :
    (∃ stopped, pc = .sweeping [] stopped) ∧ n.state = s := by
  cases h with
  | call h =>
      cases h with
      | opened hop => cases hop
      | interruptedNative =>
          obtain ⟨k, hop⟩ := hadmits
          cases hop
      | _ => cases hpc
  | ensure h => cases h <;> cases hpc
  | stop h =>
      cases h with
      | swept => exact ⟨⟨_, rfl⟩, rfl⟩
      | stopping _ _ hpc' => rcases hpc' with rfl | rfl <;> cases hpc
      | _ => cases hpc

/-- Where the manager is called one call at a time, none registers a second room for its notebook and no
shutdown finds a stopped room, the registry is a bijection in every state, and empty when a
shutdown returns. -/
theorem registry_stays_bijective {ttl : Time} {maxCompleted : Int} {alive : KernelId → Bool}
    {kernelspec : NotebookId → Option String}
    (h : ServerRun (fun s l => s.oneByOne l = true ∧ s.replacesNone l = true ∧ s.stopsAll l = true)
      (boot ttl maxCompleted alive kernelspec) s) :
    (∀ nb r, s.mgr.notebookToRoom nb = some r →
      r ∈ s.mgr.rooms ∧ (s.room r).notebookId = nb) ∧
    (∀ r ∈ s.mgr.rooms, s.mgr.notebookToRoom (s.room r).notebookId = some r) ∧
    (∀ nb, (s.mgr.listRuntimes (some nb)).length ≤ 1) ∧
    ∀ l s' t pc, s.step l = some s' → s.tasks t = some ⟨.shutdown, pc⟩ → pc.isDone = false →
      s'.tasks t = some ⟨.shutdown, .done .returned⟩ →
        s'.mgr.rooms = [] ∧ ∀ nb, s'.mgr.notebookToRoom nb = none := by
  have hw : WellFormed s := wellFormed_run h wellFormed_boot
  have hs : InProgress s ∧ s.mgr.Bijective ∧ ShutdownStops s := by
    refine Run.invariant_of
      (I := fun s : Server => InProgress s ∧ s.mgr.Bijective ∧ ShutdownStops s) h
      (fun _ hu => wellFormed_run hu wellFormed_boot) ⟨inProgress_boot, ?_, ?_⟩ ?_
    · constructor
      · exact List.nodup_nil
      · intro nb r hmap
        cases hmap
      · intro r hr
        cases hr
    · intro t pc ht
      cases ht
    · rintro u l u' hu - ⟨hp, hb, hshut⟩ ⟨hone, hreplaces, hstops⟩ hstep
      have hcase := step_cases hstep
      exact ⟨hp.step hu hone hstep, bijective_step hp hu hcase hreplaces hb,
        shutdownStops_step hp hu hcase hstops hshut⟩
  obtain ⟨hp, hb, hshut⟩ := hs
  refine ⟨fun _ _ => hb.mapped, fun _ => hb.registered, hb.listRuntimes_length, ?_⟩
  intro l s' t pc hstep ht hpc ht'
  rcases hw.task_next (step_cases hstep) ht with ⟨hkept, -⟩ | ⟨n, hmove, rfl, -⟩
  · cases hkept.symm.trans ht'
    cases hpc
  · rw [commit_tasks, if_pos rfl] at ht'
    cases hn : n.pc <;> rw [hn] at ht' <;> cases ht'
    obtain ⟨⟨stopped, rfl⟩, hstate⟩ := hmove.shutdown_returned (hw.admits ht) hn
    have hrooms : s.mgr.rooms = [] := by
      apply List.eq_nil_iff_forall_not_mem.mpr
      intro r hr
      rcases hshut ht (fun h => by cases h) rfl r hr with hstop | ⟨hmem, -⟩
      · cases hstop
      · cases hmem
    rw [Next.commit, hstate]
    refine ⟨hrooms, fun nb => ?_⟩
    cases hmap : s.mgr.notebookToRoom nb with
    | none => rfl
    | some r =>
        have hr := (hb.mapped hmap).1
        rw [hrooms] at hr
        cases hr

section Schedules

/-- Task `t` creates a room for a notebook that Jupyter has no session for. -/
private def roomCreated (t : TaskId) (kernelId : KernelId) : List Label :=
  [.call (.ensureRoom "nb" none), .proceed (.quiet 0), .proceed (.quiet 0),
    .resume t (.raised (.http 404 "")) (.quiet 0), .proceed (.quiet 0), .proceed (.quiet 0),
    .resume t (.session ⟨"session", kernelId, some "python3"⟩) (.quiet 0), .proceed (.quiet 0)]

/-- Task 1 shuts the extension down up to the end of its loop. -/
private def shuttingDown : List Label :=
  [.call .shutdown, .proceed (.quiet 1), .proceed (.quiet 1), .proceed (.quiet 1),
    .resume 1 .returned (.quiet 1), .proceed (.quiet 1)]

theorem shutdown_empties_registry :
    ∃ s : Server, s.tasks 1 = some ⟨.shutdown, .done .returned⟩ ∧ s.mgr.rooms = [] ∧
      s.mgr.notebookToRoom "nb" = none := by
  obtain ⟨s, hrun, ht, hexec⟩ := (boot 10 20 (fun _ => false) fun _ => none).exists_guarded_run
    (fun s l => s.oneByOne l && s.replacesNone l && s.stopsAll l)
    (roomCreated 0 "kernel" ++ shuttingDown)
    (fun s => s.tasks 1 = some ⟨.shutdown, .sweeping [] [0]⟩ ∧
      (s.step (.proceed (.quiet 1))).any fun s' =>
        s'.tasks 1 = some ⟨.shutdown, .done .returned⟩)
    (by decide) (by decide)
  cases hstep : s.step (.proceed (.quiet 1)) with
  | none => simp [hstep] at hexec
  | some s' =>
      rw [hstep, Option.any_some, decide_eq_true_eq] at hexec
      obtain ⟨hrooms, hmap⟩ := (registry_stays_bijective (hrun.mono fun _ _ h => by
        simpa [and_assoc] using h)).2.2.2 _ s' 1 _ hstep ht rfl hexec
      exact ⟨s', hexec, hrooms, hmap "nb"⟩

/-- The kernel of a room dies, and the next call registers a second room beside the first,
which a shutdown then leaves registered. -/
theorem dead_room_stays_registered :
    ∃ s s' : Server,
      ServerRun (fun s l => s.oneByOne l = true) (boot 10 20 (fun _ => false) fun _ => none) s ∧
      (s.room 0).notebookId = "nb" ∧ 0 ∈ s.mgr.rooms ∧ s.mgr.notebookToRoom "nb" = some 1 ∧
      (s.mgr.listRuntimes (some "nb")).length = 2 ∧
      ServerRun (fun s l => s.oneByOne l = true) s s' ∧
      s'.tasks 2 = some ⟨.shutdown, .done .returned⟩ ∧ s'.mgr.rooms = [0] := by
  obtain ⟨s, hrun, hname, hr, hmap, hlength, hguarded, hexec⟩ :=
    (boot 10 20 (fun _ => false) fun _ => none).exists_guarded_run oneByOne
      (roomCreated 0 "kernel" ++ [.outside (.kernelDied "kernel"), .call (.ensureRoom "nb" none),
        .proceed (.quiet 1), .proceed (.quiet 1), .proceed (.quiet 1), .proceed (.quiet 1),
        .resume 1 (.session ⟨"session2", "kernel2", some "python3"⟩) (.quiet 1),
        .proceed (.quiet 1)])
      (fun s => (s.room 0).notebookId = "nb" ∧ 0 ∈ s.mgr.rooms ∧
        s.mgr.notebookToRoom "nb" = some 1 ∧ (s.mgr.listRuntimes (some "nb")).length = 2 ∧
        guardedBy step (fun s l => s.oneByOne l = true) s
          [.call .shutdown, .proceed (.quiet 2), .proceed (.quiet 2), .proceed (.quiet 2),
            .proceed (.quiet 2), .proceed (.quiet 2), .resume 2 .returned (.quiet 2),
            .proceed (.quiet 2), .proceed (.quiet 2)] = true ∧
        (exec step s
          [.call .shutdown, .proceed (.quiet 2), .proceed (.quiet 2), .proceed (.quiet 2),
            .proceed (.quiet 2), .proceed (.quiet 2), .resume 2 .returned (.quiet 2),
            .proceed (.quiet 2), .proceed (.quiet 2)]).any fun s' =>
              s'.tasks 2 = some ⟨.shutdown, .done .returned⟩ ∧ s'.mgr.rooms = [0])
      (by decide) (by decide)
  obtain ⟨s', hrun', ht, hrooms⟩ := exists_guarded_run_of_exec hguarded hexec
  exact ⟨s, s', hrun, hname, hr, hmap, hlength, hrun', ht, hrooms⟩

end Schedules

end Server

end Hypernote
