import Hypernote.Proofs.Registry
import Hypernote.Server.Jobs
/-!
# Rooms that have a kernel

A room gets its kernel when it is built around a session or when `create_session`
returns, and keeps it.  Only such a room is ever live, has clients, or is used by a
call that has left `ensure_room`; a room that is still being created has none of these.
-/

namespace Hypernote

open Foundation

/-- The room that a call works with after its `ensure_room`. -/
def Pc.usedRoom : Pc → Option RoomId
  | .ensured _ r | .awaitingLock r | .locked r | .nextCell r _ | .clientReady r _ _
  | .subshellReply r _ _ _ | .readingSource r _ | .readingDocument r _ _ | .polling r _ _
  | .sleeping r _ _ | .flushing r _ _ | .jobRaised r _ | .jobFinally r _ | .sendingInput _ r =>
      some r
  | .interrupting r => r
  | _ => none

theorem Pc.usedRoom_of_isStop {pc : Pc} (h : pc.isStop = true) : pc.usedRoom = none := by
  cases pc <;> first | rfl | cases h

theorem Pc.mem_rooms_of_usedRoom {pc : Pc} {r : RoomId} (h : pc.usedRoom = some r) :
    r ∈ pc.rooms := by
  cases pc with
  | interrupting room =>
      cases h
      exact List.mem_singleton_self r
  | _ =>
      first
      | cases h
        exact List.mem_singleton_self _
      | cases h

namespace Server

/-- What a step does to a room object. -/
inductive RoomChange (s : Server) (l : Label) (s' : Server) (r : RoomId) : Prop
  | kept (hr : r < s.mgr.nextRoomId) (h : s'.room r = s.room r)
  | moved {t op pc n} (hr : r < s.mgr.nextRoomId) (ht : s.tasks t = some ⟨op, pc⟩)
      (hmove : TaskStep s t op l pc n) (hs : s' = n.commit t op) (hmover : s.mover l = some t)
      (h : RoomStep s op pc n.pc r (s'.room r))
  | fresh {nb now} (hr : r = s.mgr.nextRoomId) (h : s'.room r = .fresh nb now)
  | adopted {nb session now} (hr : r = s.mgr.nextRoomId) (h : s'.room r = .adopted nb session now)

variable {s s' : Server} {l : Label} {t : TaskId} {op : Op} {pc : Pc} {n : Next}
  {r : RoomId} {nb : NotebookId} {k : KernelId}

theorem room_change (h : StepCase s l s') (hr : r < s'.mgr.nextRoomId) : RoomChange s l s' r := by
  rcases h.mgr with hmgr | ⟨t, op, pc, n, ht, hmove, rfl, hmover⟩
  · exact .kept (hmgr ▸ hr) (by rw [Server.room, hmgr, Server.room])
  · by_cases hlt : r < s.mgr.nextRoomId
    · exact .moved hlt ht hmove rfl hmover (hmove.room hlt.ne)
    · have hnew : ∀ room : NotebookRoom, n.state.mgr = s.mgr.register room →
          r = s.mgr.nextRoomId ∧ (n.commit t op).room r = room := by
        intro room hmgr
        have hle : r ≤ s.mgr.nextRoomId := by
          apply Nat.le_of_lt_succ
          have hnext : (n.commit t op).mgr.nextRoomId = s.mgr.nextRoomId + 1 := by
            change n.state.mgr.nextRoomId = _
            rw [hmgr]
            rfl
          rw [hnext] at hr
          exact hr
        have heq : r = s.mgr.nextRoomId := Nat.le_antisymm hle (Nat.le_of_not_lt hlt)
        refine ⟨heq, ?_⟩
        change n.state.mgr.heap r = room
        rw [hmgr, heq]
        exact Function.update_self ..
      have hkept : n.state.mgr.nextRoomId ≠ s.mgr.nextRoomId :=
        fun heq => hlt (heq ▸ hr)
      cases hmove.registry with
      | kept h => exact absurd h.nextRoomId hkept
      | created hmgr => exact .fresh (hnew _ hmgr).1 (hnew _ hmgr).2
      | adopted _ hmgr => exact .adopted (hnew _ hmgr).1 (hnew _ hmgr).2
      | unregistered hmgr => exact absurd (by rw [hmgr]; rfl) hkept

/-- A room keeps its kernel, except that the call that creates it sets it. -/
theorem RoomStep.kernelId {pc' : Pc} {room : NotebookRoom} (h : RoomStep s op pc pc' r room) :
    room.kernelId = (s.room r).kernelId ∨ ∃ nb session, pc = .creating nb r ∧
      room.kernelId = some session := by
  cases h with
  | started hpc => exact .inr ⟨_, _, hpc, rfl⟩
  | _ => exact .inl rfl

/-- The room that a call works with it worked with before, or it is returned to it now. -/
theorem TaskStep.usedRoom (h : TaskStep s t op l pc n) (hr : n.pc.usedRoom = some r) :
    pc.usedRoom = some r ∨ ∃ nb, n.pc = .ensured nb r := by
  cases h with
  | call h =>
      cases h with
      | sendInput => exact .inl hr
      | interruptKernel => exact .inl hr
      | _ => cases hr
  | ensure h =>
      cases h with
      | live =>
          cases hr
          exact .inr ⟨_, rfl⟩
      | started =>
          cases hr
          exact .inr ⟨_, rfl⟩
      | _ => cases hr
  | stop h =>
      rcases h.stays with hstop | ⟨_, hdone⟩
      · rw [Pc.usedRoom_of_isStop hstop] at hr
        cases hr
      · rw [hdone] at hr
        cases hr
  | job h =>
      cases h with
      | clientReady hpc => rcases hpc with rfl | ⟨_, rfl⟩ | ⟨_, -, rfl⟩ <;> exact .inl hr
      | subshellMessage hpc => rcases hpc with rfl | ⟨_, rfl⟩ | ⟨_, -, rfl⟩ <;> exact .inl hr
      | stepRaised hpc =>
          rcases hpc with ⟨_, _, rfl⟩ | ⟨_, rfl⟩ | ⟨_, _, rfl⟩ | ⟨_, _, rfl⟩ | ⟨_, _, rfl⟩ |
            ⟨-, _, _, _, rfl⟩ <;> exact .inl hr
      | abandoned => cases hr
      | finished => cases hr
      | _ => exact .inl hr

/-- What has a kernel. -/
structure KernelsInv (s : Server) : Prop where
  live : ∀ {r}, r < s.mgr.nextRoomId → (s.room r).isLive = true → (s.room r).kernelId ≠ none
  attached : ∀ {r}, r < s.mgr.nextRoomId → (s.room r).attachedClients ≠ ∅ →
    (s.room r).kernelId ≠ none
  used : ∀ {t op pc r}, s.tasks t = some ⟨op, pc⟩ → pc.usedRoom = some r →
    (s.room r).kernelId ≠ none

theorem kernelsInv_boot {ttl : Time} {maxCompleted : Int} {alive : KernelId → Bool}
    {kernelspec : NotebookId → Option String} :
    KernelsInv (boot ttl maxCompleted alive kernelspec) where
  live h := absurd h (Nat.not_lt_zero _)
  attached h := absurd h (Nat.not_lt_zero _)
  used h := by cases h

theorem kernelId_of_liveRoom (h : s.liveRoom r = true) : (s.room r).kernelId ≠ none := by
  intro hk
  simp [liveRoom, RuntimeManager.kernelIsAlive, hk] at h

namespace KernelsInv

/-- A room keeps having a kernel. -/
theorem kernelId_mono (h : StepCase s l s') (hr : r < s.mgr.nextRoomId)
    (hk : (s.room r).kernelId ≠ none) : (s'.room r).kernelId ≠ none := by
  cases room_change h (hr.trans_le (nextRoomId_le h)) with
  | kept _ hroom => rwa [hroom]
  | moved _ _ _ _ _ hroom =>
      rcases hroom.kernelId with hsame | ⟨nb, session, -, hsome⟩
      · rwa [hsame]
      · rw [hsome]
        exact Option.some_ne_none _
  | fresh heq => exact absurd heq hr.ne
  | adopted heq => exact absurd heq hr.ne

/-- A move leaves only rooms with a kernel live, or with a client. -/
theorem of_roomStep {pc' : Pc} {room : NotebookRoom} (hs : KernelsInv s)
    (ht : s.tasks t = some ⟨op, pc⟩) (hr : r < s.mgr.nextRoomId)
    (h : RoomStep s op pc pc' r room)
    (hroom : room.isLive = true ∨ room.attachedClients ≠ ∅) : room.kernelId ≠ none := by
  have hold : (s.room r).isLive = true ∨ (s.room r).attachedClients ≠ ∅ →
      (s.room r).kernelId ≠ none := by
    rintro (hlive | hclients)
    · exact hs.live hr hlive
    · exact hs.attached hr hclients
  cases h with
  | died =>
      rcases hroom with hlive | hclients
      · cases hlive
      · exact hold (.inr hclients)
  | started => exact Option.some_ne_none _
  | failed =>
      rcases hroom with hlive | hclients
      · cases hlive
      · exact hold (.inr hclients)
  | attached hlive =>
      rcases hlive with hlive | ⟨nb, rfl⟩
      · exact hold (.inl hlive)
      · exact hs.used ht rfl
  | @detached client now =>
      refine hold (hroom.imp ?_ ?_)
      · intro hlive
        simp only [NotebookRoom.detach, NotebookRoom.isLive] at hlive ⊢
        split at hlive
        · rename_i hstate
          rw [hstate.2]
          rfl
        · exact hlive
      · rintro hclients hempty
        exact hclients (by simp [NotebookRoom.detach, hempty])
  | awaiting hpc =>
      subst hpc
      exact hs.used ht rfl
  | stdin hpc =>
      subst hpc
      exact hs.used ht rfl
  | stopping =>
      rcases hroom with hlive | hclients
      · cases hlive
      · exact hold (.inr hclients)
  | cleared =>
      rcases hroom with hlive | hclients
      · cases hlive
      · exact absurd rfl hclients
  | jobFinished _ _ hstate =>
      refine hold (hroom.imp_left fun hlive => ?_)
      rcases hstate with rfl | ⟨-, -, -, hawaiting⟩
      · exact hlive
      · rw [NotebookRoom.isLive, hawaiting]
        rfl
  | _ => exact hold hroom

theorem room_step (hs : KernelsInv s) (h : StepCase s l s') (hr : r < s'.mgr.nextRoomId)
    (hroom : (s'.room r).isLive = true ∨ (s'.room r).attachedClients ≠ ∅) :
    (s'.room r).kernelId ≠ none := by
  cases room_change h hr with
  | kept hlt heq =>
      rw [heq] at hroom ⊢
      rcases hroom with hlive | hclients
      · exact hs.live hlt hlive
      · exact hs.attached hlt hclients
  | moved hlt ht _ _ _ hstep => exact hs.of_roomStep ht hlt hstep hroom
  | fresh _ heq =>
      rw [heq] at hroom
      rcases hroom with hlive | hclients
      · cases hlive
      · exact absurd rfl hclients
  | adopted _ heq =>
      rw [heq]
      exact Option.some_ne_none _

theorem used_step (hs : KernelsInv s) (hw : WellFormed s) (hlive' : ReturnsLive s')
    (h : StepCase s l s') (ht : s'.tasks t = some ⟨op, pc⟩) (hr : pc.usedRoom = some r) :
    (s'.room r).kernelId ≠ none := by
  have hold : ∀ {pc}, s.tasks t = some ⟨op, pc⟩ → pc.usedRoom = some r →
      (s'.room r).kernelId ≠ none := by
    intro pc ht₀ hr
    exact kernelId_mono h (hw.held ht₀ (Pc.mem_rooms_of_usedRoom hr)) (hs.used ht₀ hr)
  cases task_origin h ht with
  | kept ht₀ => exact hold ht₀ hr
  | moved ht₀ hmove heq =>
      rcases hmove.usedRoom hr with hr | ⟨nb, hpc⟩
      · exact hold ht₀ hr
      · rw [hpc] at ht
        exact kernelId_of_liveRoom (hlive'.returned ht)
  | called => cases hr
  | spawned => cases hr

theorem step (hs : KernelsInv s) (hw : WellFormed s) (hlive : ReturnsLive s)
    (hstep : s.step l = some s') : KernelsInv s' :=
  have h := step_cases hstep
  { live := fun hr hlive => hs.room_step h hr (.inl hlive)
    attached := fun hr hclients => hs.room_step h hr (.inr hclients)
    used := hs.used_step hw (returnsLive_step hw h hlive) h }

end KernelsInv

/-- The invariants that hold along every run, whatever the environment does. -/
structure ServerInv (s : Server) : Prop where
  wellFormed : WellFormed s
  stopsRecorded : StopsRecorded s
  createdOnce : CreatedOnce s
  returnsLive : ReturnsLive s
  kernels : KernelsInv s
  jobs : JobsInv s

theorem serverInv_boot {ttl : Time} {maxCompleted : Int} {alive : KernelId → Bool}
    {kernelspec : NotebookId → Option String} :
    ServerInv (boot ttl maxCompleted alive kernelspec) where
  wellFormed := wellFormed_boot
  stopsRecorded _ _ _ _ ht := by cases ht
  createdOnce _ _ _ _ ht := by cases ht
  returnsLive := returnsLive_boot
  kernels := kernelsInv_boot
  jobs := jobsInv_boot

theorem ServerInv.step (hs : ServerInv s) (hstep : s.step l = some s') : ServerInv s' :=
  have h := step_cases hstep
  { wellFormed := hs.wellFormed.step hstep
    stopsRecorded := stopsRecorded_step h hs.stopsRecorded
    createdOnce := createdOnce_step hs.wellFormed h hs.createdOnce
    returnsLive := returnsLive_step hs.wellFormed h hs.returnsLive
    kernels := hs.kernels.step hs.wellFormed hs.returnsLive hstep
    jobs := hs.jobs.step hstep }

theorem serverInv_run {G : Server → Label → Prop} {ttl : Time} {maxCompleted : Int}
    {alive : KernelId → Bool} {kernelspec : NotebookId → Option String}
    (h : ServerRun G (boot ttl maxCompleted alive kernelspec) s) : ServerInv s :=
  h.invariant serverInv_boot fun _ _ _ hs _ hstep => hs.step hstep

/-- A room that is being created is not live, has no clients and is not used yet. -/
theorem ServerInv.creating (hs : ServerInv s) (ht : s.tasks t = some ⟨op, .creating nb r⟩) :
    (s.room r).isLive = false ∧ (s.room r).attachedClients = ∅ := by
  have hr := hs.wellFormed.held ht (List.mem_singleton_self r)
  have hk := (hs.createdOnce ht).1
  constructor
  · exact Bool.eq_false_iff.mpr fun hlive => hs.kernels.live hr hlive hk
  · by_contra hclients
    exact hs.kernels.attached hr hclients hk

end Server

end Hypernote
