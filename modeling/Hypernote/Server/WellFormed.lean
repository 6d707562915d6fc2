import Hypernote.Server.Rooms
/-!
# What holds in every reachable state

A task at a running point has control, its program point is one that its call can
reach, task and room ids in use have been handed out.  All of it holds along every
run, whatever the environment does.
-/

namespace Hypernote

open Foundation

namespace Pc

/-- The rooms that a program point holds on to; the id given to `stop_runtime` is
looked up first. -/
def rooms : Pc → List RoomId
  | .loaded _ _ existing => existing.toList
  | .creating _ r | .ensured _ r | .awaitingLock r | .locked r | .nextCell r _
  | .clientReady r _ _ | .subshellReply r _ _ _ | .readingSource r _ | .readingDocument r _ _
  | .polling r _ _ | .sleeping r _ _ | .flushing r _ _ | .jobRaised r _ | .jobFinally r _
  | .sendingInput _ r => [r]
  | .interrupting r => r.toList
  | .sweeping rest _ => rest
  | .stopRoom _ rest _ => rest
  | .deleting r rest _ | .stopFinally r rest _ _ => r :: rest
  | _ => []

/-- The points of `_run_job` after its call of `ensure_room`. -/
def isJob : Pc → Bool
  | .awaitingLock _ | .locked _ | .nextCell .. | .clientReady .. | .subshellReply ..
  | .readingSource .. | .readingDocument .. | .polling .. | .sleeping .. | .flushing ..
  | .jobRaised .. | .jobFinally .. => true
  | _ => false

/-- The notebook that a program point takes a room to be for. -/
def namedRoom : Pc → Option (NotebookId × RoomId)
  | .loaded nb _ existing => existing.map fun r => (nb, r)
  | .creating nb r | .ensured nb r | .sendingInput nb r => some (nb, r)
  | _ => none

end Pc

theorem Pc.namedRoom_of_isStop {pc : Pc} (h : pc.isStop = true) : pc.namedRoom = none := by
  cases pc <;> first | rfl | cases h

theorem Pc.mem_rooms_of_namedRoom {pc : Pc} {nb : NotebookId} {r : RoomId}
    (h : pc.namedRoom = some (nb, r)) : r ∈ pc.rooms := by
  cases pc with
  | loaded _ _ existing =>
      obtain ⟨r', rfl, h⟩ := Option.map_eq_some_iff.mp h
      cases h
      exact List.mem_singleton_self _
  | creating | ensured | sendingInput =>
      cases h
      exact List.mem_singleton_self _
  | _ => cases h

namespace Op

/-- The notebook and the kernel choice that a call can take to `ensure_room`. -/
def ensures (op : Op) (nb : NotebookId) (choice : KernelChoice) : Prop :=
  op.loads = some (nb, choice) ∨
    (∃ name metadata, op.resolves = some (nb, name) ∧ choice = .resolved name metadata) ∨
    ((∃ jobId value actor, op = .sendStdin jobId value actor) ∧ choice = .unresolved)

/-- The calls of the stop loop, and the rooms after the first they may still hold. -/
def stopsRooms (op : Op) (rest : List RoomId) : Prop :=
  op = .gcSweep ∨ op = .shutdown ∨
    ((∃ r, op = .stopRuntime r) ∨ ∃ nb, op = .runtimeStop nb) ∧ rest = []

/-- The program points that a call can reach. -/
def admits (op : Op) : Pc → Prop
  | .start | .done _ => True
  | .resolving => ∃ nb name, op.resolves = some (nb, name)
  | .loadRoom nb choice | .loading nb choice | .loaded nb choice _ => op.ensures nb choice
  | .startRoom nb choice => op.ensures nb choice ∧ op.isStatus = false
  | .creating nb _ | .ensured nb _ => (∃ choice, op.ensures nb choice) ∧ op.isStatus = false
  | .awaitingLock _ | .locked _ | .nextCell .. | .clientReady .. | .subshellReply ..
  | .readingSource .. | .readingDocument .. | .polling .. | .sleeping .. | .flushing ..
  | .jobRaised .. | .jobFinally .. => ∃ job, op = .runJob job
  | .sendingInput nb _ => (∃ jobId value actor, op = .sendStdin jobId value actor) ∧
      ∃ choice, op.ensures nb choice
  | .interrupting (some _) => ∃ nb actor, op = .interrupt nb actor
  | .interrupting none => ∃ k, op = .kernelInterrupt k
  | .restarting => ∃ k, op = .kernelRestart k
  | .sweeping .. => op = .gcSweep ∨ op = .shutdown
  | .stopRoom _ rest _ | .deleting _ rest _ | .stopFinally _ rest _ _ => op.stopsRooms rest

end Op

namespace Server

/-- Where an entry of the task table after a step comes from. -/
inductive TaskOrigin (s : Server) (l : Label) (s' : Server) (t : TaskId) : Op → Pc → Prop
  | kept {op pc} (ht : s.tasks t = some ⟨op, pc⟩) (hrun : s.running ≠ some t)
      (hmover : s.mover l ≠ some t) : TaskOrigin s l s' t op pc
  | moved {op pc n} (ht : s.tasks t = some ⟨op, pc⟩) (h : TaskStep s t op l pc n)
      (hs : s' = n.commit t op) (hmover : s.mover l = some t) :
      TaskOrigin s l s' t op n.pc
  | called {op} (ht : t = s.nextTask) (hop : callable op = true) (hrun : s'.running = some t)
      (hl : l = .call op) : TaskOrigin s l s' t op .start
  | spawned {nb cells actor} (ht : t = s.nextTask)
      (hl : s'.ledger.nextJobId = s.ledger.nextJobId + 1) :
      TaskOrigin s l s' t (.runJob ⟨s.ledger.nextJobId, nb, cells, actor⟩) .start

variable {s s' : Server} {t t' : TaskId} {op op' : Op} {l : Label} {pc pc' : Pc} {n : Next}
  {r : RoomId}

/-! ## Where a task comes from -/

/-- A move touches only its own task; `queue_execution` creates one more. -/
theorem TaskStep.tasks (h : TaskStep s t op l pc n) :
    (n.state.tasks = s.tasks ∧ n.state.nextTask = s.nextTask) ∨
      ∃ nb nb' r cells actor name o, op = .queueExecution nb' cells actor name ∧
        pc = .ensured nb r ∧ n = s.jobQueued o nb r cells actor := by
  cases h with
  | call h =>
      cases h with
      | queued => exact .inr ⟨_, _, _, _, _, _, _, rfl, rfl, rfl⟩
      | _ => exact .inl ⟨rfl, rfl⟩
  | ensure h => cases h <;> exact .inl ⟨rfl, rfl⟩
  | stop h =>
      left
      cases h with
      | unknown => cases op <;> exact ⟨rfl, rfl⟩
      | already => cases op <;> exact ⟨rfl, rfl⟩
      | cleared => cases op <;> exact ⟨rfl, rfl⟩
      | _ => exact ⟨rfl, rfl⟩
  | job h => cases h <;> exact .inl ⟨rfl, rfl⟩

theorem commit_tasks (n : Next) (t : TaskId) (op : Op) (t' : TaskId) :
    (n.commit t op).tasks t' = if t' = t then some ⟨op, n.pc⟩ else n.state.tasks t' := by
  simp [Next.commit, Function.update_apply]

theorem task_origin (h : StepCase s l s') (ht' : s'.tasks t = some ⟨op, pc⟩) :
    TaskOrigin s l s' t op pc := by
  cases h with
  | @call op₀ hrun hop =>
      simp only [spawn, Function.update_apply] at ht'
      split at ht'
      · rename_i ht
        cases ht'
        exact .called ht hop (by rw [ht]) rfl
      · exact .kept ht' (by simp [hrun]) (by simp [mover])
  | @task t₀ op₀ l pc₀ n ht h hrun hmover =>
      rw [commit_tasks] at ht'
      split at ht'
      · rename_i heq
        subst heq
        cases ht'
        exact .moved ht h rfl hmover
      · rename_i hne
        have hmover : s.mover l ≠ some t := by
          rw [hmover]
          exact fun heq => hne (Option.some.inj heq).symm
        have hrun : s.running ≠ some t := by
          rcases hrun with hrun | hrun <;> rw [hrun]
          · simp
          · exact fun heq => hne (Option.some.inj heq).symm
        rcases h.tasks with ⟨htasks, -⟩ | ⟨nb, nb', r, cells, actor, name, o, rfl, rfl, rfl⟩
        · exact .kept (by rw [← htasks]; exact ht') hrun hmover
        · simp only [jobQueued, finish, park, spawn, record, Function.update_apply] at ht'
          split at ht'
          · rename_i ht
            cases ht'
            exact .spawned ht (by simp [Next.commit, jobQueued, finish, park, spawn, record])
          · exact .kept ht' hrun hmover
  | @outside c hrun => exact .kept (by cases c <;> exact ht') (by simp [hrun]) (by simp [mover])

/-- Once it has its room, `_run_job` stays in its own code until it ends. -/
theorem JobStep.stays {job : JobRun} (h : JobStep s t job l pc n) :
    n.pc.isJob = true ∨ ∃ outcome, n.pc = .done outcome := by
  cases h with
  | clientReady hpc => rcases hpc with rfl | ⟨_, rfl⟩ | ⟨_, -, rfl⟩ <;> exact .inl rfl
  | subshellMessage hpc => rcases hpc with rfl | ⟨_, rfl⟩ | ⟨_, -, rfl⟩ <;> exact .inl rfl
  | abandoned => exact .inr ⟨_, rfl⟩
  | finished => exact .inr ⟨_, rfl⟩
  | _ => exact .inl rfl

/-- A stop moves among its own points or ends. -/
theorem StopStep.stays (h : StopStep s t op l pc n) :
    n.pc.isStop = true ∨ ∃ outcome, n.pc = .done outcome := by
  cases h with
  | swept => exact .inr ⟨_, rfl⟩
  | cancelled => exact .inr ⟨_, rfl⟩
  | unknown => cases op <;> first | exact .inl rfl | exact .inr ⟨_, rfl⟩
  | already => cases op <;> first | exact .inl rfl | exact .inr ⟨_, rfl⟩
  | cleared => cases op <;> first | exact .inl rfl | exact .inr ⟨_, rfl⟩
  | stopping _ _ hpc => rcases hpc with rfl | rfl <;> exact .inl rfl
  | _ => exact .inl rfl

/-- Only `_run_job` moves from one of its points. -/
theorem TaskStep.jobStep (h : TaskStep s t op l pc n) (hpc : pc.isJob = true) :
    ∃ job, op = .runJob job ∧ JobStep s t job l pc n := by
  cases h with
  | job h => exact ⟨_, rfl, h⟩
  | ensure h => cases h <;> cases hpc
  | stop h => cases h <;> cases hpc
  | call h =>
      cases h with
      | raised h => rcases h with rfl | ⟨_, _, rfl⟩ | ⟨_, rfl⟩ | rfl <;> cases hpc
      | _ => cases hpc

/-! ## The invariant -/

/-- A task that reaches a running point keeps control. -/
theorem TaskStep.keepsControl (h : TaskStep s t op l pc n) (hpc : n.pc.isRunning = true) :
    n.keepsControl = true := by
  cases h with
  | call h => cases h <;> first | rfl | cases hpc
  | ensure h => cases h <;> first | rfl | cases hpc
  | stop h =>
      cases h with
      | unknown => cases op <;> first | rfl | cases hpc
      | already => cases op <;> first | rfl | cases hpc
      | cleared => cases op <;> first | rfl | cases hpc
      | stopping => exact hpc
      | _ => first | rfl | cases hpc
  | job h =>
      cases h with
      | clientReady => exact hpc
      | subshellMessage => exact hpc
      | _ => first | rfl | cases hpc

/-- A move leads to a point that the call can reach. -/
theorem TaskStep.admits (h : TaskStep s t op l pc n) (hpc : op.admits pc) : op.admits n.pc := by
  cases h with
  | call h =>
      cases h with
      | load hop => exact .inl hop
      | explicit hop => exact .inr (.inl ⟨_, _, hop, rfl⟩)
      | resolved hop => exact .inr (.inl ⟨_, _, hop, rfl⟩)
      | resolving hop => exact ⟨_, _, hop⟩
      | stdinAccepted => exact .inr (.inr ⟨⟨_, _, _, rfl⟩, rfl⟩)
      | stop hop =>
          refine .inr (.inr ⟨?_, rfl⟩)
          cases op <;> simp only [Op.stops, reduceCtorEq] at hop
          · exact .inl ⟨_, rfl⟩
          · exact .inr ⟨_, rfl⟩
      | gcSweep => exact .inl rfl
      | shutdown => exact .inr rfl
      | kernelNative => exact ⟨_, rfl⟩
      | restarting => exact ⟨_, rfl⟩
      | sendInput => exact ⟨⟨_, _, _, rfl⟩, hpc.1⟩
      | interruptKernel => exact ⟨_, _, rfl⟩
      | _ => trivial
  | ensure h =>
      cases h with
      | found => exact hpc
      | absent => exact hpc
      | adopted => exact hpc
      | missing => exact hpc
      | live hop => exact ⟨⟨_, hpc⟩, hop⟩
      | dead hop => exact ⟨hpc, hop⟩
      | created => exact ⟨⟨_, hpc.1⟩, hpc.2⟩
      | started => exact hpc
      | _ => trivial
  | stop h =>
      cases h with
      | next =>
          rcases hpc with rfl | rfl
          · exact .inl rfl
          · exact .inr (.inl rfl)
      | unknown => cases op <;> first | trivial | exact .inl rfl | exact .inr rfl
      | already => cases op <;> first | trivial | exact .inl rfl | exact .inr rfl
      | cleared => cases op <;> first | trivial | exact .inl rfl | exact .inr rfl
      | stopping hr hstate hpc' =>
          rcases hpc' with rfl | rfl
          · exact hpc
          · exact hpc
      | deleted => exact hpc
      | deleteRaised => exact hpc
      | _ => trivial
  | job h =>
      cases h with
      | clientReady hpc' =>
          rcases hpc' with rfl | ⟨_, rfl⟩ | ⟨_, -, rfl⟩ <;> exact ⟨_, rfl⟩
      | subshellMessage hpc' =>
          rcases hpc' with rfl | ⟨_, rfl⟩ | ⟨_, -, rfl⟩ <;> exact ⟨_, rfl⟩
      | abandoned => trivial
      | finished => trivial
      | _ => exact ⟨_, rfl⟩

/-- The facts about a state that no run breaks. -/
structure WellFormed (s : Server) : Prop where
  fresh : ∀ t, s.nextTask ≤ t → s.tasks t = none
  control : ∀ {t op pc}, s.tasks t = some ⟨op, pc⟩ → pc.isRunning = true → s.running = some t
  admits : ∀ {t op pc}, s.tasks t = some ⟨op, pc⟩ → op.admits pc
  registered : ∀ r ∈ s.mgr.rooms, r < s.mgr.nextRoomId
  mapped : ∀ {nb r}, s.mgr.notebookToRoom nb = some r →
    r < s.mgr.nextRoomId ∧ (s.room r).notebookId = nb
  held : ∀ {t op pc r}, s.tasks t = some ⟨op, pc⟩ → r ∈ pc.rooms → r < s.mgr.nextRoomId
  named : ∀ {t op pc nb r}, s.tasks t = some ⟨op, pc⟩ → pc.namedRoom = some (nb, r) →
    (s.room r).notebookId = nb

theorem wellFormed_boot {ttl : Time} {maxCompleted : Int} {alive : KernelId → Bool}
    {kernelspec : NotebookId → Option String} :
    WellFormed (boot ttl maxCompleted alive kernelspec) where
  fresh _ _ := rfl
  control h := by cases h
  admits h := by cases h
  registered _ h := by cases h
  mapped h := by cases h
  held h := by cases h
  named h := by cases h

/-! ## The invariant is preserved -/

/-- The rooms a task holds on to after a move it held before, found registered, or built. -/
theorem TaskStep.rooms (h : TaskStep s t op l pc n) (hr : r ∈ n.pc.rooms) :
    r ∈ pc.rooms ∨ r ∈ s.mgr.rooms ∨
      r = s.mgr.nextRoomId ∧ n.state.mgr.nextRoomId = s.mgr.nextRoomId + 1 := by
  cases h with
  | call h =>
      cases h with
      | gcSweep => exact .inr (.inl (List.mem_of_mem_filter hr))
      | shutdown => exact .inr (.inl hr)
      | sendInput => exact .inl hr
      | interruptKernel => exact .inl hr
      | _ => cases hr
  | ensure h =>
      cases h with
      | found hfound =>
          rw [RuntimeManager.roomForNotebook_eq_some] at hfound
          rw [List.mem_singleton.mp hr]
          exact .inr (.inl hfound.2)
      | adopted => exact .inr (.inr ⟨List.mem_singleton.mp hr, rfl⟩)
      | live => exact .inl hr
      | created => exact .inr (.inr ⟨List.mem_singleton.mp hr, rfl⟩)
      | started => exact .inl hr
      | _ => cases hr
  | stop h =>
      cases h with
      | next => exact .inl (List.mem_cons_of_mem _ hr)
      | unknown => cases op <;> first | exact .inl hr | cases hr
      | already => cases op <;> first | exact .inl hr | cases hr
      | cleared => cases op <;> first | exact .inl (List.mem_cons_of_mem _ hr) | cases hr
      | @stopping o r₀ rest stopped pc es hmem hstate hpc =>
          have hr : r ∈ r₀ :: rest := by rcases hpc with rfl | rfl <;> exact hr
          rcases List.mem_cons.mp hr with rfl | hr
          · exact .inr (.inl hmem)
          · exact .inl hr
      | deleted => exact .inl hr
      | deleteRaised => exact .inl hr
      | _ => cases hr
  | job h =>
      cases h with
      | clientReady hpc =>
          rcases hpc with rfl | ⟨_, rfl⟩ | ⟨_, -, rfl⟩ <;> exact .inl hr
      | subshellMessage hpc =>
          rcases hpc with rfl | ⟨_, rfl⟩ | ⟨_, -, rfl⟩ <;> exact .inl hr
      | stepRaised hpc =>
          rcases hpc with ⟨_, _, rfl⟩ | ⟨_, rfl⟩ | ⟨_, _, rfl⟩ | ⟨_, _, rfl⟩ | ⟨_, _, rfl⟩ |
            ⟨-, _, _, _, rfl⟩ <;> exact .inl hr
      | abandoned => cases hr
      | finished => cases hr
      | _ => exact .inl hr

/-- The notebook a program point takes a room to be for is that of the room. -/
theorem TaskStep.named {nb : NotebookId} (h : TaskStep s t op l pc n)
    (hr : n.pc.namedRoom = some (nb, r)) :
    pc.namedRoom = some (nb, r) ∨ s.mgr.notebookToRoom nb = some r ∨
      r = s.mgr.nextRoomId ∧ (n.state.room r).notebookId = nb := by
  cases h with
  | call h =>
      cases h with
      | sendInput => exact .inl hr
      | _ => cases hr
  | ensure h =>
      cases h with
      | found hfound =>
          cases hr
          exact .inr (.inl (RuntimeManager.roomForNotebook_eq_some.mp hfound).1)
      | adopted =>
          cases hr
          exact .inr (.inr ⟨rfl, by simp [Server.room, adoptSession, goto, RuntimeManager.register,
            NotebookRoom.adopted, NotebookRoom.fresh]⟩)
      | live => exact .inl hr
      | created =>
          cases hr
          exact .inr (.inr ⟨rfl, by simp [Server.room, startRoom, park, record,
            RuntimeManager.register, NotebookRoom.fresh]⟩)
      | started => exact .inl hr
      | _ => cases hr
  | stop h =>
      rcases h.stays with hstop | ⟨_, hdone⟩
      · rw [Pc.namedRoom_of_isStop hstop] at hr
        cases hr
      · rw [hdone] at hr
        cases hr
  | job h =>
      cases h with
      | clientReady hpc => rcases hpc with rfl | ⟨_, rfl⟩ | ⟨_, -, rfl⟩ <;> cases hr
      | subshellMessage hpc => rcases hpc with rfl | ⟨_, rfl⟩ | ⟨_, -, rfl⟩ <;> cases hr
      | _ => cases hr

/-- A step outside the tasks leaves the registry alone. -/
theorem StepCase.mgr (h : StepCase s l s') :
    s'.mgr = s.mgr ∨ ∃ t op pc n, s.tasks t = some ⟨op, pc⟩ ∧ TaskStep s t op l pc n ∧
      s' = n.commit t op ∧ s.mover l = some t := by
  cases h with
  | call => exact .inl rfl
  | task ht h hrun hmover => exact .inr ⟨_, _, _, _, ht, h, rfl, hmover⟩
  | @outside c => exact .inl (by cases c <;> rfl)

theorem nextTask_le (h : StepCase s l s') : s.nextTask ≤ s'.nextTask := by
  cases h with
  | call => exact Nat.le_succ _
  | task _ hmove =>
      rcases hmove.tasks with ⟨-, hnext⟩ | ⟨_, _, _, _, _, _, _, -, -, rfl⟩
      · exact hnext.ge
      · exact Nat.le_succ _
  | @outside c => cases c <;> exact le_rfl

theorem nextRoomId_le (h : StepCase s l s') : s.mgr.nextRoomId ≤ s'.mgr.nextRoomId := by
  rcases h.mgr with hmgr | ⟨t, op, pc, n, -, hmove, rfl, -⟩
  · rw [hmgr]
  · exact hmove.registry.nextRoomId_le

/-- A room object keeps its notebook. -/
theorem room_notebookId (h : StepCase s l s') (hr : r < s.mgr.nextRoomId) :
    (s'.room r).notebookId = (s.room r).notebookId := by
  rcases h.mgr with hmgr | ⟨t, op, pc, n, -, hmove, rfl, -⟩
  · rw [Server.room, hmgr, Server.room]
  · exact (hmove.room (Nat.ne_of_lt hr)).notebookId

namespace WellFormed

theorem lt_nextTask (hw : WellFormed s) (ht : s.tasks t = some ⟨op, pc⟩) : t < s.nextTask := by
  by_contra hle
  rw [hw.fresh t (Nat.le_of_not_lt hle)] at ht
  cases ht

/-- Where a task goes in a step. -/
theorem task_next (hw : WellFormed s) (h : StepCase s l s') (ht : s.tasks t = some ⟨op, pc⟩) :
    s'.tasks t = some ⟨op, pc⟩ ∧ s.mover l ≠ some t ∨
      ∃ n, TaskStep s t op l pc n ∧ s' = n.commit t op ∧ s.mover l = some t := by
  have hlt := hw.lt_nextTask ht
  cases h with
  | call => exact .inl ⟨(Function.update_of_ne hlt.ne _ _).trans ht, by simp [mover]⟩
  | @task t₀ op₀ l pc₀ n ht₀ h _ hmover =>
      by_cases heq : t = t₀
      · subst heq
        rw [ht] at ht₀
        cases ht₀
        exact .inr ⟨n, h, rfl, hmover⟩
      · refine .inl ⟨?_, ?_⟩
        · rw [commit_tasks, if_neg heq]
          rcases h.tasks with ⟨htasks, -⟩ | ⟨nb, nb', r, cells, actor, name, o, -, -, rfl⟩
          · rw [htasks]
            exact ht
          · exact (Function.update_of_ne hlt.ne _ _).trans ht
        · rw [hmover]
          exact fun h => heq (Option.some.inj h).symm
  | @outside c => exact .inl ⟨by cases c <;> exact ht, by simp [mover]⟩

/-- A task goes on executing its call. -/
theorem task_stays (hw : WellFormed s) (h : StepCase s l s') (ht : s.tasks t = some ⟨op, pc⟩) :
    ∃ pc', s'.tasks t = some ⟨op, pc'⟩ := by
  rcases hw.task_next h ht with ⟨ht', -⟩ | ⟨n, -, rfl, -⟩
  · exact ⟨pc, ht'⟩
  · exact ⟨n.pc, by rw [commit_tasks, if_pos rfl]⟩

theorem fresh_step (hw : WellFormed s) (h : StepCase s l s') (ht : s'.nextTask ≤ t) :
    s'.tasks t = none := by
  cases h with
  | call =>
      have hlt : s.nextTask < t := ht
      simp only [spawn, Function.update_of_ne hlt.ne']
      exact hw.fresh t hlt.le
  | @task t₀ op₀ l pc₀ n ht₀ h =>
      have hlt := hw.lt_nextTask ht₀
      rw [commit_tasks]
      rcases h.tasks with ⟨htasks, hnext⟩ | ⟨nb, nb', r, cells, actor, name, o, -, -, rfl⟩
      · have hle : s.nextTask ≤ t := hnext ▸ ht
        rw [if_neg (hlt.trans_le hle).ne', htasks]
        exact hw.fresh t hle
      · have hlt' : s.nextTask < t := ht
        rw [if_neg (hlt.trans hlt').ne']
        simp only [jobQueued, finish, park, spawn, record, Function.update_of_ne hlt'.ne']
        exact hw.fresh t hlt'.le
  | @outside c =>
      have htasks : (s.change c).tasks = s.tasks := by cases c <;> rfl
      have hnext : (s.change c).nextTask = s.nextTask := by cases c <;> rfl
      rw [htasks]
      exact hw.fresh t (hnext ▸ ht)

theorem control_step (hw : WellFormed s) (h : StepCase s l s')
    (ht : s'.tasks t = some ⟨op, pc⟩) (hpc : pc.isRunning = true) : s'.running = some t := by
  cases h with
  | call hrun hop =>
      simp only [spawn, Function.update_apply] at ht
      split at ht
      · cases ht
        cases hpc
      · have := hw.control ht hpc
        rw [hrun] at this
        cases this
  | @task t₀ op₀ l pc₀ n ht₀ h hrun =>
      rw [commit_tasks] at ht
      split at ht
      · rename_i heq
        subst heq
        cases ht
        simp only [Next.commit, h.keepsControl hpc, if_true]
      · rename_i hne
        have hkept : s.tasks t = some ⟨op, pc⟩ := by
          rcases h.tasks with ⟨htasks, -⟩ | ⟨nb, nb', r, cells, actor, name, o, -, -, rfl⟩
          · rw [← htasks]
            exact ht
          · simp only [jobQueued, finish, park, spawn, record, Function.update_apply] at ht
            split at ht
            · cases ht
              cases hpc
            · exact ht
        have hcontrol := hw.control hkept hpc
        rcases hrun with hrun | hrun
        · rw [hrun] at hcontrol
          cases hcontrol
        · rw [hrun] at hcontrol
          exact absurd (Option.some.inj hcontrol).symm hne
  | @outside c hrun =>
      have htasks : (s.change c).tasks = s.tasks := by cases c <;> rfl
      rw [htasks] at ht
      have := hw.control ht hpc
      rw [hrun] at this
      cases this

/-- A task at a running point has just been moved there. -/
theorem moved_to (hw : WellFormed s) (h : StepCase s l s') (ht : s'.tasks t = some ⟨op, pc⟩)
    (hpc : pc.isRunning = true) :
    ∃ pc₀ n, s.tasks t = some ⟨op, pc₀⟩ ∧ TaskStep s t op l pc₀ n ∧ n.pc = pc ∧
      s' = n.commit t op ∧ s.mover l = some t := by
  cases task_origin h ht with
  | kept ht₀ hrun _ => exact absurd (hw.control ht₀ hpc) hrun
  | moved ht₀ hmove heq hmover => exact ⟨_, _, ht₀, hmove, rfl, heq, hmover⟩
  | called => cases hpc
  | spawned => cases hpc

theorem admits_step (hw : WellFormed s) (h : StepCase s l s')
    (ht : s'.tasks t = some ⟨op, pc⟩) : op.admits pc := by
  cases task_origin h ht with
  | kept ht => exact hw.admits ht
  | moved ht₀ hmove => exact hmove.admits (hw.admits ht₀)
  | called => trivial
  | spawned => trivial

theorem registered_step (hw : WellFormed s) (h : StepCase s l s') (hr : r ∈ s'.mgr.rooms) :
    r < s'.mgr.nextRoomId := by
  rcases h.mgr with hmgr | ⟨t, op, pc, n, -, hmove, rfl, -⟩
  · rw [hmgr] at hr ⊢
    exact hw.registered r hr
  · change r ∈ n.state.mgr.rooms at hr
    change r < n.state.mgr.nextRoomId
    cases hmove.registry with
    | kept h =>
        rw [h.nextRoomId]
        exact hw.registered r (h.rooms ▸ hr)
    | created h =>
        rw [h] at hr ⊢
        rcases List.mem_append.mp hr with hr | hr
        · exact Nat.lt_succ_of_lt (hw.registered r hr)
        · rw [List.mem_singleton.mp hr]
          exact Nat.lt_succ_self _
    | adopted _ h =>
        rw [h] at hr ⊢
        rcases List.mem_append.mp hr with hr | hr
        · exact Nat.lt_succ_of_lt (hw.registered r hr)
        · rw [List.mem_singleton.mp hr]
          exact Nat.lt_succ_self _
    | unregistered h =>
        rw [h] at hr ⊢
        exact hw.registered r (List.mem_of_mem_filter hr)

theorem mapped_step {nb : NotebookId} (hw : WellFormed s) (h : StepCase s l s')
    (hr : s'.mgr.notebookToRoom nb = some r) :
    r < s'.mgr.nextRoomId ∧ (s'.room r).notebookId = nb := by
  suffices hold : s.mgr.notebookToRoom nb = some r ∨
      r < s'.mgr.nextRoomId ∧ (s'.room r).notebookId = nb by
    rcases hold with hold | hnew
    · obtain ⟨hlt, hname⟩ := hw.mapped hold
      exact ⟨hlt.trans_le (nextRoomId_le h), (room_notebookId h hlt).trans hname⟩
    · exact hnew
  rcases h.mgr with hmgr | ⟨t, op, pc, n, -, hmove, rfl, -⟩
  · rw [hmgr] at hr
    exact .inl hr
  · change n.state.mgr.notebookToRoom nb = some r at hr
    change _ ∨ r < n.state.mgr.nextRoomId ∧ (n.state.mgr.heap r).notebookId = nb
    cases hmove.registry with
    | kept h => exact .inl (h.notebookToRoom ▸ hr)
    | created h =>
        rw [h] at hr ⊢
        simp only [RuntimeManager.register, Function.update_apply] at hr ⊢
        split at hr
        · rename_i hnb
          cases hr
          exact .inr ⟨Nat.lt_succ_self _, by simp [hnb]⟩
        · exact .inl hr
    | adopted _ h =>
        rw [h] at hr ⊢
        simp only [RuntimeManager.register, Function.update_apply] at hr ⊢
        split at hr
        · rename_i hnb
          cases hr
          exact .inr ⟨Nat.lt_succ_self _, by simp [hnb]⟩
        · exact .inl hr
    | unregistered h =>
        rw [h] at hr
        simp only [RuntimeManager.unregister, RuntimeManager.modify, Function.update_apply,
          ite_eq_iff, reduceCtorEq, and_false, false_or] at hr
        exact .inl hr.2

theorem held_step (hw : WellFormed s) (h : StepCase s l s') (ht : s'.tasks t = some ⟨op, pc⟩)
    (hr : r ∈ pc.rooms) : r < s'.mgr.nextRoomId := by
  cases task_origin h ht with
  | kept ht => exact (hw.held ht hr).trans_le (nextRoomId_le h)
  | moved ht₀ hmove hs =>
      rcases hmove.rooms hr with hr | hr | ⟨rfl, hnext⟩
      · exact (hw.held ht₀ hr).trans_le (nextRoomId_le h)
      · exact (hw.registered r hr).trans_le (nextRoomId_le h)
      · rw [hs]
        exact (Nat.lt_succ_self _).trans_eq hnext.symm
  | called => cases hr
  | spawned => cases hr

theorem named_step {nb : NotebookId} (hw : WellFormed s) (h : StepCase s l s')
    (ht : s'.tasks t = some ⟨op, pc⟩) (hr : pc.namedRoom = some (nb, r)) :
    (s'.room r).notebookId = nb := by
  have hold : ∀ {pc}, s.tasks t = some ⟨op, pc⟩ → pc.namedRoom = some (nb, r) →
      (s'.room r).notebookId = nb := by
    intro pc ht hr
    exact (room_notebookId h (hw.held ht (Pc.mem_rooms_of_namedRoom hr))).trans (hw.named ht hr)
  cases task_origin h ht with
  | kept ht => exact hold ht hr
  | moved ht₀ hmove hs =>
      rcases hmove.named hr with hr | hr | ⟨rfl, hname⟩
      · exact hold ht₀ hr
      · obtain ⟨hlt, hname⟩ := hw.mapped hr
        exact (room_notebookId h hlt).trans hname
      · rw [hs]
        exact hname
  | called => cases hr
  | spawned => cases hr

theorem step (hw : WellFormed s) (h : s.step l = some s') : WellFormed s' :=
  have h := step_cases h
  { fresh := fun _ => hw.fresh_step h
    control := hw.control_step h
    admits := hw.admits_step h
    registered := fun _ => hw.registered_step h
    mapped := hw.mapped_step h
    held := hw.held_step h
    named := hw.named_step h }

end WellFormed

/-- Every reachable state is well formed, whatever the environment does. -/
theorem wellFormed_run {G : Server → Label → Prop} {s₀ : Server} (h : ServerRun G s₀ s)
    (hw : WellFormed s₀) : WellFormed s :=
  h.invariant hw fun _ _ _ hw _ hstep => hw.step hstep

end Server

end Hypernote
