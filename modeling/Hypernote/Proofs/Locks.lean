import Hypernote.Proofs.Kernels
/-!
# The job locks

The lock of a room is held by one task at a time, namely by the one that is inside the
`async with` of `_run_job`, and the tasks that wait for it are its waiters.  A job works with
a room of its own notebook.
-/

namespace Hypernote

open Foundation

namespace Pc

/-- The room whose lock a task holds: it is inside the `async with`. -/
def holds : Pc → Option RoomId
  | .locked r | .nextCell r _ | .clientReady r _ _ | .subshellReply r _ _ _ | .readingSource r _
  | .readingDocument r _ _ | .polling r _ _ | .sleeping r _ _ | .flushing r _ _ | .jobRaised r _
  | .jobFinally r _ => some r
  | _ => none

/-- The room for whose lock a task waits. -/
def waits : Pc → Option RoomId
  | .awaitingLock r => some r
  | _ => none

/-- The room whose lock the next step of a task may write. -/
def writesLock (op : Op) : Pc → Option RoomId
  | .ensured _ r =>
    match op with
    | .runJob _ => some r
    | _ => none
  | .awaitingLock r | .jobFinally r _ => some r
  | _ => none

theorem usedRoom_of_holds {pc : Pc} {r : RoomId} (h : pc.holds = some r) :
    pc.usedRoom = some r := by
  cases pc <;> first | exact h | cases h

theorem usedRoom_of_waits {pc : Pc} {r : RoomId} (h : pc.waits = some r) :
    pc.usedRoom = some r := by
  cases pc <;> first | exact h | cases h

end Pc

namespace Server

variable {s s' : Server} {l : Label} {t t' : TaskId} {op op' : Op} {pc pc' : Pc} {n : Next}
  {r : RoomId} {run : JobRun}

/-- What a move does to the lock of a room. -/
inductive LockStep (s : Server) (t : TaskId) (pc pc' : Pc) (r : RoomId) : AsyncLock TaskId → Prop
  | kept (hholds : pc'.holds = some r ↔ pc.holds = some r)
      (hwaits : pc'.waits = some r ↔ pc.waits = some r) :
      LockStep s t pc pc' r (s.room r).jobLock
  | acquired {nb} (hpc : pc = .ensured nb r) (hpc' : pc' = .locked r)
      (hlock : (s.room r).jobLock.canAcquire = true) :
      LockStep s t pc pc' r (s.room r).jobLock.acquire
  | enqueued {nb} (hpc : pc = .ensured nb r) (hpc' : pc' = .awaitingLock r)
      (hlock : (s.room r).jobLock.canAcquire = false) :
      LockStep s t pc pc' r ((s.room r).jobLock.enqueue t)
  | woken (hpc : pc = .awaitingLock r) (hpc' : pc' = .locked r)
      (hlock : (s.room r).jobLock.mayWake t = true) :
      LockStep s t pc pc' r (s.room r).jobLock.wake
  | abandoned {outcome} (hpc : pc = .awaitingLock r) (hpc' : pc' = .done outcome) :
      LockStep s t pc pc' r ((s.room r).jobLock.abandon t)
  | released {pending outcome} (hpc : pc = .jobFinally r pending) (hpc' : pc' = .done outcome) :
      LockStep s t pc pc' r (s.room r).jobLock.release

/-- Only `_run_job` writes the lock of a room, at its ends. -/
theorem RoomStep.jobLock {room : NotebookRoom} (h : RoomStep s op pc pc' r room)
    (hpc : pc.writesLock op ≠ some r) : room.jobLock = (s.room r).jobLock := by
  cases h with
  | lock hlock hop =>
      obtain ⟨job, rfl⟩ := hop
      rcases hlock with ⟨nb, rfl⟩ | rfl
      · exact absurd rfl hpc
      · exact absurd rfl hpc
  | jobFinished hends _ _ _ hlock =>
      subst hends
      rw [if_neg] at hlock
      · exact hlock
      · rintro rfl
        exact hpc rfl
  | _ => rfl

/-- The end of the `async with` releases the lock. -/
theorem jobLock_jobFinally {o : Oracle} {pending : Option PyError} {mgr : RuntimeManager}
    {outcome : Outcome}
    (hn : s.jobFinally o run r pending = ⟨{ s with mgr := mgr }, .done outcome, false⟩) :
    (mgr.heap r).jobLock = (s.room r).jobLock.release := by
  obtain ⟨jobs, now, -, hmark⟩ := markJobFinished_room s r run.notebookId run.jobId o.now
  obtain ⟨mgr', rfl, hmgr'⟩ := jobFinally_mgr hn
  have hsame : (mgr'.heap r).jobLock = (s.room r).jobLock := by
    rcases hmgr' with rfl | rfl | ⟨-, -, rfl⟩
    · rw [hmark]
    · obtain ⟨now', htouched⟩ :=
        (s.mgr.markJobFinished run.notebookId run.jobId o.now).heap_touchActivity r o.now r
      rw [htouched, hmark]
    · rw [RuntimeManager.setRuntimeState, RuntimeManager.heap_modify, if_pos rfl, hmark]
  rw [RuntimeManager.heap_modify, if_pos rfl, hsame]

theorem TaskStep.lock (h : TaskStep s t op l pc n) (hr : r ≠ s.mgr.nextRoomId) :
    LockStep s t pc n.pc r (n.state.room r).jobLock := by
  have hroom := h.room hr
  have hkept : pc.writesLock op ≠ some r → (n.pc.holds = some r ↔ pc.holds = some r) →
      (n.pc.waits = some r ↔ pc.waits = some r) →
      LockStep s t pc n.pc r (n.state.room r).jobLock := by
    intro hpc hholds hwaits
    rw [hroom.jobLock hpc]
    exact .kept hholds hwaits
  -- a step that has nothing to do with a lock
  have hquiet : pc.writesLock op = none → n.pc.holds = pc.holds → n.pc.waits = pc.waits →
      LockStep s t pc n.pc r (n.state.room r).jobLock := by
    intro hpc hholds hwaits
    refine hkept ?_ (by rw [hholds]) (by rw [hwaits])
    rw [hpc]
    exact Option.some_ne_none r ∘ Eq.symm
  cases h with
  | job h =>
      cases h with
      | @acquired o nb r₀ hlock =>
          by_cases heq : r = r₀
          · subst heq
            change LockStep s t _ _ r ((s.mgr.modify r fun room =>
              { room with jobLock := room.jobLock.acquire }).heap r).jobLock
            rw [RuntimeManager.heap_modify, if_pos rfl]
            exact .acquired rfl rfl hlock
          · apply hkept <;> simp [Pc.writesLock, Pc.holds, Pc.waits, Ne.symm heq]
      | @enqueued o nb r₀ hlock =>
          by_cases heq : r = r₀
          · subst heq
            change LockStep s t _ _ r ((s.mgr.modify r fun room =>
              { room with jobLock := room.jobLock.enqueue t }).heap r).jobLock
            rw [RuntimeManager.heap_modify, if_pos rfl]
            exact .enqueued rfl rfl hlock
          · apply hkept <;> simp [Pc.writesLock, Pc.holds, Pc.waits, Ne.symm heq]
      | @woken o r₀ hlock =>
          by_cases heq : r = r₀
          · subst heq
            change LockStep s t _ _ r ((s.mgr.modify r fun room =>
              { room with jobLock := room.jobLock.wake }).heap r).jobLock
            rw [RuntimeManager.heap_modify, if_pos rfl]
            exact .woken rfl rfl hlock
          · apply hkept <;> simp [Pc.writesLock, Pc.holds, Pc.waits, Ne.symm heq]
      | @abandoned o r₀ error =>
          by_cases heq : r = r₀
          · subst heq
            change LockStep s t _ _ r ((s.mgr.modify r fun room =>
              { room with jobLock := room.jobLock.abandon t }).heap r).jobLock
            rw [RuntimeManager.heap_modify, if_pos rfl]
            exact .abandoned rfl rfl
          · apply hkept <;> simp [Pc.writesLock, Pc.holds, Pc.waits, Ne.symm heq]
      | @finished o r₀ pending mgr outcome hn =>
          by_cases heq : r = r₀
          · subst heq
            change LockStep s t _ _ r (mgr.heap r).jobLock
            rw [jobLock_jobFinally hn]
            exact .released rfl rfl
          · apply hkept <;> simp [Pc.writesLock, Pc.holds, Pc.waits, Ne.symm heq]
      | clientReady hpc => rcases hpc with rfl | ⟨_, rfl⟩ | ⟨_, -, rfl⟩ <;> exact hquiet rfl rfl rfl
      | subshellMessage hpc =>
          rcases hpc with rfl | ⟨_, rfl⟩ | ⟨_, -, rfl⟩ <;> exact hquiet rfl rfl rfl
      | stepRaised hpc =>
          rcases hpc with ⟨_, _, rfl⟩ | ⟨_, rfl⟩ | ⟨_, _, rfl⟩ | ⟨_, _, rfl⟩ | ⟨_, _, rfl⟩ |
            ⟨-, _, _, _, rfl⟩ <;>
            exact hquiet rfl rfl rfl
      | _ => exact hquiet rfl rfl rfl
  | ensure h => cases h <;> exact hquiet rfl rfl rfl
  | stop h =>
      cases h with
      | unknown => cases op <;> exact hquiet rfl rfl rfl
      | already => cases op <;> exact hquiet rfl rfl rfl
      | cleared => cases op <;> exact hquiet rfl rfl rfl
      | stopping _ _ hpc => rcases hpc with rfl | rfl <;> exact hquiet rfl rfl rfl
      | _ => exact hquiet rfl rfl rfl
  | call h =>
      cases h with
      | opened hop =>
          refine hquiet ?_ rfl rfl
          cases op with
          | runJob => cases hop
          | _ => rfl
      | raised hpc =>
          rcases hpc with rfl | ⟨_, _, rfl⟩ | ⟨_, rfl⟩ | rfl <;> exact hquiet rfl rfl rfl
      | _ => exact hquiet rfl rfl rfl

/-! ## The invariant -/

/-- The task is at a program point of this kind. -/
def At (s : Server) (f : Pc → Option RoomId) (r : RoomId) (t : TaskId) : Prop :=
  ∃ op pc, s.tasks t = some ⟨op, pc⟩ ∧ f pc = some r

theorem at_kept {f : Pc → Option RoomId} (hf : f .start = none) (hw : WellFormed s)
    (h : StepCase s l s') (hmover : s.mover l ≠ some t) : At s' f r t ↔ At s f r t := by
  constructor
  · rintro ⟨op, pc, ht, hpc⟩
    cases task_origin h ht with
    | kept ht₀ => exact ⟨op, pc, ht₀, hpc⟩
    | moved _ _ _ hmover' => exact absurd hmover' hmover
    | called =>
        rw [hf] at hpc
        cases hpc
    | spawned =>
        rw [hf] at hpc
        cases hpc
  · rintro ⟨op, pc, ht, hpc⟩
    rcases hw.task_next h ht with ⟨ht', -⟩ | ⟨n, -, -, hmover'⟩
    · exact ⟨op, pc, ht', hpc⟩
    · exact absurd hmover' hmover

theorem at_moved {f : Pc → Option RoomId} {n : Next} :
    At (n.commit t op) f r t ↔ f n.pc = some r := by
  constructor
  · rintro ⟨op', pc', ht, hpc⟩
    rw [commit_tasks, if_pos rfl] at ht
    cases ht
    exact hpc
  · intro hpc
    exact ⟨op, n.pc, by rw [commit_tasks, if_pos rfl], hpc⟩

theorem at_iff {f : Pc → Option RoomId} (ht : s.tasks t = some ⟨op, pc⟩) :
    At s f r t ↔ f pc = some r := by
  constructor
  · rintro ⟨op', pc', ht', hpc⟩
    cases ht.symm.trans ht'
    exact hpc
  · exact fun hpc => ⟨op, pc, ht, hpc⟩

/-- Who holds the lock of a room and who waits for it. -/
structure LockOk (s : Server) (r : RoomId) : Prop where
  held : (s.room r).jobLock.locked = true ↔ ∃ t, At s Pc.holds r t
  single : ∀ {t t'}, At s Pc.holds r t → At s Pc.holds r t' → t = t'
  waiting : ∀ {t}, t ∈ (s.room r).jobLock.waiters ↔ At s Pc.waits r t
  nodup : (s.room r).jobLock.waiters.Nodup

namespace LockOk

/-- The lock stays with whom it is, whatever happens to the queue. -/
theorem queue (hs : LockOk s r) (hlocked : (s'.room r).jobLock.locked = (s.room r).jobLock.locked)
    (hholds : ∀ t, At s' Pc.holds r t ↔ At s Pc.holds r t)
    (hwaits : ∀ t, t ∈ (s'.room r).jobLock.waiters ↔ At s' Pc.waits r t)
    (hnodup : (s'.room r).jobLock.waiters.Nodup) : LockOk s' r where
  held := by
    rw [hlocked, hs.held]
    exact exists_congr fun t => (hholds t).symm
  single ht ht' := hs.single ((hholds _).mp ht) ((hholds _).mp ht')
  waiting := hwaits _
  nodup := hnodup

theorem of_same (hs : LockOk s r) (hlock : (s'.room r).jobLock = (s.room r).jobLock)
    (hholds : ∀ t, At s' Pc.holds r t ↔ At s Pc.holds r t)
    (hwaits : ∀ t, At s' Pc.waits r t ↔ At s Pc.waits r t) : LockOk s' r := by
  refine hs.queue (by rw [hlock]) hholds ?_ (hlock ▸ hs.nodup)
  intro t
  rw [hlock, hs.waiting, hwaits]

/-- A task takes a lock that is free. -/
theorem take {waiters : List TaskId} (hs : LockOk s r)
    (hfree : (s.room r).jobLock.locked = false)
    (hlock : (s'.room r).jobLock = ⟨true, waiters⟩) (ht : At s' Pc.holds r t)
    (hother : ∀ t', t' ≠ t → (At s' Pc.holds r t' ↔ At s Pc.holds r t'))
    (hwaits : ∀ t', t' ∈ waiters ↔ At s' Pc.waits r t') (hnodup : waiters.Nodup) :
    LockOk s' r where
  held := by
    rw [hlock]
    exact ⟨fun _ => ⟨t, ht⟩, fun _ => rfl⟩
  single := by
    have hnone : ∀ t', t' ≠ t → ¬ At s' Pc.holds r t' := by
      intro t' hne ht'
      rw [hs.held.mpr ⟨t', (hother t' hne).mp ht'⟩] at hfree
      cases hfree
    intro u u' hu hu'
    have hut : u = t := by_contra fun hne => hnone u hne hu
    have hut' : u' = t := by_contra fun hne => hnone u' hne hu'
    rw [hut, hut']
  waiting := by
    intro t'
    rw [hlock]
    exact hwaits t'
  nodup := by
    rw [hlock]
    exact hnodup

theorem step (hs : LockOk s r) (hw : WellFormed s) (h : StepCase s l (n.commit t op))
    (ht : s.tasks t = some ⟨op, pc⟩) (hmover : s.mover l = some t)
    (hlock : LockStep s t pc n.pc r ((n.commit t op).room r).jobLock) :
    LockOk (n.commit t op) r := by
  have hother : ∀ {f : Pc → Option RoomId} {t'}, f .start = none → t' ≠ t →
      (At (n.commit t op) f r t' ↔ At s f r t') := by
    intro f t' hf hne
    apply at_kept hf hw h
    rw [hmover]
    exact fun heq => hne (Option.some.inj heq).symm
  -- a kind of point that the mover neither leaves nor reaches
  have hsame : ∀ {f : Pc → Option RoomId}, f .start = none →
      (f n.pc = some r ↔ f pc = some r) → ∀ t', At (n.commit t op) f r t' ↔ At s f r t' := by
    intro f hf hpc t'
    by_cases heq : t' = t
    · rw [heq, at_moved, at_iff ht, hpc]
    · exact hother hf heq
  generalize hlock' : ((n.commit t op).room r).jobLock = lock at hlock
  cases hlock with
  | kept hholds hwaits => exact hs.of_same hlock' (hsame rfl hholds) (hsame rfl hwaits)
  | acquired hpc hpc' hfree =>
      simp only [AsyncLock.canAcquire, Bool.and_eq_true, Bool.not_eq_true', List.isEmpty_iff]
        at hfree
      refine hs.take hfree.1 hlock' (at_moved.mpr (by rw [hpc']; rfl)) (fun _ => hother rfl) ?_
        hs.nodup
      intro t'
      rw [hs.waiting, hsame (f := Pc.waits) rfl (by rw [hpc, hpc']; exact Iff.rfl)]
  | woken hpc hpc' hwake =>
      simp only [AsyncLock.mayWake, Bool.and_eq_true, Bool.not_eq_true', decide_eq_true_eq] at hwake
      obtain ⟨hfree, hhead⟩ := hwake
      obtain ⟨rest, hwaiters⟩ := List.head?_eq_some_iff.mp hhead
      have hnodup := hs.nodup
      rw [hwaiters] at hnodup
      obtain ⟨hnot, hrest⟩ := List.nodup_cons.mp hnodup
      have hlock'' : ((n.commit t op).room r).jobLock = ⟨true, rest⟩ := by
        rw [hlock', AsyncLock.wake, hwaiters]
        rfl
      refine hs.take hfree hlock'' (at_moved.mpr (by rw [hpc']; rfl)) (fun _ => hother rfl) ?_ hrest
      intro t'
      by_cases heq : t' = t
      · subst heq
        rw [at_moved, hpc']
        exact ⟨fun hmem => absurd hmem hnot, fun hwaits => by cases hwaits⟩
      · rw [hother rfl heq, ← hs.waiting, hwaiters, List.mem_cons, or_iff_right heq]
  | enqueued hpc hpc' =>
      have hnot : t ∉ (s.room r).jobLock.waiters := by
        rw [hs.waiting, at_iff ht, hpc]
        exact fun h => by cases h
      refine hs.queue (by rw [hlock', AsyncLock.enqueue])
        (hsame (f := Pc.holds) rfl (by rw [hpc, hpc']; exact Iff.rfl)) ?_ ?_
      · intro t'
        rw [hlock', AsyncLock.enqueue, List.mem_append, List.mem_singleton]
        by_cases heq : t' = t
        · rw [heq, at_moved, hpc']
          exact ⟨fun _ => rfl, fun _ => .inr rfl⟩
        · rw [hother rfl heq, hs.waiting, or_iff_left heq]
      · rw [hlock', AsyncLock.enqueue]
        exact hs.nodup.append (List.nodup_singleton t) (by simpa using hnot)
  | abandoned hpc hpc' =>
      refine hs.queue (by rw [hlock', AsyncLock.abandon])
        (hsame (f := Pc.holds) rfl (by rw [hpc, hpc']; exact Iff.rfl)) ?_ ?_
      · intro t'
        rw [hlock', AsyncLock.abandon, List.mem_filter, decide_eq_true_eq]
        by_cases heq : t' = t
        · rw [heq, at_moved, hpc']
          exact ⟨fun h => absurd rfl h.2, fun h => by cases h⟩
        · rw [hother rfl heq, hs.waiting, and_iff_left heq]
      · rw [hlock', AsyncLock.abandon]
        exact hs.nodup.filter _
  | released hpc hpc' =>
      have hpast : At s Pc.holds r t := (at_iff ht).mpr (by rw [hpc]; rfl)
      have hnone : ∀ t', ¬ At (n.commit t op) Pc.holds r t' := by
        intro t' ht'
        by_cases heq : t' = t
        · rw [heq, at_moved, hpc'] at ht'
          cases ht'
        · exact heq (hs.single ((hother rfl heq).mp ht') hpast)
      constructor
      · rw [hlock', AsyncLock.release]
        exact ⟨(fun h => by cases h), fun ⟨t', ht'⟩ => absurd ht' (hnone t')⟩
      · exact fun hu _ => absurd hu (hnone _)
      · intro t'
        rw [hlock', AsyncLock.release, hs.waiting,
          hsame (f := Pc.waits) rfl (by rw [hpc, hpc']; exact Iff.rfl)]
      · rw [hlock']
        exact hs.nodup

/-- A room that no task works with yet. -/
theorem fresh (hlock : (s.room r).jobLock = .free) (hholds : ∀ t, ¬ At s Pc.holds r t)
    (hwaits : ∀ t, ¬ At s Pc.waits r t) : LockOk s r where
  held := by
    rw [hlock]
    exact ⟨(fun h => by cases h), fun ⟨t, ht⟩ => absurd ht (hholds t)⟩
  single h := absurd h (hholds _)
  waiting := by
    intro t
    rw [hlock]
    exact ⟨(fun h => by cases h), fun h => absurd h (hwaits t)⟩
  nodup := by
    rw [hlock]
    exact List.nodup_nil

end LockOk

/-- The lock of every room is in order, and a job works with a room of its own notebook. -/
structure LockInv (s : Server) : Prop where
  rooms : ∀ {t run pc r}, s.tasks t = some ⟨.runJob run, pc⟩ → pc.usedRoom = some r →
    (s.room r).notebookId = run.notebookId
  locks : ∀ {r}, r < s.mgr.nextRoomId → LockOk s r

theorem lockInv_boot {ttl : Time} {maxCompleted : Int} {alive : KernelId → Bool}
    {kernelspec : NotebookId → Option String} :
    LockInv (boot ttl maxCompleted alive kernelspec) where
  rooms h := by cases h
  locks h := absurd h (Nat.not_lt_zero _)

theorem ensures_runJob {nb : NotebookId} {choice : KernelChoice}
    (h : (Op.runJob run).ensures nb choice) : run.notebookId = nb ∧ choice = .unresolved := by
  rcases h with hloads | ⟨_, _, hresolves, -⟩ | ⟨⟨_, _, _, hop⟩, -⟩
  · cases hloads
    exact ⟨rfl, rfl⟩
  · cases hresolves
  · cases hop

namespace LockInv

theorem rooms_step (hs : LockInv s) (hw : WellFormed s) (hw' : WellFormed s') (h : StepCase s l s')
    (ht : s'.tasks t = some ⟨.runJob run, pc⟩) (hr : pc.usedRoom = some r) :
    (s'.room r).notebookId = run.notebookId := by
  have hold : ∀ {pc}, s.tasks t = some ⟨.runJob run, pc⟩ → pc.usedRoom = some r →
      (s'.room r).notebookId = run.notebookId := by
    intro pc ht₀ hr
    have hlt := hw.held ht₀ (Pc.mem_rooms_of_usedRoom hr)
    exact (room_notebookId h hlt).trans (hs.rooms ht₀ hr)
  generalize hop : Op.runJob run = op at ht
  cases task_origin h ht with
  | kept ht₀ =>
      subst hop
      exact hold ht₀ hr
  | @moved _ _ n ht₀ hmove =>
      subst hop
      rcases hmove.usedRoom hr with hr | ⟨nb, hpc⟩
      · exact hold ht₀ hr
      · rw [hpc] at ht hr
        cases hr
        obtain ⟨⟨choice, hensures⟩, -⟩ := hw'.admits ht
        rw [(ensures_runJob hensures).1]
        exact hw'.named ht rfl
  | called => cases hr
  | spawned => cases hr

theorem locks_step (hs : LockInv s) (hw : WellFormed s) (h : StepCase s l s')
    (hr : r < s'.mgr.nextRoomId) : LockOk s' r := by
  -- nobody works with a room that has just been built
  have hnew : r = s.mgr.nextRoomId → ∀ f : Pc → Option RoomId, f .start = none →
      (∀ pc, f pc = some r → pc.usedRoom = some r) →
      (∀ nb, f (.ensured nb r) = none) → ∀ t, ¬ At s' f r t := by
    rintro rfl f hstart hused hensured t ⟨op, pc, ht, hpc⟩
    cases task_origin h ht with
    | kept ht₀ =>
        exact absurd (hw.held ht₀ (Pc.mem_rooms_of_usedRoom (hused _ hpc))) (lt_irrefl _)
    | moved ht₀ hmove =>
        rcases hmove.usedRoom (hused _ hpc) with hr | ⟨nb, hn⟩
        · exact absurd (hw.held ht₀ (Pc.mem_rooms_of_usedRoom hr)) (lt_irrefl _)
        · rw [hn, hensured] at hpc
          cases hpc
    | called =>
        rw [hstart] at hpc
        cases hpc
    | spawned =>
        rw [hstart] at hpc
        cases hpc
  have hfresh : r = s.mgr.nextRoomId → (s'.room r).jobLock = .free → LockOk s' r :=
    fun heq hlock => .fresh hlock
      (hnew heq Pc.holds rfl (fun _ => Pc.usedRoom_of_holds) fun _ => rfl)
      (hnew heq Pc.waits rfl (fun _ => Pc.usedRoom_of_waits) fun _ => rfl)
  cases room_change h hr with
  | fresh heq hroom => exact hfresh heq (by rw [hroom]; rfl)
  | adopted heq hroom => exact hfresh heq (by rw [hroom]; rfl)
  | moved hlt ht hmove heq hmover =>
      subst heq
      exact (hs.locks hlt).step hw h ht hmover (hmove.lock hlt.ne)
  | kept hlt hroom =>
      have hidle : s.mover l = none → LockOk s' r := fun hmover =>
        (hs.locks hlt).of_same (by rw [hroom]) (fun t => at_kept rfl hw h (by simp [hmover]))
          fun t => at_kept rfl hw h (by simp [hmover])
      cases h with
      | task ht hmove hrun hmover =>
          exact (hs.locks hlt).step hw (.task ht hmove hrun hmover) ht hmover (hmove.lock hlt.ne)
      | call => exact hidle rfl
      | outside => exact hidle rfl

theorem step (hs : LockInv s) (hw : WellFormed s) (hstep : s.step l = some s') : LockInv s' :=
  have h := step_cases hstep
  { rooms := hs.rooms_step hw (hw.step hstep) h
    locks := hs.locks_step hw h }

end LockInv

/-- At most one job at a time is inside the `async with` on a room, in every run. -/
theorem lockInv_run {G : Server → Label → Prop} {ttl : Time} {maxCompleted : Int}
    {alive : KernelId → Bool} {kernelspec : NotebookId → Option String}
    (h : ServerRun G (boot ttl maxCompleted alive kernelspec) s) : LockInv s :=
  h.invariant_of (fun _ hu => wellFormed_run hu wellFormed_boot) lockInv_boot
    fun _ _ _ hw _ hs _ hstep => hs.step hw hstep

end Server

end Hypernote
