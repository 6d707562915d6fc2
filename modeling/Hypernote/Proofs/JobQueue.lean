import Hypernote.Proofs.Locks
/-!
# Jobs take turns

As long as a notebook's runtime stays live, each job of the notebook is given its room and
queues for the room's lock.  Tasks that start in the order in which they were created join
the queue in that order and leave it in that order: a job is past its first lines only when
the jobs before it are, inside the `async with` only when they have ended.
-/

namespace Hypernote

open Foundation

namespace Pc

/-- The notebook for which a call is in `ensure_room`, and the room it goes on with; it has
none where it is making one. -/
def aims : Pc → Option (NotebookId × Option RoomId)
  | .loading nb _ | .startRoom nb _ | .creating nb _ => some (nb, none)
  | .loaded nb _ existing => some (nb, existing)
  | .ensured nb r => some (nb, some r)
  | _ => none

/-- How far a task that runs a job is from its end: it ends, is inside the `async with`,
waits for the lock, is on its way to it, or has not started. -/
def rank : Pc → Nat
  | .done _ => 0
  | .awaitingLock _ => 2
  | .start => 4
  | pc => if pc.holds.isSome then 1 else 3

theorem aims_of_isJob {pc : Pc} (h : pc.isJob = true) : pc.aims = none := by
  cases pc <;> first | rfl | cases h

theorem aims_of_isStop {pc : Pc} (h : pc.isStop = true) : pc.aims = none := by
  cases pc <;> first | rfl | cases h

theorem rank_le (pc : Pc) : pc.rank ≤ 4 := by
  unfold rank
  split
  · omega
  · omega
  · omega
  · split <;> omega

theorem isDone_of_rank {pc : Pc} (h : pc.rank = 0) : pc.isDone = true := by
  cases pc <;> first | rfl | cases h

theorem rank_of_isDone {pc : Pc} (h : pc.isDone = true) : pc.rank = 0 := by
  cases pc <;> first | rfl | cases h

theorem rank_of_isSettled {pc : Pc} (h : pc.isSettled = true) : pc.rank ≤ 1 := by
  cases pc with
  | jobFinally => exact le_rfl
  | done => exact Nat.zero_le 1
  | _ => cases h

theorem isSettled_of_rank {pc : Pc} (h : 1 < pc.rank) : pc.isSettled = false := by
  by_contra hsettled
  exact absurd (rank_of_isSettled (by simpa using hsettled)) (Nat.not_le_of_lt h)

theorem holds_of_rank {pc : Pc} (h : pc.rank = 1) : ∃ r, pc.holds = some r := by
  cases pc <;> first | exact ⟨_, rfl⟩ | cases h

theorem waits_of_rank {pc : Pc} (h : pc.rank = 2) : ∃ r, pc = .awaitingLock r := by
  cases pc <;> first | exact ⟨_, rfl⟩ | cases h

theorem start_of_rank {pc : Pc} (h : pc.rank = 4) : pc = .start := by
  cases pc <;> first | rfl | cases h

end Pc

/-- The call is no job of the notebook and no answer to a prompt. -/
def Op.isCalm (nb : NotebookId) : Op → Bool
  | .runJob run => run.notebookId ≠ nb
  | .sendStdin .. => false
  | _ => true

/-- What a collaborator raises without an await is an `Exception`. -/
def Oracle.uncancelled (o : Oracle) : Bool :=
  (match o.put with
    | .error error => error.isException
    | .ok _ => true) &&
  match o.poll with
    | .raised error => error.isException
    | _ => true

namespace Server

/-- What a job of the notebook does: it is given the room, and works with it. -/
inductive RunStep (s : Server) (t : TaskId) (run : JobRun) (r : RoomId) (l : Label) :
    Pc → Next → Prop
  | begun : RunStep s t run r l .start ⟨s, .start, true⟩
  | called {nb choice} : RunStep s t run r l .start ⟨s, .loadRoom nb choice, true⟩
  | found {nb choice mgr} :
      RunStep s t run r l (.loadRoom nb choice)
        ⟨{ s with mgr := mgr }, .loaded nb choice (some r), true⟩
  | live {nb choice mgr} :
      RunStep s t run r l (.loaded nb choice (some r))
        ⟨{ s with mgr := mgr }, .ensured nb r, true⟩
  | inside {pc n} (h : JobStep s t run l pc n) : RunStep s t run r l pc n

variable {s s' : Server} {l : Label} {t t' : TaskId} {op op' : Op} {pc pc' : Pc} {n : Next}
  {r r' : RoomId} {nb nb' : NotebookId} {k : KernelId} {run run' : JobRun}

/-! ## The assumptions -/

/-- No runtime of the notebook begins to stop. -/
def keepsRuntime (nb : NotebookId) (s : Server) (l : Label) : Bool :=
  match s.moving l with
  | some ⟨_, .stopRoom r _ _⟩ => r ∉ s.mgr.rooms || (s.room r).notebookId ≠ nb
  | _ => true

/-- No answer to a prompt is sent. -/
def sendsNoStdin (_ : Server) (l : Label) : Bool :=
  match l with
  | .call (.sendStdin ..) => false
  | _ => true

/-- No `CancelledError` is raised in this step. -/
def uncancelled (_ : Server) (l : Label) : Bool :=
  match l with
  | .resume _ (.raised error) _ => error.isException
  | .resume _ _ o | .proceed o => o.uncancelled
  | .call _ | .outside _ => true

/-- A created task starts only after those created before it. -/
def startsInOrder (s : Server) (l : Label) : Bool :=
  match s.mover l, s.moving l with
  | some t, some ⟨.runJob _, .start⟩ =>
      (List.range t).all fun t' =>
        match s.tasks t' with
        | some ⟨.runJob _, .start⟩ => false
        | _ => true
  | _, _ => true

/-- The setting of the notebook's jobs. -/
def jobSetting (nb : NotebookId) (k : KernelId) (s : Server) (l : Label) : Bool :=
  s.sparesKernel k l && s.keepsRuntime nb l && s.sendsNoStdin l && s.uncancelled l &&
    s.startsInOrder l

/-- No job of the notebook is running and no answer to a prompt is under way, and no call is
making or stopping another runtime of the notebook. -/
def isCalm (nb : NotebookId) (r : RoomId) (s : Server) : Bool :=
  (List.range s.nextTask).all fun t =>
    match s.tasks t with
    | some ⟨op, pc⟩ =>
        pc.isDone || op.isCalm nb && (pc.aims.all fun aim => aim.1 ≠ nb || aim.2 = some r) &&
          pc.stoppingRoom.all fun r' => (s.room r').notebookId ≠ nb
    | none => true

/-! ## The room of the notebook's jobs -/

/-- The notebook's runtime is live, and every call for the notebook goes on with it. -/
structure Steady (s : Server) (nb : NotebookId) (r : RoomId) (k : KernelId) : Prop where
  held : Held s nb r k
  unstopped : .stopping r ∉ s.events
  aims : ∀ {t op pc room}, s.tasks t = some ⟨op, pc⟩ → pc.aims = some (nb, room) → room = some r
  stops : ∀ {t op pc r'}, s.tasks t = some ⟨op, pc⟩ → pc.stoppingRoom = some r' →
    (s.room r').notebookId ≠ nb
  answers : ∀ {t j value actor pc}, s.tasks t = some ⟨.sendStdin j value actor, pc⟩ →
    pc.isDone = true
  uses : ∀ {t run pc r'}, s.tasks t = some ⟨.runJob run, pc⟩ → run.notebookId = nb →
    pc.usedRoom = some r' → r' = r

/-- What a calm state says of a task. -/
theorem isCalm_task (hw : WellFormed s) (hcalm : s.isCalm nb r = true)
    (ht : s.tasks t = some ⟨op, pc⟩) : pc.isDone = true ∨
      op.isCalm nb = true ∧ (∀ room, pc.aims = some (nb, room) → room = some r) ∧
        ∀ r', pc.stoppingRoom = some r' → (s.room r').notebookId ≠ nb := by
  have h := List.all_eq_true.mp hcalm t (List.mem_range.mpr (hw.lt_nextTask ht))
  simp only [ht, Bool.or_eq_true, Bool.and_eq_true, Option.all_eq_true, decide_eq_true_eq] at h
  refine h.imp_right fun ⟨⟨hop, haims⟩, hstops⟩ => ⟨hop, ?_, hstops⟩
  intro room hroom
  exact (haims _ hroom).resolve_left (fun hne => hne rfl)

theorem steady_of_calm (hw : WellFormed s) (hheld : Held s nb r k)
    (hstop : .stopping r ∉ s.events) (hcalm : s.isCalm nb r = true) : Steady s nb r k := by
  have hdone : ∀ {pc : Pc}, pc.isDone = true →
      pc.aims = none ∧ pc.stoppingRoom = none ∧ pc.usedRoom = none := by
    intro pc hpc
    cases pc <;> first | exact ⟨rfl, rfl, rfl⟩ | cases hpc
  refine ⟨hheld, hstop, ?_, ?_, ?_, ?_⟩
  · intro t op pc room ht haims
    rcases isCalm_task hw hcalm ht with hpc | ⟨-, hroom, -⟩
    · rw [(hdone hpc).1] at haims
      cases haims
    · exact hroom room haims
  · intro t op pc r' ht hr'
    rcases isCalm_task hw hcalm ht with hpc | ⟨-, -, hstops⟩
    · rw [(hdone hpc).2.1] at hr'
      cases hr'
    · exact hstops r' hr'
  · intro t j value actor pc ht
    exact (isCalm_task hw hcalm ht).resolve_right fun ⟨hop, _⟩ => by cases hop
  · intro t run pc r' ht hname hr'
    rcases isCalm_task hw hcalm ht with hpc | ⟨hop, -⟩
    · rw [(hdone hpc).2.2] at hr'
      cases hr'
    · simp [Op.isCalm, hname] at hop

/-- A call for the notebook goes on with its room. -/
theorem TaskStep.aims {room : Option RoomId} (h : TaskStep s t op l pc n) (hheld : Held s nb r k)
    (hs : ∀ room, pc.aims = some (nb, room) → room = some r) (hroom : n.pc.aims = some (nb, room)) :
    room = some r := by
  have hnone : pc.aims = some (nb, none) → room = some r := fun hpc => by cases hs none hpc
  cases h with
  | call h => cases h <;> cases hroom
  | ensure h =>
      cases h with
      | found hfound =>
          cases hroom
          exact hfound.symm.trans hheld.entry
      | absent habsent =>
          cases hroom
          rw [hheld.entry] at habsent
          cases habsent
      | adopted =>
          cases hroom
          exact hnone rfl
      | missing =>
          cases hroom
          exact hnone rfl
      | live =>
          cases hroom
          exact hs _ rfl
      | dead _ hdead =>
          cases hroom
          have hlive := hdead r (hs _ rfl)
          rw [hheld.live] at hlive
          cases hlive
      | created =>
          cases hroom
          exact hnone rfl
      | started =>
          cases hroom
          exact hnone rfl
      | _ => cases hroom
  | job h =>
      rcases h.stays with hpc | ⟨_, hpc⟩
      · rw [Pc.aims_of_isJob hpc] at hroom
        cases hroom
      · rw [hpc] at hroom
        cases hroom
  | stop h =>
      rcases h.stays with hstop | ⟨_, hdone⟩
      · rw [Pc.aims_of_isStop hstop] at hroom
        cases hroom
      · rw [hdone] at hroom
        cases hroom

namespace Steady

theorem lt_nextRoomId (hs : Steady s nb r k) (hw : WellFormed s) : r < s.mgr.nextRoomId :=
  hw.registered r (RuntimeManager.roomForNotebook_eq_some.mp hs.held.entry).2

theorem notebookId (hs : Steady s nb r k) (hw : WellFormed s) : (s.room r).notebookId = nb :=
  (hw.mapped (RuntimeManager.roomForNotebook_eq_some.mp hs.held.entry).1).2

theorem registryInv (hs : Steady s nb r k) (hinv : ServerInv s) : RegistryInv nb s where
  wellFormed := hinv.wellFormed
  stopsRecorded := hinv.stopsRecorded
  ensuredMapped := by
    intro t op pc r' ht hpc _
    have haims : pc.aims = some (nb, none) ∨ pc.aims = some (nb, some r') := by
      cases pc with
      | loaded _ _ existing =>
          cases existing <;> cases hpc
          exact .inr rfl
      | creating =>
          cases hpc
          exact .inl rfl
      | ensured =>
          cases hpc
          exact .inr rfl
      | _ => cases hpc
    rcases haims with haims | haims
    · cases hs.aims ht haims
    · exact hs.aims ht haims ▸ hs.held.entry
  createdOnce := hinv.createdOnce
  returnsLive := hinv.returnsLive

/-- The notebook's entry is left alone. -/
theorem keepsEntry (hs : Steady s nb r k) (h : StepCase s l s') : s.keepsEntry nb l = true := by
  unfold Server.keepsEntry
  split
  · rename_i hmoving
    obtain ⟨t, n, ht, -⟩ := h.of_moving hmoving
    simp only [Bool.or_eq_true, decide_eq_true_eq]
    left
    rintro rfl
    cases hs.aims ht rfl
  · rename_i hmoving
    obtain ⟨t, n, ht, -⟩ := h.of_moving hmoving
    simp only [Bool.or_eq_true, decide_eq_true_eq]
    left
    rintro rfl
    cases hs.aims ht rfl
  · rename_i hmoving
    obtain ⟨t, n, ht, -⟩ := h.of_moving hmoving
    simp only [Bool.or_eq_true, decide_eq_true_eq]
    exact .inl (hs.stops ht rfl)
  · rfl

theorem unstopped_step (hs : Steady s nb r k) (hw : WellFormed s) (h : StepCase s l s')
    (hkeeps : s.keepsRuntime nb l = true) : .stopping r ∉ s'.events := by
  obtain ⟨es, hes, hcases⟩ := h.events
  rw [hes, List.mem_append, not_or]
  refine ⟨hs.unstopped, ?_⟩
  intro hmem
  rcases hcases with hcontrol | ⟨t, op, pc, n, ht, -, -, hmover, hevents⟩
  · cases hcontrol _ hmem
  · cases hevents with
    | @stopping r' rest stopped es hpc hr hdeletes =>
        subst hpc
        have heq : r = r' := by
          rcases List.mem_cons.mp hmem with hmem | hmem
          · exact Event.stopping.inj hmem
          · rcases hdeletes with rfl | ⟨id, rfl⟩ | ⟨k', rfl⟩ <;> simp at hmem
        subst heq
        simp [keepsRuntime, moving_eq hmover ht, hs.notebookId hw, hr] at hkeeps
    | control hcontrol => cases hcontrol _ hmem
    | _ => simp at hmem

theorem step (hs : Steady s nb r k) (hinv : ServerInv s) (hinv' : WellFormed s')
    (h : StepCase s l s') (hspares : s.sparesKernel k l = true)
    (hkeeps : s.keepsRuntime nb l = true) (hsends : s.sendsNoStdin l = true) :
    Steady s' nb r k where
  held := held_step (hs.registryInv hinv) h (hs.keepsEntry h) hspares
    (hs.unstopped_step hinv.wellFormed h hkeeps) hs.held
  unstopped := hs.unstopped_step hinv.wellFormed h hkeeps
  aims := by
    intro t op pc room ht hroom
    cases task_origin h ht with
    | kept ht₀ => exact hs.aims ht₀ hroom
    | moved ht₀ hmove => exact hmove.aims hs.held (fun _ => hs.aims ht₀) hroom
    | called => cases hroom
    | spawned => cases hroom
  stops := by
    intro t op pc r' ht hr'
    have hold : ∀ {pc}, s.tasks t = some ⟨op, pc⟩ → pc.stoppingRoom = some r' →
        (s'.room r').notebookId ≠ nb := by
      intro pc ht₀ hpc
      have hmem : r' ∈ pc.rooms := by
        cases pc <;> first | cases hpc; exact List.mem_cons_self | cases hpc
      rw [room_notebookId h (hinv.wellFormed.held ht₀ hmem)]
      exact hs.stops ht₀ hpc
    cases task_origin h ht with
    | kept ht₀ => exact hold ht₀ hr'
    | moved ht₀ hmove _ hmover =>
        rcases (hmove.begins_stop hr').2 with hpc | ⟨hmem, -, rest, stopped, rfl⟩
        · exact hold ht₀ hpc
        · rw [room_notebookId h (hinv.wellFormed.registered r' hmem)]
          simpa [keepsRuntime, moving_eq hmover ht₀, hmem] using hkeeps
    | called => cases hr'
    | spawned => cases hr'
  answers := by
    intro t j value actor pc ht
    generalize hop : Op.sendStdin j value actor = op at ht
    cases task_origin h ht with
    | kept ht₀ =>
        subst hop
        exact hs.answers ht₀
    | moved ht₀ hmove =>
        subst hop
        have hdone := hs.answers ht₀
        rw [hmove.isDone] at hdone
        cases hdone
    | called _ _ _ hl =>
        subst hop hl
        cases hsends
    | spawned => cases hop
  uses := by
    intro t run pc r' ht hname hr'
    generalize hop : Op.runJob run = op at ht
    cases task_origin h ht with
    | kept ht₀ =>
        subst hop
        exact hs.uses ht₀ hname hr'
    | moved ht₀ hmove =>
        subst hop
        rcases hmove.usedRoom hr' with hpc | ⟨nb', hpc⟩
        · exact hs.uses ht₀ hname hpc
        · obtain ⟨⟨choice, hensures⟩, -⟩ := hpc ▸ hinv'.admits ht
          have hnb : nb' = nb := (ensures_runJob hensures).1.symm.trans hname
          refine Option.some.inj (hmove.aims hs.held (fun _ => hs.aims ht₀) ?_)
          rw [hpc, hnb]
          rfl
    | called => cases hr'
    | spawned => cases hr'

theorem run_step (hs : Steady s nb r k) (hw : WellFormed s)
    (ht : s.tasks t = some ⟨.runJob run, pc⟩) (hname : run.notebookId = nb)
    (h : TaskStep s t (.runJob run) l pc n) : RunStep s t run r l pc n := by
  have hadmits := hw.admits ht
  cases h with
  | job h => exact .inside h
  | stop h => cases h <;> simp [Op.admits, Op.stopsRooms] at hadmits
  | call h =>
      cases h with
      | begun => exact .begun
      | load => exact .called
      | explicit hop => cases hop
      | resolving hop => cases hop
      | resolved hop => cases hop
      | refused hop => cases hop
      | stop hop => cases hop
      | opened hop => cases hop
      | interruptedNative =>
          obtain ⟨k', hop⟩ := hadmits
          cases hop
      | raised hpc =>
          rcases hpc with rfl | ⟨_, _, rfl⟩ | ⟨_ | _, rfl⟩ | rfl <;>
            simp [Op.admits, Op.resolves] at hadmits
  | ensure h =>
      -- a job goes on with the room of its own notebook
      have haims : ∀ {nb' choice room}, (Op.runJob run).ensures nb' choice →
          pc.aims = some (nb', room) → room = some r := by
        intro nb' choice room hensures hpc
        rw [← (ensures_runJob hensures).1, hname] at hpc
        exact hs.aims ht hpc
      cases h with
      | found hfound =>
          rw [← (ensures_runJob hadmits).1, hname, hs.held.entry] at hfound
          cases hfound
          exact .found
      | absent habsent =>
          rw [← (ensures_runJob hadmits).1, hname, hs.held.entry] at habsent
          cases habsent
      | adopted => cases haims hadmits rfl
      | missing => cases haims hadmits rfl
      | loadFailed => cases haims hadmits rfl
      | status hop => cases hop
      | live =>
          cases haims hadmits rfl
          exact .live
      | mismatch _ _ hmatch =>
          rw [(ensures_runJob hadmits).2] at hmatch
          cases hmatch
      | dead _ hdead =>
          have hlive := hdead r (haims hadmits rfl)
          rw [hs.held.live] at hlive
          cases hlive
      | created => cases haims hadmits.1 rfl
      | started =>
          obtain ⟨choice, hensures⟩ := hadmits.1
          cases haims hensures rfl
      | createFailed =>
          obtain ⟨choice, hensures⟩ := hadmits.1
          cases haims hensures rfl

/-- On its way to the lock a job does not give up control. -/
theorem running_of_rank (hs : Steady s nb r k) (hw : WellFormed s)
    (ht : s.tasks t = some ⟨.runJob run, pc⟩) (hname : run.notebookId = nb) (hpc : pc.rank = 3) :
    s.running = some t := by
  have hadmits := hw.admits ht
  apply hw.control ht
  cases pc with
  | resolving => simp [Op.admits, Op.resolves] at hadmits
  | loading =>
      rw [← (ensures_runJob hadmits).1, hname] at ht
      cases hs.aims ht rfl
  | creating =>
      obtain ⟨choice, hensures⟩ := hadmits.1
      rw [← (ensures_runJob hensures).1, hname] at ht
      cases hs.aims ht rfl
  | sendingInput => simp [Op.admits] at hadmits
  | interrupting room => cases room <;> simp [Op.admits] at hadmits
  | restarting => simp [Op.admits] at hadmits
  | deleting => simp [Op.admits, Op.stopsRooms] at hadmits
  | _ => first | rfl | cases hpc

end Steady

/-! ## The queue -/

/-- Jobs are handed out in the order in which their tasks are created. -/
def JobsOrdered (s : Server) : Prop :=
  ∀ ⦃t t' run run' pc pc'⦄, t < t' → s.tasks t = some ⟨.runJob run, pc⟩ →
    s.tasks t' = some ⟨.runJob run', pc'⟩ → run.jobId < run'.jobId

theorem JobsOrdered.lt (hs : JobsOrdered s) (ht : s.tasks t = some ⟨.runJob run, pc⟩)
    (ht' : s.tasks t' = some ⟨.runJob run', pc'⟩) (hlt : run.jobId < run'.jobId) : t < t' := by
  rcases Nat.lt_trichotomy t t' with hless | heq | hmore
  · exact hless
  · subst heq
    cases ht.symm.trans ht'
    exact absurd hlt (lt_irrefl _)
  · exact absurd (hs hmore ht' ht) (lt_asymm hlt)

theorem jobsOrdered_step (hinv : ServerInv s) (h : StepCase s l s') (hs : JobsOrdered s) :
    JobsOrdered s' := by
  intro t t' run run' pc pc' hlt ht ht'
  rcases JobsInv.runJob_origin h ht with ⟨pc₀, ht₀⟩ | ⟨hnew, hj, -⟩ <;>
    rcases JobsInv.runJob_origin h ht' with ⟨pc₀', ht₀'⟩ | ⟨hnew', hj', -⟩
  · exact hs hlt ht₀ ht₀'
  · rw [hj']
    exact hinv.jobs.handedOut ht₀
  · have hlt' := hinv.wellFormed.lt_nextTask ht₀'
    exact absurd (hlt.trans hlt') (hnew ▸ lt_irrefl _)
  · exact absurd (hnew.trans hnew'.symm) hlt.ne

theorem jobsOrdered_run {G : Server → Label → Prop} {ttl : Time} {maxCompleted : Int}
    {alive : KernelId → Bool} {kernelspec : NotebookId → Option String}
    (h : ServerRun G (boot ttl maxCompleted alive kernelspec) s) : JobsOrdered s :=
  h.invariant_of (fun _ hu => serverInv_run hu) (fun _ _ _ _ _ _ _ ht => by cases ht)
    fun _ _ _ hinv _ hs _ hstep => jobsOrdered_step hinv (step_cases hstep) hs

/-- The task runs a job of the notebook. -/
def Runs (s : Server) (nb : NotebookId) (t : TaskId) (run : JobRun) (pc : Pc) : Prop :=
  s.tasks t = some ⟨.runJob run, pc⟩ ∧ run.notebookId = nb

/-- No job of the notebook is ahead of one whose task was created before, and the waiters
for the lock stand in the order of their creation. -/
structure InTurn (s : Server) (nb : NotebookId) (r : RoomId) : Prop where
  ranks : ∀ {t t' run run' pc pc'}, t < t' → Runs s nb t run pc → Runs s nb t' run' pc' →
    pc.rank ≤ pc'.rank
  waiters : (s.room r).jobLock.waiters.Pairwise (· < ·)

namespace Steady

theorem holds (hs : Steady s nb r k) (ht : Runs s nb t run pc) (hpc : pc.rank = 1) :
    At s Pc.holds r t := by
  obtain ⟨r', hr'⟩ := Pc.holds_of_rank hpc
  cases hs.uses ht.1 ht.2 (Pc.usedRoom_of_holds hr')
  exact ⟨_, _, ht.1, hr'⟩

theorem waits (hs : Steady s nb r k) (ht : Runs s nb t run pc) (hpc : pc.rank = 2) :
    At s Pc.waits r t := by
  obtain ⟨r', rfl⟩ := Pc.waits_of_rank hpc
  cases hs.uses ht.1 ht.2 rfl
  exact ⟨_, _, ht.1, rfl⟩

theorem lockOk (hs : Steady s nb r k) (hinv : ServerInv s) (hlocks : LockInv s) : LockOk s r :=
  hlocks.locks (hs.lt_nextRoomId hinv.wellFormed)

/-- One job of the notebook at a time is inside the `async with`. -/
theorem alone (hs : Steady s nb r k) (hinv : ServerInv s) (hlocks : LockInv s)
    (ht : Runs s nb t run pc) (hpc : pc.rank = 1) (ht' : Runs s nb t' run' pc')
    (hpc' : pc'.rank = 1) : t = t' :=
  (hs.lockOk hinv hlocks).single (hs.holds ht hpc) (hs.holds ht' hpc')

end Steady

theorem RunStep.rank_le (h : RunStep s t run r l pc n) : n.pc.rank ≤ pc.rank := by
  cases h with
  | begun => exact le_rfl
  | called => exact Nat.le_succ 3
  | found => exact le_rfl
  | live => exact le_rfl
  | inside h =>
      cases h with
      | clientReady hpc => rcases hpc with rfl | ⟨_, rfl⟩ | ⟨_, -, rfl⟩ <;> exact le_rfl
      | subshellMessage hpc => rcases hpc with rfl | ⟨_, rfl⟩ | ⟨_, -, rfl⟩ <;> exact le_rfl
      | stepRaised hpc =>
          rcases hpc with ⟨_, _, rfl⟩ | ⟨_, rfl⟩ | ⟨_, _, rfl⟩ | ⟨_, _, rfl⟩ | ⟨_, _, rfl⟩ |
            ⟨-, _, _, _, rfl⟩ <;> exact le_rfl
      | _ => simp [Pc.rank, Pc.holds, Server.jobLocked, Server.polled, Server.goto, Server.park]

theorem ended_of_calm (hw : WellFormed s) (hcalm : s.isCalm nb r = true)
    (ht : Runs s nb t run pc) : pc.isDone = true :=
  (isCalm_task hw hcalm ht.1).resolve_right fun ⟨hop, _⟩ => by simp [Op.isCalm, ht.2] at hop

theorem inTurn_of_calm (hs : Steady s nb r k) (hinv : ServerInv s) (hlocks : LockInv s)
    (hcalm : s.isCalm nb r = true) : InTurn s nb r where
  ranks := by
    intro t t' run run' pc pc' _ ht _
    rw [Pc.rank_of_isDone (ended_of_calm hinv.wellFormed hcalm ht)]
    exact Nat.zero_le _
  waiters := by
    have hnone : (s.room r).jobLock.waiters = [] := by
      apply List.eq_nil_iff_forall_not_mem.mpr
      intro t hwaiter
      obtain ⟨op, pc, ht, hpc⟩ := (hs.lockOk hinv hlocks).waiting.mp hwaiter
      cases pc with
      | awaitingLock r' =>
          cases hpc
          obtain ⟨run, rfl⟩ := hinv.wellFormed.admits ht
          have hname := (hlocks.rooms ht rfl).symm.trans (hs.notebookId hinv.wellFormed)
          cases ended_of_calm hinv.wellFormed hcalm ⟨ht, hname⟩
      | _ => cases hpc
    rw [hnone]
    exact .nil

namespace InTurn

/-- A job that has ended, or is inside the `async with`, comes after jobs that have ended. -/
theorem ended (hq : InTurn s nb r) (hs : Steady s nb r k) (hinv : ServerInv s)
    (hlocks : LockInv s) (hlt : t < t') (ht : Runs s nb t run pc) (ht' : Runs s nb t' run' pc')
    (hpc' : pc'.rank ≤ 1) : pc.isDone = true := by
  have hle := hq.ranks hlt ht ht'
  have hne : pc.rank ≠ 1 := by
    intro hpc
    exact hlt.ne (hs.alone hinv hlocks ht hpc ht' (by omega))
  exact Pc.isDone_of_rank (by omega)

/-- A job does not overtake one whose task was created before. -/
theorem ranks_move (hq : InTurn s nb r) (hs : Steady s nb r k) (hinv : ServerInv s)
    (hlocks : LockInv s) (hlt : t < t') (ht : Runs s nb t run pc) (ht' : Runs s nb t' run' pc')
    (hrun : s.running ≠ some t) (hmover : s.mover l = some t')
    (horder : s.startsInOrder l = true) (hcancel : s.uncancelled l = true)
    (h : RunStep s t' run' r l pc' n) : pc.rank ≤ n.pc.rank := by
  have hle := hq.ranks hlt ht ht'
  have hwaits : pc.rank = 2 → t ∈ (s.room r).jobLock.waiters :=
    fun hpc => (hs.lockOk hinv hlocks).waiting.mpr (hs.waits ht hpc)
  have hcontrol : pc.rank ≠ 3 :=
    fun hpc => hrun (hs.running_of_rank hinv.wellFormed ht.1 ht.2 hpc)
  cases h with
  | begun => exact pc.rank_le
  | called =>
      have hstart : pc ≠ .start := by
        rintro rfl
        simp only [startsInOrder, hmover, moving_eq hmover ht'.1, List.all_eq_true,
          List.mem_range] at horder
        have := horder t hlt
        rw [ht.1] at this
        cases this
      have hlt4 : pc.rank ≠ 4 := fun hpc => hstart (Pc.start_of_rank hpc)
      have hle4 := pc.rank_le
      change pc.rank ≤ 3
      omega
  | found => exact hle
  | live => exact hle
  | inside h =>
      cases h with
      | @acquired o nb' r' hlock =>
          cases hs.uses ht'.1 ht'.2 rfl
          have hwaiters : pc.rank ≠ 2 := by
            intro hpc
            simp only [AsyncLock.canAcquire, Bool.and_eq_true, List.isEmpty_iff] at hlock
            have hmem := hwaits hpc
            rw [hlock.2] at hmem
            cases hmem
          change pc.rank ≤ 3 at hle
          change pc.rank ≤ 1
          omega
      | enqueued =>
          change pc.rank ≤ 3 at hle
          change pc.rank ≤ 2
          omega
      | @woken o r' hlock =>
          cases hs.uses ht'.1 ht'.2 rfl
          have hwaiters : pc.rank ≠ 2 := by
            intro hpc
            simp only [AsyncLock.mayWake, Bool.and_eq_true, decide_eq_true_eq] at hlock
            obtain ⟨rest, hrest⟩ := List.head?_eq_some_iff.mp hlock.2
            have hmem := hwaits hpc
            have hsorted := hq.waiters
            rw [hrest] at hmem hsorted
            rcases List.mem_cons.mp hmem with heq | hmem
            · exact hlt.ne heq
            · exact lt_asymm hlt ((List.pairwise_cons.mp hsorted).1 t hmem)
          change pc.rank ≤ 2 at hle
          change pc.rank ≤ 1
          omega
      | abandoned herror => simp [uncancelled, herror] at hcancel
      | finished =>
          rw [Pc.rank_of_isDone (hq.ended hs hinv hlocks hlt ht ht' le_rfl)]
          exact Nat.zero_le _
      | clientReady hpc => rcases hpc with rfl | ⟨_, rfl⟩ | ⟨_, -, rfl⟩ <;> exact hle
      | subshellMessage hpc => rcases hpc with rfl | ⟨_, rfl⟩ | ⟨_, -, rfl⟩ <;> exact hle
      | stepRaised hpc =>
          rcases hpc with ⟨_, _, rfl⟩ | ⟨_, rfl⟩ | ⟨_, _, rfl⟩ | ⟨_, _, rfl⟩ | ⟨_, _, rfl⟩ |
            ⟨-, _, _, _, rfl⟩ <;> exact hle
      | _ => exact hle

theorem ranks_step (hq : InTurn s nb r) (hs : Steady s nb r k) (hinv : ServerInv s)
    (hlocks : LockInv s) (h : StepCase s l s') (horder : s.startsInOrder l = true)
    (hcancel : s.uncancelled l = true) (hlt : t < t') (ht : Runs s' nb t run pc)
    (ht' : Runs s' nb t' run' pc') : pc.rank ≤ pc'.rank := by
  obtain ⟨ht, hname⟩ := ht
  obtain ⟨ht', hname'⟩ := ht'
  have hbefore : t' = s.nextTask → t < s.nextTask := fun heq => heq ▸ hlt
  generalize hop : Op.runJob run = op at ht
  generalize hop' : Op.runJob run' = op' at ht'
  cases task_origin h ht with
  | kept ht₀ hrun =>
      subst hop
      cases task_origin h ht' with
      | kept ht₀' =>
          subst hop'
          exact hq.ranks hlt ⟨ht₀, hname⟩ ⟨ht₀', hname'⟩
      | moved ht₀' hmove _ hmover =>
          subst hop'
          exact hq.ranks_move hs hinv hlocks hlt ⟨ht₀, hname⟩ ⟨ht₀', hname'⟩ hrun hmover horder
            hcancel (hs.run_step hinv.wellFormed ht₀' hname' hmove)
      | called => exact pc.rank_le
      | spawned => exact pc.rank_le
  | @moved _ pc₀ n ht₀ hmove _ hmover =>
      subst hop
      cases task_origin h ht' with
      | kept ht₀' =>
          subst hop'
          have hle := (hs.run_step hinv.wellFormed ht₀ hname hmove).rank_le
          exact hle.trans (hq.ranks hlt ⟨ht₀, hname⟩ ⟨ht₀', hname'⟩)
      | moved _ _ _ hmover' => exact absurd (Option.some.inj (hmover.symm.trans hmover')) hlt.ne
      | called => exact n.pc.rank_le
      | spawned => exact n.pc.rank_le
  | called _ hcallable =>
      subst hop
      cases hcallable
  | spawned heq =>
      cases task_origin h ht' with
      | kept ht₀' =>
          exact absurd (hlt.trans (hinv.wellFormed.lt_nextTask ht₀')) (heq ▸ lt_irrefl _)
      | moved ht₀' =>
          exact absurd (hlt.trans (hinv.wellFormed.lt_nextTask ht₀')) (heq ▸ lt_irrefl _)
      | called heq' => exact absurd (heq.trans heq'.symm) hlt.ne
      | spawned heq' => exact absurd (heq.trans heq'.symm) hlt.ne

/-- A task that joins the queue was created after those that wait already. -/
theorem enqueued_last (hq : InTurn s nb r) (hs : Steady s nb r k) (hinv : ServerInv s)
    (hlocks : LockInv s) (ht : s.tasks t = some ⟨.runJob run, .ensured nb' r⟩)
    (hwaiter : t' ∈ (s.room r).jobLock.waiters) : t' < t := by
  have hname := hs.notebookId hinv.wellFormed
  obtain ⟨op, pc, ht', hpc⟩ := (hs.lockOk hinv hlocks).waiting.mp hwaiter
  cases pc with
  | awaitingLock r' =>
      cases hpc
      obtain ⟨run', rfl⟩ := hinv.wellFormed.admits ht'
      have hruns : Runs s nb t run _ := ⟨ht, (hlocks.rooms ht rfl).symm.trans hname⟩
      have hruns' : Runs s nb t' run' _ := ⟨ht', (hlocks.rooms ht' rfl).symm.trans hname⟩
      rcases Nat.lt_trichotomy t' t with hlt | heq | hlt
      · exact hlt
      · subst heq
        cases ht.symm.trans ht'
      · have hle := hq.ranks hlt hruns hruns'
        simp [Pc.rank, Pc.holds] at hle
  | _ => cases hpc

theorem waiters_step (hq : InTurn s nb r) (hs : Steady s nb r k) (hinv : ServerInv s)
    (hinv' : WellFormed s') (hlocks : LockInv s) (h : StepCase s l s') :
    (s'.room r).jobLock.waiters.Pairwise (· < ·) := by
  have hr := hs.lt_nextRoomId hinv.wellFormed
  cases room_change h (hr.trans_le (nextRoomId_le h)) with
  | fresh heq => exact absurd heq hr.ne
  | adopted heq => exact absurd heq hr.ne
  | kept _ hroom => exact hroom ▸ hq.waiters
  | @moved t op pc n _ ht hmove heq =>
      subst heq
      have hlock := hmove.lock hr.ne
      generalize hlock' : (n.state.room r).jobLock = lock at hlock
      change (n.state.room r).jobLock.waiters.Pairwise (· < ·)
      rw [hlock']
      cases hlock with
      | kept => exact hq.waiters
      | acquired => exact hq.waiters
      | released => exact hq.waiters
      | woken => exact hq.waiters.tail
      | abandoned => exact hq.waiters.filter _
      | enqueued hpc hpc' =>
          subst hpc
          have htask : (n.commit t op).tasks t = some ⟨op, .awaitingLock r⟩ := by
            rw [commit_tasks, if_pos rfl, hpc']
          obtain ⟨run, rfl⟩ := hinv'.admits htask
          refine List.pairwise_append.mpr ⟨hq.waiters, List.pairwise_singleton _ _, ?_⟩
          intro t' ht' t'' ht''
          rw [List.mem_singleton.mp ht'']
          exact hq.enqueued_last hs hinv hlocks ht ht'

theorem step (hq : InTurn s nb r) (hs : Steady s nb r k) (hinv : ServerInv s)
    (hinv' : WellFormed s') (hlocks : LockInv s) (h : StepCase s l s')
    (horder : s.startsInOrder l = true) (hcancel : s.uncancelled l = true) : InTurn s' nb r where
  ranks := hq.ranks_step hs hinv hlocks h horder hcancel
  waiters := hq.waiters_step hs hinv hinv' hlocks h

end InTurn

end Server

end Hypernote
