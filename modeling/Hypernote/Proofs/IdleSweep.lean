import Hypernote.Proofs.Attached
/-!
# What the idle sweep stops

`gc_sweep` reads the clock once, collects the rooms that are idle, and then stops
them one await after the other.  Whether a room is idle is a question of its state
and of the time since its last activity; neither its active jobs nor who started its
kernel are looked at.
-/

namespace Hypernote

open Foundation

/-- The rooms that a sweep at this point has yet to stop. -/
def Pc.pendingStops : Pc → List RoomId
  | .sweeping rest _ => rest
  | .stopRoom r rest _ => r :: rest
  | .deleting _ rest _ | .stopFinally _ rest _ _ => rest
  | _ => []

/-- The notebook that a call asks for on its way through `ensure_room`. -/
def Pc.asksFor : Pc → Option NotebookId
  | .loading nb _ | .loaded nb _ _ | .startRoom nb _ | .creating nb _ => some nb
  | _ => none

namespace Server

variable {s s' : Server} {l : Label} {t : TaskId} {pc : Pc} {n : Next} {r : RoomId}

/-- What a sweep has yet to stop it had yet to stop before, or collects now. -/
theorem TaskStep.pendingStops (h : TaskStep s t .gcSweep l pc n) (hr : r ∈ n.pc.pendingStops) :
    r ∈ pc.pendingStops ∨
      pc = .start ∧ ∃ o, l = .proceed o ∧ r ∈ s.mgr.sweepTargets o.now := by
  cases h with
  | call h =>
      cases h with
      | gcSweep => exact .inr ⟨rfl, _, rfl, hr⟩
      | load hop => cases hop
      | stop hop => cases hop
      | _ => cases hr
  | ensure h => cases h <;> cases hr
  | stop h =>
      cases h with
      | next => exact .inl hr
      | swept => cases hr
      | unknown => exact .inl (List.mem_cons_of_mem _ hr)
      | already => exact .inl (List.mem_cons_of_mem _ hr)
      | stopping _ _ hpc => rcases hpc with rfl | rfl <;> exact .inl (List.mem_cons_of_mem _ hr)
      | deleted => exact .inl hr
      | deleteRaised => exact .inl hr
      | cancelled => cases hr
      | cleared => exact .inl hr

/-- The sweeps in progress have yet to stop only rooms that exist and satisfy `P`. -/
def SweepsOnly (P : Server → RoomId → Prop) (s : Server) : Prop :=
  ∀ ⦃t pc r⦄, s.tasks t = some ⟨.gcSweep, pc⟩ → r ∈ pc.pendingStops →
    r < s.mgr.nextRoomId ∧ P s r

/-- A sweep is at hand: in progress with `r` still to stop, or moved by this step. -/
def SweepAtHand (s : Server) (l : Label) (r : RoomId) : Prop :=
  (∃ t pc, s.tasks t = some ⟨.gcSweep, pc⟩ ∧ r ∈ pc.pendingStops) ∨
    ∃ pc, s.moving l = some ⟨.gcSweep, pc⟩

/-- The step rule: what a sweep collects satisfies `P`, and no step spoils `P` for a room
that a sweep has yet to stop. -/
theorem SweepsOnly.step {P : Server → RoomId → Prop} (hs : SweepsOnly P s) (hw : WellFormed s)
    (h : StepCase s l s')
    (hstart : ∀ o, l = .proceed o → s.moving l = some ⟨.gcSweep, .start⟩ →
      ∀ r ∈ s.mgr.sweepTargets o.now, P s r)
    (hP : ∀ r, r < s.mgr.nextRoomId → SweepAtHand s l r → P s r → P s' r) : SweepsOnly P s' := by
  intro t pc r ht hr
  suffices hold : r < s.mgr.nextRoomId ∧ P s r ∧ SweepAtHand s l r from
    ⟨hold.1.trans_le (nextRoomId_le h), hP r hold.1 hold.2.2 hold.2.1⟩
  cases task_origin h ht with
  | kept ht₀ =>
      obtain ⟨hlt, hPr⟩ := hs ht₀ hr
      exact ⟨hlt, hPr, .inl ⟨t, pc, ht₀, hr⟩⟩
  | moved ht₀ hmove _ hmover =>
      have hmoving := moving_eq hmover ht₀
      rcases hmove.pendingStops hr with hr | ⟨rfl, o, hl, hr⟩
      · obtain ⟨hlt, hPr⟩ := hs ht₀ hr
        exact ⟨hlt, hPr, .inr ⟨_, hmoving⟩⟩
      · exact ⟨hw.registered r (List.mem_of_mem_filter hr), hstart o hl hmoving r hr,
          .inr ⟨_, hmoving⟩⟩
  | called => cases hr

/-! ## Rooms with active jobs -/

/-- The active jobs of a room grow only when `queue_execution` marks a new one. -/
theorem activeJobs_step (h : StepCase s l s') (hr : r < s.mgr.nextRoomId) :
    (s'.room r).activeJobs ⊆ (s.room r).activeJobs ∨
      ∃ nb nb' r' cells actor name,
        s.moving l = some ⟨.queueExecution nb' cells actor name, .ensured nb r'⟩ ∧
          s.mgr.roomForNotebook nb = some r := by
  rcases h.mgr with hmgr | ⟨t, op, pc, n, ht, hmove, rfl, hmover⟩
  · left
    rw [Server.room, hmgr, Server.room]
  · change (n.state.room r).activeJobs ⊆ _ ∨ _
    generalize hroom : n.state.room r = room
    have hstep := hmove.room (Nat.ne_of_lt hr)
    rw [hroom] at hstep
    cases hstep with
    | jobStarted hop hpc hr' =>
        subst hop hpc
        exact .inr ⟨_, _, _, _, _, _, moving_eq hmover ht, hr'⟩
    | cleared => exact .inl (Finset.empty_subset _)
    | jobFinished _ hjobs => exact .inl hjobs
    | _ => exact .inl subset_rfl

/-- A registered room that is live-detached and was last active longer ago than the limit. -/
def longIdle (s : Server) (now : Time) (r : RoomId) : Bool :=
  r ∈ s.mgr.rooms && (s.room r).state = .liveDetached &&
    decide (now - (s.room r).lastActivity > s.mgr.idleTtlSeconds)

theorem longIdle_of_mem_sweepTargets {now : Time} (hr : r ∈ s.mgr.sweepTargets now) :
    s.longIdle now r = true := by
  obtain ⟨hmem, hidle⟩ := List.mem_filter.mp hr
  simp only [RuntimeManager.idle, Bool.and_eq_true, decide_eq_true_eq] at hidle
  simp only [longIdle, Bool.and_eq_true, decide_eq_true_eq]
  exact ⟨⟨hmem, hidle.1⟩, hidle.2⟩

/-- A sweep that has read the clock, the state it found, and the time it read. -/
structure SweepBegun where
  task : TaskId
  found : Server
  now : Time

/-- The sweep that reads the clock in this step. -/
def sweepsBegun (s : Server) (l : Label) : List SweepBegun :=
  match s.running, s.moving l, l with
  | some t, some ⟨.gcSweep, .start⟩, .proceed o => [⟨t, s, o.now⟩]
  | _, _, _ => []

/-- The call of the task has neither returned nor raised. -/
def unfinished (s : Server) (t : TaskId) : Bool := (s.tasks t).any fun task => !task.pc.isDone

/-- When a sweep reads the clock, no room with active jobs is live-detached and idle for longer
than the limit; and as long as that sweep is in progress, `queue_execution` marks no job on a
room that then was. -/
def sparesActive (s : Server) (begun : List SweepBegun) (l : Label) : Bool :=
  match s.moving l, l with
  | some ⟨.gcSweep, .start⟩, .proceed o =>
      s.mgr.rooms.all fun r => (s.room r).activeJobs = ∅ || !s.longIdle o.now r
  | some ⟨.queueExecution .., .ensured nb _⟩, _ =>
      begun.all fun sweep => !s.unfinished sweep.task ||
        (s.mgr.roomForNotebook nb).all fun r => !sweep.found.longIdle sweep.now r
  | _, _ => true

/-- Each room that a sweep has yet to stop was long idle when the sweep read the clock. -/
def BegunIdle (s : Server) (begun : List SweepBegun) : Prop :=
  ∀ ⦃t pc r⦄, s.tasks t = some ⟨.gcSweep, pc⟩ → r ∈ pc.pendingStops →
    ∃ found now, ⟨t, found, now⟩ ∈ begun ∧ found.longIdle now r = true

theorem begunIdle_step {begun : List SweepBegun} (h : StepCase s l s')
    (hs : BegunIdle s begun) : BegunIdle s' (begun ++ s.sweepsBegun l) := by
  intro t pc r ht hr
  have hold : ∀ pc, s.tasks t = some ⟨.gcSweep, pc⟩ → r ∈ pc.pendingStops →
      ∃ found now, ⟨t, found, now⟩ ∈ begun ++ s.sweepsBegun l ∧ found.longIdle now r = true := by
    intro pc ht hr
    obtain ⟨found, now, hmem, hidle⟩ := hs ht hr
    exact ⟨found, now, List.mem_append_left _ hmem, hidle⟩
  cases task_origin h ht with
  | kept ht₀ => exact hold _ ht₀ hr
  | moved ht₀ hmove _ hmover =>
      rcases hmove.pendingStops hr with hr | ⟨rfl, o, rfl, hr⟩
      · exact hold _ ht₀ hr
      · refine ⟨s, o.now, List.mem_append_right _ ?_, longIdle_of_mem_sweepTargets hr⟩
        have hrunning : s.running = some t := hmover
        simp [sweepsBegun, hrunning, moving_eq hmover ht₀]
  | called => cases hr

theorem not_isDone_of_pendingStops (hr : r ∈ pc.pendingStops) : pc.isDone = false := by
  cases pc <;> first | rfl | cases hr

theorem sweepsOnly_inactive {begun : List SweepBegun} (hw : WellFormed s) (h : StepCase s l s')
    (hguard : s.sparesActive begun l = true) (hbegun : BegunIdle s begun)
    (hs : SweepsOnly (fun s r => (s.room r).activeJobs = ∅) s) :
    SweepsOnly (fun s r => (s.room r).activeJobs = ∅) s' := by
  apply hs.step hw h
  · intro o hl hmoving r hr
    subst hl
    simp only [sparesActive, hmoving, List.all_eq_true] at hguard
    have hidle := longIdle_of_mem_sweepTargets hr
    simpa [hidle] using hguard r (List.mem_of_mem_filter hr)
  · intro r hlt hhand hempty
    rcases activeJobs_step h hlt with hsub | ⟨nb, nb', r', cells, actor, name, hmoving, hroom⟩
    · rw [hempty] at hsub
      exact Finset.subset_empty.mp hsub
    · rcases hhand with ⟨t, pc, ht, hr⟩ | ⟨pc, hsweep⟩
      · obtain ⟨found, now, hmem, hidle⟩ := hbegun ht hr
        have hunfinished : s.unfinished t = true := by
          simp [unfinished, ht, not_isDone_of_pendingStops hr]
        simp only [sparesActive, hmoving, List.all_eq_true] at hguard
        simpa [hunfinished, hroom, hidle] using hguard _ hmem
      · rw [hmoving] at hsweep
        cases hsweep

/-- A sweep is about to call `stop_runtime` on a registered room. -/
def SweepStops (s : Server) (r : RoomId) : Prop :=
  r ∈ s.mgr.rooms ∧ ∃ t rest stopped, s.tasks t = some ⟨.gcSweep, .stopRoom r rest stopped⟩

/-- Where every sweep finds the rooms with active jobs in use, and none of the rooms that it
found idle is given a job before it ends, no sweep ever stops a room that has one. -/
theorem gcSweep_spares_active {ttl : Time} {maxCompleted : Int} {alive : KernelId → Bool}
    {kernelspec : NotebookId → Option String} {begun : List SweepBegun}
    (h : Run (observed step sweepsBegun) (fun p l => p.1.sparesActive p.2 l = true)
      (boot ttl maxCompleted alive kernelspec, []) (s, begun))
    (hstops : SweepStops s r) : (s.room r).activeJobs = ∅ := by
  obtain ⟨-, t, rest, stopped, ht⟩ := hstops
  suffices hs : WellFormed s ∧ BegunIdle s begun ∧
      SweepsOnly (fun s r => (s.room r).activeJobs = ∅) s from
    (hs.2.2 ht List.mem_cons_self).2
  refine Run.invariant (I := fun p : Server × List SweepBegun => WellFormed p.1 ∧
    BegunIdle p.1 p.2 ∧ SweepsOnly (fun s r => (s.room r).activeJobs = ∅) p.1) h
    ⟨wellFormed_boot, ?_, ?_⟩ ?_
  · intro t pc r ht
    cases ht
  · intro t pc r ht
    cases ht
  · rintro ⟨s, begun⟩ l p ⟨hw, hbegun, hs⟩ hguard hobserved
    obtain ⟨s', hstep, rfl⟩ := observed_eq_some.mp hobserved
    have hcase := step_cases hstep
    exact ⟨hw.step hstep, begunIdle_step hcase hbegun,
      sweepsOnly_inactive hw hcase hguard hbegun hs⟩

section Schedules

/-- A call that creates a session for a notebook: the steps of task `t` from its call of
`_load_or_refresh_room` to the return of `create_session`. -/
private def opening (t : TaskId) : List Label :=
  [.proceed (.quiet 0), .resume t (.raised (.http 404 "")) (.quiet 0), .proceed (.quiet 0),
    .proceed (.quiet 0), .resume t (.session ⟨"session", "kernel", some "python3"⟩) (.quiet 0)]

/-- A sweep at time 100, up to its first call of `stop_runtime`. -/
private def sweepLater : List Label :=
  [.call .gcSweep, .proceed (.quiet 100), .proceed (.quiet 100)]

theorem gcSweep_spares_active_idle :
    ∃ s, SweepStops s 0 ∧ (s.room 0).activeJobs = ∅ := by
  obtain ⟨⟨s, begun⟩, hrun, hr, ht⟩ := @exists_guarded_run_of_exec _ _ (observed step sweepsBegun)
    (fun p l => p.1.sparesActive p.2 l = true) _
    (boot 10 20 (fun _ => false) fun _ => none, [])
    ([.call (.ensureRoom "nb" none), .proceed (.quiet 0)] ++ opening 0 ++ [.proceed (.quiet 0)] ++
      sweepLater)
    (fun p => 0 ∈ p.1.mgr.rooms ∧ p.1.tasks 1 = some ⟨.gcSweep, .stopRoom 0 [] []⟩)
    _ (by decide) (by decide)
  have hstops : SweepStops s 0 := ⟨hr, 1, _, _, ht⟩
  exact ⟨s, hstops, gcSweep_spares_active hrun hstops⟩

/-- A cell that computes without a result for longer than the idle time: its room is
live-detached, its last activity is the start of the job, and a sweep stops it. -/
theorem gcSweep_stops_running_job :
    ∃ s r, ServerRun anyStep (boot 10 20 (fun _ => false) fun _ => none) s ∧
      SweepStops s r ∧ (s.room r).activeJobs ≠ ∅ := by
  obtain ⟨s, hrun, hr, ht, hjobs⟩ := (boot 10 20 (fun _ => false) fun _ => none).exists_run
    ([.call (.queueExecution "nb" ["cell"] ⟨"alice", .human⟩ none), .proceed (.quiet 0),
        .resume 0 .returned (.quiet 0)] ++ opening 0 ++ [.proceed (.quiet 0)] ++
      -- the job takes the lock, sends its cell and starts to poll
      [.resume 1 .returned (.quiet 0), .proceed (.quiet 0), .proceed (.quiet 0),
        .proceed (.quiet 0), .proceed (.quiet 0), .proceed (.quiet 0), .proceed (.quiet 0),
        .resume 1 .returned (.quiet 0), .resume 1 (.raised .timeout) (.quiet 0),
        .resume 1 (.text "while True: pass") (.quiet 0), .resume 1 (.text "document") (.quiet 0),
        .proceed (.quiet 0)] ++ sweepLater)
    (fun s => 0 ∈ s.mgr.rooms ∧ s.tasks 2 = some ⟨.gcSweep, .stopRoom 0 [] []⟩ ∧
      (s.room 0).activeJobs ≠ ∅)
    (by decide +kernel)
  exact ⟨s, 0, hrun, ⟨hr, 2, _, _, ht⟩, hjobs⟩

end Schedules

/-! ## Notebooks that are only observed -/

variable {nb : NotebookId}

/-- Of the notebook's runtime the extension is only asked for its status, and only a sweep
stops it. -/
def observedOnly (nb : NotebookId) (s : Server) (l : Label) : Bool :=
  match s.moving l with
  | some ⟨op, .loadRoom nb' _⟩ => nb' ≠ nb || op.isStatus
  | some ⟨op, .stopRoom r _ _⟩ => op = .gcSweep || (s.room r).notebookId ≠ nb
  | _ => true

/-- When a sweep reads the clock, each room of the notebook has a client, or is not live-detached,
or has been active within the limit. -/
def sparesNotebook (nb : NotebookId) (s : Server) (l : Label) : Bool :=
  match s.moving l, l with
  | some ⟨.gcSweep, .start⟩, .proceed o =>
      s.mgr.rooms.all fun r =>
        (s.room r).notebookId ≠ nb || (s.room r).attachedClients ≠ ∅ || !s.longIdle o.now r
  | _, _ => true

/-- The extension has deleted the session of a room of the notebook or shut down its kernel. -/
def KernelTaken (nb : NotebookId) (s : Server) : Prop :=
  ∃ r, (s.room r).notebookId = nb ∧
    ((∃ id, .deleteSession r id ∈ s.events) ∨ ∃ k, .shutdownKernel r k ∈ s.events)

/-- The deletions of sessions and kernels so far were for rooms of other notebooks. -/
def TakenElsewhere (nb : NotebookId) (s : Server) : Prop :=
  ∀ r, ((∃ id, .deleteSession r id ∈ s.events) ∨ ∃ k, .shutdownKernel r k ∈ s.events) →
    r < s.mgr.nextRoomId ∧ (s.room r).notebookId ≠ nb

/-- No call but a status query has got past the lookup of the notebook, and none uses a room
of it. -/
def Unopened (nb : NotebookId) (s : Server) : Prop :=
  ∀ ⦃t op pc⦄, s.tasks t = some ⟨op, pc⟩ → (op.isStatus = false → pc.asksFor ≠ some nb) ∧
    ∀ r, pc.usedRoom = some r → (s.room r).notebookId ≠ nb

/-- A call asks for the notebook that it asked for before, or looks up. -/
theorem TaskStep.asksFor (h : TaskStep s t op l pc n) (hnb : n.pc.asksFor = some nb) :
    pc.asksFor = some nb ∨ ∃ choice, pc = .loadRoom nb choice := by
  cases h with
  | call h => cases h <;> cases hnb
  | ensure h =>
      cases h with
      | found =>
          cases hnb
          exact .inr ⟨_, rfl⟩
      | absent =>
          cases hnb
          exact .inr ⟨_, rfl⟩
      | adopted => exact .inl hnb
      | missing => exact .inl hnb
      | dead => exact .inl hnb
      | created => exact .inl hnb
      | _ => cases hnb
  | stop h =>
      rcases h.stays with hpc | ⟨_, hpc⟩
      · revert hpc hnb
        cases n.pc <;> simp [Pc.asksFor, Pc.isStop]
      · rw [hpc] at hnb
        cases hnb
  | job h =>
      rcases h.stays with hpc | ⟨_, hpc⟩
      · revert hpc hnb
        cases n.pc <;> simp [Pc.asksFor, Pc.isJob]
      · rw [hpc] at hnb
        cases hnb

/-- `ensure_room` returns a room for the notebook that was asked for. -/
theorem TaskStep.asksFor_of_ensured {r : RoomId} (h : TaskStep s t op l pc n)
    (hpc : n.pc = .ensured nb r) : pc.asksFor = some nb := by
  cases h with
  | call h => cases h <;> cases hpc
  | ensure h => cases h <;> cases hpc <;> rfl
  | stop h => rcases h.stays with h | ⟨_, h⟩ <;> (rw [hpc] at h; cases h)
  | job h => rcases h.stays with h | ⟨_, h⟩ <;> (rw [hpc] at h; cases h)

theorem unopened_step (hw : WellFormed s) (hstep : s.step l = some s')
    (hobserved : s.observedOnly nb l = true) (hs : Unopened nb s) : Unopened nb s' := by
  have hcase := step_cases hstep
  intro t op pc ht
  have hold : ∀ pc', s.tasks t = some ⟨op, pc'⟩ → ∀ r, pc'.usedRoom = some r →
      (s'.room r).notebookId ≠ nb := by
    intro pc' ht r hr
    rw [room_notebookId hcase (hw.held ht (Pc.mem_rooms_of_usedRoom hr))]
    exact (hs ht).2 r hr
  cases task_origin hcase ht with
  | kept ht₀ => exact ⟨(hs ht₀).1, hold _ ht₀⟩
  | called => exact ⟨fun _ => (by simp [Pc.asksFor]), fun r hr => (by cases hr)⟩
  | spawned => exact ⟨fun _ => (by simp [Pc.asksFor]), fun r hr => (by cases hr)⟩
  | @moved op pc₀ n ht₀ hmove _ hmover =>
      constructor
      · intro hop hnb
        rcases hmove.asksFor hnb with hnb | ⟨choice, rfl⟩
        · exact (hs ht₀).1 hop hnb
        · simp [observedOnly, moving_eq hmover ht₀, hop] at hobserved
      · intro r hr
        rcases hmove.usedRoom hr with hr | ⟨nb', hpc⟩
        · exact hold _ ht₀ r hr
        · have hw' := hw.step hstep
          rw [hpc] at ht
          rw [hw'.named ht rfl]
          rintro rfl
          exact (hs ht₀).1 (hw'.admits ht).2 (hmove.asksFor_of_ensured hpc)

/-- No room of the notebook that has clients is live-detached. -/
def AttachedFor (nb : NotebookId) (s : Server) : Prop :=
  ∀ ⦃r⦄, r < s.mgr.nextRoomId → (s.room r).notebookId = nb → (s.room r).attachedClients ≠ ∅ →
    (s.room r).state ≠ .liveDetached

theorem attachedFor_step (hi : ServerInv s) (hstep : s.step l = some s')
    (hunopened : Unopened nb s) (hs : AttachedFor nb s) : AttachedFor nb s' := by
  intro r hr hname hclients
  have hname₀ : r < s.mgr.nextRoomId → (s.room r).notebookId = nb := fun hlt => by
    rw [← room_notebookId (step_cases hstep) hlt, hname]
  refine attached_step hi hstep hr ?_ (fun hlt => hs hlt (hname₀ hlt)) hclients
  intro op pending hmoving
  obtain ⟨t, -, ht⟩ := Option.bind_eq_some_iff.mp hmoving
  have hlt := hi.wellFormed.held ht (List.mem_singleton_self r)
  exact absurd (hname₀ hlt) ((hunopened ht).2 r rfl)

theorem sweepsOnly_elsewhere (hw : WellFormed s) (h : StepCase s l s')
    (hguard : s.sparesNotebook nb l = true) (hattached : AttachedFor nb s)
    (hs : SweepsOnly (fun s r => (s.room r).notebookId ≠ nb) s) :
    SweepsOnly (fun s r => (s.room r).notebookId ≠ nb) s' := by
  apply hs.step hw h
  · intro o hl hmoving r hr hname
    subst hl
    simp only [sparesNotebook, hmoving, List.all_eq_true] at hguard
    have hmem := List.mem_of_mem_filter hr
    have hidle := longIdle_of_mem_sweepTargets hr
    have hclients : (s.room r).attachedClients ≠ ∅ := by
      simpa [hname, hidle] using hguard r hmem
    simp only [longIdle, Bool.and_eq_true, decide_eq_true_eq] at hidle
    exact hattached (hw.registered r hmem) hname hclients hidle.1.2
  · intro r hlt _ hne
    rw [room_notebookId h hlt]
    exact hne

/-- A deletion that a step makes is for a registered room that `stop_runtime` was called on. -/
theorem deletion_step (h : StepCase s l s')
    (he : (∃ id, .deleteSession r id ∈ s'.events) ∨ ∃ k, .shutdownKernel r k ∈ s'.events) :
    ((∃ id, .deleteSession r id ∈ s.events) ∨ ∃ k, .shutdownKernel r k ∈ s.events) ∨
      r ∈ s.mgr.rooms ∧ ∃ t op rest stopped, s.tasks t = some ⟨op, .stopRoom r rest stopped⟩ ∧
        s.moving l = some ⟨op, .stopRoom r rest stopped⟩ := by
  obtain ⟨es, hes, hcase⟩ := h.events
  simp only [hes, List.mem_append, exists_or] at he
  clear hes
  suffices hnew : ((∃ id, .deleteSession r id ∈ es) ∨ ∃ k, .shutdownKernel r k ∈ es) →
      r ∈ s.mgr.rooms ∧ ∃ t op rest stopped, s.tasks t = some ⟨op, .stopRoom r rest stopped⟩ ∧
        s.moving l = some ⟨op, .stopRoom r rest stopped⟩ by
    rcases he with (he | he) | (he | he)
    · exact .inl (.inl he)
    · exact .inr (hnew (.inl he))
    · exact .inl (.inr he)
    · exact .inr (hnew (.inr he))
  intro he
  rcases hcase with hcontrol | ⟨t, op, pc, n, ht, -, -, hmover, hevents⟩
  · rcases he with ⟨_, he⟩ | ⟨_, he⟩ <;> cases hcontrol _ he
  · cases hevents with
    | stopping hpc hr hes =>
        subst hpc
        rcases hes with rfl | ⟨_, rfl⟩ | ⟨_, rfl⟩ <;> simp at he <;> subst he <;>
          exact ⟨hr, t, op, _, _, ht, moving_eq hmover ht⟩
    | control hes => rcases he with ⟨_, he⟩ | ⟨_, he⟩ <;> cases hes _ he
    | _ => simp at he

theorem takenElsewhere_step (hw : WellFormed s) (h : StepCase s l s')
    (hobserved : s.observedOnly nb l = true)
    (hs : SweepsOnly (fun s r => (s.room r).notebookId ≠ nb) s) (ht : TakenElsewhere nb s) :
    TakenElsewhere nb s' := by
  intro r he
  suffices hold : r < s.mgr.nextRoomId ∧ (s.room r).notebookId ≠ nb from
    ⟨hold.1.trans_le (nextRoomId_le h), by rw [room_notebookId h hold.1]; exact hold.2⟩
  rcases deletion_step h he with he | ⟨hr, t, op, rest, stopped, htask, hmoving⟩
  · exact ht r he
  · refine ⟨hw.registered r hr, ?_⟩
    by_cases hop : op = .gcSweep
    · subst hop
      exact (hs htask List.mem_cons_self).2
    · simpa [observedOnly, hmoving, hop] using hobserved

/-- Where every sweep finds the rooms of a notebook in use of which only the status is queried,
neither a session nor a kernel of the notebook is ever taken. -/
theorem observed_keeps_kernel {ttl : Time} {maxCompleted : Int} {alive : KernelId → Bool}
    {kernelspec : NotebookId → Option String}
    (h : ServerRun (fun s l => s.observedOnly nb l = true ∧ s.sparesNotebook nb l = true)
      (boot ttl maxCompleted alive kernelspec) s) : ¬KernelTaken nb s := by
  suffices hs : (Unopened nb s ∧ AttachedFor nb s) ∧
      SweepsOnly (fun s r => (s.room r).notebookId ≠ nb) s ∧ TakenElsewhere nb s by
    rintro ⟨r, hname, he⟩
    exact (hs.2.2 r he).2 hname
  refine Run.invariant_of
    (I := fun s => (Unopened nb s ∧ AttachedFor nb s) ∧
      SweepsOnly (fun s r => (s.room r).notebookId ≠ nb) s ∧ TakenElsewhere nb s)
    h (fun t ht => serverInv_run ht) ⟨⟨?_, ?_⟩, ?_, ?_⟩ ?_
  · intro t op pc ht
    cases ht
  · exact fun r hr => absurd hr (Nat.not_lt_zero r)
  · intro t pc r ht
    cases ht
  · rintro r (⟨_, he⟩ | ⟨_, he⟩) <;> cases he
  · rintro s l s' hi - ⟨⟨hunopened, hattached⟩, hs, ht⟩ ⟨hobserved, hspares⟩ hstep
    have hw := hi.wellFormed
    exact ⟨⟨unopened_step hw hstep hobserved hunopened,
        attachedFor_step hi hstep hunopened hattached⟩,
      sweepsOnly_elsewhere hw (step_cases hstep) hspares hattached hs,
      takenElsewhere_step hw (step_cases hstep) hobserved hs ht⟩

section Schedules

/-- A status query that finds a session created from a browser tab. -/
private def statusQuery : List Label :=
  [.call (.getRuntimeStatus "nb"), .proceed (.quiet 0), .proceed (.quiet 0),
    .resume 0 (.session ⟨"tab", "kernel", some "python3"⟩) (.quiet 0), .proceed (.quiet 0)]

theorem observed_keeps_kernel_attached :
    ∃ s, (s.room 0).notebookId = "nb" ∧ s.tasks 2 = some ⟨.gcSweep, .done (.swept [])⟩ ∧
      ¬KernelTaken "nb" s := by
  obtain ⟨s, hrun, hname, ht⟩ := (boot 10 20 (fun _ => false) fun _ => none).exists_guarded_run
    (fun s l => s.observedOnly "nb" l && s.sparesNotebook "nb" l)
    (statusQuery ++ [.call (.attachClient 0 "tab"), .proceed (.quiet 0), .call .gcSweep,
      .proceed (.quiet 100), .proceed (.quiet 100)])
    (fun s => (s.room 0).notebookId = "nb" ∧ s.tasks 2 = some ⟨.gcSweep, .done (.swept [])⟩)
    (by decide) (by decide)
  exact ⟨s, hname, ht, observed_keeps_kernel (hrun.mono fun _ _ h => by simpa using h)⟩

/-- The query registers the room; a later sweep finds it idle and deletes its session. -/
theorem observing_takes_kernel :
    ∃ s, ServerRun (fun s l => s.observedOnly "nb" l = true)
      (boot 10 20 (fun _ => false) fun _ => none) s ∧ KernelTaken "nb" s := by
  obtain ⟨s, hrun, hname, he⟩ := (boot 10 20 (fun _ => false) fun _ => none).exists_guarded_run
    (observedOnly "nb") (statusQuery ++ sweepLater ++ [.proceed (.quiet 100)])
    (fun s => (s.room 0).notebookId = "nb" ∧ .deleteSession 0 "tab" ∈ s.events)
    (by decide) (by decide)
  exact ⟨s, hrun, 0, hname, .inl ⟨_, he⟩⟩

end Schedules

end Server

end Hypernote
