import Hypernote.Proofs.Sequential
/-!
# What a stop leaves behind

A room becomes `STOPPED` at the end of `stop_runtime`, which clears it, and where
`_load_or_refresh_room` finds its kernel dead, which does not.  `stop_runtime` takes
the state for a sign that the room has been cleared and unregistered already.
-/

namespace Hypernote

open Foundation

namespace Server

variable {s s' : Server} {l : Label} {t : TaskId} {op : Op} {pc : Pc} {n : Next}
  {r : RoomId} {nb : NotebookId}

/-- `_load_or_refresh_room` finds no room dead that has clients or jobs. -/
def refreshesEmpty (s : Server) (l : Label) : Bool :=
  match s.moving l with
  | some ⟨_, .loadRoom nb _⟩ =>
      match s.mgr.roomForNotebook nb with
      | some r =>
          RuntimeManager.kernelIsAlive s.alive (s.room r) || (s.room r).state = .failed ||
            (s.room r).attachedClients = ∅ && (s.room r).activeJobs = ∅
      | none => true
  | _ => true

/-- `stop_runtime` returns without doing anything. -/
def skipsStop (s : Server) (l : Label) : Bool :=
  match s.moving l with
  | some ⟨_, .stopRoom r _ _⟩ =>
      r ∈ s.mgr.rooms && ((s.room r).state = .stopped || (s.room r).state = .stopping)
  | _ => false

/-- The room for which `stop_runtime` returns in this step. -/
def stopReturns (s : Server) (l : Label) : Option RoomId :=
  match s.moving l with
  | some ⟨_, .stopRoom r _ _⟩ => if s.skipsStop l then some r else none
  | some ⟨_, .stopFinally r _ _ none⟩ => some r
  | _ => none

/-- A stopped room has no clients and no jobs. -/
def StoppedCleared (s : Server) : Prop :=
  ∀ ⦃r⦄, r < s.mgr.nextRoomId → (s.room r).state = .stopped →
    (s.room r).attachedClients = ∅ ∧ (s.room r).activeJobs = ∅

/-- The job that `queue_execution` records belongs to the live room it has ensured. -/
theorem InProgress.jobStarted_live (hp : InProgress s) (hlive : ReturnsLive s) {r' : RoomId}
    (ht : s.tasks t = some ⟨op, .ensured nb r'⟩) (hr : s.mgr.roomForNotebook nb = some r) :
    (s.room r).isLive = true := by
  have hsame := hp.found ht rfl
  rw [hr] at hsame
  cases hsame
  have hroom := hlive.returned ht
  rw [liveRoom, Bool.and_eq_true] at hroom
  exact hroom.1

theorem stoppedCleared_step (hs : ServerInv s) (hp : InProgress s) (h : StepCase s l s')
    (hguard : s.refreshesEmpty l = true) (hinv : StoppedCleared s) : StoppedCleared s' := by
  intro r hr hstate
  cases room_change h hr with
  | kept hlt heq =>
      rw [heq] at hstate ⊢
      exact hinv hlt hstate
  | fresh _ heq =>
      rw [heq]
      exact ⟨rfl, rfl⟩
  | adopted _ heq =>
      rw [heq]
      exact ⟨rfl, rfl⟩
  | moved hlt ht hmove _ hmover hchange =>
      have hmoving := moving_eq hmover ht
      generalize s'.room r = room at hchange hstate
      cases hchange with
      | kept => exact hinv hlt hstate
      | touched => exact hinv hlt hstate
      | died hpc hfound halive hold =>
          subst hpc
          simpa [refreshesEmpty, hmoving, hfound, halive, hold.2] using hguard
      | detached =>
          dsimp only [NotebookRoom.detach] at hstate ⊢
          split at hstate
          · cases hstate
          · obtain ⟨hclients, hjobs⟩ := hinv hlt hstate
            exact ⟨by rw [hclients]; rfl, hjobs⟩
      | jobStarted _ hpc hfound =>
          subst hpc
          have hlive := hp.jobStarted_live hs.returnsLive ht hfound
          dsimp only at hstate
          rw [NotebookRoom.isLive, hstate] at hlive
          cases hlive
      | lock => exact hinv hlt hstate
      | stdin _ _ hnew =>
          dsimp only at hstate
          rw [hnew] at hstate
          split at hstate <;> cases hstate
      | cleared => exact ⟨rfl, rfl⟩
      | jobFinished _ hjobs hnew =>
          rcases hnew with rfl | ⟨-, -, rfl, -⟩
          · obtain ⟨hclients, hempty⟩ := hinv hlt hstate
            exact ⟨hclients, Finset.subset_empty.mp (hempty ▸ hjobs)⟩
          · cases hstate
      | _ => cases hstate

/-- What the `finally` of `stop_runtime` and the callback after it leave of the room. -/
structure CleanedUp (s s' : Server) (r : RoomId) : Prop where
  unregistered : r ∉ s'.mgr.rooms
  unmapped : s'.mgr.notebookToRoom (s.room r).notebookId ≠ some r
  notified : s'.events = s.events ++ [.notebookStopped (s.room r).notebookId]

theorem StopStep.cleared_up {rest stopped : List RoomId}
    (h : StopStep s t op l (.stopFinally r rest stopped none) n) :
    CleanedUp s (n.commit t op) r := by
  cases h with
  | cleared =>
      constructor
      · rw [Next.commit, state_stopReturned]
        intro hmem
        have hne := (List.mem_filter.mp hmem).2
        rw [decide_eq_true_eq] at hne
        exact hne rfl
      · rw [Next.commit, state_stopReturned]
        simp [RuntimeManager.unregister, RuntimeManager.modify, NotebookRoom.cleared, Server.room]
      · rw [Next.commit, state_stopReturned]

/-- A stop that is skipped leaves its room registered. -/
theorem registered_of_skipsStop (h : StepCase s l s') (hskips : s.skipsStop l = true)
    (hreturns : s.stopReturns l = some r) : r ∈ s'.mgr.rooms := by
  cases hmoving : s.moving l with
  | none =>
      rw [stopReturns, hmoving] at hreturns
      cases hreturns
  | some task =>
      obtain ⟨op, pc⟩ := task
      obtain ⟨t, n, ht, hmove, rfl, -⟩ := h.of_moving hmoving
      have hroom : ∃ rest stopped, pc = .stopRoom r rest stopped := by
        rw [stopReturns, hmoving] at hreturns
        rw [skipsStop, hmoving] at hskips
        cases pc with
        | stopRoom r' rest stopped =>
            dsimp only at hreturns
            split at hreturns
            · cases hreturns
              exact ⟨_, _, rfl⟩
            · cases hreturns
        | _ => cases hskips
      obtain ⟨rest, stopped, rfl⟩ := hroom
      rw [skipsStop, hmoving, Bool.and_eq_true, decide_eq_true_eq] at hskips
      cases hmove.registry with
      | kept hagrees => exact hagrees.rooms ▸ hskips.1

theorem cleaned_up (h : StepCase s l s') (hskips : s.skipsStop l = false)
    (hreturns : s.stopReturns l = some r) : CleanedUp s s' r := by
  cases hmoving : s.moving l with
  | none =>
      rw [stopReturns, hmoving] at hreturns
      cases hreturns
  | some task =>
      obtain ⟨op, pc⟩ := task
      obtain ⟨t, n, ht, hmove, rfl, -⟩ := h.of_moving hmoving
      rw [stopReturns, hmoving] at hreturns
      cases pc with
      | stopRoom =>
          rw [hskips] at hreturns
          cases hreturns
      | stopFinally r' rest stopped pending =>
          cases pending with
          | some error => cases hreturns
          | none =>
              cases hreturns
              exact (hmove.stopStep rfl).cleared_up
      | _ => cases hreturns

/-- Where the manager is called one call at a time, no dead room is found that has clients or
jobs, and no stop finds its room stopped, a stopped room is empty and a stop that returns
has unregistered its room. -/
theorem stopped_rooms_cleaned_up {ttl : Time} {maxCompleted : Int} {alive : KernelId → Bool}
    {kernelspec : NotebookId → Option String}
    (h : ServerRun
      (fun s l => s.oneByOne l = true ∧ s.refreshesEmpty l = true ∧ s.skipsStop l = false)
      (boot ttl maxCompleted alive kernelspec) s) :
    (∀ r < s.mgr.nextRoomId, (s.room r).state = .stopped →
      (s.room r).attachedClients = ∅ ∧ (s.room r).activeJobs = ∅) ∧
    ∀ l s' r, s.step l = some s' → s.stopReturns l = some r →
      ((r ∉ s'.mgr.rooms ∧ s'.mgr.notebookToRoom (s.room r).notebookId ≠ some r ∧
        s'.events = s.events ++ [.notebookStopped (s.room r).notebookId]) ↔
          s.skipsStop l = false) := by
  have hs : InProgress s ∧ StoppedCleared s := by
    refine Run.invariant_of (I := fun s : Server => InProgress s ∧ StoppedCleared s) h
      (fun _ hu => serverInv_run hu) ⟨inProgress_boot, fun r hr => absurd hr (Nat.not_lt_zero r)⟩ ?_
    rintro u l u' hu - ⟨hp, hinv⟩ ⟨hone, hrefresh, -⟩ hstep
    exact ⟨hp.step hu.wellFormed hone hstep,
      stoppedCleared_step hu hp (step_cases hstep) hrefresh hinv⟩
  refine ⟨fun r hr hstate => hs.2 hr hstate, ?_⟩
  intro l s' r hstep hreturns
  constructor
  · rintro ⟨hroom, -, -⟩
    exact Bool.eq_false_iff.mpr fun hskips =>
      hroom (registered_of_skipsStop (step_cases hstep) hskips hreturns)
  · intro hskips
    obtain ⟨hroom, hmap, hevents⟩ := cleaned_up (step_cases hstep) hskips hreturns
    exact ⟨hroom, hmap, hevents⟩

section Schedules

/-- A client opens the room of a notebook that Jupyter has a session for. -/
private def sessionOpened : List Label :=
  [.call (.openRuntime "nb" "tab" none), .proceed (.quiet 0), .proceed (.quiet 0),
    .resume 0 (.session ⟨"session", "kernel", some "python3"⟩) (.quiet 0), .proceed (.quiet 0),
    .proceed (.quiet 0)]

/-- Task `t` stops room 0 up to the `finally` of `stop_runtime`. -/
private def stopAwaited (t : TaskId) : List Label :=
  [.call (.stopRuntime 0), .proceed (.quiet 1), .proceed (.quiet 1),
    .resume t .returned (.quiet 1)]

theorem stopped_room_cleaned_up :
    ∃ s s' : Server, s.step (.proceed (.quiet 1)) = some s' ∧
      s'.tasks 1 = some ⟨.stopRuntime 0, .done (.room 0)⟩ ∧ 0 ∉ s'.mgr.rooms ∧
      .notebookStopped "nb" ∈ s'.events := by
  obtain ⟨s, hrun, hname, hskips, hreturns, hexec⟩ :=
    (boot 10 20 (fun _ => false) fun _ => none).exists_guarded_run
      (fun s l => s.oneByOne l && s.refreshesEmpty l && !s.skipsStop l)
      (sessionOpened ++ stopAwaited 1)
      (fun s => (s.room 0).notebookId = "nb" ∧ s.skipsStop (.proceed (.quiet 1)) = false ∧
        s.stopReturns (.proceed (.quiet 1)) = some 0 ∧
        (s.step (.proceed (.quiet 1))).any fun s' =>
          s'.tasks 1 = some ⟨.stopRuntime 0, .done (.room 0)⟩)
      (by decide) (by decide)
  cases hstep : s.step (.proceed (.quiet 1)) with
  | none => simp [hstep] at hexec
  | some s' =>
      rw [hstep, Option.any_some, decide_eq_true_eq] at hexec
      obtain ⟨hroom, -, hevents⟩ := ((stopped_rooms_cleaned_up (hrun.mono fun _ _ h => by
        simpa [and_assoc] using h)).2 _ s' 0 hstep hreturns).mpr hskips
      refine ⟨s, s', hstep, hexec, hroom, ?_⟩
      rw [hevents, hname]
      exact List.mem_append_right _ (List.mem_singleton_self _)

/-- The kernel of an opened room dies and a status query finds it dead: the room is stopped
with its client still attached, and the stop that follows returns and leaves it registered. -/
theorem dead_room_kept_by_stop :
    ∃ s s' : Server,
      ServerRun (fun s l => s.oneByOne l = true) (boot 10 20 (fun _ => false) fun _ => none) s ∧
      0 < s.mgr.nextRoomId ∧ (s.room 0).state = .stopped ∧ (s.room 0).attachedClients = {"tab"} ∧
      ServerRun (fun s l => s.oneByOne l = true) s s' ∧
      s'.tasks 2 = some ⟨.stopRuntime 0, .done (.room 0)⟩ ∧ 0 ∈ s'.mgr.rooms ∧
      (s'.room 0).notebookId = "nb" ∧ s'.mgr.notebookToRoom "nb" = some 0 ∧
      .notebookStopped "nb" ∉ s'.events := by
  obtain ⟨s, hrun, hr, hstate, hclients, hguarded, hexec⟩ :=
    (boot 10 20 (fun _ => false) fun _ => none).exists_guarded_run oneByOne
      (sessionOpened ++ [.outside (.kernelDied "kernel"), .call (.getRuntimeStatus "nb"),
        .proceed (.quiet 1), .proceed (.quiet 1), .proceed (.quiet 1)])
      (fun s => 0 < s.mgr.nextRoomId ∧ (s.room 0).state = .stopped ∧
        (s.room 0).attachedClients = {"tab"} ∧
        guardedBy step (fun s l => s.oneByOne l = true) s
          [.call (.stopRuntime 0), .proceed (.quiet 2), .proceed (.quiet 2)] = true ∧
        (exec step s [.call (.stopRuntime 0), .proceed (.quiet 2), .proceed (.quiet 2)]).any
          fun s' => s'.tasks 2 = some ⟨.stopRuntime 0, .done (.room 0)⟩ ∧ 0 ∈ s'.mgr.rooms ∧
            (s'.room 0).notebookId = "nb" ∧ s'.mgr.notebookToRoom "nb" = some 0 ∧
            .notebookStopped "nb" ∉ s'.events)
      (by decide) (by decide)
  obtain ⟨s', hrun', h⟩ := exists_guarded_run_of_exec hguarded hexec
  exact ⟨s, s', hrun, hr, hstate, hclients, hrun', h⟩

end Schedules

end Server

end Hypernote
