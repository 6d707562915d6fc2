import Hypernote.Proofs.Kernels
/-!
# Attached clients and detached rooms

`LIVE_DETACHED` is assigned where a room starts, where its last client leaves, where an
answer is accepted and where a job ends that was awaiting input.  The last place alone
does not look at the clients.
-/

namespace Hypernote

open Foundation

namespace Server

variable {s s' : Server} {l : Label} {t : TaskId} {op : Op} {pc : Pc} {n : Next}
  {r : RoomId} {nb : NotebookId}

/-- No job ends while its room awaits input and has clients. -/
def detachesEmpty (s : Server) (l : Label) : Bool :=
  match s.moving l with
  | some ⟨_, .jobFinally r _⟩ =>
      (s.room r).state ≠ .awaitingInput || r ∉ s.mgr.rooms || (s.room r).attachedClients = ∅
  | _ => true

/-- No room with clients is live-detached. -/
def AttachedInv (s : Server) : Prop :=
  ∀ ⦃r⦄, r < s.mgr.nextRoomId → (s.room r).attachedClients ≠ ∅ → (s.room r).state ≠ .liveDetached

/-- What keeps one room with clients from being live-detached. -/
theorem attached_step (hs : ServerInv s) (hstep : s.step l = some s')
    (hr : r < s'.mgr.nextRoomId)
    (hguard : ∀ op pending, s.moving l = some ⟨op, .jobFinally r pending⟩ →
      (s.room r).state ≠ .awaitingInput ∨ r ∉ s.mgr.rooms ∨ (s.room r).attachedClients = ∅)
    (hinv : r < s.mgr.nextRoomId → (s.room r).attachedClients ≠ ∅ →
      (s.room r).state ≠ .liveDetached)
    (hclients : (s'.room r).attachedClients ≠ ∅) : (s'.room r).state ≠ .liveDetached := by
  cases room_change (step_cases hstep) hr with
  | kept hlt heq =>
      rw [heq] at hclients ⊢
      exact hinv hlt hclients
  | fresh _ heq =>
      rw [heq] at hclients
      exact absurd rfl hclients
  | adopted _ heq =>
      rw [heq] at hclients
      exact absurd rfl hclients
  | @moved t op pc n hlt ht hmove heq hmover hchange =>
      have hmoving := moving_eq hmover ht
      generalize hroom : s'.room r = room at hchange hclients
      cases hchange with
      | kept => exact hinv hlt hclients
      | touched => exact hinv hlt hclients
      | died => exact fun h => by cases h
      | started hpc =>
          subst hpc
          exact absurd (hs.creating ht).2 hclients
      | failed => exact fun h => by cases h
      | attached => exact fun h => by cases h
      | detached =>
          dsimp only [NotebookRoom.detach] at hclients ⊢
          rw [if_neg fun h => hclients h.1]
          refine hinv hlt fun hempty => hclients ?_
          rw [hempty]
          rfl
      | jobStarted => exact hinv hlt hclients
      | lock => exact hinv hlt hclients
      | awaiting => exact fun h => by cases h
      | stdin _ _ hstate =>
          rw [hstate, if_neg hclients]
          exact fun h => by cases h
      | stopping => exact fun h => by cases h
      | cleared => exact fun h => by cases h
      | jobFinished hpc _ hstate =>
          subst hpc
          rcases hstate with rfl | ⟨rfl, hmem, rfl, hawaiting⟩
          · exact hinv hlt hclients
          · rcases hguard _ _ hmoving with hnot | hnot | hnot
            · exact absurd hawaiting hnot
            · exact absurd hmem hnot
            · exact absurd hnot hclients

theorem attachedInv_step (hs : ServerInv s) (hstep : s.step l = some s')
    (hguard : s.detachesEmpty l = true) (hinv : AttachedInv s) : AttachedInv s' := by
  intro r hr hclients
  refine attached_step hs hstep hr (fun op pending hmoving => ?_) (fun hlt => hinv hlt) hclients
  simpa [detachesEmpty, hmoving, or_assoc] using hguard

/-- Where no job ends while its room awaits input and has clients, a room with clients is
never live-detached, so no sweep collects it. -/
theorem attached_room_not_detached {ttl : Time} {maxCompleted : Int} {alive : KernelId → Bool}
    {kernelspec : NotebookId → Option String}
    (h : ServerRun (detachesEmpty · ·) (boot ttl maxCompleted alive kernelspec) s)
    (hr : r < s.mgr.nextRoomId) (hclients : (s.room r).attachedClients ≠ ∅) :
    (s.room r).state ≠ .liveDetached ∧ ∀ now, r ∉ s.mgr.sweepTargets now := by
  have hinv : AttachedInv s := by
    refine h.invariant_of (fun _ hu => serverInv_run hu) ?_ ?_
    · exact fun r hr => absurd hr (Nat.not_lt_zero r)
    · intro u l u' hu _ hinv hguard hstep
      exact attachedInv_step hu hstep hguard hinv
  have hstate := hinv hr hclients
  refine ⟨hstate, fun now hmem => hstate ?_⟩
  have hidle := (List.mem_filter.mp hmem).2
  simp only [RuntimeManager.idle, Bool.and_eq_true, decide_eq_true_eq] at hidle
  exact hidle.1

section Schedules

/-- A client opens a runtime for a notebook that Jupyter has no session for. -/
private def openedByTab : List Label :=
  [.call (.openRuntime "nb" "tab" none), .proceed (.quiet 0), .proceed (.quiet 0),
    .resume 0 (.raised (.http 404 "")) (.quiet 0), .proceed (.quiet 0), .proceed (.quiet 0),
    .resume 0 (.session ⟨"session", "kernel", some "python3"⟩) (.quiet 0), .proceed (.quiet 0)]

/-- Task 1 queues a job of one cell on the opened runtime, and task 2 runs it up to the poll
of its request. -/
private def cellOfTab : List Label :=
  [.call (.queueExecution "nb" ["cell"] ⟨"alice", .human⟩ none), .proceed (.quiet 0),
    .resume 1 .returned (.quiet 0), .proceed (.quiet 0), .proceed (.quiet 0),
    .proceed (.quiet 0), .resume 2 .returned (.quiet 0), .proceed (.quiet 0),
    .proceed (.quiet 0), .proceed (.quiet 0), .proceed (.quiet 0), .proceed (.quiet 0),
    .proceed (.quiet 0), .resume 2 .returned (.quiet 0), .resume 2 (.raised .timeout) (.quiet 0),
    .resume 2 (.text "input()") (.quiet 0), .resume 2 (.text "document") (.quiet 0)]

theorem opened_room_attached :
    ∃ s : Server, (s.room 0).attachedClients = {"tab"} ∧ (s.room 0).state ≠ .liveDetached := by
  obtain ⟨s, hrun, hr, hclients⟩ := (boot 10 20 (fun _ => false) fun _ => none).exists_guarded_run
    detachesEmpty (openedByTab ++ cellOfTab)
    (fun s => 0 < s.mgr.nextRoomId ∧ (s.room 0).attachedClients = {"tab"})
    (by decide) (by decide)
  exact ⟨s, hclients, (attached_room_not_detached hrun hr (by rw [hclients]; decide)).1⟩

/-- A job fails while it awaits input: its room becomes live-detached with the client still
attached. -/
theorem failed_prompt_detaches_tab :
    ∃ (s : Server) (r : RoomId), ServerRun anyStep (boot 10 20 (fun _ => false) fun _ => none) s ∧
      r ∈ s.mgr.rooms ∧ (s.room r).attachedClients ≠ ∅ ∧ (s.room r).state = .liveDetached := by
  obtain ⟨s, hrun, h⟩ := (boot 10 20 (fun _ => false) fun _ => none).exists_run
    (openedByTab ++ cellOfTab ++
      [.proceed { Oracle.quiet 0 with poll := .inputRequest (.obj [("prompt", .str "> ")]) },
        .resume 2 .returned (.quiet 0),
        .proceed { Oracle.quiet 0 with poll := .raised (.other "KeyboardInterrupt") },
        .proceed (.quiet 0), .proceed (.quiet 0)])
    (fun s => 0 ∈ s.mgr.rooms ∧ (s.room 0).attachedClients ≠ ∅ ∧ (s.room 0).state = .liveDetached)
    (by decide)
  exact ⟨s, 0, hrun, h⟩

end Schedules

end Server

end Hypernote
