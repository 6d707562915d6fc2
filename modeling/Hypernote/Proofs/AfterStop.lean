import Hypernote.Proofs.Eviction
import Hypernote.Proofs.SingleFlight
/-!
# After a stop

The callback of a stop empties the ledger of its notebook.  The jobs that had been
accepted go on: one that has not started makes `ensure_room` start another kernel, and
one whose request is answered attributes its cell when the flush returns.
-/

namespace Hypernote

open Foundation MemoryLedger

namespace Server

variable {s s' : Server} {l : Label} {t : TaskId} {op : Op} {pc : Pc} {n : Next}
  {r : RoomId} {nb : NotebookId}

/-- The setting: no call other than `_run_job` records a job for the notebook or creates a
session for it. -/
def noRequest (nb : NotebookId) (s : Server) (l : Label) : Bool :=
  match s.moving l with
  | some ⟨.runJob _, _⟩ => true
  | some ⟨_, .startRoom nb' _⟩ => nb' ≠ nb
  | some ⟨op, pc⟩ => pc.recordsFor op ≠ some nb
  | none => true

/-- No job of the notebook finds neither a live room nor a session, and none is told that its
document is flushed. -/
def stopsShort (nb : NotebookId) (s : Server) (l : Label) : Bool :=
  match s.moving l, l with
  | some ⟨.runJob _, .startRoom nb' _⟩, _ => nb' ≠ nb
  | some ⟨.runJob run, .flushing _ cells _⟩, .resume _ .returned _ =>
      run.notebookId ≠ nb || cells = []
  | _, _ => true

/-- The ledger holds nothing for the notebook. -/
structure Evicted (nb : NotebookId) (s : Server) : Prop where
  jobs : ∀ {j job}, s.ledger.getJob j = some job → job.notebookId ≠ nb
  attributions : ∀ c, s.ledger.cellAttribution.get? (nb, c) = none

theorem Pc.recordsFor_runJob (pc : Pc) (run : JobRun) : pc.recordsFor (.runJob run) = none := by
  cases pc with
  | interrupting room => cases room <;> rfl
  | _ => rfl

theorem recordsFor_of_noRequest (hmoving : s.moving l = some ⟨op, pc⟩)
    (hguard : s.noRequest nb l = true) : pc.recordsFor op ≠ some nb := by
  cases op with
  | runJob run =>
      rw [Pc.recordsFor_runJob]
      exact fun h => by cases h
  | _ =>
      cases pc with
      | startRoom => exact fun h => by cases h
      | _ => simpa [noRequest, hmoving] using hguard

theorem evicted_step (hs : JobsInv s) (h : StepCase s l s') (hquiet : s.noRequest nb l = true)
    (hshort : s.stopsShort nb l = true) (hevicted : Evicted nb s) : Evicted nb s' where
  jobs := by
    intro j job hjob
    rcases hs.job_change h j with hsame | ⟨t, op, pc, n, ht, -, -, hmover, hchange⟩
    · exact hevicted.jobs (hsame ▸ hjob)
    · rw [hjob] at hchange
      rcases hchange.notebookId with ⟨old, hold, hname⟩ | hrecords
      · exact hname ▸ hevicted.jobs hold
      · intro hname
        exact recordsFor_of_noRequest (moving_eq hmover ht) hquiet (hname ▸ hrecords)
  attributions := by
    intro c
    rcases h.ledger with hledger | ⟨t, op, pc, n, ht, hmove, rfl, hmover⟩
    · rw [hledger]
      exact hevicted.attributions c
    · have hmoving := moving_eq hmover ht
      rw [Next.commit]
      rcases hmove.cellAttribution with
        hsame | ⟨r, rest, stopped, -, hevict⟩ | ⟨run, r, cells, result, o, rfl, rfl, rfl, hset⟩
      · rw [hsame]
        exact hevicted.attributions c
      · rw [hevict, evictNotebook, Dict.get?_filterKeys]
        split
        · exact hevicted.attributions c
        · rfl
      · rw [hset]
        cases cells with
        | nil => exact hevicted.attributions c
        | cons c' cells =>
            have hname : run.notebookId ≠ nb := by simpa [stopsShort, hmoving] using hshort
            rw [attributed, List.head?_cons]
            dsimp only [updateCellAttribution]
            rw [Dict.get?_set_of_ne]
            · exact hevicted.attributions c
            · exact fun h => hname (congrArg Prod.fst h).symm

theorem created_step_of_stopsShort (h : StepCase s l s') (hquiet : s.noRequest nb l = true)
    (hshort : s.stopsShort nb l = true) : s'.created nb = s.created nb := by
  rcases Flight.created_step h with hsame | ⟨-, t, op, choice, hmover, ht⟩
  · exact hsame
  · have hmoving := moving_eq hmover ht
    cases op <;> simp [noRequest, stopsShort, hmoving] at hquiet hshort

/-- The callback of a stop empties the ledger of its notebook. -/
theorem evicted_of_notifies (hl : Indexed s.ledger) (h : StepCase s l s')
    (hnotifies : s.notifies l = some r) : Evicted (s.room r).notebookId s' where
  jobs := by
    intro j job hjob
    rw [getJob_notified hl h hnotifies, Option.filter_eq_some_iff] at hjob
    simpa using hjob.2
  attributions := by
    intro c
    obtain ⟨op, rest, stopped, hmoving⟩ := notifies_eq hnotifies
    obtain ⟨t, n, -, hmove, rfl, -⟩ := h.of_moving hmoving
    rw [Next.commit, (hmove.stopStep rfl).evicts, evictNotebook, Dict.get?_filterKeys]
    simp

theorem notifies_of_stopReturns (hskips : s.skipsStop l = false)
    (hreturns : s.stopReturns l = some r) : s.notifies l = some r := by
  cases hmoving : s.moving l with
  | none =>
      rw [stopReturns, hmoving] at hreturns
      cases hreturns
  | some task =>
      obtain ⟨op, pc⟩ := task
      rw [stopReturns, hmoving] at hreturns
      cases pc with
      | stopRoom =>
          rw [hskips] at hreturns
          cases hreturns
      | stopFinally r' rest stopped pending =>
          cases pending with
          | none =>
              rw [notifies, hmoving]
              exact hreturns
          | some error => cases hreturns
      | _ => cases hreturns

/-- Once a stop that was not skipped has returned, and no request for the notebook is made, the
ledger holds nothing for it and no session is created, as long as no job finds no room for
it and none is told that its document is flushed. -/
theorem stopped_notebook_stays_evicted {ttl : Time} {maxCompleted : Int} {alive : KernelId → Bool}
    {kernelspec : NotebookId → Option String} {u u' : Server}
    (hu : ServerRun anyStep (boot ttl maxCompleted alive kernelspec) u)
    (hreturns : u.stopReturns l = some r) (hskips : u.skipsStop l = false)
    (hstep : u.step l = some u')
    (h : ServerRun (fun s l => s.noRequest (u.room r).notebookId l = true ∧
      s.stopsShort (u.room r).notebookId l = true) u' s) :
    (∀ j job, s.ledger.getJob j = some job → job.notebookId ≠ (u.room r).notebookId) ∧
    (∀ c, s.ledger.cellAttribution.get? ((u.room r).notebookId, c) = none) ∧
    s.created (u.room r).notebookId = u'.created (u.room r).notebookId := by
  have hevicted := evicted_of_notifies (indexed_run hu) (step_cases hstep)
    (notifies_of_stopReturns hskips hreturns)
  generalize (u.room r).notebookId = nb at h hevicted ⊢
  have hu' : ServerRun anyStep (boot ttl maxCompleted alive kernelspec) u' := .tail hu trivial hstep
  suffices hs : Evicted nb s ∧ s.created nb = u'.created nb from
    ⟨fun _ _ => hs.1.jobs, hs.1.attributions, hs.2⟩
  refine Run.invariant_of (I := fun s : Server => Evicted nb s ∧ s.created nb = u'.created nb) h
    (fun w hw => serverInv_run (hu'.trans hw.weaken)) ⟨hevicted, rfl⟩ ?_
  rintro w l w' hw - ⟨hempty, hcreated⟩ ⟨hquiet, hshort⟩ hstep
  exact ⟨evicted_step hw.jobs (step_cases hstep) hquiet hshort hempty,
    (created_step_of_stopsShort (step_cases hstep) hquiet hshort).trans hcreated⟩

section Schedules

/-- Task 0 creates the room of the notebook, and task 1 queues a job of one cell on it. -/
private def jobAccepted : List Label :=
  [.call (.ensureRoom "nb" none), .proceed (.quiet 0), .proceed (.quiet 0),
    .resume 0 (.raised (.http 404 "")) (.quiet 0), .proceed (.quiet 0), .proceed (.quiet 0),
    .resume 0 (.session ⟨"session", "kernel", some "python3"⟩) (.quiet 0), .proceed (.quiet 0),
    .call (.queueExecution "nb" ["cell"] ⟨"alice", .human⟩ none), .proceed (.quiet 0),
    .resume 1 .returned (.quiet 0), .proceed (.quiet 0), .proceed (.quiet 0), .proceed (.quiet 0)]

/-- Task 2 runs the job up to the first poll of its request. -/
private def cellSent : List Label :=
  [.resume 2 .returned (.quiet 0), .proceed (.quiet 0), .proceed (.quiet 0), .proceed (.quiet 0),
    .proceed (.quiet 0), .proceed (.quiet 0), .proceed (.quiet 0),
    .resume 2 .returned (.quiet 0), .resume 2 (.raised .timeout) (.quiet 0),
    .resume 2 (.text "1") (.quiet 0), .resume 2 (.text "document") (.quiet 0),
    .proceed (.quiet 0)]

/-- Task 3 stops the room up to the `finally` of `stop_runtime`. -/
private def sessionDeleted : List Label :=
  [.call (.stopRuntime 0), .proceed (.quiet 1), .proceed (.quiet 1),
    .resume 3 .returned (.quiet 1)]

theorem stopped_job_leaves_nothing :
    ∃ s : Server, s.tasks 2 = some ⟨.runJob ⟨0, "nb", ["cell"], ⟨"alice", .human⟩⟩,
        .done .returned⟩ ∧ (∀ j job, s.ledger.getJob j = some job → job.notebookId ≠ "nb") ∧
      s.ledger.cellAttribution.get? ("nb", "cell") = none := by
  obtain ⟨u, hu, hname, hreturns, hskips, hexec⟩ :=
    (boot 10 20 (fun _ => false) fun _ => none).exists_run (jobAccepted ++ cellSent ++ sessionDeleted)
      (fun u => (u.room 0).notebookId = "nb" ∧ u.stopReturns (.proceed (.quiet 1)) = some 0 ∧
        u.skipsStop (.proceed (.quiet 1)) = false ∧
        (u.step (.proceed (.quiet 1))).any fun u' =>
          guardedBy step (fun s l => s.noRequest "nb" l = true ∧ s.stopsShort "nb" l = true) u'
            [.resume 2 .returned (.quiet 1),
              .proceed { Oracle.quiet 1 with poll := .raised (.other "no kernel") },
              .proceed (.quiet 1), .proceed (.quiet 1)] = true ∧
          (exec step u' [.resume 2 .returned (.quiet 1),
            .proceed { Oracle.quiet 1 with poll := .raised (.other "no kernel") },
            .proceed (.quiet 1), .proceed (.quiet 1)]).any fun s =>
              s.tasks 2 = some ⟨.runJob ⟨0, "nb", ["cell"], ⟨"alice", .human⟩⟩, .done .returned⟩)
      (by decide)
  obtain ⟨u', hstep, hexec⟩ := (Option.any_eq_true _ _).mp hexec
  obtain ⟨hguarded, hexec⟩ := of_decide_eq_true hexec
  obtain ⟨s, hs, hdone⟩ := exists_guarded_run_of_exec hguarded hexec
  have hafter := stopped_notebook_stays_evicted hu hreturns hskips hstep (hname.symm ▸ hs)
  rw [hname] at hafter
  obtain ⟨hjobs, hattributions, -⟩ := hafter
  exact ⟨s, hdone, hjobs, hattributions "cell"⟩

/-- After the stop has returned, an accepted job that had not started has a session created for
the notebook, and one that was polling attributes its cell. -/
theorem accepted_job_outlives_stop :
    (∃ u u' s : Server, ServerRun anyStep (boot 10 20 (fun _ => false) fun _ => none) u ∧
      (u.room 0).notebookId = "nb" ∧ u.stopReturns (.proceed (.quiet 1)) = some 0 ∧
      u.skipsStop (.proceed (.quiet 1)) = false ∧ u.step (.proceed (.quiet 1)) = some u' ∧
      ServerRun (fun s l => s.noRequest "nb" l = true) u' s ∧
      s.created "nb" = u'.created "nb" + 1) ∧
    ∃ u u' s : Server, ServerRun anyStep (boot 10 20 (fun _ => false) fun _ => none) u ∧
      (u.room 0).notebookId = "nb" ∧ u.stopReturns (.proceed (.quiet 1)) = some 0 ∧
      u.skipsStop (.proceed (.quiet 1)) = false ∧ u.step (.proceed (.quiet 1)) = some u' ∧
      ServerRun (fun s l => s.noRequest "nb" l = true) u' s ∧
      (s.ledger.cellAttribution.get? ("nb", "cell")).isSome = true := by
  constructor
  · obtain ⟨u, hu, hname, hreturns, hskips, hexec⟩ :=
      (boot 10 20 (fun _ => false) fun _ => none).exists_run (jobAccepted ++ sessionDeleted)
        (fun u => (u.room 0).notebookId = "nb" ∧ u.stopReturns (.proceed (.quiet 1)) = some 0 ∧
          u.skipsStop (.proceed (.quiet 1)) = false ∧
          (u.step (.proceed (.quiet 1))).any fun u' =>
            guardedBy step (fun s l => s.noRequest "nb" l = true) u'
              [.resume 2 .returned (.quiet 1), .proceed (.quiet 1), .proceed (.quiet 1),
                .resume 2 (.raised (.http 404 "")) (.quiet 1), .proceed (.quiet 1),
                .proceed (.quiet 1)] = true ∧
            (exec step u' [.resume 2 .returned (.quiet 1), .proceed (.quiet 1), .proceed (.quiet 1),
              .resume 2 (.raised (.http 404 "")) (.quiet 1), .proceed (.quiet 1),
              .proceed (.quiet 1)]).any fun s => s.created "nb" = u'.created "nb" + 1)
        (by decide)
    obtain ⟨u', hstep, hexec⟩ := (Option.any_eq_true _ _).mp hexec
    obtain ⟨hguarded, hexec⟩ := of_decide_eq_true hexec
    obtain ⟨s, hs, hcreated⟩ := exists_guarded_run_of_exec hguarded hexec
    exact ⟨u, u', s, hu, hname, hreturns, hskips, hstep, hs, hcreated⟩
  · obtain ⟨u, hu, hname, hreturns, hskips, hexec⟩ :=
      (boot 10 20 (fun _ => false) fun _ => none).exists_run
        (jobAccepted ++ cellSent ++ sessionDeleted)
        (fun u => (u.room 0).notebookId = "nb" ∧ u.stopReturns (.proceed (.quiet 1)) = some 0 ∧
          u.skipsStop (.proceed (.quiet 1)) = false ∧
          (u.step (.proceed (.quiet 1))).any fun u' =>
            guardedBy step (fun s l => s.noRequest "nb" l = true) u'
              [.resume 2 .returned (.quiet 1),
                .proceed { Oracle.quiet 1 with poll := .result ⟨false, some "ok"⟩ },
                .resume 2 .returned (.quiet 1)] = true ∧
            (exec step u' [.resume 2 .returned (.quiet 1),
              .proceed { Oracle.quiet 1 with poll := .result ⟨false, some "ok"⟩ },
              .resume 2 .returned (.quiet 1)]).any fun s =>
                (s.ledger.cellAttribution.get? ("nb", "cell")).isSome = true)
        (by decide)
    obtain ⟨u', hstep, hexec⟩ := (Option.any_eq_true _ _).mp hexec
    obtain ⟨hguarded, hexec⟩ := of_decide_eq_true hexec
    obtain ⟨s, hs, hattributed⟩ := exists_guarded_run_of_exec hguarded hexec
    exact ⟨u, u', s, hu, hname, hreturns, hskips, hstep, hs, hattributed⟩

end Schedules

end Server

end Hypernote
