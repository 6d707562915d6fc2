import Hypernote.Client.RunCommand
import Hypernote.Proofs.Reattach
import Hypernote.Proofs.RecordedOutcomes
/-!
# What an exit code tells

The command exits on the status that it has read last.  The server has recorded that status at that
moment, and what it has recorded of a job that has ended is true and stays so.
-/

namespace Hypernote

open Foundation

/-! ## A job that has ended does nothing more -/

namespace Server

variable {s s' : Server} {t : TaskId} {pc : Pc} {run : JobRun} {history : List Event} {job : Job}

/-- The task has made its last write, and the job has this history. -/
def EndedWith (s : Server) (t : TaskId) (run : JobRun) (history : List Event) : Prop :=
  (∃ pc, s.tasks t = some ⟨.runJob run, pc⟩ ∧ pc.isSettled = true) ∧
    s.events.filter (Event.isOf run.jobId) = history

theorem EndedWith.step {l : Label} (hs : EndedWith s t run history) (hinv : ServerInv s)
    (hstep : s.step l = some s') : EndedWith s' t run history := by
  obtain ⟨⟨pc, ht, hpc⟩, hhistory⟩ := hs
  have h := step_cases hstep
  obtain ⟨es, hes, -⟩ := h.events
  rcases hinv.wellFormed.task_next h ht with ⟨ht', hmover⟩ | ⟨n, hmove, rfl, -⟩
  · refine ⟨⟨pc, ht', hpc⟩, ?_⟩
    rw [hes, List.filter_append, own_events hinv.jobs h hes ht (.inl hmover), List.append_nil]
    exact hhistory
  · refine ⟨⟨n.pc, by rw [commit_tasks, if_pos rfl], hmove.isSettled hpc⟩, ?_⟩
    show n.state.events.filter _ = history
    rw [hmove.silent hpc]
    exact hhistory

theorem endedWith_run {G : Server → Label → Prop} (h : ServerRun G s s') (hinv : ServerInv s)
    (hs : EndedWith s t run history) : EndedWith s' t run history := by
  have hboth : ServerInv s' ∧ EndedWith s' t run history := by
    refine Run.invariant (I := fun u => ServerInv u ∧ EndedWith u t run history) h ⟨hinv, hs⟩ ?_
    rintro u l u' ⟨hu, hended⟩ - hstep
    exact ⟨hu.step hstep, hended.step hu hstep⟩
  exact hboth.2

/-- The task of a job that is recorded as completed has made its last write. -/
theorem JobsInv.endedWith (hs : JobsInv s) (ht : s.tasks t = some ⟨.runJob run, pc⟩)
    (hjob : s.ledger.getJob run.jobId = some job) (hterminal : job.status.isTerminal = true) :
    EndedWith s t run (s.events.filter (Event.isOf run.jobId)) := by
  refine ⟨⟨pc, ht, ?_⟩, rfl⟩
  by_contra hpc
  rw [hs.active ht (Bool.eq_false_of_not_eq_true hpc) hjob] at hterminal
  cases hterminal

end Server

namespace RunCommand

open JobHandle (submitted getJob)

variable {c : RunCommand} {x s s' : State} {l : Label} {cells : List CellId} {nb : NotebookId}
  {code : Nat}

/-! ## The server that the command runs over -/

/-- What a step of the command does. -/
inductive StepCase (c : RunCommand) (s : State) : State → Prop
  | server {label server} (h : s.server.step label = some server) :
      StepCase c s { s with server := server }
  | refreshed {job watches} (h : s.job.refresh c.wire s.server.ledger c.jobId = some job) :
      StepCase c s { s with job := job, point := .refreshed watches }
  | goes {point} (hexit : ∀ code, point ≠ .exited code)
      (hreports : point = .reporting → s.job.status.isSettled = true) :
      StepCase c s { s with point := point }
  | exits (h : s.point = .reporting) :
      StepCase c s { s with point := .exited (exitCode s.job.status) }
  | fails : StepCase c s s.fail

theorem stepCase_start : StepCase c s (c.start s) := by
  unfold start
  split
  · split_ifs with hwatches hsettled
    · exact .goes nofun nofun
    · exact .goes nofun fun _ => hsettled
    · exact .goes nofun nofun
  · exact .fails

theorem stepCase (h : c.step s l = some s') : StepCase c s s' := by
  cases l with
  | server label =>
      obtain ⟨server, hserver, rfl⟩ := Option.map_eq_some_iff.mp h
      exact .server hserver
  | starts =>
      obtain ⟨-, h⟩ := Option.ite_none_right_eq_some.mp h
      obtain rfl := Option.some.inj h
      exact stepCase_start
  | refreshes =>
      simp only [step] at h
      split at h
      · obtain rfl := Option.some.inj h
        unfold refresh
        split
        · rename_i job hjob
          exact .refreshed hjob
        · exact .fails
      · cases h
  | settles =>
      simp only [step] at h
      split at h
      · obtain rfl := Option.some.inj h
        split_ifs with hsettled
        · exact .goes nofun fun _ => hsettled
        · exact .goes nofun nofun
      · cases h
  | sleeps =>
      simp only [step] at h
      split at h
      · obtain rfl := Option.some.inj h
        exact .goes nofun nofun
      · cases h
  | timesOut =>
      simp only [step] at h
      split at h
      · obtain ⟨-, h⟩ := Option.ite_none_right_eq_some.mp h
        obtain rfl := Option.some.inj h
        exact .fails
      · cases h
  | raises =>
      simp only [step] at h
      split at h
      · obtain rfl := Option.some.inj h
        exact .fails
      · obtain rfl := Option.some.inj h
        exact .fails
      · obtain rfl := Option.some.inj h
        exact .fails
      · cases h
  | reports =>
      simp only [step] at h
      split at h
      · rename_i hreporting
        obtain rfl := Option.some.inj h
        exact .exits hreporting
      · cases h

theorem server_run {G : State → Label → Prop} (h : Run c.step G s s') :
    ServerRun anyStep s.server s'.server := by
  induction h with
  | refl => exact .refl
  | tail _ _ hstep ih =>
      cases stepCase hstep with
      | server hserver => exact .tail ih trivial hserver
      | refreshed => exact ih
      | goes => exact ih
      | exits => exact ih
      | fails => exact ih

/-! ## The status that the command has read -/

/-- Between two states of a run the server has recorded the job with this status. -/
def ReadBetween (c : RunCommand) (x s : State) (status : JobStatus) : Prop :=
  ∃ u record, Run c.step anyStep x u ∧ Run c.step anyStep u s ∧
    u.server.ledger.getJob c.jobId = some record ∧ record.status = status

structure Follows (c : RunCommand) (x s : State) : Prop where
  read : s.job.status.isSettled = true → ReadBetween c x s s.job.status
  reporting : s.point = .reporting → s.job.status.isSettled = true
  exited : ∀ code, s.point = .exited code → s.raised = true ∧ code = 1 ∨
    s.job.status.isSettled = true ∧ code = exitCode s.job.status

theorem ReadBetween.later {status : JobStatus} (h : ReadBetween c x s status)
    (hstep : c.step s l = some s') : ReadBetween c x s' status := by
  obtain ⟨u, record, hu, hs, hrecord⟩ := h
  exact ⟨u, record, hu, .tail hs trivial hstep, hrecord⟩

section

variable {ttl : Time} {maxCompleted : Int} {alive : KernelId → Bool}
  {kernelspec : NotebookId → Option String}

theorem follows_begin {server : Server} {job : JobHandle}
    (h : ServerRun anyStep (Server.boot ttl maxCompleted alive kernelspec) server)
    (hqueued : .queued c.jobId nb cells ∈ server.events)
    (hjob : job = submitted c.wire c.jobId nb cells ∨
      getJob c.wire server.ledger c.jobId = some job) :
    Follows c (begin server job) (begin server job) := by
  refine ⟨fun hsettled => ?_, nofun, nofun⟩
  rcases hjob with rfl | hjob
  · cases hsettled
  · rw [JobHandle.getJob_eq h hqueued] at hjob
    obtain ⟨record, hrecord, rfl⟩ := Option.map_eq_some_iff.mp hjob
    exact ⟨_, record, .refl, .refl, hrecord, rfl⟩

theorem Follows.step (hs : Follows c x s) (hx : Run c.step anyStep x s)
    (h : ServerRun anyStep (Server.boot ttl maxCompleted alive kernelspec) s.server)
    (hqueued : .queued c.jobId nb cells ∈ s.server.events) (hstep : c.step s l = some s') :
    Follows c x s' := by
  have hread (hsettled : s.job.status.isSettled = true) : ReadBetween c x s' s.job.status :=
    (hs.read hsettled).later hstep
  cases stepCase hstep with
  | server => exact ⟨hread, hs.reporting, hs.exited⟩
  | @refreshed job watches hjob =>
      rw [JobHandle.refresh_eq h hqueued] at hjob
      obtain ⟨record, hrecord, rfl⟩ := Option.map_eq_some_iff.mp hjob
      -- The ledger has been asked in this very step.
      exact ⟨fun _ => ⟨s, record, hx, .single trivial hstep, hrecord, rfl⟩, nofun, nofun⟩
  | goes hexit hreports => exact ⟨hread, hreports, fun code hcode => absurd hcode (hexit code)⟩
  | exits hreporting =>
      refine ⟨hread, nofun, fun code hcode => .inr ⟨hs.reporting hreporting, ?_⟩⟩
      exact (Point.exited.inj hcode).symm
  | fails => exact ⟨hread, nofun, fun code hcode => .inl ⟨rfl, (Point.exited.inj hcode).symm⟩⟩

theorem follows_run {server : Server} {job : JobHandle}
    (h : ServerRun anyStep (Server.boot ttl maxCompleted alive kernelspec) server)
    (hqueued : .queued c.jobId nb cells ∈ server.events)
    (hjob : job = submitted c.wire c.jobId nb cells ∨
      getJob c.wire server.ledger c.jobId = some job)
    (hrun : Run c.step anyStep (begin server job) s) : Follows c (begin server job) s := by
  have hfollows : Run c.step anyStep (begin server job) s ∧ Follows c (begin server job) s := by
    refine Run.invariant (I := fun s => Run c.step anyStep (begin server job) s ∧
      Follows c (begin server job) s) hrun ⟨.refl, follows_begin h hqueued hjob⟩ ?_
    rintro s l s' ⟨hx, hs⟩ - hstep
    have hserver := server_run hx
    exact ⟨.tail hx trivial hstep,
      hs.step hx (h.trans hserver) (Server.mem_events_run hserver hqueued) hstep⟩
  exact hfollows.2

/-- Whenever the command exits by itself, its exit code tells what has become of the job: 0 that all
the cells have been requested and have got results without an error, or that the job has been found
waiting for input; 1 that a cell has got an error, or that something was raised. -/
theorem exit_code_true {server : Server} {job : JobHandle}
    (h : ServerRun anyStep (Server.boot ttl maxCompleted alive kernelspec) server)
    (hqueued : .queued c.jobId nb cells ∈ server.events)
    (hjob : job = submitted c.wire c.jobId nb cells ∨
      getJob c.wire server.ledger c.jobId = some job)
    (hrun : Run c.step anyStep (begin server job) s) (hexit : s.point = .exited code) :
    s.raised = true ∧ code = 1 ∨
    code = 0 ∧ Succeeds cells (s.server.events.filter (Event.isOf c.jobId)) ∨
    code = 0 ∧ ReadBetween c (begin server job) s .awaitingInput ∨
    code = 1 ∧ Fails (s.server.events.filter (Event.isOf c.jobId)) := by
  have hfollows := follows_run h hqueued hjob hrun
  rcases hfollows.exited code hexit with hraised | ⟨hsettled, hcode⟩
  · exact .inl hraised
  obtain ⟨u, record, hu, hs, hrecord, hstatus⟩ := hfollows.read hsettled
  have hserver := h.trans (server_run hu)
  have hmem := Server.mem_events_run (server_run hu) hqueued
  have htells := Server.outcome_of_run hserver hmem hrecord
  -- What a job has done when it is recorded as completed is all that it ever does.
  have hlast (hterminal : record.status.isTerminal = true) :
      s.server.events.filter (Event.isOf c.jobId) =
        u.server.events.filter (Event.isOf c.jobId) := by
    obtain ⟨t, run, pc, ht, hid, -⟩ := (Server.histories_run hserver).queued hmem
    have hinv := Server.serverInv_run hserver
    rw [← hid] at hrecord ⊢
    exact (Server.endedWith_run (server_run hs) hinv
      (hinv.jobs.endedWith ht hrecord hterminal)).2
  rw [← hstatus] at hsettled hcode
  cases hrecordStatus : record.status with
  | succeeded =>
      rw [hrecordStatus] at hcode hlast
      rw [hlast rfl]
      exact .inr (.inl ⟨hcode, htells.succeeded hrecordStatus⟩)
  | failed =>
      rw [hrecordStatus] at hcode hlast
      rw [hlast rfl]
      exact .inr (.inr (.inr ⟨hcode, htells.failed hrecordStatus⟩))
  | interrupted => exact absurd hrecordStatus htells.interrupted
  | awaitingInput =>
      rw [hrecordStatus] at hcode
      exact .inr (.inr (.inl ⟨hcode, u, record, hu, hs, hrecord, hrecordStatus⟩))
  | queued =>
      rw [hrecordStatus] at hsettled
      cases hsettled
  | running =>
      rw [hrecordStatus] at hsettled
      cases hsettled

end

/-! ## A job that is followed from its first request on -/

/-- `exec` with `--json`. -/
private def execJson : RunCommand where
  wire := ⟨toString, toString, fun _ => ⟨"0.5".toList, by decide⟩⟩
  jobId := 0
  flags := ⟨true, false, false, false, false, false, false⟩
  hasDeadline := true

/-- A job of one cell is queued by task 0. -/
private def oneCellQueued : List Hypernote.Label :=
  [.call (.queueExecution "nb" ["cell"] ⟨"alice", .human⟩ (some "python3")), .proceed (.quiet 0),
    .proceed (.quiet 0), .resume 0 (.raised (.http 404 "")) (.quiet 0), .proceed (.quiet 0),
    .proceed (.quiet 0), .resume 0 (.session ⟨"session", "kernel", some "python3"⟩) (.quiet 0),
    .proceed (.quiet 0)]

/-- Task 1 runs the job up to the poll of its request. -/
private def oneCellRequested : List Hypernote.Label :=
  [.resume 1 .returned (.quiet 0)] ++ List.replicate 6 (.proceed (.quiet 0)) ++
    [.resume 1 .returned (.quiet 0), .resume 1 (.raised .timeout) (.quiet 0),
      .resume 1 (.text "source") (.quiet 0), .resume 1 (.text "document") (.quiet 0)]

/-- The result is read and is an error. -/
private def oneCellFails : List Hypernote.Label :=
  [.proceed { Oracle.quiet 0 with poll := .result ⟨true, some "error"⟩ },
    .resume 1 .returned (.quiet 0), .proceed (.quiet 0)]

/-- The command asks for the job while it runs and once more when it has ended. -/
private def askedTwice : List Label :=
  [.starts] ++ oneCellRequested.map .server ++ [.refreshes, .settles] ++
    oneCellFails.map .server ++ [.sleeps, .refreshes, .settles, .reports]

theorem exec_exits_one :
    ∃ s : State, s.point = .exited 1 ∧ s.raised = false ∧
      Fails (s.server.events.filter (Event.isOf 0)) := by
  obtain ⟨server, hserver, hqueued, hexec⟩ :=
    (Server.boot 10 20 (fun _ => false) fun _ => none).exists_run oneCellQueued
      (fun server => .queued 0 "nb" ["cell"] ∈ server.events ∧
        (exec execJson.step (begin server (submitted execJson.wire 0 "nb" ["cell"]))
          askedTwice).any fun s => s.point = .exited 1 ∧ s.raised = false)
      (by decide +kernel)
  obtain ⟨s, hrun, hexit, hraised⟩ := exists_run_of_exec hexec
  refine ⟨s, hexit, hraised, ?_⟩
  rcases exit_code_true hserver hqueued (.inl rfl) hrun hexit with
    ⟨hraised', -⟩ | ⟨hcode, -⟩ | ⟨hcode, -⟩ | ⟨-, hfails⟩
  · rw [hraised] at hraised'
    cases hraised'
  · cases hcode
  · cases hcode
  · exact hfails

end RunCommand

end Hypernote
