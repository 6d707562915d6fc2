import Hypernote.Client.Ix
import Hypernote.Client.JobHandle
import Hypernote.Server.Step
/-!
# Following a job from the command line

`_run_command_output`, to which `exec`, `run-all`, `restart-run-all`, `job await` and the `ix` of
one cell hand their job: the loop of `_watch_job` or of `wait`, what is printed after it, and the
exit code.  The server goes on between any two requests of the command.
-/

namespace Hypernote

/-- What `_run_command_output` gets besides the job; it exits on failure. -/
structure RunCommand where
  wire : Wire
  jobId : JobId
  flags : Ix.Flags
  /-- A timeout is given. -/
  hasDeadline : Bool

namespace RunCommand

/-- Where the command is; `watches` tells the loop of `_watch_job` from that of `wait`. -/
inductive Point
  | called
  /-- `job.refresh()`. -/
  | refreshing (watches : Bool)
  /-- The rest of the turn; `_watch_job` reads the cells in it. -/
  | refreshed (watches : Bool)
  /-- The test of the deadline, and `time.sleep`. -/
  | waiting (watches : Bool)
  /-- What is printed after the loop; with `--brief` the cells are read for it. -/
  | reporting
  | exited (code : Nat)
  deriving DecidableEq

structure State where
  server : Server
  job : JobHandle
  point : Point
  /-- An exception has ended the command. -/
  raised : Bool

inductive Label
  | server (label : Hypernote.Label)
  /-- The lines before the loop. -/
  | starts
  | refreshes
  | settles
  | sleeps
  | timesOut
  /-- A request raises, or what is made of its answer. -/
  | raises
  | reports

def begin (server : Server) (job : JobHandle) : State := ⟨server, job, .called, false⟩

/-- Whatever is raised, the exit code is 1. -/
def State.fail (s : State) : State := { s with point := .exited 1, raised := true }

variable (c : RunCommand)

/-- `_run_command_output` up to its loop. -/
def start (s : State) : State :=
  match c.flags.validateBriefRunFlags, c.flags.runOutputMode with
  | .ok (), .ok mode =>
      if mode.watches then { s with point := .refreshing true }
      else if s.job.status.isSettled then { s with point := .reporting }
      else { s with point := .refreshing false }
  | _, _ => s.fail

/-- `Job.refresh`, with the answer that the server gives now. -/
def refresh (watches : Bool) (s : State) : State :=
  match s.job.refresh c.wire s.server.ledger c.jobId with
  | some job => { s with job := job, point := .refreshed watches }
  | none => s.fail

/-- `_exit_if_job_failed`. -/
def exitCode (status : JobStatus) : Nat := if status.isFailure then 1 else 0

def step (s : State) : Label → Option State
  | .server label => (s.server.step label).map fun server => { s with server := server }
  | .starts => if s.point = .called then some (c.start s) else none
  | .refreshes =>
      match s.point with
      | .refreshing watches => some (c.refresh watches s)
      | _ => none
  | .settles =>
      match s.point with
      | .refreshed watches =>
          some { s with
            point := if s.job.status.isSettled then .reporting else .waiting watches }
      | _ => none
  | .sleeps =>
      match s.point with
      | .waiting watches => some { s with point := .refreshing watches }
      | _ => none
  | .timesOut =>
      match s.point with
      | .waiting _ => if c.hasDeadline then some s.fail else none
      | _ => none
  | .raises =>
      match s.point with
      | .refreshing _ | .refreshed true | .reporting => some s.fail
      | _ => none
  | .reports =>
      match s.point with
      | .reporting => some { s with point := .exited (exitCode s.job.status) }
      | _ => none

end RunCommand

end Hypernote
