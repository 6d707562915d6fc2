import Hypernote.Proofs.Registry
import Hypernote.Server.Clients
/-!
# What the stop button reaches

Both interrupt paths send the snippet when a subshell id is cached on the kernel's
client, and interrupt the kernel itself otherwise.  The id stays cached after the
job it was created for, so the snippet is also sent when the job has long ended and
a cell is running on the main shell.
-/

namespace Hypernote

open Foundation

/-- The cell and the uid of the request that a job is polling. -/
def Pc.request : Pc → Option (CellId × RequestUid)
  | .polling _ (c :: _) uid | .sleeping _ (c :: _) uid => some (c, uid)
  | _ => none

namespace Server

variable {s s' : Server} {l : Label} {t : TaskId} {op : Op} {pc : Pc} {r : RoomId}
  {k : KernelId} {o : Oracle}

/-- Some job has put a request on the kernel and is polling it. -/
def executing (s : Server) (k : KernelId) : Bool :=
  (List.range s.nextTask).any fun t =>
    match s.tasks t with
    | some ⟨.runJob run, pc⟩ =>
        pc.request.any fun (c, uid) => .put run.jobId c k uid ∈ s.events
    | _ => false

/-- The subshell last created for the client of the kernel and not reset since. -/
def subshellOf (s : Server) (k : KernelId) : Option String :=
  (s.pool.kernelClients k).bind fun client => lastSubshell client s.events

/-- The step in which an interrupt of the kernel decides its way: that of the intercepted
route, or that of the orchestrator for the room of the kernel. -/
def Interrupts (s : Server) (l : Label) (o : Oracle) (k : KernelId) : Prop :=
  l = .proceed o ∧
    (s.moving l = some ⟨.kernelInterrupt k, .start⟩ ∨
      ∃ nb nb' actor r, s.moving l = some ⟨.interrupt nb' actor, .ensured nb r⟩ ∧
        r ∈ s.mgr.rooms ∧ (s.room r).kernelId = some k)

theorem kernelInterrupt_events (s : Server) (o : Oracle) (k : KernelId) :
    (s.kernelInterrupt o k).state.events = s.events ++ [.interruptKernel k] ↔
      (s.pool.interruptViaSubshell o.client o.sent (some k)).2 = none := by
  unfold kernelInterrupt
  dsimp only
  split
  · rename_i hvia
    simp [hvia, finish, park, record]
  · rename_i hvia
    simp [hvia, park, record]

theorem interruptRoom_events {nb : NotebookId} {actor : Actor} (hr : r ∈ s.mgr.rooms)
    (hk : (s.room r).kernelId = some k) (hlive : (s.room r).isLive = true) :
    (s.interruptRoom o nb r actor).state.events = s.events ++ [.interruptKernel k] ↔
      (s.pool.interruptViaSubshell o.client o.sent (some k)).2 = none := by
  unfold interruptRoom
  simp only [hk, hr, hlive, not_true_eq_false, if_false]
  split
  · rename_i hvia
    simp [hvia, recordInterrupt, finish, park, record]
  · rename_i hvia
    simp [hvia, park, record]

/-- An interrupt of a kernel that no job is executing on goes through the kernel manager if
and only if the client or its channel fails or no subshell is left over from an earlier job:
in every reachable state, and for both interrupt paths. -/
theorem interrupt_native_iff {ttl : Time} {maxCompleted : Int} {alive : KernelId → Bool}
    {kernelspec : NotebookId → Option String}
    (h : ServerRun anyStep (boot ttl maxCompleted alive kernelspec) s)
    (hat : s.Interrupts l o k) (hstep : s.step l = some s') :
    (s.executing k = false → s'.events = s.events ++ [.interruptKernel k]) ↔
      s.executing k = true ∨ o.client = false ∨ o.sent = false ∨ s.subshellOf k = none := by
  have hcached : (s.pool.interruptViaSubshell o.client o.sent (some k)).2 = none ↔
      o.client = false ∨ o.sent = false ∨ s.subshellOf k = none := by
    have hs := clientsInv_run h clientsInv_boot
    simp only [ClientPool.interruptViaSubshell_none, subshellOf, hs.tracked]
  have hevents : s'.events = s.events ++ [.interruptKernel k] ↔
      (s.pool.interruptViaSubshell o.client o.sent (some k)).2 = none := by
    obtain ⟨rfl, hmoving | ⟨nb, nb', actor, r, hmoving, hr, hk⟩⟩ := hat
    · obtain ⟨t, n, ht, hadvance, rfl, -⟩ := step_proceed hmoving hstep
      cases hadvance
      exact s.kernelInterrupt_events o k
    · obtain ⟨t, n, ht, hadvance, rfl, -⟩ := step_proceed hmoving hstep
      cases hadvance
      have hlive := (returnsLive_run h).returned ht
      rw [liveRoom, Bool.and_eq_true] at hlive
      exact interruptRoom_events hr hk hlive.1
  rw [hevents, hcached]
  cases s.executing k <;> simp

section Schedules

/-- A job of one cell is queued on a notebook without a runtime and run to its end; its
kernel accepts the request for a subshell. -/
private def oneJob : List Label :=
  [.call (.queueExecution "nb" ["cell"] ⟨"alice", .human⟩ none), .proceed (.quiet 0),
    .resume 0 .returned (.quiet 0), .proceed (.quiet 0),
    .resume 0 (.raised (.http 404 "")) (.quiet 0), .proceed (.quiet 0), .proceed (.quiet 0),
    .resume 0 (.session ⟨"session", "kernel", some "python3"⟩) (.quiet 0), .proceed (.quiet 0),
    .resume 1 .returned (.quiet 0), .proceed (.quiet 0), .proceed (.quiet 0),
    .proceed (.quiet 0), .proceed (.quiet 0), .proceed (.quiet 0), .proceed (.quiet 0),
    .resume 1 .returned (.quiet 0),
    .resume 1 (.reply ⟨.object (some 0), .object ⟨some "ok", some (some "subshell")⟩⟩ true)
      (.quiet 0),
    .resume 1 (.text "1 + 1") (.quiet 0), .resume 1 (.text "document") (.quiet 0),
    .proceed { Oracle.quiet 0 with poll := .result ⟨false, some "ok"⟩ },
    .resume 1 .returned (.quiet 0), .proceed (.quiet 0), .proceed (.quiet 0)]

theorem unused_kernel_interrupted :
    ∃ s s' : Server, s.executing "kernel" = false ∧ s.step (.proceed (.quiet 0)) = some s' ∧
      s'.events = s.events ++ [.interruptKernel "kernel"] := by
  obtain ⟨s, hrun, hmoving, hidle, hsubshell, hstep⟩ :=
    (boot 10 20 (fun _ => true) fun _ => none).exists_run [.call (.kernelInterrupt "kernel")]
      (fun s => s.moving (.proceed (.quiet 0)) = some ⟨.kernelInterrupt "kernel", .start⟩ ∧
        s.executing "kernel" = false ∧ s.subshellOf "kernel" = none ∧
        (s.step (.proceed (.quiet 0))).isSome = true)
      (by decide)
  obtain ⟨s', hstep⟩ := Option.isSome_iff_exists.mp hstep
  have hnative := interrupt_native_iff hrun ⟨rfl, .inl hmoving⟩ hstep
  exact ⟨s, s', hidle, hstep, hnative.mpr (.inr (.inr (.inr hsubshell))) hidle⟩

/-- A job has run to its end and nothing is executing for the extension; the stop button
sends the snippet to the idle subshell, and a cell on the main shell goes on. -/
theorem stop_after_job_misses_kernel :
    ∃ (s s' : Server) (k : KernelId) (o : Oracle), ServerRun anyStep (boot 10 20 (fun _ => true) fun _ => none) s ∧
      s.Interrupts (.proceed o) o k ∧ s.executing k = false ∧
      s.step (.proceed o) = some s' ∧ s'.events ≠ s.events ++ [.interruptKernel k] := by
  obtain ⟨s, hrun, hmoving, hidle, hexec⟩ :=
    (boot 10 20 (fun _ => true) fun _ => none).exists_run
      (oneJob ++ [.call (.kernelInterrupt "kernel")])
      (fun s => s.moving (.proceed (.quiet 0)) = some ⟨.kernelInterrupt "kernel", .start⟩ ∧
        s.executing "kernel" = false ∧
        (s.step (.proceed (.quiet 0))).any fun s' =>
          s'.events ≠ s.events ++ [.interruptKernel "kernel"])
      (by decide)
  cases hstep : s.step (.proceed (.quiet 0)) with
  | none => simp [hstep] at hexec
  | some s' =>
      rw [hstep] at hexec
      exact ⟨s, s', "kernel", .quiet 0, hrun, ⟨rfl, .inl hmoving⟩, hidle, hstep,
        of_decide_eq_true hexec⟩

end Schedules

end Server

end Hypernote
