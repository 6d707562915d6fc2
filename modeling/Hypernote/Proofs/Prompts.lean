import Hypernote.Server.Jobs
/-!
# Input prompts

The extension together with the execution stack and the kernels behind it, as far as
they matter for input: a cell that runs either computes or waits at a prompt, and the
stack reports a prompt from the moment the kernel asks until some time after the reply
was sent or the cell was interrupted.  Stale and fresh prompts are told apart by their signature alone, and
`send_stdin` writes the status and the signature after an await.  A prompt is lost when
it looks like the one answered last, and when an answer to the one before it returns late.
-/

namespace Hypernote

open Foundation MemoryLedger

/-- What the cell that a job is executing does. -/
inductive CellPhase
  | computing
  /-- It waits for input.  `answeredBy` is the call of `send_stdin` that has handed a value
  to the stack since the kernel asked, and `read` says that a poll has read the prompt. -/
  | prompting (request : Json) (answeredBy : Option TaskId) (read : Bool)

/-- A prompt that a poll has read and no `send_stdin` has answered. -/
def CellPhase.openPrompt : CellPhase → Option Json
  | .prompting request none true => some request
  | _ => none

structure World where
  server : Server
  phase : JobId → CellPhase

inductive WorldLabel
  | server (l : Label)
  /-- The cell asks for input. -/
  | asks (jobId : JobId) (request : Json)
  /-- The stack no longer reports the prompt: the reply was taken, or the cell interrupted. -/
  | promptEnds (jobId : JobId)

/-- The points of `_poll_request`. -/
def Pc.isPolling : Pc → Bool
  | .polling .. | .sleeping .. => true
  | _ => false

namespace Server

variable {s : Server} {t : TaskId} {op : Op} {l : Label} {pc pc' : Pc} {n : Next} {r : RoomId}
  {cells : List CellId} {uid : RequestUid} {j : JobId}

/-- What the step reads about the request of the job, if it is a poll of it. -/
def pollAnswer (s : Server) (l : Label) (j : JobId) : Option PollAnswer :=
  match s.moving l, l with
  | some ⟨.runJob run, .polling ..⟩, .proceed o => if run.jobId = j then some o.poll else none
  | _, _ => none

theorem pollAnswer_eq {answer : PollAnswer} (h : s.pollAnswer l j = some answer) :
    ∃ run r cells uid o, s.moving l = some ⟨.runJob run, .polling r cells uid⟩ ∧ l = .proceed o ∧
      run.jobId = j ∧ o.poll = answer := by
  unfold pollAnswer at h
  split at h
  · obtain ⟨hj, hanswer⟩ := Option.ite_none_right_eq_some.mp h
    exact ⟨_, _, _, _, _, ‹_›, rfl, hj, Option.some.inj hanswer⟩
  · cases h

theorem TaskStep.of_polling (h : TaskStep s t op l (.polling r cells uid) n) :
    ∃ o, l = .proceed o := by
  obtain ⟨job, rfl, hjob⟩ := h.jobStep rfl
  cases hjob with
  | stepRaised hpc => simp at hpc
  | _ => exact ⟨_, rfl⟩

theorem TaskStep.of_sleeping (h : TaskStep s t op l (.sleeping r cells uid) n) :
    n.pc = .polling r cells uid ∨ ∃ error o, l = .resume t (.raised error) o := by
  obtain ⟨job, rfl, hjob⟩ := h.jobStep rfl
  cases hjob with
  | slept => exact .inl rfl
  | stepRaised => exact .inr ⟨_, _, rfl⟩

theorem Writes.of_polling {status : JobStatus} (h : Writes pc pc' status)
    (hpc : pc.isPolling = true) : ∃ r cells uid, pc = .polling r cells uid := by
  cases h with
  | awaiting => exact ⟨_, _, _, rfl⟩
  | _ => cases hpc

end Server

namespace World

open Server

variable (w : World) (l : Label)

/-- The stack reports the prompt of a cell that waits for input, and no other. -/
def reports : Bool :=
  match w.server.moving l, l with
  | some ⟨.runJob run, .polling ..⟩, .proceed o =>
      match w.phase run.jobId, o.poll with
      | .computing, .inputRequest _ => false
      | .prompting request _ _, .inputRequest request' =>
          inputRequestSignature request' = inputRequestSignature request
      | .prompting .., .pending | .prompting .., .result _ => false
      | _, _ => true
  | _, _ => true

/-- What a step of the extension does to the phase of a job's cell: a poll reads the prompt
or, when `stack.get` raises, gives the request up; a `send_stdin` answers it, unless
`send_input` raises in the end. -/
def advanced (jobId : JobId) : CellPhase :=
  match w.server.moving l, l, w.phase jobId with
  | some ⟨.runJob run, .polling ..⟩, .proceed o, .prompting request answeredBy read =>
      if run.jobId = jobId then
        match o.poll with
        | .inputRequest _ => .prompting request answeredBy true
        | .raised _ => .computing
        | _ => .prompting request answeredBy read
      else .prompting request answeredBy read
  | some ⟨.sendStdin jobId' _ _, .ensured _ roomId⟩, _, .prompting request none read =>
      if jobId' = jobId ∧ (w.server.room roomId).kernelId ≠ none then
        .prompting request (w.server.mover l) read
      else .prompting request none read
  | some ⟨.sendStdin jobId' _ _, .sendingInput ..⟩, .resume t (.raised _) _,
      .prompting request answeredBy read =>
      if jobId' = jobId ∧ answeredBy = some t then .prompting request none false
      else .prompting request answeredBy read
  | _, _, phase => phase

def step (w : World) : WorldLabel → Option World
  | .server l => do
      let s ← w.server.step l
      if w.reports l then some ⟨s, w.advanced l⟩ else none
  | .asks jobId request =>
      match w.phase jobId with
      | .computing => some { w with phase := Function.update w.phase jobId (.prompting request none false) }
      | .prompting .. => none
  | .promptEnds jobId =>
      match w.phase jobId with
      | .computing => none
      | .prompting .. => some { w with phase := Function.update w.phase jobId .computing }

/-- No cell has asked for input yet. -/
def start (s : Server) : World := ⟨s, fun _ => .computing⟩

/-- Nothing interrupts the sleep of the poll loop. -/
def pollsOn (w : World) : WorldLabel → Bool
  | .server l =>
      match w.server.moving l, l with
      | some ⟨.runJob _, .sleeping ..⟩, .resume _ (.raised _) _ => false
      | _, _ => true
  | _ => true

/-- A poll that reads an unanswered prompt finds the status as it has to be, or a signature
that is not the one answered last and its room registered; and no `send_stdin` returns from
`send_input` while a poll has read a prompt that nobody has answered. -/
def keepsPrompts (w : World) : WorldLabel → Bool
  | .server l =>
      match w.server.moving l, l with
      | some ⟨.runJob run, .polling roomId _ _⟩, .proceed o =>
          match w.phase run.jobId, o.poll with
          | .prompting _ none _, .inputRequest request =>
              (w.server.ledger.getJob run.jobId).all fun job =>
                if w.server.resumedInputSignatures run.jobId =
                    some (inputRequestSignature request) then
                  job.status = .awaitingInput
                else roomId ∈ w.server.mgr.rooms
          | _, _ => true
      | some ⟨.sendStdin jobId _ _, .sendingInput ..⟩, .resume _ .returned _ =>
          (w.server.ledger.getJob jobId).isNone || (w.phase jobId).openPrompt.isNone
      | _, _ => true
  | _ => true

variable {w w' : World} {l : Label} {j : JobId} {request : Json} {job : Job} {s' : Server}

theorem step_server (h : w.step (.server l) = some w') :
    ∃ s', w.server.step l = some s' ∧ w.reports l = true ∧ w' = ⟨s', w.advanced l⟩ := by
  simp only [World.step, Option.bind_eq_bind, Option.bind_eq_some_iff,
    Option.ite_none_right_eq_some, Option.some.injEq] at h
  obtain ⟨s', hstep, hreports, rfl⟩ := h
  exact ⟨s', hstep, hreports, rfl⟩

/-- What a step of the extension does to the phase of a job's cell. -/
inductive PhaseStep (w : World) (l : Label) (j : JobId) : CellPhase → Prop
  | kept (hpoll : w.server.pollAnswer l j = none ∨ w.phase j = .computing ∧
      ∀ request, w.server.pollAnswer l j ≠ some (.inputRequest request)) :
      PhaseStep w l j (w.phase j)
  | read {request request' answeredBy read}
      (hpoll : w.server.pollAnswer l j = some (.inputRequest request'))
      (hsignature : inputRequestSignature request' = inputRequestSignature request)
      (hphase : w.phase j = .prompting request answeredBy read) :
      PhaseStep w l j (.prompting request answeredBy true)
  | givenUp {error} (hpoll : w.server.pollAnswer l j = some (.raised error)) :
      PhaseStep w l j .computing
  | answered {value actor nb r request read t} (hpoll : w.server.pollAnswer l j = none)
      (hmoving : w.server.moving l = some ⟨.sendStdin j value actor, .ensured nb r⟩)
      (hmover : w.server.mover l = some t) (hphase : w.phase j = .prompting request none read) :
      PhaseStep w l j (.prompting request (some t) read)
  | unanswered {value actor nb r t error o request answeredBy read}
      (hpoll : w.server.pollAnswer l j = none)
      (hmoving : w.server.moving l = some ⟨.sendStdin j value actor, .sendingInput nb r⟩)
      (hl : l = .resume t (.raised error) o)
      (hphase : w.phase j = .prompting request answeredBy read) :
      PhaseStep w l j (.prompting request none false)

theorem phase_step (hreports : w.reports l = true) : PhaseStep w l j (w.advanced l j) := by
  have hother : ∀ {op pc}, w.server.moving l = some ⟨op, pc⟩ →
      (∀ run, op = .runJob run → run.jobId ≠ j) → w.server.pollAnswer l j = none := by
    intro op pc hmoving hne
    cases hanswer : w.server.pollAnswer l j with
    | none => rfl
    | some answer =>
        obtain ⟨run, r, cells, uid, o, hpolling, rfl, hj, -⟩ := pollAnswer_eq hanswer
        cases hmoving.symm.trans hpolling
        exact absurd hj (hne run rfl)
  have hkept : (∀ run r cells uid o request answeredBy read,
      w.server.moving l = some ⟨.runJob run, .polling r cells uid⟩ → l = .proceed o →
        w.phase j ≠ .prompting request answeredBy read) → PhaseStep w l j (w.phase j) := by
    intro hpolls
    refine .kept ?_
    cases hanswer : w.server.pollAnswer l j with
    | none => exact .inl rfl
    | some answer =>
        obtain ⟨run, r, cells, uid, o, hmoving, rfl, rfl, rfl⟩ := pollAnswer_eq hanswer
        cases hphase : w.phase run.jobId with
        | prompting request answeredBy read =>
            exact absurd hphase (hpolls _ _ _ _ _ _ _ _ hmoving rfl)
        | computing =>
            refine .inr ⟨rfl, fun request hrequest => ?_⟩
            simp [reports, hmoving, hphase, Option.some.inj hrequest] at hreports
  unfold advanced
  split
  · rename_i run r cells uid o request answeredBy read hphase hmoving
    by_cases hj : run.jobId = j
    · subst hj
      have hanswer : w.server.pollAnswer (.proceed o) run.jobId = some o.poll := by
        simp [pollAnswer, hmoving]
      rw [if_pos rfl]
      cases hpoll : o.poll with
      | inputRequest request' =>
          refine .read (hanswer.trans (congrArg some hpoll)) ?_ hphase
          simpa [reports, hmoving, hphase, hpoll] using hreports
      | raised error => exact .givenUp (hanswer.trans (congrArg some hpoll))
      | pending => simp [reports, hmoving, hphase, hpoll] at hreports
      | result result => simp [reports, hmoving, hphase, hpoll] at hreports
    · rw [if_neg hj, ← hphase]
      refine .kept (.inl (hother hmoving ?_))
      rintro run' ⟨⟩
      exact hj
  · rename_i l jobId value actor nb r request read hphase hmoving
    have hpoll := hother hmoving fun _ hop => by cases hop
    split
    · rename_i hsends
      obtain ⟨rfl, -⟩ := hsends
      obtain ⟨t, hmover, -⟩ := Option.bind_eq_some_iff.mp hmoving
      rw [hmover]
      exact .answered hpoll hmoving hmover hphase
    · rw [← hphase]
      exact .kept (.inl hpoll)
  · rename_i jobId value actor nb r t error o request answeredBy read hphase hmoving
    have hpoll := hother hmoving fun _ hop => by cases hop
    split
    · rename_i hraised
      obtain ⟨rfl, -⟩ := hraised
      exact .unanswered hpoll hmoving rfl hphase
    · rw [← hphase]
      exact .kept (.inl hpoll)
  · rename_i hpolls _
    exact hkept fun _ _ _ _ _ _ _ _ => hpolls _ _ _ _ _ _ _ _

/-- A prompt is open after a step that read it, or was open before. -/
theorem openPrompt_advanced (hreports : w.reports l = true)
    (hopen : (w.advanced l j).openPrompt = some request) :
    (∃ request' read, w.server.pollAnswer l j = some (.inputRequest request') ∧
        w.phase j = .prompting request none read) ∨
      (w.phase j).openPrompt = some request ∧ w.server.pollAnswer l j = none := by
  have hphase := phase_step hreports (j := j)
  generalize w.advanced l j = phase at hopen hphase
  cases hphase with
  | kept hpoll =>
      rcases hpoll with hpoll | ⟨hphase, -⟩
      · exact .inr ⟨hopen, hpoll⟩
      · rw [hphase] at hopen
        cases hopen
  | @read _ _ answeredBy _ hpoll _ hphase =>
      cases answeredBy with
      | none =>
          cases hopen
          exact .inl ⟨_, _, hpoll, hphase⟩
      | some t => cases hopen
  | givenUp => cases hopen
  | answered => cases hopen
  | unanswered => cases hopen

/-- The task that runs the job is polling its request. -/
def Polled (s : Server) (j : JobId) : Prop :=
  ∃ t run pc, s.tasks t = some ⟨.runJob run, pc⟩ ∧ run.jobId = j ∧ pc.isPolling = true

/-- The job of an open prompt awaits input. -/
structure PromptInv (w : World) : Prop where
  wellFormed : WellFormed w.server
  jobs : JobsInv w.server
  handedOut : ∀ ⦃j request⦄, (w.phase j).openPrompt = some request →
    j < w.server.ledger.nextJobId
  awaited : ∀ ⦃j request job⦄, (w.phase j).openPrompt = some request →
    w.server.ledger.getJob j = some job → job.status = .awaitingInput ∧ Polled w.server j

namespace PromptInv

/-- The poll that reads a prompt. -/
theorem poll_step {run : JobRun} {r : RoomId} {cells : List CellId} {uid : RequestUid}
    {o : Oracle} {request' : Json} {read : Bool} (h : StepCase w.server (.proceed o) s')
    (hguard : w.keepsPrompts (.server (.proceed o)) = true)
    (hmoving : w.server.moving (.proceed o) = some ⟨.runJob run, .polling r cells uid⟩)
    (hpoll : o.poll = .inputRequest request')
    (hphase : w.phase run.jobId = .prompting request none read)
    (hjob : s'.ledger.getJob run.jobId = some job) :
    job.status = .awaitingInput ∧ Polled s' run.jobId := by
  have hfound : ∀ job, w.server.ledger.getJob run.jobId = some job →
      if w.server.resumedInputSignatures run.jobId = some (inputRequestSignature request') then
        job.status = .awaitingInput
      else r ∈ w.server.mgr.rooms := by
    intro job hold
    simp only [keepsPrompts, hmoving, hphase, hpoll, hold, Option.all_some] at hguard
    split at hguard <;> rename_i heq <;> simp only [heq, if_true, if_false] <;>
      exact of_decide_eq_true hguard
  obtain ⟨t, n, ht, hmove, rfl, -⟩ := h.of_moving hmoving
  have hpolled : n.pc.isPolling = true → Polled (n.commit t (.runJob run)) run.jobId :=
    fun hpc => ⟨t, run, n.pc, by rw [commit_tasks, if_pos rfl], rfl, hpc⟩
  change n.state.ledger.getJob run.jobId = some job at hjob
  cases hmove with
  | call h => cases h
  | ensure h => cases h
  | stop h => cases h
  | job h =>
      cases h with
      | echoed hread hresumed =>
          cases hread.symm.trans hpoll
          have hstatus := hfound job hjob
          rw [if_pos hresumed] at hstatus
          exact ⟨hstatus, hpolled rfl⟩
      | awaiting => exact ⟨status_updateJobStatus hjob, hpolled rfl⟩
      | awaitingUnregistered hread hresumed hr =>
          cases hread.symm.trans hpoll
          have hupdated := w.server.ledger.getJob_updateJobStatus_self run.jobId .awaitingInput none
            o.now
          rw [hjob] at hupdated
          obtain ⟨old, hold, -⟩ := Option.map_eq_some_iff.mp hupdated.of_some
          have hroom := hfound old hold
          rw [if_neg hresumed] at hroom
          exact absurd hroom hr
      | pending hread => cases hread.symm.trans hpoll
      | polled hread => cases hread.symm.trans hpoll
      | pollRaised hread => cases hread.symm.trans hpoll

/-- A step that is not a poll of the job leaves its open prompt awaited. -/
theorem keep_step (hs : PromptInv w) (h : StepCase w.server l s')
    (hpolls : w.pollsOn (.server l) = true) (hguard : w.keepsPrompts (.server l) = true)
    (hopen : (w.phase j).openPrompt = some request) (hother : w.server.pollAnswer l j = none)
    (hjob : s'.ledger.getJob j = some job) : job.status = .awaitingInput ∧ Polled s' j := by
  -- the job was recorded before, with the status it has now
  have hold : ∃ old, w.server.ledger.getJob j = some old ∧ (old.status = .awaitingInput →
      Polled w.server j → job.status = .awaitingInput) := by
    rcases hs.jobs.job_change h j with hsame | ⟨t, op, pc, n, ht, hmove, -, hmover, hchange⟩
    · exact ⟨job, hsame ▸ hjob, fun hstatus _ => hstatus⟩
    · rw [hjob] at hchange
      have hmoving := moving_eq hmover ht
      cases hchange with
      | forgets h => exact ⟨job, h.of_some, fun hstatus _ => hstatus⟩
      | created hj => exact absurd hj (hs.handedOut hopen).ne
      | @written run old _ status _ _ hop hj hwrites hold h =>
          subst hop hj
          refine ⟨old, hold, ?_⟩
          rintro - ⟨t', run', pc', ht', hj', hpolling⟩
          cases hs.jobs.once ht ht' hj'.symm
          cases ht.symm.trans ht'
          obtain ⟨r, cells, uid, rfl⟩ := hwrites.of_polling hpolling
          obtain ⟨o, rfl⟩ := hmove.of_polling
          simp [pollAnswer, hmoving] at hother
      | answered hop hpc hl hold =>
          subst hop hpc hl
          simp [keepsPrompts, hmoving, hold, hopen] at hguard
      | @put run old r c cells source uid hop hj hpc hpc' hold =>
          subst hop hj hpc
          refine ⟨old, hold, ?_⟩
          rintro - ⟨t', run', pc', ht', hj', hpolling⟩
          cases hs.jobs.once ht ht' hj'.symm
          cases ht.symm.trans ht'
          cases hpolling
  obtain ⟨old, hold, hstatus⟩ := hold
  obtain ⟨hawaiting, hpolled⟩ := hs.awaited hopen hold
  refine ⟨hstatus hawaiting hpolled, ?_⟩
  obtain ⟨t, run, pc, ht, rfl, hpc⟩ := hpolled
  rcases hs.wellFormed.task_next h ht with ⟨ht', -⟩ | ⟨n, hmove, rfl, hmover⟩
  · exact ⟨t, run, pc, ht', rfl, hpc⟩
  · have hmoving := moving_eq hmover ht
    cases pc with
    | polling r cells uid =>
        obtain ⟨o, rfl⟩ := hmove.of_polling
        simp [pollAnswer, hmoving] at hother
    | sleeping r cells uid =>
        rcases hmove.of_sleeping with hpc' | ⟨error, o, rfl⟩
        · exact ⟨t, run, _, by rw [commit_tasks, if_pos rfl], rfl, by rw [hpc']; rfl⟩
        · simp [pollsOn, hmoving] at hpolls
    | _ => cases hpc

theorem server_step (hs : PromptInv w) (hreports : w.reports l = true)
    (hpolls : w.pollsOn (.server l) = true) (hguard : w.keepsPrompts (.server l) = true)
    (hstep : w.server.step l = some s') : PromptInv ⟨s', w.advanced l⟩ where
  wellFormed := hs.wellFormed.step hstep
  jobs := hs.jobs.step hstep
  handedOut := by
    intro j request hopen
    refine Nat.lt_of_lt_of_le ?_ (nextJobId_le (step_cases hstep))
    rcases openPrompt_advanced hreports hopen with ⟨request', read, hpoll, -⟩ | ⟨hopen, -⟩
    · obtain ⟨run, r, cells, uid, o, hmoving, -, rfl, -⟩ := pollAnswer_eq hpoll
      obtain ⟨t, -, ht⟩ := Option.bind_eq_some_iff.mp hmoving
      exact hs.jobs.handedOut ht
    · exact hs.handedOut hopen
  awaited := by
    intro j request job hopen hjob
    have h := step_cases hstep
    rcases openPrompt_advanced hreports hopen with ⟨request', read, hpoll, hphase⟩ | ⟨hopen, hother⟩
    · obtain ⟨run, r, cells, uid, o, hmoving, rfl, rfl, hread⟩ := pollAnswer_eq hpoll
      exact poll_step h hguard hmoving hread hphase hjob
    · exact hs.keep_step h hpolls hguard hopen hother hjob

/-- The kernel's own steps open no prompt. -/
theorem phase_step (hs : PromptInv w) {phase : CellPhase} (hphase : phase.openPrompt = none) :
    PromptInv { w with phase := Function.update w.phase j phase } := by
  have hopen : ∀ {i request}, (Function.update w.phase j phase i).openPrompt = some request →
      (w.phase i).openPrompt = some request := by
    intro i request hopen
    rw [Function.update_apply] at hopen
    split at hopen
    · rw [hphase] at hopen
      cases hopen
    · exact hopen
  exact
    { wellFormed := hs.wellFormed
      jobs := hs.jobs
      handedOut := fun _ _ h => hs.handedOut (hopen h)
      awaited := fun _ _ _ h => hs.awaited (hopen h) }

theorem step {label : WorldLabel} (hs : PromptInv w) (hpolls : w.pollsOn label = true)
    (hguard : w.keepsPrompts label = true) (hstep : w.step label = some w') : PromptInv w' := by
  cases label with
  | server l =>
      obtain ⟨s', hserver, hreports, rfl⟩ := World.step_server hstep
      exact hs.server_step hreports hpolls hguard hserver
  | asks jobId request =>
      simp only [World.step] at hstep
      split at hstep
      · cases hstep
        exact hs.phase_step rfl
      · cases hstep
  | promptEnds jobId =>
      simp only [World.step] at hstep
      split at hstep
      · cases hstep
      · cases hstep
        exact hs.phase_step rfl

end PromptInv

/-- A prompt that a poll has read is awaited until an answer to it is accepted or the request
is over, in every run in which no prompt looks like the one answered last and no answer
returns late. -/
theorem open_prompt_awaited {ttl : Time} {maxCompleted : Int} {alive : KernelId → Bool}
    {kernelspec : NotebookId → Option String}
    (h : Run step (fun w label => w.pollsOn label = true ∧ w.keepsPrompts label = true)
      (start (boot ttl maxCompleted alive kernelspec)) w)
    (hopen : (w.phase j).openPrompt = some request)
    (hjob : w.server.ledger.getJob j = some job) : job.status = .awaitingInput := by
  have hs : PromptInv w := by
    refine h.invariant ?_ fun _ _ _ hs hguard hstep => hs.step hguard.1 hguard.2 hstep
    exact
      { wellFormed := wellFormed_boot
        jobs := jobsInv_boot
        handedOut := fun _ _ h => by cases h
        awaited := fun _ _ _ h => by cases h }
  exact (hs.awaited hopen hjob).1

/-- Executing a schedule of the extension and the stack to a state that satisfies `P`, all
of whose steps satisfy a guard, reaches one by guarded steps. -/
theorem exists_guarded_run (w : World) (G : World → WorldLabel → Bool) (schedule : List WorldLabel)
    (P : World → Prop) [DecidablePred P]
    (hG : guardedBy step (fun w label => G w label) w schedule = true)
    (h : (exec step w schedule).any P = true) :
    ∃ w', Run step (fun w label => G w label) w w' ∧ P w' :=
  exists_guarded_run_of_exec hG h

section Schedules

/-- A job of one cell is queued on a notebook without a runtime and run up to the poll of
its request. -/
def polledCell : List WorldLabel :=
  List.map .server
    [.call (.queueExecution "nb" ["cell"] ⟨"alice", .human⟩ none), .proceed (.quiet 0),
      .resume 0 .returned (.quiet 0), .proceed (.quiet 0),
      .resume 0 (.raised (.http 404 "")) (.quiet 0), .proceed (.quiet 0), .proceed (.quiet 0),
      .resume 0 (.session ⟨"session", "kernel", some "python3"⟩) (.quiet 0), .proceed (.quiet 0),
      .resume 1 .returned (.quiet 0), .proceed (.quiet 0), .proceed (.quiet 0),
      .proceed (.quiet 0), .proceed (.quiet 0), .proceed (.quiet 0), .proceed (.quiet 0),
      .resume 1 .returned (.quiet 0), .resume 1 (.raised .timeout) (.quiet 0),
      .resume 1 (.text "input(); input()") (.quiet 0), .resume 1 (.text "document") (.quiet 0)]

def prompt (text : String) : Json := .obj [("prompt", .str text)]

/-- The cell asks, and the poll loop reads the prompt and goes to sleep. -/
def promptRead (text : String) : List WorldLabel :=
  [.asks 0 (prompt text),
    .server (.proceed { Oracle.quiet 0 with poll := .inputRequest (prompt text) })]

/-- Task 2 hands a value to the stack. -/
def valueSent : List WorldLabel :=
  List.map .server
    [.call (.sendStdin 0 "value" ⟨"alice", .human⟩), .proceed (.quiet 0), .proceed (.quiet 0),
      .proceed (.quiet 0), .proceed (.quiet 0)]

/-- `send_input` returns to task 2. -/
def inputSent : WorldLabel := .server (.resume 2 .returned (.quiet 0))

/-- The poll loop wakes up after the stack has stopped to report the answered prompt. -/
private def promptGone : List WorldLabel := [.promptEnds 0, .server (.resume 1 .returned (.quiet 0))]

theorem second_prompt_awaited :
    ∃ (w : World) (job : Job), (w.phase 0).openPrompt.isSome = true ∧
      w.server.ledger.getJob 0 = some job ∧ job.status = .awaitingInput := by
  obtain ⟨w, hrun, hopen, hjob⟩ :=
    (start (boot 10 20 (fun _ => false) fun _ => none)).exists_guarded_run
      (fun w label => w.pollsOn label && w.keepsPrompts label)
      (polledCell ++ promptRead "name> " ++ valueSent ++ [inputSent] ++ promptGone ++
        promptRead "age> ")
      (fun w => (w.phase 0).openPrompt.isSome = true ∧
        (w.server.ledger.getJob 0).isSome = true)
      (by decide) (by decide)
  obtain ⟨request, hopen'⟩ := Option.isSome_iff_exists.mp hopen
  obtain ⟨job, hjob⟩ := Option.isSome_iff_exists.mp hjob
  exact ⟨w, job, hopen, hjob,
    open_prompt_awaited (hrun.mono fun _ _ h => by simpa using h) hopen' hjob⟩

/-- The cell asks twice with the same prompt: the second is taken for the echo of the first,
and its job stays running. -/
theorem repeated_prompt_lost :
    ∃ (w : World) (job : Job),
      Run step (fun w label => w.pollsOn label = true)
        (start (boot 10 20 (fun _ => false) fun _ => none)) w ∧
      (w.phase 0).openPrompt.isSome = true ∧ w.server.ledger.getJob 0 = some job ∧
      job.status = .running := by
  obtain ⟨w, hrun, hopen, hstatus⟩ :=
    (start (boot 10 20 (fun _ => false) fun _ => none)).exists_guarded_run pollsOn
      (polledCell ++ promptRead "> " ++ valueSent ++ [inputSent] ++ promptGone ++ promptRead "> ")
      (fun w => (w.phase 0).openPrompt.isSome = true ∧
        (w.server.ledger.getJob 0).map Job.status = some .running)
      (by decide) (by decide)
  obtain ⟨job, hjob, hrunning⟩ := Option.map_eq_some_iff.mp hstatus
  exact ⟨w, job, hrun, hopen, hjob, hrunning⟩

/-- The cell asks again while `send_input` has not returned: its return marks the new prompt
as answered and the job as running. -/
theorem late_answer_hides_prompt :
    ∃ (w : World) (job : Job),
      Run step (fun w label => w.pollsOn label = true)
        (start (boot 10 20 (fun _ => false) fun _ => none)) w ∧
      (w.phase 0).openPrompt.isSome = true ∧ w.server.ledger.getJob 0 = some job ∧
      job.status = .running := by
  obtain ⟨w, hrun, hopen, hstatus⟩ :=
    (start (boot 10 20 (fun _ => false) fun _ => none)).exists_guarded_run pollsOn
      (polledCell ++ promptRead "name> " ++ valueSent ++ promptGone ++ promptRead "age> " ++
        [inputSent])
      (fun w => (w.phase 0).openPrompt.isSome = true ∧
        (w.server.ledger.getJob 0).map Job.status = some .running)
      (by decide) (by decide)
  obtain ⟨job, hjob, hrunning⟩ := Option.map_eq_some_iff.mp hstatus
  exact ⟨w, job, hrun, hopen, hjob, hrunning⟩

end Schedules

end World

end Hypernote
