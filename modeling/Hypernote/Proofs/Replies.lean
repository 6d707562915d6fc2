import Hypernote.Proofs.Prompts
/-!
# Replies to a prompt

`send_stdin` checks that its job awaits input before `ensure_room` and marks it as running
after `send_input`, so two calls can pass the check for one prompt.  While no call passes
it during another, the answer that returns takes the status of every later check away until
a new prompt is read.
-/

namespace Hypernote

open Foundation MemoryLedger

def Event.repliesTo (j : JobId) : Event → Bool
  | .sendInput j' _ _ => j' = j
  | _ => false

/-- A call of `send_stdin` for the job that has passed its check and is not over. -/
def Task.answers (j : JobId) : Task → Bool
  | ⟨.sendStdin j' _ _, pc⟩ => j' = j && pc ≠ .start && !pc.isDone
  | _ => false

/-- A prompt that no poll has read. -/
def CellPhase.isUnread : CellPhase → Bool
  | .computing => false
  | .prompting _ _ read => !read

/-- The cell of the job asks for input. -/
def WorldLabel.asksFor (j : JobId) : WorldLabel → Bool
  | .asks j' _ => j' = j
  | _ => false

namespace Server

variable {s s' : Server} {t : TaskId} {op : Op} {l : Label} {pc : Pc} {n : Next} {j : JobId}
  {job : Job}

/-- How often `stack.send_input` has been called for the job. -/
def replies (s : Server) (j : JobId) : Nat := s.events.countP (·.repliesTo j)

def isAnswering (s : Server) (j : JobId) : Bool :=
  (List.range s.nextTask).any fun t => (s.tasks t).any (·.answers j)

/-- The task is a call of `send_stdin` for the job that has passed its check. -/
def Answering (s : Server) (j : JobId) (t : TaskId) : Prop :=
  ∃ value actor pc, s.tasks t = some ⟨.sendStdin j value actor, pc⟩ ∧ pc ≠ .start ∧
    pc.isDone = false

theorem isAnswering_iff (hw : WellFormed s) : s.isAnswering j = true ↔ ∃ t, Answering s j t := by
  simp only [isAnswering, List.any_eq_true, List.mem_range]
  constructor
  · rintro ⟨t, -, ht⟩
    obtain ⟨task, htask, hanswers⟩ := (Option.any_eq_true _ _).mp ht
    unfold Task.answers at hanswers
    split at hanswers
    · simp only [Bool.and_eq_true, decide_eq_true_eq, Bool.not_eq_true'] at hanswers
      obtain ⟨⟨rfl, hstart⟩, hdone⟩ := hanswers
      exact ⟨t, _, _, _, htask, hstart, hdone⟩
    · cases hanswers
  · rintro ⟨t, value, actor, pc, ht, hstart, hdone⟩
    exact ⟨t, hw.lt_nextTask ht, by simp [ht, Task.answers, hstart, hdone]⟩

/-- A call that has passed its check had passed it before, or has just found its job
awaiting input. -/
theorem Answering.origin (h : StepCase s l s') (ht : Answering s' j t) :
    Answering s j t ∨ s.mover l = some t ∧ (∃ value actor,
      s.moving l = some ⟨.sendStdin j value actor, .start⟩) ∧
        ∃ job, s.ledger.getJob j = some job ∧ job.status = .awaitingInput := by
  obtain ⟨value, actor, pc, ht, hstart, hdone⟩ := ht
  generalize hop : Op.sendStdin j value actor = op at ht
  cases task_origin h ht with
  | kept ht₀ =>
      subst hop
      exact .inl ⟨value, actor, pc, ht₀, hstart, hdone⟩
  | @moved _ pc₀ n ht₀ hmove _ hmover =>
      subst hop
      by_cases hpc₀ : pc₀ = .start
      · subst hpc₀
        refine .inr ⟨hmover, ⟨value, actor, moving_eq hmover ht₀⟩, ?_⟩
        cases hmove with
        | call h =>
            cases h with
            | stdinAccepted hjob hstatus => exact ⟨_, hjob, hstatus⟩
            | load hop => cases hop
            | explicit hop => cases hop
            | resolving hop => cases hop
            | stop hop => cases hop
            | refused => cases hdone
            | raised hpc => simp at hpc
        | ensure h => cases h
        | stop h => cases h
      · exact .inl ⟨value, actor, pc₀, ht₀, hpc₀, hmove.isDone⟩
  | called => exact absurd rfl hstart
  | spawned => exact absurd rfl hstart

theorem replies_append {es : List Event} (hes : s'.events = s.events ++ es)
    (hnone : ∀ e ∈ es, e.repliesTo j = false) : s'.replies j = s.replies j := by
  have hzero : es.countP (·.repliesTo j) = 0 := List.countP_eq_zero.mpr (by simpa using hnone)
  unfold replies
  rw [hes, List.countP_append, hzero, Nat.add_zero]

/-- `stack.send_input` is called at one point of the code. -/
theorem TaskStep.replies (h : TaskStep s t op l pc n) (j : JobId) :
    n.state.replies j = s.replies j ∨ n.state.replies j = s.replies j + 1 ∧
      ∃ value actor nb r, op = .sendStdin j value actor ∧ pc = .ensured nb r ∧
        (s.room r).kernelId ≠ none ∧ n.pc = .sendingInput nb r := by
  have happended : ∀ {es}, n.state.events = s.events ++ es → (∀ e ∈ es, e.repliesTo j = false) →
      n.state.replies j = s.replies j := replies_append
  cases h with
  | call h =>
      cases h with
      | @sendInput o nb r jobId value actor k hk =>
          by_cases hj : jobId = j
          · subst hj
            refine .inr ⟨?_, value, actor, nb, r, rfl, rfl, by simp [hk], rfl⟩
            simp [Server.replies, List.countP_append, Event.repliesTo]
          · exact .inl (happended rfl (by simp [Event.repliesTo, hj]))
      | queued => exact .inl (happended rfl (by simp [Event.repliesTo]))
      | kernelSubshell => exact .inl (happended rfl (by simp [Event.repliesTo]))
      | kernelNative => exact .inl (happended rfl (by simp [Event.repliesTo]))
      | interruptSubshell => exact .inl (happended rfl (by simp [Event.repliesTo]))
      | interruptKernel => exact .inl (happended rfl (by simp [Event.repliesTo]))
      | restarted => exact .inl (happended rfl (by simp [Event.repliesTo]))
      | _ => exact .inl rfl
  | ensure h =>
      cases h with
      | created => exact .inl (happended rfl (by simp [Event.repliesTo]))
      | _ => exact .inl rfl
  | stop h =>
      cases h with
      | unknown => cases op <;> exact .inl rfl
      | already => cases op <;> exact .inl rfl
      | stopping _ _ _ hes =>
          refine .inl (happended rfl ?_)
          rcases hes with rfl | ⟨id, rfl⟩ | ⟨k, rfl⟩ <;> simp [Event.repliesTo]
      | cleared => cases op <;> exact .inl (happended rfl (by simp [Event.repliesTo]))
      | _ => exact .inl rfl
  | job h =>
      cases h with
      | subshellMessage _ hes =>
          refine .inl (happended rfl ?_)
          rcases hes with rfl | ⟨id, rfl⟩ <;> simp [Event.repliesTo]
      | put => exact .inl (happended rfl (by simp [Event.repliesTo]))
      | putForgotten => exact .inl (happended rfl (by simp [Event.repliesTo]))
      | polled => exact .inl (happended rfl (by simp [Event.repliesTo]))
      | failed => exact .inl (happended rfl (by simp [Event.repliesTo]))
      | cancelled => exact .inl (happended rfl (by simp [Event.repliesTo]))
      | _ => exact .inl rfl

theorem replies_step (h : StepCase s l s') (j : JobId) :
    s'.replies j = s.replies j ∨ s'.replies j = s.replies j + 1 ∧
      ∃ t value actor nb r, s.tasks t = some ⟨.sendStdin j value actor, .ensured nb r⟩ ∧
        s.moving l = some ⟨.sendStdin j value actor, .ensured nb r⟩ ∧
        (s.room r).kernelId ≠ none ∧
        s'.tasks t = some ⟨.sendStdin j value actor, .sendingInput nb r⟩ := by
  cases h with
  | call => exact .inl rfl
  | @outside c =>
      left
      cases c with
      | kernelDied k => exact replies_append rfl (by simp [Event.repliesTo])
      | kernelAutorestarted k => exact replies_append rfl (by simp [Event.repliesTo])
      | kernelStarted k => rfl
      | kernelspecEdited nb name => rfl
  | @task t op l pc n ht hmove _ hmover =>
      rcases hmove.replies j with hsame | ⟨hmore, value, actor, nb, r, rfl, rfl, hk, hn⟩
      · exact .inl hsame
      · refine .inr ⟨hmore, t, value, actor, nb, r, ht, moving_eq hmover ht, hk, ?_⟩
        rw [commit_tasks, if_pos rfl, hn]

/-- What a step does to the two signatures of a job. -/
inductive SignatureStep (s : Server) (l : Label) (s' : Server) (j : JobId) : Prop
  | kept (hpoll : ∀ request, s.pollAnswer l j ≠ some (.inputRequest request))
      (hawaiting : s'.awaitingInputSignatures j = s.awaitingInputSignatures j)
      (hresumed : s'.resumedInputSignatures j = s.resumedInputSignatures j)
  | read {request} (hpoll : s.pollAnswer l j = some (.inputRequest request))
      (hawaiting : s'.awaitingInputSignatures j = some (inputRequestSignature request))
      (hresumed : s'.resumedInputSignatures j = s.resumedInputSignatures j)
  | ended {result} (hpoll : s.pollAnswer l j = some (.result result))
  | answered {t value actor nb r o} (hpoll : s.pollAnswer l j = none)
      (ht : s.tasks t = some ⟨.sendStdin j value actor, .sendingInput nb r⟩)
      (hl : l = .resume t .returned o)
      (hawaiting : s'.awaitingInputSignatures j = s.awaitingInputSignatures j)
      (hresumed : s'.resumedInputSignatures j = s.resumedSignatures j j)

theorem resumedSignatures_of_ne {jobId : JobId} (hj : j ≠ jobId) :
    s.resumedSignatures jobId j = s.resumedInputSignatures j := by
  unfold resumedSignatures
  cases s.awaitingInputSignatures jobId with
  | none => rfl
  | some signature => exact Function.update_of_ne hj _ _

theorem resumedSignatures_of_seen {signature : String}
    (h : s.awaitingInputSignatures j = some signature) :
    s.resumedSignatures j j = some signature := by
  unfold resumedSignatures
  rw [h]
  exact Function.update_self ..

/-- The signatures of a job are written by the polls of its request and by the answers to its
prompts. -/
theorem TaskStep.signatures (h : TaskStep s t op l pc n) (j : JobId) :
    n.state.awaitingInputSignatures j = s.awaitingInputSignatures j ∧
        n.state.resumedInputSignatures j = s.resumedInputSignatures j ∨
      (∃ run r cells uid o, op = .runJob run ∧ pc = .polling r cells uid ∧ l = .proceed o ∧
        run.jobId = j) ∨
      (∃ value actor nb r o, op = .sendStdin j value actor ∧ pc = .sendingInput nb r ∧
        l = .resume t .returned o ∧
        n.state.awaitingInputSignatures j = s.awaitingInputSignatures j ∧
        n.state.resumedInputSignatures j = s.resumedSignatures j j) := by
  cases h with
  | call h =>
      cases h with
      | @stdinSent o nb r jobId value actor =>
          by_cases hj : jobId = j
          · subst hj
            exact .inr (.inr ⟨value, actor, nb, r, o, rfl, rfl, rfl, rfl, rfl⟩)
          · exact .inl ⟨rfl, resumedSignatures_of_ne (Ne.symm hj)⟩
      | _ => exact .inl ⟨rfl, rfl⟩
  | ensure h => cases h <;> exact .inl ⟨rfl, rfl⟩
  | stop h =>
      cases h with
      | unknown => cases op <;> exact .inl ⟨rfl, rfl⟩
      | already => cases op <;> exact .inl ⟨rfl, rfl⟩
      | cleared => cases op <;> exact .inl ⟨rfl, rfl⟩
      | _ => exact .inl ⟨rfl, rfl⟩
  | @job run l pc n h =>
      by_cases hj : run.jobId = j
      · cases h with
        | echoed => exact .inr (.inl ⟨run, _, _, _, _, rfl, rfl, rfl, hj⟩)
        | awaiting => exact .inr (.inl ⟨run, _, _, _, _, rfl, rfl, rfl, hj⟩)
        | awaitingUnregistered => exact .inr (.inl ⟨run, _, _, _, _, rfl, rfl, rfl, hj⟩)
        | polled => exact .inr (.inl ⟨run, _, _, _, _, rfl, rfl, rfl, hj⟩)
        | _ => exact .inl ⟨rfl, rfl⟩
      · have hne : j ≠ run.jobId := Ne.symm hj
        cases h with
        | echoed => exact .inl ⟨Function.update_of_ne hne _ _, rfl⟩
        | awaiting => exact .inl ⟨Function.update_of_ne hne _ _, rfl⟩
        | awaitingUnregistered => exact .inl ⟨Function.update_of_ne hne _ _, rfl⟩
        | polled => exact .inl ⟨Function.update_of_ne hne _ _, Function.update_of_ne hne _ _⟩
        | _ => exact .inl ⟨rfl, rfl⟩

theorem signature_step (h : StepCase s l s') (j : JobId) : SignatureStep s l s' j := by
  cases hanswer : s.pollAnswer l j with
  | none =>
      have hpoll : ∀ request, s.pollAnswer l j ≠ some (.inputRequest request) := by simp [hanswer]
      cases h with
      | call => exact .kept hpoll rfl rfl
      | @outside c => cases c <;> exact .kept hpoll rfl rfl
      | task ht hmove _ hmover =>
          rcases hmove.signatures j with ⟨hawaiting, hresumed⟩ |
            ⟨run, r, cells, uid, o, rfl, rfl, rfl, hj⟩ |
            ⟨value, actor, nb, r, o, rfl, rfl, rfl, hawaiting, hresumed⟩
          · exact .kept hpoll hawaiting hresumed
          · simp [pollAnswer, moving_eq hmover ht, hj] at hanswer
          · exact .answered hanswer ht rfl hawaiting hresumed
  | some answer =>
      obtain ⟨run, r, cells, uid, o, hmoving, rfl, rfl, rfl⟩ := pollAnswer_eq hanswer
      obtain ⟨t, n, -, hmove, rfl, -⟩ := h.of_moving hmoving
      obtain ⟨run', hrun, hjob⟩ := hmove.jobStep rfl
      cases hrun
      cases hjob with
      | pending hpoll => exact .kept (by simp [hanswer, hpoll]) rfl rfl
      | pollRaised hpoll => exact .kept (by simp [hanswer, hpoll]) rfl rfl
      | echoed hpoll =>
          exact .read (hanswer.trans (congrArg some hpoll)) (Function.update_self ..) rfl
      | awaiting hpoll =>
          exact .read (hanswer.trans (congrArg some hpoll)) (Function.update_self ..) rfl
      | awaitingUnregistered hpoll =>
          exact .read (hanswer.trans (congrArg some hpoll)) (Function.update_self ..) rfl
      | polled hpoll => exact .ended (hanswer.trans (congrArg some hpoll))

theorem Writes.awaiting_point {pc' : Pc} (h : Writes pc pc' .awaitingInput) :
    ∃ r cells uid, pc = .polling r cells uid := by
  cases h
  exact ⟨_, _, _, rfl⟩

/-- A job comes to await input by a poll that reads a prompt other than the one answered
last. -/
theorem awaiting_origin (hs : JobsInv s) (h : StepCase s l s')
    (hjob : s'.ledger.getJob j = some job) (hstatus : job.status = .awaitingInput) :
    (∃ old, s.ledger.getJob j = some old ∧ old.status = .awaitingInput) ∨
      ∃ request, s.pollAnswer l j = some (.inputRequest request) ∧
        s.resumedInputSignatures j ≠ some (inputRequestSignature request) := by
  rcases hs.job_change h j with hsame | ⟨t, op, pc, n, ht, hmove, rfl, hmover, hchange⟩
  · exact .inl ⟨job, hsame ▸ hjob, hstatus⟩
  · change n.state.ledger.getJob j = some job at hjob
    rw [show (n.commit t op).ledger.getJob j = some job from hjob] at hchange
    cases hchange with
    | forgets h => exact .inl ⟨job, h.of_some, hstatus⟩
    | created _ _ hqueued => exact absurd (hqueued.symm.trans hstatus) (by decide)
    | answered => cases hstatus
    | put _ _ _ _ hold => exact .inl ⟨_, hold, hstatus⟩
    | @written run old _ status r now hop hj hwrites hold hkept =>
        subst hop hj
        cases hkept.of_some
        change status = .awaitingInput at hstatus
        subst hstatus
        obtain ⟨r, cells, uid, rfl⟩ := hwrites.awaiting_point
        obtain ⟨o, rfl⟩ := hmove.of_polling
        have hread : ∀ {request}, o.poll = .inputRequest request →
            s.pollAnswer (.proceed o) run.jobId = some (.inputRequest request) := by
          intro request hpoll
          simp [pollAnswer, moving_eq hmover ht, hpoll]
        obtain ⟨run', hrun, hstep⟩ := hmove.jobStep rfl
        cases hrun
        cases hstep with
        | awaiting hpoll hresumed => exact .inr ⟨_, hread hpoll, hresumed⟩
        | awaitingUnregistered hpoll hresumed => exact .inr ⟨_, hread hpoll, hresumed⟩
        | polled => exact .inl ⟨_, hjob, rfl⟩
        | echoed => exact .inl ⟨_, hjob, rfl⟩
        | pending => exact .inl ⟨_, hjob, rfl⟩
        | pollRaised => exact .inl ⟨_, hjob, rfl⟩

end Server

namespace World

open Server

/-- A call of `send_stdin` passes its check only while no other call for the job is past its
own, it hands its value over only when a poll has read the prompt, and `send_input` does not
raise. -/
def repliesInTurn (w : World) : WorldLabel → Bool
  | .server l =>
      match w.server.moving l, l with
      | some ⟨.sendStdin jobId _ _, .start⟩, _ =>
          (w.server.ledger.getJob jobId).all fun job =>
            job.status ≠ .awaitingInput || !w.server.isAnswering jobId
      | some ⟨.sendStdin jobId _ _, .ensured _ roomId⟩, _ =>
          (w.server.room roomId).kernelId.isNone || !(w.phase jobId).isUnread
      | some ⟨.sendStdin .., .sendingInput ..⟩, .resume _ (.raised _) _ => false
      | _, _ => true
  | _ => true

def replies (w : World) (j : JobId) : Nat := w.server.replies j

/-- At most one call for a job is past its check, and the signature of a prompt that has been
read is recorded. -/
structure ReplyInv (w : World) : Prop where
  wellFormed : WellFormed w.server
  jobs : JobsInv w.server
  single : ∀ {j t t'}, Answering w.server j t → Answering w.server j t' → t = t'
  seen : ∀ {j request answeredBy}, w.phase j = .prompting request answeredBy true →
    w.server.awaitingInputSignatures j = some (inputRequestSignature request)

/-- After the prompt of the job has been answered: the answer has not returned, or no check
finds the job awaiting input until another prompt is read. -/
inductive Replied (w : World) (j : JobId) : Prop
  | sending {t value actor nb r}
      (ht : w.server.tasks t = some ⟨.sendStdin j value actor, .sendingInput nb r⟩)
      (hread : (w.phase j).isUnread = false)
  | settled (hnone : ∀ t, ¬ Answering w.server j t)
      (hstatus : ∀ job, w.server.ledger.getJob j = some job → job.status ≠ .awaitingInput)
      (hresumed : ∀ request answeredBy read, w.phase j = .prompting request answeredBy read →
        w.server.resumedInputSignatures j = some (inputRequestSignature request))

variable {w w' : World} {l : Label} {label : WorldLabel} {j : JobId} {request : Json} {s' : Server}

/-- The kernel's own steps leave the extension and the other jobs alone. -/
theorem step_kernel {i : JobId} (hlabel : (∃ request, label = .asks i request) ∨
    label = .promptEnds i) (h : w.step label = some w') :
    w'.server = w.server ∧ (∀ j, j ≠ i → w'.phase j = w.phase j) ∧
      (w'.phase i = .computing ∧ label = .promptEnds i ∨
        ∃ request, w'.phase i = .prompting request none false ∧ label = .asks i request) := by
  rcases hlabel with ⟨request, rfl⟩ | rfl
  all_goals
    simp only [World.step] at h
    split at h
  · cases h
    exact ⟨rfl, fun j hj => Function.update_of_ne hj _ _,
      .inr ⟨request, Function.update_self .., rfl⟩⟩
  · cases h
  · cases h
  · cases h
    exact ⟨rfl, fun j hj => Function.update_of_ne hj _ _, .inl ⟨Function.update_self .., rfl⟩⟩

/-- A prompt that is there after a step was there before, and its request goes on. -/
theorem PhaseStep.prompting {answeredBy : Option TaskId} {read : Bool}
    (h : PhaseStep w l j (.prompting request answeredBy read)) :
    (∃ answeredBy read, w.phase j = .prompting request answeredBy read) ∧
      ∀ result, w.server.pollAnswer l j ≠ some (.result result) := by
  generalize hnew : CellPhase.prompting request answeredBy read = phase at h
  cases h with
  | kept hpoll =>
      refine ⟨⟨_, _, hnew.symm⟩, fun result hresult => ?_⟩
      rcases hpoll with hpoll | ⟨hcomputing, -⟩
      · cases hpoll.symm.trans hresult
      · cases hnew.trans hcomputing
  | read hpoll _ hphase =>
      cases hnew
      exact ⟨⟨_, _, hphase⟩, fun result hresult => by cases hpoll.symm.trans hresult⟩
  | givenUp => cases hnew
  | answered hpoll _ _ hphase =>
      cases hnew
      exact ⟨⟨_, _, hphase⟩, fun result hresult => by cases hpoll.symm.trans hresult⟩
  | unanswered hpoll _ _ hphase =>
      cases hnew
      exact ⟨⟨_, _, hphase⟩, fun result hresult => by cases hpoll.symm.trans hresult⟩

/-- No call goes back before the reading of the prompt. -/
theorem isUnread_advanced (hreports : w.reports l = true)
    (hguard : w.repliesInTurn (.server l) = true) (hread : (w.phase j).isUnread = false) :
    (w.advanced l j).isUnread = false := by
  have hphase := phase_step hreports (j := j)
  generalize w.advanced l j = phase at hphase ⊢
  cases hphase with
  | kept => exact hread
  | read => rfl
  | givenUp => rfl
  | answered _ _ _ hphase =>
      rw [hphase] at hread
      exact hread
  | unanswered _ hmoving hl =>
      subst hl
      simp [repliesInTurn, hmoving] at hguard

namespace ReplyInv

theorem single_step (hs : ReplyInv w) (h : StepCase w.server l s')
    (hguard : w.repliesInTurn (.server l) = true) {t t' : TaskId} (ht : Answering s' j t)
    (ht' : Answering s' j t') : t = t' := by
  -- a call that has just passed its check found no other past its own
  have hfresh : ∀ {u u'}, (w.server.mover l = some u ∧ (∃ value actor,
      w.server.moving l = some ⟨.sendStdin j value actor, .start⟩) ∧
        ∃ job, w.server.ledger.getJob j = some job ∧ job.status = .awaitingInput) →
      ¬ Answering w.server j u' := by
    rintro u u' ⟨-, ⟨value, actor, hmoving⟩, job, hjob, hstatus⟩ hu'
    have hanswering := (isAnswering_iff hs.wellFormed).mpr ⟨u', hu'⟩
    simp [repliesInTurn, hmoving, hjob, hstatus, hanswering] at hguard
  rcases ht.origin h with hold | hnew
  · rcases ht'.origin h with hold' | hnew'
    · exact hs.single hold hold'
    · exact absurd hold (hfresh hnew')
  · rcases ht'.origin h with hold' | hnew'
    · exact absurd hold' (hfresh hnew)
    · exact Option.some.inj (hnew.1.symm.trans hnew'.1)

theorem seen_step (hs : ReplyInv w) (h : StepCase w.server l s') (hreports : w.reports l = true)
    {answeredBy : Option TaskId} (hphase : w.advanced l j = .prompting request answeredBy true) :
    s'.awaitingInputSignatures j = some (inputRequestSignature request) := by
  have hstep := phase_step hreports (j := j)
  rw [hphase] at hstep
  -- a prompt that had been read before keeps its signature
  have hkept : ∀ {answeredBy}, w.phase j = .prompting request answeredBy true →
      w.server.pollAnswer l j = none →
      s'.awaitingInputSignatures j = some (inputRequestSignature request) := by
    intro answeredBy hold hpoll
    cases signature_step h j with
    | kept _ hawaiting => exact hawaiting.trans (hs.seen hold)
    | read hread => cases hpoll.symm.trans hread
    | ended hended => cases hpoll.symm.trans hended
    | answered _ _ _ hawaiting => exact hawaiting.trans (hs.seen hold)
  generalize hnew : CellPhase.prompting request answeredBy true = phase at hstep
  cases hstep with
  | kept hpoll =>
      rcases hpoll with hpoll | ⟨hcomputing, -⟩
      · exact hkept hnew.symm hpoll
      · cases hnew.trans hcomputing
  | read hpoll hsignature =>
      cases hnew
      cases signature_step h j with
      | kept hnone => exact absurd hpoll (hnone _)
      | read hread hawaiting =>
          cases hpoll.symm.trans hread
          rw [hawaiting, hsignature]
      | ended hended => cases hpoll.symm.trans hended
      | answered hnone => cases hpoll.symm.trans hnone
  | givenUp => cases hnew
  | answered hpoll _ _ hold =>
      cases hnew
      exact hkept hold hpoll
  | unanswered => cases hnew

theorem step (hs : ReplyInv w) (hguard : w.repliesInTurn label = true)
    (hstep : w.step label = some w') : ReplyInv w' := by
  have hkernel : ∀ {i}, (∃ request, label = .asks i request) ∨ label = .promptEnds i →
      ReplyInv w' := by
    intro i hlabel
    obtain ⟨hserver, hother, hphase⟩ := step_kernel hlabel hstep
    refine ⟨hserver ▸ hs.wellFormed, hserver ▸ hs.jobs, hserver ▸ hs.single, ?_⟩
    intro j request answeredBy hprompting
    by_cases hj : j = i
    · subst hj
      rcases hphase with ⟨hphase, -⟩ | ⟨request', hphase, -⟩ <;>
        cases hphase.symm.trans hprompting
    · rw [hserver]
      exact hs.seen ((hother j hj).symm.trans hprompting)
  cases label with
  | server l =>
      obtain ⟨s', hserver, hreports, rfl⟩ := World.step_server hstep
      have h := step_cases hserver
      exact
        { wellFormed := hs.wellFormed.step hserver
          jobs := hs.jobs.step hserver
          single := hs.single_step h hguard
          seen := hs.seen_step h hreports }
  | asks i request => exact hkernel (.inl ⟨request, rfl⟩)
  | promptEnds i => exact hkernel (.inr rfl)

end ReplyInv

namespace Replied

/-- The answer returns, or the call goes on waiting for it. -/
theorem sending_step (hs : ReplyInv w) (hs' : ReplyInv ⟨s', w.advanced l⟩)
    (h : StepCase w.server l s') (hreports : w.reports l = true)
    (hguard : w.repliesInTurn (.server l) = true) {t : TaskId} {value : String} {actor : Actor}
    {nb : NotebookId} {r : RoomId}
    (ht : w.server.tasks t = some ⟨.sendStdin j value actor, .sendingInput nb r⟩)
    (hread : (w.phase j).isUnread = false) :
    Replied ⟨s', w.advanced l⟩ j ∧ s'.replies j = w.server.replies j := by
  have hanswering : Answering w.server j t :=
    ⟨value, actor, _, ht, (fun hpc => by cases hpc), rfl⟩
  have hread' := isUnread_advanced hreports hguard hread
  constructor
  · rcases hs.wellFormed.task_next h ht with ⟨ht', -⟩ | ⟨n, hmove, rfl, hmover⟩
    · exact .sending ht' hread'
    · have hmoving := moving_eq hmover ht
      obtain ⟨hn, hledger, hawaiting, hresumed⟩ : n.pc.isDone = true ∧
          (∀ job, n.state.ledger.getJob j = some job → job.status = .running) ∧
          n.state.awaitingInputSignatures j = w.server.awaitingInputSignatures j ∧
          n.state.resumedInputSignatures j = w.server.resumedSignatures j j := by
        cases hmove with
        | ensure h => cases h
        | stop h => cases h
        | call h =>
            cases h with
            | stdinSent => exact ⟨rfl, fun job hjob => status_updateJobStatus hjob, rfl, rfl⟩
            | raised => simp [repliesInTurn, hmoving] at hguard
      refine .settled ?_ ?_ ?_
      · intro t' ht'
        rcases ht'.origin h with hold | ⟨-, ⟨value', actor', hmoving'⟩, -⟩
        · cases hs.single hanswering hold
          obtain ⟨value', actor', pc, hpc, -, hdone⟩ := ht'
          rw [commit_tasks, if_pos rfl] at hpc
          cases hpc
          cases hn.symm.trans hdone
        · cases hmoving.symm.trans hmoving'
      · intro job hjob hstatus
        cases (hledger job hjob).symm.trans hstatus
      · intro request answeredBy read hphase
        change w.advanced l j = _ at hphase
        rw [hphase] at hread'
        obtain rfl : read = true := by simpa [CellPhase.isUnread] using hread'
        have hseen : n.state.awaitingInputSignatures j = _ := hs'.seen hphase
        exact hresumed.trans (resumedSignatures_of_seen (hawaiting.symm.trans hseen))
  · rcases replies_step h j with hsame | ⟨-, t', value', actor', nb', r', ht', -⟩
    · exact hsame
    · cases hs.single hanswering ⟨value', actor', _, ht', (fun hpc => by cases hpc), rfl⟩
      cases ht.symm.trans ht'

/-- Nothing marks the job as awaiting input again. -/
theorem settled_step (hs : ReplyInv w) (h : StepCase w.server l s') (hreports : w.reports l = true)
    (hnone : ∀ t, ¬ Answering w.server j t)
    (hstatus : ∀ job, w.server.ledger.getJob j = some job → job.status ≠ .awaitingInput)
    (hresumed : ∀ request answeredBy read, w.phase j = .prompting request answeredBy read →
      w.server.resumedInputSignatures j = some (inputRequestSignature request)) :
    Replied ⟨s', w.advanced l⟩ j ∧ s'.replies j = w.server.replies j := by
  have hphase := phase_step hreports (j := j)
  constructor
  · refine .settled ?_ ?_ ?_
    · intro t ht
      rcases ht.origin h with hold | ⟨-, -, job, hjob, hawaiting⟩
      · exact hnone t hold
      · exact hstatus job hjob hawaiting
    · intro job hjob hawaiting
      rcases awaiting_origin hs.jobs h hjob hawaiting with
        ⟨old, hold, hawaiting⟩ | ⟨request, hpoll, hfresh⟩
      · exact hstatus old hold hawaiting
      · generalize w.advanced l j = phase at hphase
        cases hphase with
        | kept hkept =>
            rcases hkept with hkept | ⟨-, hkept⟩
            · cases hpoll.symm.trans hkept
            · exact hkept request hpoll
        | read hread hsignature hold =>
            cases hpoll.symm.trans hread
            exact hfresh (by rw [hresumed _ _ _ hold, hsignature])
        | givenUp hraised => cases hpoll.symm.trans hraised
        | answered hother => cases hpoll.symm.trans hother
        | unanswered hother => cases hpoll.symm.trans hother
    · intro request answeredBy read hnew
      change w.advanced l j = _ at hnew
      rw [hnew] at hphase
      obtain ⟨⟨answeredBy', read', hold⟩, hgoes⟩ := hphase.prompting
      have hresumed := hresumed _ _ _ hold
      cases signature_step h j with
      | kept _ _ hkept => exact hkept.trans hresumed
      | read _ _ hkept => exact hkept.trans hresumed
      | ended hpoll => exact absurd hpoll (hgoes _)
      | answered _ ht => exact absurd ⟨_, _, _, ht, (fun hpc => by cases hpc), rfl⟩ (hnone _)
  · rcases replies_step h j with hsame | ⟨-, t, value, actor, nb, r, ht, -⟩
    · exact hsame
    · exact absurd ⟨value, actor, _, ht, (fun hpc => by cases hpc), rfl⟩ (hnone t)

/-- After its prompt is answered, a job gets no further reply until it asks again. -/
theorem server_step (hr : Replied w j) (hs : ReplyInv w) (hs' : ReplyInv ⟨s', w.advanced l⟩)
    (h : StepCase w.server l s') (hreports : w.reports l = true)
    (hguard : w.repliesInTurn (.server l) = true) :
    Replied ⟨s', w.advanced l⟩ j ∧ s'.replies j = w.server.replies j := by
  cases hr with
  | sending ht hread => exact sending_step hs hs' h hreports hguard ht hread
  | settled hnone hstatus hresumed => exact settled_step hs h hreports hnone hstatus hresumed

end Replied

/-- Since the moment in which there were `count` replies, the job has got at most one. -/
def AtMostOne (j : JobId) (count : Nat) (w : World) : Prop :=
  w.replies j = count ∨ w.replies j = count + 1 ∧ Replied w j

theorem atMostOne_step {count : Nat} (hs : ReplyInv w) (hs' : ReplyInv w')
    (hone : AtMostOne j count w) (hguard : w.repliesInTurn label = true)
    (hasks : label.asksFor j = false) (hstep : w.step label = some w') :
    AtMostOne j count w' := by
  have hkernel : ∀ {i}, (∃ request, label = .asks i request) ∨ label = .promptEnds i →
      AtMostOne j count w' := by
    intro i hlabel
    obtain ⟨hserver, hother, hphase⟩ := step_kernel hlabel hstep
    have hnew : w'.phase j = w.phase j ∨ w'.phase j = .computing := by
      by_cases hj : j = i
      · subst hj
        rcases hphase with ⟨hphase, -⟩ | ⟨request, -, hlabel⟩
        · exact .inr hphase
        · simp [hlabel, WorldLabel.asksFor] at hasks
      · exact .inl (hother j hj)
    unfold AtMostOne World.replies at hone ⊢
    rw [hserver]
    refine hone.imp id fun ⟨hcount, hr⟩ => ⟨hcount, ?_⟩
    cases hr with
    | sending ht hread =>
        refine .sending (hserver ▸ ht) ?_
        rcases hnew with hnew | hnew <;> rw [hnew]
        · exact hread
        · rfl
    | settled hnone hstatus hresumed =>
        refine .settled (hserver ▸ hnone) (hserver ▸ hstatus) ?_
        intro request answeredBy read hprompting
        rcases hnew with hnew | hnew
        · rw [hserver]
          exact hresumed _ _ _ (hnew.symm.trans hprompting)
        · cases hnew.symm.trans hprompting
  cases label with
  | asks i request => exact hkernel (.inl ⟨request, rfl⟩)
  | promptEnds i => exact hkernel (.inr rfl)
  | server l =>
      obtain ⟨s', hserver, hreports, rfl⟩ := World.step_server hstep
      have h := step_cases hserver
      rcases hone with hcount | ⟨hcount, hr⟩
      · rcases replies_step h j with hsame | ⟨hmore, t, value, actor, nb, r, -, hmoving, hk, ht⟩
        · exact .inl (hsame.trans hcount)
        · refine .inr ⟨hmore.trans (congrArg (· + 1) hcount), .sending ht ?_⟩
          apply isUnread_advanced hreports hguard
          simpa [repliesInTurn, hmoving, hk] using hguard
      · obtain ⟨hr', hsame⟩ := hr.server_step hs hs' h hreports hguard
        exact .inr ⟨hsame.trans hcount, hr'⟩

theorem replyInv_run {G : World → WorldLabel → Prop} {w₀ : World}
    (hG : ∀ w label, G w label → w.repliesInTurn label = true) (h : Run step G w₀ w)
    (hs : ReplyInv w₀) : ReplyInv w :=
  h.invariant hs fun _ _ _ hs hguard hstep => hs.step (hG _ _ hguard) hstep

theorem replyInv_start {ttl : Time} {maxCompleted : Int} {alive : KernelId → Bool}
    {kernelspec : NotebookId → Option String} :
    ReplyInv (start (boot ttl maxCompleted alive kernelspec)) where
  wellFormed := wellFormed_boot
  jobs := jobsInv_boot
  single h := by
    obtain ⟨_, _, _, ht, -⟩ := h
    cases ht
  seen h := by cases h

/-- A call that checks its job while another is past its check, or after the prompt was
answered, is refused. -/
theorem refused {count : Nat} {value : String} {actor : Actor} {o : Oracle} {t : TaskId}
    (hs : ReplyInv w) (hone : AtMostOne j count w)
    (hguard : w.repliesInTurn (.server (.proceed o)) = true)
    (hrun : w.server.running = some t)
    (ht : w.server.tasks t = some ⟨.sendStdin j value actor, .start⟩)
    (hother : w.server.isAnswering j = true ∨ w.replies j = count + 1)
    (hstep : w.step (.server (.proceed o)) = some w') :
    (∃ message, w'.server.tasks t =
        some ⟨.sendStdin j value actor, .done (.raised (.value message))⟩) ∧
      w'.replies j = w.replies j := by
  have hmoving : w.server.moving (.proceed o) = some ⟨.sendStdin j value actor, .start⟩ :=
    moving_eq hrun ht
  have hstatus : ∀ job, w.server.ledger.getJob j = some job → job.status ≠ .awaitingInput := by
    intro job hjob hawaiting
    have hnot : w.server.isAnswering j = false := by
      simpa [repliesInTurn, hmoving, hjob, hawaiting] using hguard
    have hnone : ∀ t, ¬ Answering w.server j t := by
      intro t ht
      rw [(isAnswering_iff hs.wellFormed).mpr ⟨t, ht⟩] at hnot
      cases hnot
    rcases hother with hanswering | hcount
    · cases hnot.symm.trans hanswering
    · rcases hone with hbefore | ⟨-, hr⟩
      · omega
      · cases hr with
        | sending ht => exact hnone _ ⟨_, _, _, ht, (fun hpc => by cases hpc), rfl⟩
        | settled _ hstatus => exact hstatus job hjob hawaiting
  obtain ⟨s', hserver, -, rfl⟩ := World.step_server hstep
  obtain ⟨t', n, ht', hadvance, rfl, hrun'⟩ := step_proceed hmoving hserver
  cases hrun.symm.trans hrun'
  obtain ⟨message, rfl⟩ : ∃ message, n = w.server.finish (.raised (.value message)) := by
    cases hadvance
    unfold Server.start startStdin
    dsimp only
    cases hjob : w.server.ledger.getJob j with
    | none => exact ⟨_, rfl⟩
    | some job => exact ⟨_, if_neg (hstatus job hjob)⟩
  refine ⟨⟨message, ?_⟩, rfl⟩
  exact (commit_tasks _ t _ t).trans (if_pos rfl)

/-- From the moment the cell asks until it asks again at most one reply is sent, and every
other call that checks its job while one is in progress or after the reply raises a
`ValueError` without sending. -/
theorem one_reply_per_prompt {ttl : Time} {maxCompleted : Int} {alive : KernelId → Bool}
    {kernelspec : NotebookId → Option String} {w₀ w₁ : World}
    (h₀ : Run step (fun w label => w.repliesInTurn label = true)
      (start (boot ttl maxCompleted alive kernelspec)) w₀)
    (hask : w₀.step (.asks j request) = some w₁)
    (h : Run step (fun w label => w.repliesInTurn label = true ∧ label.asksFor j = false) w₁ w) :
    w.replies j ≤ w₁.replies j + 1 ∧
      ∀ t value actor o w', w.server.running = some t →
        w.server.tasks t = some ⟨.sendStdin j value actor, .start⟩ →
        w.repliesInTurn (.server (.proceed o)) = true →
        w.step (.server (.proceed o)) = some w' →
        w.server.isAnswering j = true ∨ w.replies j = w₁.replies j + 1 →
          (∃ message, w'.server.tasks t =
              some ⟨.sendStdin j value actor, .done (.raised (.value message))⟩) ∧
            w'.replies j = w.replies j := by
  have hs₁ : ReplyInv w₁ := by
    have hs₀ := replyInv_run (fun _ _ h => h) h₀ replyInv_start
    exact hs₀.step rfl hask
  have hinv : ∀ {w}, Run step (fun w label => w.repliesInTurn label = true ∧
      label.asksFor j = false) w₁ w → ReplyInv w :=
    fun h => replyInv_run (fun _ _ h => h.1) h hs₁
  have hone : AtMostOne j (w₁.replies j) w := by
    apply Run.invariant_of (I := AtMostOne j (w₁.replies j)) h (fun _ => hinv) (.inl rfl)
    intro u label u' hs hs' hone hguard hstep
    exact atMostOne_step hs hs' hone hguard.1 hguard.2 hstep
  constructor
  · rcases hone with hcount | ⟨hcount, -⟩ <;> omega
  · intro t value actor o w' hrun ht hguard hstep hother
    exact refused (hinv h) hone hguard hrun ht hother hstep

section Schedules

/-- The poll loop reads the prompt that task 1 has run into. -/
private def nameRead : WorldLabel :=
  .server (.proceed { Oracle.quiet 0 with poll := .inputRequest (prompt "name> ") })

/-- A second client replies in task 3, up to the check. -/
private def secondCall : WorldLabel :=
  .server (.call (.sendStdin 0 "value" ⟨"bob", .human⟩))

private def checked : WorldLabel := .server (.proceed (.quiet 0))

theorem second_call_refused :
    ∃ (w₁ w w' : World) (message : String), w₁.phase 0 = .prompting (prompt "name> ") none false ∧
      w.replies 0 = w₁.replies 0 + 1 ∧
      w'.server.tasks 3 =
        some ⟨.sendStdin 0 "value" ⟨"bob", .human⟩, .done (.raised (.value message))⟩ ∧
      w'.replies 0 = w.replies 0 := by
  obtain ⟨w₀, h₀, hrest⟩ :=
    (start (boot 10 20 (fun _ => false) fun _ => none)).exists_guarded_run repliesInTurn polledCell
      (fun w₀ => ((w₀.step (.asks 0 (prompt "name> "))).any fun w₁ =>
        guardedBy step (fun w label => w.repliesInTurn label = true ∧ label.asksFor 0 = false) w₁
          (nameRead :: valueSent ++ [inputSent, secondCall]) &&
        (exec step w₁ (nameRead :: valueSent ++ [inputSent, secondCall])).any fun w =>
          w.server.running = some 3 ∧
          w.server.tasks 3 = some ⟨.sendStdin 0 "value" ⟨"bob", .human⟩, .start⟩ ∧
          w.replies 0 = w₁.replies 0 + 1 ∧ w.repliesInTurn checked = true ∧
          (w.step checked).isSome = true) = true)
      (by decide) (by decide)
  obtain ⟨w₁, hask, hrest⟩ := (Option.any_eq_true _ _).mp hrest
  obtain ⟨hguarded, hexec⟩ := Bool.and_eq_true_iff.mp hrest
  obtain ⟨w, h, hrun, ht, hcount, hguard, hstep⟩ := exists_guarded_run_of_exec hguarded hexec
  obtain ⟨w', hstep⟩ := Option.isSome_iff_exists.mp hstep
  obtain ⟨-, hrefuses⟩ := one_reply_per_prompt h₀ hask h
  obtain ⟨⟨message, ht'⟩, hsame⟩ := hrefuses 3 _ _ _ w' hrun ht hguard hstep (.inr hcount)
  have hphase : w₁.phase 0 = .prompting (prompt "name> ") none false := by
    obtain ⟨-, -, ⟨-, hlabel⟩ | ⟨request, hphase, hlabel⟩⟩ := step_kernel (.inl ⟨_, rfl⟩) hask
    · cases hlabel
    · cases hlabel
      exact hphase
  exact ⟨w₁, w, w', message, hphase, hcount, ht', hsame⟩

/-- Two calls pass the check while the job awaits input, and both send. -/
theorem prompt_answered_twice :
    ∃ (w₀ w₁ w : World),
      Run step anyStep (start (boot 10 20 (fun _ => false) fun _ => none)) w₀ ∧
      w₀.step (.asks 0 (prompt "name> ")) = some w₁ ∧
      Run step (fun _ label => label.asksFor 0 = false) w₁ w ∧
      w.replies 0 = w₁.replies 0 + 2 := by
  obtain ⟨w₀, h₀, hrest⟩ :=
    (start (boot 10 20 (fun _ => false) fun _ => none)).exists_guarded_run (fun _ _ => true)
      polledCell (fun w₀ => ((w₀.step (.asks 0 (prompt "name> "))).any fun w₁ =>
        guardedBy step (fun _ label => label.asksFor 0 = false) w₁
          (nameRead :: valueSent ++ secondCall :: List.replicate 4 checked) &&
        (exec step w₁ (nameRead :: valueSent ++ secondCall :: List.replicate 4 checked)).any fun w =>
          w.replies 0 = w₁.replies 0 + 2) = true)
      (by decide) (by decide)
  obtain ⟨w₁, hask, hrest⟩ := (Option.any_eq_true _ _).mp hrest
  obtain ⟨hguarded, hexec⟩ := Bool.and_eq_true_iff.mp hrest
  obtain ⟨w, h, hcount⟩ := exists_guarded_run_of_exec hguarded hexec
  exact ⟨w₀, w₁, w, h₀.weaken, hask, h, hcount⟩

end Schedules

end World

end Hypernote
