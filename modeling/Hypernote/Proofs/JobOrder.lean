import Hypernote.Foundation.Blocks
import Hypernote.Proofs.JobTask
/-!
# The jobs of a notebook

As the jobs of a notebook take turns, what they have done is the concatenation of what each
of them has done, in the order in which they were queued.
-/

namespace Hypernote

open Foundation MemoryLedger

theorem Event.isOf_of_isControl {e : Event} {j : JobId} (h : e.isControl = true) :
    e.isOf j = false := by
  cases e <;> first | rfl | cases h

theorem Event.isOf_unique {e : Event} {i j : JobId} (hi : e.isOf i = true) (hj : e.isOf j = true) :
    i = j := by
  cases e with
  | put => exact (of_decide_eq_true hi).symm.trans (of_decide_eq_true hj)
  | polled => exact (of_decide_eq_true hi).symm.trans (of_decide_eq_true hj)
  | stepRaised => exact (of_decide_eq_true hi).symm.trans (of_decide_eq_true hj)
  | _ => cases hi

/-- The job that is queued on the notebook, with its cells. -/
def Event.queuedOn (nb : NotebookId) : Event → Option (JobId × List CellId)
  | .queued j nb' cells => if nb' = nb then some (j, cells) else none
  | _ => none

theorem Event.queuedOn_of_isControl {e : Event} {nb : NotebookId} (h : e.isControl = true) :
    e.queuedOn nb = none := by
  cases e <;> first | rfl | cases h

/-- The jobs queued on the notebook, in order. -/
def queuedJobs (nb : NotebookId) (es : List Event) : List (JobId × List CellId) :=
  es.filterMap (Event.queuedOn nb)

theorem queuedJobs_append (nb : NotebookId) (es es' : List Event) :
    queuedJobs nb (es ++ es') = queuedJobs nb es ++ queuedJobs nb es' := List.filterMap_append

theorem queuedJobs_of_control {es : List Event} (hes : ∀ e ∈ es, e.isControl = true)
    (nb : NotebookId) : queuedJobs nb es = [] :=
  List.filterMap_eq_nil_iff.mpr fun e he => Event.queuedOn_of_isControl (hes e he)

namespace Server

/-- What a step does to the queued jobs and to the tasks that run them. -/
inductive QueueStep (s s' : Server) (es : List Event) : Prop
  | none (hes : ∀ nb, queuedJobs nb es = [])
      (hkept : ∀ {t run pc}, s'.tasks t = some ⟨.runJob run, pc⟩ →
        ∃ pc₀, s.tasks t = some ⟨.runJob run, pc₀⟩)
  | queued {run} (hes : es = [.queued run.jobId run.notebookId run.cellIds])
      (hj : run.jobId = s.ledger.nextJobId)
      (htask : s'.tasks s.nextTask = some ⟨.runJob run, .start⟩)
      (hrecord : Recorded s'.ledger run [])
      (hkept : ∀ {t run' pc}, s'.tasks t = some ⟨.runJob run', pc⟩ → t ≠ s.nextTask →
        ∃ pc₀, s.tasks t = some ⟨.runJob run', pc₀⟩) : QueueStep s s' es

/-- Where a task that runs a job of the notebook comes from. -/
inductive RunOrigin (s : Server) (l : Label) (s' : Server) (nb : NotebookId) (t : TaskId)
    (run : JobRun) (es : List Event) : Pc → Prop
  | kept {pc} (ht : Runs s nb t run pc) (hmover : s.mover l ≠ some t) :
      RunOrigin s l s' nb t run es pc
  | moved {pc n} (ht : Runs s nb t run pc) (h : TaskStep s t (.runJob run) l pc n)
      (hs : s' = n.commit t (.runJob run)) (hmover : s.mover l = some t) :
      RunOrigin s l s' nb t run es n.pc
  | queued (ht : t = s.nextTask) (hj : run.jobId = s.ledger.nextJobId)
      (hes : es = [.queued run.jobId nb run.cellIds]) (hrecord : Recorded s'.ledger run []) :
      RunOrigin s l s' nb t run es .start

/-- What the tasks that run jobs have done since `s₀`. -/
structure Progress (s₀ s : Server) (nb : NotebookId) (k : KernelId) (es : List Event) : Prop where
  events : s.events = s₀.events ++ es
  later : s₀.nextTask ≤ s.nextTask
  older : ∀ {t run pc}, Runs s nb t run pc → t < s₀.nextTask → pc.isDone = true
  standing : ∀ {t run pc}, Runs s nb t run pc → s₀.nextTask ≤ t →
    Standing s.ledger k run (es.filter (Event.isOf run.jobId)) pc
  listed : ∀ {t run pc}, Runs s nb t run pc → s₀.nextTask ≤ t →
    (run.jobId, run.cellIds) ∈ queuedJobs nb es
  runs : ∀ {j cells}, (j, cells) ∈ queuedJobs nb es → ∃ t run pc, Runs s nb t run pc ∧
    s₀.nextTask ≤ t ∧ run.jobId = j ∧ run.cellIds = cells
  increasing : (queuedJobs nb es).Pairwise fun job job' => job.1 < job'.1
  ordered : ∀ {t t' run run' pc pc'}, t < t' → Runs s nb t run pc → Runs s nb t' run' pc' →
    Precedes (Event.isOf run.jobId) (Event.isOf run'.jobId) es
  task : ∀ {e j}, e ∈ es → e.isOf j = true → ∃ t run pc, s.tasks t = some ⟨.runJob run, pc⟩ ∧
    run.jobId = j ∧ (run.notebookId = nb → s₀.nextTask ≤ t)

variable {s s' s₀ : Server} {l : Label} {t t' : TaskId} {op op' : Op} {pc pc' : Pc} {n : Next}
  {r r' : RoomId} {nb nb' : NotebookId} {k : KernelId} {run run' : JobRun} {j : JobId}
  {uids : List RequestUid} {stage : Stage} {history es : List Event}

/-- A job's history is made by its task, inside the `async with`. -/
theorem isOf_mover (h : StepCase s l s') (hes : s'.events = s.events ++ es) {e : Event}
    (he : e ∈ es) (hj : e.isOf j = true) :
    ∃ t run pc, s.tasks t = some ⟨.runJob run, pc⟩ ∧ s.mover l = some t ∧ run.jobId = j ∧
      pc.rank = 1 := by
  obtain ⟨es', hes', hcases⟩ := h.events
  cases List.append_cancel_left (hes.symm.trans hes')
  rcases hcases with hcontrol | ⟨t, op, pc, n, ht, -, -, hmover, hevents⟩
  · rw [Event.isOf_of_isControl (hcontrol e he)] at hj
    cases hj
  · cases hevents with
    | nothing => cases he
    | put hop hpc =>
        subst hop hpc
        cases List.mem_singleton.mp he
        exact ⟨t, _, _, ht, hmover, of_decide_eq_true hj, rfl⟩
    | polled hop hpc =>
        subst hop hpc
        cases List.mem_singleton.mp he
        exact ⟨t, _, _, ht, hmover, of_decide_eq_true hj, rfl⟩
    | stepRaised hop hpc =>
        subst hop hpc
        cases List.mem_singleton.mp he
        exact ⟨t, _, _, ht, hmover, of_decide_eq_true hj, rfl⟩
    | stopping _ _ hdeletes =>
        rcases List.mem_cons.mp he with rfl | he
        · cases hj
        · rcases hdeletes with rfl | ⟨_, rfl⟩ | ⟨_, rfl⟩
          · cases he
          · cases List.mem_singleton.mp he
            cases hj
          · cases List.mem_singleton.mp he
            cases hj
    | control hcontrol =>
        rw [Event.isOf_of_isControl (hcontrol e he)] at hj
        cases hj
    | _ =>
        cases List.mem_singleton.mp he
        cases hj

/-- Only `queue_execution` queues a job. -/
theorem TaskStep.queues (h : TaskStep s t op l pc n) (hes : n.state.events = s.events ++ es) :
    (∀ nb, queuedJobs nb es = []) ∨
      ∃ o nb r cells actor, n = s.jobQueued o nb r cells actor := by
  obtain ⟨es', hes', hevents⟩ := h.events
  cases List.append_cancel_left (hes.symm.trans hes')
  cases hevents with
  | nothing => exact .inl fun _ => rfl
  | control hcontrol => exact .inl (queuedJobs_of_control hcontrol)
  | stopping _ _ hdeletes =>
      left
      intro nb
      rcases hdeletes with rfl | ⟨_, rfl⟩ | ⟨_, rfl⟩ <;> rfl
  | queued hpc =>
      subst hpc
      cases h with
      | call h =>
          cases h with
          | queued => exact .inr ⟨_, _, _, _, _, rfl⟩
          | raised hpc => simp at hpc
          | _ => simp [attachOpened, finish, park] at hes
      | ensure h => cases h
      | stop h => cases h
      | job h =>
          cases h with
          | stepRaised hpc => simp at hpc
          | _ => simp at hes
  | _ => exact .inl fun _ => rfl

theorem queue_step (hw : WellFormed s) (h : StepCase s l s')
    (hes : s'.events = s.events ++ es) : QueueStep s s' es := by
  cases h with
  | call hrun hop =>
      have hnil : es = [] := List.self_eq_append_right.mp hes
      subst hnil
      refine .none (fun _ => rfl) fun {t run pc} ht => ?_
      simp only [spawn, Function.update_apply] at ht
      split at ht
      · cases ht
        cases hop
      · exact ⟨pc, ht⟩
  | @outside c hrun =>
      obtain ⟨es', hes', hcontrol | ⟨_, _, _, _, _, _, _, hmover, _⟩⟩ :=
        (StepCase.outside (s := s) (c := c) hrun).events
      · cases List.append_cancel_left (hes.symm.trans hes')
        refine .none (queuedJobs_of_control hcontrol) fun {t run pc} ht => ⟨pc, ?_⟩
        cases c <;> exact ht
      · cases hmover
  | @task t op l pc n ht hmove =>
      have hlt := hw.lt_nextTask ht
      rcases hmove.tasks with ⟨htasks, hnext⟩ | ⟨nb, nb', r, cells, actor, name, o, rfl, rfl, rfl⟩
      · refine .none ?_ fun {t' run' pc'} ht' => ?_
        · apply (hmove.queues hes).resolve_right
          rintro ⟨o, nb, r, cells, actor, rfl⟩
          exact absurd hnext (Nat.succ_ne_self _)
        · rw [commit_tasks] at ht'
          split at ht'
          · rename_i heq
            subst heq
            cases ht'
            exact ⟨pc, ht⟩
          · exact ⟨pc', htasks ▸ ht'⟩
      · let run : JobRun := ⟨s.ledger.nextJobId, nb, cells, actor⟩
        have hnew : es = [.queued run.jobId run.notebookId run.cellIds] :=
          (List.append_cancel_left (show s.events ++ [_] = s.events ++ es from hes)).symm
        refine .queued hnew rfl ?_ ?_ ?_
        · rw [commit_tasks, if_neg hlt.ne']
          exact Function.update_self ..
        · exact ⟨_, getJob_createJob_self, rfl, rfl, rfl⟩
        · intro t' run' pc' ht' hne
          rw [commit_tasks] at ht'
          split at ht'
          · cases ht'
          · exact ⟨pc', (Function.update_of_ne hne _ _).symm.trans ht'⟩

theorem run_origin (hw : WellFormed s) (h : StepCase s l s') (hqueue : QueueStep s s' es)
    (ht : Runs s' nb t run pc) : RunOrigin s l s' nb t run es pc := by
  obtain ⟨ht, hname⟩ := ht
  generalize hop : Op.runJob run = op at ht
  cases task_origin h ht with
  | kept ht₀ _ hmover =>
      subst hop
      exact .kept ⟨ht₀, hname⟩ hmover
  | moved ht₀ hmove heq hmover =>
      subst hop
      exact .moved ⟨ht₀, hname⟩ hmove heq hmover
  | called _ hcallable =>
      subst hop
      cases hcallable
  | spawned hnew =>
      rw [← hop] at ht
      cases hqueue with
      | none _ hkept =>
          obtain ⟨pc₀, ht₀⟩ := hkept ht
          exact absurd (hw.lt_nextTask ht₀) (hnew ▸ lt_irrefl _)
      | queued hes hj htask hrecord =>
          rw [hnew] at ht
          cases htask.symm.trans ht
          exact .queued hnew hj (hname ▸ hes) hrecord

theorem progress_start (hw : WellFormed s) (hcalm : s.isCalm nb r = true) :
    Progress s s nb k [] where
  events := (List.append_nil _).symm
  later := le_rfl
  older ht _ := ended_of_calm hw hcalm ht
  standing ht hle := absurd (hw.lt_nextTask ht.1) (Nat.not_lt_of_le hle)
  listed ht hle := absurd (hw.lt_nextTask ht.1) (Nat.not_lt_of_le hle)
  runs h := by cases h
  increasing := .nil
  ordered _ _ _ := .nil
  task h := by cases h

namespace Progress

/-- Only a job that has its task has a history. -/
theorem nothing_of (hp : Progress s₀ s nb k es) (hinv : ServerInv s)
    (hj : s.ledger.nextJobId ≤ j) : ∀ e ∈ es, e.isOf j = false := by
  intro e he
  by_contra hof
  obtain ⟨t, run, pc, ht, hrun, -⟩ := hp.task he (by simpa using hof)
  exact absurd (hinv.jobs.handedOut ht) (Nat.not_lt_of_le (hrun ▸ hj))

/-- A job that waits its turn has no history. -/
theorem nothing_of_waiting (hp : Progress s₀ s nb k es) (ht : Runs s nb t run pc)
    (hpc : 2 ≤ pc.rank) : ∀ e ∈ es, e.isOf run.jobId = false := by
  have hlt : s₀.nextTask ≤ t := by
    by_contra hlt
    rw [Pc.rank_of_isDone (hp.older ht (Nat.lt_of_not_le hlt))] at hpc
    cases hpc
  have hnone : es.filter (Event.isOf run.jobId) = [] := by
    cases hp.standing ht hlt with
    | waiting _ hhistory => exact hhistory
    | executing hreaches => cases hreaches <;> simp [Pc.rank, Pc.holds] at hpc
    | ended hsettled => exact absurd (hpc.trans (Pc.rank_of_isSettled hsettled)) (by decide)
  intro e he
  simpa using List.filter_eq_nil_iff.mp hnone e he

/-- A task's move adds to the history of its own job only. -/
theorem mover_of_isOf (hinv : ServerInv s) (h : StepCase s l s')
    (hes : s'.events = s.events ++ es) (ht : Runs s nb t run pc) {e : Event} (he : e ∈ es)
    (hof : e.isOf run.jobId = true) : s.mover l = some t ∧ pc.rank = 1 := by
  obtain ⟨t', run', pc', ht', hmover, hj, hrank⟩ := isOf_mover h hes he hof
  cases hinv.jobs.once ht.1 ht' hj.symm
  cases ht.1.symm.trans ht'
  exact ⟨hmover, hrank⟩

theorem isOf_queued {nb' : NotebookId} {cells : List CellId} {j' : JobId} :
    ∀ e ∈ [Event.queued j' nb' cells], e.isOf j = false := by
  intro e he
  rw [List.mem_singleton.mp he]
  rfl

variable {new : List Event}

theorem older_step (hp : Progress s₀ s nb k es) (horigin : RunOrigin s l s' nb t run new pc)
    (hlt : t < s₀.nextTask) : pc.isDone = true := by
  cases horigin with
  | kept ht => exact hp.older ht hlt
  | moved ht hmove =>
      have hdone := hp.older ht hlt
      rw [hmove.isDone] at hdone
      cases hdone
  | queued heq => exact absurd (heq ▸ hlt) (Nat.not_lt_of_le hp.later)

theorem standing_step (hp : Progress s₀ s nb k es) (hs : Steady s nb r k) (hinv : ServerInv s)
    (hl : Indexed s.ledger) (h : StepCase s l s') (hnew : s'.events = s.events ++ new)
    (hcancel : s.uncancelled l = true) (horigin : RunOrigin s l s' nb t run new pc)
    (hle : s₀.nextTask ≤ t) :
    Standing s'.ledger k run ((es ++ new).filter (Event.isOf run.jobId)) pc := by
  rw [List.filter_append]
  cases horigin with
  | kept ht hmover =>
      have hnone : new.filter (Event.isOf run.jobId) = [] := by
        apply List.filter_eq_nil_iff.mpr
        intro e he hof
        exact hmover (mover_of_isOf hinv h hnew ht he hof).1
      rw [hnone, List.append_nil]
      exact standing_kept hs hinv hl h ht hmover (hp.standing ht hle)
  | moved ht hmove heq =>
      have hrun := hs.run_step hinv.wellFormed ht.1 ht.2 hmove
      obtain ⟨es', hes', hstanding⟩ := standing_move hs ht hrun hcancel (hp.standing ht hle)
      subst heq
      cases List.append_cancel_left (hnew.symm.trans hes')
      exact hstanding
  | queued _ hj hes hrecord =>
      have hnone : es.filter (Event.isOf run.jobId) = [] := by
        apply List.filter_eq_nil_iff.mpr
        intro e he
        simp [hp.nothing_of hinv hj.ge e he]
      refine .waiting (by decide) ?_ hrecord
      rw [hnone, hes]
      rfl

theorem listed_step (hp : Progress s₀ s nb k es) (horigin : RunOrigin s l s' nb t run new pc)
    (hle : s₀.nextTask ≤ t) : (run.jobId, run.cellIds) ∈ queuedJobs nb (es ++ new) := by
  rw [queuedJobs_append, List.mem_append]
  cases horigin with
  | kept ht => exact .inl (hp.listed ht hle)
  | moved ht => exact .inl (hp.listed ht hle)
  | queued _ _ hes =>
      subst hes
      right
      simp [queuedJobs, Event.queuedOn]

theorem runs_step {cells : List CellId} (hp : Progress s₀ s nb k es) (hw : WellFormed s)
    (h : StepCase s l s') (hqueue : QueueStep s s' new)
    (hmem : (j, cells) ∈ queuedJobs nb (es ++ new)) :
    ∃ t run pc, Runs s' nb t run pc ∧ s₀.nextTask ≤ t ∧ run.jobId = j ∧ run.cellIds = cells := by
  rw [queuedJobs_append, List.mem_append] at hmem
  rcases hmem with hmem | hmem
  · obtain ⟨t, run, pc, ht, hle, hj, hcells⟩ := hp.runs hmem
    obtain ⟨pc', ht'⟩ := hw.task_stays h ht.1
    exact ⟨t, run, pc', ⟨ht', ht.2⟩, hle, hj, hcells⟩
  · cases hqueue with
    | none hes =>
        rw [hes nb] at hmem
        cases hmem
    | @queued run hes _ htask =>
        subst hes
        by_cases hname : run.notebookId = nb
        · simp only [queuedJobs, Event.queuedOn, hname, if_true, List.filterMap_cons,
            List.filterMap_nil, List.mem_singleton] at hmem
          cases hmem
          exact ⟨s.nextTask, run, .start, ⟨htask, hname⟩, hp.later, rfl, rfl⟩
        · simp [queuedJobs, Event.queuedOn, hname] at hmem

theorem increasing_step (hp : Progress s₀ s nb k es) (hinv : ServerInv s)
    (hqueue : QueueStep s s' new) :
    (queuedJobs nb (es ++ new)).Pairwise fun job job' => job.1 < job'.1 := by
  rw [queuedJobs_append]
  cases hqueue with
  | none hes =>
      rw [hes nb, List.append_nil]
      exact hp.increasing
  | @queued run hes hj =>
      subst hes
      have hlast : ∀ job ∈ queuedJobs nb es, job.1 < run.jobId := by
        rintro ⟨j, cells⟩ hmem
        obtain ⟨t, run', pc, ht, -, rfl, -⟩ := hp.runs hmem
        rw [hj]
        exact hinv.jobs.handedOut ht.1
      by_cases hname : run.notebookId = nb
      · have hone : queuedJobs nb [.queued run.jobId run.notebookId run.cellIds] =
            [(run.jobId, run.cellIds)] := by simp [queuedJobs, Event.queuedOn, hname]
        rw [hone]
        refine List.pairwise_append.mpr ⟨hp.increasing, List.pairwise_singleton _ _, ?_⟩
        intro job hmem job' hmem'
        rw [List.mem_singleton.mp hmem']
        exact hlast job hmem
      · have hnone : queuedJobs nb [.queued run.jobId run.notebookId run.cellIds] = [] := by
          simp [queuedJobs, Event.queuedOn, hname]
        rw [hnone, List.append_nil]
        exact hp.increasing

/-- The history of a later job goes on only when that of an earlier one has ended. -/
theorem ordered_step (hp : Progress s₀ s nb k es) (hs : Steady s nb r k) (hq : InTurn s nb r)
    (hinv : ServerInv s) (hlocks : LockInv s) (h : StepCase s l s')
    (hnew : s'.events = s.events ++ new) (hlt : t < t')
    (horigin : RunOrigin s l s' nb t run new pc)
    (horigin' : RunOrigin s l s' nb t' run' new pc') :
    Precedes (Event.isOf run.jobId) (Event.isOf run'.jobId) (es ++ new) := by
  -- both jobs have been queued before
  have hold : ∀ {pc pc'}, Runs s nb t run pc → Runs s nb t' run' pc' →
      Precedes (Event.isOf run.jobId) (Event.isOf run'.jobId) (es ++ new) := by
    intro pc pc' ht ht'
    refine (hp.ordered hlt ht ht').append ?_ (.of_forall ?_)
    · rintro ⟨e, he, hof⟩
      have hrank := (mover_of_isOf hinv h hnew ht he hof).2
      apply hp.nothing_of_waiting ht'
      have hle := hq.ranks hlt ht ht'
      have hne : pc'.rank ≠ 1 := fun hrank' => hlt.ne (hs.alone hinv hlocks ht hrank ht' hrank')
      omega
    · intro e he e' he' hof
      by_contra hof'
      have hmover := (mover_of_isOf hinv h hnew ht' he hof).1
      rw [(mover_of_isOf hinv h hnew ht he' (by simpa using hof')).1] at hmover
      exact hlt.ne (Option.some.inj hmover)
  have hnone : run'.jobId = s.ledger.nextJobId → new = [.queued run'.jobId nb run'.cellIds] →
      Precedes (Event.isOf run.jobId) (Event.isOf run'.jobId) (es ++ new) := by
    intro hj hes
    refine .of_none fun e he => ?_
    rcases List.mem_append.mp he with he | he
    · exact hp.nothing_of hinv hj.ge e he
    · exact isOf_queued e (hes ▸ he)
  cases horigin with
  | kept ht =>
      cases horigin' with
      | kept ht' => exact hold ht ht'
      | moved ht' => exact hold ht ht'
      | queued _ hj hes => exact hnone hj hes
  | moved ht =>
      cases horigin' with
      | kept ht' => exact hold ht ht'
      | moved ht' => exact hold ht ht'
      | queued _ hj hes => exact hnone hj hes
  | queued heq =>
      have hafter : ∀ {pc'}, ¬ Runs s nb t' run' pc' := by
        intro pc' ht'
        exact absurd (hlt.trans (hinv.wellFormed.lt_nextTask ht'.1)) (heq ▸ lt_irrefl _)
      cases horigin' with
      | kept ht' => exact absurd ht' hafter
      | moved ht' => exact absurd ht' hafter
      | queued heq' => exact absurd (heq.trans heq'.symm) hlt.ne

theorem task_step (hp : Progress s₀ s nb k es) (hw : WellFormed s) (h : StepCase s l s')
    (hnew : s'.events = s.events ++ new) {e : Event} (he : e ∈ es ++ new)
    (hof : e.isOf j = true) : ∃ t run pc, s'.tasks t = some ⟨.runJob run, pc⟩ ∧
      run.jobId = j ∧ (run.notebookId = nb → s₀.nextTask ≤ t) := by
  suffices hold : ∃ t run pc, s.tasks t = some ⟨.runJob run, pc⟩ ∧
      run.jobId = j ∧ (run.notebookId = nb → s₀.nextTask ≤ t) by
    obtain ⟨t, run, pc, ht, hj, hle⟩ := hold
    obtain ⟨pc', ht'⟩ := hw.task_stays h ht
    exact ⟨t, run, pc', ht', hj, hle⟩
  rcases List.mem_append.mp he with he | he
  · exact hp.task he hof
  · obtain ⟨t, run, pc, ht, -, hj, hrank⟩ := isOf_mover h hnew he hof
    refine ⟨t, run, pc, ht, hj, fun hname => ?_⟩
    by_contra hlt
    rw [Pc.rank_of_isDone (hp.older ⟨ht, hname⟩ (Nat.lt_of_not_le hlt))] at hrank
    cases hrank

theorem step (hp : Progress s₀ s nb k es) (hs : Steady s nb r k) (hq : InTurn s nb r)
    (hinv : ServerInv s) (hlocks : LockInv s) (hl : Indexed s.ledger) (h : StepCase s l s')
    (hcancel : s.uncancelled l = true) : ∃ es', Progress s₀ s' nb k es' := by
  obtain ⟨new, hnew, -⟩ := h.events
  have hw := hinv.wellFormed
  have hqueue := queue_step hw h hnew
  refine ⟨es ++ new, ?_⟩
  exact
    { events := by rw [hnew, hp.events, List.append_assoc]
      later := hp.later.trans (nextTask_le h)
      older := fun ht => hp.older_step (run_origin hw h hqueue ht)
      standing := fun ht => hp.standing_step hs hinv hl h hnew hcancel (run_origin hw h hqueue ht)
      listed := fun ht => hp.listed_step (run_origin hw h hqueue ht)
      runs := hp.runs_step hw h hqueue
      increasing := hp.increasing_step hinv hqueue
      ordered := fun hlt ht ht' => hp.ordered_step hs hq hinv hlocks h hnew hlt
        (run_origin hw h hqueue ht) (run_origin hw h hqueue ht')
      task := hp.task_step hw h hnew }

end Progress

/-! ## What the notebook's kernel is asked to do -/

/-- What the jobs queued on the notebook have done. -/
def jobEvents (nb : NotebookId) (es : List Event) : List Event :=
  es.filter fun e => (queuedJobs nb es).any fun job => e.isOf job.1

/-- What has become of a job with this history. -/
structure Executed (s : Server) (k : KernelId) (j : JobId) (cells : List CellId)
    (history : List Event) : Prop where
  /-- The requests are for the first cells of the job, in order. -/
  requested : requestedCells history <+: cells
  kernel : ∀ {c k' uid}, .put j c k' uid ∈ history → k' = k
  /-- All requests before have their results, without an error, and nothing has been raised. -/
  afterResults : ∀ {before after c k' uid}, history = before ++ .put j c k' uid :: after →
    (polledResults before).length = (requestedCells before).length ∧
      (∀ result ∈ polledResults before, result.isError = false) ∧
      ∀ e ∈ before, e.isRaise = false
  recorded : ∀ job, s.ledger.getJob j = some job → job.requestUids = requestUids history
  /-- Until the last write of its task the job is active; then it has succeeded or failed. -/
  status : ∃ t run pc, s.tasks t = some ⟨.runJob run, pc⟩ ∧ run.jobId = j ∧
    (pc.isSettled = false → ∃ job, s.ledger.getJob j = some job ∧
      job.status.isTerminal = false) ∧
    (pc.isSettled = true → (Succeeds cells history ∨ Fails history) ∧
      ∀ job, s.ledger.getJob j = some job →
        (job.status = .succeeded ↔ Succeeds cells history) ∧
        (job.status = .failed ↔ ¬ Succeeds cells history))

theorem executed_of_standing (h : Standing s.ledger k run history pc)
    (ht : s.tasks t = some ⟨.runJob run, pc⟩) : Executed s k run.jobId run.cellIds history := by
  obtain ⟨uids, stage, hexecution, hrecorded, hstatus⟩ : ∃ uids stage,
      Execution k run.jobId run.cellIds history uids stage ∧
      (∀ job, s.ledger.getJob run.jobId = some job → job.requestUids = uids) ∧
      (pc.isSettled = false → ∃ job, s.ledger.getJob run.jobId = some job ∧
        job.status.isTerminal = false) ∧
      (pc.isSettled = true → (Succeeds run.cellIds history ∨ Fails history) ∧
        ∀ job, s.ledger.getJob run.jobId = some job →
          (job.status = .succeeded ↔ Succeeds run.cellIds history) ∧
          (job.status = .failed ↔ ¬ Succeeds run.cellIds history)) := by
    cases h with
    | waiting hpc hhistory hrecord =>
        subst hhistory
        obtain ⟨job, hjob, -, huids, hactive⟩ := hrecord
        refine ⟨[], _, .start, ?_, fun _ => ⟨job, hjob, hactive⟩, fun hsettled => ?_⟩
        · intro job' hjob'
          cases hjob.symm.trans hjob'
          exact huids
        · rw [Pc.isSettled_of_rank hpc] at hsettled
          cases hsettled
    | @executing uids _ hreaches hexecution hrecord =>
        obtain ⟨job, hjob, -, huids, hactive⟩ := hrecord
        refine ⟨uids, _, hexecution, ?_, fun _ => ⟨job, hjob, hactive⟩, fun hsettled => ?_⟩
        · intro job' hjob'
          cases hjob.symm.trans hjob'
          exact huids
        · rw [hreaches.isSettled] at hsettled
          cases hsettled
    | @ended uids status hsettled hexecution hrecord =>
        refine ⟨uids, _, hexecution, fun job hjob => (hrecord job hjob).1, ?_, fun _ => ?_⟩
        · intro hunsettled
          rw [hsettled] at hunsettled
          cases hunsettled
        · rcases hexecution.status_of_ended with ⟨rfl, hsucceeds⟩ | ⟨rfl, hfails⟩
          · refine ⟨.inl hsucceeds, fun job hjob => ?_⟩
            simp [(hrecord job hjob).2, hsucceeds]
          · have hnot : ¬ Succeeds run.cellIds history := fun h => h.not_fails hfails
            refine ⟨.inr hfails, fun job hjob => ?_⟩
            simp [(hrecord job hjob).2, hnot]
  exact
    { requested := hexecution.requested_prefix
      kernel := hexecution.kernel
      afterResults := hexecution.answered_before_put
      recorded := fun job hjob => (hrecorded job hjob).trans hexecution.uids_eq
      status := ⟨t, run, pc, ht, rfl, hstatus⟩ }

theorem Progress.in_turn (hp : Progress s₀ s nb k es) (hordered : JobsOrdered s) :
    jobEvents nb es = (queuedJobs nb es).flatMap fun job => es.filter (Event.isOf job.1) := by
  refine filter_any_eq_flatMap (p := fun job : JobId × List CellId => Event.isOf job.1) ?_ ?_
  · apply hp.increasing.imp_of_mem
    intro job job' hmem hmem' hlt
    obtain ⟨t, run, pc, ht, -, hj, -⟩ := hp.runs hmem
    obtain ⟨t', run', pc', ht', -, hj', -⟩ := hp.runs hmem'
    rw [← hj, ← hj'] at hlt ⊢
    exact hp.ordered (hordered.lt ht.1 ht'.1 hlt) ht ht'
  · apply hp.increasing.imp
    intro job job' hlt e _ hof
    by_contra hof'
    exact hlt.ne (Event.isOf_unique hof (by simpa using hof'))

/-- A job has a history only when the jobs queued before it have ended. -/
theorem Progress.ended_before (hp : Progress s₀ s nb k es) (hs : Steady s nb r k)
    (hq : InTurn s nb r) (hinv : ServerInv s) (hlocks : LockInv s) (hordered : JobsOrdered s) :
    (queuedJobs nb es).Pairwise fun job job' => (∃ e ∈ es, e.isOf job'.1 = true) →
      ∃ t run pc, s.tasks t = some ⟨.runJob run, pc⟩ ∧ run.jobId = job.1 ∧ pc.isDone = true := by
  apply hp.increasing.imp_of_mem
  rintro job job' hmem hmem' hlt ⟨e, he, hof⟩
  obtain ⟨t, run, pc, ht, -, hj, -⟩ := hp.runs hmem
  obtain ⟨t', run', pc', ht', -, hj', -⟩ := hp.runs hmem'
  rw [← hj'] at hof
  rw [← hj, ← hj'] at hlt
  refine ⟨t, run, pc, ht.1, hj, hq.ended hs hinv hlocks (hordered.lt ht.1 ht'.1 hlt) ht ht' ?_⟩
  by_contra hrank
  rw [hp.nothing_of_waiting ht' (by omega) e he] at hof
  cases hof

/-- From a state in which the notebook's runtime is live and nothing is under way for it, as
long as it is not stopped and its kernel lives, no answer is sent and no task is cancelled:
what the jobs queued on the notebook do is the concatenation of what each of them does, in
the order in which they were queued, each of them after those before it have ended; nothing
else is requested for the notebook; and each job is executed as it should be. -/
theorem jobs_execute_in_order {ttl : Time} {maxCompleted : Int} {alive : KernelId → Bool}
    {kernelspec : NotebookId → Option String}
    (hrun₀ : ServerRun anyStep (boot ttl maxCompleted alive kernelspec) s₀)
    (hheld : Held s₀ nb r k) (hstop : .stopping r ∉ s₀.events) (hcalm : s₀.isCalm nb r = true)
    (hrun : ServerRun (jobSetting nb k · ·) s₀ s) :
    ∃ es, s.events = s₀.events ++ es ∧
      jobEvents nb es = (queuedJobs nb es).flatMap (fun job => es.filter (Event.isOf job.1)) ∧
      requestedCells (jobEvents nb es) =
        (queuedJobs nb es).flatMap (fun job => requestedCells (es.filter (Event.isOf job.1))) ∧
      ((queuedJobs nb es).Pairwise fun job job' => (∃ e ∈ es, e.isOf job'.1 = true) →
        ∃ t run pc, s.tasks t = some ⟨.runJob run, pc⟩ ∧ run.jobId = job.1 ∧
          pc.isDone = true) ∧
      (∀ j c k' uid, .put j c k' uid ∈ es → (∃ cells, (j, cells) ∈ queuedJobs nb es) ∨
        ∃ t run pc, s.tasks t = some ⟨.runJob run, pc⟩ ∧ run.jobId = j ∧ run.notebookId ≠ nb) ∧
      ∀ job ∈ queuedJobs nb es, Executed s k job.1 job.2 (es.filter (Event.isOf job.1)) := by
  have hinv : ∀ {u}, ServerRun (jobSetting nb k · ·) s₀ u →
      ServerInv u ∧ LockInv u ∧ Indexed u.ledger := fun hu =>
    have hu := hrun₀.trans hu.weaken
    ⟨serverInv_run hu, lockInv_run hu, indexed_run hu⟩
  have hstart := hinv .refl
  have hsteady := steady_of_calm hstart.1.wellFormed hheld hstop hcalm
  obtain ⟨hs, hq, es, hp⟩ : Steady s nb r k ∧ InTurn s nb r ∧ ∃ es, Progress s₀ s nb k es := by
    refine Run.invariant_of
      (I := fun u => Steady u nb r k ∧ InTurn u nb r ∧ ∃ es, Progress s₀ u nb k es)
      hrun (fun _ hu => hinv hu)
      ⟨hsteady, inTurn_of_calm hsteady hstart.1 hstart.2.1 hcalm, [],
        progress_start hstart.1.wellFormed hcalm⟩ ?_
    rintro u l u' ⟨hinv, hlocks, hl⟩ ⟨hinv', -⟩ ⟨hs, hq, es, hp⟩ hguard hstep
    have h := step_cases hstep
    simp only [jobSetting, Bool.and_eq_true] at hguard
    obtain ⟨⟨⟨⟨hspares, hkeeps⟩, hsends⟩, hcancel⟩, horder⟩ := hguard
    exact ⟨hs.step hinv hinv'.wellFormed h hspares hkeeps hsends,
      hq.step hs hinv hinv'.wellFormed hlocks h horder hcancel,
      hp.step hs hq hinv hlocks hl h hcancel⟩
  have hordered : JobsOrdered s := jobsOrdered_run (hrun₀.trans hrun.weaken)
  have hturn := hp.in_turn hordered
  have hended := hp.ended_before hs hq (hinv hrun).1 (hinv hrun).2.1 hordered
  refine ⟨es, hp.events, hturn, ?_, hended, ?_, ?_⟩
  · rw [hturn, requestedCells, List.filterMap_flatMap]
    rfl
  · intro j c k' uid hmem
    obtain ⟨t, run, pc, ht, rfl, hlater⟩ := hp.task (j := j) hmem (by simp [Event.isOf])
    by_cases hname : run.notebookId = nb
    · exact .inl ⟨_, hp.listed ⟨ht, hname⟩ (hlater hname)⟩
    · exact .inr ⟨t, run, pc, ht, rfl, hname⟩
  · rintro ⟨j, cells⟩ hmem
    obtain ⟨t, run, pc, ht, hlater, rfl, rfl⟩ := hp.runs hmem
    exact executed_of_standing (hp.standing ht hlater) ht.1

section Schedules

/-- Task 0 starts the runtime of a notebook that Jupyter has no session for. -/
private def runtimeStarted : List Label :=
  [.call (.ensureRoom "nb" none), .proceed (.quiet 0), .proceed (.quiet 0),
    .resume 0 (.raised (.http 404 "")) (.quiet 0), .proceed (.quiet 0), .proceed (.quiet 0),
    .resume 0 (.session ⟨"session", "kernel", some "python3"⟩) (.quiet 0), .proceed (.quiet 0)]

/-- Task `t` queues a job of one cell on it. -/
private def cellQueued (t : TaskId) (cell : CellId) : List Label :=
  [.call (.queueExecution "nb" [cell] ⟨"alice", .human⟩ none), .proceed (.quiet 0),
    .resume t .returned (.quiet 0), .proceed (.quiet 0), .proceed (.quiet 0), .proceed (.quiet 0)]

/-- Task `t` starts its job, up to the lock. -/
private def jobStarted (t : TaskId) : List Label :=
  [.resume t .returned (.quiet 0), .proceed (.quiet 0), .proceed (.quiet 0), .proceed (.quiet 0),
    .proceed (.quiet 0)]

/-- Task `t` has the lock and requests its first cell. -/
private def cellRequested (t : TaskId) : List Label :=
  [.proceed (.quiet 0), .proceed (.quiet 0), .resume t .returned (.quiet 0),
    .resume t (.raised .timeout) (.quiet 0), .resume t (.text "1/0") (.quiet 0),
    .resume t (.text "document") (.quiet 0), .proceed (.quiet 0)]

/-- The result of the cell is an error, and the job ends. -/
private def cellFailed (t : TaskId) : List Label :=
  [.resume t .returned (.quiet 0), .proceed { Oracle.quiet 0 with poll := .result ⟨true, none⟩ },
    .resume t .returned (.quiet 0), .proceed (.quiet 0)]

theorem two_jobs_in_order :
    ∃ (s₀ s : Server) (es : List Event), s.events = s₀.events ++ es ∧
      queuedJobs "nb" es = [(0, ["a"]), (1, ["b"])] ∧ requestedCells (jobEvents "nb" es) =
        requestedCells (es.filter (Event.isOf 0)) ++ requestedCells (es.filter (Event.isOf 1)) := by
  let window := cellQueued 1 "a" ++ cellQueued 3 "b" ++ jobStarted 2 ++ cellRequested 2 ++
    jobStarted 4 ++ cellFailed 2 ++ [.resume 4 .returned (.quiet 0)] ++ cellRequested 4
  obtain ⟨s₀, hrun₀, ⟨hentry, hk, halive, hlive⟩, hstop, hcalm, hguarded, hexec⟩ :=
    (boot 10 20 (fun _ => false) fun _ => none).exists_run runtimeStarted
      (fun s => (s.mgr.roomForNotebook "nb" = some 0 ∧ (s.room 0).kernelId = some "kernel" ∧
          s.alive "kernel" = true ∧ (s.room 0).isLive = true) ∧
        .stopping 0 ∉ s.events ∧ s.isCalm "nb" 0 = true ∧
        guardedBy step (fun s l => s.jobSetting "nb" "kernel" l = true) s window = true ∧
        (exec step s window).any fun s' =>
          queuedJobs "nb" (s'.events.drop s.events.length) = [(0, ["a"]), (1, ["b"])])
      (by decide +kernel)
  obtain ⟨s, hrun, hqueued⟩ := exists_guarded_run_of_exec hguarded hexec
  obtain ⟨es, hes, -, hrequests, -⟩ :=
    jobs_execute_in_order hrun₀ ⟨hentry, hk, halive, hlive⟩ hstop hcalm hrun
  have hqueued : queuedJobs "nb" es = [(0, ["a"]), (1, ["b"])] := by
    rwa [hes, List.drop_left] at hqueued
  refine ⟨s₀, s, es, hes, hqueued, ?_⟩
  rw [hrequests, hqueued]
  simp

end Schedules

end Server

end Hypernote
