import Hypernote.JobExecution
import Hypernote.Proofs.Eviction
import Hypernote.Proofs.JobQueue
/-!
# The task of one job

Once it has the lock, the task of a job goes through an `Execution` of the job, and the
ledger records what it does.  No other task changes the record while the notebook's runtime
stays live and no prompt is answered.
-/

namespace Hypernote

open Foundation MemoryLedger

/-- How far the execution of a job has got when its task is at a program point inside the
`async with`, before its last write. -/
inductive Reaches (run : JobRun) : Pc → Stage → Prop
  | locked {r} : Reaches run (.locked r) (.ready run.cellIds)
  | nextCell {r cells} : Reaches run (.nextCell r cells) (.ready cells)
  | clientReady {r cells client} : Reaches run (.clientReady r cells client) (.ready cells)
  | subshellReply {r cells client requestId} :
      Reaches run (.subshellReply r cells client requestId) (.ready cells)
  | readingSource {r cells} : Reaches run (.readingSource r cells) (.ready cells)
  | readingDocument {r cells source} : Reaches run (.readingDocument r cells source) (.ready cells)
  | polling {r cells uid} : Reaches run (.polling r cells uid) (.requested cells.tail)
  | sleeping {r cells uid} : Reaches run (.sleeping r cells uid) (.requested cells.tail)
  | flushing {r cells result} :
      Reaches run (.flushing r cells result) (.answered cells.tail result)
  | jobRaised {r error stage} (herror : error.isException = true)
      (hstage : ∀ status, stage ≠ .ended status) : Reaches run (.jobRaised r error) stage

theorem Reaches.active {run : JobRun} {pc : Pc} {stage : Stage} (h : Reaches run pc stage)
    (status : JobStatus) : stage ≠ .ended status := by
  cases h with
  | jobRaised _ hstage => exact hstage status
  | _ => exact fun h => by cases h

theorem Reaches.isSettled {run : JobRun} {pc : Pc} {stage : Stage} (h : Reaches run pc stage) :
    pc.isSettled = false := by
  cases h <;> rfl

/-- The ledger has the job, with these requests. -/
def Recorded (ledger : MemoryLedger) (run : JobRun) (uids : List RequestUid) : Prop :=
  ∃ job, ledger.getJob run.jobId = some job ∧ job.notebookId = run.notebookId ∧
    job.requestUids = uids ∧ job.status.isTerminal = false

/-- What the ledger says of the job, if it still has it. -/
def RecordedAs (ledger : MemoryLedger) (run : JobRun) (uids : List RequestUid)
    (status : JobStatus) : Prop :=
  ∀ job, ledger.getJob run.jobId = some job → job.requestUids = uids ∧ job.status = status

section Records

variable {ledger ledger' : MemoryLedger} {run : JobRun} {uids : List RequestUid} {uid : RequestUid}
  {status : JobStatus} {rid : Option RoomId} {now : Time}

theorem Recorded.updated (h : Recorded ledger run uids) (hstatus : status.isTerminal = false) :
    Recorded (ledger.updateJobStatus run.jobId status rid now) run uids := by
  obtain ⟨job, hjob, hname, huids, -⟩ := h
  have hupdated := ledger.getJob_updateJobStatus_self run.jobId status rid now
  rw [hjob] at hupdated
  exact ⟨_, hupdated.of_active hstatus, hname, huids, hstatus⟩

theorem Recorded.completed (h : Recorded ledger run uids) :
    RecordedAs (ledger.updateJobStatus run.jobId status rid now) run uids status := by
  obtain ⟨job, hjob, -, huids, -⟩ := h
  intro job' hjob'
  have hupdated := ledger.getJob_updateJobStatus_self run.jobId status rid now
  rw [hjob, hjob'] at hupdated
  cases hupdated.of_some
  exact ⟨huids, rfl⟩

theorem Recorded.appended (h : Recorded ledger run uids)
    (hledger : ledger.appendRequestUid run.jobId uid = some ledger') :
    Recorded ledger' run (uids ++ [uid]) := by
  obtain ⟨job, hjob, hname, huids, hstatus⟩ := h
  refine ⟨{ job with requestUids := job.requestUids ++ [uid] }, ?_, hname, by rw [huids], hstatus⟩
  rw [getJob_appendRequestUid hledger, if_pos rfl, hjob]
  rfl

theorem Recorded.of_getJob (h : Recorded ledger run uids)
    (hsame : ledger'.getJob run.jobId = ledger.getJob run.jobId) : Recorded ledger' run uids := by
  rwa [Recorded, hsame]

end Records

/-- The task of a job waits its turn, executes the job, or has ended it. -/
inductive Standing (ledger : MemoryLedger) (k : KernelId) (run : JobRun) (history : List Event) :
    Pc → Prop
  | waiting {pc} (hpc : 2 ≤ pc.rank) (hhistory : history = []) (hrecord : Recorded ledger run []) :
      Standing ledger k run history pc
  | executing {pc uids stage} (hreaches : Reaches run pc stage)
      (hexecution : Execution k run.jobId run.cellIds history uids stage)
      (hrecord : Recorded ledger run uids) : Standing ledger k run history pc
  | ended {pc uids status} (hpc : pc.isSettled = true)
      (hexecution : Execution k run.jobId run.cellIds history uids (.ended status))
      (hrecord : RecordedAs ledger run uids status) : Standing ledger k run history pc

section History

variable {ledger : MemoryLedger} {k : KernelId} {run : JobRun} {history events events' : List Event}
  {pc : Pc} {e : Event}

/-- A step that says nothing. -/
theorem Standing.unsaid (hevents : events' = events) (h : Standing ledger k run history pc) :
    ∃ es, events' = events ++ es ∧
      Standing ledger k run (history ++ es.filter (Event.isOf run.jobId)) pc := by
  refine ⟨[], by rw [hevents, List.append_nil], ?_⟩
  rw [List.filter_nil, List.append_nil]
  exact h

/-- A step that says something of the job. -/
theorem Standing.said (he : e.isOf run.jobId = true)
    (h : Standing ledger k run (history ++ [e]) pc) :
    ∃ es, events ++ [e] = events ++ es ∧
      Standing ledger k run (history ++ es.filter (Event.isOf run.jobId)) pc := by
  refine ⟨[e], rfl, ?_⟩
  rw [List.filter_singleton, he]
  exact h

end History

namespace Server

variable {s s' s₀ : Server} {l : Label} {t t' : TaskId} {op op' : Op} {pc pc' : Pc} {n : Next}
  {r r' : RoomId} {nb nb' : NotebookId} {k : KernelId} {run run' : JobRun} {j : JobId}
  {uids : List RequestUid} {stage : Stage} {history es : List Event}

/-- A job inside the `async with` goes on with its execution. -/
theorem JobStep.executes (h : JobStep s t run l pc n) (hreaches : Reaches run pc stage)
    (hexecution : Execution k run.jobId run.cellIds history uids stage)
    (hrecord : Recorded s.ledger run uids)
    (hkernel : ∀ r, pc.usedRoom = some r → (s.room r).kernelId = some k)
    (hcancel : s.uncancelled l = true) :
    ∃ es, n.state.events = s.events ++ es ∧
      Standing n.state.ledger k run (history ++ es.filter (Event.isOf run.jobId)) n.pc := by
  -- a step that leaves the history alone
  have hquiet : ∀ {stage'}, n.state.events = s.events → Reaches run n.pc stage' →
      Execution k run.jobId run.cellIds history uids stage' →
      Recorded n.state.ledger run uids → ∃ es, n.state.events = s.events ++ es ∧
        Standing n.state.ledger k run (history ++ es.filter (Event.isOf run.jobId)) n.pc := by
    intro stage' hevents hreaches' hexecution' hrecord'
    exact Standing.unsaid hevents (.executing hreaches' hexecution' hrecord')
  have hraised : ∀ {r error}, error.isException = true → Reaches run (.jobRaised r error) stage :=
    fun herror => .jobRaised herror hreaches.active
  have hraises : ∀ {error o}, l = .resume t (.raised error) o → error.isException = true := by
    rintro error o rfl
    exact hcancel
  cases hreaches with
  | locked =>
      cases h with
      | locked => exact hquiet rfl .nextCell hexecution (hrecord.updated rfl)
      | stepRaised hpc => simp at hpc
  | nextCell =>
      cases h with
      | succeeded => exact Standing.unsaid rfl (.ended rfl hexecution.succeeded hrecord.completed)
      | preparing => exact hquiet rfl .clientReady hexecution hrecord
      | noClient herror => exact hquiet rfl (hraised herror) hexecution hrecord
      | stepRaised hpc => simp at hpc
  | clientReady =>
      cases h with
      | clientReady hpc =>
          rcases hpc with rfl | ⟨_, rfl⟩ | ⟨_, herror, rfl⟩
          · exact hquiet rfl .readingSource hexecution hrecord
          · exact hquiet rfl .subshellReply hexecution hrecord
          · exact hquiet rfl (hraised herror) hexecution hrecord
      | stepRaised => exact hquiet rfl (hraised (hraises rfl)) hexecution hrecord
  | subshellReply =>
      cases h with
      | @subshellMessage o r cells client requestId reply beforeDeadline pool pc es hpc hes =>
          refine ⟨es, rfl, ?_⟩
          have hnone : es.filter (Event.isOf run.jobId) = [] := by
            rcases hes with rfl | ⟨id, rfl⟩ <;> rfl
          rw [hnone, List.append_nil]
          rcases hpc with rfl | ⟨_, rfl⟩ | ⟨_, herror, rfl⟩
          · exact .executing .readingSource hexecution hrecord
          · exact .executing .subshellReply hexecution hrecord
          · exact .executing (hraised herror) hexecution hrecord
      | subshellFailed => exact hquiet rfl .readingSource hexecution hrecord
      | stepRaised => exact hquiet rfl (hraised (hraises rfl)) hexecution hrecord
  | readingSource =>
      cases h with
      | sourceRead => exact hquiet rfl .readingDocument hexecution hrecord
      | stepRaised => exact hquiet rfl (hraised (hraises rfl)) hexecution hrecord
  | readingDocument =>
      cases h with
      | @put o r c cells k' source document uid ledger hput hk hledger =>
          cases (hkernel _ rfl).symm.trans hk
          apply Standing.said (by simp [Event.isOf])
          exact .executing .polling hexecution.put (hrecord.appended hledger)
      | putForgotten _ _ _ hforgotten =>
          obtain ⟨job, hjob, -⟩ := hrecord
          rw [hforgotten] at hjob
          cases hjob
      | @putRaised o r cells source document error hput =>
          refine hquiet rfl (hraised ?_) hexecution hrecord
          rcases hput with hput | ⟨herror, -⟩
          · simp only [uncancelled, Oracle.uncancelled, hput, Bool.and_eq_true] at hcancel
            exact hcancel.1
          · exact herror
      | stepRaised => exact hquiet rfl (hraised (hraises rfl)) hexecution hrecord
  | polling =>
      cases h with
      | pending => exact hquiet rfl .sleeping hexecution hrecord
      | echoed => exact hquiet rfl .sleeping hexecution hrecord
      | awaiting => exact hquiet rfl .sleeping hexecution (hrecord.updated rfl)
      | awaitingUnregistered =>
          exact hquiet rfl (hraised rfl) hexecution (hrecord.updated rfl)
      | @polled o r cells uid result =>
          apply Standing.said (by simp [Event.isOf])
          exact .executing .flushing hexecution.polled hrecord
      | pollRaised hpoll =>
          refine hquiet rfl (hraised ?_) hexecution hrecord
          simp only [uncancelled, Oracle.uncancelled, hpoll, Bool.and_eq_true] at hcancel
          exact hcancel.2
      | stepRaised hpc => simp at hpc
  | sleeping =>
      cases h with
      | slept => exact hquiet rfl .polling hexecution hrecord
      | stepRaised => exact hquiet rfl (hraised (hraises rfl)) hexecution hrecord
  | flushing =>
      cases h with
      | @flushedError o _ _ _ hresult =>
          refine Standing.unsaid rfl (.ended rfl (hexecution.failed hresult) ?_)
          apply Recorded.completed
          exact hrecord.of_getJob (getJob_attributed s o run _ run.jobId)
      | @flushed o _ _ _ hresult =>
          apply hquiet rfl .nextCell (hexecution.passed hresult)
          exact hrecord.of_getJob (getJob_attributed s o run _ run.jobId)
      | stepRaised => exact hquiet rfl (hraised (hraises rfl)) hexecution hrecord
  | @jobRaised r error stage herror hstage =>
      cases h with
      | failed =>
          apply Standing.said (by simp [Event.isOf])
          exact .ended rfl (hexecution.raised hstage) hrecord.completed
      | cancelled hnot =>
          rw [herror] at hnot
          cases hnot
      | stepRaised hpc => simp at hpc

/-- What a job of the notebook does when it moves. -/
theorem standing_move (hs : Steady s nb r k) (ht : Runs s nb t run pc)
    (h : RunStep s t run r l pc n) (hcancel : s.uncancelled l = true)
    (hstanding : Standing s.ledger k run history pc) :
    ∃ es, n.state.events = s.events ++ es ∧
      Standing n.state.ledger k run (history ++ es.filter (Event.isOf run.jobId)) n.pc := by
  cases hstanding with
  | waiting hpc hhistory hrecord =>
      subst hhistory
      cases h with
      | begun => exact Standing.unsaid rfl (.waiting hpc rfl hrecord)
      | called => exact Standing.unsaid rfl (.waiting (Nat.le_succ 2) rfl hrecord)
      | found => exact Standing.unsaid rfl (.waiting (Nat.le_succ 2) rfl hrecord)
      | live => exact Standing.unsaid rfl (.waiting (Nat.le_succ 2) rfl hrecord)
      | inside h =>
          cases h with
          | acquired => exact Standing.unsaid rfl (.executing .locked .start hrecord)
          | enqueued => exact Standing.unsaid rfl (.waiting le_rfl rfl hrecord)
          | woken => exact Standing.unsaid rfl (.executing .locked .start hrecord)
          | abandoned herror => simp [uncancelled, herror] at hcancel
          | stepRaised hpc' =>
              rcases hpc' with ⟨_, _, rfl⟩ | ⟨_, rfl⟩ | ⟨_, _, rfl⟩ | ⟨_, _, rfl⟩ | ⟨_, _, rfl⟩ |
                ⟨-, _, _, _, rfl⟩ <;> simp [Pc.rank, Pc.holds] at hpc
          | _ => simp [Pc.rank, Pc.holds] at hpc
  | executing hreaches hexecution hrecord =>
      cases h with
      | inside h =>
          refine h.executes hreaches hexecution hrecord ?_ hcancel
          intro r' hr'
          rw [hs.uses ht.1 ht.2 hr']
          exact hs.held.kernelId
      | _ => cases hreaches
  | ended hpc hexecution hrecord =>
      cases h with
      | inside h =>
          cases h with
          | finished => exact Standing.unsaid rfl (.ended rfl hexecution hrecord)
          | stepRaised hpc' =>
              rcases hpc' with ⟨_, _, rfl⟩ | ⟨_, rfl⟩ | ⟨_, _, rfl⟩ | ⟨_, _, rfl⟩ | ⟨_, _, rfl⟩ |
                ⟨-, _, _, _, rfl⟩ <;> cases hpc
          | _ => cases hpc
      | _ => cases hpc

/-- The record of a job outlives the steps of other tasks. -/
theorem recorded_kept (hs : Steady s nb r k) (hinv : ServerInv s) (hl : Indexed s.ledger)
    (h : StepCase s l s') (ht : Runs s nb t run pc) (hmover : s.mover l ≠ some t)
    (hrecord : Recorded s.ledger run uids) : Recorded s'.ledger run uids := by
  rcases hinv.jobs.job_change h run.jobId with
    hsame | ⟨t', op, pc', n, ht', hmove, -, hmover', hchange⟩
  · exact hrecord.of_getJob hsame
  · have hother : ∀ run', op = .runJob run' → run.jobId ≠ run'.jobId := by
      rintro run' rfl hj
      cases hinv.jobs.once ht.1 ht' hj
      exact hmover hmover'
    obtain ⟨job, hjob, hname, huids, hactive⟩ := hrecord
    generalize hafter : s'.ledger.getJob run.jobId = after at hchange
    cases hchange with
    | forgets hforgets =>
        rw [hjob] at hforgets
        exact ⟨job, hafter.trans (hforgets.of_active hactive), hname, huids, hactive⟩
    | @evicted r' rest stopped hpc =>
        subst hpc
        have hnotifies : s.notifies l = some r' := by rw [notifies, moving_eq hmover' ht']
        have hne : job.notebookId ≠ (s.room r').notebookId := by
          rw [hname, ht.2]
          exact (hs.stops ht' rfl).symm
        have hkept := getJob_notified hl h hnotifies run.jobId
        rw [hafter, hjob] at hkept
        simp [Option.filter, hne] at hkept
    | created hj => exact absurd hj (hinv.jobs.handedOut ht.1).ne
    | written hop hj => exact absurd hj (hother _ hop)
    | answered hop hpc =>
        subst hop hpc
        cases hs.answers ht'
    | put hop hj => exact absurd hj (hother _ hop)

/-- What the ledger says of a job that has ended stays. -/
theorem recordedAs_kept {status : JobStatus} (hs : Steady s nb r k) (hinv : ServerInv s)
    (h : StepCase s l s') (ht : Runs s nb t run pc) (hmover : s.mover l ≠ some t)
    (hrecord : RecordedAs s.ledger run uids status) : RecordedAs s'.ledger run uids status := by
  intro job hjob
  rcases hinv.jobs.job_change_of_kept h ht.1 hmover hjob with
    hold | ⟨old, r', value, actor, nb', t', o, ht', -⟩
  · exact hrecord job hold
  · cases hs.answers ht'

theorem standing_kept (hs : Steady s nb r k) (hinv : ServerInv s) (hl : Indexed s.ledger)
    (h : StepCase s l s') (ht : Runs s nb t run pc) (hmover : s.mover l ≠ some t)
    (hstanding : Standing s.ledger k run history pc) : Standing s'.ledger k run history pc := by
  cases hstanding with
  | waiting hpc hhistory hrecord =>
      exact .waiting hpc hhistory (recorded_kept hs hinv hl h ht hmover hrecord)
  | executing hreaches hexecution hrecord =>
      exact .executing hreaches hexecution (recorded_kept hs hinv hl h ht hmover hrecord)
  | ended hpc hexecution hrecord =>
      exact .ended hpc hexecution (recordedAs_kept hs hinv h ht hmover hrecord)

end Server

end Hypernote
