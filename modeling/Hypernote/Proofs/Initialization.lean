import Hypernote.Extension
import Mathlib.Tactic.SplitIfs
/-!
# One initialization for all callers

The body runs once, and its outcome is stored before the event is set.  All callers agree on it as
long as nobody calls after the last step of the body has raised: the orchestrator is stored by then,
and a caller looks for it before it looks for the error.
-/

namespace Hypernote

open Foundation

variable {ε : Type}

namespace Extension

/-- The orchestrator and an error are both stored. -/
def HalfDone (ext : Extension ε) : Prop := ext.orchestrator.isSome ∧ ext.initError.isSome

instance (ext : Extension ε) : Decidable ext.HalfDone := inferInstanceAs (Decidable (_ ∧ _))

/-- What the body has ended with is stored. -/
inductive Settled (ext : Extension ε) : InitOutcome ε → Prop
  | returned {orchestrator : Nat} (horchestrator : ext.orchestrator = some orchestrator)
      (herror : ext.initError = none) : Settled ext (.returned orchestrator)
  | raised {error : ε} (herror : ext.initError = some error) : Settled ext (.raised error)

theorem Settled.afterWait {ext : Extension ε} {outcome : InitOutcome ε}
    (h : ext.Settled outcome) : ext.afterWait = .done outcome := by
  unfold Extension.afterWait
  cases h with
  | returned horchestrator herror => simp [herror, getOrchestrator, horchestrator]
  | raised herror => simp [herror]

/-- The steps that follow the awaits of the body. -/
inductive Segment : InitStep → List InitStep → Prop
  | ledger : Segment .initializeLedger initSteps.tail
  | gcLoop : Segment .startGcLoop
      [.createNotebookAccessor, .createOrchestrator, .storeSetting, .installInterruptIntercept]

/-- While the body runs nothing is stored. -/
def starting : Extension ε := ⟨some false, none, none⟩

/-- A resumed body is suspended once more with nothing stored, or ends and stores its outcome. -/
inductive Resumed : Extension ε × InitPc ε → Prop
  | suspended {step : InitStep} {rest : List InitStep} (h : Segment step rest) :
      Resumed (starting, .initializing step rest)
  | ended {ext : Extension ε} {outcome : InitOutcome ε} (hevent : ext.initEvent = some true)
      (h : ext.Settled outcome) : Resumed (ext, .done outcome)

theorem resumed_fail (ext : Extension ε) (error : ε) : Resumed (ext.fail error) :=
  .ended rfl (.raised rfl)

theorem runInit_cons_raised {raises : InitStep → Option ε} {body : Nat} {step : InitStep}
    {rest : List InitStep} {ext : Extension ε} {error : ε} (hsync : step.isAwait = false)
    (h : raises step = some error) : runInit raises body (step :: rest) ext = ext.fail error := by
  rw [runInit, hsync, if_neg Bool.false_ne_true, h]

theorem runInit_cons_none {raises : InitStep → Option ε} {body : Nat} {step : InitStep}
    {rest : List InitStep} {ext : Extension ε} (hsync : step.isAwait = false)
    (h : raises step = none) :
    runInit raises body (step :: rest) ext = runInit raises body rest (ext.perform body step) := by
  rw [runInit, hsync, if_neg Bool.false_ne_true, h]

/-- Steps without an await: one of them raises, or what follows them runs. -/
theorem resumed_runInit_cons {raises : InitStep → Option ε} {body : Nat} {step : InitStep}
    {rest : List InitStep} {ext : Extension ε} (hsync : step.isAwait = false)
    (hrest : Resumed (runInit raises body rest (ext.perform body step))) :
    Resumed (runInit raises body (step :: rest) ext) := by
  cases h : raises step with
  | some error =>
      rw [runInit_cons_raised hsync h]
      exact resumed_fail ext error
  | none =>
      rw [runInit_cons_none hsync h]
      exact hrest

theorem resumed_of_segment (raises : InitStep → Option ε) (body : Nat) {step : InitStep}
    {rest : List InitStep} (h : Segment step rest) :
    Resumed (starting.resumeInit raises body step rest) := by
  unfold resumeInit
  cases hraised : raises step with
  | some error => exact resumed_fail starting error
  | none =>
      cases h with
      | ledger =>
          apply resumed_runInit_cons rfl
          apply resumed_runInit_cons rfl
          apply resumed_runInit_cons rfl
          apply resumed_runInit_cons rfl
          apply resumed_runInit_cons rfl
          exact .suspended .gcLoop
      | gcLoop =>
          apply resumed_runInit_cons rfl
          apply resumed_runInit_cons rfl
          apply resumed_runInit_cons rfl
          apply resumed_runInit_cons rfl
          exact .ended rfl (.returned rfl rfl)

end Extension

namespace InitState

/-- Where the callers are and what is stored. -/
inductive Phase (s : InitState ε) : Prop
  | fresh (h : s = start)
  | running {i : Nat} {step : InitStep} {rest : List InitStep} (hbodies : s.bodies = 1)
      (hext : s.ext = .starting) (hsegment : Extension.Segment step rest)
      (hi : s.callers[i]? = some (.initializing step rest))
      (hothers : ∀ j, j ≠ i → ∀ pc, s.callers[j]? = some pc → pc = .waiting)
  | settled {outcome : InitOutcome ε} (hbodies : s.bodies = 1)
      (hevent : s.ext.initEvent = some true) (hsettled : s.ext.Settled outcome)
      (hdone : .done outcome ∈ s.callers)
      (hcallers : ∀ pc ∈ s.callers, pc = .waiting ∨ pc = .done outcome)

/-- A call while both are stored. -/
def CallsHalfDone (s : InitState ε) : InitLabel ε → Prop
  | .call _ => s.ext.HalfDone
  | _ => False

instance (s : InitState ε) (l : InitLabel ε) : Decidable (s.CallsHalfDone l) :=
  match l with
  | .call _ => inferInstanceAs (Decidable s.ext.HalfDone)
  | .resume _ _ => .isFalse id
  | .wake _ => .isFalse id

theorem step_call (s : InitState ε) (raises : InitStep → Option ε) :
    s.step (.call raises) =
      some ⟨(s.ext.ensureInitialized raises s.bodies).1,
        s.callers ++ [(s.ext.ensureInitialized raises s.bodies).2],
        if s.ext.isFirst then s.bodies + 1 else s.bodies⟩ := rfl

theorem step_resume {s : InitState ε} {i : Nat} {step : InitStep} {rest : List InitStep}
    (h : s.callers[i]? = some (.initializing step rest)) (raises : InitStep → Option ε) :
    s.step (.resume i raises) =
      some ⟨(s.ext.resumeInit raises (s.bodies - 1) step rest).1,
        s.callers.set i (s.ext.resumeInit raises (s.bodies - 1) step rest).2, s.bodies⟩ := by
  rw [InitState.step, h]

/-- Only a caller that runs the body is resumed. -/
theorem initializing_of_resume {s s' : InitState ε} {i : Nat} {raises : InitStep → Option ε}
    (h : s.step (.resume i raises) = some s') :
    ∃ step rest, s.callers[i]? = some (.initializing step rest) := by
  rw [InitState.step] at h
  split at h
  · exact ⟨_, _, ‹_›⟩
  · cases h

theorem phase_resume {s s' : InitState ε} {i : Nat} {raises : InitStep → Option ε}
    (h : s.Phase) (hstep : s.step (.resume i raises) = some s') : s'.Phase := by
  obtain ⟨step, rest, hpc⟩ := initializing_of_resume hstep
  rw [step_resume hpc] at hstep
  cases h with
  | fresh h =>
      subst h
      cases hpc
  | @running i' step' rest' hbodies hext hsegment hi hothers =>
      have hsame : i = i' := by
        by_contra hne
        cases hothers i hne _ hpc
      subst hsame
      rw [hi] at hpc
      cases hpc
      have hlt := (List.getElem?_eq_some_iff.mp hi).1
      have hresumed := Extension.resumed_of_segment raises (s.bodies - 1) hsegment
      rw [hext] at hstep
      generalize Extension.starting.resumeInit raises (s.bodies - 1) step rest = result
        at hresumed hstep
      obtain rfl := Option.some.inj hstep
      cases hresumed with
      | suspended h =>
          refine .running hbodies rfl h (List.getElem?_set_self hlt) fun j hj pc hpc => ?_
          exact hothers j hj pc (by rwa [List.getElem?_set_ne hj.symm] at hpc)
      | @ended ext outcome hevent h =>
          refine .settled hbodies hevent h (List.mem_set hlt _) fun pc hpc => ?_
          obtain ⟨j, hpc⟩ := List.mem_iff_getElem?.mp hpc
          by_cases hj : j = i
          · subst hj
            rw [List.getElem?_set_self hlt] at hpc
            exact .inr (Option.some.inj hpc).symm
          · rw [List.getElem?_set_ne (Ne.symm hj)] at hpc
            exact .inl (hothers j hj pc hpc)
  | settled _ _ _ _ hcallers =>
      rcases hcallers _ (List.mem_of_getElem? hpc) with hwaiting | hdone
      · cases hwaiting
      · cases hdone

theorem phase_wake {s s' : InitState ε} {i : Nat} (h : s.Phase)
    (hstep : s.step (.wake i) = some s') : s'.Phase := by
  rw [step] at hstep
  split at hstep
  case h_2 => cases hstep
  case h_1 hpc =>
      split_ifs at hstep with hevent
      obtain rfl := Option.some.inj hstep
      cases h with
      | fresh h =>
          subst h
          cases hpc
      | running _ hext =>
          rw [hext] at hevent
          cases hevent
      | @settled outcome hbodies hevent hsettled hdone hcallers =>
          have hcaller (pc : InitPc ε)
              (hpc : pc ∈ s.callers.set i s.ext.afterWait) : pc = .waiting ∨ pc = .done outcome := by
            rcases List.mem_or_eq_of_mem_set hpc with hpc | rfl
            · exact hcallers pc hpc
            · exact .inr hsettled.afterWait
          refine .settled hbodies hevent hsettled ?_ hcaller
          obtain ⟨j, hj⟩ := List.mem_iff_getElem?.mp hdone
          have hne : i ≠ j := by
            rintro rfl
            rw [hpc] at hj
            cases hj
          exact List.mem_iff_getElem?.mpr ⟨j, by rw [List.getElem?_set_ne hne, hj]⟩

theorem phase_call {s s' : InitState ε} {raises : InitStep → Option ε} (h : s.Phase)
    (hwhole : ¬ s.ext.HalfDone) (hstep : s.step (.call raises) = some s') : s'.Phase := by
  rw [step_call] at hstep
  cases h with
  | fresh h =>
      subst h
      cases hstep
      refine .running rfl rfl .ledger (i := 0) rfl fun j hj pc hpc => ?_
      rw [List.getElem?_eq_none (Nat.one_le_iff_ne_zero.mpr hj)] at hpc
      cases hpc
  | running hbodies hext hsegment hi hothers =>
      have hlt := (List.getElem?_eq_some_iff.mp hi).1
      rw [hext] at hstep
      cases hstep
      refine .running hbodies rfl hsegment ((List.getElem?_append_left hlt).trans hi)
        fun j hj pc hpc => ?_
      rw [List.getElem?_append] at hpc
      split_ifs at hpc with hold
      · exact hothers j hj pc hpc
      · exact List.mem_singleton.mp (List.mem_of_getElem? hpc)
  | @settled outcome hbodies hevent hsettled hdone hcallers =>
      have hcall : s.ext.ensureInitialized raises s.bodies = (s.ext, .done outcome) ∧
          s.ext.isFirst = false := by
        unfold Extension.ensureInitialized Extension.isFirst
        cases hsettled with
        | returned horchestrator herror => simp [horchestrator]
        | raised herror =>
            have hnone : s.ext.orchestrator = none := by
              by_contra hsome
              exact hwhole ⟨Option.isSome_iff_ne_none.mpr hsome, by rw [herror]; rfl⟩
            simp [hnone, herror]
      rw [hcall.1, hcall.2] at hstep
      cases hstep
      refine .settled hbodies hevent hsettled (List.mem_append_left _ hdone) fun pc hpc => ?_
      rcases List.mem_append.mp hpc with hold | hnew
      · exact hcallers pc hold
      · exact .inr (List.mem_singleton.mp hnew)

theorem phase_step {s s' : InitState ε} {l : InitLabel ε} (h : s.Phase)
    (hguard : ¬ s.CallsHalfDone l) (hstep : s.step l = some s') : s'.Phase := by
  cases l with
  | call raises => exact phase_call h hguard hstep
  | resume i raises => exact phase_resume h hstep
  | wake i => exact phase_wake h hstep

/-! ## The outcome of all callers -/

/-- The body has run once at most, and all callers that have ended have returned with one
orchestrator, or have raised one exception. -/
def Agreed (s : InitState ε) : Prop :=
  s.bodies ≤ 1 ∧
    ((∃ orchestrator, ∀ outcome, .done outcome ∈ s.callers → outcome = .returned orchestrator) ∨
      ∃ error, ∀ outcome, .done outcome ∈ s.callers → outcome = .raised error)

/-- A caller that waits can go on, or the body still runs. -/
def Attended (s : InitState ε) : Prop :=
  .waiting ∈ s.callers →
    s.ext.initEvent = some true ∨ ∃ step rest, .initializing step rest ∈ s.callers

theorem Phase.attended {s : InitState ε} (h : s.Phase) : s.Attended := by
  intro hwaiting
  cases h with
  | fresh h =>
      subst h
      cases hwaiting
  | running _ _ _ hi => exact .inr ⟨_, _, List.mem_of_getElem? hi⟩
  | settled _ hevent => exact .inl hevent

theorem Phase.agreed {s : InitState ε} (h : s.Phase) : s.Agreed := by
  cases h with
  | fresh h =>
      subst h
      exact ⟨Nat.zero_le 1, .inl ⟨0, fun _ hdone => nomatch hdone⟩⟩
  | @running i step rest hbodies _ _ hi hothers =>
      refine ⟨Nat.le_of_eq hbodies, .inl ⟨0, fun outcome hdone => ?_⟩⟩
      obtain ⟨j, hj⟩ := List.mem_iff_getElem?.mp hdone
      by_cases hsame : j = i
      · rw [hsame, hi] at hj
        cases hj
      · cases hothers j hsame _ hj
  | @settled outcome hbodies _ hsettled _ hcallers =>
      have hall (outcome' : InitOutcome ε) (hdone : .done outcome' ∈ s.callers) :
          outcome' = outcome := by
        rcases hcallers _ hdone with hwaiting | hsame
        · cases hwaiting
        · exact InitPc.done.inj hsame
      cases hsettled with
      | returned => exact ⟨Nat.le_of_eq hbodies, .inl ⟨_, hall⟩⟩
      | raised => exact ⟨Nat.le_of_eq hbodies, .inr ⟨_, hall⟩⟩

theorem phase_run {s : InitState ε} (h : Run step (fun s l => ¬ s.CallsHalfDone l) start s) :
    s.Phase :=
  h.invariant (.fresh rfl) fun _ _ _ hphase hguard => phase_step hphase hguard

/-- A caller that comes while both are stored returns, and the first one has raised. -/
theorem not_agreed_of_halfDone {s s' : InitState ε} {raises : InitStep → Option ε} (h : s.Phase)
    (hhalf : s.ext.HalfDone) (hstep : s.step (.call raises) = some s') : ¬ s'.Agreed := by
  obtain ⟨horchestrator, herror⟩ := hhalf
  obtain ⟨orchestrator, horchestrator⟩ := Option.isSome_iff_exists.mp horchestrator
  have hcall : s.ext.ensureInitialized raises s.bodies =
      (s.ext, .done (.returned orchestrator)) := by
    rw [Extension.ensureInitialized, horchestrator]
  rw [step_call, hcall] at hstep
  cases hstep
  rintro ⟨-, hagreed⟩
  cases h with
  | fresh h =>
      subst h
      cases herror
  | running _ hext =>
      rw [hext] at herror
      cases herror
  | settled _ _ hsettled hdone =>
      cases hsettled with
      | returned _ hnone =>
          rw [hnone] at herror
          cases herror
      | raised =>
          rcases hagreed with ⟨_, hall⟩ | ⟨_, hall⟩
          · cases hall _ (List.mem_append_left _ hdone)
          · cases hall _ (List.mem_append_right _ List.mem_cons_self)

/-- All callers agree as long as nobody calls while both the orchestrator and an error are stored,
and such a call ends it. -/
theorem callers_agree {s : InitState ε}
    (h : Run step (fun s l => ¬ s.CallsHalfDone l) start s) :
    s.Agreed ∧ s.Attended ∧ ∀ raises s', s.step (.call raises) = some s' →
      (s'.Agreed ↔ ¬ s.ext.HalfDone) := by
  have hphase := phase_run h
  refine ⟨hphase.agreed, hphase.attended, fun raises s' hstep => ⟨fun hagreed hhalf => ?_, ?_⟩⟩
  · exact not_agreed_of_halfDone hphase hhalf hstep hagreed
  · exact fun hwhole => (phase_call hphase hwhole hstep).agreed

section Schedules

/-- Only this step raises. -/
private def raisesAt (step : InitStep) : InitStep → Option String :=
  fun s => if s = step then some "RuntimeError" else none

/-- Two callers at the same time, and one after the body has ended. -/
theorem missing_extension_raised_by_all :
    ∃ s : InitState String, s.callers = List.replicate 3 (.done (.raised "RuntimeError")) ∧
      s.Agreed := by
  obtain ⟨s, hrun, hcallers⟩ :=
    @exists_guarded_run_of_exec _ _ step (fun s l => ¬ s.CallsHalfDone l) _ start
      [.call (raisesAt .ydocExtension), .call (raisesAt .ydocExtension),
        .resume 0 (raisesAt .ydocExtension), .wake 1, .call (raisesAt .ydocExtension)]
      (fun s => s.callers = List.replicate 3 (.done (.raised "RuntimeError")))
      _ (by decide) (by decide)
  exact ⟨s, hcallers, (callers_agree hrun).1⟩

/-- The override of the routes raises: the first two callers raise, and the third one returns. -/
theorem failed_override_hidden_later :
    ∃ s : InitState String, Run step anyStep start s ∧
      s.callers = [.done (.raised "RuntimeError"), .done (.raised "RuntimeError"),
        .done (.returned 0)] ∧ ¬ s.Agreed := by
  obtain ⟨s, hrun, hcallers⟩ :=
    @exists_run_of_exec _ _ step start
      [.call (raisesAt .installInterruptIntercept), .call (raisesAt .installInterruptIntercept),
        .resume 0 (raisesAt .installInterruptIntercept),
        .resume 0 (raisesAt .installInterruptIntercept), .wake 1,
        .call (raisesAt .installInterruptIntercept)]
      (fun s => s.callers = [.done (.raised "RuntimeError"), .done (.raised "RuntimeError"),
        .done (.returned 0)])
      _ (by decide)
  refine ⟨s, hrun, hcallers, ?_⟩
  rintro ⟨-, ⟨_, hall⟩ | ⟨_, hall⟩⟩
  · cases hall (.raised "RuntimeError") (hcallers ▸ List.mem_cons_self)
  · cases hall (.returned 0) (hcallers ▸ by decide)

end Schedules

end InitState

end Hypernote
