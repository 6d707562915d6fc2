import Mathlib.Logic.Function.Basic
/-!
# Guarded runs of a transition system

An event loop is a partial function `step` from a state and a label to the next
state.  A label is everything the environment decides in that step.  `Run step G`
collects the runs all of whose steps satisfy a guard `G` on the state before the
step and its label: an assumption about the environment, or the condition under
which a defect stays out of reach, is such a guard.  Nothing here mentions a
particular program.
-/

namespace Hypernote.Foundation

variable {σ Λ : Type}

/-- A guard that admits every step. -/
def anyStep (_ : σ) (_ : Λ) : Prop := True

/-- `Run step G s t`: some sequence of steps leads from `s` to `t`, and each of
them satisfies `G`. -/
inductive Run (step : σ → Λ → Option σ) (G : σ → Λ → Prop) (s : σ) : σ → Prop
  | refl : Run step G s s
  | tail {t u : σ} {l : Λ} : Run step G s t → G t l → step t l = some u → Run step G s u

namespace Run

variable {step : σ → Λ → Option σ} {G H : σ → Λ → Prop} {s t u : σ}

theorem trans (hst : Run step G s t) (htu : Run step G t u) : Run step G s u := by
  induction htu with
  | refl => exact hst
  | tail _ hg hstep ih => exact .tail ih hg hstep

theorem single {l : Λ} (hg : G s l) (h : step s l = some t) : Run step G s t :=
  .tail .refl hg h

theorem mono (hGH : ∀ s l, G s l → H s l) (h : Run step G s t) : Run step H s t := by
  induction h with
  | refl => exact .refl
  | tail _ hg hstep ih => exact .tail ih (hGH _ _ hg) hstep

theorem weaken (h : Run step G s t) : Run step anyStep s t :=
  h.mono fun _ _ _ => trivial

/-- The induction rule: what every admitted step preserves holds along a run. -/
theorem invariant {I : σ → Prop} (h : Run step G s t) (h₀ : I s)
    (hstep : ∀ s l t, I s → G s l → step s l = some t → I t) : I t := by
  induction h with
  | refl => exact h₀
  | tail _ hg hs ih => exact hstep _ _ _ ih hg hs

/-- The induction rule relative to an invariant that is already known to hold along the run. -/
theorem invariant_of {J I : σ → Prop} (h : Run step G s t)
    (hJ : ∀ t, Run step G s t → J t) (h₀ : I s)
    (hstep : ∀ s l t, J s → J t → I s → G s l → step s l = some t → I t) : I t := by
  induction h with
  | refl => exact h₀
  | tail hr hg hs ih => exact hstep _ _ _ (hJ _ hr) (hJ _ (.tail hr hg hs)) ih hg hs

end Run

/-! ## What is observed of a run -/

/-- The machine that keeps, beside its state, what has been observed of its steps. -/
def observed {β : Type} (step : σ → Λ → Option σ) (obs : σ → Λ → List β) :
    σ × List β → Λ → Option (σ × List β)
  | (s, os), l => (step s l).map fun t => (t, os ++ obs s l)

section Observed

variable {β : Type} {step : σ → Λ → Option σ} {obs : σ → Λ → List β} {G : σ → Λ → Prop}
  {s : σ} {os : List β}

theorem observed_eq_some {p : σ × List β} {l : Λ} :
    observed step obs (s, os) l = some p ↔ ∃ t, step s l = some t ∧ p = (t, os ++ obs s l) := by
  rw [observed, Option.map_eq_some_iff]
  exact exists_congr fun t => and_congr_right fun _ => eq_comm

/-- An observed run is a run. -/
theorem Run.of_observed {p : σ × List β}
    (h : Run (observed step obs) (fun p => G p.1) (s, os) p) : Run step G s p.1 := by
  induction h with
  | refl => exact .refl
  | tail _ hg hstep ih =>
      obtain ⟨t, ht, rfl⟩ := observed_eq_some.mp hstep
      exact .tail ih hg ht

end Observed

/-- Run a list of labels. -/
def exec (step : σ → Λ → Option σ) : σ → List Λ → Option σ
  | s, [] => some s
  | s, l :: ls => (step s l).bind fun t => exec step t ls

/-- An executed schedule is a run. -/
theorem run_of_exec {step : σ → Λ → Option σ} {s t : σ} {ls : List Λ}
    (h : exec step s ls = some t) : Run step anyStep s t := by
  induction ls generalizing s with
  | nil =>
      simp only [exec, Option.some.injEq] at h
      exact h ▸ .refl
  | cons l ls ih =>
      simp only [exec, Option.bind_eq_some_iff] at h
      obtain ⟨u, hu, ht⟩ := h
      exact (Run.single trivial hu).trans (ih ht)

/-- Every step of a schedule satisfies a decidable guard. -/
def guardedBy (step : σ → Λ → Option σ) (G : σ → Λ → Prop) [∀ s l, Decidable (G s l)] :
    σ → List Λ → Bool
  | _, [] => true
  | s, l :: ls => decide (G s l) && ((step s l).elim true fun t => guardedBy step G t ls)

/-- An executed schedule all of whose steps satisfy `G` is a guarded run. -/
theorem guarded_run_of_exec {step : σ → Λ → Option σ} {G : σ → Λ → Prop}
    [∀ s l, Decidable (G s l)] {s t : σ} {ls : List Λ}
    (h : exec step s ls = some t) (hg : guardedBy step G s ls = true) : Run step G s t := by
  induction ls generalizing s with
  | nil =>
      simp only [exec, Option.some.injEq] at h
      exact h ▸ .refl
  | cons l ls ih =>
      simp only [exec, Option.bind_eq_some_iff] at h
      obtain ⟨u, hu, ht⟩ := h
      simp only [guardedBy, hu, Option.elim_some, Bool.and_eq_true, decide_eq_true_eq] at hg
      exact (Run.single hg.1 hu).trans (ih ht hg.2)

/-- A schedule that can be executed to a state satisfying `P` shows that one is reachable. -/
theorem exists_run_of_exec {step : σ → Λ → Option σ} {s : σ} {ls : List Λ} {P : σ → Prop}
    [DecidablePred P] (h : (exec step s ls).any P = true) : ∃ t, Run step anyStep s t ∧ P t := by
  cases ht : exec step s ls with
  | none => simp [ht] at h
  | some t =>
      rw [ht] at h
      exact ⟨t, run_of_exec ht, of_decide_eq_true h⟩

theorem exists_guarded_run_of_exec {step : σ → Λ → Option σ} {G : σ → Λ → Prop}
    [∀ s l, Decidable (G s l)] {s : σ} {ls : List Λ} {P : σ → Prop} [DecidablePred P]
    (hg : guardedBy step G s ls = true) (h : (exec step s ls).any P = true) :
    ∃ t, Run step G s t ∧ P t := by
  cases ht : exec step s ls with
  | none => simp [ht] at h
  | some t =>
      rw [ht] at h
      exact ⟨t, guarded_run_of_exec ht hg, of_decide_eq_true h⟩

end Hypernote.Foundation
