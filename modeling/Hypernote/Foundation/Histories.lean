import Mathlib.Data.List.Basic
/-!
# Orders in a history

A history is the list of what has happened, oldest first.  These are the things that are said about
the order in it: that one kind of event comes after another, that one closes it, that one is the
latest since something was cut off, and that one comes after nothing but events of another kind.
-/

namespace Hypernote.Foundation

variable {ε : Type} {first later final : ε → Prop} {es fs : List ε}

/-- Every event of the second kind comes after one of the first kind. -/
def Follows (first later : ε → Prop) (es : List ε) : Prop :=
  ∀ pre e post, es = pre ++ e :: post → later e → ∃ e' ∈ pre, first e'

/-- One event of the kind has happened, and it is the last. -/
def EndsOnce (final : ε → Prop) (es : List ε) : Prop :=
  ∃ pre e, es = pre ++ [e] ∧ final e ∧ ∀ e' ∈ pre, ¬ final e'

theorem Follows.of_none (h : ∀ e ∈ es, ¬ later e) : Follows first later es := by
  rintro pre e post rfl hlater
  exact absurd hlater (h e (List.mem_append_right _ (List.mem_cons_self ..)))

theorem follows_append_iff :
    Follows first later (es ++ fs) ↔ Follows first later es ∧
      ∀ pre e post, fs = pre ++ e :: post → later e → ∃ e' ∈ es ++ pre, first e' := by
  constructor
  · intro h
    refine ⟨fun pre e post heq => h pre e (post ++ fs) ?_, fun pre e post heq => ?_⟩
    · rw [heq, List.append_assoc, List.cons_append]
    · apply h (es ++ pre) e post
      rw [heq, List.append_assoc]
  · rintro ⟨hes, hfs⟩ pre e post heq hlater
    rcases List.append_eq_append_iff.mp heq with ⟨mid, rfl, hrest⟩ | ⟨mid, hpre, hrest⟩
    · exact hfs mid e post hrest hlater
    · cases mid with
      | nil =>
          rw [List.append_nil] at hpre
          obtain ⟨e', hmem, hfirst⟩ := hfs [] e post hrest.symm hlater
          rw [List.append_nil, hpre] at hmem
          exact ⟨e', hmem, hfirst⟩
      | cons e' mid =>
          rw [List.cons_append, List.cons.injEq] at hrest
          exact hes pre e mid (hrest.1 ▸ hpre) hlater

/-- What happens next keeps an order where the event that must come first has happened. -/
theorem Follows.append (h : Follows first later es)
    (hnew : ∀ e ∈ fs, later e → ∃ e' ∈ es, first e') : Follows first later (es ++ fs) := by
  refine follows_append_iff.mpr ⟨h, fun pre e post heq hlater => ?_⟩
  obtain ⟨e', hmem, hfirst⟩ :=
    hnew e (heq ▸ List.mem_append_right _ (List.mem_cons_self ..)) hlater
  exact ⟨e', List.mem_append_left _ hmem, hfirst⟩

/-- Where nothing of the first kind happens next, it must have happened before. -/
theorem follows_append_iff_of_none (hfs : ∀ e ∈ fs, ¬ first e) :
    Follows first later (es ++ fs) ↔
      Follows first later es ∧ ((∃ e ∈ fs, later e) → ∃ e' ∈ es, first e') := by
  constructor
  · rw [follows_append_iff]
    rintro ⟨hes, hnew⟩
    refine ⟨hes, fun ⟨e, he, hlater⟩ => ?_⟩
    obtain ⟨pre, post, rfl⟩ := List.append_of_mem he
    obtain ⟨e', hmem, hfirst⟩ := hnew pre e post rfl hlater
    rcases List.mem_append.mp hmem with hmem | hmem
    · exact ⟨e', hmem, hfirst⟩
    · exact absurd hfirst (hfs e' (List.mem_append_left _ hmem))
  · rintro ⟨hes, hnew⟩
    exact hes.append fun e he hlater => hnew ⟨e, he, hlater⟩

theorem endsOnce_concat (hes : ∀ e ∈ es, ¬ final e) {e : ε} (he : final e) :
    EndsOnce final (es ++ [e]) :=
  ⟨es, e, rfl, he, hes⟩

/-- The first events have the last one among them just when they are all. -/
theorem EndsOnce.exists_take_iff (h : EndsOnce final es) (n : Nat) :
    (∃ e ∈ es.take n, final e) ↔ es.length ≤ n := by
  obtain ⟨pre, e, rfl, he, hpre⟩ := h
  rw [List.length_append, List.length_singleton]
  constructor
  · rintro ⟨e', hmem, hfinal⟩
    by_contra hlt
    rw [List.take_append_of_le_length (by omega)] at hmem
    exact hpre e' (List.mem_of_mem_take hmem) hfinal
  · intro hle
    rw [List.take_of_length_le (by simpa using hle)]
    exact ⟨e, List.mem_append_right _ (List.mem_singleton_self e), he⟩

/-- What is left of a history of which the last event is kept ends as it did. -/
theorem EndsOnce.filter {keeps : ε → Bool} (h : EndsOnce final es)
    (hkept : ∀ e, final e → keeps e = true) : EndsOnce final (es.filter keeps) := by
  obtain ⟨pre, e, rfl, he, hpre⟩ := h
  rw [List.filter_append, List.filter_cons_of_pos (hkept e he), List.filter_nil]
  exact endsOnce_concat (fun e' hmem => hpre e' (List.mem_of_mem_filter hmem)) he

/-! ## Since the last cut -/

/-- Every event of the kind has been cut off. -/
def NoneSince (cut kind : ε → Prop) (es : List ε) : Prop :=
  ∀ pre e post, es = pre ++ e :: post → kind e → ∃ e' ∈ post, cut e'

/-- The event is the latest of its kind, and has not been cut off. -/
def LatestSince (cut kind : ε → Prop) (e : ε) (es : List ε) : Prop :=
  ∃ pre post, es = pre ++ e :: post ∧ kind e ∧ ∀ e' ∈ post, ¬ kind e' ∧ ¬ cut e'

section

variable {cut kind : ε → Prop} {e x : ε}

theorem noneSince_nil : NoneSince cut kind [] := by
  intro pre e post heq
  cases pre <;> cases heq

/-- The splits of a history by what has happened last. -/
theorem concat_eq_append_cons {pre post : List ε} (h : es ++ [x] = pre ++ e :: post) :
    post = [] ∧ pre = es ∧ e = x ∨ ∃ rest, post = rest ++ [x] ∧ es = pre ++ e :: rest := by
  rcases List.eq_nil_or_concat post with rfl | ⟨rest, y, rfl⟩
  · obtain ⟨hes, hx⟩ := List.append_inj' h rfl
    exact .inl ⟨rfl, hes.symm, (List.singleton_inj.mp hx).symm⟩
  · rw [List.concat_eq_append] at h ⊢
    rw [← List.cons_append, ← List.append_assoc] at h
    obtain ⟨hes, hx⟩ := List.append_inj' h rfl
    exact .inr ⟨rest, by rw [List.singleton_inj.mp hx], hes⟩

theorem NoneSince.imp {kind' : ε → Prop} (h : NoneSince cut kind es)
    (himp : ∀ e, kind' e → kind e) : NoneSince cut kind' es :=
  fun pre e post heq he => h pre e post heq (himp e he)

theorem noneSince_concat_of_cut (hcut : cut x) (hkind : ¬ kind x) :
    NoneSince cut kind (es ++ [x]) := by
  intro pre e post heq he
  rcases concat_eq_append_cons heq with ⟨-, -, rfl⟩ | ⟨rest, rfl, -⟩
  · exact absurd he hkind
  · exact ⟨x, List.mem_append_right _ (List.mem_singleton_self x), hcut⟩

theorem NoneSince.concat (h : NoneSince cut kind es) (hkind : ¬ kind x) :
    NoneSince cut kind (es ++ [x]) := by
  intro pre e post heq he
  rcases concat_eq_append_cons heq with ⟨-, -, rfl⟩ | ⟨rest, rfl, hes⟩
  · exact absurd he hkind
  · obtain ⟨e', hmem, hcut⟩ := h pre e rest hes he
    exact ⟨e', List.mem_append_left _ hmem, hcut⟩

theorem latestSince_concat (hkind : kind x) : LatestSince cut kind x (es ++ [x]) :=
  ⟨es, [], rfl, hkind, fun e' he' => by cases he'⟩

theorem LatestSince.concat (h : LatestSince cut kind e es) (hkind : ¬ kind x) (hcut : ¬ cut x) :
    LatestSince cut kind e (es ++ [x]) := by
  obtain ⟨pre, post, rfl, he, hpost⟩ := h
  refine ⟨pre, post ++ [x], by rw [List.append_assoc, List.cons_append], he, ?_⟩
  intro e' he'
  rcases List.mem_append.mp he' with he' | he'
  · exact hpost e' he'
  · exact List.mem_singleton.mp he' ▸ ⟨hkind, hcut⟩

theorem LatestSince.not_noneSince (h : LatestSince cut kind e es) : ¬ NoneSince cut kind es := by
  obtain ⟨pre, post, rfl, he, hpost⟩ := h
  intro hnone
  obtain ⟨e', hmem, hcut⟩ := hnone pre e post rfl he
  exact (hpost e' hmem).2 hcut

end

/-- An event of the kind comes after none but events that are passed over. -/
def Reaches (passed kind : ε → Prop) (es : List ε) : Prop :=
  ∃ pre e post, es = pre ++ e :: post ∧ kind e ∧ ∀ e' ∈ pre, passed e'

section

variable {passed kind : ε → Prop}

theorem not_reaches_nil : ¬ Reaches passed kind [] := by
  rintro ⟨pre, e, post, heq, -⟩
  cases pre <;> cases heq

theorem reaches_cons {e : ε} :
    Reaches passed kind (e :: es) ↔ kind e ∨ passed e ∧ Reaches passed kind es := by
  constructor
  · rintro ⟨pre, e', post, heq, hkind, hpre⟩
    cases pre with
    | nil =>
        cases heq
        exact .inl hkind
    | cons _ pre =>
        cases heq
        rw [List.forall_mem_cons] at hpre
        exact .inr ⟨hpre.1, pre, e', post, rfl, hkind, hpre.2⟩
  · rintro (hkind | ⟨hpassed, pre, e', post, rfl, hkind, hpre⟩)
    · exact ⟨[], e, es, rfl, hkind, fun e' he' => by cases he'⟩
    · exact ⟨e :: pre, e', post, rfl, hkind, List.forall_mem_cons.mpr ⟨hpassed, hpre⟩⟩

end

end Hypernote.Foundation
