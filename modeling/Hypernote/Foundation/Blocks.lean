import Mathlib.Data.List.Basic
/-!
# Histories made of blocks

Several sources append to one history.  When no element of a later source stands before one
of an earlier source, what the sources have appended is the concatenation of what each of
them has.
-/

namespace Hypernote.Foundation

variable {α ι : Type} {p q : α → Bool} {l : List α}

/-- No element of the second kind stands before one of the first. -/
def Precedes (p q : α → Bool) (l : List α) : Prop :=
  l.Pairwise fun a b => q a = true → p b = false

namespace Precedes

theorem nil : Precedes p q [] := List.Pairwise.nil

theorem of_forall (h : ∀ a ∈ l, ∀ b ∈ l, q a = true → p b = false) : Precedes p q l :=
  List.pairwise_of_forall_mem_list h

theorem of_none (h : ∀ a ∈ l, q a = false) : Precedes p q l :=
  of_forall fun a ha _ _ hq => by simp [h a ha] at hq

/-- Elements that are appended come after all of the second kind only if there are none. -/
theorem append {new : List α} (h : Precedes p q l)
    (hlast : (∃ b ∈ new, p b = true) → ∀ a ∈ l, q a = false)
    (hnew : Precedes p q new) : Precedes p q (l ++ new) := by
  refine List.pairwise_append.mpr ⟨h, hnew, ?_⟩
  intro a ha b hb hq
  by_contra hp
  rw [hlast ⟨b, hb, by simpa using hp⟩ a ha] at hq
  cases hq

theorem filter_or (h : Precedes p q l) (hdisjoint : ∀ a ∈ l, p a = true → q a = false) :
    l.filter (fun a => p a || q a) = l.filter p ++ l.filter q := by
  induction l with
  | nil => rfl
  | cons a l ih =>
      obtain ⟨hfirst, hrest⟩ := List.pairwise_cons.mp h
      have ih := ih hrest fun b hb => hdisjoint b (List.mem_cons_of_mem a hb)
      cases hp : p a with
      | true =>
          have hq := hdisjoint a List.mem_cons_self hp
          simp [hp, hq, ih]
      | false =>
          cases hq : q a with
          | true =>
              have hnone : l.filter p = [] := by
                apply List.filter_eq_nil_iff.mpr
                intro b hb
                rw [hfirst b hb hq]
                exact Bool.false_ne_true
              simp [hp, hq, ih, hnone]
          | false => simp [hp, hq, ih]

end Precedes

/-- What the sources in `keys` have appended is the concatenation of their blocks. -/
theorem filter_any_eq_flatMap {keys : List ι} {p : ι → α → Bool}
    (horder : keys.Pairwise fun i j => Precedes (p i) (p j) l)
    (hdisjoint : keys.Pairwise fun i j => ∀ a ∈ l, p i a = true → p j a = false) :
    l.filter (fun a => keys.any (p · a)) = keys.flatMap fun i => l.filter (p i) := by
  induction keys with
  | nil => simp
  | cons i keys ih =>
      obtain ⟨hfirst, horder⟩ := List.pairwise_cons.mp horder
      obtain ⟨hother, hdisjoint⟩ := List.pairwise_cons.mp hdisjoint
      have hafter : Precedes (p i) (fun a => keys.any (p · a)) l := by
        apply List.pairwise_iff_forall_sublist.mpr
        intro a b hab hany
        obtain ⟨j, hj, hja⟩ := List.any_eq_true.mp hany
        exact List.pairwise_iff_forall_sublist.mp (hfirst j hj) hab hja
      simp only [List.any_cons, List.flatMap_cons]
      rw [hafter.filter_or, ih horder hdisjoint]
      intro a ha hi
      apply List.any_eq_false.mpr
      intro j hj
      rw [hother j hj a ha hi]
      exact Bool.false_ne_true

end Hypernote.Foundation
