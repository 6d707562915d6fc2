import Mathlib.Data.List.Forall2
/-!
# Lists that correspond item by item

What is known of one of two such lists, its parts and its members, is known of the other one.
-/

namespace Hypernote.Foundation

variable {α β : Type} {R : α → β → Prop} {xs ys : List α} {zs : List β}

theorem exists_of_forall₂_append (h : List.Forall₂ R (xs ++ ys) zs) :
    ∃ us vs, zs = us ++ vs ∧ List.Forall₂ R xs us ∧ List.Forall₂ R ys vs := by
  have htake := List.forall₂_take xs.length h
  have hdrop := List.forall₂_drop xs.length h
  rw [List.take_left] at htake
  rw [List.drop_left] at hdrop
  exact ⟨_, _, (List.take_append_drop xs.length zs).symm, htake, hdrop⟩

theorem exists_of_forall₂_middle {x : α} (h : List.Forall₂ R (xs ++ x :: ys) zs) :
    ∃ us z vs, zs = us ++ z :: vs ∧ List.Forall₂ R xs us ∧ R x z ∧ List.Forall₂ R ys vs := by
  obtain ⟨us, rest, rfl, hus, hrest⟩ := exists_of_forall₂_append h
  obtain ⟨z, vs, hz, hvs, rfl⟩ := List.forall₂_cons_left_iff.mp hrest
  exact ⟨us, z, vs, rfl, hus, hz, hvs⟩

theorem forall₂_mem (h : List.Forall₂ R xs zs) :
    (∀ x ∈ xs, ∃ z ∈ zs, R x z) ∧ ∀ z ∈ zs, ∃ x ∈ xs, R x z := by
  induction h with
  | nil => exact ⟨fun x hx => (List.not_mem_nil hx).elim, fun y hy => (List.not_mem_nil hy).elim⟩
  | @cons x y xs ys hxy _ ih =>
      refine ⟨List.forall_mem_cons.mpr ⟨⟨y, List.mem_cons_self, hxy⟩, fun x' hx' => ?_⟩,
        List.forall_mem_cons.mpr ⟨⟨x, List.mem_cons_self, hxy⟩, fun y' hy' => ?_⟩⟩
      · obtain ⟨y', hy', hxy'⟩ := ih.1 x' hx'
        exact ⟨y', List.mem_cons_of_mem _ hy', hxy'⟩
      · obtain ⟨x', hx', hxy'⟩ := ih.2 y' hy'
        exact ⟨x', List.mem_cons_of_mem _ hx', hxy'⟩

end Hypernote.Foundation
