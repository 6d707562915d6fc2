import Mathlib.Data.List.Basic
import Mathlib.Data.List.Sort
/-!
# Positions in a sorted list

A stable sort puts before an element what is strictly smaller, and what is equal and came before it.
So the elements that a cut leaves out of the sorted list are known without sorting.
-/

namespace Hypernote.Foundation

variable {α : Type}

/-- In a list that is sorted strictly, an element is as far as there are elements before it. -/
theorem countP_of_pairwise {R : α → α → Bool} {pre post : List α} {x : α}
    (hirrefl : ∀ a, R a a = false) (hasymm : ∀ a b, R a b = true → R b a = false)
    (hsorted : (pre ++ x :: post).Pairwise (R · · = true)) :
    (pre ++ x :: post).countP (R · x) = pre.length := by
  obtain ⟨-, hpost, hpre⟩ := List.pairwise_append.mp hsorted
  have hbefore : pre.countP (R · x) = pre.length :=
    List.countP_eq_length.mpr fun a ha => hpre a ha x (List.mem_cons_self ..)
  have hafter : post.countP (R · x) = 0 := by
    refine List.countP_eq_zero.mpr fun a ha => ?_
    rw [hasymm x a (List.rel_of_pairwise_cons hpost ha)]
    exact Bool.false_ne_true
  rw [List.countP_append, List.countP_cons, hbefore, hafter, hirrefl x]
  rfl

/-- An element is dropped from a list that is sorted strictly if enough elements are before it. -/
theorem mem_drop_of_pairwise {R : α → α → Bool} {xs : List α} {x : α}
    (hirrefl : ∀ a, R a a = false) (hasymm : ∀ a b, R a b = true → R b a = false)
    (hsorted : xs.Pairwise (R · · = true)) (n : Nat) :
    x ∈ xs.drop n ↔ x ∈ xs ∧ n ≤ xs.countP (R · x) := by
  constructor
  · intro h
    obtain ⟨pre, post, heq⟩ := List.append_of_mem h
    have hxs : xs = (xs.take n ++ pre) ++ x :: post := by
      rw [List.append_assoc, ← heq, List.take_append_drop]
    have hlen : n ≤ xs.length := by
      by_contra hlt
      rw [List.drop_eq_nil_of_le (by omega)] at h
      cases h
    refine ⟨List.mem_of_mem_drop h, ?_⟩
    rw [hxs] at hsorted
    have hcount := countP_of_pairwise hirrefl hasymm hsorted
    rw [← hxs] at hcount
    rw [hcount, List.length_append, List.length_take]
    omega
  · rintro ⟨h, hn⟩
    obtain ⟨pre, post, rfl⟩ := List.append_of_mem h
    rw [countP_of_pairwise hirrefl hasymm hsorted] at hn
    rw [List.drop_append_of_le_length hn]
    exact List.mem_append_right _ (List.mem_cons_self ..)

section

variable (le : α → α → Bool)

/-- Of two elements, each with its place in the list, the first is before the second in the sorted
list. -/
def sortsBefore (p q : α × Nat) : Bool := le p.1 q.1 && (!le q.1 p.1 || p.2 < q.2)

variable {le}

theorem sortsBefore_irrefl (p : α × Nat) : sortsBefore le p p = false := by
  cases h : le p.1 p.1 <;> simp [sortsBefore, h]

theorem sortsBefore_asymm (p q : α × Nat) (h : sortsBefore le p q = true) :
    sortsBefore le q p = false := by
  simp only [sortsBefore, Bool.and_eq_true, Bool.or_eq_true, Bool.not_eq_true',
    decide_eq_true_eq] at h
  rw [sortsBefore, h.1]
  rcases h.2 with hle | hlt
  · rw [hle]
    rfl
  · simp [Nat.le_of_lt hlt]

variable (htrans : ∀ a b c, le a b → le b c → le a c) (htotal : ∀ a b, le a b || le b a)
include htrans htotal

theorem pairwise_sortsBefore (xs : List α) :
    (xs.zipIdx.mergeSort (List.zipIdxLE le)).Pairwise (sortsBefore le · · = true) := by
  have hsorted := List.pairwise_mergeSort (List.zipIdxLE_trans htrans) (List.zipIdxLE_total htotal)
    xs.zipIdx
  have hplaces : (xs.zipIdx.mergeSort (List.zipIdxLE le)).Pairwise (fun p q => p.2 ≠ q.2) := by
    have hnodup : (xs.zipIdx.map Prod.snd).Nodup := by
      rw [List.zipIdx_map_snd]
      exact List.nodup_range'
    exact (List.mergeSort_perm _ _).pairwise_iff (fun h => Ne.symm h) |>.mpr
      (List.pairwise_map.mp hnodup)
  refine (hsorted.and hplaces).imp fun {p q} ⟨hle, hne⟩ => ?_
  simp only [List.zipIdxLE] at hle
  split at hle
  · rename_i hpq
    rw [sortsBefore, hpq, Bool.true_and]
    split at hle
    · rename_i hqp
      have hlt : p.2 < q.2 := lt_of_le_of_ne (of_decide_eq_true hle) hne
      simp [hlt]
    · rename_i hqp
      simp [hqp]
  · cases hle

/-- What compares equal stays in an order in which the list was. -/
theorem pairwise_mergeSort_stable {R : α → α → Prop} {xs : List α} (h : xs.Pairwise R) :
    (xs.mergeSort le).Pairwise fun a b => le a b = true ∧ (le b a = true → R a b) := by
  induction xs with
  | nil => simp
  | cons x xs ih =>
      obtain ⟨hx, hxs⟩ := List.pairwise_cons.mp h
      obtain ⟨pre, post, hsort, hrest, hpre⟩ := List.mergeSort_cons htrans htotal x xs
      have hsorted := List.pairwise_mergeSort htrans htotal (x :: xs)
      have hmem : ∀ b ∈ pre ++ post, b ∈ xs := by
        intro b hb
        rw [← hrest] at hb
        exact List.mem_mergeSort.mp hb
      rw [hsort] at hsorted ⊢
      have ih := ih hxs
      rw [hrest] at ih
      obtain ⟨hpres, hposts, hcross⟩ := List.pairwise_append.mp ih
      refine List.pairwise_append.mpr ⟨hpres, List.pairwise_cons.mpr ⟨?_, hposts⟩, ?_⟩
      · intro b hb
        refine ⟨?_, fun _ => hx b (hmem b (List.mem_append_right pre hb))⟩
        exact (List.pairwise_cons.mp (List.pairwise_append.mp hsorted).2.1).1 b hb
      · intro a ha b hb
        rcases List.mem_cons.mp hb with rfl | hb
        · have hnot : le b a = false := by simpa using hpre a ha
          have hle : le a b = true := by simpa [hnot] using htotal a b
          exact ⟨hle, fun h => absurd (hnot.symm.trans h) Bool.false_ne_true⟩
        · exact hcross a ha b hb

/-- What a cut leaves out of a list that is sorted stably. -/
theorem forall_mem_drop_mergeSort (xs : List α) (n : Nat) (P : α → Prop) :
    (∀ x ∈ (xs.mergeSort le).drop n, ¬ P x) ↔
      ∀ p ∈ xs.zipIdx, P p.1 → xs.zipIdx.countP (sortsBefore le · p) < n := by
  have hsorted := pairwise_sortsBefore htrans htotal xs
  have hperm := List.mergeSort_perm xs.zipIdx (List.zipIdxLE le)
  have hdrop := fun p => mem_drop_of_pairwise (x := p) sortsBefore_irrefl sortsBefore_asymm hsorted n
  rw [← List.mergeSort_zipIdx, ← List.map_drop, List.forall_mem_map]
  simp only [hdrop, hperm.mem_iff, hperm.countP_eq]
  constructor
  · intro h p hp hP
    by_contra hn
    exact h p ⟨hp, Nat.le_of_not_lt hn⟩ hP
  · rintro h p ⟨hp, hn⟩ hP
    exact absurd (h p hp hP) (Nat.not_lt.mpr hn)

end

end Hypernote.Foundation
