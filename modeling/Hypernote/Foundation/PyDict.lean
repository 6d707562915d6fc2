import Mathlib.Data.List.Induction
import Mathlib.Data.List.Pairwise
/-!
# Dicts whose keys are compared by an equality of their own

A dict finds a key by `==`, which may hold of keys that are written differently.  Setting an item
keeps the key that is there and replaces its value.
-/

namespace Hypernote.Foundation

namespace PyDict

variable {κ ν : Type}

/-- `key == key'`, an equivalence of the keys. -/
structure KeyEq (same : κ → κ → Bool) : Prop where
  refl : ∀ k, same k k = true
  symm : ∀ {k k'}, same k k' = true → same k' k = true
  trans : ∀ {k k' k''}, same k k' = true → same k' k'' = true → same k k'' = true

section

variable (same : κ → κ → Bool)

/-- `d[key] = value`. -/
def setItem (k : κ) (v : ν) : List (κ × ν) → List (κ × ν)
  | [] => [(k, v)]
  | (k', v') :: d => if same k' k then (k', v) :: d else (k', v') :: setItem k v d

/-- `{key: value for ...}`. -/
def ofPairs (pairs : List (κ × ν)) : List (κ × ν) :=
  pairs.foldl (fun d p => setItem same p.1 p.2 d) []

/-- `d.get(key)`. -/
def get? (d : List (κ × ν)) (k : κ) : Option ν := (d.find? fun p => same p.1 k).map Prod.snd

/-- No two keys are equal. -/
def Distinct (d : List (κ × ν)) : Prop := d.Pairwise fun p q => same p.1 q.1 = false

end

variable {same : κ → κ → Bool}

theorem KeyEq.symm_false (hsame : KeyEq same) {k k' : κ} (h : same k k' = false) :
    same k' k = false := by
  by_contra hne
  rw [Bool.not_eq_false] at hne
  rw [hsame.symm hne] at h
  cases h

/-- Equal keys are equal to the same keys. -/
theorem KeyEq.congr_left (hsame : KeyEq same) {k k' k'' : κ} (h : same k k' = true) :
    same k k'' = same k' k'' := by
  rw [Bool.eq_iff_iff]
  exact ⟨hsame.trans (hsame.symm h), hsame.trans h⟩

theorem exists_mem_setItem {k k' : κ} {v v' : ν} {d : List (κ × ν)}
    (h : (k', v') ∈ setItem same k v d) : k' = k ∨ ∃ v'', (k', v'') ∈ d := by
  induction d with
  | nil =>
      obtain rfl : k' = k := congrArg Prod.fst (List.mem_singleton.mp h)
      exact .inl rfl
  | cons p d ih =>
      rw [setItem] at h
      split at h
      · rcases List.mem_cons.mp h with heq | hmem
        · obtain rfl : k' = p.1 := congrArg Prod.fst heq
          exact .inr ⟨p.2, List.mem_cons_self⟩
        · exact .inr ⟨v', List.mem_cons_of_mem _ hmem⟩
      · rcases List.mem_cons.mp h with heq | hmem
        · exact .inr ⟨v', heq ▸ List.mem_cons_self⟩
        · rcases ih hmem with rfl | ⟨v'', hmem⟩
          · exact .inl rfl
          · exact .inr ⟨v'', List.mem_cons_of_mem _ hmem⟩

theorem distinct_setItem {d : List (κ × ν)} (h : Distinct same d) (k : κ)
    (v : ν) : Distinct same (setItem same k v d) := by
  induction d with
  | nil => exact List.pairwise_singleton _ _
  | cons p d ih =>
      obtain ⟨hhead, htail⟩ := List.pairwise_cons.mp h
      rw [setItem]
      cases hk : same p.1 k with
      | true =>
          rw [if_pos rfl]
          exact List.pairwise_cons.mpr ⟨hhead, htail⟩
      | false =>
          rw [if_neg Bool.false_ne_true]
          refine List.pairwise_cons.mpr ⟨?_, ih htail⟩
          rintro ⟨k', v'⟩ hmem
          rcases exists_mem_setItem hmem with rfl | ⟨v'', hmem⟩
          · exact hk
          · exact hhead (k', v'') hmem

/-- What holds of all items after one has been set. -/
theorem forall_mem_setItem (hsame : KeyEq same) {P : κ → ν → Prop}
    (hP : ∀ k k' v, same k k' = true → (P k v ↔ P k' v)) {d : List (κ × ν)}
    (hd : Distinct same d) (k : κ) (v : ν) :
    (∀ p ∈ setItem same k v d, P p.1 p.2) ↔
      P k v ∧ ∀ p ∈ d, same p.1 k = false → P p.1 p.2 := by
  induction d with
  | nil => simp [setItem]
  | cons p d ih =>
      obtain ⟨hhead, htail⟩ := List.pairwise_cons.mp hd
      rw [setItem]
      cases hk : same p.1 k with
      | true =>
          have hrest : ∀ q ∈ d, same q.1 k = false := by
            intro q hq
            apply hsame.symm_false
            rw [← hsame.congr_left hk]
            exact hhead q hq
          rw [if_pos rfl, List.forall_mem_cons, List.forall_mem_cons, hP _ _ _ hk, hk]
          apply and_congr_right
          intro _
          constructor
          · exact fun h => ⟨nofun, fun q hq _ => h q hq⟩
          · exact fun h q hq => h.2 q hq (hrest q hq)
      | false =>
          rw [if_neg Bool.false_ne_true, List.forall_mem_cons, List.forall_mem_cons, ih htail, hk]
          constructor
          · exact fun ⟨hp, hk, hd⟩ => ⟨hk, fun _ => hp, hd⟩
          · exact fun ⟨hk, hp, hd⟩ => ⟨hp rfl, hk, hd⟩

theorem ofPairs_append_singleton (pairs : List (κ × ν)) (p : κ × ν) :
    ofPairs same (pairs ++ [p]) = setItem same p.1 p.2 (ofPairs same pairs) := by
  unfold ofPairs
  rw [List.foldl_append]
  rfl

theorem distinct_ofPairs (pairs : List (κ × ν)) :
    Distinct same (ofPairs same pairs) := by
  induction pairs using List.reverseRecOn with
  | nil => exact List.Pairwise.nil
  | append_singleton pairs p ih =>
      rw [ofPairs_append_singleton]
      exact distinct_setItem ih _ _

theorem get?_setItem (hsame : KeyEq same) (k k' : κ) (v : ν) (d : List (κ × ν)) :
    get? same (setItem same k v d) k' = if same k k' then some v else get? same d k' := by
  induction d with
  | nil =>
      cases hk : same k k' <;> simp [setItem, get?, hk]
  | cons p d ih =>
      unfold get? at ih ⊢
      rw [setItem]
      cases hk : same p.1 k with
      | true =>
          rw [if_pos rfl, List.find?_cons, List.find?_cons]
          dsimp only
          rw [hsame.congr_left hk]
          cases same k k' <;> rfl
      | false =>
          rw [if_neg Bool.false_ne_true, List.find?_cons, List.find?_cons]
          cases hk' : same p.1 k' with
          | true =>
              have hne : same k k' = false := by
                by_contra hkk'
                rw [Bool.not_eq_false] at hkk'
                rw [hsame.trans hk' (hsame.symm hkk')] at hk
                cases hk
              rw [hne]
              rfl
          | false => exact ih

/-- Of several pairs with equal keys the last counts. -/
theorem get?_ofPairs (hsame : KeyEq same) (pairs : List (κ × ν)) (k : κ) :
    get? same (ofPairs same pairs) k =
      (pairs.reverse.find? fun p => same p.1 k).map Prod.snd := by
  induction pairs using List.reverseRecOn with
  | nil => rfl
  | append_singleton pairs p ih =>
      rw [ofPairs_append_singleton, get?_setItem hsame, ih, List.reverse_append,
        List.reverse_singleton, List.singleton_append, List.find?_cons]
      cases same p.1 k <;> rfl

/-- The pairs that no later pair with an equal key replaces. -/
def Last (same : κ → κ → Bool) (pairs : List (κ × ν)) (k : κ) (v : ν) : Prop :=
  ∃ before after, pairs = before ++ (k, v) :: after ∧ ∀ p ∈ after, same k p.1 = false

theorem last_append_singleton {pairs : List (κ × ν)} {p : κ × ν} {k : κ} {v : ν} :
    Last same (pairs ++ [p]) k v ↔
      (k, v) = p ∨ Last same pairs k v ∧ same k p.1 = false := by
  constructor
  · rintro ⟨before, after, heq, hlast⟩
    rcases List.eq_nil_or_concat after with rfl | ⟨after, q, rfl⟩
    · exact .inl (List.append_inj_right' heq rfl |> List.head_eq_of_cons_eq).symm
    · rw [List.concat_eq_append, ← List.cons_append, ← List.append_assoc] at heq
      obtain ⟨heq', hq⟩ := List.append_inj' heq rfl
      obtain rfl := List.head_eq_of_cons_eq hq
      refine .inr ⟨⟨before, after, heq', ?_⟩, hlast _ (by simp)⟩
      exact fun q' hq' => hlast q' (by simp [hq'])
  · rintro (rfl | ⟨⟨before, after, rfl, hlast⟩, hp⟩)
    · exact ⟨pairs, [], rfl, nofun⟩
    · refine ⟨before, after ++ [p], by simp, ?_⟩
      intro q hq
      rcases List.mem_append.mp hq with hq | hq
      · exact hlast q hq
      · exact List.mem_singleton.mp hq ▸ hp

/-- The items of a comprehension are its last pairs, but for how their keys are written. -/
theorem forall_mem_ofPairs_iff (hsame : KeyEq same) {P : κ → ν → Prop}
    (hP : ∀ k k' v, same k k' = true → (P k v ↔ P k' v)) (pairs : List (κ × ν)) :
    (∀ p ∈ ofPairs same pairs, P p.1 p.2) ↔ ∀ k v, Last same pairs k v → P k v := by
  induction pairs using List.reverseRecOn generalizing P with
  | nil =>
      constructor
      · rintro - k v ⟨before, after, heq, -⟩
        simp at heq
      · exact fun _ => nofun
  | append_singleton pairs p ih =>
      have hset := forall_mem_setItem hsame hP (distinct_ofPairs pairs) p.1 p.2
      have hrest := ih (P := fun k v => same k p.1 = false → P k v) fun k k' v h => by
        rw [hsame.congr_left h, hP k k' v h]
      rw [ofPairs_append_singleton, hset, hrest]
      constructor
      · rintro ⟨hp, hd⟩ k v hlast
        rcases last_append_singleton.mp hlast with rfl | ⟨hlast, hk⟩
        · exact hp
        · exact hd k v hlast hk
      · intro h
        refine ⟨h _ _ (last_append_singleton.mpr (.inl rfl)), fun k v hlast hk => ?_⟩
        exact h k v (last_append_singleton.mpr (.inr ⟨hlast, hk⟩))

end PyDict

end Hypernote.Foundation
