import Mathlib.Data.List.Nodup
import Mathlib.Data.List.Basic
/-!
# Insertion-ordered dictionaries

A dictionary whose iteration order is the order in which its keys were first
inserted: overwriting a key keeps its place, a new key goes to the end.  That
keys are distinct is a field, so lookups need no side condition.
-/

namespace Hypernote.Foundation

/-- A finite map with an insertion order. -/
structure Dict (κ ν : Type) where
  entries : List (κ × ν)
  nodup : (entries.map Prod.fst).Nodup

namespace Dict

variable {κ ν : Type} [DecidableEq κ]

def empty : Dict κ ν := ⟨[], List.nodup_nil⟩

def keys (d : Dict κ ν) : List κ := d.entries.map Prod.fst

def values (d : Dict κ ν) : List ν := d.entries.map Prod.snd

private def find (k : κ) : List (κ × ν) → Option ν
  | [] => none
  | (k', v) :: rest => if k' = k then some v else find k rest

private def put (k : κ) (v : ν) : List (κ × ν) → List (κ × ν)
  | [] => [(k, v)]
  | (k', v') :: rest => if k' = k then (k, v) :: rest else (k', v') :: put k v rest

def get? (d : Dict κ ν) (k : κ) : Option ν := find k d.entries

private theorem map_fst_put (k : κ) (v : ν) (es : List (κ × ν)) :
    (put k v es).map Prod.fst =
      if k ∈ es.map Prod.fst then es.map Prod.fst else es.map Prod.fst ++ [k] := by
  induction es with
  | nil => simp [put]
  | cons e rest ih =>
      obtain ⟨k', v'⟩ := e
      by_cases hk : k' = k
      · simp [put, hk]
      · have hk' : k ≠ k' := fun h => hk h.symm
        simp only [put, if_neg hk, List.map_cons, ih, List.mem_cons, hk', false_or]
        split <;> simp

private theorem nodup_put (k : κ) (v : ν) (es : List (κ × ν))
    (h : (es.map Prod.fst).Nodup) : ((put k v es).map Prod.fst).Nodup := by
  rw [map_fst_put]
  split
  · exact h
  · rename_i hk
    exact List.nodup_append.mpr ⟨h, List.nodup_singleton k, by
      intro a ha b hb
      rw [List.mem_singleton] at hb
      exact fun hab => hk (hb ▸ hab ▸ ha)⟩

/-- Insert or overwrite. -/
def set (d : Dict κ ν) (k : κ) (v : ν) : Dict κ ν :=
  ⟨put k v d.entries, nodup_put k v d.entries d.nodup⟩

/-- Remove the entries whose key is rejected. -/
def filterKeys (d : Dict κ ν) (p : κ → Bool) : Dict κ ν :=
  ⟨d.entries.filter fun e => p e.1,
    d.nodup.sublist (List.Sublist.map Prod.fst List.filter_sublist)⟩

/-- Remove one key; a missing key is no error. -/
def erase (d : Dict κ ν) (k : κ) : Dict κ ν := d.filterKeys fun k' => decide (k' ≠ k)

@[simp] theorem get?_empty (k : κ) : (empty : Dict κ ν).get? k = none := rfl

private theorem find_put (k k' : κ) (v : ν) (es : List (κ × ν)) :
    find k' (put k v es) = if k' = k then some v else find k' es := by
  induction es with
  | nil =>
      by_cases h : k = k'
      · simp [put, find, h]
      · simp [put, find, h, Ne.symm h]
  | cons e rest ih =>
      obtain ⟨a, b⟩ := e
      by_cases ha : a = k
      · subst ha
        by_cases hk : a = k'
        · simp [put, find, hk]
        · simp [put, find, hk, Ne.symm hk]
      · by_cases hk : a = k'
        · subst hk
          simp [put, find, ha]
        · simp [put, find, ha, hk, ih]

theorem get?_set (d : Dict κ ν) (k k' : κ) (v : ν) :
    (d.set k v).get? k' = if k' = k then some v else d.get? k' :=
  find_put k k' v d.entries

@[simp] theorem get?_set_self (d : Dict κ ν) (k : κ) (v : ν) : (d.set k v).get? k = some v := by
  rw [get?_set, if_pos rfl]

theorem get?_set_of_ne (d : Dict κ ν) {k k' : κ} (v : ν) (h : k' ≠ k) :
    (d.set k v).get? k' = d.get? k' := by
  rw [get?_set, if_neg h]

private theorem find_filter (p : κ → Bool) (k : κ) (es : List (κ × ν)) :
    find k (es.filter fun e => p e.1) = if p k then find k es else none := by
  induction es with
  | nil => simp [find]
  | cons e rest ih =>
      obtain ⟨a, b⟩ := e
      by_cases hpa : p a = true
      · rw [List.filter_cons_of_pos (by simpa using hpa)]
        by_cases hak : a = k
        · subst hak
          simp [find, hpa]
        · simp only [find, if_neg hak, ih]
      · rw [List.filter_cons_of_neg (by simpa using hpa), ih]
        by_cases hak : a = k
        · subst hak
          simp [hpa]
        · simp only [find, if_neg hak]

theorem get?_filterKeys (d : Dict κ ν) (p : κ → Bool) (k : κ) :
    (d.filterKeys p).get? k = if p k then d.get? k else none :=
  find_filter p k d.entries

private theorem find_isSome (k : κ) (es : List (κ × ν)) :
    (find k es).isSome = true ↔ k ∈ es.map Prod.fst := by
  induction es with
  | nil => simp [find]
  | cons e rest ih =>
      obtain ⟨a, b⟩ := e
      by_cases h : a = k
      · simp [find, h]
      · simp only [find, if_neg h, ih, List.map_cons, List.mem_cons, Ne.symm h, false_or]

theorem mem_keys {d : Dict κ ν} {k : κ} : k ∈ d.keys ↔ (d.get? k).isSome = true :=
  (find_isSome k d.entries).symm

theorem get?_eq_some_iff {d : Dict κ ν} {k : κ} {v : ν} :
    d.get? k = some v ↔ (k, v) ∈ d.entries := by
  obtain ⟨entries, hnodup⟩ := d
  rw [get?]
  induction entries with
  | nil => simp [find]
  | cons e rest ih =>
      obtain ⟨a, b⟩ := e
      rw [List.map_cons, List.nodup_cons] at hnodup
      have hrest := ih hnodup.2
      by_cases hak : a = k
      · subst hak
        have hnot : (a, v) ∉ rest := fun h => hnodup.1 (List.mem_map.mpr ⟨(a, v), h, rfl⟩)
        simp [find, hnot, eq_comm]
      · simp only [find, if_neg hak, List.mem_cons, Prod.mk.injEq, Ne.symm hak, false_and, false_or]
        exact hrest

private theorem put_of_not_mem {k : κ} (v : ν) {es : List (κ × ν)} (h : k ∉ es.map Prod.fst) :
    put k v es = es ++ [(k, v)] := by
  induction es with
  | nil => rfl
  | cons e rest ih =>
      obtain ⟨a, b⟩ := e
      rw [List.map_cons, List.mem_cons, not_or] at h
      rw [put, if_neg (Ne.symm h.1), ih h.2]
      rfl

/-- A new key goes to the end. -/
theorem entries_set_of_not_mem {d : Dict κ ν} {k : κ} (v : ν) (h : k ∉ d.keys) :
    (d.set k v).entries = d.entries ++ [(k, v)] :=
  put_of_not_mem v h

theorem keys_set (d : Dict κ ν) (k : κ) (v : ν) :
    (d.set k v).keys = if k ∈ d.keys then d.keys else d.keys ++ [k] :=
  map_fst_put k v d.entries

omit [DecidableEq κ] in
theorem keys_filterKeys (d : Dict κ ν) (p : κ → Bool) : (d.filterKeys p).keys = d.keys.filter p :=
  (List.filter_map ..).symm

theorem mem_values {d : Dict κ ν} {v : ν} : v ∈ d.values ↔ ∃ k, d.get? k = some v := by
  constructor
  · intro h
    obtain ⟨⟨k, v'⟩, hmem, rfl⟩ := List.mem_map.mp h
    exact ⟨k, get?_eq_some_iff.mpr hmem⟩
  · rintro ⟨k, h⟩
    exact List.mem_map.mpr ⟨(k, v), get?_eq_some_iff.mp h, rfl⟩

end Dict

/-- What is left of a list keeps its keys in their order. -/
theorem map_filterMap_sublist {α β γ : Type} {f : α → Option β} {g : β → γ} {k : α → γ}
    (hf : ∀ a b, f a = some b → g b = k a) (as : List α) :
    ((as.filterMap f).map g).Sublist (as.map k) := by
  induction as with
  | nil => exact List.Sublist.refl _
  | cons a as ih =>
      rw [List.filterMap_cons]
      cases hfa : f a with
      | none => exact ih.cons _
      | some b =>
          rw [List.map_cons, List.map_cons, hf a b hfa]
          exact ih.cons_cons _

/-- An association list finds every entry where no key is there twice. -/
theorem lookup_of_nodup {κ ν : Type} [BEq κ] [LawfulBEq κ] {entries : List (κ × ν)}
    (h : (entries.map Prod.fst).Nodup) {entry : κ × ν} (hmem : entry ∈ entries) :
    entries.lookup entry.1 = some entry.2 := by
  induction entries with
  | nil => cases hmem
  | cons head entries ih =>
      rw [List.map_cons, List.nodup_cons] at h
      rw [List.lookup_cons]
      rcases List.mem_cons.mp hmem with rfl | hmem
      · rw [beq_self_eq_true]
      · have hne : (entry.1 == head.1) = false := by
          rw [beq_eq_false_iff_ne]
          intro heq
          exact h.1 (heq ▸ List.mem_map_of_mem hmem)
        rw [hne]
        exact ih h.2 hmem

end Hypernote.Foundation
