import Mathlib.Data.List.Nodup
import Mathlib.Data.List.ReduceOption
import Mathlib.Data.Option.Basic
/-!
# Repeated keys

A pass over a list gives a new key to every item whose key an item before it has.  Items may have no
key.
-/

namespace Hypernote.Foundation

variable {α β κ : Type} {key : α → Option κ} {rekeyed : κ → α → α → Prop}
  {seen : List (Option κ)} {xs xs' pre post : List α} {a : α} {k : κ}

/-- What the pass makes of the items, after items with the keys `seen`; `rekeyed k a b` says that
`b` is `a` under the key `k`.  Whether several items without a key stay so is left open. -/
inductive Renamed (key : α → Option κ) (rekeyed : κ → α → α → Prop) :
    List (Option κ) → List α → List α → Prop
  | nil {seen : List (Option κ)} : Renamed key rekeyed seen [] []
  | kept {seen : List (Option κ)} {a : α} {xs xs' : List α} (h : key a = none ∨ key a ∉ seen)
      (hrest : Renamed key rekeyed (key a :: seen) xs xs') :
      Renamed key rekeyed seen (a :: xs) (a :: xs')
  | renamed {seen : List (Option κ)} {a a' : α} {xs xs' : List α} {k : κ} (h : key a ∈ seen)
      (hnew : some k ∉ seen ∧ some k ∉ xs.map key) (hkey : key a' = some k)
      (ha' : rekeyed k a a') (hrest : Renamed key rekeyed (some k :: seen) xs xs') :
      Renamed key rekeyed seen (a :: xs) (a' :: xs')

/-- The keys that there are, in their order. -/
def keysOf (key : α → Option κ) (xs : List α) : List κ := (xs.map key).reduceOption

theorem mem_keysOf : k ∈ keysOf key xs ↔ some k ∈ xs.map key := by
  rw [keysOf, List.reduceOption_mem_iff]

theorem keysOf_congr {β : Type} {key' : β → Option κ} {ys : List β}
    (h : ys.map key' = xs.map key) : keysOf key xs = keysOf key' ys := by
  rw [keysOf, keysOf, h]

theorem nodup_keysOf (h : (xs.map key).Nodup) : (keysOf key xs).Nodup :=
  List.Nodup.filterMap (fun _ _ _ hx hy => hx.trans hy.symm) h

theorem keysOf_cons_none (h : key a = none) : keysOf key (a :: xs) = keysOf key xs := by
  rw [keysOf, List.map_cons, h, List.reduceOption_cons_of_none]
  rfl

theorem keysOf_cons_some (h : key a = some k) : keysOf key (a :: xs) = k :: keysOf key xs := by
  rw [keysOf, List.map_cons, h, List.reduceOption_cons_of_some]
  rfl

theorem map_some_keysOf (h : none ∉ xs.map key) : (keysOf key xs).map some = xs.map key := by
  induction xs with
  | nil => rfl
  | cons a xs ih =>
      rw [List.map_cons, List.mem_cons, not_or] at h
      obtain ⟨k, hk⟩ := Option.ne_none_iff_exists'.mp (Ne.symm h.1)
      rw [keysOf_cons_some hk, List.map_cons, List.map_cons, ih h.2, hk]

namespace Renamed

/-- What an item keeps under a new key is kept by all items. -/
theorem map_eq (h : Renamed key rekeyed seen xs xs') {f : α → β}
    (hf : ∀ k a a', rekeyed k a a' → f a' = f a) : xs'.map f = xs.map f := by
  induction h with
  | nil => rfl
  | kept _ _ ih => exact congrArg (_ :: ·) ih
  | renamed _ _ _ ha' _ ih => exact congrArg₂ List.cons (hf _ _ _ ha') ih

/-- No key is repeated then, and none is one of those seen. -/
theorem nodup (h : Renamed key rekeyed seen xs xs') :
    (keysOf key xs').Nodup ∧ ∀ k ∈ keysOf key xs', some k ∉ seen := by
  induction h with
  | nil => exact ⟨List.nodup_nil, List.forall_mem_nil _⟩
  | @kept seen a xs xs' h _ ih =>
      obtain ⟨hnodup, hseen⟩ := ih
      have hrest : ∀ k ∈ keysOf key xs', some k ∉ seen := fun k hk hmem =>
        hseen k hk (List.mem_cons_of_mem _ hmem)
      cases hkey : key a with
      | none =>
          rw [keysOf_cons_none hkey]
          exact ⟨hnodup, hrest⟩
      | some k =>
          rw [hkey] at h hseen
          rw [keysOf_cons_some hkey, List.nodup_cons, List.forall_mem_cons]
          exact ⟨⟨fun hmem => hseen k hmem List.mem_cons_self, hnodup⟩,
            h.resolve_left (by simp), hrest⟩
  | @renamed seen a a' xs xs' k h hnew hkey _ _ ih =>
      obtain ⟨hnodup, hseen⟩ := ih
      rw [keysOf_cons_some hkey, List.nodup_cons, List.forall_mem_cons]
      exact ⟨⟨fun hmem => hseen k hmem List.mem_cons_self, hnodup⟩, hnew.1,
        fun k hk hmem => hseen k hk (List.mem_cons_of_mem _ hmem)⟩

/-- The first item without a key stays without one. -/
theorem none_mem_iff (h : Renamed key rekeyed seen xs xs') (hseen : none ∉ seen) :
    none ∈ xs'.map key ↔ none ∈ xs.map key := by
  induction h with
  | nil => exact Iff.rfl
  | @kept seen a xs xs' _ _ ih =>
      rw [List.map_cons, List.map_cons, List.mem_cons, List.mem_cons]
      by_cases hkey : none = key a
      · exact iff_of_true (.inl hkey) (.inl hkey)
      · rw [ih (List.not_mem_cons_of_ne_of_not_mem hkey hseen)]
  | @renamed seen a a' xs xs' k h _ hkey _ _ ih =>
      have hne : none ≠ key a := fun heq => hseen (heq ▸ h)
      rw [List.map_cons, List.map_cons, List.mem_cons, List.mem_cons, hkey,
        ih (List.not_mem_cons_of_ne_of_not_mem (Option.some_ne_none k).symm hseen)]
      exact or_congr (iff_of_false (Option.some_ne_none k).symm hne) Iff.rfl

/-- Where every item has a key, all keys are distinct then. -/
theorem map_nodup (h : Renamed key rekeyed seen xs xs') (hseen : none ∉ seen)
    (hnone : none ∉ xs.map key) : (xs'.map key).Nodup := by
  rw [← h.none_mem_iff hseen] at hnone
  rw [← map_some_keysOf hnone]
  exact h.nodup.1.map (Option.some_injective κ)

end Renamed

/-- What maps items to items with the same keys carries the pass over. -/
theorem Renamed.map {key' : β → Option κ} {rekeyed' : κ → β → β → Prop} (f : α → β)
    (hf : ∀ a, key' (f a) = key a) (hrekeyed : ∀ k a a', key a' = some k → rekeyed k a a' →
      rekeyed' k (f a) (f a')) (h : Renamed key rekeyed seen xs xs') :
    Renamed key' rekeyed' seen (xs.map f) (xs'.map f) := by
  induction h with
  | nil => exact .nil
  | kept h _ ih => exact .kept ((hf _).symm ▸ h) ((hf _).symm ▸ ih)
  | @renamed seen a a' xs xs' k h hnew hkey ha' _ ih =>
      have hkeys : (xs.map f).map key' = xs.map key := by
        rw [List.map_map]
        exact List.map_congr_left fun a _ => hf a
      exact .renamed ((hf a).symm ▸ h) (hkeys.symm ▸ hnew) ((hf a').trans hkey)
        (hrekeyed k a a' hkey ha') ih

/-! ## Lists that differ in repeated keys -/

/-- The lists differ in some items, which show the same and are not the first ones with one of the
keys in question. -/
inductive Alike (key : α → Option κ) (shown : α → β) (P : κ → Prop) :
    List (Option κ) → List α → List α → Prop
  | nil {seen : List (Option κ)} : Alike key shown P seen [] []
  | same {seen : List (Option κ)} {a : α} {xs ys : List α}
      (h : Alike key shown P (key a :: seen) xs ys) : Alike key shown P seen (a :: xs) (a :: ys)
  | differ {seen : List (Option κ)} {a b : α} {xs ys : List α} (hab : shown a = shown b)
      (ha : ∀ k, P k → key a = some k → some k ∈ seen)
      (hb : ∀ k, P k → key b = some k → some k ∈ seen) (h : Alike key shown P seen xs ys) :
      Alike key shown P seen (a :: xs) (b :: ys)

namespace Alike

variable {shown : α → β} {P : κ → Prop} {seen' : List (Option κ)} {ys ys' : List α}

theorem refl (seen : List (Option κ)) (xs : List α) : Alike key shown P seen xs xs := by
  induction xs generalizing seen with
  | nil => exact .nil
  | cons a xs ih => exact .same (ih _)

theorem map_eq (h : Alike key shown P seen xs ys) : xs.map shown = ys.map shown := by
  induction h with
  | nil => rfl
  | same _ ih => exact congrArg (_ :: ·) ih
  | differ hab _ _ _ ih => exact congrArg₂ List.cons hab ih

theorem mono (h : Alike key shown P seen xs ys)
    (hsub : ∀ k, P k → some k ∈ seen → some k ∈ seen') : Alike key shown P seen' xs ys := by
  induction h generalizing seen' with
  | nil => exact .nil
  | same _ ih =>
      refine .same (ih fun k hk hmem => ?_)
      rcases List.mem_cons.mp hmem with heq | hmem
      · exact heq ▸ List.mem_cons_self
      · exact List.mem_cons_of_mem _ (hsub k hk hmem)
  | differ hab ha hb _ ih =>
      exact .differ hab (fun k hk hkey => hsub k hk (ha k hk hkey))
        (fun k hk hkey => hsub k hk (hb k hk hkey)) (ih hsub)

/-- Both parts of a list are alike to parts of the other one. -/
theorem append (h : Alike key shown P seen (pre ++ post) ys) :
    ∃ pre' post', ys = pre' ++ post' ∧ pre'.map shown = pre.map shown ∧
      Alike key shown P (pre.map key ++ seen) post post' := by
  induction pre generalizing seen ys with
  | nil => exact ⟨[], ys, rfl, rfl, h⟩
  | cons a pre ih =>
      cases h with
      | same h =>
          obtain ⟨pre', post', rfl, hshown, hpost⟩ := ih h
          refine ⟨a :: pre', post', rfl, congrArg (_ :: ·) hshown, hpost.mono fun k _ hmem => ?_⟩
          simp only [List.map_cons, List.cons_append, List.mem_append, List.mem_cons] at hmem ⊢
          tauto
      | @differ _ _ b _ _ hab _ _ h =>
          obtain ⟨pre', post', rfl, hshown, hpost⟩ := ih h
          exact ⟨b :: pre', post', rfl, congrArg₂ List.cons hab.symm hshown,
            hpost.mono fun k _ hmem => List.mem_cons_of_mem _ hmem⟩

/-- One more item at the same place. -/
theorem insert (h : Alike key shown P seen (pre ++ post) ys) (a : α) :
    ∃ pre' post', ys = pre' ++ post' ∧ pre'.length = pre.length ∧
      Alike key shown P seen (pre ++ a :: post) (pre' ++ a :: post') := by
  induction pre generalizing seen ys with
  | nil =>
      exact ⟨[], ys, rfl, rfl, .same (h.mono fun k _ hmem => List.mem_cons_of_mem _ hmem)⟩
  | cons b pre ih =>
      cases h with
      | same h =>
          obtain ⟨pre', post', rfl, hlength, h'⟩ := ih h
          exact ⟨b :: pre', post', rfl, congrArg Nat.succ hlength, .same h'⟩
      | @differ _ _ b' _ _ hab ha hb h =>
          obtain ⟨pre', post', rfl, hlength, h'⟩ := ih h
          exact ⟨b' :: pre', post', rfl, congrArg Nat.succ hlength, .differ hab ha hb h'⟩

/-- The first items with one of the keys in question are the same. -/
theorem first (h : Alike key shown P seen (pre ++ a :: post) ys) (hk : P k) (ha : key a = some k)
    (hseen : some k ∉ seen) (hpre : ∀ b ∈ pre, key b ≠ some k) :
    ∃ pre' post', ys = pre' ++ a :: post' ∧ pre'.length = pre.length ∧
      ∀ b ∈ pre', key b ≠ some k := by
  induction pre generalizing seen ys with
  | nil =>
      cases h with
      | same _ => exact ⟨[], _, rfl, rfl, List.forall_mem_nil _⟩
      | differ _ hmem _ _ => exact absurd (hmem k hk ha) hseen
  | cons b pre ih =>
      rw [List.forall_mem_cons] at hpre
      cases h with
      | same h =>
          have hseen' := List.not_mem_cons_of_ne_of_not_mem hpre.1.symm hseen
          obtain ⟨pre', post', rfl, hlength, hpre'⟩ := ih h hseen' hpre.2
          exact ⟨b :: pre', post', rfl, congrArg Nat.succ hlength,
            List.forall_mem_cons.mpr ⟨hpre.1, hpre'⟩⟩
      | @differ _ _ b' _ _ _ _ hb h =>
          obtain ⟨pre', post', rfl, hlength, hpre'⟩ := ih h hseen hpre.2
          exact ⟨b' :: pre', post', rfl, congrArg Nat.succ hlength,
            List.forall_mem_cons.mpr ⟨fun hb' => hseen (hb k hk hb'), hpre'⟩⟩

/-- The pass leaves the lists alike, if it makes none of the keys in question. -/
theorem renamed (h : Alike key shown P seen xs ys) (hpass : Renamed key rekeyed seen' ys ys')
    (hshown : ∀ k a a', rekeyed k a a' → shown a = shown a')
    (hseen : ∀ k, P k → some k ∈ seen' → some k ∈ seen)
    (hmade : ∀ k, P k → some k ∈ ys'.map key → some k ∈ seen' ∨ some k ∈ ys.map key) :
    Alike key shown P seen xs ys' := by
  induction hpass generalizing seen xs with
  | nil => exact h
  | @kept seen' b ys ys' _ _ ih =>
      have hmade' : ∀ k, P k → some k ∈ ys'.map key →
          some k ∈ key b :: seen' ∨ some k ∈ ys.map key := by
        intro k hk hmem
        rcases hmade k hk (List.mem_cons_of_mem _ hmem) with hold | hmem
        · exact .inl (List.mem_cons_of_mem _ hold)
        · rcases List.mem_cons.mp hmem with heq | hmem
          · exact .inl (heq ▸ List.mem_cons_self)
          · exact .inr hmem
      cases h with
      | same h =>
          refine .same (ih h (fun k hk hmem => ?_) hmade')
          rcases List.mem_cons.mp hmem with heq | hmem
          · exact heq ▸ List.mem_cons_self
          · exact List.mem_cons_of_mem _ (hseen k hk hmem)
      | differ hab ha hb h =>
          refine .differ hab ha hb (ih h (fun k hk hmem => ?_) hmade')
          rcases List.mem_cons.mp hmem with heq | hmem
          · exact hb k hk heq.symm
          · exact hseen k hk hmem
  | @renamed seen' b b' ys ys' new hmem hnew hkey hb' _ ih =>
      have hold : ∀ k, some k ∈ seen' ∨ some k ∈ key b :: ys.map key →
          some k ∈ seen' ∨ some k ∈ ys.map key := by
        rintro k (hmem' | hmem')
        · exact .inl hmem'
        · rcases List.mem_cons.mp hmem' with heq | hmem'
          · exact .inl (heq ▸ hmem)
          · exact .inr hmem'
      have hnot : ¬ P new := fun hP =>
        (hold new (hmade new hP (List.mem_cons.mpr (.inl hkey.symm)))).elim hnew.1 hnew.2
      have hmade' : ∀ k, P k → some k ∈ ys'.map key →
          some k ∈ some new :: seen' ∨ some k ∈ ys.map key := fun k hk hmem' =>
        (hold k (hmade k hk (List.mem_cons_of_mem _ hmem'))).imp_left (List.mem_cons_of_mem _)
      have hseen' : ∀ k, P k → some k ∈ some new :: seen' → some k ∈ seen := by
        intro k hk hmem'
        rcases List.mem_cons.mp hmem' with heq | hmem'
        · exact absurd (Option.some.inj heq ▸ hk) hnot
        · exact hseen k hk hmem'
      have hb'_new : ∀ k, P k → key b' = some k → some k ∈ seen := by
        intro k hk heq
        exact absurd (Option.some.inj (hkey.symm.trans heq) ▸ hk) hnot
      cases h with
      | same h =>
          have hb : ∀ k, P k → key b = some k → some k ∈ seen := fun k hk heq =>
            hseen k hk (heq ▸ hmem)
          refine .differ (hshown _ _ _ hb') hb hb'_new (ih (h.mono fun k hk hmem' => ?_) hseen' hmade')
          rcases List.mem_cons.mp hmem' with heq | hmem'
          · exact hb k hk heq.symm
          · exact hmem'
      | differ hab ha _ h =>
          exact .differ (hab.trans (hshown _ _ _ hb')) ha hb'_new (ih h hseen' hmade')

end Alike

/-! ## A pass that computes -/

/-- A key that is none of the given ones. -/
class NewKey (κ : Type) where
  newKey : List κ → κ
  newKey_notMem : ∀ keys, newKey keys ∉ keys

/-- All texts in one, after the character. -/
def longerText {γ : Type} (c : γ) (texts : List (List γ)) : List γ := c :: texts.flatten

theorem longerText_notMem {γ : Type} (c : γ) (texts : List (List γ)) :
    longerText c texts ∉ texts := by
  intro hmem
  have hle := (List.sublist_flatten_of_mem hmem).length_le
  rw [longerText, List.length_cons] at hle
  omega

instance : NewKey (List Char) := ⟨longerText '-', longerText_notMem '-'⟩

instance : NewKey String where
  newKey texts := String.ofList (longerText '-' (texts.map String.toList))
  newKey_notMem texts hmem := by
    apply longerText_notMem '-' (texts.map String.toList)
    rw [← String.toList_ofList (l := longerText '-' (texts.map String.toList))]
    exact List.mem_map_of_mem hmem

section

variable [DecidableEq κ] [NewKey κ] (key) (setKey : κ → α → α)

/-- The pass, where an item without a key stays as it is. -/
def renameRepeated : List κ → List α → List α
  | _, [] => []
  | seen, a :: xs =>
      match key a with
      | none => a :: renameRepeated seen xs
      | some k =>
          if k ∈ seen then
            let new := NewKey.newKey (seen ++ keysOf key xs)
            setKey new a :: renameRepeated (new :: seen) xs
          else a :: renameRepeated (k :: seen) xs

variable {key setKey}

/-- The pass renames what is repeated. -/
theorem renamed_renameRepeated (hset : ∀ k a, key (setKey k a) = some k) (xs : List α)
    {seen : List κ} {seen' : List (Option κ)} (hseen : ∀ k, k ∈ seen ↔ some k ∈ seen') :
    Renamed key (fun k a a' => a' = setKey k a) seen' xs (renameRepeated key setKey seen xs) := by
  induction xs generalizing seen seen' with
  | nil => exact .nil
  | cons a xs ih =>
      rw [renameRepeated]
      cases hkey : key a with
      | none =>
          refine .kept (.inl hkey) (ih fun k => ?_)
          rw [hseen, hkey, List.mem_cons, or_iff_right (Option.some_ne_none k)]
      | some k =>
          dsimp only
          split
          · rename_i hmem
            have hnew := NewKey.newKey_notMem (seen ++ keysOf key xs)
            rw [List.mem_append, not_or, hseen, mem_keysOf] at hnew
            refine .renamed (hkey ▸ (hseen k).mp hmem) hnew (hset _ _) rfl (ih fun k => ?_)
            rw [List.mem_cons, List.mem_cons, hseen, Option.some_inj]
          · rename_i hmem
            refine .kept (.inr (hkey ▸ mt (hseen k).mpr hmem)) (ih fun k => ?_)
            rw [hkey, List.mem_cons, List.mem_cons, hseen, Option.some_inj]

/-- A key after the pass was there or is a new one. -/
theorem mem_map_renameRepeated (hset : ∀ k a, key (setKey k a) = some k) {seen : List κ}
    (h : some k ∈ (renameRepeated key setKey seen xs).map key) :
    some k ∈ xs.map key ∨ ∃ keys, k = NewKey.newKey keys := by
  induction xs generalizing seen with
  | nil => cases h
  | cons a xs ih =>
      have hkept {seen : List κ} (h : some k ∈ (a :: renameRepeated key setKey seen xs).map key) :
          some k ∈ (a :: xs).map key ∨ ∃ keys, k = NewKey.newKey keys := by
        rcases List.mem_cons.mp h with heq | hmem
        · exact .inl (heq ▸ List.mem_cons_self)
        · exact (ih hmem).imp_left (List.mem_cons_of_mem _)
      rw [renameRepeated] at h
      split at h
      · exact hkept h
      · split at h
        · rcases List.mem_cons.mp h with heq | hmem
          · exact .inr ⟨_, Option.some.inj (heq.trans (hset _ _))⟩
          · exact (ih hmem).imp_left (List.mem_cons_of_mem _)
        · exact hkept h

/-- Where no key is repeated the pass changes nothing. -/
theorem renameRepeated_eq {seen : List κ} (hnodup : (keysOf key xs).Nodup)
    (hseen : ∀ k ∈ keysOf key xs, k ∉ seen) : renameRepeated key setKey seen xs = xs := by
  induction xs generalizing seen with
  | nil => rfl
  | cons a xs ih =>
      rw [renameRepeated]
      cases hkey : key a with
      | none =>
          rw [keysOf_cons_none hkey] at hnodup hseen
          exact congrArg (a :: ·) (ih hnodup hseen)
      | some k =>
          rw [keysOf_cons_some hkey, List.nodup_cons] at hnodup
          rw [keysOf_cons_some hkey, List.forall_mem_cons] at hseen
          dsimp only
          rw [if_neg hseen.1, ih hnodup.2]
          intro other hother
          rw [List.mem_cons, not_or]
          exact ⟨fun heq => hnodup.1 (heq ▸ hother), hseen.2 other hother⟩

end

end Hypernote.Foundation
