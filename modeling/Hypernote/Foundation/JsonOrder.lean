import Hypernote.Foundation.JsonText
import Mathlib.Data.List.Perm.Basic
/-!
# JSON up to the order of keys

Two values are the same as dicts and lists exactly if their texts with sorted keys are equal.
-/

namespace Hypernote.Foundation

namespace Json

mutual

/-- Equal but for the order of the members of their objects. -/
inductive Same : Json → Json → Prop
  | null : Same .null .null
  | bool (b : Bool) : Same (.bool b) (.bool b)
  | int (n : Int) : Same (.int n) (.int n)
  | float (x : FloatText) : Same (.float x) (.float x)
  | str (s : String) : Same (.str s) (.str s)
  | arr {xs ys : List Json} (h : SameItems xs ys) : Same (.arr xs) (.arr ys)
  | obj {ms ns' ns : List (String × Json)} (h : SameMembers ms ns') (hperm : ns'.Perm ns) :
      Same (.obj ms) (.obj ns)

inductive SameItems : List Json → List Json → Prop
  | nil : SameItems [] []
  | cons {x y : Json} {xs ys : List Json} (h : Same x y) (hs : SameItems xs ys) :
      SameItems (x :: xs) (y :: ys)

inductive SameMembers : List (String × Json) → List (String × Json) → Prop
  | nil : SameMembers [] []
  | cons (k : String) {x y : Json} {ms ns : List (String × Json)} (h : Same x y)
      (hs : SameMembers ms ns) : SameMembers ((k, x) :: ms) ((k, y) :: ns)

end

mutual

/-- No object has two members of one key. -/
def UniqueKeys : Json → Prop
  | .arr items => UniqueItems items
  | .obj members => (members.map Prod.fst).Nodup ∧ UniqueMembers members
  | _ => True

def UniqueItems : List Json → Prop
  | [] => True
  | x :: xs => UniqueKeys x ∧ UniqueItems xs

def UniqueMembers : List (String × Json) → Prop
  | [] => True
  | (_, x) :: ms => UniqueKeys x ∧ UniqueMembers ms

end

theorem sortMembers_eq_map (ms : List (String × Json)) :
    sortMembers ms = ms.map fun m => (m.1, sortKeys m.2) := by
  induction ms with
  | nil => rw [sortMembers, List.map_nil]
  | cons m ms ih => rw [sortMembers, ih, List.map_cons]

theorem map_fst_sortMembers (ms : List (String × Json)) :
    (sortMembers ms).map Prod.fst = ms.map Prod.fst := by
  rw [sortMembers_eq_map, List.map_map]
  rfl

/-! ## One text makes one value -/

mutual

theorem same_of_sortKeys (x y : Json) (h : sortKeys x = sortKeys y) : Same x y := by
  match x, y with
  | .null, .null => exact .null
  | .bool b, .bool b' =>
      simp only [sortKeys, Json.bool.injEq] at h
      exact h ▸ .bool b
  | .int n, .int m =>
      simp only [sortKeys, Json.int.injEq] at h
      exact h ▸ .int n
  | .float f, .float g =>
      simp only [sortKeys, Json.float.injEq] at h
      exact h ▸ .float f
  | .str s, .str t =>
      simp only [sortKeys, Json.str.injEq] at h
      exact h ▸ .str s
  | .arr xs, .arr ys =>
      simp only [sortKeys, Json.arr.injEq] at h
      exact .arr (sameItems_of_sortItems xs ys h)
  | .obj ms, .obj ns =>
      simp only [sortKeys, Json.obj.injEq] at h
      have hms := List.perm_insertionSort (fun a b => a.1 ≤ b.1) (sortMembers ms)
      have hns := List.perm_insertionSort (fun a b => a.1 ≤ b.1) (sortMembers ns)
      rw [h] at hms
      have hperm := hms.symm.trans hns
      rw [sortMembers_eq_map ns] at hperm
      obtain ⟨ns', heq, hns'⟩ :=
        (congrFun₂ (List.eq_map_comp_perm fun m : String × Json => (m.1, sortKeys m.2))
          (sortMembers ms) ns).mpr hperm
      rw [← sortMembers_eq_map] at heq
      exact .obj (sameMembers_of_sortMembers ms ns' heq) hns'

theorem sameItems_of_sortItems (xs ys : List Json) (h : sortItems xs = sortItems ys) :
    SameItems xs ys := by
  match xs, ys with
  | [], [] => exact .nil
  | x :: xs, y :: ys =>
      simp only [sortItems, List.cons.injEq] at h
      exact .cons (same_of_sortKeys x y h.1) (sameItems_of_sortItems xs ys h.2)

theorem sameMembers_of_sortMembers (ms ns : List (String × Json))
    (h : sortMembers ms = sortMembers ns) : SameMembers ms ns := by
  match ms, ns with
  | [], [] => exact .nil
  | (k, x) :: ms, (l, y) :: ns =>
      simp only [sortMembers, List.cons.injEq, Prod.mk.injEq] at h
      obtain ⟨⟨rfl, hx⟩, hs⟩ := h
      exact .cons k (same_of_sortKeys x y hx) (sameMembers_of_sortMembers ms ns hs)

end

/-! ## One value has one text -/

/-- Members of different keys are sorted in one way only. -/
theorem sort_members_unique {ms ns : List (String × Json)} (hperm : ms.Perm ns)
    (hnodup : (ms.map Prod.fst).Nodup) :
    ms.insertionSort (fun a b => a.1 ≤ b.1) = ns.insertionSort fun a b => a.1 ≤ b.1 := by
  have : Std.Total fun a b : String × Json => a.1 ≤ b.1 := ⟨fun a b => String.le_total a.1 b.1⟩
  have : IsTrans (String × Json) fun a b => a.1 ≤ b.1 := ⟨fun _ _ _ => String.le_trans⟩
  have hms := List.perm_insertionSort (fun a b => a.1 ≤ b.1) ms
  have hns := List.perm_insertionSort (fun a b => a.1 ≤ b.1) ns
  refine List.Perm.eq_of_pairwise ?_ (List.pairwise_insertionSort _ ms)
    (List.pairwise_insertionSort _ ns) (hms.trans (hperm.trans hns.symm))
  · intro a b ha hb hab hba
    exact List.inj_on_of_nodup_map hnodup (hms.subset ha) (hperm.symm.subset (hns.subset hb))
      (String.le_antisymm hab hba)

mutual

theorem sortKeys_eq_of_same (x y : Json) (h : Same x y) (hx : UniqueKeys x) :
    sortKeys x = sortKeys y := by
  match h with
  | .null => rfl
  | .bool b => rfl
  | .int n => rfl
  | .float f => rfl
  | .str s => rfl
  | @Same.arr xs ys hs =>
      rw [sortKeys, sortKeys, sortItems_eq_of_same xs ys hs hx]
  | @Same.obj ms ns' ns hs hperm =>
      have hmembers := sortMembers_eq_of_same ms ns' hs hx.2
      have hsorted : (sortMembers ms).Perm (sortMembers ns) := by
        rw [hmembers, sortMembers_eq_map, sortMembers_eq_map]
        exact hperm.map _
      rw [sortKeys, sortKeys, sort_members_unique hsorted]
      rw [map_fst_sortMembers]
      exact hx.1

theorem sortItems_eq_of_same (xs ys : List Json) (h : SameItems xs ys) (hx : UniqueItems xs) :
    sortItems xs = sortItems ys := by
  match h with
  | .nil => rfl
  | @SameItems.cons x y xs ys h hs =>
      rw [sortItems, sortItems, sortKeys_eq_of_same x y h hx.1, sortItems_eq_of_same xs ys hs hx.2]

theorem sortMembers_eq_of_same (ms ns : List (String × Json)) (h : SameMembers ms ns)
    (hx : UniqueMembers ms) : sortMembers ms = sortMembers ns := by
  match h with
  | .nil => rfl
  | @SameMembers.cons k x y ms ns h hs =>
      rw [sortMembers, sortMembers, sortKeys_eq_of_same x y h hx.1,
        sortMembers_eq_of_same ms ns hs hx.2]

end

theorem dumpsSorted_eq_iff {x y : Json} (hx : UniqueKeys x) :
    dumpsSorted x = dumpsSorted y ↔ Same x y :=
  dumps_injective.eq_iff.trans
    ⟨same_of_sortKeys x y, fun h => sortKeys_eq_of_same x y h hx⟩

end Json

end Hypernote.Foundation
