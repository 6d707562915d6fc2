import Hypernote.Foundation.Dict
import Hypernote.Foundation.JsonOrder
/-!
# JSON values in Python

How `==` compares what `json.loads` has read, which values are false, and what is left of a value
that has been written with sorted keys and read again.  A number that is no integer is known by its
text, so what depends on its value is a parameter.
-/

namespace Hypernote.Foundation

/-- What Python makes of the numbers that are no integers. -/
structure FloatValues where
  /-- `x == 0`. -/
  isZero : FloatText → Bool
  eq : FloatText → FloatText → Bool
  eqInt : Int → FloatText → Bool
  eq_self : ∀ x, x.chars ≠ "NaN".toList → eq x x = true

/-- Numbers that are equal where their texts are. -/
def FloatValues.byText : FloatValues where
  isZero x := x.chars = "0.0".toList || x.chars = "-0.0".toList
  eq x y := x.chars = y.chars && x.chars ≠ "NaN".toList
  eqInt _ _ := false
  eq_self _ hx := Bool.and_eq_true_iff.mpr ⟨decide_eq_true rfl, decide_eq_true hx⟩

namespace Json

section

variable (F : FloatValues)

/-- `bool(value)`. -/
def truthy : Json → Bool
  | .null => false
  | .bool b => b
  | .int n => n ≠ 0
  | .float x => !F.isZero x
  | .str s => s ≠ ""
  | .arr items => !items.isEmpty
  | .obj members => !members.isEmpty

mutual

/-- `x == y`. -/
def pyEq : Json → Json → Bool
  | .null, .null => true
  | .bool b, .bool b' => b = b'
  | .bool b, .int n => (if b then 1 else 0) = n
  | .bool b, .float x => F.eqInt (if b then 1 else 0) x
  | .int n, .bool b => n = if b then 1 else 0
  | .int n, .int m => n = m
  | .int n, .float x => F.eqInt n x
  | .float x, .bool b => F.eqInt (if b then 1 else 0) x
  | .float x, .int n => F.eqInt n x
  | .float x, .float y => F.eq x y
  | .str s, .str t => s = t
  | .arr xs, .arr ys => pyEqItems xs ys
  | .obj ms, .obj ns => ms.length = ns.length && pyEqMembers ms ns
  | _, _ => false

def pyEqItems : List Json → List Json → Bool
  | [], [] => true
  | x :: xs, y :: ys => pyEq x y && pyEqItems xs ys
  | _, _ => false

/-- Every member is one of the other dict. -/
def pyEqMembers : List (String × Json) → List (String × Json) → Bool
  | [], _ => true
  | (k, x) :: ms, ns =>
      (match ns.lookup k with
        | some y => pyEq x y
        | none => false) && pyEqMembers ms ns

end

end

mutual

/-- The value is JSON in the strict sense, which has no `NaN`. -/
def NoNaN : Json → Prop
  | .float x => x.chars ≠ "NaN".toList
  | .arr items => NoNaNItems items
  | .obj members => NoNaNMembers members
  | _ => True

def NoNaNItems : List Json → Prop
  | [] => True
  | x :: xs => NoNaN x ∧ NoNaNItems xs

def NoNaNMembers : List (String × Json) → Prop
  | [] => True
  | (_, x) :: ms => NoNaN x ∧ NoNaNMembers ms

end

/-! ## Sorting twice -/

mutual

theorem sortKeys_sortKeys (x : Json) : sortKeys (sortKeys x) = sortKeys x := by
  match x with
  | .null => rfl
  | .bool b => rfl
  | .int n => rfl
  | .float f => rfl
  | .str s => rfl
  | .arr items => rw [sortKeys, sortKeys, sortItems_sortItems items]
  | .obj members =>
      have hmembers : ∀ m ∈ (sortMembers members).insertionSort fun a b => a.1 ≤ b.1,
          (m.1, sortKeys m.2) = m := by
        intro m hm
        have hm' := (List.perm_insertionSort _ _).subset hm
        rw [sortKeys_of_mem_sortMembers members m hm']
      have hsorted := List.pairwise_insertionSort (fun a b : String × Json => a.1 ≤ b.1)
        (sortMembers members)
      rw [sortKeys, sortKeys, sortMembers_eq_map _, List.map_congr_left hmembers, List.map_id',
        hsorted.insertionSort_eq]

theorem sortItems_sortItems (xs : List Json) : sortItems (sortItems xs) = sortItems xs := by
  match xs with
  | [] => rfl
  | x :: xs => rw [sortItems, sortItems, sortKeys_sortKeys x, sortItems_sortItems xs]

theorem sortKeys_of_mem_sortMembers (ms : List (String × Json)) :
    ∀ m ∈ sortMembers ms, sortKeys m.2 = m.2 := by
  match ms with
  | [] =>
      intro m hm
      rw [sortMembers] at hm
      cases hm
  | (k, x) :: ms =>
      intro m hm
      rw [sortMembers] at hm
      rcases List.mem_cons.mp hm with rfl | hm
      · exact sortKeys_sortKeys x
      · exact sortKeys_of_mem_sortMembers ms m hm

end

/-- Sorting changes the order of members only. -/
theorem same_sortKeys (x : Json) : Same (sortKeys x) x :=
  same_of_sortKeys _ _ (sortKeys_sortKeys x)

/-! ## Objects whose keys are unique -/

theorem uniqueMembers_iff {ms : List (String × Json)} :
    UniqueMembers ms ↔ ∀ m ∈ ms, UniqueKeys m.2 := by
  induction ms with
  | nil => simp [UniqueMembers]
  | cons m ms ih => simp [UniqueMembers, ih]

mutual

theorem UniqueKeys.sortKeys {x : Json} (h : UniqueKeys x) : UniqueKeys (sortKeys x) := by
  match x with
  | .null => trivial
  | .bool b => trivial
  | .int n => trivial
  | .float f => trivial
  | .str s => trivial
  | .arr items => exact UniqueItems.sortItems h
  | .obj members =>
      have hperm := List.perm_insertionSort (fun a b : String × Json => a.1 ≤ b.1)
        (sortMembers members)
      constructor
      · rw [(hperm.map Prod.fst).nodup_iff, map_fst_sortMembers]
        exact h.1
      · have hmembers := uniqueMembers_iff.mp (UniqueMembers.sortMembers h.2)
        exact uniqueMembers_iff.mpr fun m hm => hmembers m (hperm.subset hm)

theorem UniqueItems.sortItems {xs : List Json} (h : UniqueItems xs) :
    UniqueItems (sortItems xs) := by
  match xs with
  | [] => trivial
  | x :: xs => exact ⟨UniqueKeys.sortKeys h.1, UniqueItems.sortItems h.2⟩

theorem UniqueMembers.sortMembers {ms : List (String × Json)} (h : UniqueMembers ms) :
    UniqueMembers (sortMembers ms) := by
  match ms with
  | [] => trivial
  | (k, x) :: ms => exact ⟨UniqueKeys.sortKeys h.1, UniqueMembers.sortMembers h.2⟩

end

theorem setMember_of_not_mem {key : String} {value : Json} {members : List (String × Json)}
    (h : key ∉ members.map Prod.fst) :
    setMember key value members = members ++ [(key, value)] := by
  induction members with
  | nil => rfl
  | cons m members ih =>
      rw [List.map_cons, List.mem_cons, not_or] at h
      rw [setMember, if_neg (Ne.symm h.1), ih h.2, List.cons_append]

theorem dictOf_eq_self {pairs : List (String × Json)} (h : (pairs.map Prod.fst).Nodup) :
    dictOf pairs = pairs := by
  have hrun : ∀ (rest members : List (String × Json)), ((members ++ rest).map Prod.fst).Nodup →
      rest.foldl (fun members pair => setMember pair.1 pair.2 members) members =
        members ++ rest := by
    intro rest
    induction rest with
    | nil => intro members _; exact (List.append_nil _).symm
    | cons pair rest ih =>
        intro members hnodup
        have hnew : pair.1 ∉ members.map Prod.fst := by
          rw [List.map_append] at hnodup
          exact fun hmem => (List.disjoint_of_nodup_append hnodup) hmem List.mem_cons_self
        rw [List.foldl_cons, setMember_of_not_mem hnew, ih, List.append_assoc]
        · rfl
        · rwa [List.append_assoc]
  exact hrun pairs [] h

mutual

theorem UniqueKeys.dicts_eq {x : Json} (h : UniqueKeys x) : dicts x = x := by
  match x with
  | .null => rfl
  | .bool b => rfl
  | .int n => rfl
  | .float f => rfl
  | .str s => rfl
  | .arr items => rw [dicts, UniqueItems.dictItems_eq h]
  | .obj members => rw [dicts, UniqueMembers.dictMembers_eq h.2, dictOf_eq_self h.1]

theorem UniqueItems.dictItems_eq {xs : List Json} (h : UniqueItems xs) : dictItems xs = xs := by
  match xs with
  | [] => rfl
  | x :: xs => rw [dictItems, UniqueKeys.dicts_eq h.1, UniqueItems.dictItems_eq h.2]

theorem UniqueMembers.dictMembers_eq {ms : List (String × Json)} (h : UniqueMembers ms) :
    dictMembers ms = ms := by
  match ms with
  | [] => rfl
  | (k, x) :: ms => rw [dictMembers, UniqueKeys.dicts_eq h.1, UniqueMembers.dictMembers_eq h.2]

end

/-- A value that is written with sorted keys is read as itself but for their order. -/
theorem loads_writeChars_sortKeys (sep : Separators) {x : Json} (h : UniqueKeys x) :
    loads (writeChars sep x.sortKeys) = some x.sortKeys := by
  rw [loads_writeChars, (UniqueKeys.sortKeys h).dicts_eq]

/-! ## Members that may be missing -/

/-- The value is this string. -/
def isStr (x : Json) (s : String) : Bool :=
  match x with
  | .str t => t = s
  | _ => false

/-- The characters of a string, and none of any other value. -/
def text : Json → List Char
  | .str s => s.toList
  | _ => []

/-- The members that have a value. -/
def present (fields : List (String × Option Json)) : List (String × Json) :=
  fields.filterMap fun field => field.2.map (field.1, ·)

theorem present_cons (key : String) (value : Option Json) (fields : List (String × Option Json)) :
    present ((key, value) :: fields) = (value.map (key, ·)).toList ++ present fields := by
  cases value <;> rfl

theorem lookup_present {fields : List (String × Option Json)}
    (hkeys : (fields.map Prod.fst).Nodup) (key : String) :
    (present fields).lookup key = (fields.lookup key).join := by
  induction fields with
  | nil => rfl
  | cons field fields ih =>
      obtain ⟨k, value⟩ := field
      rw [List.map_cons, List.nodup_cons] at hkeys
      have hrest := ih hkeys.2
      rw [present_cons]
      by_cases hk : key = k
      · have hnone : fields.lookup key = none := List.lookup_eq_none_iff.mpr fun field hfield =>
          bne_iff_ne.mpr fun heq => hkeys.1 (List.mem_map.mpr ⟨field, hfield, heq.symm.trans hk⟩)
        rw [hnone] at hrest
        subst hk
        cases value with
        | none => simpa using hrest
        | some x => simp
      · have hbeq : (key == k) = false := beq_eq_false_iff_ne.mpr hk
        cases value <;> simp [List.lookup_cons, hbeq, hrest]

theorem uniqueKeys_present {fields : List (String × Option Json)}
    (hkeys : (fields.map Prod.fst).Nodup)
    (hvalues : ∀ field ∈ fields, ∀ x ∈ field.2, UniqueKeys x) :
    UniqueKeys (.obj (present fields)) := by
  constructor
  · have hfst : (present fields).map Prod.fst =
        (fields.filter fun field => field.2.isSome).map Prod.fst := by
      induction fields with
      | nil => rfl
      | cons field fields ih =>
          obtain ⟨k, value⟩ := field
          have hrest := ih (List.nodup_cons.mp hkeys).2
            fun f hf => hvalues f (List.mem_cons_of_mem _ hf)
          cases value with
          | none => exact hrest
          | some x => exact congrArg (k :: ·) hrest
    rw [hfst]
    exact hkeys.sublist (List.filter_sublist.map _)
  · rw [uniqueMembers_iff]
    intro m hm
    obtain ⟨field, hfield, hsome⟩ := List.mem_filterMap.mp hm
    obtain ⟨x, hx, rfl⟩ := Option.map_eq_some_iff.mp hsome
    exact hvalues field hfield x hx

/-! ## Equality in Python -/

section

variable {F : FloatValues}

theorem pyEqMembers_eq_all (ms ns : List (String × Json)) :
    pyEqMembers F ms ns = ms.all fun m => (ns.lookup m.1).any (pyEq F m.2) := by
  induction ms with
  | nil => rw [pyEqMembers, List.all_nil]
  | cons m ms ih =>
      rw [pyEqMembers, List.all_cons, ih]
      cases ns.lookup m.1 <;> rfl

mutual

theorem pyEq_refl {x : Json} (h : UniqueKeys x) (hnan : NoNaN x) : pyEq F x x = true := by
  match x with
  | .null => rfl
  | .bool b => exact decide_eq_true rfl
  | .int n => exact decide_eq_true rfl
  | .float f => exact F.eq_self f hnan
  | .str s => exact decide_eq_true rfl
  | .arr items =>
      rw [pyEq]
      exact pyEqItems_refl h hnan
  | .obj members =>
      rw [pyEq, pyEqMembers_eq_all]
      simp only [decide_true, Bool.true_and, List.all_eq_true]
      intro m hm
      rw [lookup_of_nodup h.1 hm]
      exact pyEq_refl_of_mem h.2 hnan hm

theorem pyEqItems_refl {xs : List Json} (h : UniqueItems xs) (hnan : NoNaNItems xs) :
    pyEqItems F xs xs = true := by
  match xs with
  | [] => rfl
  | x :: xs => rw [pyEqItems, pyEq_refl h.1 hnan.1, pyEqItems_refl h.2 hnan.2, Bool.true_and]

theorem pyEq_refl_of_mem {ms : List (String × Json)} (h : UniqueMembers ms)
    (hnan : NoNaNMembers ms) {m : String × Json} (hm : m ∈ ms) : pyEq F m.2 m.2 = true := by
  match ms with
  | [] => cases hm
  | (k, x) :: ms =>
      cases hm with
      | head => exact pyEq_refl h.1 hnan.1
      | tail _ hm => exact pyEq_refl_of_mem h.2 hnan.2 hm

end

mutual

/-- The order of keys is nothing to `==`. -/
theorem Same.pyEq_eq {x x' : Json} (h : Same x x') (y : Json) : pyEq F x y = pyEq F x' y := by
  match h with
  | .null => rfl
  | .bool b => rfl
  | .int n => rfl
  | .float f => rfl
  | .str s => rfl
  | @Same.arr xs xs' hs =>
      cases y with
      | arr ys =>
          rw [pyEq, pyEq]
          exact SameItems.pyEqItems_eq hs ys
      | _ => rfl
  | @Same.obj ms ns' ns hs hperm =>
      cases y with
      | obj members =>
          rw [pyEq, pyEq, SameMembers.pyEqMembers_eq hs members, SameMembers.length_eq hs,
            pyEqMembers_eq_all, pyEqMembers_eq_all, hperm.length_eq, hperm.all_eq]
      | _ => rfl

theorem SameItems.pyEqItems_eq {xs xs' : List Json} (h : SameItems xs xs') (ys : List Json) :
    pyEqItems F xs ys = pyEqItems F xs' ys := by
  match h with
  | .nil => rfl
  | @SameItems.cons x x' xs xs' hx hs =>
      cases ys with
      | nil => rfl
      | cons y ys => rw [pyEqItems, pyEqItems, Same.pyEq_eq hx y, SameItems.pyEqItems_eq hs ys]

theorem SameMembers.pyEqMembers_eq {ms ms' : List (String × Json)} (h : SameMembers ms ms')
    (ns : List (String × Json)) : pyEqMembers F ms ns = pyEqMembers F ms' ns := by
  match h with
  | .nil => rfl
  | @SameMembers.cons k x x' ms ms' hx hs =>
      rw [pyEqMembers, pyEqMembers, SameMembers.pyEqMembers_eq hs ns]
      cases ns.lookup k with
      | none => rfl
      | some y =>
          dsimp only
          rw [Same.pyEq_eq hx y]

theorem SameMembers.length_eq {ms ms' : List (String × Json)} (h : SameMembers ms ms') :
    ms.length = ms'.length := by
  match h with
  | .nil => rfl
  | .cons k hx hs => rw [List.length_cons, List.length_cons, SameMembers.length_eq hs]

end

/-- JSON that has been written and read again equals what it was. -/
theorem pyEq_of_same {x y : Json} (h : Same x y) (hunique : UniqueKeys y) (hnan : NoNaN y) :
    pyEq F x y = true :=
  (h.pyEq_eq y).trans (pyEq_refl hunique hnan)

end

end Json

end Hypernote.Foundation
