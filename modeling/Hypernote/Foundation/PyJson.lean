import Hypernote.Foundation.JsonValue
import Hypernote.Foundation.PyDict
/-!
# What `json.loads` makes of any text

A string in Python is a sequence of code points, and `json.loads` reads the escape of a lone surrogate
as one.  The reader also has limits: how deep values may be nested, and how many digits an integer
may have.  What a dict takes for the same key is known up to the values of the numbers that are no
integers.
-/

namespace Hypernote.Foundation

/-- A string as its code points, lone surrogates among them. -/
abbrev PyStr := List Nat

def pyStr (s : String) : PyStr := s.toList.map Char.toNat

/-- A string without surrogates. -/
def PyStr.ofChars (cs : List Char) : PyStr := cs.map Char.toNat

theorem PyStr.ofChars_injective : Function.Injective PyStr.ofChars :=
  Function.Injective.list_map fun _ _ h => Char.toNat_inj.mp h

theorem pyStr_injective : Function.Injective pyStr :=
  fun _ _ h => String.toList_injective (PyStr.ofChars_injective h)

/-- `s.encode()` raises where there is a lone surrogate. -/
def PyStr.toChars? (s : PyStr) : Option (List Char) :=
  s.mapM fun n => if n.isValidChar then some (Char.ofNat n) else none

theorem PyStr.toChars?_ofChars (cs : List Char) : PyStr.toChars? (PyStr.ofChars cs) = some cs := by
  unfold PyStr.toChars? PyStr.ofChars
  induction cs with
  | nil => rfl
  | cons c cs ih =>
      have hvalid : c.toNat.isValidChar := c.valid
      rw [List.map_cons, List.mapM_cons, ih, if_pos hvalid, Char.ofNat_toNat]
      rfl

theorem PyStr.toChars?_eq_some {s : PyStr} {cs : List Char} :
    s.toChars? = some cs ↔ s = PyStr.ofChars cs := by
  constructor
  · intro h
    induction s generalizing cs with
    | nil =>
        cases h
        rfl
    | cons n s ih =>
        simp only [PyStr.toChars?, List.mapM_cons, Option.bind_eq_bind, Option.bind_eq_some_iff,
          Option.ite_none_right_eq_some, Option.some.injEq] at h
        obtain ⟨c, ⟨hvalid, rfl⟩, cs', hs, hcs⟩ := h
        cases hcs
        have hnat : (Char.ofNat n).toNat = n := by
          rw [Char.ofNat, dif_pos hvalid]
          rfl
        rw [PyStr.ofChars, List.map_cons, ← PyStr.ofChars, ← ih hs, hnat]
  · rintro rfl
    exact PyStr.toChars?_ofChars cs

theorem toChars?_pyStr (s : String) : PyStr.toChars? (pyStr s) = some s.toList :=
  PyStr.toChars?_ofChars s.toList

/-- What `json.loads` reads. -/
inductive PyJson
  | null
  | bool (b : Bool)
  | int (n : Int)
  | float (x : FloatText)
  | str (s : PyStr)
  | arr (items : List PyJson)
  | obj (members : List (PyStr × PyJson))

namespace PyJson

def isDict : PyJson → Bool
  | .obj _ => true
  | _ => false

/-- The item of a dict; nothing where the value is no dict. -/
def member? (x : PyJson) (key : String) : Option PyJson :=
  match x with
  | .obj members => members.lookup (pyStr key)
  | _ => none

/-- `x.get(key)`, which a value that is no dict does not have. -/
def get (x : PyJson) (key : String) : Option (Option PyJson) :=
  if x.isDict then some (x.member? key) else none

/-- The value is this string. -/
def isStr (x : PyJson) (s : PyStr) : Bool :=
  match x with
  | .str t => t = s
  | _ => false

mutual

def ofJson : Json → PyJson
  | .null => .null
  | .bool b => .bool b
  | .int n => .int n
  | .float x => .float x
  | .str s => .str (pyStr s)
  | .arr items => .arr (ofItems items)
  | .obj members => .obj (ofMembers members)

def ofItems : List Json → List PyJson
  | [] => []
  | x :: xs => ofJson x :: ofItems xs

def ofMembers : List (String × Json) → List (PyStr × PyJson)
  | [] => []
  | (k, x) :: ms => (pyStr k, ofJson x) :: ofMembers ms

end

section

variable (F : FloatValues)

/-- `bool(x)`. -/
def truthy : PyJson → Bool
  | .null => false
  | .bool b => b
  | .int n => n ≠ 0
  | .float x => !F.isZero x
  | .str s => s ≠ []
  | .arr items => !items.isEmpty
  | .obj members => !members.isEmpty

mutual

/-- `x == y`. -/
def pyEq : PyJson → PyJson → Bool
  | .null, .null => true
  | .bool b, .bool b' => b = b'
  | .bool b, .int n => (if b then 1 else 0) = n
  | .bool b, .float x => F.eqInt (if b then 1 else 0) x
  | .int n, .bool b => n = if b then 1 else 0
  | .int n, .int m => n = m
  | .int n, .float x => F.eqInt n x
  | .float x, .bool b => F.eqInt (if b then 1 else 0) x
  | .float x, .int n => F.eqInt n x
  | .float x, .float y => F.eq x y
  | .str s, .str t => s = t
  | .arr xs, .arr ys => pyEqItems xs ys
  | .obj ms, .obj ns => ms.length = ns.length && pyEqMembers ms ns
  | _, _ => false

def pyEqItems : List PyJson → List PyJson → Bool
  | [], [] => true
  | x :: xs, y :: ys => pyEq x y && pyEqItems xs ys
  | _, _ => false

def pyEqMembers : List (PyStr × PyJson) → List (PyStr × PyJson) → Bool
  | [], _ => true
  | (k, x) :: ms, ns =>
      (match ns.lookup k with
        | some y => pyEq x y
        | none => false) && pyEqMembers ms ns

end

end

section

variable (isFinite : FloatText → Bool)

mutual

/-- `json.dumps(x, ensure_ascii=False, allow_nan=False).encode()` does not raise. -/
def encodable : PyJson → Bool
  | .null | .bool _ | .int _ => true
  | .float x => isFinite x
  | .str s => s.toChars?.isSome
  | .arr items => encodableItems items
  | .obj members => encodableMembers members

def encodableItems : List PyJson → Bool
  | [] => true
  | x :: xs => encodable x && encodableItems xs

def encodableMembers : List (PyStr × PyJson) → Bool
  | [] => true
  | (k, x) :: ms => k.toChars?.isSome && encodable x && encodableMembers ms

end

end

/-! ## Keys -/

/-- `hash(x)` does not raise. -/
def hashable : PyJson → Bool
  | .arr _ | .obj _ => false
  | _ => true

/-- What is left of a key in its comparison: `True` is `1`. -/
inductive Key
  | null
  | int (n : Int)
  | float (x : FloatText)
  | str (s : PyStr)
  | none

def key : PyJson → Key
  | .null => .null
  | .bool b => .int (if b then 1 else 0)
  | .int n => .int n
  | .float x => .float x
  | .str s => .str s
  | .arr _ | .obj _ => .none

/-- A value that may be a key. -/
abbrev DictKey := { x : PyJson // x.hashable = true }

/-- `k is k' or k == k'`: every `NaN` of a text is one object. -/
def Key.same (F : FloatValues) : Key → Key → Bool
  | .null, .null => true
  | .int n, .int m => n = m
  | .int n, .float x => F.eqInt n x
  | .float x, .int n => F.eqInt n x
  | .float x, .float y => F.eq x y || x.chars = y.chars
  | .str s, .str t => s = t
  | .none, .none => true
  | _, _ => false

def DictKey.same (F : FloatValues) (k k' : DictKey) : Bool := Key.same F k.1.key k'.1.key

end PyJson

/-- `==` is an equivalence on numbers other than `NaN`, and tells integers apart. -/
structure FloatValues.Lawful (F : FloatValues) : Prop where
  eq_symm : ∀ {x y}, F.eq x y = true → F.eq y x = true
  eq_trans : ∀ {x y z}, F.eq x y = true → F.eq y z = true → F.eq x z = true
  eqInt_trans : ∀ {n x y}, F.eqInt n x = true → F.eq x y = true → F.eqInt n y = true
  eq_of_eqInt : ∀ {n x y}, F.eqInt n x = true → F.eqInt n y = true → F.eq x y = true
  eqInt_injective : ∀ {n m x}, F.eqInt n x = true → F.eqInt m x = true → n = m

theorem FloatValues.lawful_byText : FloatValues.byText.Lawful where
  eq_symm h := by
    simp only [FloatValues.byText, Bool.and_eq_true, decide_eq_true_eq] at h ⊢
    exact ⟨h.1.symm, h.1 ▸ h.2⟩
  eq_trans h h' := by
    simp only [FloatValues.byText, Bool.and_eq_true, decide_eq_true_eq] at h h' ⊢
    exact ⟨h.1.trans h'.1, h.2⟩
  eqInt_trans := nofun
  eq_of_eqInt := nofun
  eqInt_injective := nofun

namespace PyJson

variable {F : FloatValues}

theorem Key.same_refl (k : Key) : k.same F k = true := by
  cases k <;> simp [Key.same]

theorem Key.same_symm (hF : F.Lawful) {k k' : Key} (h : k.same F k' = true) :
    k'.same F k = true := by
  cases k with
  | float x =>
      cases k' with
      | float y =>
          simp only [Key.same, Bool.or_eq_true, decide_eq_true_eq] at h ⊢
          exact h.imp hF.eq_symm Eq.symm
      | _ => exact h
  | int n =>
      cases k' with
      | int m => exact decide_eq_true (of_decide_eq_true h).symm
      | _ => exact h
  | str s =>
      cases k' with
      | str t => exact decide_eq_true (of_decide_eq_true h).symm
      | _ => exact h
  | _ => cases k' <;> exact h

/-- Numbers of one text are equal to the same ones. -/
theorem floatText_ext {x y : FloatText} (h : x.chars = y.chars) : x = y := by
  cases x
  cases y
  cases h
  rfl

theorem Key.same_float_trans (hF : F.Lawful) {x y : FloatText} {k : Key}
    (hxy : (Key.float x).same F (.float y) = true) (h : (Key.float y).same F k = true) :
    (Key.float x).same F k = true := by
  simp only [Key.same, Bool.or_eq_true, decide_eq_true_eq] at hxy
  rcases hxy with hxy | hchars
  · cases k with
    | int n => exact hF.eqInt_trans h (hF.eq_symm hxy)
    | float z =>
        simp only [Key.same, Bool.or_eq_true, decide_eq_true_eq] at h ⊢
        rcases h with h | hchars
        · exact .inl (hF.eq_trans hxy h)
        · exact .inl (floatText_ext hchars ▸ hxy)
    | _ => exact h
  · exact floatText_ext hchars ▸ h

theorem Key.same_trans (hF : F.Lawful) {k k' k'' : Key} (h : k.same F k' = true)
    (h' : k'.same F k'' = true) : k.same F k'' = true := by
  cases k with
  | null => cases k' <;> first | exact h' | cases h
  | none => cases k' <;> first | exact h' | cases h
  | str s =>
      cases k' with
      | str t => exact of_decide_eq_true h ▸ h'
      | _ => cases h
  | int n =>
      cases k' with
      | int m => exact of_decide_eq_true h ▸ h'
      | float x =>
          cases k'' with
          | int m => exact decide_eq_true (hF.eqInt_injective h h')
          | float y =>
              simp only [Key.same, Bool.or_eq_true, decide_eq_true_eq] at h' ⊢
              rcases h' with h' | hchars
              · exact hF.eqInt_trans h h'
              · exact floatText_ext hchars ▸ h
          | _ => cases h'
      | _ => cases h
  | float x =>
      cases k' with
      | int n =>
          cases k'' with
          | int m => exact of_decide_eq_true h' ▸ h
          | float y =>
              simp only [Key.same, Bool.or_eq_true, decide_eq_true_eq]
              exact .inl (hF.eq_of_eqInt h h')
          | _ => cases h'
      | float y => exact Key.same_float_trans hF h h'
      | _ => cases h

theorem keyEq_same (hF : F.Lawful) : PyDict.KeyEq (DictKey.same F) where
  refl k := Key.same_refl k.1.key
  symm h := Key.same_symm hF h
  trans h h' := Key.same_trans hF h h'

/-- A string is the same key as itself only. -/
theorem same_str_iff {k : DictKey} {s : PyStr} (hs : hashable (.str s) = true) :
    DictKey.same F k ⟨.str s, hs⟩ = true ↔ k.1 = .str s := by
  obtain ⟨x, hx⟩ := k
  cases x <;> simp [DictKey.same, Key.same, key]

/-! ## The reader -/

/-- What a reader raises for: `RecursionError` and `ValueError`. -/
structure ReadLimits where
  /-- How many arrays and objects may be open at once. -/
  depth : Nat
  /-- `sys.get_int_max_str_digits()`, of which zero is no limit. -/
  digits : Nat

/-- A `\u` escape, or two that are a surrogate pair. -/
def readUnicode (cs : List Char) : Option (Nat × List Char) := do
  let (n, rest) ← Json.readHex4 cs
  if 55296 ≤ n ∧ n < 56320 then
    match rest with
    | '\\' :: 'u' :: rest' =>
        let (m, rest') ← Json.readHex4 rest'
        if 56320 ≤ m ∧ m < 57344 then
          return (65536 + (n - 55296) * 1024 + (m - 56320), rest')
        else return (n, rest)
    | _ => return (n, rest)
  else return (n, rest)

/-- One code point of a string. -/
def readChar (cs : List Char) : Option (Nat × List Char) :=
  match cs with
  | '\\' :: 'u' :: rest => readUnicode rest
  | cs => (Json.readChar cs).map fun (c, rest) => (c.toNat, rest)

/-- The rest of a string after its opening quote. -/
def readString : Nat → List Char → Option (PyStr × List Char)
  | 0, _ => none
  | n + 1, cs =>
      match cs with
      | '"' :: rest => some ([], rest)
      | cs => do
          let (c, rest) ← readChar cs
          let (s, rest) ← readString n rest
          return (c :: s, rest)

/-- `d[key] = value`. -/
def setMember (key : PyStr) (value : PyJson) : List (PyStr × PyJson) → List (PyStr × PyJson)
  | [] => [(key, value)]
  | (k, v) :: members =>
      if k = key then (key, value) :: members else (k, v) :: setMember key value members

/-- The dict of an object's pairs. -/
def dictOf (pairs : List (PyStr × PyJson)) : List (PyStr × PyJson) :=
  pairs.foldl (fun members pair => setMember pair.1 pair.2 members) []

section

variable (limits : ReadLimits)

def readNumber (cs : List Char) : Option (PyJson × List Char) := do
  let digits := (cs.takeWhile isNumberChar).filter Char.isDigit
  let (x, rest) ← Json.readNumber cs
  match x with
  | .int n => if limits.digits = 0 ∨ digits.length ≤ limits.digits then return (.int n, rest) else none
  | .float x => return (.float x, rest)
  | _ => none

mutual

/-- A value, with the number of arrays and objects that may still be opened. -/
def readValue : Nat → Nat → List Char → Option (PyJson × List Char)
  | 0, _, _ => none
  | n + 1, depth, cs =>
      match cs with
      | 'n' :: 'u' :: 'l' :: 'l' :: rest => some (.null, rest)
      | 't' :: 'r' :: 'u' :: 'e' :: rest => some (.bool true, rest)
      | 'f' :: 'a' :: 'l' :: 's' :: 'e' :: rest => some (.bool false, rest)
      | '"' :: rest => (readString rest.length rest).map fun (s, rest) => (.str s, rest)
      | '[' :: rest =>
          match depth with
          | 0 => none
          | depth + 1 =>
              match Json.skipSpace rest with
              | ']' :: rest => some (.arr [], rest)
              | rest => (readItems n depth rest).map fun (items, rest) => (.arr items, rest)
      | '{' :: rest =>
          match depth with
          | 0 => none
          | depth + 1 =>
              match Json.skipSpace rest with
              | '}' :: rest => some (.obj [], rest)
              | rest =>
                  (readMembers n depth rest).map fun (members, rest) => (.obj (dictOf members), rest)
      | cs => readNumber limits cs

def readItems : Nat → Nat → List Char → Option (List PyJson × List Char)
  | 0, _, _ => none
  | n + 1, depth, cs => do
      let (x, rest) ← readValue n depth cs
      match Json.skipSpace rest with
      | ']' :: rest => return ([x], rest)
      | ',' :: rest =>
          let (xs, rest) ← readItems n depth (Json.skipSpace rest)
          return (x :: xs, rest)
      | _ => none

def readMembers : Nat → Nat → List Char → Option (List (PyStr × PyJson) × List Char)
  | 0, _, _ => none
  | n + 1, depth, cs =>
      match cs with
      | '"' :: rest => do
          let (k, rest) ← readString rest.length rest
          match Json.skipSpace rest with
          | ':' :: rest =>
              let (x, rest) ← readValue n depth (Json.skipSpace rest)
              match Json.skipSpace rest with
              | '}' :: rest => return ([(k, x)], rest)
              | ',' :: rest =>
                  let (xs, rest) ← readMembers n depth (Json.skipSpace rest)
                  return ((k, x) :: xs, rest)
              | _ => none
          | _ => none
      | _ => none

end

/-- `json.loads`.  Opening an array or an object takes a character and twice a step. -/
def loads (cs : List Char) : Option PyJson :=
  match readValue limits (2 * cs.length + 1) limits.depth (Json.skipSpace cs) with
  | some (x, rest) => if Json.skipSpace rest = [] then some x else none
  | none => none

end

end PyJson

end Hypernote.Foundation
