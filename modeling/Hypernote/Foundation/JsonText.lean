import Hypernote.Foundation.Json
import Mathlib.Tactic.SplitIfs
/-!
# Reading JSON

`json.loads`, and that it reads back what `json.dumps` writes, with either separators.  So two
values with one text are the same.  A float stands for its text.
-/

namespace Hypernote.Foundation

namespace Json

def isJsonSpace (c : Char) : Bool := c ∈ [' ', '\t', '\n', '\r']

def skipSpace (cs : List Char) : List Char := cs.dropWhile isJsonSpace

/-! ## Strings -/

def hexValue (c : Char) : Option Nat :=
  let n := c.toNat
  if 48 ≤ n ∧ n ≤ 57 then some (n - 48)
  else if 97 ≤ n ∧ n ≤ 102 then some (n - 87)
  else if 65 ≤ n ∧ n ≤ 70 then some (n - 55)
  else none

def readHex4 (cs : List Char) : Option (Nat × List Char) :=
  match cs with
  | a :: b :: c :: d :: rest => do
      let a ← hexValue a
      let b ← hexValue b
      let c ← hexValue c
      let d ← hexValue d
      return (((a * 16 + b) * 16 + c) * 16 + d, rest)
  | _ => none

/-- The character of a `\u` escape, of two where they are a surrogate pair.  A lone surrogate is no
character. -/
def readUnicode (cs : List Char) : Option (Char × List Char) := do
  let (n, rest) ← readHex4 cs
  if 55296 ≤ n ∧ n < 56320 then
    match rest with
    | '\\' :: 'u' :: rest =>
        let (m, rest) ← readHex4 rest
        if 56320 ≤ m ∧ m < 57344 then
          return (Char.ofNat (65536 + (n - 55296) * 1024 + (m - 56320)), rest)
        else none
    | _ => none
  else if 56320 ≤ n ∧ n < 57344 then none
  else return (Char.ofNat n, rest)

/-- One character of a string. -/
def readChar (cs : List Char) : Option (Char × List Char) :=
  match cs with
  | '\\' :: c :: rest =>
      if c = '"' ∨ c = '\\' ∨ c = '/' then some (c, rest)
      else if c = 'b' then some (Char.ofNat 8, rest)
      else if c = 'f' then some (Char.ofNat 12, rest)
      else if c = 'n' then some ('\n', rest)
      else if c = 'r' then some ('\r', rest)
      else if c = 't' then some ('\t', rest)
      else if c = 'u' then readUnicode rest
      else none
  | c :: rest => if c = '\\' ∨ c.toNat < 32 then none else some (c, rest)
  | [] => none

/-- The rest of a string after its opening quote. -/
def readString : Nat → List Char → Option (String × List Char)
  | 0, _ => none
  | n + 1, cs =>
      match cs with
      | '"' :: rest => some ("", rest)
      | cs => do
          let (c, rest) ← readChar cs
          let (s, rest) ← readString n rest
          return (String.ofList (c :: s.toList), rest)

/-! ## Values -/

def readNumber (cs : List Char) : Option (Json × List Char) :=
  let token := cs.takeWhile isNumberChar
  let rest := cs.dropWhile isNumberChar
  match readInt token with
  | some n => some (.int n, rest)
  | none => if h : isFloatText token = true then some (.float ⟨token, h⟩, rest) else none

mutual

def readValue : Nat → List Char → Option (Json × List Char)
  | 0, _ => none
  | n + 1, cs =>
      match cs with
      | 'n' :: 'u' :: 'l' :: 'l' :: rest => some (.null, rest)
      | 't' :: 'r' :: 'u' :: 'e' :: rest => some (.bool true, rest)
      | 'f' :: 'a' :: 'l' :: 's' :: 'e' :: rest => some (.bool false, rest)
      | '"' :: rest => (readString rest.length rest).map fun (s, rest) => (.str s, rest)
      | '[' :: rest =>
          match skipSpace rest with
          | ']' :: rest => some (.arr [], rest)
          | rest => (readItems n rest).map fun (items, rest) => (.arr items, rest)
      | '{' :: rest =>
          match skipSpace rest with
          | '}' :: rest => some (.obj [], rest)
          | rest => (readMembers n rest).map fun (members, rest) => (.obj members, rest)
      | cs => readNumber cs

def readItems : Nat → List Char → Option (List Json × List Char)
  | 0, _ => none
  | n + 1, cs => do
      let (x, rest) ← readValue n cs
      match skipSpace rest with
      | ']' :: rest => return ([x], rest)
      | ',' :: rest =>
          let (xs, rest) ← readItems n (skipSpace rest)
          return (x :: xs, rest)
      | _ => none

def readMembers : Nat → List Char → Option (List (String × Json) × List Char)
  | 0, _ => none
  | n + 1, cs =>
      match cs with
      | '"' :: rest => do
          let (k, rest) ← readString rest.length rest
          match skipSpace rest with
          | ':' :: rest =>
              let (x, rest) ← readValue n (skipSpace rest)
              match skipSpace rest with
              | '}' :: rest => return ([(k, x)], rest)
              | ',' :: rest =>
                  let (xs, rest) ← readMembers n (skipSpace rest)
                  return ((k, x) :: xs, rest)
              | _ => none
          | _ => none
      | _ => none

end

/-! ## Objects become dicts -/

/-- `members[key] = value`. -/
def setMember (key : String) (value : Json) : List (String × Json) → List (String × Json)
  | [] => [(key, value)]
  | (k, v) :: members =>
      if k = key then (key, value) :: members else (k, v) :: setMember key value members

def dictOf (pairs : List (String × Json)) : List (String × Json) :=
  pairs.foldl (fun members pair => setMember pair.1 pair.2 members) []

mutual

/-- Of the members of an object with one key the last counts. -/
def dicts : Json → Json
  | .arr items => .arr (dictItems items)
  | .obj members => .obj (dictOf (dictMembers members))
  | x => x

def dictItems : List Json → List Json
  | [] => []
  | x :: xs => dicts x :: dictItems xs

def dictMembers : List (String × Json) → List (String × Json)
  | [] => []
  | (k, x) :: xs => (k, dicts x) :: dictMembers xs

end

/-- `json.loads`. -/
def loads (cs : List Char) : Option Json :=
  match readValue (skipSpace cs).length (skipSpace cs) with
  | some (x, rest) => if skipSpace rest = [] then some x.dicts else none
  | none => none

/-! ## Reading back a string -/

theorem hexValue_hexDigit : ∀ {n : Nat}, n < 16 → hexValue (hexDigit n) = some n := by
  decide

theorem readHex4_hex4 {n : Nat} (hn : n < 65536) (rest : List Char) :
    readHex4 (hex4 n ++ rest) = some (n, rest) := by
  have ha := hexValue_hexDigit (n := n / 4096 % 16) (by omega)
  have hb := hexValue_hexDigit (n := n / 256 % 16) (by omega)
  have hc := hexValue_hexDigit (n := n / 16 % 16) (by omega)
  have hd := hexValue_hexDigit (n := n % 16) (by omega)
  have hvalue : ((n / 4096 % 16 * 16 + n / 256 % 16) * 16 + n / 16 % 16) * 16 + n % 16 = n := by
    omega
  simp only [hex4, List.cons_append, List.nil_append, readHex4, ha, hb, hc, hd, Option.bind_eq_bind,
    Option.bind_some, hvalue]
  rfl

theorem toNat_not_surrogate (c : Char) : c.toNat < 55296 ∨ 57344 ≤ c.toNat ∧ c.toNat < 1114112 := by
  have hvalid := c.valid
  simp only [UInt32.isValidChar, Nat.isValidChar] at hvalid
  have : c.toNat = c.val.toNat := rfl
  omega

theorem readUnicode_of_lt {c : Char} (hc : c.toNat < 65536) (rest : List Char) :
    readUnicode (hex4 c.toNat ++ rest) = some (c, rest) := by
  have hscalar := toNat_not_surrogate c
  rw [readUnicode, readHex4_hex4 hc]
  simp only [Option.bind_eq_bind, Option.bind_some]
  rw [if_neg (by omega), if_neg (by omega), Char.ofNat_toNat]
  rfl

theorem readUnicode_pair {high low : Nat} (hhigh : 55296 ≤ high ∧ high < 56320)
    (hlow : 56320 ≤ low ∧ low < 57344) (rest : List Char) :
    readUnicode (hex4 high ++ ['\\', 'u'] ++ hex4 low ++ rest) =
      some (Char.ofNat (65536 + (high - 55296) * 1024 + (low - 56320)), rest) := by
  rw [readUnicode, List.append_assoc, List.append_assoc, readHex4_hex4 (by omega)]
  simp only [Option.bind_eq_bind, Option.bind_some, List.cons_append, List.nil_append]
  rw [if_pos hhigh, readHex4_hex4 (by omega)]
  simp only [Option.bind_some]
  rw [if_pos hlow]
  rfl

theorem surrogates_value {n : Nat} (hlow : 65536 ≤ n) :
    65536 + (55296 + (n - 65536) / 1024 - 55296) * 1024 + (56320 + (n - 65536) % 1024 - 56320) =
      n := by
  omega

theorem readUnicode_surrogates {c : Char} (hc : 65536 ≤ c.toNat) (rest : List Char) :
    readUnicode (hex4 (55296 + (c.toNat - 65536) / 1024) ++ ['\\', 'u'] ++
      hex4 (56320 + (c.toNat - 65536) % 1024) ++ rest) = some (c, rest) := by
  have hscalar := toNat_not_surrogate c
  rw [readUnicode_pair ?high ?low rest, surrogates_value hc, Char.ofNat_toNat]
  case high => omega
  case low => omega

theorem readChar_unicode (rest : List Char) : readChar ('\\' :: 'u' :: rest) = readUnicode rest :=
  rfl

theorem readChar_plain {c : Char} (hslash : c ≠ '\\') (hcontrol : ¬ c.toNat < 32)
    (rest : List Char) : readChar (c :: rest) = some (c, rest) := by
  unfold readChar
  split
  · rename_i heq
    exact absurd (List.cons.inj heq).1 hslash
  · rename_i heq
    obtain ⟨rfl, rfl⟩ := List.cons.inj heq
    exact if_neg (not_or.mpr ⟨hslash, hcontrol⟩)
  · rename_i heq
    cases heq

theorem readChar_escapeChar (c : Char) (rest : List Char) :
    readChar (escapeChar c ++ rest) = some (c, rest) := by
  have hscalar := toNat_not_surrogate c
  by_cases hquote : c = '"'
  · subst hquote; rfl
  by_cases hslash : c = '\\'
  · subst hslash; rfl
  by_cases hnewline : c = '\n'
  · subst hnewline; rfl
  by_cases hreturn : c = '\r'
  · subst hreturn; rfl
  by_cases htab : c = '\t'
  · subst htab; rfl
  by_cases hback : c.toNat = 8
  · rw [← Char.ofNat_toNat c, hback]; rfl
  by_cases hfeed : c.toNat = 12
  · rw [← Char.ofNat_toNat c, hfeed]; rfl
  unfold escapeChar
  dsimp only
  rw [if_neg hquote, if_neg hslash, if_neg hnewline, if_neg hreturn, if_neg htab, if_neg hback,
    if_neg hfeed]
  by_cases hescape : c.toNat < 32 ∨ 127 ≤ c.toNat ∧ c.toNat < 65536
  · rw [if_pos hescape, List.append_assoc, List.cons_append, List.cons_append, List.nil_append,
      readChar_unicode]
    exact readUnicode_of_lt (by omega) rest
  · rw [if_neg hescape]
    by_cases hplain : c.toNat < 127
    · rw [if_pos hplain]
      exact readChar_plain hslash (by omega) rest
    · rw [if_neg hplain, List.append_assoc, List.append_assoc, List.append_assoc]
      have hpair := readUnicode_surrogates (c := c) (by omega) rest
      rw [List.append_assoc, List.append_assoc] at hpair
      rw [List.cons_append, List.cons_append, List.nil_append, readChar_unicode]
      exact hpair

/-- The characters do not start with a quote. -/
private def StartsPlain (ds : List Char) : Prop := ∃ d rest, ds = d :: rest ∧ d ≠ '"'

private theorem startsPlain_ite {p : Prop} [Decidable p] {xs ys : List Char}
    (hx : p → StartsPlain xs) (hy : ¬ p → StartsPlain ys) :
    StartsPlain (if p then xs else ys) := by
  by_cases hp : p
  · rw [if_pos hp]
    exact hx hp
  · rw [if_neg hp]
    exact hy hp

/-- An escaped character is not taken for the end of the string. -/
theorem escapeChar_start (c : Char) : ∃ d ds, escapeChar c = d :: ds ∧ d ≠ '"' := by
  have hescaped : ∀ ds, StartsPlain ('\\' :: ds) := fun ds => ⟨_, ds, rfl, by decide⟩
  change StartsPlain (escapeChar c)
  unfold escapeChar
  apply startsPlain_ite (fun _ => hescaped _)
  intro hquote
  iterate 7 apply startsPlain_ite (fun _ => hescaped _) fun _ => ?_
  exact startsPlain_ite (fun _ => ⟨c, [], rfl, hquote⟩) (fun _ => hescaped _)

theorem escapeChar_ne_quote (c : Char) (rest rest' : List Char) :
    escapeChar c ++ rest ≠ '"' :: rest' := by
  obtain ⟨d, ds, hcons, hd⟩ := escapeChar_start c
  rw [hcons]
  exact fun h => hd (List.cons.inj h).1

theorem one_le_escapeChar (c : Char) : 1 ≤ (escapeChar c).length := by
  obtain ⟨d, ds, hcons, -⟩ := escapeChar_start c
  rw [hcons]
  exact Nat.succ_pos _

theorem readString_escaped (s : List Char) (rest : List Char) {n : Nat}
    (hn : (s.flatMap escapeChar).length < n) :
    readString n (s.flatMap escapeChar ++ '"' :: rest) = some (String.ofList s, rest) := by
  induction s generalizing n with
  | nil =>
      obtain ⟨n, rfl⟩ := Nat.exists_eq_succ_of_ne_zero (Nat.ne_zero_of_lt hn)
      rfl
  | cons c s ih =>
      obtain ⟨n, rfl⟩ := Nat.exists_eq_succ_of_ne_zero (Nat.ne_zero_of_lt hn)
      have hc := one_le_escapeChar c
      rw [List.flatMap_cons, List.length_append] at hn
      rw [List.flatMap_cons, List.append_assoc, readString]
      · rw [readChar_escapeChar]
        simp only [Option.bind_eq_bind, Option.bind_some]
        rw [ih (by omega)]
        simp
      · exact fun rest' => escapeChar_ne_quote c _ rest'

theorem dumpsString_append (s : String) (rest : List Char) :
    dumpsString s ++ rest = '"' :: (s.toList.flatMap escapeChar ++ '"' :: rest) := by
  rw [dumpsString, List.append_assoc]
  rfl

theorem readString_body (s : String) (rest : List Char) :
    readString (s.toList.flatMap escapeChar ++ '"' :: rest).length
      (s.toList.flatMap escapeChar ++ '"' :: rest) = some (s, rest) := by
  rw [readString_escaped, String.ofList_toList]
  rw [List.length_append, List.length_cons]
  omega

/-! ## Reading back a number -/

/-- What follows a value does not go on with a number. -/
def Delimited (rest : List Char) : Prop := rest.head?.all (fun c => !isNumberChar c) = true

theorem isNumberChar_of_isDigit {c : Char} (h : c.isDigit = true) : isNumberChar c = true := by
  rw [isNumberChar, h, Bool.true_or]

theorem takeWhile_token {token rest : List Char} (htoken : token.all isNumberChar = true)
    (hrest : Delimited rest) : (token ++ rest).takeWhile isNumberChar = token := by
  rw [List.takeWhile_append_of_pos (List.all_eq_true.mp htoken)]
  cases rest with
  | nil => simp
  | cons c rest =>
      rw [Delimited, List.head?_cons, Option.all_some, Bool.not_eq_true'] at hrest
      rw [List.takeWhile_cons, hrest]
      simp

theorem dropWhile_token {token rest : List Char} (htoken : token.all isNumberChar = true)
    (hrest : Delimited rest) : (token ++ rest).dropWhile isNumberChar = rest := by
  rw [List.dropWhile_append_of_pos (List.all_eq_true.mp htoken)]
  cases rest with
  | nil => rfl
  | cons c rest =>
      rw [Delimited, List.head?_cons, Option.all_some, Bool.not_eq_true'] at hrest
      rw [List.dropWhile_cons, hrest]
      simp

theorem digitChar_ne_zero : ∀ {n : Nat}, n < 10 → n ≠ 0 → n.digitChar ≠ '0' := by
  decide

theorem head?_toDigits {n : Nat} (hn : n ≠ 0) : (Nat.toDigits 10 n).head?.any (· ≠ '0') = true := by
  induction n using Nat.strongRecOn with
  | ind n ih =>
      by_cases hlt : n < 10
      · rw [Nat.toDigits_of_lt_base hlt]
        exact decide_eq_true (digitChar_ne_zero hlt hn)
      · rw [Nat.toDigits_of_base_le (by decide) (Nat.le_of_not_lt hlt),
          List.head?_append_of_ne_nil _ Nat.toDigits_ne_nil]
        exact ih (n / 10) (by omega) (by omega)

theorem all_isDigit_toDigits (n : Nat) : (Nat.toDigits 10 n).all Char.isDigit = true :=
  List.all_eq_true.mpr fun _ hc => Nat.isDigit_of_mem_toDigits (by decide) (by decide) hc

theorem isNatText_toDigits (n : Nat) : isNatText (Nat.toDigits 10 n) = true := by
  rw [isNatText, all_isDigit_toDigits, Bool.true_and]
  by_cases hn : n = 0
  · subst hn
    rfl
  · rw [head?_toDigits hn, Bool.or_true]

theorem toList_repr_int (n : Int) :
    n.repr.toList = Nat.toDigits 10 n.toNat ∧ 0 ≤ n ∨
      n.repr.toList = '-' :: Nat.toDigits 10 n.natAbs ∧ n < 0 := by
  cases n with
  | ofNat n => exact .inl ⟨Nat.toList_repr, Int.natCast_nonneg n⟩
  | negSucc n =>
      right
      refine ⟨?_, Int.negSucc_lt_zero n⟩
      rw [Int.repr, String.toList_append, Nat.toList_repr]
      rfl

theorem readInt_digits {digits : List Char} (h : isNatText digits = true) :
    readInt digits = some (Nat.ofDigitChars 10 digits 0 : Int) := by
  unfold readInt
  split
  · rename_i digits
    exact absurd h (by simp [isNatText])
  · exact if_pos h

theorem readInt_repr (n : Int) : readInt n.repr.toList = some n := by
  rcases toList_repr_int n with ⟨hrepr, hn⟩ | ⟨hrepr, hn⟩
  · rw [hrepr, readInt_digits (isNatText_toDigits _),
      Nat.ofDigitChars_toDigits (by decide) (by decide), Int.toNat_of_nonneg hn]
  · rw [hrepr, readInt, if_pos (isNatText_toDigits _),
      Nat.ofDigitChars_toDigits (by decide) (by decide)]
    congr 1
    omega

theorem readNumber_int (n : Int) {rest : List Char} (hrest : Delimited rest) :
    readNumber (n.repr.toList ++ rest) = some (.int n, rest) := by
  have hdigits : ∀ m, (Nat.toDigits 10 m).all isNumberChar = true := fun m =>
    List.all_eq_true.mpr fun c hc =>
      isNumberChar_of_isDigit (List.all_eq_true.mp (all_isDigit_toDigits m) c hc)
  have htoken : n.repr.toList.all isNumberChar = true := by
    rcases toList_repr_int n with ⟨hrepr, -⟩ | ⟨hrepr, -⟩
    · rw [hrepr, hdigits]
    · rw [hrepr, List.all_cons, hdigits]
      rfl
  rw [readNumber, takeWhile_token htoken hrest, dropWhile_token htoken hrest, readInt_repr]

theorem readNumber_float (x : FloatText) {rest : List Char} (hrest : Delimited rest) :
    readNumber (x.chars ++ rest) = some (.float x, rest) := by
  obtain ⟨token, h⟩ := x
  have hfloat := h
  simp only [isFloatText, Bool.and_eq_true, Option.isNone_iff_eq_none] at h
  rw [readNumber, takeWhile_token h.1.1.1 hrest, dropWhile_token h.1.1.1 hrest]
  simp only [h.1.2, dif_pos hfloat]

/-! ## Reading back a value -/

theorem skipSpace_cons {c : Char} (hc : isJsonSpace c = false) (rest : List Char) :
    skipSpace (c :: rest) = c :: rest := by
  rw [skipSpace, List.dropWhile_cons, hc]
  rfl

theorem delimited_cons {c : Char} (hc : isNumberChar c = false) (rest : List Char) :
    Delimited (c :: rest) := by
  rw [Delimited, List.head?_cons, Option.all_some, hc]
  rfl

/-- A character that only a number begins with. -/
def isNumberStart (c : Char) : Bool := isNumberChar c && c ∉ ['n', 't', 'f']

theorem readValue_number {c : Char} (hc : isNumberStart c = true) (n : Nat) (cs : List Char) :
    readValue (n + 1) (c :: cs) = readNumber (c :: cs) := by
  rw [readValue]
  all_goals
    intro rest heq
    obtain rfl := (List.cons.inj heq).1
    revert hc
    decide

theorem isNumberStart_of_isDigit {c : Char} (h : c.isDigit = true) : isNumberStart c = true := by
  rw [isNumberStart, isNumberChar_of_isDigit h, Bool.true_and, decide_eq_true_eq]
  intro hmem
  simp only [List.mem_cons, List.not_mem_nil, or_false] at hmem
  rcases hmem with rfl | rfl | rfl <;> revert h <;> decide

theorem isNumberStart_of_isFloatStart {c : Char} (h : isFloatStart c = true) :
    isNumberStart c = true := by
  rw [isFloatStart, Bool.or_eq_true, decide_eq_true_eq] at h
  rcases h with hdigit | hmem
  · exact isNumberStart_of_isDigit hdigit
  · simp only [List.mem_cons, List.not_mem_nil, or_false] at hmem
    rcases hmem with rfl | rfl | rfl <;> decide

theorem not_space_of_isNumberStart {c : Char} (h : isNumberStart c = true) :
    isJsonSpace c = false ∧ c ≠ ']' := by
  constructor
  · rw [isJsonSpace, decide_eq_false_iff_not]
    intro hmem
    simp only [List.mem_cons, List.not_mem_nil, or_false] at hmem
    rcases hmem with rfl | rfl | rfl | rfl <;> revert h <;> decide
  · rintro rfl
    revert h
    decide

theorem repr_start (n : Int) :
    ∃ c cs, n.repr.toList = c :: cs ∧ isNumberStart c = true := by
  rcases toList_repr_int n with ⟨hrepr, -⟩ | ⟨hrepr, -⟩
  · obtain ⟨c, cs, hcons⟩ := List.exists_cons_of_ne_nil (Nat.toDigits_ne_nil (n := n.toNat) (b := 10))
    refine ⟨c, cs, hrepr.trans hcons, isNumberStart_of_isDigit ?_⟩
    apply List.all_eq_true.mp (all_isDigit_toDigits n.toNat)
    rw [hcons]
    exact List.mem_cons_self
  · exact ⟨_, _, hrepr, by decide⟩

theorem float_start (x : FloatText) : ∃ c cs, x.chars = c :: cs ∧ isNumberStart c = true := by
  obtain ⟨token, h⟩ := x
  simp only [isFloatText, Bool.and_eq_true] at h
  cases token with
  | nil => cases h.1.1.2
  | cons c cs => exact ⟨c, cs, rfl, isNumberStart_of_isFloatStart h.1.1.2⟩

variable (sep : Separators)

theorem writeChars_start (x : Json) :
    ∃ c cs, writeChars sep x = c :: cs ∧ isJsonSpace c = false ∧ c ≠ ']' := by
  cases x with
  | null => exact ⟨_, _, rfl, by decide⟩
  | bool b => cases b <;> exact ⟨_, _, rfl, by decide⟩
  | int n =>
      obtain ⟨c, cs, hcons, hc⟩ := repr_start n
      exact ⟨c, cs, by rw [writeChars, hcons], not_space_of_isNumberStart hc⟩
  | float x =>
      obtain ⟨c, cs, hcons, hc⟩ := float_start x
      exact ⟨c, cs, by rw [writeChars, hcons], not_space_of_isNumberStart hc⟩
  | str s => exact ⟨'"', _, by rw [writeChars, dumpsString]; rfl, by decide⟩
  | arr items => exact ⟨'[', _, by rw [writeChars]; rfl, by decide⟩
  | obj members => exact ⟨'{', _, by rw [writeChars]; rfl, by decide⟩

theorem skipSpace_writeChars (x : Json) (rest : List Char) :
    skipSpace (writeChars sep x ++ rest) = writeChars sep x ++ rest := by
  obtain ⟨c, cs, hcons, hc, -⟩ := writeChars_start sep x
  rw [hcons]
  exact skipSpace_cons hc _

theorem skipSpace_item (cs : List Char) :
    ∃ rest, skipSpace (sep.item ++ cs) = ',' :: rest ∧ skipSpace rest = skipSpace cs := by
  cases sep <;> exact ⟨_, rfl, rfl⟩

theorem skipSpace_key (cs : List Char) :
    ∃ rest, skipSpace (sep.key ++ cs) = ':' :: rest ∧ skipSpace rest = skipSpace cs := by
  cases sep <;> exact ⟨_, rfl, rfl⟩

theorem item_length_pos : 0 < sep.item.length := by
  cases sep <;> decide

theorem delimited_item (cs : List Char) : Delimited (sep.item ++ cs) := by
  cases sep <;> exact delimited_cons (by decide) _

theorem readValue_arr {c : Char} (hspace : isJsonSpace c = false) (hc : c ≠ ']') (n : Nat)
    (cs : List Char) :
    readValue (n + 1) ('[' :: c :: cs) =
      (readItems n (c :: cs)).map fun (items, rest) => (.arr items, rest) := by
  rw [readValue]
  simp only [skipSpace_cons hspace]
  split
  · rename_i heq
    exact absurd (List.cons.inj heq).1 hc
  · rfl

theorem readValue_obj (n : Nat) (cs : List Char) :
    readValue (n + 1) ('{' :: '"' :: cs) =
      (readMembers n ('"' :: cs)).map fun (members, rest) => (.obj members, rest) := by
  rw [readValue]
  rfl

theorem writeItems_start (x : Json) (xs : List Json) :
    ∃ c cs, writeItems sep (x :: xs) = c :: cs ∧ isJsonSpace c = false ∧ c ≠ ']' := by
  obtain ⟨c, cs, hcons, hc⟩ := writeChars_start sep x
  cases xs with
  | nil => exact ⟨c, cs, by rw [writeItems, hcons], hc⟩
  | cons y ys =>
      refine ⟨c, cs ++ sep.item ++ writeItems sep (y :: ys), ?_, hc⟩
      rw [writeItems_cons, hcons, List.cons_append, List.cons_append]

theorem writeMembers_start (member : String × Json) (members : List (String × Json)) :
    ∃ cs, writeMembers sep (member :: members) = '"' :: cs := by
  obtain ⟨k, x⟩ := member
  cases members with
  | nil => exact ⟨_, by rw [writeMembers, dumpsString]; rfl⟩
  | cons y ys =>
      rw [writeMembers_cons, dumpsString]
      exact ⟨_, rfl⟩

section

variable (n : Nat)

/-- With `n` steps a value is read back whose text has at most `n` characters. -/
def ReadsValue : Prop :=
  ∀ x rest, (writeChars sep x).length ≤ n → Delimited rest →
    readValue n (writeChars sep x ++ rest) = some (x, rest)

def ReadsItems : Prop :=
  ∀ x xs rest, (writeItems sep (x :: xs)).length < n →
    readItems n (writeItems sep (x :: xs) ++ ']' :: rest) = some (x :: xs, rest)

def ReadsMembers : Prop :=
  ∀ member members rest, (writeMembers sep (member :: members)).length < n →
    readMembers n (writeMembers sep (member :: members) ++ '}' :: rest) =
      some (member :: members, rest)

end

variable {sep}

theorem readsValue_succ {n : Nat} (hitems : ReadsItems sep n) (hmembers : ReadsMembers sep n) :
    ReadsValue sep (n + 1) := by
  intro x rest hn hrest
  match x with
  | .null => rfl
  | .bool true => rfl
  | .bool false => rfl
  | .int m =>
      obtain ⟨c, cs, hcons, hc⟩ := repr_start m
      rw [← readNumber_int m hrest, writeChars, hcons, List.cons_append, readValue_number hc]
  | .float f =>
      obtain ⟨c, cs, hcons, hc⟩ := float_start f
      rw [← readNumber_float f hrest, writeChars, hcons, List.cons_append, readValue_number hc]
  | .str s =>
      rw [writeChars, dumpsString_append, readValue, readString_body]
      rfl
  | .arr [] => rfl
  | .arr (item :: items) =>
      rw [writeChars, List.length_append, List.length_cons, List.length_singleton] at hn
      obtain ⟨c, cs, hcons, hspace, hc⟩ := writeItems_start sep item items
      have hread := hitems item items rest (by omega)
      rw [hcons] at hread
      rw [writeChars, hcons, List.append_assoc, List.cons_append, List.cons_append,
        readValue_arr hspace hc]
      exact congrArg _ hread
  | .obj [] => rfl
  | .obj (member :: members) =>
      rw [writeChars, List.length_append, List.length_cons, List.length_singleton] at hn
      obtain ⟨cs, hcons⟩ := writeMembers_start sep member members
      have hread := hmembers member members rest (by omega)
      rw [hcons] at hread
      rw [writeChars, hcons, List.append_assoc, List.cons_append, List.cons_append, readValue_obj]
      exact congrArg _ hread

theorem readsItems_succ {n : Nat} (hvalue : ReadsValue sep n) (hitems : ReadsItems sep n) :
    ReadsItems sep (n + 1) := by
  intro x xs rest hn
  cases xs with
  | nil =>
      rw [writeItems] at hn ⊢
      rw [readItems, hvalue x _ (by omega) (delimited_cons (by decide) rest)]
      rfl
  | cons y ys =>
      rw [writeItems_cons] at hn ⊢
      have hpos := item_length_pos sep
      rw [List.length_append, List.length_append] at hn
      have hys := hitems y ys rest (by omega)
      obtain ⟨c, cs, hcons, hspace, -⟩ := writeItems_start sep y ys
      obtain ⟨tail, hitem, htail⟩ :=
        skipSpace_item sep (writeItems sep (y :: ys) ++ ']' :: rest)
      rw [hcons, List.cons_append, skipSpace_cons hspace, ← List.cons_append, ← hcons] at htail
      rw [List.append_assoc, List.append_assoc, readItems,
        hvalue x _ (by omega) (delimited_item sep _)]
      simp only [Option.bind_eq_bind, Option.bind_some, hitem, htail, hys]
      rfl

theorem readsMembers_succ {n : Nat} (hvalue : ReadsValue sep n) (hmembers : ReadsMembers sep n) :
    ReadsMembers sep (n + 1) := by
  rintro ⟨k, x⟩ members rest hn
  cases members with
  | nil =>
      rw [writeMembers] at hn ⊢
      rw [List.length_append, List.length_append] at hn
      have hx := hvalue x ('}' :: rest) (by omega) (delimited_cons (by decide) rest)
      obtain ⟨tail, hkey, htail⟩ := skipSpace_key sep (writeChars sep x ++ '}' :: rest)
      rw [skipSpace_writeChars] at htail
      rw [List.append_assoc, List.append_assoc, dumpsString_append, readMembers, readString_body]
      simp only [Option.bind_eq_bind, Option.bind_some, hkey, htail, hx]
      rfl
  | cons y ys =>
      rw [writeMembers_cons] at hn ⊢
      have hpos := item_length_pos sep
      simp only [List.length_append] at hn
      have hys := hmembers y ys rest (by omega)
      obtain ⟨cs, hcons⟩ := writeMembers_start sep y ys
      obtain ⟨tail, hitem, htail⟩ :=
        skipSpace_item sep (writeMembers sep (y :: ys) ++ '}' :: rest)
      rw [hcons, List.cons_append, skipSpace_cons (by decide), ← List.cons_append, ← hcons] at htail
      have hx := hvalue x (sep.item ++ (writeMembers sep (y :: ys) ++ '}' :: rest)) (by omega)
        (delimited_item sep _)
      obtain ⟨tail', hkey, htail'⟩ := skipSpace_key sep
        (writeChars sep x ++ (sep.item ++ (writeMembers sep (y :: ys) ++ '}' :: rest)))
      rw [skipSpace_writeChars] at htail'
      simp only [List.append_assoc]
      rw [dumpsString_append, readMembers, readString_body]
      simp only [Option.bind_eq_bind, Option.bind_some, hkey, htail', hx, hitem, htail, hys]
      rfl

theorem reads (sep : Separators) (n : Nat) :
    ReadsValue sep n ∧ ReadsItems sep n ∧ ReadsMembers sep n := by
  induction n with
  | zero =>
      refine ⟨fun x rest hn => ?_, fun _ _ _ hn => (Nat.not_lt_zero _ hn).elim,
        fun _ _ _ hn => (Nat.not_lt_zero _ hn).elim⟩
      obtain ⟨c, cs, hcons, -⟩ := writeChars_start sep x
      rw [hcons] at hn
      exact absurd hn (Nat.not_succ_le_zero _)
  | succ n ih =>
      obtain ⟨hvalue, hitems, hmembers⟩ := ih
      exact ⟨readsValue_succ hitems hmembers, readsItems_succ hvalue hitems,
        readsMembers_succ hvalue hmembers⟩

theorem readValue_writeChars (sep : Separators) (x : Json) :
    readValue (writeChars sep x).length (writeChars sep x) = some (x, []) := by
  have hread := (reads sep _).1 x [] (le_refl _) rfl
  rw [List.append_nil] at hread
  exact hread

theorem writeChars_injective (sep : Separators) : Function.Injective (writeChars sep) := by
  intro x y h
  have hx := readValue_writeChars sep x
  rw [h, readValue_writeChars sep y] at hx
  exact (congrArg Prod.fst (Option.some.inj hx)).symm

theorem dumps_injective : Function.Injective dumps := fun _ _ h =>
  writeChars_injective .default (String.ofList_injective h)

/-- `json.loads(json.dumps(x))` is `x` with dicts for its objects. -/
theorem loads_writeChars (sep : Separators) (x : Json) :
    loads (writeChars sep x) = some x.dicts := by
  have hskip := skipSpace_writeChars sep x []
  rw [List.append_nil] at hskip
  rw [loads, hskip, readValue_writeChars]
  rfl

end Json

end Hypernote.Foundation
