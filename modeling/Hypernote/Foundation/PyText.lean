import Hypernote.Foundation.Json
import Mathlib.Data.List.DropRight
import Mathlib.Data.List.Induction
/-!
# Strings as Python handles them

`repr`, `str`, `split`, `strip` and `rstrip` on the code points of a string.  Which characters
beyond ASCII are printable is a table of the Unicode database: it is a parameter.
-/

namespace Hypernote.Foundation

/-- A Python string as its code points. -/
abbrev Chars := List Char

namespace PyText

def hex2 (n : Nat) : Chars := [Json.hexDigit (n / 16 % 16), Json.hexDigit (n % 16)]

variable (printable : Char → Bool)

/-- One character of `repr(s)` between quotes of the given kind. -/
def reprChar (quote c : Char) : Chars :=
  let n := c.toNat
  if c = quote ∨ c = '\\' then ['\\', c]
  else if c = '\t' then ['\\', 't']
  else if c = '\n' then ['\\', 'n']
  else if c = '\r' then ['\\', 'r']
  else if n < 32 ∨ n = 127 then ['\\', 'x'] ++ hex2 n
  else if n < 127 ∨ printable c = true then [c]
  else if n < 256 then ['\\', 'x'] ++ hex2 n
  else if n < 65536 then ['\\', 'u'] ++ Json.hex4 n
  else ['\\', 'U'] ++ Json.hex4 (n / 65536) ++ Json.hex4 n

/-- The quotes of `repr(s)`: double ones where single ones would have to be escaped. -/
def reprQuote (s : Chars) : Char := if '\'' ∈ s ∧ '"' ∉ s then '"' else '\''

/-- `repr` of a string. -/
def repr (s : Chars) : Chars :=
  reprQuote s :: s.flatMap (reprChar printable (reprQuote s)) ++ [reprQuote s]

/-- `repr` of a list of strings. -/
def reprList (items : List Chars) : Chars :=
  '[' :: ([',', ' '] : Chars).intercalate (items.map (repr printable)) ++ [']']

mutual

/-- `repr` of a value that `json` has read. -/
def reprJson : Json → Chars
  | .null => "None".toList
  | .bool true => "True".toList
  | .bool false => "False".toList
  | .int n => n.repr.toList
  | .float x =>
      if x.chars = "NaN".toList then "nan".toList
      else if x.chars = "Infinity".toList then "inf".toList
      else if x.chars = "-Infinity".toList then "-inf".toList
      else x.chars
  | .str s => repr printable s.toList
  | .arr items => '[' :: reprItems items ++ [']']
  | .obj members => '{' :: reprMembers members ++ ['}']

def reprItems : List Json → Chars
  | [] => []
  | [x] => reprJson x
  | x :: xs => reprJson x ++ [',', ' '] ++ reprItems xs

def reprMembers : List (String × Json) → Chars
  | [] => []
  | [(k, x)] => repr printable k.toList ++ [':', ' '] ++ reprJson x
  | (k, x) :: xs =>
      repr printable k.toList ++ [':', ' '] ++ reprJson x ++ [',', ' '] ++ reprMembers xs

end

/-- `str` of a value that `json` has read. -/
def str : Json → Chars
  | .str s => s.toList
  | x => reprJson printable x

example : reprList (fun _ => true) ["it's".toList, "a\n".toList] = "[\"it's\", 'a\\n']".toList := by
  decide

/-! ## A `repr` is longer than what it stands for -/

theorem length_le_flatMap {α β : Type} {f : α → List β} (hf : ∀ a, 1 ≤ (f a).length) (xs : List α) :
    xs.length ≤ (xs.flatMap f).length := by
  induction xs with
  | nil => exact le_refl 0
  | cons x xs ih =>
      have hx := hf x
      rw [List.flatMap_cons, List.length_append, List.length_cons]
      omega

theorem one_le_reprChar (quote c : Char) : 1 ≤ (reprChar printable quote c).length := by
  unfold reprChar
  dsimp only
  repeat' split
  all_goals simp

theorem length_lt_repr (s : Chars) : s.length < (repr printable s).length := by
  have hs := length_le_flatMap (one_le_reprChar printable (reprQuote s)) s
  rw [repr, List.length_append, List.length_cons]
  omega

theorem length_le_intercalate {α : Type} (sep : List α) (xss : List (List α)) :
    xss.flatten.length ≤ (sep.intercalate xss).length := by
  induction xss with
  | nil => exact le_refl 0
  | cons xs xss ih =>
      cases xss with
      | nil => simp [List.intercalate]
      | cons ys yss =>
          simp only [List.intercalate, List.intersperse_cons_cons, List.flatten_cons,
            List.length_append] at ih ⊢
          omega

theorem length_lt_reprList (items : List Chars) :
    items.flatten.length < (reprList printable items).length := by
  have hitems : items.flatten.length ≤ (items.map (repr printable)).flatten.length := by
    induction items with
    | nil => exact le_refl 0
    | cons s items ih =>
        have hs := length_lt_repr printable s
        simp only [List.map_cons, List.flatten_cons, List.length_append]
        omega
  have hsep := length_le_intercalate [',', ' '] (items.map (repr printable))
  rw [reprList, List.length_append, List.length_cons]
  omega

/-! ## White space -/

/-- `c.isspace()`. -/
def isSpace (c : Char) : Bool :=
  let n := c.toNat
  9 ≤ n && n ≤ 13 || 28 ≤ n && n ≤ 32 || n = 133 || n = 160 || n = 5760 ||
    8192 ≤ n && n ≤ 8202 || n = 8232 || n = 8233 || n = 8239 || n = 8287 || n = 12288

/-- `s.split()`, the word begun so far given. -/
def splitFrom : Chars → Chars → List Chars
  | word, [] => if word = [] then [] else [word]
  | word, c :: cs =>
      if isSpace c then (if word = [] then [] else [word]) ++ splitFrom [] cs
      else splitFrom (word ++ [c]) cs

/-- `" ".join(s.split())`. -/
def joinWords (s : Chars) : Chars := ([' '] : Chars).intercalate (splitFrom [] s)

/-- `s.rstrip()`. -/
def rstrip (s : Chars) : Chars := s.rdropWhile isSpace

/-- `s.strip()`. -/
def strip (s : Chars) : Chars := rstrip (s.dropWhile isSpace)

example : joinWords " a\n\tbc ".toList = "a bc".toList := by decide

theorem length_intercalate_cons_le (word : Chars) (words : List Chars) :
    (([' '] : Chars).intercalate (word :: words)).length ≤
      word.length + 1 + (([' '] : Chars).intercalate words).length := by
  cases words with
  | nil => simp [List.intercalate]
  | cons w words =>
      simp only [List.intercalate, List.intersperse_cons_cons, List.flatten_cons,
        List.length_append, List.length_singleton]
      omega

theorem length_splitFrom_le (word s : Chars) :
    (([' '] : Chars).intercalate (splitFrom word s)).length ≤ word.length + s.length := by
  induction s generalizing word with
  | nil =>
      rw [splitFrom]
      split <;> simp [List.intercalate]
  | cons c s ih =>
      rw [splitFrom, List.length_cons]
      split
      · have hrest := ih []
        split
        · rw [List.nil_append]
          simp only [List.length_nil] at hrest
          omega
        · have hcons := length_intercalate_cons_le word (splitFrom [] s)
          simp only [List.length_nil] at hrest
          rw [List.singleton_append]
          omega
      · have hrest := ih (word ++ [c])
        simp only [List.length_append, List.length_singleton] at hrest
        omega

theorem length_joinWords_le (s : Chars) : (joinWords s).length ≤ s.length := by
  simpa [joinWords] using length_splitFrom_le [] s

/-- `"".join(s.split())` removes the white space. -/
theorem flatten_splitFrom (word s : Chars) :
    (splitFrom word s).flatten = word ++ s.filter fun c => !isSpace c := by
  induction s generalizing word with
  | nil =>
      rw [splitFrom]
      split
      · rename_i hword
        rw [hword]
        rfl
      · simp
  | cons c s ih =>
      rw [splitFrom]
      split
      · rename_i hspace
        rw [List.filter_cons_of_neg (by simp [hspace]), List.flatten_append, ih]
        split
        · rename_i hword
          rw [hword]
          rfl
        · simp
      · rename_i hspace
        rw [List.filter_cons_of_pos (by simp [hspace]), ih, List.append_assoc]
        rfl

/-! ## Words joined by blanks, character by character -/

/-- What `joinWords` makes of the text that follows a character of a word. -/
def joinRest : Chars → Chars
  | [] => []
  | c :: cs =>
      if isSpace c then (if joinWords cs = [] then [] else ' ' :: joinWords cs) else c :: joinRest cs

theorem intercalate_cons_cons (word w : Chars) (words : List Chars) :
    (([' '] : Chars).intercalate (word :: w :: words)) =
      word ++ ' ' :: (([' '] : Chars).intercalate (w :: words)) := by
  simp only [List.intercalate, List.intersperse_cons_cons, List.flatten_cons, List.singleton_append]

theorem intercalate_splitFrom (s : Chars) :
    (∀ word, word ≠ [] →
        ([' '] : Chars).intercalate (splitFrom word s) = word ++ joinRest s) ∧
      (joinWords s = [] → splitFrom [] s = []) := by
  induction s with
  | nil =>
      refine ⟨fun word hword => ?_, fun _ => rfl⟩
      rw [splitFrom, if_neg hword]
      simp [List.intercalate, joinRest]
  | cons c cs ih =>
      obtain ⟨hwords, hempty⟩ := ih
      constructor
      · intro word hword
        rw [splitFrom, joinRest, if_neg hword]
        split
        · by_cases hrest : joinWords cs = []
          · rw [hempty hrest, if_pos hrest]
            simp [List.intercalate]
          · rw [if_neg hrest, joinWords]
            cases hsplit : splitFrom [] cs with
            | nil =>
                rw [joinWords, hsplit] at hrest
                exact absurd rfl hrest
            | cons w words => exact intercalate_cons_cons word w words
        · rw [hwords (word ++ [c]) (List.append_ne_nil_of_right_ne_nil _ (List.cons_ne_nil c [])),
            List.append_assoc, List.singleton_append]
      · intro hjoin
        rw [joinWords, splitFrom] at hjoin
        rw [splitFrom]
        split at hjoin
        · rename_i hspace
          rw [if_pos hspace]
          exact hempty hjoin
        · rw [List.nil_append, hwords [c] (List.cons_ne_nil c [])] at hjoin
          cases hjoin

theorem joinWords_cons (c : Char) (cs : Chars) :
    joinWords (c :: cs) = if isSpace c then joinWords cs else c :: joinRest cs := by
  rw [joinWords, splitFrom]
  split
  · rfl
  · exact (intercalate_splitFrom cs).1 [c] (List.cons_ne_nil c [])

theorem joinWords_joinWords_joinRest (s : Chars) :
    joinWords (joinWords s) = joinWords s ∧ joinRest (joinRest s) = joinRest s := by
  induction s with
  | nil => exact ⟨rfl, rfl⟩
  | cons c cs ih =>
      obtain ⟨hwords, hrest⟩ := ih
      rw [joinWords_cons, joinRest]
      by_cases hspace : isSpace c = true
      · rw [if_pos hspace, if_pos hspace]
        refine ⟨hwords, ?_⟩
        by_cases hempty : joinWords cs = []
        · rw [if_pos hempty]
          rfl
        · rw [if_neg hempty, joinRest, if_pos (by decide), hwords, if_neg hempty]
      · rw [if_neg hspace, if_neg hspace, joinWords_cons, if_neg hspace, joinRest, if_neg hspace,
          hrest]
        exact ⟨rfl, rfl⟩

theorem joinWords_joinWords (s : Chars) : joinWords (joinWords s) = joinWords s :=
  (joinWords_joinWords_joinRest s).1

theorem not_isSpace_getLast?_rstrip (s : Chars) : ∀ c ∈ (rstrip s).getLast?, isSpace c = false := by
  intro c hc
  obtain ⟨hne, rfl⟩ := List.mem_getLast?_eq_getLast hc
  exact Bool.eq_false_iff.mpr (List.rdropWhile_last_not isSpace s hne)

/-- The more there is, the more is left. -/
theorem rstrip_prefix_rstrip {s t : Chars} (h : s <+: t) : rstrip s <+: rstrip t := by
  induction t using List.reverseRecOn with
  | nil =>
      obtain rfl := List.prefix_nil.mp h
      exact List.prefix_rfl
  | append_singleton t c ih =>
      rcases List.prefix_concat_iff.mp h with rfl | h
      · exact List.prefix_rfl
      · rw [rstrip, rstrip, List.rdropWhile_concat]
        split
        · exact ih h
        · exact (List.rdropWhile_prefix isSpace s).trans (h.trans (List.prefix_append t [c]))

theorem strip_sublist (s : Chars) : (strip s).Sublist s :=
  (List.rdropWhile_prefix isSpace _).sublist.trans (List.dropWhile_suffix isSpace).sublist

/-- `strip` leaves a text alone exactly if it has no white space at its ends. -/
theorem strip_eq_self_iff {s : Chars} :
    strip s = s ↔ (∀ c ∈ s.head?, isSpace c = false) ∧ ∀ c ∈ s.getLast?, isSpace c = false := by
  constructor
  · intro h
    have hdrop : s.dropWhile isSpace = s := by
      refine (List.dropWhile_suffix isSpace).eq_of_length_le ?_
      rw [← congrArg List.length h]
      exact (List.rdropWhile_prefix isSpace _).length_le
    have hlast := not_isSpace_getLast?_rstrip s
    rw [strip, hdrop] at h
    rw [h] at hlast
    refine ⟨fun c hc => ?_, hlast⟩
    cases s with
    | nil => cases hc
    | cons d rest =>
        obtain rfl : d = c := Option.some.inj hc
        by_contra hspace
        rw [List.dropWhile_cons_of_pos (by simpa using hspace)] at hdrop
        exact absurd (congrArg List.length hdrop)
          ((List.dropWhile_suffix isSpace).length_le.trans_lt (Nat.lt_succ_self _)).ne
  · rintro ⟨hhead, hlast⟩
    have hdrop : s.dropWhile isSpace = s := by
      cases s with
      | nil => rfl
      | cons c rest => exact List.dropWhile_cons_of_neg (by simp [hhead c rfl])
    rw [strip, hdrop, rstrip, List.rdropWhile_eq_self_iff]
    intro hne
    rw [hlast _ (List.getLast?_eq_some_getLast hne)]
    simp

theorem length_rstrip_le (s : Chars) : (rstrip s).length ≤ s.length :=
  (List.rdropWhile_prefix isSpace s).length_le

end PyText

end Hypernote.Foundation
