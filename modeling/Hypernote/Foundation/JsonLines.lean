import Hypernote.Foundation.JsonValue
/-!
# Values on lines

A text of JSON values with one value on each line.  A reader takes the lines that are complete, so
from any first part of the text it gets the first of the values, and never one that is none.
-/

namespace Hypernote.Foundation.Json

/-! ## The characters of a text -/

/-- All characters are those of ASCII that print. -/
def Printed (cs : List Char) : Prop := ∀ c ∈ cs, 32 ≤ c.toNat ∧ c.toNat < 127

instance (cs : List Char) : Decidable (Printed cs) := List.decidableBAll _ cs

theorem Printed.append {cs ds : List Char} (hcs : Printed cs) (hds : Printed ds) :
    Printed (cs ++ ds) :=
  List.forall_mem_append.mpr ⟨hcs, hds⟩

theorem Printed.cons {c : Char} {cs : List Char} (hc : 32 ≤ c.toNat ∧ c.toNat < 127)
    (hcs : Printed cs) : Printed (c :: cs) :=
  List.forall_mem_cons.mpr ⟨hc, hcs⟩

theorem Printed.newline_not_mem {cs : List Char} (h : Printed cs) : '\n' ∉ cs := fun hmem =>
  absurd (h _ hmem).1 (by decide)

theorem printed_hexDigit {k : Nat} (hk : k < 16) :
    32 ≤ (hexDigit k).toNat ∧ (hexDigit k).toNat < 127 := by
  have hall : Printed ((List.range 16).map hexDigit) := by decide
  exact hall _ (List.mem_map.mpr ⟨k, List.mem_range.mpr hk, rfl⟩)

theorem printed_hex4 (n : Nat) : Printed (hex4 n) := by
  have hdigit (m : Nat) := printed_hexDigit (Nat.mod_lt m (by decide : 16 > 0))
  exact .cons (hdigit _) (.cons (hdigit _) (.cons (hdigit _) (.cons (hdigit _)
    (List.forall_mem_nil _))))

theorem printed_unicode (n : Nat) : Printed (['\\', 'u'] ++ hex4 n) :=
  Printed.append (by decide) (printed_hex4 n)

theorem printed_escapeChar (c : Char) : Printed (escapeChar c) := by
  have hunicode := printed_unicode c.toNat
  have hpair : Printed (['\\', 'u'] ++ hex4 (55296 + (c.toNat - 65536) / 1024) ++
      ['\\', 'u'] ++ hex4 (56320 + (c.toNat - 65536) % 1024)) := by
    rw [List.append_assoc _ ['\\', 'u']]
    exact (printed_unicode _).append (printed_unicode _)
  simp only [escapeChar]
  split_ifs
  all_goals first
    | decide
    | assumption
    | exact .cons (by omega) (List.forall_mem_nil _)

theorem printed_dumpsString (s : String) : Printed (dumpsString s) := by
  have hbody : Printed (s.toList.flatMap escapeChar) := by
    intro c hc
    obtain ⟨d, -, hc⟩ := List.mem_flatMap.mp hc
    exact printed_escapeChar d c hc
  exact .append (.cons (by decide) hbody) (by decide)

theorem printed_of_isNumberChar {cs : List Char} (h : cs.all isNumberChar = true) : Printed cs := by
  intro c hc
  have hnumber := List.all_eq_true.mp h c hc
  rw [isNumberChar, Bool.or_eq_true, decide_eq_true_eq] at hnumber
  rcases hnumber with hdigit | hother
  · obtain ⟨hlow, hhigh⟩ := Char.isDigit_iff_toNat.mp hdigit
    have h0 : '0'.toNat = 48 := rfl
    have h9 : '9'.toNat = 57 := rfl
    omega
  · have hall : Printed ['+', '-', '.', 'e', 'E', 'N', 'a', 'I', 'n', 'f', 'i', 't', 'y'] := by
      decide
    exact hall c hother

theorem printed_repr (n : Int) : Printed n.repr.toList := by
  have hdigits (m : Nat) : Printed (Nat.toDigits 10 m) :=
    printed_of_isNumberChar (List.all_eq_true.mpr fun c hc =>
      isNumberChar_of_isDigit (List.all_eq_true.mp (all_isDigit_toDigits m) c hc))
  rcases toList_repr_int n with ⟨hrepr, -⟩ | ⟨hrepr, -⟩
  · rw [hrepr]
    exact hdigits _
  · rw [hrepr]
    exact .cons (by decide) (hdigits _)

theorem printed_float (x : FloatText) : Printed x.chars := by
  have hfloat := x.isFloat
  simp only [isFloatText, Bool.and_eq_true] at hfloat
  exact printed_of_isNumberChar hfloat.1.1.1

section

variable (sep : Separators)

theorem printed_item : Printed sep.item := by cases sep <;> decide

theorem printed_key : Printed sep.key := by cases sep <;> decide

mutual

theorem printed_writeChars (x : Json) : Printed (writeChars sep x) := by
  match x with
  | .null => exact (by decide : Printed ['n', 'u', 'l', 'l'])
  | .bool true => exact (by decide : Printed ['t', 'r', 'u', 'e'])
  | .bool false => exact (by decide : Printed ['f', 'a', 'l', 's', 'e'])
  | .int n => exact printed_repr n
  | .float x => exact printed_float x
  | .str s => exact printed_dumpsString s
  | .arr items => exact .append (.cons (by decide) (printed_writeItems items)) (by decide)
  | .obj members => exact .append (.cons (by decide) (printed_writeMembers members)) (by decide)

theorem printed_writeItems (xs : List Json) : Printed (writeItems sep xs) := by
  match xs with
  | [] => exact List.forall_mem_nil _
  | [x] => exact printed_writeChars x
  | x :: y :: ys =>
      rw [writeItems_cons]
      exact .append (.append (printed_writeChars x) (printed_item sep))
        (printed_writeItems (y :: ys))

theorem printed_writeMembers (ms : List (String × Json)) : Printed (writeMembers sep ms) := by
  match ms with
  | [] => exact List.forall_mem_nil _
  | [(k, x)] =>
      exact .append (.append (printed_dumpsString k) (printed_key sep)) (printed_writeChars x)
  | (k, x) :: y :: ys =>
      rw [writeMembers_cons]
      exact .append (.append (.append (.append (printed_dumpsString k) (printed_key sep))
        (printed_writeChars x)) (printed_item sep)) (printed_writeMembers (y :: ys))

end

end

/-! ## Lines -/

/-- Each value on a line of its own. -/
def writeLines (xs : List Json) : List Char :=
  xs.flatMap fun x => writeChars .compact x ++ ['\n']

/-- The lines of a text that a line break ends. -/
def completeLines (text : List Char) : List (List Char) := (text.splitOn '\n').dropLast

/-- The values on the complete lines. -/
def readLines (text : List Char) : Option (List Json) := (completeLines text).mapM loads

theorem completeLines_of_not_mem {text : List Char} (h : '\n' ∉ text) :
    completeLines text = [] := by
  rw [completeLines, List.splitOn_eq_singleton h]
  rfl

theorem completeLines_append {line : List Char} (h : '\n' ∉ line) (rest : List Char) :
    completeLines (line ++ '\n' :: rest) = line :: completeLines rest := by
  rw [completeLines, List.splitOn_append_cons_self, List.splitOn_eq_singleton h,
    List.singleton_append, List.dropLast_cons_of_ne_nil (List.splitOn_ne_nil _ _)]
  rfl

theorem readLines_append {x : Json} (hx : UniqueKeys x) (rest : List Char) :
    readLines (writeChars .compact x ++ '\n' :: rest) = (readLines rest).map (x :: ·) := by
  rw [readLines, completeLines_append (printed_writeChars .compact x).newline_not_mem,
    List.mapM_cons, loads_writeChars, hx.dicts_eq, readLines]
  cases (completeLines rest).mapM loads <;> rfl

/-- The values whose line is complete in a first part of the text are the first values. -/
theorem readLines_prefix {xs : List Json} (hxs : ∀ x ∈ xs, UniqueKeys x) {text : List Char}
    (h : text <+: writeLines xs) : readLines text = some (xs.take (text.count '\n')) := by
  induction xs generalizing text with
  | nil =>
      obtain rfl := List.prefix_nil.mp h
      rfl
  | cons x xs ih =>
      have hline := (printed_writeChars .compact x).newline_not_mem
      have hlines : writeLines (x :: xs) = writeChars .compact x ++ '\n' :: writeLines xs := by
        simp [writeLines]
      rw [hlines] at h
      rcases List.prefix_or_prefix_of_prefix h (List.prefix_append _ _) with hshort | hlong
      · -- the first line is not complete
        have hnot : '\n' ∉ text := fun hmem => hline (hshort.subset hmem)
        rw [readLines, completeLines_of_not_mem hnot, List.count_eq_zero.mpr hnot]
        rfl
      · obtain ⟨rest, rfl⟩ := hlong
        rw [List.prefix_append_right_inj] at h
        cases rest with
        | nil =>
            rw [List.append_nil, readLines, completeLines_of_not_mem hline,
              List.count_eq_zero.mpr hline]
            rfl
        | cons c rest =>
            obtain ⟨rfl, hrest⟩ := List.cons_prefix_cons.mp h
            rw [readLines_append (hxs x List.mem_cons_self),
              ih (fun y hy => hxs y (List.mem_cons_of_mem x hy)) hrest, List.count_append,
              List.count_eq_zero.mpr hline, List.count_cons_self, Nat.zero_add]
            rfl

theorem count_writeLines (xs : List Json) : (writeLines xs).count '\n' = xs.length := by
  induction xs with
  | nil => rfl
  | cons x xs ih =>
      have hline := (printed_writeChars .compact x).newline_not_mem
      rw [writeLines, List.flatMap_cons, ← writeLines, List.count_append, List.count_append,
        List.count_eq_zero.mpr hline, ih, List.length_cons]
      exact Nat.add_comm 1 _

/-- A first part of the text with as many line breaks as values is the text. -/
theorem eq_writeLines_iff {xs : List Json} {text : List Char} (h : text <+: writeLines xs) :
    text = writeLines xs ↔ xs.length ≤ text.count '\n' := by
  constructor
  · rintro rfl
    rw [count_writeLines]
  · intro hcount
    obtain ⟨rest, heq⟩ := h
    have hsum : text.count '\n' + rest.count '\n' = xs.length := by
      rw [← List.count_append, heq, count_writeLines]
    rcases List.eq_nil_or_concat xs with rfl | ⟨xs, x, rfl⟩
    · exact (List.append_eq_nil_iff.mp heq).1
    rcases List.eq_nil_or_concat rest with rfl | ⟨rest, c, rfl⟩
    · rwa [List.append_nil] at heq
    · -- the text of the lines ends with a line break, which is not in the first part
      rw [List.concat_eq_append, List.concat_eq_append, writeLines, List.flatMap_append,
        List.flatMap_singleton, ← List.append_assoc, ← List.append_assoc] at heq
      obtain ⟨-, hlast⟩ := List.append_inj' heq rfl
      obtain rfl := List.singleton_inj.mp hlast
      rw [List.concat_eq_append, List.count_append, List.count_singleton_self] at hsum
      omega

end Hypernote.Foundation.Json
