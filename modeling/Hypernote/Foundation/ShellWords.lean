import Hypernote.Foundation.PyText
/-!
# Words of a shell

`shlex.quote`, and the words into which a POSIX shell splits a line of text.  The reader has no
meaning for what is more than quoting: it gives up where the shell would expand, redirect, join
commands or wait for the end of a quote.  So what it reads, every shell reads in the same way.
-/

namespace Hypernote.Foundation.ShellWords

/-- A character that `quote` leaves as it is. -/
def isSafe (c : Char) : Bool :=
  c.isAlphanum || c ∈ ['_', '@', '%', '+', '=', ':', ',', '.', '/', '-']

/-- A single quote between two quoted texts. -/
def quoteChar (c : Char) : Chars := if c = '\'' then ['\'', '"', '\'', '"', '\''] else [c]

/-- `shlex.quote`. -/
def quote (s : Chars) : Chars :=
  if s = [] then ['\'', '\'']
  else if s.all isSafe then s
  else '\'' :: s.flatMap quoteChar ++ ['\'']

/-! ## The reader -/

def blanks : List Char := [' ', '\t']

/-- The characters that can mean more than themselves outside of quotes, but for the quotes. -/
def specials : List Char :=
  ['|', '&', ';', '<', '>', '(', ')', '$', '\x60', '\\', '*', '?', '[', ']', '#', '~', '!', '{', '}',
    '^', '\n', '\r']

/-- A character that can mean more than itself between double quotes. -/
def isExpanded (c : Char) : Bool := c ∈ ['$', '\x60', '\\', '!']

/-- Where the reader is, with what it has of the word. -/
inductive Reading
  | between
  | bare (word : Chars)
  | single (word : Chars)
  | double (word : Chars)

/-- The words of the rest of a line. -/
def split : Reading → Chars → Option (List Chars)
  | .between, [] => some []
  | .bare word, [] => some [word]
  | .single _, [] => none
  | .double _, [] => none
  | .between, c :: cs =>
      if c ∈ blanks then split .between cs
      else if c = '\'' then split (.single []) cs
      else if c = '"' then split (.double []) cs
      else if c ∈ specials then none
      else split (.bare [c]) cs
  | .bare word, c :: cs =>
      if c ∈ blanks then (split .between cs).map (word :: ·)
      else if c = '\'' then split (.single word) cs
      else if c = '"' then split (.double word) cs
      else if c ∈ specials then none
      else split (.bare (word ++ [c])) cs
  | .single word, c :: cs =>
      if c = '\'' then split (.bare word) cs else split (.single (word ++ [c])) cs
  | .double word, c :: cs =>
      if c = '"' then split (.bare word) cs
      else if isExpanded c then none
      else split (.double (word ++ [c])) cs

/-- The words of a line. -/
def words (line : Chars) : Option (List Chars) := split .between line

/-- The text stands for the word, whatever comes after it. -/
def StandsFor (text word : Chars) : Prop :=
  ∀ rest, split .between (text ++ rest) = split (.bare word) rest

theorem isSafe_plain {c : Char} (h : isSafe c = true) :
    c ∉ blanks ∧ c ≠ '\'' ∧ c ≠ '"' ∧ c ∉ specials := by
  have hnone : (blanks ++ '\'' :: '"' :: specials).all (fun c => !isSafe c) = true := by decide
  have hnot : c ∉ blanks ++ '\'' :: '"' :: specials := by
    intro hmem
    have hsafe := List.all_eq_true.mp hnone c hmem
    rw [h] at hsafe
    cases hsafe
  simpa only [List.mem_append, List.mem_cons, not_or] using hnot

theorem split_between_safe {c : Char} (h : isSafe c = true) (cs : Chars) :
    split .between (c :: cs) = split (.bare [c]) cs := by
  obtain ⟨hblank, hsingle, hdouble, hspecial⟩ := isSafe_plain h
  rw [split, if_neg hblank, if_neg hsingle, if_neg hdouble, if_neg hspecial]

theorem split_bare_safe {s : Chars} (h : s.all isSafe = true) (word rest : Chars) :
    split (.bare word) (s ++ rest) = split (.bare (word ++ s)) rest := by
  induction s generalizing word with
  | nil => rw [List.append_nil, List.nil_append]
  | cons c s ih =>
      rw [List.all_cons, Bool.and_eq_true] at h
      obtain ⟨hblank, hsingle, hdouble, hspecial⟩ := isSafe_plain h.1
      calc
        split (.bare word) (c :: s ++ rest) = split (.bare (word ++ [c])) (s ++ rest) := by
          rw [List.cons_append, split, if_neg hblank, if_neg hsingle, if_neg hdouble,
            if_neg hspecial]
        _ = split (.bare (word ++ [c] ++ s)) rest := ih h.2 _
        _ = split (.bare (word ++ c :: s)) rest := by rw [List.append_assoc, List.singleton_append]

/-- Between single quotes every text is itself, with its own quotes written between double ones. -/
theorem split_single (s word rest : Chars) :
    split (.single word) (s.flatMap quoteChar ++ '\'' :: rest) = split (.bare (word ++ s)) rest := by
  induction s generalizing word with
  | nil => simp [split]
  | cons c s ih =>
      rw [List.flatMap_cons, List.append_assoc]
      by_cases hquote : c = '\''
      · subst hquote
        calc
          split (.single word) (quoteChar '\'' ++ (s.flatMap quoteChar ++ '\'' :: rest))
              = split (.single (word ++ ['\''])) (s.flatMap quoteChar ++ '\'' :: rest) := rfl
          _ = split (.bare (word ++ ['\''] ++ s)) rest := ih _
          _ = split (.bare (word ++ '\'' :: s)) rest := by
              rw [List.append_assoc, List.singleton_append]
      · calc
          split (.single word) (quoteChar c ++ (s.flatMap quoteChar ++ '\'' :: rest))
              = split (.single (word ++ [c])) (s.flatMap quoteChar ++ '\'' :: rest) := by
                rw [quoteChar, if_neg hquote, List.singleton_append, split, if_neg hquote]
          _ = split (.bare (word ++ [c] ++ s)) rest := ih _
          _ = split (.bare (word ++ c :: s)) rest := by
              rw [List.append_assoc, List.singleton_append]

theorem standsFor_singleQuoted (s : Chars) :
    StandsFor ('\'' :: s.flatMap quoteChar ++ ['\'']) s := by
  intro rest
  show split (.single []) (s.flatMap quoteChar ++ ['\''] ++ rest) = _
  rw [List.append_assoc]
  exact split_single s [] rest

/-- A quoted text stands for the text. -/
theorem standsFor_quote (s : Chars) : StandsFor (quote s) s := by
  unfold quote
  split
  · rename_i hempty
    subst hempty
    intro rest
    rfl
  · rename_i hne
    split
    · rename_i hsafe
      cases s with
      | nil => exact absurd rfl hne
      | cons c s =>
          rw [List.all_cons, Bool.and_eq_true] at hsafe
          intro rest
          rw [List.cons_append, split_between_safe hsafe.1, split_bare_safe hsafe.2]
          rfl
    · exact standsFor_singleQuoted s

theorem standsFor_safe {s : Chars} (hne : s ≠ []) (hsafe : s.all isSafe = true) : StandsFor s s := by
  have h := standsFor_quote s
  rwa [quote, if_neg hne, if_pos hsafe] at h

theorem words_of_standsFor {text word : Chars} (h : StandsFor text word) :
    words text = some [word] := by
  have hrest := h []
  rw [List.append_nil] at hrest
  exact hrest

theorem words_cons {text word line : Chars} {ws : List Chars} (h : StandsFor text word)
    (hline : words line = some ws) : words (text ++ ' ' :: line) = some (word :: ws) := by
  show split .between (text ++ ' ' :: line) = _
  rw [h (' ' :: line)]
  show (split .between line).map (word :: ·) = _
  rw [show split .between line = some ws from hline]
  rfl

/-- `" ".join(texts)`. -/
def joinWords : List Chars → Chars
  | [] => []
  | [text] => text
  | text :: texts => text ++ ' ' :: joinWords texts

/-- Texts that stand for words are read as these words when they are joined by blanks. -/
theorem words_joinWords {texts ws : List Chars} (h : List.Forall₂ StandsFor texts ws) :
    words (joinWords texts) = some ws := by
  induction h with
  | nil => rfl
  | @cons text word texts ws hword hrest ih =>
      cases hrest with
      | nil => exact words_of_standsFor hword
      | cons _ _ => exact words_cons hword ih

end Hypernote.Foundation.ShellWords
