import Hypernote.Foundation.JsonText
import Hypernote.Foundation.PyText
/-!
# Tokens of Python

A tokenizer for a part of Python, and what it makes of the `repr` of a string.  It gives up on what
it does not know: a comment, a prefix of a string, a string in triple quotes, two strings without a
blank between them, an escape that `repr` does not write.  So what it reads, Python reads the same.
-/

namespace Hypernote.Foundation.PyTokens

inductive Token
  /-- The blanks before the first token of a line. -/
  | indent (blanks : Nat)
  /-- A name or a number. -/
  | word (w : Chars)
  | operator (s : Chars)
  | str (value : Chars)
  | newline
  deriving DecidableEq

/-- Where the tokenizer is, with what it has of the token. -/
inductive Mode
  | lineStart (blanks : Nat)
  | between
  | word (w : Chars)
  | operator (s : Chars)
  | string (quote : Char) (value : Chars)
  | escape (quote : Char) (value : Chars)
  /-- The hexadecimal digits of an escape; `left` of them follow the next one. -/
  | digits (quote : Char) (value : Chars) (left n : Nat)
  /-- A string has just been closed. -/
  | closed
  | failed
  deriving DecidableEq

def isWordChar (c : Char) : Bool := c.isAlphanum || c = '_'

def isQuote (c : Char) : Bool := c = '\'' || c = '"'

def operatorChars : List Char :=
  ['(', ')', '[', ']', '{', '}', '.', ',', ':', ';', '=', '<', '>', '+', '-', '*', '/', '%', '&',
    '|', '^', '~', '@']

/-- The operators of more than one character, but for `!=` and `...`. -/
def longOperators : List Chars :=
  ["==", "<=", ">=", "->", ":=", "+=", "-=", "*=", "/=", "%=", "&=", "|=", "^=", "@=", "**", "//",
    "<<", ">>", "**=", "//=", "<<=", ">>="].map String.toList

/-- The first character of a token. -/
def start (c : Char) : Mode :=
  if isWordChar c then .word [c]
  else if isQuote c then .string c []
  else if c ∈ operatorChars then .operator [c]
  else .failed

/-- A character between two tokens. -/
def next (c : Char) : Mode × List Token :=
  if c = ' ' then (.between, [])
  else if c = '\n' then (.lineStart 0, [.newline])
  else (start c, [])

/-- The character after a backslash. -/
def escaped (quote : Char) (value : Chars) (c : Char) : Mode :=
  if c = '\\' ∨ isQuote c then .string quote (value ++ [c])
  else if c = 't' then .string quote (value ++ ['\t'])
  else if c = 'n' then .string quote (value ++ ['\n'])
  else if c = 'r' then .string quote (value ++ ['\r'])
  else if c = 'x' then .digits quote value 1 0
  else if c = 'u' then .digits quote value 3 0
  else if c = 'U' then .digits quote value 7 0
  else .failed

/-- One more digit of an escape, of which `left` follow. -/
def digit (quote : Char) (value : Chars) (n : Nat) : Nat → Mode
  | left + 1 => .digits quote value left n
  | 0 => if n.isValidChar then .string quote (value ++ [Char.ofNat n]) else .failed

def step : Mode → Char → Mode × List Token
  | .lineStart blanks, c =>
      if c = ' ' then (.lineStart (blanks + 1), [])
      else if c = '\n' then (.lineStart 0, [])
      else (start c, [.indent blanks])
  | .between, c => next c
  | .word w, c =>
      if isWordChar c then (.word (w ++ [c]), [])
      else if isQuote c then (.failed, [])
      else ((next c).1, .word w :: (next c).2)
  | .operator s, c =>
      if s ++ [c] ∈ longOperators then (.operator (s ++ [c]), [])
      else ((next c).1, .operator s :: (next c).2)
  | .string quote value, c =>
      if c = quote then (.closed, [.str value])
      else if c = '\\' then (.escape quote value, [])
      else if c = '\n' ∨ c = '\r' ∨ c.toNat = 0 then (.failed, [])
      else (.string quote (value ++ [c]), [])
  | .escape quote value, c => (escaped quote value c, [])
  | .digits quote value left n, c =>
      match Json.hexValue c with
      | some d => (digit quote value (n * 16 + d) left, [])
      | none => (.failed, [])
  | .closed, c => if isQuote c || isWordChar c then (.failed, []) else next c
  | .failed, _ => (.failed, [])

def run : Mode → Chars → Mode × List Token
  | m, [] => (m, [])
  | m, c :: cs => ((run (step m c).1 cs).1, (step m c).2 ++ (run (step m c).1 cs).2)

/-- The tokens of a text of whole lines. -/
def tokens (text : Chars) : Option (List Token) :=
  match run (.lineStart 0) text with
  | (.lineStart 0, ts) => some ts
  | _ => none

example : tokens "if a == 1:\n    b = 'it\\'s'\n".toList =
    some [.indent 0, .word "if".toList, .word "a".toList, .operator "==".toList, .word ['1'],
      .operator [':'], .newline, .indent 4, .word ['b'], .operator ['='], .str "it's".toList,
      .newline] := by
  decide

/-! ## Text in pieces -/

theorem run_append (m : Mode) (xs ys : Chars) :
    run m (xs ++ ys) =
      ((run (run m xs).1 ys).1, (run m xs).2 ++ (run (run m xs).1 ys).2) := by
  induction xs generalizing m with
  | nil => simp [run]
  | cons x xs ih => simp only [List.cons_append, run, ih, List.append_assoc]

/-- A piece of text leads from one mode to another and gives these tokens. -/
def Reads (m : Mode) (text : Chars) (m' : Mode) (ts : List Token) : Prop := run m text = (m', ts)

theorem Reads.append {m m' m'' : Mode} {xs ys : Chars} {ts us : List Token}
    (hxs : Reads m xs m' ts) (hys : Reads m' ys m'' us) : Reads m (xs ++ ys) m'' (ts ++ us) := by
  rw [Reads] at hxs hys ⊢
  rw [run_append, hxs, hys]

theorem reads_one {m m' : Mode} {c : Char} {ts : List Token} (h : step m c = (m', ts)) :
    Reads m [c] m' ts := by
  rw [Reads, run, run, h, List.append_nil]

theorem tokens_eq_some_iff {text : Chars} {ts : List Token} :
    tokens text = some ts ↔ Reads (.lineStart 0) text (.lineStart 0) ts := by
  unfold tokens Reads
  constructor
  · intro h
    split at h
    · cases h
      assumption
    · cases h
  · intro h
    simp only [h]

/-- Whole lines have tokens if each of them has. -/
theorem exists_tokens_flatMap (lines : List String)
    (h : lines.all (fun line => (tokens line.toList).isSome) = true) :
    ∃ ts, tokens (lines.flatMap String.toList) = some ts := by
  induction lines with
  | nil => exact ⟨[], rfl⟩
  | cons line lines ih =>
      rw [List.all_cons, Bool.and_eq_true] at h
      obtain ⟨ts, hts⟩ := Option.isSome_iff_exists.mp h.1
      obtain ⟨us, hus⟩ := ih h.2
      rw [tokens_eq_some_iff] at hts hus
      exact ⟨ts ++ us, tokens_eq_some_iff.mpr (hts.append hus)⟩

/-- A character that gives no token. -/
theorem reads_cons {m m' m'' : Mode} {c : Char} {cs : Chars} {ts : List Token}
    (h : step m c = (m', [])) (hcs : Reads m' cs m'' ts) : Reads m (c :: cs) m'' ts :=
  (reads_one h).append hcs

/-! ## Reading back a `repr` -/

section

variable {quote : Char} {value : Chars} {n : Nat}

theorem step_digits {k : Nat} (hk : k < 16) (left : Nat) :
    step (.digits quote value left n) (Json.hexDigit k) =
      (digit quote value (n * 16 + k) left, []) := by
  rw [step, Json.hexValue_hexDigit hk]

/-- The last digit of the code of a character. -/
theorem digit_last {c : Char} (h : n = c.toNat) :
    digit quote value n 0 = .string quote (value ++ [c]) := by
  have hvalid : c.toNat.isValidChar := c.valid
  rw [digit, h, if_pos hvalid, Char.ofNat_toNat]

theorem reads_hex2 {c : Char} (hc : c.toNat < 256) :
    Reads (.digits quote value 1 0) (PyText.hex2 c.toNat) (.string quote (value ++ [c])) [] := by
  apply reads_cons (step_digits (by omega) 1)
  refine reads_one ((step_digits (by omega) 0).trans ?_)
  have hn : (0 * 16 + c.toNat / 16 % 16) * 16 + c.toNat % 16 = c.toNat := by omega
  rw [digit_last hn]

/-- Four digits; `left` more follow. -/
theorem reads_hex4 (k left : Nat) :
    Reads (.digits quote value (left + 3) n) (Json.hex4 k)
      (digit quote value (n * 65536 + k % 65536) left) [] := by
  apply reads_cons (step_digits (by omega) (left + 3))
  apply reads_cons (step_digits (by omega) (left + 2))
  apply reads_cons (step_digits (by omega) (left + 1))
  refine reads_one ((step_digits (by omega) left).trans ?_)
  have hn : ((((n * 16 + k / 4096 % 16) * 16 + k / 256 % 16) * 16 + k / 16 % 16) * 16 + k % 16) =
      n * 65536 + k % 65536 := by
    omega
  rw [hn]

/-- The escape of a character gives the character. -/
theorem reads_reprChar (printable : Char → Bool) (hquote : isQuote quote = true) (c : Char) :
    Reads (.string quote value) (PyText.reprChar printable quote c) (.string quote (value ++ [c]))
      [] := by
  have hbackslash : quote ≠ '\\' := by
    rintro rfl
    simp [isQuote] at hquote
  have hescape {cs : Chars} {m : Mode} (h : Reads (.escape quote value) cs m []) :
      Reads (.string quote value) ('\\' :: cs) m [] :=
    reads_cons (by rw [step, if_neg hbackslash.symm, if_pos rfl]) h
  unfold PyText.reprChar
  dsimp only
  split
  case isTrue hc =>
      apply hescape
      apply reads_one
      have hc' : c = '\\' ∨ isQuote c := by
        rcases hc with rfl | rfl
        · exact .inr hquote
        · exact .inl rfl
      rw [step, escaped, if_pos hc']
  case isFalse hc =>
      split
      case isTrue hc =>
          subst hc
          exact hescape (reads_one rfl)
      split
      case isTrue hc =>
          subst hc
          exact hescape (reads_one rfl)
      split
      case isTrue hc =>
          subst hc
          exact hescape (reads_one rfl)
      split
      case isTrue hn => exact hescape (reads_cons rfl (reads_hex2 (by omega)))
      split
      case isTrue hn =>
          apply reads_one
          rw [step, if_neg (not_or.mp hc).1, if_neg (not_or.mp hc).2, if_neg]
          rintro (hnewline | hreturn | hzero)
          · exact absurd hnewline ‹_›
          · exact absurd hreturn ‹_›
          · omega
      split
      case isTrue hn => exact hescape (reads_cons rfl (reads_hex2 hn))
      split
      case isTrue hn =>
          have hcode := @reads_hex4 quote value 0 c.toNat 0
          rw [digit_last (c := c) (by omega)] at hcode
          exact hescape (reads_cons rfl hcode)
      case isFalse hn =>
          have hhigh := @reads_hex4 quote value 0 (c.toNat / 65536) 4
          have hlow := @reads_hex4 quote value (0 * 65536 + c.toNat / 65536 % 65536) c.toNat 0
          have hscalar := Json.toNat_not_surrogate c
          rw [digit_last (c := c) (by omega)] at hlow
          exact hescape (reads_cons rfl (hhigh.append hlow))

theorem reads_flatMap_reprChar (printable : Char → Bool) (hquote : isQuote quote = true)
    (s : Chars) :
    Reads (.string quote value) (s.flatMap (PyText.reprChar printable quote))
      (.string quote (value ++ s)) [] := by
  induction s generalizing value with
  | nil =>
      rw [List.append_nil]
      rfl
  | cons c s ih =>
      have hrest := @ih (value ++ [c])
      rw [List.append_assoc] at hrest
      exact (reads_reprChar printable hquote c).append hrest

end

theorem isQuote_reprQuote (s : Chars) : isQuote (PyText.reprQuote s) = true := by
  unfold PyText.reprQuote
  split <;> rfl

/-- The `repr` of a string is one token, whose value is the string. -/
theorem reads_repr (printable : Char → Bool) (s : Chars) :
    Reads .between (PyText.repr printable s) .closed [.str s] := by
  have hquote := isQuote_reprQuote s
  have hopened : step .between (PyText.reprQuote s) = (.string (PyText.reprQuote s) [], []) := by
    unfold PyText.reprQuote
    split <;> rfl
  have hclosed : step (.string (PyText.reprQuote s) s) (PyText.reprQuote s) =
      (.closed, [.str s]) := by
    rw [step, if_pos rfl]
  exact reads_cons hopened
    ((reads_flatMap_reprChar printable hquote s).append (reads_one hclosed))

end Hypernote.Foundation.PyTokens
