import Hypernote.Notebook
/-!
# Previews of text

The helpers that shorten a text for display and say so.  A text is first normalized: terminal
escapes are removed, and unless its lines are kept, so is all white space but single spaces.
-/

namespace Hypernote

open Foundation

namespace Sdk

/-! ## Terminal escapes -/

/-- A parameter byte of an escape sequence. -/
def isParameter (c : Char) : Bool := '0' ≤ c && c ≤ '?'

/-- An intermediate byte. -/
def isIntermediate (c : Char) : Bool := ' ' ≤ c && c ≤ '/'

/-- A final byte. -/
def isFinal (c : Char) : Bool := '@' ≤ c && c ≤ '~'

/-- What follows a match of `ANSI_ESCAPE_RE` at the beginning of the text. -/
def afterEscape : Chars → Option Chars
  | '\x1b' :: '[' :: cs =>
      match (cs.dropWhile isParameter).dropWhile isIntermediate with
      | c :: rest => if isFinal c then some rest else none
      | [] => none
  | _ => none

/-- `ANSI_ESCAPE_RE.sub("", value)` on the first characters of a text. -/
def stripEscapesIn : Nat → Chars → Chars
  | 0, _ => []
  | _, [] => []
  | n + 1, c :: cs =>
      match afterEscape (c :: cs) with
      | some rest => stripEscapesIn n rest
      | none => c :: stripEscapesIn n cs

/-- `ANSI_ESCAPE_RE.sub("", value)`. -/
def stripEscapes (value : Chars) : Chars := stripEscapesIn value.length value

example : stripEscapes "\x1b[0;31mError\x1b[0m!".toList = "Error!".toList := by decide

/-- `_normalize_preview_text`. -/
def normalizePreviewText (value : Chars) (preserveLines : Bool) : Chars :=
  let text := stripEscapes value
  if preserveLines then text else PyText.joinWords text

/-! ## Shortening -/

/-- What `_render_text_preview` returns: the text and, if it was shortened, the number of
characters that it had. -/
structure TextPreview where
  text : Option Chars
  totalChars : Option Nat
  deriving DecidableEq

def TextPreview.truncated (p : TextPreview) : Bool := p.totalChars.isSome

/-- `_truncate_text`, in the form of `_render_text_preview`. -/
def renderTextPreview (value : Option Chars) (limit : Int) (full preserveLines : Bool) :
    TextPreview :=
  match value with
  | none => ⟨none, none⟩
  | some value =>
      let normalized := normalizePreviewText value preserveLines
      if full ∨ limit ≤ 0 ∨ normalized.length ≤ limit then ⟨some normalized, none⟩
      else
        let truncated := PyText.rstrip (normalized.take (limit - 1).toNat)
        let truncated :=
          if truncated ≠ [] ∧ normalized.length > truncated.length then truncated ++ ['…']
          else truncated
        ⟨some truncated, some normalized.length⟩

/-- `_truncate`. -/
def truncate (value : Chars) (limit : Nat) : Chars :=
  if value.length ≤ limit then value else value.take (limit - 1) ++ ['…']

/-! ## Normalizing never lengthens -/

theorem length_afterEscape_lt {cs rest : Chars} (h : afterEscape cs = some rest) :
    rest.length < cs.length := by
  unfold afterEscape at h
  split at h
  · rename_i cs
    split at h
    · rename_i c rest' heq
      obtain ⟨-, rfl⟩ := Option.ite_none_right_eq_some.mp h |>.imp_right Option.some.inj
      have hdrop : (c :: rest').length ≤ cs.length := by
        rw [← heq]
        exact ((List.dropWhile_sublist _).trans (List.dropWhile_sublist _)).length_le
      simp only [List.length_cons] at hdrop ⊢
      omega
    · cases h
  · cases h

theorem length_stripEscapesIn_le (n : Nat) (cs : Chars) :
    (stripEscapesIn n cs).length ≤ cs.length := by
  induction n generalizing cs with
  | zero => exact Nat.zero_le _
  | succ n ih =>
      cases cs with
      | nil => exact le_refl _
      | cons c cs =>
          rw [stripEscapesIn]
          split
          · exact (ih _).trans (length_afterEscape_lt ‹_›).le
          · rw [List.length_cons, List.length_cons]
            exact Nat.succ_le_succ (ih cs)

theorem length_stripEscapes_le (value : Chars) : (stripEscapes value).length ≤ value.length :=
  length_stripEscapesIn_le value.length value

/-- How many characters are looked at does not matter once they are all of them. -/
theorem stripEscapesIn_congr {n m : Nat} {cs : Chars} (hn : cs.length ≤ n) (hm : cs.length ≤ m) :
    stripEscapesIn n cs = stripEscapesIn m cs := by
  induction n generalizing m cs with
  | zero =>
      obtain rfl := List.eq_nil_of_length_eq_zero (Nat.le_zero.mp hn)
      cases m <;> rfl
  | succ n ih =>
      cases cs with
      | nil => cases m <;> rfl
      | cons c cs =>
          cases m with
          | zero => exact absurd hm (Nat.not_succ_le_zero _)
          | succ m =>
              rw [stripEscapesIn, stripEscapesIn]
              rw [List.length_cons] at hn hm
              split
              · rename_i rest hescape
                have hrest := length_afterEscape_lt hescape
                rw [List.length_cons] at hrest
                exact ih (by omega) (by omega)
              · rw [ih (Nat.le_of_succ_le_succ hn) (Nat.le_of_succ_le_succ hm)]

theorem stripEscapes_of_some {cs rest : Chars} (h : afterEscape cs = some rest) :
    stripEscapes cs = stripEscapes rest := by
  have hrest := length_afterEscape_lt h
  cases cs with
  | nil => exact absurd hrest (Nat.not_lt_zero _)
  | cons c cs =>
      rw [stripEscapes, List.length_cons, stripEscapesIn, h]
      exact stripEscapesIn_congr (Nat.le_of_lt_succ hrest) (le_refl _)

theorem stripEscapes_of_none {c : Char} {cs : Chars} (h : afterEscape (c :: cs) = none) :
    stripEscapes (c :: cs) = c :: stripEscapes cs := by
  rw [stripEscapes, List.length_cons, stripEscapesIn, h]
  rfl

/-- Where nothing is lost, nothing is removed. -/
theorem stripEscapesIn_eq_self {n : Nat} {cs : Chars}
    (h : cs.length ≤ (stripEscapesIn n cs).length) : stripEscapesIn n cs = cs := by
  induction n generalizing cs with
  | zero => exact (List.eq_nil_of_length_eq_zero (Nat.le_zero.mp h)).symm
  | succ n ih =>
      cases cs with
      | nil => rfl
      | cons c cs =>
          rw [stripEscapesIn] at h ⊢
          split at h
          · rename_i rest hescape
            have hrest := length_afterEscape_lt hescape
            have hstrip := length_stripEscapesIn_le n rest
            omega
          · rw [List.length_cons, List.length_cons] at h
            rw [ih (Nat.le_of_succ_le_succ h)]

theorem stripEscapes_eq_self {value : Chars} (h : value.length ≤ (stripEscapes value).length) :
    stripEscapes value = value :=
  stripEscapesIn_eq_self h

/-- A preview that is not flagged is the whole normalized text. -/
theorem renderTextPreview_of_not_truncated {value : Chars} {limit : Int}
    {full preserveLines : Bool}
    (h : (renderTextPreview (some value) limit full preserveLines).truncated = false) :
    (renderTextPreview (some value) limit full preserveLines).text =
      some (normalizePreviewText value preserveLines) := by
  unfold renderTextPreview at h ⊢
  dsimp only at h ⊢
  split
  · rfl
  · rename_i hshort
    rw [if_neg hshort] at h
    cases h

theorem renderTextPreview_short {value : Chars} {limit : Int} {preserveLines : Bool}
    (h : (normalizePreviewText value preserveLines).length ≤ limit) :
    renderTextPreview (some value) limit false preserveLines =
      ⟨some (normalizePreviewText value preserveLines), none⟩ := by
  unfold renderTextPreview
  dsimp only
  rw [if_pos (.inr (.inr h))]

theorem truncated_renderTextPreview_iff {value : Chars} {limit : Int} {preserveLines : Bool}
    (hlimit : 0 < limit) :
    (renderTextPreview (some value) limit false preserveLines).truncated = true ↔
      limit < (normalizePreviewText value preserveLines).length := by
  unfold renderTextPreview
  dsimp only
  split
  · rename_i hshort
    apply iff_of_false Bool.false_ne_true
    rcases hshort with hfull | hzero | hlength
    · cases hfull
    · omega
    · omega
  · rename_i hlong
    apply iff_of_true rfl
    simp only [not_or] at hlong
    omega

theorem renderTextPreview_full (value : Chars) (limit : Int) (preserveLines : Bool) :
    renderTextPreview (some value) limit true preserveLines =
      ⟨some (normalizePreviewText value preserveLines), none⟩ := by
  unfold renderTextPreview
  dsimp only
  rw [if_pos (.inl rfl)]

/-- What is shown of a longer text keeps within the limit. -/
theorem length_renderTextPreview_le {value text : Chars} {limit : Int} {preserveLines : Bool}
    (hlimit : 0 < limit)
    (h : (renderTextPreview (some value) limit false preserveLines).text = some text) :
    text.length ≤ limit := by
  unfold renderTextPreview at h
  dsimp only at h
  split at h
  · rename_i hshort
    obtain rfl := Option.some.inj h
    rcases hshort with hfull | hzero | hlength
    · cases hfull
    · omega
    · exact hlength
  · have hkept := PyText.length_rstrip_le
      ((normalizePreviewText value preserveLines).take (limit - 1).toNat)
    rw [List.length_take] at hkept
    obtain rfl := Option.some.inj h
    split
    · rw [List.length_append, List.length_singleton]
      omega
    · omega

end Sdk

end Hypernote
