import Hypernote.Foundation.Utf8
import Mathlib.Tactic.IntervalCases
/-!
# Percent-encoding

`urllib.parse.quote` without safe characters, `unquote_to_bytes` and `unquote`.  Reading a text that
`quote` has made gives back its bytes; a text is left alone by `unquote` exactly if it has no escape.
-/

namespace Hypernote.Foundation

namespace Percent

def hexDigit (n : Nat) : Char := Char.ofNat (if n < 10 then 48 + n else 55 + n)

def hexValue? (c : Char) : Option Nat :=
  let n := c.toNat
  if 48 ≤ n ∧ n ≤ 57 then some (n - 48)
  else if 65 ≤ n ∧ n ≤ 70 then some (n - 55)
  else if 97 ≤ n ∧ n ≤ 102 then some (n - 87)
  else none

/-- A letter, a digit or one of `_.-~`. -/
def isUnreserved (n : Nat) : Bool :=
  65 ≤ n && n ≤ 90 || 97 ≤ n && n ≤ 122 || 48 ≤ n && n ≤ 57 || n == 95 || n == 46 || n == 45 ||
    n == 126

def quoteByte (b : UInt8) : List Char :=
  if isUnreserved b.toNat then [Char.ofNat b.toNat]
  else ['%', hexDigit (b.toNat / 16), hexDigit (b.toNat % 16)]

/-- `quote(s, safe="")`. -/
def quote (s : List Char) : List Char := (utf8Encode s).flatMap quoteByte

/-- The byte of an escape. -/
def escaped? (c h l : Char) : Option UInt8 :=
  if c = '%' then
    (hexValue? h).bind fun x => (hexValue? l).map fun y => UInt8.ofNat (16 * x + y)
  else none

/-- `unquote_to_bytes(s)`. -/
def unquoteToBytes : List Char → List UInt8
  | c :: h :: l :: rest =>
      match escaped? c h l with
      | some b => b :: unquoteToBytes rest
      | none => String.utf8EncodeChar c ++ unquoteToBytes (h :: l :: rest)
  | [c, h] => utf8Encode [c, h]
  | [c] => utf8Encode [c]
  | [] => []

/-- The parts of `unquote`, with the ASCII characters that precede the text. -/
def unquoteFrom : List Char → List Char → List Char
  | run, [] => utf8DecodeReplace (unquoteToBytes run)
  | run, c :: cs =>
      if c.toNat < 128 then unquoteFrom (run ++ [c]) cs
      else utf8DecodeReplace (unquoteToBytes run) ++ c :: unquoteFrom [] cs

/-- `unquote(s)`: each run of ASCII characters is decoded by itself. -/
def unquote (s : List Char) : List Char := unquoteFrom [] s

/-- The text has a percent sign before two hexadecimal digits. -/
inductive HasEscape : List Char → Prop
  | here {h l : Char} {rest : List Char} (hh : (hexValue? h).isSome = true)
      (hl : (hexValue? l).isSome = true) : HasEscape ('%' :: h :: l :: rest)
  | there {c : Char} {rest : List Char} (hrest : HasEscape rest) : HasEscape (c :: rest)

/-! ## Escapes -/

/-- The character begins an escape before the text. -/
def headEscape (c : Char) : List Char → Bool
  | h :: l :: _ => (escaped? c h l).isSome
  | _ => false

theorem escaped?_isSome_iff {c h l : Char} :
    (escaped? c h l).isSome = true ↔
      c = '%' ∧ (hexValue? h).isSome = true ∧ (hexValue? l).isSome = true := by
  unfold escaped?
  cases hexValue? h <;> cases hexValue? l <;> by_cases hc : c = '%' <;> simp [hc]

theorem hasEscape_cons_iff {c : Char} {rest : List Char} :
    HasEscape (c :: rest) ↔ headEscape c rest = true ∨ HasEscape rest := by
  constructor
  · intro hc
    cases hc with
    | here hh hl => exact .inl (escaped?_isSome_iff.mpr ⟨rfl, hh, hl⟩)
    | there hrest => exact .inr hrest
  · rintro (hhead | hrest)
    · match rest, hhead with
      | h :: l :: tail, hhead =>
          obtain ⟨rfl, hh, hl⟩ := escaped?_isSome_iff.mp hhead
          exact .here hh hl
    · exact .there hrest

instance decidableHasEscape : (s : List Char) → Decidable (HasEscape s)
  | [] => .isFalse fun h => nomatch h
  | c :: rest =>
      have := decidableHasEscape rest
      decidable_of_iff (headEscape c rest = true ∨ HasEscape rest) hasEscape_cons_iff.symm

theorem HasEscape.length {s : List Char} (h : HasEscape s) : 3 ≤ s.length := by
  induction h with
  | here _ _ => simp
  | there _ ih => exact ih.trans (Nat.le_succ _)

theorem HasEscape.append_right {s t : List Char} (h : HasEscape s) : HasEscape (s ++ t) := by
  induction h with
  | here hh hl => exact .here hh hl
  | there _ ih => exact .there ih

theorem HasEscape.append_left {s t : List Char} (h : HasEscape t) : HasEscape (s ++ t) := by
  induction s with
  | nil => exact h
  | cons c s ih => exact .there ih

/-- No escape goes over a character beyond ASCII. -/
theorem HasEscape.split {run cs : List Char} {c : Char} (hc : ¬ c.toNat < 128)
    (h : HasEscape (run ++ c :: cs)) : HasEscape run ∨ HasEscape cs := by
  have hhex : hexValue? c = none := by
    simp only [hexValue?]
    split_ifs <;> first | rfl | omega
  induction run with
  | nil =>
      cases h with
      | here hh hl => exact absurd (by decide) hc
      | there hrest => exact .inr hrest
  | cons r run ih =>
      rcases hasEscape_cons_iff.mp h with hhead | hrest
      · match run, hhead with
        | [], hhead =>
            cases cs with
            | nil => cases hhead
            | cons d cs =>
                have hh := (escaped?_isSome_iff.mp hhead).2.1
                rw [hhex] at hh
                cases hh
        | [d], hhead =>
            have hl := (escaped?_isSome_iff.mp hhead).2.2
            rw [hhex] at hl
            cases hl
        | d :: e :: run, hhead => exact .inl (hasEscape_cons_iff.mpr (.inl hhead))
      · exact (ih hrest).imp_left .there

theorem utf8Encode_cons (c : Char) (cs : List Char) :
    utf8Encode (c :: cs) = String.utf8EncodeChar c ++ utf8Encode cs := rfl

/-! ## `unquote` -/

theorem unquoteToBytes_of_not_hasEscape {s : List Char} (h : ¬ HasEscape s) :
    unquoteToBytes s = utf8Encode s := by
  induction s using unquoteToBytes.induct with
  | case1 c h' l rest b hb ih =>
      exact absurd (hasEscape_cons_iff.mpr (.inl (by rw [headEscape, hb]; rfl))) h
  | case2 c h' l rest hnone ih =>
      rw [unquoteToBytes, hnone, utf8Encode_cons, ← ih fun hrest => h (.there hrest)]
  | case3 c h' => rfl
  | case4 c => rfl
  | case5 => rfl

theorem unquoteToBytes_length {s : List Char} (hascii : ∀ c ∈ s, c.toNat < 128) :
    (unquoteToBytes s).length ≤ s.length ∧
      (HasEscape s → (unquoteToBytes s).length < s.length) := by
  induction s using unquoteToBytes.induct with
  | case1 c h l rest b hb ih =>
      have hrest := (ih fun d hd => hascii d (by simp [hd])).1
      simp only [unquoteToBytes, hb, List.length_cons]
      omega
  | case2 c h l rest hnone ih =>
      obtain ⟨hle, hlt⟩ := ih fun d hd => hascii d (List.mem_cons_of_mem _ hd)
      have hone := utf8EncodeChar_ascii (hascii c List.mem_cons_self)
      simp only [unquoteToBytes, hnone, hone, List.length_append, List.length_cons,
        List.length_nil] at hle hlt ⊢
      refine ⟨by omega, fun hescape => ?_⟩
      rcases hasEscape_cons_iff.mp hescape with hhead | hrest
      · rw [headEscape, hnone] at hhead
        cases hhead
      · have := hlt hrest
        omega
  | case3 c h =>
      have hc := utf8EncodeChar_ascii (hascii c List.mem_cons_self)
      have hh := utf8EncodeChar_ascii (hascii h (by simp))
      constructor
      · simp [unquoteToBytes, utf8Encode, hc, hh]
      · intro hescape
        exact absurd hescape.length (by simp)
  | case4 c =>
      have hc := utf8EncodeChar_ascii (hascii c List.mem_cons_self)
      constructor
      · simp [unquoteToBytes, utf8Encode, hc]
      · intro hescape
        exact absurd hescape.length (by simp)
  | case5 => exact ⟨le_refl _, fun hescape => nomatch hescape⟩

theorem ascii_nil : ∀ c ∈ ([] : List Char), c.toNat < 128 := fun _ hc => nomatch hc

theorem ascii_concat {run : List Char} {c : Char} (hascii : ∀ d ∈ run, d.toNat < 128)
    (hc : c.toNat < 128) : ∀ d ∈ run ++ [c], d.toNat < 128 := by
  intro d hd
  rcases List.mem_append.mp hd with hd | hd
  · exact hascii d hd
  · exact List.mem_singleton.mp hd ▸ hc

theorem unquoteFrom_of_not_hasEscape {run cs : List Char} (hascii : ∀ c ∈ run, c.toNat < 128)
    (h : ¬ HasEscape (run ++ cs)) : unquoteFrom run cs = run ++ cs := by
  have hrun {run : List Char} (hascii : ∀ c ∈ run, c.toNat < 128) (h : ¬ HasEscape run) :
      utf8DecodeReplace (unquoteToBytes run) = run := by
    rw [unquoteToBytes_of_not_hasEscape h, utf8DecodeReplace_ascii hascii]
  induction cs generalizing run with
  | nil =>
      rw [List.append_nil] at h ⊢
      exact hrun hascii h
  | cons c cs ih =>
      rw [unquoteFrom]
      split
      · rename_i hc
        rw [List.append_cons] at h
        exact (ih (ascii_concat hascii hc) h).trans (List.append_assoc _ _ _)
      · rw [hrun hascii fun hr => h hr.append_right, ih ascii_nil fun hr => h ?_,
          List.nil_append]
        exact HasEscape.append_left (HasEscape.there hr)

theorem unquoteFrom_length {run cs : List Char} (hascii : ∀ c ∈ run, c.toNat < 128) :
    (unquoteFrom run cs).length ≤ run.length + cs.length ∧
      (HasEscape (run ++ cs) → (unquoteFrom run cs).length < run.length + cs.length) := by
  have hrun {run : List Char} (hascii : ∀ c ∈ run, c.toNat < 128) :
      (utf8DecodeReplace (unquoteToBytes run)).length ≤ run.length ∧
        (HasEscape run → (utf8DecodeReplace (unquoteToBytes run)).length < run.length) := by
    obtain ⟨hle, hlt⟩ := unquoteToBytes_length hascii
    have hdecode := utf8DecodeReplace_length_le (unquoteToBytes run)
    exact ⟨hdecode.trans hle, fun hescape => hdecode.trans_lt (hlt hescape)⟩
  induction cs generalizing run with
  | nil =>
      rw [List.append_nil]
      exact hrun hascii
  | cons c cs ih =>
      rw [unquoteFrom]
      split
      · rename_i hc
        obtain ⟨hle, hlt⟩ := ih (ascii_concat hascii hc)
        rw [List.length_append, List.length_singleton] at hle hlt
        rw [List.length_cons]
        refine ⟨by omega, fun hescape => ?_⟩
        have := hlt (List.append_cons run c cs ▸ hescape)
        omega
      · rename_i hc
        obtain ⟨hrunLe, hrunLt⟩ := hrun hascii
        obtain ⟨hle, hlt⟩ := @ih [] ascii_nil
        rw [List.length_nil] at hle hlt
        rw [List.length_append, List.length_cons, List.length_cons]
        refine ⟨by omega, fun hescape => ?_⟩
        rcases hescape.split hc with hescape | hescape
        · have := hrunLt hescape
          omega
        · have := hlt hescape
          omega

theorem length_unquote_lt {s : List Char} (h : HasEscape s) :
    (unquote s).length < s.length := by
  have hlt := (@unquoteFrom_length [] s ascii_nil).2 h
  rwa [List.length_nil, Nat.zero_add] at hlt

/-- `unquote` leaves a text alone exactly if it has no escape. -/
theorem unquote_eq_iff {s : List Char} : unquote s = s ↔ ¬ HasEscape s := by
  constructor
  · intro hsame hescape
    exact absurd (congrArg List.length hsame) (length_unquote_lt hescape).ne
  · intro h
    exact unquoteFrom_of_not_hasEscape ascii_nil h

/-! ## `quote` -/

theorem unquoteToBytes_cons {c : Char} (hc : c ≠ '%') (rest : List Char) :
    unquoteToBytes (c :: rest) = String.utf8EncodeChar c ++ unquoteToBytes rest := by
  match rest with
  | [] => rfl
  | [h] => rfl
  | h :: l :: rest =>
      rw [unquoteToBytes, escaped?, if_neg hc]

theorem hexValue?_hexDigit {n : Nat} (h : n < 16) : hexValue? (hexDigit n) = some n := by
  interval_cases n <;> rfl

theorem toNat_ofNat_ascii {n : Nat} (h : n < 128) : (Char.ofNat n).toNat = n := by
  interval_cases n <;> rfl

theorem unquoteToBytes_quoteByte (b : UInt8) (rest : List Char) :
    unquoteToBytes (quoteByte b ++ rest) = b :: unquoteToBytes rest := by
  have hb : b.toNat < 256 := b.toNat_lt
  rw [quoteByte]
  split
  · rename_i hsafe
    have hlt : b.toNat < 128 := by
      simp only [isUnreserved, Bool.or_eq_true, Bool.and_eq_true, decide_eq_true_eq,
        beq_iff_eq] at hsafe
      omega
    have hnat := toNat_ofNat_ascii hlt
    have hne : Char.ofNat b.toNat ≠ '%' := by
      intro heq
      rw [show b.toNat = 37 by rw [← hnat, heq]; rfl] at hsafe
      exact absurd hsafe (by decide)
    have hascii : (Char.ofNat b.toNat).toNat < 128 := by rwa [hnat]
    rw [List.singleton_append, unquoteToBytes_cons hne, utf8EncodeChar_ascii hascii, hnat,
      UInt8.ofNat_toNat]
    rfl
  · have hhi := hexValue?_hexDigit (n := b.toNat / 16) (by omega)
    have hlo := hexValue?_hexDigit (n := b.toNat % 16) (by omega)
    have hbyte : escaped? '%' (hexDigit (b.toNat / 16)) (hexDigit (b.toNat % 16)) = some b := by
      rw [escaped?, if_pos rfl, hhi, hlo, Option.bind_some, Option.map_some,
        Nat.div_add_mod, UInt8.ofNat_toNat]
    simp only [List.cons_append, List.nil_append, unquoteToBytes, hbyte]

theorem unquoteToBytes_quote (s : List Char) : unquoteToBytes (quote s) = utf8Encode s := by
  rw [quote]
  induction utf8Encode s with
  | nil => rfl
  | cons b bs ih => rw [List.flatMap_cons, unquoteToBytes_quoteByte, ih]

theorem quote_injective : Function.Injective quote := by
  intro s s' h
  apply utf8Encode_injective
  rw [← unquoteToBytes_quote, h, unquoteToBytes_quote]

end Percent

end Hypernote.Foundation
