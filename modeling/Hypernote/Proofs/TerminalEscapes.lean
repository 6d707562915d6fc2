import Hypernote.Sdk.Preview
/-!
# Escape sequences that normalizing leaves

Removing the escape sequences of a text can bring the pieces of another one together, and so can
putting blanks in place of its white space.  An escape character survives exactly if no sequence
begins at it, and it then begins one if the rest of a sequence follows once everything in between
is gone.
-/

namespace Hypernote

open Foundation

namespace Sdk

/-- What `ANSI_ESCAPE_RE` matches. -/
def IsEscape (w : Chars) : Prop :=
  ∃ parameters intermediates final,
    w = '\x1b' :: '[' :: (parameters ++ (intermediates ++ [final])) ∧
      (∀ c ∈ parameters, isParameter c = true) ∧
      (∀ c ∈ intermediates, isIntermediate c = true) ∧ isFinal final = true

/-- Some part of the text matches. -/
def HasEscape (text : Chars) : Prop := ∃ w, IsEscape w ∧ w <:+: text

/-- How far a sequence has been read. -/
inductive Stage
  | introducer
  | parameters
  | intermediates
  deriving DecidableEq

/-- An intermediate byte, or white space that becomes one. -/
def isBetween (preserveLines : Bool) (c : Char) : Bool :=
  isIntermediate c || !preserveLines && PyText.isSpace c

/-- The text goes on with the rest of a sequence, escape sequences left out. -/
inductive Completes (preserveLines : Bool) : Stage → Chars → Prop
  | skip {stage cs rest} (hescape : afterEscape cs = some rest)
      (h : Completes preserveLines stage rest) : Completes preserveLines stage cs
  | introducer {cs} (h : Completes preserveLines .parameters cs) :
      Completes preserveLines .introducer ('[' :: cs)
  | parameter {c cs} (hc : isParameter c = true) (h : Completes preserveLines .parameters cs) :
      Completes preserveLines .parameters (c :: cs)
  | between {stage c cs} (hstage : stage ≠ .introducer) (hc : isBetween preserveLines c = true)
      (h : Completes preserveLines .intermediates cs) : Completes preserveLines stage (c :: cs)
  | final {stage c cs} (hstage : stage ≠ .introducer) (hc : isFinal c = true) :
      Completes preserveLines stage (c :: cs)

/-- At some escape character of the text. -/
def AtEscape (P : Chars → Prop) (text : Chars) : Prop :=
  ∃ before rest, text = before ++ '\x1b' :: rest ∧ P rest

/-- Some escape character begins no sequence but is followed by the rest of one, other sequences
left out. -/
def Interrupted (preserveLines : Bool) (text : Chars) : Prop :=
  AtEscape
    (fun rest => afterEscape ('\x1b' :: rest) = none ∧ Completes preserveLines .introducer rest) text

/-! ## Where the escape characters are -/

section

variable {P : Chars → Prop} {text : Chars} {c : Char}

theorem not_atEscape_nil : ¬ AtEscape P [] := by
  rintro ⟨before, rest, heq, -⟩
  cases before <;> cases heq

theorem atEscape_cons : AtEscape P (c :: text) ↔ c = '\x1b' ∧ P text ∨ AtEscape P text := by
  constructor
  · rintro ⟨before, rest, heq, hrest⟩
    cases before with
    | nil =>
        cases heq
        exact .inl ⟨rfl, hrest⟩
    | cons _ before =>
        cases heq
        exact .inr ⟨before, rest, rfl, hrest⟩
  · rintro (⟨rfl, hrest⟩ | ⟨before, rest, rfl, hrest⟩)
    · exact ⟨[], text, rfl, hrest⟩
    · exact ⟨c :: before, rest, rfl, hrest⟩

theorem atEscape_cons_of_ne (hc : c ≠ '\x1b') : AtEscape P (c :: text) ↔ AtEscape P text := by
  rw [atEscape_cons]
  exact or_iff_right fun h => hc h.1

theorem atEscape_append {mid : Chars} (hmid : '\x1b' ∉ mid) :
    AtEscape P (mid ++ text) ↔ AtEscape P text := by
  induction mid with
  | nil => rfl
  | cons c mid ih =>
      rw [List.mem_cons, not_or] at hmid
      rw [List.cons_append, atEscape_cons_of_ne (Ne.symm hmid.1), ih hmid.2]

end

/-! ## The kinds of characters -/

theorem isParameter_iff {c : Char} : isParameter c = true ↔ 48 ≤ c.toNat ∧ c.toNat ≤ 63 := by
  rw [isParameter, Bool.and_eq_true, decide_eq_true_eq, decide_eq_true_eq]
  exact Iff.rfl

theorem isIntermediate_iff {c : Char} : isIntermediate c = true ↔ 32 ≤ c.toNat ∧ c.toNat ≤ 47 := by
  rw [isIntermediate, Bool.and_eq_true, decide_eq_true_eq, decide_eq_true_eq]
  exact Iff.rfl

theorem isFinal_iff {c : Char} : isFinal c = true ↔ 64 ≤ c.toNat ∧ c.toNat ≤ 126 := by
  rw [isFinal, Bool.and_eq_true, decide_eq_true_eq, decide_eq_true_eq]
  exact Iff.rfl

theorem isSpace_range {c : Char} (h : PyText.isSpace c = true) :
    9 ≤ c.toNat ∧ c.toNat ≠ 27 ∧ (c.toNat ≤ 32 ∨ 133 ≤ c.toNat) := by
  simp only [PyText.isSpace, Bool.or_eq_true, Bool.and_eq_true, decide_eq_true_eq] at h
  omega

theorem isBetween_range {preserveLines : Bool} {c : Char} (h : isBetween preserveLines c = true) :
    c.toNat ≠ 27 ∧ (c.toNat ≤ 47 ∨ 133 ≤ c.toNat) := by
  rw [isBetween, Bool.or_eq_true, Bool.and_eq_true, isIntermediate_iff] at h
  rcases h with h | ⟨-, h⟩
  · omega
  · have hspace := isSpace_range h
    omega

/-! ## Reading a sequence -/

/-- The text goes on with the rest of a sequence. -/
def completes (preserveLines : Bool) : Stage → Chars → Bool
  | _, [] => false
  | .introducer, c :: cs => c = '[' && completes preserveLines .parameters cs
  | .parameters, c :: cs =>
      if isParameter c then completes preserveLines .parameters cs
      else if isBetween preserveLines c then completes preserveLines .intermediates cs
      else isFinal c
  | .intermediates, c :: cs =>
      if isBetween preserveLines c then completes preserveLines .intermediates cs else isFinal c

@[simp] theorem completes_nil (preserveLines : Bool) (stage : Stage) :
    completes preserveLines stage [] = false := by
  cases stage <;> rfl

@[simp] theorem isBetween_true (c : Char) : isBetween true c = isIntermediate c := Bool.or_false _

theorem completes_intermediates_iff (cs : Chars) :
    completes true .intermediates cs = true ↔
      ∃ intermediates final rest, cs = intermediates ++ final :: rest ∧
        (∀ c ∈ intermediates, isIntermediate c = true) ∧ isFinal final = true := by
  induction cs with
  | nil => simp
  | cons c cs ih =>
      rw [completes, isBetween_true]
      split
      · rename_i hc
        rw [ih]
        constructor
        · rintro ⟨intermediates, final, rest, rfl, hall, hfinal⟩
          exact ⟨c :: intermediates, final, rest, rfl, List.forall_mem_cons.mpr ⟨hc, hall⟩, hfinal⟩
        · rintro ⟨intermediates, final, rest, heq, hall, hfinal⟩
          cases intermediates with
          | nil =>
              cases heq
              rw [isFinal_iff] at hfinal
              rw [isIntermediate_iff] at hc
              omega
          | cons _ intermediates =>
              cases heq
              exact ⟨intermediates, final, rest, rfl, (List.forall_mem_cons.mp hall).2, hfinal⟩
      · rename_i hc
        constructor
        · exact fun hfinal => ⟨[], c, cs, rfl, List.forall_mem_nil _, hfinal⟩
        · rintro ⟨intermediates, final, rest, heq, hall, hfinal⟩
          cases intermediates with
          | nil =>
              cases heq
              exact hfinal
          | cons _ intermediates =>
              cases heq
              exact absurd (List.forall_mem_cons.mp hall).1 hc

theorem completes_parameters_iff (cs : Chars) :
    completes true .parameters cs = true ↔
      ∃ parameters intermediates final rest, cs = parameters ++ (intermediates ++ final :: rest) ∧
        (∀ c ∈ parameters, isParameter c = true) ∧
        (∀ c ∈ intermediates, isIntermediate c = true) ∧ isFinal final = true := by
  induction cs with
  | nil => simp
  | cons c cs ih =>
      by_cases hc : isParameter c = true
      · rw [completes, if_pos hc, ih]
        constructor
        · rintro ⟨parameters, intermediates, final, rest, rfl, hall, hrest⟩
          exact ⟨c :: parameters, intermediates, final, rest, rfl,
            List.forall_mem_cons.mpr ⟨hc, hall⟩, hrest⟩
        · rintro ⟨parameters, intermediates, final, rest, heq, hall, hall', hfinal⟩
          rw [isParameter_iff] at hc
          cases parameters with
          | nil =>
              cases intermediates with
              | nil =>
                  cases heq
                  rw [isFinal_iff] at hfinal
                  omega
              | cons _ intermediates =>
                  cases heq
                  have hbetween := isIntermediate_iff.mp (List.forall_mem_cons.mp hall').1
                  omega
          | cons _ parameters =>
              cases heq
              exact ⟨parameters, intermediates, final, rest, rfl, (List.forall_mem_cons.mp hall).2,
                hall', hfinal⟩
      · have hstage : completes true .parameters (c :: cs) =
            completes true .intermediates (c :: cs) := by
          rw [completes, completes, if_neg hc]
        rw [hstage, completes_intermediates_iff]
        constructor
        · rintro ⟨intermediates, final, rest, heq, hrest⟩
          exact ⟨[], intermediates, final, rest, heq, List.forall_mem_nil _, hrest⟩
        · rintro ⟨parameters, intermediates, final, rest, heq, hall, hrest⟩
          cases parameters with
          | nil => exact ⟨intermediates, final, rest, heq, hrest⟩
          | cons _ parameters =>
              cases heq
              exact absurd (List.forall_mem_cons.mp hall).1 hc

/-- A match begins at an escape character, and the rest of it follows. -/
theorem hasEscape_iff {text : Chars} :
    HasEscape text ↔ AtEscape (fun rest => completes true .introducer rest = true) text := by
  constructor
  · rintro ⟨w, ⟨parameters, intermediates, final, rfl, hall⟩, before, after, rfl⟩
    refine ⟨before, '[' :: (parameters ++ (intermediates ++ final :: after)), by simp, ?_⟩
    exact (completes_parameters_iff _).mpr ⟨parameters, intermediates, final, after, rfl, hall⟩
  · rintro ⟨before, rest, rfl, hrest⟩
    cases rest with
    | nil => cases hrest
    | cons c cs =>
        rw [completes, Bool.and_eq_true, decide_eq_true_eq, completes_parameters_iff] at hrest
        obtain ⟨rfl, parameters, intermediates, final, rest, rfl, hall⟩ := hrest
        exact ⟨_, ⟨parameters, intermediates, final, rfl, hall⟩, before, rest, by simp⟩

/-! ## Matches and their removal -/

theorem completes_intermediates_eq (cs : Chars) :
    completes true .intermediates cs = true ↔
      ∃ final rest, cs.dropWhile isIntermediate = final :: rest ∧ isFinal final = true := by
  induction cs with
  | nil => simp
  | cons c cs ih =>
      rw [completes, isBetween_true, List.dropWhile_cons]
      split
      · exact ih
      · constructor
        · exact fun hfinal => ⟨c, cs, rfl, hfinal⟩
        · rintro ⟨final, rest, heq, hfinal⟩
          cases heq
          exact hfinal

theorem completes_parameters_eq (cs : Chars) :
    completes true .parameters cs = true ↔
      ∃ final rest, (cs.dropWhile isParameter).dropWhile isIntermediate = final :: rest ∧
        isFinal final = true := by
  induction cs with
  | nil => simp
  | cons c cs ih =>
      rw [List.dropWhile_cons]
      by_cases hc : isParameter c = true
      · rw [if_pos hc, completes, if_pos hc]
        exact ih
      · rw [if_neg hc, ← completes_intermediates_eq, completes, completes, if_neg hc]

theorem isSome_afterEscape (cs : Chars) :
    (afterEscape ('\x1b' :: cs)).isSome = true ↔ completes true .introducer cs = true := by
  unfold afterEscape
  split
  · rename_i cs heq
    cases heq
    refine Iff.trans ?_ (completes_parameters_eq cs).symm
    split
    · rename_i final rest heq
      rw [heq]
      constructor
      · intro h
        exact ⟨final, rest, rfl, by_contra fun hfinal => by simp [hfinal] at h⟩
      · rintro ⟨_, _, heq, hfinal⟩
        cases heq
        rw [if_pos hfinal]
        rfl
    · rename_i heq
      rw [heq]
      simp
  · rename_i hother
    refine iff_of_false (fun h => by cases h) ?_
    cases cs with
    | nil => simp
    | cons c cs =>
        rw [completes, Bool.and_eq_true, decide_eq_true_eq]
        rintro ⟨rfl, -⟩
        exact hother cs rfl

theorem afterEscape_of_ne {c : Char} {cs : Chars} (hc : c ≠ '\x1b') :
    afterEscape (c :: cs) = none := by
  unfold afterEscape
  split
  · rename_i heq
    cases heq
    exact absurd rfl hc
  · rfl

/-- A match holds no escape character but the one that it begins with. -/
theorem afterEscape_eq_some {cs rest : Chars} (h : afterEscape cs = some rest) :
    ∃ mid, cs = '\x1b' :: (mid ++ rest) ∧ '\x1b' ∉ mid := by
  unfold afterEscape at h
  split at h
  · rename_i cs
    split at h
    · rename_i final rest' heq
      obtain ⟨hfinal, rfl⟩ := Option.ite_none_right_eq_some.mp h |>.imp_right Option.some.inj
      refine ⟨'[' :: (cs.takeWhile isParameter ++
        ((cs.dropWhile isParameter).takeWhile isIntermediate ++ [final])), ?_, ?_⟩
      · have hsplit := List.takeWhile_append_dropWhile (p := isParameter) (l := cs)
        have hsplit' := List.takeWhile_append_dropWhile (p := isIntermediate)
          (l := cs.dropWhile isParameter)
        rw [heq] at hsplit'
        simp only [List.cons_append, List.append_assoc, List.nil_append, List.cons.injEq, true_and]
        rw [hsplit', hsplit]
      · simp only [List.mem_cons, List.mem_append, List.not_mem_nil, or_false, not_or]
        refine ⟨by decide, fun hmem => ?_, fun hmem => ?_, ?_⟩
        · exact absurd (List.mem_takeWhile_imp hmem) (by decide)
        · exact absurd (List.mem_takeWhile_imp hmem) (by decide)
        · rintro rfl
          exact absurd hfinal (by decide)
    · cases h
  · cases h

/-- Where an escape sequence begins, the rest of one goes on after it. -/
theorem completes_skip_iff {preserveLines : Bool} {stage : Stage} {cs rest : Chars}
    (hescape : afterEscape cs = some rest) :
    Completes preserveLines stage cs ↔ Completes preserveLines stage rest := by
  refine ⟨fun h => ?_, .skip hescape⟩
  obtain ⟨mid, hcs, -⟩ := afterEscape_eq_some hescape
  cases h with
  | skip hescape' h =>
      cases hescape.symm.trans hescape'
      exact h
  | introducer => cases hcs
  | parameter hc =>
      cases hcs
      exact absurd hc (by decide)
  | between _ hc =>
      cases hcs
      exact absurd rfl (isBetween_range hc).1
  | final _ hc =>
      cases hcs
      exact absurd hc (by decide)

/-- Where none begins, the next character is read. -/
theorem completes_cons_iff {preserveLines : Bool} {stage : Stage} {c : Char} {cs cs' : Chars}
    (hescape : afterEscape (c :: cs) = none)
    (hrest : ∀ stage, completes preserveLines stage cs' = true ↔
      Completes preserveLines stage cs) :
    completes preserveLines stage (c :: cs') = true ↔ Completes preserveLines stage (c :: cs) := by
  constructor
  · intro h
    cases stage with
    | introducer =>
        rw [completes, Bool.and_eq_true, decide_eq_true_eq, hrest] at h
        obtain ⟨rfl, h⟩ := h
        exact .introducer h
    | parameters =>
        rw [completes] at h
        split at h
        · exact .parameter ‹_› ((hrest _).mp h)
        · split at h
          · exact .between Stage.noConfusion ‹_› ((hrest _).mp h)
          · exact .final Stage.noConfusion h
    | intermediates =>
        rw [completes] at h
        split at h
        · exact .between Stage.noConfusion ‹_› ((hrest _).mp h)
        · exact .final Stage.noConfusion h
  · intro h
    cases h with
    | skip hescape' => cases hescape.symm.trans hescape'
    | introducer h =>
        rw [completes, (hrest _).mpr h]
        rfl
    | parameter hc h =>
        rw [completes, if_pos hc]
        exact (hrest _).mpr h
    | between hstage hc h =>
        have hparameter : ¬ isParameter c = true := by
          rw [isParameter_iff]
          have hrange := isBetween_range hc
          omega
        cases stage with
        | introducer => exact absurd rfl hstage
        | parameters =>
            rw [completes, if_neg hparameter, if_pos hc]
            exact (hrest _).mpr h
        | intermediates =>
            rw [completes, if_pos hc]
            exact (hrest _).mpr h
    | final hstage hc =>
        have hrange := isFinal_iff.mp hc
        have hparameter : ¬ isParameter c = true := by
          rw [isParameter_iff]
          omega
        have hbetween : ¬ isBetween preserveLines c = true := by
          intro hc'
          have hrange' := isBetween_range hc'
          omega
        cases stage with
        | introducer => exact absurd rfl hstage
        | parameters => rwa [completes, if_neg hparameter, if_neg hbetween]
        | intermediates => rwa [completes, if_neg hbetween]

/-- What goes on with the rest of a sequence after the removal goes on with it before, with whole
sequences in between. -/
theorem completes_stripEscapes_iff {preserveLines : Bool} (n : Nat) :
    ∀ (stage : Stage) (cs : Chars), cs.length ≤ n →
      (completes preserveLines stage (stripEscapes cs) = true ↔
        Completes preserveLines stage cs) := by
  have hnil : ∀ stage, completes preserveLines stage (stripEscapes []) = true ↔
      Completes preserveLines stage [] := by
    intro stage
    refine iff_of_false (by simp [stripEscapes, stripEscapesIn]) fun h => ?_
    cases h with
    | skip hescape => cases hescape
  induction n with
  | zero =>
      intro stage cs hn
      obtain rfl := List.eq_nil_of_length_eq_zero (Nat.le_zero.mp hn)
      exact hnil stage
  | succ n ih =>
      intro stage cs hn
      cases hescape : afterEscape cs with
      | some rest =>
          have hlength := length_afterEscape_lt hescape
          rw [stripEscapes_of_some hescape, ih stage rest (by omega), completes_skip_iff hescape]
      | none =>
          cases cs with
          | nil => exact hnil stage
          | cons c cs =>
              rw [List.length_cons] at hn
              rw [stripEscapes_of_none hescape]
              exact completes_cons_iff hescape fun stage => ih stage cs (by omega)

/-- The escape characters that are left are those at which no sequence begins. -/
theorem atEscape_stripEscapes {P Q : Chars → Prop} (h : ∀ rest, P (stripEscapes rest) ↔ Q rest)
    (n : Nat) : ∀ cs : Chars, cs.length ≤ n →
      (AtEscape P (stripEscapes cs) ↔
        AtEscape (fun rest => afterEscape ('\x1b' :: rest) = none ∧ Q rest) cs) := by
  induction n with
  | zero =>
      intro cs hn
      obtain rfl := List.eq_nil_of_length_eq_zero (Nat.le_zero.mp hn)
      exact iff_of_false not_atEscape_nil not_atEscape_nil
  | succ n ih =>
      intro cs hn
      cases hescape : afterEscape cs with
      | some rest =>
          have hlength := length_afterEscape_lt hescape
          obtain ⟨mid, rfl, hmid⟩ := afterEscape_eq_some hescape
          rw [stripEscapes_of_some hescape, ih rest (by omega), atEscape_cons,
            atEscape_append hmid, hescape]
          simp
      | none =>
          cases cs with
          | nil => exact iff_of_false not_atEscape_nil not_atEscape_nil
          | cons c cs =>
              rw [List.length_cons] at hn
              rw [stripEscapes_of_none hescape, atEscape_cons, atEscape_cons, ih cs (by omega), h]
              apply or_congr_left
              refine and_congr_right fun hc => ?_
              rw [hc] at hescape
              exact (and_iff_right hescape).symm

theorem interrupted_iff {preserveLines : Bool} (text : Chars) :
    Interrupted preserveLines text ↔
      AtEscape (fun rest => completes preserveLines .introducer rest = true)
        (stripEscapes text) :=
  (atEscape_stripEscapes
    (fun rest => completes_stripEscapes_iff rest.length .introducer rest (le_refl _)) text.length text
    (le_refl _)).symm

/-- Where nothing matches, nothing is removed. -/
theorem stripEscapes_of_not_hasEscape {text : Chars} (h : ¬ HasEscape text) :
    stripEscapes text = text := by
  rw [hasEscape_iff] at h
  induction text with
  | nil => rfl
  | cons c cs ih =>
      rw [atEscape_cons, not_or] at h
      have hnone : afterEscape (c :: cs) = none := by
        by_cases hc : c = '\x1b'
        · subst hc
          rw [← Option.not_isSome_iff_eq_none, isSome_afterEscape]
          exact fun hcompletes => h.1 ⟨rfl, hcompletes⟩
        · exact afterEscape_of_ne hc
      rw [stripEscapes_of_none hnone, ih h.2]

/-! ## White space -/

theorem completes_joinRest (cs : Chars) :
    (∀ stage, completes true stage (PyText.joinRest cs) = completes false stage cs) ∧
      completes true .intermediates (PyText.joinWords cs) = completes false .intermediates cs := by
  induction cs with
  | nil => exact ⟨fun stage => by rw [completes_nil]; exact completes_nil _ _, rfl⟩
  | cons c cs ih =>
      obtain ⟨hrest, hwords⟩ := ih
      have hfalse : isBetween false c = (isIntermediate c || PyText.isSpace c) := rfl
      rw [PyText.joinWords_cons, PyText.joinRest]
      by_cases hspace : PyText.isSpace c = true
      · have hrange := isSpace_range hspace
        have hbracket : c ≠ '[' := by
          rintro rfl
          exact absurd hspace (by decide)
        have hparameter : ¬ isParameter c = true := by
          rw [isParameter_iff]
          omega
        have hbetween : isBetween false c = true := by rw [hfalse, hspace, Bool.or_true]
        have hblank : ∀ stage, stage ≠ .introducer →
            completes true stage (' ' :: PyText.joinWords cs) =
              completes true .intermediates (PyText.joinWords cs) := by
          intro stage hstage
          cases stage with
          | introducer => exact absurd rfl hstage
          | parameters => rfl
          | intermediates => rfl
        rw [if_pos hspace, if_pos hspace, completes, if_pos hbetween]
        refine ⟨fun stage => ?_, hwords⟩
        cases stage with
        | introducer =>
            rw [completes, decide_eq_false hbracket]
            split
            · rfl
            · rfl
        | parameters =>
            rw [completes, if_neg hparameter, if_pos hbetween, ← hwords]
            split
            · rename_i hempty
              rw [hempty, completes_nil, completes_nil]
            · exact hblank _ Stage.noConfusion
        | intermediates =>
            rw [completes, if_pos hbetween, ← hwords]
            split
            · rename_i hempty
              rw [hempty]
            · exact hblank _ Stage.noConfusion
      · have hbetween : isBetween false c = isBetween true c := by
          rw [hfalse, Bool.eq_false_iff.mpr hspace, Bool.or_false, isBetween_true]
        have hstage : ∀ stage, completes true stage (c :: PyText.joinRest cs) =
            completes false stage (c :: cs) := by
          intro stage
          cases stage <;> rw [completes, completes, hrest] <;> simp only [hbetween, hrest]
        rw [if_neg hspace, if_neg hspace]
        exact ⟨hstage, hstage .intermediates⟩

theorem atEscape_joinWords (cs : Chars) :
    (AtEscape (fun rest => completes true .introducer rest = true) (PyText.joinRest cs) ↔
        AtEscape (fun rest => completes false .introducer rest = true) cs) ∧
      (AtEscape (fun rest => completes true .introducer rest = true) (PyText.joinWords cs) ↔
        AtEscape (fun rest => completes false .introducer rest = true) cs) := by
  induction cs with
  | nil => exact ⟨iff_of_false not_atEscape_nil not_atEscape_nil,
      iff_of_false not_atEscape_nil not_atEscape_nil⟩
  | cons c cs ih =>
      obtain ⟨hrest, hwords⟩ := ih
      rw [PyText.joinWords_cons, PyText.joinRest]
      by_cases hspace : PyText.isSpace c = true
      · have hc : c ≠ '\x1b' := by
          rintro rfl
          exact absurd hspace (by decide)
        rw [if_pos hspace, if_pos hspace, atEscape_cons_of_ne hc, hwords]
        refine ⟨?_, Iff.rfl⟩
        split
        · rename_i hempty
          rw [← hwords, hempty]
        · rw [atEscape_cons_of_ne (by decide), hwords]
      · rw [if_neg hspace, if_neg hspace, atEscape_cons, atEscape_cons, hrest,
          (completes_joinRest cs).1]
        exact ⟨Iff.rfl, Iff.rfl⟩

/-! ## Normalized texts -/

theorem hasEscape_normalizePreviewText_iff (value : Chars) (preserveLines : Bool) :
    HasEscape (normalizePreviewText value preserveLines) ↔ Interrupted preserveLines value := by
  rw [hasEscape_iff, interrupted_iff]
  cases preserveLines with
  | true => exact Iff.rfl
  | false => exact (atEscape_joinWords (stripEscapes value)).2

theorem normalizePreviewText_normalized {value : Chars} {preserveLines : Bool}
    (h : ¬ HasEscape (normalizePreviewText value preserveLines)) :
    normalizePreviewText (normalizePreviewText value preserveLines) preserveLines =
      normalizePreviewText value preserveLines := by
  have hstrip := stripEscapes_of_not_hasEscape h
  rw [normalizePreviewText, hstrip]
  cases preserveLines with
  | true => rfl
  | false => exact PyText.joinWords_joinWords _

/-- A normalized text has no escape sequence, and normalizing it again changes nothing, exactly if
no escape character of the text is separated from the rest of a sequence by whole sequences or, where
lines are not kept, by white space. -/
theorem normalized_without_escapes_iff (value : Chars) (preserveLines : Bool) :
    (¬ HasEscape (normalizePreviewText value preserveLines) ∧
        normalizePreviewText (normalizePreviewText value preserveLines) preserveLines =
          normalizePreviewText value preserveLines) ↔
      ¬ Interrupted preserveLines value := by
  rw [← hasEscape_normalizePreviewText_iff]
  exact ⟨And.left, fun h => ⟨h, normalizePreviewText_normalized h⟩⟩

/-- Of a sequence in the middle of another one only the inner one is removed. -/
theorem nested_escape_survives :
    ¬ ∀ (value : Chars) (preserveLines : Bool),
      ¬ HasEscape (normalizePreviewText value preserveLines) ∧
        normalizePreviewText (normalizePreviewText value preserveLines) preserveLines =
          normalizePreviewText value preserveLines := by
  intro h
  have hsame := (h "\x1b[\x1b[0m0m".toList true).2
  exact absurd hsame (by decide)

end Sdk

end Hypernote
