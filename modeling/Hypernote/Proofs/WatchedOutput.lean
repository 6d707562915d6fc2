import Hypernote.Client.Watch
import Mathlib.Data.List.Chain
import Mathlib.Data.List.Infix
/-!
# What a watcher streams

`_output_deltas` compares the texts of two reads as `str` renders them, which for a text that is a
list of strings is its `repr`.  The emitted texts are at least as long as the renderings read last,
and a rendering is longer than the text it stands for unless the text is a string: so nothing but
strings, each a prefix of the next, comes out right.
-/

namespace Hypernote

open Foundation

namespace Output

variable {δ : Type} {printable : Char → Bool} {o p c : Output δ}

/-- The text is not a list of strings. -/
def isPlain (o : Output δ) : Bool :=
  match o.text with
  | some (.lines _) => false
  | _ => true

variable (printable) in
theorem joined_le_textStr (o : Output δ) :
    o.joinedText.length ≤ (o.textStr printable).length := by
  rw [joinedText, textStr]
  cases o.text with
  | none => exact le_refl _
  | some t => exact t.joined_le_str

variable (printable) in
/-- A rendering is the text it stands for just when the text is not a list of strings. -/
theorem isPlain_iff : o.isPlain = true ↔ (o.textStr printable).length = o.joinedText.length := by
  rw [isPlain, textStr, joinedText]
  cases o.text with
  | none => simp
  | some t =>
      cases t with
      | string s => simp [MultilineString.str, MultilineString.joined]
      | lines items =>
          have hlt := PyText.length_lt_reprList printable items
          simpa [MultilineString.str, MultilineString.joined] using hlt.ne'

variable (printable) in
theorem textStr_of_isPlain (h : o.isPlain = true) : o.textStr printable = o.joinedText := by
  rw [isPlain] at h
  rw [textStr, joinedText]
  split at h
  · cases h
  · cases ht : o.text with
    | none => rfl
    | some t =>
        cases t with
        | string s => rfl
        | lines items => simp_all

/-- The output has not changed, up to the shape of its text. -/
inductive Unchanged (p c : Output δ) : Prop
  | stream (hp : p.isStream = true) (hc : c.isStream = true) (hname : p.name = c.name)
      (htext : p.joinedText = c.joinedText)
  | same (hp : p.isStream = false) (h : p = c)

/-- The output has not changed, but for the end of its text if it is a stream. -/
inductive Grows (p c : Output δ) : Prop
  | stream (hp : p.isStream = true) (hc : c.isStream = true) (hname : p.name = c.name)
      (htext : p.joinedText <+: c.joinedText)
  | same (hp : p.isStream = false) (h : p = c)

theorem Unchanged.grows (h : p.Unchanged c) : p.Grows c := by
  cases h with
  | stream hp hc hname htext => exact .stream hp hc hname (htext ▸ List.prefix_rfl)
  | same hp h => exact .same hp h

theorem Grows.isStream (h : p.Grows c) : c.isStream = p.isStream := by
  cases h with
  | stream hp hc => rw [hp, hc]
  | same _ h => rw [h]

end Output

namespace Watch

variable {δ : Type} [DecidableEq δ] {printable : Char → Bool} {o p c : Output δ}
  {prev curr : List (Output δ)}

/-- A read extends the one before it: there are new outputs at its end, and the text of the output
that was last may have grown. -/
inductive Extends : List (Output δ) → List (Output δ) → Prop
  | nil (cs : List (Output δ)) : Extends [] cs
  | last {p c : Output δ} (cs : List (Output δ)) (h : p.Grows c) : Extends [p] (c :: cs)
  | cons {p c q : Output δ} {ps cs : List (Output δ)} (h : p.Unchanged c)
      (hrest : Extends (q :: ps) cs) : Extends (p :: q :: ps) (c :: cs)

/-- The joined text of the stream outputs. -/
def joinedStreams (outputs : List (Output δ)) : Chars :=
  outputs.flatMap fun o => if o.isStream then o.joinedText else []

/-- The text of the stream outputs as `str` renders it. -/
def renderedStreams (printable : Char → Bool) (outputs : List (Output δ)) : Chars :=
  outputs.flatMap fun o => if o.isStream then o.textStr printable else []

/-- The text of a stream output is a prefix of its text in the next read, as `str` renders both,
and where the two are the same (and not empty) so are the outputs. -/
def rendersAsPrefix (printable : Char → Bool) (p c : Output δ) : Bool :=
  !p.isStream || (p.textStr printable).isPrefixOf (c.textStr printable) &&
    (p.textStr printable ≠ c.textStr printable || p = c || c.textStr printable = [])

/-- The stream text of an item of `_output_deltas`. -/
def deltaText (printable : Char → Bool) : Delta δ → Chars
  | .suffix _ text => text
  | .output o => if o.isStream then o.textStr printable else []

/-- The output other than a stream that is an item of `_output_deltas`. -/
def deltaOutput : Delta δ → Option (Output δ)
  | .suffix _ _ => none
  | .output o => if o.isStream then none else some o

/-! ## One comparison -/

theorem outputDeltas_nil (cs : List (Output δ)) :
    outputDeltas printable [] cs = cs.map .output := by
  simp [outputDeltas]

theorem outputDeltas_cons (p c : Output δ) (ps cs : List (Output δ)) :
    outputDeltas printable (p :: ps) (c :: cs) =
      (outputDelta printable p c).toList ++ outputDeltas printable ps cs := by
  rw [outputDeltas, outputDeltas, List.zip_cons_cons, List.filterMap_cons]
  cases outputDelta printable p c with
  | none => simp [Nat.succ_min_succ]
  | some d => simp [Nat.succ_min_succ]

/-- The text that a comparison emits for one position. -/
def deltaChars (printable : Char → Bool) (p c : Output δ) : Chars :=
  (outputDelta printable p c).toList.flatMap (deltaText printable)

/-- An output other than a stream is not emitted again. -/
theorem outputDelta_of_not_stream (h : p.Grows c) (hp : p.isStream = false) :
    outputDelta printable p c = none := by
  cases h with
  | stream hp' => rw [hp'] at hp; cases hp
  | same _ h =>
      subst h
      simp [outputDelta, hp]

variable (printable) in
/-- Of a stream, the rest of its rendering is emitted, or the whole of it again. -/
theorem deltaChars_cases (h : p.Grows c) (hp : p.isStream = true) :
    (rendersAsPrefix printable p c = true ∧
        p.textStr printable ++ deltaChars printable p c = c.textStr printable) ∨
      (rendersAsPrefix printable p c = false ∧ p.textStr printable ≠ [] ∧
        deltaChars printable p c = c.textStr printable) := by
  cases h with
  | same hp' => rw [hp'] at hp; cases hp
  | stream _ hc hname _ =>
      have hwhole : deltaText printable (.output c) = c.textStr printable := if_pos hc
      rw [deltaChars, outputDelta, if_pos ⟨hp, hc, hname⟩, rendersAsPrefix, hp]
      by_cases hpre : (p.textStr printable).isPrefixOf (c.textStr printable) = true
      · have hdrop := List.prefix_append_drop (List.isPrefixOf_iff_prefix.mp hpre)
        by_cases hsame : c.textStr printable = p.textStr printable
        · rw [if_neg (fun h => h.2 hsame)]
          by_cases heq : c = p
          · subst heq
            left
            simp
          · rw [if_pos heq, hpre, hsame]
            by_cases hempty : p.textStr printable = []
            · left
              simp [hwhole, hsame, hempty]
            · right
              simp [hwhole, hsame, hempty, Ne.symm heq]
        · rw [if_pos ⟨hpre, hsame⟩]
          left
          simpa [hpre, Ne.symm hsame, deltaText] using hdrop.symm
      · have hne : c ≠ p := by
          rintro rfl
          exact hpre (List.isPrefixOf_iff_prefix.mpr List.prefix_rfl)
        rw [if_neg (fun h => hpre h.1), if_pos hne]
        right
        refine ⟨by simp [hpre], fun hempty => hpre ?_, by simpa using hwhole⟩
        rw [hempty]
        exact List.isPrefixOf_iff_prefix.mpr List.nil_prefix

/-! ## One read after another -/

/-- Every stream output of the read before renders as a prefix of what it is now. -/
def PrefixRead (printable : Char → Bool) (prev curr : List (Output δ)) : Prop :=
  ∀ pair ∈ prev.zip curr, rendersAsPrefix printable pair.1 pair.2 = true

/-- The stream outputs have strings for texts. -/
def PlainStreams (outputs : List (Output δ)) : Prop :=
  ∀ o ∈ outputs, o.isStream = true → o.isPlain = true

theorem prefixRead_cons {ps cs : List (Output δ)} :
    PrefixRead printable (p :: ps) (c :: cs) ↔
      rendersAsPrefix printable p c = true ∧ PrefixRead printable ps cs := by
  rw [PrefixRead, List.zip_cons_cons, List.forall_mem_cons]
  rfl

omit [DecidableEq δ] in
theorem renderedStreams_cons (o : Output δ) (os : List (Output δ)) :
    renderedStreams printable (o :: os) =
      (if o.isStream then o.textStr printable else []) ++ renderedStreams printable os :=
  List.flatMap_cons

/-- The stream text of all items. -/
def deltasText (printable : Char → Bool) (ds : List (Delta δ)) : Chars :=
  ds.flatMap (deltaText printable)

theorem deltasText_cons (p c : Output δ) (ps cs : List (Output δ)) :
    deltasText printable (outputDeltas printable (p :: ps) (c :: cs)) =
      deltaChars printable p c ++ deltasText printable (outputDeltas printable ps cs) := by
  rw [deltasText, outputDeltas_cons, List.flatMap_append]
  rfl

theorem deltasText_nil (cs : List (Output δ)) :
    deltasText printable (outputDeltas printable [] cs) = renderedStreams printable cs := by
  rw [deltasText, outputDeltas_nil, List.flatMap_map]
  rfl

variable (printable) in
/-- At one position, what is rendered grows by at most what is emitted, and by exactly that only
where it grows from a prefix. -/
theorem rendered_le (h : p.Grows c) :
    let before := (if p.isStream then p.textStr printable else []).length
    let now := (if c.isStream then c.textStr printable else []).length
    now ≤ before + (deltaChars printable p c).length ∧
      (now = before + (deltaChars printable p c).length →
        rendersAsPrefix printable p c = true) := by
  rw [h.isStream]
  cases hp : p.isStream with
  | false => simp [rendersAsPrefix, hp]
  | true =>
      dsimp only
      rw [if_pos rfl, if_pos rfl]
      rcases deltaChars_cases printable h hp with
        ⟨hpre, heq⟩ | ⟨-, hne, heq⟩
      · rw [← heq, List.length_append]
        exact ⟨le_refl _, fun _ => hpre⟩
      · rw [heq]
        have hpos := List.length_pos_of_ne_nil hne
        constructor
        · omega
        · intro hlen
          omega

variable (printable) in
theorem renderedStreams_le (h : Extends prev curr) :
    (renderedStreams printable curr).length ≤ (renderedStreams printable prev).length +
        (deltasText printable (outputDeltas printable prev curr)).length ∧
      ((renderedStreams printable curr).length = (renderedStreams printable prev).length +
          (deltasText printable (outputDeltas printable prev curr)).length →
        PrefixRead printable prev curr) := by
  induction h with
  | nil cs =>
      rw [deltasText_nil]
      exact ⟨Nat.le_add_left _ _, fun _ _ hpair => by cases hpair⟩
  | @last p c cs h =>
      obtain ⟨hle, hpre⟩ := rendered_le printable h
      rw [deltasText_cons, deltasText_nil, prefixRead_cons]
      rw [renderedStreams_cons p, renderedStreams_cons c]
      simp only [List.length_append, show renderedStreams printable ([] : List (Output δ)) = [] from rfl,
        List.length_nil]
      constructor
      · omega
      · intro hlen
        exact ⟨hpre (by omega), fun _ hpair => by cases hpair⟩
  | @cons p c q ps cs h hrest ih =>
      obtain ⟨hle, hpre⟩ := rendered_le printable h.grows
      rw [deltasText_cons, prefixRead_cons]
      rw [renderedStreams_cons p, renderedStreams_cons c]
      simp only [List.length_append]
      constructor
      · omega
      · intro hlen
        exact ⟨hpre (by omega), ih.2 (by omega)⟩

/-- The streams before the last output of a read that extends it are plain where they are plain
in the next. -/
theorem plainStreams_dropLast (h : Extends prev curr) (hpre : PrefixRead printable prev curr)
    (hplain : PlainStreams curr.dropLast) : PlainStreams prev.dropLast := by
  induction h with
  | nil => exact fun _ ho => by cases ho
  | last => exact fun _ ho => by cases ho
  | @cons p c q ps cs h hrest ih =>
      obtain ⟨c', cs, rfl⟩ : ∃ c' cs', cs = c' :: cs' := by cases hrest <;> exact ⟨_, _, rfl⟩
      rw [prefixRead_cons] at hpre
      rw [List.dropLast_cons_cons, PlainStreams, List.forall_mem_cons] at hplain
      rw [List.dropLast_cons_cons, PlainStreams, List.forall_mem_cons]
      refine ⟨fun hp => ?_, ih hpre.2 hplain.2⟩
      cases h with
      | same hp' => rw [hp'] at hp; cases hp
      | stream _ hc _ htext =>
          -- the rendering of `p` is no longer than that of `c`, which is their common text
          have hp' := hpre.1
          rw [rendersAsPrefix, hp, Bool.not_true, Bool.false_or, Bool.and_eq_true,
            List.isPrefixOf_iff_prefix] at hp'
          have hlen := hp'.1.length_le
          have hc' := Output.textStr_of_isPlain printable (hplain.1 hc)
          rw [hc', ← htext] at hlen
          exact (Output.isPlain_iff printable).mpr
            (le_antisymm hlen (p.joined_le_textStr printable))

theorem rendered_append (h : p.Grows c) (hpre : rendersAsPrefix printable p c = true) :
    (if p.isStream then p.textStr printable else []) ++ deltaChars printable p c =
      if c.isStream then c.textStr printable else [] := by
  rw [h.isStream]
  cases hp : p.isStream with
  | false =>
      rw [deltaChars, outputDelta_of_not_stream h hp]
      rfl
  | true =>
      rcases deltaChars_cases printable h hp with ⟨-, heq⟩ | ⟨hfalse, -⟩
      · exact heq
      · rw [hpre] at hfalse
        cases hfalse

/-- What is emitted on a read is what its rendering adds to that of the read before. -/
theorem renderedStreams_append (h : Extends prev curr) (hpre : PrefixRead printable prev curr)
    (hplain : PlainStreams curr.dropLast) :
    renderedStreams printable prev ++ deltasText printable (outputDeltas printable prev curr) =
      renderedStreams printable curr := by
  have hprev := plainStreams_dropLast h hpre hplain
  induction h with
  | nil cs =>
      rw [deltasText_nil]
      rfl
  | @last p c cs h =>
      rw [prefixRead_cons] at hpre
      rw [deltasText_cons, deltasText_nil, renderedStreams_cons c, renderedStreams_cons p,
        ← rendered_append h hpre.1]
      simp [renderedStreams]
  | @cons p c q ps cs h hrest ih =>
      obtain ⟨c', cs, rfl⟩ : ∃ c' cs', cs = c' :: cs' := by cases hrest <;> exact ⟨_, _, rfl⟩
      rw [prefixRead_cons] at hpre
      rw [List.dropLast_cons_cons, PlainStreams, List.forall_mem_cons] at hplain hprev
      have hhead := rendered_append h.grows hpre.1
      -- an output before the last one renders as before
      have hsame : (if p.isStream then p.textStr printable else []) =
          if c.isStream then c.textStr printable else [] := by
        cases h with
        | same _ h => rw [h]
        | stream hp hc _ htext =>
            rw [if_pos hp, if_pos hc, Output.textStr_of_isPlain _ (hprev.1 hp),
              Output.textStr_of_isPlain _ (hplain.1 hc), htext]
      rw [hsame, List.append_right_eq_self] at hhead
      rw [deltasText_cons, hhead, List.nil_append, renderedStreams_cons p, renderedStreams_cons c,
        hsame, List.append_assoc, ih hpre.2 hplain.2 hprev.2]

/-- The outputs other than streams. -/
def others (outputs : List (Output δ)) : List (Output δ) := outputs.filter fun o => !o.isStream

variable (printable) in
theorem outputDelta_of_stream (h : p.Grows c) (hp : p.isStream = true) :
    (outputDelta printable p c).bind deltaOutput = none := by
  have hc := h.isStream.trans hp
  rw [outputDelta]
  split
  · split
    · rfl
    · split
      · simp [deltaOutput, hc]
      · rfl
  · split
    · simp [deltaOutput, hc]
    · rfl

/-- The outputs other than streams are emitted in the read in which they are new. -/
theorem others_append (h : Extends prev curr) :
    others prev ++ (outputDeltas printable prev curr).filterMap deltaOutput = others curr := by
  have hnew : ∀ cs : List (Output δ),
      (outputDeltas printable [] cs).filterMap deltaOutput = others cs := by
    intro cs
    rw [outputDeltas_nil, List.filterMap_map, others, ← List.filterMap_eq_filter]
    apply List.filterMap_congr
    intro o _
    cases ho : o.isStream <;> simp [deltaOutput, Option.guard, ho]
  have hkept : ∀ {p c : Output δ}, p.Grows c →
      (outputDelta printable p c).toList.filterMap deltaOutput = [] ∧
        (others [c] = others [p]) := by
    intro p c h
    cases hp : p.isStream with
    | true =>
        refine ⟨?_, by simp [others, hp, h.isStream]⟩
        have hnone := outputDelta_of_stream printable h hp
        cases hd : outputDelta printable p c with
        | none => rfl
        | some d => simpa [hd] using hnone
    | false =>
        rw [outputDelta_of_not_stream h hp]
        cases h with
        | stream hp' => rw [hp'] at hp; cases hp
        | same _ h => exact ⟨rfl, by rw [h]⟩
  have hcons : ∀ (o : Output δ) (os : List (Output δ)), others (o :: os) = others [o] ++ others os :=
    fun o os => List.filter_append [o] os
  induction h with
  | nil cs => exact hnew cs
  | @last p c cs h =>
      obtain ⟨hnone, hsame⟩ := hkept h
      rw [outputDeltas_cons, List.filterMap_append, hnone, List.nil_append, hnew, hcons c, hsame]
  | @cons p c q ps cs h hrest ih =>
      obtain ⟨hnone, hsame⟩ := hkept h.grows
      rw [outputDeltas_cons, List.filterMap_append, hnone, List.nil_append, hcons c, hcons p,
        hsame, List.append_assoc, ih]

/-! ## All reads of a cell -/

/-- What `_output_deltas` returns over the reads of a cell, the outputs seen before them given. -/
def deltasOf (printable : Char → Bool) : List (Output δ) → List (List (Output δ)) → List (Delta δ)
  | _, [] => []
  | seen, read :: reads => outputDeltas printable seen read ++ deltasOf printable read reads

theorem deltasOf_concat (seen read : List (Output δ)) (reads : List (List (Output δ))) :
    deltasOf printable seen (reads ++ [read]) =
      deltasOf printable seen reads ++ outputDeltas printable (reads.getLastD seen) read := by
  induction reads generalizing seen with
  | nil => simp [deltasOf]
  | cons r reads ih =>
      rw [List.cons_append, deltasOf, deltasOf, ih, List.getLastD_cons, List.append_assoc]

/-- Where every read renders as a prefix of the next and the last has strings for texts, its
rendering is what is emitted. -/
theorem renderedStreams_of_grown {seen : List (Output δ)} {reads : List (List (Output δ))}
    (hreads : (seen :: reads).IsChain Extends)
    (hpre : (seen :: reads).IsChain (PrefixRead printable))
    (hplain : PlainStreams (reads.getLastD seen)) :
    renderedStreams printable seen ++ deltasText printable (deltasOf printable seen reads) =
        renderedStreams printable (reads.getLastD seen) ∧ PlainStreams seen.dropLast := by
  induction reads generalizing seen with
  | nil =>
      refine ⟨List.append_nil _, fun o ho => hplain o (List.dropLast_subset _ ho)⟩
  | cons r reads ih =>
      rw [List.isChain_cons_cons] at hreads hpre
      rw [List.getLastD_cons] at hplain ⊢
      obtain ⟨heq, hdropLast⟩ := ih hreads.2 hpre.2 hplain
      refine ⟨?_, plainStreams_dropLast hreads.1 hpre.1 hdropLast⟩
      calc renderedStreams printable seen ++ deltasText printable (deltasOf printable seen (r :: reads))
          = renderedStreams printable seen ++ deltasText printable (outputDeltas printable seen r) ++
              deltasText printable (deltasOf printable r reads) := by
            rw [deltasOf, deltasText, List.flatMap_append, List.append_assoc]
            rfl
        _ = renderedStreams printable (reads.getLastD r) := by
            rw [renderedStreams_append hreads.1 hpre.1 hdropLast, heq]

variable (printable) in
/-- What is emitted is at least as long as what is rendered last, and as long only where every
read renders as a prefix of the next. -/
theorem renderedStreams_getLastD_le {seen : List (Output δ)} {reads : List (List (Output δ))}
    (hreads : (seen :: reads).IsChain Extends) :
    (renderedStreams printable (reads.getLastD seen)).length ≤
        (renderedStreams printable seen).length +
          (deltasText printable (deltasOf printable seen reads)).length ∧
      ((renderedStreams printable (reads.getLastD seen)).length =
          (renderedStreams printable seen).length +
            (deltasText printable (deltasOf printable seen reads)).length →
        (seen :: reads).IsChain (PrefixRead printable)) := by
  induction reads generalizing seen with
  | nil => exact ⟨Nat.le_add_right _ _, fun _ => .singleton _⟩
  | cons r reads ih =>
      rw [List.isChain_cons_cons] at hreads
      obtain ⟨hle, hpre⟩ := renderedStreams_le printable hreads.1
      obtain ⟨hle', hpre'⟩ := ih hreads.2
      have happend : (deltasText printable (deltasOf printable seen (r :: reads))).length =
          (deltasText printable (outputDeltas printable seen r)).length +
            (deltasText printable (deltasOf printable r reads)).length := by
        rw [deltasOf, deltasText, List.flatMap_append, List.length_append]
        rfl
      rw [List.getLastD_cons, happend, List.isChain_cons_cons]
      constructor
      · omega
      · intro hlen
        exact ⟨hpre (by omega), hpre' (by omega)⟩

variable (printable) in
omit [DecidableEq δ] in
theorem joinedStreams_le (outputs : List (Output δ)) :
    (joinedStreams outputs).length ≤ (renderedStreams printable outputs).length ∧
      ((joinedStreams outputs).length = (renderedStreams printable outputs).length →
        PlainStreams outputs) := by
  induction outputs with
  | nil => exact ⟨le_refl _, fun _ _ ho => by cases ho⟩
  | cons o os ih =>
      have hle := o.joined_le_textStr printable
      rw [renderedStreams_cons, joinedStreams, List.flatMap_cons, ← joinedStreams, PlainStreams,
        List.forall_mem_cons]
      cases ho : o.isStream with
      | false => simpa [PlainStreams] using ih
      | true =>
          simp only [if_true, List.length_append]
          constructor
          · omega
          · intro hlen
            refine ⟨fun _ => ?_, ih.2 (by omega)⟩
            exact (Output.isPlain_iff printable).mpr (by omega)

omit [DecidableEq δ] in
theorem renderedStreams_of_plain {outputs : List (Output δ)} (h : PlainStreams outputs) :
    renderedStreams printable outputs = joinedStreams outputs := by
  apply List.flatMap_congr
  intro o ho
  split
  · exact Output.textStr_of_isPlain _ (h o ho ‹_›)
  · rfl

omit [DecidableEq δ] in
theorem isChain_nil_cons {R : List (Output δ) → List (Output δ) → Prop}
    {reads : List (List (Output δ))} (hnil : ∀ read, R [] read) :
    ([] :: reads).IsChain R ↔ reads.IsChain R := by
  cases reads with
  | nil => simp
  | cons r reads => simp [hnil]

/-- The stream text emitted is that of the last read just when every read renders as a prefix of
the next and the texts read last are strings. -/
theorem deltasText_eq_iff {reads : List (List (Output δ))} (hreads : reads.IsChain Extends) :
    deltasText printable (deltasOf printable [] reads) = joinedStreams (reads.getLastD []) ↔
      reads.IsChain (PrefixRead printable) ∧ PlainStreams (reads.getLastD []) := by
  have hchain := (isChain_nil_cons Extends.nil).mpr hreads
  have hnil : ∀ read : List (Output δ), PrefixRead printable [] read :=
    fun _ _ hpair => by cases hpair
  rw [← isChain_nil_cons hnil]
  constructor
  · intro heq
    obtain ⟨hle, hpre⟩ := renderedStreams_getLastD_le printable hchain
    obtain ⟨hle', hplain⟩ := joinedStreams_le printable (reads.getLastD [])
    rw [heq] at hle hpre
    have hzero : (renderedStreams printable ([] : List (Output δ))).length = 0 := rfl
    exact ⟨hpre (by omega), hplain (by omega)⟩
  · rintro ⟨hpre, hplain⟩
    have heq := (renderedStreams_of_grown hchain hpre hplain).1
    rw [← renderedStreams_of_plain hplain, ← heq]
    rfl

variable (printable) in
/-- The outputs other than streams are emitted once each. -/
theorem filterMap_deltasOf {seen : List (Output δ)} {reads : List (List (Output δ))}
    (hreads : (seen :: reads).IsChain Extends) :
    others seen ++ (deltasOf printable seen reads).filterMap deltaOutput =
      others (reads.getLastD seen) := by
  induction reads generalizing seen with
  | nil => exact List.append_nil _
  | cons r reads ih =>
      rw [List.isChain_cons_cons] at hreads
      rw [deltasOf, List.filterMap_append, ← List.append_assoc, others_append hreads.1, ih hreads.2,
        List.getLastD_cons]

/-! ## What the loop emits for a cell -/

section Observed

variable (cellId : CellId) (events : List (Event δ))

/-- The outputs that the loop has read of the cell. -/
def reads : List (List (Output δ)) :=
  events.filterMap fun
    | .read c outputs => if c = cellId then some outputs else none
    | _ => none

/-- The text of the stream events of the cell, in the order in which they were emitted. -/
def streamedText : Chars :=
  events.flatMap fun
    | .emitted p => if p.event = .outputDelta ∧ p.cellId = some cellId then p.text.getD [] else []
    | _ => []

/-- The outputs in the other output events of the cell. -/
def emittedOutputs : List (Output δ) :=
  events.filterMap fun
    | .emitted p => if p.event = .outputDelta ∧ p.cellId = some cellId then p.output else none
    | _ => none

end Observed

section Append

variable {cellId : CellId} {es es' : List (Event δ)}

omit [DecidableEq δ]

theorem reads_append : reads cellId (es ++ es') = reads cellId es ++ reads cellId es' :=
  List.filterMap_append

theorem streamedText_append :
    streamedText cellId (es ++ es') = streamedText cellId es ++ streamedText cellId es' :=
  List.flatMap_append

theorem emittedOutputs_append :
    emittedOutputs cellId (es ++ es') = emittedOutputs cellId es ++ emittedOutputs cellId es' :=
  List.filterMap_append

end Append

variable {w : Watch} {s s' : State δ} {l : Label δ} {cellId : CellId}

/-- The event is a read, or a `cell_started` or `output_delta`. -/
def Event.isOfCell : Event δ → Bool
  | .began _ => false
  | .read _ _ => true
  | .emitted p => p.event = .cellStarted || p.event = .outputDelta

variable (cellId) in
omit [DecidableEq δ] in
theorem observed_of_not_isOfCell {es : List (Event δ)} (h : ∀ e ∈ es, e.isOfCell = false) :
    reads cellId es = [] ∧ streamedText cellId es = [] ∧ emittedOutputs cellId es = [] := by
  simp only [reads, streamedText, emittedOutputs, List.filterMap_eq_nil_iff, List.flatMap_eq_nil_iff]
  refine ⟨fun e he => ?_, fun e he => ?_, fun e he => ?_⟩
  all_goals
    have hnot := h e he
    cases e with
    | began => rfl
    | read => cases hnot
    | emitted p => simp_all [Event.isOfCell]

omit [DecidableEq δ] in
theorem mem_emit {payload : Payload δ} {e : Event δ}
    (h : e ∈ w.emit payload ∨ e ∈ w.emitProgress payload) : e = .emitted payload := by
  revert h
  simp only [emit, emitProgress]
  split <;> (try split) <;> simp

variable (w printable cellId) in
omit [DecidableEq δ] in
/-- What a delta of a cell comes to in the events of that cell. -/
theorem observed_deltaPayload (c : CellId) (d : Delta δ) :
    reads cellId (w.emitProgress (deltaPayload printable c d)) = [] ∧
    streamedText cellId (w.emitProgress (deltaPayload printable c d)) =
      (if c = cellId ∧ w.progress ≠ .quiet then deltaText printable d else []) ∧
    emittedOutputs cellId (w.emitProgress (deltaPayload printable c d)) =
      if c = cellId ∧ w.progress ≠ .quiet then (deltaOutput d).toList else [] := by
  obtain ⟨text, hpayload, htext⟩ : ∃ text : Option Chars,
      deltaPayload printable c d = ⟨.outputDelta, some c, none, text, deltaOutput d⟩ ∧
        text.getD [] = deltaText printable d := by
    cases d with
    | suffix => exact ⟨_, rfl, rfl⟩
    | output o =>
        simp only [deltaPayload, deltaOutput, deltaText]
        split <;> exact ⟨_, rfl, rfl⟩
  rw [hpayload, ← htext]
  by_cases hquiet : w.progress = .quiet
  · have hnone : w.emitProgress ⟨.outputDelta, some c, none, text, deltaOutput d⟩ = [] := by
      cases hmode : w.mode <;> simp [emitProgress, humanEventEchoes, hmode, hquiet]
    rw [hnone]
    simp [reads, streamedText, emittedOutputs, hquiet]
  · by_cases hechoes : w.mode = .streamJson ∨ text.getD [] ≠ [] ∨ (deltaOutput d).isSome
    · have hemitted : w.emitProgress ⟨.outputDelta, some c, none, text, deltaOutput d⟩ =
          [.emitted ⟨.outputDelta, some c, none, text, deltaOutput d⟩] := by
        cases hmode : w.mode <;> simp_all [emitProgress, humanEventEchoes]
      rw [hemitted]
      by_cases hc : c = cellId
      · cases deltaOutput d <;> simp [reads, streamedText, emittedOutputs, hquiet, hc]
      · simp [reads, streamedText, emittedOutputs, hc]
    · -- nothing is written of an event without text and output
      have hnone : w.emitProgress ⟨.outputDelta, some c, none, text, deltaOutput d⟩ = [] := by
        cases hmode : w.mode <;> simp_all [emitProgress, humanEventEchoes]
      rw [not_or, not_or, not_not] at hechoes
      rw [hnone, hechoes.2.1]
      have houtput : deltaOutput d = none := by simpa using hechoes.2.2
      rw [houtput]
      simp [reads, streamedText, emittedOutputs]

/-- What one step of the loop can do. -/
inductive StepCase (w : Watch) (printable : Char → Bool) (s : State δ) : Label δ → State δ → Prop
  /-- It reads no outputs. -/
  | other {l : Label δ} {s' : State δ} {es : List (Event δ)}
      (hevents : s'.events = s.events ++ es) (hes : ∀ e ∈ es, e.isOfCell = false)
      (hseen : s'.seenOutputs = s.seenOutputs) : StepCase w printable s l s'
  | again {c : CellId} {rest : List CellId} {outputs : List (Output δ)}
      (hpoint : s.point = .reading (c :: rest)) :
      StepCase w printable s (.outputs outputs) (w.cellRead s printable c outputs rest)
  | first {c : CellId} {rest : List CellId} {outputs : List (Output δ)}
      (hpoint : s.point = .reading (c :: rest)) (hne : outputs ≠ []) :
      StepCase w printable s (.outputs outputs)
        (w.cellRead (w.cellStarted s c) printable c outputs rest)
  | counted {c : CellId} {rest : List CellId} {count : Option Int}
      (hpoint : s.point = .counting c rest) (hstarts : count ≠ none ∨ s.status = .running) :
      StepCase w printable s (.executionCount count)
        (w.cellRead (w.cellStarted s c) printable c [] rest)
  | idle {c : CellId} {rest : List CellId} {count : Option Int}
      (hpoint : s.point = .counting c rest) :
      StepCase w printable s (.executionCount count) (w.cellRead s printable c [] rest)

theorem step_cases (h : w.step printable s l = some s') : StepCase w printable s l s' := by
  have hsame : ∀ {u : State δ}, u.events = s.events → u.seenOutputs = s.seenOutputs →
      StepCase w printable s l u := by
    intro u hevents hseen
    refine .other (show u.events = s.events ++ [] by simpa using hevents) ?_ hseen
    intro e he
    cases he
  unfold step at h
  cases l with
  | begins c =>
      cases h
      refine .other (show _ = s.events ++ [.began c] from rfl) ?_ rfl
      intro e he
      rw [List.mem_singleton.mp he]
      rfl
  | refreshed status =>
      obtain ⟨-, heq⟩ := Option.ite_none_right_eq_some.mp h
      cases heq
      exact hsame rfl rfl
  | missing =>
      dsimp only at h
      split at h <;> cases h
      exact hsame rfl rfl
  | outputs outputs =>
      dsimp only at h
      split at h
      · split at h
        · cases h
          exact .again ‹_›
        · split at h
          · cases h
            exact .first ‹_› ‹_›
          · cases h
            exact hsame rfl rfl
      · cases h
  | executionCount count =>
      dsimp only at h
      split at h
      · split at h
        · cases h
          exact .counted ‹_› ‹_›
        · cases h
          exact .idle ‹_›
      · cases h
  | settles =>
      obtain ⟨-, heq⟩ := Option.ite_none_right_eq_some.mp h
      cases heq
      have hemitted : ∀ {payload : Payload δ} {e : Event δ}, payload.event ≠ .cellStarted →
          payload.event ≠ .outputDelta → e ∈ w.emit payload → e.isOfCell = false := by
        intro payload e hstarted hdelta he
        rw [mem_emit (.inl he)]
        simp [Event.isOfCell, hstarted, hdelta]
      unfold settle
      split
      · exact .other rfl (fun e he => hemitted (by simp) (by simp) he) rfl
      · split
        · refine .other rfl ?_ rfl
          intro e he
          rcases List.mem_append.mp he with he | he
          · split at he
            · obtain ⟨c, -, he⟩ := List.mem_flatMap.mp he
              exact hemitted (by simp) (by simp) he
            · cases he
          · refine hemitted ?_ ?_ he
            · dsimp only
              split <;> simp
            · dsimp only
              split <;> simp
        · exact hsame rfl rfl
  | slept =>
      obtain ⟨-, heq⟩ := Option.ite_none_right_eq_some.mp h
      cases heq
      exact hsame rfl rfl
  | timedOut =>
      obtain ⟨-, heq⟩ := Option.ite_none_right_eq_some.mp h
      cases heq
      exact hsame rfl rfl
  | failed =>
      dsimp only at h
      split at h <;> cases h
      · exact hsame rfl rfl
      · exact hsame rfl rfl
      · exact hsame rfl rfl

/-- What has been emitted for the cell is what `_output_deltas` returned over its reads. -/
structure Streams (w : Watch) (printable : Char → Bool) (cellId : CellId) (s : State δ) : Prop where
  seen : s.seenOutputs cellId = (reads cellId s.events).getLastD []
  text : streamedText cellId s.events = if w.progress = .quiet then [] else
    deltasText printable (deltasOf printable [] (reads cellId s.events))
  outputs : emittedOutputs cellId s.events = if w.progress = .quiet then [] else
    (deltasOf printable [] (reads cellId s.events)).filterMap deltaOutput

theorem Streams.append {es : List (Event δ)} (h : Streams w printable cellId s)
    (hevents : s'.events = s.events ++ es)
    (hes : reads cellId es = [] ∧ streamedText cellId es = [] ∧ emittedOutputs cellId es = [])
    (hseen : s'.seenOutputs = s.seenOutputs) : Streams w printable cellId s' := by
  obtain ⟨hreads, htext, houtputs⟩ := hes
  have hreads' : reads cellId s'.events = reads cellId s.events := by
    rw [hevents, reads_append, hreads, List.append_nil]
  refine ⟨?_, ?_, ?_⟩
  · rw [hseen, hreads', h.seen]
  · rw [hreads', ← h.text, hevents, streamedText_append, htext, List.append_nil]
  · rw [hreads', ← h.outputs, hevents, emittedOutputs_append, houtputs, List.append_nil]

variable (w printable cellId) in
omit [DecidableEq δ] in
theorem observed_deltas (c : CellId) (ds : List (Delta δ)) :
    let es := ds.flatMap fun d => w.emitProgress (deltaPayload printable c d)
    reads cellId es = [] ∧
      (streamedText cellId es = if c = cellId ∧ w.progress ≠ .quiet then deltasText printable ds
        else []) ∧
      emittedOutputs cellId es =
        if c = cellId ∧ w.progress ≠ .quiet then ds.filterMap deltaOutput else [] := by
  induction ds with
  | nil => simp [reads, streamedText, emittedOutputs, deltasText]
  | cons d ds ih =>
      obtain ⟨hreads, htext, houtputs⟩ :=
        observed_deltaPayload printable w cellId c d
      dsimp only at ih ⊢
      rw [List.flatMap_cons]
      refine ⟨?_, ?_, ?_⟩
      · rw [reads_append, hreads, ih.1]
        rfl
      · rw [streamedText_append, htext, ih.2.1]
        split <;> rfl
      · rw [emittedOutputs_append, houtputs, ih.2.2]
        split
        · rw [List.filterMap_cons]
          cases deltaOutput d <;> rfl
        · rfl

theorem Streams.cellRead (h : Streams w printable cellId s) (c : CellId)
    (outputs : List (Output δ)) (rest : List CellId) :
    Streams w printable cellId (w.cellRead s printable c outputs rest) := by
  obtain ⟨hreads, htext, houtputs⟩ := observed_deltas printable w
    cellId c (outputDeltas printable (s.seenOutputs c) outputs)
  have hevents : (w.cellRead s printable c outputs rest).events = s.events ++ [.read c outputs] ++
      (outputDeltas printable (s.seenOutputs c) outputs).flatMap fun d =>
        w.emitProgress (deltaPayload printable c d) := by
    rw [List.append_assoc]
    rfl
  have hreads' : reads cellId (w.cellRead s printable c outputs rest).events =
      reads cellId s.events ++ if c = cellId then [outputs] else [] := by
    rw [hevents, reads_append, reads_append, hreads, List.append_nil]
    by_cases hc : c = cellId <;> simp [reads, hc]
  have htext' : streamedText cellId (w.cellRead s printable c outputs rest).events =
      streamedText cellId s.events ++ if c = cellId ∧ w.progress ≠ .quiet then
        deltasText printable (outputDeltas printable (s.seenOutputs c) outputs) else [] := by
    rw [hevents, streamedText_append, streamedText_append, htext]
    simp [streamedText]
  have houtputs' : emittedOutputs cellId (w.cellRead s printable c outputs rest).events =
      emittedOutputs cellId s.events ++ if c = cellId ∧ w.progress ≠ .quiet then
        (outputDeltas printable (s.seenOutputs c) outputs).filterMap deltaOutput else [] := by
    rw [hevents, emittedOutputs_append, emittedOutputs_append, houtputs]
    simp [emittedOutputs]
  by_cases hc : c = cellId
  · subst hc
    rw [if_pos rfl] at hreads'
    refine ⟨?_, ?_, ?_⟩
    · rw [hreads', List.getLastD_concat]
      exact Function.update_self ..
    · rw [htext', hreads', h.text, deltasOf_concat, ← h.seen]
      by_cases hquiet : w.progress = .quiet <;> simp [hquiet, deltasText]
    · rw [houtputs', hreads', h.outputs, deltasOf_concat, ← h.seen]
      by_cases hquiet : w.progress = .quiet <;> simp [hquiet]
  · rw [if_neg hc, List.append_nil] at hreads'
    rw [if_neg fun h => hc h.1, List.append_nil] at htext' houtputs'
    refine ⟨?_, ?_, ?_⟩
    · rw [hreads', ← h.seen]
      exact Function.update_of_ne (Ne.symm hc) ..
    · rw [hreads', htext', h.text]
    · rw [hreads', houtputs', h.outputs]

omit [DecidableEq δ] in
/-- An event that is not an output event adds nothing to what is emitted of outputs. -/
theorem observed_of_emit {payload : Payload δ} (h : payload.event ≠ .outputDelta) {es : List (Event δ)}
    (hes : ∀ e ∈ es, e = .emitted payload) :
    reads cellId es = [] ∧ streamedText cellId es = [] ∧ emittedOutputs cellId es = [] := by
  simp only [reads, streamedText, emittedOutputs, List.filterMap_eq_nil_iff, List.flatMap_eq_nil_iff]
  refine ⟨fun e he => ?_, fun e he => ?_, fun e he => ?_⟩
  · rw [hes e he]
  · rw [hes e he]
    simp [h]
  · rw [hes e he]
    simp [h]

theorem Streams.cellStarted (h : Streams w printable cellId s) (c : CellId) :
    Streams w printable cellId (w.cellStarted s c) :=
  h.append rfl (observed_of_emit (by simp) fun _ he => mem_emit (.inr he)) rfl

theorem streams_start (w : Watch) (printable : Char → Bool) (cellId : CellId) (status : JobStatus) :
    Streams w printable cellId (w.start status : State δ) := by
  have hnone : ∀ e ∈ (w.start status : State δ).events, e.isOfCell = false := by
    intro e he
    rcases List.mem_append.mp he with he | he
    · obtain ⟨c, -, he⟩ := List.mem_flatMap.mp he
      rw [mem_emit (.inl he)]
      rfl
    · rw [mem_emit (.inr he)]
      rfl
  obtain ⟨hreads, htext, houtputs⟩ := observed_of_not_isOfCell cellId hnone
  refine ⟨?_, ?_, ?_⟩
  · rw [hreads]
    rfl
  · rw [htext, hreads]
    simp [deltasOf, deltasText]
  · rw [houtputs, hreads]
    simp [deltasOf]

theorem streams_run {status : JobStatus}
    (h : Run (w.step printable) anyStep (w.start status) s) (cellId : CellId) :
    Streams w printable cellId s := by
  apply Run.invariant (I := Streams w printable cellId) h (streams_start w printable cellId status)
  intro u l u' hu _ hstep
  cases step_cases hstep with
  | other hevents hes hseen => exact hu.append hevents (observed_of_not_isOfCell _ hes) hseen
  | again => exact hu.cellRead _ _ _
  | first => exact (hu.cellStarted _).cellRead _ _ _
  | counted => exact (hu.cellStarted _).cellRead _ _ _
  | idle => exact hu.cellRead _ _ _

/-- Over reads each of which extends the one before, the stream text emitted for a cell is the
joined text read last, and every other output is emitted once, just when either nothing is
emitted and nothing was to be, or the texts read last are strings and every read renders as a
prefix of the next. -/
theorem watch_streams_once {status : JobStatus}
    (h : Run (w.step printable) anyStep (w.start status) s)
    (hreads : (reads cellId s.events).IsChain Extends) :
    (streamedText cellId s.events = joinedStreams ((reads cellId s.events).getLastD []) ∧
        emittedOutputs cellId s.events = others ((reads cellId s.events).getLastD [])) ↔
      if w.progress = .quiet then
        joinedStreams ((reads cellId s.events).getLastD []) = [] ∧
          others ((reads cellId s.events).getLastD []) = []
      else
        (reads cellId s.events).IsChain (PrefixRead printable) ∧
          PlainStreams ((reads cellId s.events).getLastD []) := by
  have hs := streams_run h cellId
  rw [hs.text, hs.outputs]
  by_cases hquiet : w.progress = .quiet
  · simp only [if_pos hquiet]
    exact and_congr eq_comm eq_comm
  · have hothers := filterMap_deltasOf printable
      ((isChain_nil_cons Extends.nil).mpr hreads)
    simp only [if_neg hquiet]
    rw [deltasText_eq_iff hreads, and_iff_left]
    exact hothers

section Schedules

/-- A job of one cell, watched with `--stream-json`. -/
private def oneCellWatch : Watch := ⟨.streamJson, .events, ["cell"], [], false⟩

private def stdout (text : MultilineString) : Output Unit := ⟨"stream", some "stdout", some text, ()⟩

private def figure : Output Unit := ⟨"display_data", none, none, ()⟩

/-- The cell is read while it runs and once more when the job has succeeded. -/
private def readTwice (first last : List (Output Unit)) : List (Label Unit) :=
  [.refreshed .running, .begins "cell", .outputs first, .settles, .slept, .refreshed .succeeded,
    .outputs last, .settles]

theorem string_streamed_once :
    ∃ s : State Unit, s.point = .returned ∧ streamedText "cell" s.events = "ab".toList ∧
      emittedOutputs "cell" s.events = [figure] := by
  obtain ⟨s, hrun, hpoint, hreads⟩ :=
    @exists_run_of_exec _ _ (oneCellWatch.step fun _ => true) (oneCellWatch.start .queued)
      (readTwice [stdout (.string "a".toList)] [stdout (.string "ab".toList), figure])
      (fun s => s.point = .returned ∧ reads "cell" s.events =
        [[stdout (.string "a".toList)], [stdout (.string "ab".toList), figure]])
      _ (by decide)
  have hextends : (reads "cell" s.events).IsChain Extends := by
    rw [hreads]
    refine List.isChain_pair.mpr (.last _ (.stream rfl rfl rfl ?_))
    exact ⟨['b'], rfl⟩
  have honce := (watch_streams_once hrun hextends).mpr
  rw [if_neg (by decide), hreads] at honce
  obtain ⟨htext, houtputs⟩ := honce ⟨List.isChain_pair.mpr (by unfold PrefixRead; decide),
    by unfold PlainStreams; decide⟩
  exact ⟨s, hpoint, htext, houtputs⟩

/-- A text that is delivered as a list of strings is streamed as the `repr` of the list. -/
theorem list_streamed_as_repr :
    ∃ s : State Unit, Run (oneCellWatch.step fun _ => true) anyStep (oneCellWatch.start .queued) s ∧
      s.point = .returned ∧ (reads "cell" s.events).IsChain Extends ∧
      joinedStreams ((reads "cell" s.events).getLastD []) = "a\n".toList ∧
      streamedText "cell" s.events = "['a\\n']".toList := by
  obtain ⟨s, hrun, hpoint, hreads, htext⟩ :=
    @exists_run_of_exec _ _ (oneCellWatch.step fun _ => true) (oneCellWatch.start .queued)
      (readTwice [stdout (.lines ["a\n".toList])] [stdout (.lines ["a\n".toList])])
      (fun s => s.point = .returned ∧ reads "cell" s.events =
        [[stdout (.lines ["a\n".toList])], [stdout (.lines ["a\n".toList])]] ∧
        streamedText "cell" s.events = "['a\\n']".toList)
      _ (by decide)
  refine ⟨s, hrun, hpoint, ?_, ?_, htext⟩
  · rw [hreads]
    exact List.isChain_pair.mpr (.last _ (.stream rfl rfl rfl List.prefix_rfl))
  · rw [hreads]
    decide

end Schedules

end Watch

end Hypernote
