import Hypernote.Sdk.CellStatus
/-!
# What an unflagged preview shows

A preview that is made from the raw source or output is the whole text unless it is flagged.
`status(full=False)` keeps only summaries, and a preview that is made from a summary carries no
flag of what the summary has already lost.
-/

namespace Hypernote

open Foundation

namespace Sdk

/-- A text that is not flagged is the whole text that it stands for. -/
def Complete (preview : TextPreview) (text : Chars) : Prop :=
  preview.truncated = false → preview.text = some text

section

variable (printable : Char → Bool)

def CompleteSummary (preserveLines : Bool) (summary : OutputSummary) (output : OutputDict) : Prop :=
  Complete summary.preview (normalizePreviewText (outputText printable output) preserveLines)

/-- Every text that the helpers show of the status without a flag is the whole text of the cell's
source or output, normalized as that helper does; `source` is not normalized and never flagged. -/
structure Honest (cell : NotebookCell) (status : CellStatus) : Prop where
  source_preview : ∀ full limit,
    Complete (status.sourcePreview full limit) (normalizePreviewText cell.cellSource false)
  output_preview : ∀ maxChars fullOutput,
    Option.Rel (CompleteSummary printable false)
      (status.outputPreview printable maxChars fullOutput) cell.outputs.getLast?
  full_output_preview : ∀ maxChars output, cell.outputs.getLast? = some output →
    ∃ summary, status.outputPreview printable maxChars true = some summary ∧
      summary.preview.text = some (normalizePreviewText (outputText printable output) false)
  compact_source_preview : ∀ fullSource includeOutputs fullOutput maxChars,
    Complete
      (status.compactDict printable fullSource includeOutputs fullOutput maxChars).sourcePreview
      (normalizePreviewText cell.cellSource false)
  compact_source : ∀ fullSource includeOutputs fullOutput maxChars,
    ∀ source ∈ (status.compactDict printable fullSource includeOutputs fullOutput maxChars).source,
      source = some cell.cellSource
  compact_output_preview : ∀ fullSource includeOutputs fullOutput maxChars,
    Option.Rel (CompleteSummary printable false)
      (status.compactDict printable fullSource includeOutputs fullOutput maxChars).outputPreview
      cell.outputs.getLast?
  compact_outputs : ∀ fullSource includeOutputs fullOutput maxChars,
    ∀ outputs ∈
      (status.compactDict printable fullSource includeOutputs fullOutput maxChars).outputs,
      List.Forall₂ (CompleteSummary printable false) outputs cell.outputs
  payload_outputs : ∀ maxChars fullOutput tail,
    List.Forall₂ (CompleteSummary printable true)
      (status.outputPayload printable maxChars fullOutput tail).outputs cell.outputs
  payload_tail : ∀ maxChars fullOutput tail,
    ∀ preview ∈ (status.outputPayload printable maxChars fullOutput tail).tailOutput,
      ∃ output ∈ cell.outputs.getLast?,
        Complete preview (normalizePreviewText (outputText printable output) true)

end

/-! ## What the helpers need of a status -/

section

variable {printable : Char → Bool}

/-- The text is kept, up to terminal escapes. -/
def SameText (printable : Char → Bool) (shown output : OutputDict) : Prop :=
  stripEscapes (outputText printable shown) = stripEscapes (outputText printable output)

theorem normalizePreviewText_congr {a b : Chars} (h : stripEscapes a = stripEscapes b)
    (preserveLines : Bool) :
    normalizePreviewText a preserveLines = normalizePreviewText b preserveLines := by
  rw [normalizePreviewText, normalizePreviewText, h]

theorem complete_of_sameText {shown output : OutputDict} (h : SameText printable shown output)
    (maxChars : Int) (fullOutput preserveLines : Bool) :
    CompleteSummary printable preserveLines
      (summarizeOutput printable shown maxChars fullOutput preserveLines) output := by
  intro hflag
  rw [← normalizePreviewText_congr h]
  exact renderTextPreview_of_not_truncated hflag

theorem sameText_of_complete {shown output : OutputDict} {maxChars : Int}
    (h : CompleteSummary printable true (summarizeOutput printable shown maxChars true true)
      output) :
    SameText printable shown output := by
  have hfull := renderTextPreview_full (outputText printable shown) maxChars true
  rw [CompleteSummary, summarizeOutput_preview, hfull] at h
  exact Option.some.inj (h rfl)

theorem rel_getLast? {α β : Type} {R : α → β → Prop} {xs : List α} {ys : List β}
    (h : List.Forall₂ R xs ys) : Option.Rel R xs.getLast? ys.getLast? := by
  induction h with
  | nil => exact .none
  | @cons x y xs ys hxy hrest ih =>
      rw [List.getLast?_cons, List.getLast?_cons]
      cases ih' : xs.getLast? <;> cases ih'' : ys.getLast? <;> rw [ih', ih''] at ih <;> cases ih
      · exact .some hxy
      · exact .some ‹_›

theorem honest_iff (cell : NotebookCell) (status : CellStatus) :
    Honest printable cell status ↔
      status.source = some cell.cellSource ∧
        List.Forall₂ (SameText printable) status.shownOutputs cell.outputs := by
  constructor
  · intro h
    refine ⟨h.compact_source true false false 0 status.source rfl, ?_⟩
    have houtputs := h.payload_outputs 0 true false
    rw [CellStatus.outputPayload, List.forall₂_map_left_iff] at houtputs
    exact houtputs.imp fun shown output => sameText_of_complete
  · rintro ⟨hsource, houtputs⟩
    have hpreview : ∀ full limit,
        Complete (status.sourcePreview full limit) (normalizePreviewText cell.cellSource false) := by
      intro full limit
      rw [CellStatus.sourcePreview, hsource]
      exact renderTextPreview_of_not_truncated
    have hlast := rel_getLast? houtputs
    have houtput : ∀ maxChars fullOutput,
        Option.Rel (CompleteSummary printable false)
          (status.outputPreview printable maxChars fullOutput) cell.outputs.getLast? := by
      intro maxChars fullOutput
      rw [CellStatus.outputPreview]
      generalize status.shownOutputs.getLast? = shown at hlast
      generalize cell.outputs.getLast? = output at hlast
      cases hlast with
      | none => exact .none
      | some h => exact .some (complete_of_sameText h maxChars fullOutput false)
    have hall : ∀ maxChars fullOutput preserveLines,
        List.Forall₂ (CompleteSummary printable preserveLines)
          (status.shownOutputs.map
            (summarizeOutput printable · maxChars fullOutput preserveLines)) cell.outputs := by
      intro maxChars fullOutput preserveLines
      rw [List.forall₂_map_left_iff]
      exact houtputs.imp fun shown output h => complete_of_sameText h maxChars fullOutput _
    exact
      { source_preview := hpreview
        output_preview := houtput
        full_output_preview := by
          intro maxChars output houtput
          rw [houtput] at hlast
          generalize hshown : status.shownOutputs.getLast? = shown at hlast
          cases hlast with
          | some h =>
              refine ⟨_, by rw [CellStatus.outputPreview, hshown]; rfl, ?_⟩
              rw [summarizeOutput_preview, renderTextPreview_full, normalizePreviewText_congr h]
        compact_source_preview := fun fullSource _ _ _ => hpreview fullSource _
        compact_source := by
          intro fullSource includeOutputs fullOutput maxChars source h
          rw [CellStatus.compactDict] at h
          obtain ⟨-, rfl⟩ := Option.ite_none_right_eq_some.mp h |>.imp_right Option.some.inj
          exact hsource
        compact_output_preview := fun _ _ fullOutput maxChars => houtput maxChars fullOutput
        compact_outputs := by
          intro fullSource includeOutputs fullOutput maxChars outputs h
          rw [CellStatus.compactDict] at h
          obtain ⟨-, rfl⟩ := Option.ite_none_right_eq_some.mp h |>.imp_right Option.some.inj
          exact hall maxChars fullOutput false
        payload_outputs := fun maxChars fullOutput _ => hall maxChars fullOutput true
        payload_tail := by
          intro maxChars fullOutput tail preview h
          rw [CellStatus.outputPayload] at h
          obtain ⟨-, h⟩ := Option.ite_none_right_eq_some.mp h
          generalize status.shownOutputs.getLast? = shown at h hlast
          generalize cell.outputs.getLast? = output at hlast
          cases hlast with
          | none => cases h
          | @some shown output hsame =>
              obtain rfl := Option.some.inj h
              exact ⟨output, rfl, complete_of_sameText hsame maxChars fullOutput true⟩ }

/-! ## What a summary keeps -/

/-- Normalizing leaves such a text as it is. -/
def Plain (text : Chars) : Prop := stripEscapes text = text ∧ PyText.joinWords text = text

/-- The summary of the output has its whole text: of an error, that is the line of its `ename` and
`evalue`; otherwise the text is short and, but for terminal escapes, already normalized. -/
def SummaryKeepsText (printable : Char → Bool) (output : OutputDict) : Prop :=
  let text := stripEscapes (outputText printable output)
  if output.isType "error" then
    stripEscapes (errorLine printable ((output.get? "ename").getD .null)
      ((output.get? "evalue").getD .null)) = text
  else Plain text ∧ text.length ≤ summaryOutputTextChars

theorem plain_of_stripEscapes_joinWords {text : Chars}
    (h : stripEscapes (PyText.joinWords text) = text) : Plain text := by
  have hstrip := length_stripEscapes_le (PyText.joinWords text)
  have hjoin := PyText.length_joinWords_le text
  have hkept : stripEscapes (PyText.joinWords text) = PyText.joinWords text := by
    apply stripEscapes_eq_self
    rw [h]
    exact hjoin
  have hwords : PyText.joinWords text = text := hkept.symm.trans h
  exact ⟨by rw [hwords] at h; exact h, hwords⟩

theorem exists_renderTextPreview (value : Chars) (limit : Int) (full preserveLines : Bool) :
    ∃ text, (renderTextPreview (some value) limit full preserveLines).text = some text := by
  unfold renderTextPreview
  dsimp only
  split <;> exact ⟨_, rfl⟩

theorem sameText_summary_iff (output : OutputDict) :
    SameText printable
        (summarizeOutput printable output summaryOutputTextChars false false).toDict output ↔
      SummaryKeepsText printable output := by
  obtain ⟨text, htext⟩ :=
    exists_renderTextPreview (outputText printable output) summaryOutputTextChars false false
  rw [SameText, SummaryKeepsText, outputText_summary printable output htext]
  split
  · exact Iff.rfl
  · have hnormal : normalizePreviewText (outputText printable output) false =
        PyText.joinWords (stripEscapes (outputText printable output)) := rfl
    have hjoin := PyText.length_joinWords_le (stripEscapes (outputText printable output))
    by_cases hshort : ((normalizePreviewText (outputText printable output) false).length : Int) ≤
        summaryOutputTextChars
    · rw [renderTextPreview_short hshort] at htext
      obtain rfl := Option.some.inj htext
      rw [hnormal] at hshort ⊢
      constructor
      · intro hsame
        have hplain := plain_of_stripEscapes_joinWords hsame
        rw [hplain.2] at hshort
        exact ⟨hplain, hshort⟩
      · rintro ⟨hplain, -⟩
        rw [hplain.2, hplain.1]
    · -- The summary is shorter than what normalizing leaves of the text.
      constructor
      · intro hsame
        have hlimit := length_renderTextPreview_le (by decide) htext
        have hstrip := length_stripEscapes_le text
        rw [hsame] at hstrip
        rw [hnormal] at hshort
        omega
      · rintro ⟨hplain, hlength⟩
        rw [hnormal, hplain.2] at hshort
        exact absurd hlength hshort

theorem truncate_eq_self_iff {value : Chars} {limit : Nat} (hlimit : 0 < limit) :
    truncate value limit = value ↔ value.length ≤ limit := by
  rw [truncate]
  split
  · exact iff_of_true rfl ‹_›
  · rename_i hlong
    refine iff_of_false (fun heq => ?_) hlong
    have hlength := congrArg List.length heq
    rw [List.length_append, List.length_take, List.length_singleton] at hlength
    omega

/-- The helpers are honest exactly about a status that was built whole, and about one of whose cell
the summary has kept every text. -/
theorem previews_honest_iff (printable : Char → Bool) (cell : NotebookCell) (full : Bool) :
    Honest printable cell (buildCellStatus printable cell full false []) ↔
      full = true ∨
        cell.cellSource.length ≤ summarySourceChars ∧
          ∀ output ∈ cell.outputs, SummaryKeepsText printable output := by
  rw [honest_iff]
  cases full with
  | true => exact iff_of_true ⟨rfl, List.forall₂_same.mpr fun _ _ => rfl⟩ (.inl rfl)
  | false =>
      have hsource : (buildCellStatus printable cell false false []).source = some cell.cellSource ↔
          cell.cellSource.length ≤ summarySourceChars :=
        Option.some_inj.trans (truncate_eq_self_iff (by decide))
      have houtputs : List.Forall₂ (SameText printable)
            (buildCellStatus printable cell false false []).shownOutputs cell.outputs ↔
          ∀ output ∈ cell.outputs, SummaryKeepsText printable output := by
        apply List.forall₂_map_left_iff.trans
        rw [List.forall₂_same]
        exact forall₂_congr fun output _ => sameText_summary_iff output
      rw [hsource, houtputs]
      exact ⟨.inr, fun h => h.resolve_left Bool.false_ne_true⟩

/-- A failed cell whose output ends in more than one line. -/
private def divided : OutputDict where
  members :=
    [("output_type", .str "error"), ("ename", .str "E"), ("evalue", .str "x"),
      ("traceback", .arr [.str "in f", .str "E: x"])]
  traceback_lines := fun _ h => .inr ⟨_, (Option.some.inj h).symm⟩
  metadata_dict := fun _ h => nomatch h

private def dividing : NotebookCell :=
  ⟨"a", .code, .string "f()".toList, [divided], some 1, none,
    List.forall_mem_singleton.mpr ⟨by decide, trivial, trivial, trivial, ⟨trivial, trivial, trivial⟩, trivial⟩⟩

/-- `output_preview(full_output=True)` shows `E: x` of the two lines `in f` and `E: x`, unflagged,
where the status is a summary. -/
theorem summary_preview_loses_traceback :
    ¬ ∀ (printable : Char → Bool) (cell : NotebookCell) (full : Bool),
      Honest printable cell (buildCellStatus printable cell full false []) := by
  intro h
  obtain ⟨summary, hsummary, htext⟩ :=
    (h (fun _ => true) dividing false).full_output_preview 400 divided rfl
  obtain rfl := Option.some.inj hsummary
  exact absurd htext (by decide)

end

end Sdk

end Hypernote
