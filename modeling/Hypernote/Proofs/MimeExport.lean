import Hypernote.Sdk.MimeBundles
/-!
# Which summaries are exported as raw outputs

A raw output is never taken for a summary.  The summary of a display output or of an error is
always recognized, that of a stream only where its text was cut.
-/

namespace Hypernote

open Foundation

namespace Sdk

variable {printable : Char → Bool}

/-- The summary that `status(full=False)` keeps of an output. -/
def summaryOf (printable : Char → Bool) (output : OutputDict) : OutputDict :=
  (summarizeOutput printable output summaryOutputTextChars false false).toDict

/-! ## Raw outputs -/

theorem get?_eq_none_of_names {output : OutputDict} {names : List String}
    (hnames : ∀ key, (output.get? key).isSome = true → key ∈ names) (key : String)
    (hkey : key ∉ names) : output.get? key = none :=
  Option.not_isSome_iff_eq_none.mp fun h => hkey (hnames key h)

theorem isType_of_get? {output : OutputDict} {outputType : String}
    (h : output.get? "output_type" = some (.str outputType)) (other : String) :
    output.isType other = decide (outputType = other) := by
  rw [OutputDict.isType, h]

theorem isSummarizedOutput_raw {output : OutputDict} (h : output.IsNbformat) :
    isSummarizedOutput output = false := by
  rw [isSummarizedOutput, markedTruncated, isDisplay]
  cases h with
  | stream name text hnames htype hname htext =>
      simp only [get?_eq_none_of_names hnames "data_keys" (by decide),
        get?_eq_none_of_names hnames "truncated" (by decide),
        get?_eq_none_of_names hnames "total_chars" (by decide), isType_of_get? htype]
      rfl
  | error ename evalue traceback hnames htype hename hevalue htraceback =>
      simp only [get?_eq_none_of_names hnames "data_keys" (by decide),
        get?_eq_none_of_names hnames "truncated" (by decide),
        get?_eq_none_of_names hnames "total_chars" (by decide), isType_of_get? htype,
        htraceback]
      rfl
  | display outputType data metadata hdisplay hnames htype hdata hmetadata =>
      have herror : outputType ≠ "error" := by
        rintro rfl
        exact absurd hdisplay (by decide)
      simp only [get?_eq_none_of_names hnames "data_keys" (by decide),
        get?_eq_none_of_names hnames "truncated" (by decide),
        get?_eq_none_of_names hnames "total_chars" (by decide), isType_of_get? htype,
        hdata, dictKeys, herror]
      simp

/-! ## Summaries -/

theorem isType_summaryOf (output : OutputDict) {outputType : String} (h : outputType ≠ "unknown") :
    (summaryOf printable output).isType outputType = output.isType outputType :=
  isType_summary printable output _ _ _ h

theorem isDisplay_summaryOf (output : OutputDict) :
    isDisplay (summaryOf printable output) = isDisplay output := by
  rw [isDisplay, isDisplay, isType_summaryOf output (by decide), isType_summaryOf output (by decide),
    isType_summaryOf output (by decide)]

theorem isSummarizedOutput_of_not_stream {output : OutputDict} (h : output.IsNbformat)
    (hstream : output.isType "stream" = false) :
    isSummarizedOutput (summaryOf printable output) = true := by
  have hdata : (summaryOf printable output).get? "data" = none :=
    OutputSummary.lookup_eq_none _ (by decide)
  have hlines : (summaryOf printable output).get? "traceback" = none :=
    OutputSummary.lookup_eq_none _ (by decide)
  rw [isSummarizedOutput, hdata, hlines, isDisplay_summaryOf, isType_summaryOf output (by decide)]
  cases h with
  | stream name text hnames htype =>
      rw [isType_of_get? htype] at hstream
      cases hstream
  | error ename evalue traceback hnames htype => simp [isType_of_get? htype]
  | display outputType data metadata hdisplay hnames htype =>
      have hdisplay : isDisplay output = true := by
        simp only [List.mem_cons, List.not_mem_nil, or_false] at hdisplay
        rcases hdisplay with rfl | rfl <;> simp [isDisplay, isType_of_get? htype]
      simp [hdisplay, dictKeys]

theorem isSummarizedOutput_of_stream {output : OutputDict}
    (hnames : ∀ key, (output.get? key).isSome = true → key ∈ ["output_type", "name", "text"])
    (htype : output.get? "output_type" = some (.str "stream")) :
    isSummarizedOutput (summaryOf printable output) = true ↔
      summaryOutputTextChars <
        (normalizePreviewText (outputText printable output) false).length := by
  rw [← truncated_renderTextPreview_iff (by decide), ← summarizeOutput_preview,
    TextPreview.truncated]
  have hkeys : (summaryOf printable output).get? "data_keys" = none := by
    have hdata := get?_eq_none_of_names hnames "data" (by decide)
    apply (OutputSummary.lookup_data_keys _).trans
    rw [summarizeOutput, hdata]
    rfl
  have htruncated : (summaryOf printable output).get? "truncated" = _ :=
    OutputSummary.lookup_truncated _
  have htotal : (summaryOf printable output).get? "total_chars" = _ :=
    OutputSummary.lookup_total_chars _
  have hdisplay : isDisplay output = false := by simp [isDisplay, isType_of_get? htype]
  have herror : output.isType "error" = false := by simp [isType_of_get? htype]
  rw [isSummarizedOutput, markedTruncated, hkeys, htruncated, htotal, isDisplay_summaryOf, hdisplay,
    isType_summaryOf output (by decide), herror]
  cases (summarizeOutput printable output summaryOutputTextChars false false).preview.totalChars <;>
    simp

theorem stream_of_isType {output : OutputDict} (h : output.IsNbformat)
    (hstream : output.isType "stream" = true) :
    (∀ key, (output.get? key).isSome = true → key ∈ ["output_type", "name", "text"]) ∧
      ∃ (name : String) (text : MultilineString), output.get? "name" = some (.str name) ∧
        output.get? "text" = some text.toJson := by
  cases h with
  | stream name text hnames htype hname htext => exact ⟨hnames, name, text, hname, htext⟩
  | error ename evalue traceback hnames htype =>
      rw [isType_of_get? htype] at hstream
      cases hstream
  | display outputType data metadata hdisplay hnames htype =>
      rw [isType_of_get? htype, decide_eq_true_eq] at hstream
      subst hstream
      exact absurd hdisplay (by decide)

theorem isSummarizedOutput_summaryOf_iff {output : OutputDict} (h : output.IsNbformat) :
    isSummarizedOutput (summaryOf printable output) = true ↔
      output.isType "stream" = false ∨
        summaryOutputTextChars <
          (normalizePreviewText (outputText printable output) false).length := by
  cases hstream : output.isType "stream" with
  | false => exact iff_of_true (isSummarizedOutput_of_not_stream h hstream) (.inl rfl)
  | true =>
      rw [isSummarizedOutput_of_stream (stream_of_isType h hstream).1
        (OutputDict.isType_eq_true hstream)]
      exact ⟨.inr, fun h => h.resolve_left Bool.true_eq_false.mp⟩

/-! ## The bundle of a stream -/

theorem strings_map_str (items : List Chars) :
    strings (items.map fun item => .str (String.ofList item)) = some (items.map String.ofList) := by
  induction items with
  | nil => rfl
  | cons item items ih => rw [List.map_cons, strings, ih]; rfl

theorem join_map_ofList (items : List Chars) :
    String.join (items.map String.ofList) = String.ofList items.flatten := by
  rw [← String.toList_inj, String.toList_join, String.toList_ofList]
  simp [List.flatMap_map, List.flatMap_id']

theorem joinedDataContent_toJson (text : MultilineString) :
    joinedDataContent text.toJson = .str (String.ofList text.joined) := by
  cases text with
  | string s => rfl
  | lines items =>
      rw [MultilineString.toJson, joinedDataContent, strings_map_str, Option.elim_some,
        join_map_ofList, MultilineString.joined]

theorem joinedText_toJson (text : MultilineString) :
    joinedText printable text.toJson = text.joined := by
  cases text with
  | string s => exact String.toList_ofList
  | lines items =>
      rw [MultilineString.toJson, joinedText, List.map_map, MultilineString.joined]
      congr 1
      have hstr : PyText.str printable ∘ (fun item => .str (String.ofList item)) = id :=
        funext fun item => String.toList_ofList
      rw [hstr, List.map_id]

theorem outputMimeBundle_stream {output : OutputDict} {name : String} {text : Chars}
    (hstream : output.isType "stream" = true) (hname : output.get? "name" = some (.str name))
    (htext : joinedDataContent ((output.get? "text").getD (.str "")) = .str (String.ofList text))
    (hmetadata : output.get? "metadata" = none) (maxContentChars : Option Int) :
    outputMimeBundle printable output maxContentChars =
      cutBundle maxContentChars (.str "stream") [("text/plain", .str (String.ofList text))]
        [("stream_name", .str name)] := by
  rw [outputMimeBundle, if_pos hstream, OutputDict.isType_eq_true hstream, hname, htext,
    metadataMembers, hmetadata]
  rfl

/-- A stream whose summary is not recognized: its text is exported normalized. -/
theorem bundle_of_short_stream {output : OutputDict} (h : output.IsNbformat)
    (hsummary : ¬ isSummarizedOutput (summaryOf printable output) = true) :
    ∃ name, ∀ maxContentChars,
      outputMimeBundle printable output maxContentChars =
          cutBundle maxContentChars (.str "stream")
            [("text/plain", .str (String.ofList (outputText printable output)))]
            [("stream_name", .str name)] ∧
        outputMimeBundle printable (summaryOf printable output) maxContentChars =
          cutBundle maxContentChars (.str "stream")
            [("text/plain",
              .str (String.ofList (normalizePreviewText (outputText printable output) false)))]
            [("stream_name", .str name)] := by
  rw [isSummarizedOutput_summaryOf_iff h, not_or, Bool.not_eq_false] at hsummary
  obtain ⟨hstream, hshort⟩ := hsummary
  obtain ⟨hnames, name, text, hname, htext⟩ := stream_of_isType h hstream
  refine ⟨name, fun maxContentChars => ⟨?_, ?_⟩⟩
  · apply outputMimeBundle_stream hstream hname
    · rw [outputText, if_pos hstream, htext]
      exact (joinedDataContent_toJson text).trans
        (congrArg _ (congrArg _ (joinedText_toJson text).symm))
    · exact get?_eq_none_of_names hnames _ (by decide)
  · apply outputMimeBundle_stream
    · rw [isType_summaryOf output (by decide)]
      exact hstream
    · apply (OutputSummary.lookup_name _).trans
      rw [summarizeOutput, hname]
      exact if_pos hstream
    · have hkept : (summaryOf printable output).get? "text" = _ := OutputSummary.lookup_text _
      rw [hkept, summarizeOutput_preview, renderTextPreview_short (not_lt.mp hshort)]
      rfl
    · exact OutputSummary.lookup_eq_none _ (by decide)

theorem cutBundle_text_inj {outputType : Json} {metadata : List (String × Json)} {a b : Chars}
    (h : cutBundle none outputType [("text/plain", .str (String.ofList a))] metadata =
      cutBundle none outputType [("text/plain", .str (String.ofList b))] metadata) : a = b := by
  have hdata := congrArg MimeBundle.data h
  rw [cutBundle, cutBundle, List.cons.injEq, Prod.mk.injEq, Json.str.injEq] at hdata
  exact String.ofList_injective hdata.1.2

/-! ## What is exported -/

/-- `output_mime_bundles()` of a status built whole returns; of a summary it raises or returns the
same. -/
def ExportsRaw (printable : Char → Bool) (cell : NotebookCell) : Prop :=
  ∀ maxContentChars,
    (∃ bundles,
      (buildCellStatus printable cell true false []).outputMimeBundles printable maxContentChars =
        .ok bundles) ∧
    ((∃ error,
        (buildCellStatus printable cell false false []).outputMimeBundles printable
          maxContentChars = .error error) ∨
      (buildCellStatus printable cell false false []).outputMimeBundles printable maxContentChars =
        (buildCellStatus printable cell true false []).outputMimeBundles printable maxContentChars)

theorem outputMimeBundles_whole {cell : NotebookCell}
    (hvalid : ∀ output ∈ cell.outputs, output.IsNbformat) (maxContentChars : Option Int) :
    (buildCellStatus printable cell true false []).outputMimeBundles printable maxContentChars =
      .ok (cell.outputs.map (outputMimeBundle printable · maxContentChars)) := by
  have hraw : cell.outputs.any isSummarizedOutput = false := by
    rw [List.any_eq_false]
    intro output houtput
    rw [isSummarizedOutput_raw (hvalid output houtput)]
    exact Bool.false_ne_true
  have houtputs : (buildCellStatus printable cell true false []).shownOutputs = cell.outputs := rfl
  rw [CellStatus.outputMimeBundles, houtputs, requireRawOutputs, hraw]
  rfl

theorem outputMimeBundles_summary (cell : NotebookCell) (maxContentChars : Option Int) :
    (∃ error, (buildCellStatus printable cell false false []).outputMimeBundles printable
        maxContentChars = .error error) ∧
        (∃ output ∈ cell.outputs, isSummarizedOutput (summaryOf printable output) = true) ∨
      (buildCellStatus printable cell false false []).outputMimeBundles printable maxContentChars =
        .ok (cell.outputs.map fun output =>
          outputMimeBundle printable (summaryOf printable output) maxContentChars) ∧
        ∀ output ∈ cell.outputs, ¬ isSummarizedOutput (summaryOf printable output) = true := by
  have houtputs : (buildCellStatus printable cell false false []).shownOutputs =
      cell.outputs.map (summaryOf printable) := rfl
  rw [CellStatus.outputMimeBundles, houtputs, requireRawOutputs, List.any_map]
  cases hany : cell.outputs.any (isSummarizedOutput ∘ summaryOf printable) with
  | true => exact .inl ⟨⟨_, rfl⟩, List.any_eq_true.mp hany⟩
  | false =>
      refine .inr ⟨?_, fun output houtput => List.any_eq_false.mp hany output houtput⟩
      rw [List.map_map]
      rfl

/-- A shortened output is never exported exactly where some output's summary is recognized, or every
output is a stream whose text is already normalized. -/
theorem raw_export_iff (printable : Char → Bool) (cell : NotebookCell)
    (hvalid : ∀ output ∈ cell.outputs, output.IsNbformat) :
    ExportsRaw printable cell ↔
      (∃ output ∈ cell.outputs, output.isType "stream" = false ∨
        summaryOutputTextChars <
          (normalizePreviewText (outputText printable output) false).length) ∨
      ∀ output ∈ cell.outputs,
        normalizePreviewText (outputText printable output) false = outputText printable output := by
  by_cases hrecognized :
      ∃ output ∈ cell.outputs, isSummarizedOutput (summaryOf printable output) = true
  · obtain ⟨output, houtput, hsummary⟩ := hrecognized
    refine iff_of_true (fun maxContentChars => ⟨⟨_, outputMimeBundles_whole hvalid _⟩, ?_⟩)
      (.inl ⟨output, houtput, (isSummarizedOutput_summaryOf_iff (hvalid output houtput)).mp hsummary⟩)
    rcases outputMimeBundles_summary cell maxContentChars with ⟨herror, -⟩ | ⟨-, hnone⟩
    · exact .inl herror
    · exact absurd hsummary (hnone output houtput)
  · have hreturns : ∀ maxContentChars,
        (buildCellStatus printable cell false false []).outputMimeBundles printable maxContentChars =
          .ok (cell.outputs.map fun output =>
            outputMimeBundle printable (summaryOf printable output) maxContentChars) := by
      intro maxContentChars
      rcases outputMimeBundles_summary cell maxContentChars with ⟨-, hsummary⟩ | ⟨hok, -⟩
      · exact absurd hsummary hrecognized
      · exact hok
    have hshort : ∀ output ∈ cell.outputs,
        ¬ isSummarizedOutput (summaryOf printable output) = true :=
      fun output houtput hsummary => hrecognized ⟨output, houtput, hsummary⟩
    constructor
    · intro h
      right
      intro output houtput
      obtain ⟨name, hbundles⟩ := bundle_of_short_stream (hvalid output houtput) (hshort output houtput)
      rcases (h none).2 with ⟨error, herror⟩ | hsame
      · rw [hreturns] at herror
        cases herror
      · rw [hreturns, outputMimeBundles_whole hvalid, Except.ok.injEq, List.map_inj_left] at hsame
        have hbundle := hsame output houtput
        rw [(hbundles none).1, (hbundles none).2] at hbundle
        exact cutBundle_text_inj hbundle
    · rintro (⟨output, houtput, hsummary⟩ | hnormal)
      · exact absurd ((isSummarizedOutput_summaryOf_iff (hvalid output houtput)).mpr hsummary)
          (hshort output houtput)
      · intro maxContentChars
        refine ⟨⟨_, outputMimeBundles_whole hvalid _⟩, .inr ?_⟩
        rw [hreturns, outputMimeBundles_whole hvalid, Except.ok.injEq, List.map_inj_left]
        intro output houtput
        obtain ⟨name, hbundles⟩ :=
          bundle_of_short_stream (hvalid output houtput) (hshort output houtput)
        rw [(hbundles maxContentChars).1, (hbundles maxContentChars).2, hnormal output houtput]

private def streamOutput (text : String) : OutputDict where
  members := [("output_type", .str "stream"), ("name", .str "stdout"), ("text", .str text)]
  traceback_lines := fun _ h => nomatch h
  metadata_dict := fun _ h => nomatch h

private theorem streamOutput_valid (text : String) : (streamOutput text).IsNbformat := by
  refine .stream "stdout" (.string text.toList) (fun key hkey => ?_) rfl rfl ?_
  · obtain ⟨entry, hentry, heq⟩ := List.lookup_isSome_iff.mp hkey
    rw [beq_iff_eq.mp heq]
    exact List.mem_map_of_mem hentry
  · rw [MultilineString.toJson, String.ofList_toList]
    rfl

private def printing (text : String) : NotebookCell :=
  ⟨"a", .code, .string "f()".toList, [streamOutput text], some 1, none,
    List.forall_mem_singleton.mpr
      ⟨(by decide : ["output_type", "name", "text"].Nodup), trivial, trivial, trivial, trivial⟩⟩

/-- One word without a line end is exported as it is. -/
theorem word_exported_raw : ExportsRaw (fun _ => true) (printing "done") :=
  (raw_export_iff _ (printing "done")
    (fun output houtput => List.mem_singleton.mp houtput ▸ streamOutput_valid _)).mpr
    (.inr fun output houtput => List.mem_singleton.mp houtput ▸ by decide)

/-- `print("done")`: the line end is missing from what a summary exports. -/
theorem short_stream_exported_normalized :
    ¬ ∀ (printable : Char → Bool) (cell : NotebookCell),
      (∀ output ∈ cell.outputs, output.IsNbformat) → ExportsRaw printable cell := by
  intro h
  have hvalid : ∀ output ∈ (printing "done\n").outputs, output.IsNbformat :=
    fun output houtput => List.mem_singleton.mp houtput ▸ streamOutput_valid _
  have hsummary : ¬ isSummarizedOutput (summaryOf (fun _ => true) (streamOutput "done\n")) = true := by
    decide
  obtain ⟨name, hbundles⟩ := bundle_of_short_stream (streamOutput_valid "done\n") hsummary
  rcases (h (fun _ => true) _ hvalid none).2 with ⟨error, herror⟩ | hsame
  · cases herror
  · rw [outputMimeBundles_whole hvalid] at hsame
    have hbundle := List.cons.inj (Except.ok.inj hsame)
    have htext := cutBundle_text_inj
      ((hbundles none).2.symm.trans (hbundle.1.trans (hbundles none).1))
    exact absurd htext (by decide)

end Sdk

end Hypernote
