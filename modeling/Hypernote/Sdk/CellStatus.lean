import Hypernote.Sdk.Preview
/-!
# The status of a cell

`CellStatus` as `_build_cell_status` builds it, whole or summarized, and the helpers that show
previews of its texts.
-/

namespace Hypernote

open Foundation

namespace Sdk

inductive ChangeKind
  | added
  | deleted
  | moved
  | sourceEdited
  | outputChanged
  | executionCount
  deriving DecidableEq

structure CellStatus where
  id : CellId
  type : CellType
  changed : Bool
  changeKinds : List ChangeKind
  source : Option Chars
  outputs : Option (List OutputDict)
  executionCount : Option Int

/-- `SUMMARY_SOURCE_CHARS`. -/
def summarySourceChars : Nat := 120

/-- `SUMMARY_OUTPUT_TEXT_CHARS`. -/
def summaryOutputTextChars : Int := 80

/-! ## The text of an output -/

section

variable (printable : Char → Bool)

/-- `"".join(str(part) for part in value)`, or `str(value)` where it is no list. -/
def joinedText (value : Json) : Chars :=
  match value with
  | .arr parts => (parts.map (PyText.str printable)).flatten
  | value => PyText.str printable value

/-- `f"{ename}: {evalue}".strip()`. -/
def errorLine (ename evalue : Json) : Chars :=
  PyText.strip (PyText.str printable ename ++ [':', ' '] ++ PyText.str printable evalue)

/-- `_output_text`. -/
def outputText (output : OutputDict) : Chars :=
  if output.isType "stream" then joinedText printable ((output.get? "text").getD (.str ""))
  else if output.isType "error" then
    match output.get? "traceback" with
    | some (.arr (line :: lines)) =>
        (['\n'] : Chars).intercalate ((line :: lines).map (PyText.str printable))
    | _ =>
        errorLine printable ((output.get? "ename").getD (.str "Error"))
          ((output.get? "evalue").getD (.str ""))
  else
    match (output.get? "data").bind (·.get? "text/plain") with
    | some text => joinedText printable text
    | none =>
        match output.get? "text" with
        | some text => PyText.str printable text
        | none => normalizePreviewText (Json.obj output.members).dumpsChars false

end

/-! ## Summaries of outputs -/

/-- What `_summarize_output` puts into its dict. -/
structure OutputSummary where
  outputType : Json
  /-- The entries `text`, `truncated` and `total_chars`. -/
  preview : TextPreview
  /-- The entry `name`, which only a stream has. -/
  name : Option Json
  /-- The entries `ename` and `evalue`, which only an error has. -/
  error : Option (Json × Json)
  dataKeys : Option (List String)

namespace OutputSummary

/-- The entry `hint`. -/
def hint (totalChars : Nat) : String :=
  "truncated, " ++ toString totalChars ++ " chars total; use --full-output to see complete text"

def textMember (text : Option Chars) : Json :=
  match text with
  | some text => .str (String.ofList text)
  | none => .null

def truncationMembers (totalChars : Option Nat) : List (String × Json) :=
  match totalChars with
  | some n => [("truncated", .bool true), ("total_chars", .int n), ("hint", .str (hint n))]
  | none => []

/-- The entries that depend on the type of the output. -/
def typeMembers (summary : OutputSummary) : List (String × Json) :=
  (summary.name.elim [] fun name => [("name", name)]) ++
    (summary.error.elim [] fun error => [("ename", error.1), ("evalue", error.2)]) ++
    summary.dataKeys.elim [] fun keys => [("data_keys", .arr (keys.map .str))]

def members (summary : OutputSummary) : List (String × Json) :=
  [("output_type", summary.outputType), ("text", textMember summary.preview.text)] ++
    truncationMembers summary.preview.totalChars ++ summary.typeMembers

def memberNames : List String :=
  ["output_type", "text", "truncated", "total_chars", "hint", "name", "ename", "evalue",
    "data_keys"]

theorem names_sublist (summary : OutputSummary) :
    (summary.members.map Prod.fst).Sublist memberNames := by
  obtain ⟨outputType, ⟨text, totalChars⟩, name, error, dataKeys⟩ := summary
  cases totalChars <;> cases name <;> cases error <;> cases dataKeys <;>
    exact List.isSublist_iff_sublist.mp rfl

theorem lookup_eq_none (summary : OutputSummary) {key : String} (hkey : key ∉ memberNames) :
    summary.members.lookup key = none := by
  rw [List.lookup_eq_none_iff]
  intro entry hentry
  rw [bne_iff_ne]
  rintro rfl
  exact hkey (summary.names_sublist.subset (List.mem_map_of_mem hentry))

/-- What each entry holds. -/
theorem lookup_members (summary : OutputSummary) (key : String) :
    summary.members.lookup key =
      if key = "output_type" then some summary.outputType
      else if key = "text" then some (textMember summary.preview.text)
      else if key = "truncated" then summary.preview.totalChars.map fun _ => .bool true
      else if key = "total_chars" then summary.preview.totalChars.map fun n : Nat => .int n
      else if key = "hint" then summary.preview.totalChars.map fun n => .str (hint n)
      else if key = "name" then summary.name
      else if key = "ename" then summary.error.map Prod.fst
      else if key = "evalue" then summary.error.map Prod.snd
      else if key = "data_keys" then summary.dataKeys.map fun keys => .arr (keys.map .str)
      else none := by
  by_cases hkey : key ∈ memberNames
  · obtain ⟨outputType, ⟨text, totalChars⟩, name, error, dataKeys⟩ := summary
    simp only [memberNames, List.mem_cons, List.not_mem_nil, or_false] at hkey
    rcases hkey with rfl | rfl | rfl | rfl | rfl | rfl | rfl | rfl | rfl <;>
      cases totalChars <;> cases name <;> cases error <;> cases dataKeys <;> rfl
  · rw [lookup_eq_none summary hkey]
    simp only [memberNames, List.mem_cons, List.not_mem_nil, or_false, not_or] at hkey
    obtain ⟨h₁, h₂, h₃, h₄, h₅, h₆, h₇, h₈, h₉⟩ := hkey
    rw [if_neg h₁, if_neg h₂, if_neg h₃, if_neg h₄, if_neg h₅, if_neg h₆, if_neg h₇, if_neg h₈,
      if_neg h₉]

theorem lookup_text (summary : OutputSummary) :
    summary.members.lookup "text" = some (textMember summary.preview.text) :=
  lookup_members summary "text"

theorem lookup_truncated (summary : OutputSummary) :
    summary.members.lookup "truncated" = summary.preview.totalChars.map fun _ => .bool true :=
  lookup_members summary "truncated"

theorem lookup_total_chars (summary : OutputSummary) :
    summary.members.lookup "total_chars" = summary.preview.totalChars.map fun n : Nat => .int n :=
  lookup_members summary "total_chars"

theorem lookup_name (summary : OutputSummary) : summary.members.lookup "name" = summary.name :=
  lookup_members summary "name"

theorem lookup_data_keys (summary : OutputSummary) :
    summary.members.lookup "data_keys" = summary.dataKeys.map fun keys => .arr (keys.map .str) :=
  lookup_members summary "data_keys"

theorem lookup_error {summary : OutputSummary} {ename evalue : Json}
    (h : summary.error = some (ename, evalue)) :
    summary.members.lookup "ename" = some ename ∧ summary.members.lookup "evalue" = some evalue := by
  have hname : summary.members.lookup "ename" = summary.error.map Prod.fst :=
    lookup_members summary "ename"
  have hvalue : summary.members.lookup "evalue" = summary.error.map Prod.snd :=
    lookup_members summary "evalue"
  rw [hname, hvalue, h]
  exact ⟨rfl, rfl⟩

/-- The summary as the dict that is kept in place of the output. -/
def toDict (summary : OutputSummary) : OutputDict where
  members := summary.members
  traceback_lines := by
    intro traceback h
    rw [lookup_eq_none summary (by decide)] at h
    cases h
  metadata_dict := by
    intro metadata h
    rw [lookup_eq_none summary (by decide)] at h
    cases h

end OutputSummary

/-- `isinstance(value, dict)`, the keys of the dict given. -/
def dictKeys (value : Option Json) : Option (List String) :=
  match value with
  | some (.obj members) => some (members.map Prod.fst)
  | _ => none

section

variable (printable : Char → Bool)

/-- `_summarize_output`. -/
def summarizeOutput (output : OutputDict) (maxChars : Int) (fullOutput preserveLines : Bool) :
    OutputSummary where
  outputType := (output.get? "output_type").getD (.str "unknown")
  preview :=
    renderTextPreview (some (outputText printable output)) maxChars fullOutput preserveLines
  name := if output.isType "stream" then some ((output.get? "name").getD .null) else none
  error :=
    if output.isType "error" then
      some ((output.get? "ename").getD .null, (output.get? "evalue").getD .null)
    else none
  dataKeys := (dictKeys (output.get? "data")).map (·.insertionSort (· ≤ ·))

theorem summarizeOutput_preview (output : OutputDict) (maxChars : Int)
    (fullOutput preserveLines : Bool) :
    (summarizeOutput printable output maxChars fullOutput preserveLines).preview =
      renderTextPreview (some (outputText printable output)) maxChars fullOutput preserveLines :=
  rfl

theorem isType_summary (output : OutputDict) (maxChars : Int) (fullOutput preserveLines : Bool)
    {outputType : String} (h : outputType ≠ "unknown") :
    (summarizeOutput printable output maxChars fullOutput preserveLines).toDict.isType outputType =
      output.isType outputType := by
  have hget : (summarizeOutput printable output maxChars fullOutput preserveLines).toDict.get?
      "output_type" = some ((output.get? "output_type").getD (.str "unknown")) :=
    OutputSummary.lookup_members _ _
  rw [OutputDict.isType, OutputDict.isType, hget]
  cases output.get? "output_type" with
  | none => exact decide_eq_false h.symm
  | some value => rfl

/-- What a summary keeps of the text of an output: the preview, and of an error only the line that
its `ename` and `evalue` make. -/
theorem outputText_summary (output : OutputDict) {maxChars : Int}
    {fullOutput preserveLines : Bool} {text : Chars}
    (htext : (renderTextPreview (some (outputText printable output)) maxChars fullOutput
      preserveLines).text = some text) :
    outputText printable
        (summarizeOutput printable output maxChars fullOutput preserveLines).toDict =
      if output.isType "error" then
        errorLine printable ((output.get? "ename").getD .null) ((output.get? "evalue").getD .null)
      else text := by
  have hstream : (summarizeOutput printable output maxChars fullOutput preserveLines).toDict.isType
      "stream" = output.isType "stream" := isType_summary printable output _ _ _ (by decide)
  have herror : (summarizeOutput printable output maxChars fullOutput preserveLines).toDict.isType
      "error" = output.isType "error" := isType_summary printable output _ _ _ (by decide)
  have hkept : (summarizeOutput printable output maxChars fullOutput preserveLines).toDict.get?
      "text" = some (.str (String.ofList text)) := by
    rw [OutputDict.get?, OutputSummary.toDict, OutputSummary.lookup_text, summarizeOutput_preview,
      htext, OutputSummary.textMember]
  rw [outputText, hstream, herror, hkept]
  by_cases hs : output.isType "stream" = true
  · have he : output.isType "error" = false := by
      rw [OutputDict.isType, OutputDict.isType_eq_true hs]
      rfl
    rw [if_pos hs, he]
    exact String.toList_ofList
  · rw [if_neg hs]
    split
    · rename_i he
      have hlines : (summarizeOutput printable output maxChars fullOutput preserveLines).toDict.get?
          "traceback" = none := OutputSummary.lookup_eq_none _ (by decide)
      have hnamed : (summarizeOutput printable output maxChars fullOutput preserveLines).error =
          some ((output.get? "ename").getD .null, (output.get? "evalue").getD .null) := if_pos he
      obtain ⟨hename, hevalue⟩ := OutputSummary.lookup_error hnamed
      rw [hlines, OutputDict.get?, OutputDict.get?, OutputSummary.toDict, hename, hevalue]
      rfl
    · have hdata : (summarizeOutput printable output maxChars fullOutput preserveLines).toDict.get?
          "data" = none := OutputSummary.lookup_eq_none _ (by decide)
      rw [hdata]
      exact String.toList_ofList

/-- `_build_cell_status`. -/
def buildCellStatus (cell : NotebookCell) (full changed : Bool) (changeKinds : List ChangeKind) :
    CellStatus where
  id := cell.id
  type := cell.cellType
  changed := changed
  changeKinds := changeKinds
  source :=
    some (if full then cell.cellSource else truncate cell.cellSource summarySourceChars)
  outputs :=
    some (if full then cell.outputs
      else cell.outputs.map fun output =>
        (summarizeOutput printable output summaryOutputTextChars false false).toDict)
  executionCount := cell.executionCount

/-! ## What is shown of a status -/

/-- What `CellStatus.compact_dict` returns. -/
structure CompactDict where
  id : CellId
  type : CellType
  executionCount : Option Int
  outputCount : Nat
  hasErrorOutput : Bool
  /-- `source_preview`, `source_truncated` and `source_total_chars`. -/
  sourcePreview : TextPreview
  sourceHint : Option String
  source : Option (Option Chars)
  /-- `output_preview`, `output_truncated`, `output_total_chars` and `output_hint`. -/
  outputPreview : Option OutputSummary
  changeKinds : List ChangeKind
  outputs : Option (List OutputSummary)

/-- What `CellStatus.output_payload` returns. -/
structure OutputPayload where
  cellId : CellId
  outputCount : Nat
  outputs : List OutputSummary
  /-- `tail_output`, `tail_output_truncated` and `tail_output_total_chars`. -/
  tailOutput : Option TextPreview

namespace CellStatus

/-- `self.outputs or ()`. -/
def shownOutputs (status : CellStatus) : List OutputDict := status.outputs.getD []

def sourcePreview (status : CellStatus) (full : Bool) (limit : Int) : TextPreview :=
  renderTextPreview status.source limit full false

/-- `_cell_output_preview`. -/
def outputPreview (status : CellStatus) (maxChars : Int) (fullOutput : Bool) :
    Option OutputSummary :=
  status.shownOutputs.getLast?.map (summarizeOutput printable · maxChars fullOutput false)

def compactDict (status : CellStatus) (fullSource includeOutputs fullOutput : Bool)
    (maxOutputChars : Int) : CompactDict :=
  let sourcePreview := status.sourcePreview fullSource summarySourceChars
  { id := status.id
    type := status.type
    executionCount := status.executionCount
    outputCount := status.shownOutputs.length
    hasErrorOutput := status.shownOutputs.any (·.isType "error")
    sourcePreview := sourcePreview
    sourceHint :=
      if sourcePreview.truncated then some "truncated, use --full to see complete source"
      else none
    source := if fullSource then some status.source else none
    outputPreview := status.outputPreview printable maxOutputChars fullOutput
    changeKinds := status.changeKinds
    outputs :=
      if includeOutputs then
        some (status.shownOutputs.map (summarizeOutput printable · maxOutputChars fullOutput false))
      else none }

def outputPayload (status : CellStatus) (maxChars : Int) (fullOutput tail : Bool) :
    OutputPayload where
  cellId := status.id
  outputCount := status.shownOutputs.length
  outputs := status.shownOutputs.map (summarizeOutput printable · maxChars fullOutput true)
  tailOutput :=
    if tail then
      status.shownOutputs.getLast?.map fun output =>
        renderTextPreview (some (outputText printable output)) maxChars fullOutput true
    else none

end CellStatus

end

end Sdk

end Hypernote
