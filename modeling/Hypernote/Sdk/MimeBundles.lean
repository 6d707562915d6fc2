import Hypernote.Sdk.CellStatus
/-!
# The raw outputs of a status

`CellStatus.output_mime_bundles` hands out the data of a cell's outputs.  It refuses where an
output looks like a summary.
-/

namespace Hypernote

open Foundation

/-- The notebook format's schemas of the outputs. -/
inductive OutputDict.IsNbformat (output : OutputDict) : Prop
  | stream (name : String) (text : MultilineString)
      (hnames : ∀ key, (output.get? key).isSome = true → key ∈ ["output_type", "name", "text"])
      (htype : output.get? "output_type" = some (.str "stream"))
      (hname : output.get? "name" = some (.str name))
      (htext : output.get? "text" = some text.toJson)
  | error (ename evalue : String) (traceback : List String)
      (hnames : ∀ key, (output.get? key).isSome = true →
        key ∈ ["output_type", "ename", "evalue", "traceback"])
      (htype : output.get? "output_type" = some (.str "error"))
      (hename : output.get? "ename" = some (.str ename))
      (hevalue : output.get? "evalue" = some (.str evalue))
      (htraceback : output.get? "traceback" = some (.arr (traceback.map .str)))
  | display (outputType : String) (data metadata : List (String × Json))
      (hdisplay : outputType ∈ ["display_data", "execute_result"])
      (hnames : ∀ key, (output.get? key).isSome = true →
        key ∈ ["output_type", "data", "metadata", "execution_count"])
      (htype : output.get? "output_type" = some (.str outputType))
      (hdata : output.get? "data" = some (.obj data))
      (hmetadata : output.get? "metadata" = some (.obj metadata))

namespace Sdk

/-- `output.get("truncated") is True`. -/
def markedTruncated (output : OutputDict) : Bool :=
  match output.get? "truncated" with
  | some (.bool true) => true
  | _ => false

def isDisplay (output : OutputDict) : Bool :=
  output.isType "display_data" || output.isType "execute_result" ||
    output.isType "update_display_data"

/-- `_is_summarized_output`. -/
def isSummarizedOutput (output : OutputDict) : Bool :=
  if (output.get? "data_keys").isSome then true
  else if markedTruncated output || (output.get? "total_chars").isSome then true
  else if isDisplay output && (dictKeys (output.get? "data")).isNone then true
  else if output.isType "error" && (output.get? "traceback").isNone then true
  else false

/-- `_require_raw_outputs`. -/
def requireRawOutputs (outputs : List OutputDict) : Except SdkError Unit :=
  if outputs.any isSummarizedOutput then
    .error (.hypernoteError
      ("Cell outputs are summarized, so raw MIME data is unavailable. " ++
        "Build the status with nb.status(full=True) or " ++
        "CellStatus.from_handle(cell) before reading MIME bundles."))
  else .ok ()

/-- The strings of a list that holds nothing else. -/
def strings : List Json → Option (List String)
  | [] => some []
  | .str s :: parts => (strings parts).map (s :: ·)
  | _ :: _ => none

/-- `_joined_data_content`. -/
def joinedDataContent (value : Json) : Json :=
  match value with
  | .arr parts => (strings parts).elim value fun parts => .str (String.join parts)
  | value => value

/-- What `_output_mime_bundle` returns; `data_truncated` and `hint` are there where a payload was
shortened. -/
structure MimeBundle where
  outputType : Json
  data : List (String × Json)
  metadata : List (String × Json)
  dataTruncated : List (String × Nat)
  hint : Option String

/-- A payload cut to the number of characters, and how many it had where it was longer. -/
def cutContent (maxContentChars : Int) (content : Json) : Json × Option Nat :=
  match content with
  | .str s =>
      if (s.length : Int) > maxContentChars then
        (.str (String.ofList (s.toList.take maxContentChars.toNat)), some s.length)
      else (.str s, none)
  | content => (content, none)

/-- The bundle, its payloads shortened where a limit is given. -/
def cutBundle (maxContentChars : Option Int) (outputType : Json)
    (data metadata : List (String × Json)) : MimeBundle :=
  match maxContentChars with
  | none => ⟨outputType, data, metadata, [], none⟩
  | some limit =>
      if limit > 0 then
        let truncated := data.filterMap fun entry =>
          (cutContent limit entry.2).2.map fun total => (entry.1, total)
        { outputType := outputType
          data := data.map fun entry => (entry.1, (cutContent limit entry.2).1)
          metadata := metadata
          dataTruncated := truncated
          hint :=
            if truncated = [] then none
            else
              some ("data truncated; use --full-output or " ++
                "output_mime_bundles() without max_content_chars for intact payloads") }
      else ⟨outputType, data, metadata, [], none⟩

/-- `dict(output.get("metadata") or {})`. -/
def metadataMembers (output : OutputDict) : List (String × Json) :=
  match output.get? "metadata" with
  | some (.obj members) => members
  | _ => []

section

variable (printable : Char → Bool)

/-- `_output_mime_bundle`. -/
def outputMimeBundle (output : OutputDict) (maxContentChars : Option Int) : MimeBundle :=
  let outputType := (output.get? "output_type").getD (.str "unknown")
  let metadata := metadataMembers output
  if output.isType "stream" then
    cutBundle maxContentChars outputType
      [("text/plain", joinedDataContent ((output.get? "text").getD (.str "")))]
      (match output.get? "name" with
      | none | some .null => metadata
      | some name => Json.setMember "stream_name" name metadata)
  else if output.isType "error" then
    cutBundle maxContentChars outputType
      [("text/plain", .str (String.ofList (outputText printable output)))]
      (Json.setMember "evalue" ((output.get? "evalue").getD .null)
        (Json.setMember "ename" ((output.get? "ename").getD .null) metadata))
  else
    cutBundle maxContentChars outputType
      (match output.get? "data" with
      | some (.obj data) => data.map fun entry => (entry.1, joinedDataContent entry.2)
      | _ => [])
      metadata

/-- `CellStatus.output_mime_bundles`. -/
def CellStatus.outputMimeBundles (status : CellStatus) (maxContentChars : Option Int) :
    Except SdkError (List MimeBundle) := do
  requireRawOutputs status.shownOutputs
  return status.shownOutputs.map (outputMimeBundle printable · maxContentChars)

end

end Sdk

end Hypernote
