import Hypernote.ActorLedger
import Hypernote.Foundation.JsonOrder
import Hypernote.Foundation.PyText
/-!
# The notebook's JSON

What the client code reads of a notebook: its cells, in order, with their outputs as Jupyter
delivers them.
-/

namespace Hypernote

open Foundation

/-- Text that a notebook holds as one string or as a list of strings. -/
inductive MultilineString
  | string (s : Chars)
  | lines (items : List Chars)
  deriving DecidableEq

namespace MultilineString

def toJson : MultilineString → Json
  | .string s => .str (String.ofList s)
  | .lines items => .arr (items.map fun item => .str (String.ofList item))

/-- The text that is meant. -/
def joined : MultilineString → Chars
  | .string s => s
  | .lines items => items.flatten

/-- `str(text)`. -/
def str (printable : Char → Bool) : MultilineString → Chars
  | .string s => s
  | .lines items => PyText.reprList printable items

theorem joined_le_str {printable : Char → Bool} (t : MultilineString) :
    t.joined.length ≤ (t.str printable).length := by
  cases t with
  | string s => exact le_refl _
  | lines items => exact (PyText.length_lt_reprList _ items).le

end MultilineString

inductive CellType
  | code
  | markdown
  | raw
  deriving DecidableEq

def CellType.value : CellType → String
  | .code => "code"
  | .markdown => "markdown"
  | .raw => "raw"

/-- `CellType(value)`, `none` where it raises. -/
def CellType.ofValue? (value : String) : Option CellType :=
  [CellType.code, .markdown, .raw].find? (·.value = value)

theorem CellType.ofValue?_value (t : CellType) : CellType.ofValue? t.value = some t := by
  cases t <;> rfl

/-- What the client code raises. -/
inductive SdkError
  | hypernoteError (message : String)
  | keyError (key : CellId)
  | valueError

/-- An output of a cell, as the dict that `json` reads. -/
structure OutputDict where
  members : List (String × Json)
  /-- The notebook format has a list of lines for the traceback of an error. -/
  traceback_lines : ∀ traceback, members.lookup "traceback" = some traceback →
    traceback = .null ∨ ∃ lines, traceback = .arr lines
  /-- It has a dict for the metadata. -/
  metadata_dict : ∀ metadata, members.lookup "metadata" = some metadata →
    metadata = .null ∨ ∃ members, metadata = .obj members

namespace OutputDict

/-- `output.get(key)`. -/
def get? (output : OutputDict) (key : String) : Option Json := output.members.lookup key

/-- `output.get("output_type") == outputType`. -/
def isType (output : OutputDict) (outputType : String) : Bool :=
  match output.get? "output_type" with
  | some (.str s) => s = outputType
  | _ => false

theorem isType_eq_true {output : OutputDict} {outputType : String}
    (h : output.isType outputType = true) :
    output.get? "output_type" = some (.str outputType) := by
  rw [isType] at h
  split at h
  · rename_i s hs
    rw [hs, of_decide_eq_true h]
  · cases h

end OutputDict

/-- A cell of the notebook's content. -/
structure NotebookCell where
  id : CellId
  cellType : CellType
  source : MultilineString
  outputs : List OutputDict
  executionCount : Option Int
  /-- `metadata["hypernote"]["position_key"]`, where there is one. -/
  positionKey : Option String
  /-- The outputs are dicts throughout. -/
  unique_keys : ∀ output ∈ outputs, (Json.obj output.members).UniqueKeys

/-- `_cell_source`. -/
def NotebookCell.cellSource (cell : NotebookCell) : Chars := cell.source.joined

/-- `f"{index:09d}"`. -/
def positionKeyOf (index : Nat) : String :=
  let digits := Nat.toDigits 10 index
  String.ofList (List.replicate (9 - digits.length) '0' ++ digits)

example : positionKeyOf 42 = "000000042" := by decide

/-- The key of a position tells the position, also where it is longer than nine digits. -/
theorem positionKeyOf_injective : Function.Injective positionKeyOf := by
  have hvalue : ∀ index, Nat.ofDigitChars 10 (positionKeyOf index).toList 0 = index := by
    intro index
    rw [positionKeyOf, String.toList_ofList, Nat.ofDigitChars_append,
      Nat.ofDigitChars_replicate_zero, Nat.mul_zero, Nat.ofDigitChars_ten_toDigits]
  intro i j h
  calc
    i = Nat.ofDigitChars 10 (positionKeyOf i).toList 0 := (hvalue i).symm
    _ = Nat.ofDigitChars 10 (positionKeyOf j).toList 0 := by rw [h]
    _ = j := hvalue j

end Hypernote
