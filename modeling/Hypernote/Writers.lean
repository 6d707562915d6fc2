import Hypernote.SharedNotebook
/-!
# The writers of one document

`move_cell` reads all cells, and is suspended in `aset` before the library replaces them by those it
was given.  Every other writer changes the document in one step, before its first await.
-/

namespace Hypernote

open Foundation

/-- What a writer other than `move_cell` does. -/
inductive Write (ι ω μ : Type)
  | replaceCellSource (cellId : ι) (source : Chars)
  | insertCell (cell : Cell ι ω μ) (before after : Option ι)
  | deleteCell (cellId : ι)
  | clearOutputs (cellId : ι)
  /-- The client of the kernel appends an output to the cell. -/
  | output (cellId : ι) (output : ω)

/-- A `move_cell` that is suspended: the cells that it has read, and those it has given to `aset`. -/
structure SuspendedMove (ι ω μ : Type) where
  cells : List (Cell ι ω μ)
  given : List (Cell ι ω μ)

/-- The document in its room, and the moves that are suspended. -/
structure DocumentRoom {ι ω μ : Type} (lib : YNotebook ι ω μ) where
  ycells : List lib.YCell
  moves : List (SuspendedMove ι ω μ)

inductive WriterEvent (ι ω μ : Type)
  | write (w : Write ι ω μ)
  /-- `move_cell` is called and runs up to `aset`. -/
  | move (cellId : ι) (before after : Option ι)
  /-- The `aset` of the suspended move takes place. -/
  | aset (index : Nat)

namespace YNotebook

variable {ι ω μ : Type} [DecidableEq ι] (lib : YNotebook ι ω μ)

/-- The cell with the id gets one more output; one that is not there gets none. -/
def kernelOutput (cellId : ι) (output : ω) (ycells : List lib.YCell) : List lib.YCell :=
  match lib.findYcellIndex ycells cellId with
  | .error _ => ycells
  | .ok index => ycells.modify index fun ycell => lib.appendOutput ycell output

/-- The document after an edit up to its save; one that raises leaves it as it is. -/
def begun (ycells : List lib.YCell) : Except (ValueError ι) (List lib.YCell) → List lib.YCell
  | .error _ => ycells
  | .ok ycells => ycells

/-- The write as it stands when the writer comes to save it. -/
def write : Write ι ω μ → List lib.YCell → List lib.YCell
  | .replaceCellSource cellId source, ycells =>
      lib.begun ycells (lib.beginReplaceCellSource cellId source ycells)
  | .insertCell cell before after, ycells =>
      lib.begun ycells (lib.beginInsert cell before after ycells)
  | .deleteCell cellId, ycells => (lib.deleteCell cellId ycells).2
  | .clearOutputs cellId, ycells => lib.begun ycells (lib.beginClearOutputs cellId ycells)
  | .output cellId output, ycells => lib.kernelOutput cellId output ycells

def writerStep (s : DocumentRoom lib) : WriterEvent ι ω μ → Option (DocumentRoom lib)
  | .write w => some { s with ycells := lib.write w s.ycells }
  | .move cellId before after =>
      let cells := s.ycells.map lib.toPy
      match movedCells cellId before after cells with
      | .error _ => some s
      | .ok given => some { s with moves := s.moves ++ [⟨cells, given⟩] }
  | .aset index =>
      s.moves[index]?.map fun move => ⟨lib.aset move.given s.ycells, s.moves.eraseIdx index⟩

/-- The write that a step carries out. -/
def written (_ : DocumentRoom lib) : WriterEvent ι ω μ → List (Write ι ω μ)
  | .write w => [w]
  | _ => []

end YNotebook

end Hypernote
