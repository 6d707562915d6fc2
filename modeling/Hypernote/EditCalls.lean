import Hypernote.SharedNotebook
/-!
# Edits that are suspended

The edits of `SharedNotebook` with the awaits in them: a call changes the document, is suspended in
saving it, and then looks its cell up again in what the document has become.  `move_cell` is also
suspended in `aset`, before its change.  What others do to the document meanwhile is anything.
-/

namespace Hypernote

open Foundation

/-- The calls that end with `get_cell`. -/
inductive EditRequest (ι ω μ : Type)
  | insertCell (cell : Cell ι ω μ) (before after : Option ι)
  | replaceCellSource (cellId : ι) (source : Chars)
  | moveCell (cellId : ι) (before after : Option ι)
  | clearOutputs (cellId : ι)

/-- What a call has done to the document so far: the document before it and after it, each time. -/
abbrev Changes {ι ω μ : Type} (lib : YNotebook ι ω μ) : Type :=
  List (List lib.YCell × List lib.YCell)

/-- How far a call has come. -/
inductive EditCall {ι ω μ : Type} (lib : YNotebook ι ω μ)
  | notCalled
  /-- Suspended in `aset` of these cells. -/
  | moving (cellId : ι) (given : List (Cell ι ω μ)) (changes : Changes lib)
  /-- Suspended in `_save_room`, before it reads the cell with the id. -/
  | saving (cellId : Option ι) (changes : Changes lib)
  | returned (cell : Cell ι ω μ)
  | raised (error : ValueError ι) (changes : Changes lib)

/-- A document in its room, and the calls that edit it. -/
structure EditRoom {ι ω μ : Type} (lib : YNotebook ι ω μ) where
  ycells : List lib.YCell
  calls : Nat → EditCall lib

inductive EditLabel {ι ω μ : Type} (lib : YNotebook ι ω μ)
  /-- The call begins and runs up to its first await on the document. -/
  | call (index : Nat) (request : EditRequest ι ω μ)
  /-- The `aset` of a call takes place. -/
  | aset (index : Nat)
  /-- The document has been saved, and the call goes on. -/
  | saved (index : Nat)
  /-- Others edit the document. -/
  | others (ycells : List lib.YCell)

namespace YNotebook

variable {ι ω μ : Type} [DecidableEq ι] (lib : YNotebook ι ω μ)

/-- A call that has changed the document goes on to save it; one that raises has not changed it. -/
def edited (s : EditRoom lib) (index : Nat) (cellId : Option ι) (changes : Changes lib) :
    Except (ValueError ι) (List lib.YCell) → EditRoom lib
  | .error error => { s with calls := Function.update s.calls index (.raised error changes) }
  | .ok ycells =>
      ⟨ycells, Function.update s.calls index (.saving cellId (changes ++ [(s.ycells, ycells)]))⟩

/-- The call up to its first await on the document. -/
def beginCall (s : EditRoom lib) (index : Nat) : EditRequest ι ω μ → EditRoom lib
  | .insertCell cell before after =>
      lib.edited s index cell.id [] (lib.beginInsert cell before after s.ycells)
  | .replaceCellSource cellId source =>
      lib.edited s index (some cellId) [] (lib.beginReplaceCellSource cellId source s.ycells)
  | .clearOutputs cellId =>
      lib.edited s index (some cellId) [] (lib.beginClearOutputs cellId s.ycells)
  | .moveCell cellId before after =>
      match movedCells cellId before after (s.ycells.map lib.toPy) with
      | .error error => { s with calls := Function.update s.calls index (.raised error []) }
      | .ok given =>
          -- `get` has been called for the metadata
          let ycells := lib.aget s.ycells
          ⟨ycells, Function.update s.calls index (.moving cellId given [(s.ycells, ycells)])⟩

/-- The end of a call, in the document that has been saved. -/
def endCall (s : EditRoom lib) (index : Nat) (cellId : Option ι) (changes : Changes lib) :
    EditRoom lib :=
  let (result, ycells) := lib.getCell s.ycells cellId
  let call :=
    match result with
    | .ok cell => .returned cell
    | .error error => .raised error (changes ++ [(s.ycells, ycells)])
  ⟨ycells, Function.update s.calls index call⟩

def editStep (s : EditRoom lib) : EditLabel lib → Option (EditRoom lib)
  | .call index request =>
      match s.calls index with
      | .notCalled => some (lib.beginCall s index request)
      | _ => none
  | .aset index =>
      match s.calls index with
      | .moving cellId given changes =>
          some (lib.edited s index (some cellId) changes (.ok (lib.aset given s.ycells)))
      | _ => none
  | .saved index =>
      match s.calls index with
      | .saving cellId changes => some (lib.endCall s index cellId changes)
      | _ => none
  | .others ycells => some { s with ycells := ycells }

/-- The document before any call. -/
def editStart (ycells : List lib.YCell) : EditRoom lib := ⟨ycells, fun _ => .notCalled⟩

end YNotebook

end Hypernote
