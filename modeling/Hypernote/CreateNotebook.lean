import Hypernote.Foundation.Dict
import Mathlib.Logic.Function.Basic
/-!
# Creating a notebook

`create_notebook` of the accessor: a file with a name of the server's choice is created, renamed and
written, then the document's room is opened and saved, and the document is read.  Any number of calls
are under way, and each await may raise.
-/

namespace Hypernote

open Foundation

/-- The await in which a call raises. -/
inductive CreateStage
  | newUntitled
  | renameFile
  | save
  | openRoom
  | saveRoom
  | getModel
  deriving DecidableEq

/-- The await in which a call is suspended. -/
inductive CreateCall (ρ : Type)
  | notCalled
  /-- Suspended in `rename_file` of the file that it has created. -/
  | created (path : ρ)
  | saving
  | openingRoom
  | savingRoom
  | reading
  | returned
  | raised (stage : CreateStage)

/-- What becomes of the await. -/
inductive CreateEvent (ρ κ : Type)
  /-- `new_untitled` returns the file that it has created at the path. -/
  | untitled (path : ρ)
  | renamed
  | saved
  | roomOpened
  /-- `_save_room` has written what the room holds. -/
  | roomSaved (content : κ)
  | modelRead
  | raises

/-- A step of one of the calls. -/
structure CreateLabel (ρ κ : Type) where
  call : Nat
  event : CreateEvent ρ κ

/-- The files of the contents store, and the calls. -/
structure CreateState (ρ κ : Type) where
  files : Dict ρ κ
  calls : Nat → CreateCall ρ

/-- What the calls are given, and the content of a new file. -/
structure CreateRequests (ρ κ : Type) where
  notebookId : Nat → ρ
  model : Nat → κ
  blank : κ

section

variable {ρ κ : Type} [DecidableEq ρ] (requests : CreateRequests ρ κ)

/-- Where a call stands that raises. -/
def CreateCall.stage? : CreateCall ρ → Option CreateStage
  | .notCalled => some .newUntitled
  | .created _ => some .renameFile
  | .saving => some .save
  | .openingRoom => some .openRoom
  | .savingRoom => some .saveRoom
  | .reading => some .getModel
  | .returned | .raised _ => none

/-- A step of a call in the state that it is in: the files, and the state of the call.  `new_untitled`
creates a file that was not there, and `rename_file` raises if there is one under the new name. -/
def createCallStep (index : Nat) (files : Dict ρ κ) :
    CreateCall ρ → CreateEvent ρ κ → Option (Dict ρ κ × CreateCall ρ)
  | .notCalled, .untitled path =>
      if path ∈ files.keys then none
      else some (files.set path requests.blank,
        if path = requests.notebookId index then .saving else .created path)
  | .created path, .renamed =>
      match files.get? path with
      | some content =>
          if requests.notebookId index ∈ files.keys then none
          else some ((files.erase path).set (requests.notebookId index) content, .saving)
      | none => none
  | .saving, .saved =>
      some (files.set (requests.notebookId index) (requests.model index), .openingRoom)
  | .openingRoom, .roomOpened => some (files, .savingRoom)
  | .savingRoom, .roomSaved content =>
      some (files.set (requests.notebookId index) content, .reading)
  | .reading, .modelRead => some (files, .returned)
  | call, .raises => call.stage?.map fun stage => (files, .raised stage)
  | _, _ => none

def createStep (s : CreateState ρ κ) (l : CreateLabel ρ κ) : Option (CreateState ρ κ) :=
  (createCallStep requests l.call s.files (s.calls l.call) l.event).map fun result =>
    ⟨result.1, Function.update s.calls l.call result.2⟩

/-- The store before any call. -/
def createStart (files : Dict ρ κ) : CreateState ρ κ := ⟨files, fun _ => .notCalled⟩

end

end Hypernote
