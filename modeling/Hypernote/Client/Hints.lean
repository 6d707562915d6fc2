import Hypernote.ActorLedger
import Hypernote.Foundation.ShellWords
/-!
# Hints of the command line

The commands that `hypernote` suggests after its results.  They are made of the paths and ids of the
result, quoted for a shell.
-/

namespace Hypernote

open Foundation ShellWords

namespace Hints

/-- `_job_hint`. -/
def jobHint (command : Chars) : Chars := "Run \x60".toList ++ command ++ "\x60".toList

/-- The loop of `_dedupe_hints`, with what it has seen. -/
def dedupe (seen : List Chars) : List (Option Chars) → List Chars
  | [] => []
  | none :: hints => dedupe seen hints
  | some hint :: hints =>
      if hint = [] ∨ seen.contains hint then dedupe seen hints
      else hint :: dedupe (hint :: seen) hints

/-- `_dedupe_hints`. -/
def dedupeHints (hints : List (Option Chars)) : List Chars := dedupe [] hints

/-- The command of `hypernote ix` in the hints. -/
def ixCommand (path : Chars) : Chars :=
  "hypernote ix ".toList ++ quote path ++ " -s 'print(42)'".toList

/-- `_status_hints`. -/
def statusHints (path : Chars) (snapshot : Option Chars) : List Chars :=
  let hints := [jobHint ("hypernote cat ".toList ++ quote path), jobHint (ixCommand path)]
  let hints :=
    match snapshot with
    | none | some [] => hints
    | some snapshot =>
        hints.insertIdx 1 (jobHint
          ("hypernote diff ".toList ++ quote path ++ " --snapshot ".toList ++ quote snapshot))
  dedupeHints (hints.map some)

/-- `_cat_hints`. -/
def catHints (path : Chars) (imageCellId : Option Chars) : List Chars :=
  let hints := [jobHint ("hypernote status ".toList ++ quote path), jobHint (ixCommand path)]
  let hints :=
    match imageCellId with
    | none | some [] => hints
    | some imageCellId =>
        hints.insertIdx 0 (jobHint
          ("hypernote cat ".toList ++ quote path ++ " --output ".toList ++ quote imageCellId ++
            " --save-images tmp/hypernote-images".toList))
  dedupeHints (hints.map some)

/-- `_job_result_hints`. -/
def jobResultHints (path jobId : Chars) (status : JobStatus) (jobCellIds : Option (List Chars))
    (insertedIds : List Chars) : List Chars :=
  let cellIds := if insertedIds = [] then jobCellIds.getD [] else insertedIds
  let firstCellId := cellIds.head?
  let ofJob :=
    dedupeHints
      [some (jobHint ("hypernote job get ".toList ++ quote jobId)),
        some (jobHint ("hypernote job await ".toList ++ quote jobId))]
  match status, firstCellId with
  | .succeeded, firstCellId =>
      dedupeHints
        [some (jobHint ("hypernote cat ".toList ++ quote path ++
            firstCellId.elim [] fun cellId => " --cell ".toList ++ quote cellId)),
          some (jobHint ("hypernote status ".toList ++ quote path)),
          some (jobHint (ixCommand path))]
  | .failed, some cellId =>
      dedupeHints
        [some (jobHint
            ("hypernote cat ".toList ++ quote path ++ " --output ".toList ++ quote cellId)),
          some (jobHint ("hypernote edit replace ".toList ++ quote path ++ " ".toList ++
            quote cellId ++ " -s '...'".toList)),
          some (jobHint ("hypernote exec ".toList ++ quote path ++ " ".toList ++ quote cellId))]
  | .awaitingInput, _ =>
      dedupeHints
        [some (jobHint ("hypernote job stdin ".toList ++ quote jobId ++ " --value '...'".toList)),
          some (jobHint ("hypernote job await ".toList ++ quote jobId))]
  | _, _ => ofJob

/-- The hints of `_home_payload`. -/
def homeHints (serverReachable : Bool) (notebookPaths : List Chars) : List Chars :=
  dedupeHints <|
    (if serverReachable then none else some (jobHint "hypernote setup serve".toList)) ::
      match notebookPaths.head? with
      | none | some [] =>
          [some (jobHint "hypernote create tmp/demo.ipynb --empty".toList),
            some (jobHint "hypernote ix tmp/demo.ipynb -s 'print(42)'".toList),
            some (jobHint "hypernote setup doctor".toList)]
      | some firstNotebook =>
          [some (jobHint ("hypernote status ".toList ++ quote firstNotebook)),
            some (jobHint (ixCommand firstNotebook)),
            some (jobHint "hypernote setup doctor".toList)]

end Hints

end Hypernote
