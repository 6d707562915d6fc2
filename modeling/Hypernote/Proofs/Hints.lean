import Hypernote.Client.Hints
import Hypernote.Foundation.Aligned
/-!
# What the hints say

A hint names a command.  Whatever characters the paths and ids have that it is made of, a shell runs
the command with exactly these as its arguments, and no hint is given twice.
-/

namespace Hypernote

open Foundation ShellWords

namespace Hints

/-- The hint names the command line of these arguments. -/
def Says (hint : Chars) (argv : List Chars) : Prop :=
  ∃ command, hint = jobHint command ∧ words command = some argv

theorem jobHint_injective : Function.Injective jobHint := by
  intro a b h
  unfold jobHint at h
  exact List.append_cancel_left (List.append_cancel_right h)

theorem jobHint_ne_nil (command : Chars) : jobHint command ≠ [] := by
  intro h
  have hlen := congrArg List.length h
  simp [jobHint] at hlen

theorem Says.unique {hint : Chars} {argv argv' : List Chars} (h : Says hint argv)
    (h' : Says hint argv') : argv = argv' := by
  obtain ⟨command, rfl, hwords⟩ := h
  obtain ⟨command', heq, hwords'⟩ := h'
  rw [jobHint_injective heq, hwords'] at hwords
  exact (Option.some.inj hwords).symm

/-! ## Duplicates -/

theorem dedupe_of_nodup {hints seen : List Chars} (hnodup : hints.Nodup)
    (hnew : ∀ hint ∈ hints, hint ≠ [] ∧ hint ∉ seen) : dedupe seen (hints.map some) = hints := by
  induction hints generalizing seen with
  | nil => rfl
  | cons hint hints ih =>
      rw [List.nodup_cons] at hnodup
      rw [List.forall_mem_cons] at hnew
      have hkeep : ¬ (hint = [] ∨ hint ∈ seen) := not_or.mpr hnew.1
      rw [List.map_cons, dedupe, if_neg (by rwa [List.contains_iff_mem])]
      congr 1
      apply ih hnodup.2
      intro hint' hmem
      refine ⟨(hnew.2 hint' hmem).1, ?_⟩
      rw [List.mem_cons, not_or]
      refine ⟨?_, (hnew.2 hint' hmem).2⟩
      rintro rfl
      exact hnodup.1 hmem

/-- Hints for different commands are all given. -/
theorem says_dedupeHints {hints : List Chars} {argvs : List (List Chars)}
    (h : List.Forall₂ Says hints argvs) (hargvs : argvs.Nodup) :
    List.Forall₂ Says (dedupeHints (hints.map some)) argvs := by
  have hnodup : hints.Nodup := by
    induction h with
    | nil => exact List.nodup_nil
    | @cons hint argv hints argvs hword hrest ih =>
        rw [List.nodup_cons] at hargvs ⊢
        refine ⟨fun hmem => hargvs.1 ?_, ih hargvs.2⟩
        obtain ⟨argv', hargv', hword'⟩ := (forall₂_mem hrest).1 hint hmem
        rw [hword.unique hword']
        exact hargv'
  have hne : ∀ hint ∈ hints, hint ≠ [] ∧ hint ∉ ([] : List Chars) := by
    intro hint hmem
    obtain ⟨argv, -, command, rfl, -⟩ := (forall₂_mem h).1 hint hmem
    exact ⟨jobHint_ne_nil command, List.not_mem_nil⟩
  rw [dedupeHints, dedupe_of_nodup hnodup hne]
  exact h

/-! ## The commands -/

/-- The arguments of a command of `hypernote`. -/
def argv (verb : List String) (args : List Chars) : List Chars :=
  ("hypernote" :: verb).map String.toList ++ args

/-- What `ix` is suggested with. -/
def ixArgv (path : Chars) : List Chars :=
  argv ["ix"] [path, "-s".toList, "print(42)".toList]

def statusArgvs (path : Chars) (snapshot : Option Chars) : List (List Chars) :=
  argv ["cat"] [path] ::
    (match snapshot with
      | none | some [] => []
      | some snapshot => [argv ["diff"] [path, "--snapshot".toList, snapshot]]) ++ [ixArgv path]

def catArgvs (path : Chars) (imageCellId : Option Chars) : List (List Chars) :=
  (match imageCellId with
    | none | some [] => []
    | some imageCellId =>
        [argv ["cat"] [path, "--output".toList, imageCellId, "--save-images".toList,
          "tmp/hypernote-images".toList]]) ++ [argv ["status"] [path], ixArgv path]

def jobArgvs (path jobId : Chars) (status : JobStatus) (firstCellId : Option Chars) :
    List (List Chars) :=
  match status, firstCellId with
  | .succeeded, firstCellId =>
      [argv ["cat"] (path :: firstCellId.elim [] fun cellId => ["--cell".toList, cellId]),
        argv ["status"] [path], ixArgv path]
  | .failed, some cellId =>
      [argv ["cat"] [path, "--output".toList, cellId],
        argv ["edit", "replace"] [path, cellId, "-s".toList, "...".toList],
        argv ["exec"] [path, cellId]]
  | .awaitingInput, _ =>
      [argv ["job", "stdin"] [jobId, "--value".toList, "...".toList],
        argv ["job", "await"] [jobId]]
  | _, _ => [argv ["job", "get"] [jobId], argv ["job", "await"] [jobId]]

def homeArgvs (serverReachable : Bool) (notebookPaths : List Chars) : List (List Chars) :=
  (if serverReachable then [] else [argv ["setup", "serve"] []]) ++
    match notebookPaths.head? with
    | none | some [] =>
        [argv ["create"] ["tmp/demo.ipynb".toList, "--empty".toList],
          ixArgv "tmp/demo.ipynb".toList, argv ["setup", "doctor"] []]
    | some firstNotebook =>
        [argv ["status"] [firstNotebook], ixArgv firstNotebook, argv ["setup", "doctor"] []]

/-! ## The words of a command -/

/-- A part of a command: a word that needs no quotes, a word that is written in quotes, or an
argument. -/
inductive Piece
  | plain (word : String) (h : word.toList ≠ [] ∧ word.toList.all isSafe = true)
  | literal (word : String)
  | arg (s : Chars)

namespace Piece

def text : Piece → Chars
  | plain word _ => word.toList
  | literal word => '\'' :: word.toList.flatMap quoteChar ++ ['\'']
  | arg s => quote s

def word : Piece → Chars
  | plain word _ => word.toList
  | literal word => word.toList
  | arg s => s

theorem standsFor (piece : Piece) : StandsFor piece.text piece.word := by
  cases piece with
  | plain word h => exact standsFor_safe h.1 h.2
  | literal word => exact standsFor_singleQuoted word.toList
  | arg s => exact standsFor_quote s

def hypernote : Piece := plain "hypernote" (by decide)

end Piece

open Piece

/-- The command that is written with these parts has their words as its arguments. -/
theorem says_pieces {command : Chars} (pieces : List Piece)
    (h : command = joinWords (pieces.map text)) : Says (jobHint command) (pieces.map word) := by
  have hall : List.Forall₂ StandsFor (pieces.map text) (pieces.map word) := by
    rw [List.forall₂_map_left_iff, List.forall₂_map_right_iff]
    exact List.forall₂_same.mpr fun piece _ => standsFor piece
  exact ⟨command, rfl, h ▸ words_joinWords hall⟩

theorem says_ix (path : Chars) : Says (jobHint (ixCommand path)) (ixArgv path) := by
  refine says_pieces
    [hypernote, plain "ix" (by decide), arg path, plain "-s" (by decide), literal "print(42)"] ?_
  unfold ixCommand
  simp [joinWords, text, hypernote, quoteChar]

theorem says_status (path : Chars) :
    Says (jobHint ("hypernote status ".toList ++ quote path)) (argv ["status"] [path]) := by
  refine says_pieces [hypernote, plain "status" (by decide), arg path] ?_
  simp [joinWords, text, hypernote]

theorem says_cat (path : Chars) :
    Says (jobHint ("hypernote cat ".toList ++ quote path)) (argv ["cat"] [path]) := by
  refine says_pieces [hypernote, plain "cat" (by decide), arg path] ?_
  simp [joinWords, text, hypernote]

theorem says_diff (path snapshot : Chars) :
    Says (jobHint
        ("hypernote diff ".toList ++ quote path ++ " --snapshot ".toList ++ quote snapshot))
      (argv ["diff"] [path, "--snapshot".toList, snapshot]) := by
  refine says_pieces
    [hypernote, plain "diff" (by decide), arg path, plain "--snapshot" (by decide), arg snapshot] ?_
  simp [joinWords, text, hypernote]

theorem says_saveImages (path cellId : Chars) :
    Says (jobHint
        ("hypernote cat ".toList ++ quote path ++ " --output ".toList ++ quote cellId ++
          " --save-images tmp/hypernote-images".toList))
      (argv ["cat"] [path, "--output".toList, cellId, "--save-images".toList,
        "tmp/hypernote-images".toList]) := by
  refine says_pieces
    [hypernote, plain "cat" (by decide), arg path, plain "--output" (by decide), arg cellId,
      plain "--save-images" (by decide), plain "tmp/hypernote-images" (by decide)] ?_
  simp [joinWords, text, hypernote]

/-- The command for a cell of a job that has succeeded, or for the notebook. -/
theorem says_catCell (path : Chars) (cellId : Option Chars) :
    Says (jobHint ("hypernote cat ".toList ++ quote path ++
        cellId.elim [] fun cellId => " --cell ".toList ++ quote cellId))
      (argv ["cat"] (path :: cellId.elim [] fun cellId => ["--cell".toList, cellId])) := by
  cases cellId with
  | none => simpa using says_cat path
  | some cellId =>
      refine says_pieces
        [hypernote, plain "cat" (by decide), arg path, plain "--cell" (by decide), arg cellId] ?_
      simp [joinWords, text, hypernote]

theorem says_output (path cellId : Chars) :
    Says (jobHint ("hypernote cat ".toList ++ quote path ++ " --output ".toList ++ quote cellId))
      (argv ["cat"] [path, "--output".toList, cellId]) := by
  refine says_pieces
    [hypernote, plain "cat" (by decide), arg path, plain "--output" (by decide), arg cellId] ?_
  simp [joinWords, text, hypernote]

theorem says_replace (path cellId : Chars) :
    Says (jobHint ("hypernote edit replace ".toList ++ quote path ++ " ".toList ++
        quote cellId ++ " -s '...'".toList))
      (argv ["edit", "replace"] [path, cellId, "-s".toList, "...".toList]) := by
  refine says_pieces
    [hypernote, plain "edit" (by decide), plain "replace" (by decide), arg path, arg cellId,
      plain "-s" (by decide), literal "..."] ?_
  simp [joinWords, text, hypernote, quoteChar]

theorem says_exec (path cellId : Chars) :
    Says (jobHint ("hypernote exec ".toList ++ quote path ++ " ".toList ++ quote cellId))
      (argv ["exec"] [path, cellId]) := by
  refine says_pieces [hypernote, plain "exec" (by decide), arg path, arg cellId] ?_
  simp [joinWords, text, hypernote]

theorem says_stdin (jobId : Chars) :
    Says (jobHint ("hypernote job stdin ".toList ++ quote jobId ++ " --value '...'".toList))
      (argv ["job", "stdin"] [jobId, "--value".toList, "...".toList]) := by
  refine says_pieces
    [hypernote, plain "job" (by decide), plain "stdin" (by decide), arg jobId,
      plain "--value" (by decide), literal "..."] ?_
  simp [joinWords, text, hypernote, quoteChar]

theorem says_await (jobId : Chars) :
    Says (jobHint ("hypernote job await ".toList ++ quote jobId))
      (argv ["job", "await"] [jobId]) := by
  refine says_pieces [hypernote, plain "job" (by decide), plain "await" (by decide), arg jobId] ?_
  simp [joinWords, text, hypernote]

theorem says_get (jobId : Chars) :
    Says (jobHint ("hypernote job get ".toList ++ quote jobId)) (argv ["job", "get"] [jobId]) := by
  refine says_pieces [hypernote, plain "job" (by decide), plain "get" (by decide), arg jobId] ?_
  simp [joinWords, text, hypernote]

/-! ## The hints -/

/-- What the hints say, each of them of another command. -/
structure HintsSay (path : Chars) : Prop where
  status : ∀ snapshot, List.Forall₂ Says (statusHints path snapshot) (statusArgvs path snapshot)
  cat : ∀ imageCellId, List.Forall₂ Says (catHints path imageCellId) (catArgvs path imageCellId)
  job : ∀ jobId status jobCellIds insertedIds,
    List.Forall₂ Says (jobResultHints path jobId status jobCellIds insertedIds)
      (jobArgvs path jobId status (insertedIds ++ jobCellIds.getD []).head?)
  home : ∀ serverReachable notebookPaths,
    List.Forall₂ Says (homeHints serverReachable notebookPaths)
      (homeArgvs serverReachable notebookPaths)

theorem statusHints_say (path : Chars) (snapshot : Option Chars) :
    List.Forall₂ Says (statusHints path snapshot) (statusArgvs path snapshot) := by
  unfold statusHints statusArgvs
  have hplain : List.Forall₂ Says
      [jobHint ("hypernote cat ".toList ++ quote path), jobHint (ixCommand path)]
      [argv ["cat"] [path], ixArgv path] :=
    .cons (says_cat path) (.cons (says_ix path) .nil)
  match snapshot with
  | none | some [] =>
      apply says_dedupeHints hplain
      simp [argv, ixArgv]
  | some (c :: cs) =>
      refine says_dedupeHints
        (.cons (says_cat path) (.cons (says_diff path (c :: cs)) (.cons (says_ix path) .nil))) ?_
      simp [argv, ixArgv]

theorem catHints_say (path : Chars) (imageCellId : Option Chars) :
    List.Forall₂ Says (catHints path imageCellId) (catArgvs path imageCellId) := by
  unfold catHints catArgvs
  have hplain : List.Forall₂ Says
      [jobHint ("hypernote status ".toList ++ quote path), jobHint (ixCommand path)]
      [argv ["status"] [path], ixArgv path] :=
    .cons (says_status path) (.cons (says_ix path) .nil)
  match imageCellId with
  | none | some [] =>
      apply says_dedupeHints hplain
      simp [argv, ixArgv]
  | some (c :: cs) =>
      apply says_dedupeHints (.cons (says_saveImages path (c :: cs)) hplain)
      simp [argv, ixArgv]

theorem ofJob_say (jobId : Chars) :
    List.Forall₂ Says
      (dedupeHints
        [some (jobHint ("hypernote job get ".toList ++ quote jobId)),
          some (jobHint ("hypernote job await ".toList ++ quote jobId))])
      [argv ["job", "get"] [jobId], argv ["job", "await"] [jobId]] := by
  apply says_dedupeHints (.cons (says_get jobId) (.cons (says_await jobId) .nil))
  simp [argv]

theorem jobResultHints_say (path jobId : Chars) (status : JobStatus)
    (jobCellIds : Option (List Chars)) (insertedIds : List Chars) :
    List.Forall₂ Says (jobResultHints path jobId status jobCellIds insertedIds)
      (jobArgvs path jobId status (insertedIds ++ jobCellIds.getD []).head?) := by
  have hfirst : (if insertedIds = [] then jobCellIds.getD [] else insertedIds).head? =
      (insertedIds ++ jobCellIds.getD []).head? := by
    cases insertedIds with
    | nil => rfl
    | cons _ _ => rfl
  unfold jobResultHints
  dsimp only
  rw [hfirst]
  generalize (insertedIds ++ jobCellIds.getD []).head? = firstCellId
  cases status with
  | succeeded =>
      refine says_dedupeHints
        (.cons (says_catCell path firstCellId) (.cons (says_status path)
          (.cons (says_ix path) .nil))) ?_
      simp [argv, ixArgv]
  | failed =>
      cases firstCellId with
      | none => exact ofJob_say jobId
      | some cellId =>
          refine says_dedupeHints
            (.cons (says_output path cellId) (.cons (says_replace path cellId)
              (.cons (says_exec path cellId) .nil))) ?_
          simp [argv]
  | awaitingInput =>
      refine says_dedupeHints (.cons (says_stdin jobId) (.cons (says_await jobId) .nil)) ?_
      simp [argv]
  | queued => exact ofJob_say jobId
  | running => exact ofJob_say jobId
  | interrupted => exact ofJob_say jobId

theorem says_literal {command : Chars} {argv : List Chars} (h : words command = some argv) :
    Says (jobHint command) argv :=
  ⟨command, rfl, h⟩

theorem homeHints_say (serverReachable : Bool) (notebookPaths : List Chars) :
    List.Forall₂ Says (homeHints serverReachable notebookPaths)
      (homeArgvs serverReachable notebookPaths) := by
  have hserve : Says (jobHint "hypernote setup serve".toList) (argv ["setup", "serve"] []) :=
    says_literal (by decide)
  have hdoctor : Says (jobHint "hypernote setup doctor".toList) (argv ["setup", "doctor"] []) :=
    says_literal (by decide)
  have hcreate : Says (jobHint "hypernote create tmp/demo.ipynb --empty".toList)
      (argv ["create"] ["tmp/demo.ipynb".toList, "--empty".toList]) :=
    says_literal (by decide)
  have hix : Says (jobHint "hypernote ix tmp/demo.ipynb -s 'print(42)'".toList)
      (ixArgv "tmp/demo.ipynb".toList) :=
    says_literal (by decide)
  -- the hints after the first one, which is given where the server is not reached
  have hfirst : ∀ {hints : List Chars} {argvs : List (List Chars)},
      List.Forall₂ Says hints argvs → (argv ["setup", "serve"] [] :: argvs).Nodup →
        List.Forall₂ Says
          (dedupeHints ((if serverReachable then none
            else some (jobHint "hypernote setup serve".toList)) :: hints.map some))
          ((if serverReachable then [] else [argv ["setup", "serve"] []]) ++ argvs) := by
    intro hints argvs h hnodup
    cases serverReachable with
    | true => exact says_dedupeHints h (List.nodup_cons.mp hnodup).2
    | false => exact says_dedupeHints (.cons hserve h) hnodup
  unfold homeHints homeArgvs
  generalize notebookPaths.head? = first
  match first with
  | none | some [] =>
      apply hfirst (.cons hcreate (.cons hix (.cons hdoctor .nil)))
      simp [argv, ixArgv]
  | some (c :: cs) =>
      refine hfirst
        (.cons (says_status (c :: cs)) (.cons (says_ix (c :: cs)) (.cons hdoctor .nil))) ?_
      simp [argv, ixArgv]

/-- Every hint says a command with just the path, the ids and the snapshot of the result as its
arguments, whatever characters they have; and no hint is dropped or given twice. -/
theorem hints_say (path : Chars) : HintsSay path where
  status := statusHints_say path
  cat := catHints_say path
  job := jobResultHints_say path
  home := homeHints_say

end Hints

end Hypernote
