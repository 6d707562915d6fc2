import Hypernote.Proofs.DiffAfterEdits
import Hypernote.Sdk.Aggregates
import Mathlib.Data.Finset.Card
/-!
# The numbers agree

Whether the outputs of a notebook are summarized or not, every number that is shown of it is the one
that can be counted on its cells as they were read.  The cells that a diff calls added and deleted
account for what the notebook has grown or shrunk by.
-/

namespace Hypernote

open Foundation

namespace Sdk

/-! ## The loop of `_status_aggregates` -/

namespace Aggregates

/-- What one cell adds to a number. -/
def one (p : Prop) [Decidable p] : Nat := if p then 1 else 0

theorem countType_eq (a : Aggregates) (type : CellType) : a.countType type =
    { a with
      codeCells := a.codeCells + one (type = .code)
      markdownCells := a.markdownCells + one (type = .markdown)
      rawCells := a.rawCells + one (type = .raw) } := by
  cases type <;> rfl

theorem countOutputs_eq (a : Aggregates) (outputs : List OutputDict) : a.countOutputs outputs =
    { a with
      outputCells := a.outputCells + one (outputs ≠ [])
      outputCount := a.outputCount + outputs.length } := by
  unfold countOutputs one
  by_cases h : outputs = []
  · simp [h]
  · simp [h]

/-- What a turn of the loop adds. -/
theorem count_eq (a : Aggregates) (cell : CellStatus) : a.count cell =
    ⟨a.cellsTotal, a.codeCells + one (cell.type = .code),
      a.markdownCells + one (cell.type = .markdown), a.rawCells + one (cell.type = .raw),
      a.executedCells + one (cell.executionCount.isSome = true),
      a.failedCells + one (cell.hasErrorOutput = true),
      a.changedCells + one (cell.changeKinds ≠ []), a.outputCells + one (cell.shownOutputs ≠ []),
      a.outputCount + cell.shownOutputs.length⟩ := by
  unfold count
  simp only [countType_eq, countOutputs_eq]
  split_ifs <;> simp_all [one]

/-- What the loop adds to the numbers that it starts with. -/
theorem foldl_count (cells : List CellStatus) (a : Aggregates) : cells.foldl count a =
    ⟨a.cellsTotal, a.codeCells + cells.countP (·.type = .code),
      a.markdownCells + cells.countP (·.type = .markdown),
      a.rawCells + cells.countP (·.type = .raw),
      a.executedCells + cells.countP (·.executionCount.isSome),
      a.failedCells + cells.countP (·.hasErrorOutput),
      a.changedCells + cells.countP (·.changeKinds ≠ []),
      a.outputCells + cells.countP (·.shownOutputs ≠ []),
      a.outputCount + (cells.map (·.shownOutputs.length)).sum⟩ := by
  induction cells generalizing a with
  | nil => rfl
  | cons cell cells ih =>
      rw [List.foldl_cons, ih, count_eq]
      simp only [List.countP_cons, List.map_cons, List.sum_cons, decide_eq_true_eq, one]
      ext <;> dsimp only <;> omega

end Aggregates

theorem aggregates_eq (status : NotebookStatus) : status.aggregates =
    ⟨status.cells.length, status.cells.countP (·.type = .code),
      status.cells.countP (·.type = .markdown), status.cells.countP (·.type = .raw),
      status.cells.countP (·.executionCount.isSome), status.cells.countP (·.hasErrorOutput),
      status.cells.countP (·.changeKinds ≠ []), status.cells.countP (·.shownOutputs ≠ []),
      (status.cells.map (·.shownOutputs.length)).sum⟩ := by
  rw [NotebookStatus.aggregates, Aggregates.foldl_count]
  simp only [Aggregates.zero, Nat.zero_add]

/-! ## A status and the cells that were read -/

/-- The numbers of the cells as they were read. -/
def readNumbers (cells : List NotebookCell) : Aggregates where
  cellsTotal := cells.length
  codeCells := cells.countP (·.cellType = .code)
  markdownCells := cells.countP (·.cellType = .markdown)
  rawCells := cells.countP (·.cellType = .raw)
  executedCells := cells.countP (·.executionCount.isSome)
  failedCells := cells.countP (·.outputs.any (·.isType "error"))
  changedCells := 0
  outputCells := cells.countP (·.outputs ≠ [])
  outputCount := (cells.map (·.outputs.length)).sum

/-- The line that tells them. -/
def Aggregates.headline (a : Aggregates) (name : String) (runtime : RuntimeState) : String :=
  s!"{name} · {a.cellsTotal} cells" ++
    s!" ({a.codeCells} code, {a.markdownCells} markdown)" ++
    s!" · {a.executedCells} executed · runtime {runtime.value}"

theorem types_add_up (cells : List NotebookCell) :
    (readNumbers cells).codeCells + (readNumbers cells).markdownCells +
      (readNumbers cells).rawCells = (readNumbers cells).cellsTotal := by
  induction cells with
  | nil => rfl
  | cons cell cells ih =>
      simp only [readNumbers, List.countP_cons, List.length_cons, decide_eq_true_eq] at ih ⊢
      cases cell.cellType <;> simp only [reduceCtorEq, if_true, if_false] <;> omega

section

variable (printable : Char → Bool) (cell : NotebookCell) (full changed : Bool)
  (changeKinds : List ChangeKind)

theorem type_buildCellStatus :
    (buildCellStatus printable cell full changed changeKinds).type = cell.cellType :=
  rfl

theorem executionCount_buildCellStatus :
    (buildCellStatus printable cell full changed changeKinds).executionCount =
      cell.executionCount :=
  rfl

theorem changeKinds_buildCellStatus :
    (buildCellStatus printable cell full changed changeKinds).changeKinds = changeKinds :=
  rfl

theorem hasErrorOutput_buildCellStatus :
    (buildCellStatus printable cell full changed changeKinds).hasErrorOutput =
      cell.outputs.any (·.isType "error") := by
  cases full with
  | true => rfl
  | false =>
      rw [CellStatus.hasErrorOutput, CellStatus.shownOutputs, buildCellStatus]
      simp only [Bool.false_eq_true, if_false, Option.getD_some, List.any_map]
      congr 1
      funext output
      exact isType_summary printable output _ _ _ (by decide)

theorem length_shownOutputs_buildCellStatus :
    (buildCellStatus printable cell full changed changeKinds).shownOutputs.length =
      cell.outputs.length := by
  cases full with
  | true => rfl
  | false => exact List.length_map _

theorem shownOutputs_buildCellStatus_eq_nil :
    (buildCellStatus printable cell full changed changeKinds).shownOutputs = [] ↔
      cell.outputs = [] := by
  rw [← List.length_eq_zero_iff, length_shownOutputs_buildCellStatus, List.length_eq_zero_iff]

end

theorem aggregates_status (sha256 : String → String) (printable : Char → Bool) (path : String)
    (cells : List NotebookCell) (runtime : RuntimeState) (full : Bool) :
    (Notebook.status sha256 printable path cells runtime full).status.aggregates =
      readNumbers cells := by
  rw [aggregates_eq, Notebook.status, readNumbers]
  simp only [List.length_map, List.countP_map, List.map_map, Function.comp_def,
    type_buildCellStatus, executionCount_buildCellStatus, changeKinds_buildCellStatus,
    hasErrorOutput_buildCellStatus, length_shownOutputs_buildCellStatus, ne_eq,
    shownOutputs_buildCellStatus_eq_nil, not_true_eq_false, decide_false, List.countP_false]
  rfl

/-! ## The other numbers -/

theorem statusSummary_eq (status : NotebookStatus) : status.statusSummary =
    { cellCount := status.aggregates.cellsTotal
      codeCells := status.aggregates.codeCells
      markdownCells := status.aggregates.markdownCells
      executedCells := status.aggregates.executedCells
      failedCells := status.aggregates.failedCells
      cellsWithOutput := status.aggregates.outputCells
      outputCount := status.aggregates.outputCount } := by
  rw [aggregates_eq]
  rfl

section

variable (caseMap : CaseMap) (printable : Char → Bool)

/-- Without a query, every cell that is not passed over as a good one is shown. -/
theorem compactCells_no_query (status : NotebookStatus) (fullSource failedOnly : Bool)
    (limits : OutputLimits) :
    status.compactCells caseMap printable fullSource failedOnly none limits =
      (status.cells.filter fun cell => !(failedOnly && !cell.hasErrorOutput)).map
        (·.compactDict printable fullSource limits.includeOutputs limits.fullOutput
          limits.maxOutputChars) := by
  rw [NotebookStatus.compactCells, ← List.filterMap_eq_map, List.filterMap_filter]
  apply List.filterMap_congr
  intro cell _
  rw [CellStatus.compactCell]
  cases failedOnly && !cell.hasErrorOutput <;> rfl

theorem catCells_all (report : NotebookReport) (options : CatOptions) :
    report.catCells caseMap printable options none =
      some (report.status.cells.map
        (·.compactDict printable options.fullSource options.limits.includeOutputs
          options.limits.fullOutput options.limits.maxOutputChars)) := by
  rw [NotebookReport.catCells, compactCells_no_query]
  simp only [Bool.false_and, Bool.not_false, List.filter_true]

theorem length_failedOnly (status : NotebookStatus) (fullSource : Bool) (limits : OutputLimits) :
    (status.compactCells caseMap printable fullSource true none limits).length =
      status.aggregates.failedCells := by
  rw [compactCells_no_query, List.length_map, ← List.countP_eq_length_filter, aggregates_eq]
  simp only [Bool.true_and, Bool.not_not]

/-- What `cat` counts on the entries that it shows. -/
theorem catPayload_numbers (report : NotebookReport) (options : CatOptions) :
    ∃ payload, report.catPayload caseMap printable options none = some payload ∧
      payload.summary = report.status.aggregates ∧
      payload.cellsTotal = report.status.aggregates.cellsTotal ∧
      payload.failedCells = report.status.aggregates.failedCells ∧
      payload.cellsWithOutputs = report.status.aggregates.outputCells := by
  rw [NotebookReport.catPayload, catCells_all, Option.map_some]
  refine ⟨_, rfl, rfl, ?_⟩
  rw [aggregates_eq]
  simp only [List.length_map, List.countP_map, true_and]
  refine ⟨rfl, ?_⟩
  apply List.countP_congr
  intro cell _
  simp only [Function.comp_apply, CellStatus.compactDict, decide_eq_true_eq, List.length_pos_iff]

end

/-- Whatever shows a notebook, and whether it summarizes the outputs or not, the numbers are those
of the cells as they were read. -/
theorem numbers_agree (sha256 : String → String) (caseMap : CaseMap) (printable : Char → Bool)
    (path : String) (cells : List NotebookCell) (runtime : RuntimeState) (full : Bool)
    (options : CatOptions) :
    let report := Notebook.status sha256 printable path cells runtime full
    let numbers := readNumbers cells
    report.status.aggregates = numbers ∧
    numbers.codeCells + numbers.markdownCells + numbers.rawCells = numbers.cellsTotal ∧
    report.summary = numbers.headline (basename path) runtime ∧
    report.status.statusSummary =
      { cellCount := numbers.cellsTotal
        codeCells := numbers.codeCells
        markdownCells := numbers.markdownCells
        executedCells := numbers.executedCells
        failedCells := numbers.failedCells
        cellsWithOutput := numbers.outputCells
        outputCount := numbers.outputCount } ∧
    (∃ payload, report.catPayload caseMap printable options none = some payload ∧
      payload.summary = numbers ∧ payload.cellsTotal = numbers.cellsTotal ∧
      payload.failedCells = numbers.failedCells ∧
      payload.cellsWithOutputs = numbers.outputCells) ∧
    (report.status.compactCells caseMap printable options.fullSource true none
      options.limits).length = numbers.failedCells := by
  intro report numbers
  have hnumbers : report.status.aggregates = numbers :=
    aggregates_status sha256 printable path cells runtime full
  refine ⟨hnumbers, types_add_up cells, rfl, ?_, ?_, ?_⟩
  · rw [← hnumbers]
    exact statusSummary_eq report.status
  · rw [← hnumbers]
    exact catPayload_numbers caseMap printable report options
  · rw [← hnumbers]
    exact length_failedOnly caseMap printable report.status options.fullSource options.limits

/-! ## What a diff counts -/

/-- Two lists without repetitions differ in length as what each of them has alone. -/
theorem length_add_filter_notMem {α : Type} [DecidableEq α] {xs ys : List α} (hxs : xs.Nodup)
    (hys : ys.Nodup) :
    xs.length + (ys.filter (· ∉ xs)).length = ys.length + (xs.filter (· ∉ ys)).length := by
  have hcard {zs : List α} (hzs : zs.Nodup) : zs.length = zs.toFinset.card :=
    (List.toFinset_card_of_nodup hzs).symm
  have hdiff (zs ws : List α) : (zs.filter (· ∉ ws)).toFinset = zs.toFinset \ ws.toFinset := by
    ext x
    simp
  rw [hcard (hys.filter _), hcard (hxs.filter _), hcard hxs, hcard hys, hdiff, hdiff,
    Nat.add_comm, Finset.card_sdiff_add_card, Nat.add_comm, Finset.card_sdiff_add_card,
    Finset.union_comm]

section

variable {sha256 : String → String} {printable : Char → Bool} {full : Bool}
  {B C : List NotebookCell}

theorem not_mem_changeKindsOf {baseline current : SnapshotCell} {kind : ChangeKind}
    (h : kind = .added ∨ kind = .deleted) : kind ∉ changeKindsOf (some baseline) current := by
  simp only [changeKindsOf, List.mem_append, mem_ite]
  rcases h with rfl | rfl <;> simp

/-- Only a cell that the baseline lacks is noted as added, and none of the notebook as deleted. -/
theorem noted_as (hB : (B.map (·.id)).Nodup) (c : NotebookCell) (i : Nat) {kind : ChangeKind}
    (hkind : kind = .added ∨ kind = .deleted) :
    ((noted sha256 B c i).map fun entry => decide (entry.2 = [kind])).getD false =
      decide (kind = .added ∧ c.id ∉ B.map (·.id)) := by
  by_cases hnew : c.id ∉ B.map (·.id)
  · rw [noted_of_new hB hnew]
    rcases hkind with rfl | rfl <;> simp [hnew]
  · obtain ⟨baseline, hbaseline⟩ : ∃ baseline,
        (byId (snapshotCells sha256 B)).get? c.id = some baseline :=
      Option.isSome_iff_exists.mp ((isSome_get?_byId hB c.id).mpr (not_not.mp hnew))
    have hother : changeKindsOf (some baseline) (snapshotCell sha256 c i) ≠ [kind] := by
      intro heq
      exact not_mem_changeKindsOf hkind (heq ▸ List.mem_singleton_self kind)
    rw [noted, hbaseline, decide_eq_false fun h => hnew h.2]
    split
    · rfl
    · exact decide_eq_false hother

/-- How often a kind stands alone in what a diff says. -/
theorem countP_noted (hB : (B.map (·.id)).Nodup) {kind : ChangeKind}
    (hkind : kind = .added ∨ kind = .deleted) :
    (C.zipIdx.filterMap fun entry => noted sha256 B entry.1 entry.2).countP (·.2 = [kind]) =
      if kind = .added then ((C.map (·.id)).filter (· ∉ B.map (·.id))).length else 0 := by
  have hids : C.map (·.id) = C.zipIdx.map fun entry => entry.1.id := by
    conv_lhs => rw [← List.zipIdx_map_fst 0 C, List.map_map]
    rfl
  rw [List.countP_filterMap]
  simp only [noted_as hB _ _ hkind]
  rcases hkind with rfl | rfl
  · rw [if_pos rfl, ← List.countP_eq_length_filter, hids, List.countP_map]
    simp only [true_and]
    rfl
  · simp only [reduceCtorEq, false_and, decide_false, List.countP_false, if_false]
    rfl

/-- Nothing is said to have changed without saying how. -/
theorem kinds_of_noted {c : NotebookCell} {i : Nat} {entry : CellId × List ChangeKind}
    (h : noted sha256 B c i = some entry) : entry.2 ≠ [] := by
  obtain ⟨hkinds, h⟩ := Option.ite_none_left_eq_some.mp h
  obtain rfl := Option.some.inj h
  exact hkinds

variable (sha256 B C) in
/-- What a diff of `C` against a snapshot of `B` says. -/
def said : List (CellId × List ChangeKind) :=
  (C.zipIdx.filterMap fun entry => noted sha256 B entry.1 entry.2) ++
    ((B.map (·.id)).filter (· ∉ C.map (·.id))).map fun id => (id, [.deleted])

theorem kinds_of_said {entry : CellId × List ChangeKind} (h : entry ∈ said sha256 B C) :
    entry.2 ≠ [] := by
  rcases List.mem_append.mp h with h | h
  · obtain ⟨cell, -, hnoted⟩ := List.mem_filterMap.mp h
    exact kinds_of_noted hnoted
  · obtain ⟨id, -, rfl⟩ := List.mem_map.mp h
    exact List.cons_ne_nil _ _

theorem countP_added (hB : (B.map (·.id)).Nodup) :
    (said sha256 B C).countP (·.2 = [.added]) =
      ((C.map (·.id)).filter (· ∉ B.map (·.id))).length := by
  rw [said, List.countP_append, countP_noted hB (.inl rfl), List.countP_map]
  simp [Function.comp_def]

theorem countP_deleted (hB : (B.map (·.id)).Nodup) :
    (said sha256 B C).countP (·.2 = [.deleted]) =
      ((B.map (·.id)).filter (· ∉ C.map (·.id))).length := by
  rw [said, List.countP_append, countP_noted hB (.inr rfl), List.countP_map]
  simp [Function.comp_def]

end

/-- A diff counts what it lists; and the cells that it calls added and deleted account for the
difference of the two lengths. -/
theorem diff_balances (sha256 : String → String) (printable : Char → Bool) (path : String)
    (B C : List NotebookCell) (hB : (B.map (·.id)).Nodup) (hC : (C.map (·.id)).Nodup)
    (runtime : RuntimeState) (full : Bool) :
    ∃ report, Notebook.diffReport sha256 printable path C runtime (Notebook.snapshot sha256 B)
        full = .ok report ∧
      report.status.aggregates.changedCells = report.status.cells.length ∧
      report.summary =
        s!"{basename path} · {report.status.cells.length} changed cells · runtime {runtime.value}" ∧
      report.current.cellCount + report.status.cells.countP (·.changeKinds = [.deleted]) =
        (Notebook.snapshot sha256 B).cellCount +
          report.status.cells.countP (·.changeKinds = [.added]) := by
  have hsaid : Reports sha256 printable full B C (said sha256 B C) := reports_diff hB hC
  obtain ⟨changed, hdiff, hreports⟩ := hsaid
  have hcount (kind : ChangeKind) :
      changed.countP (·.changeKinds = [kind]) = (said sha256 B C).countP (·.2 = [kind]) := by
    rw [← hreports, reports, List.countP_map]
    rfl
  refine ⟨_, by rw [Notebook.diffReport, hdiff]; rfl, ?_, ?_, ?_⟩
  · rw [aggregates_eq]
    apply List.countP_eq_length.mpr
    intro status hstatus
    have hmem : (status.id, status.changeKinds) ∈ reports changed :=
      List.mem_map_of_mem hstatus
    rw [hreports] at hmem
    exact decide_eq_true (kinds_of_said hmem)
  · rfl
  · have hlengths := length_add_filter_notMem hC hB
    rw [List.length_map, List.length_map] at hlengths
    calc
      C.length + changed.countP (·.changeKinds = [.deleted])
        = C.length + ((B.map (·.id)).filter (· ∉ C.map (·.id))).length := by
          rw [hcount, countP_deleted hB]
      _ = B.length + ((C.map (·.id)).filter (· ∉ B.map (·.id))).length := hlengths
      _ = B.length + changed.countP (·.changeKinds = [.added]) := by
          rw [hcount, countP_added hB]

private theorem no_output_repeats : ∀ o ∈ ([] : List OutputDict),
    (Json.obj o.members).UniqueKeys :=
  fun _ h => absurd h List.not_mem_nil

private def rawCell (id : CellId) : NotebookCell :=
  ⟨id, .raw, .string [], [], none, none, no_output_repeats⟩

private def grown : String := "work/grown.ipynb"

private def idle : RuntimeState := .stopped

/-- One cell is deleted and two are added. -/
theorem grown_notebook_balances :
    ∃ report, Notebook.diffReport id (fun _ => true) grown
        [rawCell "b", rawCell "c", rawCell "d"] idle
        (Notebook.snapshot id [rawCell "a", rawCell "b"]) false = .ok report ∧
      report.status.aggregates.changedCells = report.status.cells.length ∧
      report.summary =
        s!"{basename grown} · {report.status.cells.length} changed cells · runtime {idle.value}" ∧
      report.current.cellCount + report.status.cells.countP (·.changeKinds = [.deleted]) =
        (Notebook.snapshot id [rawCell "a", rawCell "b"]).cellCount +
          report.status.cells.countP (·.changeKinds = [.added]) :=
  diff_balances id (fun _ => true) grown [rawCell "a", rawCell "b"]
    [rawCell "b", rawCell "c", rawCell "d"] (by decide) (by decide) idle false

end Sdk

end Hypernote
