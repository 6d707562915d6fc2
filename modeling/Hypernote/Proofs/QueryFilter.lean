import Hypernote.Proofs.Shortening
import Hypernote.Sdk.NotebookStatus
/-!
# What a query finds under which limits

The source and the id of a cell are searched whole, its last output only as far as it is shown.
So the limits decide on the cells that match by their output alone.
-/

namespace Hypernote

open Foundation

namespace Sdk

/-- The query occurs in the text, case left out of account. -/
def Finds (caseMap : CaseMap) (query text : Chars) : Prop :=
  caseMap.lower query <:+: caseMap.lower text

/-- The query occurs in the text of the cell's last output as it is shown under some limit.  A text
of one character is shown under all of them. -/
def FoundInOutput (caseMap : CaseMap) (printable : Char → Bool) (query : Chars)
    (cell : CellStatus) : Prop :=
  ∃ output ∈ cell.shownOutputs.getLast?,
    let normalized := normalizePreviewText (outputText printable output) false
    1 < normalized.length ∧
      (Finds caseMap query normalized ∨
        ∃ limit : Int, 0 < limit ∧ limit < normalized.length ∧
          Finds caseMap query (ellipsized (keptOf normalized limit)))

/-- Only the cell's last output can make it match. -/
def MatchesByOutput (caseMap : CaseMap) (printable : Char → Bool) (failedOnly : Bool)
    (query : Option Chars) (cell : CellStatus) : Prop :=
  (failedOnly = true → cell.hasErrorOutput = true) ∧
    ∃ q, query = some q ∧ q ≠ [] ∧ ¬ Finds caseMap q (cell.source.getD []) ∧
      ¬ Finds caseMap q cell.id.toList ∧ FoundInOutput caseMap printable q cell

namespace NotebookStatus

/-- `compact_cells` selects the same cells whatever the limits are. -/
def SelectsAlike (caseMap : CaseMap) (printable : Char → Bool) (status : NotebookStatus)
    (fullSource failedOnly : Bool) (query : Option Chars) : Prop :=
  ∀ limits limits' : OutputLimits, ∀ cell ∈ status.cells,
    (cell.compactCell caseMap printable fullSource failedOnly query limits).isSome =
      (cell.compactCell caseMap printable fullSource failedOnly query limits').isSome

end NotebookStatus

variable {caseMap : CaseMap} {printable : Char → Bool} {cell : CellStatus} {query : Option Chars}
  {q : Chars} {fullSource failedOnly : Bool} {limits : OutputLimits}

/-! ## One cell -/

theorem matchesQuery_iff (caseMap : CaseMap) (query : Option Chars)
    (textParts : List (Option Chars)) :
    matchesQuery caseMap query textParts = true ↔
      ∀ q, query = some q → q ≠ [] → ∃ part ∈ textParts, Finds caseMap q (part.getD []) := by
  cases query with
  | none => exact iff_of_true rfl fun q h => by cases h
  | some q =>
      simp only [matchesQuery, Option.some.injEq, forall_eq', ne_eq]
      split
      · rename_i hq
        exact iff_of_true rfl fun hne => absurd hq hne
      · rename_i hq
        rw [List.any_eq_true]
        simp only [decide_eq_true_eq, hq, not_false_eq_true, forall_const]
        exact Iff.rfl

/-- The text of the cell's last output as it is shown. -/
def shownOutput (printable : Char → Bool) (cell : CellStatus) (limits : OutputLimits) : Chars :=
  ((cell.outputPreview printable limits.maxOutputChars limits.fullOutput).bind
    (·.preview.text)).getD []

theorem isSome_compactCell :
    (cell.compactCell caseMap printable fullSource failedOnly query limits).isSome = true ↔
      (failedOnly = true → cell.hasErrorOutput = true) ∧
        ∀ q, query = some q → q ≠ [] →
          Finds caseMap q (cell.source.getD []) ∨ Finds caseMap q cell.id.toList ∨
            Finds caseMap q (shownOutput printable cell limits) := by
  have hparts : ∀ q : Chars,
      (∃ part ∈ [cell.source, (cell.outputPreview printable limits.maxOutputChars
          limits.fullOutput).bind (·.preview.text), some cell.id.toList],
        Finds caseMap q (part.getD [])) ↔
      Finds caseMap q (cell.source.getD []) ∨ Finds caseMap q cell.id.toList ∨
        Finds caseMap q (shownOutput printable cell limits) := by
    intro q
    simp only [List.mem_cons, List.not_mem_nil, or_false, exists_eq_or_imp, exists_eq_left]
    exact or_congr_right or_comm
  have hmatches := matchesQuery_iff caseMap query
    [cell.source, (cell.outputPreview printable limits.maxOutputChars
      limits.fullOutput).bind (·.preview.text), some cell.id.toList]
  simp only [hparts] at hmatches
  have hkept : (failedOnly = true → cell.hasErrorOutput = true) ↔
      (failedOnly && !cell.hasErrorOutput) = false := by
    cases failedOnly <;> cases cell.hasErrorOutput <;> simp
  rw [hkept, ← hmatches, CellStatus.compactCell]
  cases failedOnly && !cell.hasErrorOutput with
  | true => exact iff_of_false (fun h => by cases h) fun h => by cases h.1
  | false =>
      rw [if_neg Bool.false_ne_true]
      dsimp only
      split
      · rename_i hmatch
        exact iff_of_true rfl ⟨rfl, hmatch⟩
      · rename_i hmatch
        exact iff_of_false (fun h => by cases h) fun h => hmatch h.2

theorem shownOutput_of_last {output : OutputDict}
    (houtput : cell.shownOutputs.getLast? = some output) (limits : OutputLimits) :
    shownOutput printable cell limits =
      (renderTextPreview (some (outputText printable output)) limits.maxOutputChars
        limits.fullOutput false).text.getD [] := by
  rw [shownOutput, CellStatus.outputPreview, houtput]
  rfl

/-- The shown text is whole or cut. -/
theorem shownOutput_eq (printable : Char → Bool) {output : OutputDict}
    (houtput : cell.shownOutputs.getLast? = some output) (limits : OutputLimits) :
    let normalized := normalizePreviewText (outputText printable output) false
    shownOutput printable cell limits = normalized ∨
      0 < limits.maxOutputChars ∧ limits.maxOutputChars < normalized.length ∧
        shownOutput printable cell limits = ellipsized (keptOf normalized limits.maxOutputChars) := by
  intro normalized
  rw [shownOutput_of_last houtput]
  by_cases hwhole : ShownWhole normalized limits.fullOutput limits.maxOutputChars
  · left
    rw [renderTextPreview_of_shownWhole hwhole]
    rfl
  · right
    rw [renderTextPreview_of_not_shownWhole hwhole]
    obtain ⟨-, hpos, hlong⟩ := not_shownWhole_iff.mp hwhole
    exact ⟨hpos, hlong, rfl⟩

theorem shownOutput_of_limit {output : OutputDict} {limit : Int}
    (houtput : cell.shownOutputs.getLast? = some output) (hpos : 0 < limit)
    (hlimit : limit < (normalizePreviewText (outputText printable output) false).length) :
    shownOutput printable cell ⟨false, false, limit⟩ =
      ellipsized (keptOf (normalizePreviewText (outputText printable output) false) limit) := by
  rw [shownOutput_of_last houtput]
  dsimp only
  rw [renderTextPreview_of_not_shownWhole (not_shownWhole_iff.mpr ⟨rfl, hpos, hlimit⟩)]
  rfl

theorem not_finds_nil (hq : q ≠ []) : ¬ Finds caseMap q [] := by
  rw [Finds, (caseMap.lower_eq_nil_iff []).mpr rfl, List.infix_nil, caseMap.lower_eq_nil_iff]
  exact hq

/-- What some limit shows of a longer text is there under some setting, and under the limit of one
character nothing is. -/
theorem exists_shownOutput (h : FoundInOutput caseMap printable q cell) :
    (∃ limits, Finds caseMap q (shownOutput printable cell limits)) ∧
      shownOutput printable cell ⟨false, false, 1⟩ = [] := by
  obtain ⟨output, houtput, hlong, hfound⟩ := h
  constructor
  · rcases hfound with hfound | ⟨limit, hpos, hlimit, hfound⟩
    · refine ⟨⟨false, true, 0⟩, ?_⟩
      rw [shownOutput_of_last houtput, renderTextPreview_full]
      exact hfound
    · refine ⟨⟨false, false, limit⟩, ?_⟩
      rw [shownOutput_of_limit houtput hpos hlimit]
      exact hfound
  · exact shownOutput_of_limit houtput one_pos (by exact_mod_cast hlong)

/-- A text in which the query is found under one setting and not under another is longer than one
character, and the query is found where it is whole or cut. -/
theorem foundInOutput_of_finds {limits limits' : OutputLimits}
    (hfound : Finds caseMap q (shownOutput printable cell limits))
    (hmissed : ¬ Finds caseMap q (shownOutput printable cell limits')) :
    FoundInOutput caseMap printable q cell := by
  cases houtput : cell.shownOutputs.getLast? with
  | none =>
      have hnone : ∀ limits, shownOutput printable cell limits = [] := by
        intro limits
        rw [shownOutput, CellStatus.outputPreview, houtput]
        rfl
      rw [hnone] at hfound hmissed
      exact absurd hfound hmissed
  | some output =>
      refine ⟨output, houtput, ?_, ?_⟩
      · by_contra hshort
        have hwhole : ∀ limits, shownOutput printable cell limits =
            normalizePreviewText (outputText printable output) false := by
          intro limits
          rcases shownOutput_eq printable houtput limits with h | ⟨hpos, hlimit, -⟩
          · exact h
          · omega
        rw [hwhole] at hfound hmissed
        exact hmissed hfound
      · rcases shownOutput_eq printable houtput limits with h | ⟨hpos, hlimit, h⟩
        · rw [h] at hfound
          exact .inl hfound
        · rw [h] at hfound
          exact .inr ⟨_, hpos, hlimit, hfound⟩

/-! ## All cells -/

/-- `compact_cells` selects the same cells under all limits exactly if no cell matches the query only
by what some limit shows of its last output. -/
theorem selectsAlike_iff (caseMap : CaseMap) (printable : Char → Bool) (status : NotebookStatus)
    (fullSource failedOnly : Bool) (query : Option Chars) :
    status.SelectsAlike caseMap printable fullSource failedOnly query ↔
      ∀ cell ∈ status.cells, ¬ MatchesByOutput caseMap printable failedOnly query cell := by
  constructor
  · rintro halike cell hcell ⟨hfailed, q, rfl, hq, hsource, hid, houtput⟩
    obtain ⟨⟨limits, hfound⟩, hnothing⟩ := exists_shownOutput houtput
    have hsame := halike limits ⟨false, false, 1⟩ cell hcell
    have hselected : (cell.compactCell caseMap printable fullSource failedOnly (some q)
        limits).isSome = true := by
      refine isSome_compactCell.mpr ⟨hfailed, fun q' heq _ => ?_⟩
      cases heq
      exact .inr (.inr hfound)
    rw [hselected] at hsame
    rcases (isSome_compactCell.mp hsame.symm).2 q rfl hq with h | h | h
    · exact hsource h
    · exact hid h
    · rw [hnothing] at h
      exact not_finds_nil hq h
  · intro hnone limits limits' cell hcell
    rw [Bool.eq_iff_iff]
    -- The direction from the one setting to the other is the same for both.
    have hkept : ∀ limits limits' : OutputLimits,
        (cell.compactCell caseMap printable fullSource failedOnly query limits).isSome = true →
          (cell.compactCell caseMap printable fullSource failedOnly query
            limits').isSome = true := by
      intro limits limits' hselected
      obtain ⟨hfailed, hfinds⟩ := isSome_compactCell.mp hselected
      refine isSome_compactCell.mpr ⟨hfailed, fun q hquery hq => ?_⟩
      rcases hfinds q hquery hq with h | h | h
      · exact .inl h
      · exact .inr (.inl h)
      · by_contra hmissed
        simp only [not_or] at hmissed
        exact hnone cell hcell ⟨hfailed, q, hquery, hq, hmissed.1, hmissed.2.1,
          foundInOutput_of_finds h hmissed.2.2⟩
    exact ⟨hkept limits limits', hkept limits' limits⟩

private def logOutput : OutputDict where
  members := [("output_type", .str "stream"), ("name", .str "stdout"), ("text", .str "ok\nError")]
  traceback_lines := fun _ h => nomatch h
  metadata_dict := fun _ h => nomatch h

private def logging : NotebookCell :=
  ⟨"a", .code, .string "f()".toList, [logOutput], some 1, none,
    List.forall_mem_singleton.mpr
      ⟨(by decide : ["output_type", "name", "text"].Nodup), trivial, trivial, trivial, trivial⟩⟩

/-- `compact_cells(query="error")` selects a cell that has put out `ok` and `Error`, but with
`max_output_chars=4` it does not. -/
theorem limit_hides_match :
    ¬ ∀ (caseMap : CaseMap) (printable : Char → Bool) (cells : List NotebookCell)
      (fullSource failedOnly : Bool) (query : Option Chars),
      NotebookStatus.SelectsAlike caseMap printable
        ⟨cells.map (buildCellStatus printable · true false [])⟩ fullSource failedOnly query := by
  intro h
  let cell := buildCellStatus (fun _ => true) logging true false []
  have hsame := h .ascii (fun _ => true) [logging] false false (some "error".toList)
    ⟨false, false, 400⟩ ⟨false, false, 4⟩ cell (List.mem_singleton_self _)
  have hshown : shownOutput (fun _ => true) cell ⟨false, false, 400⟩ = "ok Error".toList := by
    decide
  have hcut : shownOutput (fun _ => true) cell ⟨false, false, 4⟩ = "ok…".toList := by decide
  have hselected : (cell.compactCell .ascii (fun _ => true) false false (some "error".toList)
      ⟨false, false, 400⟩).isSome = true := by
    refine isSome_compactCell.mpr ⟨fun hfailed => absurd hfailed Bool.false_ne_true, ?_⟩
    intro q heq _
    cases heq
    right
    right
    rw [hshown]
    exact ⟨"ok ".toList, [], by decide⟩
  rw [hselected] at hsame
  rcases (isSome_compactCell.mp hsame.symm).2 _ rfl (by decide) with h | h | h
  · exact absurd h.length_le (by decide)
  · exact absurd h.length_le (by decide)
  · rw [hcut] at h
    exact absurd h.length_le (by decide)

end Sdk

end Hypernote
