import Hypernote.Foundation.Aligned
import Hypernote.Proofs.Diff
import Hypernote.Proofs.ListEdits
/-!
# What a diff says after an edit

The calls on the document number its cells anew.  So a diff against a snapshot from before a call
names the cell that the call was for, with what the call has done, and every cell that has another
place now; it names no other cell.
-/

namespace Hypernote

open Foundation Sdk

variable {μ : Type}

/-- The client reads the cell of the document as that, wherever it stands. -/
structure Cell.ReadAs (cell : Cell CellId OutputDict μ) (c : NotebookCell) : Prop where
  id : cell.id = some c.id
  type : cell.cellType = c.cellType.value
  source : cell.source = c.cellSource
  outputs : cell.outputs = c.outputs
  execution_count : cell.executionCount = c.executionCount

namespace Sdk

/-! ## Cells at their places -/

/-- Every cell has the order of its place. -/
def Positioned (cells : List NotebookCell) : Prop :=
  ∀ c i, (c, i) ∈ cells.zipIdx → orderOf c i = positionKeyOf i

/-- The cells are alike but for their places. -/
structure SameCell (b c : NotebookCell) : Prop where
  id : b.id = c.id
  source : b.cellSource = c.cellSource
  outputs : b.outputs = c.outputs
  execution_count : b.executionCount = c.executionCount

/-- What a diff says of the cells, each by its id. -/
def reports (changed : List CellStatus) : List (CellId × List ChangeKind) :=
  changed.map fun status => (status.id, status.changeKinds)

section

variable (sha256 : String → String) (printable : Char → Bool) (full : Bool)
  (B C : List NotebookCell)

/-- A diff of `C` against a snapshot of `B` says that. -/
def Reports (expected : List (CellId × List ChangeKind)) : Prop :=
  ∃ changed, Notebook.diff sha256 printable C (Notebook.snapshot sha256 B) full = .ok changed ∧
    reports changed = expected

/-- What the diff says of a cell at its place. -/
def noted (c : NotebookCell) (i : Nat) : Option (CellId × List ChangeKind) :=
  let kinds := changeKindsOf ((byId (snapshotCells sha256 B)).get? c.id) (snapshotCell sha256 c i)
  if kinds = [] then none else some (c.id, kinds)

end

section

variable {sha256 : String → String} {printable : Char → Bool} {full : Bool}
  {B C : List NotebookCell}

theorem Reports.of_eq {expected expected' : List (CellId × List ChangeKind)}
    (h : Reports sha256 printable full B C expected) (heq : expected = expected') :
    Reports sha256 printable full B C expected' :=
  heq ▸ h

theorem reports_changedSince (hC : (C.map (·.id)).Nodup) :
    reports (changedSince sha256 printable full B C) =
      C.zipIdx.filterMap fun entry => noted sha256 B entry.1 entry.2 := by
  have hzip : C = C.zipIdx.map Prod.fst := (List.zipIdx_map_fst 0 C).symm
  rw [reports, changedSince]
  conv_lhs => rw [hzip]
  rw [List.filterMap_map, List.map_filterMap]
  apply List.filterMap_congr
  rintro ⟨c, i⟩ hmem
  rw [Function.comp_apply, listed, ← hzip, get?_byId_of_mem hC hmem, Option.bind_some, noted]
  split
  · rfl
  · rfl

theorem reports_deletedSince (hB : (B.map (·.id)).Nodup) (hC : (C.map (·.id)).Nodup) :
    reports (deletedSince sha256 B C) =
      ((B.map (·.id)).filter (· ∉ C.map (·.id))).map fun id => (id, [.deleted]) := by
  rw [← deletedSince_ids hB hC, List.map_map, reports]
  apply List.map_congr_left
  intro status hstatus
  obtain ⟨entry, -, hentry⟩ := List.mem_filterMap.mp hstatus
  exact congrArg _ (removal_changeKinds hentry)

theorem reports_diff (hB : (B.map (·.id)).Nodup) (hC : (C.map (·.id)).Nodup) :
    Reports sha256 printable full B C
      ((C.zipIdx.filterMap fun entry => noted sha256 B entry.1 entry.2) ++
        ((B.map (·.id)).filter (· ∉ C.map (·.id))).map fun id => (id, [.deleted])) := by
  refine ⟨_, diff_eq hB hC, ?_⟩
  rw [reports, List.map_append]
  exact congrArg₂ (· ++ ·) (reports_changedSince hC) (reports_deletedSince hB hC)

theorem noted_of_new (hB : (B.map (·.id)).Nodup) {c : NotebookCell} {i : Nat}
    (hnew : c.id ∉ B.map (·.id)) : noted sha256 B c i = some (c.id, [.added]) := by
  rw [noted, get?_byId_of_not_mem hB hnew]
  rfl

/-- What is said of a cell that both notebooks have depends on its two forms only. -/
theorem noted_of_kept (hB : (B.map (·.id)).Nodup) {b c : NotebookCell} {j i : Nat}
    (hb : (b, j) ∈ B.zipIdx) (hid : b.id = c.id) :
    noted sha256 B c i =
      if changeKindsOf (some (snapshotCell sha256 b j)) (snapshotCell sha256 c i) = [] then none
      else
        some (c.id, changeKindsOf (some (snapshotCell sha256 b j)) (snapshotCell sha256 c i)) := by
  rw [noted, ← hid, get?_byId_of_mem hB hb]

theorem noted_of_same (hB : (B.map (·.id)).Nodup) (hpositioned : Positioned B)
    {b c : NotebookCell} {j i : Nat} (hb : (b, j) ∈ B.zipIdx) (hsame : SameCell b c)
    (hplace : orderOf c i = positionKeyOf i) :
    noted sha256 B c i = if j = i then none else some (c.id, [.moved]) := by
  have houtputs : outputsJson b = outputsJson c := by rw [outputsJson, hsame.outputs]; rfl
  rw [noted_of_kept hB hb hsame.id]
  simp only [changeKindsOf, snapshotCell, hpositioned b j hb, hplace, hsame.source, houtputs,
    hsame.execution_count, ne_eq, not_true_eq_false, if_false, List.append_nil,
    positionKeyOf_injective.eq_iff]
  by_cases hji : j = i
  · simp [hji]
  · simp [hji]

variable (sha256) in
/-- Cells that stand next to each other before and after: either all of them have moved or none. -/
theorem noted_run (hB : (B.map (·.id)).Nodup) (hpositioned : Positioned B)
    {D D' : List NotebookCell} (hsame : List.Forall₂ SameCell D D') {m n : Nat}
    (hD : ∀ entry ∈ D.zipIdx m, entry ∈ B.zipIdx)
    (hD' : ∀ entry ∈ D'.zipIdx n, orderOf entry.1 entry.2 = positionKeyOf entry.2) :
    ((D'.zipIdx n).filterMap fun entry => noted sha256 B entry.1 entry.2) =
      if m = n then [] else D'.map fun c => (c.id, [.moved]) := by
  induction hsame generalizing m n with
  | nil =>
      rw [List.zipIdx_nil, List.map_nil, ite_self]
      rfl
  | @cons b c D D' hbc _ ih =>
      rw [List.zipIdx_cons, List.forall_mem_cons] at hD hD'
      have hrest := ih hD.2 hD'.2
      rw [List.zipIdx_cons, List.filterMap_cons,
        noted_of_same hB hpositioned hD.1 hbc hD'.1, hrest, List.map_cons]
      by_cases hmn : m = n
      · simp [hmn]
      · simp [hmn]

theorem map_id_same {D D' : List NotebookCell} (h : List.Forall₂ SameCell D D') :
    D.map (·.id) = D'.map (·.id) := by
  induction h with
  | nil => rfl
  | cons hsame _ ih => exact congrArg₂ List.cons hsame.id ih

theorem filter_notMem_around {α : Type} [DecidableEq α] {pre mid mid' post : List α}
    (h : (pre ++ (mid ++ post)).Nodup) :
    (pre ++ (mid ++ post)).filter (· ∉ pre ++ (mid' ++ post)) = mid.filter (· ∉ mid') := by
  obtain ⟨-, hrest, hpre⟩ := List.nodup_append.mp h
  obtain ⟨-, -, hmid⟩ := List.nodup_append.mp hrest
  have hnone : ∀ xs : List α, (∀ x ∈ xs, x ∈ pre ++ (mid' ++ post)) →
      xs.filter (· ∉ pre ++ (mid' ++ post)) = [] := by
    intro xs hxs
    apply List.filter_eq_nil_iff.mpr
    intro x hx
    exact Bool.eq_false_iff.mp (decide_eq_false (not_not.mpr (hxs x hx)))
  have hmiddle : mid.filter (· ∉ pre ++ (mid' ++ post)) = mid.filter (· ∉ mid') := by
    apply List.filter_congr
    intro x hx
    have hxpre : x ∉ pre := fun hmem => hpre x hmem x (List.mem_append_left _ hx) rfl
    have hxpost : x ∉ post := fun hmem => hmid x hx x hmem rfl
    simp [hxpre, hxpost]
  rw [List.filter_append, List.filter_append, hmiddle,
    hnone pre fun x hx => List.mem_append_left _ hx,
    hnone post fun x hx => List.mem_append_right _ (List.mem_append_right _ hx),
    List.nil_append, List.append_nil]

/-- A stretch of the notebook has been replaced by another one. -/
theorem reports_around {B₁ M B₂ C₁ N C₂ : List NotebookCell} (h₁ : List.Forall₂ SameCell B₁ C₁)
    (h₂ : List.Forall₂ SameCell B₂ C₂) (hB : ((B₁ ++ (M ++ B₂)).map (·.id)).Nodup)
    (hC : ((C₁ ++ (N ++ C₂)).map (·.id)).Nodup) (hpositioned : Positioned (B₁ ++ (M ++ B₂)))
    (hpositioned' : Positioned (C₁ ++ (N ++ C₂))) :
    Reports sha256 printable full (B₁ ++ (M ++ B₂)) (C₁ ++ (N ++ C₂))
      ((N.zipIdx C₁.length).filterMap
          (fun entry => noted sha256 (B₁ ++ (M ++ B₂)) entry.1 entry.2) ++
        (if M.length = N.length then [] else C₂.map fun c => (c.id, [.moved])) ++
        ((M.map (·.id)).filter (· ∉ N.map (·.id))).map fun id => (id, [.deleted])) := by
  have hzipB : (B₁ ++ (M ++ B₂)).zipIdx = B₁.zipIdx ++ (M.zipIdx B₁.length ++
      B₂.zipIdx (B₁.length + M.length)) := by
    rw [List.zipIdx_append, List.zipIdx_append, Nat.zero_add]
  have hzipC : (C₁ ++ (N ++ C₂)).zipIdx = C₁.zipIdx ++ (N.zipIdx C₁.length ++
      C₂.zipIdx (C₁.length + N.length)) := by
    rw [List.zipIdx_append, List.zipIdx_append, Nat.zero_add]
  have hplaces : ∀ entry ∈ (C₁ ++ (N ++ C₂)).zipIdx,
      orderOf entry.1 entry.2 = positionKeyOf entry.2 := fun entry h => hpositioned' _ _ h
  have hbefore := noted_run sha256 hB hpositioned h₁ (m := 0) (n := 0)
    (fun entry h => hzipB ▸ List.mem_append_left _ h)
    (fun entry h => hplaces entry (hzipC ▸ List.mem_append_left _ h))
  have hafter := noted_run sha256 hB hpositioned h₂ (m := B₁.length + M.length)
    (n := C₁.length + N.length)
    (fun entry h => hzipB ▸ List.mem_append_right _ (List.mem_append_right _ h))
    (fun entry h => hplaces entry
      (hzipC ▸ List.mem_append_right _ (List.mem_append_right _ h)))
  have hdeleted : ((B₁ ++ (M ++ B₂)).map (·.id)).filter (· ∉ (C₁ ++ (N ++ C₂)).map (·.id)) =
      (M.map (·.id)).filter (· ∉ N.map (·.id)) := by
    simp only [List.map_append] at hB ⊢
    rw [map_id_same h₁, map_id_same h₂] at hB ⊢
    exact filter_notMem_around hB
  refine (reports_diff hB hC).of_eq ?_
  rw [hdeleted, hzipC, List.filterMap_append, List.filterMap_append, hbefore, if_pos rfl,
    List.nil_append, hafter]
  have hlength := h₁.length_eq
  have hiff : B₁.length + M.length = C₁.length + N.length ↔ M.length = N.length := by omega
  simp only [hiff]

theorem reports_inserted {B₁ B₂ C₁ C₂ : List NotebookCell} {c : NotebookCell}
    (h₁ : List.Forall₂ SameCell B₁ C₁) (h₂ : List.Forall₂ SameCell B₂ C₂)
    (hB : ((B₁ ++ B₂).map (·.id)).Nodup) (hC : ((C₁ ++ c :: C₂).map (·.id)).Nodup)
    (hpositioned : Positioned (B₁ ++ B₂)) (hpositioned' : Positioned (C₁ ++ c :: C₂)) :
    Reports sha256 printable full (B₁ ++ B₂) (C₁ ++ c :: C₂)
      ((c.id, [.added]) :: C₂.map fun c => (c.id, [.moved])) := by
  have hnew : c.id ∉ (B₁ ++ B₂).map (·.id) := by
    rw [List.map_append, map_id_same h₁, map_id_same h₂]
    rw [List.map_append, List.map_cons] at hC
    exact (List.nodup_cons.mp (List.nodup_middle.mp hC)).1
  refine (reports_around (M := []) (N := [c]) h₁ h₂ hB hC hpositioned hpositioned').of_eq ?_
  simp [noted_of_new hB hnew]

theorem reports_removed {B₁ B₂ C₁ C₂ : List NotebookCell} {b : NotebookCell}
    (h₁ : List.Forall₂ SameCell B₁ C₁) (h₂ : List.Forall₂ SameCell B₂ C₂)
    (hB : ((B₁ ++ b :: B₂).map (·.id)).Nodup) (hC : ((C₁ ++ C₂).map (·.id)).Nodup)
    (hpositioned : Positioned (B₁ ++ b :: B₂)) (hpositioned' : Positioned (C₁ ++ C₂)) :
    Reports sha256 printable full (B₁ ++ b :: B₂) (C₁ ++ C₂)
      (C₂.map (fun c => (c.id, [.moved])) ++ [(b.id, [.deleted])]) := by
  refine (reports_around (M := [b]) (N := []) h₁ h₂ hB hC hpositioned hpositioned').of_eq ?_
  simp

theorem mem_zipIdx_middle {α : Type} (pre post : List α) (x : α) :
    (x, pre.length) ∈ (pre ++ x :: post).zipIdx := by
  rw [List.mem_zipIdx_iff_getElem?, List.getElem?_append_right (le_refl _), Nat.sub_self]
  rfl

/-- One cell is another one now, at its place. -/
theorem reports_rewritten {B₁ B₂ C₁ C₂ : List NotebookCell} {b c : NotebookCell}
    (h₁ : List.Forall₂ SameCell B₁ C₁) (h₂ : List.Forall₂ SameCell B₂ C₂) (hid : b.id = c.id)
    (hB : ((B₁ ++ b :: B₂).map (·.id)).Nodup) (hC : ((C₁ ++ c :: C₂).map (·.id)).Nodup)
    (hpositioned : Positioned (B₁ ++ b :: B₂)) (hpositioned' : Positioned (C₁ ++ c :: C₂))
    {kinds : List ChangeKind}
    (hkinds : changeKindsOf (some (snapshotCell sha256 b B₁.length))
      (snapshotCell sha256 c B₁.length) = kinds) :
    Reports sha256 printable full (B₁ ++ b :: B₂) (C₁ ++ c :: C₂)
      (if kinds = [] then [] else [(b.id, kinds)]) := by
  have hplace := mem_zipIdx_middle B₁ B₂ b
  refine (reports_around (M := [b]) (N := [c]) h₁ h₂ hB hC hpositioned hpositioned').of_eq ?_
  have hnoted : noted sha256 (B₁ ++ b :: B₂) c C₁.length =
      if kinds = [] then none else some (b.id, kinds) := by
    rw [noted_of_kept hB hplace hid, ← h₁.length_eq, hkinds, hid]
  by_cases hnone : kinds = []
  · simp [hnoted, hnone, hid]
  · simp [hnoted, hnone, hid]

theorem filterMap_ite {α β : Type} (p : α → Prop) [DecidablePred p] (f : α → β) (xs : List α) :
    xs.filterMap (fun x => if p x then some (f x) else none) =
      (xs.filter fun x => p x).map f := by
  induction xs with
  | nil => rfl
  | cons x xs ih =>
      by_cases hx : p x
      · simp [hx, ih]
      · simp [hx, ih]

/-- All cells are there as before, but for their places. -/
theorem reports_places (hB : (B.map (·.id)).Nodup) (hC : (C.map (·.id)).Nodup)
    (hpositioned : Positioned B) (hpositioned' : Positioned C)
    (hsame : ∀ c ∈ C, ∃ b ∈ B, SameCell b c) (hids : ∀ b ∈ B, b.id ∈ C.map (·.id)) :
    Reports sha256 printable full B C
      ((C.zipIdx.filter fun entry => (B.map (·.id))[entry.2]? ≠ some entry.1.id).map
        fun entry => (entry.1.id, [.moved])) := by
  have hdeleted : (B.map (·.id)).filter (· ∉ C.map (·.id)) = [] := by
    apply List.filter_eq_nil_iff.mpr
    intro id hid
    obtain ⟨b, hb, rfl⟩ := List.mem_map.mp hid
    simpa using hids b hb
  have hnoted : ∀ entry ∈ C.zipIdx, noted sha256 B entry.1 entry.2 =
      if (B.map (·.id))[entry.2]? ≠ some entry.1.id then some (entry.1.id, [.moved])
      else none := by
    rintro ⟨c, i⟩ hmem
    obtain ⟨b, hb, hbc⟩ := hsame c (List.fst_mem_of_mem_zipIdx hmem)
    obtain ⟨j, hj⟩ := exists_mem_zipIdx hb
    have hget : (B.map (·.id))[j]? = some c.id := by
      rw [List.getElem?_map, List.mem_zipIdx_iff_getElem?.mp hj, ← hbc.id]
      rfl
    have hplace : (B.map (·.id))[i]? = some c.id ↔ j = i := by
      constructor
      · intro heq
        obtain ⟨hlt, -⟩ := List.getElem?_eq_some_iff.mp hget
        exact (List.getElem?_inj hlt hB).mp (hget.trans heq.symm)
      · rintro rfl
        exact hget
    rw [noted_of_same hB hpositioned hj hbc (hpositioned' c i hmem), ite_not]
    simp only [hplace]
  refine (reports_diff hB hC).of_eq ?_
  rw [hdeleted, List.map_nil, List.append_nil, List.filterMap_congr hnoted]
  exact filterMap_ite _ _ _

end

end Sdk

/-! ## The document and what the client reads of it -/

theorem Cell.ReadAs.sameCell {cell : Cell CellId OutputDict μ} {b c : NotebookCell}
    (hb : cell.ReadAs b) (hc : cell.ReadAs c) : SameCell b c where
  id := Option.some.inj (hb.id.symm.trans hc.id)
  source := hb.source.symm.trans hc.source
  outputs := hb.outputs.symm.trans hc.outputs
  execution_count := hb.execution_count.symm.trans hc.execution_count

theorem forall₂_sameCell {cells : List (Cell CellId OutputDict μ)} {B C : List NotebookCell}
    (hB : List.Forall₂ Cell.ReadAs cells B) (hC : List.Forall₂ Cell.ReadAs cells C) :
    List.Forall₂ SameCell B C := by
  induction hB generalizing C with
  | nil =>
      cases hC
      exact .nil
  | cons hb _ ih =>
      obtain ⟨c, rest, hc, hrest, rfl⟩ := List.forall₂_cons_left_iff.mp hC
      exact .cons (hb.sameCell hc) (ih hrest)

theorem map_id_readAs {cells : List (Cell CellId OutputDict μ)} {C : List NotebookCell}
    (h : List.Forall₂ Cell.ReadAs cells C) : cells.map (·.id) = C.map fun c => some c.id := by
  induction h with
  | nil => rfl
  | cons hc _ ih => exact congrArg₂ List.cons hc.id ih

namespace YNotebook

variable {lib : YNotebook CellId OutputDict μ} {ycells ycells' : List lib.YCell}
  {B C : List NotebookCell}

/-- The client reads these cells of the document. -/
def Reads (lib : YNotebook CellId OutputDict μ) (ycells : List lib.YCell)
    (cells : List NotebookCell) : Prop :=
  List.Forall₂ (fun ycell c => (lib.toPy ycell).ReadAs c ∧
    (lib.toPy ycell).positionKey = c.positionKey) ycells cells

/-- No cell of the document has the key of another place. -/
def Placed (lib : YNotebook CellId OutputDict μ) (ycells : List lib.YCell) : Prop :=
  ∀ ycell i, (ycell, i) ∈ ycells.zipIdx →
    (lib.toPy ycell).positionKey.getD (positionKeyOf i) = positionKeyOf i

theorem Reads.contents (hlib : lib.Lawful) (h : lib.Reads ycells C) :
    List.Forall₂ Cell.ReadAs (lib.contents ycells) C := by
  rw [YNotebook.contents, List.forall₂_map_left_iff]
  refine h.imp fun ycell c hread => ?_
  rw [content_eq hlib]
  obtain ⟨⟨hid, htype, hsource, houtputs, hcount⟩, -⟩ := hread
  exact ⟨hid, htype, hsource, houtputs, hcount⟩

theorem Reads.map_id (hlib : lib.Lawful) (h : lib.Reads ycells C) :
    ycells.map lib.id = C.map fun c => some c.id := by
  rw [← map_id_contents]
  exact map_id_readAs (h.contents hlib)

theorem Reads.nodup_iff (hlib : lib.Lawful) (h : lib.Reads ycells C) :
    (ycells.map lib.id).Nodup ↔ (C.map (·.id)).Nodup := by
  rw [h.map_id hlib, ← List.nodup_map_iff (Option.some_injective CellId), List.map_map]
  rfl

theorem Reads.positioned (h : lib.Reads ycells C) (hplaced : lib.Placed ycells) :
    Positioned C := by
  intro c i hmem
  have hget : C[i]? = some c := List.mem_zipIdx_iff_getElem?.mp hmem
  obtain ⟨hi, rfl⟩ := List.getElem?_eq_some_iff.mp hget
  have hlen : i < ycells.length := h.length_eq ▸ hi
  have hkey : (lib.toPy ycells[i]).positionKey = C[i].positionKey := (h.get hlen hi).2
  have hplace := hplaced ycells[i] i
    (List.mem_zipIdx_iff_getElem?.mpr (List.getElem?_eq_getElem hlen))
  rw [hkey] at hplace
  exact hplace

theorem placed_assignPositionKeysYcells (hlib : lib.Lawful) (ycells : List lib.YCell) :
    lib.Placed (lib.assignPositionKeysYcells ycells) := by
  intro ycell i hmem
  have hget : (lib.assignPositionKeysYcells ycells)[i]? = some ycell :=
    List.mem_zipIdx_iff_getElem?.mp hmem
  rw [assignPositionKeysYcells, List.getElem?_mapIdx] at hget
  obtain ⟨ycell, -, rfl⟩ := Option.map_eq_some_iff.mp hget
  rw [hlib.toPy_setPositionKey]
  rfl

/-- The places depend on the position keys only. -/
theorem Placed.of_map_eq (hplaced : lib.Placed ycells)
    (h : (ycells'.map lib.toPy).map (·.positionKey) = (ycells.map lib.toPy).map (·.positionKey)) :
    lib.Placed ycells' := by
  intro ycell' i hmem
  have hget' : ycells'[i]? = some ycell' := List.mem_zipIdx_iff_getElem?.mp hmem
  have hkeys := congrArg (·[i]?) h
  simp only [List.getElem?_map, hget', Option.map_some] at hkeys
  obtain ⟨cell, hcell, hkey⟩ := Option.map_eq_some_iff.mp hkeys.symm
  obtain ⟨ycell, hget, rfl⟩ := Option.map_eq_some_iff.mp hcell
  rw [← hkey]
  exact hplaced ycell i (List.mem_zipIdx_iff_getElem?.mpr hget)

/-! ## The calls keep the cells at their places -/

/-- Reading all cells gives new ids only. -/
theorem placed_aget (hlib : lib.Lawful) (hplaced : lib.Placed ycells) :
    lib.Placed (lib.aget ycells) := by
  refine hplaced.of_map_eq ?_
  rw [List.map_map, List.map_map]
  refine (hlib.renamed_aget rfl ycells).map_eq fun id y y' hy' => ?_
  rw [Function.comp_apply, hy']
  rfl

theorem placed_endEdit (hlib : lib.Lawful) (hplaced : lib.Placed ycells) (cellId : Option CellId)
    {result : Except (ValueError CellId) (List lib.YCell)}
    (hresult : ∀ ycells', result = .ok ycells' → lib.Placed ycells') :
    lib.Placed (lib.endEdit cellId ycells result).2 := by
  cases result with
  | error error => exact hplaced
  | ok ycells' => exact placed_aget hlib (hresult ycells' rfl)

theorem placed_beginInsert (hlib : lib.Lawful) {cell : Cell CellId OutputDict μ}
    {before after : Option CellId}
    (h : lib.beginInsert cell before after ycells = .ok ycells') : lib.Placed ycells' := by
  unfold beginInsert at h
  cases hposition : validatePosition before after with
  | error error =>
      rw [hposition] at h
      cases h
  | ok _ =>
      cases hindex : resolveInsertIndex (ycells.map lib.toPy) before after with
      | error error =>
          simp only [hposition, hindex, bind, Except.bind] at h
          cases h
      | ok index =>
          simp only [hposition, hindex, bind, Except.bind] at h
          obtain rfl := Except.ok.inj h
          exact placed_assignPositionKeysYcells hlib _

theorem placed_beginRewrite (hlib : lib.Lawful) {cellId : CellId}
    {change : Cell CellId OutputDict μ → Cell CellId OutputDict μ}
    (h : lib.beginRewrite cellId change ycells = .ok ycells') : lib.Placed ycells' := by
  unfold beginRewrite at h
  cases hindex : lib.findYcellIndex ycells cellId with
  | error error =>
      rw [hindex] at h
      cases h
  | ok index =>
      rw [hindex] at h
      obtain rfl := Except.ok.inj h
      exact placed_assignPositionKeysYcells hlib _

theorem placed_aset (hlib : lib.Lawful) {cells : List (Cell CellId OutputDict μ)}
    (hne : assignPositionKeys cells ≠ []) (ycells : List lib.YCell) :
    lib.Placed (lib.aset (assignPositionKeys cells) ycells) := by
  intro ycell i hmem
  have hget : (lib.aset (assignPositionKeys cells) ycells)[i]? = some ycell :=
    List.mem_zipIdx_iff_getElem?.mp hmem
  have htoPy : (assignPositionKeys cells)[i]? = some (lib.toPy ycell) := by
    rw [← hlib.map_toPy_aset ycells hne, List.getElem?_map, hget]
    rfl
  rw [assignPositionKeys, List.getElem?_mapIdx] at htoPy
  obtain ⟨cell, -, hcell⟩ := Option.map_eq_some_iff.mp htoPy
  rw [← hcell]
  rfl

theorem movedCells_assigned {cellId : CellId} {before after : Option CellId}
    {cells given : List (Cell CellId OutputDict μ)}
    (h : movedCells cellId before after cells = .ok given) :
    given ≠ [] ∧ ∃ cells', given = assignPositionKeys cells' := by
  unfold movedCells at h
  cases hposition : validatePosition before after with
  | error error =>
      rw [hposition] at h
      cases h
  | ok _ =>
      rw [hposition] at h
      cases hindex : findCellIndex cells cellId with
      | error error =>
          rw [hindex] at h
          cases h
      | ok index =>
          rw [hindex] at h
          cases htarget : resolveInsertIndex (cells.eraseIdx index) before after with
          | error error =>
              simp only [bind, Except.bind, htarget] at h
              cases h
          | ok target =>
              simp only [bind, Except.bind, htarget] at h
              obtain rfl := Except.ok.inj h
              refine ⟨fun hempty => ?_, _, rfl⟩
              have hlen := congrArg List.length hempty
              rw [assignPositionKeys, List.length_mapIdx,
                List.length_insertIdx_of_le_length (resolveInsertIndex_le htarget)] at hlen
              cases hlen

/-- The document after a call, whether it returns or raises. -/
def afterCall (lib : YNotebook CellId OutputDict μ) (ycells : List lib.YCell) :
    DocumentCall CellId OutputDict μ → List lib.YCell
  | .insertCell cell before after => (lib.insertCell cell before after ycells).2
  | .replaceCellSource cellId source => (lib.replaceCellSource cellId source ycells).2
  | .clearOutputs cellId => (lib.clearOutputs cellId ycells).2
  | .deleteCell cellId => (lib.deleteCell cellId ycells).2
  | .moveCell cellId before after => (lib.moveCell cellId before after ycells).2

theorem placed_afterCall (hlib : lib.Lawful) (hplaced : lib.Placed ycells)
    (call : DocumentCall CellId OutputDict μ) : lib.Placed (lib.afterCall ycells call) := by
  cases call with
  | insertCell cell before after =>
      exact placed_endEdit hlib hplaced _ fun _ h => placed_beginInsert hlib h
  | replaceCellSource cellId source =>
      exact placed_endEdit hlib hplaced _ fun _ h => placed_beginRewrite hlib h
  | clearOutputs cellId =>
      exact placed_endEdit hlib hplaced _ fun _ h => placed_beginRewrite hlib h
  | deleteCell cellId =>
      rw [afterCall, deleteCell]
      split
      · exact hplaced
      · exact placed_assignPositionKeysYcells hlib _
  | moveCell cellId before after =>
      refine placed_endEdit hlib hplaced _ fun ycells' h => ?_
      obtain ⟨given, hgiven, rfl⟩ := exists_of_map_ok h
      obtain ⟨hne, cells, rfl⟩ := movedCells_assigned hgiven
      exact placed_aset hlib hne _

/-! ## What is reported of a call -/

theorem Edits.of_ok {α : Type} {run : lib.Outcome α} {bad : Prop}
    {spec : List (Cell CellId OutputDict μ) → Prop} (h : Edits run ycells bad spec) {result : α}
    (hrun : run = (.ok result, ycells')) : spec (lib.contents ycells') := by
  have hgood : ¬ bad := by
    intro hbad
    obtain ⟨error, herror⟩ := h.1 hbad
    cases hrun.symm.trans herror
  obtain ⟨result', ycells'', hrun', hspec⟩ := h.2 hgood
  cases hrun.symm.trans hrun'
  exact hspec

theorem exists_of_insertedAt {cell : Cell CellId OutputDict μ} {before after : Option CellId}
    {cells cells' : List (Cell CellId OutputDict μ)}
    (h : InsertedAt cell before after cells cells') :
    ∃ pre post, cells = pre ++ post ∧ cells' = pre ++ cell :: post := by
  cases h with
  | @before _ a pre post h => exact ⟨pre, a :: post, rfl, rfl⟩
  | @after _ a pre post h =>
      refine ⟨pre ++ [a], post, ?_, ?_⟩
      · rw [List.append_assoc, List.singleton_append]
      · rw [List.append_assoc, List.singleton_append]
  | last => exact ⟨cells, [], (List.append_nil _).symm, rfl⟩

/-- What a diff against a snapshot of the document says after each call on it. -/
structure CallsReported (sha256 : String → String) (printable : Char → Bool) (full : Bool)
    (lib : YNotebook CellId OutputDict μ) (ycells : List lib.YCell) (B : List NotebookCell) :
    Prop where
  insertCell : ∀ cell before after result ycells' C, cell.id ∉ ycells.map lib.id →
    lib.insertCell cell before after ycells = (.ok result, ycells') → lib.Reads ycells' C →
      ∃ pre c post, C = pre ++ c :: post ∧ cell.id = some c.id ∧
        Reports sha256 printable full B C
          ((c.id, [.added]) :: post.map fun c => (c.id, [.moved]))
  replaceCellSource : ∀ cellId source result ycells' C, Function.Injective sha256 →
    lib.replaceCellSource cellId source ycells = (.ok result, ycells') → lib.Reads ycells' C →
      ∃ b ∈ B, b.id = cellId ∧
        Reports sha256 printable full B C
          (if b.cellSource = source then [] else [(cellId, [.sourceEdited])])
  clearOutputs : ∀ cellId result ycells' C, Function.Injective sha256 →
    lib.clearOutputs cellId ycells = (.ok result, ycells') → lib.Reads ycells' C →
      ∃ b ∈ B, b.id = cellId ∧ ∃ kinds : List ChangeKind,
        kinds = (if b.outputs = [] then [] else [.outputChanged]) ++
          (if b.executionCount = none then [] else [.executionCount]) ∧
        Reports sha256 printable full B C (if kinds = [] then [] else [(cellId, kinds)])
  deleteCell : ∀ cellId ycells' C,
    lib.deleteCell cellId ycells = (.ok (), ycells') → lib.Reads ycells' C →
      ∃ pre b post, B = pre ++ b :: post ∧ b.id = cellId ∧
        Reports sha256 printable full B C
          (post.map (fun b => (b.id, [.moved])) ++ [(cellId, [.deleted])])
  moveCell : ∀ cellId before after result ycells' C,
    lib.moveCell cellId before after ycells = (.ok result, ycells') → lib.Reads ycells' C →
      Reports sha256 printable full B C
        ((C.zipIdx.filter fun entry => (B.map (·.id))[entry.2]? ≠ some entry.1.id).map
          fun entry => (entry.1.id, [.moved]))

section

variable {sha256 : String → String} {printable : Char → Bool} {full : Bool}

theorem insertCell_reported (hlib : lib.Lawful) (hplaced : lib.Placed ycells)
    (hB : lib.Reads ycells B) (hnodup : (B.map (·.id)).Nodup)
    {cell result : Cell CellId OutputDict μ} {before after : Option CellId}
    (hnew : cell.id ∉ ycells.map lib.id)
    (hrun : lib.insertCell cell before after ycells = (.ok result, ycells'))
    (hC : lib.Reads ycells' C) :
    ∃ pre c post, C = pre ++ c :: post ∧ cell.id = some c.id ∧
      Reports sha256 printable full B C
        ((c.id, [.added]) :: post.map fun c => (c.id, [.moved])) := by
  have hids := (hB.nodup_iff hlib).mpr hnodup
  have hinserted := (insertCell_edits hlib hids cell before after (.inr hnew)).of_ok hrun
  have hplaced' := placed_afterCall hlib hplaced (.insertCell cell before after)
  rw [afterCall, hrun] at hplaced'
  have hnodup' : (C.map (·.id)).Nodup := by
    have hperm := hinserted.perm.map (·.id)
    rw [List.map_cons, map_id_contents, map_id_contents] at hperm
    rw [← hC.nodup_iff hlib, hperm.nodup_iff]
    exact List.nodup_cons.mpr ⟨hnew, hids⟩
  have hpositioned := hB.positioned hplaced
  have hpositioned' := hC.positioned hplaced'
  obtain ⟨pre, post, hcells, hcells'⟩ := exists_of_insertedAt hinserted
  obtain ⟨B₁, B₂, rfl, hB₁, hB₂⟩ := exists_of_forall₂_append (hcells ▸ hB.contents hlib)
  obtain ⟨C₁, c, C₂, rfl, hC₁, hc, hC₂⟩ := exists_of_forall₂_middle (hcells' ▸ hC.contents hlib)
  exact ⟨C₁, c, C₂, rfl, hc.id, reports_inserted (forall₂_sameCell hB₁ hC₁)
    (forall₂_sameCell hB₂ hC₂) hnodup hnodup' hpositioned hpositioned'⟩

theorem deleteCell_reported (hlib : lib.Lawful) (hplaced : lib.Placed ycells)
    (hB : lib.Reads ycells B) (hnodup : (B.map (·.id)).Nodup) {cellId : CellId}
    (hrun : lib.deleteCell cellId ycells = (.ok (), ycells')) (hC : lib.Reads ycells' C) :
    ∃ pre b post, B = pre ++ b :: post ∧ b.id = cellId ∧
      Reports sha256 printable full B C
        (post.map (fun b => (b.id, [.moved])) ++ [(cellId, [.deleted])]) := by
  obtain ⟨cell, hremoved⟩ := (deleteCell_edits hlib cellId).of_ok hrun
  have hplaced' := placed_afterCall hlib hplaced (.deleteCell cellId)
  rw [afterCall, hrun] at hplaced'
  have hpositioned := hB.positioned hplaced
  have hpositioned' := hC.positioned hplaced'
  have hBcells := hB.contents hlib
  have hCcells := hC.contents hlib
  generalize lib.contents ycells = cells at hremoved hBcells
  generalize lib.contents ycells' = cells' at hremoved hCcells
  obtain ⟨hid⟩ := hremoved
  obtain ⟨B₁, b, B₂, rfl, hB₁, hb, hB₂⟩ := exists_of_forall₂_middle hBcells
  obtain ⟨C₁, C₂, rfl, hC₁, hC₂⟩ := exists_of_forall₂_append hCcells
  have h₁ := forall₂_sameCell hB₁ hC₁
  have h₂ := forall₂_sameCell hB₂ hC₂
  obtain rfl : b.id = cellId := Option.some.inj (hb.id.symm.trans hid)
  have hnodup' : ((C₁ ++ C₂).map (·.id)).Nodup := by
    rw [List.map_append, List.map_cons, map_id_same h₁, map_id_same h₂] at hnodup
    rw [List.map_append]
    exact (List.nodup_cons.mp (List.nodup_middle.mp hnodup)).2
  have hmoved : B₂.map (fun b => (b.id, [ChangeKind.moved])) =
      C₂.map fun c => (c.id, [ChangeKind.moved]) := by
    have hids := congrArg (List.map fun id => (id, [ChangeKind.moved])) (map_id_same h₂)
    rwa [List.map_map, List.map_map] at hids
  refine ⟨B₁, b, B₂, rfl, rfl, ?_⟩
  rw [hmoved]
  exact reports_removed h₁ h₂ hnodup hnodup' hpositioned hpositioned'

/-- A call that rewrites one cell is reported by what differs between its two forms. -/
theorem rewrite_reported (hlib : lib.Lawful) (hplaced : lib.Placed ycells)
    (hplaced' : lib.Placed ycells') (hB : lib.Reads ycells B) (hC : lib.Reads ycells' C)
    (hnodup : (B.map (·.id)).Nodup) {cellId : CellId}
    {change : Cell CellId OutputDict μ → Cell CellId OutputDict μ}
    (hchanged : ChangedAt cellId change (lib.contents ycells) (lib.contents ycells'))
    (hid : ∀ cell, (change cell).id = cell.id) :
    ∃ b c i cell, b ∈ B ∧ b.id = cellId ∧ Cell.ReadAs cell b ∧ Cell.ReadAs (change cell) c ∧
      orderOf b i = orderOf c i ∧
      ∀ kinds, changeKindsOf (some (snapshotCell sha256 b i)) (snapshotCell sha256 c i) = kinds →
        Reports sha256 printable full B C (if kinds = [] then [] else [(cellId, kinds)]) := by
  have hpositioned := hB.positioned hplaced
  have hpositioned' := hC.positioned hplaced'
  have hBcells := hB.contents hlib
  have hCcells := hC.contents hlib
  generalize lib.contents ycells = cells at hchanged hBcells
  generalize lib.contents ycells' = cells' at hchanged hCcells
  obtain @⟨cell, pre, post, hcell⟩ := hchanged
  obtain ⟨B₁, b, B₂, rfl, hB₁, hb, hB₂⟩ := exists_of_forall₂_middle hBcells
  obtain ⟨C₁, c, C₂, rfl, hC₁, hc, hC₂⟩ := exists_of_forall₂_middle hCcells
  have h₁ := forall₂_sameCell hB₁ hC₁
  have h₂ := forall₂_sameCell hB₂ hC₂
  have hbc : b.id = c.id := Option.some.inj ((hb.id.symm.trans (hid cell).symm).trans hc.id)
  obtain rfl : b.id = cellId := Option.some.inj (hb.id.symm.trans hcell)
  have hnodup' : ((C₁ ++ c :: C₂).map (·.id)).Nodup := by
    rw [List.map_append, List.map_cons, map_id_same h₁, map_id_same h₂, hbc] at hnodup
    rw [List.map_append, List.map_cons]
    exact hnodup
  refine ⟨b, c, B₁.length, cell, by simp, rfl, hb, hc, ?_, fun kinds hkinds => ?_⟩
  · rw [hpositioned b _ (mem_zipIdx_middle B₁ B₂ b), h₁.length_eq,
      hpositioned' c _ (mem_zipIdx_middle C₁ C₂ c)]
  · exact reports_rewritten h₁ h₂ hbc hnodup hnodup' hpositioned hpositioned' hkinds

/-- Only the hash of the source can differ. -/
theorem replaceCellSource_reported (hsha256 : Function.Injective sha256) (hlib : lib.Lawful)
    (hplaced : lib.Placed ycells) (hB : lib.Reads ycells B) (hnodup : (B.map (·.id)).Nodup)
    {cellId : CellId} {source : Chars} {result : Cell CellId OutputDict μ}
    (hrun : lib.replaceCellSource cellId source ycells = (.ok result, ycells'))
    (hC : lib.Reads ycells' C) :
    ∃ b ∈ B, b.id = cellId ∧
      Reports sha256 printable full B C
        (if b.cellSource = source then [] else [(cellId, [.sourceEdited])]) := by
  have hids := (hB.nodup_iff hlib).mpr hnodup
  have hchanged := (replaceCellSource_edits hlib hids cellId source).of_ok hrun
  have hplaced' := placed_afterCall hlib hplaced (.replaceCellSource cellId source)
  rw [afterCall, hrun] at hplaced'
  obtain ⟨b, c, i, cell, hmem, hid, hb, hc, horder, hreports⟩ :=
    rewrite_reported hlib hplaced hplaced' hB hC hnodup hchanged fun _ => rfl
  have houtputs : outputsJson b = outputsJson c := by
    rw [outputsJson, outputsJson, ← hb.outputs, ← hc.outputs]
  have hcount : b.executionCount = c.executionCount :=
    hb.execution_count.symm.trans hc.execution_count
  have hsource : c.cellSource = source := hc.source.symm
  refine ⟨b, hmem, hid, (hreports _ rfl).of_eq ?_⟩
  simp only [changeKindsOf, snapshotCell, horder, houtputs, hcount, hsource, ne_eq,
    not_true_eq_false, if_false, List.nil_append, List.append_nil, hsha256.eq_iff,
    String.ofList_inj]
  by_cases hsame : b.cellSource = source
  · simp [hsame]
  · simp [hsame]

theorem same_empty_iff (outputs : List OutputDict) :
    Json.Same (.arr (outputs.map fun o => .obj o.members)) (.arr []) ↔ outputs = [] := by
  constructor
  · intro h
    cases h with
    | arr h =>
        cases outputs with
        | nil => rfl
        | cons _ _ => cases h
  · rintro rfl
    exact .arr .nil

theorem clearOutputs_reported (hsha256 : Function.Injective sha256) (hlib : lib.Lawful)
    (hplaced : lib.Placed ycells) (hB : lib.Reads ycells B) (hnodup : (B.map (·.id)).Nodup)
    {cellId : CellId} {result : Cell CellId OutputDict μ}
    (hrun : lib.clearOutputs cellId ycells = (.ok result, ycells')) (hC : lib.Reads ycells' C) :
    ∃ b ∈ B, b.id = cellId ∧ ∃ kinds : List ChangeKind,
      kinds = (if b.outputs = [] then [] else [.outputChanged]) ++
        (if b.executionCount = none then [] else [.executionCount]) ∧
      Reports sha256 printable full B C (if kinds = [] then [] else [(cellId, kinds)]) := by
  have hids := (hB.nodup_iff hlib).mpr hnodup
  have hchanged := (clearOutputs_edits hlib hids cellId).of_ok hrun
  have hplaced' := placed_afterCall hlib hplaced (.clearOutputs cellId)
  rw [afterCall, hrun] at hplaced'
  obtain ⟨b, c, i, cell, hmem, hid, hb, hc, horder, hreports⟩ :=
    rewrite_reported hlib hplaced hplaced' hB hC hnodup hchanged fun _ => rfl
  have houtputs : sha256 (outputsJson b).dumpsSorted = sha256 (outputsJson c).dumpsSorted ↔
      b.outputs = [] := by
    rw [hsha256.eq_iff, Json.dumpsSorted_eq_iff (uniqueKeys_outputsJson b), outputsJson,
      outputsJson, show c.outputs = [] from hc.outputs.symm, List.map_nil, same_empty_iff]
  have hcount : c.executionCount = none := hc.execution_count.symm
  have hsource : b.cellSource = c.cellSource := hb.source.symm.trans hc.source
  refine ⟨b, hmem, hid, _, rfl, hreports _ ?_⟩
  simp only [changeKindsOf, snapshotCell, horder, houtputs, hcount, hsource, ne_eq,
    not_true_eq_false, if_false, List.nil_append, ite_not]

theorem moveCell_reported (hlib : lib.Lawful) (hplaced : lib.Placed ycells)
    (hB : lib.Reads ycells B) (hnodup : (B.map (·.id)).Nodup) {cellId : CellId}
    {before after : Option CellId} {result : Cell CellId OutputDict μ}
    (hrun : lib.moveCell cellId before after ycells = (.ok result, ycells'))
    (hC : lib.Reads ycells' C) :
    Reports sha256 printable full B C
      ((C.zipIdx.filter fun entry => (B.map (·.id))[entry.2]? ≠ some entry.1.id).map
        fun entry => (entry.1.id, [.moved])) := by
  have hids := (hB.nodup_iff hlib).mpr hnodup
  have hmoved := (moveCell_edits hlib hids cellId before after).of_ok hrun
  have hperm := hmoved.perm
  have hplaced' := placed_afterCall hlib hplaced (.moveCell cellId before after)
  rw [afterCall, hrun] at hplaced'
  have hnodup' : (C.map (·.id)).Nodup := by
    have hpermIds := hperm.map (·.id)
    rw [map_id_contents, map_id_contents] at hpermIds
    rw [← hC.nodup_iff hlib, hpermIds.nodup_iff]
    exact hids
  apply reports_places hnodup hnodup' (hB.positioned hplaced) (hC.positioned hplaced')
  · intro c hc
    obtain ⟨x, hx, hxc⟩ := (forall₂_mem (hC.contents hlib)).2 c hc
    obtain ⟨b, hb, hxb⟩ := (forall₂_mem (hB.contents hlib)).1 x (hperm.mem_iff.mp hx)
    exact ⟨b, hb, hxb.sameCell hxc⟩
  · intro b hb
    obtain ⟨x, hx, hxb⟩ := (forall₂_mem (hB.contents hlib)).2 b hb
    obtain ⟨c, hc, hxc⟩ := (forall₂_mem (hC.contents hlib)).1 x (hperm.mem_iff.mpr hx)
    exact List.mem_map.mpr ⟨c, hc, (hxb.sameCell hxc).id.symm⟩

/-! ## Sequences of calls -/

theorem placed_afterCalls (hlib : lib.Lawful) (hplaced : lib.Placed ycells)
    (calls : List (DocumentCall CellId OutputDict μ)) :
    lib.Placed (calls.foldl lib.afterCall ycells) := by
  induction calls generalizing ycells with
  | nil => exact hplaced
  | cons call calls ih => exact ih (placed_afterCall hlib hplaced call)

/-- In a document whose cells have no keys of other places, before or after any calls on it, a diff
against a snapshot says of one more call just what it has done and which cells it has moved. -/
theorem diff_reports_call (sha256 : String → String) (printable : Char → Bool) (full : Bool)
    (hlib : lib.Lawful) (hplaced : lib.Placed ycells)
    (calls : List (DocumentCall CellId OutputDict μ))
    (hB : lib.Reads (calls.foldl lib.afterCall ycells) B) (hnodup : (B.map (·.id)).Nodup) :
    CallsReported sha256 printable full lib (calls.foldl lib.afterCall ycells) B := by
  have hplaced' := placed_afterCalls hlib hplaced calls
  exact
    { insertCell := fun _ _ _ _ _ _ hnew hrun hC =>
        insertCell_reported hlib hplaced' hB hnodup hnew hrun hC
      replaceCellSource := fun _ _ _ _ _ hsha256 hrun hC =>
        replaceCellSource_reported hsha256 hlib hplaced' hB hnodup hrun hC
      clearOutputs := fun _ _ _ _ hsha256 hrun hC =>
        clearOutputs_reported hsha256 hlib hplaced' hB hnodup hrun hC
      deleteCell := fun _ _ _ hrun hC => deleteCell_reported hlib hplaced' hB hnodup hrun hC
      moveCell := fun _ _ _ _ _ _ hrun hC => moveCell_reported hlib hplaced' hB hnodup hrun hC }

private def blankCell (id : CellId) (positionKey : Option String) :
    Cell CellId OutputDict (List String) :=
  ⟨some id, "code", [], [], none, positionKey, []⟩

private theorem no_outputs_unique : ∀ o ∈ ([] : List OutputDict), (Json.obj o.members).UniqueKeys :=
  List.forall_mem_nil _

private def blankNotebookCell (id : CellId) (positionKey : Option String) : NotebookCell :=
  ⟨id, .code, .string [], [], none, positionKey, no_outputs_unique⟩

/-- The hashes of the empty text and of no outputs. -/
private def emptyDigest (text : String) : String :=
  if text = "" then "e3b0c44298fc1c149afbf4c8996fb92427ae41e4649b934ca495991b7852b855"
  else "4f53cda18c2baa0c0354bb5f9a3ecbe5ed12ab4d8e11ba873c2f11161202b945"

/-- The first of two cells has been cleared, and any of the calls comes next. -/
theorem two_cells_reported :
    CallsReported emptyDigest (fun _ => true) false (ofCells CellId OutputDict (List String))
      ([DocumentCall.clearOutputs "a"].foldl (ofCells _ _ _).afterCall
        [blankCell "a" none, blankCell "b" none])
      [blankNotebookCell "a" (some "000000000"), blankNotebookCell "b" (some "000000001")] := by
  refine diff_reports_call emptyDigest _ false (ofCells_lawful _ _ _) ?_ _ ?_ (by decide)
  · rintro ycell i hmem
    rcases List.mem_cons.mp hmem with h | h
    · cases h
      rfl
    · cases List.mem_singleton.mp h
      rfl
  · have hplaced : [DocumentCall.clearOutputs "a"].foldl (ofCells _ _ _).afterCall
        [blankCell "a" none, blankCell "b" none] =
          [blankCell "a" (some "000000000"), blankCell "b" (some "000000001")] := rfl
    rw [hplaced]
    exact .cons ⟨⟨rfl, rfl, rfl, rfl, rfl⟩, rfl⟩ (.cons ⟨⟨rfl, rfl, rfl, rfl, rfl⟩, rfl⟩ .nil)

end

end YNotebook

end Hypernote
