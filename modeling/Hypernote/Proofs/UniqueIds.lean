import Hypernote.CellHandlers
import Hypernote.Proofs.ListEdits
/-!
# The ids of the cells

The handler that inserts a cell takes its id from the body as it is.  An id in use is no harm: when
the cell is looked up again, one of the cells with the id gets a new one.  So the ids stay distinct
and non-null exactly as long as no cell is inserted without an id.
-/

namespace Hypernote

namespace YNotebook

open Foundation

variable {ι ω μ : Type} {lib : YNotebook ι ω μ} {ycells ycells' : List lib.YCell}

/-- All ids are distinct and non-null. -/
def UniqueIds (lib : YNotebook ι ω μ) (ycells : List lib.YCell) : Prop :=
  (ycells.map lib.id).Nodup ∧ none ∉ ycells.map lib.id

instance [DecidableEq ι] (ycells : List lib.YCell) : Decidable (lib.UniqueIds ycells) :=
  inferInstanceAs (Decidable (_ ∧ _))

/-- A cell is inserted with an id, or not at all. -/
def HasId (lib : YNotebook ι ω μ) (ycells : List lib.YCell) : CellRequest ι μ → Prop
  | .post body => BadAnchor (ycells.map lib.id) body.before body.after ∨ body.id ≠ none
  | _ => True

/-- The document after a call: as it was, or edited. -/
theorem Edits.document {α : Type} {run : lib.Outcome α} {bad : Prop}
    {spec : List (Cell ι ω μ) → Prop} (h : Edits run ycells bad spec) :
    bad ∧ run.2 = ycells ∨ ¬ bad ∧ spec (lib.contents run.2) := by
  by_cases hbad : bad
  · obtain ⟨error, hrun⟩ := h.1 hbad
    exact .inl ⟨hbad, congrArg Prod.snd hrun⟩
  · obtain ⟨result, ycells', hrun, hspec⟩ := h.2 hbad
    exact .inr ⟨hbad, hrun ▸ hspec⟩

theorem UniqueIds.of_subperm (h : lib.UniqueIds ycells)
    (hsub : ((lib.contents ycells').map (·.id)).Subperm ((lib.contents ycells).map (·.id))) :
    lib.UniqueIds ycells' := by
  rw [map_id_contents, map_id_contents] at hsub
  obtain ⟨ids, hperm, hsub⟩ := hsub
  exact ⟨hperm.nodup_iff.mp (h.1.sublist hsub), fun hnone => h.2 (hsub.mem (hperm.mem_iff.mpr hnone))⟩

/-! ## One request -/

section

variable [DecidableEq ι]

theorem endRewrite_uniqueIds (hlib : lib.Lawful) (h : lib.UniqueIds ycells) (cellId : ι)
    {change : Cell ι ω μ → Cell ι ω μ} (hid : ∀ cell, (change cell).id = cell.id)
    (hbare : ∀ cell, (change cell).bare = change cell.bare) :
    lib.UniqueIds
      (lib.endEdit (some cellId) ycells (lib.beginRewrite cellId change ycells)).2 := by
  rcases (endRewrite_edits hlib h.1 cellId hid hbare).document with ⟨-, hsame⟩ | ⟨-, hchanged⟩
  · rw [hsame]
    exact h
  · exact h.of_subperm (List.Perm.of_eq (hchanged.ids_eq hid)).subperm

theorem deleteCell_uniqueIds (hlib : lib.Lawful) (h : lib.UniqueIds ycells) (cellId : ι) :
    lib.UniqueIds (lib.deleteCell cellId ycells).2 := by
  have hedits : Edits (lib.deleteCell cellId ycells) ycells _ _ := deleteCell_edits hlib cellId
  rcases hedits.document with ⟨-, hsame⟩ | ⟨-, cell, hremoved⟩
  · rw [hsame]
    exact h
  · have hsub := (hremoved.perm.map (·.id)).symm.subperm
    exact h.of_subperm ((List.sublist_cons_self _ _).subperm.trans hsub)

theorem moveCell_uniqueIds (hlib : lib.Lawful) (h : lib.UniqueIds ycells) (cellId : ι)
    (before after : Option ι) : lib.UniqueIds (lib.moveCell cellId before after ycells).2 := by
  rcases (moveCell_edits hlib h.1 cellId before after).document with ⟨-, hsame⟩ | ⟨-, hmoved⟩
  · rw [hsame]
    exact h
  · exact h.of_subperm (hmoved.perm.map _).subperm

/-- After the insertion all cells are read, and of the cells with one id the first one keeps it. -/
theorem insertCell_uniqueIds_iff (hlib : lib.Lawful) (h : lib.UniqueIds ycells)
    (cell : Cell ι ω μ) (before after : Option ι) :
    lib.UniqueIds (lib.insertCell cell before after ycells).2 ↔
      BadAnchor (ycells.map lib.id) before after ∨ cell.id ≠ none := by
  by_cases hbad : BadAnchor (ycells.map lib.id) before after
  · rw [← map_id_toPy hlib] at hbad
    obtain ⟨error, herror⟩ := beginInsert_error cell hbad
    rw [insertCell, herror, ← map_id_toPy hlib]
    exact iff_of_true h (.inl hbad)
  · obtain ⟨begun, hbegin, hinserted⟩ := beginInsert_ok hlib cell hbad
    have hids := hinserted.perm.map (·.id)
    rw [List.map_cons, map_id_contents, map_id_contents] at hids
    have hnull : none ∈ begun.map lib.id ↔ cell.id = none := by
      rw [hids.mem_iff, List.mem_cons, or_iff_left h.2]
      exact eq_comm
    have hrenamed := hlib.renamed_aget rfl begun
    have hkept := hrenamed.none_mem_iff List.not_mem_nil
    rw [or_iff_right hbad, insertCell, hbegin]
    constructor
    · exact fun hunique hid => hunique.2 (hkept.mpr (hnull.mpr hid))
    · exact fun hid => ⟨hrenamed.map_nodup List.not_mem_nil (mt hnull.mp hid),
        mt hkept.mp (mt hnull.mp hid)⟩

omit [DecidableEq ι] in
@[simp] theorem answered_ycells (errorStatus status : Nat) (cellId : Cell ι ω μ → Option ι)
    (run : lib.Outcome (Cell ι ω μ)) :
    (lib.answered errorStatus status cellId run).ycells = run.2 := by
  obtain ⟨error | cell, ycells⟩ := run <;> rfl

variable [EmptyCollection μ]

/-- A request keeps the ids distinct and non-null exactly if it does not insert a cell without an
id. -/
theorem handle_uniqueIds_iff (hlib : lib.Lawful) (h : lib.UniqueIds ycells)
    (request : CellRequest ι μ) :
    lib.UniqueIds (lib.handle ycells request).ycells ↔ lib.HasId ycells request := by
  cases request with
  | post body =>
      rw [handle, answered_ycells]
      exact insertCell_uniqueIds_iff hlib h body.cell body.before body.after
  | patch cellId source =>
      refine iff_of_true ?_ trivial
      cases source with
      | none => exact h
      | some source =>
          rw [handle, answered_ycells]
          exact endRewrite_uniqueIds hlib h cellId (fun _ => rfl) fun _ => rfl
  | delete cellId =>
      refine iff_of_true ?_ trivial
      have hdeleted := deleteCell_uniqueIds hlib h cellId
      rw [handle]
      generalize lib.deleteCell cellId ycells = run at hdeleted
      obtain ⟨error | _, ycells'⟩ := run <;> exact hdeleted
  | move cellId before after =>
      refine iff_of_true ?_ trivial
      rw [handle, answered_ycells]
      exact moveCell_uniqueIds hlib h cellId before after
  | clearOutputs cellId =>
      refine iff_of_true ?_ trivial
      rw [handle, answered_ycells]
      exact endRewrite_uniqueIds hlib h cellId (fun _ => rfl) fun _ => rfl

/-! ## All requests -/

theorem handleAll_concat (requests : List (CellRequest ι μ)) (request : CellRequest ι μ) :
    lib.handleAll (requests ++ [request]) ycells =
      (lib.handle (lib.handleAll requests ycells) request).ycells := by
  rw [handleAll, List.foldl_append]
  rfl

theorem ids_unique_iff_given (hlib : lib.Lawful) {start : List lib.YCell}
    (hstart : lib.UniqueIds start) (requests : List (CellRequest ι μ)) :
    (∀ done, done <+: requests → lib.UniqueIds (lib.handleAll done start)) ↔
      ∀ done request, done ++ [request] <+: requests →
        lib.HasId (lib.handleAll done start) request := by
  constructor
  · intro hunique done request hpre
    rw [← handle_uniqueIds_iff hlib (hunique done ((List.prefix_append _ _).trans hpre)),
      ← handleAll_concat]
    exact hunique _ hpre
  · intro hgiven done
    induction done using List.reverseRecOn with
    | nil => exact fun _ => hstart
    | append_singleton done request ih =>
        intro hpre
        rw [handleAll_concat,
          handle_uniqueIds_iff hlib (ih ((List.prefix_append _ _).trans hpre))]
        exact hgiven done request hpre

end

/-! ## Given ids -/

/-- A body with nothing but the id. -/
def bodyWithId (id : Option String) : PostBody String (List String) where
  cellType := none
  id := id
  source := none
  metadata := none
  before := none
  after := none

/-- An id may be used again, also while its cell is still there. -/
theorem reinserted_ids_unique :
    (ofCells String String (List String)).UniqueIds
      ((ofCells String String (List String)).handleAll
        [.post (bodyWithId (some "a")), .post (bodyWithId (some "a")), .delete "a",
          .post (bodyWithId (some "a"))] []) := by
  refine (ids_unique_iff_given (ofCells_lawful String String (List String)) (by decide) _).mpr ?_ _
    (List.prefix_refl _)
  rintro done request ⟨rest, hdone⟩
  have hmem : request ∈ [CellRequest.post (bodyWithId (some "a")), .post (bodyWithId (some "a")),
      .delete "a", .post (bodyWithId (some "a"))] :=
    hdone ▸ List.mem_append_left _ (List.mem_append_right _ List.mem_cons_self)
  have hid : (bodyWithId (some "a")).id ≠ none := Option.some_ne_none "a"
  simp only [List.mem_cons, List.not_mem_nil, or_false] at hmem
  rcases hmem with rfl | rfl | rfl | rfl
  · exact .inr hid
  · exact .inr hid
  · exact trivial
  · exact .inr hid

/-- No id. -/
theorem missing_id_not_unique :
    ¬ (ofCells String String (List String)).UniqueIds
        ((ofCells String String (List String)).handleAll [.post (bodyWithId none)] []) := by
  decide

end YNotebook

end Hypernote
