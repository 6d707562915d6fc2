import Hypernote.Writers
import Hypernote.Proofs.ListEdits
import Hypernote.Foundation.Machine
/-!
# Updates lost by a move

`move_cell` writes back the cells that it has read before it was suspended.  What other writers have
done meanwhile is lost with them, unless it has left the cells as they were.
-/

namespace Hypernote

namespace YNotebook

open Foundation

variable {ι ω μ : Type} [DecidableEq ι] {lib : YNotebook ι ω μ}

/-- The document comes from the first one by these writes, in this order, and by reordering its
cells before, between and after them. -/
inductive Effects (lib : YNotebook ι ω μ) (start : List lib.YCell) :
    List (Write ι ω μ) → List lib.YCell → Prop
  | start : Effects lib start [] start
  | write {ws : List (Write ι ω μ)} {ycells : List lib.YCell} (h : Effects lib start ws ycells)
      (w : Write ι ω μ) : Effects lib start (ws ++ [w]) (lib.write w ycells)
  | reorder {ws : List (Write ι ω μ)} {ycells ycells' : List lib.YCell}
      (h : Effects lib start ws ycells)
      (hperm : (lib.contents ycells').Perm (lib.contents ycells)) : Effects lib start ws ycells'

/-- When the suspended move goes on, the document holds the cells that it has read: what others
have written meanwhile has raised or cancels out. -/
def Undisturbed (s : DocumentRoom lib) : WriterEvent ι ω μ → Prop
  | .aset index => ∀ move, s.moves[index]? = some move →
      (lib.contents s.ycells).Perm (move.cells.map Cell.bare)
  | _ => True

/-! ## What is given to `aset` -/

/-- A move gives back the cells that it has read, in another order. -/
theorem movedCells_perm {cells given : List (Cell ι ω μ)} {cellId : ι} {before after : Option ι}
    (h : movedCells cellId before after cells = .ok given) :
    given ≠ [] ∧ (given.map Cell.bare).Perm (cells.map Cell.bare) := by
  unfold movedCells at h
  cases hvalid : validatePosition before after with
  | error error => simp [hvalid, bind, Except.bind] at h
  | ok _ =>
      cases hfind : findCellIndex cells cellId with
      | error error => simp [hvalid, hfind, bind, Except.bind] at h
      | ok index =>
          cases htarget : resolveInsertIndex (cells.eraseIdx index) before after with
          | error error => simp [hvalid, hfind, htarget, bind, Except.bind] at h
          | ok target =>
              simp only [hvalid, hfind, htarget, bind, Except.bind, pure, Except.pure,
                Except.ok.injEq] at h
              subst h
              have hle := resolveInsertIndex_le htarget
              constructor
              · intro hempty
                have hlen := congrArg List.length hempty
                rw [assignPositionKeys, List.length_mapIdx,
                  List.length_insertIdx_of_le_length hle] at hlen
                cases hlen
              · rw [map_bare_assignPositionKeys]
                refine List.Perm.map _ ((List.perm_insertIdx _ _ hle).trans ?_)
                exact List.getElem_cons_eraseIdx_perm index.isLt

/-! ## Runs -/

/-- Every suspended move holds the cells that it has read. -/
def HoldsRead (s : DocumentRoom lib) : Prop :=
  ∀ move ∈ s.moves, move.given ≠ [] ∧
    (move.given.map Cell.bare).Perm (move.cells.map Cell.bare)

theorem holdsRead_step {s s' : DocumentRoom lib} {e : WriterEvent ι ω μ} (hs : HoldsRead s)
    (hstep : lib.writerStep s e = some s') : HoldsRead s' := by
  cases e with
  | write w =>
      cases hstep
      exact hs
  | move cellId before after =>
      simp only [writerStep] at hstep
      split at hstep
      · cases hstep
        exact hs
      · rename_i given hgiven
        cases hstep
        intro move hmove
        rcases List.mem_append.mp hmove with hold | hnew
        · exact hs move hold
        · obtain rfl := List.mem_singleton.mp hnew
          exact movedCells_perm hgiven
  | aset index =>
      obtain ⟨move, hmove, rfl⟩ := Option.map_eq_some_iff.mp hstep
      intro other hother
      exact hs other (List.mem_of_mem_eraseIdx hother)

/-- The move that goes on only reorders the cells if and only if nobody has disturbed it. -/
theorem aset_perm_iff (hlib : lib.Lawful) {s s' : DocumentRoom lib} {index : Nat}
    (hs : HoldsRead s) (hstep : lib.writerStep s (.aset index) = some s') :
    (lib.contents s'.ycells).Perm (lib.contents s.ycells) ↔ Undisturbed s (.aset index) := by
  obtain ⟨move, hmove, rfl⟩ := Option.map_eq_some_iff.mp hstep
  obtain ⟨hne, hperm⟩ := hs move (List.mem_of_getElem? hmove)
  have hgiven : lib.contents (lib.aset move.given s.ycells) = move.given.map Cell.bare := by
    rw [← map_toPy_bare hlib, hlib.map_toPy_aset _ hne]
  simp only [hgiven, Undisturbed, hmove, Option.some.injEq, forall_eq']
  rw [hperm.congr_left]
  exact List.perm_comm

theorem effects_step (hlib : lib.Lawful) {start : List lib.YCell} {ws : List (Write ι ω μ)}
    {s s' : DocumentRoom lib} {e : WriterEvent ι ω μ} (hs : HoldsRead s)
    (heffects : Effects lib start ws s.ycells) (hundisturbed : Undisturbed s e)
    (hstep : lib.writerStep s e = some s') :
    Effects lib start (ws ++ lib.written s e) s'.ycells := by
  cases e with
  | write w =>
      cases hstep
      exact heffects.write w
  | move cellId before after =>
      simp only [writerStep] at hstep
      rw [show lib.written s (.move cellId before after) = [] from rfl, List.append_nil]
      split at hstep <;> cases hstep <;> exact heffects
  | aset index =>
      rw [show lib.written s (.aset index) = [] from rfl, List.append_nil]
      exact heffects.reorder ((aset_perm_iff hlib hs hstep).mpr hundisturbed)

/-- A move loses no update if nobody disturbs it, and only then does it reorder the cells and no
more. -/
theorem undisturbed_moves_keep_updates (hlib : lib.Lawful) (start : List lib.YCell) :
    (∀ s ws, Run (observed lib.writerStep lib.written) (fun p => Undisturbed p.1)
        (⟨start, []⟩, []) (s, ws) → Effects lib start ws s.ycells) ∧
      ∀ s, Run lib.writerStep anyStep ⟨start, []⟩ s → ∀ index s',
        lib.writerStep s (.aset index) = some s' →
          ((lib.contents s'.ycells).Perm (lib.contents s.ycells) ↔
            Undisturbed s (.aset index)) := by
  have hstart : HoldsRead (⟨start, []⟩ : DocumentRoom lib) := fun _ hmove => nomatch hmove
  constructor
  · intro s ws hrun
    have hinv : HoldsRead s ∧ Effects lib start ws s.ycells := by
      refine hrun.invariant (I := fun p => HoldsRead p.1 ∧ Effects lib start p.2 p.1.ycells)
        ⟨hstart, .start⟩ ?_
      rintro ⟨s, ws⟩ e p ⟨hs, heffects⟩ hundisturbed hstep
      obtain ⟨s', hnext, rfl⟩ := observed_eq_some.mp hstep
      exact ⟨holdsRead_step hs hnext, effects_step hlib hs heffects hundisturbed hnext⟩
    exact hinv.2
  · intro s hrun index s' hstep
    have hs : HoldsRead s := hrun.invariant hstart fun _ _ _ hs _ => holdsRead_step hs
    exact aset_perm_iff hlib hs hstep

/-! ## A lost update -/

theorem Effects.of_nil {start ycells : List lib.YCell} (h : Effects lib start [] ycells) :
    (lib.contents ycells).Perm (lib.contents start) := by
  generalize hws : ([] : List (Write ι ω μ)) = ws at h
  induction h with
  | start => exact .refl _
  | write _ w _ => exact absurd hws.symm (by simp)
  | reorder _ hperm ih => exact hperm.trans (ih hws)

theorem Effects.of_single {start ycells : List lib.YCell} {w : Write ι ω μ}
    (h : Effects lib start [w] ycells) :
    ∃ before, (lib.contents before).Perm (lib.contents start) ∧
      (lib.contents ycells).Perm (lib.contents (lib.write w before)) := by
  generalize hws : [w] = ws at h
  induction h with
  | start => cases hws
  | @write ws before h w' _ =>
      obtain ⟨rfl, hlast⟩ := List.append_inj' (show [] ++ [w] = ws ++ [w'] from hws) rfl
      cases hlast
      exact ⟨before, h.of_nil, .refl _⟩
  | reorder _ hperm ih =>
      obtain ⟨before, hbefore, hwritten⟩ := ih hws
      exact ⟨before, hbefore, hperm.trans hwritten⟩

/-- A source that has been replaced is there. -/
theorem Effects.source_mem (hlib : lib.Lawful) {start ycells : List lib.YCell} {cellId : ι}
    {source : Chars} (h : Effects lib start [.replaceCellSource cellId source] ycells)
    (hid : some cellId ∈ (lib.contents start).map (·.id)) :
    source ∈ (lib.contents ycells).map (·.source) := by
  obtain ⟨before, hbefore, hwritten⟩ := h.of_single
  rw [← (hbefore.map _).mem_iff] at hid
  rw [map_id_contents] at hid
  obtain ⟨after, hbegin, hchanged⟩ :=
    beginRewrite_ok hlib (fun cell => { cell with source := source }) (fun _ => rfl) hid
  have hwrite : lib.write (.replaceCellSource cellId source) before = after := by
    rw [YNotebook.write, beginReplaceCellSource, hbegin]
    rfl
  rw [hwrite] at hwritten
  rw [(hwritten.map _).mem_iff]
  generalize lib.contents before = cells at hchanged
  generalize lib.contents after = cells' at hchanged
  obtain ⟨_⟩ := hchanged
  rw [List.map_append, List.map_cons]
  exact List.mem_append_right _ List.mem_cons_self

instance (s : DocumentRoom (ofCells String String (List String))) (e : WriterEvent String String (List String)) :
    Decidable (Undisturbed s e) :=
  match e with
  | .aset index => inferInstanceAs (Decidable (∀ move, s.moves[index]? = some move → _))
  | .write _ => .isTrue trivial
  | .move _ _ _ => .isTrue trivial

/-- A document with the cells "a" and "b". -/
private def twoCells : List (ofCells String String (List String)).YCell :=
  [codeCell (some "a") ['1'], codeCell (some "b") ['2']]

/-- "a" is moved behind "b", whose source is replaced before the move or while it is suspended. -/
private def movedBehind (early : Bool) : List (WriterEvent String String (List String)) :=
  let replace := .write (.replaceCellSource "b" ['3'])
  if early then [replace, .move "a" none (some "b"), .aset 0]
  else [.move "a" none (some "b"), replace, .aset 0]

private def exchanged (source : Chars) : DocumentRoom (ofCells String String (List String)) where
  ycells :=
    [{ codeCell (some "b") source with positionKey := some "000000000" },
      { codeCell (some "a") ['1'] with positionKey := some "000000001" }]
  moves := []

/-- A source replaced before the move is still there after it. -/
theorem early_source_kept :
    Effects (ofCells String String (List String)) twoCells [.replaceCellSource "b" ['3']]
      (exchanged ['3']).ycells := by
  have hexec : exec (observed (ofCells String String (List String)).writerStep
      (ofCells String String (List String)).written) (⟨twoCells, []⟩, []) (movedBehind true) =
      some (exchanged ['3'], [.replaceCellSource "b" ['3']]) := rfl
  refine (undisturbed_moves_keep_updates (ofCells_lawful String String (List String)) twoCells).1 _ _
    (guarded_run_of_exec hexec ?_)
  rfl

/-- A source replaced while the move is suspended is lost. -/
theorem late_source_lost :
    ∃ s ws, Run (observed (ofCells String String (List String)).writerStep
        (ofCells String String (List String)).written) anyStep (⟨twoCells, []⟩, []) (s, ws) ∧
      s.moves = [] ∧ ¬ Effects (ofCells String String (List String)) twoCells ws s.ycells := by
  have hexec : exec (observed (ofCells String String (List String)).writerStep
      (ofCells String String (List String)).written) (⟨twoCells, []⟩, []) (movedBehind false) =
      some (exchanged ['2'], [.replaceCellSource "b" ['3']]) := rfl
  refine ⟨_, _, run_of_exec hexec, rfl, fun heffects => ?_⟩
  have hmem := heffects.source_mem (ofCells_lawful String String (List String)) (by decide)
  exact absurd hmem (by decide)

end YNotebook

end Hypernote
