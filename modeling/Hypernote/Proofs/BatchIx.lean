import Hypernote.Proofs.IxLoop
/-!
# The report of a batch

`ix` finds the cell that it has inserted by its id, reads its type, runs it and puts the next cell
after it.  It does to the notebook what it reports exactly if the requests can be sent, the ids of
the payload lead to the cells that were inserted, the notebook has ids at all, and the command does
not show the first of no cells.
-/

namespace Hypernote

open Foundation

namespace Ix

section

variable {ω μ : Type} {lib : YNotebook IdValue ω μ} {B : Builtins} {flags : Flags}
  {session session' : Session lib} {cell : PlannedCell lib} {cells : List (PlannedCell lib)}
  {state' : LoopState lib} {job : Option JobStatus} {before after : Option IdValue}
  {keys pre post pre' post' : List (CellKey IdValue)} {ycells : List lib.YCell}

/-! ## The cells that were inserted -/

/-- Cells whose ids lead to them keep these ids. -/
theorem keys_of_legible (h : Legible B pre cells)
    (hids : ∀ cell ∈ cells, lib.NeverNew (cell.cellId B))
    {seen : List (Option IdValue)} (hseen : ∀ id, some id ∈ seen → some id ∈ pre.map Prod.fst)
    (halike : Alike Prod.fst Prod.snd lib.NeverNew seen (cells.map (·.key B) ++ post) keys) :
    ∃ post', keys = cells.map (·.key B) ++ post' ∧ post'.map Prod.snd = post.map Prod.snd := by
  induction cells generalizing pre seen keys with
  | nil => exact ⟨keys, rfl, halike.map_eq.symm⟩
  | cons cell rest ih =>
      obtain ⟨hnever, hids⟩ := List.forall_mem_cons.mp hids
      cases halike with
      | same halike =>
          have hseen' : ∀ id, some id ∈ (cell.key B).1 :: seen →
              some id ∈ (pre ++ [cell.key B]).map Prod.fst := by
            intro id hid
            rw [List.map_append, List.mem_append]
            rcases List.mem_cons.mp hid with heq | hid
            · exact .inr (heq ▸ List.mem_cons_self)
            · exact .inl (hseen id hid)
          obtain ⟨post', rfl, hpost⟩ := ih h.2 hids hseen' halike
          exact ⟨post', rfl, hpost⟩
      | differ _ ha _ _ =>
          -- The cell would have lost its id to one before it.
          obtain ⟨key, hkey, hid⟩ := List.mem_map.mp (hseen _ (ha _ hnever rfl))
          exact absurd hid (h.1.2 key hkey)

theorem keys_of_shows (h : Legible B pre cells)
    (hids : ∀ cell ∈ cells, lib.NeverNew (cell.cellId B))
    (hshows : lib.Shows (pre ++ cells.map (·.key B) ++ post) ycells) :
    ∃ pre' post', lib.keys ycells = pre' ++ cells.map (·.key B) ++ post' ∧
      pre'.map Prod.snd = pre.map Prod.snd ∧ post'.map Prod.snd = post.map Prod.snd := by
  rw [List.append_assoc] at hshows
  obtain ⟨pre', ys, hkeys, hpre, halike⟩ := Alike.append hshows
  obtain ⟨post', rfl, hpost⟩ := keys_of_legible h hids
    (fun id hid => (List.mem_append.mp hid).resolve_right List.not_mem_nil) halike
  exact ⟨pre', post', by rw [hkeys, List.append_assoc], hpre, hpost⟩

/-- Where no id is repeated, an id is found where it stands. -/
theorem firstAt_of_nodup {key : CellKey IdValue} {id : IdValue}
    (hnodup : (keysOf Prod.fst (pre ++ key :: post)).Nodup) (hid : key.1 = some id) :
    FirstAt id (pre ++ key :: post) key pre.length := by
  refine Hypernote.firstAt_new hid fun other hother heq => ?_
  rw [keysOf, List.map_append, List.reduceOption_append, List.nodup_append] at hnodup
  have hmem : id ∈ keysOf Prod.fst pre := mem_keysOf.mpr (List.mem_map.mpr ⟨other, hother, heq⟩)
  have hmem' : id ∈ keysOf Prod.fst (key :: post) :=
    mem_keysOf.mpr (List.mem_map.mpr ⟨key, List.mem_cons_self, hid⟩)
  exact hnodup.2.2 id hmem id hmem' rfl

/-- Only a cell whose id leads to it has kept this id. -/
theorem legible_of_led (hlib : lib.Lawful) (h : Led B pre cells)
    (hids : ∀ cell ∈ cells, lib.NeverNew (cell.cellId B))
    (hshows : lib.Shows (pre ++ cells.map (·.key B) ++ post) ycells) (hread : lib.Read ycells)
    (hkeys : lib.keys ycells = pre' ++ cells.map (·.key B) ++ post')
    (hpre : pre'.map Prod.snd = pre.map Prod.snd) : Legible B pre cells := by
  induction cells generalizing pre pre' with
  | nil => exact trivial
  | cons cell rest ih =>
      obtain ⟨hnever, hids⟩ := List.forall_mem_cons.mp hids
      rw [List.map_cons, List.append_assoc, List.cons_append] at hshows hkeys
      have hnew : cell.New B pre := by
        by_contra hrepeated
        obtain ⟨key, index, hfirst⟩ := PlannedCell.exists_firstAt hrepeated
        have hlt := hfirst.lt_length
        have hlength : pre'.length = pre.length := by simpa using congrArg List.length hpre
        have hfirst' := hshows.firstAt hnever (hfirst.append _)
        have hnodup := hread.nodup hlib
        rw [keysOf_congr (lib.map_fst_keys ycells), hkeys] at hnodup
        rw [hkeys] at hfirst'
        obtain ⟨-, hindex⟩ := hfirst'.unique (firstAt_of_nodup hnodup rfl)
        omega
      refine ⟨⟨h.1.1, hnew⟩, ?_⟩
      rcases h.2 with rfl | ⟨-, hled⟩
      · exact trivial
      · have hshows' : lib.Shows (pre ++ [cell.key B] ++ rest.map (·.key B) ++ post) ycells := by
          rw [List.append_assoc, List.append_assoc]
          exact hshows
        have hkeys' : lib.keys ycells = pre' ++ [cell.key B] ++ rest.map (·.key B) ++ post' := by
          rw [hkeys, List.append_assoc, List.append_assoc, List.singleton_append]
        have hpre' : (pre' ++ [cell.key B]).map Prod.snd = (pre ++ [cell.key B]).map Prod.snd := by
          rw [List.map_append, List.map_append, hpre]
        exact ih hled hids hshows' hkeys' hpre'

/-! ## The report -/

theorem readType_of_led (hlib : lib.Lawful) (hnever : lib.NeverNew (cell.cellId B))
    (h : cell.Led B pre) (hhas : session.Has (pre ++ cell.key B :: post)) :
    ∃ type, session.readType (cell.cellId B) = .ok (type, session) := by
  obtain ⟨⟨-, id, hid, hrouted⟩, hcell⟩ := h
  have hfirst : ∃ key index type,
      FirstAt (cell.cellId B) (pre ++ cell.key B :: post) key index ∧
        CellType.ofValue? key.2.1 = some type := by
    rcases hcell with hnew | ⟨-, key, index, type, hfirst, htype, -⟩
    · exact ⟨_, _, _, PlannedCell.firstAt_new hnew, ofValue?_specType _⟩
    · exact ⟨_, _, _, hfirst.append _, htype⟩
  obtain ⟨key, index, type, hfirst, htype⟩ := hfirst
  rw [hid] at hnever hfirst ⊢
  exact ⟨type, by rw [hhas.readType hlib hnever hrouted hfirst, htype]⟩

theorem readResults_of_led (hlib : lib.Lawful) (h : Led B pre cells)
    (hids : ∀ cell ∈ cells, lib.NeverNew (cell.cellId B))
    (hhas : session.Has (pre ++ cells.map (·.key B) ++ post)) :
    ∃ results, readResults session (cells.map (·.cellId B)) = .ok (session, results) := by
  induction cells generalizing pre with
  | nil => exact ⟨[], rfl⟩
  | cons cell rest ih =>
      obtain ⟨hnever, hids⟩ := List.forall_mem_cons.mp hids
      rw [List.map_cons, List.append_assoc, List.cons_append] at hhas
      obtain ⟨type, htype⟩ := readType_of_led hlib hnever h.1 hhas
      have hrest : ∃ results,
          readResults session (rest.map (·.cellId B)) = .ok (session, results) := by
        rcases h.2 with rfl | ⟨-, hled⟩
        · exact ⟨[], rfl⟩
        · apply ih hled hids
          rw [List.append_assoc, List.append_assoc, List.singleton_append]
          exact hhas
      obtain ⟨results, hresults⟩ := hrest
      refine ⟨(cell.cellId B, type) :: results, ?_⟩
      rw [List.map_cons, readResults, htype]
      simp only [bind, Except.bind, hresults]
      rfl

/-- The cells that the command handles are the first ones. -/
theorem handled_initial : handled flags batch cells <+: cells := by
  induction cells with
  | nil => exact List.prefix_rfl
  | cons cell rest ih =>
      rw [handled, List.cons_prefix_cons]
      refine ⟨rfl, ?_⟩
      split
      · exact List.nil_prefix
      · exact ih

/-- The report says how far the command has come. -/
def TruthfulReport (total done : Nat) (failed : Prop) (report : BatchReport) : Prop :=
  report.cellsTotal = total ∧ report.cellsInserted = done ∧
    report.cellsInserted + report.halt.elim 0 Halt.cellsRemaining = report.cellsTotal ∧
    (report.halt.isSome = true ↔ done < total) ∧ (report.status = "error" ↔ failed)

theorem Done.truthfulReport {session : Session lib} (hne : cells ≠ [])
    (h : Done B flags pre post cells ⟨session, [], none, none⟩ state')
    (results : List (IdValue × CellType)) :
    TruthfulReport cells.length (handled flags true cells).length
      (SomeFailed flags true (handled flags true cells))
      (batchReport cells.length state' results) := by
  have hlength : state'.insertedCells.length = (handled flags true cells).length := by
    rw [h.inserted, List.nil_append, List.length_map]
  have hle : (handled flags true cells).length ≤ cells.length := handled_initial.length_le
  have hlast : state'.insertedCells.getLast?.isSome = true := by
    rw [List.getLast?_isSome, h.inserted, List.nil_append]
    intro hnil
    exact hne (handled_eq_nil.mp (List.map_eq_nil_iff.mp hnil))
  obtain ⟨last, hlast⟩ := Option.isSome_iff_exists.mp hlast
  refine ⟨rfl, hlength, ?_, ?_, ?_⟩
  · have hhalted := h.halted
    simp only [batchReport, hlast]
    cases hreason : state'.haltReason with
    | none =>
        rw [hreason] at hhalted
        have hall := mt hhalted.mpr Bool.false_ne_true
        simp only [Option.elim]
        omega
    | some reason =>
        simp only [Option.elim]
        omega
  · rw [← h.halted]
    simp only [batchReport, hlast]
    cases state'.haltReason <;> rfl
  · rw [← h.failed]
    simp only [batchReport]
    cases jobFailed state'.finalJob <;> decide

/-! ## The end of the command -/

/-- The session that a call leaves, however it ends. -/
def leftBy {α : Type} (sessionOf : α → Session lib) : Except (Failure lib) α → Session lib
  | .error failure => failure.session
  | .ok a => sessionOf a

/-- Reading the type of a cell changes no more than ids. -/
theorem Session.readType_acts (session : Session lib) (cellId : IdValue) :
    (leftBy Prod.snd (session.readType cellId)).acts = session.acts := by
  cases cellId with
  | other hashable shown => rfl
  | text id =>
      rw [readType]
      split
      · dsimp only
        split
        · split <;> rfl
        · rfl
      · rfl

theorem readResults_acts (session : Session lib) (cellIds : List IdValue) :
    (leftBy Prod.fst (readResults session cellIds)).acts = session.acts := by
  induction cellIds generalizing session with
  | nil => rfl
  | cons cellId cellIds ih =>
      have hacts := session.readType_acts cellId
      rw [readResults]
      cases htype : session.readType cellId with
      | error failure =>
          rw [htype] at hacts
          exact hacts
      | ok found =>
          obtain ⟨type, next⟩ := found
          rw [htype] at hacts
          have hrest := ih next
          simp only [bind, Except.bind]
          cases hresults : readResults next cellIds with
          | error failure =>
              rw [hresults] at hrest
              exact hrest.trans hacts
          | ok found =>
              rw [hresults] at hrest
              exact hrest.trans hacts

theorem conclude_left (flags : Flags) (total : Nat) (state : LoopState lib) :
    (conclude flags total state).session = state.session ∨
      (conclude flags total state).session =
        leftBy Prod.fst (readResults state.session state.insertedCells) := by
  rw [conclude]
  cases readResults state.session state.insertedCells with
  | error failure =>
      split
      · exact .inr rfl
      · split
        · exact .inl rfl
        · exact .inr rfl
  | ok found =>
      split
      · exact .inr rfl
      · split
        · exact .inl rfl
        · exact .inr rfl

theorem conclude_acts (total : Nat) (state : LoopState lib) :
    (conclude flags total state).session.acts = state.session.acts := by
  rcases conclude_left flags total state with h | h
  · rw [h]
  · rw [h, readResults_acts]

/-- Nothing changes at all where all cells have been read before. -/
theorem conclude_session {total : Nat} {state : LoopState lib}
    {results : List (IdValue × CellType)}
    (h : readResults state.session state.insertedCells = .ok (state.session, results)) :
    (conclude flags total state).session = state.session := by
  rcases conclude_left flags total state with hleft | hleft
  · exact hleft
  · rw [hleft, h]
    rfl

/-- The command shows the id of the first cell that it has inserted. -/
def Flags.RendersHuman (flags : Flags) : Prop :=
  flags.brief = false ∧ flags.pretty = false ∧ flags.finalOutputMode = .ok .human

theorem Flags.exists_finalOutputMode {mode : OutputMode} (h : flags.runOutputMode = .ok mode) :
    ∃ final, flags.finalOutputMode = .ok final := by
  by_cases hboth : (flags.json && flags.human) = true
  · obtain ⟨hjson, hhuman⟩ := Bool.and_eq_true_iff.mp hboth
    simp only [runOutputMode, hjson, hhuman] at h
    cases hstream : flags.streamJson <;> cases hwatch : flags.watch <;> simp [hstream, hwatch] at h
  · rw [finalOutputMode, if_neg hboth]
    split
    · exact ⟨_, rfl⟩
    · split
      · exact ⟨_, rfl⟩
      · exact ⟨_, rfl⟩

theorem renderInserted_eq {mode : OutputMode} (h : flags.runOutputMode = .ok mode)
    (inserted : List IdValue) :
    renderInserted flags inserted = .exit 0 ↔ (inserted = [] → ¬ flags.RendersHuman) := by
  obtain ⟨final, hfinal⟩ := flags.exists_finalOutputMode h
  rw [renderInserted, Flags.RendersHuman, hfinal]
  cases flags.brief <;> cases flags.pretty <;> cases final <;> cases inserted <;> simp

/-- With one cell whose job has not failed the exit code is 0. -/
theorem conclude_single (hflags : flags.Admitted false) {results : List (IdValue × CellType)}
    (h : readResults session' [cell.cellId B] = .ok (session', results)) :
    (conclude flags 1 (LoopState.turned ⟨⟨ycells, []⟩, [], none, none⟩ session' (cell.cellId B)
      job)).ending = .exit 0 := by
  rw [conclude, if_neg (Nat.lt_irrefl 1)]
  cases job with
  | some status => rfl
  | none =>
      obtain ⟨mode, hmode⟩ := hflags.2 rfl
      have hrender := (renderInserted_eq hmode [cell.cellId B]).mpr fun h => nomatch h
      simp only [LoopState.turned, List.nil_append, h, hrender]
      rfl

/-! ## All of the command -/

/-- The command is for several cells. -/
abbrev isBatch (cells : List (PlannedCell lib)) : Bool := decide (1 < cells.length)

/-- The cells that the command should handle. -/
def handledCells (flags : Flags) (cells : List (PlannedCell lib)) : List (PlannedCell lib) :=
  handled flags (isBatch cells) cells

/-- The job of a cell that the command should handle is failed or interrupted. -/
def HasFailed (flags : Flags) (cells : List (PlannedCell lib)) : Prop :=
  SomeFailed flags (isBatch cells) (handledCells flags cells)

/-- The cells stand at the place in their order, where others may have got new ids, each code cell
has been run once, what is reported is so, and nothing is raised. -/
structure Truthful (B : Builtins) (flags : Flags) (pre post : List (CellKey IdValue))
    (cells : List (PlannedCell lib)) (result : Result lib) : Prop where
  acts : result.session.acts = actsFrom pre.length (handledCells flags cells)
  keys : ∃ pre' post', lib.keys result.session.ycells =
      pre' ++ (handledCells flags cells).map (·.key B) ++ post' ∧
    pre'.map Prod.snd = pre.map Prod.snd ∧ post'.map Prod.snd = post.map Prod.snd
  report : 1 < cells.length → ∃ report, result.report = some report ∧
    TruthfulReport cells.length (handledCells flags cells).length (HasFailed flags cells) report
  ending : result.ending = .exit 1 ∧ HasFailed flags cells ∨
    result.ending = .exit 0 ∧ ¬ HasFailed flags cells

theorem handledCells_single : handledCells flags [cell] = [cell] := by
  rw [handledCells, handled]
  split <;> rfl

theorem PlannedCell.Legible.led (h : cell.Legible B pre) : cell.Led B pre := ⟨h.1, .inl h.2⟩

variable [EmptyCollection μ]

/-- `ix_cmd`, once it has read the payload. -/
def ixCells (B : Builtins) (flags : Flags) (cells : List (PlannedCell lib))
    (before after : Option IdValue) (ycells : List lib.YCell) : Result lib :=
  match loop B flags (isBatch cells) cells before after ⟨⟨ycells, []⟩, [], none, none⟩ with
  | .error failure => ⟨failure.session, none, failure.ending⟩
  | .ok state => conclude flags cells.length state

omit [EmptyCollection μ] in
/-- What ends by an error is not what the command should do. -/
theorem not_truthful_of_error {result : Result lib} (h : ∀ code, result.ending ≠ .exit code) :
    ¬ Truthful B flags pre post cells result := by
  intro htruthful
  rcases htruthful.ending with ⟨hexit, -⟩ | ⟨hexit, -⟩
  · exact h 1 hexit
  · exact h 0 hexit

/-! ### Several cells -/

/-- With cells that are led to, the command comes to its report. -/
theorem loop_concludes (hlib : lib.Lawful) (hflags : flags.Admitted true)
    (hids : ∀ cell ∈ cells, lib.NeverNew (cell.cellId B)) (hanchor : Anchored lib before after)
    (hkeys : lib.Shows (pre ++ post) ycells) (hplace : Place before after pre post)
    (hmany : 1 < cells.length) (hled : Led B pre (handled flags true cells)) :
    ∃ state' results,
      loop B flags true cells before after ⟨⟨ycells, []⟩, [], none, none⟩ = .ok state' ∧
        Done B flags pre post cells ⟨⟨ycells, []⟩, [], none, none⟩ state' ∧
        conclude flags cells.length state' = ⟨state'.session,
          some (batchReport cells.length state' results),
          .exit (if jobFailed state'.finalJob then 1 else 0)⟩ := by
  have hne : cells ≠ [] := List.ne_nil_of_length_pos (Nat.lt_trans Nat.one_pos hmany)
  obtain ⟨state', hloop, hdone⟩ :
      ∃ state', loop B flags true cells before after ⟨⟨ycells, []⟩, [], none, none⟩ = .ok state' ∧
        Done B flags pre post cells ⟨⟨ycells, []⟩, [], none, none⟩ state' :=
    loop_of_led hlib hflags hids hkeys hplace hanchor rfl rfl hled
  obtain ⟨results, hresults⟩ := readResults_of_led hlib hled
    (fun cell hcell => hids cell (handled_initial.subset hcell))
    ⟨hdone.keys, hdone.read (.inr hne)⟩
  have hinserted := hdone.inserted
  rw [List.nil_append] at hinserted
  refine ⟨state', results, hloop, hdone, ?_⟩
  rw [conclude, if_pos hmany, hinserted, hresults]

theorem led_of_truthful (hlib : lib.Lawful) (hflags : flags.Admitted true)
    (hids : ∀ cell ∈ cells, lib.NeverNew (cell.cellId B)) (hanchor : Anchored lib before after)
    (hkeys : lib.Shows (pre ++ post) ycells) (hplace : Place before after pre post)
    (hmany : 1 < cells.length)
    (h : Truthful B flags pre post cells (ixCells B flags cells before after ycells)) :
    Led B pre (handled flags true cells) := by
  have hbatch : isBatch cells = true := decide_eq_true hmany
  rw [ixCells, hbatch] at h
  cases hloop : loop B flags true cells before after ⟨⟨ycells, []⟩, [], none, none⟩ with
  | error failure =>
      rw [hloop] at h
      exact absurd h (not_truthful_of_error
        (loop_error hlib hflags hids hkeys hplace hanchor hloop))
  | ok state' =>
      have hacts := h.acts
      rw [hloop, handledCells, hbatch] at hacts
      simp only [conclude_acts] at hacts
      exact led_of_loop hlib hflags hids hkeys hplace hanchor hloop hacts

theorem truthful_batch_iff (hlib : lib.Lawful) (hflags : flags.Admitted true)
    (hids : ∀ cell ∈ cells, lib.NeverNew (cell.cellId B)) (hanchor : Anchored lib before after)
    (hkeys : lib.Shows (pre ++ post) ycells) (hplace : Place before after pre post)
    (hmany : 1 < cells.length) :
    Truthful B flags pre post cells (ixCells B flags cells before after ycells) ↔
      Legible B pre (handledCells flags cells) := by
  have hbatch : isBatch cells = true := decide_eq_true hmany
  have hne : cells ≠ [] := List.ne_nil_of_length_pos (Nat.lt_trans Nat.one_pos hmany)
  have hhandled : handledCells flags cells = handled flags true cells := by
    rw [handledCells, hbatch]
  have hfailed : HasFailed flags cells = SomeFailed flags true (handled flags true cells) := by
    rw [HasFailed, hhandled, hbatch]
  have hids' : ∀ cell ∈ handled flags true cells, lib.NeverNew (cell.cellId B) :=
    fun cell hcell => hids cell (handled_initial.subset hcell)
  have hled : Truthful B flags pre post cells (ixCells B flags cells before after ycells) →
      Led B pre (handled flags true cells) :=
    led_of_truthful hlib hflags hids hanchor hkeys hplace hmany
  rw [ixCells, hbatch] at hled ⊢
  rw [hhandled]
  constructor
  · intro h
    have hled := hled h
    obtain ⟨state', results, hloop, hdone, hconclude⟩ :=
      loop_concludes hlib hflags hids hanchor hkeys hplace hmany hled
    obtain ⟨pre', post', hkeys', hpre, -⟩ := h.keys
    rw [hloop, hhandled] at hkeys'
    simp only [hconclude] at hkeys'
    exact legible_of_led hlib hled hids' hdone.keys (hdone.read (.inr hne)) hkeys' hpre
  · intro h
    obtain ⟨state', results, hloop, hdone, hconclude⟩ :=
      loop_concludes hlib hflags hids hanchor hkeys hplace hmany (.of_legible h)
    rw [hloop]
    simp only [hconclude]
    constructor
    · rw [hhandled]
      exact hdone.acts
    · rw [hhandled]
      exact keys_of_shows h hids' hdone.keys
    · intro _
      rw [hhandled, hfailed]
      exact ⟨_, rfl, hdone.truthfulReport hne results⟩
    · rw [hfailed, ← hdone.failed]
      cases jobFailed state'.finalJob
      · exact .inr ⟨rfl, Bool.false_ne_true⟩
      · exact .inl ⟨rfl, rfl⟩

/-! ### No cell, and one -/

theorem truthful_nil_iff (hflags : flags.Admitted false)
    (hkeys : lib.keys ycells = pre ++ post) :
    Truthful B flags pre post [] (ixCells B flags [] before after ycells) ↔
      ¬ flags.RendersHuman := by
  obtain ⟨-, hmode⟩ := hflags
  obtain ⟨mode, hmode⟩ := hmode rfl
  have hfailed : ¬ HasFailed flags ([] : List (PlannedCell lib)) := fun ⟨_, h, _⟩ => nomatch h
  have hresult : ixCells B flags [] before after ycells =
      ⟨⟨ycells, []⟩, none, renderInserted flags []⟩ := rfl
  rw [hresult]
  constructor
  · intro h
    obtain ⟨hending, -⟩ := h.ending.resolve_left fun h => hfailed h.2
    exact (renderInserted_eq hmode []).mp hending rfl
  · intro h
    constructor
    · rfl
    · refine ⟨pre, post, ?_, rfl, rfl⟩
      rw [handledCells, handled, List.map_nil, List.append_nil]
      exact hkeys
    · intro hmany
      cases hmany
    · exact .inr ⟨(renderInserted_eq hmode []).mpr fun _ => h, hfailed⟩

theorem ixCells_single
    (hturn : ixCell B flags false ⟨ycells, []⟩ cell before after = finish false session' job) :
    ixCells B flags [cell] before after ycells =
      if job.any (·.isFailure) = true then ⟨session', none, .exit 1⟩
      else conclude flags 1
        (LoopState.turned ⟨⟨ycells, []⟩, [], none, none⟩ session' (cell.cellId B) job) := by
  have hbatch : isBatch [cell] = false := rfl
  rw [ixCells, hbatch]
  by_cases hfailure : job.any (·.isFailure) = true
  · rw [finish, hfailure] at hturn
    rw [loop_cons_error hturn, if_pos hfailure]
  · rw [finish, Bool.not_false, Bool.true_and, if_neg hfailure] at hturn
    rw [loop_cons hturn, if_neg hfailure]
    by_cases hhalt : job.any (·.isHalting) = true
    · rw [if_pos hhalt]
      rfl
    · rw [if_neg hhalt]
      rfl

theorem ixCells_single_acts
    (hturn : ixCell B flags false ⟨ycells, []⟩ cell before after = finish false session' job) :
    (ixCells B flags [cell] before after ycells).session.acts = session'.acts := by
  rw [ixCells_single hturn]
  split
  · rfl
  · exact conclude_acts _ _

theorem ixCells_single_session
    (hturn : ixCell B flags false ⟨ycells, []⟩ cell before after = finish false session' job)
    {results : List (IdValue × CellType)}
    (h : readResults session' [cell.cellId B] = .ok (session', results)) :
    (ixCells B flags [cell] before after ycells).session = session' := by
  rw [ixCells_single hturn]
  split
  · rfl
  · exact conclude_session h

theorem truthful_single_iff (hlib : lib.Lawful) (hflags : flags.Admitted false)
    (hnever : lib.NeverNew (cell.cellId B)) (hanchor : Anchored lib before after)
    (hkeys : lib.Shows (pre ++ post) ycells) (hplace : Place before after pre post) :
    Truthful B flags pre post [cell] (ixCells B flags [cell] before after ycells) ↔
      Legible B pre [cell] := by
  have hfailed : HasFailed flags [cell] ↔ (cell.job flags false).any (·.isFailure) = true := by
    rw [HasFailed, handledCells_single, someFailed_cons]
    exact ⟨fun h => h.resolve_right (fun ⟨_, h, _⟩ => nomatch h), .inl⟩
  have hids : ∀ other ∈ [cell], lib.NeverNew (other.cellId B) :=
    List.forall_mem_singleton.mpr hnever
  have hturn : Turn B flags false ⟨ycells, []⟩ cell pre post
      (ixCell B flags false ⟨ycells, []⟩ cell before after) :=
    ixCell_turn B cell hlib hflags hkeys hplace hanchor hnever
  generalize hresult : ixCell B flags false ⟨ycells, []⟩ cell before after = result at hturn
  cases hturn with
  | raised hending hled =>
      refine iff_of_false (not_truthful_of_error fun code => ?_) fun h => hled h.1.led
      have hbatch : isBatch [cell] = false := rfl
      rw [ixCells, hbatch, loop_cons_error hresult]
      exact hending code
  | @done session' job acts hacts hturn hhas hled hjob =>
      have hshows : lib.Shows (pre ++ [cell].map (·.key B) ++ post) session'.ycells := by
        rw [List.append_assoc]
        exact hhas.shows
      have hresults (h : cell.Led B pre) :
          ∃ results, readResults session' [cell.cellId B] = .ok (session', results) := by
        have hone : Led B pre [cell] := ⟨h, .inl rfl⟩
        exact readResults_of_led hlib hone hids ⟨hshows, hhas.read⟩
      constructor
      · intro h
        have hsame := h.acts
        rw [ixCells_single_acts hresult, handledCells_single, actsFrom, actsFrom, List.append_nil,
          hacts] at hsame
        have hled := hled.mpr hsame
        obtain ⟨results, hresults⟩ := hresults hled
        obtain ⟨pre', post', hkeys', hpre, -⟩ := h.keys
        rw [ixCells_single_session hresult hresults, handledCells_single] at hkeys'
        exact legible_of_led hlib ⟨hled, .inl rfl⟩ hids hshows hhas.read hkeys' hpre
      · intro h
        have hcell : cell.Led B pre := h.1.led
        obtain rfl := hjob hcell
        obtain rfl := hled.mp hcell
        obtain ⟨results, hresults⟩ := hresults hcell
        constructor
        · rw [ixCells_single_acts hresult, handledCells_single, actsFrom, actsFrom,
            List.append_nil, hacts]
          rfl
        · rw [ixCells_single_session hresult hresults, handledCells_single]
          exact keys_of_shows h hids hshows
        · intro hmany
          exact absurd hmany (Nat.lt_irrefl 1)
        · rw [ixCells_single hresult]
          by_cases hfailure : (cell.job flags false).any (·.isFailure) = true
          · rw [if_pos hfailure]
            exact .inl ⟨rfl, hfailed.mpr hfailure⟩
          · rw [if_neg hfailure]
            exact .inr ⟨conclude_single hflags hresults, fun h => hfailure (hfailed.mp h)⟩

/-! ### Notebooks without ids -/

/-- The cell is not found after the insertion, or its anchor before it. -/
theorem insert_old (hlib : lib.Lawful false) (B : Builtins) (session : Session lib)
    (cell : PlannedCell lib) (before after : Option IdValue) :
    ∃ failure, session.insert B cell before after = .error failure ∧
      ∀ code, failure.ending ≠ .exit code := by
  rw [Session.insert]
  cases validatePosition before after with
  | error error => exact ⟨_, rfl, by simp⟩
  | ok _ =>
      cases cell.encodedSource? B with
      | none => exact ⟨_, rfl, by simp⟩
      | some source =>
          obtain ⟨error, ycells, hinsert⟩ : ∃ error ycells,
              lib.insertCell (cell.body B source before after).cell before after session.ycells =
                (.error error, ycells) := by
            rw [YNotebook.insertCell]
            cases lib.beginInsert (cell.body B source before after).cell before after
              session.ycells with
            | error error => exact ⟨error, _, rfl⟩
            | ok begun =>
                refine ⟨.notFound (some (cell.cellId B)), lib.aget begun, ?_⟩
                have hnotMem := YNotebook.notMem_exported hlib (lib.aget begun) (cell.cellId B)
                rw [← YNotebook.findCell_error hnotMem]
                rfl
          have hhandle : lib.handle session.ycells (.post (cell.body B source before after)) =
              ⟨.httpError 400 (.exc error), none, ycells⟩ := by
            rw [YNotebook.handle]
            simp only [PlannedCell.body] at hinsert ⊢
            rw [hinsert]
            rfl
          simp only [hhandle]
          exact ⟨_, rfl, by simp⟩

theorem not_truthful_old (hlib : lib.Lawful false) (hne : cells ≠ []) :
    ¬ Truthful B flags pre post cells (ixCells B flags cells before after ycells) := by
  obtain ⟨cell, rest, rfl⟩ := List.exists_cons_of_ne_nil hne
  obtain ⟨failure, hinsert, hending⟩ :=
    insert_old hlib B ⟨ycells, []⟩ cell before after
  apply not_truthful_of_error
  have hturn : ixCell B flags (isBatch (cell :: rest)) ⟨ycells, []⟩ cell before after =
      .error failure := by
    simp only [ixCell, hinsert, bind, Except.bind]
  rw [ixCells, loop_cons_error hturn]
  exact hending

/-! ### Any payload -/

theorem ix_eq_ixCells {input : Input} {specs : List CellSpec}
    (hread : readCellsPayload B input = .ok specs) {runs : Nat → CellRun lib}
    (hflags : flags.Admitted batch) (before after : Option String) :
    ix B flags input runs before after ycells =
      ixCells B flags (plan specs runs) (before.map (.text ∘ pyStr)) (after.map (.text ∘ pyStr))
        ycells := by
  rw [ix, hflags.1, hread]
  rfl

/-- The command inserts and runs a prefix of its cells and reports what it has done, if and only if
it has not to show the first of no cells, and the notebook has ids, the requests can be sent and the
ids of the cells lead to them. -/
theorem ix_truthful_iff {keepsIds : Bool} (hlib : lib.Lawful keepsIds) {input : Input}
    {specs : List CellSpec} (hread : readCellsPayload B input = .ok specs)
    (runs : Nat → CellRun lib) {before after : Option String}
    (hids : ∀ cell ∈ plan specs runs, lib.NeverNew (cell.cellId B))
    (hanchor : Anchored lib (before.map (.text ∘ pyStr)) (after.map (.text ∘ pyStr)))
    (hkeys : lib.keys ycells = pre ++ post)
    (hplace : Place (before.map (.text ∘ pyStr)) (after.map (.text ∘ pyStr)) pre post)
    (hflags : flags.Admitted (isBatch (plan specs runs))) :
    Truthful B flags pre post (plan specs runs) (ix B flags input runs before after ycells) ↔
      (specs = [] → ¬ flags.RendersHuman) ∧ (specs ≠ [] → keepsIds = true) ∧
        Legible B pre (handledCells flags (plan specs runs)) := by
  rw [ix_eq_ixCells hread hflags]
  have hlength : (plan specs runs).length = specs.length := List.length_mapIdx
  have hshows : lib.Shows (pre ++ post) ycells := hkeys ▸ YNotebook.shows_keys ycells
  generalize plan specs runs = cells at hflags hlength hids
  cases specs with
  | nil =>
      obtain rfl := List.eq_nil_of_length_eq_zero hlength
      rw [truthful_nil_iff hflags hkeys]
      exact ⟨fun h => ⟨fun _ => h, fun hne => absurd rfl hne, trivial⟩, fun h => h.1 rfl⟩
  | cons spec specs =>
      have hne : cells ≠ [] := by
        rintro rfl
        cases hlength
      have hiff {p : Prop} :
          (spec :: specs = [] → ¬ flags.RendersHuman) ∧
            (spec :: specs ≠ [] → keepsIds = true) ∧ p ↔ keepsIds = true ∧ p :=
        ⟨fun h => ⟨h.2.1 (List.cons_ne_nil _ _), h.2.2⟩,
          fun h => ⟨fun hnil => absurd hnil (List.cons_ne_nil _ _), fun _ => h.1, h.2⟩⟩
      rw [hiff]
      cases keepsIds with
      | false => exact iff_of_false (not_truthful_old hlib hne) fun h => Bool.false_ne_true h.1
      | true =>
          rw [eq_self_iff_true, true_and]
          by_cases hmany : 1 < cells.length
          · have hbatch : isBatch cells = true := decide_eq_true hmany
            exact truthful_batch_iff hlib (hbatch ▸ hflags) hids hanchor hshows hplace hmany
          · have hlength : cells.length = 1 :=
              Nat.le_antisymm (Nat.not_lt.mp hmany) (List.length_pos_of_ne_nil hne)
            obtain ⟨cell, rfl⟩ := List.length_eq_one_iff.mp hlength
            rw [handledCells_single]
            exact truthful_single_iff hlib hflags (hids cell List.mem_cons_self) hanchor hshows
              hplace

end

/-! ## A batch that fails, and none -/

abbrev plainNotebook (keepsIds : Bool) : YNotebook IdValue String (List String) :=
  .ofCells IdValue String (List String) keepsIds

def plainCell (id source : String) : Cell IdValue String (List String) where
  id := some (.text (pyStr id))
  cellType := "code"
  source := source.toList
  outputs := []
  executionCount := none
  positionKey := none
  metadata := []

/-- A job that is still running when it is asked for first. -/
def endingIn {keepsIds : Bool} (generatedId : String) (status : JobStatus)
    (h : status.isSettled = true) : CellRun (plainNotebook keepsIds) where
  generatedId := generatedId
  job :=
    { status := .queued
      refreshed := [.running, status]
      ends := ⟨status, List.mem_cons_of_mem _ List.mem_cons_self, h⟩
      effect := id
      keys_effect := fun _ => rfl }

/-- What Python makes of texts. -/
def textBuiltins : Builtins where
  toFloatValues := .byText
  shown _ := []
  isFinite _ := true

/-- Members whose values are texts. -/
def textMembers (members : List (String × String)) : PyJson :=
  .obj (members.map fun (key, value) => (pyStr key, .str (pyStr value)))

def payload : PyJson :=
  .arr [textMembers [("type", "markdown"), ("source", "# Load"), ("id", "title")],
    textMembers [("source", "load()"), ("id", "load")], textMembers [("source", "plot()")]]

def specs : List CellSpec :=
  [⟨.markdown, pyStr "# Load", .str (pyStr "title")⟩,
    ⟨.code, pyStr "load()", .str (pyStr "load")⟩, ⟨.code, pyStr "plot()", .null⟩]

def runs : Nat → CellRun (plainNotebook true)
  | 0 => endingIn "c0" .succeeded rfl
  | 1 => endingIn "c1" .failed rfl
  | _ => endingIn "c2" .succeeded rfl

def jsonFlags : Flags where
  json := true
  pretty := false
  human := false
  watch := false
  streamJson := false
  brief := false
  tty := true

/-- The ids that are made up begin with a hyphen. -/
theorem neverNew_text (id : PyStr) (h : id.head? ≠ some 45) :
    (plainNotebook true).NeverNew (.text id) := by
  refine YNotebook.ofCells_neverNew fun ids heq => h ?_
  rw [IdValue.text.inj heq]
  rfl

theorem failed_batch_reported :
    Truthful textBuiltins jsonFlags [(plainCell "setup" "import x").key]
        [(plainCell "end" "x").key] (plan specs runs)
        (ix textBuiltins jsonFlags (.cells payload) runs none (some "setup")
          [plainCell "setup" "import x", plainCell "end" "x"]) ∧
      (ix textBuiltins jsonFlags (.cells payload) runs none (some "setup")
        [plainCell "setup" "import x", plainCell "end" "x"]).report =
          some ⟨"error", 2, 3, [(.text (pyStr "title"), .markdown), (.text (pyStr "load"), .code)],
            some ⟨"job_failed", .text (pyStr "load"), 1⟩⟩ := by
  have hread : readCellsPayload textBuiltins (.cells payload) = .ok specs := rfl
  have hkeys : (plainNotebook true).keys [plainCell "setup" "import x", plainCell "end" "x"] =
    [(plainCell "setup" "import x").key] ++ [(plainCell "end" "x").key] := rfl
  have hplace : Place ((none : Option String).map (IdValue.text ∘ pyStr))
      ((some "setup").map (IdValue.text ∘ pyStr))
      ([] ++ [(plainCell "setup" "import x").key]) [(plainCell "end" "x").key] :=
    .after rfl (List.forall_mem_nil _)
  have hanchor : Anchored (plainNotebook true)
      ((none : Option String).map (IdValue.text ∘ pyStr))
      ((some "setup").map (IdValue.text ∘ pyStr)) :=
    anchored_after (neverNew_text (pyStr "setup") (by decide))
  have hids : ∀ cell ∈ plan specs runs,
      (plainNotebook true).NeverNew (cell.cellId textBuiltins) :=
    List.forall_mem_cons.mpr ⟨neverNew_text _ (by decide), List.forall_mem_cons.mpr
      ⟨neverNew_text _ (by decide), List.forall_mem_singleton.mpr (neverNew_text _ (by decide))⟩⟩
  have hflags : jsonFlags.Admitted (isBatch (plan specs runs)) := ⟨rfl, fun _ => ⟨.json, rfl⟩⟩
  have htitle : isRouted (pyStr "title") = true := by decide
  have hload : isRouted (pyStr "load") = true := by decide
  constructor
  · apply (ix_truthful_iff (YNotebook.ofCells_lawful _ _ _) hread runs hids hanchor hkeys hplace
      hflags).mpr
    refine ⟨(fun h => by cases h), fun _ => rfl, ⟨⟨rfl, _, rfl, htitle⟩, ?_⟩,
      ⟨⟨rfl, _, rfl, hload⟩, ?_⟩, trivial⟩
    · unfold PlannedCell.New
      decide
    · unfold PlannedCell.New
      decide
  · rfl

/-- No cells, on a terminal: the id of the first one is shown all the same.  Of two code cells with
one id the first is run twice.  A lone surrogate is not sent, and where cells have no ids the one
that has been inserted is not found. -/
theorem empty_batch_raises :
    (readCellsPayload textBuiltins (.cells (.arr [])) = .ok [] ∧
      { jsonFlags with json := false }.Admitted false ∧
      (ix textBuiltins { jsonFlags with json := false } (.cells (.arr [])) runs none none
        []).ending = .indexError ∧
      ¬ Truthful textBuiltins { jsonFlags with json := false } [] [] (plan [] runs)
        (ix textBuiltins { jsonFlags with json := false } (.cells (.arr [])) runs none none [])) ∧
    (ix textBuiltins jsonFlags
      (.cells (.arr [textMembers [("id", "a")], textMembers [("id", "a")]]))
      (fun _ => endingIn "c" .succeeded rfl) none none
      ([] : List (plainNotebook true).YCell)).session.acts =
        [.inserted 0, .ran 0, .inserted 1, .ran 0] ∧
    (ix textBuiltins jsonFlags (.cells (.arr [.obj [(pyStr "source", .str [0xD800])]])) runs none
      none []).ending = .valueError ∧
    (ix textBuiltins jsonFlags (.source (pyStr "x")) (fun _ => endingIn "c" .succeeded rfl) none
      none ([] : List (plainNotebook false).YCell)).ending =
        .click (.badRequest (.exc (.notFound (some (.text (pyStr "c")))))) := by
  refine ⟨⟨rfl, ⟨rfl, fun _ => ⟨.watchHuman, rfl⟩⟩, rfl, fun h => ?_⟩, rfl, rfl, rfl⟩
  rcases h.ending with ⟨hexit, -⟩ | ⟨hexit, -⟩
  · cases hexit
  · cases hexit

end Ix

end Hypernote
