import Hypernote.Proofs.FirstCell
/-!
# The loop of `ix`

A turn inserts its cell where the anchor says and runs it, if the id leads to that cell.  The loop
does so for one cell after the other up to the first whose job ends badly, and what it does to the
notebook tells whether all their ids were such.
-/

namespace Hypernote

open Foundation

namespace Ix

/-! ## What the command should do -/

section

variable {ω μ : Type} {lib : YNotebook IdValue ω μ} (B : Builtins) (flags : Flags) (batch : Bool)

namespace PlannedCell

variable (cell : PlannedCell lib)

/-- How the job of the cell ends, if it has one. -/
def job : Option JobStatus :=
  match cell.spec.cellType with
  | .code => some (cell.outcome flags batch)
  | .markdown => none

/-- The cell at the index is inserted, and run if it is code. -/
def acts (index : Nat) : List Act :=
  match cell.spec.cellType with
  | .code => [.inserted index, .ran index]
  | .markdown => [.inserted index]

/-- The key of the cell that the request makes. -/
def key : CellKey IdValue :=
  (some (cell.cellId B), cell.spec.cellType.cellType.value, (cell.encodedSource? B).getD [])

/-- No cell of the list has its id. -/
def New (keys : List (CellKey IdValue)) : Prop := ∀ key ∈ keys, key.1 ≠ some (cell.cellId B)

/-- The request can be encoded, and the URL of the cell leads to a cell. -/
def Sendable : Prop :=
  (cell.encodedSource? B).isSome = true ∧ ∃ id, cell.cellId B = .text id ∧ isRouted id = true

/-- The id leads to the cell. -/
def Legible (pre : List (CellKey IdValue)) : Prop := cell.Sendable B ∧ cell.New B pre

/-- The id leads to the cell, or to another one that is treated alike. -/
def Led (pre : List (CellKey IdValue)) : Prop :=
  cell.Sendable B ∧
    (cell.New B pre ∨ cell.spec.cellType = .markdown ∧
      ∃ key index type, FirstAt (cell.cellId B) pre key index ∧
        CellType.ofValue? key.2.1 = some type ∧ type ≠ .code)

end PlannedCell

/-- The cells up to the first whose job ends badly or asks for input. -/
def handled : List (PlannedCell lib) → List (PlannedCell lib)
  | [] => []
  | cell :: rest => cell :: if (cell.job flags batch).any (·.isHalting) then [] else handled rest

/-- The cells are inserted and run in their order, from the index on. -/
def actsFrom : Nat → List (PlannedCell lib) → List Act
  | _, [] => []
  | index, cell :: rest => cell.acts index ++ actsFrom (index + 1) rest

/-- Some job is failed or interrupted. -/
def SomeFailed (cells : List (PlannedCell lib)) : Prop :=
  ∃ cell ∈ cells, (cell.job flags batch).any (·.isFailure) = true

/-- Every cell is legible after those before it. -/
def Legible : List (CellKey IdValue) → List (PlannedCell lib) → Prop
  | _, [] => True
  | pre, cell :: rest => cell.Legible B pre ∧ Legible (pre ++ [cell.key B]) rest

/-- Every cell is led to after those before it, and no anchor is ambiguous. -/
def Led : List (CellKey IdValue) → List (PlannedCell lib) → Prop
  | _, [] => True
  | pre, cell :: rest =>
      cell.Led B pre ∧ (rest = [] ∨ cell.New B pre ∧ Led (pre ++ [cell.key B]) rest)

/-- The flags pass the checks that the command makes of them. -/
def Flags.Admitted : Prop :=
  flags.validateBriefRunFlags = .ok () ∧ (batch = false → ∃ mode, flags.runOutputMode = .ok mode)

/-! ## One cell -/

variable {B flags batch} {session session' : Session lib} {cell : PlannedCell lib}
  {before after : Option IdValue} {pre post : List (CellKey IdValue)}

theorem PlannedCell.firstAt_new (h : cell.New B pre) :
    FirstAt (cell.cellId B) (pre ++ cell.key B :: post) (cell.key B) pre.length :=
  Hypernote.firstAt_new rfl h

/-- An id that is not new is that of a cell before. -/
theorem PlannedCell.exists_firstAt (h : ¬ cell.New B pre) :
    ∃ key index, FirstAt (cell.cellId B) pre key index := by
  apply Hypernote.exists_firstAt
  simp only [New, not_forall, not_not] at h
  obtain ⟨key, hkey, hid⟩ := h
  exact ⟨key, hkey, hid⟩

/-- With an id that is not new it is the first cell with the id that counts. -/
theorem PlannedCell.led_iff (hsendable : cell.Sendable B) {key : CellKey IdValue} {index : Nat}
    (hfirst : FirstAt (cell.cellId B) pre key index) :
    cell.Led B pre ↔ cell.spec.cellType = .markdown ∧
      ∃ type, CellType.ofValue? key.2.1 = some type ∧ type ≠ .code := by
  constructor
  · rintro ⟨-, hnew | ⟨hmarkdown, key', index', type, hfirst', htype, hcode⟩⟩
    · exact absurd hfirst.id_eq (hnew key hfirst.mem)
    · obtain ⟨rfl, -⟩ := hfirst.unique hfirst'
      exact ⟨hmarkdown, type, htype, hcode⟩
  · rintro ⟨hmarkdown, type, htype, hcode⟩
    exact ⟨hsendable, .inr ⟨hmarkdown, key, index, type, hfirst, htype, hcode⟩⟩

theorem Led.of_legible {cells : List (PlannedCell lib)} (h : Legible B pre cells) :
    Led B pre cells := by
  induction cells generalizing pre with
  | nil => exact trivial
  | cons cell rest ih => exact ⟨⟨h.1.1, .inl h.1.2⟩, .inr ⟨h.1.2, ih h.2⟩⟩

theorem ofValue?_specType (type : SpecType) :
    CellType.ofValue? type.cellType.value = some type.cellType := by
  cases type <;> rfl

namespace Session

/-- The notebook has these cells, up to new ids, and all of them have been read. -/
structure Has (session : Session lib) (keys : List (CellKey IdValue)) : Prop where
  shows : lib.Shows keys session.ycells
  read : lib.Read session.ycells

theorem Has.readType {keys : List (CellKey IdValue)} (h : session.Has keys) (hlib : lib.Lawful)
    {id : PyStr} (hnew : lib.NeverNew (.text id)) (hrouted : isRouted id = true)
    {key : CellKey IdValue} {index : Nat} (hfirst : FirstAt (.text id) keys key index) :
    session.readType (.text id) =
      match CellType.ofValue? key.2.1 with
      | some type => .ok (type, session)
      | none => .error ⟨.valueError, session⟩ := by
  obtain ⟨cell, hcell, rfl⟩ := YNotebook.findCell_firstAt hlib (h.shows.firstAt hnew hfirst)
  simp only [Session.readType, hrouted, if_true, YNotebook.getCell, h.read.aget_eq hlib, hcell]
  rfl

/-- Whatever a cell is called, its type is not read by leaving the command. -/
theorem readType_error {cellId : IdValue} {failure : Failure lib}
    (h : session.readType cellId = .error failure) (code : Nat) : failure.ending ≠ .exit code := by
  cases cellId with
  | other hashable shown =>
      cases h
      simp
  | text id =>
      simp only [readType] at h
      split at h
      · split at h
        · split at h
          · cases h
          · cases h
            simp
        · cases h
          simp
      · cases h
        simp

theorem Has.run {keys : List (CellKey IdValue)} (h : session.Has keys)
    (hnew : lib.NeverNew (cell.cellId B)) {key : CellKey IdValue} {index : Nat}
    (hfirst : FirstAt (cell.cellId B) keys key index) :
    (session.run B cell).acts = session.acts ++ [.ran index] ∧ (session.run B cell).Has keys := by
  obtain ⟨found, hfound, rfl⟩ := YNotebook.findYcellIndex_firstAt (h.shows.firstAt hnew hfirst)
  have hkeys := cell.run.job.keys_effect session.ycells
  refine ⟨?_, ?_, h.read.of_keys_eq hkeys⟩
  · simp only [Session.run, hfound, Except.toOption, Option.elim]
  · have hshows := h.shows
    rw [YNotebook.Shows] at hshows ⊢
    exact hkeys.symm ▸ hshows

end Session

namespace Flags

theorem Admitted.ofCell (h : flags.Admitted batch) (hbrief : (flags.brief && batch) = false) :
    (flags.ofCell batch).validateBriefRunFlags = .ok () ∧
      ∃ mode, (flags.ofCell batch).runOutputMode = .ok mode := by
  cases batch with
  | false => exact ⟨h.1, h.2 rfl⟩
  | true => exact ⟨rfl, .json, rfl⟩

end Flags

/-- Only with one cell does a job that has failed end the command right away. -/
def finish (batch : Bool) (session : Session lib) (job : Option JobStatus) :
    Except (Failure lib) (Session lib × Option JobStatus) :=
  if !batch && job.any (·.isFailure) then .error ⟨.exit 1, session⟩ else .ok (session, job)

/-- With several cells no turn ends the command. -/
theorem finish_batch : finish true session job = .ok (session, job) := rfl

theorem runCommandOutput_eq (hflags : flags.Admitted batch)
    (hbrief : (flags.brief && batch) = false) {type : CellType}
    (htype : session.readType (cell.cellId B) = .ok (type, session)) :
    runCommandOutput B (flags.ofCell batch) (!batch) session cell =
      if !batch && (cell.outcome flags batch).isFailure then .error ⟨.exit 1, session⟩
      else .ok (session, cell.outcome flags batch) := by
  obtain ⟨hvalid, mode, hmode⟩ := hflags.ofCell hbrief
  simp only [runCommandOutput, PlannedCell.outcome, hvalid, hmode, hbrief, htype, Except.mapError,
    bind, Except.bind, pure, Except.pure, throw, throwThe, MonadExceptOf.throw, Except.map]
  cases mode.watches <;> rfl

/-! ## What is done to the notebook -/

variable {state state' : LoopState lib} {cells rest : List (PlannedCell lib)}
  {job : Option JobStatus}

/-- What a turn can do: insert a cell at the index and perhaps run one. -/
def TurnActs (index : Nat) (acts : List Act) : Prop :=
  acts = [.inserted index] ∨ ∃ ran, acts = [.inserted index, .ran ran]

/-- Where one turn ends, the next begins with an insertion. -/
def NoRun : List Act → Prop
  | .ran _ :: _ => False
  | _ => True

theorem turnActs_acts (cell : PlannedCell lib) (index : Nat) : TurnActs index (cell.acts index) := by
  rw [PlannedCell.acts]
  cases cell.spec.cellType with
  | code => exact .inr ⟨index, rfl⟩
  | markdown => exact .inl rfl

theorem turnActs_ite {index ran : Nat} (c : Prop) [Decidable c] :
    TurnActs index (if c then [.inserted index, .ran ran] else [.inserted index]) := by
  split
  · exact .inr ⟨ran, rfl⟩
  · exact .inl rfl

theorem TurnActs.append_inj {index : Nat} {acts acts' more more' : List Act}
    (h : TurnActs index acts) (h' : TurnActs index acts') (hmore : NoRun more)
    (hmore' : NoRun more') (heq : acts ++ more = acts' ++ more') : acts = acts' ∧ more = more' := by
  rcases h with rfl | ⟨ran, rfl⟩ <;> rcases h' with rfl | ⟨ran', rfl⟩ <;>
    simp only [List.cons_append, List.nil_append, List.cons.injEq, true_and] at heq
  · exact ⟨rfl, heq⟩
  · rw [heq] at hmore
    exact hmore.elim
  · rw [← heq] at hmore'
    exact hmore'.elim
  · obtain ⟨hran, hrest⟩ := heq
    cases hran
    exact ⟨rfl, hrest⟩

theorem actsFrom_cons (index : Nat) (cell : PlannedCell lib) (cells : List (PlannedCell lib)) :
    ∃ rest, actsFrom index (cell :: cells) = .inserted index :: rest := by
  rw [actsFrom]
  rcases turnActs_acts cell index with h | ⟨ran, h⟩ <;> rw [h]
  · exact ⟨_, rfl⟩
  · exact ⟨_, rfl⟩

theorem noRun_actsFrom (index : Nat) (cells : List (PlannedCell lib)) :
    NoRun (actsFrom index cells) := by
  cases cells with
  | nil => exact trivial
  | cons cell cells =>
      obtain ⟨rest, h⟩ := actsFrom_cons index cell cells
      rw [h]
      exact trivial

/-- What a turn amounts to, where the cell is inserted between the two parts. -/
inductive Turn (B : Builtins) (flags : Flags) (batch : Bool) (session : Session lib)
    (cell : PlannedCell lib) (pre post : List (CellKey IdValue)) :
    Except (Failure lib) (Session lib × Option JobStatus) → Prop
  | raised {failure : Failure lib} (hending : ∀ code, failure.ending ≠ .exit code)
      (hled : ¬ cell.Led B pre) : Turn B flags batch session cell pre post (.error failure)
  | done {session' : Session lib} {job : Option JobStatus} {acts : List Act}
      (hacts : session'.acts = session.acts ++ acts) (hturn : TurnActs pre.length acts)
      (hkeys : session'.Has (pre ++ cell.key B :: post))
      (hled : cell.Led B pre ↔ acts = cell.acts pre.length)
      (hjob : cell.Led B pre → job = cell.job flags batch) :
      Turn B flags batch session cell pre post (finish batch session' job)

/-- The next cell is put after the first one with the id of the last. -/
theorem exists_place (h : session.Has (pre ++ cell.key B :: post)) :
    ∃ pre' post', lib.Shows (pre' ++ post') session.ycells ∧
      Place none (some (cell.cellId B)) pre' post' := by
  have hmem : ∃ key ∈ pre ++ cell.key B :: post, key.1 = some (cell.cellId B) :=
    ⟨cell.key B, List.mem_append_right _ List.mem_cons_self, rfl⟩
  obtain ⟨key, index, hfirst⟩ := Hypernote.exists_firstAt hmem
  obtain ⟨pre', post', hsplit, -, hplace⟩ := hfirst.place
  exact ⟨pre', post', hsplit ▸ h.shows, hplace⟩

/-! ## What is reported -/

/-- The variables after a turn. -/
def LoopState.turned (state : LoopState lib) (session : Session lib) (cellId : IdValue)
    (job : Option JobStatus) : LoopState lib :=
  { state with
    session := session
    insertedCells := state.insertedCells ++ [cellId]
    finalJob := job <|> state.finalJob }

/-- What the loop does with cells that are led to. -/
structure Done (B : Builtins) (flags : Flags) (pre post : List (CellKey IdValue))
    (cells : List (PlannedCell lib)) (state state' : LoopState lib) : Prop where
  acts : state'.session.acts =
    state.session.acts ++ actsFrom pre.length (handled flags true cells)
  keys : lib.Shows (pre ++ (handled flags true cells).map (·.key B) ++ post)
    state'.session.ycells
  read : lib.Read state.session.ycells ∨ cells ≠ [] → lib.Read state'.session.ycells
  inserted : state'.insertedCells =
    state.insertedCells ++ (handled flags true cells).map (·.cellId B)
  failed : jobFailed state'.finalJob = true ↔ SomeFailed flags true (handled flags true cells)
  halted : state'.haltReason.isSome = true ↔ (handled flags true cells).length < cells.length

theorem someFailed_cons : SomeFailed flags batch (cell :: cells) ↔
    (cell.job flags batch).any (·.isFailure) = true ∨ SomeFailed flags batch cells :=
  List.exists_mem_cons_iff _ _ _

theorem jobFailed_orElse {finalJob : Option JobStatus} (h : jobFailed finalJob = false) :
    jobFailed (job <|> finalJob) = job.any (·.isFailure) := by
  cases job with
  | none => exact h
  | some status => rfl

theorem not_failure_of_not_halting (h : ¬ job.any (·.isHalting) = true) :
    job.any (·.isFailure) = false := by
  cases job with
  | none => rfl
  | some status => cases status <;> simp_all [JobStatus.isHalting, JobStatus.isFailure]

/-- The turn after which the loop ends. -/
theorem Done.last (hhandled : handled flags true (cell :: rest) = [cell])
    (hfinal : jobFailed state.finalJob = false)
    (hacts : session'.acts = state.session.acts ++ cell.acts pre.length)
    (hkeys : session'.Has (pre ++ cell.key B :: post)) {reason : Option String}
    (hreason : reason.isSome = true ↔ rest ≠ []) :
    Done B flags pre post (cell :: rest) state
      { state.turned session' (cell.cellId B) (cell.job flags true) with haltReason := reason } := by
  refine ⟨?_, ?_, fun _ => hkeys.read, ?_, ?_, ?_⟩ <;> rw [hhandled]
  · rw [actsFrom, actsFrom, List.append_nil]
    exact hacts
  · rw [List.append_assoc]
    exact hkeys.shows
  · rfl
  · rw [someFailed_cons, ← jobFailed_orElse hfinal]
    exact ⟨.inl, fun h => h.resolve_right fun ⟨_, h, _⟩ => nomatch h⟩
  · rw [hreason, List.length_singleton, List.length_cons, ← List.length_pos_iff]
    omega

/-- A turn after which the loop goes on. -/
theorem Done.cons (hhandled : handled flags true (cell :: rest) = cell :: handled flags true rest)
    (hjob : ¬ (cell.job flags true).any (·.isHalting) = true)
    (hacts : session'.acts = state.session.acts ++ cell.acts pre.length)
    (hread : lib.Read session'.ycells)
    (h : Done B flags (pre ++ [cell.key B]) post rest
      (state.turned session' (cell.cellId B) (cell.job flags true)) state') :
    Done B flags pre post (cell :: rest) state state' := by
  refine ⟨?_, ?_, fun _ => h.read (.inl hread), ?_, ?_, ?_⟩ <;> rw [hhandled]
  · rw [h.acts, LoopState.turned, hacts, actsFrom, List.append_assoc, List.length_append,
      List.length_singleton]
  · have hkeys := h.keys
    rw [List.append_assoc, List.append_assoc, List.singleton_append] at hkeys
    rw [List.map_cons, List.append_assoc]
    exact hkeys
  · rw [h.inserted, LoopState.turned, List.map_cons, List.append_assoc]
    rfl
  · rw [h.failed, someFailed_cons, not_failure_of_not_halting hjob]
    exact ⟨.inr, fun h => h.resolve_left Bool.false_ne_true⟩
  · rw [h.halted, List.length_cons, List.length_cons]
    omega

theorem handled_of_halting (h : (cell.job flags batch).any (·.isHalting) = true) :
    handled flags batch (cell :: rest) = [cell] := by
  rw [handled, if_pos h]

theorem handled_of_not_halting (h : ¬ (cell.job flags batch).any (·.isHalting) = true) :
    handled flags batch (cell :: rest) = cell :: handled flags batch rest := by
  rw [handled, if_neg h]

theorem handled_eq_nil : handled flags batch cells = [] ↔ cells = [] := by
  cases cells with
  | nil => exact iff_of_true rfl rfl
  | cons cell rest => exact iff_of_false (List.cons_ne_nil _ _) (List.cons_ne_nil _ _)

theorem isSome_haltReason (h : job.any (·.isHalting) = true) :
    (if rest.isEmpty then none else job.bind haltReason).isSome = true ↔ rest ≠ [] := by
  cases rest with
  | nil => exact iff_of_false Bool.false_ne_true (fun h => h rfl)
  | cons next rest =>
      apply iff_of_true _ (List.cons_ne_nil _ _)
      cases job with
      | none => cases h
      | some status => cases status <;> first | rfl | cases h

/-! ## A turn -/

variable [EmptyCollection μ]

/-- The anchors are ids that reading never makes up. -/
def Anchored (lib : YNotebook IdValue ω μ) (before after : Option IdValue) : Prop :=
  ∀ id, before = some id ∨ after = some id → lib.NeverNew id

omit [EmptyCollection μ] in
theorem anchored_after {cellId : IdValue} (h : lib.NeverNew cellId) :
    Anchored lib none (some cellId) := by
  rintro id (hnone | hid)
  · cases hnone
  · exact Option.some.inj hid ▸ h

/-- A request that cannot be encoded is not sent; otherwise the cell is inserted, and answered with
an error if its id cannot be hashed. -/
theorem Session.insert_spec (B : Builtins) (cell : PlannedCell lib) (hlib : lib.Lawful)
    (hkeys : lib.Shows (pre ++ post) session.ycells) (h : Place before after pre post)
    (hanchor : Anchored lib before after) (hnew : lib.NeverNew (cell.cellId B)) :
    cell.encodedSource? B = none ∧
        session.insert B cell before after = .error ⟨.valueError, session⟩ ∨
      (cell.encodedSource? B).isSome = true ∧
        ∃ next : Session lib, next.Has (pre ++ cell.key B :: post) ∧
          next.acts = session.acts ++ [.inserted pre.length] ∧
          session.insert B cell before after =
            match cell.cellId B with
            | .other false _ => .error ⟨.click .serverError, next⟩
            | _ => .ok next := by
  cases hsource : cell.encodedSource? B with
  | none => exact .inl ⟨rfl, by simp only [insert, h.validatePosition, hsource]⟩
  | some source =>
      obtain ⟨inserted, ycells, hinsert, hshows, hread⟩ :=
        YNotebook.insertCell_place hlib
          (show (cell.body B source before after).cell.id = some (cell.cellId B) from rfl) hnew
          hkeys h hanchor
      have hkey : cell.key B = (some (cell.cellId B), cell.spec.cellType.cellType.value, source) := by
        rw [PlannedCell.key, hsource]
        rfl
      have hhandle : lib.handle session.ycells (.post (cell.body B source before after)) =
          ⟨.cell 201 inserted, some inserted.id, ycells⟩ := by
        rw [YNotebook.handle]
        simp only [PlannedCell.body] at hinsert ⊢
        rw [hinsert]
        rfl
      refine .inr ⟨rfl, ⟨ycells, session.acts ++ [.inserted pre.length]⟩,
        ⟨hkey ▸ hshows, hread⟩, rfl, ?_⟩
      simp only [insert, h.validatePosition, hsource, hhandle,
        h.resolveInsertIndex hlib hkeys hanchor, Except.toOption, Option.getD]
      cases cell.cellId B with
      | text id => rfl
      | other hashable shown => cases hashable <;> rfl

section

variable {id : PyStr} {key : CellKey IdValue} {index : Nat}

/-- The turn in which the id leads to a cell of the type. -/
theorem exists_finish (hlib : lib.Lawful) (hflags : flags.Admitted batch)
    (hacts : session'.acts = session.acts ++ [.inserted pre.length])
    (hkeys : session'.Has (pre ++ cell.key B :: post))
    (hinsert : session.insert B cell before after = .ok session')
    (hid : cell.cellId B = .text id) (hrouted : isRouted id = true)
    (hnew : lib.NeverNew (cell.cellId B))
    (hfirst : FirstAt (cell.cellId B) (pre ++ cell.key B :: post) key index) {type : CellType}
    (htype : CellType.ofValue? key.2.1 = some type) :
    ∃ final : Session lib, final.Has (pre ++ cell.key B :: post) ∧
      final.acts = session.acts ++
        (if type = .code then [.inserted pre.length, .ran index] else [.inserted pre.length]) ∧
      ixCell B flags batch session cell before after =
        finish batch final (if type = .code then some (cell.outcome flags batch) else none) := by
  have hread {s : Session lib} (hs : s.Has (pre ++ cell.key B :: post)) :
      s.readType (cell.cellId B) = .ok (type, s) := by
    rw [hid] at hnew hfirst ⊢
    rw [hs.readType hlib hnew hrouted hfirst, htype]
  obtain ⟨hran, hhas⟩ := hkeys.run hnew hfirst
  by_cases hcode : type = .code
  · refine ⟨session'.run B cell, hhas, ?_, ?_⟩
    · rw [if_pos hcode, hran, hacts, List.append_assoc, List.singleton_append]
    · simp only [ixCell, hinsert, hread hkeys, bind, Except.bind, pure, Except.pure, if_pos hcode]
      by_cases hbrief : (flags.brief && batch) = true
      · have hbatch : batch = true := (Bool.and_eq_true_iff.mp hbrief).2
        rw [if_pos hbrief, PlannedCell.outcome, if_pos hbrief, finish, hbatch]
        rfl
      · rw [if_neg hbrief]
        rw [Bool.not_eq_true] at hbrief
        rw [runCommandOutput_eq hflags hbrief (hread hhas), finish, Option.any_some]
        cases !batch && (cell.outcome flags batch).isFailure <;> rfl
  · refine ⟨session', hkeys, ?_, ?_⟩
    · rw [if_neg hcode, hacts]
    · simp only [ixCell, hinsert, hread hkeys, bind, Except.bind, pure, Except.pure, if_neg hcode,
        finish, Option.any_none, Bool.and_false]
      rfl

/-- A cell whose type cannot be read ends the command, by an error. -/
theorem ixCell_readType_error (hinsert : session.insert B cell before after = .ok session')
    {failure : Failure lib} (hread : session'.readType (cell.cellId B) = .error failure)
    (hled : ¬ cell.Led B pre) :
    Turn B flags batch session cell pre post (ixCell B flags batch session cell before after) := by
  simp only [ixCell, hinsert, hread, bind, Except.bind]
  exact .raised (Session.readType_error hread) hled

/-- The id is new, so it leads to the cell itself. -/
theorem turn_of_new (hlib : lib.Lawful) (hflags : flags.Admitted batch)
    (hacts : session'.acts = session.acts ++ [.inserted pre.length])
    (hkeys : session'.Has (pre ++ cell.key B :: post))
    (hinsert : session.insert B cell before after = .ok session')
    (hsendable : cell.Sendable B) (hid : cell.cellId B = .text id) (hrouted : isRouted id = true)
    (hnever : lib.NeverNew (cell.cellId B)) (hnew : cell.New B pre) :
    Turn B flags batch session cell pre post (ixCell B flags batch session cell before after) := by
  obtain ⟨final, hkeys', hacts', hturn⟩ := exists_finish hlib hflags hacts hkeys hinsert hid hrouted
    hnever (PlannedCell.firstAt_new hnew) (ofValue?_specType cell.spec.cellType)
  rw [hturn]
  refine .done hacts' (turnActs_ite _) hkeys' ?_ ?_
  · apply iff_of_true
    · exact ⟨hsendable, .inl hnew⟩
    · rw [PlannedCell.acts]
      cases cell.spec.cellType <;> rfl
  · intro _
    rw [PlannedCell.job]
    cases cell.spec.cellType <;> rfl

/-- The id is that of a cell before, so it leads to the first of those. -/
theorem turn_of_repeated (hlib : lib.Lawful) (hflags : flags.Admitted batch)
    (hacts : session'.acts = session.acts ++ [.inserted pre.length])
    (hkeys : session'.Has (pre ++ cell.key B :: post))
    (hinsert : session.insert B cell before after = .ok session')
    (hsendable : cell.Sendable B) (hid : cell.cellId B = .text id) (hrouted : isRouted id = true)
    (hnever : lib.NeverNew (cell.cellId B)) (hnew : ¬ cell.New B pre) :
    Turn B flags batch session cell pre post (ixCell B flags batch session cell before after) := by
  obtain ⟨key, index, hfirst⟩ := PlannedCell.exists_firstAt hnew
  have hled := PlannedCell.led_iff hsendable hfirst
  have hlt := hfirst.lt_length
  have hfirst' := hfirst.append (cell.key B :: post)
  cases htype : CellType.ofValue? key.2.1 with
  | none =>
      have hread : session'.readType (cell.cellId B) = .error ⟨.valueError, session'⟩ := by
        rw [hid] at hnever hfirst' ⊢
        rw [hkeys.readType hlib hnever hrouted hfirst', htype]
      apply ixCell_readType_error hinsert hread
      rw [hled, htype]
      rintro ⟨-, type, hnone, -⟩
      cases hnone
  | some type =>
      obtain ⟨final, hkeys', hacts', hturn⟩ := exists_finish hlib hflags hacts hkeys hinsert hid
        hrouted hnever hfirst' htype
      have hsome : (∃ type', some type = some type' ∧ type' ≠ .code) ↔ type ≠ .code := by
        simp only [Option.some.injEq, exists_eq_left']
      rw [htype, hsome] at hled
      rw [hturn]
      refine .done hacts' (turnActs_ite _) hkeys' ?_ ?_
      · -- A code cell that was not run, or a cell before that was.
        rw [hled, PlannedCell.acts]
        cases cell.spec.cellType <;> by_cases hcode : type = .code <;> simp [hcode, hlt.ne]
      · intro h
        obtain ⟨hmarkdown, hcode⟩ := hled.mp h
        rw [if_neg hcode, PlannedCell.job, hmarkdown]

end

theorem ixCell_turn (B : Builtins) (cell : PlannedCell lib) (hlib : lib.Lawful)
    (hflags : flags.Admitted batch) (hkeys : lib.Shows (pre ++ post) session.ycells)
    (h : Place before after pre post) (hanchor : Anchored lib before after)
    (hnever : lib.NeverNew (cell.cellId B)) :
    Turn B flags batch session cell pre post (ixCell B flags batch session cell before after) := by
  rcases Session.insert_spec B cell hlib hkeys h hanchor hnever with
    ⟨hsource, hinsert⟩ | ⟨hsource, next, hkeys', hacts, hinsert⟩
  · simp only [ixCell, hinsert, bind, Except.bind]
    refine .raised (by simp) fun hled => ?_
    have hencoded := hled.1.1
    rw [hsource] at hencoded
    cases hencoded
  · cases hid : cell.cellId B with
    | other hashable shown =>
        have hled : ¬ cell.Led B pre := by
          rintro ⟨⟨-, id, htext, -⟩, -⟩
          rw [hid] at htext
          cases htext
        rw [hid] at hinsert
        cases hashable with
        | false =>
            simp only [ixCell, hinsert, bind, Except.bind]
            exact .raised (by simp) hled
        | true => exact ixCell_readType_error hinsert (by rw [hid, Session.readType]) hled
    | text id =>
        rw [hid] at hinsert
        by_cases hrouted : isRouted id = true
        · have hsendable : cell.Sendable B := ⟨hsource, id, hid, hrouted⟩
          by_cases hnew : cell.New B pre
          · exact turn_of_new hlib hflags hacts hkeys' hinsert hsendable hid hrouted hnever hnew
          · exact turn_of_repeated hlib hflags hacts hkeys' hinsert hsendable hid hrouted hnever
              hnew
        · have hled : ¬ cell.Led B pre := by
            rintro ⟨⟨-, id', htext, hrouted'⟩, -⟩
            rw [hid] at htext
            cases htext
            exact hrouted hrouted'
          have hread : next.readType (cell.cellId B) =
              .error ⟨.click (.cellNotFound (.text id)), next⟩ := by
            rw [hid, Session.readType, if_neg hrouted]
          exact ixCell_readType_error hinsert hread hled

/-! ## The loop -/

theorem loop_cons
    (hturn : ixCell B flags batch state.session cell before after = .ok (session', job)) :
    loop B flags batch (cell :: rest) before after state =
      if job.any (·.isHalting) = true then
        .ok { state.turned session' (cell.cellId B) job with
          haltReason := if rest.isEmpty then none else job.bind haltReason }
      else loop B flags batch rest none (some (cell.cellId B))
        (state.turned session' (cell.cellId B) job) := by
  rw [loop, hturn]
  cases job with
  | none => rfl
  | some status =>
      simp only [bind, Except.bind, pure, Except.pure, Option.any_some, Option.bind]
      rfl

theorem loop_cons_error {failure : Failure lib}
    (hturn : ixCell B flags batch state.session cell before after = .error failure) :
    loop B flags batch (cell :: rest) before after state = .error failure := by
  rw [loop, hturn]
  rfl

/-- Where the loop fails, the command ends by an error. -/
theorem loop_error (hlib : lib.Lawful) (hflags : flags.Admitted true)
    (hids : ∀ cell ∈ cells, lib.NeverNew (cell.cellId B))
    (hkeys : lib.Shows (pre ++ post) state.session.ycells) (hplace : Place before after pre post)
    (hanchor : Anchored lib before after)
    {failure : Failure lib} (h : loop B flags true cells before after state = .error failure)
    (code : Nat) : failure.ending ≠ .exit code := by
  induction cells generalizing pre post before after state with
  | nil => cases h
  | cons cell rest ih =>
      obtain ⟨hnever, hids⟩ := List.forall_mem_cons.mp hids
      have hturn := ixCell_turn B cell hlib hflags hkeys hplace hanchor hnever
      generalize hresult : ixCell B flags true state.session cell before after = result at hturn
      cases hturn with
      | raised hending _ =>
          rw [loop_cons_error hresult] at h
          cases h
          exact hending code
      | done _ _ hkeys' _ _ =>
          rw [finish_batch] at hresult
          rw [loop_cons hresult] at h
          split at h
          · cases h
          · obtain ⟨pre', post', hsplit, hplace'⟩ := exists_place hkeys'
            exact ih hids hsplit hplace' (anchored_after hnever) h

/-- The loop goes on with an insertion where the anchor says. -/
theorem loop_acts (hlib : lib.Lawful) (hflags : flags.Admitted true)
    (hids : ∀ cell ∈ cells, lib.NeverNew (cell.cellId B))
    (hkeys : lib.Shows (pre ++ post) state.session.ycells) (hplace : Place before after pre post)
    (hanchor : Anchored lib before after)
    (h : loop B flags true cells before after state = .ok state') :
    ∃ more, state'.session.acts = state.session.acts ++ more ∧ NoRun more ∧
      (cells ≠ [] → ∃ rest, more = .inserted pre.length :: rest) := by
  induction cells generalizing pre post before after state with
  | nil =>
      cases h
      exact ⟨[], (List.append_nil _).symm, trivial, fun h => absurd rfl h⟩
  | cons cell rest ih =>
      obtain ⟨hnever, hids⟩ := List.forall_mem_cons.mp hids
      have hturn := ixCell_turn B cell hlib hflags hkeys hplace hanchor hnever
      generalize hresult : ixCell B flags true state.session cell before after = result at hturn
      cases hturn with
      | raised _ _ =>
          rw [loop_cons_error hresult] at h
          cases h
      | @done session' job acts hacts hturn hkeys' _ _ =>
          rw [finish_batch] at hresult
          rw [loop_cons hresult] at h
          have hmore : ∃ more, state'.session.acts = state.session.acts ++ (acts ++ more) := by
            split at h
            · cases h
              exact ⟨[], by rw [List.append_nil]; exact hacts⟩
            · obtain ⟨pre', post', hsplit, hplace'⟩ := exists_place hkeys'
              obtain ⟨more, hmore, -, -⟩ := ih hids hsplit hplace' (anchored_after hnever) h
              exact ⟨more, by rw [hmore, ← List.append_assoc, ← hacts]; rfl⟩
          obtain ⟨more, hmore⟩ := hmore
          rcases hturn with rfl | ⟨ran, rfl⟩
          · exact ⟨_, hmore, trivial, fun _ => ⟨_, rfl⟩⟩
          · exact ⟨_, hmore, trivial, fun _ => ⟨_, rfl⟩⟩

theorem loop_of_led (hlib : lib.Lawful) (hflags : flags.Admitted true)
    (hids : ∀ cell ∈ cells, lib.NeverNew (cell.cellId B))
    (hkeys : lib.Shows (pre ++ post) state.session.ycells) (hplace : Place before after pre post)
    (hanchor : Anchored lib before after)
    (hfinal : jobFailed state.finalJob = false) (hreason : state.haltReason = none)
    (h : Led B pre (handled flags true cells)) :
    ∃ state', loop B flags true cells before after state = .ok state' ∧
      Done B flags pre post cells state state' := by
  induction cells generalizing pre before after state with
  | nil =>
      refine ⟨state, rfl, ?_, ?_, fun h => h.resolve_right (fun hne => hne rfl), ?_, ?_, ?_⟩
      · exact (List.append_nil _).symm
      · rw [handled, List.map_nil, List.append_nil]
        exact hkeys
      · exact (List.append_nil _).symm
      · rw [hfinal]
        exact iff_of_false Bool.false_ne_true (fun ⟨_, h, _⟩ => nomatch h)
      · rw [hreason]
        exact iff_of_false Bool.false_ne_true (Nat.lt_irrefl _)
  | cons cell rest ih =>
      obtain ⟨hnever, hids⟩ := List.forall_mem_cons.mp hids
      have hturn := ixCell_turn B cell hlib hflags hkeys hplace hanchor hnever
      generalize hresult : ixCell B flags true state.session cell before after = result at hturn
      cases hturn with
      | raised _ hled => exact absurd h.1 hled
      | @done session' job acts hacts _ hkeys' hled hjob =>
          obtain rfl := hjob h.1
          obtain rfl := hled.mp h.1
          rw [finish_batch] at hresult
          rw [loop_cons hresult]
          by_cases hhalt : (cell.job flags true).any (·.isHalting) = true
          · rw [if_pos hhalt]
            exact ⟨_, rfl, .last (handled_of_halting hhalt) hfinal hacts hkeys'
              (isSome_haltReason hhalt)⟩
          · rw [if_neg hhalt]
            have hhandled : handled flags true (cell :: rest) = cell :: handled flags true rest :=
              handled_of_not_halting hhalt
            rw [hhandled] at h
            rcases h.2 with hnil | ⟨hnew, hrest⟩
            · -- No other cell is left.
              obtain rfl := handled_eq_nil.mp hnil
              refine ⟨_, rfl, ?_⟩
              have hnone : state.haltReason.isSome = true ↔ ([] : List (PlannedCell lib)) ≠ [] := by
                rw [hreason]
                exact iff_of_false Bool.false_ne_true (fun h => h rfl)
              exact Done.last hhandled hfinal hacts hkeys' hnone
            · have hkeys'' : lib.Shows ((pre ++ [cell.key B]) ++ post) session'.ycells := by
                rw [List.append_assoc, List.singleton_append]
                exact hkeys'.shows
              have hfinal' : jobFailed (cell.job flags true <|> state.finalJob) = false := by
                rw [jobFailed_orElse hfinal]
                exact not_failure_of_not_halting hhalt
              obtain ⟨state', hok, hdone⟩ := @ih _ _ _
                (state.turned session' (cell.cellId B) (cell.job flags true)) hids hkeys''
                (.after rfl hnew) (anchored_after hnever) hfinal' hreason hrest
              exact ⟨state', hok, hdone.cons hhandled hhalt hacts hkeys'.read⟩

omit [EmptyCollection μ] in
/-- The acts of a turn can be told from those of the turns after it. -/
theorem led_of_acts {acts more : List Act} {final : Session lib}
    (hacts : session'.acts = session.acts ++ acts) (hturn : TurnActs pre.length acts)
    (hled : cell.Led B pre ↔ acts = cell.acts pre.length)
    (htotal : final.acts =
      session.acts ++ actsFrom pre.length (handled flags true (cell :: rest)))
    (hmore : NoRun more) (heq : final.acts = session'.acts ++ more) :
    cell.Led B pre ∧ more = actsFrom (pre.length + 1)
      (if (cell.job flags true).any (·.isHalting) then [] else handled flags true rest) := by
  rw [handled, actsFrom] at htotal
  rw [htotal, hacts, List.append_assoc] at heq
  have hsame := (turnActs_acts cell pre.length).append_inj hturn (noRun_actsFrom _ _) hmore
    (List.append_cancel_left heq)
  exact ⟨hled.mpr hsame.1.symm, hsame.2.symm⟩

/-- After a cell whose id is that of a cell before it, the next one would be put too early. -/
theorem last_of_repeated (hlib : lib.Lawful) (hflags : flags.Admitted true)
    (hids : ∀ cell ∈ rest, lib.NeverNew (cell.cellId B)) (hnever : lib.NeverNew (cell.cellId B))
    (hkeys : state.session.Has (pre ++ cell.key B :: post)) {key : CellKey IdValue}
    {index : Nat} (hfirst : FirstAt (cell.cellId B) pre key index)
    (hok : loop B flags true rest none (some (cell.cellId B)) state = .ok state')
    (hacts : state'.session.acts =
      state.session.acts ++ actsFrom (pre.length + 1) (handled flags true rest)) : rest = [] := by
  have hlt := hfirst.lt_length
  have hfirst' := hfirst.append (cell.key B :: post)
  obtain ⟨pre', post', hsplit, hlength, hplace⟩ := hfirst'.place
  obtain ⟨more, hmore, -, hhead⟩ := loop_acts hlib hflags hids (hsplit ▸ hkeys.shows) hplace
    (anchored_after hnever) hok
  rw [hmore] at hacts
  have hsame := List.append_cancel_left hacts
  cases rest with
  | nil => rfl
  | cons next rest =>
      obtain ⟨tail, rfl⟩ := hhead (List.cons_ne_nil _ _)
      rw [handled] at hsame
      obtain ⟨tail', htail'⟩ := actsFrom_cons (pre.length + 1) next
        (if (next.job flags true).any (·.isHalting) then [] else handled flags true rest)
      rw [htail', hlength, List.cons.injEq, Act.inserted.injEq] at hsame
      omega

theorem led_of_loop (hlib : lib.Lawful) (hflags : flags.Admitted true)
    (hids : ∀ cell ∈ cells, lib.NeverNew (cell.cellId B))
    (hkeys : lib.Shows (pre ++ post) state.session.ycells) (hplace : Place before after pre post)
    (hanchor : Anchored lib before after)
    (hok : loop B flags true cells before after state = .ok state')
    (htotal : state'.session.acts =
      state.session.acts ++ actsFrom pre.length (handled flags true cells)) :
    Led B pre (handled flags true cells) := by
  induction cells generalizing pre post before after state with
  | nil => exact trivial
  | cons cell rest ih =>
      obtain ⟨hnever, hids⟩ := List.forall_mem_cons.mp hids
      have hturn := ixCell_turn B cell hlib hflags hkeys hplace hanchor hnever
      generalize hresult : ixCell B flags true state.session cell before after = result at hturn
      cases hturn with
      | raised _ _ =>
          rw [loop_cons_error hresult] at hok
          cases hok
      | @done session' job acts hacts hturn hkeys' hled hjob =>
          rw [finish_batch] at hresult
          rw [loop_cons hresult] at hok
          by_cases hhalt : job.any (·.isHalting) = true
          · rw [if_pos hhalt] at hok
            cases hok
            obtain ⟨hled, -⟩ := led_of_acts hacts hturn hled htotal
              (show NoRun [] from trivial) (List.append_nil _).symm
            rw [hjob hled] at hhalt
            rw [handled_of_halting hhalt]
            exact ⟨hled, .inl rfl⟩
          · rw [if_neg hhalt] at hok
            obtain ⟨pre', post', hsplit, hplace'⟩ := exists_place hkeys'
            obtain ⟨more, hmore, hrun, -⟩ := loop_acts hlib hflags hids hsplit hplace'
              (anchored_after hnever) hok
            obtain ⟨hled, rfl⟩ := led_of_acts hacts hturn hled htotal hrun hmore
            rw [hjob hled] at hhalt
            rw [if_neg hhalt] at hmore
            rw [handled_of_not_halting hhalt]
            refine ⟨hled, ?_⟩
            by_cases hnew : cell.New B pre
            · have hkeys'' : lib.Shows ((pre ++ [cell.key B]) ++ post) session'.ycells := by
                rw [List.append_assoc, List.singleton_append]
                exact hkeys'.shows
              refine .inr ⟨hnew, ih hids hkeys'' (.after rfl hnew) (anchored_after hnever) hok ?_⟩
              rw [List.length_append, List.length_singleton]
              exact hmore
            · obtain ⟨key, index, hfirst⟩ := PlannedCell.exists_firstAt hnew
              exact .inl (handled_eq_nil.mpr
                (last_of_repeated hlib hflags hids hnever hkeys' hfirst hok hmore))

end

end Ix

end Hypernote
