import Hypernote.Proofs.MovedCells
import Hypernote.Sdk.AnyToken
import Mathlib.Data.List.Find
/-!
# Which tokens a diff can handle

All that goes wrong while a token is read becomes a `HypernoteError`.  What has been read is used
after that, as keys and as values of an enumeration, and raises there.
-/

namespace Hypernote

open Foundation

namespace Sdk

namespace AnyToken

open Untyped (JsonCell)

variable {F : FloatValues} {σ : Type} {statusOf : JsonCell → List ChangeKind → Except Untyped.Error σ}
  {deletedStatus : PyJson → CellType → PyJson → σ}

/-- A result, a `HypernoteError`, or what a cell of the notebook itself makes the code raise. -/
def Handled (result : Except Raised (List σ)) : Prop :=
  match result with
  | .ok _ | .error (.hypernoteError _) | .error (.ofNotebook _) => True
  | .error .typeError | .error .valueError => False

/-- The entry is the last one that has its id. -/
def LastWithId (F : FloatValues) (baseline : List Entry) (e : Entry) : Prop :=
  ∃ before after, baseline = before ++ e :: after ∧
    ∀ later ∈ after, PyJson.Key.same F e.id.key later.id.key = false

/-- The last entry for a cell. -/
def entryOf (F : FloatValues) (baseline : List Entry) (id : CellId) : Option Entry :=
  baseline.reverse.find? fun e => PyJson.Key.same F e.id.key (.str (pyStr id))

/-- Every cell of the notebook that is listed as changed can be shown. -/
def Shown (F : FloatValues) (statusOf : JsonCell → List ChangeKind → Except Untyped.Error σ)
    (baseline : List Entry) (currentById : Dict CellId Untyped.SnapshotCell)
    (cells : List JsonCell) : Prop :=
  ∀ cell ∈ cells, ∀ currentEntry, currentById.get? cell.id = some currentEntry →
    changeKindsOf F (entryOf F baseline cell.id) currentEntry ≠ [] →
      ∃ status,
        statusOf cell (changeKindsOf F (entryOf F baseline cell.id) currentEntry) = .ok status

/-! ## The index of the entries -/

theorem mapM_keyed_error {entries : List Entry} (h : ∃ e ∈ entries, e.id.hashable = false) :
    entries.mapM keyed = .error .typeError := by
  induction entries with
  | nil =>
      obtain ⟨e, hmem, -⟩ := h
      cases hmem
  | cons e entries ih =>
      rw [List.mapM_cons]
      by_cases he : e.id.hashable = true
      · obtain ⟨e', hmem, he'⟩ := h
        have hrest : ∃ e ∈ entries, e.id.hashable = false := by
          rcases List.mem_cons.mp hmem with rfl | hmem
          · exact absurd (he.symm.trans he') (by decide)
          · exact ⟨e', hmem, he'⟩
        rw [ih hrest, keyed, dif_pos he]
        rfl
      · rw [keyed, dif_neg he]
        rfl

/-- The entries, each with its id as a key. -/
def pairsOf (entries : List Entry) (h : ∀ e ∈ entries, e.id.hashable = true) :
    List (PyJson.DictKey × Entry) :=
  entries.pmap (fun e he => (⟨e.id, he⟩, e)) h

theorem mapM_keyed {entries : List Entry} (h : ∀ e ∈ entries, e.id.hashable = true) :
    entries.mapM keyed = .ok (pairsOf entries h) := by
  induction entries with
  | nil => rfl
  | cons e entries ih =>
      have he := h e List.mem_cons_self
      rw [List.mapM_cons, ih fun e he => h e (List.mem_cons_of_mem _ he), keyed, dif_pos he]
      rfl

theorem map_snd_pairsOf {entries : List Entry} (h : ∀ e ∈ entries, e.id.hashable = true) :
    (pairsOf entries h).map Prod.snd = entries := by
  rw [pairsOf, List.map_pmap, List.pmap_eq_map, List.map_id']

theorem key_of_mem_pairsOf {entries : List Entry} {h : ∀ e ∈ entries, e.id.hashable = true}
    {p : PyJson.DictKey × Entry} (hp : p ∈ pairsOf entries h) : p.1.1 = p.2.id := by
  obtain ⟨e, he, rfl⟩ := List.mem_pmap.mp hp
  rfl

theorem baselineById_eq {entries : List Entry} (h : ∀ e ∈ entries, e.id.hashable = true) :
    baselineById F entries =
      .ok (PyDict.ofPairs (PyJson.DictKey.same F) (pairsOf entries h)) := by
  rw [baselineById, mapM_keyed h]
  rfl

theorem last_pairsOf {entries : List Entry} {h : ∀ e ∈ entries, e.id.hashable = true}
    {k : PyJson.DictKey} {e : Entry}
    (hlast : PyDict.Last (PyJson.DictKey.same F) (pairsOf entries h) k e) :
    LastWithId F entries e ∧ k.1 = e.id := by
  obtain ⟨before, after, heq, hlast⟩ := hlast
  have hmem : (k, e) ∈ pairsOf entries h := by
    rw [heq]
    exact List.mem_append_right _ List.mem_cons_self
  have hkey : k.1 = e.id := key_of_mem_pairsOf hmem
  refine ⟨⟨before.map Prod.snd, after.map Prod.snd, ?_, ?_⟩, hkey⟩
  · rw [← map_snd_pairsOf h, heq, List.map_append, List.map_cons]
  · intro later hlater
    obtain ⟨p, hp, rfl⟩ := List.mem_map.mp hlater
    have hpkey : p.1.1 = p.2.id :=
      key_of_mem_pairsOf (heq ▸ List.mem_append_right _ (List.mem_cons_of_mem _ hp))
    rw [← hkey, ← hpkey]
    exact hlast p hp

theorem exists_last_pairsOf {entries : List Entry} {h : ∀ e ∈ entries, e.id.hashable = true}
    {e : Entry} (hlast : LastWithId F entries e) :
    ∃ k, PyDict.Last (PyJson.DictKey.same F) (pairsOf entries h) k e ∧ k.1 = e.id := by
  obtain ⟨before, after, heq, hlast⟩ := hlast
  have hmap := (map_snd_pairsOf h).trans heq
  obtain ⟨before', rest, hpairs, -, hrest⟩ := List.map_eq_append_iff.mp hmap
  obtain ⟨p, after', rfl, rfl, hafter⟩ := List.map_eq_cons_iff.mp hrest
  have hmem : p ∈ pairsOf entries h := by
    rw [hpairs]
    exact List.mem_append_right _ List.mem_cons_self
  have hkey : p.1.1 = p.2.id := key_of_mem_pairsOf hmem
  refine ⟨p.1, ⟨before', after', hpairs, ?_⟩, hkey⟩
  intro q hq
  have hqkey : q.1.1 = q.2.id :=
    key_of_mem_pairsOf (hpairs ▸ List.mem_append_right _ (List.mem_cons_of_mem _ hq))
  unfold PyJson.DictKey.same
  rw [hkey, hqkey]
  exact hlast _ (hafter ▸ List.mem_map_of_mem hq)

theorem get?_baselineById (hF : F.Lawful) {entries : List Entry}
    (h : ∀ e ∈ entries, e.id.hashable = true) (id : CellId) :
    PyDict.get? (PyJson.DictKey.same F)
        (PyDict.ofPairs (PyJson.DictKey.same F) (pairsOf entries h)) ⟨.str (pyStr id), rfl⟩ =
      entryOf F entries id := by
  rw [PyDict.get?_ofPairs (PyJson.keyEq_same hF), entryOf]
  conv_rhs => rw [← map_snd_pairsOf h]
  rw [← List.map_reverse, List.find?_map]
  apply congrArg (Option.map Prod.snd)
  apply List.find?_congr
  intro p hp
  change PyJson.Key.same F p.1.1.key (.str (pyStr id)) = _
  rw [key_of_mem_pairsOf (List.mem_reverse.mp hp)]
  rfl

/-! ## The loops -/

variable (statusOf) in
/-- The first loop raises for a cell of the notebook only, and only if it cannot be shown. -/
theorem changedCells_cases (hF : F.Lawful) {baseline : List Entry}
    (h : ∀ e ∈ baseline, e.id.hashable = true) {currentById : Dict CellId Untyped.SnapshotCell}
    {cells : List JsonCell} (hcells : ∀ cell ∈ cells, ∃ e, currentById.get? cell.id = some e) :
    (Shown F statusOf baseline currentById cells ∧
        ∃ changed, changedCells F statusOf
          (PyDict.ofPairs (PyJson.DictKey.same F) (pairsOf baseline h)) currentById cells =
            .ok changed) ∨
      (¬ Shown F statusOf baseline currentById cells ∧
        ∃ error, changedCells F statusOf
          (PyDict.ofPairs (PyJson.DictKey.same F) (pairsOf baseline h)) currentById cells =
            .error (.ofNotebook error)) := by
  induction cells with
  | nil => exact .inl ⟨nofun, [], rfl⟩
  | cons cell cells ih =>
      obtain ⟨currentEntry, hcurrent⟩ := hcells cell List.mem_cons_self
      have hrest := ih fun c hc => hcells c (List.mem_cons_of_mem _ hc)
      have hshown : Shown F statusOf baseline currentById (cell :: cells) ↔
          (changeKindsOf F (entryOf F baseline cell.id) currentEntry ≠ [] →
            ∃ status, statusOf cell (changeKindsOf F (entryOf F baseline cell.id) currentEntry) =
              .ok status) ∧ Shown F statusOf baseline currentById cells := by
        unfold Shown
        rw [List.forall_mem_cons, hcurrent]
        apply and_congr_left
        intro _
        constructor
        · exact fun hall => hall currentEntry rfl
        · rintro hone _ heq
          exact Option.some.inj heq ▸ hone
      rw [hshown]
      simp only [changedCells, get?_baselineById hF h, hcurrent, Option.elim_some, bind,
        Except.bind]
      by_cases hkinds : changeKindsOf F (entryOf F baseline cell.id) currentEntry = []
      · simp only [hkinds, ne_eq, not_true_eq_false, false_implies, true_and, if_true]
        exact hrest
      · rw [if_neg hkinds]
        cases hstatus : statusOf cell (changeKindsOf F (entryOf F baseline cell.id) currentEntry)
          with
        | error error =>
            refine .inr ⟨?_, error, rfl⟩
            rintro ⟨hone, -⟩
            obtain ⟨status, heq⟩ := hone hkinds
            cases heq
        | ok status =>
            rcases hrest with ⟨hrest, changed, heq⟩ | ⟨hrest, error, heq⟩
            · refine .inl ⟨⟨fun _ => ⟨status, rfl⟩, hrest⟩, status :: changed, ?_⟩
              simp only [Except.mapError, heq]
              rfl
            · refine .inr ⟨fun hall => hrest hall.2, error, ?_⟩
              simp only [Except.mapError, heq]

variable (deletedStatus) in
/-- The second loop raises if and only if the type of an entry that is deleted is none. -/
theorem deletedCells_cases (currentById : Dict CellId Untyped.SnapshotCell)
    (entries : List (PyJson.DictKey × Entry)) :
    ((∀ p ∈ entries, isCurrent currentById p.1.1 = false → (cellType? p.2.type).isSome) ∧
        ∃ deleted, deletedCells deletedStatus currentById entries = .ok deleted) ∨
      ((¬ ∀ p ∈ entries, isCurrent currentById p.1.1 = false → (cellType? p.2.type).isSome) ∧
        deletedCells deletedStatus currentById entries = .error .valueError) := by
  induction entries with
  | nil => exact .inl ⟨nofun, [], rfl⟩
  | cons p entries ih =>
      rw [List.forall_mem_cons, deletedCells]
      cases hcurrent : isCurrent currentById p.1.1 with
      | true =>
          rw [if_pos rfl]
          simpa using ih
      | false =>
          rw [if_neg Bool.false_ne_true]
          cases htype : cellType? p.2.type with
          | none => exact .inr ⟨fun h => absurd (h.1 rfl) (by decide), rfl⟩
          | some type =>
              rcases ih with ⟨hall, deleted, heq⟩ | ⟨hall, heq⟩
              · exact .inl ⟨⟨fun _ => rfl, hall⟩, _, by rw [heq]; rfl⟩
              · exact .inr ⟨fun h => hall h.2, by rw [heq]; rfl⟩

theorem isCurrent_byId {entries : List Untyped.SnapshotCell} {x : PyJson} :
    isCurrent (Untyped.byId entries) x = true ↔
      ∃ id ∈ entries.map (·.id), x = .str (pyStr id) := by
  unfold isCurrent
  cases x with
  | str s =>
      simp only [List.any_eq_true, decide_eq_true_eq, PyJson.str.injEq]
      have hkeys : ∀ id, id ∈ (Untyped.byId entries).keys ↔ id ∈ entries.map (·.id) := by
        intro id
        rw [Dict.mem_keys, Option.isSome_iff_exists, Untyped.exists_get?_byId_iff]
      constructor
      · rintro ⟨id, hid, heq⟩
        exact ⟨id, (hkeys id).mp hid, heq.symm⟩
      · rintro ⟨id, hid, heq⟩
        exact ⟨id, (hkeys id).mpr hid, heq.symm⟩
  | _ => simp

/-! ## The diff -/

/-- The types that the second loop reads are those of the last entries that no cell has the id of. -/
theorem forall_ofPairs_iff (hF : F.Lawful) {baseline : List Entry}
    (h : ∀ e ∈ baseline, e.id.hashable = true) {current : List Untyped.SnapshotCell} :
    (∀ p ∈ PyDict.ofPairs (PyJson.DictKey.same F) (pairsOf baseline h),
        isCurrent (Untyped.byId current) p.1.1 = false → (cellType? p.2.type).isSome) ↔
      ∀ e, LastWithId F baseline e → (∀ id ∈ current.map (·.id), e.id ≠ .str (pyStr id)) →
        (cellType? e.type).isSome := by
  have hcurrent : ∀ x : PyJson, isCurrent (Untyped.byId current) x = false ↔
      ∀ id ∈ current.map (·.id), x ≠ .str (pyStr id) := by
    intro x
    rw [← Bool.not_eq_true, isCurrent_byId]
    push Not
    rfl
  have hsame : ∀ (k k' : PyJson.DictKey) (e : Entry), PyJson.DictKey.same F k k' = true →
      ((isCurrent (Untyped.byId current) k.1 = false → (cellType? e.type).isSome) ↔
        (isCurrent (Untyped.byId current) k'.1 = false → (cellType? e.type).isSome)) := by
    intro k k' e hkk'
    have hstr : ∀ s, k.1 = .str s ↔ k'.1 = .str s := by
      intro s
      rw [← PyJson.same_str_iff (F := F) rfl, ← PyJson.same_str_iff (F := F) rfl,
        (PyJson.keyEq_same hF).congr_left hkk']
    rw [hcurrent, hcurrent]
    simp only [ne_eq, hstr]
  refine (PyDict.forall_mem_ofPairs_iff (PyJson.keyEq_same hF)
    (P := fun k e => isCurrent (Untyped.byId current) k.1 = false → (cellType? e.type).isSome)
    hsame (pairsOf baseline h)).trans ?_
  constructor
  · intro hall e hlast hid
    obtain ⟨k, hk, hkid⟩ := exists_last_pairsOf (h := h) hlast
    exact hall k e hk ((hcurrent _).mpr (hkid ▸ hid))
  · intro hall k e hk hid
    obtain ⟨hlast, hkid⟩ := last_pairsOf hk
    exact hall e hlast (hkid ▸ (hcurrent _).mp hid)

/-- Whatever is raised while the token is read becomes a `HypernoteError`. -/
theorem decodeSnapshotToken_error {limits : PyJson.ReadLimits} {token : PyStr} {error : Raised}
    (h : decodeSnapshotToken limits token = .error error) :
    ∃ message, error = .hypernoteError message := by
  unfold decodeSnapshotToken at h
  dsimp only at h
  split at h
  · cases h
  · exact ⟨_, (Except.error.inj h).symm⟩

/-- The diff, from the entries of the token on. -/
theorem handled_of_entries (hF : F.Lawful) {limits : PyJson.ReadLimits} {sha256 : String → String}
    {cells : List JsonCell} {token : PyStr} {current : List Untyped.SnapshotCell}
    {baseline : List Entry} (hcurrent : Untyped.snapshotCells F sha256 cells = .ok current)
    (hbaseline : decodeSnapshotToken limits token = .ok baseline) :
    Handled (diff F statusOf deletedStatus limits sha256 cells token) ↔
      (∀ e ∈ baseline, e.id.hashable = true) ∧
        (Shown F statusOf baseline (Untyped.byId current) cells →
          ∀ e, LastWithId F baseline e → (∀ cell ∈ cells, e.id ≠ .str (pyStr cell.id)) →
            (cellType? e.type).isSome) := by
  have hids := Untyped.map_id_of_snapshotCells hcurrent
  unfold diff Untyped.encodeSnapshotToken
  rw [hcurrent, hbaseline]
  by_cases h : ∀ e ∈ baseline, e.id.hashable = true
  · have hcells : ∀ cell ∈ cells, ∃ e, (Untyped.byId current).get? cell.id = some e := by
      intro cell hcell
      exact Untyped.exists_get?_byId_iff.mpr (hids ▸ List.mem_map_of_mem hcell)
    have hdeleted := deletedCells_cases deletedStatus (Untyped.byId current)
      (PyDict.ofPairs (PyJson.DictKey.same F) (pairsOf baseline h))
    simp only [forall_ofPairs_iff hF h, hids, List.forall_mem_map] at hdeleted
    rw [and_iff_right h]
    simp only [Except.map, Except.mapError, bind, Except.bind, baselineById_eq h]
    rcases changedCells_cases statusOf hF h hcells with
      ⟨hshown, changed, hchanged⟩ | ⟨hshown, error, hchanged⟩
    · rw [hchanged]
      rcases hdeleted with ⟨hall, deleted, hdeleted⟩ | ⟨hall, hdeleted⟩
      · rw [hdeleted]
        exact ⟨fun _ _ => hall, fun _ => trivial⟩
      · rw [hdeleted]
        exact ⟨False.elim, fun hall' => hall (hall' hshown)⟩
    · rw [hchanged]
      exact ⟨fun _ hshown' => absurd hshown' hshown, fun _ => trivial⟩
  · have hunhashable : ∃ e ∈ baseline, e.id.hashable = false := by
      push Not at h
      simpa only [ne_eq, Bool.not_eq_true] using h
    have hraised : baselineById F baseline = .error .typeError := by
      rw [baselineById, mapM_keyed_error hunhashable]
      rfl
    simp only [Except.map, Except.mapError, bind, Except.bind, hraised]
    exact ⟨False.elim, fun hall => h hall.1⟩

/-- No other exception than a `HypernoteError` leaves the diff if and only if, where the token can be
read, all ids in it can be keys and, unless a changed cell of the notebook cannot be shown, of the
entries with an id the last one has a type that is known or a cell of the notebook has its id. -/
theorem handled_iff (F : FloatValues) (hF : F.Lawful) (limits : PyJson.ReadLimits)
    (sha256 : String → String) {σ : Type}
    (statusOf : JsonCell → List ChangeKind → Except Untyped.Error σ)
    (deletedStatus : PyJson → CellType → PyJson → σ) (cells : List JsonCell) (token : PyStr) :
    Handled (diff F statusOf deletedStatus limits sha256 cells token) ↔
      ∀ current baseline, Untyped.snapshotCells F sha256 cells = .ok current →
        decodeSnapshotToken limits token = .ok baseline →
          (∀ e ∈ baseline, e.id.hashable = true) ∧
            (Shown F statusOf baseline (Untyped.byId current) cells →
              ∀ e, LastWithId F baseline e → (∀ cell ∈ cells, e.id ≠ .str (pyStr cell.id)) →
                (cellType? e.type).isSome) := by
  cases hcurrent : Untyped.snapshotCells F sha256 cells with
  | error error =>
      have hhandled : Handled (diff F statusOf deletedStatus limits sha256 cells token) := by
        unfold diff Untyped.encodeSnapshotToken
        rw [hcurrent]
        trivial
      exact ⟨fun _ => nofun, fun _ => hhandled⟩
  | ok current =>
      cases hbaseline : decodeSnapshotToken limits token with
      | error error =>
          have hhandled : Handled (diff F statusOf deletedStatus limits sha256 cells token) := by
            obtain ⟨message, rfl⟩ := decodeSnapshotToken_error hbaseline
            unfold diff Untyped.encodeSnapshotToken
            rw [hcurrent, hbaseline]
            trivial
          exact ⟨fun _ _ _ _ => nofun, fun _ => hhandled⟩
      | ok baseline =>
          rw [handled_of_entries hF hcurrent hbaseline]
          constructor
          · rintro h _ _ hcurrent' hbaseline'
            obtain rfl := Except.ok.inj hcurrent'
            obtain rfl := Except.ok.inj hbaseline'
            exact h
          · exact fun h => h current baseline rfl rfl

/-- The token of a text. -/
private def tokenOf (text : String) : PyStr :=
  pyStr (String.ofList (Base64.encode (utf8Encode text.toList)))

private theorem exists_decode_tokenOf {limits : PyJson.ReadLimits} {text : String}
    {P : List Entry → Bool}
    (h : ((PyJson.loads limits text.toList).bind payloadEntries?).any P = true) :
    ∃ entries, decodeSnapshotToken limits (tokenOf text) = .ok entries ∧ P entries = true := by
  obtain ⟨entries, hentries, hP⟩ := (Option.any_eq_true ..).mp h
  refine ⟨entries, ?_, hP⟩
  rw [decodeSnapshotToken, tokenOf, toChars?_pyStr, String.toList_ofList]
  simp only [Option.bind_eq_bind, Option.bind_some, Base64.decode_encode, utf8Decode?_utf8Encode,
    hentries]

/-- How deep values may be nested and how long integers may be by default. -/
private def defaultLimits : PyJson.ReadLimits := ⟨1000, 4300⟩

/-- One entry with an id of any JSON. -/
private def oneEntry (id : String) : String :=
  "\x7b\"cells\":[\x7b\"id\":" ++ id ++ ",\"type\":\"code\",\"order\":0,\"source_hash\":\"\"," ++
    "\"outputs_hash\":\"\",\"execution_count\":null\x7d]\x7d"

/-- The diff of an empty notebook. -/
private def emptyDiff (token : PyStr) : Except Raised (List PyJson) :=
  diff .byText (fun _ _ => .error .attributeError) (fun removedId _ _ => removedId) defaultLimits id
    [] token

/-- An id that is a lone surrogate. -/
theorem surrogate_id_handled : Handled (emptyDiff (tokenOf (oneEntry "\"\\ud800\""))) := by
  have hread : ((PyJson.loads defaultLimits (oneEntry "\"\\ud800\"").toList).bind
      payloadEntries?).any fun entries => entries.all fun e =>
        e.id.hashable && (cellType? e.type).isSome := by
    decide +kernel
  refine (handled_iff .byText FloatValues.lawful_byText defaultLimits id _ _ [] _).mpr ?_
  obtain ⟨entries, hdecode, hentries⟩ := exists_decode_tokenOf hread
  rw [List.all_eq_true] at hentries
  intro current baseline _ hbaseline
  obtain rfl := Except.ok.inj (hdecode.symm.trans hbaseline)
  constructor
  · exact fun e he => (Bool.and_eq_true_iff.mp (hentries e he)).1
  · rintro - e ⟨before, after, rfl, -⟩ -
    exact (Bool.and_eq_true_iff.mp (hentries e (by simp))).2

/-- An id that is a list. -/
theorem list_id_not_handled : ¬ Handled (emptyDiff (tokenOf (oneEntry "[]"))) := by
  have hread : ((PyJson.loads defaultLimits (oneEntry "[]").toList).bind
      payloadEntries?).any fun entries => entries.any fun e => !e.id.hashable := by
    decide +kernel
  obtain ⟨entries, hdecode, hentries⟩ := exists_decode_tokenOf hread
  obtain ⟨e, hmem, he⟩ := List.any_eq_true.mp hentries
  have hraised : emptyDiff (tokenOf (oneEntry "[]")) = .error .typeError := by
    unfold emptyDiff diff
    rw [hdecode]
    change (baselineById .byText entries >>= _) = _
    rw [baselineById, mapM_keyed_error ⟨e, hmem, by simpa using he⟩]
    rfl
  rw [hraised]
  exact id

end AnyToken

end Sdk

end Hypernote
