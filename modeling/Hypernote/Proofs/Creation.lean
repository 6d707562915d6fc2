import Hypernote.CreateNotebook
import Hypernote.Foundation.Machine
import Mathlib.Data.Finset.Card
/-!
# What a failed creation leaves behind

Every call creates one file at most, and nothing ever removes it: a call that raises leaves the store
as if it had not been made only where it has not created its file.
-/

namespace Hypernote

open Foundation

variable {ρ κ : Type} [DecidableEq ρ] {requests : CreateRequests ρ κ} {files files' : Dict ρ κ}
  {call call' : CreateCall ρ} {event : CreateEvent ρ κ} {index : Nat} {s s' : CreateState ρ κ}
  {l : CreateLabel ρ κ}

/-! ## The files -/

/-- The paths of the files. -/
def paths (files : Dict ρ κ) : Finset ρ := files.keys.toFinset

theorem mem_paths {path : ρ} : path ∈ paths files ↔ path ∈ files.keys := List.mem_toFinset

theorem paths_set (path : ρ) (content : κ) :
    paths (files.set path content) = insert path (paths files) := by
  ext other
  rw [Finset.mem_insert, mem_paths, mem_paths, Dict.mem_keys, Dict.mem_keys, Dict.get?_set]
  by_cases h : other = path <;> simp [h]

theorem paths_erase (path : ρ) : paths (files.erase path) = (paths files).erase path := by
  ext other
  rw [Finset.mem_erase, mem_paths, mem_paths, Dict.mem_keys, Dict.mem_keys, Dict.erase,
    Dict.get?_filterKeys]
  by_cases h : other = path <;> simp [h]

theorem paths_set_of_mem {path : ρ} (content : κ) (h : path ∈ paths files) :
    paths (files.set path content) = paths files := by
  rw [paths_set, Finset.insert_eq_of_mem h]

theorem paths_eq_of_get?_eq (h : ∀ path, files.get? path = files'.get? path) :
    paths files = paths files' := by
  ext path
  rw [mem_paths, mem_paths, Dict.mem_keys, Dict.mem_keys, h]

/-! ## A step of one call -/

/-- The file that a call has created and is not done with. -/
def ownedPath (requests : CreateRequests ρ κ) (index : Nat) : CreateCall ρ → Option ρ
  | .created path => some path
  | .saving | .openingRoom | .savingRoom | .reading => some (requests.notebookId index)
  | .notCalled | .returned | .raised _ => none

/-- The call has created its file. -/
def HasCreated (call : CreateCall ρ) : Prop :=
  match call with
  | .notCalled | .raised .newUntitled => False
  | _ => True

def CreateEvent.isUntitled : CreateEvent ρ κ → Bool
  | .untitled _ => true
  | _ => false

/-- What a step does to the paths of the files. -/
structure StepEffect (requests : CreateRequests ρ κ) (index : Nat) (files : Dict ρ κ)
    (call : CreateCall ρ) (event : CreateEvent ρ κ) (files' : Dict ρ κ) (call' : CreateCall ρ) :
    Prop where
  owned : ∀ path, ownedPath requests index call' = some path →
    path ∈ paths files' ∧ (ownedPath requests index call = some path ∨ path ∉ paths files)
  others : ∀ path ∈ paths files, ownedPath requests index call ≠ some path → path ∈ paths files'
  card : (paths files').card = (paths files).card + if event.isUntitled then 1 else 0
  created : HasCreated call' ↔ HasCreated call ∨ event.isUntitled = true
  unchanged : ¬ HasCreated call' → files' = files

/-- A step that writes to the call's own file, if at all. -/
theorem stepEffect_of_paths_eq (hpaths : paths files' = paths files)
    (howned : ∀ path, ownedPath requests index call' = some path →
      ownedPath requests index call = some path)
    (hmem : ∀ path, ownedPath requests index call = some path → path ∈ paths files)
    (hevent : event.isUntitled = false) (hcreated : HasCreated call' ↔ HasCreated call)
    (hunchanged : ¬ HasCreated call' → files' = files) :
    StepEffect requests index files call event files' call' where
  owned path h := ⟨hpaths ▸ hmem path (howned path h), .inl (howned path h)⟩
  others path h _ := hpaths ▸ h
  card := by rw [hpaths, hevent]; rfl
  created := by rw [hcreated, hevent]; simp
  unchanged := hunchanged

theorem stepEffect_raises {stage : CreateStage} (hstage : call.stage? = some stage)
    (hmem : ∀ path, ownedPath requests index call = some path → path ∈ paths files) :
    StepEffect requests index files call .raises files (.raised stage) := by
  refine stepEffect_of_paths_eq rfl nofun hmem rfl ?_ fun _ => rfl
  cases call <;> cases hstage <;> exact Iff.rfl

/-- `new_untitled` adds one file, which is the call's from then on. -/
theorem stepEffect_untitled {path : ρ} (hfresh : path ∉ paths files) :
    StepEffect requests index files .notCalled (.untitled path) (files.set path requests.blank)
      (if path = requests.notebookId index then .saving else .created path) := by
  have howned : ownedPath requests index
      (if path = requests.notebookId index then .saving else .created path) = some path := by
    split
    · rename_i heq
      exact congrArg some heq.symm
    · rfl
  have hcreated : HasCreated
      (if path = requests.notebookId index then CreateCall.saving else .created path) := by
    split <;> trivial
  refine ⟨?_, ?_, ?_, ?_, fun hnot => absurd hcreated hnot⟩
  · intro other hother
    obtain rfl := Option.some.inj (howned.symm.trans hother)
    rw [paths_set]
    exact ⟨Finset.mem_insert_self .., .inr hfresh⟩
  · intro other hother _
    rw [paths_set]
    exact Finset.mem_insert_of_mem hother
  · rw [paths_set, Finset.card_insert_of_notMem hfresh]
    rfl
  · exact iff_of_true hcreated (.inr rfl)

/-- `rename_file` gives the call's file its name, which no other file has. -/
theorem stepEffect_renamed {path : ρ} {content : κ} (hcreated : path ∈ paths files)
    (hfree : requests.notebookId index ∉ paths files) :
    StepEffect requests index files (.created path) .renamed
      ((files.erase path).set (requests.notebookId index) content) .saving := by
  have hfree' : requests.notebookId index ∉ (paths files).erase path :=
    fun hmem => hfree (Finset.mem_of_mem_erase hmem)
  refine ⟨?_, ?_, ?_, iff_of_true trivial (.inl trivial), fun hnot => absurd trivial hnot⟩
  · intro other hother
    obtain rfl := Option.some.inj hother
    rw [paths_set]
    exact ⟨Finset.mem_insert_self .., .inr hfree⟩
  · intro other hother hne
    rw [paths_set, paths_erase]
    refine Finset.mem_insert_of_mem (Finset.mem_erase.mpr ⟨?_, hother⟩)
    rintro rfl
    exact hne rfl
  · rw [paths_set, paths_erase, Finset.card_insert_of_notMem hfree',
      Finset.card_erase_add_one hcreated]
    rfl

theorem stepEffect (hmem : ∀ path, ownedPath requests index call = some path → path ∈ paths files)
    (h : createCallStep requests index files call event = some (files', call')) :
    StepEffect requests index files call event files' call' := by
  cases event with
  | raises =>
      have hraises : createCallStep requests index files call .raises =
          call.stage?.map fun stage => (files, .raised stage) := by
        cases call <;> rfl
      rw [hraises] at h
      obtain ⟨stage, hstage, heq⟩ := Option.map_eq_some_iff.mp h
      obtain ⟨rfl, rfl⟩ := Prod.mk.inj heq
      exact stepEffect_raises hstage hmem
  | untitled path =>
      cases call with
      | notCalled =>
          simp only [createCallStep] at h
          split at h
          · cases h
          · rename_i hfresh
            obtain ⟨rfl, rfl⟩ := Prod.mk.inj (Option.some.inj h)
            exact stepEffect_untitled (mem_paths.not.mpr hfresh)
      | _ => cases h
  | renamed =>
      cases call with
      | created path =>
          simp only [createCallStep] at h
          split at h
          · split at h
            · cases h
            · rename_i hfree
              obtain ⟨rfl, rfl⟩ := Prod.mk.inj (Option.some.inj h)
              exact stepEffect_renamed (hmem path rfl) (mem_paths.not.mpr hfree)
          · cases h
      | _ => cases h
  | saved =>
      cases call with
      | saving =>
          obtain ⟨rfl, rfl⟩ := Prod.mk.inj (Option.some.inj h)
          exact stepEffect_of_paths_eq (paths_set_of_mem _ (hmem _ rfl)) (fun _ h => h) hmem rfl
            Iff.rfl fun hnot => absurd trivial hnot
      | _ => cases h
  | roomOpened =>
      cases call with
      | openingRoom =>
          obtain ⟨rfl, rfl⟩ := Prod.mk.inj (Option.some.inj h)
          exact stepEffect_of_paths_eq rfl (fun _ h => h) hmem rfl Iff.rfl fun _ => rfl
      | _ => cases h
  | roomSaved content =>
      cases call with
      | savingRoom =>
          obtain ⟨rfl, rfl⟩ := Prod.mk.inj (Option.some.inj h)
          exact stepEffect_of_paths_eq (paths_set_of_mem _ (hmem _ rfl)) (fun _ h => h) hmem rfl
            Iff.rfl fun hnot => absurd trivial hnot
      | _ => cases h
  | modelRead =>
      cases call with
      | reading =>
          obtain ⟨rfl, rfl⟩ := Prod.mk.inj (Option.some.inj h)
          exact stepEffect_of_paths_eq rfl nofun hmem rfl Iff.rfl fun _ => rfl
      | _ => cases h

/-! ## All calls -/

/-- The files that calls are not done with are there, and each is one call's. -/
structure OwnFiles (requests : CreateRequests ρ κ) (s : CreateState ρ κ) : Prop where
  mem : ∀ index path, ownedPath requests index (s.calls index) = some path → path ∈ paths s.files
  distinct : ∀ index other path, ownedPath requests index (s.calls index) = some path →
    ownedPath requests other (s.calls other) = some path → index = other

theorem createStep_eq_some (h : createStep requests s l = some s') :
    ∃ call', createCallStep requests l.call s.files (s.calls l.call) l.event =
        some (s'.files, call') ∧ s'.calls = Function.update s.calls l.call call' := by
  obtain ⟨⟨files', call'⟩, hstep, rfl⟩ := Option.map_eq_some_iff.mp h
  exact ⟨call', hstep, rfl⟩

theorem ownFiles_step (hs : OwnFiles requests s) (h : createStep requests s l = some s') :
    OwnFiles requests s' := by
  obtain ⟨call', hstep, hcalls⟩ := createStep_eq_some h
  have heffect := stepEffect (hs.mem l.call) hstep
  -- what another call owns is still there, and the call that moves does not get it
  have hother : ∀ other path, other ≠ l.call →
      ownedPath requests other (s.calls other) = some path →
        path ∈ paths s'.files ∧ ownedPath requests l.call call' ≠ some path := by
    intro other path hne hpath
    have hmem := hs.mem other path hpath
    have hnot : ownedPath requests l.call (s.calls l.call) ≠ some path :=
      fun h => hne (hs.distinct other l.call path hpath h)
    refine ⟨heffect.others path hmem hnot, fun h => ?_⟩
    rcases (heffect.owned path h).2 with h | h
    · exact hnot h
    · exact h hmem
  constructor
  · intro index path hpath
    rw [hcalls] at hpath
    by_cases heq : index = l.call
    · subst heq
      rw [Function.update_self] at hpath
      exact (heffect.owned path hpath).1
    · rw [Function.update_of_ne heq] at hpath
      exact (hother index path heq hpath).1
  · intro index other path hpath hpath'
    rw [hcalls] at hpath hpath'
    by_cases heq : index = l.call
    · subst heq
      by_contra hne
      rw [Function.update_self] at hpath
      rw [Function.update_of_ne (Ne.symm hne)] at hpath'
      exact (hother other path (Ne.symm hne) hpath').2 hpath
    · rw [Function.update_of_ne heq] at hpath
      by_cases heq' : other = l.call
      · subst heq'
        rw [Function.update_self] at hpath'
        exact absurd hpath' (hother index path heq hpath).2
      · rw [Function.update_of_ne heq'] at hpath'
        exact hs.distinct index other path hpath hpath'

/-- A run adds as many files as calls create in it. -/
theorem card_exec {labels : List (CreateLabel ρ κ)} (hs : OwnFiles requests s)
    (h : exec (createStep requests) s labels = some s') :
    (paths s'.files).card = (paths s.files).card + labels.countP (·.event.isUntitled) := by
  induction labels generalizing s with
  | nil =>
      obtain rfl := Option.some.inj h
      rfl
  | cons l labels ih =>
      obtain ⟨t, hstep, hrest⟩ := Option.bind_eq_some_iff.mp h
      obtain ⟨call', hcall, -⟩ := createStep_eq_some hstep
      rw [ih (ownFiles_step hs hstep) hrest, (stepEffect (hs.mem l.call) hcall).card,
        List.countP_cons]
      omega

/-- A call that has created its file has done so in the run. -/
theorem exists_untitled {labels : List (CreateLabel ρ κ)} (hs : OwnFiles requests s)
    (h : exec (createStep requests) s labels = some s') (hnot : ¬ HasCreated (s.calls index))
    (hcreated : HasCreated (s'.calls index)) :
    ∃ l ∈ labels, l.call = index ∧ l.event.isUntitled = true := by
  induction labels generalizing s with
  | nil =>
      obtain rfl := Option.some.inj h
      exact absurd hcreated hnot
  | cons l labels ih =>
      obtain ⟨t, hstep, hrest⟩ := Option.bind_eq_some_iff.mp h
      obtain ⟨call', hcall, hcalls⟩ := createStep_eq_some hstep
      by_cases ht : HasCreated (t.calls index)
      · by_cases heq : index = l.call
        · subst heq
          rw [hcalls, Function.update_self] at ht
          rcases (stepEffect (hs.mem l.call) hcall).created.mp ht with hbefore | huntitled
          · exact absurd hbefore hnot
          · exact ⟨l, List.mem_cons_self, rfl, huntitled⟩
        · rw [hcalls, Function.update_of_ne heq] at ht
          exact absurd ht hnot
      · obtain ⟨l', hmem, hl'⟩ := ih (ownFiles_step hs hstep) hrest ht
        exact ⟨l', List.mem_cons_of_mem _ hmem, hl'⟩

/-- A call that has created its file has done so for good. -/
theorem hasCreated_exec {labels : List (CreateLabel ρ κ)} (hs : OwnFiles requests s)
    (h : exec (createStep requests) s labels = some s') (hcreated : HasCreated (s.calls index)) :
    HasCreated (s'.calls index) := by
  induction labels generalizing s with
  | nil =>
      obtain rfl := Option.some.inj h
      exact hcreated
  | cons l labels ih =>
      obtain ⟨t, hstep, hrest⟩ := Option.bind_eq_some_iff.mp h
      obtain ⟨call', hcall, hcalls⟩ := createStep_eq_some hstep
      refine ih (ownFiles_step hs hstep) hrest ?_
      rw [hcalls]
      by_cases heq : index = l.call
      · subst heq
        rw [Function.update_self]
        exact (stepEffect (hs.mem l.call) hcall).created.mpr (.inl hcreated)
      · rwa [Function.update_of_ne heq]

/-- The call that has not created its file has changed nothing: without its steps the others do what
they have done with them. -/
theorem exec_without {labels : List (CreateLabel ρ κ)} (hs : OwnFiles requests s)
    (h : exec (createStep requests) s labels = some s') (hnot : ¬ HasCreated (s'.calls index))
    {t : CreateState ρ κ} (hfiles : t.files = s.files)
    (hcalls : ∀ other, other ≠ index → t.calls other = s.calls other) :
    ∃ t', exec (createStep requests) t (labels.filter fun l => l.call ≠ index) = some t' ∧
      t'.files = s'.files := by
  induction labels generalizing s t with
  | nil =>
      obtain rfl := Option.some.inj h
      exact ⟨t, rfl, hfiles⟩
  | cons l labels ih =>
      obtain ⟨u, hstep, hrest⟩ := Option.bind_eq_some_iff.mp h
      obtain ⟨call', hcall, hcalls'⟩ := createStep_eq_some hstep
      have hu := ownFiles_step hs hstep
      by_cases heq : l.call = index
      · -- the step is left out: it has not changed the files
        subst heq
        have hnotYet : ¬ HasCreated call' := by
          intro hcreated
          refine hnot (hasCreated_exec hu hrest ?_)
          rwa [hcalls', Function.update_self]
        have hsame := (stepEffect (hs.mem l.call) hcall).unchanged hnotYet
        rw [List.filter_cons_of_neg (by simp)]
        refine ih hu hrest (hfiles.trans hsame.symm) fun other hother => ?_
        rw [hcalls other hother, hcalls', Function.update_of_ne hother]
      · have hstep' : createStep requests t l =
            some ⟨u.files, Function.update t.calls l.call call'⟩ := by
          rw [createStep, hfiles, hcalls l.call heq, hcall]
          rfl
        rw [List.filter_cons_of_pos (by simpa using heq), exec, hstep']
        refine ih hu hrest rfl fun other hother => ?_
        change Function.update t.calls l.call call' other = u.calls other
        rw [hcalls']
        by_cases hmoved : other = l.call
        · rw [hmoved, Function.update_self, Function.update_self]
        · rw [Function.update_of_ne hmoved, Function.update_of_ne hmoved, hcalls other hother]

/-! ## Failed calls -/

variable (requests) in
theorem ownFiles_start (files : Dict ρ κ) : OwnFiles requests (createStart files) where
  mem _ _ h := nomatch h
  distinct _ _ _ h := nomatch h

omit [DecidableEq ρ] in
theorem hasCreated_raised {stage : CreateStage} :
    HasCreated (.raised stage : CreateCall ρ) ↔ stage ≠ .newUntitled := by
  cases stage <;> simp [HasCreated]

/-- After a call has raised, the files are what they would be without its steps if and only if it has
raised in `new_untitled`. -/
theorem failed_creation_leaves_nothing_iff (requests : CreateRequests ρ κ) (files : Dict ρ κ)
    (labels : List (CreateLabel ρ κ)) (s : CreateState ρ κ)
    (hexec : exec (createStep requests) (createStart files) labels = some s) (index : Nat)
    (stage : CreateStage) (hraised : s.calls index = .raised stage) :
    (∃ t, exec (createStep requests) (createStart files)
          (labels.filter fun l => l.call ≠ index) = some t ∧
        ∀ path, t.files.get? path = s.files.get? path) ↔
      stage = .newUntitled := by
  have hstart := ownFiles_start requests files
  constructor
  · rintro ⟨t, ht, hsame⟩
    by_contra hstage
    have hcreated : HasCreated (s.calls index) := hraised ▸ hasCreated_raised.mpr hstage
    obtain ⟨l, hmem, hcall, huntitled⟩ := exists_untitled hstart hexec id hcreated
    have hcard := card_exec hstart hexec
    rw [← paths_eq_of_get?_eq hsame, card_exec hstart ht] at hcard
    -- the step that creates the call's file is not among those that are left
    have hfewer : (labels.filter fun l => l.call ≠ index).countP (·.event.isUntitled) <
        labels.countP (·.event.isUntitled) := by
      have hleft : 0 < (labels.filter fun l => !decide (l.call ≠ index)).countP
          (·.event.isUntitled) :=
        List.countP_pos_iff.mpr ⟨l, List.mem_filter.mpr ⟨hmem, by simp [hcall]⟩, huntitled⟩
      rw [List.countP_eq_countP_filter_add labels (·.event.isUntitled) fun l => l.call ≠ index]
      omega
    omega
  · rintro rfl
    have hnot : ¬ HasCreated (s.calls index) := by
      rw [hraised, hasCreated_raised]
      exact fun h => h rfl
    obtain ⟨t, ht, hfiles⟩ := exec_without hstart hexec hnot rfl fun _ _ => rfl
    exact ⟨t, ht, fun path => by rw [hfiles]⟩

/-- Two calls for the path "a" in an empty store, of which the second one raises in `new_untitled`. -/
private def samePath : CreateRequests String String := ⟨fun _ => "a", fun _ => "model", ""⟩

/-- The first one creates its file, and its `rename_file`, its save and its room go well. -/
private def firstCreates : List (CreateLabel String String) :=
  [⟨0, .untitled "Untitled"⟩, ⟨1, .raises⟩, ⟨0, .renamed⟩, ⟨0, .saved⟩, ⟨0, .roomOpened⟩,
    ⟨0, .roomSaved "model"⟩, ⟨0, .modelRead⟩]

theorem missing_directory_leaves_nothing :
    ∃ s, exec (createStep samePath) (createStart .empty) firstCreates = some s ∧
      ∃ t, exec (createStep samePath) (createStart .empty)
          (firstCreates.filter fun l => l.call ≠ 1) = some t ∧
        ∀ path, t.files.get? path = s.files.get? path :=
  ⟨_, rfl, (failed_creation_leaves_nothing_iff samePath .empty firstCreates _ rfl 1 .newUntitled
    rfl).mpr rfl⟩

/-- A notebook is created at a path at which there is one: `rename_file` raises, and the file of
`new_untitled` stays. -/
theorem existing_target_leaves_untitled :
    ∃ s, exec (createStep samePath) (createStart (Dict.empty.set "a" "old"))
        [⟨0, .untitled "Untitled"⟩, ⟨0, .raises⟩] = some s ∧
      s.calls 0 = .raised .renameFile ∧ s.files.get? "Untitled" = some "" ∧
      ∃ t, exec (createStep samePath) (createStart (Dict.empty.set "a" "old"))
          ([⟨0, .untitled "Untitled"⟩, ⟨0, .raises⟩].filter fun l => l.call ≠ 0) = some t ∧
        t.files.get? "Untitled" = none :=
  ⟨_, rfl, rfl, rfl, _, rfl, rfl⟩

end Hypernote
