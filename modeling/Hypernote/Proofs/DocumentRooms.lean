import Hypernote.DocumentRooms
/-!
# One room for a document

A call of `get_document_room` looks for the room before an await and adds it after one.  So all
calls for a document get one room as long as none looks for it while another is starting it; two
that do get two rooms, and only the room that is added last is found afterwards.
-/

namespace Hypernote

open Foundation

variable {ρ : Type}

/-- The room that a call works with, once it is in the table. -/
def OpenPc.room? : OpenPc ρ → Option (ρ × YRoom)
  | .gettingRoom roomId room => some (roomId, room)
  | .initializing roomId room | .returned roomId room => some (roomId, ⟨room, true⟩)
  | _ => none

/-- The call has made a room for the document and waits for its start. -/
def OpenPc.isStarting [DecidableEq ρ] (d : ρ) : OpenPc ρ → Bool
  | .startingRoom roomId _ => roomId = d
  | _ => false

namespace RoomServer

variable {s s' : RoomServer ρ} {l : RoomLabel ρ} {d : ρ} {i j : Nat} {pc : OpenPc ρ}

/-! ## The steps -/

/-- One call is at `pc` afterwards, and every other call is where it was. -/
def Puts (s : RoomServer ρ) (i : Nat) (pc : OpenPc ρ) (s' : RoomServer ρ) : Prop :=
  ∀ j, s'.calls[j]? = if j = i then some pc else s.calls[j]?

theorem puts_set {old : OpenPc ρ} (hi : s.calls[i]? = some old)
    (h : s'.calls = s.calls.set i pc) : s.Puts i pc s' := by
  intro j
  have hlt := (List.getElem?_eq_some_iff.mp hi).1
  rw [h]
  by_cases hj : j = i
  · rw [if_pos hj, hj]
    exact List.getElem?_set_self hlt
  · rw [if_neg hj]
    exact List.getElem?_set_ne (Ne.symm hj)

theorem puts_append (h : s'.calls = s.calls ++ [pc]) : s.Puts s.calls.length pc s' := by
  intro j
  rw [h]
  by_cases hj : j = s.calls.length
  · rw [if_pos hj, hj, List.getElem?_concat_length]
  · rw [if_neg hj, List.getElem?_append]
    split
    · rfl
    · rw [List.getElem?_eq_none (by simp; omega), List.getElem?_eq_none (by omega)]

theorem calls_findRoom (s : RoomServer ρ) (roomId : ρ) :
    (s.findRoom roomId).1.calls = s.calls := by
  unfold findRoom
  split <;> rfl

variable [DecidableEq ρ]

/-- A call is starting a room for the document. -/
def Starting (s : RoomServer ρ) (d : ρ) : Prop := ∃ pc ∈ s.calls, pc.isStarting d

instance (s : RoomServer ρ) (d : ρ) : Decidable (s.Starting d) :=
  inferInstanceAs (Decidable (∃ pc ∈ s.calls, _))

/-- The step asks whether there is a room for the document. -/
def LooksFor (s : RoomServer ρ) (d : ρ) : RoomLabel ρ → Prop
  | .call roomId => roomId = d ∧ s.started
  | .wake call => s.calls[call]? = some (.waitingStarted d)
  | _ => False

/-- The collaboration extension adds a room for the document beside another, or deletes its room. -/
def Disturbs (s : RoomServer ρ) (d : ρ) : RoomLabel ρ → Prop
  | .addRoom roomId _ => roomId = d ∧ ((s.rooms d).isSome ∨ s.Starting d)
  | .deleteRoom roomId => roomId = d
  | _ => False

instance (s : RoomServer ρ) (d : ρ) (l : RoomLabel ρ) : Decidable (s.LooksFor d l) :=
  match l with
  | .call _ => inferInstanceAs (Decidable (_ ∧ _))
  | .wake _ => inferInstanceAs (Decidable (_ = _))
  | .serverStarted | .gotRoom _ | .roomStarted _ | .initialized _ | .fail _ | .addRoom _ _
  | .deleteRoom _ => .isFalse id

instance (s : RoomServer ρ) (d : ρ) (l : RoomLabel ρ) : Decidable (s.Disturbs d l) :=
  match l with
  | .addRoom _ _ => inferInstanceAs (Decidable (_ ∧ _))
  | .deleteRoom _ => inferInstanceAs (Decidable (_ = _))
  | .call _ | .serverStarted | .wake _ | .gotRoom _ | .roomStarted _ | .initialized _
  | .fail _ => .isFalse id

/-- No call looks for the room while another is starting it, and the extension does not disturb. -/
def OpensAlone (d : ρ) (s : RoomServer ρ) (l : RoomLabel ρ) : Prop :=
  (s.LooksFor d l → ¬ s.Starting d) ∧ ¬ s.Disturbs d l

instance (d : ρ) (s : RoomServer ρ) (l : RoomLabel ρ) : Decidable (OpensAlone d s l) :=
  inferInstanceAs (Decidable ((_ → _) ∧ _))

/-- What a step does: what it asks, which call it moves, and what becomes of the table. -/
inductive StepCase (s : RoomServer ρ) : RoomLabel ρ → RoomServer ρ → Prop
  | waits {roomId : ρ} {i : Nat} {s' : RoomServer ρ} (hstarted : s.started = false)
      (hrooms : s'.rooms = s.rooms) (hmade : s'.made = s.made)
      (hputs : s.Puts i (.waitingStarted roomId) s') : StepCase s (.call roomId) s'
  | finds {l : RoomLabel ρ} {roomId : ρ} {i : Nat} {found : YRoom} {s' : RoomServer ρ}
      (hlooks : s.LooksFor roomId l) (hfound : s.rooms roomId = some found)
      (hrooms : s'.rooms = s.rooms) (hmade : s'.made = s.made)
      (hputs : s.Puts i (.gettingRoom roomId found) s') : StepCase s l s'
  | makes {l : RoomLabel ρ} {roomId : ρ} {i : Nat} {s' : RoomServer ρ}
      (hlooks : s.LooksFor roomId l) (hnone : s.rooms roomId = none)
      (hi : ∀ pc, s.calls[i]? = some pc → pc = .waitingStarted roomId)
      (hrooms : s'.rooms = s.rooms) (hmade : s'.made = s.made + 1)
      (hputs : s.Puts i (.startingRoom roomId s.made) s') : StepCase s l s'
  | got {roomId : ρ} {i : Nat} {found : YRoom} {s' : RoomServer ρ}
      (hi : s.calls[i]? = some (.gettingRoom roomId found)) (hrooms : s'.rooms = s.rooms)
      (hmade : s'.made = s.made) (hputs : s.Puts i (gotRoom roomId found) s') :
      StepCase s (.gotRoom i) s'
  | adds {roomId : ρ} {i room : Nat} {s' : RoomServer ρ}
      (hi : s.calls[i]? = some (.startingRoom roomId room))
      (hrooms : s'.rooms = Function.update s.rooms roomId (some ⟨room, true⟩))
      (hmade : s'.made = s.made) (hputs : s.Puts i (.initializing roomId room) s') :
      StepCase s (.roomStarted i) s'
  | returns {roomId : ρ} {i room : Nat} {s' : RoomServer ρ}
      (hi : s.calls[i]? = some (.initializing roomId room))
      (hrooms : s'.rooms = s.rooms) (hmade : s'.made = s.made)
      (hputs : s.Puts i (.returned roomId room) s') : StepCase s (.initialized i) s'
  | fails {roomId : ρ} {i : Nat} {s' : RoomServer ρ} (hrooms : s'.rooms = s.rooms)
      (hmade : s'.made = s.made) (hputs : s.Puts i (.raised roomId) s') : StepCase s (.fail i) s'
  | started {s' : RoomServer ρ} (hrooms : s'.rooms = s.rooms) (hmade : s'.made = s.made)
      (hcalls : s'.calls = s.calls) : StepCase s .serverStarted s'
  | added {roomId : ρ} {isDocumentRoom : Bool} {s' : RoomServer ρ}
      (hrooms : s'.rooms = Function.update s.rooms roomId (some ⟨s.made, isDocumentRoom⟩))
      (hmade : s'.made = s.made + 1) (hcalls : s'.calls = s.calls) :
      StepCase s (.addRoom roomId isDocumentRoom) s'
  | deleted {roomId : ρ} {s' : RoomServer ρ}
      (hrooms : s'.rooms = Function.update s.rooms roomId none) (hmade : s'.made = s.made)
      (hcalls : s'.calls = s.calls) : StepCase s (.deleteRoom roomId) s'

/-- What is asked of the table is answered from it, and a call that finds nothing makes a room. -/
theorem StepCase.of_findRoom {roomId : ρ} (hlooks : s.LooksFor roomId l)
    (hi : ∀ pc, s.calls[i]? = some pc → pc = .waitingStarted roomId)
    (hrooms : s'.rooms = (s.findRoom roomId).1.rooms) (hmade : s'.made = (s.findRoom roomId).1.made)
    (hputs : s.Puts i (s.findRoom roomId).2 s') : StepCase s l s' := by
  unfold findRoom at hrooms hmade hputs
  split at hrooms
  case h_1 found hfound =>
      rw [hfound] at hmade hputs
      exact .finds hlooks hfound hrooms hmade hputs
  case h_2 hnone =>
      rw [hnone] at hmade hputs
      exact .makes hlooks hnone hi hrooms hmade hputs

theorem step_call (s : RoomServer ρ) (roomId : ρ) :
    s.step (.call roomId) = some { (s.getDocumentRoom roomId).1 with
      calls := (s.getDocumentRoom roomId).1.calls ++ [(s.getDocumentRoom roomId).2] } := rfl

theorem step_cases (h : s.step l = some s') : StepCase s l s' := by
  cases l with
  | call roomId =>
      rw [step_call, getDocumentRoom] at h
      by_cases hstarted : s.started
      · rw [if_pos hstarted] at h
        obtain rfl := Option.some.inj h
        refine .of_findRoom ⟨rfl, hstarted⟩ (fun pc hpc => ?_) rfl rfl
          (puts_append (by rw [calls_findRoom]))
        rw [List.getElem?_eq_none (Nat.le_refl _)] at hpc
        cases hpc
      · rw [if_neg hstarted] at h
        obtain rfl := Option.some.inj h
        exact .waits (Bool.eq_false_iff.mpr hstarted) rfl rfl (puts_append rfl)
  | serverStarted =>
      rw [step] at h
      split at h
      case isTrue =>
          obtain rfl := Option.some.inj h
          exact .started rfl rfl rfl
      case isFalse => cases h
  | wake i =>
      rw [step] at h
      split at h
      case h_1 roomId hi =>
          split at h
          case isTrue =>
              obtain rfl := Option.some.inj h
              refine .of_findRoom hi (fun pc hpc => ?_) rfl rfl
                (puts_set hi (congrArg (List.set · i _) (calls_findRoom s roomId)))
              rw [hi] at hpc
              exact (Option.some.inj hpc).symm
          case isFalse => cases h
      case h_2 => cases h
  | gotRoom i =>
      rw [step] at h
      split at h
      case h_1 hi =>
          obtain rfl := Option.some.inj h
          exact .got hi rfl rfl (puts_set hi rfl)
      case h_2 => cases h
  | roomStarted i =>
      rw [step] at h
      split at h
      case h_1 hi =>
          obtain rfl := Option.some.inj h
          exact .adds hi rfl rfl (puts_set hi rfl)
      case h_2 => cases h
  | initialized i =>
      rw [step] at h
      split at h
      case h_1 hi =>
          obtain rfl := Option.some.inj h
          exact .returns hi rfl rfl (puts_set hi rfl)
      case h_2 => cases h
  | fail i =>
      rw [step] at h
      split at h
      case h_4 => cases h
      all_goals
        obtain rfl := Option.some.inj h
        exact .fails rfl rfl (puts_set ‹_› rfl)
  | addRoom roomId isDocumentRoom =>
      obtain rfl := Option.some.inj h
      exact .added rfl rfl rfl
  | deleteRoom roomId =>
      obtain rfl := Option.some.inj h
      exact .deleted rfl rfl rfl

/-! ## One room at a time -/

/-- At most one call is starting a room for the document, and only while there is none; the room
that a call works with is the one in the table. -/
structure OneRoom (s : RoomServer ρ) (d : ρ) : Prop where
  starting_unique : ∀ {i j : Nat} {pc pc' : OpenPc ρ}, s.calls[i]? = some pc →
    s.calls[j]? = some pc' → pc.isStarting d → pc'.isStarting d → i = j
  starting_none : s.Starting d → s.rooms d = none
  used : ∀ {pc : OpenPc ρ} {room : YRoom}, pc ∈ s.calls → pc.room? = some (d, room) →
    s.rooms d = some room

theorem oneRoom_start (d : ρ) : (start : RoomServer ρ).OneRoom d where
  starting_unique := fun h => by cases h
  starting_none := fun _ => rfl
  used := fun h => by cases h

omit [DecidableEq ρ] in
theorem Puts.mem {pc' : OpenPc ρ} (h : s.Puts i pc s') (hmem : pc' ∈ s'.calls) :
    pc' = pc ∨ pc' ∈ s.calls := by
  obtain ⟨j, hj⟩ := List.mem_iff_getElem?.mp hmem
  rw [h j] at hj
  split at hj
  · exact .inl (Option.some.inj hj).symm
  · exact .inr (List.mem_of_getElem? hj)

/-- The calls that are starting a room afterwards were so before, or the moved call is. -/
theorem Puts.starting (h : s.Puts i pc s') (hpc : pc.isStarting d = false) {j : Nat}
    {pc' : OpenPc ρ} (hj : s'.calls[j]? = some pc') (hstarting : pc'.isStarting d) :
    j ≠ i ∧ s.calls[j]? = some pc' := by
  rw [h j] at hj
  split at hj
  · cases hj
    rw [hpc] at hstarting
    cases hstarting
  · exact ⟨‹_›, hj⟩

/-- A call moves on to what agrees with the table, and the entry of the document stays. -/
theorem OneRoom.put (h : s.OneRoom d) (hrooms : s'.rooms d = s.rooms d) (hputs : s.Puts i pc s')
    (hpc : pc.isStarting d = false)
    (hroom : ∀ room, pc.room? = some (d, room) → s.rooms d = some room) : s'.OneRoom d where
  starting_unique hi hj hpc₁ hpc₂ :=
    h.starting_unique (hputs.starting hpc hi hpc₁).2 (hputs.starting hpc hj hpc₂).2
      hpc₁ hpc₂
  starting_none := by
    rintro ⟨pc', hmem, hpc'⟩
    obtain ⟨j, hj⟩ := List.mem_iff_getElem?.mp hmem
    rw [hrooms]
    exact h.starting_none ⟨pc', List.mem_of_getElem? (hputs.starting hpc hj hpc').2, hpc'⟩
  used hmem hpc' := by
    rw [hrooms]
    rcases hputs.mem hmem with rfl | hmem
    · exact hroom _ hpc'
    · exact h.used hmem hpc'

theorem OneRoom.of_calls_eq (h : s.OneRoom d) (hcalls : s'.calls = s.calls)
    (hrooms : s'.rooms d = s.rooms d) : s'.OneRoom d where
  starting_unique := by
    rw [hcalls]
    exact h.starting_unique
  starting_none := by
    rw [Starting, hcalls, hrooms]
    exact h.starting_none
  used := by
    rw [hcalls, hrooms]
    exact h.used

/-- The only call that looks for the room finds none and makes one. -/
theorem OneRoom.make {room : Nat} (h : s.OneRoom d) (hfirst : ¬ s.Starting d)
    (hnone : s.rooms d = none) (hrooms : s'.rooms = s.rooms)
    (hputs : s.Puts i (.startingRoom d room) s') : s'.OneRoom d := by
  have hsole (j : Nat) (pc : OpenPc ρ) (hj : s'.calls[j]? = some pc) (hpc : pc.isStarting d) :
      j = i := by
    rw [hputs j] at hj
    split at hj
    · assumption
    · exact absurd ⟨pc, List.mem_of_getElem? hj, hpc⟩ hfirst
  exact
    { starting_unique := fun hi hj hpc hpc' =>
        (hsole _ _ hi hpc).trans (hsole _ _ hj hpc').symm
      starting_none := fun _ => by rw [hrooms, hnone]
      used := fun hmem hpc => by
        rw [hrooms]
        rcases hputs.mem hmem with rfl | hmem
        · cases hpc
        · exact h.used hmem hpc }

/-- The room that a call has made is started and added. -/
theorem OneRoom.add {room : Nat} (h : s.OneRoom d)
    (hi : s.calls[i]? = some (.startingRoom d room))
    (hrooms : s'.rooms = Function.update s.rooms d (some ⟨room, true⟩))
    (hputs : s.Puts i (.initializing d room) s') : s'.OneRoom d := by
  have hnone := h.starting_none ⟨_, List.mem_of_getElem? hi, by simp [OpenPc.isStarting]⟩
  have hsole (j : Nat) (pc : OpenPc ρ) (hj : s'.calls[j]? = some pc) : pc.isStarting d = false := by
    by_contra hpc
    rw [Bool.not_eq_false] at hpc
    obtain ⟨hne, hj⟩ := hputs.starting rfl hj hpc
    exact hne (h.starting_unique hj hi hpc (by simp [OpenPc.isStarting]))
  have hroom : s'.rooms d = some ⟨room, true⟩ := by rw [hrooms, Function.update_self]
  exact
    { starting_unique := fun hi _ hpc _ => by simp [hsole _ _ hi] at hpc
      starting_none := by
        rintro ⟨pc, hmem, hpc⟩
        obtain ⟨j, hj⟩ := List.mem_iff_getElem?.mp hmem
        simp [hsole j pc hj] at hpc
      used := fun hmem hpc => by
        rw [hroom]
        rcases hputs.mem hmem with rfl | hmem
        · cases hpc
          rfl
        · -- a room in use would have been in the table
          rw [h.used hmem hpc] at hnone
          cases hnone }

theorem OneRoom.step (h : s.OneRoom d) (halone : OpensAlone d s l) (hstep : StepCase s l s') :
    s'.OneRoom d := by
  obtain ⟨hlooks, hquiet⟩ := halone
  cases hstep with
  | waits _ hrooms _ hputs =>
      exact h.put (congrFun hrooms d) hputs rfl fun _ hroom => by cases hroom
  | finds _ hfound hrooms _ hputs =>
      refine h.put (congrFun hrooms d) hputs rfl fun room hroom => ?_
      cases hroom
      exact hfound
  | @makes _ roomId _ _ hlooks' hnone _ hrooms _ hputs =>
      by_cases hd : roomId = d
      · subst hd
        exact h.make (hlooks hlooks') hnone hrooms hputs
      · exact h.put (congrFun hrooms d) hputs (by simp [OpenPc.isStarting, hd])
          fun _ hroom => by cases hroom
  | @got roomId _ found _ hi hrooms _ hputs =>
      refine h.put (congrFun hrooms d) hputs ?_ fun room hroom => ?_
      · unfold gotRoom
        split <;> rfl
      · unfold gotRoom at hroom
        split at hroom
        case isFalse => cases hroom
        case isTrue hdocument =>
            cases hroom
            have hfound := h.used (List.mem_of_getElem? hi) rfl
            rwa [← hdocument]
  | @adds roomId _ _ _ hi hrooms _ hputs =>
      by_cases hd : roomId = d
      · subst hd
        exact h.add hi hrooms hputs
      · refine h.put ?_ hputs rfl fun room hroom => ?_
        · rw [hrooms, Function.update_of_ne (Ne.symm hd)]
        · cases hroom
          exact absurd rfl hd
  | returns hi hrooms _ hputs =>
      refine h.put (congrFun hrooms d) hputs rfl fun room hroom => ?_
      exact h.used (List.mem_of_getElem? hi) hroom
  | fails hrooms _ hputs =>
      exact h.put (congrFun hrooms d) hputs rfl fun _ hroom => by cases hroom
  | started hrooms _ hcalls => exact h.of_calls_eq hcalls (congrFun hrooms d)
  | @added roomId _ _ hrooms _ hcalls =>
      by_cases hd : roomId = d
      · subst hd
        have hnone : s.rooms roomId = none := by
          by_contra hsome
          exact hquiet ⟨rfl, .inl (Option.isSome_iff_ne_none.mpr hsome)⟩
        have hidle : ¬ s'.Starting roomId := by
          rw [Starting, hcalls]
          exact fun hstarting => hquiet ⟨rfl, .inr hstarting⟩
        exact
          { starting_unique := by
              rw [hcalls]
              exact h.starting_unique
            starting_none := fun hstarting => absurd hstarting hidle
            used := fun hmem hpc => by
              rw [hcalls] at hmem
              rw [h.used hmem hpc] at hnone
              cases hnone }
      · exact h.of_calls_eq hcalls (by rw [hrooms, Function.update_of_ne (Ne.symm hd)])
  | @deleted roomId _ hrooms _ hcalls =>
      have hd : d ≠ roomId := fun hd => hquiet hd.symm
      exact h.of_calls_eq hcalls (by rw [hrooms, Function.update_of_ne hd])

theorem oneRoom_run (h : Run step (OpensAlone d) start s) : s.OneRoom d :=
  h.invariant (I := (OneRoom · d)) (oneRoom_start d) fun _ _ _ hs halone hstep =>
    hs.step halone (step_cases hstep)

/-- As long as nobody looks for the room of a document while a call is starting it, every call for
the document that has returned has returned the one room that is in the table. -/
theorem document_opened_once (h : Run step (OpensAlone d) start s) {room : Nat}
    (hreturned : .returned d room ∈ s.calls) : s.rooms d = some ⟨room, true⟩ :=
  (oneRoom_run h).used hreturned rfl

/-- The second call comes while the first one is initializing the room. -/
theorem second_call_gets_first_room :
    ∃ s : RoomServer String,
      s.calls = [.returned "json:notebook:1" 0, .returned "json:notebook:1" 0] ∧
        s.rooms "json:notebook:1" = some ⟨0, true⟩ := by
  obtain ⟨s, hrun, hcalls⟩ :=
    @exists_guarded_run_of_exec _ _ step (OpensAlone "json:notebook:1") _ start
      [.call "json:notebook:1", .serverStarted, .wake 0, .roomStarted 0,
        .call "json:notebook:1", .initialized 0, .gotRoom 1, .addRoom "json:notebook:2" true,
        .initialized 1, .deleteRoom "json:notebook:2"]
      (fun s => s.calls = [.returned "json:notebook:1" 0, .returned "json:notebook:1" 0]) _
      (by decide) (by decide)
  exact ⟨s, hcalls, document_opened_once hrun (by rw [hcalls]; exact List.mem_cons_self)⟩

/-! ## Two calls at once -/

/-- The calls for the document that have returned have returned one room. -/
def Agree (s : RoomServer ρ) (d : ρ) : Prop :=
  ∀ room room', .returned d room ∈ s.calls → .returned d room' ∈ s.calls → room = room'

/-- The rooms that are being started have been made. -/
def MadeBefore (s : RoomServer ρ) : Prop :=
  ∀ d room, .startingRoom d room ∈ s.calls → room < s.made

theorem MadeBefore.step (h : s.MadeBefore) (hstep : StepCase s l s') : s'.MadeBefore := by
  intro d room hmem
  cases hstep with
  | waits _ _ hmade hputs | finds _ _ _ hmade hputs | adds _ _ hmade hputs | returns _ _ hmade hputs
  | fails _ hmade hputs =>
      rw [hmade]
      rcases hputs.mem hmem with hnew | hold
      · cases hnew
      · exact h d room hold
  | got _ _ hmade hputs =>
      rw [hmade]
      rcases hputs.mem hmem with hnew | hold
      · unfold gotRoom at hnew
        split at hnew <;> cases hnew
      · exact h d room hold
  | makes _ _ _ _ hmade hputs =>
      rw [hmade]
      rcases hputs.mem hmem with hnew | hold
      · cases hnew
        omega
      · have hlt := h d room hold
        omega
  | started _ hmade hcalls | deleted _ hmade hcalls =>
      rw [hcalls] at hmem
      rw [hmade]
      exact h d room hmem
  | added _ hmade hcalls =>
      rw [hcalls] at hmem
      have hlt := h d room hmem
      omega

/-- A call that is starting a room can go on to return it while the other calls stay. -/
theorem exists_returned {room : Nat} (hi : s.calls[i]? = some (.startingRoom d room)) :
    ∃ t, Run step (OpensAlone d) s t ∧ t.calls = s.calls.set i (.returned d room) := by
  have hlt := (List.getElem?_eq_some_iff.mp hi).1
  have hadded : s.step (.roomStarted i) =
      some ((s.addRoom d ⟨room, true⟩).setCall i (.initializing d room)) := by
    rw [step, hi]
  have hinitialized : ((s.addRoom d ⟨room, true⟩).setCall i (.initializing d room)).step
      (.initialized i) =
        some (((s.addRoom d ⟨room, true⟩).setCall i (.initializing d room)).setCall i
          (.returned d room)) := by
    have hset : (s.calls.set i (OpenPc.initializing d room))[i]? = some (.initializing d room) :=
      List.getElem?_set_self hlt
    simp only [step, setCall, addRoom, hset]
  exact ⟨_, (Run.single ⟨False.elim, id⟩ hadded).trans (.single ⟨False.elim, id⟩ hinitialized),
    List.set_set ..⟩

/-- A call that looks for the room while another call is starting it makes a second one. -/
theorem StepCase.makes_second (hstep : StepCase s l s') (hlooks : s.LooksFor d l)
    (hnone : s.rooms d = none) :
    ∃ i, (∀ pc, s.calls[i]? = some pc → pc = .waitingStarted d) ∧
      s.Puts i (.startingRoom d s.made) s' := by
  have hsame {roomId : ρ} (h : s.LooksFor roomId l) : roomId = d := by
    cases l with
    | call r => exact h.1.symm.trans hlooks.1
    | wake i =>
        have heq := Eq.trans (Eq.symm h) hlooks
        cases heq
        rfl
    | _ => exact absurd hlooks id
  cases hstep with
  | waits hstarted =>
      rw [hlooks.2] at hstarted
      cases hstarted
  | finds hlooks' hfound =>
      rw [hsame hlooks', hnone] at hfound
      cases hfound
  | makes hlooks' _ hi _ _ hputs =>
      obtain rfl := hsame hlooks'
      exact ⟨_, hi, hputs⟩
  | _ => exact absurd hlooks id

/-- As long as each call has opened the document alone, the next step keeps all calls from ever
returning different rooms exactly when it does not look for the room while a call is starting it. -/
theorem agree_iff_opens_alone (h : Run step (OpensAlone d) start s) (hstep : s.step l = some s')
    (hquiet : ¬ s.Disturbs d l) :
    (∀ t, Run step (OpensAlone d) s' t → t.Agree d) ↔ (s.LooksFor d l → ¬ s.Starting d) := by
  constructor
  · rintro hagree hlooks ⟨pc, hmem, hpc⟩
    obtain ⟨j, hj⟩ := List.mem_iff_getElem?.mp hmem
    obtain ⟨room, rfl⟩ : ∃ room, pc = .startingRoom d room := by
      cases pc with
      | startingRoom roomId room =>
          rw [OpenPc.isStarting, decide_eq_true_eq] at hpc
          exact ⟨room, by rw [hpc]⟩
      | _ => cases hpc
    have hlt : room < s.made :=
      h.invariant (I := MadeBefore) (fun _ _ hmem => by cases hmem)
        (fun _ _ _ hs _ hstep => hs.step (step_cases hstep)) d room hmem
    obtain ⟨i, hi, hputs⟩ :=
      (step_cases hstep).makes_second hlooks ((oneRoom_run h).starting_none ⟨_, hmem, hpc⟩)
    have hne : j ≠ i := by
      rintro rfl
      cases hi _ hj
    -- the call that was first returns its room, and then the other one returns another
    have hi' : s'.calls[i]? = some (.startingRoom d s.made) := by rw [hputs, if_pos rfl]
    have hj' : s'.calls[j]? = some (.startingRoom d room) := by rw [hputs, if_neg hne, hj]
    obtain ⟨t, ht, htcalls⟩ := exists_returned hj'
    have hti : t.calls[i]? = some (.startingRoom d s.made) := by
      rw [htcalls, List.getElem?_set_ne hne, hi']
    obtain ⟨u, hu, hucalls⟩ := exists_returned hti
    have hui : u.calls[i]? = some (.returned d s.made) := by
      rw [hucalls, List.getElem?_set_self (List.getElem?_eq_some_iff.mp hti).1]
    have huj : u.calls[j]? = some (.returned d room) := by
      rw [hucalls, List.getElem?_set_ne hne.symm, htcalls,
        List.getElem?_set_self (List.getElem?_eq_some_iff.mp hj').1]
    have heq := hagree u (ht.trans hu) _ _ (List.mem_of_getElem? huj) (List.mem_of_getElem? hui)
    omega
  · intro halone t ht room room' hroom hroom'
    have hrun : Run step (OpensAlone d) start t :=
      (Run.tail h ⟨halone, hquiet⟩ hstep).trans ht
    have heq := (document_opened_once hrun hroom).symm.trans (document_opened_once hrun hroom')
    cases heq
    rfl

/-- A second call comes while the first one is starting the room. -/
theorem two_first_calls :
    ∃ s s' : RoomServer String, s.calls = [.startingRoom "json:notebook:1" 0] ∧
      s'.calls = [.startingRoom "json:notebook:1" 0, .startingRoom "json:notebook:1" 1] ∧
      ((∀ t, Run step (OpensAlone "json:notebook:1") s' t → t.Agree "json:notebook:1") ↔
        (s.LooksFor "json:notebook:1" (.call "json:notebook:1") →
          ¬ s.Starting "json:notebook:1")) := by
  obtain ⟨s, hrun, hcalls, hstep⟩ :=
    @exists_guarded_run_of_exec _ _ step (OpensAlone "json:notebook:1") _ start
      [.call "json:notebook:1", .serverStarted, .wake 0]
      (fun s => s.calls = [.startingRoom "json:notebook:1" 0] ∧
        (s.step (.call "json:notebook:1")).any (·.calls =
          [.startingRoom "json:notebook:1" 0, .startingRoom "json:notebook:1" 1])) _
      (by decide) (by decide)
  obtain ⟨s', hs', hcalls'⟩ := (Option.any_eq_true ..).mp hstep
  exact ⟨s, s', hcalls, of_decide_eq_true hcalls', agree_iff_opens_alone hrun hs' id⟩

end RoomServer

end Hypernote
