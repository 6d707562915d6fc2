import Hypernote.EnsureSubshell
import Hypernote.Foundation.Histories
/-!
# The reply that a call takes

A call of `ensure_subshell` passes over the replies to other requests, and takes the first reply to
its own.  It falls back where there is none in time, but it does not where it cannot read a message,
or cannot send the request: then it raises.
-/

namespace Hypernote

open Foundation

namespace SubshellCall

/-- The `msg_id` of the parent is that of the request. -/
def answers (requestId : PyStr) (reply : PyJson) : Bool :=
  ((reply.member? "parent_header").bind (·.member? "msg_id")).any (·.isStr requestId)

/-- The subshell id of a reply that says it has created one. -/
def createdId? (reply : PyJson) : Option PyJson :=
  (reply.member? "content").bind fun content =>
    if (content.member? "status").any (·.isStr (pyStr "ok")) then content.member? "subshell_id"
    else none

/-- The reply, its `parent_header` or the `content` of an answer is no dict. -/
def malformed (requestId : PyStr) (reply : PyJson) : Bool :=
  !reply.isDict || (reply.member? "parent_header").any (!·.isDict) ||
    answers requestId reply && (reply.member? "content").any (!·.isDict)

section

variable {τ : Type} [LinearOrder τ] (deadline : τ) (requestId : PyStr)

/-- A reply to another request, in time. -/
def passedOver (turn : Turn τ) : Prop :=
  turn.clock < deadline ∧ ∃ reply, turn.received = .reply reply ∧ answers requestId reply = false

/-- The first reply to the request comes in time and before any error, and says that it has created
the subshell. -/
def FirstAnswerCreates (turns : List (Turn τ)) (subshellId : PyJson) : Prop :=
  Reaches (passedOver deadline requestId)
    (fun turn => turn.clock < deadline ∧ ∃ reply, turn.received = .reply reply ∧
      (answers requestId reply = true ∧ createdId? reply = some subshellId)) turns

/-- A malformed message comes in time, after none but replies to other requests. -/
def MeetsMalformed (turns : List (Turn τ)) : Prop :=
  Reaches (passedOver deadline requestId)
    (fun turn => turn.clock < deadline ∧ ∃ reply, turn.received = .reply reply ∧
      malformed requestId reply = true) turns

end

section

variable {τ : Type} [LinearOrder τ] (deadline : τ) (cached : PyJson) (request : Option PyStr)
  (sends : Bool) (turns : List (Turn τ))

/-- The request has been sent, and its first answer creates this subshell. -/
def Creates (subshellId : PyJson) : Prop :=
  sends = true ∧ ∃ requestId ∈ request, FirstAnswerCreates deadline requestId turns subshellId

/-- A call takes its own reply, or falls back. -/
structure TakesOwnReply (result : Result) : Prop where
  keeps : cached ≠ .null → result = ⟨some cached, cached, 0⟩
  sent : result.sent ≤ 1
  created : cached = .null → ∀ subshellId, Creates deadline request sends turns subshellId →
    result.returned = some subshellId ∧ result.cached = subshellId
  fallsBack : cached = .null → (∀ subshellId, ¬ Creates deadline request sends turns subshellId) →
    result.returned = some .null ∧ result.cached = .null
  returns : result.returned ≠ none

/-- The id is cached, or the request can be made and sent, and no malformed message is met. -/
def ReadsWell : Prop :=
  cached ≠ .null ∨ sends = true ∧ ∃ requestId ∈ request, ¬ MeetsMalformed deadline requestId turns

end

variable {τ : Type} [LinearOrder τ] {deadline : τ} {requestId : PyStr} {turns : List (Turn τ)}
  {reply : PyJson}

/-! ## One message -/

theorem get_of_isDict {x : PyJson} (h : x.isDict = true) (key : String) :
    x.get key = some (x.member? key) := if_pos h

theorem get_of_not_isDict {x : PyJson} (h : x.isDict = false) (key : String) : x.get key = none := by
  rw [PyJson.get, h]
  rfl

/-- What is made of the content of an answer, as its members say it. -/
theorem readContent_eq {content : PyJson} (h : content.isDict = true) :
    readContent content =
      some ((if (content.member? "status").any (·.isStr (pyStr "ok")) then
        content.member? "subshell_id" else none).elim .rejected .created) := by
  rw [readContent, get_of_isDict h, get_of_isDict h, Option.bind_eq_bind, Option.bind_some]
  split <;> rfl

/-- What is made of a message, as its members say it. -/
theorem readMessage_eq :
    readMessage requestId reply =
      if malformed requestId reply then none
      else if answers requestId reply then some ((createdId? reply).elim .rejected .created)
      else some .foreign := by
  rw [readMessage, malformed, answers, createdId?]
  by_cases hdict : reply.isDict = true
  · rw [get_of_isDict hdict, get_of_isDict hdict, hdict]
    cases hparent : reply.member? "parent_header" with
    | none => rfl
    | some parent =>
        by_cases hparentDict : parent.isDict = true
        · simp only [Option.any_some, hparentDict, Bool.not_true, Bool.or_false, Bool.false_or,
            Option.getD_some, get_of_isDict hparentDict, Option.bind_eq_bind, Option.bind_some]
          by_cases hanswers : (parent.member? "msg_id").any (·.isStr requestId) = true
          · simp only [hanswers, Bool.true_and]
            rw [if_pos trivial, if_pos trivial]
            cases hcontent : reply.member? "content" with
            | none => rfl
            | some content =>
                by_cases hcontentDict : content.isDict = true
                · simpa [hcontentDict] using readContent_eq hcontentDict
                · rw [Bool.not_eq_true] at hcontentDict
                  simp [readContent, hcontentDict, get_of_not_isDict hcontentDict]
          · rw [if_neg hanswers, if_neg hanswers, if_neg fun h => hanswers (Bool.and_eq_true_iff.mp h).1]
            rfl
        · rw [Bool.not_eq_true] at hparentDict
          simp [hparentDict, get_of_not_isDict hparentDict]
  · rw [Bool.not_eq_true] at hdict
    rw [get_of_not_isDict hdict, hdict]
    rfl

/-! ## The loop -/

theorem readLoop_cons (turn : Turn τ) (turns : List (Turn τ)) (hclock : turn.clock < deadline)
    (hreply : turn.received = .reply reply) :
    readLoop deadline requestId (turn :: turns) =
      if malformed requestId reply then .raised
      else if answers requestId reply then (createdId? reply).elim .fallsBack .created
      else readLoop deadline requestId turns := by
  rw [readLoop, if_pos hclock, hreply]
  dsimp only
  rw [readMessage_eq]
  by_cases hmalformed : malformed requestId reply = true
  · rw [if_pos hmalformed, if_pos hmalformed]
  · rw [if_neg hmalformed, if_neg hmalformed]
    by_cases hanswers : answers requestId reply = true
    · rw [if_pos hanswers, if_pos hanswers]
      cases createdId? reply <;> rfl
    · rw [if_neg hanswers, if_neg hanswers]

/-- Without a reply in time the loop is over. -/
theorem readLoop_of_no_reply {turn : Turn τ}
    (h : ∀ reply, turn.clock < deadline → turn.received ≠ .reply reply) (turns : List (Turn τ)) :
    readLoop deadline requestId (turn :: turns) = .fallsBack := by
  rw [readLoop]
  split
  · rename_i hclock
    split
    · rfl
    · rfl
    · rename_i reply hreply
      exact absurd hreply (h reply hclock)
  · rfl

theorem passedOver_iff {turn : Turn τ} (hclock : turn.clock < deadline)
    (hreply : turn.received = .reply reply) :
    passedOver deadline requestId turn ↔ answers requestId reply = false := by
  rw [passedOver, hreply]
  simp [hclock, Received.reply.injEq]

/-- A turn without a reply in time is the end of every search. -/
theorem not_reaches_of_no_reply {turn : Turn τ} {P : PyJson → Prop}
    (h : ∀ reply, turn.clock < deadline → turn.received ≠ .reply reply) :
    ¬ Reaches (passedOver deadline requestId)
      (fun turn => turn.clock < deadline ∧ ∃ reply, turn.received = .reply reply ∧ P reply)
      (turn :: turns) := by
  rw [reaches_cons]
  rintro (⟨hclock, reply, hreply, -⟩ | ⟨⟨hclock, reply, hreply, -⟩, -⟩) <;>
    exact h reply hclock hreply

theorem reaches_of_reply {turn : Turn τ} {P : PyJson → Prop} (hclock : turn.clock < deadline)
    (hreply : turn.received = .reply reply) :
    Reaches (passedOver deadline requestId)
        (fun turn => turn.clock < deadline ∧ ∃ reply, turn.received = .reply reply ∧ P reply)
        (turn :: turns) ↔
      P reply ∨ answers requestId reply = false ∧
        Reaches (passedOver deadline requestId)
          (fun turn => turn.clock < deadline ∧ ∃ reply, turn.received = .reply reply ∧ P reply)
          turns := by
  rw [reaches_cons, passedOver_iff hclock hreply, hreply]
  simp [hclock]

/-- The loop raises just where it meets a malformed message. -/
theorem readLoop_raised_iff :
    readLoop deadline requestId turns = .raised ↔ MeetsMalformed deadline requestId turns := by
  induction turns with
  | nil => exact iff_of_false nofun not_reaches_nil
  | cons turn turns ih =>
      by_cases h : ∃ reply, turn.clock < deadline ∧ turn.received = .reply reply
      · obtain ⟨reply, hclock, hreply⟩ := h
        rw [readLoop_cons turn turns hclock hreply, MeetsMalformed, reaches_of_reply hclock hreply]
        by_cases hmalformed : malformed requestId reply = true
        · exact iff_of_true (if_pos hmalformed) (.inl hmalformed)
        · rw [if_neg hmalformed]
          by_cases hanswers : answers requestId reply = true
          · rw [if_pos hanswers]
            refine iff_of_false ?_ (by simp [hmalformed, hanswers])
            cases createdId? reply <;> exact nofun
          · rw [if_neg hanswers, ih, MeetsMalformed]
            simp [hmalformed, hanswers]
      · push Not at h
        rw [readLoop_of_no_reply h]
        exact iff_of_false nofun (not_reaches_of_no_reply h)

/-- A loop that meets no malformed message creates what the first answer says. -/
theorem readLoop_created_iff (hreads : ¬ MeetsMalformed deadline requestId turns)
    (subshellId : PyJson) :
    readLoop deadline requestId turns = .created subshellId ↔
      FirstAnswerCreates deadline requestId turns subshellId := by
  induction turns with
  | nil => exact iff_of_false nofun not_reaches_nil
  | cons turn turns ih =>
      by_cases h : ∃ reply, turn.clock < deadline ∧ turn.received = .reply reply
      · obtain ⟨reply, hclock, hreply⟩ := h
        rw [MeetsMalformed, reaches_of_reply hclock hreply, not_or, not_and] at hreads
        rw [readLoop_cons turn turns hclock hreply, if_neg hreads.1, FirstAnswerCreates,
          reaches_of_reply hclock hreply]
        by_cases hanswers : answers requestId reply = true
        · rw [if_pos hanswers]
          cases createdId? reply <;> simp [hanswers]
        · rw [if_neg hanswers, ih (hreads.2 (Bool.eq_false_iff.mpr hanswers)), FirstAnswerCreates]
          simp [hanswers]
      · push Not at h
        rw [readLoop_of_no_reply h]
        exact iff_of_false nofun (not_reaches_of_no_reply h)

/-! ## The call -/

section

variable {cached : PyJson} {request : Option PyStr} {sends : Bool}

theorem ensureSubshell_of_cached (hcached : cached ≠ .null) :
    ensureSubshell deadline cached request sends turns = ⟨some cached, cached, 0⟩ := by
  rw [ensureSubshell.eq_def]
  cases cached with
  | null => exact absurd rfl hcached
  | _ => rfl

/-- A call that raises keeps nothing of what a call should do. -/
theorem not_takesOwnReply_of_raised {result : Result} (h : result.returned = none) :
    ¬ TakesOwnReply deadline cached request sends turns result := fun htakes => htakes.returns h

theorem creates_iff {subshellId : PyJson} :
    Creates deadline (some requestId) true turns subshellId ↔
      FirstAnswerCreates deadline requestId turns subshellId := by
  simp [Creates]

/-- A call that has sent its request takes its own reply, or falls back, where the loop meets no
malformed message. -/
theorem takesOwnReply_of_sent (hreads : ¬ MeetsMalformed deadline requestId turns) :
    TakesOwnReply deadline .null (some requestId) true turns
      (ensureSubshell deadline .null (some requestId) true turns) := by
  have hcreated := readLoop_created_iff hreads
  have hraised := mt readLoop_raised_iff.mp hreads
  rw [ensureSubshell, if_pos rfl]
  cases hloop : readLoop deadline requestId turns with
  | raised => exact absurd hloop hraised
  | fallsBack =>
      refine ⟨fun h => absurd rfl h, le_refl 1, fun _ subshellId h => ?_, fun _ _ => ⟨rfl, rfl⟩, nofun⟩
      rw [creates_iff, ← hcreated, hloop] at h
      cases h
  | created subshellId =>
      refine ⟨fun h => absurd rfl h, le_refl 1, fun _ subshellId' h => ?_, fun _ hnone => ?_, nofun⟩
      · rw [creates_iff, ← hcreated, hloop] at h
        cases h
        exact ⟨rfl, rfl⟩
      · exact absurd (creates_iff.mpr ((hcreated subshellId).mp hloop)) (hnone subshellId)

/-- A call takes only its own reply and falls back on everything else, just when it has no need to
read, or can send its request and meets no malformed message. -/
theorem ensure_takes_own_reply_iff (deadline : τ) (cached : PyJson) (request : Option PyStr)
    (sends : Bool) (turns : List (Turn τ)) :
    TakesOwnReply deadline cached request sends turns
        (ensureSubshell deadline cached request sends turns) ↔
      ReadsWell deadline cached request sends turns := by
  by_cases hcached : cached = .null
  · subst hcached
    rw [ReadsWell, or_iff_right fun h => h rfl]
    cases request with
    | none =>
        refine iff_of_false (not_takesOwnReply_of_raised rfl) ?_
        rintro ⟨-, requestId, h, -⟩
        cases h
    | some requestId =>
        cases sends with
        | false => exact iff_of_false (not_takesOwnReply_of_raised rfl) nofun
        | true =>
            by_cases hmeets : MeetsMalformed deadline requestId turns
            · refine iff_of_false (not_takesOwnReply_of_raised ?_) (by simp [hmeets])
              rw [ensureSubshell, if_pos rfl, readLoop_raised_iff.mpr hmeets]
            · exact iff_of_true (takesOwnReply_of_sent hmeets) ⟨rfl, requestId, rfl, hmeets⟩
  · rw [ensureSubshell_of_cached hcached]
    exact iff_of_true
      ⟨fun _ => rfl, Nat.zero_le 1, fun h => absurd h hcached, fun h => absurd h hcached, nofun⟩
      (.inl hcached)

/-- The reply to another request, whose parent header is null. -/
private def nullParent : PyJson := .obj [(pyStr "parent_header", .null)]

private def requestOne : PyStr := pyStr "request-1"

/-- The answer to the request. -/
private def answerOne : PyJson :=
  .obj [(pyStr "parent_header", .obj [(pyStr "msg_id", .str requestOne)]),
    (pyStr "content",
      .obj [(pyStr "status", .str (pyStr "ok")), (pyStr "subshell_id", .str (pyStr "sub-1"))])]

private def nullFirst : List (Turn Nat) := [⟨0, .reply nullParent⟩, ⟨1, .reply answerOne⟩]

/-- A reply without a parent raises before the answer is read. -/
theorem null_parent_raises :
    (ensureSubshell 5 .null (some requestOne) true nullFirst).returned = none ∧
      ¬ TakesOwnReply 5 .null (some requestOne) true nullFirst
        (ensureSubshell 5 .null (some requestOne) true nullFirst) :=
  ⟨rfl, not_takesOwnReply_of_raised rfl⟩

end

end SubshellCall

/-! ## The server's model -/

namespace SubshellCall

/-- How the call reads a message that the server's model tells apart. -/
def readingOf : ReplyVerdict → Option Reading
  | .foreign => some .foreign
  | .malformed => none
  | .rejected => some .rejected
  | .created subshellId => some (.created (subshellId.elim .null fun s => .str (pyStr s)))

theorem readContent_toDict (content : ReplyContent) :
    readContent content.toDict = readingOf (readReplyContent (.object content)) := by
  obtain ⟨status, subshellId⟩ := content
  have hstatus : (ReplyContent.toDict ⟨status, subshellId⟩).get "status" =
      some (status.map fun s => .str (pyStr s)) := by
    cases status <;> cases subshellId <;> rfl
  have hsubshellId : (ReplyContent.toDict ⟨status, subshellId⟩).get "subshell_id" =
      some (subshellId.map fun id => id.elim .null fun s => .str (pyStr s)) := by
    cases status <;> cases subshellId <;> rfl
  have hok : (status.map fun s => PyJson.str (pyStr s)).any (·.isStr (pyStr "ok")) =
      decide (status = some "ok") := by
    cases status with
    | none => rfl
    | some s => simp [PyJson.isStr, pyStr_injective.eq_iff]
  rw [readContent, hstatus, hsubshellId, Option.bind_eq_bind, Option.bind_some, hok, readReplyContent]
  by_cases hs : status = some "ok"
  · simp only [hs, decide_true, if_true]
    cases subshellId <;> rfl
  · simp only [hs, decide_false, if_false]
    cases subshellId <;> rfl

/-- The messages of the server's model are read as it says. -/
theorem readMessage_toDict {msgId : RequestId → PyStr} (hmsgId : Function.Injective msgId)
    (requestId : RequestId) (reply : ControlReply) :
    readMessage (msgId requestId) (reply.toDict msgId) = readingOf (readReply requestId reply) := by
  obtain ⟨parent, content⟩ := reply
  cases parent with
  | absent => cases content <;> rfl
  | null => cases content <;> rfl
  | object id =>
      cases id with
      | none => cases content <;> rfl
      | some id =>
          have hparent : (ControlReply.toDict msgId ⟨.object (some id), content⟩).get "parent_header" =
              some (some (.obj [(pyStr "msg_id", .str (msgId id))])) := by
            cases content <;> rfl
          have hmsgIdOf : PyJson.get (.obj [(pyStr "msg_id", .str (msgId id))]) "msg_id" =
              some (some (.str (msgId id))) := rfl
          have hanswers : (some (PyJson.str (msgId id))).any (·.isStr (msgId requestId)) =
              decide (id = requestId) := by
            simp [PyJson.isStr, hmsgId.eq_iff]
          rw [readMessage, hparent, Option.bind_eq_bind, Option.bind_some, Option.getD_some, hmsgIdOf,
            Option.bind_some, hanswers]
          by_cases hid : id = requestId
          · subst hid
            cases content with
            | absent => simp [readReply]; rfl
            | null => simp [readReply]; rfl
            | object content =>
                have hcontent :
                    (ControlReply.toDict msgId ⟨.object (some id), .object content⟩).get "content" =
                      some (some content.toDict) := rfl
                simpa [readReply, hcontent] using readContent_toDict content
          · simp [readReply, hid]
            rfl

end SubshellCall

end Hypernote
