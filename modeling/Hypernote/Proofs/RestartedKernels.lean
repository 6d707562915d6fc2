import Hypernote.RestartedKernels
/-!
# Requests after a restart by request

`cleanup_after_restart` takes the client out of the stack, and the next `_get_client` makes another
one.  A call of `ensure_subshell` that has taken a reply of the earlier process stores it on the
client that it was given, from which no request is sent any more.
-/

namespace Hypernote

open Foundation

/-- The subshell of the request, if it names one, has been created in the process of the kernel that
receives it. -/
def KernelRequest.Live (r : KernelRequest) : Prop :=
  ∀ subshell ∈ r.subshell, subshell.2 = (r.kernelId, r.receiver)

instance KernelRequest.decidableLive (r : KernelRequest) : Decidable r.Live :=
  inferInstanceAs (Decidable (∀ subshell ∈ r.subshell, _))

/-- The call has been given the message. -/
def EnsureCall.Holds (call : EnsureCall) (message : ControlMessage) : Prop :=
  ∃ request, call = .holding request message

namespace RestartedKernels

variable {s s' : RestartedKernels} {l : RestartLabel} {kernelId : KernelId} {client : ClientId}
  {call : Nat} {request : RequestId} {message : ControlMessage}

/-- What the client has received, and what it has stored, comes from this process. -/
structure Current (s : RestartedKernels) (client : ClientId) (process : ProcessId) : Prop where
  channel : ∀ message ∈ s.channel client, message.sender = process
  calls : ∀ c ∈ s.calls client, ∀ message, c.Holds message → message.sender = process
  cached : (s.pool.clients client).subshellId.isSome → s.createdBy client = process

structure PoolInv (s : RestartedKernels) : Prop where
  made : ∀ ⦃kernelId client⦄, s.pool.kernelClients kernelId = some client →
    client < s.pool.nextClient ∧ s.kernelOf client = kernelId
  unused : ∀ client, s.pool.nextClient ≤ client → s.channel client = [] ∧ s.calls client = []
  /-- A kernel that has been cleaned up after is served by a client of its running process. -/
  current : ∀ ⦃kernelId client⦄, s.pool.kernelClients kernelId = some client →
    s.restarted kernelId = false → s.Current client (s.process kernelId)

theorem current_of_eq {process : ProcessId} (hs : s.Current client process)
    (hchannel : s'.channel client = s.channel client) (hcalls : s'.calls client = s.calls client)
    (hpool : s'.pool.clients client = s.pool.clients client)
    (hcreated : s'.createdBy client = s.createdBy client) : s'.Current client process := by
  constructor
  · rw [hchannel]
    exact hs.channel
  · rw [hcalls]
    exact hs.calls
  · rw [hpool, hcreated]
    exact hs.cached

/-! ## Steps of one client -/

/-- The step belongs to one client and leaves the table of the stack and the kernels alone. -/
structure ClientChange (s s' : RestartedKernels) (client : ClientId) : Prop where
  kernelClients : s'.pool.kernelClients = s.pool.kernelClients
  nextClient : s'.pool.nextClient = s.pool.nextClient
  kernelOf : s'.kernelOf = s.kernelOf
  process : s'.process = s.process
  restarted : s'.restarted = s.restarted
  requests : s'.requests = s.requests
  others : ∀ other, other ≠ client → s'.channel other = s.channel other ∧
    s'.calls other = s.calls other ∧ s'.pool.clients other = s.pool.clients other ∧
    s'.createdBy other = s.createdBy other
  current : s.Current client (s.process (s.kernelOf client)) →
    s'.Current client (s.process (s.kernelOf client))

theorem PoolInv.clientChange (hs : PoolInv s) (hlt : client < s.pool.nextClient)
    (h : ClientChange s s' client) : PoolInv s' := by
  constructor
  · rw [h.kernelClients, h.nextClient, h.kernelOf]
    exact hs.made
  · intro other hle
    rw [h.nextClient] at hle
    have hne : other ≠ client := Nat.ne_of_gt (Nat.lt_of_lt_of_le hlt hle)
    obtain ⟨hchannel, hcalls, -, -⟩ := h.others other hne
    rw [hchannel, hcalls]
    exact hs.unused other hle
  · intro kernelId other hcached hrestarted
    rw [h.kernelClients] at hcached
    rw [h.restarted] at hrestarted
    rw [h.process]
    have hcurrent := hs.current hcached hrestarted
    by_cases hother : other = client
    · subst hother
      rw [← (hs.made hcached).2] at hcurrent ⊢
      exact h.current hcurrent
    · obtain ⟨hchannel, hcalls, hpool, hcreated⟩ := h.others other hother
      exact current_of_eq hcurrent hchannel hcalls hpool hcreated

/-- The calls of the client become these, which hold nothing that it has not received. -/
theorem clientChange_setCalls {calls : List EnsureCall}
    (h : ∀ c ∈ calls, ∀ message, c.Holds message → ∃ c' ∈ s.calls client, c'.Holds message) :
    ClientChange s (s.setCalls client calls) client where
  kernelClients := rfl
  nextClient := rfl
  kernelOf := rfl
  process := rfl
  restarted := rfl
  requests := rfl
  others other hne := ⟨rfl, Function.update_of_ne hne _ _, rfl, rfl⟩
  current hs := by
    constructor
    · exact hs.channel
    · intro c hmem message hholds
      rw [show (s.setCalls client calls).calls client = calls from Function.update_self ..] at hmem
      obtain ⟨c', hmem', hholds'⟩ := h c hmem message hholds
      exact hs.calls c' hmem' message hholds'
    · exact hs.cached

/-- A call of the client becomes one that holds nothing. -/
theorem clientChange_set {c : EnsureCall} (h : ∀ message, ¬ c.Holds message) :
    ClientChange s (s.setCalls client ((s.calls client).set call c)) client := by
  apply clientChange_setCalls
  intro c' hmem message hholds
  cases List.mem_or_eq_of_mem_set hmem with
  | inl hold => exact ⟨c', hold, hholds⟩
  | inr hnew =>
      subst hnew
      exact absurd hholds (h message)

@[simp] theorem not_holds_ended : ¬ EnsureCall.ended.Holds message := by
  rintro ⟨request, h⟩
  cases h

@[simp] theorem not_holds_reading : ¬ (EnsureCall.reading request).Holds message := by
  rintro ⟨request', h⟩
  cases h

theorem clientChange_ensureSubshell (sent : Bool) :
    ClientChange s (s.ensureSubshell client sent) client := by
  have happended (c : EnsureCall) (hc : ∀ message, ¬ c.Holds message) :
      ClientChange s (s.setCalls client (s.calls client ++ [c])) client := by
    apply clientChange_setCalls
    intro c' hmem message hholds
    cases List.mem_append.mp hmem with
    | inl hold => exact ⟨c', hold, hholds⟩
    | inr hnew =>
        obtain rfl := List.mem_singleton.mp hnew
        exact absurd hholds (hc message)
  unfold ensureSubshell
  split_ifs with hcached hsent
  · exact happended .ended fun _ => not_holds_ended
  · have h := happended (.reading s.pool.nextRequest) fun _ => not_holds_reading
    exact ⟨h.kernelClients, h.nextClient, h.kernelOf, h.process, h.restarted, h.requests, h.others,
      fun hs => current_of_eq (h.current hs) rfl rfl rfl rfl⟩
  · have h := happended .ended fun _ => not_holds_ended
    exact ⟨h.kernelClients, h.nextClient, h.kernelOf, h.process, h.restarted, h.requests, h.others,
      fun hs => current_of_eq (h.current hs) rfl rfl rfl rfl⟩

theorem clientChange_readMessage
    (hcall : (s.calls client)[call]? = some (.holding request message)) :
    ClientChange s (s.readMessage client call request message) client := by
  have hended :
      ClientChange s (s.setCalls client ((s.calls client).set call .ended)) client :=
    clientChange_set fun _ => not_holds_ended
  unfold readMessage
  cases readReply request message.reply with
  | foreign => exact clientChange_set fun _ => not_holds_reading
  | malformed => exact hended
  | rejected => exact hended
  | created subshellId =>
      refine ⟨rfl, rfl, rfl, rfl, rfl, rfl, fun other hne => ?_, fun hs => ?_⟩
      · obtain ⟨-, hcalls, -, -⟩ := hended.others other hne
        exact ⟨rfl, hcalls, Function.update_of_ne hne _ _, Function.update_of_ne hne _ _⟩
      · constructor
        · exact hs.channel
        · exact (hended.current hs).calls
        · -- The id comes from the sender of the message that the call holds.
          intro _
          change Function.update s.createdBy client message.sender client = _
          rw [Function.update_self]
          exact hs.calls _ (List.mem_of_getElem? hcall) message ⟨request, rfl⟩

theorem clientChange_installHooks (kernelId : KernelId) :
    ClientChange s { s with pool := s.pool.installHooks kernelId client } client := by
  refine ⟨rfl, rfl, rfl, rfl, rfl, rfl, fun other hne => ?_, fun hs => ?_⟩
  · exact ⟨rfl, rfl, Function.update_of_ne hne _ _, rfl⟩
  · have hid : ((s.pool.installHooks kernelId client).clients client).subshellId =
        (s.pool.clients client).subshellId := by
      simp only [ClientPool.installHooks, ClientPool.modify, Function.update_self]
    exact ⟨hs.channel, hs.calls, fun hsome => hs.cached (hid ▸ hsome)⟩

/-- The running process of the client's kernel sends a message. -/
theorem clientChange_reply (reply : ControlReply) :
    ClientChange s
      { s with
        channel := Function.update s.channel client
          (s.channel client ++ [⟨reply, s.process (s.kernelOf client)⟩]) } client := by
  refine ⟨rfl, rfl, rfl, rfl, rfl, rfl, fun other hne => ?_, fun hs => ?_⟩
  · exact ⟨Function.update_of_ne hne _ _, rfl, rfl, rfl⟩
  · refine ⟨fun message hmem => ?_, hs.calls, hs.cached⟩
    change message ∈ Function.update s.channel client _ client at hmem
    rw [Function.update_self] at hmem
    cases List.mem_append.mp hmem with
    | inl hold => exact hs.channel message hold
    | inr hnew =>
        obtain rfl := List.mem_singleton.mp hnew
        rfl

/-- A call is given the first message of the channel. -/
theorem clientChange_take {channel : List ControlMessage}
    (hchannel : s.channel client = message :: channel) :
    ClientChange s
      { s.setCalls client ((s.calls client).set call (.holding request message)) with
        channel := Function.update s.channel client channel } client := by
  refine ⟨rfl, rfl, rfl, rfl, rfl, rfl, fun other hne => ?_, fun hs => ?_⟩
  · exact ⟨Function.update_of_ne hne _ _, Function.update_of_ne hne _ _, rfl, rfl⟩
  · have hreceived := hs.channel
    rw [hchannel] at hreceived
    refine ⟨?_, fun c hmem message' hholds => ?_, hs.cached⟩
    · intro message' hmem
      change message' ∈ Function.update s.channel client channel client at hmem
      rw [Function.update_self] at hmem
      exact hreceived message' (List.mem_cons_of_mem _ hmem)
    · change c ∈ Function.update s.calls client _ client at hmem
      rw [Function.update_self] at hmem
      cases List.mem_or_eq_of_mem_set hmem with
      | inl hold => exact hs.calls c hold message' hholds
      | inr hnew =>
          obtain ⟨request', hholds⟩ := hholds
          rw [hnew] at hholds
          obtain ⟨-, rfl⟩ := EnsureCall.holding.inj hholds
          exact hreceived message List.mem_cons_self

theorem clientChange_step (h : s.clientStep l = some s') (hl : l.client? = some client) :
    ClientChange s s' client := by
  cases l with
  | getClient => cases hl
  | restarted => cases hl
  | cleanup => cases hl
  | execute => cases hl
  | installHooks client' =>
      obtain rfl := Option.some.inj hl
      obtain rfl := Option.some.inj h
      exact clientChange_installHooks _
  | ensure client' sent =>
      obtain rfl := Option.some.inj hl
      obtain rfl := Option.some.inj h
      exact clientChange_ensureSubshell sent
  | reply client' reply =>
      obtain rfl := Option.some.inj hl
      obtain rfl := Option.some.inj h
      exact clientChange_reply reply
  | take client' call =>
      obtain rfl := Option.some.inj hl
      simp only [clientStep] at h
      split at h
      · rename_i request message channel hcall hchannel
        obtain rfl := Option.some.inj h
        exact clientChange_take hchannel
      · cases h
  | resume client' call =>
      obtain rfl := Option.some.inj hl
      simp only [clientStep] at h
      split at h
      · rename_i request message hcall
        obtain rfl := Option.some.inj h
        exact clientChange_readMessage hcall
      · cases h
  | giveUp client' call =>
      obtain rfl := Option.some.inj hl
      simp only [clientStep] at h
      split at h
      · obtain rfl := Option.some.inj h
        exact clientChange_set fun _ => not_holds_ended
      · obtain rfl := Option.some.inj h
        exact clientChange_set fun _ => not_holds_ended
      · cases h

/-! ## Steps of the stack and of the kernels -/

theorem poolInv_start : PoolInv start where
  made _ _ h := nomatch h
  unused _ _ := ⟨rfl, rfl⟩
  current _ _ h := nomatch h

/-- A client without messages and calls, on which nothing is cached. -/
theorem current_of_blank {process : ProcessId} (hchannel : s.channel client = [])
    (hcalls : s.calls client = []) (hcached : (s.pool.clients client).subshellId = none) :
    s.Current client process := by
  constructor
  · rw [hchannel]
    exact fun _ hmem => absurd hmem List.not_mem_nil
  · rw [hcalls]
    exact fun _ hmem => absurd hmem List.not_mem_nil
  · rw [hcached]
    exact fun hsome => absurd hsome Bool.false_ne_true

theorem PoolInv.getClient (hs : PoolInv s) : PoolInv (s.getClient kernelId) := by
  unfold RestartedKernels.getClient ClientPool.getClient
  cases hcached : s.pool.kernelClients kernelId with
  | some client =>
      have hkernelOf : Function.update s.kernelOf client kernelId = s.kernelOf := by
        rw [← (hs.made hcached).2, Function.update_eq_self]
      simp only [hkernelOf]
      exact ⟨hs.made, hs.unused, fun _ _ h hrestarted =>
        current_of_eq (hs.current h hrestarted) rfl rfl rfl rfl⟩
  | none =>
      -- The number of the new client is not in use.
      have hne {kernelId' client} (h : s.pool.kernelClients kernelId' = some client) :
          client ≠ s.pool.nextClient :=
        Nat.ne_of_lt (hs.made h).1
      constructor
      · intro kernelId' client h
        change Function.update s.pool.kernelClients kernelId (some s.pool.nextClient) kernelId' = _
          at h
        change client < s.pool.nextClient + 1 ∧
          Function.update s.kernelOf s.pool.nextClient kernelId client = kernelId'
        by_cases hkernel : kernelId' = kernelId
        · subst hkernel
          rw [Function.update_self] at h
          obtain rfl := Option.some.inj h
          exact ⟨Nat.lt_succ_self _, Function.update_self ..⟩
        · rw [Function.update_of_ne hkernel] at h
          rw [Function.update_of_ne (hne h)]
          exact ⟨Nat.lt_succ_of_lt (hs.made h).1, (hs.made h).2⟩
      · exact fun client hle => hs.unused client (Nat.le_of_succ_le hle)
      · intro kernelId' client h hrestarted
        change Function.update s.pool.kernelClients kernelId (some s.pool.nextClient) kernelId' = _
          at h
        by_cases hkernel : kernelId' = kernelId
        · subst hkernel
          rw [Function.update_self] at h
          obtain rfl := Option.some.inj h
          obtain ⟨hchannel, hcalls⟩ := hs.unused s.pool.nextClient (Nat.le_refl _)
          refine current_of_blank ?_ ?_ ?_
          · exact hchannel
          · exact hcalls
          · change (Function.update s.pool.clients _ _ _).subshellId = _
            rw [Function.update_self]
            rfl
        · rw [Function.update_of_ne hkernel] at h
          exact current_of_eq (hs.current h hrestarted) rfl rfl
            (Function.update_of_ne (hne h) _ _) rfl

theorem PoolInv.cleanup (hs : PoolInv s) (restarted : KernelId → Bool)
    (hrestarted : ∀ kernelId', kernelId' ≠ kernelId → restarted kernelId' = s.restarted kernelId') :
    PoolInv { s with pool := s.pool.cleanupAfterRestart kernelId, restarted := restarted } := by
  unfold ClientPool.cleanupAfterRestart
  cases hcached : s.pool.kernelClients kernelId with
  | none =>
      refine ⟨hs.made, hs.unused, fun kernelId' client h hclean => ?_⟩
      have hkernel : kernelId' ≠ kernelId := by
        rintro rfl
        rw [hcached] at h
        cases h
      exact current_of_eq (hs.current h ((hrestarted _ hkernel).symm.trans hclean)) rfl rfl rfl rfl
  | some old =>
      have hkept {kernelId' client}
          (h : Function.update s.pool.kernelClients kernelId none kernelId' = some client) :
          kernelId' ≠ kernelId ∧ s.pool.kernelClients kernelId' = some client := by
        by_cases hkernel : kernelId' = kernelId
        · rw [hkernel, Function.update_self] at h
          cases h
        · rw [Function.update_of_ne hkernel] at h
          exact ⟨hkernel, h⟩
      refine ⟨fun _ _ h => hs.made (hkept h).2, hs.unused, fun kernelId' client h hclean => ?_⟩
      obtain ⟨hkernel, hcached'⟩ := hkept h
      -- A client is cached for the one kernel that it was made for.
      have hother : client ≠ old := by
        rintro rfl
        exact hkernel ((hs.made hcached').2.symm.trans (hs.made hcached).2)
      exact current_of_eq (hs.current hcached' ((hrestarted _ hkernel).symm.trans hclean)) rfl rfl
        (Function.update_of_ne hother _ _) rfl

theorem PoolInv.restarted (hs : PoolInv s) (process : KernelId → ProcessId)
    (hprocess : ∀ kernelId', kernelId' ≠ kernelId → process kernelId' = s.process kernelId') :
    PoolInv { s with
      process := process
      restarted := Function.update s.restarted kernelId true } := by
  refine ⟨hs.made, hs.unused, fun kernelId' client h hclean => ?_⟩
  change Function.update s.restarted kernelId true kernelId' = false at hclean
  have hkernel : kernelId' ≠ kernelId := by
    rintro rfl
    rw [Function.update_self] at hclean
    cases hclean
  rw [Function.update_of_ne hkernel] at hclean
  change Current _ client (process kernelId')
  rw [hprocess _ hkernel]
  exact current_of_eq (hs.current h hclean) rfl rfl rfl rfl

theorem PoolInv.client_step (hs : PoolInv s)
    (h : (if l.client?.any (· < s.pool.nextClient) then s.clientStep l else none) = some s') :
    PoolInv s' := by
  obtain ⟨hany, h⟩ := Option.ite_none_right_eq_some.mp h
  obtain ⟨client, hl, hlt⟩ := (Option.any_eq_true _ _).mp hany
  exact hs.clientChange (of_decide_eq_true hlt) (clientChange_step h hl)

theorem PoolInv.step (hs : PoolInv s) (h : step s l = some s') : PoolInv s' := by
  cases l with
  | getClient kernelId =>
      obtain rfl := Option.some.inj h
      exact hs.getClient
  | restarted kernelId =>
      obtain rfl := Option.some.inj h
      exact hs.restarted _ fun _ hne => Function.update_of_ne hne _ _
  | cleanup kernelId =>
      obtain rfl := Option.some.inj h
      exact hs.cleanup _ fun _ hne => Function.update_of_ne hne _ _
  | execute kernelId =>
      obtain ⟨client, -, rfl⟩ := Option.map_eq_some_iff.mp h
      exact ⟨hs.made, hs.unused, fun _ _ h hclean =>
        current_of_eq (hs.current h hclean) rfl rfl rfl rfl⟩
  | installHooks client => exact hs.client_step h
  | ensure client sent => exact hs.client_step h
  | reply client reply => exact hs.client_step h
  | take client call => exact hs.client_step h
  | resume client call => exact hs.client_step h
  | giveUp client call => exact hs.client_step h

theorem poolInv_of_run {G : RestartedKernels → RestartLabel → Prop}
    (hrun : Run RestartedKernels.step G start s) : PoolInv s :=
  hrun.invariant poolInv_start fun _ _ _ hs _ h => hs.step h

theorem current_of_run (hrun : Run RestartedKernels.step anyStep start s)
    (hcached : s.pool.kernelClients kernelId = some client)
    (hclean : s.restarted kernelId = false) : s.Current client (s.process kernelId) ∧
      s.kernelOf client = kernelId := by
  have hs := poolInv_of_run hrun
  exact ⟨hs.current hcached hclean, (hs.made hcached).2⟩

/-- The request of a client that has stored nothing of another process names no other subshell. -/
theorem live_request (hs : s.Current client (s.process kernelId))
    (hkernel : s.kernelOf client = kernelId) : (s.request kernelId client).Live := by
  intro subshell hmem
  change subshell ∈ ite _ _ _ at hmem
  split_ifs at hmem
  · obtain ⟨id, hid, rfl⟩ := Option.mem_map.mp hmem
    change (s.kernelOf client, s.createdBy client) = (kernelId, s.process kernelId)
    rw [hkernel, hs.cached (Option.isSome_iff_exists.mpr ⟨id, hid⟩)]
  · cases hmem

/-- In the next process of the kernel the same client sends only what names no subshell. -/
theorem live_request_restarted_iff (hs : s.Current client (s.process kernelId))
    (h : step s (.restarted kernelId) = some s') :
    (s'.request kernelId client).Live ↔ (s'.request kernelId client).subshell = none := by
  obtain rfl := Option.some.inj h
  constructor
  · intro hlive
    by_contra hsome
    obtain ⟨subshell, hsubshell⟩ := Option.ne_none_iff_exists'.mp hsome
    have hreceiver : subshell.2.2 = s.process kernelId + 1 := by
      rw [hlive subshell hsubshell]
      exact Function.update_self ..
    have hcreated : subshell.2.2 = s.process kernelId := by
      change ite _ _ _ = some subshell at hsubshell
      split_ifs at hsubshell
      obtain ⟨id, hid, rfl⟩ := Option.map_eq_some_iff.mp hsubshell
      exact hs.cached (Option.isSome_iff_exists.mpr ⟨id, hid⟩)
    exact Nat.succ_ne_self _ (hreceiver.symm.trans hcreated)
  · intro hnone subshell hmem
    rw [hnone] at hmem
    cases hmem

/-- Whatever calls of `ensure_subshell` are on their way over whatever restarts, an `execute` after
the cleanup names no subshell that is not of the process that runs; and one that follows at once on
one more restart does so if it names one at all. -/
theorem requests_live_after_cleanup (hrun : Run RestartedKernels.step anyStep start s)
    (hclean : s.restarted kernelId = false) (h : step s (.execute kernelId) = some s') :
    (∃ r : KernelRequest, s'.requests = s.requests ++ [r] ∧ r.kernelId = kernelId ∧
      r.receiver = s.process kernelId ∧ r.Live) ∧
    ∀ t t', step s (.restarted kernelId) = some t → step t (.execute kernelId) = some t' →
      ∃ r : KernelRequest, t'.requests = t.requests ++ [r] ∧ (r.Live ↔ r.subshell = none) := by
  obtain ⟨client, hcached, rfl⟩ := Option.map_eq_some_iff.mp h
  obtain ⟨hcurrent, hkernel⟩ := current_of_run hrun hcached hclean
  refine ⟨⟨s.request kernelId client, rfl, rfl, rfl, live_request hcurrent hkernel⟩, ?_⟩
  intro t t' hrestarted hexecute
  obtain ⟨client', hcached', rfl⟩ := Option.map_eq_some_iff.mp hexecute
  have hsame : client' = client := by
    obtain rfl := Option.some.inj hrestarted
    exact Option.some.inj (hcached'.symm.trans hcached)
  subst hsame
  exact ⟨t.request kernelId client', rfl, live_request_restarted_iff hcurrent hrestarted⟩

/-- The answer to a create request of the client. -/
private def createdReply (client : ClientId) (request : RequestId) (id : String) : RestartLabel :=
  .reply client ⟨.object (some request), .object ⟨some "ok", some (some id)⟩⟩

/-- A call holds the reply of the first process over the restart and its cleanup. -/
private def heldOverRestart : List RestartLabel :=
  [.getClient "k", .installHooks 0, .ensure 0 true, createdReply 0 0 "a", .take 0 0,
    .restarted "k", .cleanup "k", .getClient "k", .ensure 1 true, createdReply 1 1 "b", .resume 0 0,
    .take 1 0, .resume 1 0, .installHooks 1]

theorem held_reply_not_requested :
    ∃ s s' : RestartedKernels, step s (.execute "k") = some s' ∧
      s'.requests = [⟨"k", some ("b", "k", 1), 1⟩] ∧
      (s.pool.clients 0).subshellId = some "a" ∧
      ∃ r : KernelRequest, s'.requests = s.requests ++ [r] ∧ r.Live := by
  have hexec : (exec step start heldOverRestart).any (fun s =>
      s.restarted "k" = false ∧ s.requests = [] ∧
        (s.pool.clients 0).subshellId = some "a" ∧
        (step s (.execute "k")).any (fun s' => s'.requests = [⟨"k", some ("b", "k", 1), 1⟩])) =
      true := by
    decide
  obtain ⟨s, hrun, hclean, hrequests, hstored, hexecute⟩ := exists_run_of_exec hexec
  obtain ⟨s', hs', hsent⟩ := (Option.any_eq_true _ _).mp hexecute
  obtain ⟨⟨r, hr, -, -, hlive⟩, -⟩ := requests_live_after_cleanup hrun hclean hs'
  exact ⟨s, s', hs', of_decide_eq_true hsent, hstored, r, hr, hlive⟩

end RestartedKernels

end Hypernote
