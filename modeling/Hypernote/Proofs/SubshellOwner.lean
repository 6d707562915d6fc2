import Hypernote.SubshellRouting
/-!
# The process behind a subshell id

The restart callback clears the cached id, so what is cached belongs to the running process unless
a reply of an earlier process is stored after the callback: by a call that had taken it before, or
that takes it from the channel afterwards.
-/

namespace Hypernote

open Foundation

/-- The message stores an id. -/
def ReplyVerdict.stores : ReplyVerdict → Bool
  | .created subshellId => subshellId.isSome
  | _ => false

/-- The subshell of the request, if it names one, has been created by the process that runs. -/
def ExecuteRequest.Live (r : ExecuteRequest) : Prop :=
  ∀ subshell ∈ r.subshell, subshell.2 = r.receiver

instance (r : ExecuteRequest) : Decidable r.Live :=
  inferInstanceAs (Decidable (∀ subshell ∈ r.subshell, _))

namespace RoutedClient

variable {s s' s'' : RoutedClient} {l : RoutingLabel} {call : Nat} {c : EnsureCall}
  {request : RequestId} {message : ControlMessage}

/-- A call that goes on with a reply that stores an id does so before the process that has sent
the reply is restarted. -/
def storesInTime (s : RoutedClient) : RoutingLabel → Bool
  | .resume call =>
      match s.calls[call]? with
      | some (.holding request message) =>
          !(readReply request message.reply).stores || message.sender == s.process
      | _ => true
  | _ => true

/-- The cached subshell has been created by the process that runs. -/
def CacheLive (s : RoutedClient) : Prop :=
  s.client.subshellId.isSome → s.createdBy = s.process

def RequestsLive (s : RoutedClient) : Prop := ∀ r ∈ s.requests, r.Live

instance (s : RoutedClient) : Decidable s.RequestsLive :=
  inferInstanceAs (Decidable (∀ r ∈ s.requests, _))

/-- What a step does to the cached id and to the requests sent. -/
inductive CacheStep (s : RoutedClient) (l : RoutingLabel) (s' : RoutedClient) : Prop
  | kept (hin : s.storesInTime l = true) (hid : s'.client.subshellId = s.client.subshellId)
      (hcreated : s'.createdBy = s.createdBy) (hprocess : s'.process = s.process)
      (hrequests : s'.requests = s.requests)
  | stored {call request message id} (hl : l = .resume call)
      (hcall : s.calls[call]? = some (.holding request message))
      (hreply : readReply request message.reply = .created id)
      (hid : s'.client.subshellId = id) (hcreated : s'.createdBy = message.sender)
      (hprocess : s'.process = s.process) (hrequests : s'.requests = s.requests)
  | restarted (hin : s.storesInTime l = true) (hid : s'.client.subshellId = none)
      (hrequests : s'.requests = s.requests)
  | executed (hin : s.storesInTime l = true) (hs' : s' = s.executeViaSubshell)

theorem storesInTime_resume (hcall : s.calls[call]? = some (.holding request message)) :
    s.storesInTime (.resume call) =
      (!(readReply request message.reply).stores || message.sender == s.process) := by
  simp only [storesInTime, hcall]

theorem cacheStep_readMessage (hcall : s.calls[call]? = some (.holding request message)) :
    CacheStep s (.resume call) (s.readMessage call request message) := by
  have hin := storesInTime_resume hcall
  unfold readMessage
  cases hreply : readReply request message.reply with
  | foreign =>
      rw [hreply] at hin
      exact .kept hin rfl rfl rfl rfl
  | malformed =>
      rw [hreply] at hin
      exact .kept hin rfl rfl rfl rfl
  | rejected =>
      rw [hreply] at hin
      exact .kept hin rfl rfl rfl rfl
  | created subshellId => exact .stored rfl hcall hreply rfl rfl rfl rfl

theorem cacheStep_ensureSubshell (sent : Bool) :
    CacheStep s (.ensure sent) (s.ensureSubshell sent) := by
  unfold ensureSubshell
  split_ifs
  all_goals exact .kept rfl rfl rfl rfl rfl

theorem cacheStep (h : step s l = some s') : CacheStep s l s' := by
  cases l with
  | installRouting =>
      obtain rfl := Option.some.inj h
      exact .kept rfl rfl rfl rfl rfl
  | registerRestartHook available =>
      obtain rfl := Option.some.inj h
      exact .kept rfl rfl rfl rfl rfl
  | ensure sent =>
      obtain rfl := Option.some.inj h
      exact cacheStep_ensureSubshell sent
  | reply reply =>
      obtain rfl := Option.some.inj h
      exact .kept rfl rfl rfl rfl rfl
  | take call =>
      simp only [step] at h
      split at h
      · obtain rfl := Option.some.inj h
        exact .kept rfl rfl rfl rfl rfl
      · cases h
  | resume call =>
      simp only [step] at h
      split at h
      · rename_i request message hcall
        obtain rfl := Option.some.inj h
        exact cacheStep_readMessage hcall
      · cases h
  | giveUp call =>
      simp only [step] at h
      split at h
      · obtain rfl := Option.some.inj h
        exact .kept rfl rfl rfl rfl rfl
      · obtain rfl := Option.some.inj h
        exact .kept rfl rfl rfl rfl rfl
      · cases h
  | restart =>
      obtain ⟨-, h⟩ := Option.ite_none_right_eq_some.mp h
      obtain rfl := Option.some.inj h
      exact .restarted rfl rfl rfl
  | execute =>
      obtain ⟨-, h⟩ := Option.ite_none_right_eq_some.mp h
      obtain rfl := Option.some.inj h
      exact .executed rfl rfl

/-- The step leaves a live cache if and only if it stores no id of an earlier process. -/
theorem cacheLive_iff (hs : s.CacheLive) (h : step s l = some s') :
    s'.CacheLive ↔ s.storesInTime l = true := by
  cases cacheStep h with
  | kept hin hid hcreated hprocess =>
      have hkept : s'.CacheLive := by
        unfold CacheLive
        rw [hid, hcreated, hprocess]
        exact hs
      exact iff_of_true hkept hin
  | @stored call request message id hl hcall hreply hid hcreated hprocess =>
      subst hl
      rw [storesInTime_resume hcall, hreply, CacheLive, hid, hcreated, hprocess]
      cases id with
      | none => simp [ReplyVerdict.stores]
      | some id => simp [ReplyVerdict.stores]
  | restarted hin hid =>
      have hcleared : s'.CacheLive := by
        intro hsome
        rw [hid] at hsome
        cases hsome
      exact iff_of_true hcleared hin
  | executed hin hs' =>
      subst hs'
      exact iff_of_true hs hin

/-- What `execute` sends is live if and only if the cache is. -/
theorem requestsLive_execute_iff (hs : s.RequestsLive) :
    s.executeViaSubshell.RequestsLive ↔ s.CacheLive := by
  unfold RequestsLive executeViaSubshell CacheLive
  simp only [List.mem_append, List.mem_singleton, or_imp, forall_and, forall_eq]
  rw [and_iff_right (show ∀ r ∈ s.requests, r.Live from hs)]
  cases s.client.subshellId with
  | none => simp [ExecuteRequest.Live]
  | some id => simp [ExecuteRequest.Live]

theorem requestsLive_step (hs : s.CacheLive) (hr : s.RequestsLive) (h : step s l = some s') :
    s'.RequestsLive := by
  cases cacheStep h with
  | kept _ _ _ _ hrequests => exact fun r hmem => hr r (hrequests ▸ hmem)
  | stored _ _ _ _ _ _ hrequests => exact fun r hmem => hr r (hrequests ▸ hmem)
  | restarted _ _ hrequests => exact fun r hmem => hr r (hrequests ▸ hmem)
  | executed _ hs' =>
      subst hs'
      exact (requestsLive_execute_iff hr).mpr hs

theorem live_of_run (hrun : Run step (fun s l => s.storesInTime l = true) initial s) :
    s.CacheLive ∧ s.RequestsLive := by
  refine hrun.invariant (I := fun s => s.CacheLive ∧ s.RequestsLive) ?_ ?_
  · exact ⟨fun hsome => (nomatch hsome), fun _ hmem => (nomatch hmem)⟩
  · rintro s l s' ⟨hcache, hrequests⟩ hin hstep
    exact ⟨(cacheLive_iff hcache hstep).mpr hin, requestsLive_step hcache hrequests hstep⟩

/-- As long as replies are stored in time, every request that names a subshell goes to the process
that has created it; and the first reply that is not sends the next request astray. -/
theorem requests_reach_live_subshells
    (hrun : Run step (fun s l => s.storesInTime l = true) initial s) :
    s.RequestsLive ∧ ∀ l s' s'', step s l = some s' → step s' .execute = some s'' →
      (s''.RequestsLive ↔ s.storesInTime l = true) := by
  obtain ⟨hcache, hrequests⟩ := live_of_run hrun
  refine ⟨hrequests, fun l s' s'' hstep hexecute => ?_⟩
  obtain ⟨-, hexecute⟩ := Option.ite_none_right_eq_some.mp hexecute
  obtain rfl := Option.some.inj hexecute
  rw [requestsLive_execute_iff (requestsLive_step hcache hrequests hstep)]
  exact cacheLive_iff hcache hstep

/-- The answer to a create request. -/
private def createReply (request : RequestId) (id : String) : RoutingLabel :=
  .reply ⟨.object (some request), .object ⟨some "ok", some (some id)⟩⟩

/-- A subshell for each of two processes, and a request to the second one. -/
private def restartedBetween : List RoutingLabel :=
  [.installRouting, .registerRestartHook true, .ensure true, createReply 0 "a", .take 0, .resume 0,
    .execute, .restart, .ensure true, createReply 1 "b", .take 1, .resume 1, .execute]

theorem both_subshells_live :
    ∃ s : RoutedClient, s.requests = [⟨some ("a", 0), 0⟩, ⟨some ("b", 1), 1⟩] ∧
      s.RequestsLive := by
  have hguarded : guardedBy step (fun s l => s.storesInTime l = true) initial restartedBetween =
      true := by decide
  have hexec : (exec step initial restartedBetween).any
      (fun s => s.requests = [⟨some ("a", 0), 0⟩, ⟨some ("b", 1), 1⟩]) = true := by decide
  obtain ⟨s, hrun, hrequests⟩ := exists_guarded_run_of_exec hguarded hexec
  exact ⟨s, hrequests, (requests_reach_live_subshells hrun).1⟩

/-- The process is restarted while the call holds its reply. -/
private def restartedMeanwhile : List RoutingLabel :=
  [.installRouting, .registerRestartHook true, .ensure true, createReply 0 "a", .take 0, .restart,
    .resume 0, .execute]

/-- The request goes to the second process and names a subshell of the first one. -/
theorem dead_subshell_requested :
    ∃ s, Run step anyStep initial s ∧ s.requests = [⟨some ("a", 0), 1⟩] ∧ ¬ s.RequestsLive := by
  have hexec : (exec step initial restartedMeanwhile).any
      (fun s => s.requests = [⟨some ("a", 0), 1⟩] ∧ ¬ s.RequestsLive) = true := by decide
  exact exists_run_of_exec hexec

end RoutedClient

end Hypernote
