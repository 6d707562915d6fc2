import Hypernote.Server.WellFormed
/-!
# The subshell that a client remembers

The id cached on a kernel client is written in four places: when a subshell is
created for a job, when the kernel is restarted through the extension, when its
autorestarter fires, and never when a job ends.  So the cache can be read off the
history: it holds the last subshell created for the client since the last reset.
-/

namespace Hypernote

open Foundation

/-- What is cached on a client after an event. -/
def Event.cachedSubshell (client : ClientId) (cached : Option String) : Event → Option String
  | .subshellCreated client' subshellId => if client' = client then subshellId else cached
  | .subshellReset client' => if client' = client then none else cached
  | _ => cached

/-- The last subshell created for a client since it was last reset. -/
def lastSubshell (client : ClientId) (events : List Event) : Option String :=
  events.foldl (Event.cachedSubshell client) none

def Event.isSubshell : Event → Bool
  | .subshellCreated .. | .subshellReset _ => true
  | _ => false

theorem lastSubshell_append_of_other {client : ClientId} {events es : List Event}
    (hes : ∀ e ∈ es, e.isSubshell = false) :
    lastSubshell client (events ++ es) = lastSubshell client events := by
  unfold lastSubshell
  rw [List.foldl_append]
  generalize events.foldl (Event.cachedSubshell client) none = cached
  induction es with
  | nil => rfl
  | cons e es ih =>
      have he : Event.cachedSubshell client cached e = cached := by
        have hother := hes e List.mem_cons_self
        cases e <;> first | rfl | cases hother
      rw [List.foldl_cons, he]
      exact ih fun e he => hes e (List.mem_cons_of_mem _ he)

theorem lastSubshell_append_created {client client' : ClientId} {subshellId : Option String}
    {events : List Event} :
    lastSubshell client (events ++ [.subshellCreated client' subshellId]) =
      if client' = client then subshellId else lastSubshell client events := by
  simp [lastSubshell, Event.cachedSubshell]

theorem lastSubshell_append_reset {client : ClientId} {events : List Event}
    {clients : List ClientId} :
    lastSubshell client (events ++ clients.map .subshellReset) =
      if client ∈ clients then none else lastSubshell client events := by
  unfold lastSubshell
  rw [List.foldl_append]
  generalize events.foldl (Event.cachedSubshell client) none = cached
  induction clients generalizing cached with
  | nil => rfl
  | cons client' clients ih =>
      rw [List.map_cons, List.foldl_cons, ih]
      by_cases heq : client' = client
      · simp [Event.cachedSubshell, heq]
      · simp [Event.cachedSubshell, heq, Ne.symm heq]

namespace Pc

/-- The client that a job is preparing. -/
def client : Pc → Option ClientId
  | .clientReady _ _ client | .subshellReply _ _ client _ => some client
  | _ => none

theorem client_of_isStop {pc : Pc} (h : pc.isStop = true) : pc.client = none := by
  cases pc <;> first | rfl | cases h

end Pc

namespace ClientPool

variable {p p' : ClientPool} {client : ClientId} {k : KernelId}

/-- The same cached ids, cached clients and number of clients. -/
structure Agrees (p p' : ClientPool) : Prop where
  subshellId : ∀ client, (p'.clients client).subshellId = (p.clients client).subshellId
  kernelClients : p'.kernelClients = p.kernelClients
  nextClient : p'.nextClient = p.nextClient

theorem Agrees.refl (p : ClientPool) : p.Agrees p := ⟨fun _ => rfl, rfl, rfl⟩

theorem agrees_installHooks (p : ClientPool) (k : KernelId) (client : ClientId) :
    p.Agrees (p.installHooks k client) := by
  refine ⟨?_, rfl, rfl⟩
  intro client'
  simp only [installHooks, modify, Function.update_apply]
  split
  · rename_i h
    rw [h]
  · rfl

/-- The client of a kernel is one that has been built. -/
theorem getClient_lt (hcached : ∀ k client, p.kernelClients k = some client → client < p.nextClient) :
    (p.getClient k).2 < (p.getClient k).1.nextClient := by
  unfold getClient
  split
  · exact hcached k _ ‹_›
  · exact Nat.lt_succ_self _

theorem nextClient_getClient : p.nextClient ≤ (p.getClient k).1.nextClient := by
  unfold getClient
  split
  · exact le_refl _
  · exact Nat.le_succ _

theorem kernelClients_getClient {k' : KernelId}
    (h : (p.getClient k).1.kernelClients k' = some client) :
    p.kernelClients k' = some client ∨ client = (p.getClient k).2 := by
  unfold getClient at h ⊢
  split at h
  · exact .inl h
  · simp only [Function.update_apply] at h
    split at h
    · cases h
      exact .inr rfl
    · exact .inl h

/-- A client that is new has no subshell, and the others keep theirs. -/
theorem subshellId_getClient
    (hfresh : ∀ client, p.nextClient ≤ client → (p.clients client).subshellId = none) :
    ((p.getClient k).1.clients client).subshellId = (p.clients client).subshellId := by
  unfold getClient
  split
  · rfl
  · simp only [Function.update_apply]
    split
    · rename_i h
      rw [h, hfresh _ (le_refl _)]
      rfl
    · rfl

theorem interruptViaSubshell_pool (p : ClientPool) (client sent : Bool) (kernelId : Option KernelId) :
    (p.interruptViaSubshell client sent kernelId).1 = p ∨
      ∃ k, (p.interruptViaSubshell client sent kernelId).1 = (p.getClient k).1 := by
  unfold interruptViaSubshell
  split
  · exact .inl rfl
  · split
    · exact .inr ⟨_, rfl⟩
    · exact .inl rfl

/-- A snippet is sent exactly when the client that the stack caches for the kernel has a
subshell cached in turn, and both the client and the channel work. -/
theorem interruptViaSubshell_none (p : ClientPool) (client sent : Bool) (k : KernelId) :
    (p.interruptViaSubshell client sent (some k)).2 = none ↔
      client = false ∨ sent = false ∨
        (p.kernelClients k).bind (fun client => (p.clients client).subshellId) = none := by
  cases client with
  | false => simp [interruptViaSubshell]
  | true =>
      cases sent with
      | false => simp [interruptViaSubshell]
      | true =>
          cases hk : p.kernelClients k <;>
            simp [interruptViaSubshell, getClient, hk, KernelClient.fresh]

end ClientPool

namespace Server

/-- What one move does to the clients, together with the events it records. -/
inductive PoolStep (p : ClientPool) (pc : Pc) : ClientPool → List Event → Prop
  | kept {p' es} (h : p.Agrees p') (hes : ∀ e ∈ es, e.isSubshell = false) : PoolStep p pc p' es
  | found {k es} (hes : ∀ e ∈ es, e.isSubshell = false) : PoolStep p pc (p.getClient k).1 es
  | created {r cells client requestId subshellId p'}
      (hpc : pc = .subshellReply r cells client requestId)
      (h : (p.modify client fun c => { c with subshellId := subshellId }).Agrees p') :
      PoolStep p pc p' [.subshellCreated client subshellId]
  | cleaned {k} :
      PoolStep p pc (p.cleanupAfterRestart k) ((p.kernelClients k).toList.map .subshellReset)

namespace PoolStep

variable {p p' : ClientPool} {pc : Pc} {es events : List Event} {client : ClientId}

theorem nextClient_le (h : PoolStep p pc p' es) : p.nextClient ≤ p'.nextClient := by
  cases h with
  | kept h => exact h.nextClient.ge
  | found => exact ClientPool.nextClient_getClient
  | created _ h => exact h.nextClient.ge
  | cleaned =>
      unfold ClientPool.cleanupAfterRestart
      split <;> exact le_refl _

theorem fresh (h : PoolStep p pc p' es)
    (hfresh : ∀ ⦃client⦄, p.nextClient ≤ client → (p.clients client).subshellId = none)
    (hheld : ∀ client, pc.client = some client → client < p.nextClient)
    (hlt : p'.nextClient ≤ client) : (p'.clients client).subshellId = none := by
  have hold := hfresh (h.nextClient_le.trans hlt)
  cases h with
  | kept h => rw [h.subshellId, hold]
  | found => rw [ClientPool.subshellId_getClient hfresh, hold]
  | @created r cells client' requestId subshellId p' hpc h =>
      subst hpc
      have hne : client ≠ client' := by
        rintro rfl
        exact absurd (hheld client rfl) (Nat.not_lt.mpr (h.nextClient ▸ hlt))
      rw [h.subshellId]
      simpa [ClientPool.modify, hne] using hold
  | cleaned =>
      unfold ClientPool.cleanupAfterRestart
      split
      · exact hold
      · simp only [ClientPool.modify, Function.update_apply]
        split
        · rfl
        · exact hold

theorem cached {k : KernelId} (h : PoolStep p pc p' es)
    (hcached : ∀ ⦃k client⦄, p.kernelClients k = some client → client < p.nextClient)
    (hk : p'.kernelClients k = some client) : client < p'.nextClient := by
  have hle := h.nextClient_le
  cases h with
  | kept h => exact (hcached (h.kernelClients ▸ hk)).trans_le hle
  | found =>
      rcases ClientPool.kernelClients_getClient hk with hk | rfl
      · exact (hcached hk).trans_le hle
      · exact ClientPool.getClient_lt hcached
  | created _ h => exact (hcached (h.kernelClients ▸ hk)).trans_le hle
  | cleaned =>
      refine Nat.lt_of_lt_of_le ?_ hle
      unfold ClientPool.cleanupAfterRestart at hk
      split at hk
      · exact hcached hk
      · simp only [Function.update_apply, ite_eq_iff, reduceCtorEq, and_false, false_or] at hk
        exact hcached hk.2

theorem tracked (h : PoolStep p pc p' es)
    (hfresh : ∀ ⦃client⦄, p.nextClient ≤ client → (p.clients client).subshellId = none)
    (htracked : (p.clients client).subshellId = lastSubshell client events) :
    (p'.clients client).subshellId = lastSubshell client (events ++ es) := by
  cases h with
  | kept h hes => rw [h.subshellId, lastSubshell_append_of_other hes, htracked]
  | found hes =>
      rw [ClientPool.subshellId_getClient hfresh, lastSubshell_append_of_other hes, htracked]
  | @created r cells client' requestId subshellId p' hpc h =>
      rw [h.subshellId, lastSubshell_append_created, ← htracked]
      simp only [ClientPool.modify, Function.update_apply, eq_comm]
      split <;> rfl
  | @cleaned k =>
      rw [lastSubshell_append_reset, ← htracked]
      unfold ClientPool.cleanupAfterRestart
      cases p.kernelClients k with
      | none => simp
      | some client' =>
          simp only [Option.toList_some, List.mem_singleton, ClientPool.modify,
            Function.update_apply]
          split <;> rfl

end PoolStep

variable {s s' : Server} {t : TaskId} {op : Op} {l : Label} {pc : Pc} {n : Next} {r : RoomId}
  {k : KernelId} {client : ClientId}

theorem agrees_clientPrepared (s : Server) (r : RoomId) (cells : List CellId) (client : ClientId) :
    s.pool.Agrees (s.clientPrepared r cells client).state.pool := by
  unfold clientPrepared
  split
  · exact .refl _
  · exact ClientPool.agrees_installHooks ..

theorem agrees_ensureSubshell (s : Server) (o : Oracle) (r : RoomId) (cells : List CellId)
    (client : ClientId) : s.pool.Agrees (s.ensureSubshell o r cells client).state.pool := by
  unfold ensureSubshell
  split
  · exact s.agrees_clientPrepared r cells client
  · split
    · exact ⟨fun _ => rfl, rfl, rfl⟩
    · exact .refl _

theorem events_clientPrepared (s : Server) (r : RoomId) (cells : List CellId) (client : ClientId) :
    (s.clientPrepared r cells client).state.events = s.events := by
  obtain ⟨pool, hn⟩ := s.clientPrepared_eq r cells client
  rw [hn]

theorem pool_subshellMessage (s : Server) (r : RoomId) (cells : List CellId) (client : ClientId)
    (requestId : RequestId) (reply : ControlReply) (beforeDeadline : Bool) :
    let n := s.subshellMessage r cells client requestId reply beforeDeadline
    n.state.events = s.events ∧ s.pool.Agrees n.state.pool ∨
      ∃ subshellId, n.state.events = s.events ++ [.subshellCreated client subshellId] ∧
        (s.pool.modify client fun c => { c with subshellId := subshellId }).Agrees n.state.pool := by
  have hprepared := s.agrees_clientPrepared r cells client
  have hevents := s.events_clientPrepared r cells client
  dsimp only
  unfold subshellMessage
  split
  · split
    · exact .inl ⟨rfl, .refl _⟩
    · exact .inl ⟨hevents, hprepared⟩
  · exact .inl ⟨rfl, .refl _⟩
  · exact .inl ⟨hevents, hprepared⟩
  · rename_i subshellId _
    let created : Server := record
      { s with pool := s.pool.modify client fun c => { c with subshellId := subshellId } }
      (.subshellCreated client subshellId)
    exact .inr ⟨subshellId, created.events_clientPrepared r cells client,
      created.agrees_clientPrepared r cells client⟩

theorem TaskStep.pool (h : TaskStep s t op l pc n) :
    ∃ es, n.state.events = s.events ++ es ∧ PoolStep s.pool pc n.state.pool es := by
  have hsame : n.state.events = s.events → n.state.pool = s.pool →
      ∃ es, n.state.events = s.events ++ es ∧ PoolStep s.pool pc n.state.pool es := by
    intro hevents hpool
    exact ⟨[], by simp [hevents], .kept (hpool ▸ .refl _) (by simp)⟩
  have hvia : ∀ {pool client sent kernelId answer es},
      s.pool.interruptViaSubshell client sent kernelId = (pool, answer) →
      (∀ e ∈ es, e.isSubshell = false) → PoolStep s.pool pc pool es := by
    intro pool client sent kernelId answer es hvia hes
    have hpool := s.pool.interruptViaSubshell_pool client sent kernelId
    rw [hvia] at hpool
    rcases hpool with rfl | ⟨k, rfl⟩
    · exact .kept (.refl _) hes
    · exact .found hes
  cases h with
  | call h =>
      cases h with
      | kernelSubshell h => exact ⟨_, rfl, hvia h (by simp [Event.isSubshell])⟩
      | kernelNative h => exact ⟨_, rfl, hvia h (by simp [Event.isSubshell])⟩
      | queued => exact ⟨_, rfl, .kept (.refl _) (by simp [Event.isSubshell])⟩
      | sendInput => exact ⟨_, rfl, .kept (.refl _) (by simp [Event.isSubshell])⟩
      | interruptSubshell h => exact ⟨_, rfl, hvia h (by simp [Event.isSubshell])⟩
      | interruptKernel h => exact ⟨_, rfl, hvia h (by simp [Event.isSubshell])⟩
      | interruptRefused h => exact ⟨[], by simp, hvia h (by simp)⟩
      | restarted => exact ⟨_, rfl, .cleaned⟩
      | _ => exact hsame rfl rfl
  | ensure h =>
      cases h with
      | created => exact ⟨_, rfl, .kept (.refl _) (by simp [Event.isSubshell])⟩
      | _ => exact hsame rfl rfl
  | stop h =>
      cases h with
      | unknown => cases op <;> exact hsame rfl rfl
      | already => cases op <;> exact hsame rfl rfl
      | stopping hr hstate hpc hes =>
          refine ⟨_, rfl, .kept (.refl _) ?_⟩
          rcases hes with rfl | ⟨_, rfl⟩ | ⟨_, rfl⟩ <;> simp [Event.isSubshell]
      | cleared =>
          cases op
          all_goals exact ⟨_, rfl, .kept (.refl _) (by simp [Event.isSubshell])⟩
      | _ => exact hsame rfl rfl
  | job h =>
      cases h with
      | preparing => exact ⟨[], by simp, .found (by simp)⟩
      | @clientReady o r cells client pool pc hpc hn =>
          have hagrees := s.agrees_ensureSubshell o r cells client
          rw [hn] at hagrees
          exact ⟨[], by simp, .kept hagrees (by simp)⟩
      | @subshellMessage o r cells client requestId reply beforeDeadline pool pc es hpc hes hn =>
          have hmessage := s.pool_subshellMessage r cells client requestId reply beforeDeadline
          rw [hn] at hmessage
          rcases hmessage with ⟨hevents, hagrees⟩ | ⟨subshellId, hevents, hagrees⟩
          · exact ⟨[], hevents.trans (List.append_nil _).symm, .kept hagrees (by simp)⟩
          · exact ⟨_, hevents, .created rfl hagrees⟩
      | @subshellFailed o r cells client requestId error pool herror hn =>
          have hagrees := s.agrees_clientPrepared r cells client
          rw [hn] at hagrees
          exact ⟨[], by simp, .kept hagrees (by simp)⟩
      | put => exact ⟨_, rfl, .kept (.refl _) (by simp [Event.isSubshell])⟩
      | putForgotten => exact ⟨_, rfl, .kept (.refl _) (by simp [Event.isSubshell])⟩
      | polled => exact ⟨_, rfl, .kept (.refl _) (by simp [Event.isSubshell])⟩
      | failed => exact ⟨_, rfl, .kept (.refl _) (by simp [Event.isSubshell])⟩
      | cancelled => exact ⟨_, rfl, .kept (.refl _) (by simp [Event.isSubshell])⟩
      | _ => exact hsame rfl rfl

/-- The client that a job prepares it found or built, or was preparing before. -/
theorem TaskStep.preparing (h : TaskStep s t op l pc n) (hpc : n.pc.client = some client) :
    pc.client = some client ∨
      ∃ k, n.state.pool = (s.pool.getClient k).1 ∧ client = (s.pool.getClient k).2 := by
  cases h with
  | call h => cases h <;> cases hpc
  | ensure h => cases h <;> cases hpc
  | stop h =>
      rcases h.stays with hstop | ⟨_, hdone⟩
      · rw [Pc.client_of_isStop hstop] at hpc
        cases hpc
      · rw [hdone] at hpc
        cases hpc
  | job h =>
      cases h with
      | preparing =>
          cases hpc
          exact .inr ⟨_, rfl, rfl⟩
      | clientReady hpc' =>
          rcases hpc' with rfl | ⟨_, rfl⟩ | ⟨_, -, rfl⟩ <;> first | exact .inl hpc | cases hpc
      | subshellMessage hpc' =>
          rcases hpc' with rfl | ⟨_, rfl⟩ | ⟨_, -, rfl⟩ <;> first | exact .inl hpc | cases hpc
      | _ => cases hpc

/-- Clients in use have been built, and what is cached on a client is what the history says. -/
structure ClientsInv (s : Server) : Prop where
  fresh : ∀ ⦃client⦄, s.pool.nextClient ≤ client → (s.pool.clients client).subshellId = none
  cached : ∀ ⦃k client⦄, s.pool.kernelClients k = some client → client < s.pool.nextClient
  held : ∀ ⦃t op pc client⦄, s.tasks t = some ⟨op, pc⟩ → pc.client = some client →
    client < s.pool.nextClient
  tracked : ∀ client, (s.pool.clients client).subshellId = lastSubshell client s.events

theorem clientsInv_boot {ttl : Time} {maxCompleted : Int} {alive : KernelId → Bool}
    {kernelspec : NotebookId → Option String} :
    ClientsInv (boot ttl maxCompleted alive kernelspec) where
  fresh _ _ := rfl
  cached _ _ h := by cases h
  held _ _ _ _ h := by cases h
  tracked _ := rfl

namespace ClientsInv

/-- The clients after a step: those of a move, or those whose restart callbacks fired. -/
theorem pool_cases (h : StepCase s l s') :
    s'.pool = s.pool ∧ s'.events = s.events ∨
      (∃ k, s'.pool = s.pool.fireRestartHooks k ∧
        s'.events = s.events ++ (s.pool.restartHooks k).map .subshellReset) ∨
      ∃ pc es, (∀ client, pc.client = some client → ∃ t op, s.tasks t = some ⟨op, pc⟩) ∧
        s'.events = s.events ++ es ∧ PoolStep s.pool pc s'.pool es := by
  cases h with
  | call => exact .inl ⟨rfl, rfl⟩
  | task ht h =>
      obtain ⟨es, hes, hpool⟩ := h.pool
      exact .inr (.inr ⟨_, es, fun _ _ => ⟨_, _, ht⟩, hes, hpool⟩)
  | @outside c =>
      cases c with
      | kernelDied k =>
          exact .inr (.inr ⟨.start, [.kernelDied k], nofun, rfl,
            .kept (.refl _) (by simp [Event.isSubshell])⟩)
      | kernelStarted k => exact .inl ⟨rfl, rfl⟩
      | kernelAutorestarted k => exact .inr (.inl ⟨k, rfl, rfl⟩)
      | kernelspecEdited nb name => exact .inl ⟨rfl, rfl⟩

theorem nextClient_le (h : StepCase s l s') : s.pool.nextClient ≤ s'.pool.nextClient := by
  rcases pool_cases h with ⟨hpool, -⟩ | ⟨k, hpool, -⟩ | ⟨pc, es, -, -, hstep⟩
  · rw [hpool]
  · rw [hpool]
    exact le_refl _
  · exact hstep.nextClient_le

theorem held_step (hs : ClientsInv s) (h : StepCase s l s') (ht : s'.tasks t = some ⟨op, pc⟩)
    (hpc : pc.client = some client) : client < s'.pool.nextClient := by
  cases task_origin h ht with
  | kept ht₀ => exact (hs.held ht₀ hpc).trans_le (nextClient_le h)
  | @moved _ pc₀ n ht₀ hmove heq =>
      rcases hmove.preparing hpc with hpc | ⟨k, hpool, rfl⟩
      · exact (hs.held ht₀ hpc).trans_le (nextClient_le h)
      · rw [heq]
        change _ < n.state.pool.nextClient
        rw [hpool]
        exact ClientPool.getClient_lt hs.cached
  | called => cases hpc
  | spawned => cases hpc

theorem fresh_step (hs : ClientsInv s) (h : StepCase s l s')
    (hlt : s'.pool.nextClient ≤ client) : (s'.pool.clients client).subshellId = none := by
  rcases pool_cases h with ⟨hpool, -⟩ | ⟨k, hpool, -⟩ | ⟨pc, es, hpc, -, hstep⟩
  · rw [hpool] at hlt ⊢
    exact hs.fresh hlt
  · rw [hpool] at hlt ⊢
    have hold := hs.fresh hlt
    simp only [ClientPool.fireRestartHooks]
    split
    · rfl
    · exact hold
  · refine hstep.fresh hs.fresh ?_ hlt
    intro client hclient
    obtain ⟨t, op, ht⟩ := hpc client hclient
    exact hs.held ht hclient

theorem cached_step (hs : ClientsInv s) (h : StepCase s l s')
    (hk : s'.pool.kernelClients k = some client) : client < s'.pool.nextClient := by
  rcases pool_cases h with ⟨hpool, -⟩ | ⟨k', hpool, -⟩ | ⟨pc, es, -, -, hstep⟩
  · rw [hpool] at hk ⊢
    exact hs.cached hk
  · rw [hpool] at hk ⊢
    exact hs.cached hk
  · exact hstep.cached hs.cached hk

theorem tracked_step (hs : ClientsInv s) (h : StepCase s l s') (client : ClientId) :
    (s'.pool.clients client).subshellId = lastSubshell client s'.events := by
  rcases pool_cases h with ⟨hpool, hevents⟩ | ⟨k, hpool, hevents⟩ | ⟨pc, es, -, hevents, hstep⟩
  · rw [hpool, hevents]
    exact hs.tracked client
  · rw [hpool, hevents, lastSubshell_append_reset, ← hs.tracked client]
    simp only [ClientPool.fireRestartHooks]
    split <;> rfl
  · rw [hevents]
    exact hstep.tracked hs.fresh (hs.tracked client)

theorem step (hs : ClientsInv s) (hstep : s.step l = some s') : ClientsInv s' where
  fresh _ := hs.fresh_step (step_cases hstep)
  cached _ _ := hs.cached_step (step_cases hstep)
  held _ _ _ _ := hs.held_step (step_cases hstep)
  tracked := hs.tracked_step (step_cases hstep)

end ClientsInv

theorem clientsInv_run {G : Server → Label → Prop} {s₀ : Server} (h : ServerRun G s₀ s)
    (hs : ClientsInv s₀) : ClientsInv s :=
  h.invariant hs fun _ _ _ hs _ hstep => hs.step hstep

end Server

end Hypernote
