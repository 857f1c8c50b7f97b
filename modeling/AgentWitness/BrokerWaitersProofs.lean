import AgentWitness.BrokerTaskProofs

/-! # Waiters and pending requests

    Over every run of the broker actor the waiters are exactly the pending
    requests, and the outbound channel belongs to the connected session.  The
    one step that can break this is a refused connect: `apply` expires overdue
    work before it refuses, and a refusal hands no effects to the actor.  A
    waiter of a request that was overdue then is never answered.

    The condition is exact, for one call of the model and for one step of the
    actor: a refusal leaves the state as it was, and every waiter pending, iff
    nothing pending is overdue. -/

namespace BrokerWaiters

open Packet KeyedMap BrokerModel BrokerInvariant BrokerCompletion BrokerTask Transition

/-- One if a caller waits for the request, else zero. -/
def waiterOnce (a : BrokerActor) (id : RequestId) : Nat :=
  if (a.waiters.get? id).isSome then 1 else 0

/-- The loop invariant of `execute`. -/
structure Executing (a : BrokerActor) (work : List Effect) : Prop where
  run : BrokerRun a.config.max_pending_requests a.calls a.state
  fresh : (submittedIds a.calls).Nodup
  balanced : ∀ id, completions id work + pendingOnce a.state id = waiterOnce a id
  linked : a.remote.map Prod.fst = a.state.agent.session
  current : Current a work

theorem waiterOnce_erase (a : BrokerActor) (j id : RequestId) :
    waiterOnce { a with waiters := a.waiters.erase j } id
      = if j = id then 0 else waiterOnce a id := by
  by_cases h : j = id
  · subst h
    simp [waiterOnce]
  · simp [waiterOnce, get?_erase_of_ne _ (Ne.symm h), h]

theorem Current.tail {a : BrokerActor} {e : Effect} {rest : List Effect}
    (h : Current a (e :: rest)) : Current a rest :=
  fun d hd => h d (List.mem_cons_of_mem _ hd)

theorem Current.append {a : BrokerActor} {l l' : List Effect} (h : Current a l)
    (h' : Current a l') : Current a (l ++ l') := by
  intro d hd
  rcases List.mem_append.mp hd with hd | hd
  · exact h d hd
  · exact h' d hd

/-- A call that submits nothing leaves the submitted ids as they were. -/
theorem submittedIds_call {calls : List Call} {event : Event} {now : Instant}
    {result : Except ModelError (List Effect)} (h : submittedId event = none) :
    submittedIds (calls ++ [⟨event, now, result⟩]) = submittedIds calls := by
  rw [submittedIds_snoc, h]
  exact List.append_nil _

/-- What a successful call hands to `execute` balances, if before it every
    waiter was pending or is submitted by it. -/
theorem called_executing {a : BrokerActor} {event : Event} {now : Instant}
    {s' : BrokerState} {effects : List Effect} (remote : Option (SessionId × ChannelId))
    (hr : BrokerRun a.config.max_pending_requests a.calls a.state)
    (hf : (submittedIds (a.calls ++ [⟨event, now, .ok effects⟩])).Nodup)
    (hbal : ∀ id, pendingOnce a.state id + submittedOnce event id = waiterOnce a id)
    (hap : a.state.apply event now = (s', .ok effects))
    (hlink : remote.map Prod.fst = sessionAfter a.state.agent.session event) :
    Executing { a with
      state := s', remote := remote
      calls := a.calls ++ [⟨event, now, .ok effects⟩] } effects where
  run := .snoc hr hap
  fresh := hf
  balanced := by
    intro id
    have hcons := (run_consistent hr (fresh_of_snoc hf)).1
    have hfresh : ∀ j, submittedId event = some j → a.state.pending.get? j = none :=
      fresh_not_pending hr hf
    rw [apply_conserves hcons hfresh hap id]
    exact hbal id
  linked := hlink.trans (apply_session hap).symm
  current := fun e he session_id hd => Or.inr (apply_dispatchSession hap he hd)

/-- **Step lemma of the worklist.** -/
theorem executed_executing {now : Instant} {a a' : BrokerActor} {e : Effect}
    {pushed rest : List Effect} (hex : Executed now a e a' pushed)
    (h : Executing a (e :: rest)) : Executing a' (rest ++ pushed) := by
  have htail := Current.tail h.current
  have hbal := h.balanced
  cases hex with
  | sent => rw [List.append_nil]; exact ⟨h.run, h.fresh, hbal, h.linked, htail⟩
  | stopped => rw [List.append_nil]; exact ⟨h.run, h.fresh, hbal, h.linked, htail⟩
  | woke => rw [List.append_nil]; exact ⟨h.run, h.fresh, hbal, h.linked, htail⟩
  | @answered request_id result response hw =>
      rw [List.append_nil]
      refine ⟨h.run, h.fresh, ?_, h.linked, htail⟩
      intro id
      have hb := hbal id
      rw [← List.singleton_append, completions_append, completions_complete] at hb
      rw [waiterOnce_erase]
      by_cases hid : request_id = id
      · subst hid
        have hone : waiterOnce a request_id = 1 := by simp [waiterOnce, hw]
        rw [if_pos rfl, hone] at hb
        rw [if_pos rfl]
        show completions request_id rest + pendingOnce a.state request_id = 0
        omega
      · rw [if_neg hid, Nat.zero_add] at hb
        rw [if_neg hid]
        exact hb
  | @unknown request_id result hw =>
      -- a completion without a waiter does not occur
      have hb := hbal request_id
      rw [← List.singleton_append, completions_append, completions_complete, if_pos rfl] at hb
      have hzero : waiterOnce a request_id = 0 := by simp [waiterOnce, hw]
      omega
  | @lost session_id request_id attempt _ _ _ _ s' pushed hap =>
      have hlost : sessionAfter a.state.agent.session (.disconnected session_id) = none := by
        rw [sessionAfter]
        rcases h.current _ (List.mem_cons_self ..) session_id rfl with hn | hn
        · rw [hn]
          exact if_neg (fun he => by cases he)
        · exact if_pos hn
      obtain ⟨hcons, _⟩ := run_consistent h.run h.fresh
      refine ⟨.snoc h.run hap, ?_, ?_, ?_, ?_⟩
      · rw [submittedIds_call rfl]
        exact h.fresh
      · intro id
        have hb := hbal id
        have hc := apply_conserves hcons (fun _ hj => by cases (Option.some_ne_none _ hj.symm))
          hap id
        have hsub : submittedOnce (.disconnected session_id) id = 0 := rfl
        rw [completions, List.countP_cons_of_neg (fun he => Bool.false_ne_true he)] at hb
        change completions id rest + pendingOnce a.state id = waiterOnce a id at hb
        rw [completions_append]
        show completions id rest + completions id pushed + pendingOnce s' id = waiterOnce a id
        omega
      · exact (hlost.symm.trans (apply_session hap).symm)
      · refine Current.append (htail.mono (Or.inr ?_)) ?_
        · exact (apply_session hap).trans hlost
        · exact fun e he active hd => Or.inr (apply_dispatchSession hap he hd)

/-- Between steps: nothing is left to execute. -/
abbrev Settled (a : BrokerActor) : Prop := Executing a []

/-- **Run lemma of the worklist.** -/
theorem execute_settled {x : Exec} {effects : List Effect} (now : Instant)
    (h : Executing x.actor effects) : Settled (x.execute effects now).actor := by
  have hinv := rounds_invariant (Exec.executeEffect now) (fun x work => Executing x.actor work)
    (fun x e rest hx => executed_executing (executeEffect_cases now x e) hx) 3 x effects h
  rw [rounds_drained] at hinv
  exact hinv

/-! ## The actor's methods -/

theorem waiterOnce_insert (a : BrokerActor) (j id : RequestId) (response : ResponseId) :
    waiterOnce { a with waiters := a.waiters.insert j response } id
      = if j = id then 1 else waiterOnce a id := by
  by_cases h : j = id
  · subst h
    simp [waiterOnce, get?_insert_self]
  · simp [waiterOnce, get?_insert_of_ne _ _ (Ne.symm h), h]

/-- `BrokerActor::apply`, for every event but a connect: the state is settled
    again. -/
theorem apply_settled {x : Exec} {event : Event} {now : Instant}
    (hr : BrokerRun x.actor.config.max_pending_requests x.actor.calls x.actor.state)
    (hf : (submittedIds x.actor.calls).Nodup)
    (hnew : ∀ id, submittedId event = some id → id ∉ submittedIds x.actor.calls)
    (hbal : ∀ id, pendingOnce x.actor.state id + submittedOnce event id
      = waiterOnce x.actor id)
    (hlink : x.actor.remote.map Prod.fst = sessionAfter x.actor.state.agent.session event)
    (hev : ∀ session_id capacity, event ≠ .connected session_id capacity) :
    Settled (x.apply event now).actor := by
  cases hres : (x.actor.state.apply event now).2 with
  | error e =>
      obtain ⟨_, hh⟩ := apply_error (Prod.ext rfl hres)
      obtain ⟨session_id, capacity, heq, _⟩ := handle_error hh
      exact absurd heq (hev session_id capacity)
  | ok effects =>
      have hap : x.actor.state.apply event now
          = ((x.actor.state.apply event now).1, .ok effects) := Prod.ext rfl hres
      have hids : (submittedIds (x.actor.calls ++ [⟨event, now, .ok effects⟩])).Nodup := by
        rw [submittedIds_snoc]
        cases hs : submittedId event with
        | none => simpa using hf
        | some id =>
            refine List.Nodup.append hf (List.nodup_singleton id) ?_
            intro j hj hid
            obtain rfl := List.mem_singleton.mp hid
            exact hnew j hs hj
      simp only [Exec.apply, BrokerActor.call, hres]
      exact execute_settled now (called_executing x.actor.remote hr hids hbal hap hlink)

theorem Executing.balanced_nil {a : BrokerActor} (h : Settled a) (id : RequestId) :
    pendingOnce a.state id = waiterOnce a id := by
  have := h.balanced id
  rwa [completions_nil, Nat.zero_add] at this

/-- A settled actor stays settled through an event that submits nothing and
    does not connect. -/
theorem apply_settled_of_settled {x : Exec} {event : Event} {now : Instant}
    (remote : Option (SessionId × ChannelId)) (h : Settled x.actor)
    (hsub : submittedId event = none)
    (hlink : remote.map Prod.fst = sessionAfter x.actor.state.agent.session event)
    (hev : ∀ session_id capacity, event ≠ .connected session_id capacity) :
    Settled ({ x with actor.remote := remote }.apply event now).actor := by
  refine apply_settled h.run h.fresh (fun id hid => ?_) (fun id => ?_) hlink hev
  · rw [hsub] at hid
    cases hid
  · rw [submittedOnce, hsub]
    exact h.balanced_nil id

/-- A fresh local request is admitted or refused, and its caller waits
    accordingly. -/
theorem handle_local_settled {x : Exec} {request : PacketRequest} {request_id : RequestId}
    {now : Instant} {requested_at : SystemTime} (h : Settled x.actor)
    (hnew : request_id ∉ submittedIds x.actor.calls) :
    Settled (x.handle_local request request_id now requested_at).actor := by
  refine apply_settled h.run h.fresh ?_ ?_ h.linked (fun _ _ he => by cases he)
  · intro id hid
    obtain rfl := Option.some.inj hid
    exact hnew
  · intro id
    have hpend : pendingOnce x.actor.state request_id = 0 := by
      have hsub := (run_consistent h.run h.fresh).2 request_id
      cases hp : x.actor.state.pending.get? request_id with
      | none => simp [pendingOnce, hp]
      | some p => exact absurd (hsub (by simp [hp])) hnew
    show pendingOnce x.actor.state id + submittedOnce (.submit request_id ..) id
      = waiterOnce { x.actor with waiters := x.actor.waiters.insert request_id _ } id
    rw [waiterOnce_insert, submittedOnce]
    by_cases hid : request_id = id
    · subst hid
      simp [submittedId, hpend]
    · simp only [submittedId, Option.some.injEq, hid, if_false, Nat.add_zero]
      exact h.balanced_nil id

/-! ## The refused connect -/

/-- Some pending request has reached its deadline. -/
def Overdue (s : BrokerState) (now : Instant) : Prop :=
  ∃ id p, s.pending.get? id = some p ∧ p.deadline ≤ now

theorem overdue_iff (s : BrokerState) (now : Instant) :
    (s.overdue now).map Prod.fst ≠ [] ↔ Overdue s now := by
  constructor
  · intro hne
    obtain ⟨id, hid⟩ := List.exists_mem_of_ne_nil _ hne
    obtain ⟨p, hp, hd⟩ := (mem_overdue s now id).mp hid
    exact ⟨id, p, hp, hd⟩
  · rintro ⟨id, p, hp, hd⟩
    exact List.ne_nil_of_mem ((mem_overdue s now id).mpr ⟨p, hp, hd⟩)

instance (s : BrokerState) (now : Instant) : Decidable (Overdue s now) :=
  decidable_of_iff _ (overdue_iff s now)

/-- Whether an event asks for the remote slot. -/
def isConnect : Event → Bool
  | .connected _ _ => true
  | _ => false

/-- The event is a connect that will be refused while a pending request is
    overdue. -/
def OverdueRefusal (s : BrokerState) (event : Event) (now : Instant) : Prop :=
  isConnect event = true ∧ s.agent ≠ .disconnected ∧ Overdue s now

instance (s : BrokerState) (event : Event) (now : Instant) :
    Decidable (OverdueRefusal s event now) :=
  inferInstanceAs (Decidable (_ ∧ _ ∧ _))

/-- A second connect is refused after the expiry, without its effects. -/
theorem apply_refused {s : BrokerState} {event : Event} (hconnect : isConnect event = true)
    (hagent : s.agent ≠ .disconnected) (now : Instant) :
    s.apply event now = ((s.expire now).1, .error .remoteAlreadyConnected) := by
  cases event with
  | connected session_id capacity =>
      have hh : (s.expire now).1.handle (.connected session_id capacity)
          = .error .remoteAlreadyConnected := if_pos hagent
      simp only [BrokerState.apply, hh]
  | submit | ready | locked | disconnected | response | cancelled | tick =>
      cases hconnect

/-- A refusal leaves the state as it was exactly when nothing is overdue. -/
theorem refusal_atomic_iff (s : BrokerState) (event : Event) (now : Instant) :
    (∀ e, (s.apply event now).2 = .error e → (s.apply event now).1 = s)
      ↔ ¬ OverdueRefusal s event now := by
  constructor
  · rintro hatomic ⟨hconnect, hagent, id, p, hp, hd⟩
    have hap := apply_refused hconnect hagent now
    have hsame := hatomic .remoteAlreadyConnected (congrArg Prod.snd hap)
    rw [hap] at hsame
    have hgone : (s.expire now).1.pending.get? id = none := by
      rw [expire_get?, hp]
      exact if_neg (by simpa using hd)
    rw [hsame, hp] at hgone
    cases hgone
  · intro hclean e he
    obtain ⟨hs, hh⟩ := apply_error (Prod.ext rfl he)
    obtain ⟨session_id, capacity, rfl, hagent⟩ := handle_error hh
    refine hs.trans ?_
    rw [expire_of_none_overdue]
    intro id p hp
    by_contra hd
    exact hclean ⟨rfl, hagent, id, p, hp, Nat.le_of_not_lt hd⟩

/-- The actor after `handle` has processed a connect. -/
def BrokerActor.afterConnect (a : BrokerActor) (capacity : Nat) (outbound : ChannelId)
    (response : ResponseId) (session_id : SessionId) (now : Instant) (sends : Option Nat) :
    BrokerActor :=
  (Exec.handle ⟨a, sends, []⟩ session_id now (.connect capacity outbound response)).1.actor

theorem afterConnect_ok {a : BrokerActor} {capacity : Nat} {session_id : SessionId}
    {now : Instant} {s' : BrokerState} {effects : List Effect}
    (hap : a.state.apply (.connected session_id capacity) now = (s', .ok effects))
    (outbound : ChannelId) (response : ResponseId) (sends : Option Nat) :
    BrokerActor.afterConnect a capacity outbound response session_id now sends
      = (Exec.execute ⟨{ a with
            state := s', remote := some (session_id, outbound)
            calls := a.calls ++ [⟨.connected session_id capacity, now, .ok effects⟩] },
          sends, [.registered response (.ok session_id)]⟩ effects now).actor := by
  simp only [BrokerActor.afterConnect, Exec.handle, BrokerActor.call, hap]
  rfl

theorem afterConnect_error {a : BrokerActor} {capacity : Nat} {session_id : SessionId}
    {now : Instant} {s' : BrokerState} {e : ModelError}
    (hap : a.state.apply (.connected session_id capacity) now = (s', .error e))
    (outbound : ChannelId) (response : ResponseId) (sends : Option Nat) :
    BrokerActor.afterConnect a capacity outbound response session_id now sends
      = { a with
          state := s'
          calls := a.calls ++ [⟨.connected session_id capacity, now, .error e⟩] } := by
  cases e
  simp only [BrokerActor.afterConnect, Exec.handle, BrokerActor.call, hap]
  rfl

theorem afterConnect_settled {a : BrokerActor} (h : Settled a) {session_id : SessionId}
    {capacity : Nat} {now : Instant}
    (hclean : ¬ OverdueRefusal a.state (.connected session_id capacity) now)
    (outbound : ChannelId) (response : ResponseId) (sends : Option Nat) :
    Settled (BrokerActor.afterConnect a capacity outbound response session_id now sends) := by
  cases hres : (a.state.apply (.connected session_id capacity) now).2 with
  | ok effects =>
      rw [afterConnect_ok (Prod.ext rfl hres)]
      refine execute_settled now
        (called_executing (some (session_id, outbound)) h.run ?_ ?_ (Prod.ext rfl hres) rfl)
      · rw [submittedIds_call rfl]
        exact h.fresh
      · exact h.balanced_nil
  | error e =>
      rw [afterConnect_error (Prod.ext rfl hres)]
      have hsame := (refusal_atomic_iff _ _ _).mpr hclean e hres
      refine ⟨.snoc h.run (Prod.ext rfl hres), ?_, ?_, ?_, fun d hd => (by cases hd)⟩
      · rw [submittedIds_call rfl]
        exact h.fresh
      · simp only [hsame]
        exact h.balanced
      · simp only [hsame]
        exact h.linked

theorem waiterOnce_pos {a : BrokerActor} {id : RequestId} :
    0 < waiterOnce a id ↔ a.waiters.get? id ≠ none := by
  cases h : a.waiters.get? id <;> simp [waiterOnce, h]

theorem pendingOnce_pos {s : BrokerState} {id : RequestId} :
    0 < pendingOnce s id ↔ s.pending.get? id ≠ none := by
  cases h : s.pending.get? id <;> simp [pendingOnce, h]

/-- In a settled actor a caller waits exactly for the pending requests. -/
theorem Executing.waiting_iff {a : BrokerActor} (h : Settled a) (id : RequestId) :
    a.waiters.get? id ≠ none ↔ a.state.pending.get? id ≠ none := by
  rw [← waiterOnce_pos, ← pendingOnce_pos, h.balanced_nil id]

/-- After a connect every waiter is pending exactly when the connect was not
    refused over an overdue request. -/
theorem afterConnect_iff {a : BrokerActor} (h : Settled a) (capacity : Nat)
    (outbound : ChannelId) (response : ResponseId) (session_id : SessionId) (now : Instant)
    (sends : Option Nat) :
    (∀ id, (BrokerActor.afterConnect a capacity outbound response session_id now
          sends).waiters.get? id ≠ none →
        (BrokerActor.afterConnect a capacity outbound response session_id now
          sends).state.pending.get? id ≠ none)
      ↔ ¬ OverdueRefusal a.state (.connected session_id capacity) now := by
  constructor
  · rintro hkeep ⟨hconnect, hagent, id, p, hp, hd⟩
    have hap := apply_refused hconnect hagent now
    have hwait : a.waiters.get? id ≠ none := (h.waiting_iff id).mpr (by simp [hp])
    have hgone : (a.state.expire now).1.pending.get? id = none := by
      rw [expire_get?, hp]
      exact if_neg (by simpa using hd)
    rw [afterConnect_error hap] at hkeep
    exact hkeep id hwait hgone
  · intro hclean id
    exact ((afterConnect_settled h hclean outbound response sends).waiting_iff id).mp

/-! ## Runs of the actor -/

/-- The id drawn for a local request. -/
def requestId : Input → Option RequestId
  | .localRequest _ request_id _ => some request_id
  | _ => none

/-- The ids drawn for local requests so far. -/
def requestIds (h : List (Turn × List Output)) : List RequestId :=
  h.filterMap (fun l => requestId l.1.input)

theorem requestIds_snoc (h : List (Turn × List Output)) (l : Turn × List Output) :
    requestIds (h ++ [l]) = requestIds h ++ (requestId l.1.input).toList := by
  cases hs : requestId l.1.input <;> simp [requestIds, List.filterMap_append, hs]

theorem eventFor_submits (b : Broker) (t : Turn) :
    (eventFor b t).bind submittedId = requestId t.input := by
  rw [eventFor]
  cases t.input with
  | command command session_id =>
      cases command with
      | connect | ready | locked | disconnected | response | shutdown => rfl
  | localRequest | localClosed | cancelled | commandsClosed | deadline => rfl

/-- Clearing the channel of a lost session keeps it linked to the model. -/
theorem linked_disconnect {remote : Option (SessionId × ChannelId)}
    {session : Option SessionId} (h : remote.map Prod.fst = session) (active : SessionId) :
    (if remote.any (fun r => r.1 = active) then none else remote).map Prod.fst
      = sessionAfter session (.disconnected active) := by
  subst h
  cases remote with
  | none => rfl
  | some r =>
      by_cases hr : r.1 = active
      · simp [sessionAfter, hr]
      · simp [sessionAfter, hr]

/-- Only a shutdown stops the actor, and it leaves nobody waiting. -/
theorem handle_stopped {x : Exec} {session_id : SessionId} {now : Instant}
    {command : Command} (h : (x.handle session_id now command).2 = true) :
    (x.handle session_id now command).1.actor.waiters = .empty := by
  cases command with
  | shutdown response => rfl
  | connect capacity outbound response =>
      simp only [Exec.handle] at h
      split at h
      · cases h
      · cases h
  | ready | locked | disconnected | response => cases h

/-- Every command but a connect over an overdue request leaves the actor
    settled, unless it stops it. -/
theorem handle_settled {a : BrokerActor} {sends : Option Nat} {session_id : SessionId}
    {now : Instant} {command : Command} (h : Settled a)
    (hclean : ∀ capacity outbound response, command = .connect capacity outbound response →
      ¬ OverdueRefusal a.state (.connected session_id capacity) now)
    (hrun : (Exec.handle ⟨a, sends, []⟩ session_id now command).2 = false) :
    Settled (Exec.handle ⟨a, sends, []⟩ session_id now command).1.actor := by
  cases command with
  | connect capacity outbound response =>
      exact afterConnect_settled h (hclean capacity outbound response rfl) outbound response
        sends
  | ready active =>
      exact apply_settled_of_settled a.remote h rfl h.linked (fun _ _ he => by cases he)
  | locked active =>
      exact apply_settled_of_settled a.remote h rfl h.linked (fun _ _ he => by cases he)
  | response active request_id attempt packet =>
      exact apply_settled_of_settled a.remote h rfl h.linked (fun _ _ he => by cases he)
  | disconnected active =>
      exact apply_settled_of_settled _ h rfl (linked_disconnect h.linked active)
        (fun _ _ he => by cases he)
  | shutdown response => cases hrun

/-- The event of a turn that handles a connect. -/
def connectEvent : Input → Option Event
  | .command (.connect capacity _ _) session_id => some (.connected session_id capacity)
  | _ => none

/-- The turn does not refuse a connect over an overdue request. -/
def RefusesCleanly (b : Broker) (t : Turn) : Prop :=
  ∀ event ∈ connectEvent t.input, ¬ OverdueRefusal b.actor.state event t.now

instance (b : Broker) (t : Turn) : Decidable (RefusesCleanly b t) :=
  inferInstanceAs (Decidable (∀ event ∈ connectEvent t.input, _))

/-- Runs of the broker in which every turn refuses cleanly. -/
abbrev CleanRun (config : BrokerConfig) : List (Turn × List Output) → Broker → Prop :=
  Run (Fires Broker.step RefusesCleanly) (Broker.new config)

theorem settled_new (config : BrokerConfig) : Settled (Broker.new config).actor where
  run := .nil
  fresh := List.nodup_nil
  balanced := fun _ => rfl
  linked := rfl
  current := fun _ hd => by cases hd

/-- What the run invariant says of one state. -/
def Sound (ids : List RequestId) (b : Broker) : Prop :=
  submittedIds b.actor.calls = ids ∧ (b.stopped = false → Settled b.actor) ∧
    (b.stopped = true → b.actor.waiters = .empty)

/-- **Step lemma.** -/
theorem step_sound {b b' : Broker} {t : Turn} {outputs : List Output} {ids : List RequestId}
    (hstep : b.step t = some (b', outputs)) (hclean : RefusesCleanly b t)
    (hnew : ∀ id, requestId t.input = some id → id ∉ ids) (h : Sound ids b) :
    Sound (ids ++ (requestId t.input).toList) b' := by
  obtain ⟨hids, hset, _⟩ := h
  have hsubmits : submittedIds b'.actor.calls = ids ++ (requestId t.input).toList := by
    have hrecord := step_recorded (f := submittedId) (fun _ => rfl) hstep
    rw [eventFor_submits] at hrecord
    exact hrecord.trans (congrArg (· ++ _) hids)
  refine ⟨hsubmits, ?_⟩
  rw [Broker.step] at hstep
  split at hstep
  · cases hstep
  · rename_i hrun
    have hset := hset (Bool.eq_false_iff.mpr hrun)
    cases hin : t.input with
    | localRequest request request_id requested_at =>
        simp only [hin] at hstep
        split at hstep
        · obtain ⟨rfl, _⟩ := Prod.mk.inj (Option.some.inj hstep)
          refine ⟨fun _ => ?_, fun hs => absurd hs hrun⟩
          refine handle_local_settled hset ?_
          show request_id ∉ submittedIds b.actor.calls
          rw [hids]
          exact hnew request_id (by rw [hin]; rfl)
        · cases hstep
    | localClosed =>
        simp only [hin] at hstep
        split at hstep
        · obtain ⟨rfl, _⟩ := Prod.mk.inj (Option.some.inj hstep)
          exact ⟨fun _ => hset, fun hs => absurd hs hrun⟩
        · cases hstep
    | cancelled request_id =>
        simp only [hin] at hstep
        obtain ⟨rfl, _⟩ := Prod.mk.inj (Option.some.inj hstep)
        refine ⟨fun _ => ?_, fun hs => absurd hs hrun⟩
        exact apply_settled_of_settled b.actor.remote (x := b.exec t.sends) hset rfl
          hset.linked (fun _ _ he => by cases he)
    | deadline =>
        simp only [hin] at hstep
        split at hstep
        · obtain ⟨rfl, _⟩ := Prod.mk.inj (Option.some.inj hstep)
          refine ⟨fun _ => ?_, fun hs => absurd hs hrun⟩
          exact apply_settled_of_settled b.actor.remote (x := b.exec t.sends) hset rfl
            hset.linked (fun _ _ he => by cases he)
        · cases hstep
    | commandsClosed =>
        simp only [hin] at hstep
        obtain ⟨rfl, _⟩ := Prod.mk.inj (Option.some.inj hstep)
        exact ⟨(fun hs => by cases hs), fun _ => rfl⟩
    | command command session_id =>
        simp only [hin] at hstep
        obtain ⟨rfl, _⟩ := Prod.mk.inj (Option.some.inj hstep)
        refine ⟨fun hs => ?_, fun hs => handle_stopped hs⟩
        refine handle_settled hset ?_ hs
        rintro capacity outbound response rfl
        rw [RefusesCleanly, hin] at hclean
        exact hclean _ rfl

/-- **Run lemma.** Along every clean run with fresh ids the actor is settled
    until it stops, and then nobody waits. -/
theorem run_sound {config : BrokerConfig} {h : List (Turn × List Output)} {b : Broker}
    (hr : CleanRun config h b) (hf : (requestIds h).Nodup) : Sound (requestIds h) b := by
  refine hr.invariant_of_history (fun h => (requestIds h).Nodup)
    (fun h b => Sound (requestIds h) b) ?_ ?_ ?_ hf
  · intro h l hf
    rw [requestIds_snoc] at hf
    exact (List.nodup_append.mp hf).1
  · exact ⟨rfl, fun _ => settled_new config, fun hs => (by cases hs)⟩
  · rintro h b l b' hf hsound ⟨hclean, hstep⟩
    rw [requestIds_snoc] at hf ⊢
    refine step_sound hstep hclean ?_ hsound
    intro id hid hmem
    rw [hid] at hf
    exact List.disjoint_of_nodup_append hf hmem (List.mem_singleton.mpr rfl)

/-- **A refusal is atomic exactly when nothing is overdue.**  Along every run of
    the actor whose turns refuse no connect over an overdue request, every waiter
    is pending.  For every state and event, a refusal by `apply` leaves the state
    as it was iff it is not such a refusal; and from every state such a run
    reaches, processing a connect leaves every waiter pending iff it is not. -/
theorem waiters_pending_iff_refusals_clean {config : BrokerConfig}
    {h : List (Turn × List Output)} {b : Broker} (hr : CleanRun config h b) (hf : (requestIds h).Nodup) :
    (∀ id, b.actor.waiters.get? id ≠ none → b.actor.state.pending.get? id ≠ none) ∧
    (∀ s event now,
      (∀ e, (BrokerState.apply s event now).2 = .error e → (s.apply event now).1 = s)
        ↔ ¬ OverdueRefusal s event now) ∧
    (b.stopped = false → ∀ capacity outbound response session_id now sends,
      (∀ id,
        (BrokerActor.afterConnect b.actor capacity outbound response session_id now
          sends).waiters.get? id ≠ none →
        (BrokerActor.afterConnect b.actor capacity outbound response session_id now
          sends).state.pending.get? id ≠ none)
        ↔ ¬ OverdueRefusal b.actor.state (.connected session_id capacity) now) := by
  obtain ⟨_, hset, hstop⟩ := run_sound hr hf
  refine ⟨?_, refusal_atomic_iff, ?_⟩
  · intro id hid
    cases hs : b.stopped with
    | false => exact ((hset hs).waiting_iff id).mp hid
    | true =>
        rw [hstop hs] at hid
        exact absurd rfl hid
  · intro hs capacity outbound response session_id now sends
    exact afterConnect_iff (hset hs) capacity outbound response session_id now sends

/-- A session connects, a request with a timeout of five is dispatched to it,
    and nothing happens until a second session asks at the given time. -/
def secondConnect (now : Instant) : List Turn :=
  [⟨.command (.connect 4 1 1) ⟨7⟩, 0, none⟩, ⟨.localRequest ⟨[11], none, 5⟩ ⟨1⟩ 0, 1, none⟩,
   ⟨.command (.connect 4 2 2) ⟨8⟩, now, none⟩]

/-- Before its deadline the request survives the refusal. -/
theorem waiters_pending_second_connect :
    (outcome Broker.step RefusesCleanly (Broker.new ⟨5, 8⟩)
      (secondConnect 3)).2.actor.waiters.get? ⟨1⟩ = some 5 ∧
    (outcome Broker.step RefusesCleanly (Broker.new ⟨5, 8⟩)
      (secondConnect 3)).2.actor.state.pending.get? ⟨1⟩ ≠ none :=
  ⟨by decide,
   (waiters_pending_iff_refusals_clean
     (run_outcome Broker.step RefusesCleanly (secondConnect 3) (by decide))
     (by decide)).1 ⟨1⟩ (by decide)⟩

/-- Any turn. -/
abbrev AnyTurn (_ : Broker) (_ : Turn) : Prop := True

/-- **The lost waiter.**  At time nine the deadline of the request has passed.
    The refusal removes it from the pending requests, its caller keeps waiting,
    and the turn outputs nothing but the refusal: no answer to the caller and no
    cancel to the session that holds the request. -/
theorem second_connect_loses_waiter :
    Run (Fires Broker.step AnyTurn) (Broker.new ⟨5, 8⟩)
      (outcome Broker.step AnyTurn (.new ⟨5, 8⟩) (secondConnect 9)).1
      (outcome Broker.step AnyTurn (.new ⟨5, 8⟩) (secondConnect 9)).2 ∧
    (requestIds (outcome Broker.step AnyTurn (.new ⟨5, 8⟩) (secondConnect 9)).1).Nodup ∧
    (outcome Broker.step AnyTurn (.new ⟨5, 8⟩)
      (secondConnect 9)).2.actor.waiters.get? ⟨1⟩ = some 5 ∧
    (outcome Broker.step AnyTurn (.new ⟨5, 8⟩)
      (secondConnect 9)).2.actor.state.pending.get? ⟨1⟩ = none ∧
    (outcome Broker.step AnyTurn (.new ⟨5, 8⟩) (secondConnect 9)).1.map Prod.snd
      = [[.registered 1 (.ok ⟨7⟩)], [.sent 1 (.request ⟨1⟩ 1 0 0 [11] none)],
         [.registered 2 (.error .remoteAlreadyConnected)]] ∧
    ¬ (∀ s event now e, (BrokerState.apply s event now).2 = .error e →
      (s.apply event now).1 = s) := by
  refine ⟨run_outcome Broker.step AnyTurn (secondConnect 9) (by decide), by decide, by decide, by decide,
    by decide, ?_⟩
  intro hatomic
  have hsame := hatomic
    (outcome Broker.step AnyTurn (.new ⟨5, 8⟩) ((secondConnect 9).take 2)).2.actor.state
    (.connected ⟨8⟩ 4) 9 .remoteAlreadyConnected (by decide)
  exact absurd (congrArg (fun s => s.pending.len) hsame) (by decide)

end BrokerWaiters
