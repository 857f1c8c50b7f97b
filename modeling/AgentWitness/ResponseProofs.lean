import AgentWitness.LifecycleProofs

/-! # Every answer belongs to a request that is still wanted

    A handler runs while anything may happen to its request: it may be cancelled,
    asked again under the same key, or lose its socket.  What saves the client is
    that an entry of the buffer is an object of its own: the handler answers only if
    THE SAME ENTRY is still there.

    A run is flattened into a log of what was accepted, cancelled, resolved and done.
    The invariant says of every entry what has happened to it since it was accepted;
    the log is then in order at every place: a handler is started at most once for
    each accepted request, and an answer comes from the handler of a request that was
    neither cancelled nor answered since, over the socket it came on. -/

namespace Response

open Packet KeyedMap BrokerTask RemoteProtocol RemoteClient ClientFlow Transition Lifecycle

/-! ## The log -/

/-- What happens to requests. -/
inductive Event where
  /-- `#enqueue` accepts a request; its entry gets the token. -/
  | enqueued (socket : SocketId) (request : RemoteRequest) (token : Nat)
  /-- A `cancel_request` is processed. -/
  | cancelled (socket : SocketId) (key : Key)
  /-- The handler of an entry resolves. -/
  | settling (token : Nat) (packet : Bytes)
  /-- The session does something to the outside. -/
  | did (output : ClientOutput)
  deriving DecidableEq

/-- What a frame of the current socket asks of a connected session. -/
def frameEvents (s : RemoteSession) (received : Received) : List Event :=
  match received.frame with
  | .message (.agentRequest request) =>
      if (s.pending.get? (requestKey request)).isSome ∨ s.pending.len ≥ MAX_PENDING_REQUESTS then []
      else [.enqueued received.socket request s.allocated]
  | .message (.cancelRequest request_id attempt) =>
      [.cancelled received.socket (request_id, attempt)]
  | _ => []

/-- What a turn begins with. -/
def taken (s : RemoteSession) : ClientAction → List Event
  | .receive _ =>
      match s.chain, s.receiving with
      | .idle, received :: _ =>
          if s.socket = some received.socket ∧ s.snapshot.status = .connected then
            frameEvents s received
          else []
      | _, _ => []
  | .resolved token packet => [.settling token packet]
  | _ => []

def eventsOf (l : ClientAction × Moment) : List Event :=
  taken l.2.before l.1 ++ l.2.outputs.map .did

/-- The events of a run, oldest first. -/
def log (h : History) : List Event := h.flatMap eventsOf

/-- Nothing that ends a request: it is neither cancelled nor answered, and the
    socket is not replaced. -/
def Undisturbed (socket : SocketId) (key : Key) : Event → Prop
  | .cancelled socket' key' => ¬ (socket' = socket ∧ key' = key)
  | .did (.created _) => False
  | .did (.sent socket' (.agentResponse request_id attempt _)) =>
      ¬ (socket' = socket ∧ (request_id, attempt) = key)
  | _ => True

/-- Nor is it started. -/
def Unstarted (socket : SocketId) (key : Key) : Event → Prop
  | .did (.handling socket' request) => ¬ (socket' = socket ∧ requestKey request = key)
  | event => Undisturbed socket key event

/-- What an event owes to the log before it. -/
def Justified (before : List Event) : Event → Prop
  -- every accepted request has a token of its own
  | .enqueued _ _ token => ∀ socket request, .enqueued socket request token ∉ before
  -- a handler resolves once
  | .settling token _ => ∀ packet, .settling token packet ∉ before
  -- a handler is started for a request accepted on the socket, once
  | .did (.handling socket request) =>
      Since (fun e => ∃ token, e = .enqueued socket request token)
        (Unstarted socket (requestKey request)) before
  -- an answer is what the handler of the accepted request has just resolved to
  | .did (.sent socket (.agentResponse request_id attempt packet)) =>
      ∃ request token earlier, requestKey request = (request_id, attempt) ∧
        before = earlier ++ [.settling token packet, .did (.resolved socket request packet)] ∧
        Since (· = .enqueued socket request token) (Undisturbed socket (request_id, attempt))
          before ∧
        Since (· = .did (.handling socket request)) (Undisturbed socket (request_id, attempt))
          before
  | _ => True

/-! ## Harmless events -/

/-- An event that ends and starts nothing. -/
def harmless : Event → Bool
  | .cancelled _ _ | .did (.created _) | .did (.handling _ _)
  | .did (.sent _ (.agentResponse _ _ _)) => false
  | _ => true

theorem harmless_unstarted {e : Event} (he : harmless e = true) (socket : SocketId) (key : Key) :
    Unstarted socket key e := by
  cases e with
  | enqueued _ _ _ => trivial
  | cancelled _ _ => cases he
  | settling _ _ => trivial
  | did output =>
      cases output with
      | sent socket' message =>
          cases message with
          | agentResponse _ _ _ => cases he
          | _ => trivial
      | created _ => cases he
      | handling _ _ => cases he
      | _ => trivial

theorem Unstarted.undisturbed {socket : SocketId} {key : Key} {e : Event}
    (h : Unstarted socket key e) : Undisturbed socket key e := by
  cases e with
  | enqueued _ _ _ => trivial
  | cancelled _ _ => exact h
  | settling _ _ => trivial
  | did output =>
      cases output with
      | handling _ _ => trivial
      | _ => exact h

/-- What the session does, other than to create, start or answer, is in order at any
    place. -/
theorem harmless_justified {o : ClientOutput} (ho : harmless (.did o) = true)
    (before : List Event) : Justified before (.did o) := by
  cases o with
  | sent socket message =>
      cases message with
      | agentResponse _ _ _ => cases ho
      | _ => trivial
  | created _ => cases ho
  | handling _ _ => cases ho
  | _ => trivial

theorem quiet_harmless {o : ClientOutput} (ho : quiet o = true) : harmless (.did o) = true := by
  cases o with
  | sent _ _ | created _ | handling _ _ | resolved _ _ _ => cases ho
  | closed _ | disconnected | settled _ _ | loading _ | saving _ | deleting _ | threw _ => rfl

theorem sent_harmless {message : ClientMessage} (hm : answers message = false)
    (socket : SocketId) : harmless (.did (.sent socket message)) = true := by
  cases message with
  | agentResponse _ _ _ => cases hm
  | _ => rfl

theorem routine_answers {message : ClientMessage} (hm : routine message = true) :
    answers message = false := by
  cases message with
  | agentResponse _ _ _ => cases hm
  | _ => rfl

/-! ## The invariant -/

/-- What has happened since an entry was accepted. -/
structure Awaited (L : List Event) (socket : SocketId) (key : Key) (p : PendingEntry) : Prop where
  accepted : Since (· = .enqueued socket p.request p.token) (Undisturbed socket key) L
  idle : p.processing = false →
    Since (· = .enqueued socket p.request p.token) (Unstarted socket key) L
  running : p.processing = true →
    Since (· = .did (.handling socket p.request)) (Undisturbed socket key) L

/-- The buffer and the handlers agree with the log. -/
structure Tracked (L : List Event) (s : RemoteSession) : Prop where
  keyed : ∀ key p, s.pending.get? key = some p → key = requestKey p.request
  minted : ∀ key p, s.pending.get? key = some p → p.token < s.allocated
  distinct : ∀ key key' p p', s.pending.get? key = some p → s.pending.get? key' = some p' →
    p.token = p'.token → key = key'
  awaited : ∀ key p, s.pending.get? key = some p →
    ∃ socket, s.socket = some socket ∧ Awaited L socket key p
  handlers : ∀ token h, s.handlers.get? token = some h → h.thrown = none →
    h.pending.token = token ∧ token < s.allocated ∧
      ∀ key p, s.pending.get? key = some p → p.token = token →
        p.request = h.pending.request ∧ p.processing = true
  named : ∀ socket request token, .enqueued socket request token ∈ L → token < s.allocated
  spent : ∀ token packet, .settling token packet ∈ L → token < s.allocated ∧
    (∀ h, s.handlers.get? token = some h → h.thrown ≠ none) ∧
    ∀ key p, s.pending.get? key = some p → p.token = token → p.processing = true

theorem tracked_new : Tracked [] RemoteSession.new where
  keyed := fun _ _ hp => by cases hp
  minted := fun _ _ hp => by cases hp
  distinct := fun _ _ _ _ hp => by cases hp
  awaited := fun _ _ hp => by cases hp
  handlers := fun _ _ hh => by cases hh
  named := fun _ _ _ he => by cases he
  spent := fun _ _ he => by cases he

theorem Awaited.append {L E : List Event} {socket : SocketId} {key : Key} {p : PendingEntry}
    (h : Awaited L socket key p) (hE : ∀ e ∈ E, Unstarted socket key e) :
    Awaited (L ++ E) socket key p where
  accepted := h.accepted.append (fun e he => (hE e he).undisturbed)
  idle := fun hp => (h.idle hp).append hE
  running := fun hp => (h.running hp).append (fun e he => (hE e he).undisturbed)

section Changes

variable {L E : List Event} {s t : RemoteSession}

/-- **Requests leave, handlers end**, and nothing else happens to what remains. -/
theorem Tracked.shrunk (hT : Tracked L s)
    (hpending : ∀ key p, t.pending.get? key = some p → s.pending.get? key = some p ∧
      t.socket = s.socket ∧ ∀ socket, ∀ e ∈ E, Unstarted socket key e)
    (hhandlers : ∀ token h, t.handlers.get? token = some h → h.thrown = none →
      s.handlers.get? token = some h)
    (halloc : t.allocated = s.allocated)
    (hnamed : ∀ socket request token, .enqueued socket request token ∈ E → token < s.allocated)
    (hspent : ∀ token packet, .settling token packet ∈ E → token < s.allocated ∧
      (∀ h, t.handlers.get? token = some h → h.thrown ≠ none) ∧
      ∀ key p, s.pending.get? key = some p → p.token = token → p.processing = true) :
    Tracked (L ++ E) t := by
  constructor
  case keyed => exact fun key p hp => hT.keyed key p (hpending key p hp).1
  case minted =>
    intro key p hp
    rw [halloc]
    exact hT.minted key p (hpending key p hp).1
  case distinct =>
    intro key key' p p' hp hp' heq
    exact hT.distinct key key' p p' (hpending key p hp).1 (hpending key' p' hp').1 heq
  case awaited =>
    intro key p hp
    obtain ⟨hold, hsocket, hE⟩ := hpending key p hp
    obtain ⟨socket, hs, ha⟩ := hT.awaited key p hold
    exact ⟨socket, hsocket.trans hs, ha.append (hE socket)⟩
  case handlers =>
    intro token h hh hlive
    obtain ⟨htoken, hlt, hentry⟩ := hT.handlers token h (hhandlers token h hh hlive) hlive
    rw [halloc]
    exact ⟨htoken, hlt, fun key p hp => hentry key p (hpending key p hp).1⟩
  case named =>
    intro socket request token he
    rw [halloc]
    rcases List.mem_append.mp he with he | he
    · exact hT.named socket request token he
    · exact hnamed socket request token he
  case spent =>
    intro token packet he
    rw [halloc]
    rcases List.mem_append.mp he with he | he
    · obtain ⟨hlt, hdead, hentry⟩ := hT.spent token packet he
      refine ⟨hlt, ?_, fun key p hp => hentry key p (hpending key p hp).1⟩
      intro h hh hlive
      exact hdead h (hhandlers token h hh hlive) hlive
    · obtain ⟨hlt, hdead, hentry⟩ := hspent token packet he
      exact ⟨hlt, hdead, fun key p hp => hentry key p (hpending key p hp).1⟩

/-- Outputs that are harmless, where requests may leave and handlers may end. -/
theorem Tracked.outputs {outputs : List ClientOutput} (hT : Tracked L s)
    (hpending : ∀ key p, t.pending.get? key = some p →
      s.pending.get? key = some p ∧ t.socket = s.socket)
    (hhandlers : ∀ token h, t.handlers.get? token = some h → h.thrown = none →
      s.handlers.get? token = some h)
    (halloc : t.allocated = s.allocated)
    (hout : ∀ o ∈ outputs, harmless (.did o) = true) : Tracked (L ++ outputs.map .did) t := by
  refine hT.shrunk ?_ hhandlers halloc ?_ ?_
  · intro key p hp
    refine ⟨(hpending key p hp).1, (hpending key p hp).2, ?_⟩
    intro socket e he
    obtain ⟨o, ho, rfl⟩ := List.mem_map.mp he
    exact harmless_unstarted (hout o ho) socket key
  · intro socket request token he
    obtain ⟨_, _, heq⟩ := List.mem_map.mp he
    cases heq
  · intro token packet he
    obtain ⟨_, _, heq⟩ := List.mem_map.mp he
    cases heq

/-- **A request is accepted.** -/
theorem Tracked.enqueued {socket : SocketId} {request : RemoteRequest} (hT : Tracked L s)
    (hs : s.socket = some socket)
    (hpending : t.pending
      = s.pending.insert (requestKey request) ⟨request, false, s.allocated⟩)
    (hsocket : t.socket = s.socket) (hhandlers : t.handlers = s.handlers)
    (halloc : t.allocated = s.allocated + 1) :
    Tracked (L ++ [.enqueued socket request s.allocated]) t := by
  have hget : ∀ key p, t.pending.get? key = some p →
      (key = requestKey request ∧ p = ⟨request, false, s.allocated⟩) ∨
        s.pending.get? key = some p := by
    intro key p hp
    rw [hpending, get?_insert] at hp
    split at hp
    · rename_i hkey
      exact Or.inl ⟨hkey, (Option.some.inj hp).symm⟩
    · exact Or.inr hp
  constructor
  case keyed =>
    intro key p hp
    rcases hget key p hp with ⟨hkey, rfl⟩ | hold
    · exact hkey
    · exact hT.keyed key p hold
  case minted =>
    intro key p hp
    rw [halloc]
    rcases hget key p hp with ⟨_, rfl⟩ | hold
    · exact Nat.lt_succ_self s.allocated
    · exact Nat.lt_succ_of_lt (hT.minted key p hold)
  case distinct =>
    intro key key' p p' hp hp' heq
    rcases hget key p hp with ⟨hkey, rfl⟩ | hold
    · rcases hget key' p' hp' with ⟨hkey', rfl⟩ | hold'
      · exact hkey.trans hkey'.symm
      · exact absurd heq.symm (Nat.ne_of_lt (hT.minted key' p' hold'))
    · rcases hget key' p' hp' with ⟨_, rfl⟩ | hold'
      · exact absurd heq (Nat.ne_of_lt (hT.minted key p hold))
      · exact hT.distinct key key' p p' hold hold' heq
  case awaited =>
    intro key p hp
    rcases hget key p hp with ⟨rfl, rfl⟩ | hold
    · refine ⟨socket, hsocket.trans hs, ?_⟩
      exact ⟨since_snoc.mpr (Or.inl rfl), fun _ => since_snoc.mpr (Or.inl rfl), (by rintro ⟨⟩)⟩
    · obtain ⟨socket', hs', ha⟩ := hT.awaited key p hold
      refine ⟨socket', hsocket.trans hs', ha.append ?_⟩
      intro e he
      rw [List.mem_singleton.mp he]
      trivial
  case handlers =>
    intro token h hh hlive
    rw [hhandlers] at hh
    obtain ⟨htoken, hlt, hentry⟩ := hT.handlers token h hh hlive
    rw [halloc]
    refine ⟨htoken, Nat.lt_succ_of_lt hlt, ?_⟩
    intro key p hp heq
    rcases hget key p hp with ⟨_, rfl⟩ | hold
    · exact absurd heq.symm (Nat.ne_of_lt hlt)
    · exact hentry key p hold heq
  case named =>
    intro socket' request' token he
    rw [halloc]
    rcases List.mem_append.mp he with he | he
    · exact Nat.lt_succ_of_lt (hT.named socket' request' token he)
    · obtain ⟨_, _, rfl⟩ := Event.enqueued.inj (List.mem_singleton.mp he)
      exact Nat.lt_succ_self s.allocated
  case spent =>
    intro token packet he
    rcases List.mem_append.mp he with he | he
    · obtain ⟨hlt, hdead, hentry⟩ := hT.spent token packet he
      rw [halloc, hhandlers]
      refine ⟨Nat.lt_succ_of_lt hlt, hdead, ?_⟩
      intro key p hp heq
      rcases hget key p hp with ⟨_, rfl⟩ | hold
      · exact absurd heq.symm (Nat.ne_of_lt hlt)
      · exact hentry key p hold heq
    · cases List.mem_singleton.mp he

/-- **A handler is started.** -/
theorem Tracked.started {socket : SocketId} {key : Key} {p : PendingEntry} (hT : Tracked L s)
    (hs : s.socket = some socket) (hp : s.pending.get? key = some p)
    (hidle : p.processing = false) :
    Tracked (L ++ [.did (.handling socket p.request)]) { s with
      pending := s.pending.insert key { p with processing := true }
      handlers := s.handlers.insert p.token ⟨socket, { p with processing := true }, none⟩ } := by
  have hkey := hT.keyed key p hp
  have hget : ∀ other q, (s.pending.insert key { p with processing := true }).get? other = some q →
      (other = key ∧ q = { p with processing := true }) ∨
        (other ≠ key ∧ s.pending.get? other = some q) := fun _ _ hq => get?_of_insert hq
  constructor
  case keyed =>
    intro other q hq
    rcases hget other q hq with ⟨rfl, rfl⟩ | ⟨_, hold⟩
    · exact hkey
    · exact hT.keyed other q hold
  case minted =>
    intro other q hq
    rcases hget other q hq with ⟨_, rfl⟩ | ⟨_, hold⟩
    · exact hT.minted key p hp
    · exact hT.minted other q hold
  case distinct =>
    intro other other' q q' hq hq' heq
    rcases hget other q hq with ⟨rfl, rfl⟩ | ⟨_, hold⟩
    · rcases hget other' q' hq' with ⟨rfl, rfl⟩ | ⟨_, hold'⟩
      · rfl
      · exact hT.distinct other other' p q' hp hold' heq
    · rcases hget other' q' hq' with ⟨rfl, rfl⟩ | ⟨_, hold'⟩
      · exact hT.distinct other other' q p hold hp heq
      · exact hT.distinct other other' q q' hold hold' heq
  case awaited =>
    intro other q hq
    rcases hget other q hq with ⟨rfl, rfl⟩ | ⟨hne, hold⟩
    · obtain ⟨socket', hs', ha⟩ := hT.awaited other p hp
      obtain rfl := Option.some.inj (hs.symm.trans hs')
      refine ⟨socket, hs, ha.accepted.append ?_, (by rintro ⟨⟩), fun _ => since_snoc.mpr (Or.inl rfl)⟩
      intro e he
      rw [List.mem_singleton.mp he]
      trivial
    · obtain ⟨socket', hs', ha⟩ := hT.awaited other q hold
      refine ⟨socket', hs', ha.append ?_⟩
      intro e he
      rw [List.mem_singleton.mp he]
      rintro ⟨_, heq⟩
      exact hne (heq.symm.trans hkey.symm)
  case handlers =>
    intro token h hh hlive
    rcases get?_of_insert hh with ⟨htoken, rfl⟩ | ⟨htoken, hh⟩
    · refine ⟨htoken.symm, htoken ▸ hT.minted key p hp, ?_⟩
      intro other q hq heq
      rcases hget other q hq with ⟨_, rfl⟩ | ⟨hne, hold⟩
      · exact ⟨rfl, rfl⟩
      · exact absurd (hT.distinct other key q p hold hp (heq.trans htoken)) hne
    · obtain ⟨hpt, hlt, hentry⟩ := hT.handlers token h hh hlive
      refine ⟨hpt, hlt, ?_⟩
      intro other q hq heq
      rcases hget other q hq with ⟨_, rfl⟩ | ⟨_, hold⟩
      · exact absurd heq.symm htoken
      · exact hentry other q hold heq
  case named =>
    intro socket' request token he
    rcases List.mem_append.mp he with he | he
    · exact hT.named socket' request token he
    · cases List.mem_singleton.mp he
  case spent =>
    intro token packet he
    rcases List.mem_append.mp he with he | he
    · obtain ⟨hlt, hdead, hentry⟩ := hT.spent token packet he
      -- a resolved handler's entry is not idle
      have hne : token ≠ p.token := by
        intro heq
        cases hidle.symm.trans (hentry key p hp heq.symm)
      refine ⟨hlt, ?_, ?_⟩
      · intro h hh
        change (s.handlers.insert p.token _).get? token = some h at hh
        rw [get?_insert_of_ne _ _ hne] at hh
        exact hdead h hh
      · intro other q hq heq
        rcases hget other q hq with ⟨_, rfl⟩ | ⟨_, hold⟩
        · rfl
        · exact hentry other q hold heq
    · cases List.mem_singleton.mp he

end Changes

/-! ## Moves -/

/-- The invariant, and a log in order. -/
structure Sound (L : List Event) (s : RemoteSession) : Prop where
  tracked : Tracked L s
  order : Throughout Justified L

/-- An output that is no answer. -/
def unanswering : ClientOutput → Bool
  | .sent _ message => ! answers message
  | _ => true

section Moves

variable {env : Environment} {L : List Event} {s t : RemoteSession}

/-- Harmless outputs are in order. -/
theorem order_outputs {outputs : List ClientOutput} (ho : Throughout Justified L)
    (hout : ∀ o ∈ outputs, harmless (.did o) = true) :
    Throughout Justified (L ++ outputs.map .did) := by
  refine ho.append ?_
  intro e he before
  obtain ⟨o, hmem, rfl⟩ := List.mem_map.mp he
  exact harmless_justified (hout o hmem) before

/-- Harmless outputs, where the buffer, the socket and the counter stay and no live
    handler is new. -/
theorem Sound.outputs {outputs : List ClientOutput} (hS : Sound L s)
    (hpending : t.pending = s.pending) (hsocket : t.socket = s.socket)
    (hhandlers : ∀ token h, t.handlers.get? token = some h → h.thrown = none →
      s.handlers.get? token = some h)
    (halloc : t.allocated = s.allocated)
    (hout : ∀ o ∈ outputs, harmless (.did o) = true) : Sound (L ++ outputs.map .did) t := by
  refine ⟨hS.tracked.outputs ?_ hhandlers halloc hout, order_outputs hS.order hout⟩
  intro key p hp
  rw [hpending] at hp
  exact ⟨hp, hsocket⟩

/-- Nothing is output. -/
theorem Sound.silent (hS : Sound L s) (hpending : t.pending = s.pending)
    (hsocket : t.socket = s.socket) (hhandlers : t.handlers = s.handlers)
    (halloc : t.allocated = s.allocated) : Sound L t := by
  have h := @Sound.outputs L s t [] hS hpending hsocket (fun _ _ hh _ => hhandlers ▸ hh) halloc
    (fun _ ho => by cases ho)
  rwa [List.map_nil, List.append_nil] at h

/-- The buffer is emptied. -/
theorem Sound.emptied (hS : Sound L s) (hpending : t.pending = .empty)
    (hhandlers : t.handlers = s.handlers) (halloc : t.allocated = s.allocated) : Sound L t := by
  have hnone : ∀ key p, t.pending.get? key = some p →
      s.pending.get? key = some p ∧ t.socket = s.socket := by
    intro key p hp
    rw [hpending] at hp
    cases hp
  have h := @Tracked.outputs L s t [] hS.tracked hnone (fun _ _ hh _ => hhandlers ▸ hh) halloc
    (fun _ ho => by cases ho)
  rw [List.map_nil, List.append_nil] at h
  exact ⟨h, hS.order⟩

/-- **Step lemma for moves.** -/
theorem sound_move {o : List ClientOutput} (hS : Sound L s) (hm : Move env s o t)
    (ho : ∀ x ∈ o, unanswering x = true) : Sound (L ++ o.map .did) t := by
  have hsame : ∀ token h, s.handlers.get? token = some h → h.thrown = none →
      s.handlers.get? token = some h := fun _ _ hh _ => hh
  have herased : ∀ erased token h, (s.handlers.erase erased).get? token = some h →
      h.thrown = none → s.handlers.get? token = some h :=
    fun _ _ _ hh _ => (get?_of_erase hh).2
  have hnil : ∀ {u : RemoteSession}, Sound L u → Sound (L ++ ([] : List ClientOutput).map .did) u := by
    intro u hu
    rwa [List.map_nil, List.append_nil]
  cases hm with
  | aside ha hq =>
      refine hS.outputs ha.pending ha.socket ?_ ha.allocated (fun o ho => quiet_harmless (hq o ho))
      rw [ha.handlers]
      exact hsame
  | bumped => exact hnil (hS.silent rfl rfl rfl rfl)
  | began _ => exact hnil (hS.silent rfl rfl rfl rfl)
  | ended => exact hnil (hS.silent rfl rfl rfl rfl)
  | @adopted socket w hs _ _ _ =>
      -- without a socket nothing is awaited
      refine ⟨hS.tracked.shrunk ?_ hsame rfl ?_ ?_, ?_⟩
      · intro key p hp
        obtain ⟨_, hsome, _⟩ := hS.tracked.awaited key p hp
        cases hs.symm.trans hsome
      · intro _ _ _ he
        cases List.mem_singleton.mp he
      · intro _ _ he
        cases List.mem_singleton.mp he
      · exact throughout_snoc.mpr ⟨hS.order, trivial⟩
  | @greeted socket w _ _ _ =>
      refine hS.outputs rfl rfl hsame rfl ?_
      intro o ho
      rw [List.mem_singleton.mp ho]
      exact sent_harmless (answers_greeting w) socket
  | opened _ _ _ => exact hnil (hS.silent rfl rfl rfl rfl)
  | shut _ _ _ => exact hnil (hS.silent rfl rfl rfl rfl)
  | dropped => exact hnil (hS.emptied rfl rfl rfl)
  | @started socket key p hs hp hidle _ =>
      refine ⟨hS.tracked.started hs hp hidle, throughout_snoc.mpr ⟨hS.order, ?_⟩⟩
      obtain ⟨socket', hs', ha⟩ := hS.tracked.awaited key p hp
      obtain rfl := Option.some.inj (hs.symm.trans hs')
      obtain ⟨before, e, after, heq, he, hafter⟩ := ha.idle hidle
      rw [hS.tracked.keyed key p hp] at hafter
      exact ⟨before, e, after, heq, ⟨p.token, he⟩, hafter⟩
  | @sent socket message _ _ hr _ =>
      refine hS.outputs rfl rfl hsame rfl ?_
      intro o ho
      rw [List.mem_singleton.mp ho]
      exact sent_harmless (routine_answers hr) socket
  | answered _ _ _ _ _ =>
      cases ho _ (List.mem_cons_of_mem _ (List.mem_singleton.mpr rfl))
  | resolved _ _ =>
      refine hS.outputs rfl rfl (herased _) rfl ?_
      intro o ho
      rw [List.mem_singleton.mp ho]
      rfl
  | @released token => exact hS.outputs rfl rfl (herased token) rfl (fun _ ho => by cases ho)
  | @buried token h hthrown =>
      refine hS.outputs rfl rfl ?_ rfl (fun _ ho => by cases ho)
      intro other h' hh hlive
      rcases get?_of_insert hh with ⟨_, rfl⟩ | ⟨_, hold⟩
      · exact absurd hlive hthrown
      · exact hold

theorem sound_path {outputs : List ClientOutput} (hS : Sound L s) (hp : Path env s outputs t)
    (ho : ∀ x ∈ outputs, unanswering x = true) : Sound (L ++ outputs.map .did) t := by
  have hinv := hp.invariant
    (fun before u => (∀ x ∈ before, unanswering x = true) → Sound (L ++ before.map .did) u) ?_ ?_
  · exact hinv ho
  · intro _
    rw [List.map_nil, List.append_nil]
    exact hS
  · intro before u o v hu hm hall
    have hb := hu (fun x hx => hall x (List.mem_append_left _ hx))
    rw [List.map_append, ← List.append_assoc]
    exact sound_move hb hm (fun x hx => hall x (List.mem_append_right _ hx))

end Moves

/-! ## Turns -/

section Turns

variable {env : Environment} {L : List Event} {s : RemoteSession} {received : Received}
  {rest : List Received}

theorem taken_receive (hc : s.chain = .idle) (hr : s.receiving = received :: rest) (now : Nat) :
    taken s (.receive now)
      = if s.socket = some received.socket ∧ s.snapshot.status = .connected then
          frameEvents s received
        else [] := by
  simp only [taken, hc, hr]

/-- A request is accepted and, if it may be, started. -/
theorem sound_enqueue {request : RemoteRequest} (now : Nat) (hS : Sound L s)
    (hs : s.socket = some received.socket)
    (hm : received.frame = .message (.agentRequest request))
    (hcon : s.snapshot.status = .connected) (hc : s.chain = .idle)
    (hnew : ¬ ((s.pending.get? (requestKey request)).isSome ∨
      s.pending.len ≥ MAX_PENDING_REQUESTS)) :
    let r := (({ s with receiving := rest } : RemoteSession).receiveMessage env received now).chained
      received.socket
    (∀ x ∈ r.2, unanswering x = true) →
      Sound (L ++ [.enqueued received.socket request s.allocated] ++ r.2.map .did) r.1 := by
  obtain ⟨hfresh, hroom⟩ := not_or.mp hnew
  intro r ho
  have hkept : Sound (L ++ [.enqueued received.socket request s.allocated])
      ({ s with
        receiving := rest
        pending := s.pending.insert (requestKey request) ⟨request, false, s.allocated⟩
        allocated := s.allocated + 1 } : RemoteSession).pendingChanged := by
    refine ⟨hS.tracked.enqueued hs rfl rfl rfl rfl, throughout_snoc.mpr ⟨hS.order, ?_⟩⟩
    intro socket' request' he
    exact Nat.lt_irrefl _ (hS.tracked.named socket' request' s.allocated he)
  have heq : ({ s with receiving := rest } : RemoteSession).receiveMessage env received now
      = RemoteSession.tryProcess env ({ s with
        receiving := rest
        pending := s.pending.insert (requestKey request) ⟨request, false, s.allocated⟩
        allocated := s.allocated + 1 } : RemoteSession).pendingChanged received.socket
        (requestKey request) := by
    rw [RemoteSession.receiveMessage, if_pos hs, hm]
    simp only [hcon]
    rw [RemoteSession.enqueue, if_neg hfresh, if_neg hroom]
  have hpath := chained_path received.socket (ClientFlow.Path.refl env _)
    (@tryProcess_routed env ({ s with
      receiving := rest
      pending := s.pending.insert (requestKey request) ⟨request, false, s.allocated⟩
      allocated := s.allocated + 1 } : RemoteSession).pendingChanged received.socket hs
      (requestKey request)) (fun _ _ hf => by cases hc.symm.trans hf)
  rw [← heq] at hpath
  exact sound_path hkept hpath ho

/-- A cancellation removes the request, if it is there. -/
theorem sound_cancel {request_id : RequestId} {attempt : UInt32} (now : Nat) (hS : Sound L s)
    (hs : s.socket = some received.socket)
    (hm : received.frame = .message (.cancelRequest request_id attempt))
    (hcon : s.snapshot.status = .connected) :
    let r := (({ s with receiving := rest } : RemoteSession).receiveMessage env received now).chained
      received.socket
    Sound (L ++ [.cancelled received.socket (request_id, attempt)] ++ r.2.map .did) r.1 := by
  have hremoved : Sound (L ++ [.cancelled received.socket (request_id, attempt)])
      { s with receiving := rest, pending := s.pending.erase (request_id, attempt) } := by
    refine ⟨hS.tracked.shrunk ?_ (fun _ _ hh _ => hh) rfl ?_ ?_,
      throughout_snoc.mpr ⟨hS.order, trivial⟩⟩
    · intro key p hp
      obtain ⟨hne, hold⟩ := get?_of_erase hp
      refine ⟨hold, rfl, ?_⟩
      intro socket e he
      rw [List.mem_singleton.mp he]
      exact fun hsame => hne hsame.2.symm
    · intro _ _ _ he
      cases List.mem_singleton.mp he
    · intro _ _ he
      cases List.mem_singleton.mp he
  intro r
  have heq : ({ s with receiving := rest } : RemoteSession).receiveMessage env received now
      = ({ s with receiving := rest } : RemoteSession).cancel request_id attempt now := by
    rw [RemoteSession.receiveMessage, if_pos hs, hm]
    simp only [hcon]
  show Sound (_ ++ (Outcome.chained _ _).2.map .did) (Outcome.chained _ _).1
  rw [heq, RemoteSession.cancel]
  cases hp : s.pending.get? (request_id, attempt) with
  | none =>
      rw [erase_eq_self hp] at hremoved
      exact hremoved.outputs rfl rfl (fun _ _ hh _ => hh) rfl (fun _ ho => by cases ho)
  | some p =>
      refine hremoved.outputs rfl rfl (fun _ _ hh _ => hh) rfl ?_
      intro o ho
      rw [List.mem_singleton.mp ho]
      rfl

/-- A turn that begins with no event. -/
theorem sound_turned {s' : RemoteSession} {action : ClientAction} {outputs : List ClientOutput}
    (hS : Sound L s) (htaken : taken s action = []) (ht : Turned env s action s' outputs)
    (ho : ∀ x ∈ outputs, unanswering x = true) : Sound (L ++ outputs.map .did) s' := by
  cases ht with
  | moved _ _ hp => exact sound_path hS hp ho
  | @took now received rest _ _ hr hc htook =>
      obtain ⟨u, htake, hp⟩ := htook
      refine sound_path ?_ hp ho
      cases htake with
      | popped _ => exact hS.silent rfl rfl rfl rfl
      | threw _ _ => exact hS.silent rfl rfl rfl rfl
      | rejected _ _ => exact hS.emptied rfl rfl rfl
      | @enqueued request hs hm hcon hnone hlt =>
          have hroom : ¬ ((s.pending.get? (requestKey request)).isSome ∨
              s.pending.len ≥ MAX_PENDING_REQUESTS) := by
            rw [hnone]
            exact fun hno => hno.elim (by rintro ⟨⟩) (Nat.not_le_of_lt hlt)
          rw [taken_receive hc hr, if_pos ⟨hs, hcon⟩, frameEvents, hm] at htaken
          simp only [if_neg hroom] at htaken
          cases htaken
      | refused _ _ _ => exact hS.silent rfl rfl rfl rfl
      | @cancelled request_id attempt hs hm =>
          refine ⟨?_, hS.order⟩
          have h := @Tracked.outputs L s
            { s with receiving := rest, pending := s.pending.erase (request_id, attempt) } []
            hS.tracked ?_ (fun _ _ hh _ => hh) rfl (fun _ ho => by cases ho)
          · rwa [List.map_nil, List.append_nil] at h
          · exact fun key p hp => ⟨(get?_of_erase hp).2, rfl⟩
  | pushed _ _ => exact hS.outputs rfl rfl (fun _ _ hh _ => hh) rfl (fun _ ho => by cases ho)

/-- **The chain goes on.** -/
theorem sound_receive {s' : RemoteSession} {outputs : List ClientOutput} {now : Nat}
    (hS : Sound L s) (hsane : Sane s)
    (hstep : s.step env (.receive now) = some (s', outputs))
    (ho : ∀ x ∈ outputs, unanswering x = true) :
    Sound (L ++ taken s (.receive now) ++ outputs.map .did) s' := by
  have hnone : taken s (.receive now) = [] →
      Sound (L ++ taken s (.receive now) ++ outputs.map .did) s' := by
    intro htaken
    rw [htaken, List.append_nil]
    exact sound_turned hS htaken (step_turned hsane hstep) ho
  cases client_step_cases hstep with
  | @receive _ received rest hc hr =>
      have hevents := taken_receive hc hr now
      by_cases hcur : s.socket = some received.socket ∧ s.snapshot.status = .connected
      · rw [if_pos hcur, frameEvents] at hevents
        obtain ⟨hs, hcon⟩ := hcur
        cases hm : received.frame with
        | text =>
            rw [hm] at hevents
            exact hnone hevents
        | malformed error =>
            rw [hm] at hevents
            exact hnone hevents
        | message message =>
            rw [hm] at hevents
            cases message with
            | agentRequest request =>
                simp only at hevents
                split at hevents
                · exact hnone hevents
                · rename_i hnew
                  rw [hevents]
                  exact sound_enqueue now hS hs hm hcon hc hnew ho
            | cancelRequest request_id attempt =>
                rw [hevents]
                exact sound_cancel now hS hs hm hcon
            | paired _ _ _ _ _ | authenticated _ _ _ | rejected | ping => exact hnone hevents
      · rw [if_neg hcur] at hevents
        exact hnone hevents

/-- A handler resolves and nothing is sent: it is over, or its `catch` is due. -/
theorem sound_settled {s' : RemoteSession} {token : Nat} {h : Handler} (packet : Bytes)
    (hS : Sound L s) (hh : s.handlers.get? token = some h) (hlive : h.thrown = none)
    (hpending : s'.pending = s.pending) (hsocket : s'.socket = s.socket)
    (halloc : s'.allocated = s.allocated)
    (hhandlers : ∀ other h', s'.handlers.get? other = some h' → h'.thrown = none →
      other ≠ token ∧ s.handlers.get? other = some h') :
    Sound (L ++ [.settling token packet] ++
      [ClientOutput.resolved h.socket h.pending.request packet].map .did) s' := by
  obtain ⟨htoken, hlt, hentry⟩ := hS.tracked.handlers token h hh hlive
  have hsettled : Sound (L ++ [.settling token packet]) s' := by
    refine ⟨hS.tracked.shrunk ?_ (fun other h' hh' hl => (hhandlers other h' hh' hl).2) halloc
      ?_ ?_, throughout_snoc.mpr ⟨hS.order, ?_⟩⟩
    · intro key p hp
      rw [hpending] at hp
      refine ⟨hp, hsocket, ?_⟩
      intro socket e he
      rw [List.mem_singleton.mp he]
      trivial
    · intro _ _ _ he
      cases List.mem_singleton.mp he
    · intro token' packet' he
      obtain ⟨rfl, _⟩ := Event.settling.inj (List.mem_singleton.mp he)
      refine ⟨hlt, ?_, fun key p hp heq => (hentry key p hp heq).2⟩
      intro h' hh' hl
      exact (hhandlers token' h' hh' hl).1 rfl
    · intro packet' he
      exact (hS.tracked.spent token packet' he).2.1 h hh hlive
  refine hsettled.outputs rfl rfl (fun _ _ hh _ => hh) rfl ?_
  intro o ho
  rw [List.mem_singleton.mp ho]
  rfl

/-- **An answer is sent.** -/
theorem sound_answered {s' : RemoteSession} {token : Nat} {h : Handler} (packet : Bytes)
    (hS : Sound L s) (hh : s.handlers.get? token = some h) (hlive : h.thrown = none)
    (hs : s.socket = some h.socket)
    (htok : (s.pending.get? (requestKey h.pending.request)).any
      (fun pending => pending.token = h.pending.token) = true)
    (heq : s' = { s with
      pending := s.pending.erase (requestKey h.pending.request)
      handlers := s.handlers.erase token }.pendingChanged) :
    Sound (L ++ [.settling token packet] ++
      [ClientOutput.resolved h.socket h.pending.request packet, .sent h.socket
        (.agentResponse h.pending.request.request_id h.pending.request.attempt packet),
        .settled h.pending.request .signed].map .did) s' := by
  have hcleared : ∀ other h', (s.handlers.erase token).get? other = some h' →
      other ≠ token ∧ s.handlers.get? other = some h' := fun _ _ hh' => get?_of_erase hh'
  obtain ⟨htoken, hlt, hentry⟩ := hS.tracked.handlers token h hh hlive
  -- the entry of the handler is still there, and has been since it was accepted
  obtain ⟨hsome, hid⟩ := (Option.any_eq_true_iff_get _ _).mp htok
  have hp : s.pending.get? (requestKey h.pending.request) = some (_ : PendingEntry) :=
    (Option.some_get hsome).symm
  obtain ⟨hrequest, hrunning⟩ := hentry _ _ hp ((of_decide_eq_true hid).trans htoken)
  obtain ⟨socket, hsocket, hawaited⟩ := hS.tracked.awaited _ _ hp
  obtain rfl := Option.some.inj (hs.symm.trans hsocket)
  have hreleased : Sound (L ++ [.settling token packet] ++
      [ClientOutput.resolved h.socket h.pending.request packet].map .did) (s.release token) :=
    sound_settled packet hS hh hlive rfl rfl rfl (fun other h' hh' _ => hcleared other h' hh')
  have hquiet : ∀ e ∈ [Event.settling token packet,
      .did (.resolved h.socket h.pending.request packet)],
      Undisturbed h.socket (requestKey h.pending.request) e := by
    intro e he
    rcases List.mem_cons.mp he with rfl | he
    · trivial
    · rw [List.mem_singleton.mp he]
      trivial
  have haccepted := hawaited.accepted.append hquiet
  have hstarted := (hawaited.running hrunning).append hquiet
  rw [hrequest, of_decide_eq_true hid, htoken] at haccepted
  rw [hrequest] at hstarted
  have hbefore : L ++ [.settling token packet] ++
      [ClientOutput.resolved h.socket h.pending.request packet].map .did
      = L ++ [.settling token packet, .did (.resolved h.socket h.pending.request packet)] :=
    List.append_assoc _ _ _
  have hsent : Sound (L ++ [.settling token packet] ++
      [ClientOutput.resolved h.socket h.pending.request packet].map .did ++
      [.did (.sent h.socket (.agentResponse h.pending.request.request_id
        h.pending.request.attempt packet))]) s' := by
    refine ⟨hreleased.tracked.shrunk ?_ ?_ ?_ ?_ ?_, throughout_snoc.mpr ⟨hreleased.order, ?_⟩⟩
    · rw [heq]
      intro key p hkey
      obtain ⟨hne, hold⟩ := get?_of_erase hkey
      refine ⟨hold, rfl, ?_⟩
      intro socket e he
      rw [List.mem_singleton.mp he]
      exact fun hsame => hne hsame.2.symm
    · rw [heq]
      exact fun other h' hh' _ => hh'
    · rw [heq]
      rfl
    · intro _ _ _ he
      cases List.mem_singleton.mp he
    · intro _ _ he
      cases List.mem_singleton.mp he
    · rw [hbefore]
      exact ⟨h.pending.request, token, L, rfl, rfl, haccepted, hstarted⟩
  have hall := hsent.outputs (t := s') rfl rfl (fun _ _ hh _ => hh) rfl
    (show ∀ o ∈ [ClientOutput.settled h.pending.request .signed], harmless (.did o) = true by
      intro o ho
      rw [List.mem_singleton.mp ho]
      rfl)
  rw [List.append_assoc, List.append_assoc] at hall
  rw [List.append_assoc] at hall ⊢
  exact hall

/-- **A handler resolves.** -/
theorem sound_resolved {s' : RemoteSession} {outputs : List ClientOutput} {token : Nat}
    {packet : Bytes} (hS : Sound L s)
    (hstep : s.step env (.resolved token packet) = some (s', outputs)) :
    Sound (L ++ taken s (.resolved token packet) ++ outputs.map .did) s' := by
  cases client_step_cases hstep with
  | @resolved _ _ socket pending hh =>
      have hcleared : ∀ other h', (s.release token).handlers.get? other = some h' →
          other ≠ token ∧ s.handlers.get? other = some h' := fun _ _ hh' => get?_of_erase hh'
      rcases @respond_cases env (s.release token) ⟨socket, pending, none⟩ packet with
        heq | ⟨cause, heq⟩ | ⟨hs, _, htok, heq⟩
      · rw [heq]
        exact sound_settled packet hS hh rfl rfl rfl rfl (fun other h' hh' _ => hcleared other h' hh')
      · rw [heq]
        refine sound_settled packet hS hh rfl rfl rfl rfl ?_
        intro other h' hh' hl
        rcases get?_of_insert hh' with ⟨_, rfl⟩ | ⟨_, hold⟩
        · cases hl
        · exact hcleared other h' hold
      · rw [heq]
        exact sound_answered packet hS hh rfl hs htok rfl

end Turns

/-! ## Runs -/

/-- What an output owes to the turn it is made in: an answer leaves over the current
    socket, and a handler is started for the current socket, while the agent is ready
    or the request may be processed before. -/
def InPlace (env : Environment) (m : Moment) : ClientOutput → Prop
  | .sent socket (.agentResponse _ _ _) => m.before.socket = some socket
  | .handling socket request =>
      m.before.socket = some socket ∧
        (m.after.ready = true ∨ env.canProcessBeforeReady request = true)
  | _ => True

section Runs

variable {env : Environment} {s s' : RemoteSession} {action : ClientAction}
  {outputs : List ClientOutput}

theorem plain_unanswering {o : ClientOutput} (h : Plain env s o) : unanswering o = true := by
  cases o with
  | sent socket message =>
      rw [unanswering, h.2]
      rfl
  | _ => rfl

theorem formal_unanswering {o : ClientOutput} (h : formal o = true) : unanswering o = true := by
  cases o with
  | sent _ _ => cases h
  | _ => rfl

/-- Only a resolved handler answers. -/
theorem lived_unanswering (hl : Lived env s action s' outputs)
    (hne : ∀ token packet, action ≠ .resolved token packet) :
    ∀ x ∈ outputs, unanswering x = true := by
  cases hl with
  | called _ hf => exact fun x hx => formal_unanswering (hf x hx)
  | tended _ hp => exact fun x hx => plain_unanswering (hp x hx)
  | finished ht hs _ =>
      exact fun x hx => formal_unanswering ((finish_gone (ht.socket.trans hs) _ _).formal x hx)
  | lost ht hs =>
      exact fun x hx => formal_unanswering ((connectionLost_gone (ht.socket.trans hs)).formal x hx)
  | answered _ _ _ _ _ => exact absurd rfl (hne _ _)
  | greeted _ _ _ hp => exact fun x hx => plain_unanswering (hp x hx)

theorem plain_inPlace {o : ClientOutput} (h : Plain env s' o) (hs : s'.socket = s.socket) :
    InPlace env ⟨s, outputs, s'⟩ o := by
  cases o with
  | sent socket message =>
      cases message with
      | agentResponse _ _ _ => exact hs.symm.trans h.1
      | _ => trivial
  | handling socket request => exact ⟨hs.symm.trans h.1, h.2⟩
  | _ => trivial

theorem formal_inPlace {o : ClientOutput} (h : formal o = true) (m : Moment) :
    InPlace env m o := by
  cases o with
  | sent _ _ => cases h
  | handling _ _ => cases h
  | _ => trivial

theorem lived_inPlace (hl : Lived env s action s' outputs) :
    ∀ o ∈ outputs, InPlace env ⟨s, outputs, s'⟩ o := by
  intro o ho
  cases hl with
  | called _ hf => exact formal_inPlace (hf o ho) _
  | tended ht hp => exact plain_inPlace (hp o ho) ht.socket
  | finished ht hs _ =>
      exact formal_inPlace ((finish_gone (ht.socket.trans hs) _ _).formal o ho) _
  | lost ht hs =>
      exact formal_inPlace ((connectionLost_gone (ht.socket.trans hs)).formal o ho) _
  | answered _ _ hs _ _ =>
      rcases List.mem_cons.mp ho with rfl | ho
      · trivial
      · rcases List.mem_cons.mp ho with rfl | ho
        · exact hs
        · rw [List.mem_singleton.mp ho]
          trivial
  | greeted _ _ ht hp => exact plain_inPlace (hp o ho) ht.socket

/-- **Step lemma.** -/
theorem step_sound_log {L : List Event} (hS : Sound L s) (hsane : Sane s)
    (hstep : s.step env action = some (s', outputs)) :
    Sound (L ++ eventsOf (action, ⟨s, outputs, s'⟩)) s' := by
  rw [eventsOf, ← List.append_assoc]
  have hlived := step_lived hstep
  have hother : taken s action = [] → (∀ token packet, action ≠ .resolved token packet) →
      Sound (L ++ taken s action ++ outputs.map .did) s' := by
    intro htaken hne
    rw [htaken, List.append_nil]
    exact sound_turned hS htaken (step_turned hsane hstep) (lived_unanswering hlived hne)
  cases action with
  | receive now => exact sound_receive hS hsane hstep (lived_unanswering hlived (by rintro _ _ ⟨⟩))
  | resolved token packet => exact sound_resolved hS hstep
  | _ => exact hother rfl (by rintro _ _ ⟨⟩)

end Runs

/-- **Every answer belongs to a request that is still wanted.**  In every run, with
    any messages, in any order of resolutions, cancellations, changes of readiness and
    losses of sockets: the log is in order at every place.  Each accepted request has a
    token, a handler is started for it at most once, and a handler resolves at most
    once.  An answer follows at once on the resolution of the handler of an accepted
    request; it carries that request's id and attempt and the value resolved to; since
    the request was accepted on the socket, it was neither cancelled nor answered and
    no socket was created; and it leaves over that socket while it is the current one.
    A handler is started only while the agent is ready, or for a request that may be
    processed before. -/
theorem answers_wanted_requests {env : Environment} {h : History} {s : RemoteSession}
    (hr : SessionRun env AnyAction h s) :
    Throughout Justified (log h) ∧ ∀ l ∈ h, ∀ o ∈ l.2.outputs, InPlace env l.2 o := by
  have hinv : Sane s ∧ Sound (log h) s ∧ ∀ l ∈ h, ∀ o ∈ l.2.outputs, InPlace env l.2 o := by
    refine Transition.Run.invariant_of_history hr (fun _ => True)
      (fun h s => Sane s ∧ Sound (log h) s ∧ ∀ l ∈ h, ∀ o ∈ l.2.outputs, InPlace env l.2 o)
      (fun _ _ _ => trivial) ?_ ?_ trivial
    · exact ⟨sane_new, ⟨tracked_new, throughout_nil⟩, fun _ hl => (by cases hl)⟩
    · rintro h s ⟨action, before, outputs, after⟩ s' _ ⟨hsane, hS, hplace⟩ ⟨_, hw⟩
      obtain ⟨hstep, rfl, rfl⟩ := watch_step hw
      refine ⟨sane_step hsane hstep, ?_, ?_⟩
      · rw [log, List.flatMap_append, List.flatMap_singleton]
        exact step_sound_log hS hsane hstep
      · intro l hl
        rcases List.mem_append.mp hl with hl | hl
        · exact hplace l hl
        · rw [List.mem_singleton.mp hl]
          exact lived_inPlace (step_lived hstep)
  exact ⟨hinv.2.1.order, hinv.2.2⟩

/-- The request that the phone is asked. -/
def askedRequest : RemoteRequest := ⟨⟨3⟩, 1, 0, 60, [11], none⟩

/-- The phone is asked, asked to forget it and asked again; both handlers resolve. -/
def askTwice : List ClientAction :=
  [.connect "wss://home/" "phone",
    .loaded 2 (.ok (some ⟨"wss://home/", ⟨100⟩, ⟨1⟩, [7], "phone", 0⟩)) (.ok 0), .opened 0,
    .message 0 (.message (.authenticated ⟨100⟩ ⟨5⟩ [9])), .receive 0, .setReady true,
    .message 0 (.message (.agentRequest askedRequest)), .receive 1,
    .message 0 (.message (.cancelRequest ⟨3⟩ 1)), .receive 2,
    .message 0 (.message (.agentRequest askedRequest)), .receive 3,
    .resolved 0 [21], .resolved 1 [22]]

/-- Only the second handler's value is sent, and the log is in order. -/
theorem answers_wanted_requests_asked_twice :
    let r := outcome (watch plainBrowser) AnyAction RemoteSession.new askTwice
    .did (.sent 0 (.agentResponse ⟨3⟩ 1 [22])) ∈ log r.1 ∧
      .did (.sent 0 (.agentResponse ⟨3⟩ 1 [21])) ∉ log r.1 ∧ Throughout Justified (log r.1) := by
  have hrun : SessionRun plainBrowser AnyAction
      (outcome (watch plainBrowser) AnyAction RemoteSession.new askTwice).1
      (outcome (watch plainBrowser) AnyAction RemoteSession.new askTwice).2 :=
    run_outcome (watch plainBrowser) AnyAction askTwice (by decide)
  exact ⟨by decide, by decide, (answers_wanted_requests hrun).1⟩

end Response
