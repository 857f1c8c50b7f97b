import AgentWitness.DaemonProofs

/-! # Where a ticket is

    A packet that was submitted is NOT SENT, IN THE CHANNEL, WITH THE BROKER or ANSWERED,
    and in one of these places at a time.  While the broker runs no ticket is nowhere; once
    it has stopped, the tickets left in the channel are.  A packet's entry in the ledger
    of its connection is filled only by what its oneshot channel yields. -/

namespace DaemonTicket

open Packet KeyedMap BrokerModel BrokerCompletion BrokerCorrelation BrokerTask BrokerLedger
open BrokerTrace RemoteProtocol Pairing Serve Handshake RemoteClient ClientFlow Wire EndToEnd
open Transition RequestRouter BrokerReceipt Daemon

variable {lib : Library} {config : SessionConfig} {env : Environment} {s s' : Host}
  {k k' : LocalConnection} {r : ResponseId} {t : Ticket} {result : Except RequestError Bytes}
  {action : NetworkAction} {network : Network} {outputs : List NetworkOutput}

/-! ## Places -/

/-- The places of a request that was sent. -/
def places (s : Host) (r : ResponseId) : Nat :=
  s.queue.count r + s.broker.actor.waiters.count (keeps r)
    + (s.answered r).isSome.toNat

/-- The ticket was issued. -/
def issued (s : Host) (r : ResponseId) : Nat := s.tickets[r]?.isSome.toNat

/-- The ticket was issued and its request not sent. -/
def unsent (s : Host) (r : ResponseId) : Nat := (s.tickets[r]?.any (fun t => !t.sent)).toNat

/-- Every ticket is in one place, and settled only by its channel. -/
structure Placed (s : Host) : Prop where
  once : ∀ r, unsent s r + places s r ≤ issued s r
  kept : s.broker.stopped = false → ∀ r, unsent s r + places s r = issued s r
  drained : s.broker.stopped = true → s.queue = []
  settled : ∀ (r : ResponseId) t k result, s.tickets[r]? = some t →
    s.connections t.connection = some k →
    (Listener.ledger k.history)[t.number]? = some (some result) →
    t.sent = true ∧ s.received r = some result

theorem placed_new (broker : BrokerConfig) (pairing : PairingService) (identities : Identities) :
    Placed (.new broker pairing identities) where
  once := fun _ => Nat.le_refl 0
  kept := fun _ _ => rfl
  drained := fun h => by cases h
  settled := fun _ _ _ _ ht => by cases ht

theorem issued_of_some (ht : s.tickets[r]? = some t) :
    issued s r = 1 := by
  rw [issued, ht]
  rfl

theorem unsent_of_some (ht : s.tickets[r]? = some t) :
    unsent s r = (!t.sent).toNat := by
  rw [unsent, ht]
  rfl

theorem Placed.places_le (hp : Placed s) (r : ResponseId) : places s r ≤ 1 := by
  have honce := hp.once r
  have hbool := Bool.toNat_le s.tickets[r]?.isSome
  rw [issued] at honce
  omega

/-- What the receiver yields is decided by the places. -/
theorem received_of_none (h : places s r = 0) :
    s.received r = some (.error .unavailable) := by
  rw [places] at h
  have hanswered : s.answered r = none := by
    cases hr : s.answered r with
    | none => rfl
    | some result =>
        rw [hr] at h
        simp at h
  have hqueue : s.queue.count r = 0 := by omega
  have hkept : s.broker.actor.waiters.count (keeps r) = 0 := by omega
  have hdropped : s.dropped r = true := by
    rw [Host.dropped, hkept]
    simpa using List.count_eq_zero.mp hqueue
  rw [Host.received, hanswered]
  dsimp only
  rw [if_pos hdropped]

theorem received_eq_some (h : s.received r = some result) :
    s.answered r = some result ∨ (places s r = 0 ∧ result = .error .unavailable) := by
  rw [Host.received] at h
  cases hr : s.answered r with
  | some other =>
      rw [hr] at h
      exact Or.inl h
  | none =>
      rw [hr] at h
      dsimp only at h
      split at h
      · rename_i hdropped
        obtain ⟨hqueue, hkept⟩ := Bool.and_eq_true_iff.mp hdropped
        have hout : r ∉ s.queue := by simpa using hqueue
        refine Or.inr ⟨?_, (Option.some.inj h).symm⟩
        rw [places, hr, beq_iff_eq.mp hkept, List.count_eq_zero.mpr hout]
        rfl
      · cases h

/-- What a receiver has yielded it yields again, while answers stay. -/
theorem received_stays (hplaces : places s' r ≤ places s r)
    (hanswered : s.answered r = some result → s'.answered r = some result)
    (h : s.received r = some result) : s'.received r = some result := by
  rcases received_eq_some h with hsome | ⟨hzero, rfl⟩
  · rw [Host.received, hanswered hsome]
  · exact received_of_none (Nat.le_zero.mp (hzero ▸ hplaces))

/-- Steps that issue no ticket and send nothing. -/
theorem Placed.keep (hp : Placed s) (htickets : s'.tickets = s.tickets)
    (hplaces : ∀ r, places s' r ≤ places s r)
    (hrunning : s'.broker.stopped = false →
      s.broker.stopped = false ∧ ∀ r, places s' r = places s r)
    (hdrained : s'.broker.stopped = true → s'.queue = [])
    (hanswered : ∀ r result, s.answered r = some result → s'.answered r = some result)
    (hledger : ∀ (r : ResponseId) t k', s.tickets[r]? = some t →
      s'.connections t.connection = some k' →
      ∃ k, s.connections t.connection = some k
        ∧ Listener.ledger k'.history = Listener.ledger k.history) : Placed s' := by
  have hissued : ∀ r, issued s' r = issued s r ∧ unsent s' r = unsent s r := by
    intro r
    rw [issued, issued, unsent, unsent, htickets]
    exact ⟨rfl, rfl⟩
  constructor
  · intro r
    rw [(hissued r).1, (hissued r).2]
    exact Nat.le_trans (Nat.add_le_add_left (hplaces r) _) (hp.once r)
  · intro hruns r
    obtain ⟨hbefore, hsame⟩ := hrunning hruns
    rw [(hissued r).1, (hissued r).2, hsame]
    exact hp.kept hbefore r
  · exact hdrained
  · intro r t k' result ht hk' hentry
    rw [htickets] at ht
    obtain ⟨k, hk, hsame⟩ := hledger r t k' ht hk'
    obtain ⟨hsent, hreceived⟩ := hp.settled r t k result ht hk (hsame ▸ hentry)
    exact ⟨hsent, received_stays (hplaces r) (hanswered r result) hreceived⟩

theorem seat_of_ticket (ht : s.tickets[r]? = some t) :
    s.seats[r]? = some t.toSeat := by
  rw [Host.seats, List.getElem?_map, ht]
  rfl

/-- The tickets after one of them is marked as sent. -/
theorem getElem?_mark (ht : s.tickets[r]? = some t) (r' : ResponseId) :
    (s.mark r t).tickets[r']?
      = if r = r' then some { t with sent := true } else s.tickets[r']? := by
  obtain ⟨hlt, _⟩ := List.getElem?_eq_some_iff.mp ht
  rw [Host.mark, List.getElem?_set]
  by_cases hr : r = r'
  · subst hr
    rw [if_pos rfl, if_pos rfl, if_pos hlt]
  · rw [if_neg hr, if_neg hr]

theorem counts_mark (ht : s.tickets[r]? = some t) (r' : ResponseId) :
    issued (s.mark r t) r' = issued s r'
      ∧ unsent (s.mark r t) r' = if r = r' then 0 else unsent s r' := by
  rw [issued, unsent, getElem?_mark ht]
  by_cases hr : r = r'
  · subst hr
    rw [if_pos rfl, if_pos rfl, issued_of_some ht]
    exact ⟨rfl, rfl⟩
  · rw [if_neg hr, if_neg hr]
    exact ⟨rfl, rfl⟩

/-- A future sends its request. -/
theorem placed_sent (hp : Placed s) (ht : s.tickets[r]? = some t) (hunsent : t.sent = false)
    (hrunning : s.broker.stopped = false) :
    Placed { s.mark r t with queue := s.queue ++ [r] } := by
  have hone : unsent s r = 1 := by
    rw [unsent_of_some ht, hunsent]
    rfl
  -- the request moves from its future into the channel
  have hplaces : ∀ r', places { s.mark r t with queue := s.queue ++ [r] } r'
      = places s r' + if r = r' then 1 else 0 := by
    intro r'
    simp only [places, List.count_append, List.count_singleton, beq_iff_eq, Host.mark, Host.broker]
    omega
  have hsame : ∀ r', unsent { s.mark r t with queue := s.queue ++ [r] } r'
        + places { s.mark r t with queue := s.queue ++ [r] } r'
      = issued { s.mark r t with queue := s.queue ++ [r] } r' := by
    intro r'
    have hbefore := hp.kept hrunning r'
    obtain ⟨hissued, hmarked⟩ := counts_mark ht r'
    rw [hplaces]
    change unsent (s.mark r t) r' + _ = issued (s.mark r t) r'
    rw [hissued, hmarked]
    by_cases hr : r = r'
    · subst hr
      rw [if_pos rfl, if_pos rfl]
      omega
    · rw [if_neg hr, if_neg hr]
      exact hbefore
  constructor
  · exact fun r' => Nat.le_of_eq (hsame r')
  · exact fun _ => hsame
  · intro hstopped
    rw [show s.broker.stopped = true from hstopped] at hrunning
    cases hrunning
  · intro r' t' k result ht' hk hentry
    rw [getElem?_mark ht] at ht'
    by_cases hr : r = r'
    · subst hr
      rw [if_pos rfl] at ht'
      obtain rfl := Option.some.inj ht'
      -- an entry that is filled belongs to a ticket that was sent
      have hsent := (hp.settled r t k result ht hk hentry).1
      rw [hunsent] at hsent
      cases hsent
    · rw [if_neg hr] at ht'
      obtain ⟨hsent, hreceived⟩ := hp.settled r' t' k result ht' hk hentry
      refine ⟨hsent, @received_stays s { s.mark r t with queue := s.queue ++ [r] } r' result ?_ id
        hreceived⟩
      rw [hplaces, if_neg hr]
      exact Nat.le_refl _

/-- The loop of a connection takes a step of its own. -/
theorem placed_acted (hp : Placed s) (hs : Seated lib s) {c : ConnectionId}
    (hk : s.connections c = some k) {action : Listener.Action} {output : Listener.Output}
    (hown : ownStep action = true) (hstep : k.step lib action = some (k', output)) :
    Placed { s.put c k' with tickets := s.tickets ++ issue c k output } := by
  have hrun := hs.runs c k hk
  obtain ⟨_, hledger⟩ := own_step hown hstep
  have hissue : ∀ t ∈ issue c k output, t.sent = false ∧ t.connection = c
      ∧ t.number = (accepted k.history).length
      ∧ ∃ packet, accepts (action, output) = some (packet, .submitted t.packet t.context) := by
    intro t ht
    cases output with
    | accepted packet routed =>
        cases routed with
        | ready frame => cases ht
        | submitted p context =>
            obtain rfl := List.mem_singleton.mp ht
            exact ⟨rfl, rfl, next_number hrun, packet, rfl⟩
    | quiet | refused | responded => cases ht
  -- a ticket is an old one, or new and not sent
  have hticket : ∀ r : ResponseId, (s.tickets ++ issue c k output)[r]? = s.tickets[r]?
      ∨ (s.tickets[r]? = none
        ∧ ∀ t, (s.tickets ++ issue c k output)[r]? = some t → t ∈ issue c k output) := by
    intro r
    rcases Nat.lt_or_ge r s.tickets.length with hlt | hge
    · exact Or.inl (List.getElem?_append_left hlt)
    · refine Or.inr ⟨List.getElem?_eq_none hge, ?_⟩
      intro t ht
      rw [List.getElem?_append_right hge] at ht
      exact List.mem_of_getElem? ht
  have hcounts : ∀ r, ∃ new, issued { s.put c k' with tickets := s.tickets ++ issue c k output } r
        = issued s r + new
      ∧ unsent { s.put c k' with tickets := s.tickets ++ issue c k output } r
        = unsent s r + new := by
    intro r
    rw [issued, issued, unsent, unsent]
    dsimp only
    rcases hticket r with hsame | ⟨hnone, hnew⟩
    · rw [hsame]
      exact ⟨0, rfl, rfl⟩
    · rw [hnone]
      cases ht : (s.tickets ++ issue c k output)[r]? with
      | none => exact ⟨0, rfl, rfl⟩
      | some t =>
          refine ⟨1, rfl, ?_⟩
          rw [Option.any_some, (hissue t (hnew t ht)).1]
          rfl
  have hplaces : ∀ r, places { s.put c k' with tickets := s.tickets ++ issue c k output } r
      = places s r := fun _ => rfl
  constructor
  · intro r
    obtain ⟨new, hissued, hunsent⟩ := hcounts r
    have honce := hp.once r
    rw [hissued, hunsent, hplaces]
    omega
  · intro hrunning r
    obtain ⟨new, hissued, hunsent⟩ := hcounts r
    have hone := hp.kept hrunning r
    rw [hissued, hunsent, hplaces]
    omega
  · exact hp.drained
  · intro r t e result ht he hentry
    rcases hticket r with hsame | ⟨_, hnew⟩
    · have hold : s.tickets[r]? = some t := hsame.symm.trans ht
      rcases update_eq_some he with ⟨hc, rfl⟩ | ⟨_, he⟩
      · rw [← hc] at hk
        obtain ⟨e, packet, he, haccepted⟩ := hs.issued (seat_of_ticket hold)
        obtain rfl := Option.some.inj (hk.symm.trans he)
        have hlt : t.number < (Listener.ledger k.history).length := by
          rw [length_ledger hrun]
          exact (List.getElem?_eq_some_iff.mp haccepted).1
        rw [hledger, List.getElem?_append_left hlt] at hentry
        exact hp.settled r t k result hold hk hentry
      · exact hp.settled r t e result hold he hentry
    · -- the entry of a packet that was just submitted is pending
      obtain ⟨_, hc, hnumber, packet, haccepts⟩ := hissue t (hnew t ht)
      rcases update_eq_some he with ⟨_, rfl⟩ | ⟨hne, _⟩
      · rw [hledger, hnumber, ← length_ledger hrun, List.getElem?_append_right (Nat.le_refl _),
          Nat.sub_self, haccepts] at hentry
        cases hentry
      · exact absurd hc hne

/-- A future yields. -/
theorem placed_completed (hp : Placed s) (hs : Seated lib s) (ht : s.tickets[r]? = some t)
    (hk : s.connections t.connection = some k) {output : Listener.Output}
    (hwhy : (t.sent = false ∧ s.broker.stopped = true
        ∧ result = .error .unavailable)
      ∨ (t.sent = true ∧ s.received r = some result))
    (hstep : k.step lib (.complete t.number result) = some (k', output)) :
    Placed ((s.put t.connection k').mark r t) := by
  obtain ⟨hpending, hledger, _, _⟩ := complete_step (hs.runs _ _ hk) hstep
  have hyields : s.received r = some result := by
    rcases hwhy with ⟨hunsent, _, rfl⟩ | ⟨_, hreceived⟩
    · have honce := hp.once r
      rw [unsent_of_some ht, issued_of_some ht, hunsent] at honce
      exact received_of_none (Nat.le_zero.mp (Nat.le_of_add_le_add_left honce))
    · exact hreceived
  have hplaces : ∀ r', places ((s.put t.connection k').mark r t) r' = places s r' := fun _ => rfl
  have hcounts := @counts_mark (s.put t.connection k') r t ht
  have hput : ∀ r', issued (s.put t.connection k') r' = issued s r'
      ∧ unsent (s.put t.connection k') r' = unsent s r' := fun _ => ⟨rfl, rfl⟩
  constructor
  · intro r'
    have honce := hp.once r'
    rw [hplaces, (hcounts r').1, (hcounts r').2, (hput r').1, (hput r').2]
    split
    · omega
    · exact honce
  · intro hrunning r'
    have hone := hp.kept hrunning r'
    rw [hplaces, (hcounts r').1, (hcounts r').2, (hput r').1, (hput r').2]
    split
    · rename_i hr
      subst hr
      rcases hwhy with ⟨_, hstopped, _⟩ | ⟨hsent, _⟩
      · rw [show s.broker.stopped = false from hrunning] at hstopped
        cases hstopped
      · rw [unsent_of_some ht, hsent] at hone
        exact hone
    · exact hone
  · exact hp.drained
  · intro r' t' e other ht' he hentry
    change _ ∧ s.received r' = _
    rw [@getElem?_mark (s.put t.connection k') r t ht] at ht'
    by_cases hr : r = r'
    · subst hr
      rw [if_pos rfl] at ht'
      obtain rfl := Option.some.inj ht'
      rcases update_eq_some he with ⟨_, rfl⟩ | ⟨hne, _⟩
      · have hlt : t.number < (Listener.ledger k.history).length :=
          (List.getElem?_eq_some_iff.mp hpending).1
        rw [hledger, List.getElem?_set_self hlt] at hentry
        obtain rfl := Option.some.inj (Option.some.inj hentry)
        exact ⟨rfl, hyields⟩
      · exact absurd rfl hne
    · rw [if_neg hr] at ht'
      rcases update_eq_some he with ⟨hc, rfl⟩ | ⟨_, he⟩
      · have hnumber : t.number ≠ t'.number := by
          intro hsame
          exact hr (hs.single (seat_of_ticket ht) (seat_of_ticket ht') hc.symm hsame)
        rw [hledger, List.getElem?_set_ne hnumber] at hentry
        rw [← hc] at hk
        exact hp.settled r' t' k other ht' hk hentry
      · exact hp.settled r' t' e other ht' he hentry

/-! ## Turns of the broker -/

/-- The answers of a turn, as they are found and as they are counted. -/
theorem found_answer (outs : List Output) (r : ResponseId) :
    (((outs.filterMap external).map NetworkOutput.server).findSome? (answerTo r)).isSome
      = decide (0 < outs.countP (answers r)) := by
  induction outs with
  | nil => rfl
  | cons o outs ih =>
      rw [List.countP_cons]
      cases o with
      | answered other result =>
          by_cases hr : other = r
          · simp [external, answerTo, answers, hr]
          · simpa [external, answerTo, answers, hr] using ih
      | woke | stopped | sent | registered => exact ih

/-- The request that the broker takes is the oldest in the channel. -/
theorem feeds_request {request : PacketRequest} {request_id : RequestId}
    {requested_at : SystemTime} (h : s.feeds (.localRequest request request_id requested_at) = true) :
    ∃ rest t, s.queue = request.response :: rest ∧ s.tickets[request.response]? = some t
      ∧ request.packet = t.packet ∧ request.context = t.context := by
  rw [Host.feeds] at h
  cases hqueue : s.queue with
  | nil =>
      rw [hqueue] at h
      cases h
  | cons oldest rest =>
      rw [hqueue] at h
      dsimp only at h
      cases ht : s.tickets[oldest]? with
      | none =>
          rw [ht] at h
          cases h
      | some t =>
          rw [ht, Option.any_some] at h
          obtain ⟨hpacket, hcontext, hresponse⟩ := of_decide_eq_true h
          exact ⟨rest, t, by rw [hresponse], by rw [hresponse, ht], hpacket, hcontext⟩

/-- A turn takes its request out of the channel, and nothing else. -/
theorem queueAfter_count {t : Turn} (hallows : s.allows action = true) (hnames : Names action t)
    (r : ResponseId) :
    (s.queueAfter false action).count r + (if submission t.input = some r then 1 else 0)
      = s.queue.count r := by
  have hother : submission t.input = none → s.queueAfter false action = s.queue →
      (s.queueAfter false action).count r + (if submission t.input = some r then 1 else 0)
        = s.queue.count r := by
    intro hnone hsame
    rw [hnone, hsame, if_neg (by rintro ⟨⟩)]
    exact Nat.add_zero _
  rcases hnames with ⟨⟨command, session_id, hin⟩, hnot⟩ | rfl
  · refine hother (by rw [hin]; rfl) ?_
    rw [Host.queueAfter.eq_def]
    split
    · exact absurd rfl (hnot _ _ _)
    · rfl
  · cases hin : t.input with
    | localRequest request request_id requested_at =>
        have hfeeds : s.feeds (.localRequest request request_id requested_at) = true := by
          rw [← hin]
          exact hallows
        obtain ⟨rest, ticket, hqueue, _⟩ := feeds_request hfeeds
        rw [Host.queueAfter, hqueue, submission, List.count_cons]
        simp
    | localClosed | cancelled | command | commandsClosed | deadline =>
        exact hin ▸ hother (by rw [hin]; rfl) (by rw [hin]; rfl)

theorem queueAfter_stopped (action : NetworkAction) : s.queueAfter true action = [] := by
  rw [Host.queueAfter.eq_def]
  split <;> rfl

/-- What was sent on a channel before is what it has. -/
theorem hear_of_some {answered : ResponseId → Option (Except RequestError Bytes)}
    (h : answered r = some result) : hear answered outputs r = some result := by
  rw [hear, h]

theorem hear_of_none {answered : ResponseId → Option (Except RequestError Bytes)}
    (h : answered r = none) :
    hear answered outputs r = outputs.findSome? (answerTo r) := by
  rw [hear, h]

/-- **A turn moves tickets between places.**  A request leaves the channel for the broker,
    and the broker for its caller. -/
theorem placed_turned (hp : Placed s) {t : Turn} {outs : List Output}
    (hallows : s.allows action = true) (hnames : Names action t)
    (hb : s.broker.step t = some (network.server.broker, outs))
    (hfresh : ∀ request request_id requested_at,
      t.input = .localRequest request request_id requested_at →
      s.broker.actor.waiters.get? request_id = none) :
    Placed (s.heard action network ((outs.filterMap external).map .server)) := by
  have hrunning : s.broker.stopped = false := step_running hb
  -- the places after the turn, with those that go with the channel
  have hplaces : ∀ r, (s.queueAfter network.server.broker.stopped action).count r
        + network.server.broker.actor.waiters.count (keeps r)
        + (hear s.answered ((outs.filterMap external).map .server) r).isSome.toNat
      + ((s.queueAfter false action).count r
        - (s.queueAfter network.server.broker.stopped action).count r) = places s r := by
    intro r
    have hbalance := step_receipts hb hfresh r
    have htaken := queueAfter_count hallows hnames r
    have hqueue : (s.queueAfter network.server.broker.stopped action).count r
        ≤ (s.queueAfter false action).count r := by
      cases network.server.broker.stopped with
      | false => exact Nat.le_refl _
      | true =>
          rw [queueAfter_stopped]
          exact Nat.zero_le _
    have honce := hp.places_le r
    rw [places] at honce ⊢
    cases hr : s.answered r with
    | some result =>
        rw [hr] at honce
        rw [hear_of_some hr]
        simp only [Option.isSome_some, Bool.toNat_true] at honce ⊢
        omega
    | none =>
        rw [hr] at honce
        rw [hear_of_none hr, found_answer]
        simp only [Option.isSome_none, Bool.toNat_false] at honce ⊢
        by_cases hsends : 0 < outs.countP (answers r)
        · rw [decide_eq_true hsends, Bool.toNat_true]
          omega
        · rw [decide_eq_false hsends, Bool.toNat_false]
          omega
  refine hp.keep rfl ?_ ?_ ?_ (fun _ _ => hear_of_some) (fun _ _ k _ hk => ⟨k, hk, rfl⟩)
  · intro r
    exact hplaces r ▸ Nat.le_add_right _ _
  · intro hafter
    have hruns : network.server.broker.stopped = false := hafter
    refine ⟨hrunning, ?_⟩
    intro r
    have hall := hplaces r
    rw [hruns, Nat.sub_self, Nat.add_zero] at hall
    rw [← hall, ← hruns]
    rfl
  · intro hstopped
    rw [Host.heard] at hstopped ⊢
    dsimp only at hstopped ⊢
    rw [hstopped]
    exact queueAfter_stopped action

/-- The broker does nothing in a step of the network. -/
theorem placed_idle (hp : Placed s) (hsame : network.server.broker = s.broker)
    (hsilent : ∀ response, outputs.findSome? (answerTo response) = none)
    (hnot : ∀ input sends now, action ≠ .server (.turn input sends now)) :
    Placed (s.heard action network outputs) := by
  have hqueue : s.queueAfter network.server.broker.stopped action = s.queue := by
    rw [Host.queueAfter.eq_def]
    split
    · exact absurd rfl (hnot _ _ _)
    · split
      · rename_i hstopped
        exact (hp.drained (hsame ▸ hstopped)).symm
      · rfl
  have hplaces : ∀ r, places (s.heard action network outputs) r = places s r := by
    intro r
    rw [places, places, Host.heard]
    dsimp only [Host.broker]
    rw [hqueue, hsame]
    cases hr : s.answered r with
    | none => rw [hear_of_none hr, hsilent]
    | some result => rw [hear_of_some hr]
  refine hp.keep rfl ?_ ?_ ?_ (fun _ _ => hear_of_some) (fun _ _ k _ hk => ⟨k, hk, rfl⟩)
  · intro r
    exact Nat.le_of_eq (hplaces r)
  · intro hruns
    exact ⟨hsame ▸ hruns, hplaces⟩
  · intro hstopped
    exact hqueue.trans (hp.drained (hsame ▸ hstopped))

/-- The ids that a step of the network gives to requests are not waited for. -/
def Fresh (s : Host) : HostAction → Prop
  | .network (.server (.turn (.localRequest _ request_id _) _ _)) =>
      s.broker.actor.waiters.get? request_id = none
  | _ => True

/-- **Step lemma of the places.** -/
theorem placed_step (hp : Placed s) (hs : Seated lib s) {action : HostAction}
    {outputs : List HostOutput} (hsane : ∀ id, Sane (s.network.clients id)) (hfresh : Fresh s action)
    (h : HostStepped lib config env s action s' outputs) : Placed s' := by
  -- connections may change as long as the entries of their ledgers stay
  have hstay : ∀ {t : Host}, t.tickets = s.tickets → t.broker = s.broker → t.queue = s.queue →
      t.answered = s.answered →
      (∀ (r : ResponseId) e k', s.tickets[r]? = some e → t.connections e.connection = some k' →
        ∃ k, s.connections e.connection = some k
          ∧ Listener.ledger k'.history = Listener.ledger k.history) → Placed t := by
    intro t htickets hbroker hqueue hanswered hledger
    have hplaces : ∀ r, places t r = places s r := by
      intro r
      rw [places, places, hbroker, hqueue, hanswered]
    refine hp.keep htickets (fun r => Nat.le_of_eq (hplaces r)) ?_ ?_ ?_ hledger
    · exact fun hrunning => ⟨hbroker ▸ hrunning, hplaces⟩
    · exact fun hstopped => hqueue ▸ hp.drained (hbroker ▸ hstopped)
    · exact fun r result hr => hanswered ▸ hr
  have heach : ∀ {act : Listener.Action},
      (act = .interrupt ∨ ∃ identities, act = .publish identities) →
      ∀ (r : ResponseId) e k', s.tickets[r]? = some e →
        (s.each lib act).connections e.connection = some k' →
        ∃ k, s.connections e.connection = some k
          ∧ Listener.ledger k'.history = Listener.ledger k.history := by
    intro act hact r e k' _ hk'
    obtain ⟨k, hk, rfl⟩ := Option.map_eq_some_iff.mp hk'
    exact ⟨k, hk, (after_step (hs.runs _ _ hk) hact).2.2⟩
  cases h with
  | refused => exact hp
  | accepted hnone =>
      refine hstay rfl rfl rfl rfl ?_
      intro r t k' ht hk'
      rcases update_eq_some hk' with ⟨hc, _⟩ | ⟨_, hk'⟩
      · obtain ⟨k, _, hk, _⟩ := hs.issued (seat_of_ticket ht)
        rw [hc, hnone] at hk
        cases hk
      · exact ⟨k', hk', rfl⟩
  | published => exact hstay rfl rfl rfl rfl (heach (Or.inr ⟨_, rfl⟩))
  | acted hk hown hstep => exact placed_acted hp hs hk hown hstep
  | sent ht hunsent hrunning => exact placed_sent hp ht hunsent hrunning
  | completed ht hk hwhy hstep _ => exact placed_completed hp hs ht hk hwhy hstep
  | @served act network outs hallows hstep =>
      cases ran_turned (network_step_cases hsane hstep) with
      | idle hsame hsilent hnot => exact placed_idle hp hsame hsilent hnot
      | @turn t _ hb houtputs hnames =>
          rw [houtputs]
          refine placed_turned hp hallows hnames hb ?_
          intro request request_id requested_at hin
          rcases hnames with ⟨⟨command, session_id, hcommand⟩, _⟩ | rfl
          · rw [hcommand] at hin
            cases hin
          · rw [hin] at hfresh
            exact hfresh
  | closed => exact hstay rfl rfl rfl rfl (heach (Or.inl rfl))

end DaemonTicket
