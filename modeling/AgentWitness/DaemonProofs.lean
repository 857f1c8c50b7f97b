import AgentWitness.EndToEndProofs
import AgentWitness.ListenerProofs
import AgentWitness.BrokerReceiptProofs

/-! # The whole daemon

    Any number of local connections in front of the server and its browsers.  A packet
    that the router submits becomes a future of its connection: it sends a request with the
    sender of a oneshot channel to the broker and awaits the receiver.  The channel to the
    broker is bounded; futures run only while their connection selects, and a connection
    that ends cancels its token.

    A submitted packet is a TICKET, and a ticket is in exactly one place: not sent yet, in
    the channel, with the broker, or answered.  What is written on a connection for a
    packet is therefore what a browser's handler resolved to for that very packet. -/

namespace Daemon

open Packet KeyedMap BrokerModel BrokerCorrelation BrokerTask BrokerLedger BrokerTrace
open RemoteProtocol Pairing Serve RemoteClient ClientFlow Wire EndToEnd Transition
open RequestRouter ConnectionRouting BrokerReceipt

abbrev ConnectionId := Nat

/-- A packet that was submitted.  `number` is its place among the packets that its
    connection accepted. -/
structure Seat where
  connection : ConnectionId
  number : Nat
  packet : Bytes
  context : Option RequestContext

/-- The future of `submit`, which has or has not sent its request.  Its oneshot channel is
    named by the place of the ticket among all tickets. -/
structure Ticket extends Seat where
  sent : Bool

/-- A connection's task.  `history` is a ghost record of its steps. -/
structure LocalConnection where
  listener : Listener.State
  history : List Listener.Label

/-- The watch channel of the identities with the router that makes connections. -/
structure Identities where
  channel : Channel
  factory : Factory channel

/-- The daemon. -/
structure Host where
  network : Network
  identities : Identities
  serving : Bool
  connections : ConnectionId → Option LocalConnection
  tickets : List Ticket
  /-- The requests in the channel to the broker, oldest first. -/
  queue : List ResponseId
  /-- The cancellations that the broker awaits. -/
  cancellations : List (RequestId × ResponseId)
  /-- What was sent on the oneshot channels. -/
  answered : ResponseId → Option (Except RequestError Bytes)

abbrev Host.broker (s : Host) : Broker := s.network.server.broker

/-- What happens to the daemon. -/
inductive HostAction where
  | accept (connection : ConnectionId)
  | publish (identities : Option (List AgentIdentity))
  /-- The loop of a connection takes a step, or its task is aborted. -/
  | act (connection : ConnectionId) (action : Listener.Action)
  /-- A future sends its request, or finds the channel closed. -/
  | submit (response : ResponseId)
  /-- A future is ready. -/
  | settle (response : ResponseId)
  | network (action : NetworkAction)
  /-- The socket is shut down and all connections with it. -/
  | close

inductive HostOutput where
  | connection (connection : ConnectionId) (output : Listener.Output)
  | network (output : NetworkOutput)
  deriving DecidableEq

/-- `watch::Sender::send_replace`. -/
def Identities.publish (i : Identities) (identities : Option (List AgentIdentity)) :
    Identities where
  channel := i.channel.send_replace identities
  factory := ⟨i.factory.seen, Nat.le_succ_of_le i.factory.within⟩

/-- One step of a connection, as it is recorded. -/
def LocalConnection.step (lib : Library) (k : LocalConnection) (action : Listener.Action) :
    Option (LocalConnection × Listener.Output) :=
  match k.listener.next lib action with
  | none => none
  | some (listener, output) => some (⟨listener, k.history ++ [(action, output)]⟩, output)

/-- A step of a connection that is always possible. -/
def LocalConnection.after (lib : Library) (k : LocalConnection) (action : Listener.Action) :
    LocalConnection :=
  ((k.step lib action).map Prod.fst).getD k

/-- The ticket of a packet that a step submits. -/
def issue (connection : ConnectionId) (k : LocalConnection) : Listener.Output → List Ticket
  | .accepted _ (.submitted packet context) =>
      [⟨⟨connection, k.listener.outgoing + k.listener.responses.length, packet, context⟩, false⟩]
  | _ => []

/-- The steps that the loop takes by itself. -/
def ownStep : Listener.Action → Bool
  | .frame _ | .respond | .transmit _ | .interrupt => true
  | .publish _ | .complete _ _ => false

/-- The sender of a oneshot channel is gone: it is neither in the channel to the broker
    nor with the broker. -/
def Host.dropped (s : Host) (response : ResponseId) : Bool :=
  !s.queue.contains response
    && s.broker.actor.waiters.count (keeps response) == 0

/-- What the receiver of a oneshot channel yields, once it is ready. -/
def Host.received (s : Host) (response : ResponseId) : Option (Except RequestError Bytes) :=
  match s.answered response with
  | some result => some result
  | none => if s.dropped response then some (.error .unavailable) else none

/-- The connection of a ticket, while its futures run. -/
def Host.polled (s : Host) (t : Ticket) : Option LocalConnection :=
  match s.connections t.connection with
  | some k => if k.listener.phase = .selecting then some k else none
  | none => none

/-- The daemon with another state of one connection. -/
def Host.put (s : Host) (connection : ConnectionId) (k : LocalConnection) : Host :=
  { s with connections := Function.update s.connections connection (some k) }

/-- All connections take a step that is always possible. -/
def Host.each (lib : Library) (s : Host) (action : Listener.Action) : Host :=
  { s with connections := fun c => (s.connections c).map (fun k => k.after lib action) }

/-- A future has sent its request, or has given up on it. -/
def Host.mark (s : Host) (response : ResponseId) (t : Ticket) : Host :=
  { s with tickets := s.tickets.set response { t with sent := true } }

/-- The future of a ticket yields a result. -/
def Host.complete (lib : Library) (s : Host) (response : ResponseId) (t : Ticket)
    (k : LocalConnection) (result : Except RequestError Bytes) : Option (Host × List HostOutput) :=
  match k.step lib (.complete t.number result) with
  | none => none
  | some (k', _) => some ((s.put t.connection k').mark response t, [])

/-- The token of a ticket's connection is cancelled. -/
def Host.ended (s : Host) (response : ResponseId) : Bool :=
  match s.tickets[response]? with
  | none => false
  | some t =>
      match s.connections t.connection with
      | none => false
      | some k => k.listener.phase = .returned

/-- What the broker reads is there: the oldest request of its channel, a cancelled token
    of a request that is waited for, the end of the channel. -/
def Host.feeds (s : Host) : Input → Bool
  | .localRequest request _ _ =>
      match s.queue with
      | [] => false
      | response :: _ =>
          s.tickets[response]?.any (fun t => request.packet = t.packet
            ∧ request.context = t.context ∧ request.response = response)
  | .cancelled request_id =>
      s.cancellations.any (fun e => e.1 = request_id
        ∧ s.broker.actor.waiters.get? request_id = some e.2 ∧ s.ended e.2)
  | .localClosed => !s.serving && s.queue.isEmpty
  | .command _ _ | .commandsClosed | .deadline => true

def Host.allows (s : Host) : NetworkAction → Bool
  | .server (.turn input _ _) => s.feeds input
  | _ => true

/-- The answer on a channel that an output is. -/
def answerTo (response : ResponseId) : NetworkOutput → Option (Except RequestError Bytes)
  | .server (.answered other result) => if other = response then some result else none
  | _ => none

/-- The oneshot channels after these outputs. -/
def hear (answered : ResponseId → Option (Except RequestError Bytes))
    (outputs : List NetworkOutput) : ResponseId → Option (Except RequestError Bytes) :=
  fun response =>
    match answered response with
    | some result => some result
    | none => outputs.findSome? (answerTo response)

/-- The channel after the broker has read from it; its end goes with the broker. -/
def Host.queueAfter (s : Host) (stopped : Bool) : NetworkAction → List ResponseId
  | .server (.turn (.localRequest _ _ _) _ _) => if stopped then [] else s.queue.tail
  | _ => if stopped then [] else s.queue

def Host.cancellationsAfter (s : Host) : NetworkAction → List (RequestId × ResponseId)
  | .server (.turn (.localRequest request request_id _) _ _) =>
      s.cancellations ++ [(request_id, request.response)]
  | .server (.turn (.cancelled request_id) _ _) =>
      s.cancellations.filter (fun e => e.1 ≠ request_id)
  | _ => s.cancellations

/-- The daemon after a step of the network. -/
def Host.heard (s : Host) (action : NetworkAction) (network : Network)
    (outputs : List NetworkOutput) : Host :=
  { s with
    network := network
    queue := s.queueAfter network.server.broker.stopped action
    cancellations := s.cancellationsAfter action
    answered := hear s.answered outputs }

/-- One step of the daemon.  `capacity` is that of the channel to the broker. -/
def Host.step (lib : Library) (config : SessionConfig) (env : Environment) (capacity : Nat)
    (s : Host) : HostAction → Option (Host × List HostOutput)
  | .accept connection =>
      if s.serving && (s.connections connection).isNone then
        match s.identities.factory.connection lib with
        | .error _ => some (s, [])
        | .ok router => some (s.put connection ⟨.new s.identities.channel router, []⟩, [])
      else none
  | .publish identities =>
      some ({ s.each lib (.publish identities) with
        identities := s.identities.publish identities }, [])
  | .act connection action =>
      match s.connections connection with
      | none => none
      | some k =>
          if ownStep action then
            match k.step lib action with
            | none => none
            | some (k', output) =>
                some ({ s.put connection k' with tickets := s.tickets ++ issue connection k output },
                  [.connection connection output])
          else none
  | .submit response =>
      match s.tickets[response]? with
      | none => none
      | some t =>
          match s.polled t with
          | none => none
          | some k =>
              if t.sent then none
              else if s.broker.stopped then
                s.complete lib response t k (.error .unavailable)
              else if s.queue.length < capacity then
                some ({ s.mark response t with queue := s.queue ++ [response] }, [])
              else none
  | .settle response =>
      match s.tickets[response]? with
      | none => none
      | some t =>
          match s.polled t, s.received response with
          | some k, some result => if t.sent then s.complete lib response t k result else none
          | _, _ => none
  | .network action =>
      if s.allows action then
        match s.network.step config env action with
        | none => none
        | some (network, outputs) => some (s.heard action network outputs, outputs.map .network)
      else none
  | .close => some ({ s.each lib .interrupt with serving := false }, [])

/-- A daemon that has just started. -/
def Host.new (broker : BrokerConfig) (pairing : PairingService) (identities : Identities) :
    Host where
  network := .new broker pairing
  identities := identities
  serving := true
  connections := fun _ => none
  tickets := []
  queue := []
  cancellations := []
  answered := fun _ => none

abbrev HostLabel := HostAction × List HostOutput

/-- A run of the daemon. -/
abbrev HostRun (lib : Library) (config : SessionConfig) (env : Environment) (capacity : Nat)
    (broker : BrokerConfig) (pairing : PairingService) (identities : Identities) :
    List HostLabel → Host → Prop :=
  Run (Fires (Host.step lib config env capacity) (fun _ _ => True))
    (.new broker pairing identities)

/-! ## What a step of a connection records -/

/-- The packet that a step accepts, and how it is routed. -/
def accepts : Listener.Label → Option (Bytes × Routed)
  | (_, .accepted packet routed) => some (packet, routed)
  | _ => none

/-- The packets accepted on a connection so far, in arrival order. -/
def accepted (h : List Listener.Label) : List (Bytes × Routed) := h.filterMap accepts

theorem accepted_snoc (h : List Listener.Label) (l : Listener.Label) :
    accepted (h ++ [l]) = accepted h ++ (accepts l).toList := by
  rw [accepted, List.filterMap_append]
  cases hl : accepts l <;> simp [hl, accepted]

/-- The record belongs to a run of the loop. -/
def LocalConnection.Runs (lib : Library) (k : LocalConnection) : Prop :=
  ∃ ch router, Listener.ListenerRun lib ch router k.history k.listener

variable {lib : Library} {k k' : LocalConnection} {action : Listener.Action}
  {output : Listener.Output}

theorem step_eq_some (h : k.step lib action = some (k', output)) :
    k.listener.next lib action = some (k'.listener, output)
      ∧ k'.history = k.history ++ [(action, output)] := by
  rw [LocalConnection.step] at h
  cases hnext : k.listener.next lib action with
  | none =>
      rw [hnext] at h
      cases h
  | some r =>
      rw [hnext] at h
      obtain ⟨rfl, rfl⟩ := Prod.mk.inj (Option.some.inj h)
      exact ⟨rfl, rfl⟩

theorem runs_step (hk : k.Runs lib) (h : k.step lib action = some (k', output)) :
    k'.Runs lib := by
  obtain ⟨ch, router, hrun⟩ := hk
  obtain ⟨hnext, hhistory⟩ := step_eq_some h
  refine ⟨ch, router, ?_⟩
  rw [hhistory]
  exact .snoc hrun ⟨trivial, hnext⟩

/-- A step of the loop itself enters the packet it accepts, and nothing else. -/
theorem own_step (hown : ownStep action = true) (h : k.step lib action = some (k', output)) :
    accepted k'.history = accepted k.history ++ (accepts (action, output)).toList
      ∧ Listener.ledger k'.history = Listener.ledger k.history
        ++ (accepts (action, output)).toList.map (fun e => Listener.future e.2) := by
  obtain ⟨_, hhistory⟩ := step_eq_some h
  rw [hhistory, accepted_snoc, Listener.ledger_snoc]
  refine ⟨rfl, ?_⟩
  cases action with
  | publish identities => cases hown
  | complete number result => cases hown
  | frame | respond | transmit | interrupt =>
      cases output <;> simp [Listener.enter, accepts]

/-- A completion fills a pending entry of the ledger. -/
theorem complete_step (hk : k.Runs lib) {number : Nat} {result : Except RequestError Bytes}
    (h : k.step lib (.complete number result) = some (k', output)) :
    (Listener.ledger k.history)[number]? = some none
      ∧ Listener.ledger k'.history = (Listener.ledger k.history).set number (some result)
      ∧ accepted k'.history = accepted k.history ∧ k'.listener.phase = k.listener.phase := by
  obtain ⟨ch, router, hrun⟩ := hk
  obtain ⟨hnext, hhistory⟩ := step_eq_some h
  obtain ⟨results, extra, hpaced⟩ := Listener.run_paced hrun
  simp only [Listener.State.next] at hnext
  split at hnext
  · rename_i hle
    split at hnext
    · rename_i hpending
      obtain ⟨hlistener, rfl⟩ := Prod.mk.inj (Option.some.inj hnext)
      have hentry : (Listener.ledger k.history)[number]? = some none := by
        have hlength : (results.map some).length = k.listener.outgoing := by
          rw [List.length_map, hpaced.outgoing]
        rw [hpaced.ledger, List.getElem?_append_right (by omega), hlength, hpending]
      refine ⟨hentry, ?_, ?_, ?_⟩
      · rw [hhistory, Listener.ledger_snoc]
        rfl
      · rw [hhistory, accepted_snoc]
        exact List.append_nil _
      · rw [← hlistener]
    · cases hnext
  · cases hnext

/-- Publications and aborts are always possible and change no entry. -/
theorem after_step (hk : k.Runs lib)
    (haction : action = .interrupt ∨ ∃ identities, action = .publish identities) :
    (k.after lib action).Runs lib ∧ accepted (k.after lib action).history = accepted k.history
      ∧ Listener.ledger (k.after lib action).history = Listener.ledger k.history := by
  have hquiet : ∀ {action}, k.step lib action = some (k.after lib action, .quiet) →
      (∀ entries, Listener.enter entries (action, .quiet) = entries) →
      (k.after lib action).Runs lib ∧ accepted (k.after lib action).history = accepted k.history
        ∧ Listener.ledger (k.after lib action).history = Listener.ledger k.history := by
    intro action hstep hsame
    rw [(step_eq_some hstep).2, accepted_snoc, Listener.ledger_snoc, hsame]
    exact ⟨runs_step hk hstep, List.append_nil _, rfl⟩
  rcases haction with rfl | ⟨identities, rfl⟩
  · exact hquiet rfl (fun _ => rfl)
  · exact hquiet rfl (fun _ => rfl)

/-- The next packet's number is the length of the ledger. -/
theorem next_number (hk : k.Runs lib) :
    k.listener.outgoing + k.listener.responses.length = (accepted k.history).length := by
  obtain ⟨ch, router, hrun⟩ := hk
  obtain ⟨results, extra, hpaced⟩ := Listener.run_paced hrun
  have hlength : (accepted k.history).length = (Listener.acceptedPackets k.history).length := by
    have hpackets : Listener.acceptedPackets k.history = (accepted k.history).map Prod.fst := by
      rw [Listener.acceptedPackets, accepted, List.map_filterMap]
      refine List.filterMap_congr ?_
      intro l _
      obtain ⟨action, output⟩ := l
      cases output <;> rfl
    rw [hpackets, List.length_map]
  rw [hlength, ← hpaced.count, hpaced.ledger, List.length_append, List.length_map,
    hpaced.outgoing]

theorem length_ledger (hk : k.Runs lib) :
    (Listener.ledger k.history).length = (accepted k.history).length := by
  rw [← next_number hk]
  obtain ⟨ch, router, hrun⟩ := hk
  obtain ⟨results, extra, hpaced⟩ := Listener.run_paced hrun
  rw [hpaced.ledger, List.length_append, List.length_map, hpaced.outgoing]

/-- What is submitted is the packet that was routed. -/
theorem route_submitted {ch : Channel} {r : ConnectionRouter} {packet p : Bytes}
    {context : Option RequestContext}
    (h : (r.route lib ch packet).2 = .ok (.submitted p context)) : p = packet := by
  rw [ConnectionRouter.route] at h
  split at h
  · cases h
  · rw [ConnectionRouter.classify] at h
    split at h
    · split at h
      · cases h
      · cases h
    · cases h
    · exact (respond_submitted (Except.ok.inj h)).1

theorem accepts_frame {s s' : Listener.State} {packet : Bytes} {routed : Routed}
    (h : s.next lib action = some (s', .accepted packet routed)) :
    (s.router.route lib s.channel packet).2 = .ok routed := by
  cases action with
  | frame frame =>
      simp only [Listener.State.next] at h
      split at h
      · have hreceive := Option.some.inj h
        rw [Listener.State.receive.eq_def] at hreceive
        split at hreceive
        · cases hreceive
        · rw [Listener.State.refuse] at hreceive
          split at hreceive <;> cases hreceive
        · split at hreceive
          · cases hreceive
          · split at hreceive
            · rw [Listener.State.refuse] at hreceive
              split at hreceive <;> cases hreceive
            · rename_i hroute
              obtain ⟨_, hout⟩ := Prod.mk.inj hreceive
              obtain ⟨rfl, rfl⟩ := Listener.Output.accepted.inj hout
              rw [hroute]
      · cases h
  | publish identities => cases h
  | complete number result =>
      simp only [Listener.State.next] at h
      split at h
      · split at h <;> cases h
      · cases h
  | respond | transmit size =>
      simp only [Listener.State.next] at h
      split at h <;> cases h
  | interrupt => cases h

/-- **Entries of the ledger.**  A packet that was answered at once has its answer in the
    ledger for good, and what was submitted is the packet itself. -/
theorem run_routed {ch : Channel} {router : ConnectionRouter} {h : List Listener.Label}
    {s : Listener.State} (hrun : Listener.ListenerRun lib ch router h s) :
    ∀ (number : Nat) (packet : Bytes) (routed : Routed),
      (accepted h)[number]? = some (packet, routed) →
      (∀ frame, routed = .ready frame → (Listener.ledger h)[number]? = some (some (.ok frame)))
        ∧ ∀ p context, routed = .submitted p context → p = packet := by
  induction hrun with
  | nil =>
      intro number packet routed hentry
      cases hentry
  | @snoc h s s' l hrun hs ih =>
      intro number packet routed hentry
      obtain ⟨action, output⟩ := l
      have hk : (⟨s, h⟩ : LocalConnection).Runs lib := ⟨ch, router, hrun⟩
      have hstep : (⟨s, h⟩ : LocalConnection).step lib action
          = some (⟨s', h ++ [(action, output)]⟩, output) := by
        rw [LocalConnection.step]
        dsimp only
        rw [hs.2]
      by_cases hown : ownStep action = true
      · obtain ⟨haccepted, hledger⟩ := own_step hown hstep
        dsimp only at haccepted hledger
        rw [haccepted] at hentry
        rw [hledger]
        rcases Nat.lt_or_ge number (accepted h).length with hlt | hge
        · rw [List.getElem?_append_left hlt] at hentry
          rw [List.getElem?_append_left (by rw [length_ledger hk]; exact hlt)]
          exact ih number packet routed hentry
        · rw [List.getElem?_append_right hge] at hentry
          rw [List.getElem?_append_right (by rw [length_ledger hk]; exact hge)]
          rw [List.getElem?_map, length_ledger hk, hentry]
          cases output with
          | accepted read route =>
              have hmem : (packet, routed) ∈ [(read, route)] := List.mem_of_getElem? hentry
              obtain ⟨rfl, rfl⟩ := Prod.mk.inj (List.mem_singleton.mp hmem)
              refine ⟨?_, ?_⟩
              · rintro frame rfl
                rfl
              · rintro p context rfl
                exact route_submitted (accepts_frame hs.2)
          | quiet | refused | responded => cases hentry
      · cases action with
        | publish identities =>
            rw [accepted_snoc] at hentry
            rw [Listener.ledger_snoc]
            have hquiet : output = .quiet := (Prod.mk.inj (Option.some.inj hs.2)).2.symm
            subst hquiet
            rw [show (accepts (Listener.Action.publish identities, Listener.Output.quiet)).toList
              = [] from rfl, List.append_nil] at hentry
            exact ih number packet routed hentry
        | complete place result =>
            obtain ⟨hpending, hledger, haccepted, _⟩ := complete_step hk hstep
            dsimp only at hpending hledger haccepted
            rw [haccepted] at hentry
            obtain ⟨hready, hsubmitted⟩ := ih number packet routed hentry
            refine ⟨?_, hsubmitted⟩
            intro frame hframe
            have hkept := hready frame hframe
            have hne : place ≠ number := by
              rintro rfl
              rw [hpending] at hkept
              cases hkept
            rw [hledger, List.getElem?_set_ne hne]
            exact hkept
        | frame | respond | transmit | interrupt => exact absurd rfl hown

/-! ## Inversion of a step -/

/-- The ways the daemon can step. -/
inductive HostStepped (lib : Library) (config : SessionConfig) (env : Environment) (s : Host) :
    HostAction → Host → List HostOutput → Prop where
  | refused {connection} : HostStepped lib config env s (.accept connection) s []
  | accepted {connection router} : s.connections connection = none →
      HostStepped lib config env s (.accept connection)
        (s.put connection ⟨.new s.identities.channel router, []⟩) []
  | published {identities} :
      HostStepped lib config env s (.publish identities)
        { s.each lib (.publish identities) with
          identities := s.identities.publish identities } []
  | acted {connection k action k' output} : s.connections connection = some k →
      ownStep action = true → k.step lib action = some (k', output) →
      HostStepped lib config env s (.act connection action)
        { s.put connection k' with tickets := s.tickets ++ issue connection k output }
        [.connection connection output]
  | sent {response t} : s.tickets[response]? = some t → t.sent = false →
      s.broker.stopped = false →
      HostStepped lib config env s (.submit response)
        { s.mark response t with queue := s.queue ++ [response] } []
  /-- A future yields: it finds the channel closed, or its receiver is ready. -/
  | completed {action response t k k' output result} : s.tickets[response]? = some t →
      s.connections t.connection = some k →
      (t.sent = false ∧ s.broker.stopped = true ∧ result = .error .unavailable)
        ∨ (t.sent = true ∧ s.received response = some result) →
      k.step lib (.complete t.number result) = some (k', output) →
      (∀ act, action ≠ .network act) →
      HostStepped lib config env s action ((s.put t.connection k').mark response t) []
  | served {action network outputs} : s.allows action = true →
      s.network.step config env action = some (network, outputs) →
      HostStepped lib config env s (.network action) (s.heard action network outputs)
        (outputs.map .network)
  | closed :
      HostStepped lib config env s .close { s.each lib .interrupt with serving := false } []

variable {config : SessionConfig} {env : Environment} {s s' : Host} {c : ConnectionId}
  {outputs : List HostOutput} {r : ResponseId} {t : Ticket}

theorem complete_eq_some {result : Except RequestError Bytes}
    (h : s.complete lib r t k result = some (s', outputs)) :
    ∃ k' output, k.step lib (.complete t.number result) = some (k', output)
      ∧ s' = (s.put t.connection k').mark r t ∧ outputs = [] := by
  rw [Host.complete] at h
  cases hstep : k.step lib (.complete t.number result) with
  | none =>
      rw [hstep] at h
      cases h
  | some next =>
      rw [hstep] at h
      obtain ⟨rfl, rfl⟩ := Prod.mk.inj (Option.some.inj h)
      exact ⟨next.1, next.2, rfl, rfl, rfl⟩

theorem polled_eq_some (h : s.polled t = some k) :
    s.connections t.connection = some k ∧ k.listener.phase = .selecting := by
  rw [Host.polled] at h
  split at h
  · rename_i k' hk
    split at h
    · rename_i hphase
      obtain rfl := Option.some.inj h
      exact ⟨hk, hphase⟩
    · cases h
  · cases h

/-- **Inversion of a step of the daemon.** -/
theorem host_step_cases {capacity : Nat} {action : HostAction}
    (h : s.step lib config env capacity action = some (s', outputs)) :
    HostStepped lib config env s action s' outputs := by
  cases action with
  | accept connection =>
      simp only [Host.step] at h
      split at h
      · rename_i hfree
        have hnone : s.connections connection = none := by
          obtain ⟨_, hnone⟩ := Bool.and_eq_true_iff.mp hfree
          exact Option.isNone_iff_eq_none.mp hnone
        split at h
        · cases h
          exact .refused
        · cases h
          exact .accepted hnone
      · cases h
  | publish identities =>
      cases h
      exact .published
  | act connection action =>
      simp only [Host.step] at h
      split at h
      · cases h
      · rename_i k hk
        split at h
        · rename_i hown
          split at h
          · cases h
          · rename_i hstep
            cases h
            exact .acted hk hown hstep
        · cases h
  | submit response =>
      simp only [Host.step] at h
      split at h
      · cases h
      · rename_i t ht
        split at h
        · cases h
        · rename_i k hpolled
          split at h
          · cases h
          · rename_i hsent
            have hunsent : t.sent = false := Bool.eq_false_iff.mpr hsent
            split at h
            · rename_i hstopped
              obtain ⟨k', output, hstep, rfl, rfl⟩ := complete_eq_some h
              exact .completed ht (polled_eq_some hpolled).1
                (Or.inl ⟨hunsent, hstopped, rfl⟩) hstep (by rintro act ⟨⟩)
            · rename_i hstopped
              split at h
              · cases h
                exact .sent ht hunsent (Bool.eq_false_iff.mpr hstopped)
              · cases h
  | settle response =>
      simp only [Host.step] at h
      split at h
      · cases h
      · rename_i t ht
        split at h
        · rename_i k result hpolled hreceived
          split at h
          · rename_i hsent
            obtain ⟨k', output, hstep, rfl, rfl⟩ := complete_eq_some h
            exact .completed ht (polled_eq_some hpolled).1 (Or.inr ⟨hsent, hreceived⟩) hstep
              (by rintro act ⟨⟩)
          · cases h
        · cases h
  | network action =>
      simp only [Host.step] at h
      split at h
      · rename_i hallows
        split at h
        · cases h
        · rename_i hstep
          cases h
          exact .served hallows hstep
      · cases h
  | close =>
      cases h
      exact .closed

/-! ## Every submitted packet has one ticket -/

/-- The seat of a packet with this number, if it was submitted. -/
def seatOf (connection : ConnectionId) : (Bytes × Routed) × Nat → Option Seat
  | ((_, .submitted packet context), number) => some ⟨connection, number, packet, context⟩
  | _ => none

/-- The seats of the packets that a connection accepted. -/
def seatsOf (connection : ConnectionId) (entries : List (Bytes × Routed)) : List Seat :=
  entries.zipIdx.filterMap (seatOf connection)

theorem mem_seatsOf {entries : List (Bytes × Routed)} {seat : Seat} :
    seat ∈ seatsOf c entries ↔ seat.connection = c
      ∧ ∃ packet, entries[seat.number]? = some (packet, .submitted seat.packet seat.context) := by
  rw [seatsOf, List.mem_filterMap]
  constructor
  · rintro ⟨⟨⟨packet, routed⟩, number⟩, hmem, hseat⟩
    cases routed with
    | ready frame => cases hseat
    | submitted p context =>
        obtain rfl := Option.some.inj hseat
        exact ⟨rfl, packet, List.mem_zipIdx_iff_getElem?.mp hmem⟩
  · rintro ⟨rfl, packet, hentry⟩
    exact ⟨((packet, .submitted seat.packet seat.context), seat.number),
      List.mem_zipIdx_iff_getElem?.mpr hentry, rfl⟩

theorem seatsOf_append (c : ConnectionId) (entries more : List (Bytes × Routed)) :
    seatsOf c (entries ++ more)
      = seatsOf c entries ++ (more.zipIdx entries.length).filterMap (seatOf c) := by
  rw [seatsOf, List.zipIdx_append, List.filterMap_append, Nat.zero_add]
  rfl

/-- No two packets of a connection have one number. -/
theorem seatsOf_pairwise (c : ConnectionId) (entries : List (Bytes × Routed)) :
    (seatsOf c entries).Pairwise (fun a b => a.number ≠ b.number) := by
  induction entries using List.reverseRecOn with
  | nil => exact List.Pairwise.nil
  | append_singleton entries entry ih =>
      rw [seatsOf_append, List.pairwise_append]
      refine ⟨ih, ?_, ?_⟩
      · cases hnew : seatOf c (entry, entries.length) <;> simp [hnew]
      · intro a ha b hb hsame
        obtain ⟨_, packet, hentry⟩ := mem_seatsOf.mp ha
        have hlast : b ∈ (seatOf c (entry, entries.length)).toList := by simpa using hb
        obtain ⟨packet', routed⟩ := entry
        cases routed with
        | ready frame => cases hlast
        | submitted p context =>
            obtain rfl := List.mem_singleton.mp hlast
            rw [List.getElem?_eq_none (Nat.le_of_eq hsame.symm)] at hentry
            cases hentry

/-- The submitted packets, by their oneshot channels. -/
def Host.seats (s : Host) : List Seat := s.tickets.map Ticket.toSeat

/-- The packets that a connection accepted. -/
def Host.packets (s : Host) (c : ConnectionId) : List (Bytes × Routed) :=
  match s.connections c with
  | some k => accepted k.history
  | none => []

/-- The tickets of a connection are its submitted packets, in arrival order. -/
structure Seated (lib : Library) (s : Host) : Prop where
  runs : ∀ c k, s.connections c = some k → k.Runs lib
  seats : ∀ c, s.seats.filter (fun seat => seat.connection = c) = seatsOf c (s.packets c)

theorem seated_new (broker : BrokerConfig) (pairing : PairingService) (identities : Identities) :
    Seated lib (.new broker pairing identities) where
  runs := fun _ _ hk => by cases hk
  seats := fun _ => rfl

theorem packets_of_some (hk : s.connections c = some k) : s.packets c = accepted k.history := by
  rw [Host.packets, hk]

theorem packets_put (s : Host) (c d : ConnectionId) (k : LocalConnection) :
    (s.put c k).packets d = if d = c then accepted k.history else s.packets d := by
  rw [Host.packets, Host.put]
  dsimp only
  by_cases hd : d = c
  · subst hd
    rw [Function.update_self, if_pos rfl]
  · rw [Function.update_of_ne hd, if_neg hd]
    rfl

/-- A connection steps without accepting a packet. -/
theorem packets_put_same {entries : List (Bytes × Routed)} (hbefore : s.packets c = entries)
    (hafter : accepted k'.history = entries) (d : ConnectionId) :
    (s.put c k').packets d = s.packets d := by
  rw [packets_put]
  split
  · rename_i hd
    rw [hafter, hd, hbefore]
  · rfl

theorem update_eq_some {f : ConnectionId → Option LocalConnection} {d : ConnectionId}
    {e : LocalConnection} (h : Function.update f c (some k') d = some e) :
    (d = c ∧ e = k') ∨ (d ≠ c ∧ f d = some e) := by
  by_cases hd : d = c
  · subst hd
    rw [Function.update_self] at h
    exact Or.inl ⟨rfl, (Option.some.inj h).symm⟩
  · rw [Function.update_of_ne hd] at h
    exact Or.inr ⟨hd, h⟩

theorem runs_put (hs : Seated lib s) (hk' : k'.Runs lib) :
    ∀ d e, (s.put c k').connections d = some e → e.Runs lib := by
  intro d e he
  rcases update_eq_some he with ⟨_, rfl⟩ | ⟨_, he⟩
  · exact hk'
  · exact hs.runs d e he

theorem seats_mark (ht : s.tickets[r]? = some t) :
    (s.mark r t).seats = s.seats := by
  obtain ⟨hlt, rfl⟩ := List.getElem?_eq_some_iff.mp ht
  have hlength : r < (s.tickets.map Ticket.toSeat).length := by
    rw [List.length_map]
    exact hlt
  rw [Host.seats, Host.mark, List.map_set]
  dsimp only
  rw [← List.getElem_map Ticket.toSeat]
  exact List.set_getElem_self hlength

/-- Steps that submit nothing. -/
theorem Seated.carry (hs : Seated lib s) (hseats : s'.seats = s.seats)
    (hpackets : ∀ c, s'.packets c = s.packets c)
    (hruns : ∀ c k, s'.connections c = some k → k.Runs lib) : Seated lib s' where
  runs := hruns
  seats := fun c => by rw [hseats, hpackets, hs.seats]

/-- All connections take a step that accepts nothing. -/
theorem Seated.each (hs : Seated lib s) {action : Listener.Action}
    (haction : action = .interrupt ∨ ∃ identities, action = .publish identities)
    (hseats : s'.seats = s.seats) (hconnections : s'.connections = (s.each lib action).connections) :
    Seated lib s' := by
  refine hs.carry hseats ?_ ?_
  · intro c
    rw [Host.packets, Host.packets, hconnections, Host.each]
    dsimp only
    cases hk : s.connections c with
    | none => rfl
    | some k => exact (after_step (hs.runs c k hk) haction).2.1
  · intro c k' hk'
    rw [hconnections] at hk'
    obtain ⟨k, hk, rfl⟩ := Option.map_eq_some_iff.mp hk'
    exact (after_step (hs.runs c k hk) haction).1

/-- The ticket of a step is the seat of the packet it submits. -/
theorem issue_seats (hk : k.Runs lib) (c : ConnectionId) (action : Listener.Action)
    (output : Listener.Output) :
    (issue c k output).map Ticket.toSeat
      = ((accepts (action, output)).toList.zipIdx (accepted k.history).length).filterMap
        (seatOf c) := by
  cases output with
  | accepted packet routed =>
      cases routed with
      | ready frame => rfl
      | submitted p context =>
          rw [issue, next_number hk]
          rfl
  | quiet | refused | responded => rfl

/-- **Step lemma of the tickets.** -/
theorem seated_acted (hs : Seated lib s) (hk : s.connections c = some k)
    (hown : ownStep action = true) (hstep : k.step lib action = some (k', output)) :
    Seated lib { s.put c k' with tickets := s.tickets ++ issue c k output } where
  runs := runs_put hs (runs_step (hs.runs c k hk) hstep)
  seats := by
    intro d
    have hnew := issue_seats (hs.runs c k hk) c action output
    have hpackets : ({ s.put c k' with tickets := s.tickets ++ issue c k output } : Host).packets d
        = if d = c then accepted k.history ++ (accepts (action, output)).toList
          else s.packets d := by
      rw [← (own_step hown hstep).1]
      exact packets_put s c d k'
    -- the new seats are all of this connection
    have hall : ∀ seat ∈ (issue c k output).map Ticket.toSeat, seat.connection = c := by
      intro seat hseat
      rw [hnew, List.mem_filterMap] at hseat
      obtain ⟨⟨⟨packet, routed⟩, number⟩, _, hseat⟩ := hseat
      cases routed with
      | ready frame => cases hseat
      | submitted p context =>
          obtain rfl := Option.some.inj hseat
          rfl
    rw [hpackets, Host.seats, List.map_append, List.filter_append]
    change s.seats.filter _ ++ _ = _
    rw [hs.seats]
    split
    · rename_i hd
      subst hd
      rw [seatsOf_append, ← hnew, packets_of_some hk,
        List.filter_eq_self.mpr (fun seat hseat => decide_eq_true (hall seat hseat))]
    · rename_i hd
      have hnone : ((issue c k output).map Ticket.toSeat).filter
          (fun seat => seat.connection = d) = [] := by
        refine List.filter_eq_nil_iff.mpr ?_
        intro seat hseat hsame
        exact hd ((of_decide_eq_true hsame).symm.trans (hall seat hseat))
      rw [hnone, List.append_nil]

theorem seated_step (hs : Seated lib s) {action : HostAction}
    (h : HostStepped lib config env s action s' outputs) : Seated lib s' := by
  cases h with
  | refused => exact hs
  | accepted hnone =>
      refine hs.carry rfl (packets_put_same ?_ rfl) (runs_put hs ⟨_, _, .nil⟩)
      rw [Host.packets, hnone]
      rfl
  | published => exact hs.each (Or.inr ⟨_, rfl⟩) rfl rfl
  | acted hk hown hstep => exact seated_acted hs hk hown hstep
  | sent ht _ _ => exact hs.carry (seats_mark ht) (fun _ => rfl) hs.runs
  | completed ht hk _ hstep _ =>
      have hrun := hs.runs _ _ hk
      exact hs.carry (seats_mark ht)
        (packets_put_same (packets_of_some hk) (complete_step hrun hstep).2.2.1)
        (runs_put hs (runs_step hrun hstep))
  | served _ _ => exact hs.carry rfl (fun _ => rfl) hs.runs
  | closed => exact hs.each (Or.inl rfl) rfl rfl

/-- A ticket is that of a packet its connection submitted. -/
theorem Seated.issued (hs : Seated lib s) {seat : Seat} (hseat : s.seats[r]? = some seat) :
    ∃ k packet, s.connections seat.connection = some k
      ∧ (accepted k.history)[seat.number]? = some (packet, .submitted seat.packet seat.context) := by
  have hmem : seat ∈ s.seats.filter (fun other => other.connection = seat.connection) :=
    List.mem_filter.mpr ⟨List.mem_of_getElem? hseat, decide_eq_true rfl⟩
  rw [hs.seats] at hmem
  obtain ⟨_, packet, hentry⟩ := mem_seatsOf.mp hmem
  cases hk : s.connections seat.connection with
  | none =>
      rw [Host.packets, hk] at hentry
      cases hentry
  | some k => exact ⟨k, packet, rfl, packets_of_some hk ▸ hentry⟩

/-- No two tickets are for one packet. -/
theorem Seated.single (hs : Seated lib s) {r' : ResponseId} {a b : Seat}
    (ha : s.seats[r]? = some a) (hb : s.seats[r']? = some b)
    (hconnection : a.connection = b.connection) (hnumber : a.number = b.number) : r = r' := by
  have hpairs := List.pairwise_filter.mp (hs.seats b.connection ▸ seatsOf_pairwise _ _)
  have hdiffer : ∀ {i j : Nat} {x y : Seat}, i < j → s.seats[i]? = some x →
      s.seats[j]? = some y → x.connection = b.connection → y.connection = b.connection →
      x.number ≠ y.number := by
    intro i j x y hlt hx hy hxc hyc
    obtain ⟨hi, rfl⟩ := List.getElem?_eq_some_iff.mp hx
    obtain ⟨hj, rfl⟩ := List.getElem?_eq_some_iff.mp hy
    exact List.pairwise_iff_getElem.mp hpairs i j hi hj hlt (decide_eq_true hxc)
      (decide_eq_true hyc)
  rcases Nat.lt_trichotomy r r' with hlt | heq | hgt
  · exact absurd hnumber (hdiffer hlt ha hb hconnection rfl)
  · exact heq
  · exact absurd hnumber.symm (hdiffer hgt hb ha rfl hconnection)

/-- Every packet that was submitted has a ticket. -/
theorem Seated.ticketed (hs : Seated lib s) (hk : s.connections c = some k) {number : Nat}
    {packet p : Bytes} {context : Option RequestContext}
    (hentry : (accepted k.history)[number]? = some (packet, .submitted p context)) :
    ∃ r : ResponseId, s.seats[r]? = some ⟨c, number, p, context⟩ := by
  have hmem : (⟨c, number, p, context⟩ : Seat) ∈ seatsOf c (s.packets c) :=
    mem_seatsOf.mpr ⟨rfl, packet, packets_of_some hk ▸ hentry⟩
  rw [← hs.seats] at hmem
  exact List.getElem?_of_mem (List.mem_filter.mp hmem).1

/-! ## What the broker does in a step of the network -/

/-- Only the broker answers local callers. -/
theorem acted_unanswered {p : PairingService} {stopped : Bool} {link : LinkId} {t : Task}
    {action : TaskAction} {r : TaskResult} (h : Acted config p stopped link t action r)
    {response : ResponseId} {result : Except RequestError Bytes} :
    ServerOutput.answered response result ∉ r.outputs := by
  intro ho
  cases h with
  | rejected _ _ | refused _ _ | responded _ | forwarded _ _ | beat _ | authorized _ _ =>
      cases (List.mem_singleton.mp ho)
  | received _ | ended _ | broke _ _ | posted _ _ _ | ponged _ | updated _ _ _
  | connected _ _ _ | unavailable _ | registered _ _ | unanswered _ | disconnected _
  | dropped _ => cases ho

/-- How a turn names its input. -/
def Names (action : NetworkAction) (t : Turn) : Prop :=
  ((∃ command session_id, t.input = .command command session_id)
      ∧ ∀ input sends now, action ≠ .server (.turn input sends now))
    ∨ action = .server (.turn t.input t.sends t.now)

/-- What a step of the network is for the broker: nothing, or a turn. -/
inductive Turned (n : Network) (action : NetworkAction) (n' : Network)
    (outputs : List NetworkOutput) : Prop where
  | idle : n'.server.broker = n.server.broker →
      (∀ response, outputs.findSome? (answerTo response) = none) →
      (∀ input sends now, action ≠ .server (.turn input sends now)) → Turned n action n' outputs
  | turn {t outs} : n.server.broker.step t = some (n'.server.broker, outs) →
      outputs = (outs.filterMap external).map .server →
      Names action t → Turned n action n' outputs

theorem not_answer {response : ResponseId} {outputs : List ServerOutput}
    (h : ∀ result, ServerOutput.answered response result ∉ outputs) :
    (outputs.map NetworkOutput.server).findSome? (answerTo response) = none := by
  refine List.findSome?_eq_none_iff.mpr ?_
  intro o ho
  obtain ⟨output, houtput, rfl⟩ := List.mem_map.mp ho
  cases output with
  | answered other result =>
      refine if_neg ?_
      rintro rfl
      exact h result houtput
  | sent | authorized | woke | stopped => rfl

theorem stepped_turned {n m : Network} {action : Serve.Action} {server : Server}
    {outputs : List ServerOutput} (hserver : m.server = server)
    (hs : Stepped config n.server action server outputs) :
    Turned n (.server action) m (outputs.map .server) := by
  cases hs with
  | accepted | cleared | stopping =>
      exact .idle (by rw [hserver]) (fun _ => rfl) (by rintro _ _ _ ⟨⟩)
  | acted _ hact =>
      exact .idle (by rw [hserver]) (fun _ => not_answer (fun _ => acted_unanswered hact))
        (by rintro _ _ _ ⟨⟩)
  | @turned _ _ input sends now _ _ hinput _ hb =>
      refine @Turned.turn _ _ _ _ ⟨input, now, sends⟩ _ (by rw [hserver]; exact hb) rfl ?_
      rcases hinput with ⟨command, session_id, rfl, rfl, _⟩ | ⟨_, _, rfl, _⟩
      · exact Or.inl ⟨⟨command, session_id, rfl⟩, by rintro _ _ _ ⟨⟩⟩
      · exact Or.inr rfl

theorem ran_turned {n n' : Network} {action : NetworkAction} {outputs : List NetworkOutput}
    (h : Ran config env n action n' outputs) : Turned n action n' outputs := by
  have hclient : ∀ (id : ClientId) (outputs : List ClientOutput) (response : ResponseId),
      (outputs.map (NetworkOutput.client id)).findSome? (answerTo response) = none := by
    intro id outputs response
    refine List.findSome?_eq_none_iff.mpr ?_
    intro o ho
    obtain ⟨output, _, rfl⟩ := List.mem_map.mp ho
    rfl
  cases h with
  | heard _ hs => exact stepped_turned rfl hs
  | served _ _ hs => exact stepped_turned rfl hs
  | pushed => exact .idle rfl (fun _ => rfl) (by rintro _ _ _ ⟨⟩)
  | took | moved => exact .idle rfl (hclient _ _) (by rintro _ _ _ ⟨⟩)

end Daemon
