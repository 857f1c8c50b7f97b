import AgentWitness.DaemonTicketProofs

/-! # From a local packet to a browser's handler and back

    Along every run of the daemon in which the request ids that are drawn differ, a packet
    that was submitted is in exactly one place, and a response that a connection hands to
    its peer is either the router's own or WHAT A BROWSER'S HANDLER RESOLVED TO FOR THAT
    PACKET and its context.  Nothing is answered twice, nothing is answered to another
    packet or to another connection, and no request outlives its connection without the
    broker being told. -/

namespace DaemonRun

open Packet KeyedMap BrokerModel BrokerInvariant BrokerCompletion BrokerCorrelation BrokerTask
open BrokerLedger BrokerTrace RemoteProtocol Pairing Serve Session Handshake RemoteClient
open ClientFlow Wire EndToEnd Transition RequestRouter BrokerReceipt Daemon DaemonTicket

variable {lib : Library} {config : SessionConfig} {env : Environment} {capacity : Nat}
  {broker : BrokerConfig} {pairing : PairingService} {identities : Identities}
  {h : List HostLabel} {s s' : Host} {r : ResponseId} {t : Ticket} {n n' network : Network}
  {action : NetworkAction} {outputs : List NetworkOutput}

/-! ## The network inside a run of the daemon -/

def networkOutput : HostOutput → Option NetworkOutput
  | .network output => some output
  | .connection _ _ => none

/-- What the network sees of a step. -/
def networkLabel : HostLabel → Option (NetworkAction × List NetworkOutput)
  | (.network action, outputs) => some (action, outputs.filterMap networkOutput)
  | _ => none

theorem filterMap_networkOutput (outputs : List NetworkOutput) :
    (outputs.map HostOutput.network).filterMap networkOutput = outputs := by
  rw [List.filterMap_map]
  exact List.filterMap_some

/-- A step of the daemon is one of the network, or leaves it alone. -/
theorem stepped_network {action : HostAction} {outputs : List HostOutput}
    (hs : HostStepped lib config env s action s' outputs) :
    (∃ act outs, action = .network act ∧ outputs = outs.map .network
        ∧ s.allows act = true ∧ s.network.step config env act = some (s'.network, outs)
        ∧ s'.cancellations = s.cancellationsAfter act ∧ s'.answered = hear s.answered outs)
      ∨ ((∀ act, action ≠ .network act) ∧ s'.network = s.network
        ∧ s'.cancellations = s.cancellations ∧ s'.answered = s.answered) := by
  cases hs with
  | served hallows hstep => exact Or.inl ⟨_, _, rfl, rfl, hallows, hstep, rfl, rfl⟩
  | completed _ _ _ _ hnot => exact Or.inr ⟨hnot, rfl, rfl, rfl⟩
  | refused | accepted _ | published | acted _ _ _ | sent _ _ _ | closed =>
      exact Or.inr ⟨by rintro act ⟨⟩, rfl, rfl, rfl⟩

/-- **The network of the daemon takes a run of its own.** -/
theorem host_network
    (hrun : HostRun lib config env capacity broker pairing identities h s) :
    NetworkRun config env (fun _ _ => True) broker pairing (h.filterMap networkLabel)
      s.network := by
  induction hrun with
  | nil => exact .nil
  | @snoc h s s' l _ hstep ih =>
      obtain ⟨action, outputs⟩ := l
      rw [List.filterMap_append]
      rcases stepped_network (host_step_cases hstep.2) with
        ⟨act, outs, rfl, rfl, _, hnext, _⟩ | ⟨hnot, hsame, _⟩
      · have hlabel : [((.network act, outs.map .network) : HostLabel)].filterMap networkLabel
            = [(act, outs)] := by
          rw [List.filterMap_cons_some (by rfl), List.filterMap_nil, filterMap_networkOutput]
        rw [hlabel]
        exact .snoc ih ⟨trivial, hnext⟩
      · have hlabel : [(action, outputs)].filterMap networkLabel = [] := by
          cases action with
          | network act => exact absurd rfl (hnot act)
          | accept | publish | act | submit | settle | close => rfl
        rw [hlabel, List.append_nil, hsame]
        exact ih

/-- What the network's record has was put out in the run. -/
theorem observed_log (hrun : HostRun lib config env capacity broker pairing identities h s)
    {o : NetworkOutput} (ho : o ∈ s.network.log) : Observed h (.network o) := by
  obtain ⟨label, hlabel, hout⟩ := (run_log (host_network hrun) o).mp ho
  obtain ⟨l, hl, hsome⟩ := List.mem_filterMap.mp hlabel
  obtain ⟨action, outputs⟩ := l
  cases action with
  | network act =>
      obtain rfl := Option.some.inj hsome
      obtain ⟨output, houtput, hnetwork⟩ := List.mem_filterMap.mp hout
      cases output with
      | network other =>
          obtain rfl := Option.some.inj hnetwork
          exact ⟨_, hl, houtput⟩
      | connection connection other => cases hnetwork
  | accept | publish | act | submit | settle | close => cases hsome

/-- The seats of submitted packets stay. -/
theorem seat_stays {action : HostAction} {outputs : List HostOutput}
    (hs : HostStepped lib config env s action s' outputs) {seat : Seat}
    (hseat : s.seats[r]? = some seat) : s'.seats[r]? = some seat := by
  have hkeep : s'.seats = s.seats → s'.seats[r]? = some seat := fun hsame => hsame ▸ hseat
  cases hs with
  | acted _ _ _ =>
      rw [Host.seats, List.map_append]
      exact (List.getElem?_append_left (List.getElem?_eq_some_iff.mp hseat).1).trans hseat
  | sent ht _ _ => exact hkeep (seats_mark ht)
  | completed ht _ _ _ _ => exact hkeep (seats_mark ht)
  | refused | accepted _ | published | served _ _ | closed => exact hseat

/-- The ticket of a packet that was submitted. -/
theorem ticket_of_submitted (hs : Seated lib s) {c : ConnectionId} {k : LocalConnection}
    (hk : s.connections c = some k) {number : Nat} {packet p : Bytes}
    {context : Option RequestContext}
    (haccepted : (accepted k.history)[number]? = some (packet, .submitted p context)) :
    ∃ (r : ResponseId) (t : Ticket), s.tickets[r]? = some t ∧ t.connection = c
      ∧ t.number = number ∧ t.packet = p ∧ t.context = context := by
  obtain ⟨r, hseat⟩ := hs.ticketed hk haccepted
  rw [Host.seats, List.getElem?_map] at hseat
  obtain ⟨t, ht, hsame⟩ := Option.map_eq_some_iff.mp hseat
  exact ⟨r, t, ht, congrArg Seat.connection hsame, congrArg Seat.number hsame,
    congrArg Seat.packet hsame, congrArg Seat.context hsame⟩

/-! ## What is known of a request -/

/-- A browser's handler resolved to the packet for a request with this content. -/
def Consented (log : List NetworkOutput) (packet : Bytes) (context : Option RequestContext)
    (response : Bytes) : Prop :=
  ∃ client link request,
    NetworkOutput.client client (.handling link request) ∈ log ∧
    NetworkOutput.client client (.resolved link request response) ∈ log ∧
    request.packet = packet ∧ request.context = context

/-- The broker was told that the caller of a request is gone. -/
def Told (h : List HostLabel) (id : RequestId) : Prop :=
  ∃ l ∈ h, ∃ sends now, l.1 = .network (.server (.turn (.cancelled id) sends now))

/-- What is known of the requests with the broker and of the answers. -/
structure Known (h : List HostLabel) (s : Host) : Prop where
  waiting : ∀ id r, s.broker.actor.waiters.get? id = some r →
    ∃ seat m, s.seats[r]? = some seat ∧ SubmittedAs s.broker.actor.calls id m
      ∧ m.packet = seat.packet ∧ m.context = seat.context
  cancelling : ∀ id r, s.broker.actor.waiters.get? id = some r →
    (id, r) ∈ s.cancellations ∨ Told h id
  explained : ∀ r packet, s.answered r = some (.ok packet) →
    ∃ seat, s.seats[r]? = some seat
      ∧ Consented s.network.log seat.packet seat.context packet

theorem known_new : Known [] (.new broker pairing identities) where
  waiting := fun _ _ hw => by cases hw
  cancelling := fun _ _ hw => by cases hw
  explained := fun _ _ ha => by cases ha

theorem Told.snoc {id : RequestId} (ht : Told h id) (l : HostLabel) : Told (h ++ [l]) id := by
  obtain ⟨l', hl', htold⟩ := ht
  exact ⟨l', List.mem_append_left _ hl', htold⟩

/-- Steps that are none of the network keep what is known. -/
theorem Known.keep (hk : Known h s) {action : HostAction} {outputs : List HostOutput}
    (hs : HostStepped lib config env s action s' outputs) (hnetwork : s'.network = s.network)
    (hcancellations : s'.cancellations = s.cancellations) (hanswered : s'.answered = s.answered) :
    Known (h ++ [(action, outputs)]) s' := by
  constructor
  · intro id r hw
    rw [Host.broker, hnetwork] at hw ⊢
    obtain ⟨seat, m, hseat, hrest⟩ := hk.waiting id r hw
    exact ⟨seat, m, seat_stays hs hseat, hrest⟩
  · intro id r hw
    rw [Host.broker, hnetwork] at hw
    rw [hcancellations]
    exact (hk.cancelling id r hw).imp_right (fun ht => ht.snoc _)
  · intro r packet ha
    rw [hanswered] at ha
    rw [hnetwork]
    obtain ⟨seat, hseat, hrest⟩ := hk.explained r packet ha
    exact ⟨seat, seat_stays hs hseat, hrest⟩

/-- The network's record grows by what a step puts out. -/
theorem ran_log (hr : Ran config env n action n' outputs) : n'.log = n.log ++ outputs := by
  cases hr with
  | heard _ _ | served _ _ _ | pushed | took | moved => rfl

theorem Consented.mono {log log' : List NetworkOutput} {packet response : Bytes}
    {context : Option RequestContext} (hc : Consented log packet context response)
    (hsub : ∀ o ∈ log, o ∈ log') : Consented log' packet context response := by
  obtain ⟨client, link, request, hhandling, hresolved, hrest⟩ := hc
  exact ⟨client, link, request, hsub _ hhandling, hsub _ hresolved, hrest⟩

theorem answerTo_eq_some {o : NetworkOutput} {result : Except RequestError Bytes}
    (ho : answerTo r o = some result) :
    o = .server (.answered r result) := by
  rw [answerTo.eq_def] at ho
  split at ho
  · split at ho
    · rename_i heq
      obtain rfl := Option.some.inj ho
      rw [heq]
    · cases ho
  · cases ho

/-- A packet is answered only from a response in the mailbox, for a request that waits. -/
theorem ran_answered (hr : Ran config env n action n' outputs) {packet : Bytes}
    (ho : .server (.answered r (.ok packet)) ∈ outputs) :
    ∃ session_id id attempt, .response session_id id attempt packet ∈ n.server.mailbox
      ∧ n.server.broker.actor.waiters.get? id = some r := by
  have hserver : ∀ {act server outs}, Stepped config n.server act server outs →
      .server (.answered r (.ok packet)) ∈ outs.map NetworkOutput.server →
      ∃ session_id id attempt, .response session_id id attempt packet ∈ n.server.mailbox
        ∧ n.server.broker.actor.waiters.get? id = some r := by
    intro act server outs hs hmem
    obtain ⟨o, ho, heq⟩ := List.mem_map.mp hmem
    obtain rfl := NetworkOutput.server.inj heq
    obtain ⟨session_id, id, attempt, hmail, hw, _⟩ := stepped_answered hs ho
    exact ⟨session_id, id, attempt, hmail, hw⟩
  cases hr with
  | heard _ hs => exact hserver hs ho
  | served _ _ hs => exact hserver hs ho
  | pushed => cases ho
  | took | moved =>
      obtain ⟨o, _, heq⟩ := List.mem_map.mp ho
      cases heq

section Step

variable (hrun : HostRun lib config env capacity broker pairing identities h s) (hk : Known h s)
  (hfresh : (submittedIds s.broker.actor.calls).Nodup)

include hrun hk hfresh

/-- **Answers are consents.**  What the broker answers to a waiter is what a handler
    resolved to, for the packet and the context of the waiter's seat. -/
theorem answered_consented (hr : Ran config env s.network action network outputs)
    {packet : Bytes} (ho : .server (.answered r (.ok packet)) ∈ outputs) :
    ∃ seat, s.seats[r]? = some seat
      ∧ Consented s.network.log seat.packet seat.context packet := by
  obtain ⟨_, hfaithful⟩ := run_preserves (client_faithful env) (server_faithful config)
    (faithful_new broker pairing) (host_network hrun)
  obtain ⟨session_id, id, attempt, hmail, hw⟩ := ran_answered hr ho
  obtain ⟨seat, m, hseat, hsubmitted, hpacket, hcontext⟩ := hk.waiting id r hw
  obtain ⟨link, _, client, request, hhandling, hresolved, hid, _, _, _, hdispatched⟩ :=
    hfaithful.posted session_id id attempt packet hmail
  -- the request on the wire and the one that waits were submitted under one id
  obtain ⟨deadline, hsame⟩ :=
    run_dispatch_submitted (run_asked (host_network hrun)).1 hdispatched
  rw [hid] at hsame
  obtain rfl := hsubmitted.unique hfresh hsame
  exact ⟨seat, hseat, client, link, request, hhandling, hresolved, hpacket, hcontext⟩

/-- A step of the network keeps what is known. -/
theorem known_served (hallows : s.allows action = true)
    (hstep : s.network.step config env action = some (network, outputs)) :
    Known (h ++ [(.network action, outputs.map .network)]) (s.heard action network outputs) := by
  have hran := network_step_cases (run_grounded (host_network hrun)).sane hstep
  have hlog := ran_log hran
  -- the waiters after the step, and what was recorded of them
  have hwaits : ∀ id r, network.server.broker.actor.waiters.get? id = some r →
      (s.broker.actor.waiters.get? id = some r
        ∧ (∀ c ∈ s.broker.actor.calls, c ∈ network.server.broker.actor.calls))
      ∨ ∃ request requested_at sends now,
        action = .server (.turn (.localRequest request id requested_at) sends now)
          ∧ request.response = r
          ∧ ∃ deadline stamp, SubmittedAs network.server.broker.actor.calls id
            ⟨request.packet, request.context, deadline, unix_milliseconds requested_at, stamp⟩ := by
    intro id r hw
    cases ran_turned hran with
    | idle hsame _ _ =>
        rw [hsame] at hw ⊢
        exact Or.inl ⟨hw, fun _ hc => hc⟩
    | @turn t outs hb _ hnames =>
        have hcauses := step_causes hb
        rcases hcauses.waiting id r hw with hold | ⟨request, requested_at, hin, hresponse⟩
        · exact Or.inl ⟨hold, fun _ hc => hcauses.continues.mem hc⟩
        · rcases hnames with ⟨⟨command, session_id, hcommand⟩, _⟩ | haction
          · rw [hcommand] at hin
            cases hin
          · obtain ⟨c, more, hcalls, hevent⟩ := hcauses.recorded _ (by rw [eventFor, hin])
            refine Or.inr ⟨request, requested_at, t.sends, t.now, hin ▸ haction, hresponse, _, _,
              c, ?_, hevent⟩
            rw [hcalls]
            exact List.mem_append_right _ (List.mem_cons_self ..)
  constructor
  · intro id r hw
    rcases hwaits id r hw with ⟨hold, hcalls⟩ |
      ⟨request, requested_at, sends, now, rfl, rfl, deadline, stamp, hsubmitted⟩
    · obtain ⟨seat, m, hseat, hsubmitted, hrest⟩ := hk.waiting id r hold
      exact ⟨seat, m, hseat, hsubmitted.mono hcalls, hrest⟩
    · have hfeeds : s.feeds (.localRequest request id requested_at) = true := hallows
      obtain ⟨rest, t, _, ht, hpacket, hcontext⟩ := feeds_request hfeeds
      exact ⟨t.toSeat, _, seat_of_ticket ht, hsubmitted, hpacket, hcontext⟩
  · intro id r hw
    rcases hwaits id r hw with ⟨hold, _⟩ | ⟨request, requested_at, sends, now, rfl, rfl, _⟩
    · rcases hk.cancelling id r hold with hmem | htold
      · change (id, r) ∈ s.cancellationsAfter action ∨ _
        rw [Host.cancellationsAfter.eq_def]
        split
        · exact Or.inl (List.mem_append_left _ hmem)
        · rename_i other sends now
          by_cases hid : id = other
          · subst hid
            exact Or.inr ⟨_, List.mem_append_right _ (List.mem_singleton.mpr rfl), sends, now, rfl⟩
          · exact Or.inl (List.mem_filter.mpr ⟨hmem, decide_eq_true hid⟩)
        · exact Or.inl hmem
      · exact Or.inr (htold.snoc _)
    · exact Or.inl (List.mem_append_right _ (List.mem_singleton.mpr rfl))
  · intro r packet ha
    change hear s.answered outputs r = _ at ha
    change ∃ seat, s.seats[r]? = some seat ∧ Consented network.log seat.packet seat.context packet
    rw [hlog]
    have hmono : ∀ {seat : Seat}, Consented s.network.log seat.packet seat.context packet →
        Consented (s.network.log ++ outputs) seat.packet seat.context packet :=
      fun hc => hc.mono (fun _ ho => List.mem_append_left _ ho)
    cases hr : s.answered r with
    | some result =>
        rw [hear_of_some hr] at ha
        obtain ⟨seat, hseat, hconsent⟩ := hk.explained r packet (hr.trans ha)
        exact ⟨seat, hseat, hmono hconsent⟩
    | none =>
        rw [hear_of_none hr] at ha
        obtain ⟨o, ho, hanswer⟩ := List.exists_of_findSome?_eq_some ha
        obtain rfl := answerTo_eq_some hanswer
        obtain ⟨seat, hseat, hconsent⟩ := answered_consented hrun hk hfresh hran ho
        exact ⟨seat, hseat, hmono hconsent⟩

/-- **Step lemma of what is known.** -/
theorem known_step {action : HostAction} {outputs : List HostOutput}
    (hs : HostStepped lib config env s action s' outputs) :
    Known (h ++ [(action, outputs)]) s' := by
  have hstep := hs
  cases hs with
  | served hallows hnext => exact known_served hrun hk hfresh hallows hnext
  | refused | accepted _ | published | acted _ _ _ | sent _ _ _ | completed _ _ _ _ _ | closed =>
      exact hk.keep hstep rfl rfl rfl

end Step

/-! ## Runs -/

theorem ran_continues (hr : Ran config env n action n' outputs) :
    Continues n.server.broker.actor n'.server.broker.actor := by
  cases ran_turned hr with
  | idle hsame _ _ => exact hsame ▸ Continues.refl _
  | turn hb _ _ => exact (step_causes hb).continues

theorem continues_fresh {a a' : BrokerActor} (hc : Continues a a')
    (hfresh : (submittedIds a'.calls).Nodup) : (submittedIds a.calls).Nodup := by
  obtain ⟨more, hcalls, _⟩ := hc
  rw [hcalls] at hfresh
  exact fresh_of_append hfresh

theorem submitted_mem_ids {calls : List Call} {id : RequestId} {m : Submission}
    (hs : SubmittedAs calls id m) : id ∈ submittedIds calls := by
  obtain ⟨c, hc, hevent⟩ := hs
  exact List.mem_filterMap.mpr ⟨c, hc, by rw [hevent]; rfl⟩

/-- An id that is drawn only once is not waited for when it is drawn. -/
theorem drawn_fresh (hk : Known h s) (hr : Ran config env s.network action network outputs)
    (hfresh : (submittedIds network.server.broker.actor.calls).Nodup) :
    Fresh s (.network action) := by
  rw [Fresh.eq_def]
  split
  · rename_i request id requested_at sends now haction
    obtain rfl := HostAction.network.inj haction
    cases hw : s.broker.actor.waiters.get? id with
    | none => rfl
    | some r =>
        exfalso
        cases ran_turned hr with
        | idle _ _ hnot => exact hnot _ _ _ rfl
        | @turn t outs hb _ hnames =>
            rcases hnames with ⟨_, hnot⟩ | haction
            · exact hnot _ _ _ rfl
            · have hin : t.input = .localRequest request id requested_at :=
                (Serve.Action.turn.inj (NetworkAction.server.inj haction)).1.symm
              obtain ⟨_, _, _, hsubmitted, _⟩ := hk.waiting id r hw
              obtain ⟨c, more, hcalls, hevent⟩ :=
                (step_causes hb).recorded _ (by rw [eventFor, hin])
              rw [hcalls, submittedIds_append] at hfresh
              refine (List.nodup_append.mp hfresh).2.2 id (submitted_mem_ids hsubmitted) id ?_ rfl
              exact List.mem_filterMap.mpr ⟨c, List.mem_cons_self .., by rw [hevent]; rfl⟩
  · trivial

/-- **Run lemma of the daemon.** -/
theorem run_known (hrun : HostRun lib config env capacity broker pairing identities h s)
    (hfresh : (submittedIds s.broker.actor.calls).Nodup) :
    Seated lib s ∧ Placed s ∧ Known h s := by
  induction hrun with
  | nil => exact ⟨seated_new .., placed_new .., known_new⟩
  | @snoc h s s' l hrun hstep ih =>
      obtain ⟨action, outputs⟩ := l
      have hs := host_step_cases hstep.2
      have hsane := (run_grounded (host_network hrun)).sane
      -- the ids drawn before differ, and the one drawn now is not waited for
      have hbefore : (submittedIds s.broker.actor.calls).Nodup
          ∧ (Known h s → Fresh s action) := by
        rcases stepped_network hs with ⟨act, outs, rfl, _, _, hnext, _⟩ | ⟨hnot, hnetwork, _⟩
        · have hran := network_step_cases hsane hnext
          exact ⟨continues_fresh (ran_continues hran) hfresh,
            fun hknown => drawn_fresh hknown hran hfresh⟩
        · rw [Host.broker, hnetwork] at hfresh
          refine ⟨hfresh, fun _ => ?_⟩
          cases action with
          | network act => exact absurd rfl (hnot act)
          | accept | publish | act | submit | settle | close => trivial
      obtain ⟨hseated, hplaced, hknown⟩ := ih hbefore.1
      exact ⟨seated_step hseated hs, placed_step hplaced hseated hsane (hbefore.2 hknown) hs,
        known_step hrun hknown hbefore.1 hs⟩

/-! ## Places of a packet -/

/-- Where the request of a submitted packet can be. -/
inductive Place where
  | unsent
  | queued
  | waiting (id : RequestId)
  | answered (result : Except RequestError Bytes)
  /-- Its sender went with the channel when the broker stopped. -/
  | dropped

/-- The request is at this place. -/
def At (s : Host) (r : ResponseId) (t : Ticket) : Place → Prop
  | .unsent => t.sent = false
  | .queued => r ∈ s.queue
  | .waiting id => s.broker.actor.waiters.get? id = some r
  | .answered result => s.answered r = some result
  | .dropped => s.broker.stopped = true ∧ t.sent = true ∧ r ∉ s.queue
      ∧ (∀ id, s.broker.actor.waiters.get? id ≠ some r) ∧ s.answered r = none

/-- A sender is kept under at most as many ids as are counted. -/
theorem count_keeps_pos {waiters : Map RequestId ResponseId} {id : RequestId}
    (hw : waiters.get? id = some r) : (waiters.erase id).count (keeps r) + 1
      = waiters.count (keeps r) := by
  have hcount := count_erase waiters (keeps r) hw
  rwa [if_pos (show keeps r (id, r) = true from decide_eq_true rfl)] at hcount

theorem exists_of_count_keeps {waiters : Map RequestId ResponseId}
    (hpos : 0 < waiters.count (keeps r)) : ∃ id, waiters.get? id = some r := by
  obtain ⟨e, he, hkeeps⟩ := List.countP_pos_iff.mp hpos
  refine ⟨e.1, (mem_entries_iff waiters e.1 r).mp ?_⟩
  rw [← show e.2 = r from of_decide_eq_true hkeeps]
  exact he

/-- A request that was sent and is nowhere went with the broker. -/
theorem dropped_of_nowhere (hp : Placed s) (ht : s.tickets[r]? = some t) (hsent : t.sent = true)
    (hzero : places s r = 0) :
    At s r t .dropped := by
  have hparts := hzero
  rw [places] at hparts
  refine ⟨?_, hsent, ?_, ?_, ?_⟩
  · cases hstopped : s.broker.stopped with
    | true => rfl
    | false =>
        -- while the broker runs no ticket is nowhere
        have hone := hp.kept hstopped r
        rw [unsent_of_some ht, issued_of_some ht, hsent, hzero] at hone
        cases hone
  · exact List.count_eq_zero.mp (by omega)
  · intro id hw
    have hcount := count_keeps_pos hw
    omega
  · cases hanswered : s.answered r with
    | none => rfl
    | some result =>
        rw [hanswered, Option.isSome_some, Bool.toNat_true] at hparts
        omega

theorem exists_place (hp : Placed s) (ht : s.tickets[r]? = some t) : ∃ place, At s r t place := by
  cases hsent : t.sent with
  | false => exact ⟨.unsent, hsent⟩
  | true =>
      by_cases hqueue : r ∈ s.queue
      · exact ⟨.queued, hqueue⟩
      by_cases hwaits : 0 < s.broker.actor.waiters.count (keeps r)
      · obtain ⟨id, hw⟩ := exists_of_count_keeps hwaits
        exact ⟨.waiting id, hw⟩
      cases hanswered : s.answered r with
      | some result => exact ⟨.answered result, hanswered⟩
      | none =>
          refine ⟨.dropped, dropped_of_nowhere hp ht hsent ?_⟩
          rw [places, hanswered, List.count_eq_zero.mpr hqueue, Nat.eq_zero_of_not_pos hwaits]
          rfl

/-- What a place counts. -/
def tally (s : Host) (r : ResponseId) (t : Ticket) : Place → Nat
  | .unsent => (!t.sent).toNat
  | .queued => s.queue.count r
  | .waiting _ => s.broker.actor.waiters.count (keeps r)
  | .answered _ => (s.answered r).isSome.toNat
  | .dropped => 0

theorem tally_pos {place : Place} (hat : At s r t place) :
    place = .dropped ∨ 0 < tally s r t place := by
  cases place with
  | dropped => exact Or.inl rfl
  | unsent =>
      right
      rw [tally, show t.sent = false from hat]
      exact Nat.one_pos
  | queued => exact Or.inr (List.count_pos_iff.mpr hat)
  | waiting id =>
      right
      rw [tally, ← count_keeps_pos hat]
      exact Nat.succ_pos _
  | answered result =>
      right
      rw [tally, show s.answered r = some result from hat]
      exact Nat.one_pos

theorem place_unique (hp : Placed s) (ht : s.tickets[r]? = some t) {a b : Place}
    (ha : At s r t a) (hb : At s r t b) : a = b := by
  have honce := hp.once r
  rw [unsent_of_some ht, issued_of_some ht, places] at honce
  have hdropped : ∀ {place}, At s r t place → At s r t .dropped → place = .dropped := by
    rintro place hat ⟨_, hsent, hqueue, hwaits, hanswered⟩
    cases place with
    | dropped => rfl
    | unsent =>
        have hunsent : t.sent = false := hat
        rw [hsent] at hunsent
        cases hunsent
    | queued => exact absurd hat hqueue
    | waiting id => exact absurd hat (hwaits id)
    | answered result =>
        have hsome : s.answered r = some result := hat
        rw [hanswered] at hsome
        cases hsome
  rcases tally_pos ha with rfl | hpos
  · exact (hdropped hb ha).symm
  rcases tally_pos hb with rfl | hpos'
  · exact hdropped ha hb
  cases a <;> cases b <;> dsimp only [tally] at hpos hpos'
  case unsent.unsent => rfl
  case queued.queued => rfl
  case answered.answered result other => rw [Option.some.inj (Eq.trans (Eq.symm ha) hb)]
  case waiting.waiting id other =>
    by_cases hid : other = id
    · rw [hid]
    · -- without its first id the sender is still kept under the other
      have hrest := (get?_erase_of_ne s.broker.actor.waiters hid).trans hb
      have hfirst := count_keeps_pos ha
      have hsecond := count_keeps_pos hrest
      omega
  -- two different places would count two
  all_goals omega

/-- A local client asks for a signature, the phone pairs, shows the request and resolves,
    and the answer is written. -/
def signWithPhone : List HostAction :=
  [.accept 0, .act 0 (.frame (some (.ok [0, 0, 0, 1, 13]))), .submit 0] ++
  pairPhone.map .network ++
  [.network (.client 0 (.setReady true)),
   .network (.server (.turn (.localRequest ⟨[0, 0, 0, 1, 13], none, 0⟩ ⟨1⟩ 0) none 1)),
   .network (.server (.task 1 (.forward true))),
   .network (.client 0 (.message 1 (.message
     (.agentRequest ⟨⟨1⟩, 1, 0, 0, [0, 0, 0, 1, 13], none⟩)))),
   .network (.client 0 (.receive 0)), .network (.client 0 (.resolved 0 [0, 0, 0, 1, 14])),
   .network (.server (.task 1 (.receive (some (.setIdentities [])) true))),
   .network (.server (.task 1 (.receive (some .agentLocked) true))),
   .network (.server (.task 1 (.receive (some .agentReady) true))),
   .network (.server (.task 1 (.receive (some (.agentResponse ⟨1⟩ 1 [0, 0, 0, 1, 14])) true))),
   .network (.server (.command ⟨0⟩ none 1)), .network (.server (.command ⟨0⟩ none 1)),
   .network (.server (.command ⟨0⟩ none 1)),
   .settle 0, .act 0 .respond, .act 0 (.transmit 9)]

abbrev hostOutcome (actions : List HostAction) : List HostLabel × Host :=
  outcome (Host.step ConnectionRouting.agentCodec plainConfig plainEnvironment 1)
    (fun _ _ => True) (.new ⟨5, 8⟩ unpaired ⟨⟨0, none⟩, ⟨0, Nat.le_refl 0⟩⟩) actions

/-- **One packet, one ticket, one place.**  Along every run with fresh request ids, every
    packet that a connection's router submitted has exactly one oneshot channel, and its
    request is at exactly one place.  Its entry in the ledger is pending, or it is what the
    broker answered, or the broker is gone.  If the broker still keeps the request of a
    connection that has ended, it awaits the cancellation, or has been told. -/
theorem submitted_packet_has_one_place
    (hrun : HostRun lib config env capacity broker pairing identities h s)
    (hfresh : (submittedIds s.broker.actor.calls).Nodup) {c : ConnectionId}
    {k : LocalConnection} (hk : s.connections c = some k) {number : Nat} {packet p : Bytes}
    {context : Option RequestContext}
    (haccepted : (accepted k.history)[number]? = some (packet, .submitted p context)) :
    p = packet ∧ ∃ (r : ResponseId) (t : Ticket) (place : Place),
      (∀ (r' : ResponseId) (t' : Ticket),
        (s.tickets[r']? = some t' ∧ t'.connection = c ∧ t'.number = number) ↔
          (r' = r ∧ t' = t))
      ∧ t.packet = packet ∧ t.context = context
      ∧ (∀ other, At s r t other ↔ other = place)
      ∧ ((Listener.ledger k.history)[number]? = some none
        ∨ (∃ result, place = .answered result
          ∧ (Listener.ledger k.history)[number]? = some (some result))
        ∨ (place = .dropped
          ∧ (Listener.ledger k.history)[number]? = some (some (.error .unavailable))))
      ∧ (∀ id, place = .waiting id → k.listener.phase = .returned →
        s.feeds (.cancelled id) = true ∨ Told h id) := by
  obtain ⟨hseated, hplaced, hknown⟩ := run_known hrun hfresh
  have hruns := hseated.runs c k hk
  have hsubmitted : p = packet := by
    obtain ⟨_, _, hlistener⟩ := hruns
    exact (run_routed hlistener number packet _ haccepted).2 p context rfl
  subst hsubmitted
  obtain ⟨r, t, ht, hconnection, hnumber, hpacket, hcontext⟩ :=
    ticket_of_submitted hseated hk haccepted
  obtain ⟨place, hat⟩ := exists_place hplaced ht
  have hplace : ∀ {other}, At s r t other → other = place :=
    fun hother => place_unique hplaced ht hother hat
  refine ⟨rfl, r, t, place, ?_, hpacket, hcontext, ?_, ?_, ?_⟩
  · intro r' t'
    constructor
    · rintro ⟨ht', hc, hn⟩
      obtain rfl := hseated.single (seat_of_ticket ht') (seat_of_ticket ht)
        (hc.trans hconnection.symm) (hn.trans hnumber.symm)
      exact ⟨rfl, Option.some.inj (ht'.symm.trans ht)⟩
    · rintro ⟨rfl, rfl⟩
      exact ⟨ht, hconnection, hnumber⟩
  · intro other
    constructor
    · exact hplace
    · rintro rfl
      exact hat
  · cases hentry : (Listener.ledger k.history)[number]? with
    | none =>
        have hlength := List.getElem?_eq_none_iff.mp hentry
        rw [length_ledger hruns] at hlength
        rw [List.getElem?_eq_none hlength] at haccepted
        cases haccepted
    | some entry =>
        cases entry with
        | none => exact Or.inl rfl
        | some result =>
            obtain ⟨hsent, hreceived⟩ := hplaced.settled r t k result ht (hconnection ▸ hk)
              (hnumber ▸ hentry)
            rcases received_eq_some hreceived with hanswered | ⟨hzero, rfl⟩
            · exact Or.inr (Or.inl ⟨result, (@hplace (.answered result) hanswered).symm, rfl⟩)
            · exact Or.inr (Or.inr ⟨(hplace (dropped_of_nowhere hplaced ht hsent hzero)).symm, rfl⟩)
  · rintro id rfl hreturned
    refine (hknown.cancelling id r hat).imp_left ?_
    intro hmem
    refine List.any_eq_true.mpr ⟨(id, r), hmem, decide_eq_true ⟨rfl, hat, ?_⟩⟩
    rw [Host.ended, ht]
    dsimp only
    rw [hconnection, hk]
    exact decide_eq_true hreturned

/-- The client hangs up while the phone shows its request. -/
def hangUp : List HostAction := signWithPhone.take 18 ++ [.act 0 .interrupt]

theorem submitted_packet_has_one_place_hung_up :
    (hostOutcome hangUp).2.feeds (.cancelled ⟨1⟩) = true
      ∧ ∃ (r : ResponseId) (t : Ticket) (place : Place),
        ((hostOutcome hangUp).2.tickets[r]? = some t ∧ t.packet = [0, 0, 0, 1, 13])
          ∧ ∀ other, At (hostOutcome hangUp).2 r t other ↔ other = place := by
  refine ⟨by decide +kernel, ?_⟩
  have hentry : ((hostOutcome hangUp).2.connections 0).map (fun k => (accepted k.history)[0]?)
      = some (some ([0, 0, 0, 1, 13], .submitted [0, 0, 0, 1, 13] none)) := by decide +kernel
  obtain ⟨k, hk, haccepted⟩ := Option.map_eq_some_iff.mp hentry
  obtain ⟨_, r, t, place, hticket, hpacket, _, hplace, _⟩ :=
    submitted_packet_has_one_place (run_outcome _ _ hangUp (by decide +kernel))
      (by decide +kernel) hk haccepted
  exact ⟨r, t, place, ⟨((hticket r t).mpr ⟨rfl, rfl⟩).1, hpacket⟩, hplace⟩

/-! ## Responses -/

/-- A result that a connection may hand out for a packet that it accepted. -/
def Earned (h : List HostLabel) : Bytes × Routed → Except RequestError Bytes → Prop
  | (_, .ready frame), result => result = .ok frame
  | (packet, .submitted _ context), .ok response =>
      ∃ client link request,
        Observed h (.network (.client client (.handling link request)))
          ∧ Observed h (.network (.client client (.resolved link request response)))
          ∧ request.packet = packet ∧ request.context = context
  | (_, .submitted _ _), .error _ => True

theorem written_prefix {history : List Listener.Label} {l : Listener.State} {frames : Bytes}
    (hw : Listener.OnWire history l frames) : l.written <+: frames := by
  rw [Listener.OnWire] at hw
  cases hphase : l.phase with
  | selecting =>
      rw [hphase] at hw
      exact hw ▸ List.prefix_refl _
  | writing rest closing =>
      rw [hphase] at hw
      exact ⟨rest, hw⟩
  | returned =>
      rw [hphase] at hw
      exact hw.1

/-- A settled entry of a ledger is earned. -/
theorem settled_earned (hrun : HostRun lib config env capacity broker pairing identities h s)
    (hfresh : (submittedIds s.broker.actor.calls).Nodup) {c : ConnectionId}
    {k : LocalConnection} (hk : s.connections c = some k) {number : Nat}
    {result : Except RequestError Bytes} {entry : Bytes × Routed}
    (haccepted : (accepted k.history)[number]? = some entry)
    (hentry : (Listener.ledger k.history)[number]? = some (some result)) :
    Earned h entry result := by
  obtain ⟨hseated, hplaced, hknown⟩ := run_known hrun hfresh
  obtain ⟨_, _, hlistener⟩ := hseated.runs c k hk
  obtain ⟨packet, routed⟩ := entry
  obtain ⟨hready, hsubmitted⟩ := run_routed hlistener number packet routed haccepted
  cases routed with
  | ready frame =>
      have hkept := hready frame rfl
      rw [hentry] at hkept
      exact Option.some.inj (Option.some.inj hkept)
  | submitted p context =>
      obtain rfl := hsubmitted p context rfl
      cases result with
      | error e => trivial
      | ok response =>
          obtain ⟨r, t, ht, hconnection, hnumber, hpacket, hcontext⟩ :=
            ticket_of_submitted hseated hk haccepted
          obtain ⟨_, hreceived⟩ := hplaced.settled r t k _ ht (hconnection ▸ hk)
            (hnumber ▸ hentry)
          rcases received_eq_some hreceived with hanswered | ⟨_, herror⟩
          · obtain ⟨seat, hseat, client, link, request, hhandling, hresolved, hasked, hgiven⟩ :=
              hknown.explained r response hanswered
            obtain rfl := Option.some.inj ((seat_of_ticket ht).symm.trans hseat)
            exact ⟨client, link, request, observed_log hrun hhandling,
              observed_log hrun hresolved, hasked.trans hpacket, hgiven.trans hcontext⟩
          · cases herror

/-- **From the socket to a browser and back.**  Along every run with fresh request ids, what
    a connection has written is a beginning of the responses to its packets, in arrival
    order, and at most one failure frame after the last of them.  The n-th response is the
    router's own answer to the n-th packet, or a failure, or what a browser's handler
    resolved to for exactly that packet with the context the router derived. -/
theorem responses_are_earned
    (hrun : HostRun lib config env capacity broker pairing identities h s)
    (hfresh : (submittedIds s.broker.actor.calls).Nodup) {c : ConnectionId}
    {k : LocalConnection} (hk : s.connections c = some k) :
    ∃ (results : List (Except RequestError Bytes)) (extra : List Bytes),
      k.listener.written <+: (results.map Listener.response_frame ++ extra).flatten
      ∧ results.length ≤ (accepted k.history).length
      ∧ (extra = [] ∨ (extra = [AGENT_FAILURE_FRAME]
        ∧ results.length = (accepted k.history).length))
      ∧ ∀ (number : Nat) (result : Except RequestError Bytes), results[number]? = some result →
        ∃ packet routed, (accepted k.history)[number]? = some (packet, routed)
          ∧ Earned h (packet, routed) result := by
  obtain ⟨hseated, _, _⟩ := run_known hrun hfresh
  have hruns := hseated.runs c k hk
  have hcount := length_ledger hruns
  obtain ⟨_, _, hlistener⟩ := hruns
  obtain ⟨results, extra, hpaced⟩ := Listener.run_paced hlistener
  have hledger := hpaced.ledger
  refine ⟨results, extra, ?_, ?_, ?_, ?_⟩
  · rw [← hpaced.handed]
    exact written_prefix hpaced.wire
  · rw [← hcount, hledger, List.length_append, List.length_map]
    exact Nat.le_add_right _ _
  · rcases hpaced.extra with hnil | ⟨hfailure, hempty, _⟩
    · exact Or.inl hnil
    · refine Or.inr ⟨hfailure, ?_⟩
      rw [← hcount, hledger, hempty, List.append_nil, List.length_map]
  · intro number result hresult
    have hlt : number < results.length := (List.getElem?_eq_some_iff.mp hresult).1
    have hentry : (Listener.ledger k.history)[number]? = some (some result) := by
      rw [hledger, List.getElem?_append_left (by rw [List.length_map]; exact hlt),
        List.getElem?_map, hresult]
      rfl
    cases haccepted : (accepted k.history)[number]? with
    | none =>
        have hlength := List.getElem?_eq_none_iff.mp haccepted
        rw [List.getElem?_eq_none (hcount ▸ hlength)] at hentry
        cases hentry
    | some entry =>
        exact ⟨entry.1, entry.2, rfl, settled_earned hrun hfresh hk haccepted hentry⟩

/-- The client reads what the phone's handler resolved to. -/
theorem responses_are_earned_phone :
    ((hostOutcome signWithPhone).2.connections 0).map (fun k => k.listener.written)
        = some [0, 0, 0, 1, 14]
      ∧ ∃ (results : List (Except RequestError Bytes)) (extra : List Bytes),
        [0, 0, 0, 1, 14] <+: (results.map Listener.response_frame ++ extra).flatten
          ∧ ∀ (number : Nat) (result : Except RequestError Bytes),
            results[number]? = some result →
            ∃ packet routed, Earned (hostOutcome signWithPhone).1 (packet, routed) result := by
  have hwritten : ((hostOutcome signWithPhone).2.connections 0).map (fun k => k.listener.written)
      = some [0, 0, 0, 1, 14] := by decide +kernel
  obtain ⟨k, hk, hbytes⟩ := Option.map_eq_some_iff.mp hwritten
  obtain ⟨results, extra, hprefix, _, _, hearned⟩ :=
    responses_are_earned (run_outcome _ _ signWithPhone (by decide +kernel)) (by decide +kernel) hk
  rw [hbytes] at hprefix
  refine ⟨hwritten, results, extra, hprefix, ?_⟩
  intro number result hresult
  obtain ⟨packet, routed, _, hresult⟩ := hearned number result hresult
  exact ⟨packet, routed, hresult⟩

/-! ## After the broker has stopped -/

/-- A broker that has stopped has answered all waiters. -/
theorem run_stopped (hrun : HostRun lib config env capacity broker pairing identities h s)
    (hstopped : s.broker.stopped = true) :
    s.broker.actor.waiters = .empty := by
  induction hrun with
  | nil => cases hstopped
  | @snoc h s s' l hrun hstep ih =>
      obtain ⟨action, outputs⟩ := l
      rcases stepped_network (host_step_cases hstep.2) with
        ⟨act, outs, _, _, _, hnext, _⟩ | ⟨_, hsame, _⟩
      · cases ran_turned (network_step_cases (run_grounded (host_network hrun)).sane hnext) with
        | idle hsame _ _ =>
            rw [Host.broker, hsame] at hstopped ⊢
            exact ih hstopped
        | turn hb _ _ =>
            obtain ⟨x, _, hactor, _, hempty⟩ := (@keeps_receipts 0 _).step hb rfl
            rw [hactor]
            exact hempty hstopped
      · rw [Host.broker, hsame] at hstopped ⊢
        exact ih hstopped

/-- A pending entry can be completed. -/
theorem complete_enabled {k : LocalConnection} (hk : k.Runs lib) {number : Nat}
    (hpending : (Listener.ledger k.history)[number]? = some none)
    (result : Except RequestError Bytes) :
    ∃ k' output, k.step lib (.complete number result) = some (k', output) := by
  obtain ⟨ch, router, hrun⟩ := hk
  obtain ⟨results, extra, hpaced⟩ := Listener.run_paced hrun
  have hlength : (results.map some).length = k.listener.outgoing := by
    rw [List.length_map, hpaced.outgoing]
  rw [hpaced.ledger] at hpending
  rcases Nat.lt_or_ge number (results.map some).length with hlt | hge
  · rw [List.getElem?_append_left hlt, List.getElem?_map] at hpending
    obtain ⟨_, _, hnone⟩ := Option.map_eq_some_iff.mp hpending
    cases hnone
  · rw [List.getElem?_append_right hge, hlength] at hpending
    rw [LocalConnection.step, Listener.State.next, if_pos (hlength ▸ hge), hpending]
    exact ⟨_, _, rfl⟩

/-- **A broker that stops strands nobody.**  In every state that a run with fresh request
    ids reaches after the broker has stopped, the future of every submitted packet whose
    response is pending is ready, on every connection that still runs: a step completes the
    response with what the receiver of its oneshot channel yields. -/
theorem stopped_broker_strands_nobody
    (hrun : HostRun lib config env capacity broker pairing identities h s)
    (hfresh : (submittedIds s.broker.actor.calls).Nodup)
    (hstopped : s.broker.stopped = true) {c : ConnectionId} {k : LocalConnection}
    (hk : s.connections c = some k) (hselecting : k.listener.phase = .selecting) {number : Nat}
    {packet p : Bytes} {context : Option RequestContext}
    (haccepted : (accepted k.history)[number]? = some (packet, .submitted p context))
    (hpending : (Listener.ledger k.history)[number]? = some none) :
    ∃ (r : ResponseId) (action : HostAction) (result : Except RequestError Bytes) (s' : Host)
      (k' : LocalConnection), s.received r = some result
      ∧ (action = .submit r ∨ action = .settle r)
      ∧ s.step lib config env capacity action = some (s', [])
      ∧ s'.connections c = some k'
      ∧ Listener.ledger k'.history = (Listener.ledger k.history).set number (some result) := by
  obtain ⟨hseated, hplaced, _⟩ := run_known hrun hfresh
  have hruns := hseated.runs c k hk
  obtain ⟨r, t, ht, rfl, rfl, _⟩ := ticket_of_submitted hseated hk haccepted
  have hpolled : s.polled t = some k := by
    rw [Host.polled, hk]
    exact if_pos hselecting
  have hcompletes : ∀ result, ∃ s' k', s.complete lib r t k result = some (s', [])
      ∧ s'.connections t.connection = some k'
      ∧ Listener.ledger k'.history
        = (Listener.ledger k.history).set t.number (some result) := by
    intro result
    obtain ⟨k', output, hstep⟩ := complete_enabled hruns hpending result
    refine ⟨(s.put t.connection k').mark r t, k', ?_, Function.update_self ..,
      (complete_step hruns hstep).2.1⟩
    rw [Host.complete, hstep]
  cases hsent : t.sent with
  | false =>
      -- what was never sent is in no place
      have honce := hplaced.once r
      rw [unsent_of_some ht, issued_of_some ht, hsent] at honce
      obtain ⟨s', k', hcomplete, hdone⟩ := hcompletes (.error .unavailable)
      refine ⟨r, .submit r, _, s', k', received_of_none ?_, Or.inl rfl, ?_, hdone⟩
      · exact Nat.le_zero.mp (Nat.le_of_add_le_add_left honce)
      · simp only [Host.step, ht, hpolled, hsent, hstopped]
        exact hcomplete
  | true =>
      obtain ⟨result, hreceived⟩ : ∃ result, s.received r = some result := by
        cases hr : s.answered r with
        | some result => exact ⟨result, by rw [Host.received, hr]⟩
        | none =>
            refine ⟨_, received_of_none ?_⟩
            rw [places, hplaced.drained hstopped, run_stopped hrun hstopped, hr]
            rfl
      obtain ⟨s', k', hcomplete, hdone⟩ := hcompletes result
      refine ⟨r, .settle r, result, s', k', hreceived, Or.inr rfl, ?_, hdone⟩
      simp only [Host.step, ht, hpolled, hreceived, hsent]
      exact hcomplete

/-- The broker stops while a request is in its channel. -/
def stopEarly : List HostAction :=
  signWithPhone.take 3 ++ [.network (.server (.shutdown 5)), .network (.server (.command ⟨0⟩ none 1))]

theorem stopped_broker_strands_nobody_early :
    ∃ k, (hostOutcome stopEarly).2.connections 0 = some k
      ∧ (Listener.ledger k.history)[0]? = some none
      ∧ ∃ (r : ResponseId) (action : HostAction) (result : Except RequestError Bytes) (s' : Host)
        (k' : LocalConnection), (hostOutcome stopEarly).2.received r = some result
        ∧ (action = .submit r ∨ action = .settle r)
        ∧ (hostOutcome stopEarly).2.step ConnectionRouting.agentCodec plainConfig
          plainEnvironment 1 action = some (s', [])
        ∧ s'.connections 0 = some k'
        ∧ Listener.ledger k'.history = (Listener.ledger k.history).set 0 (some result) := by
  have hentry : ((hostOutcome stopEarly).2.connections 0).map (fun k => (accepted k.history)[0]?)
      = some (some ([0, 0, 0, 1, 13], .submitted [0, 0, 0, 1, 13] none)) := by decide +kernel
  obtain ⟨k, hk, haccepted⟩ := Option.map_eq_some_iff.mp hentry
  have hstate : ((hostOutcome stopEarly).2.connections 0).map (fun k =>
      (decide (k.listener.phase = .selecting), (Listener.ledger k.history)[0]?))
        = some (true, some none) := by decide +kernel
  rw [hk] at hstate
  obtain ⟨hphase, hnone⟩ := Prod.mk.inj (Option.some.inj hstate)
  exact ⟨k, hk, hnone, stopped_broker_strands_nobody
    (run_outcome _ _ stopEarly (by decide +kernel)) (by decide +kernel) (by decide +kernel) hk
    (of_decide_eq_true hphase) haccepted hnone⟩

end DaemonRun
