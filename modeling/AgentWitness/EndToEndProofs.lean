import AgentWitness.NetworkProofs
import AgentWitness.SessionProofs

/-! # Answers, end to end

    A local caller submits a packet, the broker dispatches it to the session of
    some link, a client's handler resolves, and the answer travels back.  On the
    way the request is a command on a channel, a message on a wire, a frame, an
    entry of the buffer, a running handler; the answer is a message and a command
    in the mailbox.  The invariant of this module follows both: WHEREVER a request
    is, it was dispatched to the session its link holds, and wherever an answer
    is, a handler of a request of that link resolved to it.

    The broker passes an answer on only for the latest dispatch of its request.
    With both, an answer is never that of another request, of an earlier attempt
    or of an earlier session. -/

namespace EndToEnd

open Packet KeyedMap BrokerModel BrokerInvariant BrokerCompletion BrokerCorrelation BrokerTask
open BrokerTrace RemoteProtocol Pairing Serve Handshake Session RemoteClient ClientFlow Wire
open Transition

/-- The request was dispatched to the session. -/
def Dispatched (s : Server) (session_id : SessionId) (request : RemoteRequest) : Prop :=
  Effect.dispatch session_id request.request_id request.attempt request.requested_at
    request.deadline request.packet request.context ∈ emitted s.broker.actor.calls

/-- The request was dispatched to the session that the link holds. -/
def Requested (s : Server) (link : LinkId) (request : RemoteRequest) : Prop :=
  ∃ session_id, Holds s link session_id ∧ Dispatched s session_id request

/-- A handler for a request of the link, with this id and attempt, resolved to the
    packet. -/
def Resolved (n : Network) (link : LinkId) (id : RequestId) (attempt : UInt32)
    (packet : Bytes) : Prop :=
  ∃ client request, .client client (.handling link request) ∈ n.log ∧
    .client client (.resolved link request packet) ∈ n.log ∧ request.request_id = id ∧
    request.attempt = attempt ∧ Requested n.server link request

/-- Where requests and answers are, and what is known of them there. -/
structure Faithful (n : Network) : Prop where
  sessions : Sessions n.server
  commands : ∀ link t command request, n.server.tasks link = some t → command ∈ t.commands →
    ofRemoteCommand command = .agentRequest request → Requested n.server link request
  down : ∀ link request, .agentRequest request ∈ n.down link → Requested n.server link request
  received : ∀ id received request, received ∈ (n.clients id).receiving →
    received.frame = .message (.agentRequest request) →
    Requested n.server received.socket request
  pending : ∀ id key entry, (n.clients id).pending.get? key = some entry →
    ∃ link, (n.clients id).socket = some link ∧ Requested n.server link entry.request
  handlers : ∀ id token h, (n.clients id).handlers.get? token = some h → h.thrown = none →
    Requested n.server h.socket h.pending.request ∧
      .client id (.handling h.socket h.pending.request) ∈ n.log
  up : ∀ link id attempt packet, .agentResponse id attempt packet ∈ n.up link →
    Resolved n link id attempt packet
  posted : ∀ session_id id attempt packet,
    .response session_id id attempt packet ∈ n.server.mailbox →
    ∃ link, Holds n.server link session_id ∧ Resolved n link id attempt packet

theorem faithful_new (config : BrokerConfig) (pairing : PairingService) :
    Faithful (Network.new config pairing) where
  sessions := sessions_new config pairing
  commands := fun _ _ _ _ ht => by cases ht
  down := fun _ _ hm => by cases hm
  received := fun _ _ _ hm => by cases hm
  pending := fun _ _ _ hp => by cases hp
  handlers := fun _ _ _ hh => by cases hh
  up := fun _ _ _ _ hm => by cases hm
  posted := fun _ _ _ _ hm => by cases hm

/-! ## The clients' side -/

/-- An entry of the buffer after a move was there before it, for the same
    socket. -/
theorem move_pending {env : Environment} {s t : RemoteSession} {o : List ClientOutput}
    (hsane : Sane s) (h : Move env s o t) {key : Key} {entry : PendingEntry}
    (hp : t.pending.get? key = some entry) :
    t.socket = s.socket ∧
      ∃ old, s.pending.get? key = some old ∧ old.request = entry.request := by
  cases h with
  | aside ha _ =>
      rw [ha.pending] at hp
      exact ⟨ha.socket, entry, hp, rfl⟩
  | adopted hs _ _ _ =>
      -- without a socket the buffer is empty
      have hempty := eq_empty_of_len (hsane.buffered (Or.inr hs))
      change s.pending.get? key = some entry at hp
      rw [hempty] at hp
      cases hp
  | dropped => cases hp
  | @started socket key' pending _ hget _ _ =>
      refine ⟨rfl, ?_⟩
      by_cases hk : key = key'
      · subst hk
        change (s.pending.insert key _).get? key = some entry at hp
        rw [get?_insert_self] at hp
        obtain rfl := Option.some.inj hp
        exact ⟨pending, hget, rfl⟩
      · change (s.pending.insert key' _).get? key = some entry at hp
        rw [get?_insert_of_ne _ _ hk] at hp
        exact ⟨entry, hp, rfl⟩
  | @answered token h packet _ _ _ _ _ =>
      refine ⟨rfl, ?_⟩
      change (s.pending.erase _).get? key = some entry at hp
      by_cases hk : key = requestKey h.pending.request
      · rw [hk, get?_erase_self] at hp
        cases hp
      · rw [get?_erase_of_ne _ hk] at hp
        exact ⟨entry, hp, rfl⟩
  | greeted _ _ _ | opened _ _ _ | shut _ _ _ | bumped | began _ | ended | sent _ _ _ _
  | resolved _ _ | released | buried _ => exact ⟨rfl, entry, hp, rfl⟩

/-- A live handler after a move was live before it, or it was started for an
    entry of the buffer. -/
theorem move_handlers {env : Environment} {s t : RemoteSession} {o : List ClientOutput}
    (hm : Move env s o t) {token : Nat} {h : Handler} (hh : t.handlers.get? token = some h)
    (hlive : h.thrown = none) :
    s.handlers.get? token = some h ∨
      ∃ key entry, s.socket = some h.socket ∧ s.pending.get? key = some entry ∧
        h.pending.request = entry.request ∧ .handling h.socket h.pending.request ∈ o := by
  have herase : ∀ {other}, (s.handlers.erase other).get? token = some h →
      s.handlers.get? token = some h := by
    intro other he
    have hne : token ≠ other := by
      rintro rfl
      rw [get?_erase_self] at he
      cases he
    rwa [get?_erase_of_ne _ hne] at he
  cases hm with
  | aside ha _ =>
      rw [ha.handlers] at hh
      exact Or.inl hh
  | @started socket key pending hs hget _ _ =>
      by_cases ht : token = pending.token
      · subst ht
        change (s.handlers.insert pending.token _).get? pending.token = some h at hh
        rw [get?_insert_self] at hh
        obtain rfl := Option.some.inj hh
        exact Or.inr ⟨key, pending, hs, hget, rfl, List.mem_singleton.mpr rfl⟩
      · change (s.handlers.insert pending.token _).get? token = some h at hh
        rw [get?_insert_of_ne _ _ ht] at hh
        exact Or.inl hh
  | answered _ _ _ _ _ => exact Or.inl (herase hh)
  | resolved _ _ => exact Or.inl (herase hh)
  | released => exact Or.inl (herase hh)
  | @buried other dead hdead =>
      by_cases ht : token = other
      · subst ht
        change (s.handlers.insert token dead).get? token = some h at hh
        rw [get?_insert_self] at hh
        obtain rfl := Option.some.inj hh
        exact absurd hlive hdead
      · change (s.handlers.insert other dead).get? token = some h at hh
        rw [get?_insert_of_ne _ _ ht] at hh
        exact Or.inl hh
  | adopted _ _ _ _ | greeted _ _ _ | opened _ _ _ | shut _ _ _ | bumped | began _ | ended
  | dropped | sent _ _ _ _ => exact Or.inl hh

/-- The answers a move sends are those its handlers resolve to. -/
theorem move_responds {env : Environment} {s t : RemoteSession} {o : List ClientOutput}
    (hm : Move env s o t) {link : SocketId} {id : RequestId} {attempt : UInt32} {packet : Bytes}
    (ho : .sent link (.agentResponse id attempt packet) ∈ o) :
    ∃ token h, s.handlers.get? token = some h ∧ h.thrown = none ∧ h.socket = link ∧
      h.pending.request.request_id = id ∧ h.pending.request.attempt = attempt ∧
      .resolved link h.pending.request packet ∈ o := by
  cases hm with
  | aside _ hq => cases hq _ ho
  | @answered token h packet' hh hlive _ _ _ =>
      rcases List.mem_cons.mp ho with he | he
      · cases he
      · obtain ⟨rfl, hmsg⟩ := ClientOutput.sent.inj (List.mem_singleton.mp he)
        obtain ⟨rfl, rfl, rfl⟩ := ClientMessage.agentResponse.inj hmsg
        exact ⟨token, h, hh, hlive, rfl, rfl, rfl, List.mem_cons_self ..⟩
  | @greeted socket w _ _ _ =>
      have hmsg := (ClientOutput.sent.inj (List.mem_singleton.mp ho)).2
      rw [WebSocket.greeting] at hmsg
      split at hmsg
      · cases hmsg
      · cases hmsg
  | @sent socket message _ _ hroutine _ =>
      rw [← (ClientOutput.sent.inj (List.mem_singleton.mp ho)).2] at hroutine
      cases hroutine
  | adopted _ _ _ _ | started _ _ _ _ | resolved _ _ => cases (List.mem_singleton.mp ho)
  | opened _ _ _ | shut _ _ _ | bumped | began _ | ended | dropped | released | buried _ =>
      cases ho

/-- What is resolved stays so when the record grows. -/
theorem Resolved.moved {n : Network} {link : LinkId} {id : RequestId} {attempt : UInt32}
    {packet : Bytes} (h : Resolved n link id attempt packet) (client : ClientId)
    (t : RemoteSession) (o : List ClientOutput) :
    Resolved (n.moved client t o) link id attempt packet := by
  obtain ⟨c, request, hhandling, hresolved, hid, hattempt, hreq⟩ := h
  exact ⟨c, request, List.mem_append_left _ hhandling, List.mem_append_left _ hresolved, hid,
    hattempt, hreq⟩

theorem faithful_moved {env : Environment} {n : Network} {id : ClientId} {t : RemoteSession}
    {o : List ClientOutput} (hg : Grounded n) (h : Faithful n)
    (hm : Move env (n.clients id) o t) : Faithful (n.moved id t o) := by
  refine ⟨h.sessions, h.commands, h.down, ?_, ?_, ?_, ?_, ?_⟩
  · intro other received request hr hframe
    by_cases ho : other = id
    · subst ho
      rw [moved_clients_self, move_receiving hm] at hr
      exact h.received other received request hr hframe
    · rw [moved_clients_of_ne n t o ho] at hr
      exact h.received other received request hr hframe
  · intro other key entry hp
    by_cases ho : other = id
    · subst ho
      rw [moved_clients_self] at hp ⊢
      obtain ⟨hsocket, old, hold, heq⟩ := move_pending (hg.sane other) hm hp
      rw [hsocket, ← heq]
      exact h.pending other key old hold
    · rw [moved_clients_of_ne n t o ho] at hp ⊢
      exact h.pending other key entry hp
  · intro other token handler hh hlive
    by_cases ho : other = id
    · subst ho
      rw [moved_clients_self] at hh
      rcases move_handlers hm hh hlive with hold | ⟨key, entry, hs, hget, heq, hout⟩
      · obtain ⟨hreq, hlog⟩ := h.handlers other token handler hold hlive
        exact ⟨hreq, List.mem_append_left _ hlog⟩
      · obtain ⟨link, hlink, hreq⟩ := h.pending other key entry hget
        obtain rfl := Option.some.inj (hs.symm.trans hlink)
        rw [← heq] at hreq
        exact ⟨hreq, List.mem_append_right _ (List.mem_map_of_mem hout)⟩
    · rw [moved_clients_of_ne n t o ho] at hh
      obtain ⟨hreq, hlog⟩ := h.handlers other token handler hh hlive
      exact ⟨hreq, List.mem_append_left _ hlog⟩
  · intro link rid attempt packet hmem
    rcases List.mem_append.mp hmem with hold | hnew
    · exact (h.up link rid attempt packet hold).moved id t o
    · obtain ⟨token, handler, hh, hlive, rfl, hid, hattempt, hresolved⟩ :=
        move_responds hm (mem_submitted.mp hnew)
      obtain ⟨hreq, hlog⟩ := h.handlers id token handler hh hlive
      exact ⟨id, handler.pending.request, List.mem_append_left _ hlog,
        List.mem_append_right _ (List.mem_map_of_mem hresolved), hid, hattempt, hreq⟩
  · intro session_id rid attempt packet hmem
    obtain ⟨link, hholds, hres⟩ := h.posted session_id rid attempt packet hmem
    exact ⟨link, hholds, hres.moved id t o⟩

/-- A change of one client's frames and buffer. -/
theorem faithful_changed {n : Network} {id : ClientId} {t : RemoteSession} (h : Faithful n)
    (hreceived : ∀ received request, received ∈ t.receiving →
      received.frame = .message (.agentRequest request) →
      Requested n.server received.socket request)
    (hpending : ∀ key entry, t.pending.get? key = some entry →
      ∃ link, t.socket = some link ∧ Requested n.server link entry.request)
    (hhandlers : t.handlers = (n.clients id).handlers) : Faithful (n.moved id t []) := by
  have hlog : (n.moved id t []).log = n.log := List.append_nil _
  have hup : ∀ link, (n.moved id t []).up link = n.up link := fun _ => List.append_nil _
  refine ⟨h.sessions, h.commands, h.down, ?_, ?_, ?_, ?_, ?_⟩
  · intro other received request hr hframe
    by_cases ho : other = id
    · subst ho
      rw [moved_clients_self] at hr
      exact hreceived received request hr hframe
    · rw [moved_clients_of_ne n t [] ho] at hr
      exact h.received other received request hr hframe
  · intro other key entry hp
    by_cases ho : other = id
    · subst ho
      rw [moved_clients_self] at hp ⊢
      exact hpending key entry hp
    · rw [moved_clients_of_ne n t [] ho] at hp ⊢
      exact h.pending other key entry hp
  · intro other token handler hh hlive
    rw [hlog]
    by_cases ho : other = id
    · subst ho
      rw [moved_clients_self, hhandlers] at hh
      exact h.handlers other token handler hh hlive
    · rw [moved_clients_of_ne n t [] ho] at hh
      exact h.handlers other token handler hh hlive
  · intro link rid attempt packet hmem
    rw [hup] at hmem
    exact (h.up link rid attempt packet hmem).moved id t []
  · intro session_id rid attempt packet hmem
    obtain ⟨link, hholds, hres⟩ := h.posted session_id rid attempt packet hmem
    exact ⟨link, hholds, hres.moved id t []⟩

theorem faithful_took {n : Network} {id : ClientId} {t : RemoteSession} {received : Received}
    {rest : List Received} (h : Faithful n) (hr : (n.clients id).receiving = received :: rest)
    (ht : Take (n.clients id) received rest t) : Faithful (n.moved id t []) := by
  have hold : ∀ key entry, (n.clients id).pending.get? key = some entry →
      ∃ link, (n.clients id).socket = some link ∧ Requested n.server link entry.request :=
    h.pending id
  refine faithful_changed h ?_ ?_ ?_
  · intro other request hmem hframe
    rw [take_receiving ht] at hmem
    refine h.received id other request ?_ hframe
    rw [hr]
    exact List.mem_cons_of_mem _ hmem
  · cases ht with
    | popped | threw | refused => exact hold
    | rejected =>
        intro _ _ hp
        cases hp
    | @enqueued request hs hframe _ _ _ =>
        intro key entry hp
        by_cases hk : key = requestKey request
        · subst hk
          change ((n.clients id).pending.insert _ _).get? _ = some entry at hp
          rw [get?_insert_self] at hp
          obtain rfl := Option.some.inj hp
          refine ⟨received.socket, hs, h.received id received request ?_ hframe⟩
          rw [hr]
          exact List.mem_cons_self ..
        · change ((n.clients id).pending.insert _ _).get? _ = some entry at hp
          rw [get?_insert_of_ne _ _ hk] at hp
          exact hold key entry hp
    | @cancelled request_id attempt _ _ =>
        intro key entry hp
        change ((n.clients id).pending.erase _).get? _ = some entry at hp
        by_cases hk : key = (request_id, attempt)
        · rw [hk, get?_erase_self] at hp
          cases hp
        · rw [get?_erase_of_ne _ hk] at hp
          exact hold key entry hp
  · cases ht with
    | popped | threw | rejected | enqueued | refused | cancelled => rfl

theorem faithful_pushed {n : Network} {id : ClientId} {socket : SocketId}
    {message : ServerMessage} {rest : List ServerMessage} {frame : Frame} (h : Faithful n)
    (hdown : n.down socket = message :: rest) (hcarries : carries message frame = true)
    (label : String) :
    Faithful (({ n with down := Function.update n.down socket rest } : Network).moved id
      { n.clients id with
        receiving := (n.clients id).receiving ++ [⟨socket, frame, label⟩] } []) := by
  have hfetched : Faithful { n with down := Function.update n.down socket rest } := by
    refine ⟨h.sessions, h.commands, ?_, h.received, h.pending, h.handlers, h.up, h.posted⟩
    intro link request hmem
    refine h.down link request ?_
    by_cases hl : link = socket
    · subst hl
      change .agentRequest request ∈ Function.update n.down link rest link at hmem
      rw [Function.update_self] at hmem
      rw [hdown]
      exact List.mem_cons_of_mem _ hmem
    · change .agentRequest request ∈ Function.update n.down socket rest link at hmem
      rwa [Function.update_of_ne hl] at hmem
  refine faithful_changed hfetched ?_ (h.pending id) rfl
  intro received request hmem hframe
  rcases List.mem_append.mp hmem with hmem | hmem
  · exact h.received id received request hmem hframe
  · rw [List.mem_singleton.mp hmem] at hframe ⊢
    change frame = .message (.agentRequest request) at hframe
    rw [hframe] at hcarries
    refine h.down socket request ?_
    rw [hdown, ← (of_decide_eq_true hcarries : ServerMessage.agentRequest request = message)]
    exact List.mem_cons_self ..

theorem client_faithful (env : Environment) : ClientPreserves env Faithful where
  pushed := fun _ h hdown hcarries _ _ => faithful_pushed h hdown hcarries _
  took := fun _ h hr _ ht => faithful_took h hr ht
  moved := fun hg h hm _ => faithful_moved hg h hm

/-! ## The server's side -/

/-- A task forwards the commands of its channel in order, and adds none. -/
theorem acted_commands {config : SessionConfig} {p : PairingService} {stopped : Bool}
    {link : LinkId} {t : Task} {action : TaskAction} {r : TaskResult}
    (h : Acted config p stopped link t action r) : r.task.commands <:+ t.commands := by
  cases h with
  | broke _ hsuffix => exact hsuffix
  | forwarded _ hc =>
      rw [hc]
      exact List.suffix_cons ..
  | ended _ | received _ | posted _ _ _ | ponged _ | updated _ _ _ | rejected _ _
  | authorized _ _ | connected _ _ _ | unavailable _ | registered _ _ | refused _ _
  | responded _ | unanswered _ | beat _ | disconnected _ | dropped _ =>
      exact List.suffix_refl _

/-- The requests a task sends are those of its channel. -/
theorem acted_requests {config : SessionConfig} {p : PairingService} {stopped : Bool}
    {link other : LinkId} {t : Task} {action : TaskAction} {r : TaskResult}
    {request : RemoteRequest} (h : Acted config p stopped link t action r)
    (ho : .sent other (.agentRequest request) ∈ r.outputs) :
    other = link ∧ ∃ command ∈ t.commands, ofRemoteCommand command = .agentRequest request := by
  cases h with
  | @forwarded command rest _ _ _ _ hc =>
      obtain ⟨rfl, hm⟩ := ServerOutput.sent.inj (List.mem_singleton.mp ho)
      refine ⟨rfl, command, ?_, hm.symm⟩
      rw [hc]
      exact List.mem_cons_self ..
  | @responded a session_id _ =>
      obtain ⟨_, hm⟩ := ServerOutput.sent.inj (List.mem_singleton.mp ho)
      cases a with
      | paired server_id client_id credential => cases hm
      | authenticated server_id client_id => cases hm
  | rejected _ _ | refused _ _ | beat _ =>
      cases (ServerOutput.sent.inj (List.mem_singleton.mp ho)).2
  | authorized _ _ => cases (List.mem_singleton.mp ho)
  | received _ | ended _ | broke _ _ | posted _ _ _ | ponged _ | updated _ _ _
  | connected _ _ _ | unavailable _ | registered _ _ | unanswered _ | disconnected _
  | dropped _ => cases ho

/-- The answers a task posts are those it reads, for its own session. -/
theorem acted_posts {config : SessionConfig} {p : PairingService} {stopped : Bool}
    {link : LinkId} {t : Task} {action : TaskAction} {r : TaskResult} {session_id : SessionId}
    {id : RequestId} {attempt : UInt32} {packet : Bytes}
    (h : Acted config p stopped link t action r)
    (hp : .response session_id id attempt packet ∈ r.posted) :
    Phase.session t.phase = some session_id ∧
      ∃ saved, action = .receive (some (.agentResponse id attempt packet)) saved := by
  cases h with
  | @posted message command saved active client_id awaiting_pong hphase _ hc =>
      obtain rfl := List.mem_singleton.mp hp
      rw [hphase]
      cases message with
      | agentResponse request_id n q =>
          obtain ⟨rfl, rfl, rfl, rfl⟩ := Command.response.inj (Option.some.inj hc)
          exact ⟨rfl, saved, rfl⟩
      | agentReady | agentLocked => cases Option.some.inj hc
      | pairRequest | authenticate | setPushSubscription | setIdentities | pong =>
          cases hc
  | connected _ _ _ => cases (List.mem_singleton.mp hp)
  | disconnected _ =>
      cases stopped with
      | false => cases (List.mem_singleton.mp hp)
      | true => cases hp
  | ended _ | received _ | broke _ _ | ponged _ | updated _ _ _ | rejected _ _ | authorized _ _
  | unavailable _ | registered _ _ | refused _ _ | responded _ | unanswered _ | forwarded _ _
  | beat _ | dropped _ => cases hp

theorem Requested.stepped {config : SessionConfig} {s s' : Server} {action : Action}
    {outputs : List ServerOutput} {link : LinkId} {request : RemoteRequest}
    (h : Requested s link request) (hreg : Registering s)
    (hs : Stepped config s action s' outputs) : Requested s' link request := by
  obtain ⟨session_id, hholds, hdispatched⟩ := h
  exact ⟨session_id, holds_stepped hreg hs hholds, (stepped_continues hs).emitted hdispatched⟩

/-- A command on a channel was there before the step, or the step dispatched it
    to the session of the link. -/
theorem stepped_commands {config : SessionConfig} {s s' : Server} {action : Action}
    {outputs : List ServerOutput} (h : Sessions s) (hs : Stepped config s action s' outputs)
    {link : LinkId} {t' : Task} {command : RemoteCommand} {request : RemoteRequest}
    (ht' : s'.tasks link = some t') (hc : command ∈ t'.commands)
    (hrequest : ofRemoteCommand command = .agentRequest request) :
    (∃ t, s.tasks link = some t ∧ command ∈ t.commands) ∨ Requested s' link request := by
  have hstep := hs
  cases hs with
  | accepted _ =>
      rcases update_task_cases ht' with ⟨_, rfl⟩ | ⟨_, ht⟩
      · cases hc
      · exact Or.inl ⟨t', ht, hc⟩
  | @acted other act t r ht hact =>
      rcases update_task_cases ht' with ⟨rfl, rfl⟩ | ⟨_, ht⟩
      · exact Or.inl ⟨t, ht, (acted_commands hact).mem hc⟩
      · exact Or.inl ⟨t', ht, hc⟩
  | cleared => exact Or.inl ⟨t', ht', hc⟩
  | stopping _ => exact Or.inl ⟨t', ht', hc⟩
  | turned hinput hallowed hb =>
      obtain ⟨t, ht, hheard⟩ := turned_task_of hallowed ht'
      rw [hheard.commands] at hc
      rcases List.mem_append.mp hc with hold | hnew
      · exact Or.inl ⟨t, ht, hold⟩
      · obtain ⟨session_id, e, hremote, he, hissued⟩ :=
          (step_causes hb).sent link command (mem_sentTo.mp hnew)
        refine Or.inr ⟨session_id, holds_remoteFor h hinput hallowed hb hstep rfl hremote, ?_⟩
        -- the effect behind a request is its dispatch
        cases e with
        | dispatch active rid attempt requested_at deadline packet context =>
            obtain ⟨rfl, rfl⟩ := Prod.mk.inj (Option.some.inj he)
            obtain rfl := ServerMessage.agentRequest.inj hrequest
            exact hissued (Option.some_ne_none _)
        | cancel active rid attempt =>
            obtain ⟨rfl, rfl⟩ := Prod.mk.inj (Option.some.inj he)
            cases hrequest
        | wakeRequired | complete => cases he

/-- **Step lemma of the server.**  `up` is the upward wires once the step has read
    its message, if it reads one. -/
theorem faithful_served {config : SessionConfig} {n : Network} {action : Action}
    {server : Server} {outputs : List ServerOutput} {up : LinkId → List ClientMessage}
    (h : Faithful n) (hs : Stepped config n.server action server outputs)
    (hless : ∀ link message, message ∈ up link → message ∈ n.up link)
    (hread : ∀ link message saved, action = .task link (.receive (some message) saved) →
      message ∈ n.up link) :
    Faithful (({ n with up := up } : Network).served server outputs) := by
  have hreg := h.sessions.registering
  have hkeep : ∀ {link request}, Requested n.server link request →
      Requested server link request := fun hr => hr.stepped hreg hs
  have hresolved : ∀ {link id attempt packet}, Resolved n link id attempt packet →
      Resolved (({ n with up := up } : Network).served server outputs) link id attempt packet := by
    rintro link id attempt packet ⟨client, request, hhandling, hres, hid, hattempt, hreq⟩
    exact ⟨client, request, List.mem_append_left _ hhandling, List.mem_append_left _ hres, hid,
      hattempt, hkeep hreq⟩
  refine ⟨sessions_step h.sessions hs, ?_, ?_, ?_, ?_, ?_, ?_, ?_⟩
  · intro link t' command request ht' hc hrequest
    rcases stepped_commands h.sessions hs ht' hc hrequest with ⟨t, ht, hold⟩ | hnew
    · exact hkeep (h.commands link t command request ht hold hrequest)
    · exact hnew
  · intro link request hmem
    rcases List.mem_append.mp hmem with hold | hnew
    · exact hkeep (h.down link request hold)
    · obtain ⟨link', act, t, r, ht, _, hact, ho, _⟩ :=
        stepped_task hs (mem_transmitted.mp hnew) (external_ne_sent link _)
      obtain ⟨rfl, command, hc, hrequest⟩ := acted_requests hact ho
      exact hkeep (h.commands link t command request ht hc hrequest)
  · intro id received request hr hframe
    exact hkeep (h.received id received request hr hframe)
  · intro id key entry hp
    obtain ⟨link, hsocket, hreq⟩ := h.pending id key entry hp
    exact ⟨link, hsocket, hkeep hreq⟩
  · intro id token handler hh hlive
    obtain ⟨hreq, hlog⟩ := h.handlers id token handler hh hlive
    exact ⟨hkeep hreq, List.mem_append_left _ hlog⟩
  · intro link id attempt packet hmem
    exact hresolved (h.up link id attempt packet (hless link _ hmem))
  · intro session_id id attempt packet hmem
    have hold : .response session_id id attempt packet ∈ n.server.mailbox →
        ∃ link, Holds server link session_id ∧
          Resolved (({ n with up := up } : Network).served server outputs) link id attempt packet := by
      intro hm
      obtain ⟨link, hholds, hres⟩ := h.posted session_id id attempt packet hm
      exact ⟨link, holds_stepped hreg hs hholds, hresolved hres⟩
    have hstep := hs
    cases hs with
    | accepted _ => exact hold hmem
    | cleared => exact hold hmem
    | stopping _ =>
        rcases List.mem_append.mp hmem with hm | hm
        · exact hold hm
        · cases (List.mem_singleton.mp hm)
    | turned hinput _ _ =>
        rcases hinput with ⟨_, _, _, _, hmail⟩ | ⟨_, _, _, rfl⟩
        · refine hold ?_
          rw [hmail]
          exact List.mem_cons_of_mem _ hmem
        · exact hold hmem
    | @acted link act t r ht hact =>
        rcases List.mem_append.mp hmem with hm | hm
        · exact hold hm
        · obtain ⟨hsession, saved, rfl⟩ := acted_posts hact hm
          have hholds : Holds n.server link session_id :=
            ⟨t, ht, h.sessions.phases link t session_id ht hsession⟩
          exact ⟨link, holds_stepped hreg hstep hholds,
            hresolved (h.up link id attempt packet (hread link _ saved rfl))⟩

theorem server_faithful (config : SessionConfig) : ServerPreserves config Faithful where
  heard := by
    intro n link message saved rest server outputs _ h hup hs
    refine faithful_served h hs ?_ ?_
    · intro other m hm
      by_cases hl : other = link
      · subst hl
        rw [Function.update_self] at hm
        rw [hup]
        exact List.mem_cons_of_mem _ hm
      · rwa [Function.update_of_ne hl] at hm
    · intro other m s heq
      obtain ⟨rfl, hact⟩ := Action.task.inj heq
      obtain ⟨hmsg, _⟩ := TaskAction.receive.inj hact
      obtain rfl := Option.some.inj hmsg
      rw [hup]
      exact List.mem_cons_self ..
  served := by
    intro n action server outputs _ h hrec _ hs
    refine faithful_served h hs (fun _ _ hm => hm) ?_
    exact fun link message saved heq => absurd heq (hrec link message saved)

/-! ## Runs -/

/-- A local caller submitted the request, and this id was drawn for it. -/
def Asked (h : List (NetworkAction × List NetworkOutput)) (id : RequestId)
    (request : PacketRequest) : Prop :=
  ∃ requested_at sends now outputs,
    (.server (.turn (.localRequest request id requested_at) sends now), outputs) ∈ h

theorem Asked.snoc {h : List (NetworkAction × List NetworkOutput)} {id : RequestId}
    {request : PacketRequest} (ha : Asked h id request)
    (l : NetworkAction × List NetworkOutput) : Asked (h ++ [l]) id request := by
  obtain ⟨requested_at, sends, now, outputs, hmem⟩ := ha
  exact ⟨requested_at, sends, now, outputs, List.mem_append_left _ hmem⟩

/-- Only the broker answers local callers, and only from a response it handles. -/
theorem stepped_answered {config : SessionConfig} {s s' : Server} {action : Action}
    {outputs : List ServerOutput} (hs : Stepped config s action s' outputs)
    {response : ResponseId} {packet : Bytes} (ho : .answered response (.ok packet) ∈ outputs) :
    ∃ session_id id attempt, .response session_id id attempt packet ∈ s.mailbox ∧
      s.broker.actor.waiters.get? id = some response ∧
      InFlight s.broker.actor.state id session_id attempt := by
  cases hs with
  | accepted _ | cleared | stopping _ => cases ho
  | @acted link act t r _ hact =>
      cases hact with
      | rejected _ _ | refused _ _ | responded _ | forwarded _ _ | beat _ | authorized _ _ =>
          cases (List.mem_singleton.mp ho)
      | received _ | ended _ | broke _ _ | posted _ _ _ | ponged _ | updated _ _ _
      | connected _ _ _ | unavailable _ | registered _ _ | unanswered _ | disconnected _
      | dropped _ => cases ho
  | turned hinput _ hb =>
      obtain ⟨b, hmem, heq⟩ := List.mem_filterMap.mp ho
      cases b with
      | answered waiter result =>
          obtain ⟨rfl, rfl⟩ := ServerOutput.answered.inj (Option.some.inj heq)
          obtain ⟨session_id, id, attempt, drawn, hin, hw, hflight⟩ :=
            (step_causes hb).answered waiter packet hmem
          refine ⟨session_id, id, attempt, ?_, hw, hflight⟩
          rw [(fed_command hinput hin).2]
          exact List.mem_cons_self ..
      | woke | stopped => cases Option.some.inj heq
      | sent | registered => cases heq

section Runs

variable {config : SessionConfig} {env : Environment} {ok : Network → NetworkAction → Prop}
  {broker : BrokerConfig} {pairing : PairingService}
  {h : List (NetworkAction × List NetworkOutput)} {n : Network}

/-- Along every run the record of calls is a run of the model, and who waits has
    asked. -/
theorem run_asked (hr : NetworkRun config env ok broker pairing h n) :
    BrokerRun broker.max_pending_requests n.server.broker.actor.calls n.server.broker.actor.state ∧
      ∀ id response, n.server.broker.actor.waiters.get? id = some response →
        ∃ request, Asked h id request ∧ request.response = response ∧
          Submits n.server.broker.actor.calls id request.packet := by
  induction hr with
  | nil => exact ⟨.nil, fun _ _ hw => (by cases hw)⟩
  | @snoc h n n' l hr hstep ih =>
      obtain ⟨action, outputs⟩ := l
      obtain ⟨ihrun, ihwait⟩ := ih
      have hran := network_step_cases (run_grounded hr).sane hstep.2
      -- a step of the server, whether or not it reads a message first
      have hserver : ∀ {act server out}, action = .server act →
          Stepped config n.server act server out →
          BrokerRun broker.max_pending_requests server.broker.actor.calls
              server.broker.actor.state ∧
            ∀ id response, server.broker.actor.waiters.get? id = some response →
              ∃ request, Asked (h ++ [(action, outputs)]) id request ∧
                request.response = response ∧
                Submits server.broker.actor.calls id request.packet := by
        intro act server out hact hs
        have hcont := stepped_continues hs
        refine ⟨hcont.run ihrun, ?_⟩
        have hold : ∀ id response, n.server.broker.actor.waiters.get? id = some response →
            ∃ request, Asked (h ++ [(action, outputs)]) id request ∧
              request.response = response ∧
              Submits server.broker.actor.calls id request.packet := by
          intro id response hw
          obtain ⟨request, hasked, hresp, hsub⟩ := ihwait id response hw
          exact ⟨request, hasked.snoc _, hresp, hsub.mono (fun c hc => hcont.mem hc)⟩
        intro id response hw
        cases hs with
        | accepted _ => exact hold id response hw
        | acted _ _ => exact hold id response hw
        | cleared => exact hold id response hw
        | stopping _ => exact hold id response hw
        | turned hinput _ hb =>
            rcases (step_causes hb).waiting id response hw with
              hw | ⟨request, requested_at, hin, hresp⟩
            · exact hold id response hw
            · change _ = Input.localRequest request id requested_at at hin
              subst hin
              rcases hinput with ⟨_, _, hc, _⟩ | ⟨_, _, hturn, _⟩
              · cases hc
              · obtain ⟨c, more, hcalls, hevent⟩ := (step_causes hb).recorded _ rfl
                have hasked : Asked (h ++ [(action, outputs)]) id request := by
                  rw [hact, hturn]
                  exact ⟨requested_at, _, _, outputs,
                    List.mem_append_right _ (List.mem_singleton.mpr rfl)⟩
                refine ⟨request, hasked, hresp, c, ?_, _, _, _, _, hevent⟩
                rw [hcalls]
                exact List.mem_append_right _ (List.mem_cons_self ..)
      cases hran with
      | heard _ hs => exact hserver rfl hs
      | served _ _ hs => exact hserver rfl hs
      | pushed | took | moved =>
          refine ⟨ihrun, ?_⟩
          intro id response hw
          obtain ⟨request, hasked, hrest⟩ := ihwait id response hw
          exact ⟨request, hasked.snoc _, hrest⟩

end Runs

/-- **Answers are resolutions.**  Along every run with fresh request and session
    ids, when a local caller is answered with a packet, it had asked for some
    packet, that request was dispatched, last of all to a session and with an
    attempt number, and on the one link which holds that session a handler was
    started for exactly that request, attempt and packet and resolved to the
    answer. -/
theorem answers_are_resolutions {config : SessionConfig} {env : Environment}
    {ok : Network → NetworkAction → Prop} {broker : BrokerConfig} {pairing : PairingService}
    {h : List (NetworkAction × List NetworkOutput)} {n n' : Network}
    (hr : NetworkRun config env ok broker pairing h n)
    (hrequests : (submittedIds n.server.broker.actor.calls).Nodup)
    (hsessions : (connectedIds n.server.broker.actor.calls).Nodup) {action : NetworkAction}
    {outputs : List NetworkOutput} (hstep : n.step config env action = some (n', outputs))
    {response : ResponseId} {packet : Bytes}
    (ho : .server (.answered response (.ok packet)) ∈ outputs) :
    ∃ id request session_id attempt link client received,
      Asked h id request ∧ request.response = response ∧
      LatestDispatch id session_id attempt (history n.server.broker.actor.calls) ∧
      (∀ other, Holds n.server other session_id ↔ other = link) ∧
      Observed h (.client client (.handling link received)) ∧
      Observed h (.client client (.resolved link received packet)) ∧
      received.request_id = id ∧ received.attempt = attempt ∧
      received.packet = request.packet := by
  obtain ⟨hg, hfaithful⟩ := run_preserves (client_faithful env) (server_faithful config)
    (faithful_new broker pairing) hr
  obtain ⟨hrun, hwaiting⟩ := run_asked hr
  have hanswered : ∃ session_id id attempt,
      .response session_id id attempt packet ∈ n.server.mailbox ∧
        n.server.broker.actor.waiters.get? id = some response ∧
        InFlight n.server.broker.actor.state id session_id attempt := by
    cases network_step_cases hg.sane hstep with
    | heard _ hs =>
        obtain ⟨o, hmem, heq⟩ := List.mem_map.mp ho
        obtain rfl := NetworkOutput.server.inj heq
        exact stepped_answered hs hmem
    | served _ _ hs =>
        obtain ⟨o, hmem, heq⟩ := List.mem_map.mp ho
        obtain rfl := NetworkOutput.server.inj heq
        exact stepped_answered hs hmem
    | pushed => cases ho
    | took | moved =>
        obtain ⟨o, _, heq⟩ := List.mem_map.mp ho
        cases heq
  obtain ⟨session_id, id, attempt, hmail, hw, hflight⟩ := hanswered
  obtain ⟨request, hasked, hresponse, hsubmits⟩ := hwaiting id response hw
  obtain ⟨link, hholds, client, received, hhandling, hresolved, hid, hattempt, hrequested⟩ :=
    hfaithful.posted session_id id attempt packet hmail
  refine ⟨id, request, session_id, attempt, link, client, received, hasked, hresponse,
    run_tags hrun hrequests hflight, ?_, (run_log hr _).mp hhandling,
    (run_log hr _).mp hresolved, hid, hattempt, ?_⟩
  · intro other
    constructor
    · intro hother
      exact hfaithful.sessions.alone hsessions other link session_id hother hholds
    · rintro rfl
      exact hholds
  · -- the packet on the wire and the caller's packet were submitted under one id
    obtain ⟨_, _, hdispatched⟩ := hrequested
    have hcarried := (run_packets hrun).2 _ _ _ _ _ _ _ hdispatched
    rw [hid] at hcarried
    exact hcarried.unique hrequests hsubmits

/-- The phone pairs and becomes ready, a local caller asks, the phone's handler
    resolves, and its messages arrive up to the answer. -/
def askPhone : List NetworkAction :=
  pairPhone ++
  [.client 0 (.setReady true), .server (.turn (.localRequest ⟨[11], none, 5⟩ ⟨1⟩ 0) none 1),
   .server (.task 1 (.forward true)),
   .client 0 (.message 1 (.message (.agentRequest ⟨⟨1⟩, 1, 0, 0, [11], none⟩))),
   .client 0 (.receive 0), .client 0 (.resolved 0 [99]),
   .server (.task 1 (.receive (some (.setIdentities [])) true)),
   .server (.task 1 (.receive (some .agentLocked) true)),
   .server (.task 1 (.receive (some .agentReady) true)),
   .server (.task 1 (.receive (some (.agentResponse ⟨1⟩ 1 [99])) true)),
   .server (.command ⟨0⟩ none 1), .server (.command ⟨0⟩ none 1)]

/-- The broker then answers the caller with what the handler resolved to. -/
theorem answers_are_resolutions_phone :
    ((anyOutcome askPhone).2.step plainConfig plainEnvironment
      (.server (.command ⟨0⟩ none 1))).map Prod.snd
        = some [.server (.answered 5 (.ok [99]))] ∧
    ∃ id request session_id attempt link client received,
      Asked (anyOutcome askPhone).1 id request ∧ request.response = 5 ∧
      LatestDispatch id session_id attempt
        (history (anyOutcome askPhone).2.server.broker.actor.calls) ∧
      (∀ other, Holds (anyOutcome askPhone).2.server other session_id ↔ other = link) ∧
      Observed (anyOutcome askPhone).1 (.client client (.handling link received)) ∧
      Observed (anyOutcome askPhone).1 (.client client (.resolved link received [99])) ∧
      received.request_id = id ∧ received.attempt = attempt ∧
      received.packet = request.packet := by
  have hout : ((anyOutcome askPhone).2.step plainConfig plainEnvironment
      (.server (.command ⟨0⟩ none 1))).map Prod.snd
        = some [.server (.answered 5 (.ok [99]))] := by decide
  refine ⟨hout, ?_⟩
  obtain ⟨r, hnext, hr⟩ := Option.map_eq_some_iff.mp hout
  exact answers_are_resolutions
    (run_outcome (Network.step plainConfig plainEnvironment) AnyStep askPhone (by decide))
    (by decide) (by decide) hnext (hr ▸ List.mem_singleton.mpr rfl)

end EndToEnd
