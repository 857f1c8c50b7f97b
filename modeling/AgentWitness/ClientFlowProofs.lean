import AgentWitness.RemoteClientProofs
import AgentWitness.ReplicaProofs
import AgentWitness.TransitionProofs

/-! # The client as a machine of small moves

    A turn of `RemoteSession` runs whole methods.  What they do to the flow of
    requests is little: a turn TAKES at most one frame from the chain, first of
    all, and then makes a sequence of MOVES: the session adopts a socket or drops
    it, a request is started or answered, a message is sent.  Everything else a
    method does is aside: it touches neither the socket, the frames, the buffer
    nor the handlers.

    The refinement theorem of this module says so of every turn, with the same
    outputs in the same order.  An invariant of the flow is then proved move by
    move. -/

namespace ClientFlow

open Packet KeyedMap BrokerTask RemoteProtocol RemoteClient Replica Transition

/-- What a message asks of the buffer. -/
def bufferChange : ServerMessage → Option (Change Key)
  | .agentRequest request => some (.add (requestKey request))
  | .cancelRequest request_id attempt => some (.remove (request_id, attempt))
  | _ => none

/-- The outputs that no move of the flow emits. -/
def quiet : ClientOutput → Bool
  | .sent _ _ | .created _ | .handling _ _ | .resolved _ _ _ => false
  | _ => true

/-- The messages of an established session other than answers. -/
def routine : ClientMessage → Bool
  | .pairRequest _ | .authenticate _ _ | .agentResponse _ _ _ => false
  | _ => true

/-- The two ways in which a request does not fit into the buffer. -/
def overflows : Cause → Bool
  | .duplicateRequest | .bufferFull => true
  | _ => false

/-- A change that leaves the flow of requests alone.  It rejects nothing, and it
    lifts no failure from the current socket. -/
structure Aside (s s' : RemoteSession) : Prop where
  socket : s'.socket = s.socket
  receiving : s'.receiving = s.receiving
  pending : s'.pending = s.pending
  handlers : s'.handlers = s.handlers
  sockets : s'.sockets = s.sockets
  generation : s'.generation = s.generation
  opens : s'.opens = s.opens
  allocated : s'.allocated = s.allocated
  rejected : s'.snapshot.status = .rejected → s.snapshot.status = .rejected
  connected : s.snapshot.status = .connected →
    s'.snapshot.status = .connected ∨ s.pending.len = 0
  failing : ∀ socket cause, s'.chain = .failing socket cause →
    s.chain = .failing socket cause ∨ overflows cause = false
  doomed : ∀ socket cause, s.chain = .failing socket cause → s.socket = some socket →
    s'.chain = s.chain

/-- One move. -/
inductive Move (env : Environment) :
    RemoteSession → List ClientOutput → RemoteSession → Prop where
  | aside {s s' outputs} : Aside s s' → (∀ o ∈ outputs, quiet o = true) →
      Move env s outputs s'
  -- the lifecycle of sockets
  | bumped {s} : Move env s [] { s with generation := s.generation + 1 }
  | began {s opening} : s.socket = none →
      Move env s [] { s with
        generation := s.generation + 1
        opens := s.opens.insert (s.generation + 1) opening }
  | ended {s generation} : Move env s [] { s with opens := s.opens.erase generation }
  | adopted {s socket w} : s.socket = none → s.sockets socket = none →
      s.opens.get? s.generation = none → w.readyState = .connecting →
      Move env s [.created socket] { s with
        socket := some socket
        sockets := Function.update s.sockets socket (some w) }
  | greeted {s socket w} : s.socket = some socket → s.sockets socket = some w →
      w.readyState = .connecting →
      Move env s [.sent socket w.greeting] (s.setReadyState socket w .open)
  | opened {s socket w} : s.socket ≠ some socket → s.sockets socket = some w →
      w.readyState = .connecting → Move env s [] (s.setReadyState socket w .open)
  | shut {s socket w readyState} : s.sockets socket = some w → readyState ≠ .open →
      readyState ≠ .connecting → Move env s [] (s.setReadyState socket w readyState)
  | dropped {s} : Move env s [] { s with socket := none, pending := .empty }
  -- requests and what leaves
  | started {s socket key pending} : s.socket = some socket →
      s.pending.get? key = some pending → pending.processing = false →
      s.ready = true ∨ env.canProcessBeforeReady pending.request = true →
      Move env s [.handling socket pending.request] { s with
        pending := s.pending.insert key { pending with processing := true }
        handlers := s.handlers.insert pending.token
          ⟨socket, { pending with processing := true }, none⟩ }
  | sent {s socket message} : s.socket = some socket → s.isOpen socket = true →
      routine message = true → env.encodeError message = none →
      Move env s [.sent socket message] s
  | answered {s token h packet} : s.handlers.get? token = some h → h.thrown = none →
      s.socket = some h.socket → s.isOpen h.socket = true →
      (s.pending.get? (requestKey h.pending.request)).any
        (fun pending => pending.token = h.pending.token) = true →
      Move env s
        [.resolved h.socket h.pending.request packet, .sent h.socket
          (.agentResponse h.pending.request.request_id h.pending.request.attempt packet)]
        { s with
          pending := s.pending.erase (requestKey h.pending.request)
          handlers := s.handlers.erase token }
  | resolved {s token h packet} : s.handlers.get? token = some h → h.thrown = none →
      Move env s [.resolved h.socket h.pending.request packet]
        { s with handlers := s.handlers.erase token }
  | released {s token} : Move env s [] { s with handlers := s.handlers.erase token }
  | buried {s token h} : h.thrown ≠ none →
      Move env s [] { s with handlers := s.handlers.insert token h }

/-- How the oldest frame is taken from the chain. -/
inductive Take (s : RemoteSession) (received : Received) (rest : List Received) :
    RemoteSession → Prop where
  /-- It asks nothing of the buffer, or there is nothing to ask it of. -/
  | popped :
      s.socket ≠ some received.socket ∨
        (∃ message, received.frame = .message message ∧
          (s.pending.len = 0 ∨ bufferChange message = none)) →
      Take s received rest { s with receiving := rest }
  | threw {cause} : s.socket = some received.socket → overflows cause = false →
      Take s received rest
        { s with receiving := rest, chain := .failing received.socket cause }
  | rejected : s.socket = some received.socket → received.frame = .message .rejected →
      Take s received rest { s with
        receiving := rest, socket := none, pending := .empty
        snapshot.status := .rejected }
  | enqueued {request} : s.socket = some received.socket →
      received.frame = .message (.agentRequest request) → s.snapshot.status = .connected →
      s.pending.get? (requestKey request) = none → s.pending.len < MAX_PENDING_REQUESTS →
      Take s received rest { s with
        receiving := rest
        pending := s.pending.insert (requestKey request) ⟨request, false, s.allocated⟩
        allocated := s.allocated + 1 }
  | refused {request cause} : s.socket = some received.socket →
      received.frame = .message (.agentRequest request) →
      ((s.pending.get? (requestKey request)).isSome = true ∧ cause = .duplicateRequest)
        ∨ (s.pending.get? (requestKey request) = none ∧
          MAX_PENDING_REQUESTS ≤ s.pending.len ∧ cause = .bufferFull) →
      Take s received rest
        { s with receiving := rest, chain := .failing received.socket cause }
  | cancelled {request_id attempt} : s.socket = some received.socket →
      received.frame = .message (.cancelRequest request_id attempt) →
      Take s received rest
        { s with receiving := rest, pending := s.pending.erase (request_id, attempt) }

/-- A sequence of moves with all its outputs. -/
def Path (env : Environment) (s : RemoteSession) (outputs : List ClientOutput)
    (s' : RemoteSession) : Prop :=
  ∃ moves, Run (Move env) s moves s' ∧ moves.flatten = outputs

section Paths

variable {env : Environment} {s t u : RemoteSession} {outputs more : List ClientOutput}

theorem Path.refl (env : Environment) (s : RemoteSession) : Path env s [] s := ⟨[], .nil, rfl⟩

theorem Path.one (h : Move env s outputs t) : Path env s outputs t :=
  ⟨[outputs], .snoc .nil h, List.append_nil _⟩

theorem Path.trans (h : Path env s outputs t) (h' : Path env t more u) :
    Path env s (outputs ++ more) u := by
  obtain ⟨moves, hr, rfl⟩ := h
  obtain ⟨moves', hr', rfl⟩ := h'
  exact ⟨moves ++ moves', hr.append hr', List.flatten_append⟩

/-- Silent moves first. -/
theorem Path.after (h : Path env s [] t) (h' : Path env t outputs u) : Path env s outputs u :=
  h.trans h'

/-- Silent moves last. -/
theorem Path.andThen (h : Path env s outputs t) (h' : Path env t [] u) : Path env s outputs u := by
  have := h.trans h'
  rwa [List.append_nil] at this

theorem Path.aside (h : Aside s t) : Path env s [] t :=
  .one (.aside h (fun _ ho => by cases ho))

/-- Only quiet outputs, and nothing changes. -/
theorem Path.quiet (hq : ∀ o ∈ outputs, ClientFlow.quiet o = true)
    (h : Aside s t) : Path env s outputs t :=
  .one (.aside h hq)

/-- **Move rule.** What every move keeps, a sequence of moves keeps. -/
theorem Path.invariant (h : Path env s outputs t) (Inv : List ClientOutput → RemoteSession → Prop)
    (hinit : Inv [] s)
    (hmove : ∀ before s o t, Inv before s → Move env s o t → Inv (before ++ o) t) :
    Inv outputs t := by
  obtain ⟨moves, hr, rfl⟩ := h
  induction hr with
  | nil => exact hinit
  | snoc _ hm ih =>
      rw [List.flatten_append, List.flatten_singleton]
      exact hmove _ _ _ _ ih hm

end Paths

/-! ## Losing a socket -/

theorem Aside.refl (s : RemoteSession) : Aside s s :=
  ⟨rfl, rfl, rfl, rfl, rfl, rfl, rfl, rfl, id, Or.inl, fun _ _ => Or.inl, fun _ _ _ _ => rfl⟩

/-- A change of nothing but the published snapshot. -/
theorem aside_snapshot (s : RemoteSession) (snapshot : ConnectionSnapshot)
    (hrej : snapshot.status = .rejected → s.snapshot.status = .rejected)
    (hcon : s.snapshot.status = .connected →
      snapshot.status = .connected ∨ s.pending.len = 0) :
    Aside s { s with snapshot := snapshot } :=
  ⟨rfl, rfl, rfl, rfl, rfl, rfl, rfl, rfl, hrej, hcon, fun _ _ => Or.inl, fun _ _ _ _ => rfl⟩

theorem clearPending_eq (s : RemoteSession) :
    ∃ snapshot, s.clearPending = { s with pending := .empty, snapshot := snapshot } ∧
      snapshot.status = s.snapshot.status := by
  rw [RemoteSession.clearPending]
  split
  · rename_i hlen
    refine ⟨s.snapshot, ?_, rfl⟩
    rw [← eq_empty_of_len hlen]
  · exact ⟨_, rfl, rfl⟩

theorem disconnects_quiet (s : RemoteSession) (socket : SocketId) :
    ∀ o ∈ .closed socket :: s.disconnects, quiet o = true := by
  intro o ho
  rw [RemoteSession.disconnects] at ho
  rcases List.mem_cons.mp ho with rfl | ho
  · rfl
  · split at ho
    · rw [List.mem_singleton.mp ho]
      rfl
    · cases ho

section Methods

variable (env : Environment)

theorem closeWebSocket_path (s : RemoteSession) (socket : SocketId) :
    Path env s [] (s.closeWebSocket socket) := by
  rw [RemoteSession.closeWebSocket]
  cases hw : s.sockets socket with
  | none =>
      rw [Option.map_none, ← hw, Function.update_eq_self]
      exact .refl env s
  | some w =>
      have hclose : ∃ state, w.close = { w with readyState := state } ∧ state ≠ .open ∧
          state ≠ .connecting := by
        obtain ⟨state, pairing, label⟩ := w
        cases state with
        | connecting | «open» | closing => exact ⟨.closing, rfl, (by rintro ⟨⟩), (by rintro ⟨⟩)⟩
        | closed => exact ⟨.closed, rfl, (by rintro ⟨⟩), (by rintro ⟨⟩)⟩
      obtain ⟨state, heq, hno, hnc⟩ := hclose
      rw [Option.map_some, heq]
      exact .one (.shut hw hno hnc)

/-- The part shared by the three ways to lose a socket: drop it, publish, close
    it, and tell the worker. -/
theorem lose_path {s s' : RemoteSession} {socket : SocketId}
    (h : Aside { s with socket := none, pending := .empty } s') :
    Path env s (.closed socket :: s.disconnects) (s'.closeWebSocket socket) :=
  ((Path.one .dropped).after (.aside h)).after
    ((closeWebSocket_path env s' socket).after
      (.quiet (disconnects_quiet s socket) (Aside.refl _)))

/-- Replacing the chain, where nothing but a failure of this socket is lifted. -/
def Lifts (s : RemoteSession) (socket : SocketId) (chain : Chain) : Prop :=
  chain = s.chain ∨ (chain = .idle ∧ ∃ cause, s.chain = .failing socket cause)

theorem Lifts.failing {s : RemoteSession} {socket : SocketId} {chain : Chain}
    (h : Lifts s socket chain) {other : SocketId} {cause : Cause}
    (hc : chain = .failing other cause) : s.chain = .failing other cause := by
  rcases h with rfl | ⟨rfl, _⟩
  · exact hc
  · cases hc

theorem Lifts.aside {s : RemoteSession} {socket : SocketId} {chain : Chain}
    (h : Lifts s socket chain) (hs : s.socket ≠ some socket) :
    Aside s { s with chain := chain } := by
  refine ⟨rfl, rfl, rfl, rfl, rfl, rfl, rfl, rfl, id, Or.inl, fun _ _ hc => Or.inl (h.failing hc), ?_⟩
  intro other cause hc hcur
  rcases h with heq | ⟨_, cause', hc'⟩
  · exact heq
  · obtain ⟨rfl, _⟩ := Chain.failing.inj (hc.symm.trans hc')
    exact absurd hcur hs

theorem finish_path {s : RemoteSession} {socket : SocketId} {chain : Chain}
    (hl : Lifts s socket chain) {status : Status} (error : String) (hstatus : status ≠ .rejected) :
    Path env s (({ s with chain := chain } : RemoteSession).finish socket status error).2
      (({ s with chain := chain } : RemoteSession).finish socket status error).1 := by
  rw [RemoteSession.finish]
  split
  · refine lose_path env ?_
    obtain ⟨snapshot, heq, _⟩ := clearPending_eq
      { s with chain := chain, socket := none }.stopRetry
    rw [heq]
    exact ⟨rfl, rfl, rfl, rfl, rfl, rfl, rfl, rfl, fun hr => absurd hr hstatus, fun _ => Or.inr rfl,
      fun _ _ hc => Or.inl (hl.failing hc), fun _ _ _ hs => (by cases hs)⟩
  · rename_i hs
    exact .aside (hl.aside hs)

theorem scheduleRetry_aside (s : RemoteSession) : Aside s s.scheduleRetry := by
  rw [RemoteSession.scheduleRetry]
  split
  · exact Aside.refl s
  · exact ⟨rfl, rfl, rfl, rfl, rfl, rfl, rfl, rfl, id, Or.inl, fun _ _ => Or.inl, fun _ _ _ _ => rfl⟩

theorem connectionLost_path {s : RemoteSession} {socket : SocketId} {chain : Chain}
    (hl : Lifts s socket chain) :
    Path env s (({ s with chain := chain } : RemoteSession).connectionLost socket).2
      (({ s with chain := chain } : RemoteSession).connectionLost socket).1 := by
  rw [RemoteSession.connectionLost]
  split
  · refine Path.andThen (lose_path env ?_) (.aside (scheduleRetry_aside _))
    obtain ⟨snapshot, heq, _⟩ := clearPending_eq { s with chain := chain, socket := none }
    rw [heq]
    exact ⟨rfl, rfl, rfl, rfl, rfl, rfl, rfl, rfl, (fun hr => by cases hr), fun _ => Or.inr rfl,
      fun _ _ hc => Or.inl (hl.failing hc), fun _ _ _ hs => (by cases hs)⟩
  · rename_i hs
    exact .aside (hl.aside hs)

theorem fail_path {s : RemoteSession} {socket : SocketId} {chain : Chain}
    (hl : Lifts s socket chain) (cause : Cause) :
    Path env s (({ s with chain := chain } : RemoteSession).fail socket cause).2
      (({ s with chain := chain } : RemoteSession).fail socket cause).1 := by
  rw [RemoteSession.fail]
  split
  · exact finish_path env hl cause.message (by rintro ⟨⟩)
  · exact connectionLost_path env hl

theorem closeSocket_path (s : RemoteSession) :
    Path env s s.closeSocket.2 s.closeSocket.1 ∧ s.closeSocket.1.socket = none ∧
      s.closeSocket.1.pending = .empty := by
  obtain ⟨snapshot, heq, hstatus⟩ := clearPending_eq
    { s with generation := s.generation + 1, socket := none, pairing := none }
  have haside : Aside { s with
      generation := s.generation + 1, socket := none, pending := .empty }
      { s with
        generation := s.generation + 1, socket := none, pairing := none, pending := .empty
        snapshot := snapshot } :=
    ⟨rfl, rfl, rfl, rfl, rfl, rfl, rfl, rfl, fun hr => hstatus.symm.trans hr,
      fun _ => Or.inr rfl, fun _ _ => Or.inl, fun _ _ _ hs => (by cases hs)⟩
  have hlost : Path env s [] { s with
      generation := s.generation + 1, socket := none, pairing := none, pending := .empty
      snapshot := snapshot } :=
    ((Path.one .dropped).after (.one .bumped)).after (.aside haside)
  rw [RemoteSession.closeSocket, heq]
  cases s.socket with
  | none =>
      refine ⟨hlost.after (.quiet ?_ (Aside.refl _)), rfl, rfl⟩
      exact fun o ho => disconnects_quiet s 0 o (List.mem_cons_of_mem _ ho)
  | some socket =>
      refine ⟨hlost.after ((closeWebSocket_path env _ socket).after ?_), rfl, rfl⟩
      exact .quiet (disconnects_quiet s socket) (Aside.refl _)

theorem restart_path (s : RemoteSession) {status : Status} (hstatus : status ≠ .rejected) :
    Path env s (s.restart status).2 (s.restart status).1 := by
  have hstop : Aside s s.stopRetry :=
    ⟨rfl, rfl, rfl, rfl, rfl, rfl, rfl, rfl, id, Or.inl, fun _ _ => Or.inl, fun _ _ _ _ => rfl⟩
  obtain ⟨hpath, _, hempty⟩ := closeSocket_path env s.stopRetry
  refine ((Path.aside hstop).after hpath).andThen (.aside ?_)
  refine aside_snapshot _ _ (fun hr => absurd hr hstatus) (fun _ => Or.inr ?_)
  rw [hempty]
  rfl

theorem openSocket_path (s : RemoteSession) : Path env s s.openSocket.2 s.openSocket.1 := by
  rw [RemoteSession.openSocket]
  split
  · split
    · exact .refl env s
    · rename_i endpoint label _ _ hfree
      have hnone : s.socket = none :=
        Option.not_isSome_iff_eq_none.mp (fun hs => hfree (Or.inr hs))
      refine (Path.one (.began hnone)).after (.quiet ?_ (Aside.refl _))
      intro o ho
      rw [List.mem_singleton.mp ho]
      rfl
  · exact .refl env s

/-! ## Methods that may throw -/

/-- A method that moves, keeps the socket and the chain, and throws nothing about
    the buffer. -/
structure Routed (s : RemoteSession) (r : Outcome) : Prop where
  path : Path env s r.outputs r.session
  socket : r.session.socket = s.socket
  chain : r.session.chain = s.chain
  thrown : ∀ cause, r.thrown = some cause → overflows cause = false

variable {env}

theorem Routed.done (s : RemoteSession) : Routed env s s.done :=
  ⟨.refl env s, rfl, rfl, (by rintro _ ⟨⟩)⟩

theorem Routed.andThen {s : RemoteSession} {r : Outcome} {next : RemoteSession → Outcome}
    (h : Routed env s r)
    (hnext : ∀ t, t.socket = s.socket → Routed env t (next t)) :
    Routed env s (r.andThen next) := by
  rw [Outcome.andThen]
  cases hr : r.thrown with
  | some cause => exact h
  | none =>
      have hn := hnext r.session h.socket
      exact ⟨h.path.trans hn.path, hn.socket.trans h.socket, hn.chain.trans h.chain, hn.thrown⟩

theorem send_routed (s : RemoteSession) (socket : SocketId) {message : ClientMessage}
    (hm : routine message = true) : Routed env s (s.send env socket message) := by
  rw [RemoteSession.send]
  split
  · rename_i hopen
    cases he : env.encodeError message with
    | some error =>
        refine ⟨.refl env s, rfl, rfl, ?_⟩
        intro cause hc
        rw [← Option.some.inj hc]
        rfl
    | none => exact ⟨.one (.sent hopen.1 hopen.2 hm he), rfl, rfl, (by rintro _ ⟨⟩)⟩
  · refine ⟨.refl env s, rfl, rfl, ?_⟩
    intro cause hc
    rw [← Option.some.inj hc]
    rfl

theorem tryProcess_routed {s : RemoteSession} {socket : SocketId} (hs : s.socket = some socket)
    (key : Key) : Routed env s (s.tryProcess env socket key) := by
  rw [RemoteSession.tryProcess]
  split
  · exact .done s
  · rename_i pending hp
    split
    · exact .done s
    · rename_i hgo
      obtain ⟨hidle, hready⟩ := not_or.mp hgo
      have hmay : s.ready = true ∨ env.canProcessBeforeReady pending.request = true := by
        by_cases hr : s.ready = true
        · exact Or.inl hr
        · exact Or.inr (not_not.mp (fun hc => hready ⟨hr, hc⟩))
      have hmove := @Move.started env s socket key pending hs hp (Bool.eq_false_iff.mpr hidle) hmay
      exact ⟨.one hmove, rfl, rfl, (by rintro _ ⟨⟩)⟩

theorem drain_routed {s : RemoteSession} {socket : SocketId} (hs : s.socket = some socket) :
    Routed env s (s.drain env socket) := by
  -- the fold starts from an outcome that is routed already
  have hfold : ∀ (keys : List Key) (r : Outcome), Routed env s r →
      Routed env s (keys.foldl
        (fun r key => r.andThen (fun s => s.tryProcess env socket key)) r) := by
    intro keys
    induction keys with
    | nil => exact fun r hr => hr
    | cons key rest ih =>
        intro r hr
        refine ih _ (hr.andThen ?_)
        intro t ht
        exact tryProcess_routed (ht.trans hs) key
  exact hfold _ _ (.done s)

theorem availability_routine (ready : Bool) : routine (availability ready) = true := by
  cases ready
  · rfl
  · rfl

theorem connected_routed {s : RemoteSession} {socket : SocketId} (hs : s.socket = some socket)
    (serverId : Uuid) (sessionId : SessionId) (vapidPublicKey : Bytes) :
    Routed env s (s.connected env socket serverId sessionId vapidPublicKey) := by
  rw [RemoteSession.connected]
  generalize ht : s.setSnapshot _ = t
  have hpub : Aside s t := by
    rw [← ht]
    exact aside_snapshot s _ (fun hr => by cases hr) (fun _ => Or.inl rfl)
  have hchain : t.chain = s.chain := by
    rw [← ht]
    rfl
  have hall : Routed env t (((t.sendIdentities env socket).andThen
      (fun s => s.send env socket (availability s.ready))).andThen
      (fun s => s.drain env socket)) := by
    refine Routed.andThen (Routed.andThen (send_routed t socket rfl) ?_) ?_
    · intro u _
      exact send_routed u socket (availability_routine u.ready)
    · intro u hu
      exact drain_routed (hu.trans (hpub.socket.trans hs))
  exact ⟨(Path.aside hpub).after hall.path, hall.socket.trans hpub.socket,
    hall.chain.trans hchain, hall.thrown⟩

/-- A caller that sees what was thrown. -/
theorem exposed_path {s : RemoteSession} {r : Outcome} (h : Routed env s r) :
    Path env s r.exposed.2 r.exposed.1 := by
  rw [Outcome.exposed]
  cases r.thrown with
  | none => exact h.path
  | some cause =>
      refine h.path.trans (.quiet ?_ (Aside.refl _))
      intro o ho
      rw [List.mem_singleton.mp ho]
      rfl

/-- A link of the chain, begun while no failure was due. -/
theorem chained_path {s t : RemoteSession} {r : Outcome} (socket : SocketId)
    (hpath : Path env s [] t) (h : Routed env t r)
    (hidle : ∀ socket cause, t.chain ≠ .failing socket cause) :
    Path env s (r.chained socket).2 (r.chained socket).1 := by
  rw [Outcome.chained]
  cases hr : r.thrown with
  | none => exact hpath.after h.path
  | some cause =>
      refine (hpath.after h.path).andThen (.aside ?_)
      refine ⟨rfl, rfl, rfl, rfl, rfl, rfl, rfl, rfl, id, Or.inl, ?_, ?_⟩
      · intro socket' cause' hc
        obtain ⟨_, rfl⟩ := Chain.failing.inj hc
        exact Or.inr (h.thrown cause hr)
      · intro socket' cause' hc
        rw [h.chain] at hc
        exact absurd hc (hidle socket' cause')

/-! ## Continuations -/

/-- The oldest frame is taken, then the session moves. -/
def Took (env : Environment) (s : RemoteSession) (received : Received) (rest : List Received)
    (r : RemoteSession × List ClientOutput) : Prop :=
  ∃ t, Take s received rest t ∧ Path env t r.2 r.1

theorem throw_took {s : RemoteSession} {received : Received} {rest : List Received}
    (hs : s.socket = some received.socket) (cause : Cause) (hc : overflows cause = false) :
    Took env s received rest
      (Outcome.chained (RemoteSession.throw { s with receiving := rest } cause)
        received.socket) :=
  ⟨_, .threw hs hc, .refl env _⟩

/-- What `RemoteSession` relies on: only a connected session buffers, and an
    `#open` of the current generation has no socket yet. -/
structure Sane (s : RemoteSession) : Prop where
  buffered : s.snapshot.status ≠ .connected ∨ s.socket = none → s.pending.len = 0
  opening : s.opens.get? s.generation ≠ none → s.socket = none
  bounded : ∀ generation, s.opens.get? generation ≠ none → generation ≤ s.generation

/-- The one way to the status `rejected`. -/
theorem rejected_took {s : RemoteSession} {received : Received} {rest : List Received}
    (hs : s.socket = some received.socket) (hm : received.frame = .message .rejected)
    (error : String) :
    Took env s received rest
      (({ s with receiving := rest } : RemoteSession).finish received.socket .rejected error) := by
  rw [RemoteSession.finish, if_pos hs]
  obtain ⟨snapshot, heq, _⟩ := clearPending_eq
    { s with receiving := rest, socket := none }.stopRetry
  rw [heq]
  refine ⟨_, .rejected hs hm, (Path.aside ?_).after
    ((closeWebSocket_path env _ _).after (.quiet (disconnects_quiet _ _) (Aside.refl _)))⟩
  exact ⟨rfl, rfl, rfl, rfl, rfl, rfl, rfl, rfl, fun _ => rfl, fun _ => Or.inr rfl,
    fun _ _ => Or.inl, fun _ _ _ hs => (by cases hs)⟩

theorem handshake_took {s : RemoteSession} {received : Received} {rest : List Received}
    {message : ServerMessage} (now : Nat) (hsane : Sane s)
    (hs : s.socket = some received.socket) (hm : received.frame = .message message)
    (hnc : s.snapshot.status ≠ .connected) (hidle : s.chain = .idle) :
    Took env s received rest
      (({ s with receiving := rest } : RemoteSession).handshake env received.socket message
        received.label now |>.chained received.socket) := by
  have hpop : Take s received rest { s with receiving := rest } :=
    .popped (Or.inr ⟨message, hm, Or.inl (hsane.buffered (Or.inl hnc))⟩)
  rw [RemoteSession.handshake]
  split
  · exact ⟨_, hpop, .refl env _⟩
  · rename_i endpoint _
    cases message with
    | rejected => exact rejected_took hs hm _
    | paired serverId clientId credential sessionId vapidPublicKey =>
        simp only
        split
        · exact throw_took hs .alreadyPaired rfl
        · refine ⟨_, hpop, .quiet ?_ ?_⟩
          · intro o ho
            rw [List.mem_singleton.mp ho]
            rfl
          · refine ⟨rfl, rfl, rfl, rfl, rfl, rfl, rfl, rfl, id, Or.inl, (fun _ _ hc => by cases hc), ?_⟩
            intro socket cause hc
            cases (hidle.symm.trans hc)
    | authenticated serverId sessionId vapidPublicKey =>
        simp only
        split
        · refine ⟨_, hpop, chained_path received.socket (.refl env _)
            (connected_routed (s := { s with receiving := rest }) hs serverId sessionId
              vapidPublicKey) ?_⟩
          intro socket cause hc
          cases (hidle.symm.trans hc)
        · exact throw_took hs .serverMismatch rfl
    | agentRequest request => exact throw_took hs .unexpectedMessage rfl
    | cancelRequest requestId attempt => exact throw_took hs .unexpectedMessage rfl
    | ping => exact throw_took hs .unexpectedMessage rfl

theorem enqueue_took {s : RemoteSession} {received : Received} {rest : List Received}
    {request : RemoteRequest} (hs : s.socket = some received.socket)
    (hm : received.frame = .message (.agentRequest request))
    (hcon : s.snapshot.status = .connected) (hidle : s.chain = .idle) :
    Took env s received rest
      (({ s with receiving := rest } : RemoteSession).enqueue env received.socket request
        |>.chained received.socket) := by
  rw [RemoteSession.enqueue]
  split
  · rename_i hdup
    exact ⟨_, .refused hs hm (Or.inl ⟨hdup, rfl⟩), .refl env _⟩
  · rename_i hnew
    have hnone : s.pending.get? (requestKey request) = none :=
      Option.not_isSome_iff_eq_none.mp hnew
    split
    · rename_i hfull
      exact ⟨_, .refused hs hm (Or.inr ⟨hnone, hfull, rfl⟩), .refl env _⟩
    · rename_i hroom
      refine ⟨_, .enqueued hs hm hcon hnone (Nat.lt_of_not_ge hroom),
        chained_path received.socket (.aside ?_) (tryProcess_routed ?_ _) ?_⟩
      · exact aside_snapshot _ _ id Or.inl
      · exact hs
      · intro socket cause hc
        cases (hidle.symm.trans hc)

theorem cancel_took {s : RemoteSession} {received : Received} {rest : List Received}
    {requestId : RequestId} {attempt : UInt32} (now : Nat)
    (hs : s.socket = some received.socket)
    (hm : received.frame = .message (.cancelRequest requestId attempt)) :
    Took env s received rest
      (({ s with receiving := rest } : RemoteSession).cancel requestId attempt now
        |>.chained received.socket) := by
  have htake : Take s received rest _ := .cancelled hs hm
  rw [RemoteSession.cancel]
  split
  · rename_i hnone
    rw [erase_eq_self hnone] at htake
    exact ⟨_, htake, .refl env _⟩
  · refine ⟨_, htake, .quiet ?_ (aside_snapshot _ _ id Or.inl)⟩
    intro o ho
    rw [List.mem_singleton.mp ho]
    rfl

/-- **The chain goes on**: it takes one frame, then the session moves. -/
theorem receive_took {s : RemoteSession} {received : Received} {rest : List Received}
    (now : Nat) (hsane : Sane s) (hidle : s.chain = .idle) :
    Took env s received rest
      (({ s with receiving := rest } : RemoteSession).receiveMessage env received now
        |>.chained received.socket) := by
  rw [RemoteSession.receiveMessage]
  split
  · rename_i hs
    change s.socket = some received.socket at hs
    have hquiet : s.snapshot.status ≠ .connected → (∃ m, received.frame = .message m) →
        Took env s received rest ({ s with receiving := rest }, []) := by
      rintro hnc ⟨m, hm⟩
      exact ⟨_, .popped (Or.inr ⟨m, hm, Or.inl (hsane.buffered (Or.inl hnc))⟩), .refl env _⟩
    cases hm : received.frame with
    | text => exact throw_took hs .notBinary rfl
    | malformed error => exact throw_took hs (.malformed error) rfl
    | message message =>
        cases hst : s.snapshot.status with
        | connecting => exact handshake_took now hsane hs hm (by rw [hst]; rintro ⟨⟩) hidle
        | reconnecting => exact handshake_took now hsane hs hm (by rw [hst]; rintro ⟨⟩) hidle
        | rejected => exact hquiet (by rw [hst]; rintro ⟨⟩) ⟨message, hm⟩
        | error => exact hquiet (by rw [hst]; rintro ⟨⟩) ⟨message, hm⟩
        | connected =>
            cases message with
            | ping =>
                refine ⟨_, .popped (Or.inr ⟨_, hm, Or.inr rfl⟩),
                  chained_path received.socket (.refl env _) (send_routed _ _ rfl) ?_⟩
                intro socket cause hc
                cases (hidle.symm.trans hc)
            | agentRequest request => exact enqueue_took hs hm hst hidle
            | cancelRequest requestId attempt => exact cancel_took now hs hm
            | paired serverId clientId credential sessionId vapidPublicKey =>
                exact throw_took hs .lateHandshake rfl
            | authenticated serverId sessionId vapidPublicKey =>
                exact throw_took hs .lateHandshake rfl
            | rejected => exact throw_took hs .lateHandshake rfl
  · rename_i hs
    exact ⟨_, .popped (Or.inl hs), .refl env _⟩

theorem opened_path {s : RemoteSession} {socket : SocketId} {w : WebSocket}
    (hw : s.sockets socket = some w) (hstate : w.readyState = .connecting) :
    Path env s ((s.setReadyState socket w .open).opened env socket w).2
      ((s.setReadyState socket w .open).opened env socket w).1 := by
  have hopen : (s.setReadyState socket w .open).isOpen socket = true := by
    show (Function.update s.sockets socket _ socket).any _ = true
    rw [Function.update_self]
    rfl
  rw [RemoteSession.opened, RemoteSession.send]
  by_cases hs : s.socket = some socket
  · have hcur : (s.setReadyState socket w .open).socket = some socket := hs
    rw [if_pos ⟨hcur, hopen⟩]
    cases he : env.encodeError w.greeting with
    | none => exact .one (.greeted hs hw hstate)
    | some error =>
        -- the greeting is not encodable: the socket is dropped as if before it opened
        simp only [RemoteSession.throw, RemoteSession.fail, hopen, if_true]
        rw [RemoteSession.finish, if_pos hcur]
        obtain ⟨snapshot, heq, _⟩ := clearPending_eq
          { s.setReadyState socket w .open with socket := none }.stopRetry
        rw [heq]
        have hdrop : Path env s [] { s with socket := none, pending := .empty } := .one .dropped
        have hopened := Path.one (@Move.opened env { s with socket := none, pending := .empty }
          socket w (by rintro ⟨⟩) hw hstate)
        refine ((hdrop.after hopened).after (.aside ?_)).after
          ((closeWebSocket_path env _ _).after (.quiet (disconnects_quiet _ _) (Aside.refl _)))
        exact ⟨rfl, rfl, rfl, rfl, rfl, rfl, rfl, rfl, (fun hr => by cases hr), fun _ => Or.inr rfl,
          fun _ _ => Or.inl, fun _ _ _ hs => (by cases hs)⟩
  · have hcur : (s.setReadyState socket w .open).socket ≠ some socket := hs
    rw [if_neg (fun h => hcur h.1)]
    simp only [RemoteSession.throw, RemoteSession.fail, hopen, if_true]
    rw [RemoteSession.finish, if_neg hcur]
    exact .one (.opened hs hw hstate)

theorem loaded_path {s s' : RemoteSession} {generation : Nat} {opening : Opening}
    {pairing : Except String (Option PairingRecord)} {created : Except String SocketId}
    {outputs : List ClientOutput} (hsane : Sane s)
    (ho : s.opens.get? generation = some opening)
    (h : LoadSettled { s with opens := s.opens.erase generation } generation opening pairing
      created s' outputs) : Path env s outputs s' := by
  have hend : Path env s [] { s with opens := s.opens.erase generation } := .one .ended
  -- the snapshot is replaced only while there is no socket
  have hbreak : generation = s.generation → ∀ error,
      Path env s [] (({ s with opens := s.opens.erase generation } : RemoteSession).setSnapshot
        (detached .error (some error))) := by
    intro hg error
    refine hend.after (.aside (aside_snapshot _ _ (fun hr => by cases hr) (fun _ => Or.inr ?_)))
    refine hsane.buffered (Or.inr (hsane.opening ?_))
    rw [← hg, ho]
    exact Option.some_ne_none _
  cases h with
  | ignored _ => exact hend
  | broken error hg => exact hbreak hg error
  | @adopted pairing socket hg hfree hnew =>
      have hpair : Aside { s with opens := s.opens.erase generation }
          { s with opens := s.opens.erase generation, pairing := pairing } :=
        ⟨rfl, rfl, rfl, rfl, rfl, rfl, rfl, rfl, id, Or.inl, fun _ _ => Or.inl,
          fun _ _ _ _ => rfl⟩
      refine (hend.after (.aside hpair)).after (.one (.adopted hfree hnew ?_ rfl))
      show (s.opens.erase generation).get? s.generation = none
      rw [show generation = s.generation from hg]
      exact get?_erase_self _ _

theorem paired_path {s : RemoteSession} {socket : SocketId} {pairing : PairingRecord}
    {sessionId : SessionId} {vapidPublicKey : Bytes}
    (hc : s.chain = .saving socket pairing sessionId vapidPublicKey) :
    Path env s
      (({ s with chain := .idle } : RemoteSession).paired env socket pairing sessionId
        vapidPublicKey |>.chained socket).2
      (({ s with chain := .idle } : RemoteSession).paired env socket pairing sessionId
        vapidPublicKey |>.chained socket).1 := by
  have hidle : ∀ pairing', Aside s { s with chain := .idle, pairing := pairing' } := by
    intro pairing'
    refine ⟨rfl, rfl, rfl, rfl, rfl, rfl, rfl, rfl, id, Or.inl, (fun _ _ hf => by cases hf), ?_⟩
    intro other cause hf
    cases (hc.symm.trans hf)
  rw [RemoteSession.paired]
  split
  · rename_i hs
    refine chained_path socket (.aside (hidle (some pairing)))
      (connected_routed (s := { s with chain := .idle, pairing := some pairing }) hs _ _ _) ?_
    intro _ _ hf
    cases hf
  · exact .aside (hidle s.pairing)

/-- A resolved handler answers, or nothing is sent. -/
theorem respond_cases (s : RemoteSession) (h : Handler) (packet : Bytes) :
    s.respond env h packet = s.done ∨ (∃ cause, s.respond env h packet = s.throw cause) ∨
      (s.socket = some h.socket ∧ s.isOpen h.socket = true ∧
        (s.pending.get? (requestKey h.pending.request)).any
          (fun pending => pending.token = h.pending.token) = true ∧
        s.respond env h packet
          = ⟨{ s with pending := s.pending.erase (requestKey h.pending.request) }.pendingChanged,
              [.sent h.socket (.agentResponse h.pending.request.request_id
                h.pending.request.attempt packet), .settled h.pending.request .signed], none⟩) := by
  rw [RemoteSession.respond]
  split
  · rename_i hcur
    rw [RemoteSession.send]
    split
    · rename_i hopen
      cases env.encodeError _ with
      | some error => exact Or.inr (Or.inl ⟨_, rfl⟩)
      | none => exact Or.inr (Or.inr ⟨hcur.1, hopen.2, hcur.2, rfl⟩)
    · exact Or.inr (Or.inl ⟨_, rfl⟩)
  · exact Or.inl rfl

theorem resolved_path {s : RemoteSession} {token : Nat} {h : Handler} (packet : Bytes)
    (hh : s.handlers.get? token = some h) (hlive : h.thrown = none) :
    Path env s
      (.resolved h.socket h.pending.request packet ::
        (((s.release token).respond env h packet).handled token h).2)
      (((s.release token).respond env h packet).handled token h).1 := by
  have hover := Path.one (@Move.resolved env s token h packet hh hlive)
  rcases @respond_cases env (s.release token) h packet with
    heq | ⟨cause, heq⟩ | ⟨hs, hopen, htok, heq⟩
  · rw [heq]
    exact hover
  · rw [heq]
    exact hover.andThen (.one (@Move.buried env (s.release token) token
      { h with thrown := some cause } (by rintro ⟨⟩)))
  · rw [heq]
    have hans := Path.one (@Move.answered env s token h packet hh hlive hs hopen htok)
    refine hans.trans (.quiet ?_ (aside_snapshot _ _ id Or.inl))
    intro o ho
    rw [List.mem_singleton.mp ho]
    rfl

/-! ## The refinement -/

theorem Path.follow {s : RemoteSession} {r : RemoteSession × List ClientOutput}
    {next : RemoteSession → RemoteSession × List ClientOutput} (h : Path env s r.2 r.1)
    (hnext : Path env r.1 (next r.1).2 (next r.1).1) :
    Path env s (followedBy r next).2 (followedBy r next).1 :=
  h.trans hnext

theorem quiet_one {s : RemoteSession} {o : ClientOutput} (ho : quiet o = true) :
    Path env s [o] s := by
  refine .quiet ?_ (Aside.refl s)
  intro o' ho'
  rw [List.mem_singleton.mp ho']
  exact ho

theorem connect_path (s : RemoteSession) (endpoint label : String) :
    Path env s (s.connect env endpoint label).2 (s.connect env endpoint label).1 := by
  rw [RemoteSession.connect]
  split
  · exact quiet_one rfl
  · rename_i href _
    have hwant : Aside s
        { s with endpoint := some href, label := some label, active := true } :=
      ⟨rfl, rfl, rfl, rfl, rfl, rfl, rfl, rfl, id, Or.inl, fun _ _ => Or.inl, fun _ _ _ _ => rfl⟩
    exact Path.follow ((Path.aside hwant).after (restart_path env _ (by rintro ⟨⟩)))
      (openSocket_path env _)

theorem setActive_path {s : RemoteSession} (hsane : Sane s) (active : Bool) :
    Path env s (s.setActive active).2 (s.setActive active).1 := by
  have hwant : Aside s { s with active := active }.stopRetry :=
    ⟨rfl, rfl, rfl, rfl, rfl, rfl, rfl, rfl, id, Or.inl, fun _ _ => Or.inl, fun _ _ _ _ => rfl⟩
  rw [RemoteSession.setActive]
  split
  · exact .aside hwant
  · split
    · split
      · exact .aside hwant
      · rename_i hfree
        have hnone : s.socket = none := Option.not_isSome_iff_eq_none.mp hfree
        refine (Path.aside hwant).after ((Path.aside ?_).after (openSocket_path env _))
        exact aside_snapshot _ _ (fun hr => by cases hr)
          (fun _ => Or.inr (hsane.buffered (Or.inr hnone)))
    · exact (Path.aside hwant).after (restart_path env _ (by rintro ⟨⟩))

theorem forgetPairing_path (s : RemoteSession) (endpoint : String) :
    Path env s (s.forgetPairing env endpoint).2 (s.forgetPairing env endpoint).1 := by
  rw [RemoteSession.forgetPairing]
  split
  · exact quiet_one rfl
  · refine Path.follow (restart_path env s (by rintro ⟨⟩)) (.quiet ?_ ?_)
    · intro o ho
      rw [List.mem_singleton.mp ho]
      rfl
    · exact ⟨rfl, rfl, rfl, rfl, rfl, rfl, rfl, rfl, id, Or.inl, fun _ _ => Or.inl,
        fun _ _ _ _ => rfl⟩

theorem setReady_path (s : RemoteSession) (ready : Bool) :
    Path env s (s.setReady env ready).2 (s.setReady env ready).1 := by
  have hset : Aside s { s with ready := ready } :=
    ⟨rfl, rfl, rfl, rfl, rfl, rfl, rfl, rfl, id, Or.inl, fun _ _ => Or.inl, fun _ _ _ _ => rfl⟩
  rw [RemoteSession.setReady]
  split
  · exact .aside hset
  · rename_i socket hs
    split
    · refine (Path.aside hset).after (exposed_path (Routed.andThen
        (send_routed _ socket (availability_routine ready)) ?_))
      intro t ht
      split
      · exact drain_routed (ht.trans hs)
      · exact .done t
    · exact .aside hset

theorem registerPushSubscription_path (s : RemoteSession) (subscription : PushSubscription) :
    Path env s (s.registerPushSubscription env subscription).2
      (s.registerPushSubscription env subscription).1 := by
  rw [RemoteSession.registerPushSubscription]
  split
  · exact quiet_one rfl
  · split
    · exact exposed_path (send_routed s _ rfl)
    · exact quiet_one rfl

theorem setIdentities_path (s : RemoteSession) (identities : List AgentIdentity) :
    Path env s (s.setIdentities env identities).2 (s.setIdentities env identities).1 := by
  have hset : Aside s { s with identities := identities } :=
    ⟨rfl, rfl, rfl, rfl, rfl, rfl, rfl, rfl, id, Or.inl, fun _ _ => Or.inl, fun _ _ _ _ => rfl⟩
  rw [RemoteSession.setIdentities]
  split
  · exact .aside hset
  · split
    · exact (Path.aside hset).after (exposed_path (send_routed _ _ rfl))
    · exact .aside hset

theorem deleted_path {s s' : RemoteSession} {endpoint : String} {error : Option String}
    {outputs : List ClientOutput}
    (h : DeletionSettled { s with forgets := s.forgets.erase endpoint } endpoint error s'
      outputs) : Path env s outputs s' := by
  have hset : Aside s { s with forgets := s.forgets.erase endpoint } :=
    ⟨rfl, rfl, rfl, rfl, rfl, rfl, rfl, rfl, id, Or.inl, fun _ _ => Or.inl, fun _ _ _ _ => rfl⟩
  cases h with
  | failed error => exact (Path.aside hset).after (quiet_one rfl)
  | reopened _ => exact (Path.aside hset).after (openSocket_path env _)
  | left _ => exact .aside hset

/-- What a turn can do. -/
inductive Turned (env : Environment) (s : RemoteSession) :
    ClientAction → RemoteSession → List ClientOutput → Prop where
  | moved {action s' outputs} : (∀ now, action ≠ .receive now) →
      (∀ socket frame, action ≠ .message socket frame) → Path env s outputs s' →
      Turned env s action s' outputs
  | took {now received rest s' outputs} : s.receiving = received :: rest → s.chain = .idle →
      Took env s received rest (s', outputs) → Turned env s (.receive now) s' outputs
  | pushed {socket w frame} : s.sockets socket = some w → w.readyState = .open →
      Turned env s (.message socket frame)
        { s with receiving := s.receiving ++ [⟨socket, frame, w.label⟩] } []

/-- The turns that neither receive nor take a frame. -/
theorem moved_path {s s' : RemoteSession} {action : ClientAction} {outputs : List ClientOutput}
    (hsane : Sane s) (hrec : ∀ now, action ≠ .receive now)
    (hmsg : ∀ socket frame, action ≠ .message socket frame)
    (h : ClientStepped env s action s' outputs) : Path env s outputs s' := by
  have hsame : ∀ socket, Lifts s socket s.chain := fun _ => Or.inl rfl
  cases h with
  | connect endpoint label => exact connect_path s endpoint label
  | setActive active => exact setActive_path hsane active
  | forgetPairing endpoint => exact forgetPairing_path s endpoint
  | setReady ready => exact setReady_path s ready
  | registerPushSubscription subscription => exact registerPushSubscription_path s subscription
  | setIdentities identities => exact setIdentities_path s identities
  | retry _ =>
      refine (Path.aside ?_).after (openSocket_path env _)
      exact ⟨rfl, rfl, rfl, rfl, rfl, rfl, rfl, rfl, id, Or.inl, fun _ _ => Or.inl,
        fun _ _ _ _ => rfl⟩
  | loaded ho hload => exact loaded_path hsane ho hload
  | deleted _ hdeleted => exact deleted_path hdeleted
  | opened hw hstate => exact opened_path hw hstate
  | @message socket frame _ _ _ => exact absurd rfl (hmsg socket frame)
  | @errored socket _ => exact connectionLost_path env (hsame socket)
  | closing socket => exact closeWebSocket_path env s socket
  | @closed socket w hw _ =>
      have hshut := Path.one (@Move.shut env s socket w .closed hw (by rintro ⟨⟩) (by rintro ⟨⟩))
      exact hshut.after (connectionLost_path env
        (show Lifts (s.setReadyState socket w .closed) socket s.chain from Or.inl rfl))
  | @receive now _ _ _ _ => exact absurd rfl (hrec now)
  | saveFailed hc =>
      refine .aside ⟨rfl, rfl, rfl, rfl, rfl, rfl, rfl, rfl, id, Or.inl, ?_, ?_⟩
      · intro socket' cause hf
        obtain ⟨_, rfl⟩ := Chain.failing.inj hf
        exact Or.inr rfl
      · intro socket' cause hf
        cases (hc.symm.trans hf)
  | saved hc => exact paired_path hc
  | @caught socket cause hc => exact fail_path env (Or.inr ⟨rfl, cause, hc⟩) cause
  | resolved hh => exact resolved_path _ hh rfl
  | @rejected token error socket pending _ =>
      have hrel := Path.one (@Move.released env s token)
      exact hrel.andThen (.one (@Move.buried env (s.release token) token
        ⟨socket, pending, some (.handler error)⟩ (by rintro ⟨⟩)))
  | @handlerCaught token socket pending cause _ =>
      have hrel := Path.one (@Move.released env s token)
      exact hrel.after (fail_path env
        (show Lifts (s.release token) socket s.chain from Or.inl rfl) cause)

/-- **Every turn takes at most one frame, and then moves.** -/
theorem step_turned {s s' : RemoteSession} {action : ClientAction} {outputs : List ClientOutput}
    (hsane : Sane s) (h : s.step env action = some (s', outputs)) :
    Turned env s action s' outputs := by
  have hstepped := client_step_cases h
  by_cases hrec : ∃ now, action = .receive now
  · obtain ⟨now, rfl⟩ := hrec
    cases hstepped with
    | receive hc hr => exact .took hr hc (receive_took now hsane hc)
  · by_cases hmsg : ∃ socket frame, action = .message socket frame
    · obtain ⟨socket, frame, rfl⟩ := hmsg
      cases hstepped with
      | message hw hstate => exact .pushed hw hstate
    · have hrec : ∀ now, action ≠ .receive now := fun now he => hrec ⟨now, he⟩
      have hmsg : ∀ socket frame, action ≠ .message socket frame :=
        fun socket frame he => hmsg ⟨socket, frame, he⟩
      exact .moved hrec hmsg (moved_path hsane hrec hmsg hstepped)

end Methods

/-! ## Sane sessions -/

theorem sane_new : Sane RemoteSession.new where
  buffered := fun _ => rfl
  opening := fun h => absurd rfl h
  bounded := fun _ h => absurd rfl h

/-- A move that leaves what `Sane` looks at. -/
theorem Sane.congr {s t : RemoteSession} (h : Sane s) (hsocket : t.socket = s.socket)
    (hpending : t.pending.len = s.pending.len) (hopens : t.opens = s.opens)
    (hgen : t.generation = s.generation)
    (hstatus : s.snapshot.status = .connected →
      t.snapshot.status = .connected ∨ s.pending.len = 0) : Sane t where
  buffered := by
    intro ht
    rw [hpending]
    rw [hsocket] at ht
    by_cases hc : s.snapshot.status = .connected
    · rcases hstatus hc with hs | hs
      · exact h.buffered (Or.inr (ht.resolve_left (fun hn => hn hs)))
      · exact hs
    · exact h.buffered (Or.inl hc)
  opening := by
    rw [hopens, hgen, hsocket]
    exact h.opening
  bounded := by
    rw [hopens, hgen]
    exact h.bounded

/-- **Step lemma.** -/
theorem sane_move {env : Environment} {s t : RemoteSession} {o : List ClientOutput}
    (h : Sane s) (hm : Move env s o t) : Sane t := by
  cases hm with
  | aside ha _ =>
      exact h.congr ha.socket (congrArg Map.len ha.pending) ha.opens ha.generation ha.connected
  | bumped =>
      refine ⟨h.buffered, ?_, ?_⟩
      · intro ho
        exact absurd (h.bounded _ ho) (Nat.not_succ_le_self _)
      · intro generation ho
        exact Nat.le_succ_of_le (h.bounded generation ho)
  | began hs =>
      refine ⟨h.buffered, fun _ => hs, ?_⟩
      intro generation ho
      rw [get?_insert] at ho
      split at ho
      · rename_i heq
        exact Nat.le_of_eq heq
      · exact Nat.le_succ_of_le (h.bounded generation ho)
  | @ended generation =>
      have hsub : ∀ other, (s.opens.erase generation).get? other ≠ none →
          s.opens.get? other ≠ none := by
        intro other ho
        rw [get?_erase] at ho
        split at ho
        · exact absurd rfl ho
        · exact ho
      exact ⟨h.buffered, fun ho => h.opening (hsub _ ho), fun g ho => h.bounded g (hsub g ho)⟩
  | adopted hs _ ho _ =>
      exact ⟨fun _ => h.buffered (Or.inr hs), fun hn => absurd ho hn, h.bounded⟩
  | dropped => exact ⟨fun _ => rfl, fun _ => rfl, h.bounded⟩
  | answered _ _ _ _ _ =>
      refine ⟨?_, h.opening, h.bounded⟩
      intro hn
      exact Nat.le_zero.mp ((len_filter_le _ _).trans (Nat.le_of_eq (h.buffered hn)))
  | started hs hp _ _ => exact h.congr rfl (len_insert_present _ hp) rfl rfl Or.inl
  | greeted _ _ _ | opened _ _ _ | shut _ _ _ | sent _ _ _ _ | resolved _ _ | released
  | buried _ => exact ⟨h.buffered, h.opening, h.bounded⟩

theorem sane_take {s t : RemoteSession} {received : Received} {rest : List Received}
    (h : Sane s) (ht : Take s received rest t) : Sane t := by
  cases ht with
  | rejected _ _ => exact ⟨fun _ => rfl, fun _ => rfl, h.bounded⟩
  | enqueued hs _ hst _ _ =>
      refine ⟨?_, h.opening, h.bounded⟩
      rintro (hn | hn)
      · exact absurd hst hn
      · cases (hs.symm.trans hn)
  | cancelled _ _ =>
      refine ⟨?_, h.opening, h.bounded⟩
      intro hn
      exact Nat.le_zero.mp ((len_filter_le _ _).trans (Nat.le_of_eq (h.buffered hn)))
  | popped _ | threw _ _ | refused _ _ _ => exact ⟨h.buffered, h.opening, h.bounded⟩

theorem sane_path {env : Environment} {s t : RemoteSession} {outputs : List ClientOutput}
    (h : Sane s) (hp : Path env s outputs t) : Sane t :=
  hp.invariant (fun _ s => Sane s) h (fun _ _ _ _ hs hm => sane_move hs hm)

/-- **Sessions stay sane.** -/
theorem sane_step {env : Environment} {s s' : RemoteSession} {action : ClientAction}
    {outputs : List ClientOutput} (h : Sane s)
    (hs : s.step env action = some (s', outputs)) : Sane s' := by
  cases step_turned h hs with
  | moved _ _ hp => exact sane_path h hp
  | took _ _ ht =>
      obtain ⟨t, ht, hp⟩ := ht
      exact sane_path (sane_take h ht) hp
  | pushed _ _ => exact ⟨h.buffered, h.opening, h.bounded⟩

end ClientFlow
