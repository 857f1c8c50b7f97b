import AgentWitness.ClientFlowProofs
import AgentWitness.HandshakeProofs

/-! # The server, its clients and the wires between them

    Any number of `RemoteSession`s against one server.  A socket of a client and
    the `serve` task of the server for it share their name.  Each direction of a
    socket is a first-in first-out wire: what one side sends is appended, and the
    other side receives it in that order or not at all.  A side may see the end
    of the connection at any time, and a delivered frame may fail to decode.

    Whether a socket's name is new is checked against every client, and a socket
    is upgraded only after a client has opened it.  `log` is a ghost record of all
    outputs. -/

namespace Wire

open Packet KeyedMap BrokerModel BrokerTask RemoteProtocol Pairing Serve Handshake RemoteClient
open ClientFlow Transition

abbrev ClientId := Nat

inductive NetworkOutput where
  | server (output : ServerOutput)
  | client (id : ClientId) (output : ClientOutput)
  deriving DecidableEq

inductive NetworkAction where
  | server (action : Action)
  | client (id : ClientId) (action : ClientAction)

structure Network where
  server : Server
  clients : ClientId → RemoteSession
  up : LinkId → List ClientMessage
  down : LinkId → List ServerMessage
  owner : LinkId → Option ClientId
  log : List NetworkOutput

/-- The messages a client's outputs put on a wire. -/
def submitted (link : LinkId) (outputs : List ClientOutput) : List ClientMessage :=
  outputs.filterMap (fun
    | .sent socket message => if socket = link then some message else none
    | _ => none)

/-- The messages the server's outputs put on a wire. -/
def transmitted (link : LinkId) (outputs : List ServerOutput) : List ServerMessage :=
  outputs.filterMap (fun
    | .sent socket message => if socket = link then some message else none
    | _ => none)

/-- The sockets a client's outputs open. -/
def createdBy (outputs : List ClientOutput) : List SocketId :=
  outputs.filterMap (fun
    | .created socket => some socket
    | _ => none)

/-- The network after a client has moved. -/
def Network.moved (n : Network) (id : ClientId) (client : RemoteSession)
    (outputs : List ClientOutput) : Network :=
  { n with
    clients := Function.update n.clients id client
    up := fun link => n.up link ++ submitted link outputs
    owner := fun link => if link ∈ createdBy outputs then some id else n.owner link
    log := n.log ++ outputs.map (.client id) }

/-- The network after the server has moved. -/
def Network.served (n : Network) (server : Server) (outputs : List ServerOutput) : Network :=
  { n with
    server := server
    down := fun link => n.down link ++ transmitted link outputs
    log := n.log ++ outputs.map .server }

/-- Whether a frame is what became of a message. -/
def carries (message : ServerMessage) : Frame → Bool
  | .message received => received = message
  | .text | .malformed _ => true

/-- The network with what an action of the server reads taken from its wire. -/
def Network.readByServer (n : Network) : Action → Option Network
  | .task link (.receive (some message) _) =>
      match n.up link with
      | [] => none
      | oldest :: rest =>
          if oldest = message then some { n with up := Function.update n.up link rest } else none
  | .accept link => if (n.owner link).isSome then some n else none
  | _ => some n

/-- The network with what an action of a client reads taken from its wire. -/
def Network.readByClient (n : Network) : ClientAction → Option Network
  | .message socket frame =>
      match n.down socket with
      | [] => none
      | oldest :: rest =>
          if carries oldest frame then some { n with down := Function.update n.down socket rest }
          else none
  | _ => some n

/-- One step of the network. -/
def Network.step (config : SessionConfig) (env : Environment) (n : Network) :
    NetworkAction → Option (Network × List NetworkOutput)
  | .server action =>
      match n.readByServer action, n.server.step config action with
      | some m, some (server, outputs) => some (m.served server outputs, outputs.map .server)
      | _, _ => none
  | .client id action =>
      match n.readByClient action, (n.clients id).step env action with
      | some m, some (client, outputs) =>
          if ∀ socket ∈ createdBy outputs, n.owner socket = none then
            some (m.moved id client outputs, outputs.map (.client id))
          else none
      | _, _ => none

/-- No client has opened a socket yet. -/
def Network.new (config : BrokerConfig) (pairing : PairingService) : Network where
  server := .new config pairing
  clients := fun _ => .new
  up := fun _ => []
  down := fun _ => []
  owner := fun _ => none
  log := []

/-! ## Inversion -/

/-- The ways the network can step. -/
inductive Ran (config : SessionConfig) (env : Environment) (n : Network) :
    NetworkAction → Network → List NetworkOutput → Prop where
  /-- A task reads the oldest message of its wire. -/
  | heard {link message saved rest server outputs} : n.up link = message :: rest →
      Stepped config n.server (.task link (.receive (some message) saved)) server outputs →
      Ran config env n (.server (.task link (.receive (some message) saved)))
        (({ n with up := Function.update n.up link rest } : Network).served server outputs)
        (outputs.map .server)
  | served {action server outputs} :
      (∀ link message saved, action ≠ .task link (.receive (some message) saved)) →
      (∀ link, action = .accept link → n.owner link ≠ none) →
      Stepped config n.server action server outputs →
      Ran config env n (.server action) (n.served server outputs) (outputs.map .server)
  /-- A client receives the oldest message of its wire. -/
  | pushed {id socket message rest frame w} : n.down socket = message :: rest →
      carries message frame = true → (n.clients id).sockets socket = some w →
      w.readyState = .open →
      Ran config env n (.client id (.message socket frame))
        (({ n with down := Function.update n.down socket rest } : Network).moved id
          { n.clients id with
            receiving := (n.clients id).receiving ++ [⟨socket, frame, w.label⟩] } []) []
  | took {id now received rest client outputs} : (n.clients id).receiving = received :: rest →
      (n.clients id).chain = .idle → Took env (n.clients id) received rest (client, outputs) →
      (∀ socket ∈ createdBy outputs, n.owner socket = none) →
      Ran config env n (.client id (.receive now)) (n.moved id client outputs)
        (outputs.map (.client id))
  | moved {id action client outputs} : (∀ now, action ≠ .receive now) →
      Path env (n.clients id) outputs client →
      (∀ socket ∈ createdBy outputs, n.owner socket = none) →
      Ran config env n (.client id action) (n.moved id client outputs)
        (outputs.map (.client id))

theorem readByServer_cases {n m : Network} {action : Action}
    (h : n.readByServer action = some m) :
    (∃ link message saved rest, action = .task link (.receive (some message) saved) ∧
        n.up link = message :: rest ∧ m = { n with up := Function.update n.up link rest }) ∨
      ((∀ link message saved, action ≠ .task link (.receive (some message) saved)) ∧
        (∀ link, action = .accept link → n.owner link ≠ none) ∧ m = n) := by
  rw [Network.readByServer.eq_def] at h
  split at h
  · rename_i link message saved
    split at h
    · cases h
    · rename_i oldest rest hup
      split at h
      · rename_i heq
        subst heq
        exact Or.inl ⟨link, oldest, saved, rest, rfl, hup, (Option.some.inj h).symm⟩
      · cases h
  · rename_i link
    split at h
    · rename_i hown
      refine Or.inr ⟨(by rintro _ _ _ ⟨⟩), ?_, (Option.some.inj h).symm⟩
      intro other heq
      obtain rfl := Action.accept.inj heq
      exact Option.isSome_iff_ne_none.mp hown
    · cases h
  · rename_i hrec hacc
    exact Or.inr ⟨hrec, fun link heq => absurd heq (hacc link), (Option.some.inj h).symm⟩

theorem readByClient_cases {n m : Network} {action : ClientAction}
    (h : n.readByClient action = some m) :
    (∃ socket frame message rest, action = .message socket frame ∧
        n.down socket = message :: rest ∧ carries message frame = true ∧
        m = { n with down := Function.update n.down socket rest }) ∨
      ((∀ socket frame, action ≠ .message socket frame) ∧ m = n) := by
  rw [Network.readByClient.eq_def] at h
  split at h
  · rename_i socket frame
    split at h
    · cases h
    · rename_i oldest rest hdown
      split at h
      · rename_i hc
        exact Or.inl ⟨socket, frame, oldest, rest, rfl, hdown, hc, (Option.some.inj h).symm⟩
      · cases h
  · rename_i hmsg
    exact Or.inr ⟨hmsg, (Option.some.inj h).symm⟩

/-- **Inversion of a network step**, for clients that are sane. -/
theorem network_step_cases {config : SessionConfig} {env : Environment} {n n' : Network}
    {action : NetworkAction} {outputs : List NetworkOutput}
    (hsane : ∀ id, Sane (n.clients id))
    (h : n.step config env action = some (n', outputs)) : Ran config env n action n' outputs := by
  cases action with
  | server action =>
      simp only [Network.step] at h
      split at h
      · rename_i m server out hm hs
        obtain ⟨rfl, rfl⟩ := Prod.mk.inj (Option.some.inj h)
        rcases readByServer_cases hm with
          ⟨link, message, saved, rest, rfl, hup, rfl⟩ | ⟨hrec, hacc, rfl⟩
        · exact .heard hup (server_step_cases hs)
        · exact .served hrec hacc (server_step_cases hs)
      · cases h
  | client id action =>
      simp only [Network.step] at h
      split at h
      · rename_i m client out hm hc
        split at h
        · rename_i hfresh
          obtain ⟨rfl, rfl⟩ := Prod.mk.inj (Option.some.inj h)
          rcases readByClient_cases hm with
            ⟨socket, frame, message, rest, rfl, hdown, hcar, rfl⟩ | ⟨hmsg, rfl⟩
          · cases step_turned (hsane id) hc with
            | pushed hw hopen => exact .pushed hdown hcar hw hopen
            | moved _ hmsg _ => exact absurd rfl (hmsg socket frame)
          · cases step_turned (hsane id) hc with
            | pushed => exact absurd rfl (hmsg _ _)
            | took hr hidle htook => exact .took hr hidle htook hfresh
            | moved hrec _ hp => exact .moved hrec hp hfresh
        · cases h
      · cases h

/-! ## Moves of one client -/

theorem submitted_append (link : LinkId) (a b : List ClientOutput) :
    submitted link (a ++ b) = submitted link a ++ submitted link b :=
  List.filterMap_append

theorem createdBy_append (a b : List ClientOutput) :
    createdBy (a ++ b) = createdBy a ++ createdBy b :=
  List.filterMap_append

theorem mem_createdBy {socket : SocketId} {outputs : List ClientOutput} :
    socket ∈ createdBy outputs ↔ .created socket ∈ outputs := by
  constructor
  · intro h
    obtain ⟨o, ho, heq⟩ := List.mem_filterMap.mp h
    cases o with
    | created other =>
        obtain rfl := Option.some.inj heq
        exact ho
    | sent | closed | disconnected | settled | handling | resolved | loading | saving | deleting
    | threw => cases heq
  · exact fun h => List.mem_filterMap.mpr ⟨_, h, rfl⟩

theorem mem_submitted {link : LinkId} {message : ClientMessage} {outputs : List ClientOutput} :
    message ∈ submitted link outputs ↔ .sent link message ∈ outputs := by
  constructor
  · intro h
    obtain ⟨o, ho, heq⟩ := List.mem_filterMap.mp h
    cases o with
    | sent other message' =>
        by_cases hl : other = link
        · subst hl
          simp only [if_true] at heq
          obtain rfl := Option.some.inj heq
          exact ho
        · simp only [if_neg hl] at heq
          cases heq
    | created | closed | disconnected | settled | handling | resolved | loading | saving
    | deleting | threw => cases heq
  · exact fun h => List.mem_filterMap.mpr ⟨_, h, if_pos rfl⟩

theorem mem_transmitted {link : LinkId} {message : ServerMessage} {outputs : List ServerOutput} :
    message ∈ transmitted link outputs ↔ .sent link message ∈ outputs := by
  constructor
  · intro h
    obtain ⟨o, ho, heq⟩ := List.mem_filterMap.mp h
    cases o with
    | sent other message' =>
        by_cases hl : other = link
        · subst hl
          simp only [if_true] at heq
          obtain rfl := Option.some.inj heq
          exact ho
        · simp only [if_neg hl] at heq
          cases heq
    | authorized | woke | answered | stopped => cases heq
  · exact fun h => List.mem_filterMap.mpr ⟨_, h, if_pos rfl⟩

@[simp] theorem moved_clients_self (n : Network) (id : ClientId) (t : RemoteSession)
    (o : List ClientOutput) : (n.moved id t o).clients id = t :=
  Function.update_self ..

theorem moved_clients_of_ne (n : Network) {id other : ClientId} (t : RemoteSession)
    (o : List ClientOutput) (h : other ≠ id) : (n.moved id t o).clients other = n.clients other :=
  Function.update_of_ne h ..

/-- Two moves of one client in a row. -/
theorem moved_moved (n : Network) (id : ClientId) (t u : RemoteSession)
    (a b : List ClientOutput) : (n.moved id t a).moved id u b = n.moved id u (a ++ b) := by
  have hclients : Function.update (Function.update n.clients id t) id u
      = Function.update n.clients id u := Function.update_idem ..
  have hup : (fun link => n.up link ++ submitted link a ++ submitted link b)
      = fun link => n.up link ++ submitted link (a ++ b) := by
    funext link
    rw [submitted_append, List.append_assoc]
  have howner : (fun link => if link ∈ createdBy b then some id
        else if link ∈ createdBy a then some id else n.owner link)
      = fun link => if link ∈ createdBy (a ++ b) then some id else n.owner link := by
    funext link
    rw [createdBy_append]
    by_cases ha : link ∈ createdBy a
    · simp [ha]
    · simp [ha]
  have hlog : n.log ++ a.map (.client id) ++ b.map (.client id)
      = n.log ++ (a ++ b).map (NetworkOutput.client id) := by
    rw [List.map_append, List.append_assoc]
  simp only [Network.moved, hclients, hup, howner, hlog]

/-- What every state of the network satisfies: clients are sane, sockets have
    exactly one owner, and nothing happens on a socket that no client opened. -/
structure Grounded (n : Network) : Prop where
  sane : ∀ id, Sane (n.clients id)
  owned : ∀ id link, (n.clients id).sockets link ≠ none ↔ n.owner link = some id
  current : ∀ id link, (n.clients id).socket = some link → n.owner link = some id
  arrived : ∀ id, ∀ received ∈ (n.clients id).receiving, n.owner received.socket = some id
  tasks : ∀ link, n.owner link = none → n.server.tasks link = none
  up : ∀ link, n.owner link = none → n.up link = []
  down : ∀ link, n.owner link = none → n.down link = []

theorem grounded_new (config : BrokerConfig) (pairing : PairingService) :
    Grounded (Network.new config pairing) where
  sane := fun _ => sane_new
  owned := fun _ _ => ⟨fun h => absurd rfl h, (by rintro ⟨⟩)⟩
  current := (by rintro _ _ ⟨⟩)
  arrived := fun _ _ h => by cases h
  tasks := fun _ _ => rfl
  up := fun _ _ => rfl
  down := fun _ _ => rfl

theorem quiet_silent {outputs : List ClientOutput} (h : ∀ o ∈ outputs, quiet o = true) :
    createdBy outputs = [] ∧ ∀ link, submitted link outputs = [] := by
  constructor
  · refine List.eq_nil_iff_forall_not_mem.mpr (fun socket hs => ?_)
    cases h _ (mem_createdBy.mp hs)
  · intro link
    refine List.eq_nil_iff_forall_not_mem.mpr (fun message hm => ?_)
    cases h _ (mem_submitted.mp hm)

/-- The sockets after a move are those before it and the one it opened. -/
theorem move_sockets {env : Environment} {s t : RemoteSession} {o : List ClientOutput}
    (h : Move env s o t) (link : SocketId) :
    t.sockets link ≠ none ↔ s.sockets link ≠ none ∨ link ∈ createdBy o := by
  have hset : ∀ {socket w state}, s.sockets socket = some w →
      ((s.setReadyState socket w state).sockets link ≠ none ↔ s.sockets link ≠ none) := by
    intro socket w state hw
    show Function.update s.sockets socket _ link ≠ none ↔ _
    by_cases hl : link = socket
    · subst hl
      rw [Function.update_self, hw]
      exact iff_of_true (Option.some_ne_none _) (Option.some_ne_none _)
    · rw [Function.update_of_ne hl]
  have hnil : ∀ {p : Prop}, p ↔ p ∨ link ∈ createdBy [] := by
    intro p
    exact ⟨Or.inl, fun hp => hp.resolve_right (fun hm => by cases hm)⟩
  cases h with
  | aside ha hq =>
      rw [ha.sockets, (quiet_silent hq).1]
      exact hnil
  | @adopted socket w _ hnew _ _ =>
      show Function.update s.sockets socket _ link ≠ none ↔ _ ∨ link ∈ [socket]
      by_cases hl : link = socket
      · subst hl
        rw [Function.update_self]
        exact iff_of_true (Option.some_ne_none _) (Or.inr (List.mem_singleton.mpr rfl))
      · rw [Function.update_of_ne hl, List.mem_singleton, or_iff_left hl]
  | greeted _ hw _ => exact (hset hw).trans hnil
  | opened _ hw _ => exact (hset hw).trans hnil
  | shut hw _ _ => exact (hset hw).trans hnil
  | bumped | began _ | ended | dropped | started _ _ _ _ | sent _ _ _ _ | answered _ _ _ _ _
  | resolved _ _ | released | buried _ => exact hnil

/-- The socket after a move is the one before it or one it opened. -/
theorem move_socket {env : Environment} {s t : RemoteSession} {o : List ClientOutput}
    (h : Move env s o t) {link : SocketId} (hs : t.socket = some link) :
    s.socket = some link ∨ link ∈ createdBy o := by
  cases h with
  | aside ha _ => exact Or.inl (ha.socket.symm.trans hs)
  | adopted _ _ _ _ =>
      obtain rfl := Option.some.inj hs
      exact Or.inr (List.mem_singleton.mpr rfl)
  | dropped => cases hs
  | greeted _ _ _ | opened _ _ _ | shut _ _ _ | bumped | began _ | ended | started _ _ _ _
  | sent _ _ _ _ | answered _ _ _ _ _ | resolved _ _ | released | buried _ => exact Or.inl hs

/-- A socket is new to the client that opens it. -/
theorem move_created {env : Environment} {s t : RemoteSession} {o : List ClientOutput}
    (h : Move env s o t) {socket : SocketId} (hc : .created socket ∈ o) :
    s.sockets socket = none := by
  cases h with
  | aside _ hq => cases hq _ hc
  | adopted _ hnew _ _ =>
      obtain rfl := ClientOutput.created.inj (List.mem_singleton.mp hc)
      exact hnew
  | greeted _ _ _ | started _ _ _ _ | sent _ _ _ _ | resolved _ _ =>
      cases (List.mem_singleton.mp hc)
  | answered _ _ _ _ _ =>
      rcases List.mem_cons.mp hc with hc | hc
      · cases hc
      · cases (List.mem_singleton.mp hc)
  | opened _ _ _ | shut _ _ _ | bumped | began _ | ended | dropped | released | buried _ =>
      cases hc

/-- A client sends on its current socket only. -/
theorem move_sent {env : Environment} {s t : RemoteSession} {o : List ClientOutput}
    (h : Move env s o t) {link : SocketId} {message : ClientMessage}
    (hm : .sent link message ∈ o) : s.socket = some link := by
  cases h with
  | aside _ hq => cases hq _ hm
  | greeted hs _ _ =>
      obtain ⟨rfl, _⟩ := ClientOutput.sent.inj (List.mem_singleton.mp hm)
      exact hs
  | sent hs _ _ _ =>
      obtain ⟨rfl, _⟩ := ClientOutput.sent.inj (List.mem_singleton.mp hm)
      exact hs
  | answered _ _ hs _ _ =>
      rcases List.mem_cons.mp hm with hm | hm
      · cases hm
      · obtain ⟨rfl, _⟩ := ClientOutput.sent.inj (List.mem_singleton.mp hm)
        exact hs
  | adopted _ _ _ _ | started _ _ _ _ | resolved _ _ => cases (List.mem_singleton.mp hm)
  | opened _ _ _ | shut _ _ _ | bumped | began _ | ended | dropped | released | buried _ =>
      cases hm

/-- Moves leave the frames alone. -/
theorem move_receiving {env : Environment} {s t : RemoteSession} {o : List ClientOutput}
    (h : Move env s o t) : t.receiving = s.receiving := by
  cases h with
  | aside ha _ => exact ha.receiving
  | adopted _ _ _ _ | greeted _ _ _ | opened _ _ _ | shut _ _ _ | bumped | began _ | ended
  | dropped | started _ _ _ _ | sent _ _ _ _ | answered _ _ _ _ _ | resolved _ _ | released
  | buried _ => rfl

theorem grounded_move {env : Environment} {n : Network} {id : ClientId} {t : RemoteSession}
    {o : List ClientOutput} (h : Grounded n) (hm : Move env (n.clients id) o t)
    (hfresh : ∀ socket ∈ createdBy o, n.owner socket = none) : Grounded (n.moved id t o) := by
  have howner : ∀ link, (n.moved id t o).owner link
      = if link ∈ createdBy o then some id else n.owner link := fun _ => rfl
  have hback : ∀ link, (n.moved id t o).owner link = none → n.owner link = none := by
    intro link hn
    rw [howner] at hn
    split at hn
    · cases hn
    · exact hn
  have hkeep : ∀ other link, n.owner link = some other →
      (n.moved id t o).owner link = some other := by
    intro other link hown
    rw [howner]
    split
    · rename_i hc
      rw [hfresh link hc] at hown
      cases hown
    · exact hown
  refine ⟨?_, ?_, ?_, ?_, fun link hn => h.tasks link (hback link hn), ?_,
    fun link hn => h.down link (hback link hn)⟩
  · intro other
    by_cases ho : other = id
    · subst ho
      rw [moved_clients_self]
      exact sane_move (h.sane other) hm
    · rw [moved_clients_of_ne n t o ho]
      exact h.sane other
  · intro other link
    rw [howner]
    by_cases ho : other = id
    · subst ho
      rw [moved_clients_self, move_sockets hm, h.owned]
      split
      · rename_i hc
        exact iff_of_true (Or.inr hc) rfl
      · rename_i hc
        exact or_iff_left hc
    · rw [moved_clients_of_ne n t o ho, h.owned]
      split
      · rename_i hc
        rw [hfresh link hc]
        exact iff_of_false (by rintro ⟨⟩) (fun he => ho (Option.some.inj he).symm)
      · exact Iff.rfl
  · intro other link hs
    by_cases ho : other = id
    · subst ho
      rw [moved_clients_self] at hs
      rcases move_socket hm hs with hs | hc
      · exact hkeep other link (h.current other link hs)
      · exact if_pos hc
    · rw [moved_clients_of_ne n t o ho] at hs
      exact hkeep other link (h.current other link hs)
  · intro other received hr
    by_cases ho : other = id
    · subst ho
      rw [moved_clients_self, move_receiving hm] at hr
      exact hkeep other _ (h.arrived other received hr)
    · rw [moved_clients_of_ne n t o ho] at hr
      exact hkeep other _ (h.arrived other received hr)
  · intro link hn
    have hnone := hback link hn
    show n.up link ++ submitted link o = []
    rw [h.up link hnone, List.nil_append]
    refine List.eq_nil_iff_forall_not_mem.mpr (fun message hmem => ?_)
    have hown := h.current id link (move_sent hm (mem_submitted.mp hmem))
    rw [hnone] at hown
    cases hown

/-- A change of one client that leaves its sockets alone. -/
theorem grounded_change {n : Network} {id : ClientId} {t : RemoteSession} (h : Grounded n)
    (hsane : Sane t) (hsockets : t.sockets = (n.clients id).sockets)
    (hsocket : ∀ link, t.socket = some link → (n.clients id).socket = some link)
    (harrived : ∀ received ∈ t.receiving, received ∈ (n.clients id).receiving
      ∨ (n.clients id).sockets received.socket ≠ none) :
    Grounded (n.moved id t []) := by
  refine ⟨?_, ?_, ?_, ?_, h.tasks, ?_, h.down⟩
  · intro other
    by_cases ho : other = id
    · subst ho
      rw [moved_clients_self]
      exact hsane
    · rw [moved_clients_of_ne n t [] ho]
      exact h.sane other
  · intro other link
    by_cases ho : other = id
    · subst ho
      rw [moved_clients_self, hsockets]
      exact h.owned other link
    · rw [moved_clients_of_ne n t [] ho]
      exact h.owned other link
  · intro other link hs
    by_cases ho : other = id
    · subst ho
      rw [moved_clients_self] at hs
      exact h.current other link (hsocket link hs)
    · rw [moved_clients_of_ne n t [] ho] at hs
      exact h.current other link hs
  · intro other received hr
    by_cases ho : other = id
    · subst ho
      rw [moved_clients_self] at hr
      rcases harrived received hr with hr | hr
      · exact h.arrived other received hr
      · exact (h.owned other received.socket).mp hr
    · rw [moved_clients_of_ne n t [] ho] at hr
      exact h.arrived other received hr
  · intro link hn
    show n.up link ++ [] = []
    rw [List.append_nil]
    exact h.up link hn

/-- What is left after a frame is taken. -/
theorem take_receiving {s t : RemoteSession} {received : Received} {rest : List Received}
    (h : Take s received rest t) : t.receiving = rest := by
  cases h with
  | popped | threw | rejected | enqueued | refused | cancelled => rfl

theorem grounded_take {n : Network} {id : ClientId} {t : RemoteSession} {received : Received}
    {rest : List Received} (h : Grounded n)
    (hr : (n.clients id).receiving = received :: rest)
    (ht : Take (n.clients id) received rest t) : Grounded (n.moved id t []) := by
  refine grounded_change h (sane_take (h.sane id) ht) ?_ ?_ ?_
  · cases ht with
    | popped | threw | rejected | enqueued | refused | cancelled => rfl
  · cases ht with
    | popped | threw | enqueued | refused | cancelled => exact fun _ hs => hs
    | rejected => rintro _ ⟨⟩
  · intro other ho
    rw [take_receiving ht] at ho
    rw [hr]
    exact Or.inl (List.mem_cons_of_mem _ ho)

/-- A task sends on its own link. -/
theorem acted_sent {config : SessionConfig} {p : PairingService} {stopped : Bool}
    {link other : LinkId} {t : Task} {action : TaskAction} {r : TaskResult}
    {message : ServerMessage} (h : Acted config p stopped link t action r)
    (ho : .sent other message ∈ r.outputs) : other = link := by
  cases h with
  | rejected _ _ | refused _ _ | responded _ | forwarded _ _ | beat _ =>
      exact (ServerOutput.sent.inj (List.mem_singleton.mp ho)).1
  | authorized _ _ => cases (List.mem_singleton.mp ho)
  | received _ | ended _ | broke _ _ | posted _ _ _ | ponged _ | updated _ _ _
  | connected _ _ _ | unavailable _ | registered _ _ | unanswered _ | disconnected _
  | dropped _ => cases ho

/-- The server sends only on links that have a task. -/
theorem stepped_sent {config : SessionConfig} {s s' : Server} {action : Action}
    {outputs : List ServerOutput} (hs : Stepped config s action s' outputs) {link : LinkId}
    {message : ServerMessage} (ho : .sent link message ∈ outputs) :
    ∃ act t r, s.tasks link = some t ∧ action = .task link act ∧
      Acted config s.pairing s.broker.stopped link t act r ∧ .sent link message ∈ r.outputs ∧
      s'.tasks link = some r.task ∧ outputs = r.outputs := by
  cases hs with
  | @acted link' act t r ht hact =>
      obtain rfl := acted_sent hact ho
      exact ⟨act, t, r, ht, rfl, hact, ho, Function.update_self .., rfl⟩
  | turned _ _ _ =>
      obtain ⟨b, _, hb⟩ := List.mem_filterMap.mp ho
      exact absurd hb (external_ne_sent link message b)
  | accepted _ | cleared | stopping _ => cases ho

/-- Tasks appear by an accept only. -/
theorem stepped_tasks {config : SessionConfig} {s s' : Server} {action : Action}
    {outputs : List ServerOutput} (hs : Stepped config s action s' outputs) {link : LinkId}
    (hnone : s.tasks link = none) (hacc : action ≠ .accept link) : s'.tasks link = none := by
  cases hs with
  | @accepted link' _ =>
      have hne : link ≠ link' := by
        rintro rfl
        exact hacc rfl
      exact (Function.update_of_ne hne ..).trans hnone
  | @acted link' act t r ht _ =>
      have hne : link ≠ link' := by
        rintro rfl
        rw [hnone] at ht
        cases ht
      exact (Function.update_of_ne hne ..).trans hnone
  | @turned _ mailbox input sends now broker out hinput hallowed hb =>
      refine Option.eq_none_iff_forall_ne_some.mpr (fun t' ht' => ?_)
      obtain ⟨t, ht, _⟩ := turned_task_of hallowed ht'
      rw [hnone] at ht
      cases ht
  | cleared => exact hnone
  | stopping _ => exact hnone

theorem grounded_served {config : SessionConfig} {n : Network} {action : Action}
    {server : Server} {outputs : List ServerOutput} (h : Grounded n)
    (hacc : ∀ link, action = .accept link → n.owner link ≠ none)
    (hs : Stepped config n.server action server outputs) : Grounded (n.served server outputs) := by
  refine ⟨h.sane, h.owned, h.current, h.arrived, ?_, h.up, ?_⟩
  · intro link hn
    exact stepped_tasks hs (h.tasks link hn) (fun heq => hacc link heq hn)
  · intro link hn
    show n.down link ++ transmitted link outputs = []
    rw [h.down link hn, List.nil_append]
    refine List.eq_nil_iff_forall_not_mem.mpr (fun message hm => ?_)
    obtain ⟨act, t, r, ht, _⟩ := stepped_sent hs (mem_transmitted.mp hm)
    rw [h.tasks link hn] at ht
    cases ht

/-- Taking the oldest message from a wire. -/
theorem grounded_heard {n : Network} {link : LinkId} {message : ClientMessage}
    {rest : List ClientMessage} (h : Grounded n) (hup : n.up link = message :: rest) :
    Grounded { n with up := Function.update n.up link rest } := by
  refine ⟨h.sane, h.owned, h.current, h.arrived, h.tasks, ?_, h.down⟩
  intro other hn
  have hne : other ≠ link := by
    rintro rfl
    rw [h.up other hn] at hup
    cases hup
  exact (Function.update_of_ne hne ..).trans (h.up other hn)

theorem grounded_fetched {n : Network} {link : LinkId} {message : ServerMessage}
    {rest : List ServerMessage} (h : Grounded n) (hdown : n.down link = message :: rest) :
    Grounded { n with down := Function.update n.down link rest } := by
  refine ⟨h.sane, h.owned, h.current, h.arrived, h.tasks, h.up, ?_⟩
  intro other hn
  have hne : other ≠ link := by
    rintro rfl
    rw [h.down other hn] at hdown
    cases hdown
  exact (Function.update_of_ne hne ..).trans (h.down other hn)

/-! ## The rule for invariants of the network -/

/-- What has to be shown of an invariant on the clients' side: deliveries to a
    client and its own moves keep it. -/
structure ClientPreserves (env : Environment) (Inv : Network → Prop) : Prop where
  pushed : ∀ {n : Network} {id socket message rest frame w}, Grounded n → Inv n →
    n.down socket = message :: rest → carries message frame = true →
    (n.clients id).sockets socket = some w → w.readyState = .open →
    Inv (({ n with down := Function.update n.down socket rest } : Network).moved id
      { n.clients id with
        receiving := (n.clients id).receiving ++ [⟨socket, frame, w.label⟩] } [])
  took : ∀ {n : Network} {id received rest t}, Grounded n → Inv n →
    (n.clients id).receiving = received :: rest → (n.clients id).chain = .idle →
    Take (n.clients id) received rest t → Inv (n.moved id t [])
  moved : ∀ {n : Network} {id o t}, Grounded n → Inv n → Move env (n.clients id) o t →
    (∀ socket ∈ createdBy o, n.owner socket = none) → Inv (n.moved id t o)

/-- And on the server's side: its steps keep it, those that read a message and
    the others. -/
structure ServerPreserves (config : SessionConfig) (Inv : Network → Prop) : Prop where
  heard : ∀ {n : Network} {link message saved rest server outputs}, Grounded n → Inv n →
    n.up link = message :: rest →
    Stepped config n.server (.task link (.receive (some message) saved)) server outputs →
    Inv (({ n with up := Function.update n.up link rest } : Network).served server outputs)
  served : ∀ {n : Network} {action server outputs}, Grounded n → Inv n →
    (∀ link message saved, action ≠ .task link (.receive (some message) saved)) →
    (∀ link, action = .accept link → n.owner link ≠ none) →
    Stepped config n.server action server outputs → Inv (n.served server outputs)

theorem grounded_pushed {n : Network} {id : ClientId} {socket : SocketId}
    {message : ServerMessage} {rest : List ServerMessage} (h : Grounded n)
    (hdown : n.down socket = message :: rest) {w : WebSocket}
    (hw : (n.clients id).sockets socket = some w) (frame : Frame) :
    Grounded (({ n with down := Function.update n.down socket rest } : Network).moved id
      { n.clients id with
        receiving := (n.clients id).receiving ++ [⟨socket, frame, w.label⟩] } []) := by
  refine grounded_change (grounded_fetched h hdown)
    ⟨(h.sane id).buffered, (h.sane id).opening, (h.sane id).bounded⟩ rfl (fun _ hs => hs) ?_
  intro received hr
  rcases List.mem_append.mp hr with hr | hr
  · exact Or.inl hr
  · rw [List.mem_singleton.mp hr]
    refine Or.inr ?_
    show (n.clients id).sockets socket ≠ none
    rw [hw]
    exact Option.some_ne_none w

/-- **Move rule of the network.** -/
theorem path_preserves {env : Environment} {Inv : Network → Prop}
    (hp : ClientPreserves env Inv) {n : Network} {id : ClientId} {t : RemoteSession}
    {outputs : List ClientOutput} (hg : Grounded n) (hi : Inv n)
    (hpath : Path env (n.clients id) outputs t)
    (hfresh : ∀ socket ∈ createdBy outputs, n.owner socket = none) :
    Grounded (n.moved id t outputs) ∧ Inv (n.moved id t outputs) := by
  -- freshness at the start is kept up to the sockets opened on the way
  have hstart : Grounded (n.moved id (n.clients id) []) ∧ Inv (n.moved id (n.clients id) []) := by
    have hsame : n.moved id (n.clients id) [] = n := by
      have hclients := Function.update_eq_self id n.clients
      simp only [Network.moved, hclients, submitted, createdBy, List.filterMap_nil,
        List.append_nil, List.map_nil, List.not_mem_nil, if_false]
    rw [hsame]
    exact ⟨hg, hi⟩
  have hall := hpath.invariant
    (fun before s => (∀ socket ∈ createdBy before, n.owner socket = none) →
      Grounded (n.moved id s before) ∧ Inv (n.moved id s before)) (fun _ => hstart) ?_
  · exact hall hfresh
  · intro before s o u hmid hm hnew
    rw [createdBy_append] at hnew
    obtain ⟨hgm, him⟩ := hmid (fun socket hs => hnew socket (List.mem_append_left _ hs))
    have hm' : Move env ((n.moved id s before).clients id) o u := by
      rw [moved_clients_self]
      exact hm
    have hfree : ∀ socket ∈ createdBy o, (n.moved id s before).owner socket = none := by
      intro socket hs
      show (if socket ∈ createdBy before then some id else n.owner socket) = none
      split
      · -- opened earlier in this turn: it is no longer new
        rename_i hb
        have hown : (n.moved id s before).owner socket = some id := if_pos hb
        have hthere := (hgm.owned id socket).mpr hown
        rw [moved_clients_self] at hthere
        exact absurd (move_created hm (mem_createdBy.mp hs)) hthere
      · exact hnew socket (List.mem_append_right _ hs)
    rw [← moved_moved]
    exact ⟨grounded_move hgm hm' hfree, hp.moved hgm him hm' hfree⟩

/-- A turn of a client keeps what its parts keep. -/
theorem client_preserves {config : SessionConfig} {env : Environment} {Inv : Network → Prop}
    (hp : ClientPreserves env Inv) {n n' : Network} {id : ClientId} {action : ClientAction}
    {outputs : List NetworkOutput} (hg : Grounded n) (hi : Inv n)
    (hr : Ran config env n (.client id action) n' outputs) : Grounded n' ∧ Inv n' := by
  cases hr with
  | pushed hdown hcar hw hopen =>
      exact ⟨grounded_pushed hg hdown hw _, hp.pushed hg hi hdown hcar hw hopen⟩
  | @took _ now received rest client out hrec hidle htook hfresh =>
      obtain ⟨t, htake, hpath⟩ := htook
      have hpath' : Path env ((n.moved id t []).clients id) out client := by
        rw [moved_clients_self]
        exact hpath
      have hall := path_preserves hp (grounded_take hg hrec htake) (hp.took hg hi hrec hidle htake)
        hpath' hfresh
      rwa [moved_moved, List.nil_append] at hall
  | moved _ hpath hfresh => exact path_preserves hp hg hi hpath hfresh

theorem server_grounded {config : SessionConfig} {env : Environment} {n n' : Network}
    {action : Action} {outputs : List NetworkOutput} (hg : Grounded n)
    (hr : Ran config env n (.server action) n' outputs) : Grounded n' := by
  cases hr with
  | heard hup hs =>
      refine grounded_served (grounded_heard hg hup) ?_ hs
      intro _ he
      cases he
  | served _ hacc hs => exact grounded_served hg hacc hs

/-- **Step rule of the network.** -/
theorem ran_preserves {config : SessionConfig} {env : Environment} {Inv : Network → Prop}
    (hc : ClientPreserves env Inv) (hs : ServerPreserves config Inv) {n n' : Network}
    {action : NetworkAction} {outputs : List NetworkOutput} (hg : Grounded n) (hi : Inv n)
    (hr : Ran config env n action n' outputs) : Grounded n' ∧ Inv n' := by
  cases action with
  | client id action => exact client_preserves hc hg hi hr
  | server action =>
      refine ⟨server_grounded hg hr, ?_⟩
      cases hr with
      | heard hup hstep => exact hs.heard hg hi hup hstep
      | served hrec hacc hstep => exact hs.served hg hi hrec hacc hstep

/-- Runs of the network whose steps meet a condition. -/
abbrev NetworkRun (config : SessionConfig) (env : Environment)
    (ok : Network → NetworkAction → Prop) (broker : BrokerConfig) (pairing : PairingService) :
    List (NetworkAction × List NetworkOutput) → Network → Prop :=
  Run (Fires (Network.step config env) ok) (Network.new broker pairing)

/-- Any step. -/
abbrev AnyStep (_ : Network) (_ : NetworkAction) : Prop := True

/-- A browser in which every message can be encoded. -/
def plainEnvironment : Environment := ⟨some, fun _ => none, fun _ => false⟩

/-- Where the listed actions lead. -/
abbrev anyOutcome (actions : List NetworkAction) :
    List (NetworkAction × List NetworkOutput) × Network :=
  outcome (Network.step plainConfig plainEnvironment) AnyStep (.new ⟨5, 8⟩ unpaired) actions

/-- The phone opens its first socket, pairs and stores what it is given. -/
def pairPhone : List NetworkAction :=
  [.client 0 (.connect "wss" "phone"), .client 0 (.loaded 2 (.ok none) (.ok 1)),
   .server (.accept 1), .client 0 (.opened 1),
   .server (.task 1 (.receive (some (.pairRequest "phone")) true)),
   .server (.task 1 (.authorize ⟨1⟩ (some [1]) 0 true)), .server (.task 1 .connect),
   .server (.command ⟨7⟩ none 0), .server (.task 1 .replied), .server (.task 1 (.respond true)),
   .client 0 (.message 1 (.message (.paired ⟨100⟩ ⟨1⟩ [1] ⟨7⟩ []))), .client 0 (.receive 0),
   .client 0 (.saved none)]

/-- **Run rule of the network.** -/
theorem run_preserves {config : SessionConfig} {env : Environment}
    {ok : Network → NetworkAction → Prop} {broker : BrokerConfig} {pairing : PairingService}
    {Inv : Network → Prop} (hc : ClientPreserves env Inv) (hs : ServerPreserves config Inv)
    (hnew : Inv (Network.new broker pairing)) {h : List (NetworkAction × List NetworkOutput)}
    {n : Network} (hr : NetworkRun config env ok broker pairing h n) : Grounded n ∧ Inv n := by
  induction hr with
  | nil => exact ⟨grounded_new broker pairing, hnew⟩
  | snoc _ hstep ih =>
      obtain ⟨hg, hi⟩ := ih
      exact ran_preserves hc hs hg hi (network_step_cases hg.sane hstep.2)

theorem run_grounded {config : SessionConfig} {env : Environment}
    {ok : Network → NetworkAction → Prop} {broker : BrokerConfig} {pairing : PairingService}
    {h : List (NetworkAction × List NetworkOutput)} {n : Network}
    (hr : NetworkRun config env ok broker pairing h n) : Grounded n := by
  have hc : ClientPreserves env (fun _ => True) := ⟨by intros; trivial, by intros; trivial,
    by intros; trivial⟩
  have hs : ServerPreserves config (fun _ => True) := ⟨by intros; trivial, by intros; trivial⟩
  exact (run_preserves hc hs trivial hr).1

/-- The ghost record is the run's outputs. -/
theorem run_log {config : SessionConfig} {env : Environment}
    {ok : Network → NetworkAction → Prop} {broker : BrokerConfig} {pairing : PairingService}
    {h : List (NetworkAction × List NetworkOutput)} {n : Network}
    (hr : NetworkRun config env ok broker pairing h n) (o : NetworkOutput) :
    o ∈ n.log ↔ Observed h o := by
  induction hr with
  | nil => exact iff_of_false (fun h => by cases h) not_observed_nil
  | @snoc h n n' l hr hstep ih =>
      obtain ⟨action, outputs⟩ := l
      have hlog : n'.log = n.log ++ outputs := by
        cases network_step_cases (run_grounded hr).sane hstep.2 with
        | heard | served | took | moved => rfl
        | pushed => rfl
      rw [hlog, List.mem_append, observed_snoc, ih]

end Wire
