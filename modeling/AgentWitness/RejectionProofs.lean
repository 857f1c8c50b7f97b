import AgentWitness.NetworkProofs

/-! # Rejected means unauthorized

    A `RemoteSession` that authenticates and receives `Rejected` ends in a status
    from which it does not retry.  The invariant of this module follows the first
    message of a socket from the client to the server's decision and the
    `Rejected` from the server back: a task decides on exactly the greeting of
    the socket's owner, and a `Rejected` in transit has a refusing decision in
    the history.

    The same defect as in the handshake breaks it: a task whose `authenticate`
    succeeded is sent `Rejected` when the broker still has the client's own
    previous session. -/

namespace Rejection

open Packet KeyedMap BrokerModel BrokerTask RemoteProtocol Pairing Serve Handshake RemoteClient
open ClientFlow Wire Transition

/-! ## What a move does at one socket -/

/-- What a move does to a socket and to its upward wire. -/
inductive AtSocket (s : RemoteSession) (o : List ClientOutput) (t : RemoteSession)
    (link : SocketId) : Prop where
  | same : t.sockets link = s.sockets link → (t.socket = some link → s.socket = some link) →
      submitted link o = [] ∨ (s.socket = some link ∧ s.isOpen link = true ∧
        ∀ clientId credential, .authenticate clientId credential ∉ submitted link o) →
      AtSocket s o t link
  | created {w} : link ∈ createdBy o → t.sockets link = some w → w.readyState = .connecting →
      submitted link o = [] → AtSocket s o t link
  | greeted {w} : s.sockets link = some w → w.readyState = .connecting →
      t.sockets link = some { w with readyState := .open } →
      submitted link o = [w.greeting] → AtSocket s o t link
  | changed {w readyState} : s.sockets link = some w →
      t.sockets link = some { w with readyState := readyState } → readyState ≠ .connecting →
      (readyState = .open → t.socket ≠ some link) → submitted link o = [] →
      AtSocket s o t link

theorem submitted_sent_self (link : LinkId) (message : ClientMessage) :
    submitted link [.sent link message] = [message] := by
  simp [submitted]

theorem submitted_sent_of_ne {link other : LinkId} (message : ClientMessage)
    (h : other ≠ link) : submitted link [.sent other message] = [] := by
  simp [submitted, h]

theorem move_at {env : Environment} {s t : RemoteSession} {o : List ClientOutput}
    (h : Move env s o t) (link : SocketId) : AtSocket s o t link := by
  have hset : ∀ {socket w state}, link ≠ socket →
      (s.setReadyState socket w state).sockets link = s.sockets link :=
    fun hne => Function.update_of_ne hne ..
  cases h with
  | aside ha hq =>
      refine .same (congrFun ha.sockets link) ?_ (Or.inl ((quiet_silent hq).2 link))
      rw [ha.socket]
      exact id
  | @adopted socket w _ hnew _ hw =>
      by_cases hl : link = socket
      · subst hl
        exact .created (List.mem_singleton.mpr rfl) (Function.update_self ..) hw rfl
      · refine .same (Function.update_of_ne hl ..) ?_ (Or.inl rfl)
        exact fun hs => absurd (Option.some.inj hs).symm hl
  | @greeted socket w hs hw hstate =>
      by_cases hl : link = socket
      · subst hl
        exact .greeted hw hstate (Function.update_self ..) (submitted_sent_self ..)
      · exact .same (hset hl) id (Or.inl (submitted_sent_of_ne _ (Ne.symm hl)))
  | @opened socket w hs hw hstate =>
      by_cases hl : link = socket
      · subst hl
        exact .changed hw (Function.update_self ..) (by rintro ⟨⟩) (fun _ => hs) rfl
      · exact .same (hset hl) id (Or.inl rfl)
  | @shut socket w state hw hno hnc =>
      by_cases hl : link = socket
      · subst hl
        exact .changed hw (Function.update_self ..) hnc (fun he => absurd he hno) rfl
      · exact .same (hset hl) id (Or.inl rfl)
  | dropped => exact .same rfl (by rintro ⟨⟩) (Or.inl rfl)
  | @sent socket message hs hopen hm _ =>
      by_cases hl : link = socket
      · subst hl
        refine .same rfl id (Or.inr ⟨hs, hopen, ?_⟩)
        rw [submitted_sent_self]
        intro clientId credential hmem
        rw [← List.mem_singleton.mp hmem] at hm
        cases hm
      · exact .same rfl id (Or.inl (submitted_sent_of_ne _ (Ne.symm hl)))
  | @answered token h packet _ _ hs hopen _ =>
      by_cases hl : link = h.socket
      · subst hl
        refine .same rfl id (Or.inr ⟨hs, hopen, ?_⟩)
        intro clientId credential hmem
        rcases List.mem_cons.mp (mem_submitted.mp hmem) with he | he
        · cases he
        · cases (ClientOutput.sent.inj (List.mem_singleton.mp he)).2
      · refine .same rfl id (Or.inl (List.eq_nil_iff_forall_not_mem.mpr ?_))
        intro message hmem
        rcases List.mem_cons.mp (mem_submitted.mp hmem) with he | he
        · cases he
        · exact hl (ClientOutput.sent.inj (List.mem_singleton.mp he)).1
  | bumped | began _ | ended | started _ _ _ _ | resolved _ _ | released | buried _ =>
      exact .same rfl id (Or.inl rfl)

/-! ## The invariant -/

/-- No message of the link has been read. -/
def Untouched (s : Server) (link : LinkId) : Prop :=
  ∀ t, s.tasks link = some t → t.phase = .receiving

/-- The authorizations that recognized a client. -/
def Authorization.authenticates : Authorization → Bool
  | .paired _ _ _ => false
  | .authenticated _ _ => true

/-- The greeting of a socket reaches the server's decision, and a `Rejected` on
    its way to a socket that authenticates was decided. -/
structure Greets (refused : LinkId → Uuid → Bytes → Prop) (n : Network) : Prop where
  unsent : ∀ id link w, (n.clients id).sockets link = some w → w.readyState = .connecting →
    n.up link = []
  first : ∀ id link w message rest, (n.clients id).sockets link = some w →
    Untouched n.server link → n.up link = message :: rest → message = w.greeting
  begun : ∀ id link w, (n.clients id).sockets link = some w →
    (n.clients id).socket = some link → w.readyState = .open → Untouched n.server link →
    n.up link ≠ []
  deciding : ∀ id link w t message, (n.clients id).sockets link = some w →
    n.server.tasks link = some t → t.phase = .authorizing message → message = w.greeting
  claiming : ∀ id link w t a, (n.clients id).sockets link = some w →
    n.server.tasks link = some t → a ∈ Phase.claim t.phase → w.pairing ≠ none →
    Authorization.authenticates a = true
  descending : ∀ id link w r, (n.clients id).sockets link = some w → w.pairing = some r →
    .rejected ∈ n.down link → refused link r.clientId r.credential
  received : ∀ id w r received, (n.clients id).sockets received.socket = some w →
    w.pairing = some r → received ∈ (n.clients id).receiving →
    received.frame = .message .rejected → refused received.socket r.clientId r.credential
  sent : ∀ id link clientId credential,
    .client id (.sent link (.authenticate clientId credential)) ∈ n.log →
    ∃ w r, (n.clients id).sockets link = some w ∧ w.pairing = some r ∧
      r.clientId = clientId ∧ r.credential = credential

theorem greets_new (refused : LinkId → Uuid → Bytes → Prop) (config : BrokerConfig)
    (pairing : PairingService) : Greets refused (Network.new config pairing) where
  unsent := fun _ _ _ hw => by cases hw
  first := fun _ _ _ _ _ hw => by cases hw
  begun := fun _ _ _ hw => by cases hw
  deciding := fun _ _ _ _ _ hw => by cases hw
  claiming := fun _ _ _ _ _ hw => by cases hw
  descending := fun _ _ _ _ hw => by cases hw
  received := fun _ _ _ _ hw => by cases hw
  sent := fun _ _ _ _ hm => by cases hm

theorem Greets.mono {refused refused' : LinkId → Uuid → Bytes → Prop} {n : Network}
    (h : Greets refused n)
    (hsub : ∀ link clientId credential, refused link clientId credential →
      refused' link clientId credential) : Greets refused' n :=
  { h with
    descending := fun id link w r hw hp hm => hsub _ _ _ (h.descending id link w r hw hp hm)
    received := fun id w r received hw hp hm hf =>
      hsub _ _ _ (h.received id w r received hw hp hm hf) }

/-! ## The clients' side -/

/-- A move of one client at a socket of any client. -/
theorem moved_at {env : Environment} {n : Network} {id : ClientId} {t : RemoteSession}
    {o : List ClientOutput} (hg : Grounded n) (hm : Move env (n.clients id) o t)
    {other : ClientId} {link : SocketId} {w : WebSocket}
    (hw : ((n.moved id t o).clients other).sockets link = some w) :
    AtSocket (n.clients other) o ((n.moved id t o).clients other) link := by
  by_cases ho : other = id
  · subst ho
    rw [moved_clients_self]
    exact move_at hm link
  · rw [moved_clients_of_ne n t o ho] at hw ⊢
    refine .same rfl (fun hs => hs) (Or.inl (List.eq_nil_iff_forall_not_mem.mpr ?_))
    intro message hmem
    have hid := hg.current id link (move_sent hm (mem_submitted.mp hmem))
    have hother := (hg.owned other link).mp (by rw [hw]; exact Option.some_ne_none _)
    exact ho (Option.some.inj (hother.symm.trans hid))

theorem isOpen_state {s : RemoteSession} {link : SocketId} {w : WebSocket}
    (ho : s.isOpen link = true) (hw : s.sockets link = some w) : w.readyState = .open := by
  rw [RemoteSession.isOpen, hw] at ho
  exact of_decide_eq_true ho

/-- What is known of a socket before a move, from what is there after it. -/
theorem moved_before {env : Environment} {n : Network} {id : ClientId} {t : RemoteSession}
    {o : List ClientOutput} (hg : Grounded n) (hm : Move env (n.clients id) o t)
    (hfresh : ∀ socket ∈ createdBy o, n.owner socket = none)
    {other : ClientId} {link : SocketId} {w : WebSocket}
    (hw : ((n.moved id t o).clients other).sockets link = some w) :
    (∃ w₀, (n.clients other).sockets link = some w₀ ∧ w₀.pairing = w.pairing ∧
        w₀.greeting = w.greeting) ∨ n.owner link = none := by
  cases moved_at hg hm hw with
  | same hsame _ _ => exact Or.inl ⟨w, hsame.symm.trans hw, rfl, rfl⟩
  | created hc _ _ _ => exact Or.inr (hfresh link hc)
  | greeted hw₀ _ hnew _ =>
      obtain rfl := Option.some.inj (hw.symm.trans hnew)
      exact Or.inl ⟨_, hw₀, rfl, rfl⟩
  | changed hw₀ hnew _ _ _ =>
      obtain rfl := Option.some.inj (hw.symm.trans hnew)
      exact Or.inl ⟨_, hw₀, rfl, rfl⟩

/-- A socket keeps its pairing through a move. -/
theorem moved_after {env : Environment} {n : Network} {id : ClientId} {t : RemoteSession}
    {o : List ClientOutput} (hm : Move env (n.clients id) o t) {other : ClientId}
    {link : SocketId} {w₀ : WebSocket} (hw₀ : (n.clients other).sockets link = some w₀) :
    ∃ w, ((n.moved id t o).clients other).sockets link = some w ∧ w.pairing = w₀.pairing := by
  by_cases ho : other = id
  · subst ho
    rw [moved_clients_self]
    cases move_at hm link with
    | same hsame _ _ => exact ⟨w₀, hsame.trans hw₀, rfl⟩
    | created hc _ _ _ =>
        rw [move_created hm (mem_createdBy.mp hc)] at hw₀
        cases hw₀
    | greeted hw _ hnew _ =>
        obtain rfl := Option.some.inj (hw.symm.trans hw₀)
        exact ⟨_, hnew, rfl⟩
    | changed hw hnew _ _ _ =>
        obtain rfl := Option.some.inj (hw.symm.trans hw₀)
        exact ⟨_, hnew, rfl⟩
  · rw [moved_clients_of_ne n t o ho]
    exact ⟨w₀, hw₀, rfl⟩

/-- The frames of a client after a move of one. -/
theorem moved_receiving {env : Environment} {n : Network} {id : ClientId} {t : RemoteSession}
    {o : List ClientOutput} (hm : Move env (n.clients id) o t) (other : ClientId) :
    ((n.moved id t o).clients other).receiving = (n.clients other).receiving := by
  by_cases ho : other = id
  · subst ho
    rw [moved_clients_self]
    exact move_receiving hm
  · rw [moved_clients_of_ne n t o ho]

/-- A socket authenticates with the pairing it was opened for. -/
theorem greeting_authenticate {w : WebSocket} {clientId : Uuid} {credential : Bytes}
    (h : w.greeting = .authenticate clientId credential) :
    ∃ r, w.pairing = some r ∧ r.clientId = clientId ∧ r.credential = credential := by
  rw [WebSocket.greeting] at h
  split at h
  · rename_i r hr
    obtain ⟨hc, hk⟩ := ClientMessage.authenticate.inj h
    exact ⟨r, hr, hc, hk⟩
  · cases h

section Moved

variable {env : Environment} {refused : LinkId → Uuid → Bytes → Prop} {n : Network}
  {id : ClientId} {t : RemoteSession} {o : List ClientOutput}

/-- A socket that is only now opened has no task and empty wires. -/
theorem bare_of_unowned (hg : Grounded n) {link : LinkId} (h : n.owner link = none) :
    n.server.tasks link = none ∧ n.up link = [] ∧ n.down link = [] :=
  ⟨hg.tasks link h, hg.up link h, hg.down link h⟩

theorem moved_unsent (hg : Grounded n) (h : Greets refused n) (hm : Move env (n.clients id) o t)
    (hfresh : ∀ socket ∈ createdBy o, n.owner socket = none) {other : ClientId} {link : LinkId}
    {w : WebSocket} (hw : ((n.moved id t o).clients other).sockets link = some w)
    (hstate : w.readyState = .connecting) : (n.moved id t o).up link = [] := by
  show n.up link ++ submitted link o = []
  cases moved_at hg hm hw with
  | same hsame _ hsub =>
      have hw₀ := hsame.symm.trans hw
      rw [h.unsent other link w hw₀ hstate, List.nil_append]
      rcases hsub with hnil | ⟨_, hopen, _⟩
      · exact hnil
      · cases hstate.symm.trans (isOpen_state hopen hw₀)
  | created hc _ _ hnil =>
      rw [(bare_of_unowned hg (hfresh link hc)).2.1, hnil]
      rfl
  | greeted _ _ hnew _ =>
      obtain rfl := Option.some.inj (hw.symm.trans hnew)
      cases hstate
  | changed _ hnew hne _ _ =>
      obtain rfl := Option.some.inj (hw.symm.trans hnew)
      exact absurd hstate hne

/-- The first message of a socket is its greeting: the greeting goes out when the socket
    opens, and nothing before it. -/
theorem moved_first (hg : Grounded n) (h : Greets refused n) (hm : Move env (n.clients id) o t)
    (hfresh : ∀ socket ∈ createdBy o, n.owner socket = none) {other : ClientId} {link : LinkId}
    {w : WebSocket} {message : ClientMessage} {rest : List ClientMessage}
    (hw : ((n.moved id t o).clients other).sockets link = some w) (hun : Untouched n.server link)
    (heq : (n.moved id t o).up link = message :: rest) : message = w.greeting := by
  change n.up link ++ submitted link o = message :: rest at heq
  cases moved_at hg hm hw with
  | same hsame hcur hsub =>
      have hw₀ := hsame.symm.trans hw
      rcases hsub with hnil | ⟨hs, hopen, _⟩
      · rw [hnil, List.append_nil] at heq
        exact h.first other link w message rest hw₀ hun heq
      · cases hold : n.up link with
        | nil => exact absurd hold (h.begun other link w hw₀ hs (isOpen_state hopen hw₀) hun)
        | cons m ms =>
            rw [hold] at heq
            obtain ⟨rfl, _⟩ := List.cons.inj heq
            exact h.first other link w m ms hw₀ hun hold
  | created hc _ _ hnil =>
      rw [(bare_of_unowned hg (hfresh link hc)).2.1, hnil] at heq
      cases heq
  | greeted hw₀ hstate hnew hsub =>
      obtain rfl := Option.some.inj (hw.symm.trans hnew)
      rw [h.unsent other link _ hw₀ hstate, hsub] at heq
      exact (List.cons.inj heq).1.symm
  | changed hw₀ hnew _ _ hnil =>
      obtain rfl := Option.some.inj (hw.symm.trans hnew)
      rw [hnil, List.append_nil] at heq
      have hfirst := h.first other link _ message rest hw₀ hun heq
      exact hfirst

theorem moved_begun (hg : Grounded n) (h : Greets refused n) (hm : Move env (n.clients id) o t)
    {other : ClientId} {link : LinkId} {w : WebSocket}
    (hw : ((n.moved id t o).clients other).sockets link = some w)
    (hs : ((n.moved id t o).clients other).socket = some link) (hstate : w.readyState = .open)
    (hun : Untouched n.server link) : (n.moved id t o).up link ≠ [] := by
  show n.up link ++ submitted link o ≠ []
  cases moved_at hg hm hw with
  | same hsame hcur _ =>
      have hold := h.begun other link w (hsame.symm.trans hw) (hcur hs) hstate hun
      exact fun hnil => hold (List.append_eq_nil_iff.mp hnil).1
  | created _ hnew hconn _ =>
      obtain rfl := Option.some.inj (hw.symm.trans hnew)
      cases hstate.symm.trans hconn
  | greeted _ _ _ hsub =>
      rw [hsub]
      intro hnil
      cases (List.append_eq_nil_iff.mp hnil).2
  | changed _ hnew _ hopen _ =>
      obtain rfl := Option.some.inj (hw.symm.trans hnew)
      exact absurd hs (hopen hstate)

/-- The credential that a move sends is the one of the socket's pairing record. -/
theorem move_authenticates (hm : Move env (n.clients id) o t) {link : LinkId} {clientId : Uuid}
    {credential : Bytes} (hsub : .authenticate clientId credential ∈ submitted link o) :
    ∃ w r, t.sockets link = some w ∧ w.pairing = some r ∧
      r.clientId = clientId ∧ r.credential = credential := by
  cases move_at hm link with
  | same _ _ hno =>
      rcases hno with hnil | ⟨_, _, hno⟩
      · rw [hnil] at hsub
        cases hsub
      · exact absurd hsub (hno clientId credential)
  | created _ _ _ hnil =>
      rw [hnil] at hsub
      cases hsub
  | greeted _ _ hnew hone =>
      rw [hone] at hsub
      obtain ⟨r, hr, hsame⟩ := greeting_authenticate (List.mem_singleton.mp hsub).symm
      exact ⟨_, r, hnew, hr, hsame⟩
  | changed _ _ _ _ hnil =>
      rw [hnil] at hsub
      cases hsub

theorem greets_moved (hg : Grounded n) (h : Greets refused n) (hm : Move env (n.clients id) o t)
    (hfresh : ∀ socket ∈ createdBy o, n.owner socket = none) :
    Greets refused (n.moved id t o) where
  unsent := fun _ _ _ hw hstate => moved_unsent hg h hm hfresh hw hstate
  first := fun _ _ _ _ _ hw hun heq => moved_first hg h hm hfresh hw hun heq
  begun := fun _ _ _ hw hs hstate hun => moved_begun hg h hm hw hs hstate hun
  deciding := by
    intro other link w t' message hw ht hp
    rcases moved_before hg hm hfresh hw with ⟨w₀, hw₀, _, hgreet⟩ | hnone
    · rw [← hgreet]
      exact h.deciding other link w₀ t' message hw₀ ht hp
    · cases (bare_of_unowned hg hnone).1.symm.trans ht
  claiming := by
    intro other link w t' a hw ht ha hp
    rcases moved_before hg hm hfresh hw with ⟨w₀, hw₀, hpair, _⟩ | hnone
    · rw [← hpair] at hp
      exact h.claiming other link w₀ t' a hw₀ ht ha hp
    · cases (bare_of_unowned hg hnone).1.symm.trans ht
  descending := by
    intro other link w r hw hp hmem
    rcases moved_before hg hm hfresh hw with ⟨w₀, hw₀, hpair, _⟩ | hnone
    · exact h.descending other link w₀ r hw₀ (hpair.trans hp) hmem
    · have hmem : .rejected ∈ n.down link := hmem
      rw [(bare_of_unowned hg hnone).2.2] at hmem
      cases hmem
  received := by
    intro other w r received hw hp hmem hframe
    rw [moved_receiving hm] at hmem
    rcases moved_before hg hm hfresh hw with ⟨w₀, hw₀, hpair, _⟩ | hnone
    · exact h.received other w₀ r received hw₀ (hpair.trans hp) hmem hframe
    · cases hnone.symm.trans (hg.arrived other received hmem)
  sent := by
    intro other link clientId credential hmem
    rcases List.mem_append.mp hmem with hmem | hmem
    · obtain ⟨w₀, r, hw₀, hp, hid⟩ := h.sent other link clientId credential hmem
      obtain ⟨w, hw, hpair⟩ := moved_after hm hw₀
      exact ⟨w, r, hw, hpair.trans hp, hid⟩
    · obtain ⟨out, hout, heq⟩ := List.mem_map.mp hmem
      obtain ⟨rfl, rfl⟩ := NetworkOutput.client.inj heq
      rw [moved_clients_self]
      exact move_authenticates hm (mem_submitted.mpr hout)

end Moved

/-- A change of one client that leaves its sockets alone and brings in no
    undecided `Rejected`. -/
theorem greets_changed {refused : LinkId → Uuid → Bytes → Prop} {n : Network} {id : ClientId}
    {t : RemoteSession} (h : Greets refused n) (hsockets : t.sockets = (n.clients id).sockets)
    (hsocket : ∀ link, t.socket = some link → (n.clients id).socket = some link)
    (hreceiving : ∀ received ∈ t.receiving, received.frame = .message .rejected →
      received ∈ (n.clients id).receiving ∨
        ∀ w r, (n.clients id).sockets received.socket = some w → w.pairing = some r →
          refused received.socket r.clientId r.credential) :
    Greets refused (n.moved id t []) := by
  have hup : ∀ link, (n.moved id t []).up link = n.up link := fun _ => List.append_nil _
  have hsame : ∀ other, ((n.moved id t []).clients other).sockets = (n.clients other).sockets := by
    intro other
    by_cases ho : other = id
    · subst ho
      rw [moved_clients_self]
      exact hsockets
    · rw [moved_clients_of_ne n t [] ho]
  refine ⟨?_, ?_, ?_, ?_, ?_, ?_, ?_, ?_⟩
  · intro other link w hw hstate
    rw [hsame] at hw
    rw [hup]
    exact h.unsent other link w hw hstate
  · intro other link w message rest hw hun heq
    rw [hsame] at hw
    rw [hup] at heq
    exact h.first other link w message rest hw hun heq
  · intro other link w hw hs hstate hun
    rw [hsame] at hw
    rw [hup]
    refine h.begun other link w hw ?_ hstate hun
    by_cases ho : other = id
    · subst ho
      rw [moved_clients_self] at hs
      exact hsocket link hs
    · rw [moved_clients_of_ne n t [] ho] at hs
      exact hs
  · intro other link w t' message hw
    rw [hsame] at hw
    exact h.deciding other link w t' message hw
  · intro other link w t' a hw
    rw [hsame] at hw
    exact h.claiming other link w t' a hw
  · intro other link w r hw
    rw [hsame] at hw
    exact h.descending other link w r hw
  · intro other w r received hw hp hmem hframe
    rw [hsame] at hw
    by_cases ho : other = id
    · subst ho
      rw [moved_clients_self] at hmem
      rcases hreceiving received hmem hframe with hold | hnew
      · exact h.received other w r received hw hp hold hframe
      · exact hnew w r hw hp
    · rw [moved_clients_of_ne n t [] ho] at hmem
      exact h.received other w r received hw hp hmem hframe
  · intro other link clientId credential hmem
    rw [hsame]
    refine h.sent other link clientId credential ?_
    have hlog : (n.moved id t []).log = n.log := List.append_nil _
    rw [hlog] at hmem
    exact hmem

theorem greets_took {refused : LinkId → Uuid → Bytes → Prop} {n : Network} {id : ClientId}
    {t : RemoteSession} {received : Received} {rest : List Received} (h : Greets refused n)
    (hr : (n.clients id).receiving = received :: rest)
    (ht : Take (n.clients id) received rest t) : Greets refused (n.moved id t []) := by
  refine greets_changed h ?_ ?_ ?_
  · cases ht with
    | popped | threw | rejected | enqueued | refused | cancelled => rfl
  · cases ht with
    | popped | threw | enqueued | refused | cancelled => exact fun _ hs => hs
    | rejected => rintro _ ⟨⟩
  · intro other hmem _
    rw [take_receiving ht] at hmem
    rw [hr]
    exact Or.inl (List.mem_cons_of_mem _ hmem)

theorem greets_pushed {refused : LinkId → Uuid → Bytes → Prop} {n : Network} {id : ClientId}
    {socket : SocketId} {message : ServerMessage} {rest : List ServerMessage} {frame : Frame}
    (h : Greets refused n) (hdown : n.down socket = message :: rest)
    (hcarries : carries message frame = true) (label : String) :
    Greets refused (({ n with down := Function.update n.down socket rest } : Network).moved id
      { n.clients id with
        receiving := (n.clients id).receiving ++ [⟨socket, frame, label⟩] } []) := by
  have hless : ∀ link, ServerMessage.rejected ∈ Function.update n.down socket rest link →
      .rejected ∈ n.down link := by
    intro link hmem
    by_cases hl : link = socket
    · subst hl
      rw [Function.update_self] at hmem
      rw [hdown]
      exact List.mem_cons_of_mem _ hmem
    · rw [Function.update_of_ne hl] at hmem
      exact hmem
  have hfetched : Greets refused { n with down := Function.update n.down socket rest } :=
    ⟨h.unsent, h.first, h.begun, h.deciding, h.claiming,
      fun other link w r hw hp hmem => h.descending other link w r hw hp (hless link hmem),
      h.received, h.sent⟩
  refine greets_changed hfetched rfl (fun _ hs => hs) ?_
  intro received hmem hframe
  rcases List.mem_append.mp hmem with hmem | hmem
  · exact Or.inl hmem
  · rw [List.mem_singleton.mp hmem] at hframe ⊢
    refine Or.inr (fun w r hw hp => h.descending id socket w r hw hp ?_)
    -- the frame decodes to `Rejected`, so that is what was on the wire
    change frame = .message .rejected at hframe
    rw [hframe] at hcarries
    rw [hdown, ← (of_decide_eq_true hcarries : ServerMessage.rejected = message)]
    exact List.mem_cons_self ..

theorem client_greets (env : Environment) (refused : LinkId → Uuid → Bytes → Prop) :
    ClientPreserves env (Greets refused) where
  pushed := fun _ h hdown hcarries _ _ => greets_pushed h hdown hcarries _
  took := fun _ h hr _ ht => greets_took h hr ht
  moved := fun hg h hm hfresh => greets_moved hg h hm hfresh

/-! ## The server's side -/

/-- Where a task's first message and its claim come from. -/
theorem acted_phase {config : SessionConfig} {p : PairingService} {stopped : Bool}
    {link : LinkId} {t : Task} {action : TaskAction} {r : TaskResult}
    (h : Acted config p stopped link t action r) :
    (r.task.phase = .receiving → False) ∧
    (∀ message, r.task.phase = .authorizing message →
      t.phase = .receiving ∧ ∃ saved, action = .receive (some message) saved) ∧
    ∀ a ∈ Phase.claim r.task.phase, a ∈ Phase.claim t.phase ∨
      ∃ message client_id credential now saved p', t.phase = .authorizing message ∧
        authorization config p client_id credential now saved message = some (p', .ok a) := by
  cases h with
  | received hp =>
      refine ⟨(fun he => by cases he), ?_, (fun a ha => by cases ha)⟩
      intro message he
      obtain rfl := Phase.authorizing.inj he
      exact ⟨hp, _, rfl⟩
  | authorized hp hok =>
      refine ⟨(fun he => by cases he), (fun _ he => by cases he), ?_⟩
      intro a ha
      obtain rfl := Option.some.inj ha
      exact Or.inr ⟨_, _, _, _, _, _, hp, hok⟩
  | connected hp _ _ =>
      refine ⟨(fun he => by cases he), (fun _ he => by cases he), ?_⟩
      rw [hp]
      exact fun a ha => Or.inl ha
  | posted hp _ _ | updated hp _ _ | forwarded hp _ =>
      refine ⟨(fun he => by cases hp.symm.trans he), (fun _ he => by cases hp.symm.trans he), ?_⟩
      exact fun a ha => Or.inl ha
  | ended _ | broke _ _ | ponged _ | rejected _ _ | unavailable _ | registered _ _ | refused _ _
  | responded _ | unanswered _ | beat _ | disconnected _ | dropped _ =>
      exact ⟨(fun he => by cases he), (fun _ he => by cases he), (fun a ha => by cases ha)⟩

/-- A task after a step of the server: new, moved on by a turn of the broker or
    left alone, or stepped itself. -/
theorem stepped_phase {config : SessionConfig} {s s' : Server} {action : Action}
    {outputs : List ServerOutput} (hs : Stepped config s action s' outputs) {link : LinkId}
    {t' : Task} (ht' : s'.tasks link = some t') :
    (s.tasks link = none ∧ t'.phase = .receiving) ∨
      ∃ t, s.tasks link = some t ∧ (t'.phase = t.phase ∨ t'.phase = .finished ∨
        ∃ act r, action = .task link act ∧ t' = r.task ∧
          Acted config s.pairing s.broker.stopped link t act r) := by
  cases hs with
  | @accepted other hnone =>
      rcases update_task_cases ht' with ⟨rfl, rfl⟩ | ⟨_, ht⟩
      · exact Or.inl ⟨hnone, rfl⟩
      · exact Or.inr ⟨t', ht, Or.inl rfl⟩
  | @acted other act t r ht hact =>
      rcases update_task_cases ht' with ⟨rfl, rfl⟩ | ⟨_, ht⟩
      · exact Or.inr ⟨t, ht, Or.inr (Or.inr ⟨act, r, rfl, rfl, hact⟩)⟩
      · exact Or.inr ⟨t', ht, Or.inl rfl⟩
  | turned _ hallowed _ =>
      obtain ⟨t, ht, hheard⟩ := turned_task_of hallowed ht'
      rcases hheard.phase with hsame | ⟨_, hfin⟩
      · exact Or.inr ⟨t, ht, Or.inl hsame⟩
      · exact Or.inr ⟨t, ht, Or.inr (Or.inl hfin)⟩
  | cleared => exact Or.inr ⟨t', ht', Or.inl rfl⟩
  | stopping _ => exact Or.inr ⟨t', ht', Or.inl rfl⟩

theorem stepped_untouched {config : SessionConfig} {s s' : Server} {action : Action}
    {outputs : List ServerOutput} (hs : Stepped config s action s' outputs) {link : LinkId}
    (h : Untouched s' link) : Untouched s link := by
  intro t ht
  cases hs with
  | @accepted other hnone =>
      have hne : link ≠ other := by
        rintro rfl
        cases hnone.symm.trans ht
      exact h t ((Function.update_of_ne hne ..).trans ht)
  | @acted other act t₀ r ht₀ hact =>
      by_cases hl : link = other
      · subst hl
        exact absurd (h r.task (Function.update_self ..)) (acted_phase hact).1
      · exact h t ((Function.update_of_ne hl ..).trans ht)
  | turned _ hallowed _ =>
      obtain ⟨t', ht', hheard⟩ := turned_task _ hallowed ht
      rcases hheard.phase with hsame | ⟨_, hfin⟩
      · exact hsame.symm.trans (h t' ht')
      · cases hfin.symm.trans (h t' ht')
  | cleared => exact h t ht
  | stopping _ => exact h t ht

/-- A socket with a pairing greets by authenticating. -/
theorem greeting_of_pairing {w : WebSocket} {r : PairingRecord} (h : w.pairing = some r) :
    w.greeting = .authenticate r.clientId r.credential := by
  rw [WebSocket.greeting, h]

/-- What the service decides on an `Authenticate`, if it accepts, is that the
    client is authenticated. -/
theorem authorization_authenticates {config : SessionConfig} {p p' : PairingService}
    {client_id clientId : Uuid} {credential : Option Bytes} {presented : Bytes} {now : UInt64}
    {saved : Bool} {a : Authorization}
    (h : authorization config p client_id credential now saved
      (.authenticate clientId presented) = some (p', .ok a)) :
    Authorization.authenticates a = true := by
  rw [authorization, PairingService.authenticate] at h
  have h := Option.some.inj h
  split at h
  · cases (Prod.mk.inj h).2
  · split at h
    · cases (Prod.mk.inj h).2
    · split at h
      · obtain rfl := Except.ok.inj (Prod.mk.inj h).2
        rfl
      · cases (Prod.mk.inj h).2

/-- The decisions of a step against clients that authenticate are recorded. -/
def Records (config : SessionConfig) (refused : LinkId → Uuid → Bytes → Prop) (s : Server)
    (action : Action) : Prop :=
  ∀ link t client_id credential now saved clientId presented,
    action = .task link (.authorize client_id credential now saved) →
    s.tasks link = some t → t.phase = .authorizing (.authenticate clientId presented) →
    saved = false ∨ ¬ s.pairing.state.authorizes config.primitives clientId presented →
    refused link clientId presented

/-- **Step lemma of the server.**  `up` is the upward wires once the step has read
    its message, if it reads one. -/
theorem greets_served {config : SessionConfig} {refused refused' : LinkId → Uuid → Bytes → Prop}
    {n : Network} {action : Action} {server : Server} {outputs : List ServerOutput}
    {up : LinkId → List ClientMessage} (h : Greets refused n)
    (hsub : ∀ link clientId credential, refused link clientId credential →
      refused' link clientId credential)
    (hrecords : Records config refused' n.server action)
    (hunrefused : ∀ link t a, n.server.tasks link = some t → t.phase = .awaiting a →
      Authorization.authenticates a = true → t.reply ≠ some (.error .remoteAlreadyConnected))
    (hs : Stepped config n.server action server outputs)
    (hshrink : ∀ link, n.up link = [] → up link = [])
    (hunread : ∀ link, Untouched server link → up link = n.up link)
    (hread : ∀ link message saved, action = .task link (.receive (some message) saved) →
      ∃ rest, n.up link = message :: rest) :
    Greets refused' (({ n with up := up } : Network).served server outputs) := by
  refine ⟨?_, ?_, ?_, ?_, ?_, ?_, ?_, ?_⟩
  · intro id link w hw hstate
    exact hshrink link (h.unsent id link w hw hstate)
  · intro id link w message rest hw hun heq
    exact h.first id link w message rest hw (stepped_untouched hs hun)
      ((hunread link hun).symm.trans heq)
  · intro id link w hw hsock hstate hun
    show up link ≠ []
    rw [hunread link hun]
    exact h.begun id link w hw hsock hstate (stepped_untouched hs hun)
  · intro id link w t' message hw ht' hp
    rcases stepped_phase hs ht' with ⟨_, hrec⟩ | ⟨t, ht, hsame | hfin | ⟨act, r, hact, rfl, ha⟩⟩
    · cases hrec.symm.trans hp
    · exact h.deciding id link w t message hw ht (hsame.symm.trans hp)
    · cases hfin.symm.trans hp
    · -- the message was the oldest of the wire, and the task had read none before
      obtain ⟨hrec, saved, rfl⟩ := (acted_phase ha).2.1 message hp
      obtain ⟨rest, hup⟩ := hread link message saved hact
      refine h.first id link w message rest hw ?_ hup
      intro t₀ ht₀
      obtain rfl := Option.some.inj (ht.symm.trans ht₀)
      exact hrec
  · intro id link w t' a hw ht' ha hpair
    rcases stepped_phase hs ht' with ⟨_, hrec⟩ | ⟨t, ht, hsame | hfin | ⟨act, r, _, rfl, hact⟩⟩
    · rw [hrec] at ha
      cases ha
    · rw [hsame] at ha
      exact h.claiming id link w t a hw ht ha hpair
    · rw [hfin] at ha
      cases ha
    · rcases (acted_phase hact).2.2 a ha with hold | ⟨message, _, _, _, _, _, hp, hok⟩
      · exact h.claiming id link w t a hw ht hold hpair
      · obtain ⟨record, hrecord⟩ := Option.ne_none_iff_exists'.mp hpair
        rw [h.deciding id link w t message hw ht hp, greeting_of_pairing hrecord] at hok
        exact authorization_authenticates hok
  · intro id link w record hw hrecord hmem
    rcases List.mem_append.mp hmem with hmem | hmem
    · exact hsub _ _ _ (h.descending id link w record hw hrecord hmem)
    · have hgreet := greeting_of_pairing hrecord
      obtain ⟨link', act, t, r, ht, hact, ha, ho, _⟩ :=
        stepped_task hs (mem_transmitted.mp hmem) (external_ne_sent link .rejected)
      obtain ⟨rfl, _, hcause⟩ := acted_rejects ha ho
      rcases hcause with ⟨message, client_id, credential, now, saved, rfl, hp, hno⟩ | ⟨a, hp, hr⟩
      · have hmessage := (h.deciding id link w t message hw ht hp).trans hgreet
        rw [hmessage] at hp hno
        refine hrecords link t client_id credential now saved _ _ hact ht hp ?_
        -- the service did not accept, so it answered with an error
        cases hauth : n.server.pairing.authenticate config.primitives record.clientId
            record.credential now saved with
        | mk p' result =>
            cases result with
            | ok a => exact absurd (congrArg some hauth) (hno p' a)
            | error e => exact (authenticate_error hauth).2
      · have hkind : Authorization.authenticates a = true := by
          refine h.claiming id link w t a hw ht ?_ ?_
          · rw [hp]
            rfl
          · rw [hrecord]
            exact Option.some_ne_none record
        exact absurd hr (hunrefused link t a ht hp hkind)
  · intro id w record received hw hrecord hmem hframe
    exact hsub _ _ _ (h.received id w record received hw hrecord hmem hframe)
  · intro id link clientId credential hmem
    rcases List.mem_append.mp hmem with hmem | hmem
    · exact h.sent id link clientId credential hmem
    · obtain ⟨_, _, heq⟩ := List.mem_map.mp hmem
      cases heq

/-! ## Runs -/

/-- The broker handles the connect of a task whose `authenticate` succeeded only
    while no session is registered. -/
def AuthenticatesAlone (n : Network) : NetworkAction → Prop
  | .server action => ClaimsAlone Authorization.authenticates n.server action
  | .client _ _ => True

instance (n : Network) (action : NetworkAction) : Decidable (AuthenticatesAlone n action) :=
  match action with
  | .server action =>
      inferInstanceAs (Decidable (ClaimsAlone Authorization.authenticates n.server action))
  | .client _ _ => inferInstanceAs (Decidable True)

section Runs

variable {config : SessionConfig} {env : Environment} {broker : BrokerConfig}
  {pairing : PairingService} {h : List (NetworkAction × List NetworkOutput)} {n : Network}

/-- Runs of the network in which clients that authenticate claim their session
    alone. -/
abbrev LoneRun (config : SessionConfig) (env : Environment) (broker : BrokerConfig)
    (pairing : PairingService) : List (NetworkAction × List NetworkOutput) → Network → Prop :=
  NetworkRun config env AuthenticatesAlone broker pairing

/-- The server has decided against these credentials on this link: when it did,
    its paired client was another one, or the store failed. -/
def Refused (config : SessionConfig) (env : Environment) (broker : BrokerConfig)
    (pairing : PairingService) (h : List (NetworkAction × List NetworkOutput)) (link : LinkId)
    (clientId : Uuid) (credential : Bytes) : Prop :=
  ∃ before n drawn key now saved outputs after t,
    h = before ++ (.server (.task link (.authorize drawn key now saved)), outputs) :: after ∧
    LoneRun config env broker pairing before n ∧ n.server.tasks link = some t ∧
    t.phase = .authorizing (.authenticate clientId credential) ∧
    (saved = false ∨ ¬ n.server.pairing.state.authorizes config.primitives clientId credential)

theorem Refused.snoc {link : LinkId} {clientId : Uuid} {credential : Bytes}
    (hr : Refused config env broker pairing h link clientId credential)
    (l : NetworkAction × List NetworkOutput) :
    Refused config env broker pairing (h ++ [l]) link clientId credential := by
  obtain ⟨before, m, drawn, key, now, saved, outputs, after, t, rfl, hrest⟩ := hr
  refine ⟨before, m, drawn, key, now, saved, outputs, after ++ [l], t, ?_, hrest⟩
  rw [List.append_assoc, List.cons_append]

/-- A step of the server keeps the invariant, with its own decisions recorded. -/
theorem ran_greets {action : Action} {n' : Network} {outputs : List NetworkOutput}
    {refused refused' : LinkId → Uuid → Bytes → Prop} (hg : Greets refused n)
    (hsub : ∀ link clientId credential, refused link clientId credential →
      refused' link clientId credential)
    (hrecords : Records config refused' n.server action)
    (hunrefused : ∀ link t a, n.server.tasks link = some t → t.phase = .awaiting a →
      Authorization.authenticates a = true → t.reply ≠ some (.error .remoteAlreadyConnected))
    (hran : Ran config env n (.server action) n' outputs) : Greets refused' n' := by
  cases hran with
  | @heard link message saved rest server out hup hs =>
      refine greets_served hg hsub hrecords hunrefused hs ?_ ?_ ?_
      · intro other hnil
        have hne : other ≠ link := by
          rintro rfl
          cases hnil.symm.trans hup
        exact (Function.update_of_ne hne ..).trans hnil
      · intro other hun
        have hne : other ≠ link := by
          rintro rfl
          cases hs with
          | acted _ hact =>
              exact (acted_phase hact).1 (hun _ (Function.update_self ..))
          | turned hinput _ _ =>
              rcases hinput with ⟨_, _, _, he, _⟩ | ⟨_, _, he, _⟩
              · cases he
              · cases he
        exact Function.update_of_ne hne ..
      · intro other message' saved' heq
        obtain ⟨rfl, hact⟩ := Action.task.inj heq
        obtain ⟨hmsg, _⟩ := TaskAction.receive.inj hact
        obtain rfl := Option.some.inj hmsg
        exact ⟨rest, hup⟩
  | served hrec _ hs =>
      refine greets_served hg hsub hrecords hunrefused hs (fun _ hnil => hnil) (fun _ _ => rfl) ?_
      exact fun link message saved heq => absurd heq (hrec link message saved)

/-- **Run lemma.**  Every `Rejected` on its way to a client that authenticates
    was decided. -/
theorem run_greets (hr : LoneRun config env broker pairing h n) :
    Greets (Refused config env broker pairing h) n ∧
      ∃ history, Admitted Authorization.authenticates history n.server := by
  induction hr with
  | nil => exact ⟨greets_new _ broker pairing, [], admitted_new _ broker pairing⟩
  | @snoc h n n' l hr hstep ih =>
      obtain ⟨action, outputs⟩ := l
      obtain ⟨hok, hnext⟩ := hstep
      obtain ⟨hgreets, history, hadmitted⟩ := ih
      have hgrounded := run_grounded hr
      have hran := network_step_cases hgrounded.sane hnext
      have hsub : ∀ link clientId credential,
          Refused config env broker pairing h link clientId credential →
          Refused config env broker pairing (h ++ [(action, outputs)]) link clientId credential :=
        fun _ _ _ hold => hold.snoc _
      cases action with
      | client id action =>
          have hserver : n'.server = n.server := by
            cases hran with
            | pushed | took | moved => rfl
          rw [hserver]
          exact ⟨(client_preserves (client_greets env _) hgrounded hgreets hran).2.mono hsub,
            history, hadmitted⟩
      | server action =>
          have hrecords : Records config
              (Refused config env broker pairing (h ++ [(.server action, outputs)]))
              n.server action := by
            intro link t drawn key now saved clientId presented heq ht hp hcause
            subst heq
            exact ⟨h, n, drawn, key, now, saved, outputs, [], t, rfl, hr, ht, hp, hcause⟩
          refine ⟨ran_greets hgreets hsub hrecords hadmitted.unrefused hran, ?_⟩
          cases hran with
          | heard _ hs => exact ⟨_, admitted_step hok hadmitted hs⟩
          | served _ _ hs => exact ⟨_, admitted_step hok hadmitted hs⟩

end Runs

/-- No move of a client rejects it. -/
theorem path_rejected {env : Environment} {s t : RemoteSession} {o : List ClientOutput}
    (h : Path env s o t) (ht : t.snapshot.status = .rejected) : s.snapshot.status = .rejected := by
  refine h.invariant (fun _ u => u.snapshot.status = .rejected → s.snapshot.status = .rejected)
    (fun hs => hs) ?_ ht
  intro before u o v hu hm hv
  cases hm with
  | aside ha _ => exact hu (ha.rejected hv)
  | adopted _ _ _ _ | greeted _ _ _ | opened _ _ _ | shut _ _ _ | bumped | began _ | ended
  | dropped | started _ _ _ _ | sent _ _ _ _ | answered _ _ _ _ _ | resolved _ _ | released
  | buried _ => exact hu hv

/-- A client becomes rejected by a `Rejected` for its current socket. -/
theorem ran_rejected {config : SessionConfig} {env : Environment} {n n' : Network}
    {id : ClientId} {action : ClientAction} {outputs : List NetworkOutput}
    (hran : Ran config env n (.client id action) n' outputs)
    (hbefore : (n.clients id).snapshot.status ≠ .rejected)
    (hafter : (n'.clients id).snapshot.status = .rejected) :
    ∃ received, received ∈ (n.clients id).receiving ∧
      (n.clients id).socket = some received.socket ∧ received.frame = .message .rejected := by
  cases hran with
  | pushed =>
      rw [moved_clients_self] at hafter
      exact absurd hafter hbefore
  | @took _ now received rest client out hrec _ htook _ =>
      obtain ⟨t, htake, hpath⟩ := htook
      rw [moved_clients_self] at hafter
      have ht := path_rejected hpath hafter
      cases htake with
      | popped | threw | enqueued | refused | cancelled => exact absurd ht hbefore
      | rejected hs hframe =>
          refine ⟨received, ?_, hs, hframe⟩
          rw [hrec]
          exact List.mem_cons_self ..
  | moved _ hpath _ =>
      rw [moved_clients_self] at hafter
      exact absurd (path_rejected hpath hafter) hbefore

/-- **Rejected means unauthorized**, along every run in which the broker handles
    the connect of a task whose `authenticate` succeeded only while no session is
    registered: when a client becomes rejected on a socket on which it sent
    `Authenticate`, the server has decided against those credentials, and when it
    did they were not those of its paired client, or the store failed. -/
theorem rejected_means_unauthorized {config : SessionConfig} {env : Environment}
    {broker : BrokerConfig} {pairing : PairingService}
    {h : List (NetworkAction × List NetworkOutput)} {n n' : Network}
    (hr : LoneRun config env broker pairing h n) {id : ClientId} {action : ClientAction}
    {outputs : List NetworkOutput}
    (hstep : n.step config env (.client id action) = some (n', outputs))
    (hbefore : (n.clients id).snapshot.status ≠ .rejected)
    (hafter : (n'.clients id).snapshot.status = .rejected) :
    ∃ link, (n.clients id).socket = some link ∧ ∀ clientId credential,
      Observed h (.client id (.sent link (.authenticate clientId credential))) →
      Refused config env broker pairing h link clientId credential := by
  have hgrounded := run_grounded hr
  obtain ⟨hgreets, _⟩ := run_greets hr
  obtain ⟨received, hmem, hs, hframe⟩ :=
    ran_rejected (network_step_cases hgrounded.sane hstep) hbefore hafter
  refine ⟨received.socket, hs, ?_⟩
  intro clientId credential hsent
  obtain ⟨w, record, hw, hrecord, rfl, rfl⟩ :=
    hgreets.sent id received.socket clientId credential ((run_log hr _).mpr hsent)
  exact hgreets.received id w record received hw hrecord hmem hframe

/-- The phone loses that socket and its retry authenticates on a second one. -/
def reconnectPhone (credential : Bytes) : List NetworkAction :=
  [.client 0 (.closed 1), .client 0 .retry,
   .client 0 (.loaded 3 (.ok (some ⟨"wss", ⟨100⟩, ⟨1⟩, credential, "phone", 0⟩)) (.ok 2)),
   .server (.accept 2), .client 0 (.opened 2),
   .server (.task 2 (.receive (some (.authenticate ⟨1⟩ credential)) true))]

/-- The phone presents a credential that the server never issued. -/
def forgedCredential : List NetworkAction :=
  pairPhone ++ reconnectPhone [2] ++
    [.server (.task 2 (.authorize ⟨9⟩ none 0 true)), .client 0 (.message 2 (.message .rejected))]

/-- Where the listed actions lead if clients authenticate alone. -/
abbrev loneOutcome (actions : List NetworkAction) :
    List (NetworkAction × List NetworkOutput) × Network :=
  outcome (Network.step plainConfig plainEnvironment) AuthenticatesAlone (.new ⟨5, 8⟩ unpaired)
    actions

/-- It is rejected, and rightly so. -/
theorem rejected_forged_credential :
    Observed (loneOutcome forgedCredential).1 (.client 0 (.sent 2 (.authenticate ⟨1⟩ [2]))) ∧
    ∃ link, ((loneOutcome forgedCredential).2.clients 0).socket = some link ∧
      ∀ clientId credential,
        Observed (loneOutcome forgedCredential).1
          (.client 0 (.sent link (.authenticate clientId credential))) →
        Refused plainConfig plainEnvironment ⟨5, 8⟩ unpaired (loneOutcome forgedCredential).1 link
          clientId credential := by
  refine ⟨by decide, ?_⟩
  cases hnext : (loneOutcome forgedCredential).2.step plainConfig plainEnvironment
      (.client 0 (.receive 0)) with
  | none =>
      have hsome : ((loneOutcome forgedCredential).2.step plainConfig plainEnvironment
        (.client 0 (.receive 0))).isSome = true := by decide
      rw [hnext] at hsome
      cases hsome
  | some r =>
      have hafter : (((loneOutcome forgedCredential).2.step plainConfig plainEnvironment
          (.client 0 (.receive 0))).map (fun r => (r.1.clients 0).snapshot.status))
          = some .rejected := by decide
      rw [hnext] at hafter
      exact rejected_means_unauthorized
        (run_outcome (Network.step plainConfig plainEnvironment) AuthenticatesAlone
          forgedCredential (by decide))
        hnext (by decide) (Option.some.inj hafter)

/-- The phone retries with its own credential before the server has noticed that
    the first socket is dead. -/
def reconnectedTooSoon : List NetworkAction :=
  pairPhone ++ reconnectPhone [1] ++
    [.server (.task 2 (.authorize ⟨9⟩ none 0 true)), .server (.task 2 .connect),
     .server (.command ⟨8⟩ none 0), .server (.task 2 .replied),
     .client 0 (.message 2 (.message .rejected)), .client 0 (.receive 0)]

/-- **Rejected although authorized.**  When the server decides, the phone is its
    paired client; it accepts the credential, finds the phone's own first session
    still registered, and the phone ends up rejected. -/
theorem reconnected_too_soon_rejected :
    NetworkRun plainConfig plainEnvironment AnyStep ⟨5, 8⟩ unpaired
      (anyOutcome reconnectedTooSoon).1 (anyOutcome reconnectedTooSoon).2 ∧
    Observed (anyOutcome reconnectedTooSoon).1 (.client 0 (.sent 2 (.authenticate ⟨1⟩ [1]))) ∧
    (anyOutcome (pairPhone ++ reconnectPhone [1])).2.server.pairing.state.authorizes
      plainConfig.primitives ⟨1⟩ [1] ∧
    Observed (anyOutcome reconnectedTooSoon).1
      (.server (.authorized 2 (.authenticated ⟨100⟩ ⟨1⟩))) ∧
    (anyOutcome reconnectedTooSoon).2.server.broker.actor.state.agent = .locked ⟨7⟩ 4 ∧
    ((anyOutcome reconnectedTooSoon).2.clients 0).snapshot.status = .rejected :=
  ⟨run_outcome (Network.step plainConfig plainEnvironment) AnyStep reconnectedTooSoon (by decide),
   by decide, ⟨⟨⟨1⟩, [1], "phone", 0, none, none, none⟩, by decide, rfl, rfl⟩, by decide,
   by decide, by decide⟩

end Rejection
