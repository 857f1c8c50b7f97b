import AgentWitness.LifecycleProofs

/-! # What a session is connected to

    A session owns AT MOST ONE socket.  Every other socket it ever created it has
    closed; it is connected only over the socket on which the server's handshake
    message arrived, to the server of its pairing; it holds requests only while
    connected, and only those that arrived on that socket; and each time it stops
    being connected it says so exactly once.

    All of this is one invariant of a run, kept by each of the things a turn can do
    to the connection. -/

namespace Connection

open Packet KeyedMap BrokerTask RemoteProtocol RemoteClient ClientFlow Transition Lifecycle

/-- The session has done `o` in some turn. -/
def Uttered (h : History) (o : ClientOutput) : Prop := ∃ l ∈ h, o ∈ l.2.outputs

/-- A frame has arrived on a socket. -/
def Arrived (h : History) (socket : SocketId) (frame : Frame) : Prop :=
  ∃ m, (ClientAction.message socket frame, m) ∈ h

/-- The socket was created for what the store held. -/
def Stored (h : History) (socket : SocketId) (pairing : Option PairingRecord) : Prop :=
  ∃ generation m, (ClientAction.loaded generation (.ok pairing) (.ok socket), m) ∈ h

/-- The handshake message of the published session has arrived on the socket: it
    authenticates the stored pairing, or it has made the pairing. -/
def Greeted (h : History) (socket : SocketId) (pairing : PairingRecord)
    (snapshot : ConnectionSnapshot) : Prop :=
  ∃ sessionId vapidPublicKey, snapshot.sessionId = some sessionId ∧
    snapshot.vapidPublicKey = some vapidPublicKey ∧
    ((Arrived h socket (.message (.authenticated pairing.serverId sessionId vapidPublicKey)) ∧
        Stored h socket (some pairing)) ∨
      Arrived h socket (.message (.paired pairing.serverId pairing.clientId pairing.credential
        sessionId vapidPublicKey)))

/-- The session agrees with its history. -/
structure Attached (h : History) (s : RemoteSession) : Prop where
  recorded : ∀ socket, Uttered h (.created socket) → ∃ w, s.sockets socket = some w
  stored : ∀ socket w, s.sockets socket = some w → Stored h socket w.pairing
  present : ∀ socket, s.socket = some socket → ∃ w, s.sockets socket = some w
  shut : ∀ socket w, s.sockets socket = some w → s.socket ≠ some socket →
    Shut w ∧ Uttered h (.closed socket)
  fresh : ∀ socket w, s.socket = some socket → s.sockets socket = some w →
    s.snapshot.status ≠ .connected → s.pairing = w.pairing
  received : ∀ r ∈ s.receiving, Arrived h r.socket r.frame
  saving : ∀ socket pairing sessionId vapidPublicKey,
    s.chain = .saving socket pairing sessionId vapidPublicKey →
    Arrived h socket (.message (.paired pairing.serverId pairing.clientId pairing.credential
      sessionId vapidPublicKey))
  connected : s.snapshot.status = .connected → ∃ socket pairing, s.socket = some socket ∧
    s.pairing = some pairing ∧ s.snapshot.serverId = some pairing.serverId ∧
    Greeted h socket pairing s.snapshot
  counted : Counted s

theorem attached_new : Attached [] RemoteSession.new where
  recorded := by
    rintro _ ⟨_, hl, _⟩
    cases hl
  stored := fun _ _ hw => by cases hw
  present := fun _ hs => by cases hs
  shut := fun _ _ hw => by cases hw
  fresh := fun _ _ hs => by cases hs
  received := fun _ hr => by cases hr
  saving := fun _ _ _ _ hc => by cases hc
  connected := fun hc => by cases hc
  counted := rfl

/-! ## Histories grow -/

section Grow

variable {h : History} {l : ClientAction × Moment}

theorem uttered_snoc {o : ClientOutput} :
    Uttered (h ++ [l]) o ↔ Uttered h o ∨ o ∈ l.2.outputs := by
  constructor
  · rintro ⟨l', hl', ho⟩
    rcases List.mem_append.mp hl' with hl' | hl'
    · exact Or.inl ⟨l', hl', ho⟩
    · rw [List.mem_singleton.mp hl'] at ho
      exact Or.inr ho
  · rintro (⟨l', hl', ho⟩ | ho)
    · exact ⟨l', List.mem_append_left _ hl', ho⟩
    · exact ⟨l, List.mem_append_right _ (List.mem_singleton.mpr rfl), ho⟩

theorem Arrived.snoc {socket : SocketId} {frame : Frame} (ha : Arrived h socket frame) :
    Arrived (h ++ [l]) socket frame := by
  obtain ⟨m, hm⟩ := ha
  exact ⟨m, List.mem_append_left _ hm⟩

theorem Stored.snoc {socket : SocketId} {pairing : Option PairingRecord}
    (hs : Stored h socket pairing) : Stored (h ++ [l]) socket pairing := by
  obtain ⟨generation, m, hm⟩ := hs
  exact ⟨generation, m, List.mem_append_left _ hm⟩

theorem Greeted.snoc {socket : SocketId} {pairing : PairingRecord} {snapshot : ConnectionSnapshot}
    (hg : Greeted h socket pairing snapshot) : Greeted (h ++ [l]) socket pairing snapshot := by
  obtain ⟨sessionId, vapidPublicKey, hs, hv, hmessage⟩ := hg
  refine ⟨sessionId, vapidPublicKey, hs, hv, ?_⟩
  rcases hmessage with ⟨ha, hst⟩ | ha
  · exact Or.inl ⟨ha.snoc, hst.snoc⟩
  · exact Or.inr ha.snoc

/-- A turn that creates no socket and changes nothing else. -/
theorem Attached.snoc {s : RemoteSession} (ha : Attached h s)
    (hl : ∀ socket, ClientOutput.created socket ∉ l.2.outputs) : Attached (h ++ [l]) s where
  recorded := by
    intro socket hu
    rcases uttered_snoc.mp hu with hu | hu
    · exact ha.recorded socket hu
    · exact absurd hu (hl socket)
  stored := fun socket w hw => (ha.stored socket w hw).snoc
  present := ha.present
  shut := by
    intro socket w hw hs
    obtain ⟨hshut, hclosed⟩ := ha.shut socket w hw hs
    exact ⟨hshut, uttered_snoc.mpr (Or.inl hclosed)⟩
  fresh := ha.fresh
  received := fun r hr => (ha.received r hr).snoc
  saving := fun socket pairing sessionId vapidPublicKey hc =>
    (ha.saving socket pairing sessionId vapidPublicKey hc).snoc
  connected := by
    intro hc
    obtain ⟨socket, pairing, hs, hp, hid, hg⟩ := ha.connected hc
    exact ⟨socket, pairing, hs, hp, hid, hg.snoc⟩
  counted := ha.counted

end Grow

/-! ## What a turn can do -/

section Changes

variable {h : History} {s s' : RemoteSession}

/-- **Tending** keeps the agreement. -/
theorem Attached.tended {action : ClientAction} (ha : Attached h s) (ht : Tended action s s')
    (harrived : ∀ socket frame, action = .message socket frame → Arrived h socket frame) :
    Attached h s' := by
  have hsocket : s'.socket = s.socket := ht.socket
  have hstatus : s'.snapshot.status = s.snapshot.status := congrArg Link.status ht.link
  have hpairing : s'.pairing = s.pairing := congrArg Link.pairing ht.link
  constructor
  case recorded =>
    intro socket hu
    obtain ⟨w, hw⟩ := ha.recorded socket hu
    exact ht.aged.forth socket w hw
  case stored =>
    intro socket w' hw'
    obtain ⟨w, hw, hp, _⟩ := ht.aged.back socket w' hw'
    rw [hp]
    exact ha.stored socket w hw
  case present =>
    intro socket hs
    obtain ⟨w, hw⟩ := ha.present socket (hsocket ▸ hs)
    exact ht.aged.forth socket w hw
  case shut =>
    intro socket w' hw' hs
    obtain ⟨w, hw, _, hshut⟩ := ht.aged.back socket w' hw'
    obtain ⟨hold, hclosed⟩ := ha.shut socket w hw (hsocket ▸ hs)
    exact ⟨hshut hold, hclosed⟩
  case fresh =>
    intro socket w' hs hw' hne
    obtain ⟨w, hw, hp, _⟩ := ht.aged.back socket w' hw'
    rw [hpairing, hp]
    exact ha.fresh socket w (hsocket ▸ hs) hw (hstatus ▸ hne)
  case received =>
    intro r hr
    rcases ht.received r hr with hold | hnew
    · exact ha.received r hold
    · exact harrived r.socket r.frame hnew
  case saving =>
    intro socket pairing sessionId vapidPublicKey hc
    rcases ht.saving socket pairing sessionId vapidPublicKey hc with hold | ⟨label, hmem⟩
    · exact ha.saving socket pairing sessionId vapidPublicKey hold
    · exact ha.received _ hmem
  case connected =>
    intro hc
    obtain ⟨socket, pairing, hs, hp, hid, sessionId, key, hsid, hkey, hmessage⟩ :=
      ha.connected (hstatus ▸ hc)
    refine ⟨socket, pairing, hsocket.trans hs, hpairing.trans hp, ?_, sessionId, key, ?_, ?_,
      hmessage⟩
    · exact (congrArg Link.serverId ht.link).trans hid
    · exact (congrArg Link.sessionId ht.link).trans hsid
    · exact (congrArg Link.vapidPublicKey ht.link).trans hkey
  case counted => exact ht.counted ha.counted

/-- **Giving the socket up** keeps it, where the socket is closed. -/
theorem Attached.gone {outputs : List ClientOutput} (ha : Attached h s) (hg : Gone s s' outputs)
    (hstatus : s'.snapshot.status ≠ .connected)
    (houtputs : ∀ o ∈ outputs, Uttered h o) : Attached h s' := by
  constructor
  case recorded =>
    intro socket hu
    obtain ⟨w, hw⟩ := ha.recorded socket hu
    exact hg.aged.forth socket w hw
  case stored =>
    intro socket w' hw'
    obtain ⟨w, hw, hp, _⟩ := hg.aged.back socket w' hw'
    rw [hp]
    exact ha.stored socket w hw
  case present => exact fun socket hs => by cases hg.socket.symm.trans hs
  case shut =>
    intro socket w' hw' _
    obtain ⟨w, hw, _, hshut⟩ := hg.aged.back socket w' hw'
    by_cases hs : s.socket = some socket
    · refine ⟨hg.closed socket w' hs hw', houtputs _ ?_⟩
      rw [hg.outputs, hs]
      exact List.mem_cons_self
    · obtain ⟨hold, hclosed⟩ := ha.shut socket w hw hs
      exact ⟨hshut hold, hclosed⟩
  case fresh => exact fun socket w hs => by cases hg.socket.symm.trans hs
  case received =>
    rw [hg.receiving]
    exact ha.received
  case saving =>
    rw [hg.chain]
    exact ha.saving
  case connected => exact fun hc => absurd hc hstatus
  case counted => exact hg.counted ha.counted

/-- **A completed handshake** keeps it. -/
theorem Attached.published {action : ClientAction} {socket : SocketId} {pairing : PairingRecord}
    {sessionId : SessionId} {vapidPublicKey : Bytes} (ha : Attached h s)
    (hs : s.socket = some socket) (hsh : Shaken s action socket pairing sessionId vapidPublicKey) :
    Attached h (published s pairing sessionId vapidPublicKey) := by
  refine ⟨ha.recorded, ha.stored, ha.present, ha.shut, ?_, ha.received, ha.saving, ?_, ha.counted⟩
  · intro _ _ _ _ hne
    exact absurd rfl hne
  · intro _
    refine ⟨socket, pairing, hs, rfl, rfl, sessionId, vapidPublicKey, rfl, rfl, ?_⟩
    cases hsh with
    | authenticated hst hr hp =>
        obtain ⟨w, hw⟩ := ha.present socket hs
        have hne : s.snapshot.status ≠ .connected := by
          intro hc
          rcases hst with h | h
          · cases hc.symm.trans h
          · cases hc.symm.trans h
        have hstored := ha.stored socket w hw
        rw [← ha.fresh socket w hs hw hne, hp] at hstored
        have hall := ha.received
        rw [hr] at hall
        have harrived := hall _ List.mem_cons_self
        exact Or.inl ⟨harrived, hstored⟩
    | paired hc => exact Or.inr (ha.saving socket pairing sessionId vapidPublicKey hc)

/-- A change that the agreement does not look at. -/
structure Unseen (s s' : RemoteSession) : Prop where
  socket : s'.socket = s.socket
  sockets : s'.sockets = s.sockets
  pairing : s'.pairing = s.pairing
  snapshot : s'.snapshot = s.snapshot
  receiving : s'.receiving = s.receiving
  chain : s'.chain = s.chain
  pending : s'.pending = s.pending

theorem Attached.unseen (ha : Attached h s) (hu : Unseen s s') : Attached h s' := by
  refine ⟨?_, ?_, ?_, ?_, ?_, ?_, ?_, ?_, ?_⟩
  · rw [hu.sockets]
    exact ha.recorded
  · rw [hu.sockets]
    exact ha.stored
  · rw [hu.socket, hu.sockets]
    exact ha.present
  · rw [hu.socket, hu.sockets]
    exact ha.shut
  · rw [hu.socket, hu.sockets, hu.pairing, hu.snapshot]
    exact ha.fresh
  · rw [hu.receiving]
    exact ha.received
  · rw [hu.chain]
    exact ha.saving
  · rw [hu.socket, hu.pairing, hu.snapshot]
    exact ha.connected
  · rw [Counted, hu.snapshot, hu.pending]
    exact ha.counted

/-- A session without a socket publishes that it is not connected. -/
theorem Attached.detached (ha : Attached h s) (hs : s.socket = none) {status : Status}
    (hst : status ≠ .connected) (error : Option String) :
    Attached h (s.setSnapshot (detached status error)) where
  recorded := ha.recorded
  stored := ha.stored
  present := ha.present
  shut := ha.shut
  fresh := fun _ _ hsome => by cases hs.symm.trans hsome
  received := ha.received
  saving := ha.saving
  connected := fun hc => absurd hc hst
  counted := ha.counted

end Changes

/-! ## Saying so once -/

/-- `onDisconnect` is called once where a turn ends a connection, and not
    otherwise. -/
def Rings (s s' : RemoteSession) (outputs : List ClientOutput) : Prop :=
  outputs.count .disconnected
    = if s.snapshot.status = .connected ∧ s'.snapshot.status ≠ .connected then 1 else 0

section Rings

variable {s s' : RemoteSession} {outputs more : List ClientOutput}

theorem rings_silent (ho : ClientOutput.disconnected ∉ outputs)
    (hst : s.snapshot.status = .connected → s'.snapshot.status = .connected) :
    Rings s s' outputs := by
  rw [Rings, List.count_eq_zero.mpr ho, if_neg]
  rintro ⟨hc, hn⟩
  exact hn (hst hc)

theorem count_disconnects (s : RemoteSession) :
    s.disconnects.count .disconnected = if s.snapshot.status = .connected then 1 else 0 := by
  rw [RemoteSession.disconnects]
  split
  · rfl
  · rfl

/-- Giving the socket up says so, whatever else is done in the turn. -/
theorem rings_gone (hout : outputs = s.socket.toList.map .closed ++ s.disconnects)
    (hst : s'.snapshot.status ≠ .connected) (hmore : ClientOutput.disconnected ∉ more) :
    Rings s s' (outputs ++ more) := by
  have hclosed : ClientOutput.disconnected ∉ s.socket.toList.map ClientOutput.closed := by
    intro hmem
    obtain ⟨_, _, heq⟩ := List.mem_map.mp hmem
    cases heq
  rw [Rings, hout, List.count_append, List.count_append, List.count_eq_zero.mpr hclosed,
    List.count_eq_zero.mpr hmore, count_disconnects, Nat.zero_add, Nat.add_zero]
  by_cases hc : s.snapshot.status = .connected
  · rw [if_pos hc, if_pos ⟨hc, hst⟩]
  · rw [if_neg hc, if_neg (fun hb => hc hb.1)]

end Rings

/-! ## Calls -/

/-- What a turn must do for the invariant. -/
def Upholds (h : History) (action : ClientAction) (s s' : RemoteSession)
    (outputs : List ClientOutput) : Prop :=
  Attached (h ++ [(action, ⟨s, outputs, s'⟩)]) s' ∧ Rings s s' outputs

section Calls

variable {h : History} {s : RemoteSession}

/-- A turn that the agreement does not look at. -/
theorem upholds_unseen {action : ClientAction} {s' : RemoteSession} {outputs : List ClientOutput}
    (ha : Attached h s) (hu : Unseen s s')
    (hc : ∀ socket, ClientOutput.created socket ∉ outputs)
    (hd : ClientOutput.disconnected ∉ outputs) : Upholds h action s s' outputs := by
  refine ⟨(ha.snoc hc).unseen hu, rings_silent hd ?_⟩
  rw [hu.snapshot]
  exact id

/-- The outputs of one turn that is no change of the connection. -/
theorem not_created_one {o : ClientOutput} (ho : ∀ socket, o ≠ .created socket) :
    ∀ socket, ClientOutput.created socket ∉ [o] := by
  intro socket hmem
  exact ho socket (List.mem_singleton.mp hmem).symm

/-- `#open` only loads. -/
theorem openSocket_unseen (s : RemoteSession) :
    Unseen s s.openSocket.1 ∧ (∀ socket, ClientOutput.created socket ∉ s.openSocket.2) ∧
      ClientOutput.disconnected ∉ s.openSocket.2 := by
  rcases openSocket_cases s with ⟨heq, _⟩ | ⟨opening, _, heq⟩
  · rw [heq]
    refine ⟨⟨rfl, rfl, rfl, rfl, rfl, rfl, rfl⟩, ?_, List.not_mem_nil⟩
    exact fun _ => List.not_mem_nil
  · rw [heq]
    refine ⟨⟨rfl, rfl, rfl, rfl, rfl, rfl, rfl⟩, not_created_one (by rintro _ ⟨⟩), ?_⟩
    intro ho
    cases List.mem_singleton.mp ho

/-- The outputs of giving a socket up create none. -/
theorem gone_not_created {s s' : RemoteSession} {outputs : List ClientOutput}
    (hg : Gone s s' outputs) (socket : SocketId) : ClientOutput.created socket ∉ outputs := by
  intro hmem
  rw [hg.outputs, RemoteSession.disconnects] at hmem
  rcases List.mem_append.mp hmem with hmem | hmem
  · obtain ⟨_, _, heq⟩ := List.mem_map.mp hmem
    cases heq
  · split at hmem
    · cases List.mem_singleton.mp hmem
    · cases hmem

/-- The session gives its socket up, after and before something the agreement does
    not look at. -/
theorem upholds_restart {action : ClientAction} {t s' : RemoteSession} {status : Status}
    {more : List ClientOutput} (ha : Attached h s) (hstatus : status ≠ .connected)
    (hu : Unseen s t) (hnext : Unseen (t.restart status).1 s')
    (hc : ∀ socket, ClientOutput.created socket ∉ more)
    (hd : ClientOutput.disconnected ∉ more) :
    Upholds h action s s' ((t.restart status).2 ++ more) := by
  have hgone := restart_gone t status
  have hdown : (t.restart status).1.snapshot.status ≠ .connected := hstatus
  have hout : (t.restart status).2 = s.socket.toList.map .closed ++ s.disconnects := by
    rw [hgone.outputs, hu.socket, RemoteSession.disconnects, RemoteSession.disconnects,
      hu.snapshot]
  constructor
  · refine Attached.unseen (Attached.gone (s := t) ?_ hgone hdown ?_) hnext
    · refine (ha.snoc ?_).unseen hu
      intro socket hmem
      rcases List.mem_append.mp hmem with hmem | hmem
      · exact gone_not_created hgone socket hmem
      · exact hc socket hmem
    · intro o ho
      exact uttered_snoc.mpr (Or.inr (List.mem_append_left _ ho))
  · refine rings_gone hout ?_ hd
    rw [hnext.snapshot]
    exact hdown

theorem connect_upholds {env : Environment} (ha : Attached h s) (endpoint label : String) :
    Upholds h (.connect endpoint label) s (s.connect env endpoint label).1
      (s.connect env endpoint label).2 := by
  rw [RemoteSession.connect]
  split
  · refine upholds_unseen ha ⟨rfl, rfl, rfl, rfl, rfl, rfl, rfl⟩ (not_created_one (by rintro _ ⟨⟩)) ?_
    intro ho
    cases List.mem_singleton.mp ho
  · rename_i href _
    obtain ⟨hu, hc, hd⟩ := openSocket_unseen (({ s with
      endpoint := some href, label := some label, active := true }
        : RemoteSession).restart .connecting).1
    exact upholds_restart ha (by rintro ⟨⟩) ⟨rfl, rfl, rfl, rfl, rfl, rfl, rfl⟩ hu hc hd

theorem forgetPairing_upholds {env : Environment} (ha : Attached h s) (endpoint : String) :
    Upholds h (.forgetPairing endpoint) s (s.forgetPairing env endpoint).1
      (s.forgetPairing env endpoint).2 := by
  rw [RemoteSession.forgetPairing]
  split
  · refine upholds_unseen ha ⟨rfl, rfl, rfl, rfl, rfl, rfl, rfl⟩ (not_created_one (by rintro _ ⟨⟩)) ?_
    intro ho
    cases List.mem_singleton.mp ho
  · refine upholds_restart ha (by rintro ⟨⟩) ⟨rfl, rfl, rfl, rfl, rfl, rfl, rfl⟩
      ⟨rfl, rfl, rfl, rfl, rfl, rfl, rfl⟩ (not_created_one (by rintro _ ⟨⟩)) ?_
    intro ho
    cases List.mem_singleton.mp ho

/-- A session that is connected has a socket. -/
theorem Attached.not_connected (ha : Attached h s) (hs : s.socket = none) :
    s.snapshot.status ≠ .connected := by
  intro hc
  obtain ⟨socket, _, hsome, _⟩ := ha.connected hc
  cases hs.symm.trans hsome

theorem setActive_upholds (ha : Attached h s) (active : Bool) :
    Upholds h (.setActive active) s (s.setActive active).1 (s.setActive active).2 := by
  have hset : Unseen s { s with active := active }.stopRetry :=
    ⟨rfl, rfl, rfl, rfl, rfl, rfl, rfl⟩
  rw [RemoteSession.setActive]
  split
  · exact upholds_unseen ha hset (fun _ => List.not_mem_nil) List.not_mem_nil
  · split
    · split
      · exact upholds_unseen ha hset (fun _ => List.not_mem_nil) List.not_mem_nil
      · rename_i hfree
        have hnone : s.socket = none := Option.not_isSome_iff_eq_none.mp hfree
        obtain ⟨hu, hc, hd⟩ := openSocket_unseen
          ({ s with active := active }.stopRetry.setSnapshot (detached .reconnecting none))
        constructor
        · refine Attached.unseen ?_ hu
          refine Attached.detached (s := { s with active := active }.stopRetry) ?_ hnone
            (show Status.reconnecting ≠ .connected from (by rintro ⟨⟩)) none
          exact Attached.unseen (ha.snoc hc) hset
        · refine rings_silent hd ?_
          intro hconnected
          exact absurd hconnected (ha.not_connected hnone)
    · have hrestart := @upholds_restart h s (.setActive active) { s with active := active }.stopRetry
        _ .reconnecting [] ha (by rintro ⟨⟩) hset ⟨rfl, rfl, rfl, rfl, rfl, rfl, rfl⟩
        (fun _ => List.not_mem_nil) List.not_mem_nil
      rw [List.append_nil] at hrestart
      exact hrestart

/-- **A new socket** is the session's own, and was created for what the store
    held. -/
theorem Attached.adopted {generation : Nat} {pairing : Option PairingRecord} {socket : SocketId}
    {label : String} {m : Moment} {s' : RemoteSession} (ha : Attached h s) (hs : s.socket = none)
    (hm : m.outputs = [.created socket])
    (hs' : s' = { s with
      opens := s'.opens, pairing := pairing, socket := some socket
      sockets := Function.update s.sockets socket (some ⟨.connecting, pairing, label⟩) }) :
    Attached (h ++ [(.loaded generation (.ok pairing) (.ok socket), m)]) s' := by
  have hsocket : s'.socket = some socket := by
    rw [hs']
  have hsockets : s'.sockets
      = Function.update s.sockets socket (some ⟨.connecting, pairing, label⟩) := by
    rw [hs']
  have hnc : s'.snapshot.status ≠ .connected := by
    rw [hs']
    exact ha.not_connected hs
  constructor
  case recorded =>
    intro other hu
    rw [hsockets]
    by_cases ho : other = socket
    · rw [ho, Function.update_self]
      exact ⟨_, rfl⟩
    · rw [Function.update_of_ne ho]
      rcases uttered_snoc.mp hu with hu | hu
      · exact ha.recorded other hu
      · rw [hm] at hu
        exact absurd (ClientOutput.created.inj (List.mem_singleton.mp hu)) ho
  case stored =>
    intro other w hw
    rw [hsockets] at hw
    by_cases ho : other = socket
    · rw [ho, Function.update_self] at hw
      rw [← Option.some.inj hw, ho]
      exact ⟨generation, m, List.mem_append_right _ (List.mem_singleton.mpr rfl)⟩
    · rw [Function.update_of_ne ho] at hw
      exact (ha.stored other w hw).snoc
  case present =>
    intro other hother
    obtain rfl := Option.some.inj (hsocket.symm.trans hother)
    rw [hsockets, Function.update_self]
    exact ⟨_, rfl⟩
  case shut =>
    intro other w hw hother
    have ho : other ≠ socket := by
      rintro rfl
      exact hother hsocket
    rw [hsockets, Function.update_of_ne ho] at hw
    obtain ⟨hshut, hclosed⟩ := ha.shut other w hw (by rw [hs]; rintro ⟨⟩)
    exact ⟨hshut, uttered_snoc.mpr (Or.inl hclosed)⟩
  case fresh =>
    intro other w hother hw _
    obtain rfl := Option.some.inj (hsocket.symm.trans hother)
    rw [hsockets, Function.update_self] at hw
    rw [hs', ← Option.some.inj hw]
  case received =>
    rw [hs']
    exact fun r hr => (ha.received r hr).snoc
  case saving =>
    rw [hs']
    exact fun _ _ _ _ hc => (ha.saving _ _ _ _ hc).snoc
  case connected => exact fun hc => absurd hc hnc
  case counted =>
    rw [hs']
    exact ha.counted

theorem loaded_upholds {generation : Nat} {opening : Opening}
    {pairing : Except String (Option PairingRecord)} {created : Except String SocketId}
    {s' : RemoteSession} {outputs : List ClientOutput} (ha : Attached h s) (hsane : Sane s)
    (ho : s.opens.get? generation = some opening)
    (hl : LoadSettled { s with opens := s.opens.erase generation } generation opening pairing
      created s' outputs) :
    Upholds h (.loaded generation pairing created) s s' outputs := by
  have hset : Unseen s { s with opens := s.opens.erase generation } :=
    ⟨rfl, rfl, rfl, rfl, rfl, rfl, rfl⟩
  have hkept : Upholds h (.loaded generation pairing created) s
      { s with opens := s.opens.erase generation } [] :=
    upholds_unseen ha hset (fun _ => List.not_mem_nil) List.not_mem_nil
  -- the load of the current generation ends while there is no socket
  have hbroken : generation = s.generation → ∀ error, Upholds h
      (.loaded generation pairing created) s (({ s with opens := s.opens.erase generation }
        : RemoteSession).setSnapshot (detached .error (some error))) [] := by
    intro hg error
    have hnone : s.socket = none := by
      refine hsane.opening ?_
      rw [← hg, ho]
      exact Option.some_ne_none opening
    constructor
    · refine Attached.detached (s := { s with opens := s.opens.erase generation }) ?_ hnone
        (show Status.error ≠ .connected from (by rintro ⟨⟩)) (some error)
      exact Attached.unseen (ha.snoc (fun _ => List.not_mem_nil)) hset
    · refine rings_silent List.not_mem_nil ?_
      intro hconnected
      exact absurd hconnected (ha.not_connected hnone)
  cases hl with
  | ignored _ => exact hkept
  | broken error hg => exact hbroken hg error
  | adopted _ hfree _ =>
      refine ⟨ha.adopted hfree rfl rfl, rings_silent ?_ id⟩
      intro hmem
      cases List.mem_singleton.mp hmem

theorem deleted_upholds {endpoint : String} {error : Option String}
    {s' : RemoteSession} {outputs : List ClientOutput} (ha : Attached h s)
    (hd : DeletionSettled { s with forgets := s.forgets.erase endpoint } endpoint error s'
      outputs) :
    Upholds h (.deleted endpoint error) s s' outputs := by
  have hset : Unseen s { s with forgets := s.forgets.erase endpoint } :=
    ⟨rfl, rfl, rfl, rfl, rfl, rfl, rfl⟩
  cases hd with
  | failed error =>
      refine upholds_unseen ha hset (not_created_one (by rintro _ ⟨⟩)) ?_
      intro ho
      cases List.mem_singleton.mp ho
  | reopened _ =>
      obtain ⟨hu, hc, hn⟩ := openSocket_unseen { s with forgets := s.forgets.erase endpoint }
      exact upholds_unseen ha
        ⟨hu.socket, hu.sockets, hu.pairing, hu.snapshot, hu.receiving, hu.chain, hu.pending⟩
        hc hn
  | left _ => exact upholds_unseen ha hset (fun _ => List.not_mem_nil) List.not_mem_nil

end Calls

/-! ## Turns and runs -/

/-- Plain outputs neither create nor ring. -/
theorem plain_quiet {env : Environment} {s : RemoteSession} {outputs : List ClientOutput}
    (hp : ∀ o ∈ outputs, Plain env s o) :
    (∀ socket, ClientOutput.created socket ∉ outputs) ∧ ClientOutput.disconnected ∉ outputs :=
  ⟨fun _ ho => hp _ ho, fun ho => hp _ ho⟩

/-- A turn that gives up the socket of a tended connection. -/
theorem upholds_gone {h : History} {action : ClientAction} {s t s' : RemoteSession}
    {outputs : List ClientOutput} (ha : Attached h s) (ht : Tended action s t)
    (hnomsg : ∀ socket frame, action = .message socket frame →
      Arrived (h ++ [(action, ⟨s, outputs, s'⟩)]) socket frame)
    (hg : Gone t s' outputs) (hst : s'.snapshot.status ≠ .connected) :
    Upholds h action s s' outputs := by
  constructor
  · refine Attached.gone (Attached.tended ?_ ht hnomsg) hg hst ?_
    · exact ha.snoc (gone_not_created hg)
    · intro o ho
      exact uttered_snoc.mpr (Or.inr ho)
  · have hout : outputs = s.socket.toList.map .closed ++ s.disconnects := by
      rw [hg.outputs, ht.socket, RemoteSession.disconnects, RemoteSession.disconnects,
        show t.snapshot.status = s.snapshot.status from congrArg Link.status ht.link]
    have hring := @rings_gone s s' outputs [] hout hst List.not_mem_nil
    rw [List.append_nil] at hring
    exact hring

/-- **Step lemma.** -/
theorem step_upholds {env : Environment} {h : History} {s s' : RemoteSession}
    {action : ClientAction} {outputs : List ClientOutput} (ha : Attached h s) (hsane : Sane s)
    (hstep : s.step env action = some (s', outputs)) : Upholds h action s s' outputs := by
  have harrived : ∀ socket frame, action = .message socket frame →
      Arrived (h ++ [(action, ⟨s, outputs, s'⟩)]) socket frame := by
    rintro socket frame rfl
    exact ⟨_, List.mem_append_right _ (List.mem_singleton.mpr rfl)⟩
  cases step_lived hstep with
  | called hcall _ =>
      cases client_step_cases hstep with
      | connect endpoint label => exact connect_upholds ha endpoint label
      | setActive active => exact setActive_upholds ha active
      | forgetPairing endpoint => exact forgetPairing_upholds ha endpoint
      | retry _ =>
          obtain ⟨hu, hc, hd⟩ := openSocket_unseen { s with retryTimer := false }
          exact upholds_unseen ha
            ⟨hu.socket, hu.sockets, hu.pairing, hu.snapshot, hu.receiving, hu.chain,
              hu.pending⟩ hc hd
      | loaded ho hload => exact loaded_upholds ha hsane ho hload
      | deleted _ hdeleted => exact deleted_upholds ha hdeleted
      | _ => cases hcall
  | tended ht hp =>
      obtain ⟨hc, hd⟩ := plain_quiet hp
      refine ⟨Attached.tended (ha.snoc hc) ht harrived, rings_silent hd ?_⟩
      rw [show s'.snapshot.status = s.snapshot.status from congrArg Link.status ht.link]
      exact id
  | @finished _ t socket status error ht hs hst =>
      have hcur : t.socket = some socket := ht.socket.trans hs
      refine upholds_gone ha ht harrived (finish_gone hcur status error) ?_
      rw [RemoteSession.finish, if_pos hcur]
      change status ≠ .connected
      rcases hst with rfl | rfl
      · rintro ⟨⟩
      · rintro ⟨⟩
  | @lost _ t socket ht hs =>
      have hcur : t.socket = some socket := ht.socket.trans hs
      refine upholds_gone ha ht harrived (connectionLost_gone hcur) ?_
      rw [RemoteSession.connectionLost, if_pos hcur]
      rcases scheduleRetry_cases _ with ⟨hretry, _⟩ | hretry
      · rw [hretry]
        rintro ⟨⟩
      · rw [hretry]
        rintro ⟨⟩
  | @answered token _ packet _ _ _ _ _ heq =>
      have ht := answered_tended (.resolved token packet) heq
      refine ⟨Attached.tended (ha.snoc ?_) ht harrived, rings_silent ?_ ?_⟩
      · intro socket ho
        simp at ho
      · intro ho
        simp at ho
      · rw [show s'.snapshot.status = s.snapshot.status from congrArg Link.status ht.link]
        exact id
  | greeted hs hsh ht hp =>
      obtain ⟨hc, hd⟩ := plain_quiet hp
      refine ⟨Attached.tended ((ha.snoc hc).published hs hsh) ht harrived, rings_silent hd ?_⟩
      intro _
      exact congrArg Link.status ht.link

/-! ## Requests -/

/-- Every request held has arrived on the session's socket. -/
def Collected (h : History) (s : RemoteSession) : Prop :=
  ∀ key p, s.pending.get? key = some p → ∃ socket, s.socket = some socket ∧
    Arrived h socket (.message (.agentRequest p.request))

section Requests

variable {h : History} {s t : RemoteSession}

theorem Collected.congr (hc : Collected h s) (hsocket : t.socket = s.socket)
    (hpending : t.pending = s.pending) : Collected h t := by
  rw [Collected, hsocket, hpending]
  exact hc

/-- Removing a request. -/
theorem Collected.erase {key : Key} (hc : Collected h s) (hsocket : t.socket = s.socket)
    (hpending : t.pending = s.pending.erase key) : Collected h t := by
  intro other p hp
  rw [hpending, get?_erase] at hp
  split at hp
  · cases hp
  · rw [hsocket]
    exact hc other p hp

/-- Adding one that has arrived, or changing one. -/
theorem Collected.insert {key : Key} {p : PendingEntry} {socket : SocketId} (hc : Collected h s)
    (hs : s.socket = some socket) (ha : Arrived h socket (.message (.agentRequest p.request)))
    (hsocket : t.socket = s.socket) (hpending : t.pending = s.pending.insert key p) :
    Collected h t := by
  intro other q hq
  rw [hpending, get?_insert] at hq
  rw [hsocket]
  split at hq
  · rw [← Option.some.inj hq]
    exact ⟨socket, hs, ha⟩
  · exact hc other q hq

theorem collected_empty (ht : t.pending = .empty) : Collected h t := by
  intro key p hp
  rw [ht] at hp
  cases hp

theorem collected_move {env : Environment} {o : List ClientOutput} (hc : Collected h s)
    (hm : Move env s o t) : Collected h t := by
  cases hm with
  | aside ha _ => exact hc.congr ha.socket ha.pending
  | adopted hs _ _ _ =>
      -- without a socket there was nothing to hold
      intro key p hp
      obtain ⟨socket, hsome, _⟩ := hc key p hp
      cases hs.symm.trans hsome
  | dropped => exact collected_empty rfl
  | @started socket key p hs hp _ _ =>
      obtain ⟨socket', hs', ha⟩ := hc key p hp
      obtain rfl := Option.some.inj (hs.symm.trans hs')
      exact hc.insert (p := { p with processing := true }) hs ha rfl rfl
  | answered _ _ _ _ _ => exact hc.erase rfl rfl
  | bumped | began _ | ended | greeted _ _ _ | opened _ _ _ | shut _ _ _ | sent _ _ _ _
  | resolved _ _ | released | buried _ => exact hc.congr rfl rfl

theorem collected_take {received : Received} {rest : List Received} (hc : Collected h s)
    (ha : Arrived h received.socket received.frame) (ht : Take s received rest t) :
    Collected h t := by
  cases ht with
  | popped _ | threw _ _ | refused _ _ _ => exact hc.congr rfl rfl
  | rejected _ _ => exact collected_empty rfl
  | enqueued hs hm _ _ _ =>
      rw [hm] at ha
      exact hc.insert hs ha rfl rfl
  | cancelled _ _ => exact hc.erase rfl rfl

theorem collected_step {env : Environment} {s' : RemoteSession} {action : ClientAction}
    {outputs : List ClientOutput} (hc : Collected h s) (hsane : Sane s)
    (ha : ∀ r ∈ s.receiving, Arrived h r.socket r.frame)
    (hstep : s.step env action = some (s', outputs)) : Collected h s' := by
  have hpath : ∀ {u}, Collected h u → Path env u outputs s' → Collected h s' := by
    intro u hu hp
    exact hp.invariant (fun _ v => Collected h v) hu (fun _ _ _ _ hv hm => collected_move hv hm)
  cases step_turned hsane hstep with
  | moved _ _ hp => exact hpath hc hp
  | @took now received rest _ _ hr _ htook =>
      obtain ⟨u, ht, hp⟩ := htook
      refine hpath (collected_take hc (ha received ?_) ht) hp
      rw [hr]
      exact List.mem_cons_self
  | pushed _ _ => exact hc.congr rfl rfl

end Requests

theorem Collected.snoc {h : History} {l : ClientAction × Moment} {s : RemoteSession}
    (hc : Collected h s) : Collected (h ++ [l]) s := by
  intro key p hp
  obtain ⟨socket, hs, ha⟩ := hc key p hp
  exact ⟨socket, hs, ha.snoc⟩

/-- **Run lemma.** -/
theorem run_attached {env : Environment} {h : History} {s : RemoteSession}
    (hr : SessionRun env AnyAction h s) :
    Sane s ∧ Attached h s ∧ Collected h s ∧
      ∀ l ∈ h, Rings l.2.before l.2.after l.2.outputs := by
  refine Transition.Run.invariant_of_history hr (fun _ => True)
    (fun h s => Sane s ∧ Attached h s ∧ Collected h s ∧
      ∀ l ∈ h, Rings l.2.before l.2.after l.2.outputs) (fun _ _ _ => trivial) ?_ ?_ trivial
  · exact ⟨sane_new, attached_new, collected_empty rfl, fun _ hl => (by cases hl)⟩
  · rintro h s ⟨action, before, outputs, after⟩ s' _ ⟨hsane, ha, hc, hrings⟩ ⟨_, hw⟩
    obtain ⟨hstep, rfl, rfl⟩ := watch_step hw
    obtain ⟨hattached, hring⟩ := step_upholds ha hsane hstep
    refine ⟨sane_step hsane hstep, hattached,
      collected_step hc.snoc hsane (fun r hmem => (ha.received r hmem).snoc) hstep, ?_⟩
    intro l hl
    rcases List.mem_append.mp hl with hl | hl
    · exact hrings l hl
    · rw [List.mem_singleton.mp hl]
      exact hring

/-- **The connection invariant.**  At every point of every run:
    every socket ever created, other than the current one, has been closed by the
    session; a connected session has a socket, the one on which its handshake message
    arrived, and publishes the server of its pairing; requests are held only while
    connected, each of them arrived on the current socket; the published number of
    requests is theirs; and in each turn so far `onDisconnect` was called once if the
    turn ended a connection, and not otherwise. -/
theorem connection_upheld {env : Environment} {h : History} {s : RemoteSession}
    (hr : SessionRun env AnyAction h s) :
    (∀ socket, Uttered h (.created socket) → s.socket ≠ some socket →
      Uttered h (.closed socket) ∧ ∃ w, s.sockets socket = some w ∧ Shut w) ∧
    (s.snapshot.status = .connected → ∃ socket pairing, s.socket = some socket ∧
      s.pairing = some pairing ∧ s.snapshot.serverId = some pairing.serverId ∧
      Greeted h socket pairing s.snapshot) ∧
    (s.pending.len ≠ 0 → s.snapshot.status = .connected) ∧
    (∀ key p, s.pending.get? key = some p → ∃ socket, s.socket = some socket ∧
      Arrived h socket (.message (.agentRequest p.request))) ∧
    s.snapshot.pendingRequests = s.pending.len ∧
    ∀ l ∈ h, Rings l.2.before l.2.after l.2.outputs := by
  obtain ⟨hsane, ha, hc, hrings⟩ := run_attached hr
  refine ⟨?_, ha.connected, ?_, hc, ha.counted, hrings⟩
  · intro socket hu hs
    obtain ⟨w, hw⟩ := ha.recorded socket hu
    obtain ⟨hshut, hclosed⟩ := ha.shut socket w hw hs
    exact ⟨hclosed, w, hw, hshut⟩
  · intro hlen
    by_contra hst
    exact hlen (hsane.buffered (Or.inl hst))

/-- What the phone has stored for the server. -/
def homePairing : PairingRecord := ⟨"wss://home/", ⟨100⟩, ⟨1⟩, [7], "phone", 0⟩

/-- The phone connects, authenticates and receives a request. -/
def greetPhone : List ClientAction :=
  [.connect "wss://home/" "phone", .loaded 2 (.ok (some homePairing)) (.ok 0), .opened 0,
    .message 0 (.message (.authenticated ⟨100⟩ ⟨5⟩ [9])), .receive 0,
    .message 0 (.message (.agentRequest ⟨⟨3⟩, 1, 0, 60, [11], none⟩)), .receive 1]

/-- The phone is connected over its first socket and holds one request. -/
theorem connection_upheld_phone :
    let r := outcome (watch plainBrowser) AnyAction RemoteSession.new greetPhone
    r.2.snapshot.status = .connected ∧ r.2.pending.len = 1 ∧
      (∃ socket pairing, r.2.socket = some socket ∧ r.2.pairing = some pairing ∧
        r.2.snapshot.serverId = some pairing.serverId ∧
        Greeted r.1 socket pairing r.2.snapshot) ∧
      r.2.snapshot.pendingRequests = r.2.pending.len := by
  have hrun : SessionRun plainBrowser AnyAction
      (outcome (watch plainBrowser) AnyAction RemoteSession.new greetPhone).1
      (outcome (watch plainBrowser) AnyAction RemoteSession.new greetPhone).2 :=
    run_outcome (watch plainBrowser) AnyAction greetPhone (by decide)
  obtain ⟨_, hconnected, _, _, hcounted, _⟩ := connection_upheld hrun
  exact ⟨by decide, by decide, hconnected (by decide), hcounted⟩

end Connection
