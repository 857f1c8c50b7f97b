import AgentWitness.BrokerChannelProofs
import AgentWitness.EndToEndProofs

/-! # The client's buffer

    `#pending` of a client mirrors what its server has in flight to it, with
    delays in both directions: the server frees a place when it drops a request,
    while the cancel is still on its way, and the client frees one when it answers,
    while the answer is.  So at any moment neither side bounds the other.

    The invariant reads the buffer together with EVERYTHING ON ITS WAY to it: the
    frames that arrived, the messages on the wire and the commands on the channel
    of the session.  Applying them one by one keeps the buffer within the session's
    capacity, and what is left in the end is in flight at the server.  A tag is in
    at most one place: in the buffer, on its way to it, or answered and on its way
    back.  A frame that does not decode ends the session, so nothing behind it
    counts. -/

namespace RemoteBuffer

open Packet KeyedMap BrokerModel BrokerInvariant BrokerCompletion BrokerCorrelation BrokerTask
open BrokerWaiters BrokerTrace BrokerChannel RemoteProtocol Pairing Serve Handshake Session
open RemoteClient ClientFlow Wire EndToEnd Transition Replica

/-! ## What is on its way -/

/-- Whether a frame decodes. -/
def decodes : Frame → Bool
  | .message _ => true
  | .text | .malformed _ => false

/-- Whether all frames decode. -/
def legible (frames : List Frame) : Bool := frames.all decodes

/-- What frames ask of the buffer: nothing from the first that does not decode. -/
def changes : List Frame → List (Change Key)
  | [] => []
  | .message message :: rest => (bufferChange message).toList ++ changes rest
  | .text :: _ | .malformed _ :: _ => []

/-- The frames of a socket that wait in the chain. -/
def framesOf (link : LinkId) (receiving : List Received) : List Frame :=
  receiving.filterMap (fun received => if received.socket = link then some received.frame else none)

/-- Whether the commands of the channel are forwarded, now or later. -/
def reading : Phase → Bool
  | .closing _ | .dropping | .finished => false
  | .receiving | .authorizing _ | .connecting _ | .awaiting _ | .responding _ _
  | .running _ _ _ => true

/-- The commands a task will forward. -/
def outstanding (task : Option Task) : List RemoteCommand :=
  match task with
  | some t => if reading t.phase then t.commands else []
  | none => []

/-- The changes on the wire and on the channel. -/
def stream (n : Network) (link : LinkId) : List (Change Key) :=
  (n.down link ++ (outstanding (n.server.tasks link)).map ofRemoteCommand).filterMap bufferChange

/-- All changes on their way to a client's buffer. -/
def transit (n : Network) (id : ClientId) (link : LinkId) : List (Change Key) :=
  changes (framesOf link (n.clients id).receiving)
    ++ if legible (framesOf link (n.clients id).receiving) then stream n link else []

/-- The tag a message answers. -/
def answerOf : ClientMessage → Option Key
  | .agentResponse request_id attempt _ => some (request_id, attempt)
  | _ => none

/-- The tag a command answers for a session. -/
def answerFor (session : Option SessionId) : Command → Option Key
  | .response session_id request_id attempt _ =>
      if session = some session_id then some (request_id, attempt) else none
  | _ => none

/-- The session a task was given. -/
def sessionOf (task : Option Task) : Option SessionId :=
  match task.bind Task.reply with
  | some (.ok session_id) => some session_id
  | _ => none

/-- The answers on their way to the broker. -/
def answers (n : Network) (link : LinkId) : List Key :=
  (n.up link).filterMap answerOf
    ++ n.server.mailbox.filterMap (answerFor (sessionOf (n.server.tasks link)))

/-- One if the tag is in the buffer. -/
def held (s : RemoteSession) (key : Key) : Nat := if key ∈ s.pending.keySet then 1 else 0

/-- In how many places a tag is. -/
def places (n : Network) (id : ClientId) (link : LinkId) (key : Key) : Nat :=
  held (n.clients id) key + (added (transit n id link)).count key + (answers n link).count key

theorem legible_append (a b : List Frame) : legible (a ++ b) = (legible a && legible b) :=
  List.all_append

theorem changes_append (a b : List Frame) :
    changes (a ++ b) = changes a ++ if legible a then changes b else [] := by
  induction a with
  | nil => rfl
  | cons frame rest ih =>
      cases frame with
      | text => rfl
      | malformed error => rfl
      | message message =>
          show (bufferChange message).toList ++ changes (rest ++ b)
            = ((bufferChange message).toList ++ changes rest) ++ if legible rest then changes b else []
          rw [ih, List.append_assoc]

theorem framesOf_append (link : LinkId) (a b : List Received) :
    framesOf link (a ++ b) = framesOf link a ++ framesOf link b :=
  List.filterMap_append

theorem framesOf_of_ne {link : LinkId} {received : Received} (h : received.socket ≠ link) :
    framesOf link [received] = [] := by
  simp [framesOf, h]

theorem framesOf_self (received : Received) :
    framesOf received.socket [received] = [received.frame] := by
  simp [framesOf]

/-- Without a session there is nothing to answer. -/
theorem no_answers (commands : List Command) : commands.filterMap (answerFor none) = [] := by
  refine List.filterMap_eq_nil_iff.mpr ?_
  intro command _
  cases command with
  | response => rfl
  | connect | ready | locked | disconnected | shutdown => rfl

theorem holds_iff {s : Server} {link : LinkId} {session_id : SessionId} :
    Holds s link session_id ↔ sessionOf (s.tasks link) = some session_id := by
  rw [sessionOf]
  constructor
  · rintro ⟨t, ht, hr⟩
    rw [ht, Option.bind_some, hr]
  · intro h
    cases ht : s.tasks link with
    | none =>
        rw [ht] at h
        cases h
    | some t =>
        rw [ht, Option.bind_some] at h
        split at h
        · rename_i active hr
          obtain rfl := Option.some.inj h
          exact ⟨t, ht, hr⟩
        · cases h

/-! ## The invariant of one socket -/

/-- The task of the link forwards its commands, now or later. -/
def Reading (s : Server) (link : LinkId) : Prop :=
  ∀ t, s.tasks link = some t → reading t.phase = true

theorem reading_iff {s : Server} {link : LinkId} {t : Task} (ht : s.tasks link = some t) :
    Reading s link ↔ reading t.phase = true := by
  constructor
  · exact fun hr => hr t ht
  · intro hr t' ht'
    obtain rfl := Option.some.inj (ht.symm.trans ht')
    exact hr

/-- The buffer of a client and what is on its way, for the client's socket. -/
structure Synced (config : SessionConfig) (n : Network) (id : ClientId) (link : LinkId) :
    Prop where
  fits : Fits config.remote_capacity (n.clients id).pending.keySet (transit n id link)
  once : ∀ key, places n id link key ≤ 1
  known : ∀ key, 0 < places n id link key →
    key.1 ∈ submittedIds n.server.broker.actor.calls
  silent : sessionOf (n.server.tasks link) = none → ∀ key, places n id link key = 0
  waiting : ∀ session_id, n.server.broker.actor.remote = some (session_id, link) →
    Reading n.server link → ∀ key, 0 < places n id link key →
    ¬ Queued n.server.broker.actor.state key.1
  flying : ∀ session_id, n.server.broker.actor.remote = some (session_id, link) →
    Reading n.server link → legible (framesOf link (n.clients id).receiving) = true →
    replay (n.clients id).pending.keySet (transit n id link)
      ⊆ inFlightTags n.server.broker.actor.state session_id

/-- Steps that leave the model alone may shrink what is held and on its way. -/
theorem Synced.mono {config : SessionConfig} {n n' : Network} {id : ClientId} {link : LinkId}
    (h : Synced config n id link)
    (hremote : n'.server.broker.actor.remote = n.server.broker.actor.remote)
    (hstate : n'.server.broker.actor.state = n.server.broker.actor.state)
    (hids : ∀ rid ∈ submittedIds n.server.broker.actor.calls,
      rid ∈ submittedIds n'.server.broker.actor.calls)
    (hsession : sessionOf (n'.server.tasks link) = sessionOf (n.server.tasks link))
    (hreading : Reading n'.server link → Reading n.server link)
    (hfits : Fits config.remote_capacity (n'.clients id).pending.keySet (transit n' id link))
    (hplaces : ∀ key, places n' id link key ≤ places n id link key)
    (hreplay : Reading n'.server link →
      legible (framesOf link (n'.clients id).receiving) = true →
      legible (framesOf link (n.clients id).receiving) = true ∧
        replay (n'.clients id).pending.keySet (transit n' id link)
          ⊆ replay (n.clients id).pending.keySet (transit n id link)) :
    Synced config n' id link where
  fits := hfits
  once := fun key => Nat.le_trans (hplaces key) (h.once key)
  known := by
    intro key hkey
    exact hids _ (h.known key (Nat.lt_of_lt_of_le hkey (hplaces key)))
  silent := by
    intro hnone key
    have hzero := h.silent (hsession.symm.trans hnone) key
    have hle := hplaces key
    omega
  waiting := by
    intro session_id hr hread key hkey
    rw [hremote] at hr
    rw [hstate]
    exact h.waiting session_id hr (hreading hread) key (Nat.lt_of_lt_of_le hkey (hplaces key))
  flying := by
    intro session_id hr hread hlegible
    rw [hremote] at hr
    rw [hstate]
    obtain ⟨hbefore, hsub⟩ := hreplay hread hlegible
    exact hsub.trans (h.flying session_id hr (hreading hread) hbefore)

/-! ## The client's side -/

theorem held_le_of_subset {s t : RemoteSession} (h : t.pending.keySet ⊆ s.pending.keySet)
    (key : Key) : held t key ≤ held s key := by
  rw [held, held]
  by_cases ht : key ∈ t.pending.keySet
  · rw [if_pos ht, if_pos (h ht)]
  · rw [if_neg ht]
    exact Nat.zero_le _

/-- Only what is in the buffer is answered, and it is then gone. -/
theorem move_held {env : Environment} {s t : RemoteSession} {o : List ClientOutput}
    (hm : Move env s o t) (link : LinkId) (key : Key) :
    held t key + ((submitted link o).filterMap answerOf).count key ≤ held s key := by
  have hquiet : ∀ {o'}, t.pending.keySet ⊆ s.pending.keySet →
      (submitted link o').filterMap answerOf = [] →
      held t key + ((submitted link o').filterMap answerOf).count key ≤ held s key := by
    intro o' hsub hnone
    rw [hnone]
    exact held_le_of_subset hsub key
  have hsame : t.pending = s.pending → t.pending.keySet ⊆ s.pending.keySet := by
    intro heq
    rw [heq]
  -- messages other than answers
  have hother : ∀ {socket message}, answerOf message = none →
      (submitted link [.sent socket message]).filterMap answerOf = [] := by
    intro socket message hnone
    by_cases hl : socket = link
    · simp [submitted, hl, hnone]
    · simp [submitted, hl]
  cases hm with
  | aside ha hq =>
      refine hquiet (hsame ha.pending) ?_
      rw [(quiet_silent hq).2]
      rfl
  | dropped => exact hquiet (fun _ hk => by cases hk) rfl
  | @started socket key' pending _ hget _ _ =>
      refine hquiet ?_ rfl
      show (s.pending.insert key' _).keySet ⊆ _
      rw [keySet_insert]
      exact Finset.insert_subset (mem_keySet.mpr ⟨pending, hget⟩) (Finset.Subset.refl _)
  | @greeted socket w _ _ _ =>
      refine hquiet (hsame rfl) (hother ?_)
      rw [WebSocket.greeting]
      split
      · rfl
      · rfl
  | @sent socket message _ _ hroutine _ =>
      refine hquiet (hsame rfl) (hother ?_)
      cases message with
      | agentResponse => cases hroutine
      | pairRequest | authenticate | agentReady | agentLocked | setPushSubscription
      | setIdentities | pong => rfl
  | @answered token handler packet _ _ _ _ hany =>
      have hin : requestKey handler.pending.request ∈ s.pending.keySet := by
        cases hget : s.pending.get? (requestKey handler.pending.request) with
        | none =>
            rw [hget] at hany
            cases hany
        | some entry => exact mem_keySet.mpr ⟨entry, hget⟩
      have hcount : ((submitted link [.resolved handler.socket handler.pending.request packet,
          .sent handler.socket (.agentResponse handler.pending.request.request_id
            handler.pending.request.attempt packet)]).filterMap answerOf).count key
          ≤ if key = requestKey handler.pending.request then 1 else 0 := by
        by_cases hl : handler.socket = link
        · by_cases hk : key = requestKey handler.pending.request
          · simp [submitted, hl, answerOf, hk, requestKey]
          · simp only [submitted, hl, answerOf, List.filterMap_cons, List.filterMap_nil, if_true,
              if_neg hk, Nat.le_zero_eq, List.count_eq_zero, List.mem_singleton]
            exact hk
        · simp [submitted, hl]
      show (if key ∈ (s.pending.erase _).keySet then 1 else 0) + _ ≤ held s key
      rw [keySet_erase, held]
      by_cases hk : key = requestKey handler.pending.request
      · rw [if_pos hk] at hcount
        rw [hk, if_neg (Finset.notMem_erase _ _), if_pos hin]
        rw [hk] at hcount
        omega
      · rw [if_neg hk] at hcount
        by_cases hmem : key ∈ s.pending.keySet
        · rw [if_pos (Finset.mem_erase.mpr ⟨hk, hmem⟩), if_pos hmem]
          omega
        · rw [if_neg (fun he => hmem (Finset.mem_of_mem_erase he)), if_neg hmem]
          omega
  | bumped | began _ | ended | adopted _ _ _ _ | opened _ _ _ | shut _ _ _ | resolved _ _
  | released | buried _ => exact hquiet (hsame rfl) rfl

/-- What the current socket's oldest frame asks is what the buffer undergoes,
    unless the chain fails. -/
theorem take_pending {s t : RemoteSession} {received : Received} {rest : List Received}
    (ht : Take s received rest t) (hs : s.socket = some received.socket)
    (hsocket : t.socket = some received.socket)
    (hchain : ∀ cause, t.chain ≠ .failing received.socket cause) :
    ∃ message, received.frame = .message message ∧
      t.pending.keySet ⊆ replay s.pending.keySet (bufferChange message).toList := by
  cases ht with
  | popped hwhy =>
      rcases hwhy with hne | ⟨message, hframe, hempty | hnone⟩
      · exact absurd hs hne
      · refine ⟨message, hframe, ?_⟩
        show s.pending.keySet ⊆ _
        rw [eq_empty_of_len hempty]
        intro _ hk
        cases hk
      · refine ⟨message, hframe, ?_⟩
        rw [hnone]
        exact Finset.Subset.refl _
  | threw _ _ => exact absurd rfl (hchain _)
  | refused _ _ _ => exact absurd rfl (hchain _)
  | rejected _ _ => cases hsocket
  | @enqueued request _ hframe _ _ _ =>
      refine ⟨_, hframe, ?_⟩
      show (s.pending.insert _ _).keySet ⊆ insert (requestKey request) s.pending.keySet
      rw [keySet_insert]
  | @cancelled request_id attempt _ hframe =>
      refine ⟨_, hframe, ?_⟩
      show (s.pending.erase _).keySet ⊆ s.pending.keySet.erase (request_id, attempt)
      rw [keySet_erase]

section Client

variable {config : SessionConfig} {n : Network} {id : ClientId} {link : LinkId}

/-- Steps that leave the server alone. -/
theorem Synced.client {n' : Network} (h : Synced config n id link) (hserver : n'.server = n.server)
    (hfits : Fits config.remote_capacity (n'.clients id).pending.keySet (transit n' id link))
    (hplaces : ∀ key, places n' id link key ≤ places n id link key)
    (hreplay : legible (framesOf link (n'.clients id).receiving) = true →
      legible (framesOf link (n.clients id).receiving) = true ∧
        replay (n'.clients id).pending.keySet (transit n' id link)
          ⊆ replay (n.clients id).pending.keySet (transit n id link)) :
    Synced config n' id link := by
  refine h.mono ?_ ?_ ?_ ?_ ?_ hfits hplaces (fun _ => hreplay)
  · rw [hserver]
  · rw [hserver]
  · rw [hserver]
    exact fun _ hid => hid
  · rw [hserver]
  · rw [hserver]
    exact fun hread => hread

/-- What a client and its wires keep for another one. -/
theorem Synced.congr {n' : Network} (h : Synced config n id link) (hserver : n'.server = n.server)
    (hclient : n'.clients id = n.clients id) (hdown : n'.down link = n.down link)
    (hup : n'.up link = n.up link) : Synced config n' id link := by
  have htransit : transit n' id link = transit n id link := by
    simp only [transit, stream, hclient, hdown, hserver]
  have hplaces : ∀ key, places n' id link key = places n id link key := by
    intro key
    simp only [places, answers, htransit, hclient, hup, hserver]
  refine h.client hserver ?_ (fun key => Nat.le_of_eq (hplaces key)) ?_
  · rw [hclient, htransit]
    exact h.fits
  · rw [hclient, htransit]
    exact fun hl => ⟨hl, Finset.Subset.refl _⟩

theorem synced_took {t : RemoteSession} {received : Received} {rest : List Received}
    (h : Synced config n id link) (hr : (n.clients id).receiving = received :: rest)
    (ht : Take (n.clients id) received rest t) (hs : (n.clients id).socket = some link)
    (hsocket : t.socket = some link) (hchain : ∀ cause, t.chain ≠ .failing link cause) :
    Synced config (n.moved id t []) id link := by
  have hup : (n.moved id t []).up link = n.up link := List.append_nil _
  have hreceiving : ((n.moved id t []).clients id).receiving = rest := by
    rw [moved_clients_self, take_receiving ht]
  by_cases hl : received.socket = link
  · subst hl
    obtain ⟨message, hframe, hsub⟩ := take_pending ht hs hsocket hchain
    -- what is on its way is the change of this frame and then the rest
    have hframes : framesOf received.socket (n.clients id).receiving
        = .message message :: framesOf received.socket rest := by
      rw [hr, ← hframe]
      exact (framesOf_append _ [received] rest).trans (congrArg (· ++ _) (framesOf_self received))
    have hlegible : legible (framesOf received.socket (n.clients id).receiving)
        = legible (framesOf received.socket rest) := by
      rw [hframes]
      rfl
    have htransit : transit n id received.socket = (bufferChange message).toList
        ++ transit (n.moved id t []) id received.socket := by
      rw [transit, transit, hlegible, hreceiving, hframes, changes, List.append_assoc]
      rfl
    have hheld : ∀ key, held t key
        ≤ held (n.clients id) key + (added (bufferChange message).toList).count key := by
      intro key
      rw [held, held]
      by_cases hk : key ∈ t.pending.keySet
      · rw [if_pos hk]
        rcases mem_replay (hsub hk) with hold | hnew
        · rw [if_pos hold]
          exact Nat.le_add_right 1 _
        · exact Nat.le_trans (List.count_pos_iff.mpr hnew) (Nat.le_add_left _ _)
      · rw [if_neg hk]
        exact Nat.zero_le _
    refine h.client rfl ?_ ?_ ?_
    · have hfits := h.fits
      rw [htransit, fits_append] at hfits
      rw [moved_clients_self]
      exact hfits.2.mono hsub
    · intro key
      have hle := hheld key
      rw [places, places, moved_clients_self, htransit, added_append, List.count_append, answers,
        hup]
      change _ + _ + (answers n received.socket).count key ≤ _
      omega
    · intro hl
      rw [hreceiving] at hl
      refine ⟨hlegible.trans hl, ?_⟩
      rw [moved_clients_self, htransit, replay_append]
      exact replay_mono hsub _
  · -- a frame of an old socket: it is dropped
    have hsame : t.pending = (n.clients id).pending := by
      have hne : (n.clients id).socket ≠ some received.socket := by
        rw [hs]
        exact fun he => hl (Option.some.inj he).symm
      cases ht with
      | popped _ => rfl
      | threw hc _ | refused hc _ _ | rejected hc _ | enqueued hc _ _ _ _ | cancelled hc _ =>
          exact absurd hc hne
    have hframes : framesOf link (n.clients id).receiving = framesOf link rest := by
      rw [hr]
      exact (framesOf_append _ [received] rest).trans (congrArg (· ++ _) (framesOf_of_ne hl))
    have htransit : transit (n.moved id t []) id link = transit n id link := by
      rw [transit, transit, hreceiving, hframes]
      rfl
    refine h.client rfl ?_ ?_ ?_
    · rw [moved_clients_self, hsame, htransit]
      exact h.fits
    · intro key
      rw [places, places, moved_clients_self, htransit, held, hsame, answers, hup]
      exact Nat.le_refl _
    · rw [hreceiving, moved_clients_self, hsame, htransit, hframes]
      exact fun hl => ⟨hl, Finset.Subset.refl _⟩

/-- A frame arrives at its client: it waits in the chain as it waited on the
    wire, or it hides what is behind it. -/
theorem synced_pushed {message : ServerMessage} {rest : List ServerMessage} {frame : Frame}
    {socket : SocketId} (h : Synced config n id link)
    (hdown : n.down socket = message :: rest) (hcarries : carries message frame = true)
    (label : String) :
    Synced config (({ n with down := Function.update n.down socket rest } : Network).moved id
      { n.clients id with
        receiving := (n.clients id).receiving ++ [⟨socket, frame, label⟩] } []) id link := by
  generalize hn' : (({ n with down := Function.update n.down socket rest } : Network).moved id
      { n.clients id with
        receiving := (n.clients id).receiving ++ [⟨socket, frame, label⟩] } []) = n'
  have hserver : n'.server = n.server := by rw [← hn']; rfl
  have hup : n'.up link = n.up link := by rw [← hn']; exact List.append_nil _
  have hpending : (n'.clients id).pending = (n.clients id).pending := by
    rw [← hn', moved_clients_self]
  have hreceiving : (n'.clients id).receiving
      = (n.clients id).receiving ++ [⟨socket, frame, label⟩] := by
    rw [← hn', moved_clients_self]
  have hdown' : n'.down link = Function.update n.down socket rest link := by rw [← hn']; rfl
  have hplaces : (added (transit n' id link)).Sublist (added (transit n id link)) →
      ∀ key, places n' id link key ≤ places n id link key := by
    intro hsub key
    have hcount := hsub.count_le key
    rw [places, places, held, held, hpending, answers, answers, hup, hserver]
    omega
  have hsame : legible (framesOf link (n'.clients id).receiving)
        = legible (framesOf link (n.clients id).receiving) →
      transit n' id link = transit n id link → Synced config n' id link := by
    intro hlegible htransit
    refine h.client hserver ?_ ?_ ?_
    · rw [hpending, htransit]
      exact h.fits
    · refine hplaces ?_
      rw [htransit]
    · rw [hpending, htransit, hlegible]
      exact fun hl => ⟨hl, Finset.Subset.refl _⟩
  by_cases hl : socket = link
  · subst hl
    have hframes : framesOf socket (n'.clients id).receiving
        = framesOf socket (n.clients id).receiving ++ [frame] := by
      rw [hreceiving, framesOf_append]
      exact congrArg (_ ++ ·) (framesOf_self ⟨socket, frame, label⟩)
    have hstream : stream n socket = (bufferChange message).toList ++ stream n' socket := by
      rw [stream, stream, hdown, hdown', Function.update_self, hserver]
      cases hc : bufferChange message with
      | none => simp [hc]
      | some change => simp [hc]
    cases hf : decodes frame with
    | true =>
        obtain rfl : frame = .message message := by
          cases frame with
          | message received =>
              obtain rfl := of_decide_eq_true hcarries
              rfl
          | text => cases hf
          | malformed error => cases hf
        have hlegible : legible (framesOf socket (n'.clients id).receiving)
            = legible (framesOf socket (n.clients id).receiving) := by
          rw [hframes, legible_append]
          exact Bool.and_true _
        refine hsame hlegible ?_
        rw [transit, transit, hlegible, hframes, changes_append]
        by_cases hleg : legible (framesOf socket (n.clients id).receiving) = true
        · rw [if_pos hleg, if_pos hleg, if_pos hleg, hstream, List.append_assoc]
          congr 1
          exact congrArg (· ++ _) (List.append_nil _)
        · rw [if_neg hleg, if_neg hleg, if_neg hleg, List.append_nil]
    | false =>
        have hlegible : legible (framesOf socket (n'.clients id).receiving) = false := by
          rw [hframes, legible_append, legible, legible, List.all_cons, hf]
          exact Bool.and_false _
        have hcut : changes [frame] = [] := by
          cases frame with
          | message received => cases hf
          | text => rfl
          | malformed error => rfl
        have htransit : transit n' id socket = changes (framesOf socket (n.clients id).receiving) := by
          rw [transit, hlegible, hframes, changes_append, hcut]
          simp
        have hfits := h.fits
        rw [transit, fits_append] at hfits
        refine h.client hserver ?_ ?_ ?_
        · rw [hpending, htransit]
          exact hfits.1
        · refine hplaces ?_
          rw [htransit, transit, added_append]
          exact List.sublist_append_left ..
        · intro hl
          cases hlegible.symm.trans hl
  · have hframes : framesOf link (n'.clients id).receiving
        = framesOf link (n.clients id).receiving := by
      rw [hreceiving, framesOf_append, framesOf_of_ne hl, List.append_nil]
    refine hsame (by rw [hframes]) ?_
    rw [transit, transit, hframes, stream, stream, hdown', Function.update_of_ne (Ne.symm hl),
      hserver]

/-- A move on a socket that the client already has. -/
theorem synced_moved {env : Environment} {t : RemoteSession} {o : List ClientOutput}
    (h : Synced config n id link) (hm : Move env (n.clients id) o t) :
    Synced config (n.moved id t o) id link := by
  have hheld := move_held hm link
  have hsub : t.pending.keySet ⊆ (n.clients id).pending.keySet := by
    intro key hk
    have hle := hheld key
    rw [held, if_pos hk, held] at hle
    by_contra hnot
    rw [if_neg hnot] at hle
    omega
  have hreceiving : ((n.moved id t o).clients id).receiving = (n.clients id).receiving := by
    rw [moved_clients_self, move_receiving hm]
  have htransit : transit (n.moved id t o) id link = transit n id link := by
    rw [transit, transit, hreceiving]
    rfl
  refine h.client rfl ?_ ?_ ?_
  · rw [moved_clients_self, htransit]
    exact h.fits.mono hsub
  · intro key
    have hle := hheld key
    have hup : (n.moved id t o).up link = n.up link ++ submitted link o := rfl
    rw [places, places, moved_clients_self, htransit, answers, answers, hup,
      List.filterMap_append, List.count_append, List.count_append, List.count_append]
    change _ + _ + (_ + _ + (n.server.mailbox.filterMap
      (answerFor (sessionOf (n.server.tasks link)))).count key) ≤ _
    omega
  · rw [hreceiving, moved_clients_self, htransit]
    exact fun hl => ⟨hl, replay_mono hsub _⟩

/-- Nothing is on its way on a socket that was just created. -/
theorem synced_adopted {t : RemoteSession} {o : List ClientOutput} (hg : Grounded n)
    (hfree : n.owner link = none) (hempty : t.pending.keySet = ∅)
    (hreceiving : t.receiving = (n.clients id).receiving) (hsubmitted : submitted link o = []) :
    Synced config (n.moved id t o) id link := by
  have hframes : framesOf link ((n.moved id t o).clients id).receiving = [] := by
    rw [moved_clients_self, hreceiving]
    refine List.filterMap_eq_nil_iff.mpr ?_
    intro received hr
    refine if_neg ?_
    rintro rfl
    cases hfree.symm.trans (hg.arrived id received hr)
  have htask : (n.moved id t o).server.tasks link = none := hg.tasks link hfree
  have htransit : transit (n.moved id t o) id link = [] := by
    have hdown : (n.moved id t o).down link = [] := hg.down link hfree
    rw [transit, hframes, stream, hdown, htask]
    rfl
  have hanswers : answers (n.moved id t o) link = [] := by
    have hup : (n.moved id t o).up link = [] := by
      show n.up link ++ submitted link o = []
      rw [hg.up link hfree, hsubmitted]
      rfl
    rw [answers, hup, htask]
    exact no_answers _
  have hplaces : ∀ key, places (n.moved id t o) id link key = 0 := by
    intro key
    rw [places, htransit, hanswers, moved_clients_self, held, hempty]
    rfl
  refine ⟨?_, ?_, ?_, fun _ => hplaces, ?_, ?_⟩
  · rw [htransit, moved_clients_self, hempty]
    exact Nat.zero_le _
  · intro key
    rw [hplaces]
    exact Nat.zero_le 1
  · intro key hk
    rw [hplaces] at hk
    cases hk
  · intro _ _ _ key hk
    rw [hplaces] at hk
    cases hk
  · intro _ _ _ _
    rw [htransit, moved_clients_self, hempty]
    intro _ hk
    cases hk

end Client

/-! ## The invariant -/

/-- No connect was refused so far, and request and session ids are fresh. -/
structure Fair (n : Network) : Prop where
  accepted : AllOk n.server.broker.actor.calls
  requests : (submittedIds n.server.broker.actor.calls).Nodup
  sessions : (connectedIds n.server.broker.actor.calls).Nodup

/-- The buffer keeps to the capacity, and no enqueue has thrown. -/
structure Calm (capacity : Nat) (s : RemoteSession) : Prop where
  bounded : s.pending.len ≤ capacity
  failing : ∀ socket cause, s.chain = .failing socket cause → overflows cause = false

/-- What holds of every client, as long as the run is fair. -/
structure Guarded (config : SessionConfig) (n : Network) : Prop where
  settled : n.server.broker.stopped = false → Settled n.server.broker.actor
  offered : ∀ capacity outbound response,
    .connect capacity outbound response ∈ n.server.mailbox → capacity = config.remote_capacity
  granted : ∀ capacity ∈ recorded connectedCapacity n.server.broker.actor.calls,
    capacity = config.remote_capacity
  calm : ∀ id, Calm config.remote_capacity (n.clients id)
  synced : ∀ id link, (n.clients id).socket = some link →
    (∀ cause, (n.clients id).chain ≠ .failing link cause) → Synced config n id link

theorem guarded_new (config : SessionConfig) (broker : BrokerConfig) (pairing : PairingService) :
    Guarded config (Network.new broker pairing) where
  settled := fun _ => settled_new broker
  offered := fun _ _ _ hm => by cases hm
  granted := fun _ hm => by cases hm
  calm := fun _ => ⟨Nat.zero_le _, fun _ _ hc => (by cases hc)⟩
  synced := fun _ _ hs => by cases hs

/-- A move brings no overflow, and it lifts no failure of the current socket. -/
theorem move_chain {env : Environment} {s t : RemoteSession} {o : List ClientOutput}
    (hm : Move env s o t) {socket : SocketId} {cause : Cause} :
    (t.chain = .failing socket cause →
      s.chain = .failing socket cause ∨ overflows cause = false) ∧
    (s.chain = .failing socket cause → s.socket = some socket →
      t.chain = .failing socket cause) := by
  cases hm with
  | aside ha _ =>
      refine ⟨ha.failing socket cause, ?_⟩
      intro hc hs
      exact (ha.doomed socket cause hc hs).trans hc
  | bumped | began _ | ended | adopted _ _ _ _ | greeted _ _ _ | opened _ _ _ | shut _ _ _
  | dropped | started _ _ _ _ | sent _ _ _ _ | answered _ _ _ _ _ | resolved _ _ | released
  | buried _ => exact ⟨Or.inl, fun hc _ => hc⟩

theorem len_le_of_subset {s t : RemoteSession} (h : t.pending.keySet ⊆ s.pending.keySet) :
    t.pending.len ≤ s.pending.len := by
  rw [← card_keySet, ← card_keySet]
  exact Finset.card_le_card h

/-- What is held after a move was held before. -/
theorem move_keySet {env : Environment} {s t : RemoteSession} {o : List ClientOutput}
    (hm : Move env s o t) : t.pending.keySet ⊆ s.pending.keySet := by
  intro key hk
  by_contra hnone
  have hheld := move_held hm 0 key
  rw [held, held, if_pos hk, if_neg hnone] at hheld
  omega

theorem calm_moved {env : Environment} {capacity : Nat} {s t : RemoteSession}
    {o : List ClientOutput} (hm : Move env s o t) (h : Calm capacity s) : Calm capacity t where
  bounded := Nat.le_trans (len_le_of_subset (move_keySet hm)) h.bounded
  failing := by
    intro socket cause hc
    rcases (move_chain hm).1 hc with hold | hcalm
    · exact h.failing socket cause hold
    · exact hcalm

/-- A client's step, seen from the clients: the server's part is untouched. -/
theorem Guarded.clients {config : SessionConfig} {n n' : Network} (h : Guarded config n)
    (hserver : n'.server = n.server)
    (hcalm : ∀ id, Calm config.remote_capacity (n'.clients id))
    (hsynced : ∀ id link, (n'.clients id).socket = some link →
      (∀ cause, (n'.clients id).chain ≠ .failing link cause) → Synced config n' id link) :
    Guarded config n' where
  settled := by
    rw [hserver]
    exact h.settled
  offered := by
    rw [hserver]
    exact h.offered
  granted := by
    rw [hserver]
    exact h.granted
  calm := hcalm
  synced := hsynced

theorem guarded_moved {config : SessionConfig} {env : Environment} {n : Network} {id : ClientId}
    {t : RemoteSession} {o : List ClientOutput} (hg : Grounded n) (h : Guarded config n)
    (hm : Move env (n.clients id) o t) (hfree : ∀ socket ∈ createdBy o, n.owner socket = none) :
    Guarded config (n.moved id t o) := by
  refine h.clients rfl ?_ ?_
  · intro other
    by_cases ho : other = id
    · subst ho
      rw [moved_clients_self]
      exact calm_moved hm (h.calm other)
    · rw [moved_clients_of_ne n t o ho]
      exact h.calm other
  · intro other link hs hchain
    by_cases ho : other = id
    · subst ho
      rw [moved_clients_self] at hs hchain
      rcases move_socket hm hs with hold | hnew
      · refine synced_moved (h.synced other link hold ?_) hm
        intro cause hc
        exact hchain cause ((move_chain hm).2 hc hold)
      · -- a new socket: the session had none, so the buffer is empty
        have hown := hfree link hnew
        refine synced_adopted hg hown ?_ (move_receiving hm) ?_
        · ext key
          rw [mem_keySet]
          constructor
          · rintro ⟨entry, he⟩
            have hsocket := (move_pending (hg.sane other) hm he).1
            cases hown.symm.trans (hg.current other link (hsocket.symm.trans hs))
          · intro hk
            cases hk
        · refine List.eq_nil_iff_forall_not_mem.mpr ?_
          intro message hmem
          cases hown.symm.trans
            (hg.current other link (move_sent hm (mem_submitted.mp hmem)))
    · rw [moved_clients_of_ne n t o ho] at hs hchain
      refine (h.synced other link hs hchain).congr rfl (moved_clients_of_ne n t o ho) rfl ?_
      -- the wire belongs to the other client
      have hnone : submitted link o = [] := by
        refine List.eq_nil_iff_forall_not_mem.mpr ?_
        intro message hmem
        have hown := hg.current id link (move_sent hm (mem_submitted.mp hmem))
        exact ho (Option.some.inj ((hg.current other link hs).symm.trans hown))
      show n.up link ++ submitted link o = n.up link
      rw [hnone, List.append_nil]

/-- **No overflow.**  A request that arrives on the current socket is new, and
    the buffer has room for it. -/
theorem enqueue_fits {config : SessionConfig} {n : Network} {id : ClientId}
    {received : Received} {rest : List Received} {request : RemoteRequest} (h : Synced config n id received.socket)
    (hr : (n.clients id).receiving = received :: rest)
    (hframe : received.frame = .message (.agentRequest request)) :
    (n.clients id).pending.get? (requestKey request) = none ∧
      (n.clients id).pending.len < config.remote_capacity := by
  -- the request is the first change on its way
  have hfirst : ∃ later, transit n id received.socket = .add (requestKey request) :: later := by
    have hframes : framesOf received.socket (n.clients id).receiving
        = .message (.agentRequest request) :: framesOf received.socket rest := by
      rw [hr, ← hframe]
      exact (framesOf_append _ [received] rest).trans (congrArg (· ++ _) (framesOf_self received))
    rw [transit, hframes]
    exact ⟨_, rfl⟩
  obtain ⟨later, htransit⟩ := hfirst
  have hnew : requestKey request ∉ (n.clients id).pending.keySet := by
    intro hin
    have honce := h.once (requestKey request)
    rw [places, held, if_pos hin, htransit] at honce
    have hcount : 0 < (added (.add (requestKey request) :: later)).count (requestKey request) :=
      List.count_pos_iff.mpr (List.mem_cons_self ..)
    omega
  constructor
  · cases hget : (n.clients id).pending.get? (requestKey request) with
    | none => rfl
    | some entry => exact absurd (mem_keySet.mpr ⟨entry, hget⟩) hnew
  · have hfits := h.fits
    rw [htransit] at hfits
    have hnext := hfits.2.now
    rw [Change.act, Finset.card_insert_of_notMem hnew, card_keySet] at hnext
    exact hnext

theorem calm_took {config : SessionConfig} (hcap : config.remote_capacity ≤ MAX_PENDING_REQUESTS)
    {n : Network} {id : ClientId} {t : RemoteSession} {received : Received} {rest : List Received}
    (h : Calm config.remote_capacity (n.clients id))
    (hsynced : (n.clients id).socket = some received.socket → Synced config n id received.socket)
    (hr : (n.clients id).receiving = received :: rest) (ht : Take (n.clients id) received rest t) :
    Calm config.remote_capacity t := by
  cases ht with
  | threw _ hquiet =>
      refine ⟨h.bounded, ?_⟩
      intro socket cause hc
      obtain ⟨_, rfl⟩ := Chain.failing.inj hc
      exact hquiet
  | refused hs hframe hwhy =>
      obtain ⟨hget, hroom⟩ := enqueue_fits (hsynced hs) hr hframe
      rcases hwhy with ⟨hdup, _⟩ | ⟨_, hfull, _⟩
      · rw [hget] at hdup
        cases hdup
      · omega
  | @enqueued request hs hframe _ _ _ =>
      obtain ⟨hget, hroom⟩ := enqueue_fits (hsynced hs) hr hframe
      refine ⟨?_, h.failing⟩
      show ((n.clients id).pending.insert _ _).len ≤ _
      rw [← card_keySet, keySet_insert]
      have hcard := Finset.card_insert_le (requestKey request) (n.clients id).pending.keySet
      rw [card_keySet] at hcard
      exact Nat.le_trans hcard hroom
  | rejected _ _ => exact ⟨Nat.zero_le _, h.failing⟩
  | cancelled _ _ =>
      refine ⟨?_, h.failing⟩
      show ((n.clients id).pending.erase _).len ≤ _
      rw [← card_keySet, keySet_erase]
      refine Nat.le_trans (Finset.card_le_card (Finset.erase_subset _ _)) ?_
      rw [card_keySet]
      exact h.bounded
  | popped _ => exact ⟨h.bounded, h.failing⟩

theorem guarded_took {config : SessionConfig} (hcap : config.remote_capacity ≤ MAX_PENDING_REQUESTS)
    {n : Network} {id : ClientId} {t : RemoteSession} {received : Received} {rest : List Received}
    (h : Guarded config n) (hr : (n.clients id).receiving = received :: rest)
    (hidle : (n.clients id).chain = .idle) (ht : Take (n.clients id) received rest t) :
    Guarded config (n.moved id t []) := by
  have hchain : ∀ socket cause, (n.clients id).chain ≠ .failing socket cause := by
    intro socket cause hc
    cases hidle.symm.trans hc
  refine h.clients rfl ?_ ?_
  · intro other
    by_cases ho : other = id
    · subst ho
      rw [moved_clients_self]
      exact calm_took hcap (h.calm other)
        (fun hs => h.synced other received.socket hs (hchain received.socket)) hr ht
    · rw [moved_clients_of_ne n t [] ho]
      exact h.calm other
  · intro other link hs hfailing
    by_cases ho : other = id
    · subst ho
      rw [moved_clients_self] at hs hfailing
      have hold : (n.clients other).socket = some link := by
        cases ht with
        | rejected _ _ => cases hs
        | popped _ | threw _ _ | enqueued _ _ _ _ _ | refused _ _ _ | cancelled _ _ => exact hs
      exact synced_took (h.synced other link hold (hchain link)) hr ht hold hs hfailing
    · rw [moved_clients_of_ne n t [] ho] at hs hfailing
      exact (h.synced other link hs hfailing).congr rfl (moved_clients_of_ne n t [] ho) rfl
        (List.append_nil _)

theorem guarded_pushed {config : SessionConfig} {n : Network} {id : ClientId} {socket : SocketId}
    {message : ServerMessage} {rest : List ServerMessage} {frame : Frame} {w : WebSocket}
    (hg : Grounded n) (h : Guarded config n) (hdown : n.down socket = message :: rest)
    (hcarries : carries message frame = true) (hw : (n.clients id).sockets socket = some w) :
    Guarded config (({ n with down := Function.update n.down socket rest } : Network).moved id
      { n.clients id with
        receiving := (n.clients id).receiving ++ [⟨socket, frame, w.label⟩] } []) := by
  refine h.clients rfl ?_ ?_
  · intro other
    by_cases ho : other = id
    · subst ho
      rw [moved_clients_self]
      exact ⟨(h.calm other).bounded, (h.calm other).failing⟩
    · rw [moved_clients_of_ne _ _ [] ho]
      exact h.calm other
  · intro other link hs hfailing
    by_cases ho : other = id
    · subst ho
      rw [moved_clients_self] at hs hfailing
      exact synced_pushed (h.synced other link hs hfailing) hdown hcarries w.label
    · rw [moved_clients_of_ne _ _ [] ho] at hs hfailing
      have hne : link ≠ socket := by
        rintro rfl
        have hown : n.owner link = some id :=
          (hg.owned id link).mp (by rw [hw]; exact Option.some_ne_none w)
        exact ho (Option.some.inj ((hg.current other link hs).symm.trans hown))
      exact (h.synced other link hs hfailing).congr rfl (moved_clients_of_ne _ _ [] ho)
        (Function.update_of_ne hne ..) (List.append_nil _)

/-! ## Tasks -/

theorem stream_eq (n : Network) (link : LinkId) :
    stream n link = (n.down link).filterMap bufferChange
      ++ (outstanding (n.server.tasks link)).map changeOf := by
  have hcommand : ∀ command, bufferChange (ofRemoteCommand command) = some (changeOf command) := by
    intro command
    cases command with
    | request => rfl
    | cancel => rfl
  rw [stream, List.filterMap_append, List.filterMap_map]
  congr 1
  rw [← List.filterMap_eq_map]
  exact List.filterMap_congr (fun command _ => hcommand command)

/-- Steps of the server that leave the model alone. -/
theorem Synced.shrunk {config : SessionConfig} {n n' : Network} {id : ClientId} {link : LinkId}
    (h : Synced config n id link)
    (hremote : n'.server.broker.actor.remote = n.server.broker.actor.remote)
    (hstate : n'.server.broker.actor.state = n.server.broker.actor.state)
    (hids : ∀ rid ∈ submittedIds n.server.broker.actor.calls,
      rid ∈ submittedIds n'.server.broker.actor.calls)
    (hclient : n'.clients id = n.clients id)
    (hsession : sessionOf (n'.server.tasks link) = sessionOf (n.server.tasks link))
    (hstream : stream n' link <+: stream n link)
    (hreading : Reading n'.server link →
      Reading n.server link ∧ stream n' link = stream n link)
    (hanswers : ∀ key, (answers n' link).count key ≤ (answers n link).count key) :
    Synced config n' id link := by
  have htransit : ∃ lost, transit n id link = transit n' id link ++ lost := by
    obtain ⟨lost, hlost⟩ := hstream
    simp only [transit, hclient, List.append_assoc]
    split
    · exact ⟨lost, by rw [hlost]⟩
    · exact ⟨[], rfl⟩
  refine h.mono hremote hstate hids hsession (fun hread => (hreading hread).1) ?_ ?_ ?_
  · obtain ⟨lost, hlost⟩ := htransit
    have hfits := h.fits
    rw [hlost, fits_append] at hfits
    rw [hclient]
    exact hfits.1
  · intro key
    obtain ⟨lost, hlost⟩ := htransit
    have hle := hanswers key
    rw [places, places, hclient, hlost, added_append, List.count_append]
    omega
  · intro hread hl
    have hsame : transit n' id link = transit n id link := by
      rw [transit, transit, hclient, (hreading hread).2]
    rw [hclient] at hl
    rw [hclient, hsame]
    exact ⟨hl, Finset.Subset.refl _⟩

/-- What a task sends and keeps of its channel, next to what it had. -/
theorem acted_stream {config : SessionConfig} {p : PairingService} {stopped : Bool}
    {link : LinkId} {t : Task} {action : TaskAction} {r : TaskResult}
    (h : Acted config p stopped link t action r) :
    (transmitted link r.outputs).filterMap bufferChange
          ++ (outstanding (some r.task)).map changeOf <+: (outstanding (some t)).map changeOf ∧
      (reading r.task.phase = true → reading t.phase = true ∧
        (transmitted link r.outputs).filterMap bufferChange
          ++ (outstanding (some r.task)).map changeOf = (outstanding (some t)).map changeOf) := by
  -- a task that stops reading keeps nothing
  have hstop : ∀ {r' : TaskResult},
      (transmitted link r'.outputs).filterMap bufferChange = [] → reading r'.task.phase = false →
      (transmitted link r'.outputs).filterMap bufferChange
          ++ (outstanding (some r'.task)).map changeOf <+: (outstanding (some t)).map changeOf ∧
        (reading r'.task.phase = true → reading t.phase = true ∧
          (transmitted link r'.outputs).filterMap bufferChange
            ++ (outstanding (some r'.task)).map changeOf = (outstanding (some t)).map changeOf) := by
    intro r' hnone hphase
    rw [hnone, outstanding, hphase]
    exact ⟨List.nil_prefix, fun hread => (by cases hread)⟩
  -- a task that goes on keeps all it does not forward
  have hgo : ∀ {r' : TaskResult}, reading t.phase = true →
      (transmitted link r'.outputs).filterMap bufferChange
        ++ (outstanding (some r'.task)).map changeOf = (outstanding (some t)).map changeOf →
      (transmitted link r'.outputs).filterMap bufferChange
          ++ (outstanding (some r'.task)).map changeOf <+: (outstanding (some t)).map changeOf ∧
        (reading r'.task.phase = true → reading t.phase = true ∧
          (transmitted link r'.outputs).filterMap bufferChange
            ++ (outstanding (some r'.task)).map changeOf = (outstanding (some t)).map changeOf) := by
    intro r' hphase heq
    exact ⟨heq ▸ List.prefix_refl _, fun _ => ⟨hphase, heq⟩⟩
  cases h with
  | ended _ | broke _ _ | unavailable _ | unanswered _ | disconnected _ | dropped _ =>
      exact hstop rfl rfl
  | rejected _ _ | refused _ _ =>
      refine hstop ?_ rfl
      simp [Task.reject, transmitted, bufferChange]
  | posted hp _ _ | updated hp _ _ =>
      have hread : reading t.phase = true := by rw [hp]; rfl
      exact hgo hread rfl
  | received hp | connected hp _ _ | registered hp _ | ponged hp =>
      have hread : reading t.phase = true := by rw [hp]; rfl
      refine hgo hread ?_
      simp only [outstanding, hread]
      rfl
  | authorized hp _ =>
      have hread : reading t.phase = true := by rw [hp]; rfl
      refine hgo hread ?_
      simp only [outstanding, hread]
      rfl
  | @responded a session_id hp =>
      have hread : reading t.phase = true := by rw [hp]; rfl
      refine hgo hread ?_
      have hgreeting : bufferChange
          (handshake_response a session_id config.vapid_public_key) = none := by
        cases a with
        | paired => rfl
        | authenticated => rfl
      have hgo' : reading (.running session_id a.client_id false) = true := rfl
      simp [transmitted, outstanding, hread, hgreeting, hgo']
  | @beat session_id client_id hp =>
      have hread : reading t.phase = true := by rw [hp]; rfl
      have hgo' : reading (.running session_id client_id true) = true := rfl
      refine hgo hread ?_
      simp only [transmitted, outstanding, hread, hgo', List.filterMap_cons, List.filterMap_nil,
        if_true]
      rfl
  | @forwarded command rest session_id client_id awaiting_pong hp hc =>
      have hread : reading t.phase = true := by rw [hp]; rfl
      refine hgo hread ?_
      cases command with
      | request => simp [transmitted, outstanding, hread, hc, bufferChange, ofRemoteCommand,
          changeOf, requestKey]
      | cancel => simp [transmitted, outstanding, hread, hc, bufferChange, ofRemoteCommand,
          changeOf]

/-- The answer an action of a task reads. -/
def readAnswer : TaskAction → List Key
  | .receive (some message) _ => (answerOf message).toList
  | _ => []

/-- A task posts the answer it reads, for its own session. -/
theorem acted_answers {config : SessionConfig} {p : PairingService} {stopped : Bool}
    {link : LinkId} {t : Task} {action : TaskAction} {r : TaskResult}
    (h : Acted config p stopped link t action r) (session : Option SessionId) :
    r.posted.filterMap (answerFor session) = [] ∨
      (session = Phase.session t.phase ∧
        r.posted.filterMap (answerFor session) = readAnswer action) := by
  cases h with
  | @posted message command saved session_id client_id awaiting_pong hp _ hc =>
      cases message with
      | agentResponse request_id attempt packet =>
          obtain rfl := Option.some.inj hc
          by_cases hs : session = some session_id
          · refine Or.inr ⟨?_, ?_⟩
            · rw [hp]
              exact hs
            · simp [answerFor, hs, readAnswer, answerOf]
          · exact Or.inl (by simp [answerFor, hs])
      | agentReady | agentLocked =>
          obtain rfl := Option.some.inj hc
          exact Or.inl rfl
      | pairRequest | authenticate | setPushSubscription | setIdentities | pong =>
          cases hc
  | connected _ _ _ => exact Or.inl rfl
  | disconnected _ =>
      cases stopped with
      | false => exact Or.inl rfl
      | true => exact Or.inl rfl
  | ended _ | received _ | broke _ _ | ponged _ | updated _ _ _ | rejected _ _ | authorized _ _
  | unavailable _ | registered _ _ | refused _ _ | responded _ | unanswered _ | forwarded _ _
  | beat _ | dropped _ => exact Or.inl rfl

/-- **Step lemma of a task.**  `up` is the upward wires once the step has read
    its message, if it reads one. -/
theorem synced_acted {config : SessionConfig} {n : Network} {id : ClientId} {link actor : LinkId}
    {action : TaskAction} {t : Task} {r : TaskResult} {up : LinkId → List ClientMessage}
    (h : Synced config n id link) (hs : Sessions n.server)
    (hfresh : (connectedIds n.server.broker.actor.calls).Nodup)
    (ht : n.server.tasks actor = some t)
    (hact : Acted config n.server.pairing n.server.broker.stopped actor t action r)
    (hup : ∀ other, (n.up other).filterMap answerOf
      = (if other = actor then readAnswer action else []) ++ (up other).filterMap answerOf) :
    Synced config (({ n with up := up } : Network).served { n.server with
      mailbox := n.server.mailbox ++ r.posted
      pairing := r.pairing
      tasks := Function.update n.server.tasks actor (some r.task) } r.outputs) id link := by
  generalize hn' : (({ n with up := up } : Network).served { n.server with
      mailbox := n.server.mailbox ++ r.posted
      pairing := r.pairing
      tasks := Function.update n.server.tasks actor (some r.task) } r.outputs) = n'
  have htasks : n'.server.tasks = Function.update n.server.tasks actor (some r.task) := by
    rw [← hn']
    rfl
  have hdown : n'.down link = n.down link ++ transmitted link r.outputs := by rw [← hn']; rfl
  have hanswers : answers n' link = (up link).filterMap answerOf
      ++ (n.server.mailbox ++ r.posted).filterMap (answerFor (sessionOf (n'.server.tasks link))) := by
    rw [← hn']
    rfl
  by_cases hl : link = actor
  · subst hl
    have htask : n'.server.tasks link = some r.task := by rw [htasks, Function.update_self]
    have hsession : sessionOf (n'.server.tasks link) = sessionOf (n.server.tasks link) := by
      rw [htask, ht, sessionOf, sessionOf, Option.bind_some, Option.bind_some,
        acted_keeps_reply hact]
    obtain ⟨hfirst, hsame⟩ := acted_stream hact
    have hstream : stream n' link = (n.down link).filterMap bufferChange
        ++ ((transmitted link r.outputs).filterMap bufferChange
          ++ (outstanding (some r.task)).map changeOf) := by
      rw [stream_eq, hdown, htask, List.filterMap_append, List.append_assoc]
    refine h.shrunk (by rw [← hn']; rfl) (by rw [← hn']; rfl) (by rw [← hn']; exact fun _ hr => hr)
      (by rw [← hn']; rfl) hsession ?_ ?_ ?_
    · rw [hstream, stream_eq, ht]
      exact (List.prefix_append_right_inj _).mpr hfirst
    · intro hread
      obtain ⟨hbefore, heq⟩ := hsame (hread r.task htask)
      refine ⟨(reading_iff ht).mpr hbefore, ?_⟩
      rw [hstream, heq, stream_eq, ht]
    · intro key
      have hread := hup link
      rw [if_pos rfl] at hread
      rw [hanswers, answers, hsession, hread, List.filterMap_append]
      simp only [List.count_append]
      rcases acted_answers hact (sessionOf (n.server.tasks link)) with hnone | ⟨_, hposted⟩
      · rw [hnone]
        have hzero : (([] : List Key)).count key = 0 := rfl
        omega
      · rw [hposted]
        omega
  · have htask : n'.server.tasks link = n.server.tasks link := by
      rw [htasks, Function.update_of_ne hl]
    have hnone : transmitted link r.outputs = [] := by
      refine List.eq_nil_iff_forall_not_mem.mpr ?_
      intro message hm
      exact hl (acted_sent hact (mem_transmitted.mp hm))
    have hstream : stream n' link = stream n link := by
      rw [stream, stream, hdown, hnone, List.append_nil, htask]
    refine h.shrunk (by rw [← hn']; rfl) (by rw [← hn']; rfl) (by rw [← hn']; exact fun _ hr => hr)
      (by rw [← hn']; rfl) (by rw [htask]) (by rw [hstream]) ?_ ?_
    · intro hread
      refine ⟨?_, hstream⟩
      intro t₀ ht₀
      exact hread t₀ (htask.trans ht₀)
    · intro key
      have hread := hup link
      rw [if_neg hl, List.nil_append] at hread
      rw [hanswers, answers, htask, hread, List.filterMap_append]
      rcases acted_answers hact (sessionOf (n.server.tasks link)) with hposted | ⟨hsame, hposted⟩
      · rw [hposted, List.append_nil]
      · cases hsession : sessionOf (n.server.tasks link) with
        | none =>
            rw [no_answers r.posted, List.append_nil]
        | some session_id =>
            -- no other link holds the session of this one
            rw [hsession] at hsame
            have hholds : Holds n.server actor session_id :=
              ⟨t, ht, hs.phases actor t session_id ht hsame.symm⟩
            exact absurd (hs.alone hfresh link actor session_id (holds_iff.mpr hsession) hholds) hl

/-! ## Turns of the broker -/

/-- A turn that is not about this link. -/
theorem Synced.bystander {config : SessionConfig} {n n' : Network} {id : ClientId} {link : LinkId}
    (h : Synced config n id link)
    (hids : ∀ rid ∈ submittedIds n.server.broker.actor.calls,
      rid ∈ submittedIds n'.server.broker.actor.calls)
    (hclient : n'.clients id = n.clients id)
    (hsession : sessionOf (n'.server.tasks link) = sessionOf (n.server.tasks link))
    (hstream : stream n' link = stream n link)
    (hanswers : ∀ key, (answers n' link).count key ≤ (answers n link).count key)
    (hnot : ∀ session_id, n'.server.broker.actor.remote = some (session_id, link) →
      ¬ Reading n'.server link) : Synced config n' id link := by
  have htransit : transit n' id link = transit n id link := by
    rw [transit, transit, hclient, hstream]
  have hplaces : ∀ key, places n' id link key ≤ places n id link key := by
    intro key
    have hle := hanswers key
    rw [places, places, hclient, htransit]
    omega
  refine ⟨?_, ?_, ?_, ?_, ?_, ?_⟩
  · rw [hclient, htransit]
    exact h.fits
  · exact fun key => Nat.le_trans (hplaces key) (h.once key)
  · exact fun key hkey => hids _ (h.known key (Nat.lt_of_lt_of_le hkey (hplaces key)))
  · intro hnone key
    have hzero := h.silent (hsession.symm.trans hnone) key
    have hle := hplaces key
    omega
  · exact fun session_id hr hread => absurd hread (hnot session_id hr)
  · exact fun session_id hr hread => absurd hread (hnot session_id hr)

/-- What a turn that announces an update to the link needs. -/
structure Announces (config : SessionConfig) (n n' : Network) (link : LinkId)
    (session_id : SessionId) (event : Event) (now : Instant) (effects : List Effect) : Prop where
  consistent : Consistent n.server.broker.actor.state
  pending : ∀ rid, n.server.broker.actor.state.pending.get? rid ≠ none →
    rid ∈ submittedIds n.server.broker.actor.calls
  fresh : ∀ rid, submittedId event = some rid → rid ∉ submittedIds n.server.broker.actor.calls
  recorded : submittedIds n'.server.broker.actor.calls
    = submittedIds n.server.broker.actor.calls ++ (submittedId event).toList
  applied : n.server.broker.actor.state.apply event now
    = (n'.server.broker.actor.state, .ok effects)
  session : n'.server.broker.actor.state.agent.session = some session_id
  capacity : ∀ capacity,
    n'.server.broker.actor.state.connected_remote = some (session_id, capacity) →
    capacity = config.remote_capacity
  before : sessionOf (n.server.tasks link) = none ∨
    n.server.broker.actor.remote = some (session_id, link)
  remote : n'.server.broker.actor.remote = some (session_id, link)
  holds : sessionOf (n'.server.tasks link) ≠ none
  reading : Reading n.server link
  stream : stream n' link = stream n link ++ changesTo session_id effects
  answers : ∀ key, (answers n' link).count key ≤ (answers n link).count key
  response : ∀ rid attempt packet, event = .response session_id rid attempt packet →
    (rid, attempt) ∈ RemoteBuffer.answers n link

section Announcing

variable {config : SessionConfig} {n n' : Network} {id : ClientId} {link : LinkId}
  {session_id : SessionId} {event : Event} {now : Instant} {effects : List Effect}

/-- What has a place is neither queued nor being submitted. -/
theorem Announces.placed (ha : Announces config n n' link session_id event now effects)
    (h : Synced config n id link) {key : Key} (hkey : 0 < places n id link key) :
    ¬ (Queued n.server.broker.actor.state key.1 ∨ submittedId event = some key.1) := by
  rintro (hqueued | hnew)
  · rcases ha.before with hnone | hr
    · have hzero := h.silent hnone key
      omega
    · exact h.waiting session_id hr ha.reading key hkey hqueued
  · exact ha.fresh key.1 hnew (h.known key hkey)

/-- What will be left in the buffer is in flight. -/
theorem Announces.landed (ha : Announces config n n' link session_id event now effects)
    (h : Synced config n id link)
    (hlegible : legible (framesOf link (n.clients id).receiving) = true) :
    replay (n.clients id).pending.keySet (transit n id link)
      ⊆ inFlightTags n.server.broker.actor.state session_id := by
  rcases ha.before with hnone | hr
  · intro key hkey
    have hzero := h.silent hnone key
    rw [places, held] at hzero
    rcases mem_replay hkey with hin | hin
    · rw [if_pos hin] at hzero
      omega
    · have hpos := List.count_pos_iff.mpr hin
      omega
  · exact h.flying session_id hr ha.reading hlegible

/-- A fresh submission is not pending. -/
theorem Announces.unsubmitted (ha : Announces config n n' link session_id event now effects)
    (rid : RequestId) (hrid : submittedId event = some rid) :
    n.server.broker.actor.state.pending.get? rid = none := by
  by_contra hne
  exact ha.fresh rid hrid (ha.pending rid hne)

/-- The update joins what is on its way, unless a frame hides it. -/
theorem Announces.joins (ha : Announces config n n' link session_id event now effects)
    (hclient : n'.clients id = n.clients id) :
    transit n' id link = transit n id link
      ++ if legible (framesOf link (n.clients id).receiving) then changesTo session_id effects
        else [] := by
  rw [transit, transit, hclient, ha.stream]
  split
  · exact (List.append_assoc ..).symm
  · exact (List.append_nil _).symm

/-- The update gives a place to nothing but what it dispatches. -/
theorem Announces.places_le (ha : Announces config n n' link session_id event now effects)
    (hclient : n'.clients id = n.clients id) {removed fresh : List Key}
    (hchanges : changesTo session_id effects = removed.map .remove ++ fresh.map .add) (key : Key) :
    places n' id link key ≤ places n id link key + fresh.count key := by
  have hadded : (added (if legible (framesOf link (n.clients id).receiving)
      then changesTo session_id effects else [])).count key ≤ fresh.count key := by
    split
    · rw [hchanges, added_update]
    · exact Nat.zero_le _
  have hle := ha.answers key
  rw [places, places, hclient, ha.joins hclient, added_append, List.count_append]
  omega

/-- **The replica takes the update**, and what it then comes to is in flight. -/
theorem Announces.takes (ha : Announces config n n' link session_id event now effects)
    (h : Synced config n id link)
    (hlegible : legible (framesOf link (n.clients id).receiving) = true) {removed fresh : List Key}
    (hu : Update n.server.broker.actor.state event n'.server.broker.actor.state session_id
      removed fresh) :
    Fits config.remote_capacity (replay (n.clients id).pending.keySet (transit n id link))
        (removed.map .remove ++ fresh.map .add) ∧
      replay (replay (n.clients id).pending.keySet (transit n id link))
        (removed.map .remove ++ fresh.map .add)
        ⊆ inFlightTags n'.server.broker.actor.state session_id := by
  have hcons' := consistent_apply ha.consistent ha.unsubmitted ha.applied
  refine fits_update h.fits.last ?_ ?_ hu.dispatched
  · have hconnected := ha.session
    rw [session_eq_connected] at hconnected
    obtain ⟨⟨active, capacity⟩, hc, rfl⟩ := Option.map_eq_some_iff.mp hconnected
    rw [← ha.capacity capacity hc]
    exact inFlightTags_bounded hcons' hc
  · intro key hkey hnot
    rcases hu.kept key (ha.landed h hlegible hkey) hnot with hin | ⟨packet, hevent⟩
    · exact hin
    · -- an answered tag is on its way back, so it is nowhere else
      have honce := h.once key
      have hback : 0 < (RemoteBuffer.answers n link).count key :=
        List.count_pos_iff.mpr (ha.response key.1 key.2 packet hevent)
      rw [places, held] at honce
      rcases mem_replay hkey with hin | hin
      · rw [if_pos hin] at honce
        omega
      · have hpos := List.count_pos_iff.mpr hin
        omega

/-- **Step lemma of an announcing turn.** -/
theorem synced_announced (ha : Announces config n n' link session_id event now effects)
    (h : Synced config n id link) (hclient : n'.clients id = n.clients id) :
    Synced config n' id link := by
  obtain ⟨removed, fresh, hchanges, hu⟩ :=
    apply_update ha.consistent ha.unsubmitted ha.applied ha.session
  have htransit := @Announces.joins _ _ _ id _ _ _ _ _ ha hclient
  have hplaces := @Announces.places_le _ _ _ id _ _ _ _ _ ha hclient _ _ hchanges
  rw [hchanges] at htransit
  -- what is dispatched now had no place before
  have hunplaced : ∀ key ∈ fresh, places n id link key = 0 := by
    intro key hkey
    by_contra hpos
    exact ha.placed h (Nat.pos_of_ne_zero hpos) (hu.waited key hkey)
  have hplaced : ∀ key, 0 < places n' id link key → 0 < places n id link key ∨ key ∈ fresh := by
    intro key hkey
    by_cases hin : key ∈ fresh
    · exact Or.inr hin
    · have hzero := List.count_eq_zero.mpr hin
      have hle := hplaces key
      exact Or.inl (by omega)
  refine ⟨?_, ?_, ?_, ?_, ?_, ?_⟩
  · rw [hclient, htransit, fits_append]
    refine ⟨h.fits, ?_⟩
    split
    · rename_i hlegible
      exact (ha.takes h hlegible hu).1
    · exact h.fits.last
  · intro key
    have hle := hplaces key
    by_cases hin : key ∈ fresh
    · have hzero := hunplaced key hin
      have hone := List.nodup_iff_count_le_one.mp hu.distinct key
      omega
    · have hzero := List.count_eq_zero.mpr hin
      have honce := h.once key
      omega
  · intro key hkey
    rw [ha.recorded]
    rcases hplaced key hkey with hold | hnew
    · exact List.mem_append_left _ (h.known key hold)
    · rcases hu.waited key hnew with ⟨p, hp, _⟩ | hsub
      · refine List.mem_append_left _ (ha.pending key.1 ?_)
        rw [hp]
        exact Option.some_ne_none p
      · rw [hsub]
        exact List.mem_append_right _ (List.mem_singleton.mpr rfl)
  · exact fun hnone => absurd hnone ha.holds
  · intro _ _ _ key hkey hqueued
    rcases hplaced key hkey with hold | hnew
    · exact ha.placed h hold (hu.queued key.1 hqueued)
    · obtain ⟨p, hp, hs⟩ := mem_inFlightTags.mp (hu.dispatched key hnew)
      obtain ⟨q, hq, hqs⟩ := hqueued
      obtain rfl := Option.some.inj (hp.symm.trans hq)
      cases hs.symm.trans hqs
  · intro active hr _ hlegible
    rw [hclient] at hlegible
    obtain ⟨rfl, _⟩ := Prod.mk.inj (Option.some.inj (ha.remote.symm.trans hr))
    rw [hclient, htransit, replay_append, if_pos hlegible]
    exact (ha.takes h hlegible hu).2

end Announcing

/-- A turn of the broker, seen from the network. -/
structure Turning (config : SessionConfig) (n n' : Network) (action : Action)
    (mailbox : List Command) (input : Input) (sends : Option Nat) (now : Instant)
    (out : List Output) : Prop where
  found : (∃ command session_id, input = .command command session_id ∧
      action = .command session_id sends now ∧ n.server.mailbox = command :: mailbox)
    ∨ ((∀ command session_id, input ≠ .command command session_id) ∧
      input ≠ .commandsClosed ∧ action = .turn input sends now ∧ mailbox = n.server.mailbox)
  allowed : n.server.sendsAllowed (n.server.channel input) sends = true
  stepped : n.server.broker.step ⟨input, now, sends⟩ = some (n'.server.broker, out)
  server : Stepped config n.server action n'.server (out.filterMap external)
  tasks : n'.server.tasks = dropDuring (deliver n.server.tasks out) (n.server.channel input) sends
  left : n'.server.mailbox = mailbox
  clients : n'.clients = n.clients
  up : n'.up = n.up
  down : n'.down = n.down

section Turns

variable {config : SessionConfig} {n n' : Network} {action : Action} {mailbox : List Command}
  {input : Input} {sends : Option Nat} {now : Instant} {out : List Output} {link : LinkId}

theorem Turning.mailbox_sublist (ht : Turning config n n' action mailbox input sends now out) :
    n'.server.mailbox.Sublist n.server.mailbox := by
  rw [ht.left]
  rcases ht.found with ⟨command, _, _, _, hmail⟩ | ⟨_, _, _, hmail⟩
  · rw [hmail]
    exact List.sublist_cons_self ..
  · rw [hmail]

/-- A turn gives a session to no link but that of the connect it handles, which
    had none. -/
theorem Turning.session (ht : Turning config n n' action mailbox input sends now out)
    (hreg : Registering n.server) :
    sessionOf (n'.server.tasks link) = sessionOf (n.server.tasks link) ∨
      ∃ capacity drawn t a, input = .command (.connect capacity link link) drawn ∧
        n.server.tasks link = some t ∧ t.phase = .awaiting a ∧
        sessionOf (n.server.tasks link) = none ∧
        (sessionOf (n'.server.tasks link) = some drawn ∨
          sessionOf (n'.server.tasks link) = none) := by
  cases htask : n.server.tasks link with
  | none =>
      refine Or.inl ?_
      cases htask' : n'.server.tasks link with
      | none => rfl
      | some t' =>
          rw [ht.tasks] at htask'
          obtain ⟨t, hold, _⟩ := turned_task_of ht.allowed htask'
          cases htask.symm.trans hold
  | some t =>
      obtain ⟨t', htask', hheard⟩ := turned_task out ht.allowed htask
      rw [← ht.tasks] at htask'
      rw [htask', sessionOf, sessionOf, Option.bind_some, Option.bind_some]
      rcases turned_reply hreg ht.found ht.stepped htask hheard with
        hsame | ⟨capacity, drawn, a, hin, hphase, hnone, hreply⟩
      · rw [hsame]
        exact Or.inl rfl
      · refine Or.inr ⟨capacity, drawn, t, a, hin, rfl, hphase, ?_, ?_⟩
        · rw [hnone]
        · rw [hreply]
          by_cases hagent : n.server.broker.actor.state.agent = .disconnected
          · rw [if_pos hagent]
            exact Or.inl rfl
          · rw [if_neg hagent]
            exact Or.inr rfl

/-- A turn takes answers out of the mailbox, and brings none. -/
theorem Turning.answers (ht : Turning config n n' action mailbox input sends now out)
    (hf : Faithful n) (hfair : Fair n') (key : Key) :
    (answers n' link).count key ≤ (answers n link).count key := by
  rw [RemoteBuffer.answers, RemoteBuffer.answers, ht.up, List.count_append, List.count_append]
  refine Nat.add_le_add_left ?_ _
  rcases ht.session hf.sessions.registering with
    hsame | ⟨capacity, drawn, _, _, hin, _, _, _, hnew | hnone⟩
  · rw [hsame]
    exact (ht.mailbox_sublist.filterMap _).count_le key
  · -- nobody can have answered for a session that was just drawn
    have hempty : n'.server.mailbox.filterMap (answerFor (some drawn)) = [] := by
      refine List.filterMap_eq_nil_iff.mpr ?_
      intro command hmem
      cases command with
      | connect | ready | locked | disconnected | shutdown => rfl
      | response session_id rid attempt packet =>
          refine if_neg ?_
          intro heq
          obtain rfl := Option.some.inj heq
          obtain ⟨other, hholds, _⟩ :=
            hf.posted drawn rid attempt packet (ht.mailbox_sublist.subset hmem)
          subst hin
          obtain ⟨c, more, hcalls, hevent⟩ := (step_causes ht.stepped).recorded _ rfl
          have hnodup := hfair.sessions
          rw [hcalls, connectedIds_append] at hnodup
          refine List.disjoint_of_nodup_append hnodup (hf.sessions.drawn other drawn hholds) ?_
          exact List.mem_filterMap.mpr ⟨c, List.mem_cons_self .., by rw [hevent]; rfl⟩
    rw [hnew, hempty]
    exact Nat.zero_le _
  · rw [hnone, no_answers]
    exact Nat.zero_le _

/-- The channel a fair turn sends on is the one it reckons with. -/
theorem Turning.channel (ht : Turning config n n' action mailbox input sends now out)
    (hfair : Fair n') {session_id : SessionId}
    (hr : remoteFor n.server.broker input = some (session_id, link)) :
    n.server.channel input = some link := by
  rw [remoteFor.eq_def] at hr
  split at hr
  · rename_i capacity outbound response drawn
    rw [if_pos (connect_accepted ht.stepped hfair.accepted rfl)] at hr
    obtain ⟨_, rfl⟩ := Prod.mk.inj (Option.some.inj hr)
    rfl
  · rename_i hne
    rw [Server.channel.eq_def]
    split
    · exact absurd rfl (hne _ _ _ _)
    · rw [hr]
      rfl

theorem Turning.submitted (ht : Turning config n n' action mailbox input sends now out) :
    ∀ rid ∈ submittedIds n.server.broker.actor.calls,
      rid ∈ submittedIds n'.server.broker.actor.calls := by
  intro rid hrid
  obtain ⟨c, hc, hid⟩ := List.mem_filterMap.mp hrid
  exact List.mem_filterMap.mpr ⟨c, (step_causes ht.stepped).continues.mem hc, hid⟩

/-- The commands a task will forward after a turn. -/
theorem Turning.outstanding (ht : Turning config n n' action mailbox input sends now out)
    {t : Task} (htask : n.server.tasks link = some t) :
    ∃ t', n'.server.tasks link = some t' ∧ reading t'.phase = reading t.phase ∧
      outstanding (some t') = outstanding (some t)
        ++ (if reading t.phase then sentTo link out else []) := by
  obtain ⟨t', htask', hheard⟩ := turned_task out ht.allowed htask
  rw [← ht.tasks] at htask'
  have hphase : reading t'.phase = reading t.phase := by
    rcases hheard.phase with hsame | ⟨hdone, hfin⟩
    · rw [hsame]
    · rcases hdone with hd | hd
      · rw [hd, hfin]
        rfl
      · rw [hd, hfin]
  refine ⟨t', htask', hphase, ?_⟩
  rw [RemoteBuffer.outstanding, RemoteBuffer.outstanding, hphase, hheard.commands]
  split
  · rfl
  · rfl

/-- The update a fair turn announces to the link it has a session with. -/
theorem Turning.announces (ht : Turning config n n' action mailbox input sends now out)
    (hf : Faithful n) (hset : Settled n.server.broker.actor) (hfair : Fair n')
    (hgranted : ∀ capacity ∈ recorded connectedCapacity n'.server.broker.actor.calls,
      capacity = config.remote_capacity)
    {event : Event} {effects : List Effect} {session_id : SessionId} {t : Task}
    (htask : n.server.tasks link = some t) (hread : reading t.phase = true)
    (he : eventFor n.server.broker ⟨input, now, sends⟩ = some event)
    (hap : n.server.broker.actor.state.apply event now
      = (n'.server.broker.actor.state, .ok effects))
    (hlinked : n'.server.broker.actor.remote.map Prod.fst
      = n'.server.broker.actor.state.agent.session)
    (hsent : sentTo link out = heardOn n'.server.broker.actor.remote link effects)
    (hremote : n'.server.broker.actor.remote = some (session_id, link)) :
    Announces config n n' link session_id event now effects := by
  have hcauses := step_causes ht.stepped
  obtain ⟨hcons, hpending⟩ := run_consistent hset.run hset.fresh
  have hfound : remoteFor n.server.broker input = some (session_id, link) := by
    rcases hcauses.remote with hsame | hnone
    · exact hsame.symm.trans hremote
    · cases hnone.symm.trans hremote
  have hrecorded : submittedIds n'.server.broker.actor.calls
      = submittedIds n.server.broker.actor.calls ++ (submittedId event).toList := by
    have hrec := step_recorded (f := submittedId) (fun _ => rfl) ht.stepped
    rw [he, Option.bind_some] at hrec
    exact hrec
  have hholds : Holds n'.server link session_id :=
    (sessions_step hf.sessions ht.server).remote session_id link hremote
  -- either this turn registers the link, or it had the session before
  have hbefore : sessionOf (n.server.tasks link) = none ∨
      n.server.broker.actor.remote = some (session_id, link) := by
    rw [remoteFor.eq_def] at hfound
    split at hfound
    · rename_i capacity outbound response drawn
      rw [if_pos (connect_accepted ht.stepped hfair.accepted rfl)] at hfound
      obtain ⟨_, rfl⟩ := Prod.mk.inj (Option.some.inj hfound)
      obtain ⟨rfl, _, t₀, _, ht₀, _, hnone⟩ :=
        hf.sessions.registering.oldest (step_running ht.stepped) (fed_command ht.found rfl).2
      refine Or.inl ?_
      rw [ht₀, sessionOf, Option.bind_some, hnone]
    · exact Or.inr hfound
  refine ⟨hcons, hpending, ?_, hrecorded, hap, ?_, ?_, hbefore, hremote, ?_, ?_, ?_,
    ht.answers hf hfair, ?_⟩
  · intro rid hrid hmem
    have hnodup := hfair.requests
    rw [hrecorded, hrid] at hnodup
    exact List.disjoint_of_nodup_append hnodup hmem (List.mem_singleton.mpr rfl)
  · rw [← hlinked, hremote]
    rfl
  · intro capacity hc
    exact hgranted capacity (run_capacity (hcauses.continues.run hset.run) hc)
  · rw [holds_iff.mp hholds]
    exact Option.some_ne_none session_id
  · exact (reading_iff htask).mpr hread
  · obtain ⟨t', htask', _, hout⟩ := ht.outstanding htask
    rw [stream_eq, stream_eq, ht.down, htask', htask, hout, if_pos hread, hsent, hremote,
      List.map_append, ← List.append_assoc, heardOn, if_pos rfl]
    rfl
  · rintro rid attempt packet rfl
    obtain ⟨drawn, hin⟩ := eventFor_response he
    rcases hbefore with hnone | hr
    · -- the link was not registered by this turn, so it had the session
      rcases ht.session hf.sessions.registering with hsame | ⟨_, _, _, _, hconnect, _⟩
      · have hsession := holds_iff.mp hholds
        rw [hsame, hnone] at hsession
        cases hsession
      · cases hin.symm.trans hconnect
    · have hsession := holds_iff.mp (hf.sessions.remote session_id link hr)
      refine List.mem_append_right _
        (List.mem_filterMap.mpr ⟨.response session_id rid attempt packet, ?_, ?_⟩)
      · rw [(fed_command ht.found hin).2]
        exact List.mem_cons_self ..
      · rw [hsession]
        exact if_pos rfl

/-- A turn changes no session but that of the connect it handles. -/
theorem Turning.session_kept (ht : Turning config n n' action mailbox input sends now out)
    (hreg : Registering n.server)
    (hne : ∀ capacity drawn, input ≠ .command (.connect capacity link link) drawn) :
    sessionOf (n'.server.tasks link) = sessionOf (n.server.tasks link) := by
  rcases ht.session hreg with hsame | ⟨capacity, drawn, _, _, hin, _⟩
  · exact hsame
  · exact absurd hin (hne capacity drawn)

/-- The channel of a task that reads is not dropped while the turn sends on it. -/
theorem Turning.unbroken {t : Task} (ht : Turning config n n' action mailbox input sends now out)
    (htask : n.server.tasks link = some t) (hread : reading t.phase = true)
    (hch : n.server.channel input = some link) : sends = none := by
  have hallowed := ht.allowed
  rw [Server.sendsAllowed, hch] at hallowed
  simp only [Option.bind_some, htask] at hallowed
  split at hallowed
  · rename_i hp
    rw [hp] at hread
    cases hread
  · rename_i hp
    rw [hp] at hread
    cases hread
  · exact of_decide_eq_true hallowed

/-- A turn sends on its own channel only. -/
theorem Turning.unsent (ht : Turning config n n' action mailbox input sends now out)
    (hfair : Fair n') (hch : n.server.channel input ≠ some link) : sentTo link out = [] := by
  refine List.eq_nil_iff_forall_not_mem.mpr ?_
  intro command hmem
  obtain ⟨_, _, hfound, _⟩ := (step_causes ht.stepped).sent link command (mem_sentTo.mp hmem)
  exact hch (ht.channel hfair hfound)

/-- A turn gives no task to a link without one. -/
theorem Turning.absent (ht : Turning config n n' action mailbox input sends now out)
    (htask : n.server.tasks link = none) : n'.server.tasks link = none := by
  refine Option.eq_none_iff_forall_ne_some.mpr ?_
  intro t' ht'
  rw [ht.tasks] at ht'
  obtain ⟨t, hold, _⟩ := turned_task_of ht.allowed ht'
  cases htask.symm.trans hold

/-- An accepted connect leaves its link the active one. -/
theorem Turning.connects (ht : Turning config n n' action mailbox input sends now out)
    (hfair : Fair n') {event : Event} {effects : List Effect} {capacity : Nat}
    {drawn : SessionId} (he : eventFor n.server.broker ⟨input, now, sends⟩ = some event)
    (hap : n.server.broker.actor.state.apply event now
      = (n'.server.broker.actor.state, .ok effects))
    (hlinked : n'.server.broker.actor.remote.map Prod.fst
      = n'.server.broker.actor.state.agent.session)
    (hin : input = .command (.connect capacity link link) drawn) :
    n'.server.broker.actor.remote = some (drawn, link) := by
  subst hin
  obtain rfl := Option.some.inj he
  rw [apply_session hap] at hlinked
  obtain ⟨⟨active, outbound⟩, hsome, _⟩ := Option.map_eq_some_iff.mp hlinked
  rcases (step_causes ht.stepped).remote with hfound | hnot
  · refine hfound.trans ?_
    exact if_pos (connect_accepted ht.stepped hfair.accepted rfl)
  · cases hnot.symm.trans hsome

/-- **Step lemma of a turn.** -/
theorem synced_turned {id : ClientId}
    (ht : Turning config n n' action mailbox input sends now out) (hf : Faithful n)
    (hset : Settled n.server.broker.actor) (hfair : Fair n')
    (hgranted : ∀ capacity ∈ recorded connectedCapacity n'.server.broker.actor.calls,
      capacity = config.remote_capacity)
    (h : Synced config n id link) : Synced config n' id link := by
  have hclient : n'.clients id = n.clients id := by rw [ht.clients]
  have hholds : ∀ session_id, n'.server.broker.actor.remote = some (session_id, link) →
      Holds n'.server link session_id :=
    fun session_id => (sessions_step hf.sessions ht.server).remote session_id link
  -- whoever is not on the turn's channel gets nothing and has no session with it
  have haside : stream n' link = stream n link →
      (∀ session_id, n'.server.broker.actor.remote = some (session_id, link) →
        ¬ Reading n'.server link) →
      sessionOf (n'.server.tasks link) = sessionOf (n.server.tasks link) →
      Synced config n' id link :=
    fun hstream hnot hsession =>
      h.bystander ht.submitted hclient hsession hstream (ht.answers hf hfair) hnot
  cases htask : n.server.tasks link with
  | none =>
      have htask' := ht.absent htask
      refine haside ?_ ?_ ?_
      · rw [stream, stream, ht.down, htask', htask]
      · intro session_id hr
        obtain ⟨t, hsome, _⟩ := hholds session_id hr
        cases htask'.symm.trans hsome
      · rw [htask', htask]
  | some t =>
      obtain ⟨t', htask', hphase, hout⟩ := ht.outstanding htask
      have hstream : (if reading t.phase then sentTo link out else []) = [] →
          stream n' link = stream n link := by
        intro hnone
        rw [stream, stream, ht.down, htask', htask, hout, hnone, List.append_nil]
      -- the connect of this link would be on its own channel
      have hsession : (∀ capacity drawn, input ≠ .command (.connect capacity link link) drawn) →
          sessionOf (n'.server.tasks link) = sessionOf (n.server.tasks link) :=
        ht.session_kept hf.sessions.registering
      cases hread : reading t.phase with
      | false =>
          refine haside (hstream (by rw [hread]; rfl)) ?_ ?_
          · intro _ _ hr
            cases hread.symm.trans (hphase.symm.trans ((reading_iff htask').mp hr))
          · rcases ht.session hf.sessions.registering with hsame | ⟨_, _, t₀, a, _, ht₀, hp, _⟩
            · exact hsame
            · obtain rfl := Option.some.inj (htask.symm.trans ht₀)
              rw [hp] at hread
              cases hread
      | true =>
          by_cases hch : n.server.channel input = some link
          · have hsends : sends = none := ht.unbroken htask hread hch
            cases step_announced hset ht.stepped hfair.accepted hsends with
            | silent he hstate hremote hsent =>
                have hsame : stream n' link = stream n link :=
                  hstream (by rw [hread, hsent]; rfl)
                refine h.shrunk hremote hstate ht.submitted hclient ?_ (by rw [hsame]) ?_
                  (ht.answers hf hfair)
                · refine hsession ?_
                  rintro capacity drawn rfl
                  cases he
                · exact fun _ => ⟨(reading_iff htask).mpr hread, hsame⟩
            | @applied event effects he hap hlinked hsent =>
                by_cases hr : ∃ session_id,
                    n'.server.broker.actor.remote = some (session_id, link)
                · obtain ⟨session_id, hr⟩ := hr
                  exact synced_announced (ht.announces hf hset hfair hgranted htask hread he hap
                    hlinked (hsent link) hr) h hclient
                · have hnone : sentTo link out = [] :=
                    (hsent link).trans (heardOn_elsewhere (not_exists.mp hr) effects)
                  refine haside (hstream (by rw [hread, hnone]; rfl)) ?_ ?_
                  · exact fun session_id hsome => absurd ⟨session_id, hsome⟩ hr
                  · refine hsession ?_
                    intro capacity drawn hin
                    exact hr ⟨drawn, ht.connects hfair he hap hlinked hin⟩
          · have hnone : sentTo link out = [] := ht.unsent hfair hch
            refine haside (hstream (by rw [hread, hnone]; rfl)) ?_ ?_
            · intro session_id hr
              rcases (step_causes ht.stepped).remote with hfound | hnot
              · exact absurd (ht.channel hfair (hfound.symm.trans hr)) hch
              · cases hnot.symm.trans hr
            · refine hsession ?_
              rintro capacity drawn rfl
              exact hch rfl

end Turns

/-! ## Steps of the server -/

theorem Fair.before {n n' : Network} (h : Fair n')
    (hc : Continues n.server.broker.actor n'.server.broker.actor) : Fair n := by
  obtain ⟨more, hcalls, _⟩ := hc
  refine ⟨?_, ?_, ?_⟩
  · intro c hc
    refine h.accepted c ?_
    rw [hcalls]
    exact List.mem_append_left _ hc
  · have hnodup := h.requests
    rw [hcalls, submittedIds, List.filterMap_append] at hnodup
    exact (List.nodup_append.mp hnodup).1
  · have hnodup := h.sessions
    rw [hcalls, connectedIds_append] at hnodup
    exact (List.nodup_append.mp hnodup).1

/-- A fair turn leaves the broker settled, unless it stops. -/
theorem settled_turned {b b' : Broker} {t : Turn} {outputs : List Output}
    (hb : b.step t = some (b', outputs)) (hset : Settled b.actor)
    (hok : AllOk b'.actor.calls) (hfresh : (submittedIds b'.actor.calls).Nodup)
    (hrun : b'.stopped = false) : Settled b'.actor := by
  have hsound : Sound (submittedIds b.actor.calls) b := by
    refine ⟨rfl, fun _ => hset, ?_⟩
    intro hstopped
    cases hstopped.symm.trans (step_running hb)
  refine (step_sound hb ?_ ?_ hsound).2.1 hrun
  · intro event he hover
    rw [connectEvent.eq_def] at he
    split at he
    · rename_i capacity outbound response session_id hin
      obtain rfl := Option.some.inj he
      exact hover.2.1 (connect_accepted hb hok hin)
    · cases he
  · intro rid hrid hmem
    have hrec := step_recorded (f := submittedId) (fun _ => rfl) hb
    rw [eventFor_submits, hrid] at hrec
    change submittedIds b'.actor.calls = submittedIds b.actor.calls ++ [rid] at hrec
    rw [hrec] at hfresh
    exact List.disjoint_of_nodup_append hfresh hmem (List.mem_singleton.mpr rfl)

/-- What an action reads from a link's wire. -/
def readBy (link : LinkId) : Action → List Key
  | .task actor action => if link = actor then readAnswer action else []
  | _ => []

theorem guarded_turned {config : SessionConfig} {n n' : Network} {action : Action}
    {mailbox : List Command} {input : Input} {sends : Option Nat} {now : Instant}
    {out : List Output} (ht : Turning config n n' action mailbox input sends now out)
    (hf : Faithful n) (h : Guarded config n) (hfair : Fair n') : Guarded config n' := by
  have hset := h.settled (step_running ht.stepped)
  have hgranted : ∀ capacity ∈ recorded connectedCapacity n'.server.broker.actor.calls,
      capacity = config.remote_capacity := by
    intro capacity hc
    rw [step_recorded (f := connectedCapacity) (fun _ => rfl) ht.stepped, List.mem_append] at hc
    rcases hc with hold | hnew
    · exact h.granted capacity hold
    · obtain ⟨event, he, hcap⟩ := Option.bind_eq_some_iff.mp (Option.mem_toList.mp hnew)
      -- only a connect from the mailbox offers a capacity
      rw [eventFor.eq_def] at he
      rcases ht.found with ⟨command, drawn, rfl, _, hmail⟩ | ⟨hne, _⟩
      · cases command with
        | connect offered outbound response =>
            obtain rfl := Option.some.inj he
            obtain rfl := Option.some.inj hcap
            refine h.offered offered outbound response ?_
            rw [hmail]
            exact List.mem_cons_self ..
        | ready | locked | disconnected | response =>
            obtain rfl := Option.some.inj he
            cases hcap
        | shutdown => cases he
      · cases input with
        | command command drawn => exact absurd rfl (hne command drawn)
        | localRequest | cancelled | deadline =>
            obtain rfl := Option.some.inj he
            cases hcap
        | localClosed | commandsClosed => cases he
  refine ⟨?_, ?_, hgranted, ?_, ?_⟩
  · exact settled_turned ht.stepped hset hfair.accepted hfair.requests
  · intro capacity outbound response hmem
    exact h.offered capacity outbound response (ht.mailbox_sublist.subset hmem)
  · rw [ht.clients]
    exact h.calm
  · intro id link hs hchain
    rw [ht.clients] at hs hchain
    exact synced_turned ht hf hset hfair hgranted (h.synced id link hs hchain)

theorem stream_untouched (n : Network) (server : Server) (htasks : server.tasks = n.server.tasks)
    (link : LinkId) : stream (n.served server []) link = stream n link := by
  rw [stream, stream]
  change ((n.down link ++ []) ++ (outstanding (server.tasks link)).map ofRemoteCommand).filterMap
    bufferChange = _
  rw [htasks, List.append_nil]

/-- A new task has neither a session nor commands. -/
theorem synced_accepted {config : SessionConfig} {n : Network} {id : ClientId}
    {link other : LinkId} {t₀ : Task} (h : Synced config n id link)
    (hnone : n.server.tasks other = none) (hsession : sessionOf (some t₀) = none)
    (hempty : outstanding (some t₀) = []) :
    Synced config (n.served { n.server with
      tasks := Function.update n.server.tasks other (some t₀) } []) id link := by
  have htask : sessionOf (Function.update n.server.tasks other (some t₀) link)
        = sessionOf (n.server.tasks link) ∧
      outstanding (Function.update n.server.tasks other (some t₀) link)
        = outstanding (n.server.tasks link) := by
    by_cases hl : link = other
    · subst hl
      rw [Function.update_self, hnone]
      exact ⟨hsession, hempty⟩
    · rw [Function.update_of_ne hl]
      exact ⟨rfl, rfl⟩
  have hstream : stream (n.served { n.server with
      tasks := Function.update n.server.tasks other (some t₀) } []) link = stream n link := by
    rw [stream_eq, stream_eq]
    change ((n.down link ++ []).filterMap bufferChange ++ (outstanding
      (Function.update n.server.tasks other _ link)).map changeOf) = _
    rw [htask.2, List.append_nil]
  refine h.shrunk rfl rfl (fun _ hr => hr) rfl htask.1 (hstream ▸ List.prefix_refl _) ?_ ?_
  · intro hreading
    refine ⟨?_, hstream⟩
    intro t ht
    have hne : link ≠ other := by
      rintro rfl
      cases hnone.symm.trans ht
    exact hreading t ((Function.update_of_ne hne ..).trans ht)
  · intro key
    rw [answers, answers]
    change ((n.up link).filterMap answerOf ++ n.server.mailbox.filterMap (answerFor (sessionOf
      (Function.update n.server.tasks other _ link)))).count key ≤ _
    rw [htask.1]

/-- A connect offers the configured capacity. -/
theorem acted_offered {config : SessionConfig} {p : PairingService} {stopped : Bool}
    {link : LinkId} {t : Task} {act : TaskAction} {r : TaskResult}
    (hact : Acted config p stopped link t act r) {capacity : Nat} {outbound : ChannelId}
    {response : ResponseId} (hposted : .connect capacity outbound response ∈ r.posted) :
    capacity = config.remote_capacity := by
  cases hact with
  | connected _ _ _ =>
      obtain ⟨rfl, _⟩ := Command.connect.inj (List.mem_singleton.mp hposted)
      rfl
  | @posted message command saved session_id _ _ _ _ hc =>
      obtain rfl := List.mem_singleton.mp hposted
      cases message with
      | agentReady | agentLocked | agentResponse => cases Option.some.inj hc
      | pairRequest | authenticate | setPushSubscription | setIdentities | pong => cases hc
  | disconnected _ =>
      dsimp only at hposted
      split at hposted
      · cases hposted
      · cases (List.mem_singleton.mp hposted)
  | ended _ | received _ | broke _ _ | ponged _ | updated _ _ _ | rejected _ _
  | authorized _ _ | unavailable _ | registered _ _ | refused _ _ | responded _
  | unanswered _ | forwarded _ _ | beat _ | dropped _ => cases hposted

/-- A shutdown in the mailbox answers nothing. -/
theorem synced_stopping {config : SessionConfig} {n : Network} {id : ClientId} {link : LinkId}
    (h : Synced config n id link) (response : ResponseId) :
    Synced config (n.served { n.server with
      mailbox := n.server.mailbox ++ [.shutdown response] } []) id link := by
  have hstream := stream_untouched n { n.server with
    mailbox := n.server.mailbox ++ [.shutdown response] } rfl link
  refine h.shrunk rfl rfl (fun _ hr => hr) rfl rfl (hstream ▸ List.prefix_refl _)
    (fun hr => ⟨hr, hstream⟩) ?_
  intro key
  change ((n.up link).filterMap answerOf
    ++ (n.server.mailbox ++ [Command.shutdown response]).filterMap
    (answerFor (sessionOf (n.server.tasks link)))).count key ≤ _
  rw [List.filterMap_append]
  show ((n.up link).filterMap answerOf ++ (n.server.mailbox.filterMap
    (answerFor (sessionOf (n.server.tasks link))) ++ [])).count key ≤ _
  rw [List.append_nil]
  exact Nat.le_refl _

/-- **Step lemma of the server.**  `up` is the upward wires once the step has read
    its message, if it reads one. -/
theorem guarded_served {config : SessionConfig} {n : Network} {action : Action} {server : Server}
    {outputs : List ServerOutput} {up : LinkId → List ClientMessage} (hf : Faithful n)
    (h : Fair n → Guarded config n) (hs : Stepped config n.server action server outputs)
    (hread : ∀ link, (n.up link).filterMap answerOf
      = readBy link action ++ (up link).filterMap answerOf)
    (hsame : (∀ link act, action ≠ .task link act) → up = n.up)
    (hfair : Fair (({ n with up := up } : Network).served server outputs)) :
    Guarded config (({ n with up := up } : Network).served server outputs) := by
  have hbefore : Fair n := hfair.before (stepped_continues hs)
  have hg := h hbefore
  have hstep := hs
  cases hs with
  | @accepted other hnone =>
      obtain rfl := hsame (fun _ _ he => by cases he)
      refine ⟨hg.settled, hg.offered, hg.granted, hg.calm, ?_⟩
      intro id link hsocket hchain
      exact synced_accepted (hg.synced id link hsocket hchain) hnone rfl rfl
  | @acted actor act t r ht hact =>
      refine ⟨hg.settled, ?_, hg.granted, hg.calm, ?_⟩
      · intro capacity outbound response hmem
        rcases List.mem_append.mp hmem with hold | hnew
        · exact hg.offered capacity outbound response hold
        · exact acted_offered hact hnew
      · intro id link hsocket hchain
        exact synced_acted (hg.synced id link hsocket hchain) hf.sessions hbefore.sessions ht hact
          hread
  | @turned _ mailbox input sends now broker out hinput hallowed hb =>
      have hup : up = n.up := by
        refine hsame ?_
        rintro link act rfl
        rcases hinput with ⟨_, _, _, hact, _⟩ | ⟨_, _, hact, _⟩
        · cases hact
        · cases hact
      subst hup
      have hquiet : ∀ link, transmitted link (out.filterMap external) = [] := by
        intro link
        refine List.eq_nil_iff_forall_not_mem.mpr ?_
        intro message hm
        obtain ⟨b, _, hb⟩ := List.mem_filterMap.mp (mem_transmitted.mp hm)
        exact external_ne_sent link message b hb
      refine guarded_turned ⟨hinput, hallowed, hb, hstep, rfl, rfl, rfl, rfl, ?_⟩ hf hg hfair
      funext link
      show n.down link ++ transmitted link (out.filterMap external) = n.down link
      rw [hquiet, List.append_nil]
  | @cleared saved =>
      obtain rfl := hsame (fun _ _ he => by cases he)
      refine ⟨hg.settled, hg.offered, hg.granted, hg.calm, ?_⟩
      intro id link hsocket hchain
      have hstream := stream_untouched n { n.server with
        pairing := (n.server.pairing.clear saved).1 } rfl link
      exact (hg.synced id link hsocket hchain).shrunk rfl rfl (fun _ hr => hr) rfl rfl
        (hstream ▸ List.prefix_refl _) (fun hr => ⟨hr, hstream⟩) (fun _ => Nat.le_refl _)
  | @stopping response _ =>
      obtain rfl := hsame (fun _ _ he => by cases he)
      refine ⟨hg.settled, ?_, hg.granted, hg.calm, ?_⟩
      · intro capacity outbound response hmem
        rcases List.mem_append.mp hmem with hold | hnew
        · exact hg.offered capacity outbound response hold
        · cases (List.mem_singleton.mp hnew)
      · intro id link hsocket hchain
        exact synced_stopping (hg.synced id link hsocket hchain) response

/-! ## Runs -/

/-- What every network reached satisfies. -/
def Buffered (config : SessionConfig) (n : Network) : Prop :=
  Faithful n ∧ (Fair n → Guarded config n)

theorem buffered_new (config : SessionConfig) (broker : BrokerConfig) (pairing : PairingService) :
    Buffered config (Network.new broker pairing) :=
  ⟨faithful_new broker pairing, fun _ => guarded_new config broker pairing⟩

theorem client_buffered {config : SessionConfig}
    (hcap : config.remote_capacity ≤ MAX_PENDING_REQUESTS) (env : Environment) :
    ClientPreserves env (Buffered config) where
  pushed := by
    intro n id socket message rest frame w hg h hdown hcarries hw hopen
    refine ⟨(client_faithful env).pushed hg h.1 hdown hcarries hw hopen, ?_⟩
    intro hfair
    exact guarded_pushed hg (h.2 ⟨hfair.accepted, hfair.requests, hfair.sessions⟩) hdown hcarries hw
  took := by
    intro n id received rest t hg h hr hidle ht
    refine ⟨(client_faithful env).took hg h.1 hr hidle ht, ?_⟩
    intro hfair
    exact guarded_took hcap (h.2 ⟨hfair.accepted, hfair.requests, hfair.sessions⟩) hr hidle ht
  moved := by
    intro n id o t hg h hm hfree
    refine ⟨(client_faithful env).moved hg h.1 hm hfree, ?_⟩
    intro hfair
    exact guarded_moved hg (h.2 ⟨hfair.accepted, hfair.requests, hfair.sessions⟩) hm hfree

theorem server_buffered (config : SessionConfig) : ServerPreserves config (Buffered config) where
  heard := by
    intro n link message saved rest server outputs hg h hup hs
    refine ⟨(server_faithful config).heard hg h.1 hup hs, ?_⟩
    refine guarded_served h.1 h.2 hs ?_ (fun hne => absurd rfl (hne link _))
    intro other
    by_cases hl : other = link
    · subst hl
      rw [Function.update_self, hup]
      show ([message] ++ rest).filterMap answerOf
        = (if other = other then ([message].filterMap answerOf) else []) ++ rest.filterMap answerOf
      rw [if_pos rfl, List.filterMap_append]
    · rw [Function.update_of_ne hl]
      show _ = (if other = link then readAnswer _ else []) ++ _
      rw [if_neg hl, List.nil_append]
  served := by
    intro n action server outputs hg h hrec hacc hs
    refine ⟨(server_faithful config).served hg h.1 hrec hacc hs, ?_⟩
    refine guarded_served h.1 h.2 hs ?_ (fun _ => rfl)
    intro link
    -- an action that reads no message leaves the wires as they are
    have hnone : readBy link action = [] := by
      cases action with
      | task actor act =>
          show (if link = actor then readAnswer act else []) = []
          split
          · cases act with
            | receive input saved =>
                cases input with
                | none => rfl
                | some message => exact absurd rfl (hrec actor message saved)
            | _ => rfl
          · rfl
      | _ => rfl
    rw [hnone, List.nil_append]

/-- **The buffer never overflows.**  Where the session's capacity is at most the
    client's limit, along every run with fresh ids in which no connect was refused,
    each client buffers at most that many requests, and no enqueue throws: neither
    for a duplicate nor for a full buffer. -/
theorem buffer_within_capacity {config : SessionConfig} {env : Environment}
    {ok : Network → NetworkAction → Prop} {broker : BrokerConfig} {pairing : PairingService}
    {h : List (NetworkAction × List NetworkOutput)} {n : Network}
    (hr : NetworkRun config env ok broker pairing h n)
    (hcap : config.remote_capacity ≤ MAX_PENDING_REQUESTS)
    (haccepted : AllOk n.server.broker.actor.calls)
    (hrequests : (submittedIds n.server.broker.actor.calls).Nodup)
    (hsessions : (connectedIds n.server.broker.actor.calls).Nodup) (id : ClientId) :
    (n.clients id).pending.len ≤ config.remote_capacity ∧
      ∀ socket cause, (n.clients id).chain = .failing socket cause → overflows cause = false := by
  obtain ⟨_, _, hguarded⟩ := run_preserves (client_buffered hcap env) (server_buffered config)
    (buffered_new config broker pairing) hr
  have hcalm := (hguarded ⟨haccepted, hrequests, hsessions⟩).calm id
  exact ⟨hcalm.bounded, hcalm.failing⟩

/-- A caller's request is dispatched, and the phone receives it. -/
def askForSignature (id : RequestId) (response : ResponseId) : List NetworkAction :=
  [.server (.turn (.localRequest ⟨[13], none, response⟩ id 0) none 1),
   .server (.task 1 (.forward true)),
   .client 0 (.message 1 (.message (.agentRequest ⟨id, 1, 0, 0, [13], none⟩))),
   .client 0 (.receive 0)]

/-- The phone holds four requests, answers the first, and the caller of the second gives
    up; neither the answer nor the cancel has arrived. -/
def askFourTimes : List NetworkAction :=
  pairPhone ++
  [.client 0 (.setReady true),
   .server (.task 1 (.receive (some (.setIdentities [])) true)),
   .server (.task 1 (.receive (some .agentLocked) true)),
   .server (.task 1 (.receive (some .agentReady) true)),
   .server (.command ⟨0⟩ none 1), .server (.command ⟨0⟩ none 1)] ++
  askForSignature ⟨1⟩ 5 ++ askForSignature ⟨2⟩ 6 ++ askForSignature ⟨3⟩ 7 ++
  askForSignature ⟨4⟩ 8 ++
  [.client 0 (.resolved 0 [99]), .server (.turn (.cancelled ⟨2⟩) none 1),
   .server (.task 1 (.forward true))]

theorem buffer_holds_requests :
    ((anyOutcome askFourTimes).2.clients 0).pending.len = 3 ∧
    (anyOutcome askFourTimes).2.up 1 = [.agentResponse ⟨1⟩ 1 [99]] ∧
    (anyOutcome askFourTimes).2.down 1 = [.cancelRequest ⟨2⟩ 1] ∧
    ((anyOutcome askFourTimes).2.clients 0).pending.len ≤ plainConfig.remote_capacity ∧
    ∀ socket cause, ((anyOutcome askFourTimes).2.clients 0).chain = .failing socket cause →
      overflows cause = false := by
  have hrun : NetworkRun plainConfig plainEnvironment AnyStep ⟨5, 8⟩ unpaired
      (anyOutcome askFourTimes).1 (anyOutcome askFourTimes).2 :=
    run_outcome (Network.step plainConfig plainEnvironment) AnyStep askFourTimes
      (by decide +kernel)
  refine ⟨by decide +kernel, by decide +kernel, by decide +kernel, ?_⟩
  exact buffer_within_capacity hrun (by decide) (by decide +kernel) (by decide +kernel)
    (by decide +kernel) 0

end RemoteBuffer
