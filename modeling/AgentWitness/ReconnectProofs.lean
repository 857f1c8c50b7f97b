import AgentWitness.LifecycleProofs

/-! # Who is charged with the next attempt

    While a session is active, has an endpoint and shows that it connects, somebody
    must be CHARGED with the next attempt: a socket, an armed retry timer, an
    `#open` of the current generation, or a `forgetPairing` that will open again
    once its deletion has settled.

    Every way to lose a socket passes the charge on, with one exception.
    `forgetPairing` tears the connection down before it looks at the endpoint, and
    opens again only when the deletion succeeds and was about the session's own
    endpoint.  Otherwise nobody is charged. -/

namespace Reconnect

open Packet KeyedMap BrokerTask RemoteProtocol RemoteClient ClientFlow Transition Lifecycle

/-- The session is meant to be connected and shows that it is not yet. -/
def Wanting (s : RemoteSession) : Prop :=
  s.active = true ∧ s.target ≠ none ∧
    (s.snapshot.status = .connecting ∨ s.snapshot.status = .reconnecting)

/-- Somebody is charged with the next attempt. -/
def Charged (s : RemoteSession) : Prop :=
  s.socket ≠ none ∨ s.retryTimer = true ∨ s.opens.get? s.generation ≠ none ∨ s.forgets ≠ []

instance (s : RemoteSession) : Decidable (Wanting s) :=
  inferInstanceAs (Decidable (_ ∧ _ ∧ _))

instance (s : RemoteSession) : Decidable (Charged s) :=
  inferInstanceAs (Decidable (_ ∨ _ ∨ _ ∨ _))

/-- A deletion that settles gives the charge back: it has succeeded for the
    session's own endpoint, or the session wants no attempt, or somebody else is
    charged with it. -/
def GivesBack (s : RemoteSession) : ClientAction → Prop
  | .deleted endpoint error =>
      (error = none ∧ s.endpoint = some endpoint) ∨ ¬ Wanting s ∨ s.socket ≠ none ∨
        s.retryTimer = true ∨ s.opens.get? s.generation ≠ none ∨ s.forgets.erase endpoint ≠ []
  | _ => True

instance (s : RemoteSession) : (action : ClientAction) → Decidable (GivesBack s action)
  | .deleted _ _ => inferInstanceAs (Decidable (_ ∨ _ ∨ _ ∨ _ ∨ _ ∨ _))
  | .connect _ _ | .setActive _ | .forgetPairing _ | .setReady _ | .registerPushSubscription _
  | .setIdentities _ | .retry | .loaded _ _ _ | .opened _ | .message _ _ | .errored _
  | .closing _ | .closed _ | .receive _ | .saved _ | .caught | .resolved _ _ | .rejected _ _
  | .handlerCaught _ => inferInstanceAs (Decidable True)

/-- An endpoint comes with a label, and a wanting session is charged. -/
structure Pursued (s : RemoteSession) : Prop where
  labelled : s.endpoint ≠ none → s.label ≠ none
  charged : Wanting s → Charged s

theorem pursued_new : Pursued RemoteSession.new where
  labelled := fun h => absurd rfl h
  charged := by
    rintro ⟨_, htarget, _⟩
    exact absurd rfl htarget

/-! ## Methods -/

theorem wanting_congr {s t : RemoteSession} (h : linkOf t = linkOf s) :
    Wanting t ↔ Wanting s := by
  rw [Wanting, Wanting, RemoteSession.target, RemoteSession.target,
    show t.active = s.active from congrArg Link.active h,
    show t.endpoint = s.endpoint from congrArg Link.endpoint h,
    show t.snapshot.status = s.snapshot.status from congrArg Link.status h]

theorem charged_congr {s t : RemoteSession} (h : linkOf t = linkOf s) :
    Charged t ↔ Charged s := by
  rw [Charged, Charged, show t.socket = s.socket from congrArg Link.socket h,
    show t.retryTimer = s.retryTimer from congrArg Link.retryTimer h,
    show t.opens = s.opens from congrArg Link.opens h,
    show t.generation = s.generation from congrArg Link.generation h,
    show t.forgets = s.forgets from congrArg Link.forgets h]

theorem Pursued.congr {s t : RemoteSession} (hp : Pursued s) (h : linkOf t = linkOf s) :
    Pursued t where
  labelled := by
    rw [show t.endpoint = s.endpoint from congrArg Link.endpoint h,
      show t.label = s.label from congrArg Link.label h]
    exact hp.labelled
  charged := by
    rw [wanting_congr h, charged_congr h]
    exact hp.charged

theorem target_endpoint {s : RemoteSession} (h : s.target ≠ none) : s.endpoint ≠ none := by
  intro he
  rw [RemoteSession.target, he] at h
  exact h rfl

/-- **`#open` takes the charge**, whatever the session was charged with before. -/
theorem openSocket_pursued {s : RemoteSession} (hl : s.endpoint ≠ none → s.label ≠ none) :
    Pursued s.openSocket.1 := by
  rcases openSocket_cases s with ⟨heq, hagainst⟩ | ⟨opening, _, heq⟩
  · rw [heq]
    refine ⟨hl, ?_⟩
    rintro ⟨hactive, htarget, _⟩
    rcases hagainst with h | h | h | h
    · exact absurd h htarget
    · exact absurd h (hl (target_endpoint htarget))
    · cases hactive.symm.trans h
    · exact Or.inl h
  · rw [heq]
    refine ⟨hl, fun _ => Or.inr (Or.inr (Or.inl ?_))⟩
    show (s.opens.insert (s.generation + 1) opening).get? (s.generation + 1) ≠ none
    rw [get?_insert, if_pos rfl]
    exact Option.some_ne_none _

/-- A session that does not want an attempt owes none. -/
theorem pursued_of_content {s : RemoteSession} (hl : s.endpoint ≠ none → s.label ≠ none)
    (hn : ¬ Wanting s) : Pursued s :=
  ⟨hl, fun h => absurd h hn⟩

theorem connect_pursued {env : Environment} {s : RemoteSession} (hp : Pursued s)
    (endpoint label : String) : Pursued (s.connect env endpoint label).1 := by
  rw [RemoteSession.connect]
  split
  · exact hp
  · rename_i href _
    refine openSocket_pursued (fun _ => ?_)
    have hgone := restart_gone { s with
      endpoint := some href, label := some label, active := true } .connecting
    rw [hgone.label]
    exact Option.some_ne_none label

theorem setActive_pursued {s : RemoteSession} (hp : Pursued s) (active : Bool) :
    Pursued (s.setActive active).1 := by
  rw [RemoteSession.setActive]
  split
  · rename_i hended
    refine pursued_of_content hp.labelled ?_
    rintro ⟨_, _, hwant⟩
    change s.snapshot.status = .rejected ∨ s.snapshot.status = .error at hended
    change s.snapshot.status = .connecting ∨ s.snapshot.status = .reconnecting at hwant
    rcases hended with h | h <;> rcases hwant with h' | h' <;> cases h.symm.trans h'
  · split
    · split
      · rename_i hbusy
        exact ⟨hp.labelled, fun _ => Or.inl (Option.isSome_iff_ne_none.mp hbusy)⟩
      · exact openSocket_pursued hp.labelled
    · rename_i hinactive
      have hgone := restart_gone { s with active := active }.stopRetry .reconnecting
      refine pursued_of_content ?_ ?_
      · rw [hgone.endpoint, hgone.label]
        exact hp.labelled
      · rintro ⟨hactive, _⟩
        rw [hgone.active] at hactive
        exact hinactive hactive

theorem forgetPairing_pursued {env : Environment} {s : RemoteSession} (hp : Pursued s)
    (endpoint : String) : Pursued (s.forgetPairing env endpoint).1 := by
  rw [RemoteSession.forgetPairing]
  split
  · exact hp
  · rename_i normalized _
    have hgone := restart_gone s .reconnecting
    refine ⟨?_, fun _ => Or.inr (Or.inr (Or.inr (List.cons_ne_nil _ _)))⟩
    show (s.restart .reconnecting).1.endpoint ≠ none → (s.restart .reconnecting).1.label ≠ none
    rw [hgone.endpoint, hgone.label]
    exact hp.labelled

/-- The load of an `#open` settles.  An older one changes nothing; the current one
    yields a socket, an error or, for an inactive session, nothing. -/
theorem loaded_pursued {s s' : RemoteSession} {generation : Nat} {opening : Opening}
    {pairing : Except String (Option PairingRecord)} {created : Except String SocketId}
    {outputs : List ClientOutput} (hp : Pursued s)
    (h : LoadSettled { s with opens := s.opens.erase generation } generation opening pairing
      created s' outputs) : Pursued s' := by
  have hbroken : ∀ error, Pursued (({ s with opens := s.opens.erase generation }
      : RemoteSession).setSnapshot (detached .error (some error))) := by
    intro error
    refine pursued_of_content hp.labelled ?_
    rintro ⟨_, _, hwant | hwant⟩
    · cases hwant
    · cases hwant
  have hstale : generation ≠ s.generation →
      Pursued { s with opens := s.opens.erase generation } := by
    intro hg
    refine ⟨hp.labelled, fun hwant => ?_⟩
    have hget : (s.opens.erase generation).get? s.generation = s.opens.get? s.generation := by
      rw [get?_erase, if_neg (Ne.symm hg)]
    have hcharged : Charged s := hp.charged hwant
    rw [Charged, ← hget] at hcharged
    exact hcharged
  cases h with
  | ignored hagainst =>
      by_cases hg : generation = s.generation
      · refine ⟨hp.labelled, fun hwant => ?_⟩
        rcases hagainst with hne | hinactive | hbusy
        · exact absurd hg hne
        · exact absurd hwant.1 hinactive
        · exact Or.inl (Option.isSome_iff_ne_none.mp hbusy)
      · exact hstale hg
  | broken error _ => exact hbroken error
  | adopted _ _ _ => exact ⟨hp.labelled, fun _ => Or.inl (Option.some_ne_none _)⟩

/-- A deletion settles. -/
theorem deleted_pursued {s s' : RemoteSession} {endpoint : String}
    {error : Option String} {outputs : List ClientOutput} (hp : Pursued s)
    (hok : GivesBack s (.deleted endpoint error))
    (h : DeletionSettled { s with forgets := s.forgets.erase endpoint } endpoint error s'
      outputs) : Pursued s' := by
  -- where nothing is opened, the others charged with an attempt remain
  have hkept : (¬ Wanting s ∨ s.socket ≠ none ∨ s.retryTimer = true ∨
      s.opens.get? s.generation ≠ none ∨ s.forgets.erase endpoint ≠ []) →
      Pursued { s with forgets := s.forgets.erase endpoint } := by
    intro hfree
    exact ⟨hp.labelled, fun hwant => hfree.resolve_left (not_not.mpr hwant)⟩
  cases h with
  | failed error => exact hkept (hok.resolve_left (fun hno => by cases hno.1))
  | reopened _ => exact openSocket_pursued hp.labelled
  | left hother =>
      refine hkept ?_
      rcases hok with ⟨_, hsame⟩ | hfree
      · exact Or.inl (fun hwant => hother ⟨hsame, hwant.1⟩)
      · exact hfree

/-! ## Runs -/

/-- A lost socket leaves a timer behind. -/
theorem lost_pursued {s t : RemoteSession} {socket : SocketId} (hp : Pursued t)
    (hs : t.socket = some socket) (heq : s = (t.connectionLost socket).1) : Pursued s := by
  have hgone := connectionLost_gone hs
  rw [← heq] at hgone
  refine ⟨?_, ?_⟩
  · rw [hgone.endpoint, hgone.label]
    exact hp.labelled
  · rintro ⟨hactive, htarget, _⟩
    refine Or.inr (Or.inl ?_)
    rw [RemoteSession.connectionLost, if_pos hs] at heq
    change s = RemoteSession.scheduleRetry _ at heq
    generalize RemoteSession.closeWebSocket _ _ = u at heq
    rcases scheduleRetry_cases u with ⟨hretry, hagainst⟩ | hretry
    · rw [← hretry, ← heq] at hagainst
      rcases hagainst with h | h | h
      · cases hactive.symm.trans h
      · exact h
      · exact absurd h htarget
    · rw [heq, hretry]

/-- **Step lemma.** -/
theorem step_pursued {env : Environment} {s s' : RemoteSession} {action : ClientAction}
    {outputs : List ClientOutput} (hp : Pursued s) (hok : GivesBack s action)
    (h : s.step env action = some (s', outputs)) : Pursued s' := by
  cases step_lived h with
  | called hcall _ =>
      cases client_step_cases h with
      | connect endpoint label => exact connect_pursued hp endpoint label
      | setActive active => exact setActive_pursued hp active
      | forgetPairing endpoint => exact forgetPairing_pursued hp endpoint
      | retry _ => exact openSocket_pursued hp.labelled
      | loaded _ hload => exact loaded_pursued hp hload
      | deleted _ hdeleted => exact deleted_pursued hp hok hdeleted
      | _ => cases hcall
  | tended ht _ => exact hp.congr ht.link
  | @finished _ t socket status error ht hs hst =>
      have hcur : t.socket = some socket := ht.socket.trans hs
      have hgone := finish_gone hcur status error
      refine pursued_of_content ?_ ?_
      · rw [hgone.endpoint, hgone.label]
        exact (hp.congr ht.link).labelled
      · rintro ⟨_, _, hwant⟩
        rw [RemoteSession.finish, if_pos hcur] at hwant
        change status = .connecting ∨ status = .reconnecting at hwant
        rcases hst with rfl | rfl
        · exact hwant.elim (by rintro ⟨⟩) (by rintro ⟨⟩)
        · exact hwant.elim (by rintro ⟨⟩) (by rintro ⟨⟩)
  | @answered token _ packet _ _ _ _ _ heq =>
      exact hp.congr (answered_tended (.resolved token packet) heq).link
  | lost ht hs => exact lost_pursued (hp.congr ht.link) (ht.socket.trans hs) rfl
  | greeted _ _ ht _ =>
      refine pursued_of_content ?_ ?_
      · rw [show s'.endpoint = s.endpoint from congrArg Link.endpoint ht.link,
          show s'.label = s.label from congrArg Link.label ht.link]
        exact hp.labelled
      · rintro ⟨_, _, hwant⟩
        rw [show s'.snapshot.status = .connected from congrArg Link.status ht.link] at hwant
        exact hwant.elim (by rintro ⟨⟩) (by rintro ⟨⟩)

/-- **Never stuck.**  In every run of a session in which each deletion that settles
    gives the charge back, a session that is active, has an endpoint and shows that
    it connects or reconnects has a socket, an armed timer, an `#open` of the current
    generation or an awaited deletion. -/
theorem wanting_session_charged {env : Environment} {h : History}
    {s : RemoteSession} (hr : SessionRun env GivesBack h s) (hwant : Wanting s) : Charged s := by
  have hpursued : Pursued s := by
    refine Transition.Run.invariant hr Pursued pursued_new ?_
    rintro s ⟨action, turn⟩ s' hp ⟨hok, hstep⟩
    exact step_pursued hp hok (watch_step hstep).1
  exact hpursued.charged hwant

/-- The session connects and its own pairing is forgotten. -/
def forgetOwn : List ClientAction :=
  [.connect "wss://home/" "phone", .forgetPairing "wss://home/", .deleted "wss://home/" none]

/-- Its own pairing is forgotten: the session wants an attempt, and an `#open` is
    charged with it. -/
theorem wanting_session_charged_forgotten :
    Wanting (outcome (watch plainBrowser) GivesBack RemoteSession.new forgetOwn).2 ∧
      Charged (outcome (watch plainBrowser) GivesBack RemoteSession.new forgetOwn).2 := by
  have hrun : SessionRun plainBrowser GivesBack
      (outcome (watch plainBrowser) GivesBack RemoteSession.new forgetOwn).1
      (outcome (watch plainBrowser) GivesBack RemoteSession.new forgetOwn).2 :=
    run_outcome (watch plainBrowser) GivesBack forgetOwn (by decide)
  have hwant : Wanting (outcome (watch plainBrowser) GivesBack RemoteSession.new forgetOwn).2 := by
    decide
  exact ⟨hwant, wanting_session_charged hrun hwant⟩

/-- The session is connecting while the pairing of another endpoint is forgotten. -/
def forgetOther : List ClientAction :=
  [.connect "wss://home/" "phone", .forgetPairing "wss://office/", .deleted "wss://office/" none]

/-- **Nobody is charged.**  Forgetting another endpoint's pairing tears the
    connection down, and once the deletion has succeeded the session is stuck: it is
    active, shows `reconnecting`, and has neither socket nor timer, neither an `#open`
    nor a deletion to wait for. -/
theorem forgetting_other_endpoint_strands :
    let r := outcome (watch plainBrowser) AnyAction RemoteSession.new forgetOther
    SessionRun plainBrowser AnyAction r.1 r.2 ∧ Wanting r.2 ∧ ¬ Charged r.2 :=
  ⟨run_outcome (watch plainBrowser) AnyAction forgetOther (by decide), by decide, by decide⟩

end Reconnect
