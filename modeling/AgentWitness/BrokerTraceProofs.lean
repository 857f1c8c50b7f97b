import AgentWitness.BrokerLedgerProofs

/-! # Where the broker's outputs come from

    What a turn of the actor puts on its channels has a CAUSE in the record of
    its model calls.  A request on an outbound channel was dispatched to the
    session of that channel, and it carries the packet submitted under its id.  A
    packet answered to a caller is that of the response which the turn handles,
    and the tag of the response was in flight.

    Nothing here assumes that calls succeed.  A refused connect loses the effects
    of an expiry, but it invents none. -/

namespace BrokerTrace

open Packet KeyedMap BrokerModel BrokerInvariant BrokerCompletion BrokerCorrelation BrokerTask
open BrokerLedger Transition

/-! ## Tags along all runs -/

/-- **A tag in flight is the latest dispatch**, whether or not calls were
    refused. -/
theorem run_tags {max_pending_requests : Nat} {h : List Call} {s : BrokerState}
    (hr : BrokerRun max_pending_requests h s) (hf : (submittedIds h).Nodup) {id : RequestId}
    {session_id : SessionId} {attempt : UInt32} (hin : InFlight s id session_id attempt) :
    LatestDispatch id session_id attempt (history h) := by
  induction hr with
  | nil => exact absurd hin (not_in_flight_of_none rfl)
  | @snoc h s s' c hr hstep ih =>
      have ih := ih (fresh_of_snoc hf)
      obtain ⟨event, now, result⟩ := c
      rw [history_snoc]
      cases result with
      | error e =>
          -- only a connect is refused, and the expiry it keeps gives no tag
          obtain ⟨rfl, hh⟩ := apply_error hstep
          obtain ⟨session, capacity, rfl, _⟩ := handle_error hh
          have hold := ((expire_in_flight s now id session_id attempt).mp hin).2
          exact since_append.mpr (Or.inr ⟨fun a ha => by
            rw [List.mem_singleton.mp ha]
            exact trivial, ih hold⟩)
      | ok effects =>
          have hcons := (run_consistent hr (fresh_of_snoc hf)).1
          rcases (apply_tags hcons (fresh_not_pending hr hf) hstep id session_id attempt).mp hin with
            hnew | ⟨hkeep, hold⟩
          · exact since_append.mpr (Or.inl hnew)
          · exact since_append.mpr (Or.inr ⟨hkeep, ih hold⟩)

/-! ## Packets -/

/-- The packet was submitted under this id. -/
def Submits (h : List Call) (id : RequestId) (packet : Bytes) : Prop :=
  ∃ c ∈ h, ∃ context deadline requested_at deadline_timestamp,
    c.event = .submit id packet context deadline requested_at deadline_timestamp

theorem Submits.mono {h h' : List Call} {id : RequestId} {packet : Bytes}
    (hs : Submits h id packet) (hsub : ∀ c ∈ h, c ∈ h') : Submits h' id packet := by
  obtain ⟨c, hc, hevent⟩ := hs
  exact ⟨c, hsub c hc, hevent⟩

/-- Under fresh ids a packet is determined by its id. -/
theorem Submits.unique {h : List Call} (hf : (submittedIds h).Nodup) {id : RequestId}
    {packet packet' : Bytes} (hs : Submits h id packet) (hs' : Submits h id packet') :
    packet = packet' := by
  obtain ⟨c, hc, context, deadline, requested_at, stamp, hevent⟩ := hs
  obtain ⟨c', hc', context', deadline', requested_at', stamp', hevent'⟩ := hs'
  have hfirst : SubmittedAs h id ⟨packet, context, deadline, requested_at, stamp⟩ := ⟨c, hc, hevent⟩
  have hsecond : SubmittedAs h id ⟨packet', context', deadline', requested_at', stamp'⟩ :=
    ⟨c', hc', hevent'⟩
  exact congrArg Submission.packet (hfirst.unique hf hsecond)

/-- **Packets are the submitted ones**, in the pending requests and in every
    dispatch. -/
theorem run_packets {max_pending_requests : Nat} {h : List Call} {s : BrokerState}
    (hr : BrokerRun max_pending_requests h s) :
    (∀ id p, s.pending.get? id = some p → Submits h id p.packet) ∧
      ∀ session_id id attempt requested_at deadline packet context,
        Effect.dispatch session_id id attempt requested_at deadline packet context ∈ emitted h →
        Submits h id packet := by
  constructor
  · intro id p hp
    obtain ⟨c, hc, hevent⟩ := run_submitted hr id p hp
    exact ⟨c, hc, _, _, _, _, hevent⟩
  · intro session_id id attempt requested_at deadline packet context he
    obtain ⟨_, c, hc, hevent⟩ := run_dispatch_submitted hr he
    exact ⟨c, hc, _, _, _, _, hevent⟩

/-! ## What executing effects outputs -/

/-- The command an effect sends, with the session it is for. -/
def outgoing : Effect → Option (SessionId × RemoteCommand)
  | .dispatch session_id request_id attempt requested_at deadline packet context =>
      some (session_id, .request request_id attempt requested_at deadline packet context)
  | .cancel session_id request_id attempt => some (session_id, .cancel request_id attempt)
  | .wakeRequired _ | .complete _ _ => none

/-- What executing one effect puts on the channels. -/
inductive Emits (x : Exec) : Effect → List Output → Prop where
  | silent {e} : Emits x e []
  | sent {e session_id outbound command} : x.actor.remote = some (session_id, outbound) →
      outgoing e = some (session_id, command) → Emits x e [.sent outbound command]
  | woke {request} : Emits x (.wakeRequired request) [.woke request]
  | answered {request_id result response} : x.actor.waiters.get? request_id = some response →
      Emits x (.complete request_id result) [.answered response result]

theorem send_outputs (x : Exec) (session_id : SessionId) (command : RemoteCommand) :
    (x.send session_id command).1.outputs = x.outputs ∨
      ∃ outbound, x.actor.remote = some (session_id, outbound) ∧
        (x.send session_id command).1.outputs = x.outputs ++ [.sent outbound command] := by
  rw [Exec.send]
  cases hr : x.actor.remote with
  | none => exact Or.inl rfl
  | some r =>
      obtain ⟨active, outbound⟩ := r
      by_cases ha : active = session_id
      · subst ha
        have hsent : ∀ sends, ({ x.emit (.sent outbound command) with sends := sends } : Exec).outputs
            = x.outputs ++ [.sent outbound command] := fun _ => rfl
        dsimp only
        rw [if_pos rfl]
        split
        · exact Or.inr ⟨outbound, rfl, hsent x.sends⟩
        · exact Or.inl rfl
        · exact Or.inr ⟨outbound, rfl, hsent _⟩
      · dsimp only
        rw [if_neg ha]
        exact Or.inl rfl

theorem executeEffect_outputs (now : Instant) (x : Exec) (e : Effect) :
    ∃ o, (x.executeEffect now e).1.outputs = x.outputs ++ o ∧ Emits x e o := by
  have hnil : x.outputs = x.outputs ++ [] := (List.append_nil _).symm
  have hsend : ∀ session_id command, outgoing e = some (session_id, command) →
      ∃ o, (x.send session_id command).1.outputs = x.outputs ++ o ∧ Emits x e o := by
    intro session_id command he
    rcases send_outputs x session_id command with hsame | ⟨outbound, hr, hsent⟩
    · exact ⟨[], hsame.trans hnil, .silent⟩
    · exact ⟨_, hsent, .sent hr he⟩
  cases e with
  | dispatch session_id request_id attempt requested_at deadline packet context =>
      simp only [Exec.executeEffect]
      split
      · exact hsend _ _ rfl
      · exact hsend _ _ rfl
  | cancel session_id request_id attempt => exact hsend _ _ rfl
  | wakeRequired request => exact ⟨_, rfl, .woke⟩
  | complete request_id result =>
      cases hw : x.actor.waiters.get? request_id with
      | none =>
          simp only [Exec.executeEffect, hw]
          exact ⟨[], hnil, .silent⟩
      | some response =>
          simp only [Exec.executeEffect, hw]
          exact ⟨_, rfl, .answered hw⟩

/-- The loop invariant of `execute` for causes: `R` is the channel and `W` are the
    waiters when it began, with the effects `initial`. -/
structure Traced (R : Option (SessionId × ChannelId)) (W : Map RequestId ResponseId)
    (initial : List Effect) (x : Exec) (work : List Effect) : Prop where
  remote : x.actor.remote = R ∨ x.actor.remote = none
  waiting : ∀ id response, x.actor.waiters.get? id = some response → W.get? id = some response
  issued : ∀ e ∈ work, dispatchSession e ≠ none → e ∈ emitted x.actor.calls
  answers : ∀ id packet, Effect.complete id (.ok packet) ∈ work →
    .complete id (.ok packet) ∈ initial
  sent : ∀ outbound command, Output.sent outbound command ∈ x.outputs →
    ∃ session_id e, R = some (session_id, outbound) ∧ outgoing e = some (session_id, command) ∧
      (dispatchSession e ≠ none → e ∈ emitted x.actor.calls)
  answered : ∀ response packet, Output.answered response (.ok packet) ∈ x.outputs →
    ∃ id, W.get? id = some response ∧ .complete id (.ok packet) ∈ initial

/-- Expiry and reconciliation answer nobody with a packet: a successful call does
    so for the response it is given, if that is in flight. -/
theorem apply_answers {s s' : BrokerState} {event : Event} {now : Instant}
    {effects : List Effect} (ha : s.apply event now = (s', .ok effects)) {id : RequestId}
    {packet : Bytes} (he : .complete id (.ok packet) ∈ effects) :
    ∃ session_id attempt, event = .response session_id id attempt packet ∧
      InFlight (s.expire now).1 id session_id attempt := by
  obtain ⟨t, own, hh, _, rfl⟩ := apply_ok ha
  rcases List.mem_append.mp he with hfirst | hreconcile
  · rcases List.mem_append.mp hfirst with hexpire | hown
    · exact absurd hexpire not_answer_of_expire
    · cases handle_cases hh with
      | full _ => cases (Effect.complete.inj (List.mem_singleton.mp hown)).2
      | @answered session_id request_id attempt _ p hp hs =>
          obtain ⟨rfl, hpacket⟩ := Effect.complete.inj (List.mem_singleton.mp hown)
          obtain rfl := Except.ok.inj hpacket
          exact ⟨session_id, attempt, rfl, p, hp, hs⟩
      | cancelled _ =>
          rcases mem_dropEffects hown with heq | ⟨_, _, _, heq⟩
          · cases (Effect.complete.inj heq).2
          · cases heq
      | admitted _ | connected _ | ready _ | locked _ | disconnected _ | ignored _ =>
          cases hown
  · rcases reconcile_kind hreconcile with hd | ⟨w, heq⟩
    · exact absurd rfl hd
    · cases heq

section Executed

variable {now : Instant} {a a' : BrokerActor} {e : Effect} {pushed : List Effect}

/-- The record of calls only grows. -/
theorem executed_emitted (h : Executed now a e a' pushed) {d : Effect} (hd : d ∈ emitted a.calls) :
    d ∈ emitted a'.calls := by
  cases h with
  | lost _ =>
      rw [emitted_snoc]
      exact List.mem_append_left _ hd
  | sent | stopped | woke | answered _ | unknown _ => exact hd

theorem executed_remote (h : Executed now a e a' pushed) :
    a'.remote = a.remote ∨ a'.remote = none := by
  cases h with
  | lost _ => exact Or.inr rfl
  | sent | stopped | woke | answered _ | unknown _ => exact Or.inl rfl

theorem executed_waiters (h : Executed now a e a' pushed) {id : RequestId} {response : ResponseId}
    (hget : a'.waiters.get? id = some response) : a.waiters.get? id = some response := by
  cases h with
  | @answered request_id _ _ _ =>
      have hne : id ≠ request_id := by
        rintro rfl
        rw [get?_erase_self] at hget
        cases hget
      rwa [get?_erase_of_ne _ hne] at hget
  | lost _ | sent | stopped | woke | unknown _ => exact hget

/-- What is pushed is recorded and answers nobody with a packet. -/
theorem executed_pushed (h : Executed now a e a' pushed) {d : Effect} (hd : d ∈ pushed) :
    d ∈ emitted a'.calls ∧ ∀ id packet, d ≠ .complete id (.ok packet) := by
  cases h with
  | lost hap =>
      constructor
      · rw [emitted_snoc]
        exact List.mem_append_right _ hd
      · rintro id packet rfl
        obtain ⟨_, _, heq, _⟩ := apply_answers hap hd
        cases heq
  | sent | stopped | woke | answered _ | unknown _ => cases hd

end Executed

/-- **Step lemma of the loop.** -/
theorem traced_step {R : Option (SessionId × ChannelId)} {W : Map RequestId ResponseId}
    {initial : List Effect} {now : Instant} {x : Exec} {e : Effect} {rest : List Effect}
    (h : Traced R W initial x (e :: rest)) :
    Traced R W initial (x.executeEffect now e).1 (rest ++ (x.executeEffect now e).2) := by
  obtain ⟨o, hout, hemits⟩ := executeEffect_outputs now x e
  have hexec := executeEffect_cases now x e
  refine ⟨?_, ?_, ?_, ?_, ?_, ?_⟩
  · rcases executed_remote hexec with hsame | hnone
    · rw [hsame]
      exact h.remote
    · exact Or.inr hnone
  · exact fun id response hget => h.waiting id response (executed_waiters hexec hget)
  · intro d hd hsession
    rcases List.mem_append.mp hd with hd | hd
    · exact executed_emitted hexec (h.issued d (List.mem_cons_of_mem _ hd) hsession)
    · exact (executed_pushed hexec hd).1
  · intro id packet hd
    rcases List.mem_append.mp hd with hd | hd
    · exact h.answers id packet (List.mem_cons_of_mem _ hd)
    · exact absurd rfl ((executed_pushed hexec hd).2 id packet)
  · intro outbound command ho
    rw [hout] at ho
    rcases List.mem_append.mp ho with ho | ho
    · obtain ⟨session_id, d, hR, hd, hissued⟩ := h.sent outbound command ho
      exact ⟨session_id, d, hR, hd, fun hs => executed_emitted hexec (hissued hs)⟩
    · cases hemits with
      | sent hr he =>
          obtain ⟨rfl, rfl⟩ := Output.sent.inj (List.mem_singleton.mp ho)
          have hR := h.remote.resolve_right (by rw [hr]; exact Option.some_ne_none _)
          exact ⟨_, e, hR.symm.trans hr, he,
            fun hs => executed_emitted hexec (h.issued e (List.mem_cons_self ..) hs)⟩
      | silent => cases ho
      | woke | answered _ => cases (List.mem_singleton.mp ho)
  · intro response packet ho
    rw [hout] at ho
    rcases List.mem_append.mp ho with ho | ho
    · exact h.answered response packet ho
    · cases hemits with
      | @answered request_id _ _ hw =>
          obtain ⟨rfl, rfl⟩ := Output.answered.inj (List.mem_singleton.mp ho)
          exact ⟨request_id, h.waiting _ _ hw, h.answers _ _ (List.mem_cons_self ..)⟩
      | silent => cases ho
      | woke | sent _ _ => cases (List.mem_singleton.mp ho)

/-! ## Turns of the actor -/

/-- The model calls made between two states of the actor. -/
def Continues (a a' : BrokerActor) : Prop :=
  ∃ more, a'.calls = a.calls ++ more ∧ Run Applied a.state more a'.state

theorem Continues.refl (a : BrokerActor) : Continues a a := ⟨[], (List.append_nil _).symm, .nil⟩

/-- A record of calls that is a run continues to be one. -/
theorem Continues.run {a a' : BrokerActor} (h : Continues a a') {max_pending_requests : Nat}
    (hr : BrokerRun max_pending_requests a.calls a.state) :
    BrokerRun max_pending_requests a'.calls a'.state := by
  obtain ⟨more, hcalls, hmore⟩ := h
  rw [hcalls]
  exact hr.append hmore

theorem Continues.mem {a a' : BrokerActor} (h : Continues a a') {c : Call} (hc : c ∈ a.calls) :
    c ∈ a'.calls := by
  obtain ⟨more, hcalls, _⟩ := h
  rw [hcalls]
  exact List.mem_append_left _ hc

theorem Continues.emitted {a a' : BrokerActor} (h : Continues a a') {e : Effect}
    (he : e ∈ BrokerCompletion.emitted a.calls) : e ∈ BrokerCompletion.emitted a'.calls := by
  obtain ⟨c, hc, he⟩ := List.mem_flatMap.mp he
  exact List.mem_flatMap.mpr ⟨c, h.mem hc, he⟩

theorem execute_continues {a : BrokerActor} {x : Exec} (h : Continues a x.actor)
    (effects : List Effect) (now : Instant) : Continues a (x.execute effects now).actor := by
  refine execute_invariant now ?_ h effects
  intro b e b' pushed hexec hb
  cases hexec with
  | @lost session_id _ _ _ _ _ _ s' pushed hap =>
      obtain ⟨more, hcalls, hrun⟩ := hb
      have hcall : Applied b.state ⟨.disconnected session_id, now, .ok pushed⟩ s' := hap
      have hmore : Run Applied a.state (more ++ [⟨.disconnected session_id, now, .ok pushed⟩]) s' :=
        .snoc hrun hcall
      refine ⟨_, ?_, hmore⟩
      show b.calls ++ _ = _
      rw [hcalls, List.append_assoc]
  | sent | stopped | woke | answered _ | unknown _ => exact hb

/-- What one event of the model causes, from the channel `R` and the waiters `W`
    it finds. -/
structure Causes (R : Option (SessionId × ChannelId)) (W : Map RequestId ResponseId)
    (a : BrokerActor) (event : Event) (y : Exec) : Prop where
  continues : Continues a y.actor
  recorded : ∃ c more, y.actor.calls = a.calls ++ c :: more ∧ c.event = event
  remote : y.actor.remote = R ∨ y.actor.remote = none
  waiting : ∀ id response, y.actor.waiters.get? id = some response → W.get? id = some response
  sent : ∀ outbound command, Output.sent outbound command ∈ y.outputs →
    ∃ session_id e, R = some (session_id, outbound) ∧ outgoing e = some (session_id, command) ∧
      (dispatchSession e ≠ none → e ∈ emitted y.actor.calls)
  answered : ∀ response packet, Output.answered response (.ok packet) ∈ y.outputs →
    ∃ session_id id attempt, W.get? id = some response ∧
      event = .response session_id id attempt packet ∧ InFlight a.state id session_id attempt

/-- **Run lemma of the loop.** -/
theorem execute_causes {R : Option (SessionId × ChannelId)} {W : Map RequestId ResponseId}
    {a : BrokerActor} {event : Event} {now : Instant} {s' : BrokerState} {effects : List Effect}
    (hap : a.state.apply event now = (s', .ok effects)) (sends : Option Nat)
    {outputs : List Output} (hquiet : ∀ o ∈ outputs, registration o ≠ none) :
    Causes R W a event (Exec.execute ⟨{ a with
      state := s', remote := R, waiters := W
      calls := a.calls ++ [⟨event, now, .ok effects⟩] }, sends, outputs⟩ effects now) := by
  have hfirst : Continues a { a with
      state := s', remote := R, waiters := W
      calls := a.calls ++ [⟨event, now, .ok effects⟩] } := ⟨[_], rfl, .snoc .nil hap⟩
  have hstart : Traced R W effects ⟨{ a with
      state := s', remote := R, waiters := W
      calls := a.calls ++ [⟨event, now, .ok effects⟩] }, sends, outputs⟩ effects := by
    refine ⟨Or.inl rfl, (fun _ _ hw => hw), ?_, (fun _ _ he => he), ?_, ?_⟩
    · intro e he _
      rw [emitted_snoc]
      exact List.mem_append_right _ he
    · exact fun _ _ ho => absurd rfl (hquiet _ ho)
    · exact fun _ _ ho => absurd rfl (hquiet _ ho)
  have hend := rounds_invariant (Exec.executeEffect now) (Traced R W effects)
    (fun y e rest hy => traced_step hy) 3 _ effects hstart
  have hcont := execute_continues hfirst effects now
    (x := ⟨{ a with
      state := s', remote := R, waiters := W
      calls := a.calls ++ [⟨event, now, .ok effects⟩] }, sends, outputs⟩)
  refine ⟨hcont, ?_, hend.remote, hend.waiting, hend.sent, ?_⟩
  · have hgrows := execute_continues (Continues.refl _) effects now
      (x := ⟨{ a with
        state := s', remote := R, waiters := W
        calls := a.calls ++ [⟨event, now, .ok effects⟩] }, sends, outputs⟩)
    obtain ⟨more, hcalls, _⟩ := hgrows
    refine ⟨⟨event, now, .ok effects⟩, more, ?_, rfl⟩
    rw [hcalls, List.append_assoc]
    rfl
  · intro response packet ho
    obtain ⟨id, hw, he⟩ := hend.answered response packet ho
    obtain ⟨session_id, attempt, hevent, hin⟩ := apply_answers hap he
    exact ⟨session_id, id, attempt, hw, hevent, ((expire_in_flight _ _ _ _ _).mp hin).2⟩

/-- A refused event causes nothing. -/
theorem refused_causes {R : Option (SessionId × ChannelId)} {W : Map RequestId ResponseId}
    {a : BrokerActor} {event : Event} {now : Instant} {s' : BrokerState} {e : ModelError}
    (hap : a.state.apply event now = (s', .error e)) (sends : Option Nat)
    {outputs : List Output} (hquiet : ∀ o ∈ outputs, registration o ≠ none) :
    Causes R W a event ⟨{ a with
      state := s', remote := R, waiters := W
      calls := a.calls ++ [⟨event, now, .error e⟩] }, sends, outputs⟩ :=
  ⟨⟨[_], rfl, .snoc .nil hap⟩, ⟨_, [], rfl, rfl⟩, Or.inl rfl,
    (fun _ _ hw => hw), (fun _ _ ho => absurd rfl (hquiet _ ho)),
    (fun _ _ ho => absurd rfl (hquiet _ ho))⟩

theorem apply_causes (a : BrokerActor) (sends : Option Nat) (event : Event) (now : Instant) :
    Causes a.remote a.waiters a event (Exec.apply ⟨a, sends, []⟩ event now) := by
  have hquiet : ∀ o ∈ ([] : List Output), registration o ≠ none := fun _ ho => by cases ho
  cases hres : (a.state.apply event now).2 with
  | ok effects =>
      simp only [Exec.apply, BrokerActor.call, hres]
      exact execute_causes (Prod.ext rfl hres) sends hquiet
  | error e =>
      simp only [Exec.apply, BrokerActor.call, hres]
      exact refused_causes (Prod.ext rfl hres) sends hquiet

/-- The channel an input finds: a connect that is accepted brings its own. -/
def remoteFor (b : Broker) : Input → Option (SessionId × ChannelId)
  | .command (.connect _ outbound _) session_id =>
      if b.actor.state.agent = .disconnected then some (session_id, outbound) else b.actor.remote
  | _ => b.actor.remote

/-- What one turn causes. -/
structure TurnCauses (b : Broker) (t : Turn) (b' : Broker) (outputs : List Output) : Prop where
  continues : Continues b.actor b'.actor
  recorded : ∀ event, eventFor b t = some event →
    ∃ c more, b'.actor.calls = b.actor.calls ++ c :: more ∧ c.event = event
  remote : b'.actor.remote = remoteFor b t.input ∨ b'.actor.remote = none
  waiting : ∀ id response, b'.actor.waiters.get? id = some response →
    b.actor.waiters.get? id = some response ∨
      ∃ request requested_at, t.input = .localRequest request id requested_at ∧
        request.response = response
  sent : ∀ outbound command, Output.sent outbound command ∈ outputs →
    ∃ session_id e, remoteFor b t.input = some (session_id, outbound) ∧
      outgoing e = some (session_id, command) ∧
      (dispatchSession e ≠ none → e ∈ emitted b'.actor.calls)
  answered : ∀ response packet, Output.answered response (.ok packet) ∈ outputs →
    ∃ session_id id attempt drawn,
      t.input = .command (.response session_id id attempt packet) drawn ∧
      b.actor.waiters.get? id = some response ∧ InFlight b.actor.state id session_id attempt

/-- A response is handed on from the mailbox. -/
theorem eventFor_response {b : Broker} {t : Turn} {session_id : SessionId} {id : RequestId}
    {attempt : UInt32} {packet : Bytes}
    (h : eventFor b t = some (.response session_id id attempt packet)) :
    ∃ drawn, t.input = .command (.response session_id id attempt packet) drawn := by
  rw [eventFor] at h
  split at h
  · cases Option.some.inj h
  · cases Option.some.inj h
  · cases Option.some.inj h
  · cases Option.some.inj h
  · cases Option.some.inj h
  · cases Option.some.inj h
  · rename_i hin
    obtain ⟨rfl, rfl, rfl, rfl⟩ := Event.response.inj (Option.some.inj h)
    exact ⟨_, hin⟩
  · cases Option.some.inj h
  · cases h
  · cases h
  · cases h

/-- The turns that hand an event to the model as they find it. -/
theorem Causes.turn {b : Broker} {t : Turn} {event : Event} {y : Exec}
    {R : Option (SessionId × ChannelId)} (h : Causes R b.actor.waiters b.actor event y)
    (hR : R = remoteFor b t.input ∨ R = none) (he : eventFor b t = some event) (b' : Broker)
    (hb' : b'.actor = y.actor) : TurnCauses b t b' y.outputs := by
  have hfound : ∀ {session_id outbound}, R = some (session_id, outbound) →
      remoteFor b t.input = some (session_id, outbound) := by
    intro session_id outbound hsome
    rcases hR with hsame | hnone
    · exact hsame.symm.trans hsome
    · cases hnone.symm.trans hsome
  refine ⟨?_, ?_, ?_, ?_, ?_, ?_⟩
  · rw [hb']
    exact h.continues
  · intro event' he'
    obtain rfl := Option.some.inj (he.symm.trans he')
    rw [hb']
    exact h.recorded
  · rw [hb']
    rcases h.remote with hsame | hnone
    · rw [hsame]
      exact hR
    · exact Or.inr hnone
  · intro id response hw
    rw [hb'] at hw
    exact Or.inl (h.waiting id response hw)
  · intro outbound command ho
    rw [hb']
    obtain ⟨session_id, e, hsome, hrest⟩ := h.sent outbound command ho
    exact ⟨session_id, e, hfound hsome, hrest⟩
  · intro response packet ho
    obtain ⟨session_id, id, attempt, hw, hevent, hin⟩ := h.answered response packet ho
    rw [hevent] at he
    obtain ⟨drawn, hinput⟩ := eventFor_response he
    exact ⟨session_id, id, attempt, drawn, hinput, hw, hin⟩

/-- A turn that does not touch the model. -/
theorem stopping_causes {b b' : Broker} {t : Turn} {outputs : List Output}
    (hcalls : Continues b.actor b'.actor) (hremote : b'.actor.remote = b.actor.remote)
    (hfound : remoteFor b t.input = b.actor.remote) (hnone : eventFor b t = none)
    (hwaiting : ∀ id response, b'.actor.waiters.get? id = some response →
      b.actor.waiters.get? id = some response)
    (hsent : ∀ outbound command, Output.sent outbound command ∉ outputs)
    (hanswered : ∀ response packet, Output.answered response (.ok packet) ∉ outputs) :
    TurnCauses b t b' outputs := by
  refine ⟨hcalls, ?_, Or.inl (hremote.trans hfound.symm), ?_, ?_, ?_⟩
  · intro event he
    cases hnone.symm.trans he
  · exact fun id response hw => Or.inl (hwaiting id response hw)
  · exact fun outbound command ho => absurd ho (hsent outbound command)
  · exact fun response packet ho => absurd ho (hanswered response packet)

/-- Stopping answers everybody with an error. -/
theorem mem_stop_outputs {x : Exec} (hx : x.outputs = []) {o : Output} (ho : o ∈ x.stop.outputs) :
    ∃ response, o = .answered response (.error .unavailable) := by
  rw [Exec.stop, hx] at ho
  obtain ⟨response, _, rfl⟩ := List.mem_map.mp ho
  exact ⟨response, rfl⟩

theorem handle_causes {b : Broker} {t : Turn} {command : Command} {session_id : SessionId}
    (hin : t.input = .command command session_id) (b' : Broker)
    (hb' : b'.actor = ((b.exec t.sends).handle session_id t.now command).1.actor) :
    TurnCauses b t b' ((b.exec t.sends).handle session_id t.now command).1.outputs := by
  have hremote : (∀ capacity outbound response, command ≠ .connect capacity outbound response) →
      b.actor.remote = remoteFor b t.input := by
    intro hnot
    rw [hin]
    cases command with
    | connect capacity outbound response => exact absurd rfl (hnot capacity outbound response)
    | ready | locked | disconnected | response | shutdown => rfl
  cases command with
  | connect capacity outbound response =>
      have hevent : eventFor b t = some (.connected session_id capacity) := by rw [eventFor, hin]
      have hquiet : ∀ (result : Except BrokerError SessionId),
          ∀ o ∈ [Output.registered response result], registration o ≠ none := by
        intro result o ho
        rw [List.mem_singleton.mp ho]
        exact Option.some_ne_none _
      rcases apply_connected_result b.actor.state session_id capacity t.now with
        ⟨ha, effects, hr⟩ | ⟨ha, hr⟩
      · have hcauses := execute_causes (R := some (session_id, outbound))
          (W := b.actor.waiters) (Prod.ext rfl hr) t.sends (hquiet (.ok session_id))
        simp only [Exec.handle, BrokerActor.call, Broker.exec, hr] at hb' ⊢
        refine hcauses.turn (Or.inl ?_) hevent b' hb'
        rw [hin, remoteFor, if_pos ha]
      · have hcauses := refused_causes (R := b.actor.remote) (W := b.actor.waiters)
          (Prod.ext rfl hr) t.sends (hquiet (.error .remoteAlreadyConnected))
        simp only [Exec.handle, BrokerActor.call, Broker.exec, hr] at hb' ⊢
        refine hcauses.turn (Or.inl ?_) hevent b' hb'
        rw [hin, remoteFor, if_neg ha]
  | ready active =>
      exact (apply_causes b.actor t.sends (.ready active) t.now).turn
        (Or.inl (hremote (by rintro _ _ _ ⟨⟩))) (by rw [eventFor, hin]) b' hb'
  | locked active =>
      exact (apply_causes b.actor t.sends (.locked active) t.now).turn
        (Or.inl (hremote (by rintro _ _ _ ⟨⟩))) (by rw [eventFor, hin]) b' hb'
  | disconnected active =>
      have hcauses := apply_causes { b.actor with
        remote := if b.actor.remote.any (fun remote => remote.1 = active) then none
          else b.actor.remote } t.sends (.disconnected active) t.now
      have hturn : Causes (if b.actor.remote.any (fun remote => remote.1 = active) then none
          else b.actor.remote) b.actor.waiters b.actor (.disconnected active) _ :=
        ⟨hcauses.continues, hcauses.recorded, hcauses.remote, hcauses.waiting, hcauses.sent,
          hcauses.answered⟩
      refine hturn.turn ?_ (by rw [eventFor, hin]) b' hb'
      split
      · exact Or.inr rfl
      · exact Or.inl (hremote (by rintro _ _ _ ⟨⟩))
  | response active request_id attempt packet =>
      exact (apply_causes b.actor t.sends (.response active request_id attempt packet)
        t.now).turn (Or.inl (hremote (by rintro _ _ _ ⟨⟩))) (by rw [eventFor, hin]) b' hb'
  | shutdown response =>
      have hout : ∀ o ∈ ((b.exec t.sends).handle session_id t.now (.shutdown response)).1.outputs,
          (∃ waiter, o = .answered waiter (.error .unavailable)) ∨ o = .stopped response := by
        intro o ho
        rcases List.mem_append.mp ho with ho | ho
        · exact Or.inl (mem_stop_outputs rfl ho)
        · exact Or.inr (List.mem_singleton.mp ho)
      refine stopping_causes ?_ ?_ (hremote (by rintro _ _ _ ⟨⟩)).symm (by rw [eventFor, hin]) ?_ ?_ ?_
      · rw [hb']
        exact ⟨[], (List.append_nil _).symm, .nil⟩
      · rw [hb']
        rfl
      · intro id waiter hw
        rw [hb'] at hw
        cases hw
      · intro outbound command ho
        rcases hout _ ho with ⟨_, heq⟩ | heq
        · cases heq
        · cases heq
      · intro waiter packet ho
        rcases hout _ ho with ⟨_, heq⟩ | heq
        · cases (Output.answered.inj heq).2
        · cases heq

/-- **Every turn has its causes.** -/
theorem step_causes {b b' : Broker} {t : Turn} {outputs : List Output}
    (h : b.step t = some (b', outputs)) : TurnCauses b t b' outputs := by
  rw [Broker.step] at h
  split at h
  · cases h
  · cases hin : t.input with
    | localRequest request request_id requested_at =>
        simp only [hin] at h
        split at h
        · obtain ⟨rfl, rfl⟩ := Prod.mk.inj (Option.some.inj h)
          have hcauses := apply_causes { b.actor with
            waiters := b.actor.waiters.insert request_id request.response } t.sends
            (.submit request_id request.packet request.context
              (t.now + b.actor.config.request_timeout) (unix_milliseconds requested_at)
              (unix_milliseconds (requested_at + b.actor.config.request_timeout))) t.now
          have hremote : remoteFor b t.input = b.actor.remote := by
            rw [hin]
            rfl
          refine ⟨hcauses.continues, ?_, ?_, ?_, ?_, ?_⟩
          · intro event he
            rw [eventFor, hin] at he
            obtain rfl := Option.some.inj he
            exact hcauses.recorded
          · rw [hremote]
            exact hcauses.remote
          · intro id response hw
            have hw := hcauses.waiting id response hw
            by_cases hid : id = request_id
            · subst hid
              rw [get?_insert_self] at hw
              exact Or.inr ⟨request, requested_at, hin, Option.some.inj hw⟩
            · rw [get?_insert_of_ne _ _ hid] at hw
              exact Or.inl hw
          · rw [hremote]
            exact hcauses.sent
          · intro response packet ho
            obtain ⟨_, _, _, _, hevent, _⟩ := hcauses.answered response packet ho
            cases hevent
        · cases h
    | localClosed =>
        simp only [hin] at h
        split at h
        · obtain ⟨rfl, rfl⟩ := Prod.mk.inj (Option.some.inj h)
          refine stopping_causes (Continues.refl _) rfl ?_ (by rw [eventFor, hin])
            (fun _ _ hw => hw) (fun _ _ ho => by cases ho) (fun _ _ ho => by cases ho)
          rw [hin]
          rfl
        · cases h
    | cancelled request_id =>
        simp only [hin] at h
        obtain ⟨rfl, rfl⟩ := Prod.mk.inj (Option.some.inj h)
        refine (apply_causes b.actor t.sends (.cancelled request_id) t.now).turn (Or.inl ?_)
          (by rw [eventFor, hin]) _ rfl
        rw [hin]
        rfl
    | command command session_id =>
        simp only [hin] at h
        obtain ⟨rfl, rfl⟩ := Prod.mk.inj (Option.some.inj h)
        exact handle_causes hin _ rfl
    | commandsClosed =>
        simp only [hin] at h
        obtain ⟨rfl, rfl⟩ := Prod.mk.inj (Option.some.inj h)
        refine stopping_causes (Continues.refl _) rfl ?_ (by rw [eventFor, hin])
          (fun _ _ hw => by cases hw) ?_ ?_
        · rw [hin]
          rfl
        · intro outbound command ho
          obtain ⟨_, heq⟩ := mem_stop_outputs rfl ho
          cases heq
        · intro waiter packet ho
          obtain ⟨_, heq⟩ := mem_stop_outputs rfl ho
          cases (Output.answered.inj heq).2
    | deadline =>
        simp only [hin] at h
        split at h
        · obtain ⟨rfl, rfl⟩ := Prod.mk.inj (Option.some.inj h)
          refine (apply_causes b.actor t.sends .tick t.now).turn (Or.inl ?_)
            (by rw [eventFor, hin]) _ rfl
          rw [hin]
          rfl
        · cases h

end BrokerTrace
