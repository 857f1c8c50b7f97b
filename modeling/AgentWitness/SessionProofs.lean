import AgentWitness.HandshakeProofs
import AgentWitness.BrokerTraceProofs

/-! # Links and sessions

    The reply to its connect ties a link to a session for good: the task never
    clears it, and the broker answers a link once.  A task that is past the
    reply has that session in its phase, and the broker's outbound channel is the
    link that holds its session.

    If session ids are fresh, no two links hold the same session. -/

namespace Session

open Packet KeyedMap BrokerModel BrokerInvariant BrokerTask BrokerTrace RemoteProtocol Pairing
open Serve Handshake Transition

/-- The connect of the link was answered with this session. -/
def Holds (s : Server) (link : LinkId) (session_id : SessionId) : Prop :=
  ∃ t, s.tasks link = some t ∧ t.reply = some (.ok session_id)

/-- The session a phase names. -/
def Phase.session : Phase → Option SessionId
  | .responding _ session_id | .running session_id _ _ | .closing session_id => some session_id
  | .receiving | .authorizing _ | .connecting _ | .awaiting _ | .dropping | .finished => none

/-- The id drawn for a session. -/
def connectedId : Event → Option SessionId
  | .connected session_id _ => some session_id
  | _ => none

/-- The ids drawn for sessions so far, refused ones included. -/
def connectedIds (calls : List Call) : List SessionId :=
  calls.filterMap (fun c => connectedId c.event)

/-- How links, tasks and the broker agree on sessions. -/
structure Sessions (s : Server) : Prop where
  registering : Registering s
  phases : ∀ link t session_id, s.tasks link = some t →
    Phase.session t.phase = some session_id → t.reply = some (.ok session_id)
  remote : ∀ session_id link, s.broker.actor.remote = some (session_id, link) →
    Holds s link session_id
  drawn : ∀ link session_id, Holds s link session_id →
    session_id ∈ connectedIds s.broker.actor.calls
  alone : (connectedIds s.broker.actor.calls).Nodup → ∀ link link' session_id,
    Holds s link session_id → Holds s link' session_id → link = link'

theorem sessions_new (config : BrokerConfig) (pairing : PairingService) :
    Sessions (Server.new config pairing) where
  registering := registering_new config pairing
  phases := fun _ _ _ ht => by cases ht
  remote := fun _ _ hr => by cases hr
  drawn := by
    rintro link session_id ⟨t, ht, _⟩
    cases ht
  alone := by
    rintro _ link link' session_id ⟨t, ht, _⟩
    cases ht

/-- A task leaves its reply alone. -/
theorem acted_keeps_reply {config : SessionConfig} {p : PairingService} {stopped : Bool}
    {link : LinkId} {t : Task} {action : TaskAction} {r : TaskResult}
    (h : Acted config p stopped link t action r) : r.task.reply = t.reply := by
  cases h with
  | ended _ | received _ | broke _ _ | posted _ _ _ | ponged _ | updated _ _ _ | rejected _ _
  | authorized _ _ | connected _ _ _ | unavailable _ | registered _ _ | refused _ _
  | responded _ | unanswered _ | forwarded _ _ | beat _ | disconnected _ | dropped _ => rfl

/-- A task takes its session from the reply and keeps it. -/
theorem acted_session {config : SessionConfig} {p : PairingService} {stopped : Bool}
    {link : LinkId} {t : Task} {action : TaskAction} {r : TaskResult} {session_id : SessionId}
    (h : Acted config p stopped link t action r)
    (hs : Phase.session r.task.phase = some session_id) :
    Phase.session t.phase = some session_id ∨ t.reply = some (.ok session_id) := by
  cases h with
  | registered _ hr =>
      obtain rfl := Option.some.inj hs
      exact Or.inr hr
  | broke hp _ | ponged hp | responded hp | unanswered hp | beat hp =>
      rw [hp]
      exact Or.inl hs
  | posted _ _ _ | updated _ _ _ | forwarded _ _ => exact Or.inl hs
  | ended _ | received _ | rejected _ _ | authorized _ _ | connected _ _ _ | unavailable _
  | refused _ _ | disconnected _ | dropped _ => cases hs

/-- What a turn of the broker does to a link's reply: nothing, unless it handles
    the link's own connect. -/
theorem turned_reply {s : Server} {action : Action} {mailbox : List Command} {input : Input}
    {sends : Option Nat} {now : Instant} {broker : Broker} {out : List Output} {link : LinkId}
    {t t' : Task} (h : Registering s)
    (hinput : Fed s action mailbox input sends now)
    (hb : s.broker.step ⟨input, now, sends⟩ = some (broker, out))
    (ht : s.tasks link = some t) (hh : Heard out link t t') :
    t'.reply = t.reply ∨
      ∃ capacity session_id a, input = .command (.connect capacity link link) session_id ∧
        t.phase = .awaiting a ∧ t.reply = none ∧
        t'.reply = some (if s.broker.actor.state.agent = .disconnected then .ok session_id
          else .error .remoteAlreadyConnected) := by
  rcases repliesTo_turn hb link with hnil | ⟨capacity, outbound, session_id, _, hin, hres, hone⟩
  · refine Or.inl ?_
    rw [hh.reply, hnil]
    rfl
  · obtain ⟨rfl, _, t₀, a, ht₀, hp, hr⟩ :=
      h.oldest (step_running hb) (fed_command hinput hin).2
    obtain rfl := Option.some.inj (ht.symm.trans ht₀)
    refine Or.inr ⟨capacity, session_id, a, hin, hp, hr, ?_⟩
    obtain ⟨_, rfl⟩ := Prod.mk.inj (Option.some.inj hres)
    rw [hh.reply, hone]
    rfl

/-- A link keeps its session. -/
theorem holds_stepped {config : SessionConfig} {s s' : Server} {action : Action}
    {outputs : List ServerOutput} (h : Registering s) (hs : Stepped config s action s' outputs)
    {link : LinkId} {session_id : SessionId} (hh : Holds s link session_id) :
    Holds s' link session_id := by
  obtain ⟨t, ht, hr⟩ := hh
  cases hs with
  | @accepted other hnone =>
      have hne : link ≠ other := by
        rintro rfl
        cases hnone.symm.trans ht
      exact ⟨t, (Function.update_of_ne hne ..).trans ht, hr⟩
  | @acted other act t₀ r ht₀ hact =>
      by_cases hl : link = other
      · subst hl
        obtain rfl := Option.some.inj (ht.symm.trans ht₀)
        exact ⟨r.task, Function.update_self .., (acted_keeps_reply hact).trans hr⟩
      · exact ⟨t, (Function.update_of_ne hl ..).trans ht, hr⟩
  | @turned _ mailbox input sends now broker out hinput hallowed hb =>
      obtain ⟨t', ht', hheard⟩ := turned_task out hallowed ht
      rcases turned_reply h hinput hb ht hheard with hsame | ⟨_, _, _, _, _, hnone, _⟩
      · exact ⟨t', ht', hsame.trans hr⟩
      · cases hnone.symm.trans hr
  | cleared => exact ⟨t, ht, hr⟩
  | stopping _ => exact ⟨t, ht, hr⟩

/-- A link that holds a session held it before, or its connect was just accepted
    with a fresh draw. -/
theorem holds_before {config : SessionConfig} {s s' : Server} {action : Action}
    {outputs : List ServerOutput} (h : Registering s) (hs : Stepped config s action s' outputs)
    {link : LinkId} {session_id : SessionId} (hh : Holds s' link session_id) :
    Holds s link session_id ∨
      ∃ c more, s'.broker.actor.calls = s.broker.actor.calls ++ c :: more ∧
        connectedId c.event = some session_id ∧
        ∀ other, Holds s' other session_id → ¬ Holds s other session_id → other = link := by
  obtain ⟨t', ht', hr⟩ := hh
  cases hs with
  | @accepted other hnone =>
      rcases update_task_cases ht' with ⟨_, rfl⟩ | ⟨_, ht⟩
      · cases hr
      · exact Or.inl ⟨t', ht, hr⟩
  | @acted other act t r ht hact =>
      rcases update_task_cases ht' with ⟨rfl, rfl⟩ | ⟨_, ht⟩
      · exact Or.inl ⟨t, ht, (acted_keeps_reply hact).symm.trans hr⟩
      · exact Or.inl ⟨t', ht, hr⟩
  | cleared => exact Or.inl ⟨t', ht', hr⟩
  | stopping _ => exact Or.inl ⟨t', ht', hr⟩
  | @turned _ mailbox input sends now broker out hinput hallowed hb =>
      obtain ⟨t, ht, hheard⟩ := turned_task_of hallowed ht'
      rcases turned_reply h hinput hb ht hheard with
        hsame | ⟨capacity, drawn, a, hin, _, _, hnew⟩
      · exact Or.inl ⟨t, ht, hsame.symm.trans hr⟩
      · rw [hr] at hnew
        have hok := Option.some.inj hnew
        split at hok
        · obtain rfl := Except.ok.inj hok
          subst hin
          obtain ⟨c, more, hcalls, hevent⟩ := (step_causes hb).recorded _ rfl
          refine Or.inr ⟨c, more, hcalls, by rw [hevent]; rfl, ?_⟩
          rintro other ⟨u', hu', hru⟩ hnot
          obtain ⟨u, hu, hheardu⟩ := turned_task_of hallowed hu'
          rcases turned_reply h hinput hb hu hheardu with
            hsame | ⟨_, _, _, hinu, _, _, _⟩
          · exact absurd ⟨u, hu, hsame.symm.trans hru⟩ hnot
          · exact (Command.connect.inj (Input.command.inj hinu).1).2.1.symm
        · cases hok

/-- The record of model calls grows along a step. -/
theorem stepped_continues {config : SessionConfig} {s s' : Server} {action : Action}
    {outputs : List ServerOutput} (hs : Stepped config s action s' outputs) :
    Continues s.broker.actor s'.broker.actor := by
  cases hs with
  | turned _ _ hb => exact (step_causes hb).continues
  | accepted _ | acted _ _ | cleared | stopping _ => exact Continues.refl _

theorem connectedIds_append (a b : List Call) :
    connectedIds (a ++ b) = connectedIds a ++ connectedIds b :=
  List.filterMap_append

/-- The channel a turn finds is that of a link which then holds its session. -/
theorem holds_remoteFor {config : SessionConfig} {s : Server} {action : Action}
    {mailbox : List Command} {input : Input} {sends : Option Nat} {now : Instant}
    {broker : Broker} {out : List Output} (h : Sessions s)
    (hinput : Fed s action mailbox input sends now)
    (hallowed : s.sendsAllowed (s.channel input) sends = true)
    (hb : s.broker.step ⟨input, now, sends⟩ = some (broker, out)) {s' : Server}
    {outputs : List ServerOutput} (hs : Stepped config s action s' outputs)
    (htasks : s'.tasks = dropDuring (deliver s.tasks out) (s.channel input) sends)
    {session_id : SessionId} {link : LinkId}
    (hr : remoteFor s.broker input = some (session_id, link)) : Holds s' link session_id := by
  have hkeep : s.broker.actor.remote = some (session_id, link) → Holds s' link session_id :=
    fun hold => holds_stepped h.registering hs (h.remote session_id link hold)
  rw [remoteFor.eq_def] at hr
  split at hr
  · rename_i capacity outbound response drawn
    split at hr
    · rename_i hagent
      obtain ⟨rfl, rfl⟩ := Prod.mk.inj (Option.some.inj hr)
      -- the connect that is accepted is the oldest command, and its link awaits it
      obtain ⟨rfl, _, t, a, ht, _, _⟩ :=
        h.registering.oldest (step_running hb) (fed_command hinput rfl).2
      obtain ⟨t', ht', hheard⟩ := turned_task out hallowed ht
      rw [← htasks] at ht'
      refine ⟨t', ht', ?_⟩
      have hreplies : repliesTo outbound out = [.ok drawn] := by
        rw [repliesTo, step_registrations hb]
        simp [replyOf, hagent]
      rw [hheard.reply, hreplies]
      rfl
    · exact hkeep hr
  · exact hkeep hr

/-- The channel after a step is that of a link which holds its session. -/
theorem remote_stepped {config : SessionConfig} {s s' : Server} {action : Action}
    {outputs : List ServerOutput} (h : Sessions s) (hs : Stepped config s action s' outputs)
    {session_id : SessionId} {link : LinkId}
    (hr : s'.broker.actor.remote = some (session_id, link)) : Holds s' link session_id := by
  have hkeep : s.broker.actor.remote = some (session_id, link) → Holds s' link session_id :=
    fun hold => holds_stepped h.registering hs (h.remote session_id link hold)
  have hstep := hs
  cases hs with
  | accepted _ | acted _ _ | cleared | stopping _ => exact hkeep hr
  | turned hinput hallowed hb =>
      rcases (step_causes hb).remote with hsame | hnone
      · exact holds_remoteFor h hinput hallowed hb hstep rfl (hsame.symm.trans hr)
      · cases hnone.symm.trans hr

/-- **Step lemma of links and sessions.** -/
theorem sessions_step {config : SessionConfig} {s s' : Server} {action : Action}
    {outputs : List ServerOutput} (h : Sessions s) (hs : Stepped config s action s' outputs) :
    Sessions s' := by
  have hcont := stepped_continues hs
  refine ⟨registering_step h.registering hs, ?_, ?_, ?_, ?_⟩
  · intro link t' session_id ht' hsession
    cases hs with
    | accepted _ =>
        rcases update_task_cases ht' with ⟨_, rfl⟩ | ⟨_, ht⟩
        · cases hsession
        · exact h.phases link t' session_id ht hsession
    | @acted other act t r ht hact =>
        rcases update_task_cases ht' with ⟨rfl, rfl⟩ | ⟨_, ht⟩
        · rw [acted_keeps_reply hact]
          rcases acted_session hact hsession with hold | hreply
          · exact h.phases link t session_id ht hold
          · exact hreply
        · exact h.phases link t' session_id ht hsession
    | cleared => exact h.phases link t' session_id ht' hsession
    | stopping _ => exact h.phases link t' session_id ht' hsession
    | turned hinput hallowed hb =>
        obtain ⟨t, ht, hheard⟩ := turned_task_of hallowed ht'
        have hphase : t'.phase = t.phase := by
          rcases hheard.phase with hsame | ⟨_, hfin⟩
          · exact hsame
          · rw [hfin] at hsession
            cases hsession
        rw [hphase] at hsession
        rcases turned_reply h.registering hinput hb ht hheard with
          hsame | ⟨_, _, a, _, hp, _, _⟩
        · exact hsame.trans (h.phases link t session_id ht hsession)
        · rw [hp] at hsession
          cases hsession
  · intro session_id link hr
    exact remote_stepped h hs hr
  · intro link session_id hh
    rcases holds_before h.registering hs hh with hold | ⟨c, more, hcalls, hc, _⟩
    · obtain ⟨c, hc, hid⟩ := List.mem_filterMap.mp (h.drawn link session_id hold)
      exact List.mem_filterMap.mpr ⟨c, hcont.mem hc, hid⟩
    · rw [hcalls]
      exact List.mem_filterMap.mpr ⟨c, List.mem_append_right _ (List.mem_cons_self ..), hc⟩
  · intro hfresh link link' session_id hh hh'
    -- a draw that is new is not the session of a link that held one before
    have hnew : ∀ {c more}, s'.broker.actor.calls = s.broker.actor.calls ++ c :: more →
        connectedId c.event = some session_id → ∀ other, ¬ Holds s other session_id := by
      intro c more hcalls hc other hold
      rw [hcalls, connectedIds_append] at hfresh
      exact List.disjoint_of_nodup_append hfresh (h.drawn other session_id hold)
        (List.mem_filterMap.mpr ⟨c, List.mem_cons_self .., hc⟩)
    rcases holds_before h.registering hs hh with hold | ⟨c, more, hcalls, hc, honly⟩
    · rcases holds_before h.registering hs hh' with hold' | ⟨c, more, hcalls, hc, _⟩
      · refine h.alone ?_ link link' session_id hold hold'
        obtain ⟨more, hcalls, _⟩ := hcont
        rw [hcalls, connectedIds_append] at hfresh
        exact (List.nodup_append.mp hfresh).1
      · exact absurd hold (hnew hcalls hc link)
    · exact (honly link' hh' (hnew hcalls hc link')).symm

end Session
