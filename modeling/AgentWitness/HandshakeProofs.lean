import AgentWitness.ServeProofs

/-! # The handshake: authorized tasks and refused connects

    A task claims the pairing slot, or proves its credential, BEFORE it claims
    the broker's single remote slot.  When the broker then refuses the connect,
    the task sends `Rejected`, the same message as for a failed authorization,
    and nothing undoes the pairing.

    The mailbox invariant ties every connect in it to the one task that awaits
    its reply.  From it follows the general rule of this module: along a run in
    which the broker handles the connects of a KIND of authorized task only
    while no session is registered, no task of that kind is ever rejected. -/

namespace Handshake

open Packet KeyedMap BrokerModel BrokerTask RemoteProtocol Pairing Serve Transition

/-- The links whose connect is in a mailbox. -/
def connectLinks (mailbox : List Command) : List LinkId :=
  mailbox.filterMap (fun
    | .connect _ _ response => some response
    | _ => none)

/-- The phases before a connect is posted. -/
def Phase.early : Phase → Bool
  | .receiving | .authorizing _ | .connecting _ => true
  | _ => false

/-- While the broker runs, every connect in the mailbox is that of one task,
    which awaits its reply. -/
structure Registering (s : Server) : Prop where
  named : ∀ capacity outbound response,
    Command.connect capacity outbound response ∈ s.mailbox → outbound = response
  awaited : s.broker.stopped = false → ∀ link ∈ connectLinks s.mailbox,
    ∃ t a, s.tasks link = some t ∧ t.phase = .awaiting a ∧ t.reply = none
  unique : (connectLinks s.mailbox).Nodup
  unanswered : ∀ link t, s.tasks link = some t → Phase.early t.phase = true → t.reply = none

theorem connectLinks_append (a b : List Command) :
    connectLinks (a ++ b) = connectLinks a ++ connectLinks b :=
  List.filterMap_append

theorem registering_new (config : BrokerConfig) (pairing : PairingService) :
    Registering (Server.new config pairing) where
  named := fun _ _ _ h => by cases h
  awaited := fun _ _ h => by cases h
  unique := List.nodup_nil
  unanswered := fun _ _ h => by cases h

/-- The connect a task step posts is its own, and its phase says so. -/
theorem acted_connects {config : SessionConfig} {p : PairingService} {stopped : Bool}
    {link : LinkId} {t : Task} {action : TaskAction} {r : TaskResult}
    (h : Acted config p stopped link t action r) :
    connectLinks r.posted = [] ∨
      (connectLinks r.posted = [link] ∧ stopped = false ∧ ∃ a, t.phase = .connecting a ∧
        r = ⟨{ t with phase := .awaiting a }, [.connect config.remote_capacity link link], p, []⟩)
    := by
  cases h with
  | connected hp _ hs => exact Or.inr ⟨rfl, hs, _, hp, rfl⟩
  | @posted message command saved session_id client_id awaiting_pong _ _ hc =>
      refine Or.inl ?_
      cases message with
      | agentReady => obtain rfl := Option.some.inj hc; rfl
      | agentLocked => obtain rfl := Option.some.inj hc; rfl
      | agentResponse request_id attempt packet => obtain rfl := Option.some.inj hc; rfl
      | pairRequest | authenticate | setPushSubscription | setIdentities | pong =>
          cases hc
  | disconnected hp =>
      refine Or.inl ?_
      cases stopped
      · rfl
      · rfl
  | ended _ | received _ | broke _ _ | ponged _ | updated _ _ _ | rejected _ _ | authorized _ _
  | unavailable _ | registered _ _ | refused _ _ | responded _ | unanswered _ | forwarded _ _
  | beat _ | dropped _ => exact Or.inl rfl

/-- A task step that leaves the task early leaves it without a reply, if it had
    none. -/
theorem acted_early {config : SessionConfig} {p : PairingService} {stopped : Bool}
    {link : LinkId} {t : Task} {action : TaskAction} {r : TaskResult}
    (h : Acted config p stopped link t action r) (he : Phase.early r.task.phase = true) :
    Phase.early t.phase = true ∧ r.task.reply = t.reply := by
  cases h with
  | ended hp => cases he
  | received hp => exact ⟨by rw [hp]; rfl, rfl⟩
  | broke hp _ => cases he
  | posted hp _ _ => exact ⟨he, rfl⟩
  | ponged hp => cases he
  | updated hp _ _ => exact ⟨he, rfl⟩
  | rejected hp _ => cases he
  | authorized hp _ => exact ⟨by rw [hp]; rfl, rfl⟩
  | connected hp _ _ => cases he
  | unavailable hp => cases he
  | registered hp _ => cases he
  | refused hp _ => cases he
  | responded hp => cases he
  | unanswered hp => cases he
  | forwarded hp _ => exact ⟨he, rfl⟩
  | beat hp => cases he
  | disconnected hp => cases he
  | dropped hp => cases he

/-- A task that awaits a reply stays put while the broker runs. -/
theorem acted_awaiting {config : SessionConfig} {p : PairingService} {link : LinkId} {t : Task}
    {action : TaskAction} {r : TaskResult} (h : Acted config p false link t action r)
    {a : Authorization} (hp : t.phase = .awaiting a) (hr : t.reply = none) : False := by
  cases h with
  | ended h | received h | broke h _ | posted h _ _ | ponged h | updated h _ _ | rejected h _
  | authorized h _ | connected h _ _ | responded h | unanswered h | forwarded h _ | beat h
  | disconnected h | dropped h =>
      rw [hp] at h
      cases h
  | unavailable h =>
      rcases h with h | ⟨_, h | h⟩
      · rw [hp] at h
        cases h
      · cases h
      · exact h hr
  | registered _ h =>
      rw [hr] at h
      cases h
  | refused _ h =>
      rw [hr] at h
      cases h

/-- A finished task does not act. -/
theorem acted_finished {config : SessionConfig} {p : PairingService} {stopped : Bool}
    {link : LinkId} {t : Task} {action : TaskAction} {r : TaskResult}
    (h : Acted config p stopped link t action r) (hp : t.phase = .finished) : False := by
  cases h with
  | ended h | received h | broke h _ | posted h _ _ | ponged h | updated h _ _ | rejected h _
  | authorized h _ | connected h _ _ | responded h | unanswered h | forwarded h _ | beat h
  | disconnected h | dropped h | registered h _ | refused h _ =>
      rw [hp] at h
      cases h
  | unavailable h =>
      rcases h with h | ⟨h, _⟩
      · rw [hp] at h
        cases h
      · rw [hp] at h
        cases h

/-- The replies a link gets in a turn: that of its own connect. -/
theorem repliesTo_turn {b b' : Broker} {t : Turn} {outputs : List Output}
    (h : b.step t = some (b', outputs)) (link : LinkId) :
    repliesTo link outputs = [] ∨
      ∃ capacity outbound session_id result,
        t.input = .command (.connect capacity outbound link) session_id ∧
        replyOf b.actor.state session_id (.connect capacity outbound link)
          = some (link, result) ∧
        repliesTo link outputs = [result] := by
  have hreg := step_registrations h
  rw [repliesTo, hreg]
  cases hin : t.input with
  | command command session_id =>
      cases command with
      | connect capacity outbound response =>
          by_cases hl : response = link
          · subst hl
            refine Or.inr ⟨capacity, outbound, session_id, _, rfl, rfl, ?_⟩
            simp [replyOf]
          · refine Or.inl ?_
            simp [replyOf, hl]
      | ready | locked | disconnected | response | shutdown => exact Or.inl rfl
  | localRequest | localClosed | cancelled | commandsClosed | deadline => exact Or.inl rfl

theorem connectLinks_head {capacity : Nat} {outbound : ChannelId} {response : ResponseId}
    (rest : List Command) :
    connectLinks (.connect capacity outbound response :: rest)
      = response :: connectLinks rest := rfl

section Feeding

variable {s : Server} {action : Action} {mailbox : List Command} {input : Input}
  {sends : Option Nat} {now : Instant}

/-- What a turn of the broker is fed: the oldest command, or another input. -/
abbrev Fed (s : Server) (action : Action) (mailbox : List Command) (input : Input)
    (sends : Option Nat) (now : Instant) : Prop :=
  (∃ command session_id, input = .command command session_id ∧
      action = .command session_id sends now ∧ s.mailbox = command :: mailbox)
    ∨ ((∀ command session_id, input ≠ .command command session_id) ∧
      input ≠ .commandsClosed ∧ action = .turn input sends now ∧ mailbox = s.mailbox)

/-- A command that is handled was the oldest one. -/
theorem fed_command (hinput : Fed s action mailbox input sends now) {command : Command}
    {session_id : SessionId} (hin : input = .command command session_id) :
    action = .command session_id sends now ∧ s.mailbox = command :: mailbox := by
  rcases hinput with ⟨c, drawn, hc, haction, hmail⟩ | ⟨hne, _⟩
  · obtain ⟨rfl, rfl⟩ := Input.command.inj (hc.symm.trans hin)
    exact ⟨haction, hmail⟩
  · exact absurd hin (hne _ _)

/-- What is left in the mailbox is a tail of it. -/
theorem fed_suffix (hinput : Fed s action mailbox input sends now) :
    ∃ handled, s.mailbox = handled ++ mailbox := by
  rcases hinput with ⟨c, _, _, _, hmail⟩ | ⟨_, _, _, rfl⟩
  · exact ⟨[c], hmail⟩
  · exact ⟨[], rfl⟩

/-- The connect that heads the mailbox is its link's only one, and the link's task
    awaits the reply. -/
theorem Registering.oldest (h : Registering s) (hrun : s.broker.stopped = false)
    {capacity : Nat} {outbound : ChannelId} {link : LinkId}
    (hmail : s.mailbox = .connect capacity outbound link :: mailbox) :
    outbound = link ∧ link ∉ connectLinks mailbox ∧
      ∃ t a, s.tasks link = some t ∧ t.phase = .awaiting a ∧ t.reply = none := by
  have hmem : Command.connect capacity outbound link ∈ s.mailbox := by
    rw [hmail]
    exact List.mem_cons_self ..
  have hlink : link ∈ connectLinks s.mailbox := List.mem_filterMap.mpr ⟨_, hmem, rfl⟩
  have hunique := h.unique
  rw [hmail, connectLinks_head] at hunique
  exact ⟨h.named _ _ _ hmem, (List.nodup_cons.mp hunique).1, h.awaited hrun link hlink⟩

end Feeding

/-- A connection is accepted. -/
theorem registering_accepted {s : Server} {link : LinkId} {t₀ : Task} (h : Registering s)
    (hnone : s.tasks link = none) (hreply : t₀.reply = none) :
    Registering { s with tasks := Function.update s.tasks link (some t₀) } := by
  refine ⟨h.named, ?_, h.unique, ?_⟩
  · intro hrun other hother
    obtain ⟨t, a, ht, hp, hr⟩ := h.awaited hrun other hother
    have hne : other ≠ link := by
      rintro rfl
      cases hnone.symm.trans ht
    exact ⟨t, a, (Function.update_of_ne hne ..).trans ht, hp, hr⟩
  · intro other t ht he
    rcases update_task_cases ht with ⟨_, rfl⟩ | ⟨_, ht⟩
    · exact hreply
    · exact h.unanswered other t ht he

/-- A task that is awaited does not act, so the others' actions keep it awaited. -/
theorem awaited_acted {config : SessionConfig} {s : Server} {link : LinkId} {act : TaskAction}
    {t : Task} {r : TaskResult} (h : Registering s) (ht : s.tasks link = some t)
    (hact : Acted config s.pairing s.broker.stopped link t act r)
    (hrun : s.broker.stopped = false) {other : LinkId} (hother : other ∈ connectLinks s.mailbox) :
    ∃ t' a, Function.update s.tasks link (some r.task) other = some t' ∧
      t'.phase = .awaiting a ∧ t'.reply = none := by
  obtain ⟨t', a, ht', hp, hr⟩ := h.awaited hrun other hother
  have hne : other ≠ link := by
    rintro rfl
    obtain rfl := Option.some.inj (ht.symm.trans ht')
    rw [hrun] at hact
    exact acted_awaiting hact hp hr
  exact ⟨t', a, (Function.update_of_ne hne ..).trans ht', hp, hr⟩

/-- A task acts: it posts no connect, or its only one. -/
theorem registering_acted {config : SessionConfig} {s : Server} {link : LinkId}
    {act : TaskAction} {t : Task} {r : TaskResult} (h : Registering s)
    (ht : s.tasks link = some t)
    (hact : Acted config s.pairing s.broker.stopped link t act r) :
    Registering { s with
      mailbox := s.mailbox ++ r.posted
      pairing := r.pairing
      tasks := Function.update s.tasks link (some r.task) } := by
  have hearly : ∀ other t', Function.update s.tasks link (some r.task) other = some t' →
      Phase.early t'.phase = true → t'.reply = none := by
    intro other t' ht' he
    rcases update_task_cases ht' with ⟨rfl, rfl⟩ | ⟨_, ht'⟩
    · obtain ⟨he', hreply⟩ := acted_early hact he
      rw [hreply]
      exact h.unanswered other t ht he'
    · exact h.unanswered other t' ht' he
  rcases acted_connects hact with hnil | ⟨hone, hrun, a, hp, rfl⟩
  · refine ⟨?_, ?_, ?_, hearly⟩
    · intro capacity outbound response hm
      rcases List.mem_append.mp hm with hm | hm
      · exact h.named _ _ _ hm
      · have hposted : response ∈ connectLinks r.posted := List.mem_filterMap.mpr ⟨_, hm, rfl⟩
        rw [hnil] at hposted
        cases hposted
    · intro hrun other hother
      rw [connectLinks_append, hnil, List.append_nil] at hother
      exact awaited_acted h ht hact hrun hother
    · rw [connectLinks_append, hnil, List.append_nil]
      exact h.unique
  · have hreply : t.reply = none := h.unanswered link t ht (by rw [hp]; rfl)
    refine ⟨?_, ?_, ?_, hearly⟩
    · intro capacity outbound response hm
      rcases List.mem_append.mp hm with hm | hm
      · exact h.named _ _ _ hm
      · obtain ⟨_, rfl, rfl⟩ := Command.connect.inj (List.mem_singleton.mp hm)
        rfl
    · intro _ other hother
      rw [connectLinks_append] at hother
      rcases List.mem_append.mp hother with hother | hother
      · exact awaited_acted h ht hact hrun hother
      · obtain rfl := List.mem_singleton.mp hother
        exact ⟨_, a, Function.update_self .., rfl, hreply⟩
    · rw [connectLinks_append]
      refine List.Nodup.append h.unique (List.nodup_singleton link) ?_
      intro other hother hlink
      obtain rfl := List.mem_singleton.mp hlink
      obtain ⟨t', a', ht', hp', _⟩ := h.awaited hrun other hother
      obtain rfl := Option.some.inj (ht.symm.trans ht')
      cases hp.symm.trans hp'

/-- The broker takes a turn: it replies to no task but the one whose connect it
    handles. -/
theorem registering_turned {s : Server} {action : Action} {mailbox : List Command}
    {input : Input} {sends : Option Nat} {now : Instant} {broker : Broker} {out : List Output}
    (h : Registering s) (hinput : Fed s action mailbox input sends now)
    (hallowed : s.sendsAllowed (s.channel input) sends = true)
    (hb : s.broker.step ⟨input, now, sends⟩ = some (broker, out)) :
    Registering { s with
      broker := broker
      mailbox := mailbox
      tasks := dropDuring (deliver s.tasks out) (s.channel input) sends } := by
  have hrun := step_running hb
  obtain ⟨handled, hmailbox⟩ := fed_suffix hinput
  have hlinks : connectLinks s.mailbox = connectLinks handled ++ connectLinks mailbox := by
    rw [hmailbox, connectLinks_append]
  refine ⟨?_, ?_, ?_, ?_⟩
  · intro capacity outbound response hm
    refine h.named capacity outbound response ?_
    rw [hmailbox]
    exact List.mem_append_right _ hm
  · intro _ link hlink
    have hold : link ∈ connectLinks s.mailbox := by
      rw [hlinks]
      exact List.mem_append_right _ hlink
    obtain ⟨t, a, ht, hp, hr⟩ := h.awaited hrun link hold
    obtain ⟨t', ht', hheard⟩ := turned_task out hallowed ht
    refine ⟨t', a, ht', ?_, ?_⟩
    · rcases hheard.phase with hsame | ⟨hd | hd, _⟩
      · exact hsame.trans hp
      · cases hp.symm.trans hd
      · cases hp.symm.trans hd
    · -- its own connect is still in the mailbox, so the reply is another's
      rcases repliesTo_turn hb link with hnil | ⟨_, _, _, _, hin, _, _⟩
      · rw [hheard.reply, hnil]
        exact hr
      · exact absurd hlink (h.oldest hrun (fed_command hinput hin).2).2.1
  · have hunique := h.unique
    rw [hlinks] at hunique
    exact (List.nodup_append.mp hunique).2.1
  · intro link t' ht' he
    obtain ⟨t, ht, hheard⟩ := turned_task_of hallowed ht'
    have he' : Phase.early t.phase = true := by
      rcases hheard.phase with hsame | ⟨_, hfin⟩
      · rw [← hsame]
        exact he
      · rw [hfin] at he
        cases he
    rcases repliesTo_turn hb link with hnil | ⟨_, _, _, _, hin, _, _⟩
    · rw [hheard.reply, hnil]
      exact h.unanswered link t ht he'
    · -- an early task has no connect in the mailbox
      obtain ⟨_, _, t'', a, ht'', hp, _⟩ := h.oldest hrun (fed_command hinput hin).2
      obtain rfl := Option.some.inj (ht.symm.trans ht'')
      rw [hp] at he'
      cases he'

/-- **Step lemma of the mailbox.** -/
theorem registering_step {config : SessionConfig} {s s' : Server} {action : Action}
    {outputs : List ServerOutput} (h : Registering s)
    (hs : Stepped config s action s' outputs) : Registering s' := by
  cases hs with
  | accepted hnone => exact registering_accepted h hnone rfl
  | acted ht hact => exact registering_acted h ht hact
  | cleared => exact ⟨h.named, h.awaited, h.unique, h.unanswered⟩
  | @stopping response hrun =>
      have hlinks : connectLinks (s.mailbox ++ [.shutdown response])
          = connectLinks s.mailbox := by
        rw [connectLinks_append]
        exact List.append_nil _
      refine ⟨?_, ?_, ?_, h.unanswered⟩
      · intro capacity outbound link hm
        rcases List.mem_append.mp hm with hm | hm
        · exact h.named _ _ _ hm
        · cases (List.mem_singleton.mp hm)
      · intro hrun link hlink
        rw [hlinks] at hlink
        exact h.awaited hrun link hlink
      · rw [hlinks]
        exact h.unique
  | turned hinput hallowed hb => exact registering_turned h hinput hallowed hb

/-! ## Authorized tasks are not rejected -/

/-- The authorization a task has claimed and not yet answered. -/
def Phase.claim : Phase → Option Authorization
  | .connecting a | .awaiting a => some a
  | _ => none

/-- The phases after authorization. -/
def Phase.past : Phase → Bool
  | .receiving | .authorizing _ => false
  | _ => true

/-- The authorization of the task whose connect the broker handles next. -/
def claimant (s : Server) : Action → Option Authorization
  | .command _ _ _ =>
      match s.mailbox with
      | .connect _ _ link :: _ => (s.tasks link).bind (fun t => Phase.claim t.phase)
      | _ => none
  | _ => none

/-- The broker handles the connect of a task authorized in this way only while
    no session is registered. -/
def ClaimsAlone (kind : Authorization → Bool) (s : Server) (action : Action) : Prop :=
  ∀ a ∈ claimant s action, kind a = true → s.broker.actor.state.agent = .disconnected

instance (kind : Authorization → Bool) (s : Server) (action : Action) :
    Decidable (ClaimsAlone kind s action) :=
  inferInstanceAs (Decidable (∀ a ∈ claimant s action, _))

/-- A task that was authorized is past its authorization and claims that one, and
    no task of the kind has a refusal waiting. -/
structure Admitted (kind : Authorization → Bool) (h : List (Action × List ServerOutput))
    (s : Server) : Prop where
  registering : Registering s
  past : ∀ link a, Observed h (.authorized link a) →
    ∃ t, s.tasks link = some t ∧ Phase.past t.phase = true ∧ ∀ b ∈ Phase.claim t.phase, b = a
  unrefused : ∀ link t a, s.tasks link = some t → t.phase = .awaiting a → kind a = true →
    t.reply ≠ some (.error .remoteAlreadyConnected)

theorem admitted_new (kind : Authorization → Bool) (config : BrokerConfig)
    (pairing : PairingService) : Admitted kind [] (Server.new config pairing) where
  registering := registering_new config pairing
  past := fun _ _ ho => absurd ho not_observed_nil
  unrefused := fun _ _ _ ht => by cases ht

/-- Past its authorization a task claims nothing new. -/
theorem acted_past {config : SessionConfig} {p : PairingService} {stopped : Bool}
    {link : LinkId} {t : Task} {action : TaskAction} {r : TaskResult}
    (h : Acted config p stopped link t action r) (hp : Phase.past t.phase = true) :
    Phase.past r.task.phase = true ∧
      ∀ a ∈ Phase.claim r.task.phase, a ∈ Phase.claim t.phase := by
  have hnone : ∀ {a : Authorization}, a ∈ (none : Option Authorization) →
      a ∈ Phase.claim t.phase := fun ha => by cases ha
  cases h with
  | received h | ended h | rejected h _ | authorized h _ =>
      rw [h] at hp
      cases hp
  | posted _ _ _ | updated _ _ _ | forwarded _ _ => exact ⟨hp, fun a ha => ha⟩
  | connected h _ _ =>
      rw [h]
      exact ⟨rfl, fun a ha => ha⟩
  | broke _ _ | ponged _ | unavailable _ | registered _ _ | refused _ _ | responded _
  | unanswered _ | beat _ | disconnected _ | dropped _ => exact ⟨rfl, fun a ha => hnone ha⟩

/-- Only the authorizing step authorizes, and it claims what it authorizes. -/
theorem acted_authorized {config : SessionConfig} {p : PairingService} {stopped : Bool}
    {link other : LinkId} {t : Task} {action : TaskAction} {r : TaskResult} {a : Authorization}
    (h : Acted config p stopped link t action r) (ho : .authorized other a ∈ r.outputs) :
    other = link ∧ r.task.phase = .connecting a := by
  cases h with
  | authorized _ _ =>
      obtain ⟨rfl, rfl⟩ := ServerOutput.authorized.inj (List.mem_singleton.mp ho)
      exact ⟨rfl, rfl⟩
  | rejected _ _ | refused _ _ | responded _ | forwarded _ _ | beat _ =>
      cases (List.mem_singleton.mp ho)
  | received _ | ended _ | broke _ _ | posted _ _ _ | ponged _ | updated _ _ _
  | connected _ _ _ | unavailable _ | registered _ _ | unanswered _ | disconnected _
  | dropped _ => cases ho

/-- A task that awaits a reply after its own step has none. -/
theorem acted_reply {config : SessionConfig} {p : PairingService} {stopped : Bool}
    {link : LinkId} {t : Task} {action : TaskAction} {r : TaskResult} {a : Authorization}
    (h : Acted config p stopped link t action r) (hp : r.task.phase = .awaiting a)
    (hr : Phase.early t.phase = true → t.reply = none) : r.task.reply = none := by
  cases h with
  | connected h _ _ => exact hr (by rw [h]; rfl)
  | posted h _ _ | updated h _ _ | forwarded h _ =>
      cases (h.symm.trans hp)
  | received _ | ended _ | rejected _ _ | authorized _ _ | broke _ _ | ponged _ | unavailable _
  | registered _ _ | refused _ _ | responded _ | unanswered _ | beat _ | disconnected _
  | dropped _ => cases hp

/-- A task sends `Rejected` when it is refused its authorization or its session. -/
theorem acted_rejects {config : SessionConfig} {p : PairingService} {stopped : Bool}
    {link other : LinkId} {t : Task} {action : TaskAction} {r : TaskResult}
    (h : Acted config p stopped link t action r) (ho : .sent other .rejected ∈ r.outputs) :
    other = link ∧ r.task.phase = .finished ∧
      ((∃ message client_id credential now saved,
          action = .authorize client_id credential now saved ∧
          t.phase = .authorizing message ∧
          ∀ p' a, authorization config p client_id credential now saved message
            ≠ some (p', .ok a)) ∨
        ∃ a, t.phase = .awaiting a ∧ t.reply = some (.error .remoteAlreadyConnected)) := by
  cases h with
  | rejected hp hno =>
      obtain ⟨rfl, _⟩ := ServerOutput.sent.inj (List.mem_singleton.mp ho)
      exact ⟨rfl, rfl, Or.inl ⟨_, _, _, _, _, rfl, hp, hno⟩⟩
  | refused hp hr =>
      obtain ⟨rfl, _⟩ := ServerOutput.sent.inj (List.mem_singleton.mp ho)
      exact ⟨rfl, rfl, Or.inr ⟨_, hp, hr⟩⟩
  | @responded a session_id _ =>
      obtain ⟨_, hm⟩ := ServerOutput.sent.inj (List.mem_singleton.mp ho)
      cases a with
      | paired server_id client_id credential => cases hm
      | authenticated server_id client_id => cases hm
  | @forwarded command rest session_id client_id awaiting_pong _ _ =>
      obtain ⟨_, hm⟩ := ServerOutput.sent.inj (List.mem_singleton.mp ho)
      cases command with
      | request request_id attempt requested_at deadline packet context => cases hm
      | cancel request_id attempt => cases hm
  | authorized _ _ => cases (List.mem_singleton.mp ho)
  | beat _ => cases (ServerOutput.sent.inj (List.mem_singleton.mp ho)).2
  | received _ | ended _ | broke _ _ | posted _ _ _ | ponged _ | updated _ _ _
  | connected _ _ _ | unavailable _ | registered _ _ | unanswered _ | disconnected _
  | dropped _ => cases ho

/-- A turn refuses no task whose claim is alone. -/
theorem turned_unrefused {kind : Authorization → Bool} {s : Server} {action : Action}
    {mailbox : List Command} {input : Input} {sends : Option Nat} {now : Instant}
    {broker : Broker} {out : List Output} {link : LinkId} {t t' : Task} {a : Authorization}
    (halone : ClaimsAlone kind s action)
    (hinput : Fed s action mailbox input sends now)
    (hb : s.broker.step ⟨input, now, sends⟩ = some (broker, out))
    (ht : s.tasks link = some t) (hp : t.phase = .awaiting a) (hk : kind a = true)
    (hr : t.reply ≠ some (.error .remoteAlreadyConnected)) (hh : Heard out link t t') :
    t'.reply ≠ some (.error .remoteAlreadyConnected) := by
  rw [hh.reply]
  rcases repliesTo_turn hb link with hnil | ⟨_, _, session_id, _, hin, hres, hone⟩
  · rw [hnil]
    exact hr
  · obtain ⟨rfl, hmail⟩ := fed_command hinput hin
    have hclaim : a ∈ claimant s (.command session_id sends now) := by
      simp only [claimant, hmail, ht, Option.bind_some, hp]
      rfl
    have hfree := halone a hclaim hk
    rw [replyOf, if_pos hfree] at hres
    obtain ⟨_, rfl⟩ := Prod.mk.inj (Option.some.inj hres)
    rw [hone]
    intro he
    cases he

/-- **Step lemma of the handshake.** -/
theorem admitted_step {config : SessionConfig} {kind : Authorization → Bool}
    {h : List (Action × List ServerOutput)} {s s' : Server} {action : Action}
    {outputs : List ServerOutput} (halone : ClaimsAlone kind s action) (hadm : Admitted kind h s)
    (hs : Stepped config s action s' outputs) :
    Admitted kind (h ++ [(action, outputs)]) s' := by
  have hreg := registering_step hadm.registering hs
  cases hs with
  | @accepted link hnone =>
      refine ⟨hreg, ?_, ?_⟩
      · intro other a ho
        rcases observed_snoc.mp ho with ho | ho
        · obtain ⟨t, ht, hpast⟩ := hadm.past other a ho
          have hne : other ≠ link := by
            rintro rfl
            rw [hnone] at ht
            cases ht
          exact ⟨t, (Function.update_of_ne hne ..).trans ht, hpast⟩
        · cases ho
      · intro other t a ht hp hk
        rcases update_task_cases ht with ⟨_, rfl⟩ | ⟨_, ht⟩
        · cases hp
        · exact hadm.unrefused other t a ht hp hk
  | @acted link act t r ht hact =>
      refine ⟨hreg, ?_, ?_⟩
      · intro other a ho
        rcases observed_snoc.mp ho with ho | ho
        · obtain ⟨t', ht', hpast, hclaim⟩ := hadm.past other a ho
          by_cases hl : other = link
          · subst hl
            obtain rfl := Option.some.inj (ht.symm.trans ht')
            obtain ⟨hpast', hkeep⟩ := acted_past hact hpast
            exact ⟨r.task, Function.update_self .., hpast',
              fun b hb => hclaim b (hkeep b hb)⟩
          · exact ⟨t', (Function.update_of_ne hl ..).trans ht', hpast, hclaim⟩
        · obtain ⟨rfl, hp⟩ := acted_authorized hact ho
          refine ⟨r.task, Function.update_self .., ?_, ?_⟩
          · rw [hp]
            rfl
          · rw [hp]
            exact fun b hb => (Option.some.inj hb).symm
      · intro other t' a ht' hp hk
        rcases update_task_cases ht' with ⟨rfl, rfl⟩ | ⟨_, ht'⟩
        · -- a task begins to await with no reply
          rw [acted_reply hact hp (hadm.registering.unanswered other t ht)]
          intro he
          cases he
        · exact hadm.unrefused other t' a ht' hp hk
  | @turned _ mailbox input sends now broker out hinput hallowed hb =>
      refine ⟨hreg, ?_, ?_⟩
      · intro link a ho
        rcases observed_snoc.mp ho with ho | ho
        · obtain ⟨t, ht, hpast, hclaim⟩ := hadm.past link a ho
          obtain ⟨t', ht', hheard⟩ := turned_task out hallowed ht
          refine ⟨t', ht', ?_⟩
          rcases hheard.phase with hsame | ⟨_, hfin⟩
          · rw [hsame]
            exact ⟨hpast, hclaim⟩
          · rw [hfin]
            exact ⟨rfl, fun b hb => (by cases hb)⟩
        · obtain ⟨b, _, hb⟩ := List.mem_filterMap.mp ho
          exact absurd hb (external_ne_authorized link a b)
      · intro link t' a ht' hp hk
        obtain ⟨t, ht, hheard⟩ := turned_task_of hallowed ht'
        have hp' : t.phase = .awaiting a := by
          rcases hheard.phase with hsame | ⟨_, hfin⟩
          · exact hsame.symm.trans hp
          · rw [hfin] at hp
            cases hp
        exact turned_unrefused halone hinput hb ht hp' hk (hadm.unrefused link t a ht hp' hk)
          hheard
  | cleared =>
      refine ⟨hreg, ?_, hadm.unrefused⟩
      intro link a ho
      rcases observed_snoc.mp ho with ho | ho
      · exact hadm.past link a ho
      · cases ho
  | stopping _ =>
      refine ⟨hreg, ?_, hadm.unrefused⟩
      intro link a ho
      rcases observed_snoc.mp ho with ho | ho
      · exact hadm.past link a ho
      · cases ho

/-- A finished task stays finished. -/
theorem stepped_finished {config : SessionConfig} {s s' : Server} {action : Action}
    {outputs : List ServerOutput} (hs : Stepped config s action s' outputs) {link : LinkId}
    {t : Task} (ht : s.tasks link = some t) (hp : t.phase = .finished) :
    ∃ t', s'.tasks link = some t' ∧ t'.phase = .finished := by
  cases hs with
  | @accepted other hnone =>
      have hne : link ≠ other := by
        rintro rfl
        rw [hnone] at ht
        cases ht
      exact ⟨t, (Function.update_of_ne hne ..).trans ht, hp⟩
  | @acted other act t' r ht' hact =>
      have hne : link ≠ other := by
        rintro rfl
        obtain rfl := Option.some.inj (ht.symm.trans ht')
        exact acted_finished hact hp
      exact ⟨t, (Function.update_of_ne hne ..).trans ht, hp⟩
  | @turned _ mailbox input sends now broker out hinput hallowed hb =>
      obtain ⟨t', ht', hheard⟩ := turned_task out hallowed ht
      rcases hheard.phase with hsame | ⟨_, hfin⟩
      · exact ⟨t', ht', hsame.trans hp⟩
      · exact ⟨t', ht', hfin⟩
  | cleared => exact ⟨t, ht, hp⟩
  | stopping _ => exact ⟨t, ht, hp⟩

/-- What a step authorizes or rejects is the doing of one task. -/
theorem stepped_task {config : SessionConfig} {s s' : Server} {action : Action}
    {outputs : List ServerOutput} (hs : Stepped config s action s' outputs) {o : ServerOutput}
    (ho : o ∈ outputs) (hin : ∀ b, external b ≠ some o) :
    ∃ link act t r, s.tasks link = some t ∧ action = .task link act ∧
      Acted config s.pairing s.broker.stopped link t act r ∧
      o ∈ r.outputs ∧ s'.tasks link = some r.task := by
  cases hs with
  | @acted link act t r ht hact =>
      exact ⟨link, act, t, r, ht, rfl, hact, ho, Function.update_self ..⟩
  | turned _ _ _ =>
      obtain ⟨b, _, hb⟩ := List.mem_filterMap.mp ho
      exact absurd hb (hin b)
  | accepted _ | cleared | stopping _ => cases ho

section Rule

variable {config : SessionConfig} {kind : Authorization → Bool} {broker : BrokerConfig}
  {pairing : PairingService} {h : List (Action × List ServerOutput)} {s : Server}

/-- Runs of the server in which the tasks of a kind claim their session alone. -/
abbrev AloneRun (config : SessionConfig) (kind : Authorization → Bool) (broker : BrokerConfig)
    (pairing : PairingService) : List (Action × List ServerOutput) → Server → Prop :=
  Run (Fires (Server.step config) (ClaimsAlone kind)) (Server.new broker pairing)

/-- **Run lemma of the handshake.** -/
theorem run_admitted (hr : AloneRun config kind broker pairing h s) : Admitted kind h s := by
  induction hr with
  | nil => exact admitted_new kind broker pairing
  | snoc _ hs ih =>
      obtain ⟨halone, hstep⟩ := hs
      exact admitted_step halone ih (server_step_cases hstep)

/-- A task of the kind has not been authorized when it is rejected. -/
theorem rejected_step (hadm : Admitted kind h s) {s' : Server} {action : Action}
    {outputs : List ServerOutput} (hs : Stepped config s action s' outputs) {link : LinkId}
    (ho : .sent link .rejected ∈ outputs) {a : Authorization} (hk : kind a = true) :
    ¬ Observed h (.authorized link a) := by
  intro hauth
  obtain ⟨link', act, t, r, ht, _, hact, ho', _⟩ :=
    stepped_task hs ho (external_ne_sent link .rejected)
  obtain ⟨rfl, _, hcause⟩ := acted_rejects hact ho'
  obtain ⟨t', ht', hpast, hclaim⟩ := hadm.past link a hauth
  obtain rfl := Option.some.inj (ht.symm.trans ht')
  rcases hcause with ⟨message, _, _, _, _, _, hp, _⟩ | ⟨b, hp, hrefused⟩
  · rw [hp] at hpast
    cases hpast
  · have hb : b = a := hclaim b (by rw [hp]; rfl)
    subst hb
    exact hadm.unrefused link t b ht hp hk hrefused

/-- **Authorized tasks are not rejected.**  Along a run in which the tasks of a
    kind claim their session alone, a link that was sent `Rejected` is finished
    and was never authorized in that way. -/
theorem run_rejections (hr : AloneRun config kind broker pairing h s) (link : LinkId)
    (ho : Observed h (.sent link .rejected)) :
    (∃ t, s.tasks link = some t ∧ t.phase = .finished) ∧
      ∀ a, kind a = true → ¬ Observed h (.authorized link a) := by
  induction hr with
  | nil => exact absurd ho not_observed_nil
  | @snoc h s s' l hr hs ih =>
      obtain ⟨halone, hstep⟩ := hs
      have hs := server_step_cases hstep
      have hfin : ∃ t, s'.tasks link = some t ∧ t.phase = .finished := by
        rcases observed_snoc.mp ho with ho | ho
        · obtain ⟨⟨t, ht, hp⟩, _⟩ := ih ho
          exact stepped_finished hs ht hp
        · obtain ⟨link', act, t, r, _, _, hact, ho', ht'⟩ :=
            stepped_task hs ho (external_ne_sent link .rejected)
          obtain ⟨rfl, hp, _⟩ := acted_rejects hact ho'
          exact ⟨r.task, ht', hp⟩
      refine ⟨hfin, ?_⟩
      intro a hk hauth
      rcases observed_snoc.mp hauth with hauth | hauth
      · rcases observed_snoc.mp ho with ho | ho
        · exact (ih ho).2 a hk hauth
        · exact rejected_step (run_admitted hr) hs ho hk hauth
      · -- an authorizing step leaves its task connecting
        obtain ⟨link', act, t, r, _, _, hact, ho', ht'⟩ :=
          stepped_task hs hauth (external_ne_authorized link a)
        obtain ⟨rfl, hp⟩ := acted_authorized hact ho'
        obtain ⟨t'', ht'', hp''⟩ := hfin
        obtain rfl := Option.some.inj (ht'.symm.trans ht'')
        rw [hp] at hp''
        cases hp''

end Rule

/-! ## Refused pairings -/

/-- The client was created by the task of this link. -/
def CreatedBy (h : List (Action × List ServerOutput)) (link : LinkId) (client_id : Uuid) : Prop :=
  ∃ server_id credential, Observed h (.authorized link (.paired server_id client_id credential))

/-- The authorizations that created a client. -/
def Authorization.pairs : Authorization → Bool
  | .paired _ _ _ => true
  | .authenticated _ _ => false

/-- **A refused pairing leaves the slot free**, along every run in which the
    broker handles the connect of a task that has just paired only while no
    session is registered: the paired client was not created by a task that was
    sent `Rejected`. -/
theorem rejected_pairing_leaves_slot {config : SessionConfig} {broker : BrokerConfig}
    {pairing : PairingService} {h : List (Action × List ServerOutput)} {s : Server}
    (hr : AloneRun config Authorization.pairs broker pairing h s) {link : LinkId}
    (ho : Observed h (.sent link .rejected)) :
    ∀ client, s.pairing.state.client = some client → ¬ CreatedBy h link client.client_id := by
  rintro client _ ⟨server_id, credential, hauth⟩
  exact (run_rejections hr link ho).2 _ rfl hauth

/-- A server without primitives to speak of. -/
def plainConfig : SessionConfig := ⟨⟨id, fun _ => true⟩, [], 4⟩

/-- An unpaired server. -/
def unpaired : PairingService := ⟨none, ⟨⟨100⟩, none⟩, ⟨0, 0⟩, none⟩

/-- A device opens a WebSocket, asks to pair and gets as far as the broker's
    reply. -/
def pairAttempt (link : LinkId) (client_id : Uuid) (session_id : SessionId) : List Action :=
  [.accept link, .task link (.receive (some (.pairRequest "phone")) true),
   .task link (.authorize client_id (some [1]) 0 true), .task link .connect,
   .command session_id none 0, .task link .replied]

/-- A second device asks to pair while the first one is paired. -/
def secondDevice : List Action :=
  pairAttempt 1 ⟨1⟩ ⟨7⟩ ++
    [.accept 2, .task 2 (.receive (some (.pairRequest "tablet")) true),
     .task 2 (.authorize ⟨2⟩ (some [2]) 0 true)]

/-- It is rejected, and the paired client is still the first device. -/
theorem rejected_pairing_second_device :
    Observed (outcome (Server.step plainConfig) (ClaimsAlone Authorization.pairs)
      (.new ⟨5, 8⟩ unpaired) secondDevice).1 (.sent 2 .rejected) ∧
    ((outcome (Server.step plainConfig) (ClaimsAlone Authorization.pairs)
      (.new ⟨5, 8⟩ unpaired) secondDevice).2.pairing.state.client.map
        PairedClient.client_id) = some ⟨1⟩ ∧
    ∀ client, (outcome (Server.step plainConfig) (ClaimsAlone Authorization.pairs)
        (.new ⟨5, 8⟩ unpaired) secondDevice).2.pairing.state.client = some client →
      ¬ CreatedBy (outcome (Server.step plainConfig) (ClaimsAlone Authorization.pairs)
        (.new ⟨5, 8⟩ unpaired) secondDevice).1 2 client.client_id :=
  ⟨by decide, by decide,
   rejected_pairing_leaves_slot
     (run_outcome (Server.step plainConfig) (ClaimsAlone Authorization.pairs) secondDevice
       (by decide))
     (by decide)⟩

/-- Any action. -/
abbrev AnyAction (_ : Server) (_ : Action) : Prop := True

/-- The pairing is cleared while the first device's session is registered, and a
    second device pairs before that session is torn down. -/
def repairedTooSoon : List Action :=
  pairAttempt 1 ⟨1⟩ ⟨7⟩ ++ [.task 1 (.respond true), .clear true] ++ pairAttempt 2 ⟨2⟩ ⟨8⟩

/-- **The lost credential.**  The broker refuses the second device, which is sent
    `Rejected` and no credential, and the server stays paired with it. -/
theorem repaired_too_soon_keeps_client :
    Run (Fires (Server.step plainConfig) AnyAction) (.new ⟨5, 8⟩ unpaired)
      (outcome (Server.step plainConfig) AnyAction (.new ⟨5, 8⟩ unpaired) repairedTooSoon).1
      (outcome (Server.step plainConfig) AnyAction (.new ⟨5, 8⟩ unpaired) repairedTooSoon).2 ∧
    (outcome (Server.step plainConfig) AnyAction (.new ⟨5, 8⟩ unpaired)
      repairedTooSoon).1.flatMap Prod.snd
      = [.authorized 1 (.paired ⟨100⟩ ⟨1⟩ [1]), .sent 1 (.paired ⟨100⟩ ⟨1⟩ [1] ⟨7⟩ []),
         .authorized 2 (.paired ⟨100⟩ ⟨2⟩ [1]), .sent 2 .rejected] ∧
    ((outcome (Server.step plainConfig) AnyAction (.new ⟨5, 8⟩ unpaired)
      repairedTooSoon).2.pairing.state.client.map PairedClient.client_id) = some ⟨2⟩ ∧
    CreatedBy (outcome (Server.step plainConfig) AnyAction (.new ⟨5, 8⟩ unpaired)
      repairedTooSoon).1 2 ⟨2⟩ :=
  ⟨run_outcome (Server.step plainConfig) AnyAction repairedTooSoon (by decide), by decide,
   by decide, ⟨100⟩, [1], by decide⟩

end Handshake
