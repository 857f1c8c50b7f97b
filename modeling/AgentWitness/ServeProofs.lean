import AgentWitness.PairingProofs
import AgentWitness.BrokerWaitersProofs
import Mathlib.Logic.Function.Basic

/-! # The server: serve tasks, the pairing service and the broker

    `remote/session.rs` together with the parts it talks to.  Every upgraded
    WebSocket runs one `serve` task; between two awaits a task acts alone, so
    its position is a PHASE and each await is the boundary of a step.  Tasks
    reach the broker through its first-in first-out mailbox and hear from it on
    a oneshot reply and on their own outbound channel, both named by the link.

    What the outside decides is part of the action: which message arrives,
    whether a send succeeds, what is drawn at random, whether the store saves. -/

namespace Serve

open Packet KeyedMap BrokerModel BrokerTask BrokerWaiters RemoteProtocol Pairing Transition

/-- One upgraded WebSocket and its task. -/
abbrev LinkId := Nat

/-- Limits and keys of the server; all sessions get the same capacity. -/
structure SessionConfig where
  primitives : Primitives
  vapid_public_key : Bytes
  remote_capacity : Nat

/-- Where a `serve` task is. -/
inductive Phase where
  /-- Awaiting the first client message. -/
  | receiving
  /-- Holding it, before the pairing service has answered. -/
  | authorizing (message : ClientMessage)
  /-- Authorized, before `connect_remote` has posted its command. -/
  | connecting (authorization : Authorization)
  /-- Awaiting the broker's reply. -/
  | awaiting (authorization : Authorization)
  /-- Registered, before the handshake response is sent. -/
  | responding (authorization : Authorization) (session_id : SessionId)
  /-- In the loop of `run_authenticated`. -/
  | running (session_id : SessionId) (client_id : Uuid) (awaiting_pong : Bool)
  /-- Past the loop, before `remote_disconnected` has posted its command. -/
  | closing (session_id : SessionId)
  /-- About to drop the connection and the receiver of its channel. -/
  | dropping
  | finished
  deriving DecidableEq

/-- A `serve` task: the revocations it has seen, the broker's reply once it is
    there, and the commands waiting on its outbound channel. -/
structure Task where
  phase : Phase
  seen : Nat
  reply : Option (Except BrokerError SessionId)
  commands : List RemoteCommand

/-- What a task does next. -/
inductive TaskAction where
  /-- A frame arrives; `none` is an undecodable frame or the end of the
      stream. -/
  | receive (message : Option ClientMessage) (saved : Bool)
  | authorize (client_id : Uuid) (credential : Option Bytes) (now : UInt64) (saved : Bool)
  | connect
  | replied
  | respond (delivered : Bool)
  | forward (delivered : Bool)
  | heartbeat (delivered : Bool)
  | revoked
  /-- The daemon shuts down, or the broker has dropped the channel. -/
  | interrupted
  | disconnect
  | drop

/-- What the server does to the outside. -/
inductive ServerOutput where
  | sent (link : LinkId) (message : ServerMessage)
  /-- The pairing service has authorized the task. -/
  | authorized (link : LinkId) (authorization : Authorization)
  | woke (request : WakeRequest)
  | answered (response : ResponseId) (result : Except RequestError Bytes)
  | stopped (response : ResponseId)
  deriving DecidableEq

/-- What one task step changes. -/
structure TaskResult where
  task : Task
  posted : List Command
  pairing : PairingService
  outputs : List ServerOutput

def handshake_response (authorization : Authorization) (session_id : SessionId)
    (vapid_public_key : Bytes) : ServerMessage :=
  match authorization with
  | .paired server_id client_id credential =>
      .paired server_id client_id credential session_id vapid_public_key
  | .authenticated server_id _ => .authenticated server_id session_id vapid_public_key

/-- Post a session's command to the mailbox; a stopped broker has none, and the
    loop ends. -/
def Task.post (t : Task) (p : PairingService) (stopped : Bool) (session_id : SessionId)
    (command : Command) : TaskResult :=
  if stopped then ⟨{ t with phase := .closing session_id }, [], p, []⟩
  else ⟨t, [command], p, []⟩

/-- The end of a client's update: the loop ends unless it was persisted. -/
def Task.updated (t : Task) (session_id : SessionId)
    (r : PairingService × Except AuthorizationError Unit) : TaskResult :=
  match r.2 with
  | .ok () => ⟨t, [], r.1, []⟩
  | .error _ => ⟨{ t with phase := .closing session_id }, [], r.1, []⟩

/-- One decoded message in the loop. -/
def Task.handle_client_message (config : SessionConfig) (t : Task) (p : PairingService)
    (stopped : Bool) (session_id : SessionId) (client_id : Uuid) (saved : Bool) :
    ClientMessage → TaskResult
  | .agentReady => t.post p stopped session_id (.ready session_id)
  | .agentLocked => t.post p stopped session_id (.locked session_id)
  | .agentResponse request_id attempt packet =>
      t.post p stopped session_id (.response session_id request_id attempt packet)
  | .pong => ⟨{ t with phase := .running session_id client_id false }, [], p, []⟩
  | .setPushSubscription subscription =>
      t.updated session_id (p.set_push_subscription client_id subscription saved)
  | .setIdentities identities =>
      t.updated session_id (p.set_identities config.primitives client_id identities saved)
  | .pairRequest _ | .authenticate _ _ => ⟨{ t with phase := .closing session_id }, [], p, []⟩

/-- The pairing service's decision on the first message. -/
def authorization (config : SessionConfig) (p : PairingService) (client_id : Uuid)
    (credential : Option Bytes) (now : UInt64) (saved : Bool) :
    ClientMessage → Option (PairingService × Except AuthorizationError Authorization)
  | .pairRequest label =>
      some (p.pair config.primitives label client_id credential now saved)
  | .authenticate client_id credential =>
      some (p.authenticate config.primitives client_id credential now saved)
  | _ => none

/-- Send `Rejected` and return. -/
def Task.reject (t : Task) (p : PairingService) (link : LinkId) : TaskResult :=
  ⟨{ t with phase := .finished }, [], p, [.sent link .rejected]⟩

/-- One step of a `serve` task, if the phase allows it. -/
def Task.step (config : SessionConfig) (p : PairingService) (stopped : Bool) (link : LinkId)
    (t : Task) : TaskAction → Option TaskResult
  | .receive message saved =>
      match t.phase, message with
      | .receiving, none => some ⟨{ t with phase := .finished }, [], p, []⟩
      | .receiving, some message => some ⟨{ t with phase := .authorizing message }, [], p, []⟩
      | .running session_id _ _, none =>
          some ⟨{ t with phase := .closing session_id }, [], p, []⟩
      | .running session_id client_id _, some message =>
          some (t.handle_client_message config p stopped session_id client_id saved message)
      | _, _ => none
  | .authorize client_id credential now saved =>
      match t.phase with
      | .authorizing message =>
          match authorization config p client_id credential now saved message with
          | none => some (t.reject p link)
          | some (p', .error _) => some (t.reject p' link)
          | some (p', .ok authorization) =>
              some ⟨{ t with phase := .connecting authorization }, [], p',
                [.authorized link authorization]⟩
      | _ => none
  | .connect =>
      match t.phase with
      | .connecting authorization =>
          if config.remote_capacity = 0 ∨ stopped then
            some ⟨{ t with phase := .finished }, [], p, []⟩
          else
            some ⟨{ t with phase := .awaiting authorization },
              [.connect config.remote_capacity link link], p, []⟩
      | _ => none
  | .replied =>
      match t.phase with
      | .awaiting authorization =>
          match t.reply with
          | some (.ok session_id) =>
              some ⟨{ t with phase := .responding authorization session_id }, [], p, []⟩
          | some (.error .remoteAlreadyConnected) => some (t.reject p link)
          | some (.error _) => some ⟨{ t with phase := .finished }, [], p, []⟩
          | none =>
              if stopped then some ⟨{ t with phase := .finished }, [], p, []⟩ else none
      | _ => none
  | .respond delivered =>
      match t.phase with
      | .responding authorization session_id =>
          if delivered then
            some ⟨{ t with phase := .running session_id authorization.client_id false }, [], p,
              [.sent link
                (handshake_response authorization session_id config.vapid_public_key)]⟩
          else some ⟨{ t with phase := .closing session_id }, [], p, []⟩
      | _ => none
  | .forward delivered =>
      match t.phase, t.commands with
      | .running session_id _ _, command :: rest =>
          if delivered then
            some ⟨{ t with commands := rest }, [], p,
              [.sent link (ofRemoteCommand command)]⟩
          else some ⟨{ t with phase := .closing session_id, commands := rest }, [], p, []⟩
      | _, _ => none
  | .heartbeat delivered =>
      match t.phase with
      | .running session_id client_id awaiting_pong =>
          if awaiting_pong ∨ ¬ delivered then
            some ⟨{ t with phase := .closing session_id }, [], p, []⟩
          else
            some ⟨{ t with phase := .running session_id client_id true }, [], p,
              [.sent link .ping]⟩
      | _ => none
  | .revoked =>
      match t.phase with
      | .running session_id _ _ =>
          if p.revocations.version ≠ t.seen then
            some ⟨{ t with phase := .closing session_id }, [], p, []⟩
          else none
      | _ => none
  | .interrupted =>
      match t.phase with
      | .running session_id _ _ => some ⟨{ t with phase := .closing session_id }, [], p, []⟩
      | _ => none
  | .disconnect =>
      match t.phase with
      | .closing session_id =>
          some ⟨{ t with phase := .dropping },
            if stopped then [] else [.disconnected session_id], p, []⟩
      | _ => none
  | .drop =>
      match t.phase with
      | .dropping => some ⟨{ t with phase := .finished }, [], p, []⟩
      | _ => none

/-- The whole server. -/
structure Server where
  broker : Broker
  mailbox : List Command
  pairing : PairingService
  tasks : LinkId → Option Task

/-- What the server does next. -/
inductive Action where
  /-- A WebSocket is upgraded and its task subscribes to revocations. -/
  | accept (link : LinkId)
  | task (link : LinkId) (action : TaskAction)
  /-- The broker handles the oldest command of its mailbox. -/
  | command (session_id : SessionId) (sends : Option Nat) (now : Instant)
  /-- The broker takes another branch of its loop. -/
  | turn (input : Input) (sends : Option Nat) (now : Instant)
  | clear (saved : Bool)
  | shutdown (response : ResponseId)

/-- What a task hears of an output of the broker: commands on its channel and
    the reply to its connect. -/
def Task.hear (link : LinkId) (t : Task) : Output → Task
  | .sent outbound command =>
      if outbound = link then { t with commands := t.commands ++ [command] } else t
  | .registered response result =>
      if response = link then { t with reply := some result } else t
  | _ => t

/-- Every task after it has heard the outputs of a turn. -/
def deliver (tasks : LinkId → Option Task) (outputs : List Output) : LinkId → Option Task :=
  fun link => (tasks link).map (fun t => outputs.foldl (Task.hear link) t)

/-- What of the broker's outputs leaves the server. -/
def external : Output → Option ServerOutput
  | .woke request => some (.woke request)
  | .answered response result => some (.answered response result)
  | .stopped response => some (.stopped response)
  | .sent _ _ | .registered _ _ => none

/-- The channel a broker turn may send on: that of a session it registers, else
    that of the active one. -/
def Server.channel (s : Server) : Input → Option ChannelId
  | .command (.connect _ outbound _) _ => some outbound
  | _ => s.broker.actor.remote.map Prod.snd

/-- How many sends of a turn succeed: all while the receiver is there, none once
    it is dropped, any number if its task drops it meanwhile. -/
def Server.sendsAllowed (s : Server) (channel : Option ChannelId) (sends : Option Nat) : Bool :=
  match channel.bind s.tasks with
  | none => true
  | some t =>
      match t.phase with
      | .finished => sends = some 0
      | .dropping => true
      | _ => sends = none

/-- A task whose receiver was found dropped during a turn has finished. -/
def dropDuring (tasks : LinkId → Option Task) (channel : Option ChannelId)
    (sends : Option Nat) : LinkId → Option Task :=
  match channel, sends with
  | some link, some _ =>
      Function.update tasks link ((tasks link).map (fun t => { t with phase := .finished }))
  | _, _ => tasks

/-- A turn of the broker with everything it causes. -/
def Server.turn (s : Server) (mailbox : List Command) (input : Input) (sends : Option Nat)
    (now : Instant) : Option (Server × List ServerOutput) :=
  if s.sendsAllowed (s.channel input) sends then
    match s.broker.step ⟨input, now, sends⟩ with
    | none => none
    | some (broker, outputs) =>
        some ({ s with
          broker := broker
          mailbox := mailbox
          tasks := dropDuring (deliver s.tasks outputs) (s.channel input) sends },
          outputs.filterMap external)
  else none

/-- One step of the server. -/
def Server.step (config : SessionConfig) (s : Server) :
    Action → Option (Server × List ServerOutput)
  | .accept link =>
      match s.tasks link with
      | some _ => none
      | none =>
          let task : Task := ⟨.receiving, s.pairing.revocations.version, none, []⟩
          some ({ s with tasks := Function.update s.tasks link (some task) }, [])
  | .task link action =>
      match s.tasks link with
      | none => none
      | some t =>
          match t.step config s.pairing s.broker.stopped link action with
          | none => none
          | some r =>
              some ({ s with
                mailbox := s.mailbox ++ r.posted
                pairing := r.pairing
                tasks := Function.update s.tasks link (some r.task) }, r.outputs)
  | .command session_id sends now =>
      match s.mailbox with
      | [] => none
      | command :: rest => s.turn rest (.command command session_id) sends now
  | .turn input sends now =>
      match input with
      | .command _ _ | .commandsClosed => none
      | _ => s.turn s.mailbox input sends now
  | .clear saved => some ({ s with pairing := (s.pairing.clear saved).1 }, [])
  | .shutdown response =>
      if s.broker.stopped then none
      else some ({ s with mailbox := s.mailbox ++ [.shutdown response] }, [])

/-- A server that has just started: no task, an idle broker, any pairing. -/
def Server.new (config : BrokerConfig) (pairing : PairingService) : Server where
  broker := .new config
  mailbox := []
  pairing := pairing
  tasks := fun _ => none

/-! ## Inversion of a task step -/

/-- The command a message of the loop posts for its session. -/
def commandOf (session_id : SessionId) : ClientMessage → Option Command
  | .agentReady => some (.ready session_id)
  | .agentLocked => some (.locked session_id)
  | .agentResponse request_id attempt packet =>
      some (.response session_id request_id attempt packet)
  | _ => none

/-- The ways a task can act, each with its guard. -/
inductive Acted (config : SessionConfig) (p : PairingService) (stopped : Bool) (link : LinkId)
    (t : Task) : TaskAction → TaskResult → Prop where
  | ended {saved} : t.phase = .receiving →
      Acted config p stopped link t (.receive none saved)
        ⟨{ t with phase := .finished }, [], p, []⟩
  | received {message saved} : t.phase = .receiving →
      Acted config p stopped link t (.receive (some message) saved)
        ⟨{ t with phase := .authorizing message }, [], p, []⟩
  /-- The loop ends: the stream is over or broken, a message is out of place, a
      heartbeat is missed, the pairing is revoked or the daemon stops. -/
  | broke {action session_id client_id awaiting_pong commands} :
      t.phase = .running session_id client_id awaiting_pong → commands <:+ t.commands →
      Acted config p stopped link t action
        ⟨{ t with phase := .closing session_id, commands := commands }, [], p, []⟩
  | posted {message command saved session_id client_id awaiting_pong} :
      t.phase = .running session_id client_id awaiting_pong → stopped = false →
      commandOf session_id message = some command →
      Acted config p stopped link t (.receive (some message) saved) ⟨t, [command], p, []⟩
  | ponged {saved session_id client_id awaiting_pong} :
      t.phase = .running session_id client_id awaiting_pong →
      Acted config p stopped link t (.receive (some .pong) saved)
        ⟨{ t with phase := .running session_id client_id false }, [], p, []⟩
  | updated {message p' saved session_id client_id awaiting_pong} :
      t.phase = .running session_id client_id awaiting_pong →
      commandOf session_id message = none →
      (∃ subscription, p.set_push_subscription client_id subscription saved = (p', .ok ()))
        ∨ (∃ identities,
          p.set_identities config.primitives client_id identities saved = (p', .ok ())) →
      Acted config p stopped link t (.receive (some message) saved) ⟨t, [], p', []⟩
  | rejected {message client_id credential now saved} : t.phase = .authorizing message →
      (∀ p' a, authorization config p client_id credential now saved message
        ≠ some (p', .ok a)) →
      Acted config p stopped link t (.authorize client_id credential now saved)
        (t.reject p link)
  | authorized {message client_id credential now saved p' a} :
      t.phase = .authorizing message →
      authorization config p client_id credential now saved message = some (p', .ok a) →
      Acted config p stopped link t (.authorize client_id credential now saved)
        ⟨{ t with phase := .connecting a }, [], p', [.authorized link a]⟩
  | connected {a} : t.phase = .connecting a → config.remote_capacity ≠ 0 → stopped = false →
      Acted config p stopped link t .connect
        ⟨{ t with phase := .awaiting a }, [.connect config.remote_capacity link link], p, []⟩
  /-- The broker cannot be reached. -/
  | unavailable {action a} :
      t.phase = .connecting a
        ∨ (t.phase = .awaiting a ∧ (stopped = true ∨ t.reply ≠ none)) →
      Acted config p stopped link t action ⟨{ t with phase := .finished }, [], p, []⟩
  | registered {a session_id} : t.phase = .awaiting a → t.reply = some (.ok session_id) →
      Acted config p stopped link t .replied
        ⟨{ t with phase := .responding a session_id }, [], p, []⟩
  | refused {a} : t.phase = .awaiting a → t.reply = some (.error .remoteAlreadyConnected) →
      Acted config p stopped link t .replied (t.reject p link)
  | responded {a session_id} : t.phase = .responding a session_id →
      Acted config p stopped link t (.respond true)
        ⟨{ t with phase := .running session_id a.client_id false }, [], p,
          [.sent link (handshake_response a session_id config.vapid_public_key)]⟩
  | unanswered {a session_id} : t.phase = .responding a session_id →
      Acted config p stopped link t (.respond false)
        ⟨{ t with phase := .closing session_id }, [], p, []⟩
  | forwarded {command rest session_id client_id awaiting_pong} :
      t.phase = .running session_id client_id awaiting_pong → t.commands = command :: rest →
      Acted config p stopped link t (.forward true)
        ⟨{ t with commands := rest }, [], p, [.sent link (ofRemoteCommand command)]⟩
  | beat {session_id client_id} : t.phase = .running session_id client_id false →
      Acted config p stopped link t (.heartbeat true)
        ⟨{ t with phase := .running session_id client_id true }, [], p, [.sent link .ping]⟩
  | disconnected {session_id} : t.phase = .closing session_id →
      Acted config p stopped link t .disconnect
        ⟨{ t with phase := .dropping },
          if stopped then [] else [.disconnected session_id], p, []⟩
  | dropped : t.phase = .dropping →
      Acted config p stopped link t .drop ⟨{ t with phase := .finished }, [], p, []⟩

/-- A failed update of the client's record changes nothing. -/
theorem update_error {p p' : PairingService} {client_id : Uuid}
    {change : PairedClient → PairedClient} {saved : Bool} {e : AuthorizationError}
    (h : p.update client_id change saved = (p', .error e)) : p' = p := by
  unfold PairingService.update at h
  repeat' split at h
  all_goals first | exact (Prod.mk.inj h).1.symm | cases (Prod.mk.inj h).2

theorem set_identities_error {c : Primitives} {p p' : PairingService} {client_id : Uuid}
    {identities : List AgentIdentity} {saved : Bool} {e : AuthorizationError}
    (h : p.set_identities c client_id identities saved = (p', .error e)) : p' = p := by
  unfold PairingService.set_identities at h
  split at h
  · dsimp only at h
    split at h
    · cases (Prod.mk.inj h).2
    · rename_i e' he
      obtain ⟨hp, _⟩ := Prod.mk.inj h
      exact hp.symm.trans (update_error (Prod.ext rfl he))
  · exact (Prod.mk.inj h).1.symm

theorem handle_client_message_cases {config : SessionConfig} {t : Task} {p : PairingService}
    {stopped : Bool} {link : LinkId} {session_id : SessionId} {client_id : Uuid}
    {awaiting_pong : Bool} {saved : Bool} {message : ClientMessage}
    (hp : t.phase = .running session_id client_id awaiting_pong) :
    Acted config p stopped link t (.receive (some message) saved)
      (t.handle_client_message config p stopped session_id client_id saved message) := by
  have hpost : ∀ command, commandOf session_id message = some command →
      Acted config p stopped link t (.receive (some message) saved)
        (t.post p stopped session_id command) := by
    intro command hc
    unfold Task.post
    split
    · exact .broke hp (List.suffix_refl _)
    · rename_i hs
      exact .posted hp (Bool.eq_false_iff.mpr hs) hc
  cases message with
  | agentReady => exact hpost _ rfl
  | agentLocked => exact hpost _ rfl
  | agentResponse request_id attempt packet => exact hpost _ rfl
  | pong => exact .ponged hp
  | pairRequest label => exact .broke hp (List.suffix_refl _)
  | authenticate client_id credential => exact .broke hp (List.suffix_refl _)
  | setPushSubscription subscription =>
      show Acted _ _ _ _ _ _ (t.updated session_id _)
      cases hr : p.set_push_subscription client_id subscription saved with
      | mk p' result =>
          cases result with
          | ok u => exact .updated hp rfl (Or.inl ⟨subscription, hr⟩)
          | error e =>
              obtain rfl := update_error hr
              exact .broke hp (List.suffix_refl _)
  | setIdentities identities =>
      show Acted _ _ _ _ _ _ (t.updated session_id _)
      cases hr : p.set_identities config.primitives client_id identities saved with
      | mk p' result =>
          cases result with
          | ok u => exact .updated hp rfl (Or.inr ⟨identities, hr⟩)
          | error e =>
              obtain rfl := set_identities_error hr
              exact .broke hp (List.suffix_refl _)

/-- **Inversion of a task step.** -/
theorem task_step_cases {config : SessionConfig} {p : PairingService} {stopped : Bool}
    {link : LinkId} {t : Task} {action : TaskAction} {r : TaskResult}
    (h : t.step config p stopped link action = some r) :
    Acted config p stopped link t action r := by
  cases action with
  | receive message saved =>
      simp only [Task.step] at h
      split at h
      · obtain rfl := Option.some.inj h
        exact .ended ‹_›
      · obtain rfl := Option.some.inj h
        exact .received ‹_›
      · obtain rfl := Option.some.inj h
        exact .broke ‹_› (List.suffix_refl _)
      · obtain rfl := Option.some.inj h
        exact handle_client_message_cases ‹_›
      · cases h
  | authorize client_id credential now saved =>
      simp only [Task.step] at h
      split at h
      · rename_i message hp
        split at h
        · rename_i hnone
          obtain rfl := Option.some.inj h
          refine .rejected hp (fun p' a he => ?_)
          rw [hnone] at he
          cases he
        · rename_i p' e herr
          obtain rfl := Option.some.inj h
          have hsame : p' = p := by
            cases message with
            | pairRequest label => exact pair_error (Option.some.inj herr)
            | authenticate client_id credential =>
                exact (authenticate_error (Option.some.inj herr)).1
            | agentReady | agentLocked | agentResponse | setPushSubscription | setIdentities
            | pong => cases herr
          rw [hsame]
          refine .rejected hp (fun p'' a he => ?_)
          rw [herr] at he
          cases (Prod.mk.inj (Option.some.inj he)).2
        · rename_i p' a hok
          obtain rfl := Option.some.inj h
          exact .authorized hp hok
      · cases h
  | connect =>
      simp only [Task.step] at h
      split at h
      · rename_i a hp
        split at h
        · obtain rfl := Option.some.inj h
          exact .unavailable (Or.inl hp)
        · rename_i hopen
          obtain ⟨hcap, hrun⟩ := not_or.mp hopen
          obtain rfl := Option.some.inj h
          exact .connected hp hcap (Bool.eq_false_iff.mpr hrun)
      · cases h
  | replied =>
      simp only [Task.step] at h
      split at h
      · rename_i a hp
        split at h
        · obtain rfl := Option.some.inj h
          exact .registered hp ‹_›
        · obtain rfl := Option.some.inj h
          exact .refused hp ‹_›
        · rename_i hr
          obtain rfl := Option.some.inj h
          exact .unavailable (Or.inr ⟨hp, Or.inr (by rw [hr]; exact Option.some_ne_none _)⟩)
        · split at h
          · rename_i hs
            obtain rfl := Option.some.inj h
            exact .unavailable (Or.inr ⟨hp, Or.inl hs⟩)
          · cases h
      · cases h
  | respond delivered =>
      simp only [Task.step] at h
      split at h
      · rename_i a session_id hp
        cases delivered with
        | true =>
            obtain rfl := Option.some.inj h
            exact .responded hp
        | false =>
            obtain rfl := Option.some.inj h
            exact .unanswered hp
      · cases h
  | forward delivered =>
      simp only [Task.step] at h
      split at h
      · rename_i session_id client_id awaiting_pong command rest hp hc
        cases delivered with
        | true =>
            obtain rfl := Option.some.inj h
            exact .forwarded hp hc
        | false =>
            obtain rfl := Option.some.inj h
            exact .broke hp (hc ▸ List.suffix_cons command rest)
      · cases h
  | heartbeat delivered =>
      simp only [Task.step] at h
      split at h
      · rename_i session_id client_id awaiting_pong hp
        split at h
        · obtain rfl := Option.some.inj h
          exact .broke hp (List.suffix_refl _)
        · rename_i hgo
          obtain ⟨hpong, hdel⟩ := not_or.mp hgo
          obtain rfl := Bool.eq_false_iff.mpr hpong
          obtain rfl := not_not.mp hdel
          obtain rfl := Option.some.inj h
          exact .beat hp
      · cases h
  | revoked =>
      simp only [Task.step] at h
      split at h
      · rename_i hp
        split at h
        · obtain rfl := Option.some.inj h
          exact .broke hp (List.suffix_refl _)
        · cases h
      · cases h
  | interrupted =>
      simp only [Task.step] at h
      split at h
      · obtain rfl := Option.some.inj h
        exact .broke ‹_› (List.suffix_refl _)
      · cases h
  | disconnect =>
      simp only [Task.step] at h
      split at h
      · obtain rfl := Option.some.inj h
        exact .disconnected ‹_›
      · cases h
  | drop =>
      simp only [Task.step] at h
      split at h
      · obtain rfl := Option.some.inj h
        exact .dropped ‹_›
      · cases h

/-! ## Inversion of a server step -/

/-- The ways the server can step. -/
inductive Stepped (config : SessionConfig) (s : Server) :
    Action → Server → List ServerOutput → Prop where
  | accepted {link} : s.tasks link = none →
      Stepped config s (.accept link)
        { s with tasks := Function.update s.tasks link
                  (some ⟨.receiving, s.pairing.revocations.version, none, []⟩) } []
  | acted {link action t r} : s.tasks link = some t →
      Acted config s.pairing s.broker.stopped link t action r →
      Stepped config s (.task link action)
        { s with
          mailbox := s.mailbox ++ r.posted
          pairing := r.pairing
          tasks := Function.update s.tasks link (some r.task) } r.outputs
  /-- A turn of the broker, on the oldest command or on another input. -/
  | turned {action mailbox input sends now broker outputs} :
      (∃ command session_id, input = .command command session_id ∧
        action = .command session_id sends now ∧ s.mailbox = command :: mailbox)
        ∨ ((∀ command session_id, input ≠ .command command session_id) ∧
          input ≠ .commandsClosed ∧ action = .turn input sends now ∧ mailbox = s.mailbox) →
      s.sendsAllowed (s.channel input) sends = true →
      s.broker.step ⟨input, now, sends⟩ = some (broker, outputs) →
      Stepped config s action
        { s with
          broker := broker
          mailbox := mailbox
          tasks := dropDuring (deliver s.tasks outputs) (s.channel input) sends }
        (outputs.filterMap external)
  | cleared {saved} :
      Stepped config s (.clear saved) { s with pairing := (s.pairing.clear saved).1 } []
  | stopping {response} : s.broker.stopped = false →
      Stepped config s (.shutdown response)
        { s with mailbox := s.mailbox ++ [.shutdown response] } []

/-- **Inversion of a server step.** -/
theorem server_step_cases {config : SessionConfig} {s s' : Server} {action : Action}
    {outputs : List ServerOutput} (h : s.step config action = some (s', outputs)) :
    Stepped config s action s' outputs := by
  have hturn : ∀ {mailbox input sends now}, s.turn mailbox input sends now = some (s', outputs) →
      ∃ broker out, s.sendsAllowed (s.channel input) sends = true ∧
        s.broker.step ⟨input, now, sends⟩ = some (broker, out) ∧
        s' = { s with
          broker := broker
          mailbox := mailbox
          tasks := dropDuring (deliver s.tasks out) (s.channel input) sends } ∧
        outputs = out.filterMap external := by
    intro mailbox input sends now ht
    unfold Server.turn at ht
    split at ht
    · rename_i hallowed
      split at ht
      · cases ht
      · rename_i broker out hb
        obtain ⟨hs, ho⟩ := Prod.mk.inj (Option.some.inj ht)
        exact ⟨broker, out, hallowed, hb, hs.symm, ho.symm⟩
    · cases ht
  cases action with
  | accept link =>
      simp only [Server.step] at h
      split at h
      · cases h
      · rename_i hnone
        obtain ⟨rfl, rfl⟩ := Prod.mk.inj (Option.some.inj h)
        exact .accepted hnone
  | task link action =>
      simp only [Server.step] at h
      split at h
      · cases h
      · rename_i t ht
        split at h
        · cases h
        · rename_i r hr
          obtain ⟨rfl, rfl⟩ := Prod.mk.inj (Option.some.inj h)
          exact .acted ht (task_step_cases hr)
  | command session_id sends now =>
      simp only [Server.step] at h
      split at h
      · cases h
      · rename_i command rest hm
        obtain ⟨broker, out, hallowed, hb, rfl, rfl⟩ := hturn h
        exact .turned (Or.inl ⟨command, session_id, rfl, rfl, hm⟩) hallowed hb
  | turn input sends now =>
      simp only [Server.step] at h
      split at h
      · cases h
      · cases h
      · rename_i hnc hncl
        obtain ⟨broker, out, hallowed, hb, rfl, rfl⟩ := hturn h
        exact .turned (Or.inr ⟨hnc, hncl, rfl, rfl⟩) hallowed hb
  | clear saved =>
      obtain ⟨rfl, rfl⟩ := Prod.mk.inj (Option.some.inj h)
      exact .cleared
  | shutdown response =>
      simp only [Server.step] at h
      split at h
      · cases h
      · rename_i hrun
        obtain ⟨rfl, rfl⟩ := Prod.mk.inj (Option.some.inj h)
        exact .stopping (Bool.eq_false_iff.mpr hrun)

theorem external_ne_sent (link : LinkId) (message : ServerMessage) (b : Output) :
    external b ≠ some (.sent link message) := by
  cases b with
  | woke | answered | stopped =>
      intro h
      cases Option.some.inj h
  | sent | registered =>
      intro h
      cases h

theorem external_ne_authorized (link : LinkId) (a : Authorization) (b : Output) :
    external b ≠ some (.authorized link a) := by
  cases b with
  | woke | answered | stopped =>
      intro h
      cases Option.some.inj h
  | sent | registered =>
      intro h
      cases h

/-- A task found after one task was replaced is the new one or an old one. -/
theorem update_task_cases {tasks : LinkId → Option Task} {link other : LinkId} {t t' : Task}
    (h : Function.update tasks link (some t') other = some t) :
    (other = link ∧ t = t') ∨ (other ≠ link ∧ tasks other = some t) := by
  by_cases hl : other = link
  · subst hl
    rw [Function.update_self] at h
    exact Or.inl ⟨rfl, (Option.some.inj h).symm⟩
  · rw [Function.update_of_ne hl] at h
    exact Or.inr ⟨hl, h⟩

/-! ## What tasks hear -/

/-- The commands put on a link's channel. -/
def sentTo (link : LinkId) (outputs : List Output) : List RemoteCommand :=
  outputs.filterMap (fun
    | .sent outbound command => if outbound = link then some command else none
    | _ => none)

/-- The replies to a link's connect. -/
def repliesTo (link : LinkId) (outputs : List Output) :
    List (Except BrokerError SessionId) :=
  (outputs.filterMap registration).filterMap
    (fun r => if r.1 = link then some r.2 else none)

theorem sentTo_append (link : LinkId) (a b : List Output) :
    sentTo link (a ++ b) = sentTo link a ++ sentTo link b :=
  List.filterMap_append

theorem mem_sentTo {link : LinkId} {command : RemoteCommand} {outputs : List Output} :
    command ∈ sentTo link outputs ↔ .sent link command ∈ outputs := by
  constructor
  · intro h
    obtain ⟨o, ho, heq⟩ := List.mem_filterMap.mp h
    cases o with
    | sent outbound sent =>
        by_cases hl : outbound = link
        · subst hl
          simp only [if_true] at heq
          obtain rfl := Option.some.inj heq
          exact ho
        · simp only [if_neg hl] at heq
          cases heq
    | woke | answered | registered | stopped => cases heq
  · exact fun h => List.mem_filterMap.mpr ⟨_, h, if_pos rfl⟩

theorem repliesTo_append (link : LinkId) (a b : List Output) :
    repliesTo link (a ++ b) = repliesTo link a ++ repliesTo link b := by
  rw [repliesTo, List.filterMap_append, List.filterMap_append]
  rfl

/-- What a task hears of one output. -/
theorem hear_eq (link : LinkId) (t : Task) (o : Output) :
    t.hear link o = { t with
      commands := t.commands ++ sentTo link [o]
      reply := ((repliesTo link [o]).getLast?).or t.reply } := by
  have hnone : ∀ commands, { t with commands := t.commands ++ commands }
      = ({ t with
          commands := t.commands ++ commands
          reply := (([] : List (Except BrokerError SessionId)).getLast?).or t.reply } : Task) :=
    fun _ => rfl
  have hsame : t = { t with commands := t.commands ++ [] } := by rw [List.append_nil]
  cases o with
  | sent outbound command =>
      by_cases h : outbound = link
      · have hs : sentTo link [.sent outbound command] = [command] := by simp [sentTo, h]
        rw [Task.hear, if_pos h, hs]
        exact hnone [command]
      · have hs : sentTo link [.sent outbound command] = [] := by simp [sentTo, h]
        rw [Task.hear, if_neg h, hs]
        exact hsame.trans (hnone [])
  | registered response result =>
      by_cases h : response = link
      · have hr : repliesTo link [.registered response result] = [result] := by
          simp [repliesTo, registration, h]
        rw [Task.hear, if_pos h, hr]
        exact congrArg (fun c => { t with commands := c, reply := some result })
          (List.append_nil _).symm
      · have hr : repliesTo link [.registered response result] = [] := by
          simp [repliesTo, registration, h]
        rw [Task.hear, if_neg h, hr]
        exact hsame.trans (hnone [])
  | woke request => exact hsame.trans (hnone [])
  | answered response result => exact hsame.trans (hnone [])
  | stopped response => exact hsame.trans (hnone [])

theorem hear_all (link : LinkId) (outputs : List Output) (t : Task) :
    outputs.foldl (Task.hear link) t
      = { t with
          commands := t.commands ++ sentTo link outputs
          reply := ((repliesTo link outputs).getLast?).or t.reply } := by
  induction outputs generalizing t with
  | nil => simp [sentTo, repliesTo]
  | cons o rest ih =>
      have hs : sentTo link (o :: rest) = sentTo link [o] ++ sentTo link rest :=
        sentTo_append link [o] rest
      have hr : repliesTo link (o :: rest) = repliesTo link [o] ++ repliesTo link rest :=
        repliesTo_append link [o] rest
      rw [List.foldl_cons, ih, hear_eq, hs, hr, List.getLast?_append, Option.or_assoc,
        List.append_assoc]

/-- A task after a turn of the broker. -/
theorem deliver_some {tasks : LinkId → Option Task} (outputs : List Output) {link : LinkId}
    {t : Task} (h : tasks link = some t) :
    deliver tasks outputs link = some { t with
      commands := t.commands ++ sentTo link outputs
      reply := ((repliesTo link outputs).getLast?).or t.reply } := by
  rw [deliver, h]
  exact congrArg some (hear_all link outputs t)

/-- What a turn of the broker does to one task. -/
structure Heard (outputs : List Output) (link : LinkId) (t t' : Task) : Prop where
  phase : t'.phase = t.phase
    ∨ ((t.phase = .dropping ∨ t.phase = .finished) ∧ t'.phase = .finished)
  seen : t'.seen = t.seen
  commands : t'.commands = t.commands ++ sentTo link outputs
  reply : t'.reply = ((repliesTo link outputs).getLast?).or t.reply

/-- The drop during a turn concerns the turn's own channel only. -/
theorem dropDuring_cases (tasks : LinkId → Option Task) (channel : Option ChannelId)
    (sends : Option Nat) (link : LinkId) :
    dropDuring tasks channel sends link = tasks link ∨
      (channel = some link ∧ sends ≠ none ∧
        dropDuring tasks channel sends link
          = (tasks link).map (fun t => { t with phase := .finished })) := by
  cases channel with
  | none => exact Or.inl rfl
  | some active =>
      cases sends with
      | none => exact Or.inl rfl
      | some n =>
          by_cases hl : link = active
          · subst hl
            exact Or.inr ⟨rfl, Option.some_ne_none n, Function.update_self ..⟩
          · exact Or.inl (Function.update_of_ne hl ..)

/-- Only a task that is dropping its receiver can be finished by a turn. -/
theorem turned_task {s : Server} {input : Input} {sends : Option Nat} (outputs : List Output)
    (hallowed : s.sendsAllowed (s.channel input) sends = true) {link : LinkId} {t : Task}
    (ht : s.tasks link = some t) :
    ∃ t', dropDuring (deliver s.tasks outputs) (s.channel input) sends link = some t' ∧
      Heard outputs link t t' := by
  have hd := deliver_some outputs ht
  rcases dropDuring_cases (deliver s.tasks outputs) (s.channel input) sends link with
    heq | ⟨hch, hsends, heq⟩
  · rw [heq, hd]
    exact ⟨_, rfl, Or.inl rfl, rfl, rfl, rfl⟩
  · rw [heq, hd]
    refine ⟨_, rfl, Or.inr ⟨?_, rfl⟩, rfl, rfl, rfl⟩
    rw [Server.sendsAllowed, hch] at hallowed
    simp only [Option.bind_some, ht] at hallowed
    split at hallowed
    · exact Or.inr ‹_›
    · exact Or.inl ‹_›
    · exact absurd (of_decide_eq_true hallowed) hsends

theorem turned_task_of {s : Server} {input : Input} {sends : Option Nat}
    {outputs : List Output} (hallowed : s.sendsAllowed (s.channel input) sends = true)
    {link : LinkId} {t' : Task}
    (ht' : dropDuring (deliver s.tasks outputs) (s.channel input) sends link = some t') :
    ∃ t, s.tasks link = some t ∧ Heard outputs link t t' := by
  cases ht : s.tasks link with
  | none =>
      have hd : deliver s.tasks outputs link = none := by
        rw [deliver, ht]
        rfl
      rcases dropDuring_cases (deliver s.tasks outputs) (s.channel input) sends link with
        heq | ⟨_, _, heq⟩
      · rw [heq, hd] at ht'
        cases ht'
      · rw [heq, hd] at ht'
        cases ht'
  | some t =>
      obtain ⟨t'', ht'', hh⟩ := turned_task outputs hallowed ht
      obtain rfl := Option.some.inj (ht'.symm.trans ht'')
      exact ⟨t, rfl, hh⟩

end Serve
