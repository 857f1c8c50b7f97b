import AgentWitness.HandshakeProofs
import AgentWitness.PairingPolicyProofs

/-! # Sessions and the revocation of their pairing

    A `serve` task subscribes to revocations FIRST and is authorized later, so a
    clearing that falls between the two is one it has not seen.  From its
    authorization on, a task's client is the paired one or the counter has moved on
    since the task subscribed: pairings end only in `clear`, which counts up while it
    still holds the mutex.  Then the branch of the loop that leaves on a revocation is
    enabled. -/

namespace Revocation

open Packet BrokerModel BrokerTask RemoteProtocol Pairing PairingPolicy Serve Handshake Transition

/-- The paired client has this id. -/
def Pairs (p : PairingService) (client_id : Uuid) : Prop :=
  ∃ client, p.state.client = some client ∧ client.client_id = client_id

/-! ## What the service's operations do to the pairing -/

/-- **A pairing ends by a clearing only**, and that counts up. -/
theorem performed_pairs {c : Primitives} {p p' : PairingService} {saved : Bool} {op : Operation}
    {reply : Reply} (h : Performed c p saved op p' reply) :
    (p'.revocations.version = p.revocations.version ∧ ∀ client_id, Pairs p client_id → Pairs p' client_id)
      ∨ p.revocations.version < p'.revocations.version := by
  cases h with
  | refused _ | free _ => exact Or.inl ⟨rfl, fun _ hp => hp⟩
  | paired _ hc =>
      refine Or.inl ⟨rfl, ?_⟩
      rintro client_id ⟨client, hclient, _⟩
      cases hc.symm.trans hclient
  | @authenticated client _ _ _ hc _ | @subscribed client _ _ hc | @identified client _ _ hc _ =>
      refine Or.inl ⟨rfl, ?_⟩
      rintro client_id ⟨known, hknown, hid⟩
      obtain rfl := Option.some.inj (hc.symm.trans hknown)
      exact ⟨_, rfl, hid⟩
  | cleared _ _ => exact Or.inr (Nat.lt_succ_self _)

/-- Whom an operation authorizes is paired after it. -/
theorem performed_authorizes {c : Primitives} {p p' : PairingService} {saved : Bool}
    {op : Operation} {a : Authorization}
    (h : Performed c p saved op p' (.authorized (.ok a))) : Pairs p' a.client_id := by
  cases h with
  | refused herr => cases herr
  | paired _ _ => exact ⟨_, rfl, rfl⟩
  | authenticated _ _ _ => exact ⟨_, rfl, rfl⟩

/-- The decision on a first message is an operation of the service. -/
theorem authorization_performed {config : SessionConfig} {p p' : PairingService} {client_id : Uuid}
    {credential : Option Bytes} {now : UInt64} {saved : Bool} {message : ClientMessage}
    {result : Except AuthorizationError Authorization}
    (h : authorization config p client_id credential now saved message = some (p', result)) :
    ∃ op, Performed config.primitives p saved op p' (.authorized result) := by
  cases message with
  | pairRequest label =>
      have hcases := perform_cases config.primitives p saved (.pair label client_id credential now)
      rw [perform, Option.some.inj h] at hcases
      exact ⟨_, hcases⟩
  | authenticate client_id credential =>
      have hcases := perform_cases config.primitives p saved (.authenticate client_id credential now)
      rw [perform, Option.some.inj h] at hcases
      exact ⟨_, hcases⟩
  | agentReady | agentLocked | agentResponse | setPushSubscription | setIdentities | pong =>
      cases h

/-! ## What a task's step does -/

/-- The client a task is authorized as. -/
def authorizedAs : Phase → Option Uuid
  | .connecting a | .awaiting a | .responding a _ => some a.client_id
  | .running _ client_id _ => some client_id
  | .receiving | .authorizing _ | .closing _ | .dropping | .finished => none

/-- What a step keeps of a task and of the service: the task's receiver is the one
    it subscribed, and it is authorized by the service or as before. -/
structure Tracks (p p' : PairingService) (t t' : Task) : Prop where
  seen : t'.seen = t.seen
  authorized : ∀ client_id, authorizedAs t'.phase = some client_id →
    authorizedAs t.phase = some client_id ∨ Pairs p' client_id
  service : p' = p ∨ ∃ c saved op reply, Performed c p saved op p' reply

theorem acted_tracks {config : SessionConfig} {p : PairingService} {stopped : Bool} {link : LinkId}
    {t : Task} {action : TaskAction} {r : TaskResult}
    (h : Acted config p stopped link t action r) : Tracks p r.pairing t r.task := by
  -- a task that stops here, or stays where it is
  have hleft : ∀ {phase commands}, authorizedAs phase = none →
      Tracks p p t { t with phase := phase, commands := commands } := by
    intro phase commands hnone
    refine ⟨rfl, ?_, Or.inl rfl⟩
    intro client_id hc
    cases hnone.symm.trans hc
  have hsame : ∀ {phase commands}, authorizedAs phase = authorizedAs t.phase →
      Tracks p p t { t with phase := phase, commands := commands } := by
    intro phase commands heq
    refine ⟨rfl, ?_, Or.inl rfl⟩
    intro client_id hc
    exact Or.inl (heq.symm.trans hc)
  cases h with
  | ended _ | received _ | broke _ _ | rejected _ _ | unavailable _ | refused _ _ | unanswered _
  | disconnected _ | dropped _ => exact hleft rfl
  | posted _ _ _ => exact hsame rfl
  | forwarded _ _ => exact hsame rfl
  | ponged hp | connected hp _ _ | registered hp _ | responded hp | beat hp =>
      refine hsame ?_
      rw [hp]
      rfl
  | @updated message p' saved session_id client_id awaiting_pong hp hmsg hupdate =>
      refine ⟨rfl, fun _ hc => Or.inl hc, Or.inr ?_⟩
      rcases hupdate with ⟨subscription, hok⟩ | ⟨identities, hok⟩
      · have hcases := perform_cases config.primitives p saved
          (.set_push_subscription client_id subscription)
        rw [perform, hok] at hcases
        exact ⟨_, _, _, _, hcases⟩
      · have hcases := perform_cases config.primitives p saved
          (.set_identities client_id identities)
        rw [perform, hok] at hcases
        exact ⟨_, _, _, _, hcases⟩
  | authorized _ hok =>
      obtain ⟨op, hperformed⟩ := authorization_performed hok
      refine ⟨rfl, ?_, Or.inr ⟨_, _, _, _, hperformed⟩⟩
      intro client_id hc
      obtain rfl := Option.some.inj hc
      exact Or.inr (performed_authorizes hperformed)

/-! ## The invariant -/

/-- Every task knows only revocations that were, and one whose client is no longer
    the paired one has not seen the latest. -/
structure Noticed (p : PairingService) (t : Task) : Prop where
  subscribed : t.seen ≤ p.revocations.version
  unseen : ∀ client_id, authorizedAs t.phase = some client_id →
    Pairs p client_id ∨ t.seen < p.revocations.version

theorem noticed_tracks {p p' : PairingService} {t t' : Task} (h : Noticed p t)
    (ht : Tracks p p' t t') : Noticed p' t' := by
  have hservice : (p'.revocations.version = p.revocations.version ∧
      ∀ client_id, Pairs p client_id → Pairs p' client_id) ∨ p.revocations.version < p'.revocations.version := by
    rcases ht.service with rfl | ⟨_, _, _, _, hperformed⟩
    · exact Or.inl ⟨rfl, fun _ hp => hp⟩
    · exact performed_pairs hperformed
  have hsub := h.subscribed
  rcases hservice with ⟨hcount, hkept⟩ | hlater
  · constructor
    · rw [ht.seen, hcount]
      exact hsub
    · intro client_id hc
      rcases ht.authorized client_id hc with hold | hnow
      · rw [ht.seen, hcount]
        rcases h.unseen client_id hold with hpairs | hunseen
        · exact Or.inl (hkept client_id hpairs)
        · exact Or.inr hunseen
      · exact Or.inl hnow
  · -- a clearing: no task has seen it
    have hunseen : t'.seen < p'.revocations.version := by
      rw [ht.seen]
      omega
    exact ⟨Nat.le_of_lt hunseen, fun _ _ => Or.inr hunseen⟩

/-- **Step lemma.**  Whatever one task, the broker or an operator does, every task
    stays informed. -/
theorem stepped_noticed {config : SessionConfig} {s s' : Server} {action : Action}
    {outputs : List ServerOutput} (hs : Stepped config s action s' outputs)
    (h : ∀ link t, s.tasks link = some t → Noticed s.pairing t) :
    ∀ link t, s'.tasks link = some t → Noticed s'.pairing t := by
  intro link t ht
  cases hs with
  | @accepted other hnone =>
      rcases update_task_cases ht with ⟨_, rfl⟩ | ⟨_, hold⟩
      · exact ⟨Nat.le_refl _, fun _ hc => (by cases hc)⟩
      · exact h link t hold
  | @acted other act t' r ht' hact =>
      have htracks := acted_tracks hact
      rcases update_task_cases ht with ⟨_, rfl⟩ | ⟨_, hold⟩
      · exact noticed_tracks (h other t' ht') htracks
      · exact noticed_tracks (h link t hold) ⟨rfl, fun _ hc => Or.inl hc, htracks.service⟩
  | turned _ hallowed _ =>
      obtain ⟨t₀, ht₀, hheard⟩ := turned_task_of hallowed ht
      refine noticed_tracks (h link t₀ ht₀) ⟨hheard.seen, ?_, Or.inl rfl⟩
      intro client_id hc
      rcases hheard.phase with hsame | ⟨_, hfinished⟩
      · exact Or.inl (hsame ▸ hc)
      · rw [hfinished] at hc
        cases hc
  | @cleared saved =>
      have hcases := perform_cases config.primitives s.pairing saved .clear
      exact noticed_tracks (h link t ht)
        ⟨rfl, fun _ hc => Or.inl hc, Or.inr ⟨_, _, _, _, hcases⟩⟩
  | stopping _ => exact h link t ht

/-- Runs of the server, under any schedule. -/
abbrev ServerRun (config : SessionConfig) (broker : BrokerConfig) (pairing : PairingService) :
    List (Action × List ServerOutput) → Server → Prop :=
  Run (Fires (Server.step config) AnyAction) (Server.new broker pairing)

/-- **Run lemma.** -/
theorem run_noticed {config : SessionConfig} {broker : BrokerConfig} {pairing : PairingService}
    {h : List (Action × List ServerOutput)} {s : Server}
    (hr : ServerRun config broker pairing h s) :
    ∀ link t, s.tasks link = some t → Noticed s.pairing t := by
  induction hr with
  | nil =>
      intro link t ht
      cases ht
  | snoc _ hs ih => exact stepped_noticed (server_step_cases hs.2) ih

/-- **No session outlives its pairing unnoticed.**  Along every run of the server, a
    task in the loop that was authorized as some client is authorized as the paired
    one, or it can leave the loop on a revocation it has not seen. -/
theorem session_outlives_pairing_noticed {config : SessionConfig} {broker : BrokerConfig}
    {pairing : PairingService} {h : List (Action × List ServerOutput)} {s : Server}
    (hr : ServerRun config broker pairing h s) {link : LinkId} {t : Task} {session_id : SessionId}
    {client_id : Uuid} {awaiting_pong : Bool} (ht : s.tasks link = some t)
    (hp : t.phase = .running session_id client_id awaiting_pong) :
    Pairs s.pairing client_id ∨
      (t.seen < s.pairing.revocations.version ∧
        t.step config s.pairing s.broker.stopped link .revoked
          = some ⟨{ t with phase := .closing session_id }, [], s.pairing, []⟩) := by
  have hclient : authorizedAs t.phase = some client_id := by rw [hp]; rfl
  rcases (run_noticed hr link t ht).unseen client_id hclient with hpairs | hunseen
  · exact Or.inl hpairs
  · refine Or.inr ⟨hunseen, ?_⟩
    simp only [Task.step, hp]
    rw [if_pos (Nat.ne_of_gt hunseen)]

/-- The server after the pairing of a running first device was cleared and a second
    device paired. -/
def repaired : Server :=
  (outcome (Server.step plainConfig) AnyAction (.new ⟨5, 8⟩ unpaired) repairedTooSoon).2

/-- The first device is still in its loop, and it can leave. -/
theorem session_outlives_pairing_first_device :
    (repaired.tasks 1).map Task.phase = some (.running ⟨7⟩ ⟨1⟩ false) ∧
      ∀ t, repaired.tasks 1 = some t → t.seen < repaired.pairing.revocations.version := by
  have hphase : (repaired.tasks 1).map Task.phase = some (.running ⟨7⟩ ⟨1⟩ false) := by decide
  have hother : repaired.pairing.state.client.map PairedClient.client_id = some ⟨2⟩ := by decide
  refine ⟨hphase, ?_⟩
  intro t ht
  have hp : t.phase = .running ⟨7⟩ ⟨1⟩ false := by
    rw [ht] at hphase
    exact Option.some.inj hphase
  rcases session_outlives_pairing_noticed
      (run_outcome (Server.step plainConfig) AnyAction repairedTooSoon (by decide)) ht hp with
    ⟨client, hclient, hid⟩ | ⟨hunseen, _⟩
  · rw [show repaired.pairing.state.client = some client from hclient] at hother
    exact absurd (hid.symm.trans (Option.some.inj hother)) (by decide)
  · exact hunseen

end Revocation
