import AgentWitness.PairingProofs
import AgentWitness.TransitionProofs

/-! # The pairing policy over whole histories

    The service keeps the pairing three times: in the store, behind the mutex and,
    as far as the identities go, in a watched value.  Each operation holds the mutex
    throughout, so a history of the service is a sequence of whole operations, and
    the store may fail at any of them.

    What one operation can do is said once (`Performed`): it either changes NOTHING,
    or it commits one new state to all three places.  That `pair` leaves the watched
    identities alone is right only because no unpaired state publishes any, which is
    a fact about histories and not about `pair`. -/

namespace PairingPolicy

open Packet RemoteProtocol Pairing Transition

/-! ## Operations -/

/-- A call to the service, with what it draws at random and the clock it reads. -/
inductive Operation where
  | pair (label : String) (client_id : Uuid) (credential : Option Bytes) (now : UInt64)
  | authenticate (client_id : Uuid) (credential : Bytes) (now : UInt64)
  | set_push_subscription (client_id : Uuid) (subscription : PushSubscription)
  | set_identities (client_id : Uuid) (identities : List AgentIdentity)
  | clear
  deriving DecidableEq

/-- What a call returns.  `cleared none` is the store's error. -/
inductive Reply where
  | authorized (result : Except AuthorizationError Authorization)
  | updated (result : Except AuthorizationError Unit)
  | cleared (result : Option Bool)
  deriving DecidableEq

/-- Whether the call returned `Err`. -/
def Reply.isErr : Reply → Bool
  | .authorized (.error _) | .updated (.error _) | .cleared none => true
  | .authorized (.ok _) | .updated (.ok _) | .cleared (some _) => false

/-- Run a call; `saved` says whether the store's `save` succeeds if it is called. -/
def perform (c : Primitives) (p : PairingService) (saved : Bool) : Operation → PairingService × Reply
  | .pair label client_id credential now =>
      let r := p.pair c label client_id credential now saved
      (r.1, .authorized r.2)
  | .authenticate client_id credential now =>
      let r := p.authenticate c client_id credential now saved
      (r.1, .authorized r.2)
  | .set_push_subscription client_id subscription =>
      let r := p.set_push_subscription client_id subscription saved
      (r.1, .updated r.2)
  | .set_identities client_id identities =>
      let r := p.set_identities c client_id identities saved
      (r.1, .updated r.2)
  | .clear =>
      let r := p.clear saved
      (r.1, .cleared r.2)

/-- The identities a state publishes. -/
def published (state : PairingState) : Option (List AgentIdentity) :=
  state.client.bind PairedClient.identities

/-- The service over a loaded or new state, unless its identities are invalid. -/
def serviceOf (c : Primitives) (state : PairingState) : Option PairingService :=
  if (published state).all c.validate_identities then
    some ⟨some state, state, ⟨0, 0⟩, published state⟩
  else none

/-- `PairingService::open`: load the state, or save a new one under a drawn server
    id.  `loaded` is what the store's `load` returns, `none` being its error. -/
def open_service (c : Primitives) (loaded : Option (Option PairingState)) (server_id : Uuid)
    (saved : Bool) : Option PairingService :=
  match loaded with
  | none => none
  | some (some state) => serviceOf c state
  | some none => if saved then serviceOf c ⟨server_id, none⟩ else none

/-! ## What one operation can do -/

/-- The client a successful `pair` registers. -/
def newClient (c : Primitives) (label : String) (client_id : Uuid) (credential : Bytes)
    (now : UInt64) : PairedClient where
  client_id := client_id
  credential_hash := c.digest credential
  label := label
  created_at := now
  last_seen_at := none
  push_subscription := none
  identities := none

/-- What a call can do to the service.  All but the first two save a state, and they
    succeed only if that did. -/
inductive Performed (c : Primitives) (p : PairingService) (saved : Bool) :
    Operation → PairingService → Reply → Prop where
  | refused {op reply} : reply.isErr = true → Performed c p saved op p reply
  | free : p.state.client = none → Performed c p saved .clear p (.cleared (some false))
  | paired {label client_id credential now} : saved = true → p.state.client = none →
      Performed c p saved (.pair label client_id (some credential) now)
        (p.commit ⟨p.state.server_id, some (newClient c label client_id credential now)⟩)
        (.authorized (.ok (.paired p.state.server_id client_id credential)))
  | authenticated {client credential now} : saved = true → p.state.client = some client →
      client.credential_hash = c.digest credential →
      Performed c p saved (.authenticate client.client_id credential now)
        (p.commit { p.state with client := some { client with last_seen_at := some now } })
        (.authorized (.ok (.authenticated p.state.server_id client.client_id)))
  | subscribed {client subscription} : saved = true → p.state.client = some client →
      Performed c p saved (.set_push_subscription client.client_id subscription)
        (p.commit { p.state with
          client := some { client with push_subscription := some subscription } })
        (.updated (.ok ()))
  | identified {client identities} : saved = true → p.state.client = some client →
      c.validate_identities identities = true →
      Performed c p saved (.set_identities client.client_id identities)
        { p.commit { p.state with client := some { client with identities := some identities } } with
          identities := some identities }
        (.updated (.ok ()))
  | cleared {client} : saved = true → p.state.client = some client →
      Performed c p saved .clear
        { p.commit ⟨p.state.server_id, none⟩ with
          identities := none
          revocations := p.revocations.send_modify (· + 1) }
        (.cleared (some true))

/-- The two updates of the paired client share their checks. -/
theorem update_cases (p : PairingService) (client_id : Uuid) (change : PairedClient → PairedClient)
    (saved : Bool) :
    (∃ e, p.update client_id change saved = (p, .error e)) ∨
      ∃ client, saved = true ∧ p.state.client = some client ∧ client.client_id = client_id ∧
        p.update client_id change saved
          = (p.commit { p.state with client := some (change client) }, .ok ()) := by
  cases hc : p.state.client with
  | none =>
      left
      exact ⟨.notPaired, by simp only [PairingService.update, hc]⟩
  | some client =>
      by_cases hid : client.client_id = client_id
      · cases saved with
        | false =>
            left
            exact ⟨.storage, by simp [PairingService.update, hc, hid]⟩
        | true =>
            right
            exact ⟨client, rfl, rfl, hid, by simp [PairingService.update, hc, hid]⟩
      · left
        exact ⟨.rejected, by simp [PairingService.update, hc, hid]⟩

/-- **Inversion of an operation.** -/
theorem perform_cases (c : Primitives) (p : PairingService) (saved : Bool) (op : Operation) :
    Performed c p saved op (perform c p saved op).1 (perform c p saved op).2 := by
  cases op with
  | pair label client_id credential now =>
      simp only [perform, PairingService.pair]
      cases hc : p.state.client with
      | some client => exact .refused rfl
      | none =>
          cases credential with
          | none => exact .refused rfl
          | some credential =>
              cases saved with
              | false => exact .refused rfl
              | true => exact .paired rfl hc
  | authenticate client_id credential now =>
      simp only [perform, PairingService.authenticate]
      cases hc : p.state.client with
      | none => exact .refused rfl
      | some client =>
          dsimp only
          split
          · exact .refused rfl
          · rename_i hmatch
            obtain ⟨hid, hhash⟩ := not_or.mp hmatch
            obtain rfl := not_not.mp hid
            cases saved with
            | false => exact .refused rfl
            | true => exact .authenticated rfl hc (not_not.mp hhash)
  | set_push_subscription client_id subscription =>
      simp only [perform, PairingService.set_push_subscription]
      rcases update_cases p client_id _ saved with ⟨e, he⟩ | ⟨client, hsaved, hc, rfl, hok⟩
      · rw [he]
        exact .refused rfl
      · rw [hok]
        exact .subscribed hsaved hc
  | set_identities client_id identities =>
      simp only [perform, PairingService.set_identities]
      split
      · rename_i hvalid
        rcases update_cases p client_id _ saved with ⟨e, he⟩ | ⟨client, hsaved, hc, rfl, hok⟩
        · rw [he]
          exact .refused rfl
        · rw [hok]
          exact .identified hsaved hc hvalid
      · exact .refused rfl
  | clear =>
      simp only [perform, PairingService.clear]
      cases hc : p.state.client with
      | none => exact .free hc
      | some client =>
          cases saved with
          | false => exact .refused rfl
          | true => exact .cleared rfl hc

/-- What the policy demands of one operation. -/
structure Obeys (p : PairingService) (op : Operation) (p' : PairingService) (reply : Reply) :
    Prop where
  /-- `Err` has changed neither the state nor the store, nor the watched values. -/
  refused : reply.isErr = true → p' = p
  /-- Pairing needs the free slot. -/
  paired : ∀ label client_id credential now authorization,
    op = .pair label client_id credential now → reply = .authorized (.ok authorization) →
      p.state.client = none
  /-- Updates are for the paired client, and each changes its own field. -/
  subscribed : ∀ client_id subscription,
    op = .set_push_subscription client_id subscription → reply = .updated (.ok ()) →
      ∃ client, p.state.client = some client ∧ client.client_id = client_id ∧
        p' = p.commit { p.state with
          client := some { client with push_subscription := some subscription } }
  identified : ∀ client_id identities,
    op = .set_identities client_id identities → reply = .updated (.ok ()) →
      ∃ client, p.state.client = some client ∧ client.client_id = client_id ∧
        p' = { p.commit { p.state with
          client := some { client with identities := some identities } } with
            identities := some identities }
  /-- The counter, a `u64`, goes up with each clearing, and with nothing else. -/
  revoked : p'.revocations.value
    = p.revocations.value + if op = .clear ∧ reply = .cleared (some true) then 1 else 0

theorem performed_obeys {c : Primitives} {p p' : PairingService} {saved : Bool} {op : Operation}
    {reply : Reply} (h : Performed c p saved op p' reply) : Obeys p op p' reply := by
  cases h with
  | @refused op reply herr =>
      refine ⟨fun _ => rfl, ?_, ?_, ?_, ?_⟩
      · rintro _ _ _ _ _ _ rfl
        cases herr
      · rintro _ _ _ rfl
        cases herr
      · rintro _ _ _ rfl
        cases herr
      · have hnot : ¬ (op = .clear ∧ reply = .cleared (some true)) := by
          rintro ⟨_, rfl⟩
          cases herr
        rw [if_neg hnot]
        exact (UInt64.add_zero _).symm
  | free _ => exact ⟨fun h => (by cases h), by simp, by simp, by simp, by simp⟩
  | paired _ hc =>
      refine ⟨fun h => (by cases h), fun _ _ _ _ _ _ _ => hc, by simp, by simp, ?_⟩
      rw [if_neg (fun h => by cases h.1)]
      exact (UInt64.add_zero _).symm
  | authenticated _ _ _ =>
      refine ⟨fun h => (by cases h), by simp, by simp, by simp, ?_⟩
      rw [if_neg (fun h => by cases h.1)]
      exact (UInt64.add_zero _).symm
  | @subscribed client _ _ hc =>
      refine ⟨fun h => (by cases h), by simp, ?_, by simp, ?_⟩
      · intro client_id subscription hop _
        obtain ⟨rfl, rfl⟩ := Operation.set_push_subscription.inj hop
        exact ⟨client, hc, rfl, rfl⟩
      · rw [if_neg (fun h => by cases h.1)]
        exact (UInt64.add_zero _).symm
  | @identified client _ _ hc _ =>
      refine ⟨fun h => (by cases h), by simp, by simp, ?_, ?_⟩
      · intro client_id identities hop _
        obtain ⟨rfl, rfl⟩ := Operation.set_identities.inj hop
        exact ⟨client, hc, rfl, rfl⟩
      · rw [if_neg (fun h => by cases h.1)]
        exact (UInt64.add_zero _).symm
  | cleared _ _ =>
      exact ⟨fun h => (by cases h), by simp, by simp, by simp, by simp [Watch.send_modify]⟩

/-! ## Histories -/

/-- The three copies agree, under one server id. -/
structure Coherent (server_id : Uuid) (p : PairingService) : Prop where
  stored : p.store = some p.state
  watched : p.identities = published p.state
  named : p.state.server_id = server_id

theorem open_coherent {c : Primitives} {loaded : Option (Option PairingState)} {server_id : Uuid}
    {saved : Bool} {p : PairingService} (h : open_service c loaded server_id saved = some p) :
    Coherent p.state.server_id p ∧ p.revocations.value = 0 := by
  have hof : ∀ {state}, serviceOf c state = some p →
      Coherent p.state.server_id p ∧ p.revocations.value = 0 := by
    intro state hs
    rw [serviceOf] at hs
    split at hs
    · obtain rfl := Option.some.inj hs
      exact ⟨⟨rfl, rfl, rfl⟩, rfl⟩
    · cases hs
  rw [open_service.eq_def] at h
  split at h
  · cases h
  · exact hof h
  · split at h
    · exact hof h
    · cases h

/-- **Step lemma.**  Operations keep the copies together. -/
theorem performed_coherent {c : Primitives} {p p' : PairingService} {saved : Bool} {op : Operation}
    {reply : Reply} {server_id : Uuid} (hp : Performed c p saved op p' reply)
    (h : Coherent server_id p) : Coherent server_id p' := by
  cases hp with
  | refused _ | free _ => exact h
  | paired _ hc =>
      refine ⟨rfl, ?_, h.named⟩
      -- the free slot published nothing, and a new client has nothing to publish
      show p.identities = none
      rw [h.watched, published, hc]
      rfl
  | authenticated _ hc _ | subscribed _ hc =>
      refine ⟨rfl, ?_, h.named⟩
      show p.identities = _
      rw [h.watched, published, hc]
      rfl
  | identified _ _ _ | cleared _ _ => exact ⟨rfl, rfl, h.named⟩

/-- A call as a step, with whether the store is willing. -/
def call (c : Primitives) (p : PairingService) (call : Operation × Bool) :
    Option (PairingService × Reply) :=
  some (perform c p call.2 call.1)

/-- Any call. -/
abbrev AnyCall (_ : PairingService) (_ : Operation × Bool) : Prop := True

/-- A history of the service: the calls and their replies. -/
abbrev PairingRun (c : Primitives) :
    PairingService → List ((Operation × Bool) × Reply) → PairingService → Prop :=
  Run (Fires (call c) AnyCall)

/-- A call that cleared the pairing. -/
def clears (l : (Operation × Bool) × Reply) : Bool :=
  l.1.1 = .clear && l.2 = .cleared (some true)

/-- **Run lemma.** -/
theorem run_coherent {c : Primitives} {server_id : Uuid} {p₀ p : PairingService}
    {h : List ((Operation × Bool) × Reply)} (hr : PairingRun c p₀ h p)
    (h₀ : Coherent server_id p₀) :
    Coherent server_id p
      ∧ p.revocations.value = p₀.revocations.value + UInt64.ofNat (h.countP clears) := by
  induction hr with
  | nil => exact ⟨h₀, (UInt64.add_zero _).symm⟩
  | @snoc h p p' l _ hs ih =>
      obtain ⟨⟨op, saved⟩, reply⟩ := l
      obtain ⟨hcoherent, hcount⟩ := ih
      have hperform : perform c p saved op = (p', reply) := Option.some.inj hs.2
      have hcases := perform_cases c p saved op
      rw [hperform] at hcases
      refine ⟨performed_coherent hcases hcoherent, ?_⟩
      rw [List.countP_append, List.countP_singleton, (performed_obeys hcases).revoked, hcount,
        UInt64.ofNat_add, UInt64.add_assoc, clears]
      simp only [Bool.and_eq_true, decide_eq_true_eq]
      split <;> rfl

/-- **The pairing policy.**  After every history of a service that was opened over
    any store, and with the store failing at any calls: the state is what the store
    holds, the watched identities are the paired client's, the server id is the one
    it was opened with, the revocation counter counts the clearings modulo `2 ^ 64`, and
    the next call, whatever it is, obeys the policy. -/
theorem pairing_policy {c : Primitives} {loaded : Option (Option PairingState)} {server_id : Uuid}
    {created : Bool} {p₀ p : PairingService}
    (hopen : open_service c loaded server_id created = some p₀)
    {h : List ((Operation × Bool) × Reply)} (hr : PairingRun c p₀ h p) :
    p.store = some p.state ∧ p.identities = p.state.client.bind PairedClient.identities ∧
      p.state.server_id = p₀.state.server_id ∧
      p.revocations.value = UInt64.ofNat (h.countP clears) ∧
      ∀ saved op, Obeys p op (perform c p saved op).1 (perform c p saved op).2 := by
  obtain ⟨h₀, hzero⟩ := open_coherent hopen
  obtain ⟨hcoherent, hcount⟩ := run_coherent hr h₀
  rw [hzero, UInt64.zero_add] at hcount
  refine ⟨hcoherent.stored, hcoherent.watched, hcoherent.named, hcount, ?_⟩
  intro saved op
  exact performed_obeys (perform_cases c p saved op)

/-- Primitives that hash nothing and accept every list. -/
def plainPrimitives : Primitives := ⟨id, fun _ => true⟩

/-- A new service. -/
def freshService : PairingService := ⟨some ⟨⟨100⟩, none⟩, ⟨⟨100⟩, none⟩, ⟨0, 0⟩, none⟩

/-- A pairing that the store refuses, one that it takes, identities for it, and a
    clearing. -/
def pairAndClear : List (Operation × Bool) :=
  [(.pair "phone" ⟨1⟩ (some [7]) 0, false), (.pair "phone" ⟨2⟩ (some [8]) 1, true),
   (.set_identities ⟨2⟩ [], true), (.clear, true)]

/-- What the calls lead to. -/
def pairingOutcome (calls : List (Operation × Bool)) :
    List ((Operation × Bool) × Reply) × PairingService :=
  outcome (call plainPrimitives) AnyCall freshService calls

/-- The counter is one after the clearing, and the store is unpaired. -/
theorem pairing_policy_cleared :
    (pairingOutcome pairAndClear).2.revocations.value = 1 ∧
      (pairingOutcome pairAndClear).2.store = some ⟨⟨100⟩, none⟩ := by
  have hopen : open_service plainPrimitives (some none) ⟨100⟩ true = some freshService := by decide
  obtain ⟨hstore, _, _, hcount, _⟩ := pairing_policy hopen
    (run_outcome (call plainPrimitives) AnyCall pairAndClear (by decide))
  refine ⟨hcount.trans (by decide), ?_⟩
  exact hstore.trans (by decide)

end PairingPolicy
