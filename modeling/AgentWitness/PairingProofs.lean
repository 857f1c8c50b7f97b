import AgentWitness.RemoteProtocolProofs

/-! # First-client pairing and authentication

    `remote/pairing/mod.rs`.  Every operation holds the state mutex from its
    first read to its last write, so it is one step; whether the store's `save`
    succeeds is given by the caller, as are the values drawn at random.  SHA-256
    and the validation of public keys are parameters. -/

namespace Pairing

open Packet RemoteProtocol

/-- What the policy takes from the crates it uses. -/
structure Primitives where
  /-- `Sha256::digest`. -/
  digest : Bytes → Bytes
  /-- `packet::validate_identities(..).is_ok()`. -/
  validate_identities : List AgentIdentity → Bool

/-- The single client authorized to connect to this server. -/
structure PairedClient where
  client_id : Uuid
  credential_hash : Bytes
  label : String
  created_at : UInt64
  last_seen_at : Option UInt64
  push_subscription : Option PushSubscription
  identities : Option (List AgentIdentity)
  deriving DecidableEq

/-- Complete pairing state owned by a store. -/
structure PairingState where
  server_id : Uuid
  client : Option PairedClient
  deriving DecidableEq

/-- A watch channel: how often it was sent to, which is what a receiver compares, and the
    value it holds. -/
structure Watch (α : Type) where
  version : Nat
  value : α
  deriving DecidableEq

def Watch.send_modify {α : Type} (w : Watch α) (modify : α → α) : Watch α :=
  ⟨w.version + 1, modify w.value⟩

/-- The service: the store's content, the state behind the mutex and the two
    watched values. -/
structure PairingService where
  store : Option PairingState
  state : PairingState
  revocations : Watch UInt64
  identities : Option (List AgentIdentity)
  deriving DecidableEq

/-- Successful authorization data needed to establish a remote session. -/
inductive Authorization where
  | paired (server_id client_id : Uuid) (credential : Bytes)
  | authenticated (server_id client_id : Uuid)
  deriving DecidableEq

def Authorization.client_id : Authorization → Uuid
  | .paired _ client_id _ => client_id
  | .authenticated _ client_id => client_id

/-- Reason a remote handshake could not be authorized. -/
inductive AuthorizationError where
  | alreadyPaired
  | notPaired
  | rejected
  | credentialGeneration
  | invalidIdentities
  | storage
  deriving DecidableEq

/-- `store.save(&next)` followed by `*state = next`. -/
def PairingService.commit (p : PairingService) (next : PairingState) : PairingService :=
  { p with store := some next, state := next }

/-- Persist an unpaired state and revoke the active remote session.  `none` is
    the store's error. -/
def PairingService.clear (p : PairingService) (saved : Bool) : PairingService × Option Bool :=
  match p.state.client with
  | none => (p, some false)
  | some _ =>
      if saved then
        ({ p.commit ⟨p.state.server_id, none⟩ with
            identities := none
            -- a `u64`, so the sum wraps
            revocations := p.revocations.send_modify (· + 1) }, some true)
      else (p, none)

/-- Claim the free slot for a new client.  `credential` is what `getrandom`
    filled in, if it did. -/
def PairingService.pair (c : Primitives) (p : PairingService) (label : String)
    (client_id : Uuid) (credential : Option Bytes) (now : UInt64) (saved : Bool) :
    PairingService × Except AuthorizationError Authorization :=
  if p.state.client.isSome then (p, .error .alreadyPaired)
  else
    match credential with
    | none => (p, .error .credentialGeneration)
    | some credential =>
        if saved then
          (p.commit ⟨p.state.server_id, some
            { client_id, credential_hash := c.digest credential, label, created_at := now
              last_seen_at := none, push_subscription := none, identities := none }⟩,
            .ok (.paired p.state.server_id client_id credential))
        else (p, .error .storage)

/-- Whether the paired client is this one, by id and credential hash. -/
def PairingState.authorizes (c : Primitives) (s : PairingState) (client_id : Uuid)
    (credential : Bytes) : Prop :=
  ∃ client, s.client = some client ∧ client.client_id = client_id ∧
    client.credential_hash = c.digest credential

/-- Accept the paired client's id and credential, and note when it was seen. -/
def PairingService.authenticate (c : Primitives) (p : PairingService) (client_id : Uuid)
    (credential : Bytes) (now : UInt64) (saved : Bool) :
    PairingService × Except AuthorizationError Authorization :=
  match p.state.client with
  | none => (p, .error .notPaired)
  | some client =>
      if client.client_id ≠ client_id ∨ client.credential_hash ≠ c.digest credential then
        (p, .error .rejected)
      else if saved then
        (p.commit { p.state with client := some { client with last_seen_at := some now } },
          .ok (.authenticated p.state.server_id client_id))
      else (p, .error .storage)

/-- Replace one field of the paired client, for that client only. -/
def PairingService.update (p : PairingService) (client_id : Uuid)
    (change : PairedClient → PairedClient) (saved : Bool) :
    PairingService × Except AuthorizationError Unit :=
  match p.state.client with
  | none => (p, .error .notPaired)
  | some client =>
      if client.client_id ≠ client_id then (p, .error .rejected)
      else if saved then
        (p.commit { p.state with client := some (change client) }, .ok ())
      else (p, .error .storage)

def PairingService.set_push_subscription (p : PairingService) (client_id : Uuid)
    (subscription : PushSubscription) (saved : Bool) :
    PairingService × Except AuthorizationError Unit :=
  p.update client_id (fun client => { client with push_subscription := some subscription }) saved

def PairingService.set_identities (c : Primitives) (p : PairingService) (client_id : Uuid)
    (identities : List AgentIdentity) (saved : Bool) :
    PairingService × Except AuthorizationError Unit :=
  if c.validate_identities identities then
    let r := p.update client_id
      (fun client => { client with identities := some identities }) saved
    match r.2 with
    | .ok () => ({ r.1 with identities := some identities }, .ok ())
    | .error e => (r.1, .error e)
  else (p, .error .invalidIdentities)

/-! ## What authorization depends on -/

/-- A refused authentication that is not the store's failure means that the
    paired client is not the one presented. -/
theorem authenticate_error {c : Primitives} {p p' : PairingService} {client_id : Uuid}
    {credential : Bytes} {now : UInt64} {saved : Bool} {e : AuthorizationError}
    (h : p.authenticate c client_id credential now saved = (p', .error e)) :
    p' = p ∧ (saved = false ∨ ¬ p.state.authorizes c client_id credential) := by
  unfold PairingService.authenticate at h
  cases hc : p.state.client with
  | none =>
      simp only [hc] at h
      refine ⟨(Prod.mk.inj h).1.symm, Or.inr ?_⟩
      rintro ⟨client, hcl, _⟩
      rw [hc] at hcl
      cases hcl
  | some client =>
      simp only [hc] at h
      split at h
      · rename_i hne
        refine ⟨(Prod.mk.inj h).1.symm, Or.inr ?_⟩
        rintro ⟨client', hcl, hid, hhash⟩
        rw [hc] at hcl
        obtain rfl := Option.some.inj hcl
        rcases hne with hne | hne
        · exact hne hid
        · exact hne hhash
      · split at h
        · cases (Prod.mk.inj h).2
        · rename_i hs
          exact ⟨(Prod.mk.inj h).1.symm, Or.inl (Bool.eq_false_iff.mpr hs)⟩

/-- A failed pairing changes nothing. -/
theorem pair_error {c : Primitives} {p p' : PairingService} {label : String}
    {client_id : Uuid} {credential : Option Bytes} {now : UInt64} {saved : Bool}
    {e : AuthorizationError}
    (h : p.pair c label client_id credential now saved = (p', .error e)) : p' = p := by
  unfold PairingService.pair at h
  split at h
  · exact (Prod.mk.inj h).1.symm
  · split at h
    · exact (Prod.mk.inj h).1.symm
    · split at h
      · cases (Prod.mk.inj h).2
      · exact (Prod.mk.inj h).1.symm

end Pairing
