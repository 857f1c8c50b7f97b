import AgentWitness.OctetsProofs
import AgentWitness.ResponseProofs
import AgentWitness.VaultDriftProofs

/-! # Serving an agent request in the worker

    `ssh/agent.ts`, the backends of `vault/agent-backend.ts` and the two readers of a
    packet in `worker/index.ts`: `#authorizationRequests` shows what a pending request
    asks for, `#handleRequest` serves it.

    Four functions read the same packet.  THEY READ ONE SIGNING REQUEST
    (`signingRequest`): the packet is inspected as a signing request, shown as one and
    signed as one exactly if there is one, and the two key lookups are the same. -/

namespace AgentRequest

open Packet RemoteProtocol VaultModel RemoteClient Lifecycle Response Transition

/-! ## The wire -/

inductive AgentMessage where
  | failure
  | success
  | requestIdentities
  | identitiesAnswer
  | signRequest
  | signResponse
  deriving DecidableEq, Repr

/-- The number of a message type. -/
def AgentMessage.number : AgentMessage → UInt8
  | .failure => 5
  | .success => 6
  | .requestIdentities => 11
  | .identitiesAnswer => 12
  | .signRequest => 13
  | .signResponse => 14

/-- `Writer.string`. -/
def writeString (value : Bytes) : Bytes := Octets.bigEndian 4 value.length ++ value

def frame (payload : Bytes) : Bytes := Octets.bigEndian 4 payload.length ++ payload

/-- What `readFrame` returns. -/
structure Frame where
  payload : Bytes
  consumed : Nat
  deriving DecidableEq, Repr

def readFrame (buf : Bytes) : Option Frame :=
  if buf.length < 4 then none
  else
    let length := Octets.value (buf.take 4)
    if buf.length < 4 + length then none
    else some ⟨(buf.drop 4).take length, 4 + length⟩

/-- `Reader.bytes`, on the bytes not read yet. -/
def readBytes (size : Nat) (unread : Bytes) : Except Failure (Bytes × Bytes) :=
  if unread.length < size then .error (.error "unexpected end of SSH buffer")
  else .ok (unread.take size, unread.drop size)

/-- `Reader.u8`. -/
def readU8 (unread : Bytes) : Except Failure (UInt8 × Bytes) := do
  let (value, unread) ← readBytes 1 unread
  return (value.headD 0, unread)

/-- `Reader.u32`. -/
def readU32 (unread : Bytes) : Except Failure (Nat × Bytes) := do
  let (value, unread) ← readBytes 4 unread
  return (Octets.value value, unread)

/-- `Reader.string`. -/
def readString (unread : Bytes) : Except Failure (Bytes × Bytes) := do
  let (size, unread) ← readU32 unread
  readBytes size unread

def encodeIdentitiesAnswer (identities : List AgentIdentity) : Bytes :=
  frame (identities.foldl
    (fun written identity =>
      written ++ writeString identity.key_blob ++ writeString (encodeText identity.comment))
    (AgentMessage.identitiesAnswer.number :: Octets.bigEndian 4 identities.length))

def encodeSignResponse (signature : Bytes) : Bytes :=
  frame (AgentMessage.signResponse.number :: writeString signature)

def encodeFailure : Bytes := frame [AgentMessage.failure.number]

/-- `parseSignRequest`.  What follows the flags is not looked at. -/
def parseSignRequest (payload : Bytes) : Except Failure SignRequest := do
  let (type, unread) ← readU8 payload
  if type ≠ AgentMessage.signRequest.number then throw (.error "not a SIGN_REQUEST")
  let (keyBlob, unread) ← readString unread
  let (data, unread) ← readString unread
  let (flags, _) ← readU32 unread
  return ⟨keyBlob, data, UInt32.ofNat flags⟩

inductive AgentRequestInfo where
  | identities
  | sign (keyBlob : Bytes) (bytes : Nat) (flags : UInt32)
  | unsupported (messageType : UInt8)
  | invalid
  deriving DecidableEq, Repr

def inspectAgentRequest (packet : Bytes) : AgentRequestInfo :=
  match readFrame packet with
  | none => .invalid
  | some frame =>
      if frame.consumed ≠ packet.length then .invalid
      else
        match frame.payload.head? with
        | none => .invalid
        | some messageType =>
            if messageType = AgentMessage.requestIdentities.number then .identities
            else if messageType ≠ AgentMessage.signRequest.number then .unsupported messageType
            else
              match parseSignRequest frame.payload with
              | .ok request => .sign request.keyBlob request.data.length request.flags
              | .error _ => .invalid

/-! ## Serving -/

structure AgentBackend where
  listIdentities : List AgentIdentity
  sign : Option (SignRequest → Except Failure Bytes)

variable (p : Platform)

/-- The public identities of a vault. -/
def vaultIdentities (vault : Vault) : List AgentIdentity :=
  vault.keys.map (fun key => ⟨key.publicKey, key.comment⟩)

/-- `VaultState.agentBackend`: `createEmptyAgentBackend`, `createPublicAgentBackend` and
    `createUnlockedAgentBackend`. -/
def agentBackend (store : Store) : VaultState → AgentBackend
  | .noVault => ⟨[], none⟩
  | .lockedVault vault => ⟨vaultIdentities vault, none⟩
  | .unlockedVault vault masterKey =>
      ⟨vaultIdentities vault, some (sign p store vault masterKey)⟩

/-- A response, with the calls of `backend.sign` on the way to it. -/
structure Served where
  response : Bytes
  signed : List SignRequest
  deriving DecidableEq

def signOrFail (payload : Bytes) (backend : AgentBackend) : Served :=
  match backend.sign with
  | none => ⟨encodeFailure, []⟩
  | some sign =>
      match parseSignRequest payload with
      | .error _ => ⟨encodeFailure, []⟩
      | .ok request =>
          match sign request with
          | .error _ => ⟨encodeFailure, [request]⟩
          | .ok signature => ⟨encodeSignResponse signature, [request]⟩

def handleAgentRequest (payload : Bytes) (backend : AgentBackend) : Served :=
  if payload.head? = some AgentMessage.requestIdentities.number then
    ⟨encodeIdentitiesAnswer backend.listIdentities, []⟩
  else if payload.head? = some AgentMessage.signRequest.number then signOrFail payload backend
  else ⟨encodeFailure, []⟩

/-- `WorkerSession.#handleRequest`, in the vault state that `#current` returns. -/
def handleRequest (store : Store) (state : VaultState) (packet : Bytes) : Except Failure Served :=
  match readFrame packet with
  | none => .error (.error "received an invalid SSH-agent packet")
  | some request =>
      if request.consumed ≠ packet.length then
        .error (.error "received an invalid SSH-agent packet")
      else .ok (handleAgentRequest request.payload (agentBackend p store state))

/-! ## Showing -/

def signingRequest (packet : Bytes) : Option SignRequest :=
  match readFrame packet with
  | none => none
  | some frame =>
      if frame.consumed ≠ packet.length ∨
          frame.payload.head? ≠ some AgentMessage.signRequest.number then none
      else
        match parseSignRequest frame.payload with
        | .ok request => some request
        | .error _ => none

/-- The key that a view names. -/
structure ViewKey where
  id : String
  comment : String
  deriving DecidableEq

structure AuthorizationRequestView where
  id : RequestId
  attempt : UInt32
  requestedAt : UInt64
  deadline : UInt64
  context : Option RequestContext
  key : ViewKey
  deriving DecidableEq

/-- The view of one pending request. -/
def authorizationRequest (vault : Vault) (request : RemoteRequest) :
    List AuthorizationRequestView :=
  match signingRequest request.packet with
  | none => []
  | some signing =>
      match vault.keys.find? (fun candidate => candidate.publicKey == signing.keyBlob) with
      | none => []
      | some key =>
          [⟨request.request_id, request.attempt, request.requested_at, request.deadline,
            request.context, ⟨key.id, key.comment⟩⟩]

/-- `WorkerSession.#authorizationRequests`. -/
def authorizationRequests (pending : List RemoteRequest) (state : VaultState) :
    List AuthorizationRequestView :=
  match state.vault with
  | none => []
  | some vault => pending.flatMap (authorizationRequest vault)

/-! ## Four readers, one request -/

/-- A packet holds a signing request. -/
theorem signingRequest_eq_some {packet : Bytes} {request : SignRequest} :
    signingRequest packet = some request ↔
      ∃ frame, readFrame packet = some frame ∧ frame.consumed = packet.length
        ∧ frame.payload.head? = some AgentMessage.signRequest.number
        ∧ parseSignRequest frame.payload = .ok request := by
  rw [signingRequest]
  cases hframe : readFrame packet with
  | none =>
      constructor
      · rintro ⟨⟩
      · rintro ⟨frame, ⟨⟩, _⟩
  | some frame =>
      dsimp only
      constructor
      · intro h
        split at h
        · cases h
        · rename_i hplain
          obtain ⟨hconsumed, htype⟩ := not_or.mp hplain
          split at h
          · rename_i parsed hparse
            obtain rfl := Option.some.inj h
            exact ⟨frame, rfl, not_not.mp hconsumed, not_not.mp htype, hparse⟩
          · cases h
      · rintro ⟨frame', heq, hconsumed, htype, hparse⟩
        obtain rfl := Option.some.inj heq
        rw [if_neg (not_or.mpr ⟨not_not.mpr hconsumed, not_not.mpr htype⟩), hparse]

/-- What `signingRequest` reads, `inspectAgentRequest` reports. -/
theorem inspect_of_signing {packet : Bytes} {request : SignRequest}
    (h : signingRequest packet = some request) :
    inspectAgentRequest packet
      = .sign request.keyBlob request.data.length request.flags := by
  obtain ⟨frame, hframe, hconsumed, htype, hparse⟩ := signingRequest_eq_some.mp h
  rw [inspectAgentRequest, hframe]
  dsimp only
  rw [if_neg (not_not.mpr hconsumed), htype]
  dsimp only
  rw [if_neg (by decide), if_neg (not_not.mpr rfl), hparse]

variable {p}

theorem handleRequest_ok {store : Store} {state : VaultState} {packet : Bytes} {served : Served}
    (h : handleRequest p store state packet = .ok served) :
    ∃ frame, readFrame packet = some frame ∧ frame.consumed = packet.length
      ∧ served = handleAgentRequest frame.payload (agentBackend p store state) := by
  rw [handleRequest] at h
  split at h
  · cases h
  · rename_i frame hframe
    split at h
    · cases h
    · rename_i hconsumed
      exact ⟨frame, hframe, not_not.mp hconsumed, (Except.ok.inj h).symm⟩

/-- `backend.sign` is called for the signing request of the packet only. -/
theorem signed_is_shown {store : Store} {state : VaultState} {packet : Bytes} {served : Served}
    (h : handleRequest p store state packet = .ok served) {request : SignRequest}
    (hrequest : request ∈ served.signed) : signingRequest packet = some request := by
  obtain ⟨frame, hframe, hconsumed, rfl⟩ := handleRequest_ok h
  rw [handleAgentRequest] at hrequest
  split at hrequest
  · cases hrequest
  · split at hrequest
    · rename_i htype
      refine signingRequest_eq_some.mpr ⟨frame, hframe, hconsumed, htype, ?_⟩
      rw [signOrFail] at hrequest
      split at hrequest
      · cases hrequest
      · split at hrequest
        · cases hrequest
        · rename_i parsed hparse
          split at hrequest
          · rw [List.mem_singleton.mp hrequest]
            exact hparse
          · rw [List.mem_singleton.mp hrequest]
            exact hparse
    · cases hrequest

/-- A packet that is inspected as anything else is not signed. -/
theorem unsigned_of_inspect {store : Store} {state : VaultState} {packet : Bytes} {served : Served}
    (h : handleRequest p store state packet = .ok served)
    (hother : ∀ keyBlob bytes flags, inspectAgentRequest packet ≠ .sign keyBlob bytes flags) :
    served.signed = [] := by
  cases hsigned : served.signed with
  | nil => rfl
  | cons request more =>
      have hsigning : signingRequest packet = some request := by
        refine signed_is_shown h ?_
        rw [hsigned]
        exact List.mem_cons_self
      exact absurd (inspect_of_signing hsigning) (hother _ _ _)

/-! ## The type of a response -/

/-- A response whose message type is SIGN_RESPONSE. -/
def isSignResponse (response : Bytes) : Bool :=
  response[4]? == some AgentMessage.signResponse.number

theorem frame_type (type : UInt8) (contents : Bytes) :
    (frame (type :: contents))[4]? = some type := by
  have hfour : (Octets.bigEndian 4 (type :: contents).length).length = 4 :=
    Octets.length_bigEndian 4 _
  rw [frame, List.getElem?_append_right (by rw [hfour]), hfour]
  rfl

/-- Writing identities does not touch what is written already. -/
theorem identities_type (identities : List AgentIdentity) (type : UInt8) (contents : Bytes) :
    ∃ more, identities.foldl
      (fun written identity =>
        written ++ writeString identity.key_blob ++ writeString (encodeText identity.comment))
      (type :: contents) = type :: more := by
  induction identities generalizing contents with
  | nil => exact ⟨contents, rfl⟩
  | cons identity rest ih => exact ih _

theorem identitiesAnswer_not_sign (identities : List AgentIdentity) :
    isSignResponse (encodeIdentitiesAnswer identities) = false := by
  obtain ⟨more, hmore⟩ := identities_type identities AgentMessage.identitiesAnswer.number
    (Octets.bigEndian 4 identities.length)
  rw [isSignResponse, encodeIdentitiesAnswer, hmore, frame_type]
  rfl

theorem failure_not_sign : isSignResponse encodeFailure = false := by
  rw [isSignResponse, encodeFailure, frame_type]
  rfl

/-- A SIGN_RESPONSE is the answer of `backend.sign` to the one request it was called for. -/
theorem sign_response {payload : Bytes} {backend : AgentBackend}
    (h : isSignResponse (handleAgentRequest payload backend).response = true) :
    ∃ sign request signature, backend.sign = some sign ∧ sign request = .ok signature
      ∧ handleAgentRequest payload backend = ⟨encodeSignResponse signature, [request]⟩ := by
  rw [handleAgentRequest] at h ⊢
  split at h
  · rw [identitiesAnswer_not_sign] at h
    cases h
  · split at h
    · rename_i hlist htype
      rw [if_neg hlist, if_pos htype]
      rw [signOrFail] at h ⊢
      split at h
      · rw [failure_not_sign] at h
        cases h
      · rename_i sign hsign
        split at h
        · rw [failure_not_sign] at h
          cases h
        · rename_i request hparse
          split at h
          · rw [failure_not_sign] at h
            cases h
          · rename_i signature hsignature
            exact ⟨sign, request, signature, hsign, hsignature, rfl⟩
    · rw [failure_not_sign] at h
      cases h

/-! ## The key that is unwrapped is the key that is shown -/

/-- How `backend.sign` came to a signature: the first key with the requested blob, its own
    ciphertext, and what that unwraps to. -/
structure SignedWith (p : Platform) (store : Store) (vault : Vault) (masterKey : CryptoKey)
    (request : SignRequest) (key : PrivateKeyMeta) (signature : Bytes) : Prop where
  found : vault.keys.find? (fun candidate => candidate.publicKey == request.keyBlob) = some key
  unwrapped : ∃ encrypted recovered, store.keys.get? key.id = some encrypted
    ∧ unwrapSSHKey p encrypted.data key.type masterKey key.id
        (rsaHashFor (rsaFlavorFromFlags request.flags)) = .ok recovered
    ∧ p.sshSign recovered key.type request.data (rsaFlavorFromFlags request.flags)
        = .ok signature

theorem sign_ok {store : Store} {vault : Vault} {masterKey : CryptoKey} {request : SignRequest}
    {signature : Bytes} (h : sign p store vault masterKey request = .ok signature) :
    ∃ key, SignedWith p store vault masterKey request key signature := by
  rw [sign, signingKey] at h
  cases hfound : vault.keys.find? (fun candidate => candidate.publicKey == request.keyBlob) with
  | none =>
      rw [hfound] at h
      cases h
  | some key =>
      rw [hfound] at h
      dsimp only at h
      cases hstored : store.keys.get? key.id with
      | none =>
          rw [hstored] at h
          cases h
      | some encrypted =>
          rw [hstored] at h
          dsimp only at h
          cases hunwrap : unwrapSSHKey p encrypted.data key.type masterKey key.id
              (rsaHashFor (rsaFlavorFromFlags request.flags)) with
          | error failure =>
              rw [hunwrap] at h
              cases h
          | ok recovered =>
              rw [hunwrap] at h
              dsimp only at h
              cases hsign : p.sshSign recovered key.type request.data
                  (rsaFlavorFromFlags request.flags) with
              | error message =>
                  rw [hsign] at h
                  cases h
              | ok signed =>
                  rw [hsign] at h
                  obtain rfl := Except.ok.inj h
                  exact ⟨key, hfound, encrypted, recovered, hstored, hunwrap, hsign⟩

/-- The view of a request names the first key with the requested blob. -/
theorem authorizationRequest_of_signing {vault : Vault} {request : SignRequest}
    {key : PrivateKeyMeta} {pending : RemoteRequest}
    (hsigning : signingRequest pending.packet = some request)
    (hfound : vault.keys.find? (fun candidate => candidate.publicKey == request.keyBlob)
      = some key) :
    authorizationRequest vault pending
      = [⟨pending.request_id, pending.attempt, pending.requested_at, pending.deadline,
          pending.context, ⟨key.id, key.comment⟩⟩] := by
  rw [authorizationRequest, hsigning]
  dsimp only
  rw [hfound]

/-- **What is shown is what is signed.**  For every unlocked vault and every packet: a
    SIGN_RESPONSE carries a signature made with the key that the view of every pending
    request with this packet names, for the request that `inspectAgentRequest` reports.
    On a packet that it reports as anything else, `backend.sign` is not called. -/
theorem shown_is_signed (p : Platform) (store : Store) (vault : Vault) (masterKey : CryptoKey)
    (packet : Bytes) (served : Served)
    (h : handleRequest p store (.unlockedVault vault masterKey) packet = .ok served) :
    (isSignResponse served.response = true → ∃ request key signature,
        served = ⟨encodeSignResponse signature, [request]⟩
        ∧ SignedWith p store vault masterKey request key signature
        ∧ inspectAgentRequest packet = .sign request.keyBlob request.data.length request.flags
        ∧ ∀ pending before after, pending.packet = packet →
            authorizationRequests (before ++ pending :: after) (.unlockedVault vault masterKey)
              = authorizationRequests before (.unlockedVault vault masterKey)
                ++ ⟨pending.request_id, pending.attempt, pending.requested_at, pending.deadline,
                    pending.context, ⟨key.id, key.comment⟩⟩
                  :: authorizationRequests after (.unlockedVault vault masterKey))
      ∧ ((∀ keyBlob bytes flags, inspectAgentRequest packet ≠ .sign keyBlob bytes flags) →
          served.signed = []) := by
  constructor
  · intro hresponse
    obtain ⟨frame, _, _, hserved⟩ := handleRequest_ok h
    rw [hserved] at hresponse
    obtain ⟨backendSign, request, signature, hbackend, hsignature, hanswer⟩ :=
      sign_response hresponse
    obtain rfl := Option.some.inj hbackend
    rw [hanswer] at hserved
    have hsigning : signingRequest packet = some request := by
      refine signed_is_shown h ?_
      rw [hserved]
      exact List.mem_singleton.mpr rfl
    obtain ⟨key, hkey⟩ := sign_ok hsignature
    refine ⟨request, key, signature, hserved, hkey, inspect_of_signing hsigning, ?_⟩
    intro pending before after hpacket
    rw [← hpacket] at hsigning
    show (before ++ pending :: after).flatMap (authorizationRequest vault) = _
    rw [List.flatMap_append, List.flatMap_cons,
      authorizationRequest_of_signing hsigning hkey.found]
    rfl
  · exact unsigned_of_inspect h

/-- A vault with one key, and the store that holds its ciphertext. -/
def laptopVault : Vault :=
  VaultDrift.createdVault.adding ⟨"a", "laptop", .sshEd25519, [65], "SHA256:A", 0⟩

def laptopStore : Store :=
  ⟨some laptopVault, KeyedMap.Map.empty.insert "a" ⟨"a", List.replicate 12 0 ++ [9]⟩⟩

/-- A request for a signature by this key. -/
def laptopPacket : Bytes :=
  frame (AgentMessage.signRequest.number
    :: (writeString [65] ++ writeString [1, 2] ++ [0, 0, 0, 4]))

theorem shown_is_signed_laptop :
    handleRequest VaultDrift.plainPlatform laptopStore
        (.unlockedVault laptopVault (generateMasterKey [7])) laptopPacket
      = .ok ⟨encodeSignResponse [9, 1, 2], [⟨[65], [1, 2], 4⟩]⟩
      ∧ inspectAgentRequest laptopPacket = .sign [65] 2 4
      ∧ ∃ key signature, SignedWith VaultDrift.plainPlatform laptopStore laptopVault
          (generateMasterKey [7]) ⟨[65], [1, 2], 4⟩ key signature := by
  have hserved : handleRequest VaultDrift.plainPlatform laptopStore
      (.unlockedVault laptopVault (generateMasterKey [7])) laptopPacket
        = .ok ⟨encodeSignResponse [9, 1, 2], [⟨[65], [1, 2], 4⟩]⟩ := by decide +kernel
  obtain ⟨request, key, signature, heq, hsigned, _, _⟩ :=
    (shown_is_signed _ _ _ _ _ _ hserved).1 (by decide +kernel)
  obtain ⟨_, hrequest⟩ := Served.mk.inj heq
  obtain rfl := (List.cons.inj hrequest).1
  exact ⟨hserved, by decide +kernel, key, signature, hsigned⟩

/-! ## Before the vault is unlocked -/

/-- The worker's session: requests for identities are processed before it is ready. -/
def workerEnvironment (base : Environment) : Environment :=
  { base with
    canProcessBeforeReady := fun request => inspectAgentRequest request.packet = .identities }

/-- **Nothing is signed before the session is ready.**  In every run of the worker's
    session, serving a request that is handed over while the session is not ready calls
    `backend.sign` for no state of the vault. -/
theorem unready_session_never_signs {base : Environment}
    {ok : RemoteSession → ClientAction → Prop} {h : Lifecycle.History} {s : RemoteSession}
    (hr : SessionRun (workerEnvironment base) ok h s) :
    ∀ l ∈ h, ∀ socket request, .handling socket request ∈ l.2.outputs →
      l.2.after.ready = false → ∀ store state served,
      handleRequest p store state request.packet = .ok served → served.signed = [] := by
  induction hr with
  | nil =>
      intro l hl
      cases hl
  | @snoc h s s' l _ hs ih =>
      intro l' hl'
      rcases List.mem_append.mp hl' with hold | hnew
      · exact ih l' hold
      · obtain rfl := List.mem_singleton.mp hnew
        obtain ⟨action, before, outputs, after⟩ := l'
        obtain ⟨hstep, rfl, rfl⟩ := watch_step hs.2
        intro socket request hhandling hready store state served hserved
        obtain ⟨_, hmay⟩ := lived_inPlace (step_lived hstep) _ hhandling
        have hidentities : inspectAgentRequest request.packet = .identities := by
          rcases hmay with hset | hearly
          · have hset' : after.ready = true := hset
            rw [hset'] at hready
            cases hready
          · exact of_decide_eq_true hearly
        refine unsigned_of_inspect hserved ?_
        intro keyBlob bytes flags hsign
        rw [hidentities] at hsign
        cases hsign

/-- A phone that is not ready is asked for its identities. -/
def askUnready : List ClientAction :=
  [.connect "wss" "phone",
   .loaded 2 (.ok (some ⟨"wss", ⟨100⟩, ⟨1⟩, [7], "phone", 0⟩)) (.ok 0), .opened 0,
   .message 0 (.message (.authenticated ⟨100⟩ ⟨5⟩ [9])), .receive 0,
   .message 0 (.message (.agentRequest ⟨⟨3⟩, 1, 0, 60, [0, 0, 0, 1, 11], none⟩)), .receive 1]

abbrev unreadyOutcome : History × RemoteSession :=
  outcome (watch (workerEnvironment plainBrowser)) AnyAction
    RemoteSession.new askUnready

theorem unready_session_never_signs_asked :
    unreadyOutcome.2.ready = false ∧ ∃ l ∈ unreadyOutcome.1, ∃ socket request,
      .handling socket request ∈ l.2.outputs ∧ ∀ store state served,
        handleRequest VaultDrift.plainPlatform store state request.packet = .ok served →
          served.signed = [] := by
  have hasked : (unreadyOutcome.1.getLast?.map (fun l => l.2.outputs.contains
      (.handling 0 ⟨⟨3⟩, 1, 0, 60, [0, 0, 0, 1, 11], none⟩) && !l.2.after.ready)) = some true := by
    decide +kernel
  obtain ⟨l, hl, hlast⟩ := Option.map_eq_some_iff.mp hasked
  obtain ⟨hhandling, hready⟩ := Bool.and_eq_true_iff.mp hlast
  have hmem := List.mem_of_getLast? hl
  refine ⟨by decide +kernel, l, hmem, _, _, List.contains_iff_mem.mp hhandling, ?_⟩
  exact unready_session_never_signs (run_outcome _ _ askUnready (by decide +kernel)) l hmem _ _
    (List.contains_iff_mem.mp hhandling) (Bool.not_eq_true' _ ▸ hready)

end AgentRequest
