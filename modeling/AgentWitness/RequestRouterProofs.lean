import AgentWitness.ContextProofs
import AgentWitness.RemoteProtocolProofs

/-! # The router of one local connection

    `request_router.rs` with the classifiers of `packet.rs`.  A router answers
    some packets itself and submits the others to the broker, while the paired
    client's identities are replaced behind a watch channel.

    Four classifiers read the same bytes.  THEY ALL READ ONE PAYLOAD: the
    context decoder, the identity request, the session binding and the
    malformed extension are decided by the payload alone
    (`decode_of_context_extension`, `decode_of_malformed`, `decode_none`), and
    at most one of them applies. -/

namespace RequestRouter

open Packet RemoteProtocol Context

/-! ## Reading a packet -/

def AGENT_FAILURE_FRAME : Bytes := [0, 0, 0, 1, 5]

def AGENT_SUCCESS_FRAME : Bytes := [0, 0, 0, 1, 6]

def OPENSSH_SESSION_BIND_EXTENSION : Bytes := Utf8.encode "session-bind@openssh.com"

def packet_payload (packet : Bytes) : Option Bytes :=
  if packet.length < 4 then none
  else
    if (packet.drop 4).length = Octets.value (packet.take 4) then some (packet.drop 4)
    else none

def ssh_string (value : Bytes) : Option Bytes :=
  if value.length < 4 then none
  else
    if value.length < 4 + Octets.value (value.take 4) then none
    else some ((value.drop 4).take (Octets.value (value.take 4)))

/-- The requests that the library's decoder tells apart here. -/
inductive Request where
  | requestIdentities
  | other
  deriving DecidableEq

/-- Invalid public identity metadata supplied by the paired client. -/
inductive IdentityError where
  | invalidKey
  | tooLarge
  deriving DecidableEq, Repr

/-- The codecs of the SSH-agent and UUID libraries.  Decoders return what they
    leave unread.  An identity request is its message number alone. -/
structure Library where
  /-- `Uuid::parse_str`. -/
  parse_str : String → Option Uuid
  /-- `Request::decode`. -/
  decode_request : Bytes → Option (Request × Bytes)
  /-- `PublicCredential`. -/
  Credential : Type
  /-- `PublicCredential::decode`. -/
  decode_credential : Bytes → Option (Credential × Bytes)
  /-- `Response::encoded_len` of an identities answer. -/
  encoded_len : List (Credential × String) → Option Nat
  /-- `Response::encode` of an identities answer. -/
  encode : List (Credential × String) → Option Bytes
  request_identities : ∀ payload rest,
    decode_request payload = some (.requestIdentities, rest) ↔ payload = 11 :: rest

def is_identity_request (lib : Library) (packet : Bytes) : Bool :=
  match packet_payload packet with
  | none => false
  | some payload =>
      match lib.decode_request payload with
      | some (.requestIdentities, rest) => rest.isEmpty
      | _ => false

/-- The name of an extension request. -/
def extension_name (packet : Bytes) : Option (Option Bytes) :=
  match packet_payload packet with
  | some (kind :: extension) =>
      if kind = SSH_AGENTC_EXTENSION then some (ssh_string extension) else none
  | _ => none

def is_openssh_session_bind_request (packet : Bytes) : Bool :=
  match packet_payload packet with
  | some (kind :: extension) =>
      if kind = 27 then
        match ssh_string extension with
        | none => false
        | some name => name == OPENSSH_SESSION_BIND_EXTENSION
      else false
  | _ => false

/-- `identities_response`: every key blob is one credential and nothing more. -/
def identities_response (lib : Library) (identities : List AgentIdentity) :
    Except IdentityError (List (lib.Credential × String)) :=
  identities.mapM fun identity =>
    match lib.decode_credential identity.key_blob with
    | none => .error .invalidKey
    | some (credential, rest) =>
        if rest ≠ [] then .error .invalidKey else .ok (credential, identity.comment)

/-- `response_payload_length`: the length is a `u32`. -/
def response_payload_length (lib : Library) (response : List (lib.Credential × String)) :
    Except IdentityError Nat :=
  match lib.encoded_len response with
  | none => .error .tooLarge
  | some length => if length < 2 ^ 32 then .ok length else .error .tooLarge

def identities_answer (lib : Library) (identities : List AgentIdentity) :
    Except IdentityError Bytes := do
  let response ← identities_response lib identities
  let payload_length ← response_payload_length lib response
  match lib.encode response with
  | none => .error .tooLarge
  | some payload => .ok (Octets.bigEndian 4 payload_length ++ payload)

def derive_answer (lib : Library) : Option (List AgentIdentity) →
    Except IdentityError (Option Bytes)
  | none => .ok none
  | some identities => (identities_answer lib identities).map some

/-! ## The router -/

/-- The watch channel of the published identities, with the number of
    publications so far.  Its sender stays alive. -/
structure Channel where
  version : Nat
  value : Option (List AgentIdentity)

/-- `watch::Sender::send_replace`. -/
def Channel.send_replace (ch : Channel) (identities : Option (List AgentIdentity)) : Channel :=
  ⟨ch.version + 1, identities⟩

/-- `RequestRouter`, the factory of connections.  Its receiver remembers the
    publication it last marked as seen, which is never one to come. -/
structure Factory (ch : Channel) where
  seen : Nat
  within : seen ≤ ch.version

structure ConnectionRouter where
  seen : Nat
  identity_answer : Option Bytes
  context : Option RequestContext
  accepts_context : Bool

/-- `RequestRouter::connection`: the receiver is cloned as it stands, and the
    answer is derived from a `borrow`, which marks nothing as seen. -/
def Factory.connection (lib : Library) {ch : Channel} (factory : Factory ch) :
    Except IdentityError ConnectionRouter := do
  let identity_answer ← derive_answer lib ch.value
  return ⟨factory.seen, identity_answer, none, true⟩

/-- Why a packet is refused. -/
inductive RouteError where
  | invalidIdentities (error : IdentityError)
  | invalidContext (error : ContextError)
  | lateContext
  deriving DecidableEq, Repr

/-- The response of a routed packet: known at once, or the broker's answer to a
    submitted request. -/
inductive Routed where
  | ready (response : Bytes)
  | submitted (packet : Bytes) (context : Option RequestContext)
  deriving DecidableEq, Repr

/-- `refresh_identity_answer`.  The publication is marked as seen before the
    derivation may fail. -/
def ConnectionRouter.refresh_identity_answer (lib : Library) (ch : Channel)
    (r : ConnectionRouter) : ConnectionRouter × Except IdentityError Unit :=
  if r.seen = ch.version then (r, .ok ())
  else
    match derive_answer lib ch.value with
    | .error error => ({ r with seen := ch.version }, .error error)
    | .ok answer => ({ r with seen := ch.version, identity_answer := answer }, .ok ())

/-- The part of `route` after the context extension. -/
def ConnectionRouter.respond (lib : Library) (r : ConnectionRouter) (packet : Bytes) : Routed :=
  match (if is_identity_request lib packet then r.identity_answer else none) with
  | some answer => .ready answer
  | none =>
      if is_openssh_session_bind_request packet then .ready AGENT_FAILURE_FRAME
      else .submitted packet r.context

/-- The part of `route` after the refresh. -/
def ConnectionRouter.classify (lib : Library) (r : ConnectionRouter) (packet : Bytes) :
    ConnectionRouter × Except RouteError Routed :=
  match decode lib.parse_str packet with
  | .ok (some received) =>
      if r.accepts_context then
        ({ r with context := some received, accepts_context := false },
          .ok (.ready AGENT_SUCCESS_FRAME))
      else (r, .error .lateContext)
  | .error error => (r, .error (.invalidContext error))
  | .ok none =>
      ({ r with accepts_context := false },
        .ok (ConnectionRouter.respond lib { r with accepts_context := false } packet))

/-- `ConnectionRouter::route`. -/
def ConnectionRouter.route (lib : Library) (ch : Channel) (r : ConnectionRouter)
    (packet : Bytes) : ConnectionRouter × Except RouteError Routed :=
  match r.refresh_identity_answer lib ch with
  | (r, .error error) => (r, .error (.invalidIdentities error))
  | (r, .ok ()) => r.classify lib packet

/-! ## What each classifier reads -/

/-- A packet that names the context extension. -/
def is_context_extension (packet : Bytes) : Bool :=
  extension_name packet == some (some CONTEXT_EXTENSION)

/-- A framed packet without a message number, or an extension request without a
    complete name. -/
def is_malformed (packet : Bytes) : Bool :=
  packet_payload packet == some [] || extension_name packet == some none

theorem ssh_string_eq_some {value name : Bytes} :
    ssh_string value = some name ↔
      name.length < 2 ^ 32 ∧ ∃ rest, value = string name ++ rest := by
  constructor
  · intro h
    rw [ssh_string] at h
    by_cases hshort : value.length < 4
    · rw [if_pos hshort] at h
      cases h
    rw [if_neg hshort] at h
    by_cases hend : value.length < 4 + Octets.value (value.take 4)
    · rw [if_pos hend] at h
      cases h
    rw [if_neg hend] at h
    have hname := Option.some.inj h
    have hfour : (value.take 4).length = 4 := by
      rw [List.length_take]
      omega
    have hlen : name.length = Octets.value (value.take 4) := by
      rw [← hname, List.length_take, List.length_drop]
      omega
    have hlt := Octets.value_lt (value.take 4)
    have hwritten := Octets.bigEndian_value (value.take 4)
    rw [hfour, ← hlen] at hlt hwritten
    refine ⟨hlt, (value.drop 4).drop name.length, ?_⟩
    rw [← hlen] at hname
    have hdrop : name ++ (value.drop 4).drop name.length = value.drop 4 := by
      nth_rewrite 1 [← hname]
      rw [List.take_append_drop]
    rw [string, hwritten, List.append_assoc, hdrop, List.take_append_drop]
  · rintro ⟨hlt, rest, rfl⟩
    have hfour := Octets.length_bigEndian 4 name.length
    have htake : (string name ++ rest).take 4 = Octets.bigEndian 4 name.length := by
      rw [string, List.append_assoc, List.take_left' hfour]
    have hdrop : (string name ++ rest).drop 4 = name ++ rest := by
      rw [string, List.append_assoc, List.drop_left' hfour]
    have hvalue : Octets.value (Octets.bigEndian 4 name.length) = name.length :=
      Octets.value_bigEndian hlt
    have hlen : (string name ++ rest).length = 4 + name.length + rest.length := by
      rw [List.length_append, string, List.length_append, hfour]
    rw [ssh_string, htake, hvalue, hdrop, hlen, if_neg (by omega), if_neg (by omega),
      List.take_left]

/-- The decoder's cursor reads the strings that `ssh_string` reads. -/
theorem take_string_ok {d : Decoder} {name : Bytes} (h : ssh_string d.rest = some name) :
    ∃ d', d.take_string = .ok (name, d') := by
  obtain ⟨hlt, rest, hrest⟩ := ssh_string_eq_some.mp h
  obtain ⟨d', htake, _⟩ := Decoder.take_string_string hrest hlt
  exact ⟨d', htake⟩

/-- A cursor that cannot read says so in one way. -/
theorem take_error {d : Decoder} {size : Nat} {error : ContextError}
    (h : d.take size = .error error) : error = .malformed := by
  rw [Decoder.take] at h
  by_cases hend : d.offset + size ≤ d.data.length
  · rw [dif_pos hend] at h
    cases h
  · rw [dif_neg hend] at h
    exact (Except.error.inj h).symm

theorem take_string_error {d : Decoder} (h : ssh_string d.rest = none) :
    d.take_string = .error .malformed := by
  cases htake : d.take_string with
  | ok r =>
      -- What was read is a string that `ssh_string` reads as well.
      obtain ⟨⟨length, d₁⟩, hlength, hvalue⟩ := bind_eq_ok htake
      obtain ⟨hlt, _⟩ := Decoder.take_u32_eq_ok hlength
      rw [← (Decoder.take_eq_ok hvalue).1] at hlt
      rw [ssh_string_eq_some.mpr ⟨hlt, r.2.rest, Decoder.take_string_eq_ok htake⟩] at h
      cases h
  | error error =>
      rw [Decoder.take_string, Decoder.take_u32] at htake
      cases hfour : d.take 4 with
      | error first =>
          rw [hfour] at htake
          obtain rfl := Except.error.inj htake
          rw [take_error hfour]
      | ok r =>
          rw [hfour] at htake
          rw [take_error htake]

theorem packet_eq_payload (packet : Bytes) :
    Decoder.packet packet
      = (packet_payload packet).map (fun data => ⟨data, 0, Nat.zero_le _⟩) := by
  rw [Decoder.packet, packet_payload]
  split
  · rfl
  · split
    · rfl
    · rfl

theorem payload_of_extension {packet : Bytes} {name : Option Bytes}
    (h : extension_name packet = some name) :
    ∃ extension, packet_payload packet = some (SSH_AGENTC_EXTENSION :: extension)
      ∧ ssh_string extension = name := by
  rw [extension_name] at h
  split at h
  · rename_i kind extension hpayload
    by_cases hkind : kind = SSH_AGENTC_EXTENSION
    · rw [if_pos hkind] at h
      rw [hkind] at hpayload
      exact ⟨extension, hpayload, Option.some.inj h⟩
    · rw [if_neg hkind] at h
      cases h
  · cases h

theorem extension_of_payload {packet extension : Bytes}
    (h : packet_payload packet = some (SSH_AGENTC_EXTENSION :: extension)) :
    extension_name packet = some (ssh_string extension) := by
  rw [extension_name, h]
  exact if_pos rfl

/-- The part of `decode` after the message number of an extension request. -/
def decode_named (parse_str : String → Option Uuid) (d : Decoder) :
    Except ContextError (Option RequestContext) := do
  let (name, d) ← d.take_string
  if name ≠ CONTEXT_EXTENSION then return none
  let (version, d) ← d.take_u8
  if version ≠ CONTEXT_VERSION then throw .unsupportedVersion
  let context ← decode_fields parse_str d
  return some context

theorem decode_extension (parse_str : String → Option Uuid) {packet extension : Bytes}
    (h : packet_payload packet = some (SSH_AGENTC_EXTENSION :: extension)) :
    ∃ d : Decoder, d.rest = extension ∧ decode parse_str packet = decode_named parse_str d := by
  obtain ⟨d, hkind, hrest⟩ := @Decoder.take_u8_cons
    ⟨SSH_AGENTC_EXTENSION :: extension, 0, Nat.zero_le _⟩ SSH_AGENTC_EXTENSION extension rfl
  refine ⟨d, hrest, ?_⟩
  rw [decode, packet_eq_payload, h]
  dsimp only [Option.map_some]
  rw [hkind]
  rfl

/-- A packet that names the context extension is a context or an error. -/
theorem decode_of_context_extension (parse_str : String → Option Uuid) {packet : Bytes}
    (h : is_context_extension packet = true) : decode parse_str packet ≠ .ok none := by
  obtain ⟨extension, hpayload, hname⟩ := payload_of_extension (beq_iff_eq.mp h)
  obtain ⟨d, hrest, hdecode⟩ := decode_extension parse_str hpayload
  rw [← hrest] at hname
  obtain ⟨d₁, htake⟩ := take_string_ok hname
  intro hnone
  rw [hdecode] at hnone
  obtain ⟨r, hread, hnamed⟩ := bind_eq_ok hnone
  obtain rfl := Except.ok.inj (htake.symm.trans hread)
  dsimp only at hnamed
  rw [if_neg (not_not.mpr rfl)] at hnamed
  obtain ⟨⟨version, d₂⟩, _, hversion⟩ := bind_eq_ok hnamed
  dsimp only at hversion
  by_cases hv : version ≠ CONTEXT_VERSION
  · rw [if_pos hv] at hversion
    cases hversion
  · rw [if_neg hv] at hversion
    obtain ⟨context, _, hsome⟩ := bind_eq_ok hversion
    cases hsome

theorem decode_of_malformed (parse_str : String → Option Uuid) {packet : Bytes}
    (h : is_malformed packet = true) : decode parse_str packet = .error .malformed := by
  rcases Bool.or_eq_true_iff.mp h with hempty | hname
  · rw [decode, packet_eq_payload, beq_iff_eq.mp hempty]
    rfl
  · obtain ⟨extension, hpayload, hname⟩ := payload_of_extension (beq_iff_eq.mp hname)
    obtain ⟨d, hrest, hdecode⟩ := decode_extension parse_str hpayload
    rw [← hrest] at hname
    rw [hdecode, decode_named, take_string_error hname]
    rfl

/-- Every other packet is left alone by the context decoder. -/
theorem decode_none (parse_str : String → Option Uuid) {packet : Bytes}
    (hcontext : is_context_extension packet = false) (hmalformed : is_malformed packet = false) :
    decode parse_str packet = .ok none := by
  obtain ⟨hempty, hunnamed⟩ := Bool.or_eq_false_iff.mp hmalformed
  cases hpayload : packet_payload packet with
  | none =>
      rw [decode, packet_eq_payload, hpayload]
      rfl
  | some payload =>
      cases payload with
      | nil => exact absurd hpayload (beq_eq_false_iff_ne.mp hempty)
      | cons kind extension =>
          by_cases hkind : kind = SSH_AGENTC_EXTENSION
          · rw [hkind] at hpayload
            have hname := extension_of_payload hpayload
            obtain ⟨d, hrest, hdecode⟩ := decode_extension parse_str hpayload
            cases hstring : ssh_string extension with
            | none =>
                rw [hstring] at hname
                exact absurd hname (beq_eq_false_iff_ne.mp hunnamed)
            | some name =>
                rw [hstring] at hname
                rw [← hrest] at hstring
                obtain ⟨d₁, htake⟩ := take_string_ok hstring
                have hother : name ≠ CONTEXT_EXTENSION := by
                  rintro rfl
                  exact absurd hname (beq_eq_false_iff_ne.mp hcontext)
                rw [hdecode, decode_named, htake]
                exact if_pos hother
          · rw [decode, packet_eq_payload, hpayload]
            exact if_pos hkind

theorem is_identity_request_iff {lib : Library} {packet : Bytes} :
    is_identity_request lib packet = true ↔ packet_payload packet = some [11] := by
  rw [is_identity_request]
  cases hpayload : packet_payload packet with
  | none => simp
  | some payload =>
      dsimp only
      constructor
      · intro h
        split at h
        · rename_i rest hdecode
          rw [List.isEmpty_iff.mp h] at hdecode
          rw [(lib.request_identities payload []).mp hdecode]
        · cases h
      · intro h
        rw [(lib.request_identities payload []).mpr (Option.some.inj h)]
        rfl

theorem is_session_bind_iff {packet : Bytes} :
    is_openssh_session_bind_request packet = true ↔
      extension_name packet = some (some OPENSSH_SESSION_BIND_EXTENSION) := by
  rw [is_openssh_session_bind_request, extension_name]
  split
  · rename_i kind extension hpayload
    by_cases hkind : kind = SSH_AGENTC_EXTENSION
    · rw [if_pos hkind, if_pos (show kind = 27 from hkind)]
      cases ssh_string extension with
      | none => simp
      | some name => simp
    · rw [if_neg hkind, if_neg (show ¬ kind = 27 from hkind)]
      simp
  · simp

/-- An identity request names no extension. -/
theorem identity_request_plain {lib : Library} {packet : Bytes}
    (h : is_identity_request lib packet = true) :
    is_context_extension packet = false ∧ is_malformed packet = false
      ∧ is_openssh_session_bind_request packet = false := by
  have hpayload := is_identity_request_iff.mp h
  have hname : extension_name packet = none := by
    rw [extension_name, hpayload]
    rfl
  have hbind : is_openssh_session_bind_request packet = false := by
    rw [is_openssh_session_bind_request, hpayload]
    rfl
  rw [is_context_extension, is_malformed, hname, hpayload]
  exact ⟨rfl, rfl, hbind⟩

/-- A session binding is a complete extension of another name. -/
theorem session_bind_plain {lib : Library} {packet : Bytes}
    (h : is_openssh_session_bind_request packet = true) :
    is_context_extension packet = false ∧ is_malformed packet = false
      ∧ is_identity_request lib packet = false := by
  have hname := is_session_bind_iff.mp h
  obtain ⟨extension, hpayload, _⟩ := payload_of_extension hname
  have hother : OPENSSH_SESSION_BIND_EXTENSION ≠ CONTEXT_EXTENSION := by decide
  have hidentity : is_identity_request lib packet = false := by
    rw [Bool.eq_false_iff]
    intro hid
    rw [(identity_request_plain hid).2.2] at h
    cases h
  rw [is_context_extension, is_malformed, hname, hpayload]
  refine ⟨?_, rfl, hidentity⟩
  rw [beq_eq_false_iff_ne]
  intro hsame
  exact hother (Option.some.inj (Option.some.inj hsame))

/-- A signing request is none of the packets that a router treats on its own. -/
theorem sign_request_plain {lib : Library} {packet rest : Bytes}
    (h : packet_payload packet = some (13 :: rest)) :
    is_context_extension packet = false ∧ is_malformed packet = false
      ∧ is_identity_request lib packet = false
      ∧ is_openssh_session_bind_request packet = false := by
  have hname : extension_name packet = none := by
    rw [extension_name, h]
    rfl
  have hbind : is_openssh_session_bind_request packet = false := by
    rw [is_openssh_session_bind_request, h]
    rfl
  have hidentity : is_identity_request lib packet = false := by
    rw [Bool.eq_false_iff]
    intro hid
    rw [is_identity_request_iff.mp hid] at h
    cases h
  rw [is_context_extension, is_malformed, hname, h]
  exact ⟨rfl, rfl, hidentity, hbind⟩

end RequestRouter
