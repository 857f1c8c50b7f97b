import AgentWitness.ContextCodecProofs
import AgentWitness.RequestRouterProofs
import AgentWitness.TransitionProofs

/-! # One connection's router over a whole connection

    Packets arrive and identities are published in any order, until the first
    packet that is refused.  WHAT A CONNECTION REMEMBERS IS A FUNCTION OF ITS
    PAST (`Wired`): the context is the first packet's, and the cached answer is
    the one for the last publication, or is marked as older.  A router in such
    a state keeps the contract on whatever packet comes next. -/

namespace ConnectionRouting

open Packet RemoteProtocol Context Transition RequestRouter

/-! ## One connection while identities are published -/

/-- A connection's router and the channel it watches.  The listener closes the
    connection on the first error. -/
structure Connection where
  channel : Channel
  router : ConnectionRouter
  closed : Bool

/-- What happens to a connection: a publication by the paired client, or the
    next packet. -/
inductive Action where
  | publish (identities : Option (List AgentIdentity))
  | route (packet : Bytes)

/-- An action and, for a packet, what the router made of it. -/
abbrev Label := Action × Option (Except RouteError Routed)

def Connection.next (lib : Library) (s : Connection) :
    Action → Option (Connection × Option (Except RouteError Routed))
  | .publish identities => some ({ s with channel := s.channel.send_replace identities }, none)
  | .route packet =>
      if s.closed then none
      else
        some (⟨s.channel, (s.router.route lib s.channel packet).1,
            !(s.router.route lib s.channel packet).2.isOk⟩,
          some (s.router.route lib s.channel packet).2)

/-- Published identities can be encoded. -/
def Encodes (lib : Library) (_ : Connection) : Action → Prop
  | .publish identities => (derive_answer lib identities).isOk = true
  | .route _ => True

instance (lib : Library) (s : Connection) : (a : Action) → Decidable (Encodes lib s a)
  | .publish identities =>
      inferInstanceAs (Decidable ((derive_answer lib identities).isOk = true))
  | .route _ => inferInstanceAs (Decidable True)

/-- A run of a new connection. -/
abbrev ConnectionRun (lib : Library) (ch : Channel) (router : ConnectionRouter) :
    List Label → Connection → Prop :=
  Run (Fires (Connection.next lib) (Encodes lib)) ⟨ch, router, false⟩

/-- The packet of a routing step. -/
def packetOf : Label → Option Bytes
  | (.route packet, _) => some packet
  | (.publish _, _) => none

/-- The packets routed so far. -/
def routedPackets (h : List Label) : List Bytes := h.filterMap packetOf

/-- The identities published last. -/
def published (ch : Channel) (h : List Label) : Option (List AgentIdentity) :=
  h.foldl (fun value l =>
    match l.1 with
    | .publish identities => identities
    | .route _ => value) ch.value

/-- The context that a connection's first packet brings. -/
def contextOf (lib : Library) : List Bytes → Option RequestContext
  | [] => none
  | first :: _ =>
      match decode lib.parse_str first with
      | .ok context => context
      | .error _ => none

/-- What a router owes to a packet, given the steps before it. -/
structure Contract (lib : Library) (ch : Channel) (before : List Label) (packet : Bytes)
    (result : Except RouteError Routed) : Prop where
  /-- Submitted requests carry their packet and the connection's context. -/
  submitted : ∀ p context, result = .ok (.submitted p context) →
    p = packet ∧ context = contextOf lib (routedPackets before ++ [packet])
  /-- A context extension is never submitted. -/
  context : is_context_extension packet = true →
    ∀ p context, result ≠ .ok (.submitted p context)
  /-- A context extension that is not the first packet is an error. -/
  late : is_context_extension packet = true → routedPackets before ≠ [] →
    ∃ error, result = .error error
  /-- Known identities are answered locally as they are published now. -/
  known : is_identity_request lib packet = true → ∀ identities,
    published ch before = some identities →
    ∃ answer, identities_answer lib identities = .ok answer ∧ result = .ok (.ready answer)
  /-- Unknown identities are asked of the broker. -/
  unknown : is_identity_request lib packet = true → published ch before = none →
    ∃ context, result = .ok (.submitted packet context)
  /-- A session binding is refused locally. -/
  bound : is_openssh_session_bind_request packet = true →
    result = .ok (.ready AGENT_FAILURE_FRAME)
  /-- A valid context extension is acknowledged if it is the first packet. -/
  first : routedPackets before = [] → ∀ context,
    decode lib.parse_str packet = .ok (some context) → result = .ok (.ready AGENT_SUCCESS_FRAME)
  /-- An invalid one is refused with the decoder's error, wherever it stands. -/
  invalid : ∀ error, decode lib.parse_str packet = .error error →
    result = .error (.invalidContext error)
  /-- So is a packet that ends before it says what it is. -/
  malformed : is_malformed packet = true →
    result = .error (.invalidContext .malformed)
  /-- Every other packet that is not a session binding is submitted. -/
  other : is_context_extension packet = false → is_identity_request lib packet = false →
    is_openssh_session_bind_request packet = false → is_malformed packet = false →
    ∃ context, result = .ok (.submitted packet context)
  /-- So is every signing request. -/
  sign : ∀ rest, packet_payload packet = some (13 :: rest) →
    ∃ context, result = .ok (.submitted packet context)

/-- What a connection remembers of its past, as long as it is open. -/
structure Wired (lib : Library) (ch : Channel) (h : List Label) (s : Connection) : Prop where
  value : s.channel.value = published ch h
  encodes : (derive_answer lib s.channel.value).isOk = true
  seen : s.router.seen ≤ s.channel.version
  current : s.router.seen = s.channel.version →
    derive_answer lib s.channel.value = .ok s.router.identity_answer
  accepts : s.closed = false → s.router.accepts_context = (routedPackets h).isEmpty
  context : s.closed = false → s.router.context = contextOf lib (routedPackets h)

theorem routedPackets_snoc (h : List Label) (l : Label) :
    routedPackets (h ++ [l]) = routedPackets h ++ (packetOf l).toList := by
  rw [routedPackets, List.filterMap_append]
  cases hp : packetOf l <;> simp [hp, routedPackets]

theorem published_snoc (ch : Channel) (h : List Label) (l : Label) :
    published ch (h ++ [l]) = published ⟨0, published ch h⟩ [l] := by
  rw [published, List.foldl_append]
  rfl

/-- A router that looks at the channel holds the answer for what it finds. -/
theorem refresh_current {lib : Library} {ch : Channel} {r : ConnectionRouter}
    {answer : Option Bytes} (hvalue : derive_answer lib ch.value = .ok answer)
    (hcurrent : r.seen = ch.version → derive_answer lib ch.value = .ok r.identity_answer) :
    r.refresh_identity_answer lib ch
      = ({ r with seen := ch.version, identity_answer := answer }, .ok ()) := by
  rw [ConnectionRouter.refresh_identity_answer]
  by_cases hseen : r.seen = ch.version
  · rw [if_pos hseen, ← hseen]
    obtain rfl := Except.ok.inj ((hcurrent hseen).symm.trans hvalue)
    rfl
  · rw [if_neg hseen, hvalue]

theorem derive_some {lib : Library} {identities : List AgentIdentity} {answer : Option Bytes}
    (h : derive_answer lib (some identities) = .ok answer) :
    ∃ bytes, identities_answer lib identities = .ok bytes ∧ some bytes = answer := by
  rw [derive_answer] at h
  cases hbytes : identities_answer lib identities with
  | error error =>
      rw [hbytes] at h
      cases h
  | ok bytes =>
      rw [hbytes] at h
      exact ⟨bytes, rfl, Except.ok.inj h⟩

theorem next_route {lib : Library} {s s' : Connection} {packet : Bytes}
    {output : Option (Except RouteError Routed)}
    (h : s.next lib (.route packet) = some (s', output)) :
    s.closed = false
      ∧ s' = ⟨s.channel, (s.router.route lib s.channel packet).1,
          !(s.router.route lib s.channel packet).2.isOk⟩
      ∧ output = some (s.router.route lib s.channel packet).2 := by
  rw [Connection.next] at h
  by_cases hclosed : s.closed = true
  · rw [if_pos hclosed] at h
    cases h
  · rw [if_neg hclosed] at h
    obtain ⟨rfl, rfl⟩ := Prod.mk.inj (Option.some.inj h)
    exact ⟨Bool.eq_false_iff.mpr hclosed, rfl, rfl⟩

theorem isOk_iff {ε α : Type} {result : Except ε α} :
    result.isOk = true ↔ ∃ a, result = .ok a := by
  cases result with
  | error e => simp [Except.isOk, Except.toBool]
  | ok a => simp [Except.isOk, Except.toBool]

/-- A wired router routes a packet as if it had derived its answer just now. -/
theorem Wired.route {lib : Library} {ch : Channel} {h : List Label} {s : Connection}
    (hw : Wired lib ch h s) (packet : Bytes) :
    ∃ answer, derive_answer lib (published ch h) = .ok answer
      ∧ s.router.route lib s.channel packet
        = ConnectionRouter.classify lib
            { s.router with seen := s.channel.version, identity_answer := answer } packet := by
  obtain ⟨answer, hanswer⟩ := isOk_iff.mp hw.encodes
  refine ⟨answer, ?_, ?_⟩
  · rw [← hw.value]
    exact hanswer
  · rw [ConnectionRouter.route, refresh_current hanswer hw.current]

theorem classify_none {lib : Library} {packet : Bytes} (h : decode lib.parse_str packet = .ok none)
    (r : ConnectionRouter) :
    r.classify lib packet = ({ r with accepts_context := false },
      .ok (ConnectionRouter.respond lib { r with accepts_context := false } packet)) := by
  rw [ConnectionRouter.classify, h]

theorem classify_late {lib : Library} {packet : Bytes}
    (h : decode lib.parse_str packet ≠ .ok none) {r : ConnectionRouter}
    (hlate : r.accepts_context = false) :
    ∃ error, r.classify lib packet = (r, .error error) := by
  rw [ConnectionRouter.classify]
  cases hdecode : decode lib.parse_str packet with
  | error error => exact ⟨.invalidContext error, rfl⟩
  | ok received =>
      cases received with
      | none => exact absurd hdecode h
      | some context =>
          dsimp only
          rw [if_neg (by rw [hlate]; exact Bool.false_ne_true)]
          exact ⟨.lateContext, rfl⟩

theorem classify_context {lib : Library} {packet : Bytes}
    (h : decode lib.parse_str packet ≠ .ok none) (r : ConnectionRouter) :
    (∃ error, r.classify lib packet = (r, .error error))
      ∨ (∃ received, decode lib.parse_str packet = .ok (some received)
        ∧ r.classify lib packet = ({ r with context := some received, accepts_context := false },
            .ok (.ready AGENT_SUCCESS_FRAME))) := by
  cases hdecode : decode lib.parse_str packet with
  | error error =>
      refine Or.inl ⟨.invalidContext error, ?_⟩
      rw [ConnectionRouter.classify, hdecode]
  | ok received =>
      cases received with
      | none => exact absurd hdecode h
      | some context =>
          by_cases haccepts : r.accepts_context = true
          · refine Or.inr ⟨context, rfl, ?_⟩
            rw [ConnectionRouter.classify, hdecode]
            exact if_pos haccepts
          · exact Or.inl (classify_late h (Bool.eq_false_iff.mpr haccepts))

/-- Only a packet that decodes to no context is submitted. -/
theorem classify_unsubmitted {lib : Library} {packet : Bytes}
    (h : decode lib.parse_str packet ≠ .ok none) (r : ConnectionRouter) (p : Bytes)
    (context : Option RequestContext) :
    (r.classify lib packet).2 ≠ .ok (.submitted p context) := by
  intro hresult
  rcases classify_context h r with ⟨error, hclassify⟩ | ⟨received, _, hclassify⟩
  · rw [hclassify] at hresult
    cases hresult
  · rw [hclassify] at hresult
    cases hresult

/-- What the router keeps of its receiver while it classifies a packet. -/
theorem classify_receiver (lib : Library) (r : ConnectionRouter) (packet : Bytes) :
    (r.classify lib packet).1.seen = r.seen
      ∧ (r.classify lib packet).1.identity_answer = r.identity_answer := by
  by_cases hdecode : decode lib.parse_str packet = .ok none
  · rw [classify_none hdecode]
    exact ⟨rfl, rfl⟩
  · rcases classify_context hdecode r with ⟨error, hclassify⟩ | ⟨received, _, hclassify⟩
    · rw [hclassify]
      exact ⟨rfl, rfl⟩
    · rw [hclassify]
      exact ⟨rfl, rfl⟩

/-- An accepted packet ends the offer of a context and settles it: the first
    one by what it decodes to, a later one not at all. -/
theorem classify_settles {lib : Library} {r : ConnectionRouter} {packet : Bytes}
    {packets : List Bytes} (haccepts : r.accepts_context = packets.isEmpty)
    (hcontext : r.context = contextOf lib packets)
    (hok : (r.classify lib packet).2.isOk = true) :
    (r.classify lib packet).1.accepts_context = false
      ∧ (r.classify lib packet).1.context = contextOf lib (packets ++ [packet]) := by
  by_cases hdecode : decode lib.parse_str packet = .ok none
  · rw [classify_none hdecode]
    refine ⟨rfl, ?_⟩
    dsimp only
    rw [hcontext]
    cases packets with
    | nil =>
        rw [List.nil_append, contextOf, contextOf, hdecode]
    | cons first rest => rfl
  · rcases classify_context hdecode r with
      ⟨error, hclassify⟩ | ⟨received, hreceived, hclassify⟩
    · rw [hclassify] at hok
      cases hok
    · rw [hclassify]
      refine ⟨rfl, ?_⟩
      cases packets with
      | nil => rw [List.nil_append, contextOf, hreceived]
      | cons first rest =>
          obtain ⟨error, hlate⟩ := classify_late hdecode haccepts
          rw [hlate] at hok
          cases hok

/-! ## The run keeps the connection wired -/

theorem wired_new {lib : Library} {ch : Channel} {factory : Factory ch}
    {router : ConnectionRouter} (h : factory.connection lib = .ok router) :
    Wired lib ch [] ⟨ch, router, false⟩ := by
  obtain ⟨answer, hanswer, hrouter⟩ := bind_eq_ok h
  obtain rfl := Except.ok.inj hrouter
  exact
    { value := rfl
      encodes := isOk_iff.mpr ⟨answer, hanswer⟩
      seen := factory.within
      current := fun _ => hanswer
      accepts := fun _ => rfl
      context := fun _ => rfl }

/-- A publication is newer than everything the router has seen. -/
theorem Wired.publish {lib : Library} {ch : Channel} {h : List Label} {s : Connection}
    (hw : Wired lib ch h s) {identities : Option (List AgentIdentity)}
    (hencodes : (derive_answer lib identities).isOk = true) :
    Wired lib ch (h ++ [(.publish identities, none)])
      { s with channel := s.channel.send_replace identities } := by
  have hseen := hw.seen
  have hpackets : routedPackets (h ++ [(.publish identities, none)]) = routedPackets h := by
    rw [routedPackets_snoc]
    exact List.append_nil _
  refine
    { value := (published_snoc ch h (.publish identities, none)).symm
      encodes := hencodes
      seen := Nat.le_succ_of_le hseen
      current := ?_
      accepts := ?_
      context := ?_ }
  · intro hsame
    have hnew : s.router.seen = s.channel.version + 1 := hsame
    omega
  · intro hopen
    rw [hpackets]
    exact hw.accepts hopen
  · intro hopen
    rw [hpackets]
    exact hw.context hopen

theorem Wired.routed {lib : Library} {ch : Channel} {h : List Label} {s : Connection}
    (hw : Wired lib ch h s) (hopen : s.closed = false) (packet : Bytes)
    (result : Option (Except RouteError Routed)) :
    Wired lib ch (h ++ [(.route packet, result)])
      ⟨s.channel, (s.router.route lib s.channel packet).1,
        !(s.router.route lib s.channel packet).2.isOk⟩ := by
  obtain ⟨answer, hanswer, hroute⟩ := hw.route packet
  have hpublished : published ch (h ++ [(.route packet, result)]) = published ch h :=
    published_snoc ch h (.route packet, result)
  have hpackets : routedPackets (h ++ [(.route packet, result)])
      = routedPackets h ++ [packet] := routedPackets_snoc h (.route packet, result)
  rw [hroute]
  obtain ⟨hseen, hidentities⟩ := classify_receiver lib
    { s.router with seen := s.channel.version, identity_answer := answer } packet
  have hsettled := @classify_settles lib
    { s.router with seen := s.channel.version, identity_answer := answer } packet
    (routedPackets h) (hw.accepts hopen) (hw.context hopen)
  refine
    { value := hw.value.trans hpublished.symm
      encodes := hw.encodes
      seen := Nat.le_of_eq hseen
      current := ?_
      accepts := ?_
      context := ?_ }
  · intro _
    dsimp only
    rw [hidentities, hw.value]
    exact hanswer
  · intro hstill
    rw [hpackets, (hsettled (Bool.not_eq_eq_eq_not.mp hstill)).1]
    cases routedPackets h with
    | nil => rfl
    | cons first rest => rfl
  · intro hstill
    rw [hpackets, (hsettled (Bool.not_eq_eq_eq_not.mp hstill)).2]

/-- What is left to the broker or answered from the published identities. -/
theorem respond_identities {lib : Library} {packet : Bytes}
    (h : is_identity_request lib packet = true) (r : ConnectionRouter) :
    (∀ answer, r.identity_answer = some answer → r.respond lib packet = .ready answer)
      ∧ (r.identity_answer = none → r.respond lib packet = .submitted packet r.context) := by
  have hbind := (identity_request_plain h).2.2
  constructor
  · intro answer hanswer
    rw [ConnectionRouter.respond, if_pos h, hanswer]
  · intro hnone
    rw [ConnectionRouter.respond, if_pos h, hnone, hbind]
    rfl

theorem respond_other {lib : Library} {packet : Bytes}
    (hidentity : is_identity_request lib packet = false)
    (hbind : is_openssh_session_bind_request packet = false) (r : ConnectionRouter) :
    r.respond lib packet = .submitted packet r.context := by
  rw [ConnectionRouter.respond, hidentity, hbind]
  rfl

theorem respond_submitted {lib : Library} {r : ConnectionRouter} {packet p : Bytes}
    {context : Option RequestContext} (h : r.respond lib packet = .submitted p context) :
    p = packet ∧ context = r.context := by
  rw [ConnectionRouter.respond] at h
  split at h
  · cases h
  · split at h
    · cases h
    · cases h
      exact ⟨rfl, rfl⟩

/-- A wired router keeps the contract. -/
theorem Wired.contract {lib : Library} {ch : Channel} {h : List Label} {s : Connection}
    (hw : Wired lib ch h s) (hopen : s.closed = false) (packet : Bytes) :
    Contract lib ch h packet (s.router.route lib s.channel packet).2 := by
  obtain ⟨answer, hanswer, hroute⟩ := hw.route packet
  rw [hroute]
  generalize hr : ({ s.router with seen := s.channel.version, identity_answer := answer } :
    ConnectionRouter) = r
  have hreceiver : r.identity_answer = answer := by rw [← hr]
  have haccepts : r.accepts_context = (routedPackets h).isEmpty := by
    rw [← hr]
    exact hw.accepts hopen
  have hcontext : r.context = contextOf lib (routedPackets h) := by
    rw [← hr]
    exact hw.context hopen
  have hplain : is_context_extension packet = false → is_malformed packet = false →
      r.classify lib packet = ({ r with accepts_context := false },
        .ok (ConnectionRouter.respond lib { r with accepts_context := false } packet)) := by
    intro hext hmal
    exact classify_none (decode_none lib.parse_str hext hmal) r
  have hother : is_context_extension packet = false → is_identity_request lib packet = false →
      is_openssh_session_bind_request packet = false → is_malformed packet = false →
      ∃ context, (r.classify lib packet).2 = .ok (.submitted packet context) := by
    intro hext hidentity hbind hmal
    rw [hplain hext hmal, respond_other hidentity hbind]
    exact ⟨r.context, rfl⟩
  have hinvalid : ∀ error, decode lib.parse_str packet = .error error →
      (r.classify lib packet).2 = .error (.invalidContext error) := by
    intro error hdecode
    rw [ConnectionRouter.classify, hdecode]
  refine
    { submitted := ?_
      context := ?_
      late := ?_
      known := ?_
      unknown := ?_
      bound := ?_
      first := ?_
      invalid := ?_
      malformed := ?_
      other := hother
      sign := ?_ }
  · intro p context hresult
    have hsettled := (classify_settles haccepts hcontext (isOk_iff.mpr ⟨_, hresult⟩)).2
    by_cases hdecode : decode lib.parse_str packet = .ok none
    · rw [classify_none hdecode] at hresult hsettled
      obtain ⟨hp, hc⟩ := respond_submitted (Except.ok.inj hresult)
      exact ⟨hp, hc.trans hsettled⟩
    · exact absurd hresult (classify_unsubmitted hdecode r p context)
  · intro hext p context
    exact classify_unsubmitted (decode_of_context_extension lib.parse_str hext) r p context
  · intro hext hlater
    have hlate : r.accepts_context = false := by
      rw [haccepts]
      exact List.isEmpty_eq_false_iff.mpr hlater
    obtain ⟨error, hclassify⟩ :=
      classify_late (decode_of_context_extension lib.parse_str hext) hlate
    rw [hclassify]
    exact ⟨error, rfl⟩
  · intro hidentity identities hpublished
    obtain ⟨hext, hmal, _⟩ := identity_request_plain hidentity
    rw [hpublished] at hanswer
    obtain ⟨bytes, hbytes, rfl⟩ := derive_some hanswer
    refine ⟨bytes, hbytes, ?_⟩
    rw [hplain hext hmal]
    exact congrArg Except.ok ((respond_identities hidentity _).1 bytes hreceiver)
  · intro hidentity hpublished
    obtain ⟨hext, hmal, _⟩ := identity_request_plain hidentity
    rw [hpublished] at hanswer
    obtain rfl := Except.ok.inj hanswer
    rw [hplain hext hmal]
    exact ⟨r.context, congrArg Except.ok ((respond_identities hidentity _).2 hreceiver)⟩
  · intro hbind
    obtain ⟨hext, hmal, hidentity⟩ := @session_bind_plain lib packet hbind
    rw [hplain hext hmal, ConnectionRouter.respond, hidentity, hbind]
    rfl
  · intro hfirst context hdecode
    have hopen : r.accepts_context = true := by rw [haccepts, hfirst]; rfl
    rw [ConnectionRouter.classify, hdecode]
    dsimp only
    rw [if_pos hopen]
  · exact hinvalid
  · intro hmal
    exact hinvalid .malformed (decode_of_malformed lib.parse_str hmal)
  · intro rest hsign
    obtain ⟨hext, hmal, hidentity, hbind⟩ := @sign_request_plain lib packet rest hsign
    exact hother hext hidentity hbind hmal

theorem run_wired {lib : Library} {ch : Channel} {factory : Factory ch}
    {router : ConnectionRouter} (hnew : factory.connection lib = .ok router) {h : List Label}
    {s : Connection} (hrun : ConnectionRun lib ch router h s) : Wired lib ch h s := by
  induction hrun with
  | nil => exact wired_new hnew
  | @snoc h s s' l _ hs ih =>
      obtain ⟨hok, hnext⟩ := hs
      obtain ⟨action, output⟩ := l
      cases action with
      | publish identities =>
          obtain ⟨rfl, rfl⟩ := Prod.mk.inj (Option.some.inj hnext)
          exact ih.publish hok
      | route packet =>
          obtain ⟨hopen, rfl, rfl⟩ := next_route hnext
          exact ih.routed hopen packet _

/-- **The connection's contract.**  Along every run of a new connection, with
    identities published in between as they please, every packet is routed as
    the contract says. -/
theorem connection_routes_by_contract {lib : Library} {ch : Channel} (factory : Factory ch)
    {router : ConnectionRouter} (hnew : factory.connection lib = .ok router) {h : List Label}
    {s : Connection} (hrun : ConnectionRun lib ch router h s) :
    Throughout (fun before l => ∀ packet, packetOf l = some packet →
      ∃ result, l.2 = some result ∧ Contract lib ch before packet result) h := by
  induction hrun with
  | nil => exact throughout_nil
  | @snoc h s s' l hprior hs ih =>
      refine throughout_snoc.mpr ⟨ih, ?_⟩
      intro packet hpacket
      obtain ⟨action, output⟩ := l
      cases action with
      | publish identities => cases hpacket
      | route routed =>
          obtain rfl := Option.some.inj hpacket
          obtain ⟨hopen, _, rfl⟩ := next_route hs.2
          exact ⟨_, rfl, (run_wired hnew hprior).contract hopen routed⟩

/-- Codecs that read an identity request and write identities as the agent
    protocol does, with every key blob a credential. -/
def agentCodec : Library where
  parse_str := ContextCodec.parseSimple
  decode_request
    | [] => none
    | kind :: rest => some (if kind = 11 then .requestIdentities else .other, rest)
  Credential := Bytes
  decode_credential blob := some (blob, [])
  encoded_len identities :=
    some (5 + (identities.map fun i => 8 + i.1.length + (Utf8.encode i.2).length).sum)
  encode identities := some (12 :: (Octets.bigEndian 4 identities.length
    ++ identities.flatMap fun i => string i.1 ++ string (Utf8.encode i.2)))
  request_identities := by
    intro payload rest
    cases payload with
    | nil => simp
    | cons kind tail =>
        by_cases hkind : kind = 11
        · simp [hkind]
        · simp [hkind]

/-- A connection that explains itself, asks for the identities published in
    between, signs, and tries to explain itself again. -/
def explainedActions : List Action :=
  [.route ContextSchema.gitPush,
   .publish (some [⟨[1, 2], "k"⟩]),
   .route [0, 0, 0, 1, 11],
   .route [0, 0, 0, 1, 13],
   .route ContextSchema.gitPush]

def explainedRun : List Label × Connection :=
  outcome (Connection.next agentCodec) (Encodes agentCodec)
    ⟨⟨0, none⟩, ⟨0, none, none, true⟩, false⟩ explainedActions

theorem connection_routes_explained :
    explainedRun.1.map Prod.snd
        = [some (.ok (.ready AGENT_SUCCESS_FRAME)), none,
           some (.ok (.ready [0, 0, 0, 16, 12, 0, 0, 0, 1, 0, 0, 0, 2, 1, 2, 0, 0, 0, 1, 107])),
           some (.ok (.submitted [0, 0, 0, 1, 13]
             (some ⟨⟨0xd371fa50458a41918893d00139c781a2⟩, "Push", ["git", "push"]⟩))),
           some (.error .lateContext)]
      ∧ Throughout (fun before l => ∀ packet, packetOf l = some packet →
          ∃ result, l.2 = some result ∧ Contract agentCodec ⟨0, none⟩ before packet result)
        explainedRun.1 :=
  ⟨by decide +kernel,
   connection_routes_by_contract (⟨0, Nat.le_refl 0⟩ : Factory ⟨0, none⟩) rfl
     (run_outcome _ _ explainedActions (by decide +kernel))⟩

/-- An extension request without a name is refused, although it is none of the
    packets that a router treats on its own. -/
theorem nameless_extension_refused :
    ¬ ∀ (lib : Library) (ch : Channel) (factory : Factory ch) (router : ConnectionRouter)
        (h : List Label) (s : Connection), factory.connection lib = .ok router →
        ConnectionRun lib ch router h s →
        Throughout (fun _ l => ∀ packet, packetOf l = some packet →
          is_context_extension packet = false → is_identity_request lib packet = false →
          is_openssh_session_bind_request packet = false →
          ∃ context, l.2 = some (.ok (.submitted packet context))) h := by
  intro hall
  have hrun : ConnectionRun agentCodec ⟨0, none⟩ ⟨0, none, none, true⟩ _ _ :=
    run_outcome _ _ [.route [0, 0, 0, 1, 27]] (by decide +kernel)
  obtain ⟨context, hresult⟩ := hall agentCodec ⟨0, none⟩ ⟨0, Nat.le_refl 0⟩
    ⟨0, none, none, true⟩ _ _ rfl hrun [] (.route [0, 0, 0, 1, 27], _) [] rfl
    [0, 0, 0, 1, 27] rfl (by decide +kernel) (by decide +kernel) (by decide +kernel)
  cases hresult

end ConnectionRouting
