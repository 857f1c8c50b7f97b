import AgentWitness.ConnectionRoutingProofs
import Mathlib.Data.List.Infix

/-! # The select loop of one local connection

    `handle_connection` of `agent_socket/listener.rs`.  The loop reads a frame
    and routes it, or takes the response that is next in push order and writes
    it; no frame is read while bytes are written.  Responses become ready in
    any order, identities are published at any time, and a write may stop
    short.

    ACCEPTED IS ANSWERED PLUS QUEUED: the ledger of all accepted packets is the
    responses handed to the writer followed by the queue, in this order, at
    every point of a run (`Paced`).  The order of the bytes, the place of the
    extra failure frame and the bound on unanswered packets are read off that
    equation. -/

namespace Listener

open Packet RemoteProtocol Transition RequestRouter ConnectionRouting

def MAX_PIPELINED_REQUESTS : Nat := 8

/-- A future in the response queue: pending, or ready with its result. -/
abbrev Response := Option (Except RequestError Bytes)

/-- The future of a routed packet.  `ready_response` is ready from the start. -/
def future : Routed → Response
  | .ready response => some (.ok response)
  | .submitted _ _ => none

/-- The bytes written for a result. -/
def response_frame : Except RequestError Bytes → Bytes
  | .ok response => response
  | .error _ => AGENT_FAILURE_FRAME

/-- Why the codec yields no packet. -/
inductive FrameError where
  | malformed
  | oversized
  | io
  deriving DecidableEq, Repr

/-- Why the next frame ends the connection with a failure. -/
inductive Refusal where
  | frame (error : FrameError)
  | route (error : RouteError)
  deriving DecidableEq, Repr

/-- Where the loop stands: in `select!`, in `write_all` with the bytes still to
    be written (and whether the loop returns after them), or returned. -/
inductive Phase where
  | selecting
  | writing (rest : Bytes) (closing : Bool)
  | returned
  deriving DecidableEq, Repr

/-- The state of `handle_connection`.  `FuturesOrdered` numbers its futures, and
    `outgoing` is the number of the front one. -/
structure State where
  channel : Channel
  router : ConnectionRouter
  outgoing : Nat
  responses : List Response
  written : Bytes
  phase : Phase

/-- `handle_connection` on a new stream. -/
def State.new (ch : Channel) (router : ConnectionRouter) : State :=
  ⟨ch, router, 0, [], [], .selecting⟩

/-- What happens to a connection.  A response is named by its number, and a
    write is cut into the pieces the socket takes. -/
inductive Action where
  | publish (identities : Option (List AgentIdentity))
  | complete (number : Nat) (result : Except RequestError Bytes)
  | frame (frame : Option (Except FrameError Bytes))
  | respond
  | transmit (size : Nat)
  | interrupt

/-- What a step shows. -/
inductive Output where
  | quiet
  | accepted (packet : Bytes) (routed : Routed)
  | refused (reason : Refusal) (notified : Bool)
  | responded (frame : Bytes)
  deriving DecidableEq, Repr

/-- The loop returns; with no response outstanding it writes the failure frame
    first. -/
def State.refuse (s : State) (reason : Refusal) : State × Output :=
  if s.responses.isEmpty then
    ({ s with phase := .writing AGENT_FAILURE_FRAME true }, .refused reason true)
  else ({ s with phase := .returned }, .refused reason false)

/-- The branch of `select!` on the next frame. -/
def State.receive (lib : Library) (s : State) : Option (Except FrameError Bytes) → State × Output
  | none => ({ s with phase := .returned }, .quiet)
  | some (.error error) => s.refuse (.frame error)
  | some (.ok packet) =>
      if MAX_PIPELINED_REQUESTS ≤ s.responses.length then
        ({ s with phase := .returned }, .quiet)
      else
        match s.router.route lib s.channel packet with
        | (router, .error error) => State.refuse { s with router := router } (.route error)
        | (router, .ok routed) =>
            ({ s with router := router, responses := s.responses ++ [future routed] },
              .accepted packet routed)

/-- The phase of `write_all` after a piece is written. -/
def Phase.after : Bytes → Bool → Phase
  | [], true => .returned
  | [], false => .selecting
  | rest, closing => .writing rest closing

/-- One step.  An interrupt is a failing write or the task's end at shutdown. -/
def State.next (lib : Library) (s : State) : Action → Option (State × Output)
  | .publish identities =>
      some ({ s with channel := s.channel.send_replace identities }, .quiet)
  | .complete number result =>
      if s.outgoing ≤ number then
        match s.responses[number - s.outgoing]? with
        | some none =>
            some ({ s with
              responses := s.responses.set (number - s.outgoing) (some result) }, .quiet)
        | _ => none
      else none
  | .frame frame =>
      match s.phase with
      | .selecting => some (s.receive lib frame)
      | _ => none
  | .respond =>
      match s.phase, s.responses with
      | .selecting, some result :: responses =>
          some ({ s with
            outgoing := s.outgoing + 1, responses := responses,
            phase := .writing (response_frame result) false }, .responded (response_frame result))
      | _, _ => none
  | .transmit size =>
      match s.phase with
      | .writing rest closing =>
          some ({ s with
            written := s.written ++ rest.take size,
            phase := Phase.after (rest.drop size) closing }, .quiet)
      | _ => none
  | .interrupt => some ({ s with phase := .returned }, .quiet)

/-- An action and what it showed. -/
abbrev Label := Action × Output

/-- A run of the loop on a new stream. -/
abbrev ListenerRun (lib : Library) (ch : Channel) (router : ConnectionRouter) :
    List Label → State → Prop :=
  Run (Fires (State.next lib) (fun _ _ => True)) (.new ch router)

/-! ## What a history says -/

/-- The packet that a step accepts. -/
def acceptedPacket : Label → Option Bytes
  | (_, .accepted packet _) => some packet
  | _ => none

/-- The packets accepted so far, in arrival order. -/
def acceptedPackets (h : List Label) : List Bytes := h.filterMap acceptedPacket

/-- The response of each accepted packet, in arrival order, as far as it is
    known after one more step. -/
def enter (ledger : List Response) : Label → List Response
  | (.complete number result, _) => ledger.set number (some result)
  | (_, .accepted _ routed) => ledger ++ [future routed]
  | _ => ledger

def ledger (h : List Label) : List Response := h.foldl enter []

/-- The frame that a step hands to the writer. -/
def handedFrame : Label → Option Bytes
  | (_, .responded frame) => some frame
  | (_, .refused _ true) => some AGENT_FAILURE_FRAME
  | _ => none

/-- The frames handed to the writer, in order. -/
def handed (h : List Label) : List Bytes := h.filterMap handedFrame

/-- The step read a frame that was malformed, oversized or refused by the
    router. -/
def Faulty (l : Label) : Prop := ∃ reason notified, l.2 = .refused reason notified

/-- The step read no frame. -/
def Unread (l : Label) : Prop := ∀ frame, l.1 ≠ .frame frame

/-- Some write failed or was abandoned. -/
def Interrupted (h : List Label) : Prop := ∃ l ∈ h, l.1 = .interrupt

/-- Accepted packets without a completely written response. -/
def State.unanswered (s : State) : Nat :=
  s.responses.length + (match s.phase with
    | .writing _ false => 1
    | _ => 0)

/-- How much of the frames handed over is on the wire. -/
def OnWire (h : List Label) (s : State) (frames : Bytes) : Prop :=
  match s.phase with
  | .selecting => s.written = frames
  | .writing rest _ => s.written ++ rest = frames
  | .returned => s.written <+: frames ∧ (¬ Interrupted h → s.written = frames)

/-- The loop returns once the current write is done, or has returned. -/
def Phase.leaving : Phase → Bool
  | .selecting => false
  | .writing _ closing => closing
  | .returned => true

/-- What is written beyond the responses: nothing, or one failure frame for the
    last frame read, when all accepted packets are answered. -/
def Extra (h : List Label) (s : State) (extra : List Bytes) : Prop :=
  extra = [] ∨ (extra = [AGENT_FAILURE_FRAME] ∧ s.responses = []
    ∧ Since Faulty Unread h ∧ s.phase.leaving = true)

/-- Accepted is answered plus queued. -/
structure Paced (h : List Label) (s : State) (results : List (Except RequestError Bytes))
    (extra : List Bytes) : Prop where
  count : (ledger h).length = (acceptedPackets h).length
  ledger : ledger h = results.map some ++ s.responses
  outgoing : s.outgoing = results.length
  handed : handed h = results.map response_frame ++ extra
  extra : Extra h s extra
  wire : OnWire h s (Listener.handed h).flatten
  room : s.unanswered ≤ MAX_PIPELINED_REQUESTS

theorem ledger_snoc (h : List Label) (l : Label) : ledger (h ++ [l]) = enter (ledger h) l := by
  rw [ledger, List.foldl_append]
  rfl

theorem handed_snoc (h : List Label) (l : Label) :
    handed (h ++ [l]) = handed h ++ (handedFrame l).toList := by
  rw [handed, List.filterMap_append]
  cases hl : handedFrame l <;> simp [hl, handed]

theorem acceptedPackets_snoc (h : List Label) (l : Label) :
    acceptedPackets (h ++ [l]) = acceptedPackets h ++ (acceptedPacket l).toList := by
  rw [acceptedPackets, List.filterMap_append]
  cases hl : acceptedPacket l <;> simp [hl, acceptedPackets]

theorem not_interrupted_of_snoc {h : List Label} {l : Label} (hn : ¬ Interrupted (h ++ [l])) :
    ¬ Interrupted h := by
  rintro ⟨l', hl', ha⟩
  exact hn ⟨l', List.mem_append_left _ hl', ha⟩

/-! ## What each step keeps -/

variable {lib : Library} {ch : Channel} {router : ConnectionRouter} {h : List Label}
  {s s' : State} {results : List (Except RequestError Bytes)} {extra : List Bytes}
  {c : Connection}

/-- A loop that still selects has written responses only. -/
theorem Extra.none_of_staying (he : Extra h s extra) (hphase : s.phase.leaving = false) :
    extra = [] := by
  rcases he with hnil | ⟨_, _, _, hleaving⟩
  · exact hnil
  · rw [hphase] at hleaving
    cases hleaving

theorem OnWire.selecting {frames : Bytes} (hw : OnWire h s frames)
    (hphase : s.phase = .selecting) : s.written = frames := by
  rw [OnWire, hphase] at hw
  exact hw

/-- Steps that leave the writer alone. -/
theorem OnWire.keep {frames : Bytes} (hw : OnWire h s frames)
    (l : Label) (hphase : s'.phase = s.phase) (hwritten : s'.written = s.written) :
    OnWire (h ++ [l]) s' frames := by
  rw [OnWire] at hw ⊢
  rw [hphase, hwritten]
  cases hp : s.phase with
  | selecting =>
      rw [hp] at hw
      exact hw
  | writing rest closing =>
      rw [hp] at hw
      exact hw
  | returned =>
      rw [hp] at hw
      exact ⟨hw.1, fun hn => hw.2 (not_interrupted_of_snoc hn)⟩

/-- A write that the loop returns after stays one. -/
theorem leaving_after {rest more : Bytes} {closing : Bool}
    (hleaving : (Phase.writing rest closing).leaving = true) :
    (Phase.after more closing).leaving = true := by
  obtain rfl : closing = true := hleaving
  cases more with
  | nil => rfl
  | cons byte more => rfl

/-- Steps that neither accept a packet nor hand over a frame. -/
theorem Paced.quiet (hp : Paced h s results extra) {l : Label}
    (hledger : enter (Listener.ledger h) l = Listener.ledger h)
    (hhanded : handedFrame l = none) (haccepted : acceptedPacket l = none)
    (hresponses : s'.responses = s.responses) (houtgoing : s'.outgoing = s.outgoing)
    (hroom : s'.unanswered ≤ s.unanswered)
    (hextra : Extra (h ++ [l]) s' extra)
    (hwire : OnWire (h ++ [l]) s' (Listener.handed h).flatten) :
    Paced (h ++ [l]) s' results extra := by
  have hframes : Listener.handed (h ++ [l]) = Listener.handed h := by
    rw [handed_snoc, hhanded]
    exact List.append_nil _
  have hpackets : acceptedPackets (h ++ [l]) = acceptedPackets h := by
    rw [acceptedPackets_snoc, haccepted]
    exact List.append_nil _
  exact
    { count := by
        rw [ledger_snoc, hledger, hpackets]
        exact hp.count
      ledger := by
        rw [ledger_snoc, hledger, hresponses]
        exact hp.ledger
      outgoing := houtgoing.trans hp.outgoing
      handed := hframes.trans hp.handed
      extra := hextra
      wire := by
        rw [hframes]
        exact hwire
      room := Nat.le_trans hroom hp.room }

theorem paced_publish (hp : Paced h s results extra)
    (identities : Option (List AgentIdentity)) :
    Paced (h ++ [(.publish identities, .quiet)])
      { s with channel := s.channel.send_replace identities } results extra := by
  refine hp.quiet rfl rfl rfl rfl rfl (Nat.le_refl _) ?_ (hp.wire.keep _ rfl rfl)
  rcases hp.extra with hnil | ⟨hextra, hempty, hsince, hleaving⟩
  · exact Or.inl hnil
  · refine Or.inr ⟨hextra, hempty, since_snoc.mpr (Or.inr ⟨?_, hsince⟩), hleaving⟩
    intro frame hframe
    cases hframe

/-- A future becomes ready in its place. -/
theorem paced_complete (hp : Paced h s results extra) {number : Nat}
    (hnumber : s.outgoing ≤ number) (hpending : s.responses[number - s.outgoing]? = some none)
    (result : Except RequestError Bytes) :
    Paced (h ++ [(.complete number result, .quiet)])
      { s with responses := s.responses.set (number - s.outgoing) (some result) }
      results extra := by
  have hlen : (results.map some).length = s.outgoing := by
    rw [List.length_map, hp.outgoing]
  have hentered : Listener.ledger (h ++ [(.complete number result, .quiet)])
      = results.map some ++ s.responses.set (number - s.outgoing) (some result) := by
    rw [ledger_snoc, ← hlen]
    show (Listener.ledger h).set number (some result) = _
    rw [hp.ledger, List.set_append_right _ _ (by rw [hlen]; exact hnumber)]
  have hframes : Listener.handed (h ++ [(.complete number result, .quiet)])
      = Listener.handed h := by
    rw [handed_snoc]
    exact List.append_nil _
  have hunanswered : State.unanswered
      { s with responses := s.responses.set (number - s.outgoing) (some result) }
        = s.unanswered := by
    rw [State.unanswered, State.unanswered, List.length_set]
  refine
    { count := ?_
      ledger := hentered
      outgoing := hp.outgoing
      handed := hframes.trans hp.handed
      extra := ?_
      wire := ?_
      room := hunanswered ▸ hp.room }
  · rw [hentered, acceptedPackets_snoc, List.length_append, List.length_set,
      ← List.length_append, ← hp.ledger, hp.count]
    exact congrArg List.length (List.append_nil _).symm
  · -- With a failure frame handed over nothing is pending.
    rcases hp.extra with hnil | ⟨_, hempty, _, _⟩
    · exact Or.inl hnil
    · rw [hempty] at hpending
      cases hpending
  · rw [hframes]
    exact hp.wire.keep _ rfl rfl

/-- The loop returns without another word. -/
theorem paced_return (hp : Paced h s results extra) (hphase : s.phase = .selecting)
    {l : Label} (hledger : enter (Listener.ledger h) l = Listener.ledger h)
    (hhanded : handedFrame l = none) (haccepted : acceptedPacket l = none) (r : ConnectionRouter) :
    Paced (h ++ [l]) { s with router := r, phase := .returned } results extra := by
  have hnone := hp.extra.none_of_staying (by rw [hphase]; rfl)
  have hwritten := hp.wire.selecting hphase
  refine hp.quiet hledger hhanded haccepted rfl rfl ?_ (Or.inl hnone) ?_
  · exact Nat.add_le_add_left (Nat.zero_le _) _
  · exact ⟨hwritten ▸ List.prefix_refl _, fun _ => hwritten⟩

/-- A faulty frame is answered only when nothing is owed to earlier ones. -/
theorem paced_refuse (hp : Paced h s results extra) (hphase : s.phase = .selecting)
    (r : ConnectionRouter) (reason : Refusal) (frame : Option (Except FrameError Bytes)) :
    ∃ extra', Paced (h ++ [(.frame frame, (State.refuse { s with router := r } reason).2)])
      (State.refuse { s with router := r } reason).1 results extra' := by
  have hnone := hp.extra.none_of_staying (by rw [hphase]; rfl)
  have hwritten := hp.wire.selecting hphase
  rw [State.refuse]
  by_cases hempty : s.responses.isEmpty = true
  · rw [if_pos hempty]
    have hframes : Listener.handed (h ++ [(.frame frame, .refused reason true)])
        = Listener.handed h ++ [AGENT_FAILURE_FRAME] := handed_snoc _ _
    have hpackets : acceptedPackets (h ++ [(.frame frame, .refused reason true)])
        = acceptedPackets h := (acceptedPackets_snoc _ _).trans (List.append_nil _)
    refine ⟨[AGENT_FAILURE_FRAME],
      { count := ?_
        ledger := (ledger_snoc _ _).trans hp.ledger
        outgoing := hp.outgoing
        handed := ?_
        extra := Or.inr ⟨rfl, List.isEmpty_iff.mp hempty, ?_, rfl⟩
        wire := ?_
        room := ?_ }⟩
    · rw [ledger_snoc, hpackets]
      exact hp.count
    · rw [hframes, hp.handed, hnone, List.append_nil]
    · exact since_snoc.mpr (Or.inl ⟨reason, true, rfl⟩)
    · show s.written ++ AGENT_FAILURE_FRAME = _
      rw [hframes, List.flatten_append, hwritten, List.flatten_singleton]
    · show s.responses.length + 0 ≤ MAX_PIPELINED_REQUESTS
      rw [List.isEmpty_iff.mp hempty]
      exact Nat.zero_le _
  · rw [if_neg hempty]
    exact ⟨extra, paced_return hp hphase rfl rfl rfl r⟩

/-- An accepted packet goes to the end of the ledger and of the queue. -/
theorem paced_accept (hp : Paced h s results extra) (hphase : s.phase = .selecting)
    (hfree : ¬ MAX_PIPELINED_REQUESTS ≤ s.responses.length) (r : ConnectionRouter)
    (packet : Bytes) (routed : Routed) (frame : Option (Except FrameError Bytes)) :
    Paced (h ++ [(.frame frame, .accepted packet routed)])
      { s with router := r, responses := s.responses ++ [future routed] } results extra := by
  have hnone := hp.extra.none_of_staying (by rw [hphase]; rfl)
  have hentered : Listener.ledger (h ++ [(.frame frame, .accepted packet routed)])
      = Listener.ledger h ++ [future routed] := ledger_snoc _ _
  have hframes : Listener.handed (h ++ [(.frame frame, .accepted packet routed)])
      = Listener.handed h := (handed_snoc _ _).trans (List.append_nil _)
  have hpackets : acceptedPackets (h ++ [(.frame frame, .accepted packet routed)])
      = acceptedPackets h ++ [packet] := acceptedPackets_snoc _ _
  refine
    { count := ?_
      ledger := ?_
      outgoing := hp.outgoing
      handed := hframes.trans hp.handed
      extra := Or.inl hnone
      wire := ?_
      room := ?_ }
  · rw [hentered, hpackets, List.length_append, List.length_append, hp.count]
    rfl
  · rw [hentered, hp.ledger, List.append_assoc]
  · rw [hframes]
    exact hp.wire.keep _ rfl rfl
  · rw [State.unanswered]
    dsimp only
    rw [hphase, List.length_append, List.length_singleton]
    dsimp only
    omega

/-- The front response moves from the queue to the writer. -/
theorem paced_respond (hp : Paced h s results extra) (hphase : s.phase = .selecting)
    {result : Except RequestError Bytes} {responses : List Response}
    (hfront : s.responses = some result :: responses) :
    Paced (h ++ [(.respond, .responded (response_frame result))])
      { s with
        outgoing := s.outgoing + 1, responses := responses,
        phase := .writing (response_frame result) false } (results ++ [result]) extra := by
  have hnone := hp.extra.none_of_staying (by rw [hphase]; rfl)
  have hwritten := hp.wire.selecting hphase
  have hroom := hp.room
  have hframes : Listener.handed (h ++ [(.respond, .responded (response_frame result))])
      = Listener.handed h ++ [response_frame result] := handed_snoc _ _
  have hpackets : acceptedPackets (h ++ [(.respond, .responded (response_frame result))])
      = acceptedPackets h := (acceptedPackets_snoc _ _).trans (List.append_nil _)
  refine
    { count := ?_
      ledger := ?_
      outgoing := ?_
      handed := ?_
      extra := Or.inl hnone
      wire := ?_
      room := ?_ }
  · rw [ledger_snoc, hpackets]
    exact hp.count
  · rw [ledger_snoc, List.map_append, List.append_assoc]
    show Listener.ledger h = results.map some ++ some result :: responses
    rw [hp.ledger, hfront]
  · rw [List.length_append, List.length_singleton, ← hp.outgoing]
  · rw [hframes, hp.handed, hnone, List.append_nil, List.append_nil, List.map_append]
    rfl
  · show s.written ++ response_frame result = _
    rw [hframes, List.flatten_append, hwritten, List.flatten_singleton]
  · rw [State.unanswered, hfront, hphase] at hroom
    exact hroom

/-- A piece of a write moves bytes from the writer to the wire. -/
theorem paced_transmit (hp : Paced h s results extra) {rest : Bytes} {closing : Bool}
    (hphase : s.phase = .writing rest closing) (size : Nat) :
    Paced (h ++ [(.transmit size, .quiet)])
      { s with
        written := s.written ++ rest.take size,
        phase := Phase.after (rest.drop size) closing } results extra := by
  have hwire : s.written ++ rest = (Listener.handed h).flatten := by
    have hw := hp.wire
    rw [OnWire, hphase] at hw
    exact hw
  have hsplit : s.written ++ rest.take size ++ rest.drop size = (Listener.handed h).flatten := by
    rw [List.append_assoc, List.take_append_drop, hwire]
  refine hp.quiet rfl rfl rfl rfl rfl ?_ ?_ ?_
  · rw [State.unanswered, State.unanswered, hphase]
    refine Nat.add_le_add_left ?_ _
    cases closing with
    | true => cases rest.drop size <;> exact Nat.le_refl _
    | false =>
        cases rest.drop size with
        | nil => exact Nat.zero_le _
        | cons byte more => exact Nat.le_refl _
  · rcases hp.extra with hnil | ⟨hextra, hempty, hsince, hleaving⟩
    · exact Or.inl hnil
    · refine Or.inr ⟨hextra, hempty, since_snoc.mpr (Or.inr ⟨?_, hsince⟩), ?_⟩
      · intro frame hframe
        cases hframe
      · rw [hphase] at hleaving
        exact leaving_after hleaving
  · rw [OnWire]
    dsimp only
    cases hrest : rest.drop size with
    | nil =>
        rw [hrest, List.append_nil] at hsplit
        cases closing with
        | true => exact ⟨hsplit ▸ List.prefix_refl _, fun _ => hsplit⟩
        | false => exact hsplit
    | cons byte more =>
        rw [hrest] at hsplit
        cases closing <;> exact hsplit

theorem paced_interrupt (hp : Paced h s results extra) :
    Paced (h ++ [(.interrupt, .quiet)]) { s with phase := .returned } results extra := by
  refine hp.quiet rfl rfl rfl rfl rfl ?_ ?_ ?_
  · exact Nat.add_le_add_left (Nat.zero_le _) _
  · rcases hp.extra with hnil | ⟨hextra, hempty, hsince, _⟩
    · exact Or.inl hnil
    · refine Or.inr ⟨hextra, hempty, since_snoc.mpr (Or.inr ⟨?_, hsince⟩), rfl⟩
      intro frame hframe
      cases hframe
  · refine ⟨?_, fun hn => absurd ⟨_, List.mem_append_right _ (List.mem_singleton.mpr rfl), rfl⟩ hn⟩
    have hw := hp.wire
    rw [OnWire] at hw
    cases hphase : s.phase with
    | selecting =>
        rw [hphase] at hw
        exact hw ▸ List.prefix_refl _
    | writing rest closing =>
        rw [hphase] at hw
        exact ⟨rest, hw⟩
    | returned =>
        rw [hphase] at hw
        exact hw.1

theorem paced_receive (hp : Paced h s results extra) (hphase : s.phase = .selecting)
    (frame : Option (Except FrameError Bytes)) :
    ∃ extra', Paced (h ++ [(.frame frame, (s.receive lib frame).2)]) (s.receive lib frame).1
      results extra' := by
  cases frame with
  | none => exact ⟨extra, paced_return hp hphase rfl rfl rfl s.router⟩
  | some item =>
      cases item with
      | error error => exact paced_refuse hp hphase s.router (.frame error) _
      | ok packet =>
          rw [State.receive]
          by_cases hfull : MAX_PIPELINED_REQUESTS ≤ s.responses.length
          · rw [if_pos hfull]
            exact ⟨extra, paced_return hp hphase rfl rfl rfl s.router⟩
          · rw [if_neg hfull]
            obtain ⟨router, result⟩ := s.router.route lib s.channel packet
            cases result with
            | error error => exact paced_refuse hp hphase router (.route error) _
            | ok routed => exact ⟨extra, paced_accept hp hphase hfull router packet routed _⟩

/-- **Step lemma.** -/
theorem paced_step {l : Label}
    (hp : Paced h s results extra) (hnext : s.next lib l.1 = some (s', l.2)) :
    ∃ results' extra', Paced (h ++ [l]) s' results' extra' := by
  obtain ⟨action, output⟩ := l
  cases action with
  | publish identities =>
      obtain ⟨rfl, rfl⟩ := Prod.mk.inj (Option.some.inj hnext)
      exact ⟨results, extra, paced_publish hp identities⟩
  | complete number result =>
      dsimp only [State.next] at hnext
      by_cases hnumber : s.outgoing ≤ number
      · rw [if_pos hnumber] at hnext
        split at hnext
        · rename_i hpending
          obtain ⟨rfl, rfl⟩ := Prod.mk.inj (Option.some.inj hnext)
          exact ⟨results, extra, paced_complete hp hnumber hpending result⟩
        · cases hnext
      · rw [if_neg hnumber] at hnext
        cases hnext
  | frame frame =>
      dsimp only [State.next] at hnext
      split at hnext
      · rename_i hphase
        obtain ⟨rfl, rfl⟩ := Prod.mk.inj (Option.some.inj hnext)
        exact ⟨results, paced_receive hp hphase frame⟩
      · cases hnext
  | respond =>
      dsimp only [State.next] at hnext
      split at hnext
      · rename_i result responses hphase hfront
        obtain ⟨rfl, rfl⟩ := Prod.mk.inj (Option.some.inj hnext)
        exact ⟨results ++ [result], extra, paced_respond hp hphase hfront⟩
      · cases hnext
  | transmit size =>
      dsimp only [State.next] at hnext
      split at hnext
      · rename_i rest closing hphase
        obtain ⟨rfl, rfl⟩ := Prod.mk.inj (Option.some.inj hnext)
        exact ⟨results, extra, paced_transmit hp hphase size⟩
      · cases hnext
  | interrupt =>
      obtain ⟨rfl, rfl⟩ := Prod.mk.inj (Option.some.inj hnext)
      exact ⟨results, extra, paced_interrupt hp⟩

theorem run_paced (hrun : ListenerRun lib ch router h s) :
    ∃ results extra, Paced h s results extra := by
  induction hrun with
  | nil =>
      exact ⟨[], [],
        { count := rfl
          ledger := rfl
          outgoing := rfl
          handed := rfl
          extra := Or.inl rfl
          wire := rfl
          room := Nat.zero_le _ }⟩
  | snoc _ hs ih =>
      obtain ⟨results, extra, hp⟩ := ih
      exact paced_step hp hs.2

/-- **Responses stay in order.**  At every point of every run, the frames handed
    to the writer are the responses of the first accepted packets, in arrival
    order, and after them at most one failure frame: then every accepted packet
    has been answered, and the last frame read was malformed, oversized or
    refused.  The wire holds these frames, less what a write still has to do or
    never did.  Few packets are unanswered at once. -/
theorem pipelined_responses_in_order (hrun : ListenerRun lib ch router h s) :
    (ledger h).length = (acceptedPackets h).length
      ∧ ∃ (results : List (Except RequestError Bytes)) (extra : List Bytes),
        ledger h = results.map some ++ s.responses
        ∧ handed h = results.map response_frame ++ extra
        ∧ (extra = [] ∨ (extra = [AGENT_FAILURE_FRAME]
            ∧ results.length = (acceptedPackets h).length ∧ Since Faulty Unread h))
        ∧ s.written <+: (handed h).flatten
        ∧ ((∀ rest closing, s.phase ≠ .writing rest closing) → ¬ Interrupted h →
            s.written = (handed h).flatten)
        ∧ s.unanswered ≤ MAX_PIPELINED_REQUESTS := by
  obtain ⟨results, extra, hp⟩ := run_paced hrun
  have hwire := hp.wire
  rw [OnWire] at hwire
  refine ⟨hp.count, results, extra, hp.ledger, hp.handed, ?_, ?_, ?_, hp.room⟩
  · rcases hp.extra with hnil | ⟨hextra, hempty, hsince, _⟩
    · exact Or.inl hnil
    · refine Or.inr ⟨hextra, ?_, hsince⟩
      rw [← hp.count, hp.ledger, hempty, List.append_nil, List.length_map]
  · cases hphase : s.phase with
    | selecting =>
        rw [hphase] at hwire
        exact hwire ▸ List.prefix_refl _
    | writing rest closing =>
        rw [hphase] at hwire
        exact ⟨rest, hwire⟩
    | returned =>
        rw [hphase] at hwire
        exact hwire.1
  · intro hidle hcomplete
    cases hphase : s.phase with
    | selecting =>
        rw [hphase] at hwire
        exact hwire
    | writing rest closing => exact absurd hphase (hidle rest closing)
    | returned =>
        rw [hphase] at hwire
        exact hwire.2 hcomplete

/-- Two requests answered in the other order, then a malformed frame. -/
def crossedActions : List Action :=
  [.frame (some (.ok [0, 0, 0, 1, 11])), .frame (some (.ok [0, 0, 0, 1, 13])),
   .complete 1 (.ok [0, 0, 0, 1, 14]), .complete 0 (.error .timedOut),
   .respond, .transmit 2, .transmit 3, .respond, .transmit 5,
   .frame (some (.error .malformed)), .transmit 5]

def crossedRun : List Label × State :=
  outcome (State.next agentCodec) (fun _ _ => True) (.new ⟨0, none⟩ ⟨0, none, none, true⟩)
    crossedActions

theorem pipelined_responses_crossed :
    crossedRun.2.written = [0, 0, 0, 1, 5, 0, 0, 0, 1, 14, 0, 0, 0, 1, 5]
      ∧ ∃ (results : List (Except RequestError Bytes)) (extra : List Bytes),
        ledger crossedRun.1 = results.map some ++ crossedRun.2.responses
        ∧ handed crossedRun.1 = results.map response_frame ++ extra := by
  refine ⟨by decide +kernel, ?_⟩
  have hrun : ListenerRun agentCodec ⟨0, none⟩ ⟨0, none, none, true⟩ crossedRun.1 crossedRun.2 :=
    run_outcome _ _ crossedActions (by decide +kernel)
  obtain ⟨_, results, extra, hledger, hhanded, _⟩ := pipelined_responses_in_order hrun
  exact ⟨results, extra, hledger, hhanded⟩

/-! ## The loop closes the connection on the first refusal -/

/-- What the router sees of a step. -/
def routing : Label → Option ConnectionRouting.Label
  | (.publish identities, _) => some (.publish identities, none)
  | (.frame _, .accepted packet routed) => some (.route packet, some (.ok routed))
  | (.frame (some (.ok packet)), .refused (.route error) _) =>
      some (.route packet, some (.error error))
  | _ => none

/-- The loop's router is the router of a connection, which is closed only when
    the loop is about to return. -/
structure Routes (lib : Library) (ch : Channel) (router : ConnectionRouter) (h : List Label)
    (s : State) (c : Connection) : Prop where
  run : ConnectionRun lib ch router (h.filterMap routing) c
  channel : c.channel = s.channel
  router : c.router = s.router
  closed : c.closed = true → s.phase.leaving = true

/-- Steps that the router does not see. -/
theorem Routes.unseen (hr : Routes lib ch router h s c) {l : Label}
    (hl : routing l = none) (hchannel : s'.channel = s.channel) (hrouter : s'.router = s.router)
    (hleaving : s.phase.leaving = true → s'.phase.leaving = true) :
    Routes lib ch router (h ++ [l]) s' c := by
  have hsame : (h ++ [l]).filterMap routing = h.filterMap routing := by
    rw [List.filterMap_append, List.filterMap_cons_none hl, List.filterMap_nil, List.append_nil]
  exact
    { run := hsame.symm ▸ hr.run
      channel := hr.channel.trans hchannel.symm
      router := hr.router.trans hrouter.symm
      closed := fun hclosed => hleaving (hr.closed hclosed) }

/-- A routed packet is the connection's next step. -/
theorem Routes.routed (hr : Routes lib ch router h s c) {l : Label} (packet : Bytes)
    (hl : routing l = some (.route packet, some (s.router.route lib s.channel packet).2))
    (hphase : s.phase = .selecting) (hchannel : s'.channel = s.channel)
    (hrouter : s'.router = (s.router.route lib s.channel packet).1)
    (hleaving : (s.router.route lib s.channel packet).2.isOk = false → s'.phase.leaving = true) :
    ∃ c', Routes lib ch router (h ++ [l]) s' c' := by
  have hopen : c.closed = false := by
    rw [Bool.eq_false_iff]
    intro hclosed
    have hleft := hr.closed hclosed
    rw [hphase] at hleft
    cases hleft
  have hstep : Fires (Connection.next lib) (Encodes lib) c
      (.route packet, some (c.router.route lib c.channel packet).2)
      ⟨c.channel, (c.router.route lib c.channel packet).1,
        !(c.router.route lib c.channel packet).2.isOk⟩ := by
    refine ⟨trivial, ?_⟩
    rw [Connection.next, if_neg (by rw [hopen]; exact Bool.false_ne_true)]
  rw [hr.channel, hr.router] at hstep
  refine ⟨⟨s.channel, (s.router.route lib s.channel packet).1,
    !(s.router.route lib s.channel packet).2.isOk⟩, ?_, hchannel.symm, hrouter.symm, ?_⟩
  · rw [List.filterMap_append, List.filterMap_cons_some hl, List.filterMap_nil]
    exact .snoc hr.run hstep
  · intro hclosed
    exact hleaving (Bool.not_eq_eq_eq_not.mp hclosed)

theorem refuse_keeps (s : State) (reason : Refusal) :
    (s.refuse reason).1.channel = s.channel ∧ (s.refuse reason).1.router = s.router
      ∧ (s.refuse reason).1.phase.leaving = true
      ∧ ∃ notified, (s.refuse reason).2 = .refused reason notified := by
  rw [State.refuse]
  by_cases hempty : s.responses.isEmpty = true
  · rw [if_pos hempty]
    exact ⟨rfl, rfl, rfl, true, rfl⟩
  · rw [if_neg hempty]
    exact ⟨rfl, rfl, rfl, false, rfl⟩

theorem routes_receive (hr : Routes lib ch router h s c)
    (hphase : s.phase = .selecting) (frame : Option (Except FrameError Bytes)) :
    ∃ c', Routes lib ch router (h ++ [(.frame frame, (s.receive lib frame).2)])
      (s.receive lib frame).1 c' := by
  cases frame with
  | none => exact ⟨c, hr.unseen rfl rfl rfl (fun _ => rfl)⟩
  | some item =>
      cases item with
      | error error =>
          obtain ⟨hchannel, hrouter, hleaving, notified, houtput⟩ := refuse_keeps s (.frame error)
          refine ⟨c, hr.unseen ?_ hchannel hrouter (fun _ => hleaving)⟩
          rw [State.receive, houtput]
          rfl
      | ok packet =>
          rw [State.receive]
          by_cases hfull : MAX_PIPELINED_REQUESTS ≤ s.responses.length
          · rw [if_pos hfull]
            exact ⟨c, hr.unseen rfl rfl rfl (fun _ => rfl)⟩
          · rw [if_neg hfull]
            cases hroute : s.router.route lib s.channel packet with
            | mk r result =>
                cases result with
                | error error =>
                    obtain ⟨hchannel, hrouter, hleaving, notified, houtput⟩ :=
                      refuse_keeps { s with router := r } (.route error)
                    dsimp only
                    rw [houtput]
                    refine hr.routed packet ?_ hphase hchannel ?_ (fun _ => hleaving)
                    · rw [hroute]
                      rfl
                    · rw [hroute]
                      exact hrouter
                | ok routed =>
                    refine hr.routed packet ?_ hphase rfl ?_ ?_
                    · rw [hroute]
                      rfl
                    · rw [hroute]
                    · rw [hroute]
                      intro hok
                      cases hok

/-- **The loop refines the connection.**  What `handle_connection` routes is a run
    of one connection, which ends with its first refused packet. -/
theorem run_routes (hrun : ListenerRun lib ch router h s)
    (hencodes : ∀ l ∈ h, ∀ identities, l.1 = .publish identities →
      (derive_answer lib identities).isOk = true) :
    ∃ c, Routes lib ch router h s c := by
  induction hrun with
  | nil => exact ⟨⟨ch, router, false⟩, .nil, rfl, rfl, fun hclosed => by cases hclosed⟩
  | @snoc h s s' l _ hs ih =>
      obtain ⟨c, hr⟩ := ih (fun l' hl' => hencodes l' (List.mem_append_left _ hl'))
      have hnext := hs.2
      have hnew := hencodes l (List.mem_append_right _ (List.mem_singleton.mpr rfl))
      obtain ⟨action, output⟩ := l
      cases action with
      | publish identities =>
          obtain ⟨rfl, rfl⟩ := Prod.mk.inj (Option.some.inj hnext)
          have hpublish : Fires (Connection.next lib) (Encodes lib) c (.publish identities, none)
              { c with channel := c.channel.send_replace identities } :=
            ⟨hnew identities rfl, rfl⟩
          refine ⟨{ c with channel := c.channel.send_replace identities },
            ?_, congrArg (Channel.send_replace · identities) hr.channel, hr.router, hr.closed⟩
          rw [List.filterMap_append]
          exact .snoc hr.run hpublish
      | complete number result =>
          dsimp only [State.next] at hnext
          split at hnext
          · split at hnext
            · obtain ⟨rfl, rfl⟩ := Prod.mk.inj (Option.some.inj hnext)
              exact ⟨c, hr.unseen rfl rfl rfl id⟩
            · cases hnext
          · cases hnext
      | frame frame =>
          dsimp only [State.next] at hnext
          split at hnext
          · rename_i hphase
            obtain ⟨rfl, rfl⟩ := Prod.mk.inj (Option.some.inj hnext)
            exact routes_receive hr hphase frame
          · cases hnext
      | respond =>
          dsimp only [State.next] at hnext
          split at hnext
          · rename_i result responses hphase hfront
            obtain ⟨rfl, rfl⟩ := Prod.mk.inj (Option.some.inj hnext)
            refine ⟨c, hr.unseen rfl rfl rfl ?_⟩
            rw [hphase]
            intro hleaving
            cases hleaving
          · cases hnext
      | transmit size =>
          dsimp only [State.next] at hnext
          split at hnext
          · rename_i rest closing hphase
            obtain ⟨rfl, rfl⟩ := Prod.mk.inj (Option.some.inj hnext)
            refine ⟨c, hr.unseen rfl rfl rfl ?_⟩
            rw [hphase]
            intro hleaving
            exact leaving_after hleaving
          · cases hnext
      | interrupt =>
          obtain ⟨rfl, rfl⟩ := Prod.mk.inj (Option.some.inj hnext)
          exact ⟨c, hr.unseen rfl rfl rfl (fun _ => rfl)⟩

/-- A connection that explains itself, asks for the identities published in
    between, and explains itself again while its answer is unsent. -/
def refusedActions : List Action :=
  [.frame (some (.ok ContextSchema.gitPush)), .publish (some [⟨[1, 2], "k"⟩]),
   .frame (some (.ok [0, 0, 0, 1, 11])), .frame (some (.ok ContextSchema.gitPush))]

def refusedRun : List Label × State :=
  outcome (State.next agentCodec) (fun _ _ => True) (.new ⟨0, none⟩ ⟨0, none, none, true⟩)
    refusedActions

/-- The identities that a step publishes. -/
def publication : Label → Option (Option (List AgentIdentity))
  | (.publish identities, _) => some identities
  | _ => none

theorem run_routes_refused :
    (refusedRun.1.filterMap routing).map Prod.snd
        = [some (.ok (.ready AGENT_SUCCESS_FRAME)), none,
           some (.ok (.ready [0, 0, 0, 16, 12, 0, 0, 0, 1, 0, 0, 0, 2, 1, 2, 0, 0, 0, 1, 107])),
           some (.error .lateContext)]
      ∧ refusedRun.2.phase = .returned
      ∧ ∃ c, Routes agentCodec ⟨0, none⟩ ⟨0, none, none, true⟩ refusedRun.1 refusedRun.2 c
        ∧ c.closed = true := by
  refine ⟨by decide +kernel, by decide +kernel, ?_⟩
  have hencodes : ∀ l ∈ refusedRun.1, ∀ identities, l.1 = .publish identities →
      (derive_answer agentCodec identities).isOk = true := by
    intro l hl identities hpublish
    obtain ⟨action, output⟩ := l
    obtain rfl : action = .publish identities := hpublish
    have hmem : identities ∈ refusedRun.1.filterMap publication :=
      List.mem_filterMap.mpr ⟨_, hl, rfl⟩
    have hpublished : refusedRun.1.filterMap publication = [some [⟨[1, 2], "k"⟩]] := by
      decide +kernel
    rw [hpublished, List.mem_singleton] at hmem
    rw [hmem]
    decide +kernel
  obtain ⟨c, hroutes⟩ := run_routes (run_outcome _ _ refusedActions (by decide +kernel)) hencodes
  refine ⟨c, hroutes, ?_⟩
  -- the last packet was refused, which closes the connection
  have hlast : refusedRun.1.filterMap routing = (refusedRun.1.filterMap routing).take 3
      ++ [(.route ContextSchema.gitPush, some (.error .lateContext))] := rfl
  have hrun := hroutes.run
  rw [show (outcome _ _ _ refusedActions).1 = refusedRun.1 from rfl, hlast] at hrun
  obtain ⟨t, -, hstep⟩ := hrun.last
  obtain ⟨-, rfl, hresult⟩ := next_route hstep.2
  rw [← Option.some.inj hresult]
  rfl

end Listener
