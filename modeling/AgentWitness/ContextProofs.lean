import AgentWitness.OctetsProofs
import AgentWitness.PacketProofs
import AgentWitness.Utf8Proofs
import Mathlib.Algebra.Order.BigOperators.Group.List

/-! # The context extension of the local agent socket

    `request_router/context.rs`: a caller may explain its requests in an
    SSH-agent extension packet that holds a group id, a reason and a command
    line.  The packet is a frame of length-prefixed strings.

    DECODING IS READING A FRAME: what the decoder accepts is the frame of its
    fields (`framed_of_decode`), and on a frame it does nothing but judge them
    (`decode_frame`).  So every question about accepted packets is one about
    their fields. -/

namespace Context

open Packet

/-- `CONTEXT_EXTENSION`, the name of the extension. -/
def CONTEXT_EXTENSION : Bytes := Utf8.encode "context@agent-witness"

def CONTEXT_VERSION : UInt8 := 1

/-- `SSH_AGENTC_EXTENSION`, the message number of extension requests. -/
def SSH_AGENTC_EXTENSION : UInt8 := 27

def MAX_REASON_SIZE : Nat := 512

def MAX_COMMAND_ARGUMENTS : Nat := 128

def MAX_COMMAND_SIZE : Nat := 16 * 1024

/-- Why a context extension is refused. -/
inductive ContextError where
  | malformed
  | unsupportedVersion
  | invalidGroupId
  | invalidReason
  | invalidCommand
  deriving DecidableEq, Repr

/-- The decoder's cursor never leaves its data. -/
structure Decoder where
  data : Bytes
  offset : Nat
  within : offset ≤ data.length

/-- `Decoder::packet`: a complete packet says its own length. -/
def Decoder.packet (packet : Bytes) : Option Decoder :=
  if packet.length < 4 then none
  else
    if (packet.drop 4).length = Octets.value (packet.take 4) then
      some ⟨packet.drop 4, 0, Nat.zero_le _⟩
    else none

/-- `Decoder::take`.  An end that overflows is past the data as well. -/
def Decoder.take (d : Decoder) (size : Nat) : Except ContextError (Bytes × Decoder) :=
  if h : d.offset + size ≤ d.data.length then
    .ok ((d.data.drop d.offset).take size, ⟨d.data, d.offset + size, h⟩)
  else .error .malformed

/-- `Decoder::take_u8`. -/
def Decoder.take_u8 (d : Decoder) : Except ContextError (UInt8 × Decoder) := do
  let (value, d) ← d.take 1
  return (value.headD 0, d)

/-- `Decoder::take_u32`. -/
def Decoder.take_u32 (d : Decoder) : Except ContextError (Nat × Decoder) := do
  let (value, d) ← d.take 4
  return (Octets.value value, d)

/-- `Decoder::take_string`. -/
def Decoder.take_string (d : Decoder) : Except ContextError (Bytes × Decoder) := do
  let (length, d) ← d.take_u32
  d.take length

/-- `Decoder::finish`. -/
def Decoder.finish (d : Decoder) : Except ContextError Unit :=
  if d.offset ≠ d.data.length then .error .malformed else .ok ()

/-- The characters `decode_text` lets through. -/
def isPrintable (character : Char) : Bool :=
  character == ' ' || (!Utf8.isControl character && !Utf8.isWhiteSpace character)

def decode_text (value : Bytes) (max_size : Nat) : Option String :=
  if value = [] ∨ max_size < value.length then none
  else
    match Utf8.strict value with
    | none => none
    | some text => if text.toList.all isPrintable then some text else none

/-- The loop of `decode` over the arguments still to come. -/
def take_arguments : Nat → Nat → List String → Decoder →
    Except ContextError (List String × Decoder)
  | 0, _, command, d => .ok (command, d)
  | remaining + 1, command_size, command, d => do
      let (argument, d) ← d.take_string
      if command_size + argument.length > MAX_COMMAND_SIZE then
        throw .invalidCommand
      take_arguments remaining (command_size + argument.length)
        (command ++ [Utf8.lossy argument]) d

/-- The part of `decode` after the version byte. -/
def decode_fields (parse_str : String → Option Uuid) (d : Decoder) :
    Except ContextError RequestContext := do
  let (group, d) ← d.take_string
  let some group_id := (Utf8.strict group).bind parse_str | throw .invalidGroupId
  let (reason, d) ← d.take_string
  let some reason := decode_text reason MAX_REASON_SIZE | throw .invalidReason
  let (argument_count, d) ← d.take_u32
  if ¬ (1 ≤ argument_count ∧ argument_count ≤ MAX_COMMAND_ARGUMENTS) then
    throw .invalidCommand
  let (command, d) ← take_arguments argument_count 0 [] d
  d.finish
  return ⟨group_id, reason, command⟩

/-- `decode`: a context extension is read, other packets are left alone.  The
    UUID parser is the library's. -/
def decode (parse_str : String → Option Uuid) (packet : Bytes) :
    Except ContextError (Option RequestContext) :=
  match Decoder.packet packet with
  | none => .ok none
  | some d => do
      let (kind, d) ← d.take_u8
      if kind ≠ SSH_AGENTC_EXTENSION then return none
      let (name, d) ← d.take_string
      if name ≠ CONTEXT_EXTENSION then return none
      let (version, d) ← d.take_u8
      if version ≠ CONTEXT_VERSION then throw .unsupportedVersion
      let context ← decode_fields parse_str d
      return some context

/-! ## The frame of a context -/

/-- A length-prefixed string. -/
def string (value : Bytes) : Bytes := Octets.bigEndian 4 value.length ++ value

/-- The fields of a context after the version byte. -/
def fields (group reason : Bytes) (arguments : List Bytes) : Bytes :=
  string group ++ (string reason
    ++ (Octets.bigEndian 4 arguments.length ++ arguments.flatMap string))

/-- A context extension without its length. -/
def payload (group reason : Bytes) (arguments : List Bytes) : Bytes :=
  SSH_AGENTC_EXTENSION ::
    (string CONTEXT_EXTENSION ++ CONTEXT_VERSION :: fields group reason arguments)

/-- The context extension packet of these fields. -/
def frame (group reason : Bytes) (arguments : List Bytes) : Bytes :=
  string (payload group reason arguments)

/-- The frame's length can be written in its 32 bits. -/
def Fits (group reason : Bytes) (arguments : List Bytes) : Prop :=
  (payload group reason arguments).length < 2 ^ 32

instance (group reason : Bytes) (arguments : List Bytes) :
    Decidable (Fits group reason arguments) := inferInstanceAs (Decidable (_ < _))

/-- What the decoder makes of the fields of a frame. -/
def judge (parse_str : String → Option Uuid) (group reason : Bytes) (arguments : List Bytes) :
    Except ContextError RequestContext := do
  let some group_id := (Utf8.strict group).bind parse_str | throw .invalidGroupId
  let some reason := decode_text reason MAX_REASON_SIZE | throw .invalidReason
  if ¬ (1 ≤ arguments.length ∧ arguments.length ≤ MAX_COMMAND_ARGUMENTS) then
    throw .invalidCommand
  if (arguments.map List.length).sum > MAX_COMMAND_SIZE then
    throw .invalidCommand
  return ⟨group_id, reason, arguments.map Utf8.lossy⟩

/-! ## What each read leaves -/

/-- A computation that succeeds has succeeded step by step. -/
theorem bind_eq_ok {ε α β : Type} {first : Except ε α} {next : α → Except ε β} {b : β}
    (h : first >>= next = .ok b) : ∃ a, first = .ok a ∧ next a = .ok b := by
  cases first with
  | error e => cases h
  | ok a => exact ⟨a, rfl, h⟩

/-- The bytes still to be read. -/
def Decoder.rest (d : Decoder) : Bytes := d.data.drop d.offset

theorem Decoder.length_rest (d : Decoder) : d.rest.length = d.data.length - d.offset :=
  List.length_drop

/-- Taking what comes next. -/
theorem Decoder.take_append {d : Decoder} {value after : Bytes} (h : d.rest = value ++ after) :
    ∃ d', d.take value.length = .ok (value, d') ∧ d'.rest = after := by
  have hlen := d.length_rest
  rw [h, List.length_append] at hlen
  have hwithin := d.within
  have hend : d.offset + value.length ≤ d.data.length := by omega
  refine ⟨⟨d.data, d.offset + value.length, hend⟩, ?_, ?_⟩
  · rw [Decoder.take, dif_pos hend]
    have htake : (d.data.drop d.offset).take value.length = value := by
      rw [← Decoder.rest, h, List.take_left]
    rw [htake]
  · show d.data.drop (d.offset + value.length) = after
    rw [← List.drop_drop, ← Decoder.rest, h, List.drop_left]

/-- What was taken stood at the cursor. -/
theorem Decoder.take_eq_ok {d d' : Decoder} {size : Nat} {value : Bytes}
    (h : d.take size = .ok (value, d')) : value.length = size ∧ d.rest = value ++ d'.rest := by
  rw [Decoder.take] at h
  by_cases hend : d.offset + size ≤ d.data.length
  · rw [dif_pos hend] at h
    obtain ⟨rfl, rfl⟩ := Prod.mk.inj (Except.ok.inj h)
    refine ⟨?_, ?_⟩
    · rw [List.length_take, List.length_drop]
      omega
    · show d.data.drop d.offset = _ ++ d.data.drop (d.offset + size)
      rw [← List.drop_drop, List.take_append_drop]
  · rw [dif_neg hend] at h
    cases h

theorem Decoder.take_u8_cons {d : Decoder} {byte : UInt8} {after : Bytes}
    (h : d.rest = byte :: after) : ∃ d', d.take_u8 = .ok (byte, d') ∧ d'.rest = after := by
  obtain ⟨d', htake, hrest⟩ := @Decoder.take_append d [byte] after h
  refine ⟨d', ?_, hrest⟩
  have htake' : d.take 1 = .ok ([byte], d') := htake
  rw [Decoder.take_u8, htake']
  rfl

theorem Decoder.take_u8_eq_ok {d d' : Decoder} {byte : UInt8}
    (h : d.take_u8 = .ok (byte, d')) : d.rest = byte :: d'.rest := by
  obtain ⟨⟨value, after⟩, htake, hbyte⟩ := bind_eq_ok h
  obtain ⟨rfl, rfl⟩ := Prod.mk.inj (Except.ok.inj hbyte)
  obtain ⟨hlen, hrest⟩ := Decoder.take_eq_ok htake
  obtain ⟨first, rfl⟩ := List.length_eq_one_iff.mp hlen
  exact hrest

theorem Decoder.take_u32_bigEndian {d : Decoder} {n : Nat} {after : Bytes}
    (h : d.rest = Octets.bigEndian 4 n ++ after) (hn : n < 2 ^ 32) :
    ∃ d', d.take_u32 = .ok (n, d') ∧ d'.rest = after := by
  obtain ⟨d', htake, hrest⟩ := Decoder.take_append h
  refine ⟨d', ?_, hrest⟩
  rw [Octets.length_bigEndian] at htake
  have hvalue : Octets.value (Octets.bigEndian 4 n) = n := Octets.value_bigEndian hn
  rw [Decoder.take_u32, htake]
  show Except.ok (Octets.value (Octets.bigEndian 4 n), d') = _
  rw [hvalue]

theorem Decoder.take_u32_eq_ok {d d' : Decoder} {n : Nat} (h : d.take_u32 = .ok (n, d')) :
    n < 2 ^ 32 ∧ d.rest = Octets.bigEndian 4 n ++ d'.rest := by
  obtain ⟨⟨value, after⟩, htake, hn⟩ := bind_eq_ok h
  obtain ⟨rfl, rfl⟩ := Prod.mk.inj (Except.ok.inj hn)
  obtain ⟨hlen, hrest⟩ := Decoder.take_eq_ok htake
  have hlt := Octets.value_lt value
  have hwritten := Octets.bigEndian_value value
  rw [hlen] at hlt hwritten
  rw [hrest, hwritten]
  exact ⟨hlt, rfl⟩

theorem Decoder.take_string_string {d : Decoder} {value after : Bytes}
    (h : d.rest = string value ++ after) (hlen : value.length < 2 ^ 32) :
    ∃ d', d.take_string = .ok (value, d') ∧ d'.rest = after := by
  rw [string, List.append_assoc] at h
  obtain ⟨d₁, hlength, hvalue⟩ := Decoder.take_u32_bigEndian h hlen
  obtain ⟨d₂, htake, hafter⟩ := Decoder.take_append hvalue
  refine ⟨d₂, ?_, hafter⟩
  rw [Decoder.take_string, hlength]
  exact htake

theorem Decoder.take_string_eq_ok {d d' : Decoder} {value : Bytes}
    (h : d.take_string = .ok (value, d')) : d.rest = string value ++ d'.rest := by
  obtain ⟨⟨length, d₁⟩, hlength, htake⟩ := bind_eq_ok h
  obtain ⟨hlen, hrest⟩ := Decoder.take_eq_ok htake
  rw [(Decoder.take_u32_eq_ok hlength).2, hrest, ← hlen, string, List.append_assoc]

/-- The decoder finishes when nothing is left. -/
theorem Decoder.finish_eq_ok {d : Decoder} : d.finish = .ok () ↔ d.rest = [] := by
  have hwithin := d.within
  rw [Decoder.finish, Decoder.rest, List.drop_eq_nil_iff]
  constructor
  · intro h
    by_cases hend : d.offset ≠ d.data.length
    · rw [if_pos hend] at h
      cases h
    · omega
  · intro h
    have hend : ¬ d.offset ≠ d.data.length := by omega
    rw [if_neg hend]

/-- A packet is decoded when it is the length-prefixed string of its data. -/
theorem Decoder.packet_eq_some {packet : Bytes} {d : Decoder}
    (h : Decoder.packet packet = some d) :
    packet = string d.rest ∧ d.rest.length < 2 ^ 32 := by
  rw [Decoder.packet] at h
  by_cases hshort : packet.length < 4
  · rw [if_pos hshort] at h
    cases h
  rw [if_neg hshort] at h
  by_cases hlen : (packet.drop 4).length = Octets.value (packet.take 4)
  · rw [if_pos hlen] at h
    obtain rfl := Option.some.inj h
    have hfour : (packet.take 4).length = 4 := by
      rw [List.length_take]
      omega
    have hlt := Octets.value_lt (packet.take 4)
    have hwritten := Octets.bigEndian_value (packet.take 4)
    rw [hfour] at hlt hwritten
    show packet = string (packet.drop 4) ∧ (packet.drop 4).length < 2 ^ 32
    rw [string, hlen, hwritten, List.take_append_drop]
    exact ⟨rfl, hlt⟩
  · rw [if_neg hlen] at h
    cases h

theorem Decoder.packet_string {data : Bytes} (hlen : data.length < 2 ^ 32) :
    ∃ d, Decoder.packet (string data) = some d ∧ d.rest = data := by
  have hfour := Octets.length_bigEndian 4 data.length
  have hdrop : (string data).drop 4 = data := by
    rw [string, List.drop_left' hfour]
  have htake : (string data).take 4 = Octets.bigEndian 4 data.length := by
    rw [string, List.take_left' hfour]
  have hlong : ¬ (string data).length < 4 := by
    rw [string, List.length_append, hfour]
    omega
  have hvalue : Octets.value (Octets.bigEndian 4 data.length) = data.length :=
    Octets.value_bigEndian hlen
  refine ⟨⟨data, 0, Nat.zero_le _⟩, ?_, rfl⟩
  rw [Decoder.packet, if_neg hlong, htake, hvalue]
  simp only [hdrop, if_true]

/-! ## The loop over the arguments -/

/-- Arguments that stay within the limit are all taken. -/
theorem take_arguments_within (arguments : List Bytes) {size : Nat} {command : List String}
    {d : Decoder} {after : Bytes} (h : d.rest = arguments.flatMap string ++ after)
    (hsize : size + (arguments.map List.length).sum ≤ MAX_COMMAND_SIZE) :
    ∃ d', take_arguments arguments.length size command d
        = .ok (command ++ arguments.map Utf8.lossy, d') ∧ d'.rest = after := by
  induction arguments generalizing size command d with
  | nil =>
      refine ⟨d, ?_, h⟩
      rw [List.map_nil, List.append_nil]
      rfl
  | cons argument arguments ih =>
      rw [List.flatMap_cons, List.append_assoc] at h
      rw [List.map_cons, List.sum_cons, ← Nat.add_assoc] at hsize
      have hmax : MAX_COMMAND_SIZE < 2 ^ 32 := by decide
      obtain ⟨d₁, htake, hrest⟩ := Decoder.take_string_string h (by omega)
      have hgo : ¬ size + argument.length > MAX_COMMAND_SIZE := by omega
      obtain ⟨d', hloop, hafter⟩ := @ih (size + argument.length)
        (command ++ [Utf8.lossy argument]) d₁ hrest hsize
      refine ⟨d', ?_, hafter⟩
      rw [List.append_assoc, List.singleton_append] at hloop
      rw [List.length_cons, take_arguments, htake]
      show (if size + argument.length > MAX_COMMAND_SIZE then _ else _) = _
      rw [if_neg hgo]
      exact hloop

/-- The running total refuses as soon as the whole command is too long. -/
theorem take_arguments_beyond (arguments : List Bytes) {size : Nat} {command : List String}
    {d : Decoder} {after : Bytes} (h : d.rest = arguments.flatMap string ++ after)
    (hfit : ∀ argument ∈ arguments, argument.length < 2 ^ 32) (hsize : size ≤ MAX_COMMAND_SIZE)
    (hbeyond : size + (arguments.map List.length).sum > MAX_COMMAND_SIZE) :
    take_arguments arguments.length size command d = .error .invalidCommand := by
  induction arguments generalizing size command d with
  | nil => exact absurd hsize (Nat.not_le_of_gt hbeyond)
  | cons argument arguments ih =>
      rw [List.flatMap_cons, List.append_assoc] at h
      rw [List.map_cons, List.sum_cons, ← Nat.add_assoc] at hbeyond
      obtain ⟨d₁, htake, hrest⟩ :=
        Decoder.take_string_string h (hfit argument List.mem_cons_self)
      rw [List.length_cons, take_arguments, htake]
      show (if size + argument.length > MAX_COMMAND_SIZE then _ else _) = _
      by_cases hnow : size + argument.length > MAX_COMMAND_SIZE
      · rw [if_pos hnow]
        rfl
      · rw [if_neg hnow]
        exact ih hrest (fun a ha => hfit a (List.mem_cons_of_mem _ ha)) (Nat.le_of_not_gt hnow)
          hbeyond

/-- What the loop has taken are length-prefixed arguments. -/
theorem take_arguments_eq_ok {remaining size : Nat} {command command' : List String}
    {d d' : Decoder} (h : take_arguments remaining size command d = .ok (command', d')) :
    ∃ arguments : List Bytes, arguments.length = remaining
      ∧ d.rest = arguments.flatMap string ++ d'.rest := by
  induction remaining generalizing size command d with
  | zero =>
      obtain ⟨-, rfl⟩ := Prod.mk.inj (Except.ok.inj h)
      exact ⟨[], rfl, rfl⟩
  | succ remaining ih =>
      obtain ⟨⟨argument, d₁⟩, htake, hloop⟩ := bind_eq_ok h
      change (if size + argument.length > MAX_COMMAND_SIZE then _ else _) = _ at hloop
      by_cases hnow : size + argument.length > MAX_COMMAND_SIZE
      · rw [if_pos hnow] at hloop
        cases hloop
      · rw [if_neg hnow] at hloop
        obtain ⟨arguments, hlen, hrest⟩ := ih hloop
        refine ⟨argument :: arguments, ?_, ?_⟩
        · rw [List.length_cons, hlen]
        · rw [Decoder.take_string_eq_ok htake, hrest, List.flatMap_cons, List.append_assoc]

/-! ## Decoding a frame -/

theorem length_string (value : Bytes) : (string value).length = 4 + value.length := by
  rw [string, List.length_append, Octets.length_bigEndian]

theorem length_fields (group reason : Bytes) (arguments : List Bytes) :
    (fields group reason arguments).length = 4 + group.length + (4 + reason.length
      + (4 + (arguments.flatMap string).length)) := by
  rw [fields, List.length_append, List.length_append, List.length_append, length_string,
    length_string, Octets.length_bigEndian]

theorem length_flatMap_string (arguments : List Bytes) :
    (arguments.flatMap string).length
      = 4 * arguments.length + (arguments.map List.length).sum := by
  induction arguments with
  | nil => rfl
  | cons argument arguments ih =>
      rw [List.flatMap_cons, List.length_append, ih, length_string, List.length_cons,
        List.map_cons, List.sum_cons]
      omega

/-- The decoder's judgement of the fields it has before it. -/
theorem decode_fields_eq (parse_str : String → Option Uuid) {group reason : Bytes}
    {arguments : List Bytes} {d : Decoder} (h : d.rest = fields group reason arguments)
    (hfit : (fields group reason arguments).length < 2 ^ 32) :
    decode_fields parse_str d = judge parse_str group reason arguments := by
  rw [length_fields, length_flatMap_string] at hfit
  obtain ⟨d₁, hgroup, h₁⟩ := Decoder.take_string_string h (by omega)
  obtain ⟨d₂, hreason, h₂⟩ := Decoder.take_string_string h₁ (by omega)
  obtain ⟨d₃, hcount, h₃⟩ := Decoder.take_u32_bigEndian h₂ (by omega)
  rw [decode_fields, judge, hgroup]
  show (match (Utf8.strict group).bind parse_str with | some _ => _ | _ => _) = _
  cases (Utf8.strict group).bind parse_str with
  | none => rfl
  | some group_id =>
  show (d₁.take_string >>= _) = _
  rw [hreason]
  show (match decode_text reason MAX_REASON_SIZE with | some _ => _ | _ => _) = _
  cases decode_text reason MAX_REASON_SIZE with
  | none => rfl
  | some text =>
  show (d₂.take_u32 >>= _) = _
  rw [hcount]
  show (if _ then _ else _) = (if _ then _ else _)
  by_cases hnumber : ¬ (1 ≤ arguments.length ∧ arguments.length ≤ MAX_COMMAND_ARGUMENTS)
  · rw [if_pos hnumber, if_pos hnumber]
    rfl
  rw [if_neg hnumber, if_neg hnumber]
  show (take_arguments arguments.length 0 [] d₃ >>= _) = (if _ then _ else _)
  have h₃' : d₃.rest = arguments.flatMap string ++ [] := by rw [h₃, List.append_nil]
  by_cases hsize : (arguments.map List.length).sum > MAX_COMMAND_SIZE
  · have hshort : ∀ argument ∈ arguments, argument.length < 2 ^ 32 := by
      intro argument hmem
      have hle := List.le_sum_of_mem (List.mem_map_of_mem (f := List.length) hmem)
      omega
    rw [if_pos hsize, take_arguments_beyond arguments h₃' hshort (Nat.zero_le _) (by omega)]
    rfl
  · obtain ⟨d₄, hloop, h₄⟩ := @take_arguments_within arguments 0 [] d₃ [] h₃' (by omega)
    rw [if_neg hsize, hloop]
    show (d₄.finish >>= _) = _
    rw [Decoder.finish_eq_ok.mpr h₄]
    rfl

/-- **On a frame the decoder judges the fields**, and does nothing else. -/
theorem decode_frame (parse_str : String → Option Uuid) {group reason : Bytes}
    {arguments : List Bytes} (hfit : Fits group reason arguments) :
    decode parse_str (frame group reason arguments)
      = (judge parse_str group reason arguments).map some := by
  obtain ⟨d, hpacket, h⟩ := Decoder.packet_string hfit
  have hfields : (fields group reason arguments).length < 2 ^ 32 := by
    rw [Fits, payload, List.length_cons, List.length_append, List.length_cons] at hfit
    omega
  obtain ⟨d₁, hkind, h₁⟩ := Decoder.take_u8_cons h
  obtain ⟨d₂, hname, h₂⟩ := Decoder.take_string_string h₁ (by decide)
  obtain ⟨d₃, hversion, h₃⟩ := Decoder.take_u8_cons h₂
  rw [frame, decode, hpacket]
  show (d.take_u8 >>= _) = _
  rw [hkind]
  show (d₁.take_string >>= _) = _
  rw [hname]
  show (d₂.take_u8 >>= _) = _
  rw [hversion]
  show (decode_fields parse_str d₃ >>= _) = _
  rw [decode_fields_eq parse_str h₃ hfields]
  cases judge parse_str group reason arguments with
  | error e => rfl
  | ok context => rfl

/-- The fields that were decoded are all that is left. -/
theorem decode_fields_eq_ok {parse_str : String → Option Uuid} {d : Decoder}
    {context : RequestContext} (h : decode_fields parse_str d = .ok context) :
    ∃ group reason arguments, d.rest = fields group reason arguments := by
  obtain ⟨⟨group, d₁⟩, hgroup, h⟩ := bind_eq_ok h
  change (match (Utf8.strict group).bind parse_str with | some _ => _ | _ => _) = _ at h
  cases hid : (Utf8.strict group).bind parse_str with
  | none =>
      rw [hid] at h
      cases h
  | some group_id =>
  rw [hid] at h
  obtain ⟨⟨reason, d₂⟩, hreason, h⟩ := bind_eq_ok h
  change (match decode_text reason MAX_REASON_SIZE with | some _ => _ | _ => _) = _ at h
  cases htext : decode_text reason MAX_REASON_SIZE with
  | none =>
      rw [htext] at h
      cases h
  | some text =>
  rw [htext] at h
  obtain ⟨⟨count, d₃⟩, hcount, h⟩ := bind_eq_ok h
  change (if _ then _ else _) = _ at h
  by_cases hnumber : ¬ (1 ≤ count ∧ count ≤ MAX_COMMAND_ARGUMENTS)
  · rw [if_pos hnumber] at h
    cases h
  rw [if_neg hnumber] at h
  obtain ⟨⟨command, d₄⟩, hloop, h⟩ := bind_eq_ok h
  obtain ⟨⟨⟩, hfinish, -⟩ := bind_eq_ok h
  obtain ⟨arguments, hlen, harguments⟩ := take_arguments_eq_ok hloop
  refine ⟨group, reason, arguments, ?_⟩
  rw [Decoder.finish_eq_ok.mp hfinish, List.append_nil] at harguments
  rw [Decoder.take_string_eq_ok hgroup, Decoder.take_string_eq_ok hreason,
    (Decoder.take_u32_eq_ok hcount).2, harguments, ← hlen, fields]

/-- **What the decoder accepts is a frame.** -/
theorem framed_of_decode {parse_str : String → Option Uuid} {packet : Bytes}
    {context : RequestContext} (h : decode parse_str packet = .ok (some context)) :
    ∃ group reason arguments, Fits group reason arguments
      ∧ packet = frame group reason arguments := by
  rw [decode] at h
  cases hpacket : Decoder.packet packet with
  | none =>
      rw [hpacket] at h
      cases Except.ok.inj h
  | some d =>
  rw [hpacket] at h
  obtain ⟨⟨kind, d₁⟩, hkind, h⟩ := bind_eq_ok h
  change (if kind ≠ SSH_AGENTC_EXTENSION then _ else _) = _ at h
  by_cases hother : kind ≠ SSH_AGENTC_EXTENSION
  · rw [if_pos hother] at h
    cases Except.ok.inj h
  rw [if_neg hother] at h
  obtain ⟨⟨name, d₂⟩, hname, h⟩ := bind_eq_ok h
  change (if name ≠ CONTEXT_EXTENSION then _ else _) = _ at h
  by_cases hforeign : name ≠ CONTEXT_EXTENSION
  · rw [if_pos hforeign] at h
    cases Except.ok.inj h
  rw [if_neg hforeign] at h
  obtain ⟨⟨version, d₃⟩, hversion, h⟩ := bind_eq_ok h
  change (if version ≠ CONTEXT_VERSION then _ else _) = _ at h
  by_cases hnew : version ≠ CONTEXT_VERSION
  · rw [if_pos hnew] at h
    cases h
  rw [if_neg hnew] at h
  obtain ⟨context', hfields, -⟩ := bind_eq_ok h
  obtain ⟨group, reason, arguments, hrest⟩ := decode_fields_eq_ok hfields
  obtain ⟨hstring, hlen⟩ := Decoder.packet_eq_some hpacket
  have hpayload : d.rest = payload group reason arguments := by
    rw [Decoder.take_u8_eq_ok hkind, Decoder.take_string_eq_ok hname,
      Decoder.take_u8_eq_ok hversion, hrest, not_not.mp hother, not_not.mp hforeign,
      not_not.mp hnew, payload]
  rw [hpayload] at hstring hlen
  exact ⟨group, reason, arguments, hlen, hstring⟩

/-! ## What acceptance says about the fields -/

/-- A text that is accepted is the one its bytes encode. -/
theorem decode_text_eq_some {value : Bytes} {max_size : Nat} {text : String}
    (h : decode_text value max_size = some text) :
    value = Utf8.encode text ∧ value ≠ [] ∧ value.length ≤ max_size
      ∧ text.toList.all isPrintable = true := by
  rw [decode_text] at h
  by_cases hlength : value = [] ∨ max_size < value.length
  · rw [if_pos hlength] at h
    cases h
  rw [if_neg hlength] at h
  obtain ⟨hempty, hlong⟩ := not_or.mp hlength
  cases hstrict : Utf8.strict value with
  | none =>
      rw [hstrict] at h
      cases h
  | some text' =>
      rw [hstrict] at h
      change (if text'.toList.all isPrintable then some text' else none) = some text at h
      by_cases hall : text'.toList.all isPrintable = true
      · rw [if_pos hall] at h
        obtain rfl := Option.some.inj h
        exact ⟨Utf8.strict_eq_some.mp hstrict, hempty, Nat.le_of_not_lt hlong, hall⟩
      · rw [if_neg hall] at h
        cases h

/-- The fields of an accepted context. -/
structure Accepted (parse_str : String → Option Uuid) (group reason : Bytes)
    (arguments : List Bytes) (context : RequestContext) : Prop where
  group_id : (Utf8.strict group).bind parse_str = some context.group_id
  reason : decode_text reason MAX_REASON_SIZE = some context.reason
  number : 1 ≤ arguments.length ∧ arguments.length ≤ MAX_COMMAND_ARGUMENTS
  size : (arguments.map List.length).sum ≤ MAX_COMMAND_SIZE
  command : context.command = arguments.map Utf8.lossy

/-- **Acceptance, field by field.** -/
theorem judge_eq_ok {parse_str : String → Option Uuid} {group reason : Bytes}
    {arguments : List Bytes} {context : RequestContext} :
    judge parse_str group reason arguments = .ok context
      ↔ Accepted parse_str group reason arguments context := by
  rw [judge]
  constructor
  · intro h
    cases hid : (Utf8.strict group).bind parse_str with
    | none =>
        rw [hid] at h
        cases h
    | some group_id =>
    rw [hid] at h
    change (match decode_text reason MAX_REASON_SIZE with | some _ => _ | _ => _) = _ at h
    cases htext : decode_text reason MAX_REASON_SIZE with
    | none =>
        rw [htext] at h
        cases h
    | some text =>
    rw [htext] at h
    change (if _ then _ else _) = _ at h
    by_cases hnumber : ¬ (1 ≤ arguments.length ∧ arguments.length ≤ MAX_COMMAND_ARGUMENTS)
    · rw [if_pos hnumber] at h
      cases h
    rw [if_neg hnumber] at h
    change (if _ then _ else _) = _ at h
    by_cases hsize : (arguments.map List.length).sum > MAX_COMMAND_SIZE
    · rw [if_pos hsize] at h
      cases h
    rw [if_neg hsize] at h
    obtain rfl := Except.ok.inj h
    exact ⟨hid, htext, not_not.mp hnumber, Nat.le_of_not_gt hsize, rfl⟩
  · rintro ⟨hid, htext, hnumber, hsize, hcommand⟩
    rw [hid, htext]
    show (if _ then _ else _) = _
    rw [if_neg (not_not.mpr hnumber)]
    show (if _ then _ else _) = _
    rw [if_neg (Nat.not_lt_of_le hsize), ← hcommand]
    rfl

end Context
