import AgentWitness.ContextSchemaProofs

/-! # Encoding a context

    `context::encode`, the caller's side of the context extension.  It checks a
    context before it writes the frame; the decoder checks the fields while it
    reads them.

    BOTH SIDES JUDGE THE SAME FIELDS: the encoder's verdict on a context is the
    decoder's verdict on the frame built from it without any check
    (`judge_raw`), although the one adds up the command at once and the other
    keeps a running total. -/

namespace ContextCodec

open Packet Context ContextSchema

variable (lib : Libraries)

def push_string (packet value : Bytes) : Bytes :=
  packet ++ Octets.bigEndian 4 value.length ++ value

/-- The packet `encode` writes, its length still zero. -/
def unsized (context : RequestContext) : Bytes :=
  let packet : Bytes := [0, 0, 0, 0]
  let packet := packet ++ [SSH_AGENTC_EXTENSION]
  let packet := push_string packet CONTEXT_EXTENSION
  let packet := packet ++ [CONTEXT_VERSION]
  let packet := push_string packet (Utf8.encode (lib.simple context.group_id))
  let packet := push_string packet (Utf8.encode context.reason)
  let packet := packet ++ Octets.bigEndian 4 context.command.length
  context.command.foldl (fun packet argument => push_string packet (Utf8.encode argument)) packet

/-- `encode`: the limits are those of the receiver. -/
def encode (context : RequestContext) : Except ContextError Bytes :=
  if decode_text (Utf8.encode context.reason) MAX_REASON_SIZE = none then .error .invalidReason
  else if ¬ (1 ≤ context.command.length ∧ context.command.length ≤ MAX_COMMAND_ARGUMENTS)
      ∨ (context.command.map String.utf8ByteSize).sum > MAX_COMMAND_SIZE then
    .error .invalidCommand
  else
    -- the length is written over the first four bytes
    .ok (Octets.bigEndian 4 ((unsized lib context).length - 4) ++ (unsized lib context).drop 4)

/-- The frame of a context, built without any check. -/
def raw (context : RequestContext) : Bytes :=
  frame (Utf8.encode (lib.simple context.group_id)) (Utf8.encode context.reason)
    (context.command.map Utf8.encode)

/-- The length of the context's frame fits in 32 bits. -/
def FitsRaw (context : RequestContext) : Prop :=
  Fits (Utf8.encode (lib.simple context.group_id)) (Utf8.encode context.reason)
    (context.command.map Utf8.encode)

instance (context : RequestContext) : Decidable (FitsRaw lib context) :=
  inferInstanceAs (Decidable (Fits _ _ _))

/-! ## What the encoder writes -/

theorem foldl_push_string (arguments : List String) (packet : Bytes) :
    arguments.foldl (fun packet argument => push_string packet (Utf8.encode argument)) packet
      = packet ++ (arguments.map Utf8.encode).flatMap string := by
  induction arguments generalizing packet with
  | nil => exact (List.append_nil packet).symm
  | cons argument arguments ih =>
      rw [List.foldl_cons, ih, List.map_cons, List.flatMap_cons, push_string, string,
        List.append_assoc, List.append_assoc, List.append_assoc]

/-- The encoder writes the payload behind four bytes for its length. -/
theorem unsized_eq (context : RequestContext) :
    unsized lib context = [0, 0, 0, 0] ++ payload (Utf8.encode (lib.simple context.group_id))
      (Utf8.encode context.reason) (context.command.map Utf8.encode) := by
  rw [unsized, foldl_push_string, payload, fields, List.length_map]
  simp only [push_string, string, List.append_assoc, List.cons_append, List.nil_append]

/-- What `encode` returns is the unchecked frame. -/
theorem sized_eq_raw (context : RequestContext) :
    Octets.bigEndian 4 ((unsized lib context).length - 4) ++ (unsized lib context).drop 4
      = raw lib context := by
  rw [unsized_eq, List.length_append, raw, frame, string]
  show Octets.bigEndian 4 (4 + _ - 4) ++ _ = _
  rw [Nat.add_sub_cancel_left]
  rfl

/-! ## The two verdicts -/

/-- The lengths of encoded arguments are the sizes of the arguments. -/
theorem map_length_encode (command : List String) :
    (command.map Utf8.encode).map List.length = command.map String.utf8ByteSize := by
  rw [List.map_map]
  refine List.map_congr_left ?_
  intro argument _
  exact Utf8.length_encode argument

theorem map_lossy_encode (command : List String) :
    (command.map Utf8.encode).map Utf8.lossy = command := by
  rw [List.map_map]
  have hid : Utf8.lossy ∘ Utf8.encode = id := by
    ext1 text
    exact Utf8.lossy_encode text
  rw [hid, List.map_id]

/-- An accepted text is the one that was encoded. -/
theorem decode_text_encode {text accepted : String} {max_size : Nat}
    (h : decode_text (Utf8.encode text) max_size = some accepted) : accepted = text := by
  have hbytes := (decode_text_eq_some h).1
  have hstrict : Utf8.strict (Utf8.encode text) = some accepted := Utf8.strict_eq_some.mpr hbytes
  have hown : Utf8.strict (Utf8.encode text) = some text := Utf8.strict_eq_some.mpr rfl
  exact Option.some.inj (hstrict.symm.trans hown)

/-- **The decoder's verdict on an unchecked frame is the encoder's on its
    context.** -/
theorem judge_raw {parse_str : String → Option Uuid} (context : RequestContext)
    (hparse : parse_str (lib.simple context.group_id) = some context.group_id) :
    judge parse_str (Utf8.encode (lib.simple context.group_id)) (Utf8.encode context.reason)
        (context.command.map Utf8.encode)
      = (encode lib context).map (fun _ => context) := by
  have hgroup : (Utf8.strict (Utf8.encode (lib.simple context.group_id))).bind parse_str
      = some context.group_id := by
    rw [Utf8.strict_eq_some.mpr rfl]
    exact hparse
  rw [judge, encode, hgroup]
  cases hreason : decode_text (Utf8.encode context.reason) MAX_REASON_SIZE with
  | none => rfl
  | some reason =>
  obtain rfl := decode_text_encode hreason
  rw [if_neg (Option.some_ne_none _)]
  show (if _ then _ else _) = _
  rw [List.length_map, map_length_encode, map_lossy_encode]
  by_cases hnumber : ¬ (1 ≤ context.command.length
      ∧ context.command.length ≤ MAX_COMMAND_ARGUMENTS)
  · rw [if_pos hnumber, if_pos (Or.inl hnumber)]
    rfl
  rw [if_neg hnumber]
  show (if _ then _ else _) = _
  by_cases hsize : (context.command.map String.utf8ByteSize).sum > MAX_COMMAND_SIZE
  · rw [if_pos hsize, if_pos (Or.inr hsize)]
    rfl
  · rw [if_neg hsize, if_neg (not_or.mpr ⟨hnumber, hsize⟩)]
    rfl

/-- What the encoder accepts is the unchecked frame. -/
theorem encode_eq_ok {context : RequestContext} {packet : Bytes}
    (h : encode lib context = .ok packet) : packet = raw lib context := by
  rw [encode] at h
  split at h
  · cases h
  · split at h
    · cases h
    · rw [← Except.ok.inj h, sized_eq_raw]

theorem utf8Size_of_isLowerHex {c : Char} (h : isLowerHex c = true) : c.utf8Size = 1 := by
  have hrange : '0' ≤ c ∧ c ≤ '9' ∨ 'a' ≤ c ∧ c ≤ 'f' := by
    simpa only [isLowerHex, Bool.or_eq_true, Bool.and_eq_true, decide_eq_true_eq] using h
  have hsmall : c.val ≤ 127 := by
    obtain ⟨-, hle⟩ | ⟨-, hle⟩ := hrange
    · exact UInt32.le_trans (Char.le_def.mp hle) (by decide)
    · exact UInt32.le_trans (Char.le_def.mp hle) (by decide)
  rw [Char.utf8Size]
  exact if_pos hsmall

/-- A UUID takes thirty-two bytes. -/
theorem length_encode_simple (id : Uuid) : (Utf8.encode (lib.simple id)).length = 32 := by
  obtain ⟨hlength, hall⟩ := lib.simple_digits id
  have hsizes : (lib.simple id).toList.map Char.utf8Size
      = (lib.simple id).toList.map (fun _ => 1) := by
    refine List.map_congr_left ?_
    intro c hc
    exact utf8Size_of_isLowerHex (List.all_eq_true.mp hall c hc)
  rw [Utf8.length_encode, ← String.ofList_toList (s := lib.simple id), Utf8.utf8ByteSize_ofList,
    hsizes, List.map_const', List.sum_replicate, hlength]
  rfl

/-- A context within the limits has a short frame. -/
theorem fits_of_encode {context : RequestContext} {packet : Bytes}
    (h : encode lib context = .ok packet) : FitsRaw lib context := by
  rw [encode] at h
  by_cases hreason : decode_text (Utf8.encode context.reason) MAX_REASON_SIZE = none
  · rw [if_pos hreason] at h
    cases h
  rw [if_neg hreason] at h
  split at h
  · cases h
  next hlimits =>
  obtain ⟨hnumber, hsize⟩ := not_or.mp hlimits
  obtain ⟨reason, haccepted⟩ := Option.ne_none_iff_exists'.mp hreason
  have hlong := (decode_text_eq_some haccepted).2.2.1
  have hname : CONTEXT_EXTENSION.length = 21 := by decide
  have hcount := (not_not.mp hnumber).2
  rw [FitsRaw, Fits, payload, List.length_cons, List.length_append, List.length_cons,
    length_string, length_fields, length_flatMap_string, length_encode_simple, List.length_map,
    map_length_encode, hname]
  rw [MAX_REASON_SIZE] at hlong
  rw [MAX_COMMAND_ARGUMENTS] at hcount
  rw [MAX_COMMAND_SIZE] at hsize
  omega

/-- **The two sides of the context extension agree.**  On every context whose
    frame length fits in 32 bits, the decoder accepts the unchecked frame as
    that context exactly if the encoder writes it, and refuses it with the
    encoder's error otherwise.  So whatever the encoder writes is decoded to the
    context it was written for. -/
theorem codec_agrees (parse_str : String → Option Uuid)
    (hparse : ∀ id, parse_str (lib.simple id) = some id) (context : RequestContext) :
    (FitsRaw lib context →
      (decode parse_str (raw lib context) = .ok (some context) ↔ encode lib context = .ok (raw lib context))
      ∧ (encode lib context ≠ .ok (raw lib context) →
        ∃ error, encode lib context = .error error ∧ decode parse_str (raw lib context) = .error error))
    ∧ ∀ packet, encode lib context = .ok packet → decode parse_str packet = .ok (some context) := by
  have hdecode : FitsRaw lib context → decode parse_str (raw lib context)
      = ((encode lib context).map (fun _ => context)).map some := by
    intro hfit
    rw [raw, decode_frame parse_str hfit, judge_raw lib context (hparse context.group_id)]
  refine ⟨?_, ?_⟩
  · intro hfit
    rw [hdecode hfit]
    cases hencode : encode lib context with
    | error error =>
        refine ⟨⟨fun h => ?_, fun h => ?_⟩, fun _ => ⟨error, rfl, rfl⟩⟩
        · cases h
        · cases h
    | ok packet =>
        obtain rfl := encode_eq_ok lib hencode
        exact ⟨⟨fun _ => rfl, fun _ => rfl⟩, fun h => absurd rfl h⟩
  · intro packet hencode
    rw [encode_eq_ok lib hencode, hdecode (fits_of_encode lib hencode), hencode]
    rfl

/-! ## A parser of the simple format -/

/-- The value of a hexadecimal digit. -/
def digitValue (c : Char) : Nat := if c ≤ '9' then c.toNat - 48 else c.toNat - 87

/-- The UUID that thirty-two hexadecimal digits spell. -/
def parseSimple (text : String) : Option Uuid :=
  if text.toList.length = 32 ∧ text.toList.all isLowerHex = true then
    some ⟨BitVec.ofNat 128 ((text.toList.map digitValue).foldl (fun n digit => 16 * n + digit) 0)⟩
  else none

/-- A number is spelled by its digits in their places. -/
theorem foldl_digits (places n : Nat) :
    ((List.range places).map (fun place => n / 16 ^ (places - 1 - place) % 16)).foldl
        (fun n digit => 16 * n + digit) 0
      = n % 16 ^ places := by
  induction places generalizing n with
  | zero => exact (Nat.mod_one n).symm
  | succ places ih =>
      have hhigh : (List.range places).map (fun place => n / 16 ^ (places + 1 - 1 - place) % 16)
          = (List.range places).map (fun place => n / 16 / 16 ^ (places - 1 - place) % 16) := by
        refine List.map_congr_left ?_
        intro place hplace
        have hlt := List.mem_range.mp hplace
        have hplaces : places + 1 - 1 - place = 1 + (places - 1 - place) := by omega
        rw [hplaces, pow_add, pow_one, Nat.div_div_eq_div_mul]
      rw [List.range_succ, List.map_append, List.foldl_append, hhigh, ih]
      show 16 * (n / 16 % 16 ^ places) + n / 16 ^ (places + 1 - 1 - places) % 16 = _
      have hlow : places + 1 - 1 - places = 0 := by omega
      rw [hlow, pow_zero, Nat.div_one, pow_succ', Nat.mod_mul]
      omega

theorem parseSimple_hexDigits (id : Uuid) : parseSimple (hexDigits id) = some id := by
  have hdigit : ∀ n < 16, digitValue (Nat.digitChar n) = n := by decide
  have hdigits : (hexDigits id).toList.map digitValue
      = (List.range 32).map (fun place => id.bits.toNat / 16 ^ (32 - 1 - place) % 16) := by
    rw [hexDigits, String.toList_ofList, List.map_map]
    refine List.map_congr_left ?_
    intro place _
    exact hdigit _ (Nat.mod_lt _ (by decide))
  have hsmall : id.bits.toNat < 16 ^ 32 := id.bits.isLt
  rw [parseSimple, if_pos (hexDigits_digits id), hdigits, foldl_digits, Nat.mod_eq_of_lt hsmall,
    BitVec.ofNat_toNat, BitVec.setWidth_eq]

/-- A release that is pushed, with an empty argument. -/
def releaseContext : RequestContext :=
  ⟨⟨0xd371fa50458a41918893d00139c781a2⟩, "Push the release", ["git", "push", "v2 é", ""]⟩

/-- The same explained over two lines, which is refused. -/
def brokenContext : RequestContext :=
  ⟨⟨0xd371fa50458a41918893d00139c781a2⟩, "Push\nrelease", ["git", "push"]⟩

theorem codec_agrees_release :
    decode parseSimple (raw hexLibraries releaseContext) = .ok (some releaseContext)
      ∧ ∃ error, encode hexLibraries brokenContext = .error error
        ∧ decode parseSimple (raw hexLibraries brokenContext) = .error error := by
  have hrelease : encode hexLibraries releaseContext = .ok (raw hexLibraries releaseContext) := by
    rw [encode, if_neg (by decide), if_neg (by decide), sized_eq_raw]
  have hbroken : encode hexLibraries brokenContext ≠ .ok (raw hexLibraries brokenContext) := by
    rw [encode, if_pos (by decide)]
    rintro ⟨⟩
  exact ⟨(codec_agrees hexLibraries parseSimple parseSimple_hexDigits releaseContext).2 _ hrelease,
    ((codec_agrees hexLibraries parseSimple parseSimple_hexDigits brokenContext).1 (by decide)).2 hbroken⟩

end ContextCodec
