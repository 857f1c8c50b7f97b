import AgentWitness.ContextProofs

/-! # The browser's schema for a request's context

    `remote/protocol.ts` checks a context again when it arrives in the browser;
    a context that has an issue makes `decodeServerMessage` throw.

    The two sides count DIFFERENT BYTES.  The server counts a command as it
    stood on the socket; the browser counts the text the server made of it, in
    which every broken UTF-8 sequence has become a three-byte replacement
    character.  `accepted_context_decodes_iff` says that this is the only disagreement. -/

namespace ContextSchema

open Packet Context

def MAX_CONTEXT_REASON_LENGTH : Nat := 512

def MAX_CONTEXT_COMMAND_ARGUMENTS : Nat := 128

def MAX_CONTEXT_COMMAND_LENGTH : Nat := 16 * 1024

/-- What a schema has against a value. -/
inductive Issue where
  | invalidFormat (message : String)
  | tooSmall (minimum : Nat)
  | tooBig (maximum : Nat)
  | custom (message : String)
  deriving DecidableEq, Repr

/-- A schema's `refine`: one issue when the check fails. -/
def refine {α : Type} (check : α → Bool) (message : String) (value : α) : List Issue :=
  if check value then [] else [.custom message]

def utf8Length (value : String) : Nat := value.utf8ByteSize

/-- The class `[0-9a-f]`. -/
def isLowerHex (c : Char) : Bool := ('0' ≤ c && c ≤ '9') || ('a' ≤ c && c ≤ 'f')

/-- `contextGroupIdSchema`: the whole text is thirty-two digits. -/
def contextGroupIdSchema (value : String) : List Issue :=
  if value.toList.length = 32 ∧ value.toList.all isLowerHex then []
  else [.invalidFormat "Invalid UUID"]

/-- The class of the `Cc` and `White_Space` characters. -/
def isUnprintable (character : Char) : Bool :=
  Utf8.isControl character || Utf8.isWhiteSpace character

def printableTextSchema (maxLength : Nat) (label : String) (value : String) : List Issue :=
  refine (fun value => 0 < utf8Length value && utf8Length value ≤ maxLength)
      (label ++ " must contain between 1 and " ++ toString maxLength ++ " UTF-8 bytes") value
    ++ refine (fun value => value.toList.all
        (fun character => character == ' ' || !isUnprintable character))
      (label ++ " must be printable") value

def contextReasonSchema (value : String) : List Issue :=
  printableTextSchema MAX_CONTEXT_REASON_LENGTH "context reason" value

def contextCommandSchema (command : List String) : List Issue :=
  (if command.length < 1 then [.tooSmall 1] else [])
    ++ (if MAX_CONTEXT_COMMAND_ARGUMENTS < command.length then
          [.tooBig MAX_CONTEXT_COMMAND_ARGUMENTS] else [])
    ++ refine (fun command => utf8Length (String.join command) ≤ MAX_CONTEXT_COMMAND_LENGTH)
      ("context command cannot exceed " ++ toString MAX_CONTEXT_COMMAND_LENGTH ++ " UTF-8 bytes")
      command

/-- An issue and the key it was found under. -/
structure FieldIssue where
  path : String
  issue : Issue
  deriving DecidableEq, Repr

/-- The issues of a key of an object. -/
def at_key (path : String) (issues : List Issue) : List FieldIssue := issues.map (FieldIssue.mk path)

/-- A context as the message carries it. -/
structure WireRequestContext where
  group_id : String
  reason : String
  command : List String
  deriving DecidableEq, Repr

/-- A context as the browser uses it. -/
structure ClientRequestContext where
  groupId : String
  reason : String
  command : List String
  deriving DecidableEq, Repr

def wireRequestContextSchema (context : WireRequestContext) : List FieldIssue :=
  at_key "group_id" (contextGroupIdSchema context.group_id)
    ++ at_key "reason" (contextReasonSchema context.reason)
    ++ at_key "command" (contextCommandSchema context.command)

def requestContextSchema (context : ClientRequestContext) : List FieldIssue :=
  at_key "groupId" (contextGroupIdSchema context.groupId)
    ++ at_key "reason" (contextReasonSchema context.reason)
    ++ at_key "command" (contextCommandSchema context.command)

/-- What the two ends take from their libraries to write and rename a context. -/
structure Libraries where
  /-- The simple format of the `uuid` crate. -/
  simple : Uuid → String
  /-- `objectToCamel` of `ts-case-convert`, on a context. -/
  objectToCamel : WireRequestContext → ClientRequestContext
  simple_digits : ∀ id, (simple id).toList.length = 32 ∧ (simple id).toList.all isLowerHex = true
  objectToCamel_fields : ∀ context,
    objectToCamel context = ⟨context.group_id, context.reason, context.command⟩

variable (lib : Libraries)

/-- The context of an `agent_request` under `serverMessageCodec`: the wire form
    is checked, renamed and checked again; an issue is thrown. -/
def decodeContext (context : WireRequestContext) :
    Except (List FieldIssue) ClientRequestContext :=
  if wireRequestContextSchema context ≠ [] then .error (wireRequestContextSchema context)
  else if requestContextSchema (lib.objectToCamel context) ≠ [] then
    .error (requestContextSchema (lib.objectToCamel context))
  else .ok (lib.objectToCamel context)

/-- The context of an `AgentRequest` as the server serializes it. -/
def toWire (context : RequestContext) : WireRequestContext :=
  ⟨lib.simple context.group_id, context.reason, context.command⟩

/-! ## Each field of an accepted context -/

/-- Every UUID is written as the group id the browser expects. -/
theorem contextGroupIdSchema_simple (id : Uuid) : contextGroupIdSchema (lib.simple id) = [] := by
  rw [contextGroupIdSchema, if_pos (lib.simple_digits id)]

/-- The two sides call the same characters printable. -/
theorem isPrintable_eq (character : Char) :
    isPrintable character = (character == ' ' || !isUnprintable character) := by
  rw [isPrintable, isUnprintable, Bool.not_or]

/-- A reason the server has decoded passes. -/
theorem contextReasonSchema_decoded {value : Bytes} {text : String}
    (h : decode_text value MAX_REASON_SIZE = some text) : contextReasonSchema text = [] := by
  obtain ⟨hvalue, hne, hlong, hall⟩ := decode_text_eq_some h
  have hsize : utf8Length text = value.length := by
    rw [hvalue, Utf8.length_encode]
    rfl
  have hpos : 0 < value.length := List.length_pos_iff.mpr hne
  have hmax : value.length ≤ MAX_CONTEXT_REASON_LENGTH := hlong
  have hprintable : text.toList.all
      (fun character => character == ' ' || !isUnprintable character) = true := by
    rw [← funext isPrintable_eq]
    exact hall
  rw [contextReasonSchema, printableTextSchema, refine, refine, hsize, hprintable]
  simp only [hpos, hmax, decide_true, Bool.and_self, if_true, List.append_nil]

theorem utf8ByteSize_join (texts : List String) :
    (String.join texts).utf8ByteSize = (texts.map String.utf8ByteSize).sum := by
  have hfold : ∀ (texts : List String) (init : String),
      (texts.foldl (fun a b => a ++ b) init).utf8ByteSize
        = init.utf8ByteSize + (texts.map String.utf8ByteSize).sum := by
    intro texts
    induction texts with
    | nil => exact fun init => rfl
    | cons text texts ih =>
        intro init
        rw [List.foldl_cons, ih, String.utf8ByteSize_append, List.map_cons, List.sum_cons,
          Nat.add_assoc]
  rw [String.join, hfold]
  exact Nat.zero_add _

/-- What a command measures in the browser. -/
theorem utf8Length_lossy (arguments : List Bytes) :
    utf8Length (String.join (arguments.map Utf8.lossy)) = (arguments.map Utf8.lossySize).sum := by
  rw [utf8Length, utf8ByteSize_join, List.map_map]
  have hsize : String.utf8ByteSize ∘ Utf8.lossy = Utf8.lossySize := by
    ext bytes
    exact Utf8.utf8ByteSize_lossy bytes
  rw [hsize]

/-- The issue of a command that is too long. -/
def tooLong : Issue := .custom "context command cannot exceed 16384 UTF-8 bytes"

/-- A command of an admissible number of arguments passes when it is short. -/
theorem contextCommandSchema_lossy {arguments : List Bytes} (hsome : 1 ≤ arguments.length)
    (hfew : arguments.length ≤ MAX_COMMAND_ARGUMENTS) :
    contextCommandSchema (arguments.map Utf8.lossy)
      = if (arguments.map Utf8.lossySize).sum ≤ MAX_COMMAND_SIZE then [] else [tooLong] := by
  have hmin : ¬ (arguments.map Utf8.lossy).length < 1 := by
    rw [List.length_map]
    omega
  have hmax : ¬ MAX_CONTEXT_COMMAND_ARGUMENTS < (arguments.map Utf8.lossy).length := by
    rw [List.length_map]
    exact Nat.not_lt_of_le hfew
  rw [contextCommandSchema, if_neg hmin, if_neg hmax, List.nil_append, List.nil_append, refine,
    utf8Length_lossy]
  show (if decide ((arguments.map Utf8.lossySize).sum ≤ MAX_COMMAND_SIZE) then _ else _) = _
  simp only [decide_eq_true_eq]
  rfl

/-! ## The whole context -/

/-- The two schemas of a context differ in a key's name only. -/
theorem decodeContext_eq_ok {context : WireRequestContext}
    (h : wireRequestContextSchema context = []) :
    decodeContext lib context = .ok (lib.objectToCamel context) := by
  have hcamel : requestContextSchema (lib.objectToCamel context) = [] := by
    rw [wireRequestContextSchema] at h
    obtain ⟨hfirst, hcommand⟩ := List.append_eq_nil_iff.mp h
    obtain ⟨hgroup, hreason⟩ := List.append_eq_nil_iff.mp hfirst
    rw [requestContextSchema, lib.objectToCamel_fields, at_key, List.map_eq_nil_iff.mp hgroup,
      hreason, hcommand]
    rfl
  rw [decodeContext, if_neg (not_not.mpr h), if_neg (not_not.mpr hcamel)]

theorem decodeContext_eq_error {context : WireRequestContext} {issues : List FieldIssue}
    (h : wireRequestContextSchema context = issues) (hne : issues ≠ []) :
    decodeContext lib context = .error issues := by
  rw [decodeContext, h, if_pos hne]

/-- An accepted context has no issue but the length of its command. -/
theorem wireRequestContextSchema_accepted {parse_str : String → Option Uuid}
    {group reason : Bytes} {arguments : List Bytes} {context : RequestContext}
    (h : Accepted parse_str group reason arguments context) :
    wireRequestContextSchema (toWire lib context)
      = if (arguments.map Utf8.lossySize).sum ≤ MAX_COMMAND_SIZE then []
        else [⟨"command", tooLong⟩] := by
  show at_key "group_id" (contextGroupIdSchema (lib.simple context.group_id))
      ++ at_key "reason" (contextReasonSchema context.reason)
      ++ at_key "command" (contextCommandSchema context.command) = _
  rw [contextGroupIdSchema_simple, contextReasonSchema_decoded h.reason, h.command,
    contextCommandSchema_lossy h.number.1 h.number.2]
  split <;> rfl

/-- The packet's command stays within the limit even when each broken UTF-8
    sequence of its arguments counts for three bytes. -/
def Small (packet : Bytes) : Prop :=
  ∃ group reason arguments, Fits group reason arguments
    ∧ packet = frame group reason arguments
    ∧ (arguments.map Utf8.lossySize).sum ≤ MAX_COMMAND_SIZE

/-- On a frame, the decoder accepts the contexts of accepted fields. -/
theorem accepted_of_decode {parse_str : String → Option Uuid} {group reason : Bytes}
    {arguments : List Bytes} {context : RequestContext} (hfit : Fits group reason arguments)
    (h : decode parse_str (frame group reason arguments) = .ok (some context)) :
    Accepted parse_str group reason arguments context := by
  rw [decode_frame parse_str hfit] at h
  apply judge_eq_ok.mp
  cases hjudge : judge parse_str group reason arguments with
  | error e =>
      rw [hjudge] at h
      cases h
  | ok context' =>
      rw [hjudge] at h
      rw [Option.some.inj (Except.ok.inj h)]

/-- **The two sides disagree about the length of broken text only.** -/
theorem wireRequestContextSchema_decoded {parse_str : String → Option Uuid} {packet : Bytes}
    {context : RequestContext} (h : decode parse_str packet = .ok (some context)) :
    (Small packet → wireRequestContextSchema (toWire lib context) = [])
      ∧ (¬ Small packet →
        wireRequestContextSchema (toWire lib context) = [⟨"command", tooLong⟩]) := by
  refine ⟨?_, ?_⟩
  · rintro ⟨group, reason, arguments, hfit, rfl, hsize⟩
    rw [wireRequestContextSchema_accepted lib (accepted_of_decode hfit h), if_pos hsize]
  · intro hlarge
    obtain ⟨group, reason, arguments, hfit, rfl⟩ := framed_of_decode h
    rw [wireRequestContextSchema_accepted lib (accepted_of_decode hfit h)]
    exact if_neg (fun hsize => hlarge ⟨group, reason, arguments, hfit, rfl, hsize⟩)

/-- **A context the server accepted is decoded by the browser exactly when its command
    is small.**  Otherwise `decodeServerMessage` throws, for the length of the command
    and for nothing else. -/
theorem accepted_context_decodes_iff (parse_str : String → Option Uuid) (packet : Bytes)
    (context : RequestContext) (h : decode parse_str packet = .ok (some context)) :
    (wireRequestContextSchema (toWire lib context) = [] ↔ Small packet)
      ∧ (Small packet →
        decodeContext lib (toWire lib context)
          = .ok ⟨lib.simple context.group_id, context.reason, context.command⟩)
      ∧ (¬ Small packet →
        decodeContext lib (toWire lib context) = .error [⟨"command", tooLong⟩]) := by
  obtain ⟨hsmall, hlarge⟩ := wireRequestContextSchema_decoded lib h
  refine ⟨⟨?_, hsmall⟩, ?_, ?_⟩
  · intro hpasses
    by_contra hnot
    rw [hlarge hnot] at hpasses
    cases hpasses
  · intro hs
    rw [decodeContext_eq_ok lib (hsmall hs), lib.objectToCamel_fields]
    rfl
  · intro hnot
    exact decodeContext_eq_error lib (hlarge hnot) (List.cons_ne_nil _ _)

/-! ## Libraries of both ends -/

/-- Thirty-two lower-case digits, most significant first. -/
def hexDigits (id : Uuid) : String :=
  String.ofList ((List.range 32).map
    (fun place => Nat.digitChar (id.bits.toNat / 16 ^ (31 - place) % 16)))

theorem isLowerHex_digitChar {n : Nat} (h : n < 16) : isLowerHex (Nat.digitChar n) = true := by
  have hall : ∀ n < 16, isLowerHex (Nat.digitChar n) = true := by decide
  exact hall n h

theorem hexDigits_digits (id : Uuid) :
    (hexDigits id).toList.length = 32 ∧ (hexDigits id).toList.all isLowerHex = true := by
  rw [hexDigits, String.toList_ofList]
  refine ⟨?_, ?_⟩
  · rw [List.length_map, List.length_range]
  · rw [List.all_map, List.all_eq_true]
    intro place _
    exact isLowerHex_digitChar (Nat.mod_lt _ (by decide))

def hexLibraries : Libraries where
  simple := hexDigits
  objectToCamel := fun context => ⟨context.group_id, context.reason, context.command⟩
  simple_digits := hexDigits_digits
  objectToCamel_fields := fun _ => rfl

/-- A UUID parser that knows one group. -/
def knownGroup (text : String) : Option Uuid :=
  if text = "d371fa50458a41918893d00139c781a2" then
    some ⟨0xd371fa50458a41918893d00139c781a2⟩
  else none

/-- The packet of a command run for the known group. -/
def pushPacket (arguments : List Bytes) : Bytes :=
  frame (Utf8.encode "d371fa50458a41918893d00139c781a2") (Utf8.encode "Push") arguments

/-- `git push` explained to the user. -/
def gitPush : Bytes := pushPacket [Utf8.encode "git", Utf8.encode "push"]

theorem accepted_context_decodes_gitPush :
    Small gitPush
      ∧ decode knownGroup gitPush
        = .ok (some ⟨⟨0xd371fa50458a41918893d00139c781a2⟩, "Push", ["git", "push"]⟩)
      ∧ decodeContext hexLibraries
          (toWire hexLibraries ⟨⟨0xd371fa50458a41918893d00139c781a2⟩, "Push", ["git", "push"]⟩)
        = .ok ⟨"d371fa50458a41918893d00139c781a2", "Push", ["git", "push"]⟩ := by
  have hsmall : Small gitPush := ⟨_, _, _, by decide, rfl, by decide⟩
  have hdecode : decode knownGroup gitPush
      = .ok (some ⟨⟨0xd371fa50458a41918893d00139c781a2⟩, "Push", ["git", "push"]⟩) := by decide
  have hid : hexLibraries.simple ⟨0xd371fa50458a41918893d00139c781a2⟩
      = "d371fa50458a41918893d00139c781a2" := by decide
  refine ⟨hsmall, hdecode, ?_⟩
  rw [(accepted_context_decodes_iff hexLibraries knownGroup gitPush _ hdecode).2.1 hsmall, hid]

/-- An argument of 5462 bytes that are no text. -/
def noText : Bytes := List.replicate 5462 0xFF

/-- What the server makes of a command with that argument. -/
def noTextContext : RequestContext :=
  ⟨⟨0xd371fa50458a41918893d00139c781a2⟩, "Push", [Utf8.lossy noText]⟩

theorem accepted_noText :
    Accepted knownGroup (Utf8.encode "d371fa50458a41918893d00139c781a2") (Utf8.encode "Push")
      [noText] noTextContext where
  group_id := by decide
  reason := by decide
  number := by decide
  size := by
    rw [List.map_singleton, List.sum_singleton, noText, List.length_replicate]
    decide
  command := rfl

theorem fits_noText :
    Fits (Utf8.encode "d371fa50458a41918893d00139c781a2") (Utf8.encode "Push") [noText] := by
  rw [Fits, payload, List.length_cons, List.length_append, List.length_cons, length_fields,
    length_flatMap_string, List.map_singleton, List.sum_singleton, noText,
    List.length_replicate]
  decide

/-- The server accepts 5462 bytes of broken text, and the browser counts the
    16386 bytes of their replacement characters. -/
theorem broken_text_refused :
    decode knownGroup (pushPacket [noText]) = .ok (some noTextContext)
      ∧ utf8Length (String.join noTextContext.command) = 16386
      ∧ decodeContext hexLibraries (toWire hexLibraries noTextContext)
        = .error [⟨"command", .custom "context command cannot exceed 16384 UTF-8 bytes"⟩] := by
  have hlossy : ([noText].map Utf8.lossySize).sum = 16386 := by
    rw [List.map_singleton, List.sum_singleton, noText, Utf8.lossySize_replicate_invalid]
  refine ⟨?_, ?_, ?_⟩
  · rw [pushPacket, decode_frame knownGroup fits_noText, judge_eq_ok.mpr accepted_noText]
    rfl
  · show utf8Length (String.join ([noText].map Utf8.lossy)) = 16386
    rw [utf8Length_lossy, hlossy]
  · refine decodeContext_eq_error _ ?_ (List.cons_ne_nil _ _)
    rw [wireRequestContextSchema_accepted _ accepted_noText, hlossy]
    rfl

end ContextSchema
