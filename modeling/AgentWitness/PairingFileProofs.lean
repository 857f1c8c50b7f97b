import AgentWitness.PairingPolicyProofs
import Mathlib.Logic.Function.Basic

/-! # The pairing state on disk

    `remote/pairing/file.rs`: the state is a JSON file that `save` replaces by way of
    a temporary file.  The rename is where the new state becomes what a restart loads,
    and two steps come AFTER it.  The file system may refuse any step of a save, and
    the service takes every refusal to mean that nothing was written.

    Each step of the file system is one operation on the files, told by the faults of
    the save whether it is refused.  JSON is a parameter: what it encodes it decodes. -/

namespace PairingFile

open Packet RemoteProtocol Pairing PairingPolicy Transition

/-! ## Files -/

/-- A path: the directory, empty if there is none, and the name in it. -/
structure Path where
  parent : String
  name : String
  deriving DecidableEq

def Path.display (path : Path) : String := path.parent ++ "/" ++ path.name

structure File where
  bytes : Bytes
  mode : UInt32
  deriving DecidableEq

structure FileSystem where
  files : Path → Option File
  umask : UInt32

/-- Which steps of one save the file system carries out, and the id drawn for the
    temporary file. -/
structure Faults where
  create_dir_all : Bool
  create_new : Bool
  /-- The bytes that were written when `write_all` failed, if it did. -/
  write : Option Nat
  finish : Bool
  sync : Bool
  rename : Bool
  open_directory : Bool
  sync_directory : Bool
  remove : Bool
  temporary : String
  deriving DecidableEq

/-! ## The store -/

def STATE_VERSION : UInt8 := 1

def STATE_MODE : UInt32 := 0o600

structure StoredState where
  version : UInt8
  server_id : Uuid
  client : Option PairedClient
  deriving DecidableEq

def StoredState.ofState (state : PairingState) : StoredState where
  version := STATE_VERSION
  server_id := state.server_id
  client := state.client

/-- `PairingState::try_from`; the error is its message. -/
def StoredState.try_into (state : StoredState) : Except String PairingState :=
  if state.version ≠ STATE_VERSION then
    .error ("unsupported pairing state version " ++ toString state.version)
  else .ok ⟨state.server_id, state.client⟩

/-- `serde_json`. -/
structure Json where
  to_vec_pretty : StoredState → Option Bytes
  from_slice : Bytes → Option StoredState

/-- What is encoded, with the final newline, decodes to itself. -/
def Json.RoundTrips (json : Json) : Prop :=
  ∀ state bytes, json.to_vec_pretty state = some bytes → json.from_slice (bytes ++ [10]) = some state

/-- `load`; errors are named by their outermost context. -/
def load (json : Json) (path : Path) (fs : FileSystem) : Except String (Option PairingState) :=
  match fs.files path with
  | none => .ok none
  | some file =>
      if file.mode &&& 0o077 ≠ 0 then
        .error ("pairing state " ++ path.display ++ " must have mode 0600")
      else
        match json.from_slice file.bytes with
        | none => .error ("could not decode " ++ path.display)
        | some stored => stored.try_into.map some

/-- A new empty file with the mode asked for, as far as the mask permits. -/
def FileSystem.create (fs : FileSystem) (path : Path) (mode : UInt32) : FileSystem :=
  { fs with files := Function.update fs.files path (some ⟨[], mode &&& ~~~fs.umask⟩) }

/-- Write to a file that exists. -/
def FileSystem.append (fs : FileSystem) (path : Path) (bytes : Bytes) : FileSystem :=
  let written := (fs.files path).map (fun file => { file with bytes := file.bytes ++ bytes })
  { fs with files := Function.update fs.files path written }

def FileSystem.replace (fs : FileSystem) (source target : Path) : FileSystem :=
  { fs with files := Function.update (Function.update fs.files target (fs.files source)) source none }

def FileSystem.remove_file (fs : FileSystem) (path : Path) : FileSystem :=
  { fs with files := Function.update fs.files path none }

def write_and_replace (json : Json) (faults : Faults) (temporary path : Path) (state : PairingState)
    (fs : FileSystem) : FileSystem × Except String Unit :=
  match json.to_vec_pretty (.ofState state) with
  | none => (fs, .error "encode state")
  | some bytes =>
      if faults.create_new = false ∨ (fs.files temporary).isSome then
        (fs, .error ("could not create " ++ temporary.display))
      else
        let created := fs.create temporary STATE_MODE
        match faults.write with
        | some written =>
            (created.append temporary (bytes.take written),
              .error ("could not write " ++ temporary.display))
        | none =>
            let body := created.append temporary bytes
            if faults.finish = false then
              (body, .error ("could not finish " ++ temporary.display))
            else
              let whole := body.append temporary [10]
              if faults.sync = false then
                (whole, .error ("could not sync " ++ temporary.display))
              else if faults.rename = false then
                (whole, .error ("could not replace " ++ path.display))
              else
                let replaced := whole.replace temporary path
                -- the new state is in place, and yet two steps may still fail
                if faults.open_directory = false ∨ faults.sync_directory = false then
                  (replaced, .error ("could not sync parent of " ++ path.display))
                else (replaced, .ok ())

/-- The hidden file a state is written to before it replaces the old one. -/
def temporaryOf (path : Path) (drawn : String) : Path :=
  ⟨path.parent, "." ++ path.name ++ "." ++ drawn ++ ".tmp"⟩

def save (json : Json) (path : Path) (state : PairingState) (faults : Faults) (fs : FileSystem) :
    FileSystem × Except String Unit :=
  if path.parent = "" then (fs, .error "pairing state path must have a parent directory")
  else if faults.create_dir_all = false then
    (fs, .error ("could not create " ++ path.parent))
  else if path.name = "" then (fs, .error "pairing state path must name a file")
  else
    let temporary := temporaryOf path faults.temporary
    let r := write_and_replace json faults temporary path state fs
    match r.2 with
    | .ok () => r
    | .error _ => (if faults.remove then r.1.remove_file temporary else r.1, r.2)

/-- The service over the file. -/
structure FileService where
  service : PairingService
  fs : FileSystem

/-- The reply of an operation whose `save` failed. -/
def unsaved : Reply → Bool
  | .authorized (.error .storage) | .updated (.error .storage) | .cleared none => true
  | _ => false

/-- The state an operation passes to `save`.  It gets that far if it would report the
    store's failure. -/
def draft (c : Primitives) (p : PairingService) (op : Operation) : Option PairingState :=
  if unsaved (perform c p false op).2 then some (perform c p true op).1.state else none

/-- Run a call over the file. -/
def FileService.perform (c : Primitives) (json : Json) (path : Path) (s : FileService)
    (op : Operation) (faults : Faults) : FileService × Reply :=
  match draft c s.service op with
  | none =>
      let r := PairingPolicy.perform c s.service true op
      (⟨r.1, s.fs⟩, r.2)
  | some next =>
      let w := save json path next faults s.fs
      let r := PairingPolicy.perform c s.service w.2.isOk op
      (⟨r.1, w.1⟩, r.2)

/-- `PairingService::open` over the file. -/
def open_file (c : Primitives) (json : Json) (path : Path) (server_id : Uuid) (faults : Faults)
    (fs : FileSystem) : Option FileService :=
  match load json path fs with
  | .error _ => none
  | .ok (some state) =>
      (open_service c (some (some state)) server_id true).map (fun service => ⟨service, fs⟩)
  | .ok none =>
      let w := save json path ⟨server_id, none⟩ faults fs
      (open_service c (some none) server_id w.2.isOk).map (fun service => ⟨service, w.1⟩)

/-! ## What one save can do -/

/-- The save gets past the rename, as far as the file system is concerned. -/
def Faults.renames (faults : Faults) : Bool :=
  faults.create_dir_all && faults.create_new && faults.write.isNone && faults.finish &&
    faults.sync && faults.rename

/-- Nothing fails after the rename. -/
def Faults.Atomic (faults : Faults) : Prop :=
  faults.renames = true → faults.open_directory = true ∧ faults.sync_directory = true

instance (faults : Faults) : Decidable faults.Atomic :=
  inferInstanceAs (Decidable (_ → _))

/-- The file holds the state, readable by its owner alone. -/
def Holds (json : Json) (path : Path) (state : PairingState) (fs : FileSystem) : Prop :=
  ∃ bytes mode, json.to_vec_pretty (.ofState state) = some bytes ∧ mode &&& 0o077 = 0 ∧
    fs.files path = some ⟨bytes ++ [10], mode⟩

/-- What a save leaves of the file, and what it reports. -/
inductive Saved (json : Json) (path : Path) (state : PairingState) (faults : Faults)
    (fs : FileSystem) : FileSystem → Except String Unit → Prop where
  | untouched {fs' e} : fs'.files path = fs.files path →
      Saved json path state faults fs fs' (.error e)
  | stored {fs'} : Holds json path state fs' → Saved json path state faults fs fs' (.ok ())
  /-- The state is stored, and the save fails. -/
  | stranded {fs' e} : ¬ faults.Atomic → Holds json path state fs' →
      Saved json path state faults fs fs' (.error e)

/-- The temporary file is another one: its name is longer. -/
theorem temporaryOf_ne (path : Path) (drawn : String) : path ≠ temporaryOf path drawn := by
  intro h
  have hlength := congrArg (fun p : Path => p.name.length) h
  simp only [temporaryOf, String.length_append] at hlength
  have hdot : ".".length = 1 := rfl
  omega

theorem append_other {fs : FileSystem} {path other : Path} (h : other ≠ path) (bytes : Bytes) :
    (fs.append path bytes).files other = fs.files other :=
  Function.update_of_ne h ..

theorem append_self {fs : FileSystem} {path : Path} {file : File} (h : fs.files path = some file)
    (bytes : Bytes) :
    (fs.append path bytes).files path = some { file with bytes := file.bytes ++ bytes } := by
  rw [FileSystem.append]
  simp only [h, Option.map_some]
  exact Function.update_self ..

/-- No mask lets others in. -/
theorem state_mode_private (umask : UInt32) : STATE_MODE &&& ~~~umask &&& 0o077 = 0 := by
  rw [UInt32.and_assoc, UInt32.and_comm (~~~umask), ← UInt32.and_assoc]
  show (0 : UInt32) &&& ~~~umask = 0
  exact UInt32.zero_and

/-- **Inversion of the replacement.** -/
theorem write_and_replace_cases (json : Json) {faults : Faults} {temporary path : Path}
    (hne : path ≠ temporary) (hdir : faults.create_dir_all = true) (state : PairingState)
    (fs : FileSystem) :
    Saved json path state faults fs (write_and_replace json faults temporary path state fs).1
      (write_and_replace json faults temporary path state fs).2 := by
  rw [write_and_replace]
  cases hbytes : json.to_vec_pretty (.ofState state) with
  | none => exact .untouched rfl
  | some bytes =>
      dsimp only
      split
      · exact .untouched rfl
      · rename_i hcreate
        obtain ⟨hnew, _⟩ := not_or.mp hcreate
        cases hwrite : faults.write with
        | some written =>
            refine .untouched ?_
            rw [append_other hne]
            exact Function.update_of_ne hne ..
        | none =>
            dsimp only
            have hempty : (fs.create temporary STATE_MODE).files temporary
                = some ⟨[], STATE_MODE &&& ~~~fs.umask⟩ := Function.update_self ..
            have hwhole := append_self (append_self hempty bytes) [10]
            split
            · refine .untouched ?_
              rw [append_other hne]
              exact Function.update_of_ne hne ..
            · rename_i hfinish
              have hold : (((fs.create temporary STATE_MODE).append temporary bytes).append
                  temporary [10]).files path = fs.files path := by
                rw [append_other hne, append_other hne]
                exact Function.update_of_ne hne ..
              split
              · exact .untouched hold
              · rename_i hsync
                split
                · exact .untouched hold
                · rename_i hrename
                  -- from here on the file is the new one
                  have hholds : Holds json path state
                      ((((fs.create temporary STATE_MODE).append temporary bytes).append
                        temporary [10]).replace temporary path) := by
                    refine ⟨bytes, _, hbytes, state_mode_private fs.umask, ?_⟩
                    rw [FileSystem.replace]
                    dsimp only
                    rw [Function.update_of_ne hne, Function.update_self, hwhole]
                    rfl
                  split
                  · rename_i hdirectory
                    refine .stranded ?_ hholds
                    intro hatomic
                    have hrenames : faults.renames = true := by
                      simp only [Faults.renames, hdir, hwrite, Option.isNone_none, Bool.and_true,
                        Bool.true_and, Bool.and_eq_true]
                      simp only [Bool.not_eq_false] at hnew hfinish hsync hrename
                      exact ⟨⟨⟨hnew, hfinish⟩, hsync⟩, hrename⟩
                    obtain ⟨hopened, hsynced⟩ := hatomic hrenames
                    rcases hdirectory with hfail | hfail
                    · cases hfail.symm.trans hopened
                    · cases hfail.symm.trans hsynced
                  · exact .stored hholds

/-- **Inversion of a save.** -/
theorem save_cases (json : Json) (path : Path) (state : PairingState) (faults : Faults)
    (fs : FileSystem) :
    Saved json path state faults fs (save json path state faults fs).1
      (save json path state faults fs).2 := by
  rw [save]
  split
  · exact .untouched rfl
  · split
    · exact .untouched rfl
    · rename_i hdir
      split
      · exact .untouched rfl
      · have hne := temporaryOf_ne path faults.temporary
        have hcases := write_and_replace_cases json hne ((Bool.not_eq_false _).mp hdir) state fs
        dsimp only
        -- removing the temporary file does not touch the state
        have hremoved : ∀ fs' : FileSystem,
            (if faults.remove = true then fs'.remove_file (temporaryOf path faults.temporary)
              else fs').files path = fs'.files path := by
          intro fs'
          split
          · exact Function.update_of_ne hne ..
          · rfl
        cases hresult : (write_and_replace json faults (temporaryOf path faults.temporary) path state
            fs).2 with
        | ok _ =>
            dsimp only
            rw [hresult] at hcases ⊢
            exact hcases
        | error e =>
            dsimp only
            rw [hresult] at hcases
            cases hcases with
            | untouched hsame => exact .untouched ((hremoved _).trans hsame)
            | stranded hbroken hholds =>
                obtain ⟨bytes, mode, hbytes, hmode, hfile⟩ := hholds
                exact .stranded hbroken ⟨bytes, mode, hbytes, hmode, (hremoved _).trans hfile⟩

/-! ## What a restart loads -/

theorem load_holds {json : Json} (hjson : json.RoundTrips) {path : Path} {state : PairingState}
    {fs : FileSystem} (h : Holds json path state fs) : load json path fs = .ok (some state) := by
  obtain ⟨bytes, mode, hbytes, hmode, hfile⟩ := h
  rw [load, hfile]
  dsimp only
  rw [if_neg (not_not.mpr hmode), hjson _ _ hbytes]
  rfl

theorem load_congr {json : Json} {path : Path} {fs fs' : FileSystem}
    (h : fs'.files path = fs.files path) : load json path fs' = load json path fs := by
  rw [load, load, h]

/-- An operation that saves nothing changes nothing. -/
theorem draft_none {c : Primitives} {p : PairingService} {op : Operation}
    (h : draft c p op = none) (saved : Bool) : (perform c p saved op).1 = p := by
  have hcases := perform_cases c p saved op
  generalize (perform c p saved op).1 = p' at hcases ⊢
  generalize (perform c p saved op).2 = reply at hcases
  cases hcases with
  | refused _ | free _ => rfl
  | paired _ hc =>
      simp [draft, perform, PairingService.pair, hc, unsaved] at h
  | authenticated _ hc hhash =>
      simp [draft, perform, PairingService.authenticate, hc, hhash, unsaved] at h
  | subscribed _ hc =>
      simp [draft, perform, PairingService.set_push_subscription, PairingService.update, hc,
        unsaved] at h
  | identified _ hc hvalid =>
      simp [draft, perform, PairingService.set_identities, PairingService.update, hc, hvalid,
        unsaved] at h
  | cleared _ hc => simp [draft, perform, PairingService.clear, hc, unsaved] at h

/-- An operation whose save fails changes nothing. -/
theorem perform_unsaved (c : Primitives) (p : PairingService) (op : Operation) :
    (perform c p false op).1 = p := by
  have hcases := perform_cases c p false op
  generalize (perform c p false op).1 = p' at hcases ⊢
  generalize (perform c p false op).2 = reply at hcases
  cases hcases with
  | refused _ | free _ => rfl
  | paired hs _ | authenticated hs _ _ | subscribed hs _ | identified hs _ _ | cleared hs _ =>
      cases hs

/-- An operation that gets as far as its save succeeds with it. -/
theorem saved_ok {c : Primitives} {p : PairingService} {op : Operation}
    (h : unsaved (perform c p false op).2 = true) : (perform c p true op).2.isErr = false := by
  cases op with
  | pair label client_id credential now =>
      simp only [perform, PairingService.pair] at h ⊢
      cases hc : p.state.client with
      | some client => simp [hc, unsaved] at h
      | none =>
          cases credential with
          | none => simp [hc, unsaved] at h
          | some credential => rfl
  | authenticate client_id credential now =>
      simp only [perform, PairingService.authenticate] at h ⊢
      cases hc : p.state.client with
      | none => simp [hc, unsaved] at h
      | some client =>
          simp only [hc] at h ⊢
          split
          · rename_i hne
            rw [if_pos hne] at h
            cases h
          · rfl
  | set_push_subscription client_id subscription =>
      simp only [perform, PairingService.set_push_subscription, PairingService.update] at h ⊢
      cases hc : p.state.client with
      | none => simp [hc, unsaved] at h
      | some client =>
          simp only [hc] at h ⊢
          split
          · rename_i hne
            rw [if_pos hne] at h
            cases h
          · rfl
  | set_identities client_id identities =>
      simp only [perform, PairingService.set_identities, PairingService.update] at h ⊢
      split
      · rename_i hvalid
        rw [if_pos hvalid] at h
        cases hc : p.state.client with
        | none => simp [hc, unsaved] at h
        | some client =>
            simp only [hc] at h ⊢
            by_cases hne : client.client_id ≠ client_id
            · rw [if_pos hne] at h
              cases h
            · rw [if_neg hne]
              rfl
      · rename_i hinvalid
        rw [if_neg hinvalid] at h
        cases h
  | clear =>
      simp only [perform, PairingService.clear] at h ⊢
      cases hc : p.state.client with
      | none => simp [hc, unsaved] at h
      | some client => rfl

/-- An operation whose save succeeds has made its draft the state. -/
theorem draft_some {c : Primitives} {p : PairingService} {op : Operation} {next : PairingState}
    (h : draft c p op = some next) :
    (perform c p true op).1.state = next ∧ (perform c p true op).2.isErr = false := by
  rw [draft] at h
  split at h
  · rename_i hunsaved
    exact ⟨Option.some.inj h, saved_ok hunsaved⟩
  · cases h

/-- A restart would load what the service has in memory. -/
def Mirrored (json : Json) (path : Path) (s : FileService) : Prop :=
  load json path s.fs = .ok (some s.service.state)

/-- **Step lemma.**  An operation during which nothing fails after a rename keeps
    file and memory together, and if it fails the file is what it was. -/
theorem perform_mirrored {c : Primitives} {json : Json} (hjson : json.RoundTrips) {path : Path}
    {s : FileService} (h : Mirrored json path s) (op : Operation) {faults : Faults}
    (hatomic : faults.Atomic) :
    Mirrored json path (s.perform c json path op faults).1 ∧
      ((s.perform c json path op faults).2.isErr = true →
        (s.perform c json path op faults).1.fs.files path = s.fs.files path) := by
  rw [FileService.perform]
  cases hdraft : draft c s.service op with
  | none =>
      refine ⟨?_, fun _ => rfl⟩
      show load json path s.fs = .ok (some (perform c s.service true op).1.state)
      rw [draft_none hdraft]
      exact h
  | some next =>
      dsimp only
      have hcases := save_cases json path next faults s.fs
      generalize (save json path next faults s.fs).1 = fs' at hcases ⊢
      generalize (save json path next faults s.fs).2 = result at hcases ⊢
      cases hcases with
      | untouched hsame =>
          refine ⟨?_, fun _ => hsame⟩
          show load json path fs' = .ok (some (perform c s.service false op).1.state)
          rw [perform_unsaved, load_congr hsame]
          exact h
      | stored hholds =>
          obtain ⟨hstate, hok⟩ := draft_some hdraft
          constructor
          · show load json path fs' = .ok (some (perform c s.service true op).1.state)
            rw [hstate]
            exact load_holds hjson hholds
          · intro herr
            cases hok.symm.trans herr
      | stranded hbroken _ => exact absurd hatomic hbroken

theorem open_mirrored {c : Primitives} {json : Json} (hjson : json.RoundTrips) {path : Path}
    {server_id : Uuid} {faults : Faults} {fs : FileSystem} {s : FileService}
    (h : open_file c json path server_id faults fs = some s) : Mirrored json path s := by
  have hstate : ∀ {state : PairingState} {service}, serviceOf c state = some service →
      service.state = state := by
    intro state service hs
    rw [serviceOf] at hs
    split at hs
    · rw [← Option.some.inj hs]
    · cases hs
  rw [open_file] at h
  split at h
  · cases h
  · rename_i state hload
    obtain ⟨service, hservice, rfl⟩ := Option.map_eq_some_iff.mp h
    show load json path fs = .ok (some service.state)
    rw [hload, hstate hservice]
  · have hcases := save_cases json path ⟨server_id, none⟩ faults fs
    generalize save json path ⟨server_id, none⟩ faults fs = w at hcases h
    obtain ⟨fs', result⟩ := w
    obtain ⟨service, hservice, rfl⟩ := Option.map_eq_some_iff.mp h
    cases hcases with
    | untouched _ => cases hservice
    | stranded _ _ => cases hservice
    | stored hholds =>
        have hnew : serviceOf c ⟨server_id, none⟩ = some service := hservice
        show load json path fs' = .ok (some service.state)
        rw [hstate hnew]
        exact load_holds hjson hholds

/-- A call over the file as a step. -/
def FileService.call (c : Primitives) (json : Json) (path : Path) (s : FileService)
    (call : Operation × Faults) : Option (FileService × Reply) :=
  some (s.perform c json path call.1 call.2)

/-- The save of the call, if it makes one, does not fail after its rename. -/
abbrev AtomicCall (_ : FileService) (call : Operation × Faults) : Prop := call.2.Atomic

/-- Histories of the service over its file in which all saves meet a condition. -/
abbrev FileRun (c : Primitives) (json : Json) (path : Path)
    (ok : FileService → Operation × Faults → Prop) :
    FileService → List ((Operation × Faults) × Reply) → FileService → Prop :=
  Run (Fires (FileService.call c json path) ok)

/-- **Failed durable updates change nothing**, as long as nothing fails after a
    rename: along every such history of a service opened over its file, a restart
    loads exactly the state in memory, and an operation that fails leaves the file as
    it was. -/
theorem file_mirrors_memory {c : Primitives} {json : Json} (hjson : json.RoundTrips) {path : Path}
    {server_id : Uuid} {opening : Faults} {fs : FileSystem} {s₀ s : FileService}
    (hopen : open_file c json path server_id opening fs = some s₀)
    {h : List ((Operation × Faults) × Reply)}
    (hr : FileRun c json path AtomicCall s₀ h s) :
    load json path s.fs = .ok (some s.service.state) ∧
      ∀ op faults, faults.Atomic → (s.perform c json path op faults).2.isErr = true →
        (s.perform c json path op faults).1.fs.files path = s.fs.files path := by
  have hmirrored : Mirrored json path s := by
    refine hr.invariant (Mirrored json path) (open_mirrored hjson hopen) ?_
    rintro t ⟨⟨op, faults⟩, reply⟩ t' ht ⟨hatomic, hstep⟩
    rw [← show (t.perform c json path op faults).1 = t' from
      congrArg Prod.fst (Option.some.inj hstep)]
    exact (perform_mirrored hjson ht op hatomic).1
  refine ⟨hmirrored, ?_⟩
  intro op faults hatomic
  exact (perform_mirrored hjson hmirrored op hatomic).2

/-- The file of a server. -/
def statePath : Path := ⟨"/var/lib", "pairing.json"⟩

/-- A credential of the length that `pair` draws. -/
def credential : Bytes := List.replicate 32 7

/-- A phone's record. -/
def phone : PairedClient := newClient plainPrimitives "phone" ⟨1⟩ credential 0

/-- The unpaired state as `serde_json` prints it, up to the client. -/
def headText : String :=
  "\x7b\n  \"version\": 1,\n  \"server_id\": \"00000000-0000-0000-0000-000000000064\",\n"

def unpairedText : Bytes := (headText ++ "  \"client\": null\n\x7d").toUTF8.data.toList

/-- The state with the phone.  Fields that are absent and skipped are not printed. -/
def pairedText : Bytes :=
  (headText ++ "  \"client\": \x7b\n"
    ++ "    \"client_id\": \"00000000-0000-0000-0000-000000000001\",\n"
    ++ "    \"credential_hash\": [\n" ++ String.join (List.replicate 31 "      7,\n")
    ++ "      7\n    ],\n    \"label\": \"phone\",\n    \"created_at\": 0,\n"
    ++ "    \"last_seen_at\": null\n  \x7d\n\x7d").toUTF8.data.toList

/-- `serde_json` on two states, without and with the phone. -/
def twoStates : Json where
  to_vec_pretty := fun state =>
    if state = .ofState ⟨⟨100⟩, none⟩ then some unpairedText
    else if state = .ofState ⟨⟨100⟩, some phone⟩ then some pairedText else none
  from_slice := fun bytes =>
    if bytes = unpairedText ++ [10] then some (.ofState ⟨⟨100⟩, none⟩)
    else if bytes = pairedText ++ [10] then some (.ofState ⟨⟨100⟩, some phone⟩) else none

theorem twoStates_roundTrips : twoStates.RoundTrips := by
  intro state bytes h
  simp only [twoStates] at h
  split at h
  · rename_i hstate
    rw [← Option.some.inj h, hstate]
    simp only [twoStates, ↓reduceIte]
  · split at h
    · rename_i hstate
      have hdiffer : pairedText ++ [10] ≠ unpairedText ++ [10] := by decide +kernel
      rw [← Option.some.inj h, hstate]
      simp only [twoStates, hdiffer, ↓reduceIte]
    · cases h

/-- A file system that does everything it is asked. -/
def willing : Faults := ⟨true, true, none, true, true, true, true, true, true, "a"⟩

/-- One that cannot sync the directory. -/
def unsynced : Faults := { willing with sync_directory := false }

/-- One that cannot write. -/
def full : Faults := { willing with write := some 0, temporary := "b" }

/-- An empty disk. -/
def emptyDisk : FileSystem := ⟨fun _ => none, 0o022⟩

/-- A server opened on an empty disk. -/
def openedServer : FileService :=
  (open_file plainPrimitives twoStates statePath ⟨100⟩ willing emptyDisk).getD
    ⟨freshService, emptyDisk⟩

/-- The phone asks to pair. -/
def pairPhone : Operation := .pair "phone" ⟨1⟩ (some credential) 0

/-- Its pairing fails on a full disk and succeeds on the next try. -/
def retried : List ((Operation × Faults) × Reply) × FileService :=
  outcome (FileService.call plainPrimitives twoStates statePath) AtomicCall openedServer
    [(pairPhone, full), (pairPhone, willing)]

theorem file_mirrors_memory_retried :
    load twoStates statePath retried.2.fs = .ok (some retried.2.service.state) ∧
      retried.2.service.state = ⟨⟨100⟩, some phone⟩ := by
  refine ⟨?_, by decide +kernel⟩
  have hopen : open_file plainPrimitives twoStates statePath ⟨100⟩ willing emptyDisk
      = some openedServer := by
    have hsome : (open_file plainPrimitives twoStates statePath ⟨100⟩ willing emptyDisk).isSome
        = true := by decide +kernel
    obtain ⟨opened, heq⟩ := Option.isSome_iff_exists.mp hsome
    rw [openedServer, heq]
    rfl
  exact (file_mirrors_memory twoStates_roundTrips hopen (run_outcome
    (FileService.call plainPrimitives twoStates statePath) AtomicCall
    [(pairPhone, full), (pairPhone, willing)] (by decide +kernel))).1

/-- **The stranded pairing.**  The directory cannot be synced: the phone is told that
    the pairing could not be saved and the server is unpaired in memory, but after a
    restart it is paired with a credential that nobody has. -/
theorem unsynced_directory_strands_pairing :
    (openedServer.perform plainPrimitives twoStates statePath pairPhone unsynced).2
        = .authorized (.error .storage) ∧
      (openedServer.perform plainPrimitives twoStates statePath pairPhone unsynced).1.service.state
        = ⟨⟨100⟩, none⟩ ∧
      load twoStates statePath
          (openedServer.perform plainPrimitives twoStates statePath pairPhone unsynced).1.fs
        = .ok (some ⟨⟨100⟩, some phone⟩) := by
  decide +kernel

end PairingFile
