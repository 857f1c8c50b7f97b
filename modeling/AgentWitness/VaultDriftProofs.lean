import AgentWitness.TransitionProofs
import AgentWitness.VaultModelProofs

/-! # The vault record and the key blobs

    Several windows over one store.  Every call writes in one transaction, yet the
    record it writes is rebuilt from the copy its STATE holds, and a state may be older
    than the store.  A history is a sequence of completed calls on any states obtained
    so far; nothing orders the states.

    Under a call whose copy agrees with the stored record, up to the one id the call
    itself changes, record and blobs move by the same `Effect`.  A copy that differs in
    any other id takes the record somewhere the blobs do not follow. -/

namespace VaultDrift

open Packet KeyedMap Transition VaultModel

/-! ## Windows over one store -/

/-- The store, and every vault state obtained over it, newest first. -/
structure Windows where
  store : Store
  states : List VaultState
  deriving DecidableEq

/-- A store nobody has opened. -/
def Windows.start : Windows := ⟨.fresh, []⟩

/-- What a window does: open the vault, or call a method of a state it holds. -/
inductive Action where
  | openVault
  | call (state : VaultState) (op : Operation) (d : Draws)
  deriving DecidableEq

/-- What an action returns. -/
abbrev Reply := Except Failure VaultState

/-- The windows after a call has returned. -/
def Windows.after (w : Windows) (result : Reply × Store) : Windows where
  store := result.2
  states :=
    match result.1 with
    | .ok state => state :: w.states
    | .error _ => w.states

/-- One completed action. -/
def next (p : Platform) (w : Windows) : Action → Option (Windows × Reply)
  | .openVault => some (w.after (.ok (VaultModel.openVault w.store), w.store),
      .ok (VaultModel.openVault w.store))
  | .call state op d =>
      if state ∈ w.states then
        (state.call p d op).map (fun m => (w.after (m w.store), (m w.store).1))
      else none

/-- The actions and replies of a run, oldest first. -/
abbrev History := List (Action × Reply)

theorem next_called {p : Platform} {w w' : Windows} {state : VaultState} {op : Operation}
    {d : Draws} {reply : Reply} (h : next p w (.call state op d) = some (w', reply)) :
    state ∈ w.states ∧ Called p d w.store state op reply w'.store ∧
      w' = w.after (reply, w'.store) := by
  rw [next] at h
  split at h
  · rename_i hmem
    obtain ⟨m, hm, heq⟩ := Option.map_eq_some_iff.mp h
    obtain ⟨rfl, rfl⟩ := Prod.mk.inj heq
    exact ⟨hmem, call_called p hm w.store, rfl⟩
  · cases h

/-! ## What the two object stores list -/

/-- The ids a record lists; none without a record. -/
def listed (vault : Option Vault) : List String := (vault.map Vault.ids).getD []

/-- The record lists exactly the ids that have a blob. -/
def InStep (store : Store) : Prop := ∀ id, id ∈ listed store.vault ↔ id ∈ store.keys.keys

/-- Two lists of ids agree, apart from one id. -/
def AgreeApart (changed : Option String) (ids ids' : List String) : Prop :=
  (∀ id ∈ ids, some id ≠ changed → id ∈ ids') ∧ ∀ id ∈ ids', some id ≠ changed → id ∈ ids

instance (changed : Option String) (ids ids' : List String) :
    Decidable (AgreeApart changed ids ids') :=
  inferInstanceAs (Decidable (_ ∧ _))

/-- The state a writing call is made on lists the ids the stored record lists, apart
    from the id the call adds or removes.  A `removeKey` of a key its state does not list
    writes nothing. -/
def Agrees (w : Windows) : Action → Prop
  | .call state (.createVault _) _ => AgreeApart none (listed state.vault) (listed w.store.vault)
  | .call state (.addKey _ _) d =>
      AgreeApart (some d.uuid) (listed state.vault) (listed w.store.vault)
  | .call state (.removeKey keyId) _ =>
      keyId ∈ listed state.vault →
        AgreeApart (some keyId) (listed state.vault) (listed w.store.vault)
  | _ => True

instance (w : Windows) (action : Action) : Decidable (Agrees w action) := by
  unfold Agrees
  split <;> infer_instance

/-- The call is about to complete, and not to be rejected. -/
def completes (p : Platform) (w : Windows) (action : Action) : Bool :=
  (next p w action).any (fun r => r.2.isOk)

/-- A writing call that completes is made on a state that agrees with the store. -/
def UpToDate (p : Platform) (w : Windows) (action : Action) : Prop :=
  completes p w action = true → Agrees w action

instance (p : Platform) (w : Windows) (action : Action) : Decidable (UpToDate p w action) :=
  inferInstanceAs (Decidable (_ → _))

/-- Any action at all. -/
def AnyAction (_ : Windows) (_ : Action) : Prop := True

instance (w : Windows) (action : Action) : Decidable (AnyAction w action) :=
  inferInstanceAs (Decidable True)

/-! ## Record and blobs move together -/

/-- How a call changes a set of ids. -/
inductive Effect where
  | nothing
  | put (id : String)
  | remove (id : String)
  | clear

/-- The set after the change. -/
def Effect.on (ids : String → Prop) : Effect → String → Prop
  | .nothing, id => ids id
  | .put added, id => id = added ∨ ids id
  | .remove gone, id => id ≠ gone ∧ ids id
  | .clear, _ => False

/-- The effects a completed call can have. -/
def Effect.Of (d : Draws) : Operation → Effect → Prop
  | .addKey _ _, effect => effect = .put d.uuid
  | .removeKey keyId, effect => effect = .nothing ∨ effect = .remove keyId
  | .destroy, effect => effect = .clear
  | .createVault _, effect | .unlock _, effect | .lock, effect => effect = .nothing

/-- Both object stores change by the effect. -/
structure Shifted (store store' : Store) (effect : Effect) : Prop where
  record : ∀ id, id ∈ listed store'.vault ↔ effect.on (· ∈ listed store.vault) id
  blobs : ∀ id, id ∈ store'.keys.keys ↔ effect.on (· ∈ store.keys.keys) id

theorem Shifted.refl (store : Store) : Shifted store store .nothing :=
  ⟨fun _ => Iff.rfl, fun _ => Iff.rfl⟩

theorem mem_keys_insert (m : Map String EncryptedKey) (k id : String) (v : EncryptedKey) :
    id ∈ (m.insert k v).keys ↔ id = k ∨ id ∈ m.keys := by
  rw [mem_keys_iff, mem_keys_iff, get?_insert]
  by_cases h : id = k
  · simp [h]
  · simp [h]

theorem mem_keys_erase (m : Map String EncryptedKey) (k id : String) :
    id ∈ (m.erase k).keys ↔ id ≠ k ∧ id ∈ m.keys := by
  rw [mem_keys_iff, mem_keys_iff, get?_erase]
  by_cases h : id = k
  · simp [h]
  · simp [h]

theorem mem_ids_adding {vault : Vault} {added : PrivateKeyMeta} {id : String} :
    id ∈ (vault.adding added).ids ↔ id = added.id ∨ id ∈ vault.ids := by
  simp only [Vault.adding, Vault.ids, List.map_append, List.map_cons, List.map_nil,
    List.mem_append, List.mem_singleton]
  exact or_comm

theorem mem_ids_without {vault : Vault} {keyId id : String} :
    id ∈ (vault.without keyId).ids ↔ id ≠ keyId ∧ id ∈ vault.ids := by
  simp only [Vault.without, Vault.ids, List.mem_map, List.mem_filter, bne_iff_ne]
  constructor
  · rintro ⟨key, ⟨hkey, hne⟩, rfl⟩
    exact ⟨hne, key, hkey, rfl⟩
  · rintro ⟨hne, key, hkey, rfl⟩
    exact ⟨key, ⟨hkey, hne⟩, rfl⟩

theorem AgreeApart.iff {changed : Option String} {ids ids' : List String}
    (h : AgreeApart changed ids ids') {id : String} (hne : some id ≠ changed) :
    id ∈ ids ↔ id ∈ ids' :=
  ⟨fun hid => h.1 id hid hne, fun hid => h.2 id hid hne⟩

/-- A call on an up-to-date state moves record and blobs alike. -/
theorem called_shifted {p : Platform} {d : Draws} {w : Windows} {state state' : VaultState}
    {op : Operation} {store' : Store} (h : Called p d w.store state op (.ok state') store')
    (hok : Agrees w (.call state op d)) :
    ∃ effect, Effect.Of d op effect ∧ Shifted w.store store' effect := by
  cases h with
  | created _ _ =>
      refine ⟨.nothing, rfl, ?_, fun _ => Iff.rfl⟩
      intro id
      exact AgreeApart.iff hok (fun h => by cases h)
  | unlocked _ => exact ⟨.nothing, rfl, .refl _⟩
  | @added vault _ _ _ parsed _ _ _ _ _ _ =>
      refine ⟨.put d.uuid, rfl, ?_, fun id => mem_keys_insert _ _ _ _⟩
      intro id
      show id ∈ (vault.adding (newEntry p d parsed _)).ids ↔ id = d.uuid ∨ _
      rw [mem_ids_adding]
      by_cases hid : id = d.uuid
      · exact ⟨fun _ => Or.inl hid, fun _ => Or.inl hid⟩
      · exact or_congr Iff.rfl (AgreeApart.iff hok (fun heq => hid (Option.some.inj heq)))
  | absent _ _ => exact ⟨.nothing, Or.inl rfl, .refl _⟩
  | @removed _ vault keyId hvault hlisted =>
      have hcopy : listed state.vault = vault.ids := by rw [hvault]; rfl
      have hagree := hok (by rw [hcopy]; exact hlisted)
      rw [hcopy] at hagree
      refine ⟨.remove keyId, Or.inr rfl, ?_, fun id => mem_keys_erase _ _ _⟩
      intro id
      show id ∈ (vault.without keyId).ids ↔ id ≠ keyId ∧ _
      rw [mem_ids_without]
      refine and_congr_right ?_
      intro hne
      exact hagree.iff (fun heq => hne (Option.some.inj heq))
  | locked => exact ⟨.nothing, rfl, .refl _⟩
  | destroyed _ =>
      refine ⟨.clear, rfl, ?_, ?_⟩
      · intro id
        exact ⟨fun h => (List.not_mem_nil h).elim, False.elim⟩
      · intro id
        exact ⟨fun h => (List.not_mem_nil h).elim, False.elim⟩

/-! ## Runs -/

/-- A completed `addKey` whose entry has this id. -/
def Added (id : String) (l : Action × Reply) : Prop :=
  ∃ state pem comment d state',
    l = (.call state (.addKey pem comment) d, .ok state') ∧ d.uuid = id

/-- Neither a completed `removeKey` of this id nor a completed `destroy`. -/
def Spares (id : String) (l : Action × Reply) : Prop :=
  ∀ state op d state', l = (.call state op d, .ok state') → op ≠ .removeKey id ∧ op ≠ .destroy

/-- Record and blobs list the same ids, and every added key is among them until it is
    removed or the vault destroyed. -/
structure Kept (h : History) (store : Store) : Prop where
  inStep : InStep store
  added : ∀ id, Since (Added id) (Spares id) h → id ∈ listed store.vault

theorem Shifted.inStep {store store' : Store} {effect : Effect} (hs : Shifted store store' effect)
    (h : InStep store) : InStep store' := by
  intro id
  rw [hs.record, hs.blobs]
  cases effect with
  | nothing => exact h id
  | put added => exact or_congr Iff.rfl (h id)
  | remove gone => exact and_congr Iff.rfl (h id)
  | clear => exact Iff.rfl

/-- A listed id stays listed unless the effect takes it away. -/
theorem Effect.on_spared {d : Draws} {op : Operation} {effect : Effect} (hof : Effect.Of d op effect)
    {ids : String → Prop} {id : String} (hid : ids id) (hremove : op ≠ .removeKey id)
    (hdestroy : op ≠ .destroy) : effect.on ids id := by
  cases effect with
  | nothing => exact hid
  | put added => exact Or.inr hid
  | remove gone =>
      refine ⟨?_, hid⟩
      rintro rfl
      cases op with
      | removeKey keyId =>
          rcases hof with hof | hof
          · cases hof
          · exact hremove (congrArg Operation.removeKey (Effect.remove.inj hof).symm)
      | _ => cases hof
  | clear =>
      cases op with
      | destroy => exact hdestroy rfl
      | removeKey keyId =>
          rcases hof with hof | hof
          · cases hof
          · cases hof
      | _ => cases hof

/-- An action that leaves the store alone adds nothing. -/
theorem Kept.idle {h : History} {store : Store} (hk : Kept h store) {l : Action × Reply}
    (hl : ∀ id, ¬ Added id l) : Kept (h ++ [l]) store := by
  refine ⟨hk.inStep, ?_⟩
  intro id hsince
  rcases since_snoc.mp hsince with hadded | ⟨_, hsince⟩
  · exact absurd hadded (hl id)
  · exact hk.added id hsince

/-- **Step lemma.** -/
theorem next_kept {p : Platform} {h : History} {w w' : Windows} {l : Action × Reply}
    (hk : Kept h w.store) (hfires : Fires (next p) (UpToDate p) w l w') :
    Kept (h ++ [l]) w'.store := by
  obtain ⟨action, reply⟩ := l
  obtain ⟨hok, hnext⟩ := hfires
  cases action with
  | openVault =>
      obtain ⟨rfl, rfl⟩ := Prod.mk.inj (Option.some.inj hnext)
      refine hk.idle ?_
      rintro id ⟨_, _, _, _, _, heq, _⟩
      cases heq
  | call state op d =>
      obtain ⟨_, hcalled, _⟩ := next_called hnext
      cases reply with
      | error failure =>
          rw [hcalled.store_of_rejected]
          refine hk.idle ?_
          rintro id ⟨_, _, _, _, _, heq, _⟩
          cases heq
      | ok state' =>
          have hcompletes : completes p w (.call state op d) = true := by
            rw [completes, hnext]
            rfl
          obtain ⟨effect, hof, hshift⟩ := called_shifted hcalled (hok hcompletes)
          refine ⟨hshift.inStep hk.inStep, ?_⟩
          intro id hsince
          rw [hshift.record]
          rcases since_snoc.mp hsince with hadded | ⟨hspares, hsince⟩
          · obtain ⟨_, _, _, d', _, heq, hid⟩ := hadded
            obtain ⟨hcall, _⟩ := Prod.mk.inj heq
            obtain ⟨_, rfl, rfl⟩ := Action.call.inj hcall
            rw [show effect = .put d.uuid from hof]
            exact Or.inl hid.symm
          · obtain ⟨hremove, hdestroy⟩ := hspares state op d state' rfl
            exact Effect.on_spared hof (hk.added id hsince) hremove hdestroy

/-- **No drift.**  In every history of calls over one store whose completed writing calls
    are made on up-to-date states, the stored record lists exactly the ids that have a blob, and
    every key whose `addKey` completed is listed until a `removeKey` of it or a `destroy`
    completes. -/
theorem record_and_blobs_in_step {p : Platform} {h : History} {w : Windows}
    (hr : Run (Fires (next p) (UpToDate p)) .start h w) :
    InStep w.store ∧ ∀ id, Since (Added id) (Spares id) h → id ∈ listed w.store.vault := by
  have hkept : Kept h w.store := by
    refine hr.invariant_of_history (fun _ => True) (fun h w => Kept h w.store) ?_ ?_ ?_ trivial
    · intro _ _ _
      trivial
    · exact ⟨fun _ => Iff.rfl, fun _ hsince => (not_since_nil hsince).elim⟩
    · intro h w l w' _ hk hfires
      exact next_kept hk hfires
  exact ⟨hkept.inStep, hkept.added⟩

/-- A platform that stores keys as they are: a PEM text is its own public blob, and a
    wrapped key its own secret. -/
def plainPlatform : Platform where
  hkdf prfOutput _ _ := .ok prfOutput
  wrapKey _ key _ _ _ := .ok key.material
  unwrapKey _ ciphertext _ _ _ importParams extractable usages :=
    .ok ⟨ciphertext, importParams, extractable, usages⟩
  digest bytes := bytes
  btoa bytes := String.ofList (bytes.map (fun byte => Char.ofNat byte.toNat))
  parseOpenSSHPrivateKey pem := .ok (.ed25519 pem (encodeText pem) [] (encodeText pem))
  importSSHKey
    | .ed25519 _ _ _ seed => .ok ⟨seed, .ed25519, true, [.sign]⟩
    | .rsa .. | .ecdsa .. => .error "not supported"
  sshSign key _ data _ := .ok (key.material ++ data)

/-- The draws of a call that generates this UUID. -/
def drawing (uuid : String) : Draws := ⟨⟨List.replicate 12 0, rfl⟩, [7], uuid, 0, none, 0⟩

/-- A passkey to create a vault with. -/
def phonePasskey : CreateVaultParams := ⟨[1], [2], [3], "phone"⟩

/-- The record right after its creation. -/
def createdVault : Vault := newVault (drawing "vault") phonePasskey (List.replicate 12 0 ++ [7])

/-- The vault right after its creation. -/
def createdState : VaultState := .unlockedVault createdVault (generateMasterKey [7])

/-- The vault with one key. -/
def oneKeyState (id pem : String) : VaultState :=
  .unlockedVault
    (createdVault.adding (newEntry plainPlatform (drawing id)
      (.ed25519 pem (encodeText pem) [] (encodeText pem)) none))
    (generateMasterKey [7])

/-- A key is added, a second one to the state the first call returned, and a third to the
    first state again, whose transaction aborts. -/
def addInTurn : List Action :=
  [.openVault, .call .noVault (.createVault phonePasskey) (drawing "vault"),
    .call createdState (.addKey "A" none) (drawing "a"),
    .call (oneKeyState "a" "A") (.addKey "B" none) (drawing "b"),
    .call createdState (.addKey "C" none) { drawing "c" with aborted := some "quota exceeded" }]

/-- Adding in turn keeps both keys. -/
theorem record_and_blobs_in_step_added :
    let r := outcome (next plainPlatform) (UpToDate plainPlatform) .start addInTurn
    listed r.2.store.vault = ["a", "b"] ∧ InStep r.2.store := by
  have hrun : Run (Fires (next plainPlatform) (UpToDate plainPlatform)) .start
      (outcome (next plainPlatform) (UpToDate plainPlatform) .start addInTurn).1
      (outcome (next plainPlatform) (UpToDate plainPlatform) .start addInTurn).2 :=
    run_outcome (next plainPlatform) (UpToDate plainPlatform) addInTurn (by decide)
  exact ⟨by decide, (record_and_blobs_in_step hrun).1⟩

theorem spares_addKey (id : String) (state : VaultState) (pem : String) (comment : Option String)
    (d : Draws) (reply : Reply) : Spares id (.call state (.addKey pem comment) d, reply) := by
  intro state' op d' _ heq
  obtain ⟨_, rfl, _⟩ := Action.call.inj (Prod.mk.inj heq).1
  exact ⟨(by rintro ⟨⟩), (by rintro ⟨⟩)⟩

/-- Two keys are added to the same state, as two windows or two overlapping calls do. -/
def addTwice : List Action :=
  [.openVault, .call .noVault (.createVault phonePasskey) (drawing "vault"),
    .call createdState (.addKey "A" none) (drawing "a"),
    .call createdState (.addKey "B" none) (drawing "b")]

/-- **A stale copy loses a key.**  Both `addKey` calls complete and both blobs are
    stored, but the record lists the second key only. -/
theorem stale_add_loses_key :
    let r := outcome (next plainPlatform) AnyAction .start addTwice
    Run (Fires (next plainPlatform) AnyAction) .start r.1 r.2 ∧
      (Since (Added "a") (Spares "a") r.1 ∧ "a" ∉ listed r.2.store.vault) ∧ ¬ InStep r.2.store := by
  have hrun : Run (Fires (next plainPlatform) AnyAction) .start
      (outcome (next plainPlatform) AnyAction .start addTwice).1
      (outcome (next plainPlatform) AnyAction .start addTwice).2 :=
    run_outcome (next plainPlatform) AnyAction addTwice (by decide)
  have hlost : "a" ∉ listed (outcome (next plainPlatform) AnyAction .start addTwice).2.store.vault := by
    decide
  refine ⟨hrun, ⟨?_, hlost⟩, ?_⟩
  · refine ⟨(outcome (next plainPlatform) AnyAction .start (addTwice.take 2)).1,
      (.call createdState (.addKey "A" none) (drawing "a"), .ok (oneKeyState "a" "A")),
      [(.call createdState (.addKey "B" none) (drawing "b"), .ok (oneKeyState "b" "B"))],
      by decide, ?_, ?_⟩
    · exact ⟨_, _, _, _, _, rfl, rfl⟩
    · intro l hl
      obtain rfl := List.mem_singleton.mp hl
      exact spares_addKey _ _ _ _ _ _
  · intro hstep
    exact hlost ((hstep "a").mpr (by decide))

end VaultDrift
