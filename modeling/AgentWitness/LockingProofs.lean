import AgentWitness.VaultDriftProofs
import AgentWitness.WorkerProofs

/-! # When a lock is final

    A call of the worker stores what became of the state it CAPTURED, whatever has
    happened to the vault state in the meantime.  So a lock is final exactly when no call
    that may still store an unlocked state is under way: a call that has captured an
    unlocked state, or one that is about to unlock or create.

    After such a lock the vault is closed to every call that was there, and only a call
    started later can open it. -/

namespace Locking

open Packet KeyedMap RemoteProtocol RemoteClient VaultModel Worker Transition

/-! ## Calls that may still unlock -/

/-- The calls that open a vault. -/
def isOpening : Call → Bool
  | .createVault _ | .unlock _ => true
  | _ => false

/-- Made on this state, the call may return an unlocked one. -/
def reaches : Call → VaultState → Bool
  | .createVault _, .noVault => true
  | .unlock _, .lockedVault _ => true
  | .addKey _ _, .unlockedVault _ _ => true
  | .removeKey _, .unlockedVault _ _ => true
  | _, _ => false

/-- The call may still store an unlocked state. -/
def mayUnlock (task : Task) : Bool :=
  match task.stage with
  | .loading .body => isOpening task.call
  | .loaded state .body | .holding state .body | .operating state => reaches task.call state
  | .operated _ (.ok state) => state.isUnlocked
  | .loading .answer | .loaded _ .answer | .holding _ .answer | .operated _ (.error _) | .remote =>
      false

/-- On a state that is not unlocked, only the calls that open a vault lead to one that
    is. -/
theorem isOpening_of_reaches {call : Call} {state : VaultState} (h : reaches call state = true)
    (hs : state.isUnlocked = false) : isOpening call = true := by
  cases state with
  | noVault =>
      cases call with
      | createVault params => rfl
      | _ => cases h
  | lockedVault vault =>
      cases call with
      | unlock prfOutput => rfl
      | _ => cases h
  | unlockedVault vault masterKey => cases hs

/-- A vault operation leads to an unlocked state only from where its call may. -/
theorem called_reaches {p : Platform} {d : Draws} {store store' : Store} {state state' : VaultState}
    {call : Call} {vaultCall : VaultCall} (hv : call.vaultCall = some vaultCall)
    (h : Called p d store state vaultCall.operation (.ok state') store')
    (hu : state'.isUnlocked = true) : reaches call state = true := by
  cases call with
  | createVault params =>
      obtain rfl := Option.some.inj hv
      change Called p d store state (.createVault params) (.ok state') store' at h
      cases h
      rfl
  | unlock prfOutput =>
      obtain rfl := Option.some.inj hv
      change Called p d store state (.unlock prfOutput) (.ok state') store' at h
      cases h
      rfl
  | addKey pem comment =>
      obtain rfl := Option.some.inj hv
      change Called p d store state (.addKey pem comment) (.ok state') store' at h
      cases h
      rfl
  | removeKey keyId =>
      obtain rfl := Option.some.inj hv
      change Called p d store state (.removeKey keyId) (.ok state') store' at h
      have hsame : state'.isUnlocked = state.isUnlocked := by
        cases h with
        | absent _ _ => rfl
        | removed _ _ => cases state <;> rfl
      rw [hsame] at hu
      cases state with
      | unlockedVault vault masterKey => rfl
      | _ => cases hu
  | destroy =>
      obtain rfl := Option.some.inj hv
      change Called p d store state .destroy (.ok state') store' at h
      cases h
      cases hu
  | _ => cases hv

theorem current_answer_mayUnlock (c : Core) (call : Call) :
    mayUnlock ⟨call, c.current .answer⟩ = false := by
  rcases current_cases c .answer with ⟨_, heq⟩ | ⟨state, _, heq⟩
  · rw [heq]
    rfl
  · rw [heq]
    rfl

/-- A call that has just asked for the vault state may unlock only by opening. -/
theorem current_body_mayUnlock {c : Core} {call : Call} (hc : c.isUnlocked = false)
    (h : mayUnlock ⟨call, c.current .body⟩ = true) : isOpening call = true := by
  rcases current_cases c .body with ⟨_, heq⟩ | ⟨state, hstate, heq⟩
  · rw [heq] at h
    exact h
  · rw [heq] at h
    rw [Core.isUnlocked, hstate] at hc
    exact isOpening_of_reaches h hc

/-- A call starts as one that may unlock only if it opens. -/
theorem start_mayUnlock {env : Environment} {c : Core} {call : Call} {stage : Stage}
    (hc : c.isUnlocked = false) (hstage : (c.start env call).2 = some stage)
    (h : mayUnlock ⟨call, stage⟩ = true) : isOpening call = true := by
  rcases start_stage hstage with rfl | rfl | ⟨rfl, _⟩
  · cases h
  · rw [current_answer_mayUnlock] at h
    cases h
  · exact current_body_mayUnlock hc h

/-- The body of a method may unlock only if its call could before. -/
theorem body_mayUnlock {env : Environment} {c : Core} {state : VaultState} {call : Call}
    {stage : Stage} (hstage : (c.body env state call).2 = some stage)
    (h : mayUnlock ⟨call, stage⟩ = true) : reaches call state = true := by
  rcases body_stage hstage with rfl | rfl | ⟨rfl, _⟩
  · cases h
  · rw [current_answer_mayUnlock] at h
    cases h
  · exact h

/-! ## Histories -/

/-- A call that opens a vault was started and has stored its result. -/
def Reopened (h : History) : Prop :=
  ∃ token call, isOpening call = true ∧ Observed h (.started token call) ∧
    Observed h (.stored token call)

/-- The vault is not unlocked, and only calls that open one and were started in this
    history may unlock it. -/
structure Barred (h : History) (w : WorkerSession) : Prop where
  state : w.core.isUnlocked = false
  tasks : ∀ token task, w.tasks.get? token = some task → mayUnlock task = true →
    isOpening task.call = true ∧ Observed h (.started token task.call)

theorem Reopened.snoc {h : History} (hr : Reopened h) (l : Action × List Event) :
    Reopened (h ++ [l]) := by
  obtain ⟨token, call, hopening, hstarted, hstored⟩ := hr
  exact ⟨token, call, hopening, observed_snoc.mpr (Or.inl hstarted),
    observed_snoc.mpr (Or.inl hstored)⟩

variable {env : Environment} {p : Platform} {w w' : WorkerSession} {action : Action}
  {events : List Event}

/-! ## After a lock -/

variable {h : History}

/-- A call that was there stays accounted for. -/
theorem Barred.observed (hb : Barred h w) (l : Action × List Event) {token : Nat} {task : Task}
    (htask : w.tasks.get? token = some task) (hm : mayUnlock task = true) :
    isOpening task.call = true ∧ Observed (h ++ [l]) (.started token task.call) := by
  obtain ⟨hopening, hstarted⟩ := hb.tasks token task htask hm
  exact ⟨hopening, observed_snoc.mpr (Or.inl hstarted)⟩

/-- A call goes on to a stage from which it may unlock only if it could before. -/
theorem Barred.insert (hb : Barred h w) (l : Action × List Event) {token token₀ : Nat}
    {task task₀ : Task} {stage : Stage} (htask₀ : w.tasks.get? token₀ = some task₀)
    (hstage : mayUnlock ⟨task₀.call, stage⟩ = true → mayUnlock task₀ = true)
    (htask : (token = token₀ ∧ task = ⟨task₀.call, stage⟩) ∨ w.tasks.get? token = some task)
    (hm : mayUnlock task = true) :
    isOpening task.call = true ∧ Observed (h ++ [l]) (.started token task.call) := by
  rcases htask with ⟨rfl, rfl⟩ | hold
  · have hobserved := hb.observed l htask₀ (hstage hm)
    exact hobserved
  · exact hb.observed l hold hm

theorem settles_barred {token : Nat} {task : Task} {d : Draws} (hb : Barred h w)
    (htask : w.tasks.get? token = some task) (hs : Settles p w token task d w' events)
    (l : Action × List Event) : Barred (h ++ [l]) w' := by
  cases hs with
  | @loaded next hstage =>
      refine ⟨hb.state, fun token' task' htask' => hb.insert l htask ?_ (insert_tasks htask')⟩
      intro hm
      rw [mayUnlock, hstage]
      cases next with
      | body => exact isOpening_of_reaches hm (openVault_not_unlocked w.store)
      | answer => cases hm
  | @operated state vaultCall m hstage hv hcall =>
      refine ⟨hb.state, fun token' task' htask' => hb.insert l htask ?_ (insert_tasks htask')⟩
      intro hm
      rw [mayUnlock, hstage]
      have hcalled := call_called p hcall w.store
      generalize (m w.store).2 = store' at hcalled
      cases hresult : (m w.store).1 with
      | error failure =>
          rw [hresult] at hm
          cases hm
      | ok state' =>
          rw [hresult] at hm hcalled
          exact called_reaches hv hcalled hm
  | refused _ =>
      refine ⟨hb.state, ?_⟩
      intro token' task' htask'
      exact hb.observed l (get?_of_erase htask').2
  | returned _ =>
      refine ⟨hb.state, fun token' task' htask' => hb.insert l htask ?_ (insert_tasks htask')⟩
      intro hm
      rw [current_answer_mayUnlock] at hm
      cases hm

theorem advance_barred {token : Nat} {task : Task} {r : Turn × Option Stage} (hb : Barred h w)
    (htask : w.tasks.get? token = some task) (hstate : r.1.core.isUnlocked = false)
    (hstage : ∀ stage, r.2 = some stage → mayUnlock ⟨task.call, stage⟩ = true →
      mayUnlock task = true) (l : Action × List Event) :
    Barred (h ++ [l]) (w.advance token task.call r).1 := by
  refine ⟨(congrArg Core.isUnlocked (advance_core _ _ _ _)).trans hstate, ?_⟩
  intro token' task' htask' hm
  rcases advance_tasks htask' with ⟨rfl, stage, hr, rfl⟩ | hold
  · have hobserved := hb.observed l htask (hstage stage hr hm)
    exact hobserved
  · exact hb.observed l hold hm

theorem resumes_barred {token : Nat} {task : Task} {r : Turn × Option Stage} (hw : Sound w)
    (hb : Barred h w) (htask : w.tasks.get? token = some task)
    (hr : Resumes env w.core token task.call task.stage r) :
    Barred (h ++ [(.resume token, (w.advance token task.call r).2)])
        (w.advance token task.call r).1 ∨
      Reopened (h ++ [(.resume token, (w.advance token task.call r).2)]) := by
  obtain ⟨call, stage⟩ := task
  cases hr with
  | @loaded state next =>
      refine Or.inl (advance_barred
        (r := (({ w.core with state := some state } : Core).done, some (.holding state next)))
        hb htask (hw token _ htask) ?_ _)
      intro stage' heq hm
      obtain rfl := Option.some.inj heq
      cases next with
      | body => exact hm
      | answer => cases hm
  | body =>
      refine Or.inl (advance_barred hb htask ((body_sinks _ _ _).isUnlocked hb.state) ?_ _)
      intro stage' heq hm
      exact body_mayUnlock heq hm
  | answered =>
      exact Or.inl (advance_barred (r := (w.core.done, none)) hb htask hb.state
        (fun _ heq => by cases heq) _)
  | failed =>
      exact Or.inl (advance_barred (r := (w.core.throw _, none)) hb htask hb.state
        (fun _ heq => by cases heq) _)
  | @stored state state' vaultCall t hv heq =>
      have hstate : t.core.state = some state' := by
        rw [heq]
        exact (store_spares w.core vaultCall state').state
      cases hu : state'.isUnlocked with
      | false =>
          refine Or.inl (advance_barred hb htask ?_ ?_ _)
          · rw [awaiting_fst, Core.isUnlocked, hstate]
            exact hu
          · intro stage' hnext hm
            obtain rfl := awaiting_snd hnext
            rw [current_answer_mayUnlock] at hm
            cases hm
      | true =>
          obtain ⟨hopening, hstarted⟩ := hb.observed
            (.resume token, (w.advance token call (t.awaiting (Core.current · .answer))).2)
            htask hu
          refine Or.inr ⟨token, call, hopening, hstarted, observed_snoc.mpr (Or.inr ?_)⟩
          refine mem_advance_events (.stored token call) ?_
          rw [awaiting_fst, heq]
          exact List.mem_cons_self

/-- **Step lemma.** -/
theorem step_barred (hw : Sound w) (hb : Barred h w) (hs : Stepped env p w action w' events) :
    Barred (h ++ [(action, events)]) w' ∨ Reopened (h ++ [(action, events)]) := by
  cases hs with
  | @started call =>
      refine Or.inl ⟨?_, ?_⟩
      · rw [advance_core]
        exact (start_sinks _ _).isUnlocked hb.state
      · intro token' task' htask' hm
        rcases advance_tasks htask' with ⟨rfl, stage, hnew, rfl⟩ | hold
        · refine ⟨start_mayUnlock hb.state hnew hm, observed_snoc.mpr (Or.inr ?_)⟩
          exact List.mem_cons_self
        · exact hb.observed _ hold hm
  | settled htask hsettles => exact Or.inl (settles_barred hb htask hsettles _)
  | resumed htask hresumes => exact resumes_barred hw hb htask hresumes
  | remote _ _ =>
      refine Or.inl ⟨(returned_sinks _ _).isUnlocked hb.state, ?_⟩
      intro token' task' htask' hm
      exact hb.observed _ htask' hm

/-- A stretch in which `#lock` runs does not go on to a stage that may unlock. -/
theorem start_locked {c : Core} {call : Call} {stage : Stage}
    (hstage : (c.start env call).2 = some stage) (hl : .locked ∈ (c.start env call).1.events) :
    mayUnlock ⟨call, stage⟩ = false := by
  rcases start_stage hstage with rfl | rfl | ⟨_, hdone⟩
  · rfl
  · exact current_answer_mayUnlock _ call
  · rw [hdone] at hl
    cases hl

theorem resumes_locked {c : Core} {token : Nat} {call : Call} {stage : Stage}
    {r : Turn × Option Stage} (hr : Resumes env c token call stage r)
    (hl : .locked ∈ r.1.events) :
    r.1.core.isUnlocked = false ∧
      ∀ stage', r.2 = some stage' → mayUnlock ⟨call, stage'⟩ = false := by
  cases hr with
  | loaded => cases hl
  | body =>
      refine ⟨(body_sinks _ _ _).locked hl, ?_⟩
      intro stage' hstage
      rcases body_stage hstage with rfl | rfl | ⟨_, hdone⟩
      · rfl
      · exact current_answer_mayUnlock _ call
      · rw [hdone] at hl
        cases hl
  | answered => cases hl
  | failed => cases hl
  | stored _ heq =>
      rw [awaiting_fst, heq] at hl
      rcases List.mem_cons.mp hl with hl | hl
      · cases hl
      · exact absurd hl (store_spares _ _ _).locked

/-- **Lock lemma.**  If no call may unlock when `#lock` runs, the vault is barred after
    that turn. -/
theorem step_locked (hnone : ∀ token task, w.tasks.get? token = some task →
      mayUnlock task = false) (hs : Stepped env p w action w' events) (hl : .locked ∈ events) :
    Barred [] w' := by
  have hold : ∀ {token task}, w.tasks.get? token = some task → mayUnlock task = true →
      isOpening task.call = true ∧ Observed ([] : History) (.started token task.call) := by
    intro token task htask hm
    rw [hnone token task htask] at hm
    cases hm
  cases hs with
  | started =>
      rcases List.mem_cons.mp hl with hl | hl
      · cases hl
      · have hlocked := locked_of_advance hl
        refine ⟨(congrArg Core.isUnlocked (advance_core _ _ _ _)).trans
          ((start_sinks _ _).locked hlocked), ?_⟩
        intro token' task' htask' hm
        rcases advance_tasks htask' with ⟨_, stage, hnew, rfl⟩ | htask'
        · rw [start_locked hnew hlocked] at hm
          cases hm
        · exact hold htask' hm
  | settled _ hsettles =>
      cases hsettles with
      | loaded _ => cases hl
      | operated _ _ _ => cases hl
      | refused _ => cases List.mem_singleton.mp hl
      | returned _ => cases hl
  | resumed _ hresumes =>
      obtain ⟨hstate, hstage⟩ := resumes_locked hresumes (locked_of_advance hl)
      refine ⟨(congrArg Core.isUnlocked (advance_core _ _ _ _)).trans hstate, ?_⟩
      intro token' task' htask' hm
      rcases advance_tasks htask' with ⟨_, stage, hnew, rfl⟩ | htask'
      · rw [hstage stage hnew] at hm
        cases hm
      · exact hold htask' hm
  | remote _ _ =>
      refine ⟨(returned_sinks _ _).locked hl, ?_⟩
      intro token' task' htask' hm
      exact hold htask' hm

/-! ## Runs -/

variable (env p)

/-- The turn runs `#lock`. -/
def runsLock (w : WorkerSession) (action : Action) : Bool :=
  (w.step env p action).any (fun r => r.2.contains .locked)

/-- If the turn runs `#lock`, no call is under way that may still store an unlocked
    state. -/
def Unraced (w : WorkerSession) (action : Action) : Prop :=
  runsLock env p w action = true → ∀ entry ∈ w.tasks.entries, mayUnlock entry.2 = false

instance (w : WorkerSession) (action : Action) : Decidable (Unraced env p w action) :=
  inferInstanceAs (Decidable (_ → _))

variable {env p}

/-- **Locking is final.**  Take any moment of any run at which `#lock` runs while no call
    is under way that may still store an unlocked state.  The vault is unlocked at a later
    moment only if a call of `unlock` or `createVault` was started after that lock and has
    stored its result. -/
theorem locking_is_final {store : Store} {before after : History} {l : Action × List Event}
    {t u : WorkerSession}
    (hbefore : Run (Fires (WorkerSession.step env p) AnyTurn) (.new store) before t)
    (hlock : Fires (WorkerSession.step env p) (Unraced env p) t l u)
    (hafter : Run (Fires (WorkerSession.step env p) AnyTurn) u after w)
    (hl : .locked ∈ l.2) (hu : w.core.isUnlocked = true) : Reopened after := by
  obtain ⟨hok, hstep⟩ := hlock
  have hruns : runsLock env p t l.1 = true := by
    rw [runsLock, hstep]
    exact List.contains_iff_mem.mpr hl
  have hnone : ∀ token task, t.tasks.get? token = some task → mayUnlock task = false := by
    intro token task htask
    exact hok hruns (token, task) ((mem_entries_iff _ _ _).mpr htask)
  have hstepped := step_stepped hstep
  have hinv : Sound w ∧ (Barred after w ∨ Reopened after) := by
    refine hafter.invariant_of_history (fun _ => True)
      (fun h w => Sound w ∧ (Barred h w ∨ Reopened h)) (fun _ _ _ => trivial) ?_ ?_ trivial
    · exact ⟨step_sound (run_sound hbefore) hstepped, Or.inl (step_locked hnone hstepped hl)⟩
    · rintro h w ⟨action, events⟩ w' _ ⟨hw, hb⟩ ⟨_, hstep'⟩
      refine ⟨step_sound hw (step_stepped hstep'), ?_⟩
      rcases hb with hb | hreopened
      · exact step_barred hw hb (step_stepped hstep')
      · exact Or.inr (hreopened.snoc _)
  rcases hinv.2 with hb | hreopened
  · rw [hb.state] at hu
    cases hu
  · exact hreopened

/-- A vault is created by the first call. -/
def createFirst : List Action :=
  [.start (.createVault VaultDrift.phonePasskey), .settle 0 (VaultDrift.drawing ""), .resume 0,
    .resume 0, .settle 0 (VaultDrift.drawing "vault"), .resume 0, .resume 0]

/-- A key is being added when the vault is locked. -/
def lockDuringAdd : List Action :=
  createFirst ++ [.start (.addKey "A" none), .resume 1, .start .lock, .resume 2, .resume 2,
    .settle 1 (VaultDrift.drawing "a"), .resume 1, .resume 1]

/-- The vault is unlocked by the fifth call. -/
def unlockFifth : List Action :=
  [.resume 3, .start (.unlock [1]), .resume 4, .settle 4 (VaultDrift.drawing ""), .resume 4,
    .resume 4]

/-- The worker of the fixed runs, over an empty store. -/
abbrev plainStep := WorkerSession.step Lifecycle.plainBrowser VaultDrift.plainPlatform

/-- A lock that came too early, and the call of another one. -/
def lockedTwice : History × WorkerSession :=
  outcome plainStep AnyTurn (.new .fresh) (lockDuringAdd ++ [.start .lock])

/-- The second lock. -/
def secondLock : History × WorkerSession :=
  outcome plainStep (Unraced Lifecycle.plainBrowser VaultDrift.plainPlatform) lockedTwice.2
    [.resume 3]

def reopenedRun : History × WorkerSession :=
  outcome plainStep AnyTurn secondLock.2 unlockFifth

theorem run_lockedTwice : Run (Fires plainStep AnyTurn) (.new .fresh) lockedTwice.1 lockedTwice.2 :=
  run_outcome plainStep AnyTurn _ (by decide)

/-- A vault whose first lock was undone is locked again, and unlocked by a later call. -/
theorem locking_is_final_unlocked_again :
    lockedTwice.2.core.isUnlocked = true ∧ secondLock.2.core.isUnlocked = false ∧
      reopenedRun.2.core.isUnlocked = true ∧ Reopened reopenedRun.1 := by
  have hlock : Fires plainStep (Unraced Lifecycle.plainBrowser VaultDrift.plainPlatform)
      lockedTwice.2 (.resume 3, [.locked]) secondLock.2 := ⟨by decide, rfl⟩
  have hafter : Run (Fires plainStep AnyTurn) secondLock.2 reopenedRun.1 reopenedRun.2 :=
    run_outcome plainStep AnyTurn _ (by decide)
  have hunlocked : reopenedRun.2.core.isUnlocked = true := by decide
  exact ⟨by decide, by decide, hunlocked,
    locking_is_final run_lockedTwice hlock hafter List.mem_cons_self hunlocked⟩

/-- The event of a started call. -/
def isStarted : Event → Bool
  | .started _ _ => true
  | _ => false

/-- **A lock is undone.**  `addKey` captured the unlocked state before the lock, and stores
    what it made of it: the vault is unlocked again, though no call has opened it. -/
theorem lock_undone_by_addKey :
    let r := outcome plainStep AnyTurn (.new .fresh) lockDuringAdd
    Run (Fires plainStep AnyTurn) (.new .fresh) r.1 r.2 ∧
      (∃ before after, r.1 = before ++ (.resume 2, [.locked]) :: after ∧ ¬ Reopened after) ∧
      r.2.core.isUnlocked = true := by
  refine ⟨run_outcome plainStep AnyTurn lockDuringAdd (by decide), ?_, by decide⟩
  refine ⟨(outcome plainStep AnyTurn (.new .fresh) lockDuringAdd).1.take 10,
    (outcome plainStep AnyTurn (.new .fresh) lockDuringAdd).1.drop 11, rfl, ?_⟩
  rintro ⟨token, call, _, ⟨l, hl, hstarted⟩, _⟩
  have hnone : ∀ l ∈ (outcome plainStep AnyTurn (.new .fresh) lockDuringAdd).1.drop 11,
      ∀ event ∈ l.2, isStarted event = false := by decide
  cases hnone l hl _ hstarted

end Locking
