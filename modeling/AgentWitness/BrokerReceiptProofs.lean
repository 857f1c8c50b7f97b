import AgentWitness.BrokerWaitersProofs

/-! # Every caller gets one receipt

    What a turn of the broker keeps follows from what executing ONE EFFECT and making ONE
    CALL of the model keep.

    A caller waits on a oneshot channel whose sender the actor keeps among its waiters.
    For every such channel, WAITERS PLUS ANSWERS is constant while effects are executed: a
    waiter leaves the map exactly by being answered.  A turn adds one only for the request
    that it takes from a local transport. -/

namespace BrokerReceipt

open Packet KeyedMap BrokerModel BrokerInvariant BrokerCompletion BrokerTask Transition

/-! ## The rule of a turn -/

/-- The output replies to a command. -/
def isReply : Output → Bool
  | .registered _ _ | .stopped _ => true
  | _ => false

/-- The parts of a turn keep a property of the actor and of the effects that are left. -/
structure Keeps (Inv : Exec → List Effect → Prop) : Prop where
  effect : ∀ now x e rest, Inv x (e :: rest) →
    Inv (x.executeEffect now e).1 (rest ++ (x.executeEffect now e).2)
  call : ∀ (x : Exec) event now, Inv x [] → Inv { x with actor := (x.actor.call event now).1 }
    (Call.emitted ⟨event, now, (x.actor.call event now).2⟩)
  remote : ∀ x remote work, Inv x work → Inv { x with actor.remote := remote } work
  reply : ∀ x o work, isReply o = true → Inv x work → Inv (x.emit o) work
  stop : ∀ x, Inv x [] → Inv x.stop []

/-- The actor when a turn begins, with the sender of a new request. -/
def start (b : Broker) (t : Turn) : Exec :=
  match t.input with
  | .localRequest request request_id _ =>
      { b.exec t.sends with
        actor.waiters := b.actor.waiters.insert request_id request.response }
  | _ => b.exec t.sends

section Turn

variable {Inv : Exec → List Effect → Prop} (hk : Keeps Inv) {x : Exec}

include hk

theorem Keeps.execute {effects : List Effect} (now : Instant) (hx : Inv x effects) :
    Inv (x.execute effects now) [] := by
  have hend := rounds_invariant (Exec.executeEffect now) Inv (hk.effect now) 3 x effects hx
  rw [rounds_drained] at hend
  exact hend

theorem Keeps.apply (event : Event) (now : Instant) (hx : Inv x []) :
    Inv (x.apply event now) [] := by
  have hcall := hk.call x event now hx
  simp only [Exec.apply]
  split
  · rename_i effects heffects
    rw [heffects] at hcall
    exact hk.execute now hcall
  · rename_i error herror
    rw [herror] at hcall
    exact hcall

theorem Keeps.handle (session_id : SessionId) (now : Instant) (command : Command)
    (hx : Inv x []) : Inv (x.handle session_id now command).1 [] := by
  cases command with
  | connect capacity outbound response =>
      have hcall := hk.call x (.connected session_id capacity) now hx
      simp only [Exec.handle]
      split
      · rename_i effects heffects
        rw [heffects] at hcall
        exact hk.execute now (hk.reply _ _ _ rfl (hk.remote _ _ _ hcall))
      · rename_i error herror
        rw [herror] at hcall
        exact hk.reply _ _ _ rfl hcall
  | disconnected active => exact hk.apply _ _ (hk.remote _ _ _ hx)
  | ready active => exact hk.apply _ _ hx
  | locked active => exact hk.apply _ _ hx
  | response active request_id attempt packet => exact hk.apply _ _ hx
  | shutdown response => exact hk.reply _ _ _ rfl (hk.stop _ hx)

/-- **Rule of a turn**; one that stops the actor leaves no waiters. -/
theorem Keeps.step {b b' : Broker} {t : Turn} {outputs : List Output}
    (h : b.step t = some (b', outputs)) (hstart : Inv (start b t) []) :
    ∃ x, Inv x [] ∧ b'.actor = x.actor ∧ outputs = x.outputs
      ∧ (b'.stopped = true → x.actor.waiters = .empty) := by
  rw [Broker.step] at h
  rw [start] at hstart
  split at h
  · cases h
  · rename_i hrun
    cases hin : t.input with
    | localRequest request request_id requested_at =>
        simp only [hin] at h hstart
        split at h
        · cases h
          exact ⟨_, hk.apply _ _ hstart, rfl, rfl, fun hs => absurd hs hrun⟩
        · cases h
    | localClosed =>
        simp only [hin] at h hstart
        split at h
        · cases h
          exact ⟨_, hstart, rfl, rfl, fun hs => absurd hs hrun⟩
        · cases h
    | cancelled request_id =>
        simp only [hin] at h hstart
        cases h
        exact ⟨_, hk.apply _ _ hstart, rfl, rfl, fun hs => absurd hs hrun⟩
    | command command session_id =>
        simp only [hin] at h hstart
        cases h
        exact ⟨_, hk.handle _ _ _ hstart, rfl, rfl, BrokerWaiters.handle_stopped⟩
    | commandsClosed =>
        simp only [hin] at h hstart
        cases h
        exact ⟨_, hk.stop _ hstart, rfl, rfl, fun _ => rfl⟩
    | deadline =>
        simp only [hin] at h hstart
        split at h
        · cases h
          exact ⟨_, hk.apply _ _ hstart, rfl, rfl, fun hs => absurd hs hrun⟩
        · cases h

end Turn

/-! ## Receipts -/

/-- The actor keeps the sender of this channel. -/
def keeps (response : ResponseId) (e : RequestId × ResponseId) : Bool := e.2 = response

/-- The output is an answer on this channel. -/
def answers (response : ResponseId) : Output → Bool
  | .answered other _ => other = response
  | _ => false

/-- The senders of a channel that are kept or have been used. -/
def receipts (response : ResponseId) (x : Exec) : Nat :=
  x.actor.waiters.count (keeps response) + x.outputs.countP (answers response)

variable {response : ResponseId}

theorem send_receipts (x : Exec) (session_id : SessionId) (command : RemoteCommand) :
    receipts response (x.send session_id command).1 = receipts response x := by
  unfold Exec.send
  repeat' split
  all_goals simp [receipts, Exec.emit, answers]

/-- **The loop body keeps the sum.** -/
theorem executeEffect_receipts (now : Instant) (x : Exec) (e : Effect) :
    receipts response (x.executeEffect now e).1 = receipts response x := by
  cases e with
  | dispatch session_id request_id attempt requested_at deadline packet context =>
      simp only [Exec.executeEffect]
      split
      · exact send_receipts x _ _
      · exact send_receipts x _ _
  | cancel session_id request_id attempt => exact send_receipts x _ _
  | wakeRequired request => simp [Exec.executeEffect, receipts, Exec.emit, answers]
  | complete request_id result =>
      simp only [Exec.executeEffect]
      split
      · rename_i other hother
        have hcount := count_erase x.actor.waiters (keeps response) hother
        have hkeeps : keeps response (request_id, other) = answers response (.answered other result) :=
          rfl
        rw [hkeeps] at hcount
        simp only [receipts, Exec.emit, List.countP_append, List.countP_cons, List.countP_nil]
        omega
      · rfl

theorem stop_receipts (x : Exec) : receipts response x.stop = receipts response x := by
  have hempty : (Map.empty : Map RequestId ResponseId).count (keeps response) = 0 := rfl
  have hall : (x.actor.waiters.values.map
      (fun other => Output.answered other (.error .unavailable))).countP (answers response)
      = x.actor.waiters.count (keeps response) := by
    rw [List.countP_map, Map.values, List.countP_map]
    rfl
  simp only [receipts, Exec.stop, List.countP_append, hempty, hall]
  omega

theorem keeps_receipts (n : Nat) : Keeps (fun x _ => receipts response x = n) where
  effect now x e _ hx := (executeEffect_receipts now x e).trans hx
  call _ _ _ hx := hx
  remote _ _ _ hx := hx
  reply x o _ ho hx := by
    have hnot : answers response o = false := by
      cases o with
      | registered | stopped => rfl
      | sent | woke | answered => cases ho
    simpa [receipts, Exec.emit, hnot] using hx
  stop x hx := (stop_receipts x).trans hx

/-- The channel of the request that a turn takes from a local transport. -/
def submission : Input → Option ResponseId
  | .localRequest request _ _ => some request.response
  | _ => none

/-- **Step lemma of the receipts**, for a request id that is not waited for. -/
theorem step_receipts {b b' : Broker} {t : Turn} {outputs : List Output}
    (h : b.step t = some (b', outputs))
    (hfresh : ∀ request request_id requested_at,
      t.input = .localRequest request request_id requested_at →
      b.actor.waiters.get? request_id = none) (response : ResponseId) :
    b'.actor.waiters.count (keeps response) + outputs.countP (answers response)
      = b.actor.waiters.count (keeps response)
        + if submission t.input = some response then 1 else 0 := by
  obtain ⟨x, hx, hactor, houtputs, _⟩ := (keeps_receipts (receipts response (start b t))).step h rfl
  have hstart : receipts response (start b t) = (start b t).actor.waiters.count (keeps response) := by
    rw [start]
    split
    · rfl
    · rfl
  rw [hactor, houtputs]
  refine hx.trans (hstart.trans ?_)
  cases hin : t.input with
  | localRequest request request_id requested_at =>
      rw [start, hin]
      refine (count_insert_fresh b.actor.waiters (keeps response)
        (hfresh _ _ _ hin)).trans ?_
      simp [submission, keeps]
  | localClosed | cancelled | command | commandsClosed | deadline =>
      rw [start, hin]
      rfl

end BrokerReceipt
