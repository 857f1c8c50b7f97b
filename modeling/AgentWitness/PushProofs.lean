import AgentWitness.SessionProofs
import AgentWitness.BrokerWakeProofs
import AgentWitness.BrokerReceiptProofs

/-! # Nobody waits unannounced

    The push service takes the broker's wake requests from an unbounded channel, lets a
    burst settle and publishes the latest of it.  It may skip a request, but NEVER THE
    LAST ONE.  The last one is enough: as long as no session is connected, it names the
    reasons of all that is queued, since the queue only shrinks until the next one. -/

namespace Push

open Packet KeyedMap BrokerModel BrokerInvariant BrokerCompletion BrokerCorrelation BrokerTask
open BrokerLedger BrokerTrace BrokerWake BrokerReceipt RemoteProtocol Pairing Serve Handshake
open Session Transition

/-! ## The service -/

/-- The JSON object of a notification. -/
structure Notification where
  title : String
  body : String

def NOTIFICATION_TITLE : String := "Signing request"
def NOTIFICATION_BODY : String := "A server is requesting SSH authentication."

def notification_payload (reasons : List String) : Notification where
  title := NOTIFICATION_TITLE
  body :=
    match reasons with
    | [] => NOTIFICATION_BODY
    | [reason] => reason
    | reason :: more => reason ++ " (" ++ toString more.length ++ "× more)"

def push_subscription (p : PairingService) : Option PushSubscription :=
  p.state.client.bind PairedClient.push_subscription

/-- Where the loop of `serve` awaits. -/
inductive Phase where
  | receiving
  | sleeping (request : WakeRequest)
  /-- In `publish`, for the lock of the pairing. -/
  | publishing (request : WakeRequest)
  | delivering
  | returned

/-- The server, the channel of wake requests and the loop that reads it. -/
structure PushService where
  server : Server
  wakes : List WakeRequest
  phase : Phase

inductive PushAction where
  | server (action : Action)
  | recv
  /-- The sleep is over. -/
  | drain
  /-- `publish` reads the subscription; `built` says whether the message can be built. -/
  | publish (built : Bool)
  /-- The delivery is accepted, rejected or timed out. -/
  | delivered

inductive PushOutput where
  | server (output : ServerOutput)
  | published (request : WakeRequest)
  | notified (subscription : PushSubscription) (notification : Notification)

def wokeServer : ServerOutput → Option WakeRequest
  | .woke request => some request
  | _ => none

def PushService.step (config : SessionConfig) (s : PushService) :
    PushAction → Option (PushService × List PushOutput)
  | .server action =>
      match s.server.step config action with
      | none => none
      | some (server, outputs) =>
          some ({ s with server := server, wakes := s.wakes ++ outputs.filterMap wokeServer },
            outputs.map .server)
  | .recv =>
      match s.phase, s.wakes with
      | .receiving, request :: wakes =>
          some ({ s with wakes := wakes, phase := .sleeping request }, [])
      -- the broker owns the sender
      | .receiving, [] =>
          if s.server.broker.stopped then some ({ s with phase := .returned }, []) else none
      | _, _ => none
  | .drain =>
      match s.phase with
      | .sleeping request =>
          let request := s.wakes.foldl (fun _ latest => latest) request
          some ({ s with wakes := [], phase := .publishing request }, [])
      | _ => none
  | .publish built =>
      match s.phase with
      | .publishing request =>
          match push_subscription s.server.pairing with
          | none => some ({ s with phase := .receiving }, [.published request])
          | some subscription =>
              if built then
                some ({ s with phase := .delivering },
                  [.published request, .notified subscription (notification_payload request.reasons)])
              else some ({ s with phase := .receiving }, [.published request])
      | _ => none
  | .delivered =>
      match s.phase with
      | .delivering => some ({ s with phase := .receiving }, [])
      | _ => none

abbrev PushLabel := PushAction × List PushOutput

abbrev PushRun (config : SessionConfig) (broker : BrokerConfig) (pairing : PairingService) :
    List PushLabel → PushService → Prop :=
  Run (Fires (PushService.step config) (fun _ _ => True)) ⟨.new broker pairing, [], .receiving⟩

/-! ## The newest wake request covers the queue -/

/-- While nobody is connected, the newest wake request names every queued reason. -/
def Covered (h : List Call) (s : BrokerState) : Prop :=
  s.agent.session = none → s.queue ≠ [] → ∃ request, (wakes (emitted h)).getLast? = some request
    ∧ ∀ reason ∈ queuedReasons s, reason ∈ request.reasons

theorem queuedReasons_subset {s t : BrokerState} (hqueue : t.queue ⊆ s.queue)
    (hpending : ∀ id q, t.pending.get? id = some q →
      ∃ p, s.pending.get? id = some p ∧ SameRequest p q) :
    queuedReasons t ⊆ queuedReasons s := by
  intro reason hreason
  obtain ⟨id, hid, hreason⟩ := List.mem_filterMap.mp hreason
  obtain ⟨context, hcontext, rfl⟩ := Option.map_eq_some_iff.mp hreason
  obtain ⟨q, hq, hcontext⟩ := Option.bind_eq_some_iff.mp hcontext
  obtain ⟨p, hp, hsame⟩ := hpending id q hq
  have hgiven : p.context = some context :=
    (congrArg Submission.context hsame.submission).symm.trans hcontext
  refine List.mem_filterMap.mpr ⟨id, hqueue hid, ?_⟩
  rw [hp, Option.bind_some, hgiven]
  rfl

/-- **Step lemma.** -/
theorem covered_applied {h : List Call} {s s' : BrokerState} {c : Call} (hcovered : Covered h s)
    (hstep : Applied s c s') : Covered (h ++ [c]) s' := by
  intro hs hq
  rw [emitted, List.flatMap_append, wakes_append, List.flatMap_singleton]
  cases hres : c.result with
  | error e =>
      -- only a connect is refused, and then somebody is connected
      obtain ⟨rfl, hh⟩ := apply_error (show s.apply c.event c.now = (s', .error e) from hres ▸ hstep)
      obtain ⟨_, _, _, hbound⟩ := handle_error hh
      cases ha : (s.expire c.now).1.agent with
      | disconnected => exact absurd ha hbound
      | locked session_id capacity => rw [ha] at hs; cases hs
      | ready session_id capacity => rw [ha] at hs; cases hs
  | ok effects =>
      obtain ⟨t, own, hh, rfl, heffects⟩ :=
        apply_ok (show s.apply c.event c.now = (s', .ok effects) from hres ▸ hstep)
      rw [reconcile_agent] at hs
      obtain ⟨hqueue, hpending, _⟩ := reconcile_disconnected hs
      rw [hqueue] at hq
      have hreasons : queuedReasons t.reconcile.1 = queuedReasons t := by
        rw [queuedReasons, hqueue, hpending]
        rfl
      rw [hreasons, Call.emitted, hres]
      dsimp only
      rw [heffects, wakes_append, stages_wakes hh, reconcile_wakes, List.nil_append]
      cases hflag : t.wake_announced with
      | false =>
          rw [if_pos ⟨hs, hq, rfl⟩, List.getLast?_concat]
          exact ⟨_, rfl, fun reason hreason => mem_distinctReasons.mpr ⟨hreason, List.not_mem_nil⟩⟩
      | true =>
          rw [if_neg (fun hnot => by cases hnot.2.2), List.append_nil]
          rcases arm_flag hstep hh hs with ⟨_, hcleared⟩ | ⟨hquiet, hbefore, _, hsub⟩
          · rw [hflag] at hcleared
            cases hcleared
          · -- what is queued was queued when the user was told
            obtain ⟨request, hlast, htold⟩ := hcovered hbefore (by
              rintro hnil
              rw [hnil, List.sublist_nil] at hsub
              exact hq hsub)
            refine ⟨request, hlast, fun reason hreason => htold reason ?_⟩
            refine queuedReasons_subset hsub.subset ?_ hreason
            intro id q hentry
            rcases handle_pending hh hentry with ⟨p, hp, hsame, _⟩ | ⟨hevent, hroom, _⟩
            · exact ⟨p, (expire_get?_some.mp hp).1, hsame⟩
            · refine absurd (Or.inl ?_) hquiet
              rw [admittedId_eq hstep, if_pos (show _ < s.max_pending_requests from hroom), hevent]
              rfl

theorem run_covered {max_pending_requests : Nat} {h : List Call} {s : BrokerState}
    (hr : BrokerRun max_pending_requests h s) : Covered h s := by
  induction hr with
  | nil => intro _ hq; exact absurd rfl hq
  | snoc _ hstep ih => exact covered_applied ih hstep

/-! ## Every wake request is sent -/

def woke : Output → Option WakeRequest
  | .woke request => some request
  | _ => none

/-- The wake requests of the calls are those sent before, those sent by this turn and
    those of the effects that are left. -/
def Balanced (before : List WakeRequest) (x : Exec) (work : List Effect) : Prop :=
  wakes (emitted x.actor.calls) = before ++ x.outputs.filterMap woke ++ wakes work

variable {before : List WakeRequest}

theorem send_woke (x : Exec) (session_id : SessionId) (command : RemoteCommand) :
    (x.send session_id command).1.outputs.filterMap woke = x.outputs.filterMap woke := by
  rcases send_outputs x session_id command with hsame | ⟨outbound, _, hsent⟩
  · rw [hsame]
  · rw [hsent, List.filterMap_append]
    exact List.append_nil _

/-- **The loop body keeps the balance.** -/
theorem executeEffect_balanced (now : Instant) (x : Exec) (e : Effect) (rest : List Effect)
    (hx : Balanced before x (e :: rest)) :
    Balanced before (x.executeEffect now e).1 (rest ++ (x.executeEffect now e).2) := by
  -- what is no wake request neither sends one nor is one
  have hquiet : ∀ {y : Exec}, wakeOf e = none → y.actor.calls = x.actor.calls →
      y.outputs.filterMap woke = x.outputs.filterMap woke → Balanced before y (rest ++ []) := by
    intro y hnone hcalls houtputs
    rw [Balanced, hcalls, houtputs, hx, wakes, List.filterMap_cons_none hnone, List.append_nil]
    rfl
  cases e with
  | dispatch session_id request_id attempt requested_at deadline packet context =>
      simp only [Exec.executeEffect]
      split
      · exact hquiet rfl (by rw [send_actor]) (send_woke x _ _)
      · obtain ⟨s', pushed, hap⟩ := apply_disconnected_ok x.actor.state session_id now
        have hrest := hquiet (y := (x.send session_id
          (.request request_id attempt requested_at deadline packet context)).1) rfl
          (by rw [send_actor]) (send_woke x _ _)
        simp only [BrokerActor.call, send_actor, hap]
        rw [Balanced, send_actor, List.append_nil] at hrest
        rw [Balanced, emitted, List.flatMap_append, wakes_append, wakes_append,
          List.flatMap_singleton, ← List.append_assoc, ← hrest]
        rfl
  | cancel session_id request_id attempt =>
      exact hquiet rfl (congrArg BrokerActor.calls (send_actor ..)) (send_woke x _ _)
  | wakeRequired request =>
      rw [Balanced] at hx
      show wakes (emitted x.actor.calls)
        = before ++ (x.outputs ++ [Output.woke request]).filterMap woke ++ wakes (rest ++ [])
      rw [hx, List.filterMap_append, List.append_nil]
      simp [wakes, woke, wakeOf]
  | complete request_id result =>
      simp only [Exec.executeEffect]
      split
      · refine hquiet rfl rfl ?_
        simp only [Exec.emit, List.filterMap_append]
        exact List.append_nil _
      · exact hquiet rfl rfl rfl

theorem keeps_balanced : Keeps (Balanced before) where
  effect := executeEffect_balanced
  call x event now hx := by
    rw [Balanced, show wakes [] = [] from rfl, List.append_nil] at hx
    rw [Balanced, emitted, BrokerActor.call, List.flatMap_append, wakes_append,
      List.flatMap_singleton]
    exact congrArg (· ++ _) hx
  remote _ _ _ hx := hx
  reply x o work ho hx := by
    have hnone : woke o = none := by
      cases o with
      | registered | stopped => rfl
      | sent | woke | answered => cases ho
    rw [Balanced, Exec.emit, List.filterMap_append, List.filterMap_cons_none hnone]
    simpa [Balanced] using hx
  stop x hx := by
    have hnone : (x.actor.waiters.values.map
        (fun response => Output.answered response (.error .unavailable))).filterMap woke = [] := by
      rw [List.filterMap_map]
      exact List.filterMap_eq_nil_iff.mpr (fun _ _ => rfl)
    simp only [Balanced, Exec.stop, List.filterMap_append, hnone, List.append_nil]
    exact hx

/-- **Step lemma**: a turn sends the wake requests of its calls, in order. -/
theorem step_woke {b b' : Broker} {t : Turn} {outputs : List Output}
    (h : b.step t = some (b', outputs)) :
    wakes (emitted b'.actor.calls) = wakes (emitted b.actor.calls) ++ outputs.filterMap woke := by
  have hstart : Balanced (wakes (emitted b.actor.calls)) (start b t) [] := by
    have hempty : wakes (emitted b.actor.calls) = wakes (emitted b.actor.calls) ++ [] ++ [] := by
      rw [List.append_nil, List.append_nil]
    rw [start]
    split
    · exact hempty
    · exact hempty
  obtain ⟨x, hx, hactor, rfl, _⟩ := keeps_balanced.step h hstart
  rw [hactor, hx]
  exact List.append_nil _

theorem stepped_woke {config : SessionConfig} {s s' : Server} {action : Action}
    {outputs : List ServerOutput} (hs : Stepped config s action s' outputs) :
    wakes (emitted s'.broker.actor.calls)
      = wakes (emitted s.broker.actor.calls) ++ outputs.filterMap wokeServer := by
  cases hs with
  | turned _ _ hb =>
      have hsame : (fun o => (external o).bind wokeServer) = woke := by
        funext o
        cases o <;> rfl
      rw [step_woke hb, List.filterMap_filterMap, hsame]
  | @acted link action t r _ hact =>
      have hnone : r.outputs.filterMap wokeServer = [] := by cases hact <;> rfl
      rw [hnone, List.append_nil]
  | accepted _ | cleared | stopping _ => exact (List.append_nil _).symm

/-! ## The newest wake request is not skipped -/

/-- A part of a list that has its last element. -/
structure Coalesces {α : Type} (kept all : List α) : Prop where
  sublist : kept.Sublist all
  last : kept.getLast? = all.getLast?

theorem Coalesces.append {α : Type} {kept all : List α} (h : Coalesces kept all)
    (more : List α) : Coalesces (kept ++ more) (all ++ more) where
  sublist := h.sublist.append (List.Sublist.refl more)
  last := by rw [List.getLast?_append, List.getLast?_append, h.last]

/-- Draining keeps the latest item. -/
theorem Coalesces.drain {α : Type} {kept all rest : List α} {item : α}
    (h : Coalesces (kept ++ item :: rest) all) :
    Coalesces (kept ++ [rest.foldl (fun _ latest => latest) item]) all := by
  induction rest generalizing item with
  | nil => exact h
  | cons next rest ih =>
      refine ih ⟨?_, ?_⟩
      · exact ((List.sublist_cons_self item _).append_left kept).trans h.sublist
      · rw [← h.last]
        simp [List.getLast?_append, List.getLast?_cons]

/-- The request that the loop has taken from its channel. -/
def PushService.held (s : PushService) : List WakeRequest :=
  match s.phase with
  | .sleeping request | .publishing request => [request]
  | _ => []

def announces : PushOutput → Option WakeRequest
  | .server output => wokeServer output
  | _ => none

def publishes : PushOutput → Option WakeRequest
  | .published request => some request
  | _ => none

/-- The wake requests that the broker has sent. -/
def announced (h : List PushLabel) : List WakeRequest := (h.flatMap Prod.snd).filterMap announces

/-- The requests that `publish` was called with. -/
def published (h : List PushLabel) : List WakeRequest := (h.flatMap Prod.snd).filterMap publishes

/-- What is published, held or waits in the channel coalesces what the broker sent. -/
structure Kept (broker : BrokerConfig) (h : List PushLabel) (s : PushService) : Prop where
  run : BrokerRun broker.max_pending_requests s.server.broker.actor.calls
    s.server.broker.actor.state
  sent : announced h = wakes (emitted s.server.broker.actor.calls)
  coalesced : Coalesces (published h ++ s.held ++ s.wakes) (announced h)

variable {config : SessionConfig} {broker : BrokerConfig} {pairing : PairingService}
  {h : List PushLabel} {s s' : PushService}

theorem said_snoc (f : PushOutput → Option WakeRequest) (h : List PushLabel) (l : PushLabel) :
    ((h ++ [l]).flatMap Prod.snd).filterMap f
      = (h.flatMap Prod.snd).filterMap f ++ l.2.filterMap f := by
  rw [List.flatMap_append, List.filterMap_append, List.flatMap_singleton]

/-- A step of the service itself. -/
theorem Kept.served (hk : Kept broker h s) {action : PushAction} {outputs : List PushOutput}
    (hserver : s'.server = s.server) (hsilent : outputs.filterMap announces = [])
    (hcoalesced : Coalesces (published h ++ s.held ++ s.wakes) (announced h) →
      Coalesces (published h ++ outputs.filterMap publishes ++ s'.held ++ s'.wakes) (announced h)) :
    Kept broker (h ++ [(action, outputs)]) s' := by
  have hsame : announced (h ++ [(action, outputs)]) = announced h := by
    rw [announced, said_snoc, hsilent]
    exact List.append_nil _
  constructor
  · rw [hserver]
    exact hk.run
  · rw [hsame, hserver]
    exact hk.sent
  · rw [hsame, published, said_snoc]
    exact hcoalesced hk.coalesced

/-- **Step lemma.** -/
theorem kept_step (hk : Kept broker h s) {action : PushAction} {outputs : List PushOutput}
    (hstep : s.step config action = some (s', outputs)) :
    Kept broker (h ++ [(action, outputs)]) s' := by
  rw [PushService.step.eq_def] at hstep
  cases action with
  | server action =>
      dsimp only at hstep
      split at hstep
      · cases hstep
      · rename_i server outs hserver
        cases hstep
        have hs := server_step_cases hserver
        have hannounced : announced (h ++ [(.server action, outs.map .server)])
            = announced h ++ outs.filterMap wokeServer := by
          rw [announced, said_snoc, List.filterMap_map]
          rfl
        have hpublished : published (h ++ [(.server action, outs.map .server)]) = published h := by
          rw [published, said_snoc, List.filterMap_map]
          exact (congrArg (_ ++ ·) (List.filterMap_eq_nil_iff.mpr (fun _ _ => rfl))).trans
            (List.append_nil _)
        constructor
        · exact (stepped_continues hs).run hk.run
        · rw [hannounced, hk.sent]
          exact (stepped_woke hs).symm
        · rw [hannounced, hpublished, ← List.append_assoc]
          exact hk.coalesced.append _
  | recv =>
      dsimp only at hstep
      split at hstep
      · rename_i request wakes hphase hwakes
        cases hstep
        refine hk.served rfl rfl ?_
        simp [PushService.held, hphase, hwakes]
      · rename_i hphase hwakes
        split at hstep
        · cases hstep
          refine hk.served rfl rfl ?_
          simp [PushService.held, hphase]
        · cases hstep
      · cases hstep
  | drain =>
      dsimp only at hstep
      split at hstep
      · rename_i request hphase
        cases hstep
        refine hk.served rfl rfl ?_
        intro hcoalesced
        rw [PushService.held, hphase, List.append_assoc] at hcoalesced
        simpa [PushService.held] using hcoalesced.drain
      · cases hstep
  | publish built =>
      dsimp only at hstep
      split at hstep
      · rename_i request hphase
        -- the request is now one that was published
        split at hstep
        · cases hstep
          refine hk.served rfl rfl ?_
          simp [PushService.held, hphase, publishes]
        · split at hstep
          all_goals
            cases hstep
            refine hk.served rfl rfl ?_
            simp [PushService.held, hphase, List.filterMap_cons, publishes]
      · cases hstep
  | delivered =>
      dsimp only at hstep
      split at hstep
      · rename_i hphase
        cases hstep
        refine hk.served rfl rfl ?_
        simp [PushService.held, hphase]
      · cases hstep

/-- **Nobody waits unannounced.**  Along every run, what the service publishes is part of
    what the broker announced, in order.  Whenever no session is connected and work is
    queued, the newest wake request names the reason of every queued request, and it is
    the last one that waits in the channel or is held, or, if there is none, the last one
    that was published. -/
theorem nobody_waits_unannounced (hrun : PushRun config broker pairing h s) :
    (published h).Sublist (announced h)
    ∧ (s.server.broker.actor.state.agent.session = none →
      s.server.broker.actor.state.queue ≠ [] →
      ∃ request, (announced h).getLast? = some request
        ∧ (∀ reason ∈ queuedReasons s.server.broker.actor.state, reason ∈ request.reasons)
        ∧ (s.held ++ s.wakes).getLast?.or (published h).getLast? = some request) := by
  have hk : Kept broker h s := by
    induction hrun with
    | nil => exact ⟨.nil, rfl, ⟨.refl _, rfl⟩⟩
    | snoc _ hs ih => exact kept_step ih hs.2
  refine ⟨?_, ?_⟩
  · have hpart := hk.coalesced.sublist
    rw [List.append_assoc] at hpart
    exact (List.sublist_append_left _ _).trans hpart
  · intro hsession hqueue
    obtain ⟨request, hlast, htold⟩ := run_covered hk.run hsession hqueue
    rw [← hk.sent] at hlast
    refine ⟨request, hlast, htold, ?_⟩
    rw [← hlast, ← hk.coalesced.last, List.append_assoc]
    exact List.getLast?_append.symm

/-- Two requests arrive while the phone is away, the second one during the sleep. -/
def twoReasons : List PushAction :=
  [.server (.turn (.localRequest ⟨[13], some ⟨⟨1⟩, "deploy", []⟩, 0⟩ ⟨1⟩ 0) none 0), .recv,
   .server (.turn (.localRequest ⟨[13], some ⟨⟨2⟩, "review", []⟩, 1⟩ ⟨2⟩ 0) none 1),
   .drain, .publish true]

def phoneSubscription : PushSubscription :=
  ⟨"https://push.example.test/subscription", none, "BPk", "c2Vj"⟩

/-- A phone is paired and has registered where it wants to be notified. -/
def subscribed : PairingService :=
  ⟨some ⟨⟨100⟩, some ⟨⟨1⟩, [7], "phone", 0, none, some phoneSubscription, none⟩⟩,
    ⟨⟨100⟩, some ⟨⟨1⟩, [7], "phone", 0, none, some phoneSubscription, none⟩⟩, ⟨0, 0⟩, none⟩

abbrev pushOutcome : List PushLabel × PushService :=
  outcome (PushService.step plainConfig) (fun _ _ => True)
    ⟨.new ⟨5, 8⟩ subscribed, [], .receiving⟩ twoReasons

/-- The texts of the notifications, with whom they are for. -/
def notices (h : List PushLabel) : List (PushSubscription × String × String) :=
  (h.flatMap Prod.snd).filterMap fun output =>
    match output with
    | .notified subscription notification =>
        some (subscription, notification.title, notification.body)
    | _ => none

/-- One notification is sent to the phone, and the request it was made from names both
    reasons. -/
theorem nobody_waits_unannounced_two_reasons :
    notices pushOutcome.1 = [(phoneSubscription, "Signing request", "deploy (1× more)")]
      ∧ published pushOutcome.1 = [⟨["deploy", "review"]⟩]
      ∧ (published pushOutcome.1).Sublist (announced pushOutcome.1)
      ∧ ∃ request, (announced pushOutcome.1).getLast? = some request
        ∧ (∀ reason ∈ queuedReasons pushOutcome.2.server.broker.actor.state,
          reason ∈ request.reasons)
        ∧ (published pushOutcome.1).getLast? = some request := by
  have hrun : PushRun plainConfig ⟨5, 8⟩ subscribed pushOutcome.1 pushOutcome.2 :=
    run_outcome _ _ twoReasons (by decide +kernel)
  have hidle : (pushOutcome.2.held ++ pushOutcome.2.wakes) = [] := by decide +kernel
  obtain ⟨hsublist, hcovered⟩ := nobody_waits_unannounced hrun
  obtain ⟨request, hlast, htold, hnewest⟩ := hcovered (by decide +kernel) (by decide +kernel)
  rw [hidle] at hnewest
  exact ⟨by decide +kernel, by decide +kernel, hsublist, request, hlast, htold, hnewest⟩

end Push
