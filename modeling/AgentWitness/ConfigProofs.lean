import AgentWitness.BrokerLoadProofs
import AgentWitness.BrokerTransportProofs
import AgentWitness.ClockProofs
import AgentWitness.RemoteClientProofs

/-! # What the configuration has to bound

    `config.rs` and the clock arithmetic of `handle_local` in `broker/task.rs`.  The
    timeout is added to two clocks when a request is admitted, the wall clock goes on
    the wire in milliseconds as numbers the client reads as safe integers, and the
    capacity bounds what the client has to buffer.  `validate` bounds each of the three
    from BELOW only, so each of them has configurations that pass and fail.

    A run of the configured daemon is a run of the broker in which every session is
    offered the configured capacity and every admission survives its additions. -/

namespace DaemonConfig

open Packet KeyedMap BrokerModel BrokerInvariant BrokerCompletion BrokerTask BrokerLedger
open BrokerLoad BrokerWaiters BrokerTrace BrokerChannel BrokerTransport RemoteClient Transition
open Clock

/-! ## The configuration -/

/-- Operator-controlled daemon configuration: the fields that are validated. -/
structure Config where
  control_socket_mode : UInt32
  socket_mode : UInt32
  request_timeout : Duration
  max_agent_packet_size : Nat
  max_pending_requests : Nat
  remote_capacity : Nat
  sentry_backend_dsn : Option String
  sentry_frontend_dsn : Option String

/-- `Duration::from_secs`. -/
def fromSecs (secs : UInt64) : Duration where
  secs := secs.toNat
  nanos := 0
  secs_lt := secs.toNat_lt
  nanos_lt := Nat.succ_pos _

/-- `Config::default`. -/
def Config.default : Config where
  control_socket_mode := 0o600
  socket_mode := 0o600
  request_timeout := fromSecs 90
  max_agent_packet_size := 256 * 1024
  max_pending_requests := 32
  remote_capacity := 32
  sentry_backend_dsn := none
  sentry_frontend_dsn := none

/-- Failure to validate an extracted configuration. -/
inductive ConfigError where
  | invalid (message : String)
  deriving DecidableEq, Repr

/-- `if bad { return Err(ConfigError::Invalid(message)) }`. -/
def reject (bad : Prop) [Decidable bad] (message : String) : Except ConfigError Unit :=
  if bad then .error (.invalid message) else .ok ()

section Validate

variable (parse : String → Except String Unit)

/-- A DSN is checked by the parser of the Sentry library. -/
def validate_dsn (name : String) : Option String → Except ConfigError Unit
  | none => .ok ()
  | some value =>
      (parse value).mapError (fun error => .invalid s!"{name} is not a valid Sentry DSN: {error}")

/-- Reject values that cannot be represented safely by the runtime. -/
def Config.validate (config : Config) : Except ConfigError Unit := do
  reject (config.control_socket_mode &&& ~~~0o777 ≠ 0)
    "control_socket_mode must contain only Unix permission bits"
  reject (config.socket_mode &&& ~~~0o777 ≠ 0)
    "socket_mode must contain only Unix permission bits"
  reject (config.request_timeout.is_zero = true) "request_timeout must be greater than zero"
  reject (config.max_agent_packet_size = 0) "max_agent_packet_size must be greater than zero"
  reject (config.max_agent_packet_size > 2 ^ 32 - 1)
    "max_agent_packet_size cannot exceed the SSH-agent u32 frame length"
  reject (config.max_pending_requests = 0) "max_pending_requests must be greater than zero"
  reject (config.remote_capacity = 0) "remote_capacity must be greater than zero"
  validate_dsn parse "sentry_backend_dsn" config.sentry_backend_dsn
  validate_dsn parse "sentry_frontend_dsn" config.sentry_frontend_dsn

theorem reject_ok {bad : Prop} [Decidable bad] {message : String}
    {rest : Except ConfigError Unit} :
    (reject bad message >>= fun _ => rest) = .ok () ↔ ¬ bad ∧ rest = .ok () := by
  rw [reject]
  split
  · refine iff_of_false ?_ (fun h => absurd ‹_› h.1)
    rintro ⟨⟩
  · exact (and_iff_right ‹_›).symm

/-- **What validation guarantees.** -/
theorem validate_ok {config : Config} (h : config.validate parse = .ok ()) :
    config.control_socket_mode &&& ~~~0o777 = 0 ∧ config.socket_mode &&& ~~~0o777 = 0 ∧
      0 < config.request_timeout.as_nanos ∧
      0 < config.max_agent_packet_size ∧ config.max_agent_packet_size < 2 ^ 32 ∧
      0 < config.max_pending_requests ∧ 0 < config.remote_capacity := by
  simp only [Config.validate, reject_ok] at h
  obtain ⟨hcontrol, hsocket, htimeout, hsize, hframe, hpending, hcapacity, _⟩ := h
  refine ⟨not_not.mp hcontrol, not_not.mp hsocket, ?_, by omega, by omega, by omega, by omega⟩
  exact as_nanos_pos (Bool.eq_false_iff.mpr htimeout)

/-- The defaults pass their own checks. -/
theorem validate_default : Config.default.validate parse = .ok () := rfl

end Validate

/-- The limits that the daemon hands to its broker. -/
def Config.broker (config : Config) : BrokerConfig where
  request_timeout := config.request_timeout.as_nanos
  max_pending_requests := config.max_pending_requests

/-! ## Admission on the clocks of the platform -/

/-- The event of `handle_local` from the readings of its two clocks; nothing if one of
    the additions panics. -/
def Config.submission (config : Config) (request : PacketRequest) (request_id : RequestId)
    (now requested_at : Timespec) : Option Event := do
  let deadline ← now.checked_add_duration config.request_timeout
  let deadline_timestamp ← requested_at.checked_add_duration config.request_timeout
  return .submit request_id request.packet request.context deadline.nanos.toNat
    (unix_milliseconds requested_at.nanos) (unix_milliseconds deadline_timestamp.nanos)

/-- `BrokerActor::handle_local` on these clocks. -/
def Config.handle_local (config : Config) (x : Exec) (request : PacketRequest)
    (request_id : RequestId) (now requested_at : Timespec) : Option Exec :=
  (config.submission request request_id now requested_at).map (fun event =>
    { x with actor.waiters := x.actor.waiters.insert request_id request.response }.apply
      event now.nanos.toNat)

section Admission

variable {config : Config} {x : Exec} {request : PacketRequest} {request_id : RequestId}
  {now requested_at : Timespec}

/-- **Overflow of an admission**: it panics exactly when one of the two sums leaves the
    range of its clock. -/
theorem handle_local_isSome :
    (config.handle_local x request request_id now requested_at).isSome = true ↔
      Representable (now.nanos + config.request_timeout.as_nanos) ∧
        Representable (requested_at.nanos + config.request_timeout.as_nanos) := by
  rw [← checked_add_isSome, ← checked_add_isSome, Config.handle_local, Option.isSome_map,
    Config.submission]
  cases now.checked_add_duration config.request_timeout with
  | none => simp
  | some deadline =>
      cases requested_at.checked_add_duration config.request_timeout with
      | none => simp
      | some deadline_timestamp => simp

/-- An admission that does not panic is the one of the actor on exact time. -/
theorem handle_local_exact (hlimits : x.actor.config = config.broker) (hnow : 0 ≤ now.nanos)
    (h : (config.handle_local x request request_id now requested_at).isSome = true) :
    config.handle_local x request request_id now requested_at
      = some (x.handle_local request request_id now.nanos.toNat requested_at.nanos) := by
  obtain ⟨hdeadline, hstamp⟩ := handle_local_isSome.mp h
  obtain ⟨deadline, hd, hdn⟩ := checked_add_of_representable hdeadline
  obtain ⟨deadline_timestamp, hs, hsn⟩ := checked_add_of_representable hstamp
  have hsum : (now.nanos + config.request_timeout.as_nanos).toNat
      = now.nanos.toNat + config.request_timeout.as_nanos := by omega
  simp only [Config.handle_local, Config.submission, hd, hs, hdn, hsn, hsum, Exec.handle_local,
    hlimits, Config.broker, Option.bind_eq_bind, Option.bind_some, Option.pure_def, Option.map_some]

end Admission

/-- A stamp is a safe integer exactly when its time is. -/
theorem unix_milliseconds_safe (time : Int) :
    (unix_milliseconds time).toNat ≤ 2 ^ 53 - 1 ↔ time < 2 ^ 53 * 1000000 := by
  have hsmall : min (time.toNat / 1000000) (2 ^ 64 - 1) < 2 ^ 64 := by omega
  rw [unix_milliseconds, UInt64.toNat_ofNat_of_lt' hsmall]
  omega

/-- The deadline is the larger of the two stamps. -/
theorem stamps_safe (requested_at : Int) (timeout : Nat) :
    ((unix_milliseconds requested_at).toNat ≤ 2 ^ 53 - 1 ∧
        (unix_milliseconds (requested_at + timeout : Int)).toNat ≤ 2 ^ 53 - 1) ↔
      requested_at + timeout < 2 ^ 53 * 1000000 := by
  rw [unix_milliseconds_safe, unix_milliseconds_safe]
  omega

/-! ## Runs of the configured daemon -/

/-- A turn of the configured daemon: an admission survives on readings of the clocks,
    and a session is offered the configured capacity. -/
def Config.Allows (config : Config) (b : Broker) (t : Turn) : Prop :=
  match t.input with
  | .localRequest request request_id requested_at =>
      ∃ now wall : Timespec, now.nanos = t.now ∧ wall.nanos = requested_at ∧
        (config.handle_local (b.exec t.sends) request request_id now wall).isSome = true
  | .command (.connect capacity _ _) _ => capacity = config.remote_capacity
  | _ => True

/-- Runs of the broker as the daemon configures it. -/
abbrev DaemonRun (config : Config) : List (Turn × List Output) → Broker → Prop :=
  Run (Fires Broker.step config.Allows) (Broker.new config.broker)

/-- The stamps a submission puts on the wire. -/
def stamps : Event → Option (RequestId × UInt64 × UInt64)
  | .submit request_id _ _ _ requested_at deadline_timestamp =>
      some (request_id, requested_at, deadline_timestamp)
  | _ => none

/-- The turn admits the request and stamps it so. -/
def Stamped (config : Config) (m : RequestId × UInt64 × UInt64) (t : Turn) : Prop :=
  ∃ request requested_at, t.input = .localRequest request m.1 requested_at ∧
    m.2.1 = unix_milliseconds requested_at ∧
    m.2.2 = unix_milliseconds (requested_at + config.request_timeout.as_nanos)

/-- What the record of calls says about a run. -/
structure Configured (config : Config) (h : List (Turn × List Output)) (b : Broker) : Prop where
  limits : b.actor.config = config.broker
  run : BrokerRun config.max_pending_requests b.actor.calls b.actor.state
  ids : submittedIds b.actor.calls = requestIds h
  offered : ∀ capacity ∈ recorded connectedCapacity b.actor.calls,
    capacity = config.remote_capacity
  stamped : ∀ m ∈ recorded stamps b.actor.calls, ∃ l ∈ h, Stamped config m l.1

section Runs

variable {config : Config} {h : List (Turn × List Output)} {b b' : Broker}

/-- **Step lemma.** -/
theorem step_configured {t : Turn} {outputs : List Output} (hc : Configured config h b)
    (hallows : config.Allows b t) (hb : b.step t = some (b', outputs)) :
    Configured config (h ++ [(t, outputs)]) b' where
  limits := (step_config hb).trans hc.limits
  run := (step_causes hb).continues.run hc.run
  ids := by
    have hrecord := step_recorded (f := submittedId) (fun _ => rfl) hb
    rw [eventFor_submits] at hrecord
    rw [requestIds_snoc, ← hc.ids]
    exact hrecord
  offered := by
    intro capacity hmem
    rw [step_recorded (f := connectedCapacity) (fun _ => rfl) hb, List.mem_append] at hmem
    rcases hmem with hmem | hmem
    · exact hc.offered capacity hmem
    · obtain ⟨event, hevent, hcap⟩ := Option.bind_eq_some_iff.mp (Option.mem_toList.mp hmem)
      cases event with
      | connected session_id granted =>
          obtain ⟨outbound, response, hin⟩ := eventFor_connected hevent
          rw [Config.Allows, hin] at hallows
          exact (Option.some.inj hcap).symm.trans hallows
      | submit | ready | locked | disconnected | response | cancelled | tick => cases hcap
  stamped := by
    intro m hmem
    rw [step_recorded (f := stamps) (fun _ => rfl) hb, List.mem_append] at hmem
    rcases hmem with hmem | hmem
    · obtain ⟨l, hl, hstamped⟩ := hc.stamped m hmem
      exact ⟨l, List.mem_append_left _ hl, hstamped⟩
    · obtain ⟨event, hevent, hstamps⟩ := Option.bind_eq_some_iff.mp (Option.mem_toList.mp hmem)
      refine ⟨(t, outputs), List.mem_append_right _ (List.mem_singleton.mpr rfl), ?_⟩
      cases hin : t.input with
      | localRequest request request_id requested_at =>
          rw [eventFor, hin] at hevent
          obtain rfl := Option.some.inj hevent
          obtain rfl := Option.some.inj hstamps
          refine ⟨request, requested_at, hin, rfl, ?_⟩
          rw [hc.limits]
          rfl
      | cancelled | deadline =>
          rw [eventFor, hin] at hevent
          obtain rfl := Option.some.inj hevent
          cases hstamps
      | localClosed | commandsClosed =>
          rw [eventFor, hin] at hevent
          cases hevent
      | command command session_id =>
          rw [eventFor, hin] at hevent
          cases command with
          | connect | ready | locked | disconnected | response =>
              obtain rfl := Option.some.inj hevent
              cases hstamps
          | shutdown => cases hevent

/-- **Run lemma.** -/
theorem run_configured (hr : DaemonRun config h b) : Configured config h b := by
  induction hr with
  | nil =>
      refine ⟨rfl, .nil, rfl, ?_, ?_⟩
      · intro capacity hmem
        cases hmem
      · intro m hmem
        cases hmem
  | snoc _ hs ih => exact step_configured ih hs.1 hs.2

/-- **Stamps on the wire**: what is sent for a request was stamped by the turn that
    admitted it. -/
theorem run_sent_stamped (hr : DaemonRun config h b) {l : Turn × List Output} (hl : l ∈ h)
    {outbound : ChannelId} {id : RequestId} {attempt : UInt32} {requested_at deadline : UInt64}
    {packet : Bytes} {context : Option RequestContext}
    (hsent : .sent outbound (.request id attempt requested_at deadline packet context) ∈ l.2) :
    ∃ k ∈ h, Stamped config (id, requested_at, deadline) k.1 := by
  obtain ⟨before, after, rfl⟩ := List.append_of_mem hl
  obtain ⟨t, u, hbefore, hstep, _⟩ := hr.split
  have hmid : DaemonRun config (before ++ [l]) u := .snoc hbefore hstep
  have hc := run_configured hmid
  obtain ⟨session_id, e, _, hout, hemitted⟩ := (step_causes hstep.2).sent _ _ hsent
  cases e with
  | dispatch session_id id attempt requested_at deadline packet context =>
      obtain ⟨_, heq⟩ := Prod.mk.inj (Option.some.inj hout)
      obtain ⟨rfl, rfl, rfl, rfl, rfl, rfl⟩ := RemoteCommand.request.inj heq
      obtain ⟨due, c, hcall, hevent⟩ :=
        run_dispatch_submitted hc.run (hemitted (Option.some_ne_none _))
      have hstamps : (id, requested_at, deadline) ∈ recorded stamps u.actor.calls := by
        refine List.mem_filterMap.mpr ⟨c, hcall, ?_⟩
        rw [hevent]
        rfl
      obtain ⟨k, hk, hstamped⟩ := hc.stamped _ hstamps
      refine ⟨k, ?_, hstamped⟩
      rw [List.append_cons]
      exact List.mem_append_left _ hk
  | cancel => cases (Prod.mk.inj (Option.some.inj hout)).2
  | wakeRequired | complete => cases hout

/-- **Requests in flight**: the smaller of the two limits bounds them. -/
theorem run_in_flight_le (hr : DaemonRun config h b) (session_id : SessionId) :
    b.actor.state.in_flight_for session_id
      ≤ min config.remote_capacity config.max_pending_requests := by
  have hc := run_configured hr
  rw [← run_max hc.run]
  refine (run_loaded hc.run).in_flight_le ?_ session_id
  intro active granted hconn
  exact hc.offered granted (run_capacity hc.run hconn)

/-- With a timeout past the end of the clock nothing is ever admitted. -/
theorem requestIds_eq_nil (htimeout : 2 ^ 63 ≤ config.request_timeout.secs)
    (hr : DaemonRun config h b) : requestIds h = [] := by
  induction hr with
  | nil => rfl
  | @snoc h b b' l _ hs ih =>
      rw [requestIds_snoc, ih, List.nil_append]
      have hallows := hs.1
      cases hin : l.1.input with
      | localRequest request request_id requested_at =>
          rw [Config.Allows, hin] at hallows
          obtain ⟨now, wall, hnow, _, hsome⟩ := hallows
          have hfits := (handle_local_isSome.mp hsome).1
          rw [Representable, hnow, Duration.as_nanos] at hfits
          omega
      | localClosed | cancelled | command | commandsClosed | deadline => rfl

end Runs

/-! ## Filling a session -/

/-- A request that finds an empty queue and room on its session goes out at once. -/
theorem submit_goes_out {s s' : BrokerState} {session_id : SessionId} {capacity : Nat}
    {id : RequestId} {packet : Bytes} {context : Option RequestContext} {deadline now : Instant}
    {requested_at deadline_timestamp : UInt64} {effects : List Effect} (hcons : Consistent s)
    (htimely : Timely now s) (hfresh : s.pending.get? id = none)
    (hconn : s.connected_remote = some (session_id, capacity)) (hqueue : s.queue = [])
    (hroom : s.pending.len < s.max_pending_requests) (hcap : s.in_flight_for session_id < capacity)
    (ha : s.apply (.submit id packet context deadline requested_at deadline_timestamp) now
      = (s', .ok effects)) :
    s'.connected_remote = some (session_id, capacity) ∧ s'.queue = [] ∧
      s'.in_flight_for session_id = s.in_flight_for session_id + 1 ∧
      s'.pending.len = s.pending.len + 1 := by
  obtain ⟨t, own, hh, rfl, _⟩ := apply_ok ha
  rw [expire_of_none_overdue htimely] at hh
  have ht : Consistent t := by
    refine consistent_handle hcons ?_ hh
    intro j hj
    obtain rfl := Option.some.inj hj
    exact hfresh
  have hadmitted : t.connected_remote = some (session_id, capacity) ∧ t.queue = [id] ∧
      t.in_flight_for session_id = s.in_flight_for session_id ∧
      t.pending.len = s.pending.len + 1 := by
    cases handle_cases hh with
    | full hfull => exact absurd hroom (Nat.not_lt_of_le hfull)
    | admitted _ =>
        refine ⟨hconn, ?_, ?_, len_insert_fresh _ hfresh⟩
        · show s.queue ++ [id] = [id]
          rw [hqueue]
          rfl
        · exact count_insert_fresh _ _ hfresh
    | ignored hign => exact hign.elim
  obtain ⟨hconn', hqueue', hflight, hlen⟩ := hadmitted
  have htake : (t.queue.take (capacity - t.in_flight_for session_id)).length = 1 := by
    rw [hqueue', List.length_take, hflight]
    show min _ 1 = 1
    omega
  refine ⟨(reconcile_connected t).trans hconn', ?_, ?_, ?_⟩
  · have hdrop : t.reconcile.1.queue = t.queue.drop (capacity - t.in_flight_for session_id) := by
      rw [reconcile_queue, dispatchQueued_some hconn']
      exact dispatchLoop_queue ht.queue_present
    rw [hdrop, hqueue', hflight]
    refine List.drop_eq_nil_of_le ?_
    show 1 ≤ _
    omega
  · rw [reconcile_in_flight ht hconn', htake, hflight]
  · rw [reconcile_pending, dispatchQueued_some hconn', ← hlen]
    exact dispatchLoop_len ht.queue_present

/-- The broker with `n` requests in flight to the session and nothing queued. -/
structure Filled (config : Config) (n : Nat) (b : Broker) : Prop where
  running : b.stopped = false
  accepting : b.local_requests_open = true
  settled : Settled b.actor
  connected : b.actor.state.connected_remote = some (⟨0⟩, config.remote_capacity)
  queue : b.actor.state.queue = []
  timely : Timely 0 b.actor.state
  in_flight : b.actor.state.in_flight_for ⟨0⟩ = n
  len : b.actor.state.pending.len = n

/-- A session connects on channel 0. -/
def connectTurn (config : Config) : Turn :=
  ⟨.command (.connect config.remote_capacity 0 0) ⟨0⟩, 0, none⟩

/-- The id of the request that is admitted as the `n`-th. -/
def filledId (n : Nat) : RequestId := ⟨BitVec.ofNat 128 n⟩

/-- One more request is admitted, at the epoch of both clocks. -/
def fillTurn (n : Nat) : Turn := ⟨.localRequest ⟨[], none, n⟩ (filledId n) 0, 0, none⟩

theorem filledIds_nodup {n : Nat} (hn : n ≤ 2 ^ 128) :
    ((List.range n).map filledId).Nodup := by
  refine (List.nodup_map_iff_inj_on List.nodup_range).mpr ?_
  intro i hi j hj heq
  rw [List.mem_range] at hi hj
  have hbits := congrArg (fun id => (Uuid.bits id).toNat) heq
  simp only [filledId, BitVec.toNat_ofNat] at hbits
  rwa [Nat.mod_eq_of_lt (by omega), Nat.mod_eq_of_lt (by omega)] at hbits

section Filling

variable {config : Config}

theorem connectTurn_filled (config : Config) :
    ∃ b outputs, (Broker.new config.broker).step (connectTurn config) = some (b, outputs) ∧
      Filled config 0 b := by
  have hclean : RefusesCleanly (Broker.new config.broker) (connectTurn config) := by
    intro event hevent hrefusal
    exact hrefusal.2.1 rfl
  have hstep : (Broker.new config.broker).step (connectTurn config)
      = some (((Broker.new config.broker).step (connectTurn config)).get rfl) := rfl
  have hsound := step_sound hstep hclean (fun _ hid => by cases hid)
    ⟨rfl, fun _ => settled_new config.broker, fun hs => by cases hs⟩
  refine ⟨_, _, hstep, rfl, rfl, hsound.2.1 rfl, rfl, rfl, ?_, rfl, rfl⟩
  intro id p hp
  cases hp

/-- **Step lemma.** -/
theorem fillTurn_filled (htimeout : 0 < config.request_timeout.as_nanos) {n : Nat} {b : Broker}
    (hb : Filled config n b) (hlimits : b.actor.config = config.broker)
    (hfresh : filledId n ∉ submittedIds b.actor.calls) (hcap : n < config.remote_capacity)
    (hmax : n < config.max_pending_requests) :
    ∃ b' outputs, b.step (fillTurn n) = some (b', outputs) ∧ Filled config (n + 1) b' := by
  have hstep : b.step (fillTurn n) = some (b.after
      ((b.exec none).handle_local ⟨[], none, n⟩ (filledId n) 0 0)) := by
    rw [Broker.step, hb.running]
    simp only [fillTurn, hb.accepting, if_true, Bool.false_eq_true, if_false]
  refine ⟨_, _, hstep, ?_⟩
  generalize hy : (b.exec none).handle_local ⟨[], none, n⟩ (filledId n) 0 0 = y
  have hset : Settled y.actor := by
    rw [← hy]
    exact handle_local_settled hb.settled hfresh
  -- no send fails, so the turn leaves the model as its one call does
  have hannounced : Announced b (fillTurn n) (b.after y).1 y.outputs := by
    rw [← hy]
    exact apply_announced rfl (fun _ => rfl) rfl hb.settled.linked (by rintro _ _ ⟨⟩) rfl rfl
  cases hannounced with
  | silent hnone => cases hnone
  | @applied event effects hevent hap _ _ =>
      obtain rfl := Option.some.inj hevent
      obtain ⟨hcons, hsubmitted⟩ := run_consistent hb.settled.run hb.settled.fresh
      have hnone : b.actor.state.pending.get? (filledId n) = none := by
        by_contra hne
        exact hfresh (hsubmitted _ hne)
      have hroom : b.actor.state.pending.len < b.actor.state.max_pending_requests := by
        rw [hb.len, run_max hb.settled.run, hlimits]
        exact hmax
      obtain ⟨hconn, hqueue, hflight, hlen⟩ := submit_goes_out hcons hb.timely hnone hb.connected
        hb.queue hroom (hb.in_flight ▸ hcap) hap
      refine ⟨hb.running, hb.accepting, hset, hconn, hqueue, ?_, ?_, ?_⟩
      · refine apply_timely hcons ?_ hap ?_
        · intro id hid
          obtain rfl := Option.some.inj hid
          exact hnone
        · intro deadline hdue
          obtain rfl := Option.some.inj hdue
          rw [hlimits]
          exact Nat.lt_add_of_pos_right htimeout
      · exact hflight.trans (congrArg (· + 1) hb.in_flight)
      · exact hlen.trans (congrArg (· + 1) hb.len)

/-- **Run lemma**: as many requests can be in flight to one session as both limits
    allow, if any can be admitted. -/
theorem exists_filled (htimeout : 0 < config.request_timeout.as_nanos)
    (hclock : config.request_timeout.secs < 2 ^ 63) {n : Nat} (hn : n ≤ 2 ^ 128)
    (hcap : n ≤ config.remote_capacity) (hmax : n ≤ config.max_pending_requests) :
    ∃ h b, DaemonRun config h b ∧ requestIds h = (List.range n).map filledId ∧
      Filled config n b := by
  induction n with
  | zero =>
      obtain ⟨b, outputs, hstep, hfilled⟩ := connectTurn_filled config
      have hrun : DaemonRun config ([] ++ [(connectTurn config, outputs)]) b :=
        .snoc .nil ⟨rfl, hstep⟩
      exact ⟨_, b, hrun, rfl, hfilled⟩
  | succ n ih =>
      obtain ⟨h, b, hrun, hids, hfilled⟩ := ih (by omega) (by omega) (by omega)
      have hc := run_configured hrun
      have hids' : (List.range (n + 1)).map filledId
          = requestIds h ++ [filledId n] := by
        rw [List.range_succ, List.map_append, hids]
        rfl
      have hfresh : filledId n ∉ submittedIds b.actor.calls := by
        have hnodup := filledIds_nodup hn
        rw [hids', ← hc.ids] at hnodup
        intro hmem
        exact List.disjoint_of_nodup_append hnodup hmem (List.mem_singleton.mpr rfl)
      obtain ⟨b', outputs, hstep, hfilled'⟩ :=
        fillTurn_filled htimeout hfilled hc.limits hfresh (by omega) (by omega)
      have hallows : config.Allows b (fillTurn n) := by
        refine ⟨.zero, .zero, rfl, rfl, handle_local_isSome.mpr ?_⟩
        have hnanos := config.request_timeout.nanos_lt
        have hzero : Timespec.zero.nanos = 0 := rfl
        rw [hzero, Representable, Duration.as_nanos]
        omega
      refine ⟨h ++ [(fillTurn n, outputs)], b', .snoc hrun ⟨hallows, hstep⟩, ?_, hfilled'⟩
      rw [requestIds_snoc, hids']
      rfl

/-- The client's buffer is never outgrown exactly when one of the limits keeps within it,
    or nothing can be admitted at all. -/
theorem in_flight_buffered_iff (htimeout : 0 < config.request_timeout.as_nanos) :
    (∀ h b, DaemonRun config h b → ∀ session_id,
        b.actor.state.in_flight_for session_id ≤ MAX_PENDING_REQUESTS) ↔
      min config.remote_capacity config.max_pending_requests ≤ MAX_PENDING_REQUESTS ∨
        2 ^ 63 ≤ config.request_timeout.secs := by
  constructor
  · intro hall
    by_contra hnot
    obtain ⟨hlarge, hclock⟩ := not_or.mp hnot
    have hmin := Nat.lt_of_not_le hlarge
    obtain ⟨h, b, hrun, hids, hfilled⟩ :=
      exists_filled htimeout (Nat.lt_of_not_le hclock)
        (n := MAX_PENDING_REQUESTS + 1) (by decide) (by omega) (by omega)
    have hle := hall h b hrun ⟨0⟩
    rw [hfilled.in_flight] at hle
    exact absurd hle (Nat.not_succ_le_self _)
  · rintro (hsmall | hclock) h b hrun session_id
    · exact (run_in_flight_le hrun session_id).trans hsmall
    · -- nothing was admitted, so nothing is pending
      have hc := run_configured hrun
      have hnone : submittedIds b.actor.calls = [] := hc.ids.trans (requestIds_eq_nil hclock hrun)
      have hzero : b.actor.state.in_flight_for session_id = 0 := by
        refine in_flight_for_eq_zero ?_
        intro id p hp
        obtain ⟨c, hcall, hevent⟩ := run_submitted hc.run id p hp
        have hid : id ∈ submittedIds b.actor.calls := by
          refine List.mem_filterMap.mpr ⟨c, hcall, ?_⟩
          rw [hevent]
          rfl
        rw [hnone] at hid
        cases hid
      rw [hzero]
      exact Nat.zero_le _

end Filling

/-! ## What validation leaves open -/

/-- **When a validated configuration is sufficient.**  An admission overflows no clock
    exactly when the timeout added to either clock stays in its range; the two stamps
    that go out for a request are safe integers exactly when the wall clock at its
    admission plus the timeout stays below 2^53 milliseconds; and the requests in flight
    to a session never exceed the client's buffer exactly when the capacity or the
    number of pending requests keeps within it (or no request can be admitted). -/
theorem validated_config_sufficient_iff {parse : String → Except String Unit} {config : Config}
    (hvalid : config.validate parse = .ok ()) :
    (∀ x request request_id now requested_at,
      (config.handle_local x request request_id now requested_at).isSome = true ↔
        Representable (now.nanos + config.request_timeout.as_nanos) ∧
          Representable (requested_at.nanos + config.request_timeout.as_nanos)) ∧
    (∀ h b, DaemonRun config h b →
      ∀ l ∈ h, ∀ outbound id attempt requested_at deadline packet context,
        .sent outbound (.request id attempt requested_at deadline packet context) ∈ l.2 →
        ∃ k ∈ h, ∃ request wall, k.1.input = .localRequest request id wall ∧
          requested_at = unix_milliseconds wall ∧
          deadline = unix_milliseconds (wall + config.request_timeout.as_nanos) ∧
          ((requested_at.toNat ≤ 2 ^ 53 - 1 ∧ deadline.toNat ≤ 2 ^ 53 - 1) ↔
            wall + config.request_timeout.as_nanos < 2 ^ 53 * 1000000)) ∧
    ((∀ h b, DaemonRun config h b → ∀ session_id,
        b.actor.state.in_flight_for session_id ≤ MAX_PENDING_REQUESTS) ↔
      min config.remote_capacity config.max_pending_requests ≤ MAX_PENDING_REQUESTS ∨
        2 ^ 63 ≤ config.request_timeout.secs) := by
  obtain ⟨_, _, htimeout, _⟩ := validate_ok parse hvalid
  refine ⟨?_, ?_, in_flight_buffered_iff htimeout⟩
  · intro x request request_id now requested_at
    exact handle_local_isSome
  · intro h b hrun l hl outbound id attempt requested_at deadline packet context hsent
    obtain ⟨k, hk, request, wall, hin, hrequested, hdeadline⟩ := run_sent_stamped hrun hl hsent
    refine ⟨k, hk, request, wall, hin, hrequested, hdeadline, ?_⟩
    dsimp only at hrequested hdeadline
    rw [hrequested, hdeadline]
    exact stamps_safe wall config.request_timeout.as_nanos

/-- The defaults keep a session within the client's buffer. -/
theorem default_config_buffered :
    (∀ parse, Config.default.validate parse = .ok ()) ∧
      ∀ h b, DaemonRun .default h b → ∀ session_id,
        b.actor.state.in_flight_for session_id ≤ MAX_PENDING_REQUESTS := by
  refine ⟨validate_default, ?_⟩
  exact (validated_config_sufficient_iff (validate_default (fun _ => .ok ()))).2.2.mpr
    (Or.inl (by decide))

/-- A timeout of `u64::MAX` seconds. -/
def endlessTimeout : Config :=
  { Config.default with request_timeout := fromSecs 0xFFFFFFFFFFFFFFFF }

/-- A timeout of 10^13 seconds. -/
def distantTimeout : Config :=
  { Config.default with request_timeout := fromSecs 10000000000000 }

/-- Limits one larger than the client's buffer. -/
def oversizedCapacity : Config :=
  { Config.default with max_pending_requests := 33, remote_capacity := 33 }

/-- **Three validated configurations that are not sufficient.**  With the endless timeout
    the first admission panics, with the distant one the deadline that goes on the wire
    is not a safe integer, and with the oversized limits one session has more requests in
    flight than the client buffers. -/
theorem validated_config_insufficient :
    (∀ parse, endlessTimeout.validate parse = .ok () ∧ distantTimeout.validate parse = .ok () ∧
      oversizedCapacity.validate parse = .ok ()) ∧
    (∀ x request request_id,
      endlessTimeout.handle_local x request request_id .zero .zero = none) ∧
    (∃ deadline : UInt64, 2 ^ 53 - 1 < deadline.toNat ∧
      distantTimeout.submission ⟨[], none, 0⟩ ⟨0⟩ .zero .zero
        = some (.submit ⟨0⟩ [] none 10000000000000000000000 0 deadline)) ∧
    ∃ h b, DaemonRun oversizedCapacity h b ∧ (requestIds h).Nodup ∧
      MAX_PENDING_REQUESTS < b.actor.state.in_flight_for ⟨0⟩ := by
  refine ⟨fun parse => ⟨rfl, rfl, rfl⟩, ?_, ⟨10000000000000000, by decide, rfl⟩, ?_⟩
  · intro x request request_id
    rw [← Option.not_isSome_iff_eq_none, handle_local_isSome]
    decide
  · have htimeout : 0 < oversizedCapacity.request_timeout.as_nanos := by decide
    obtain ⟨h, b, hrun, hids, hfilled⟩ :=
      exists_filled htimeout (by decide) (n := MAX_PENDING_REQUESTS + 1) (by decide) (by decide)
        (by decide)
    refine ⟨h, b, hrun, hids ▸ filledIds_nodup (by decide), ?_⟩
    rw [hfilled.in_flight]
    exact Nat.lt_succ_self _

end DaemonConfig
