import ScTransport.Telemetry.Framing
import ScTransport.Telemetry.Sse

/-!
# Events over datagrams

`QuicDatagramTransport` of `sc-transport-datagrams`: an event is sent as a datagram and mirrored
to the SSE transport, from which its subscribers read.

- `QuicDatagramTransport.sendEvent`: the source's `send_event` with all its exits
- `Exit`: how a call ends
- `Accounted`: what one call does to the subscribers
- `transitions_survive`: which runs of calls deliver the transitions an SSE subscriber sees

The float comparison of the loss rate with its threshold is a parameter of the transport, and how
a datagram fares is a parameter of each call.
-/

namespace ScTransport

open Infra

structure QuicDatagramTransport where
  fallback : HttpSseTransport
  sent : Nat
  dropped : Nat
  fallbackCount : Nat
  /-- Oldest sample first. -/
  lossWindow : List Bool
  lossWindowSize : Nat
  maxDatagramSize : Nat
  preferredDatagramSize : Nat
  progressDropEvery : Nat
  /-- The loss rate of a window is above `effective_fallback_threshold`. -/
  lossRateExceeded : List Bool → Bool

/-- The result of `send_event_over_datagram`. -/
inductive DatagramOutcome where
  | sent
  | policyRefusal
  | failed
  deriving DecidableEq

/-- A call, with the clock it reads and how its datagram fares. A build without `quic-datagrams`
takes the branch of a failed datagram. -/
structure DatagramCall extends SendCall where
  now : Nat
  outcome : DatagramOutcome

namespace TelemetryEvent

/-- `payload.get(key).and_then(as_bool).unwrap_or(false)`. -/
def flag (event : TelemetryEvent) (key : String) : Bool :=
  ((event.payload.get key).bind Json.asBool).getD false

def shouldForceFallback (event : TelemetryEvent) : Bool :=
  event.flag "force_fallback"

def isSimulatedLossEvent (event : TelemetryEvent) : Bool :=
  event.flag "simulated_loss"

/-- The event with its payload replaced by a summary; the keys of a JSON object are sorted. -/
def truncated (event : TelemetryEvent) : TelemetryEvent :=
  { event with
    payload := .object [("original_payload_type", .string "summary"), ("truncated", .bool true)] }

/-- The event, or at least its summary, fits a datagram of `size` bytes. -/
def fitsDatagram (M : MsgPack) (size : Nat) (event : TelemetryEvent) : Bool :=
  match M.toVecNamed event with
  | .error _ => false
  | .ok bytes =>
    bytes.length ≤ size || match M.toVecNamed event.truncated with
      | .error _ => false
      | .ok summary => summary.length ≤ size

end TelemetryEvent

/-- The part of `QuicDatagramConfig` that `with_config` reads, with its defaults. -/
structure QuicDatagramConfig where
  maxDatagramBytes : Nat := 1200
  preferredDatagramBytes : Nat := 900
  lossWindowSize : Nat := 100

/-- `SC_DGRAM_MAX_BYTES`, `SC_DGRAM_PREFERRED_BYTES` and `SC_DGRAM_PROGRESS_DROP_EVERY`. -/
structure DatagramEnv where
  maxBytes : Option Nat
  preferredBytes : Option Nat
  progressDropEvery : Option Nat

namespace QuicDatagramTransport

def withConfig (config : QuicDatagramConfig) (env : DatagramEnv)
    (lossRateExceeded : List Bool → Bool) : QuicDatagramTransport :=
  let maxDatagramSize := env.maxBytes.getD config.maxDatagramBytes
  { fallback := ⟨[], 0, 0⟩
    sent := 0
    dropped := 0
    fallbackCount := 0
    lossWindow := []
    lossWindowSize := config.lossWindowSize
    maxDatagramSize
    preferredDatagramSize :=
      min (env.preferredBytes.getD config.preferredDatagramBytes) maxDatagramSize
    progressDropEvery := env.progressDropEvery.getD 0
    lossRateExceeded }

def shouldDropForRateLimit (t : QuicDatagramTransport) (event : TelemetryEvent) : Bool :=
  0 < t.progressDropEvery && event.eventType = .progress &&
    t.sent % t.progressDropEvery = t.progressDropEvery - 1

def recordLossSample (t : QuicDatagramTransport) (delivered : Bool) : QuicDatagramTransport :=
  let window := t.lossWindow ++ [delivered]
  { t with lossWindow := if window.length > t.lossWindowSize then window.tail else window }

def shouldTriggerFallbackByLoss (t : QuicDatagramTransport) : Bool :=
  if t.lossWindow.length < 10 then false else t.lossRateExceeded t.lossWindow

def serializeEventForDatagram (M : MsgPack) (t : QuicDatagramTransport) (event : TelemetryEvent) :
    Except TransportError (Bytes × Bool) := do
  let original ← (M.toVecNamed event).mapError .serialization
  if original.length ≤ t.maxDatagramSize then
    return (original, false)
  let truncated ← (M.toVecNamed event.truncated).mapError .serialization
  if truncated.length ≤ t.maxDatagramSize then
    return (truncated, true)
  else throw (.unavailable "datagram too large even after truncation")

/-- `self.fallback.send_event`, whose result every caller ignores. -/
def mirror (t : QuicDatagramTransport) (runId : String) (event : TelemetryEvent) :
    QuicDatagramTransport :=
  { t with fallback := (t.fallback.sendEvent runId event).1 }

def countFallback (t : QuicDatagramTransport) : QuicDatagramTransport :=
  { t with fallbackCount := (t.fallbackCount + 1) % 2 ^ 64 }

/-- A lost event: one more sample, one more drop. -/
def countDrop (t : QuicDatagramTransport) : QuicDatagramTransport :=
  let t := t.recordLossSample false
  { t with dropped := (t.dropped + 1) % 2 ^ 64 }

/-- How the exits that lost an event end. -/
def dropOrFallBack (t : QuicDatagramTransport) : QuicDatagramTransport × DeliveryStatus :=
  if t.shouldTriggerFallbackByLoss then
    (t.countFallback, .fellBack "loss_threshold_exceeded")
  else (t, .dropped)

/-- How the exits that leave an event to SSE end. -/
def routeToSse (t : QuicDatagramTransport) (call : DatagramCall) (reason : String) :
    QuicDatagramTransport × DeliveryStatus :=
  ((t.mirror call.runId (fallbackEvent call.runId reason call.now)).mirror call.runId call.event,
    .fellBack reason)

/-- `send_event`. -/
def sendEvent (M : MsgPack) (t : QuicDatagramTransport) (call : DatagramCall) :
    QuicDatagramTransport × DeliveryStatus :=
  let t := { t with sent := (t.sent + 1) % 2 ^ 64 }
  if call.event.shouldForceFallback then
    (t.recordLossSample false).countFallback.routeToSse call "forced_by_event_payload"
  else if call.event.isSimulatedLossEvent then
    t.countDrop.dropOrFallBack
  else if t.shouldDropForRateLimit call.event then
    t.countDrop.dropOrFallBack
  else match t.serializeEventForDatagram M call.event with
    -- the event is not mirrored here
    | .error _ => (t.countDrop, .dropped)
    | .ok (bytes, _) =>
      if bytes.length > t.preferredDatagramSize then
        t.countFallback.routeToSse call "payload_over_preferred_datagram_size"
      else match call.outcome with
        | .sent => ((t.recordLossSample true).mirror call.runId call.event, .sent)
        | .policyRefusal => t.routeToSse call "datagram_policy_route_to_sse"
        | .failed => (t.countDrop.mirror call.runId call.event).dropOrFallBack

/-- `subscribe`. -/
def subscribe (t : QuicDatagramTransport) (runId : String) : QuicDatagramTransport :=
  { t with fallback := t.fallback.subscribe runId }

def sendAll (M : MsgPack) (t : QuicDatagramTransport) (calls : List DatagramCall) :
    QuicDatagramTransport :=
  calls.foldl (fun t call => (t.sendEvent M call).1) t

/-! ## The exits of a call -/

/-- How a call ends, from the transport that has counted its event as sent. -/
inductive Exit (M : MsgPack) (t : QuicDatagramTransport) (call : DatagramCall) :
    QuicDatagramTransport × DeliveryStatus → Prop where
  | forced (hforce : call.event.shouldForceFallback = true) :
    Exit M t call
      ((t.recordLossSample false).countFallback.routeToSse call "forced_by_event_payload")
  | lost (hforce : call.event.shouldForceFallback = false)
    (hlost : call.event.isSimulatedLossEvent = true ∨ t.shouldDropForRateLimit call.event = true) :
    Exit M t call t.countDrop.dropOrFallBack
  | unserializable {e : TransportError} (hforce : call.event.shouldForceFallback = false)
    (hlost : ¬ (call.event.isSimulatedLossEvent = true ∨
      t.shouldDropForRateLimit call.event = true))
    (hser : t.serializeEventForDatagram M call.event = .error e) :
    Exit M t call (t.countDrop, .dropped)
  | large {bytes : Bytes} {flag : Bool} (hforce : call.event.shouldForceFallback = false)
    (hlost : ¬ (call.event.isSimulatedLossEvent = true ∨
      t.shouldDropForRateLimit call.event = true))
    (hser : t.serializeEventForDatagram M call.event = .ok (bytes, flag))
    (hlarge : t.preferredDatagramSize < bytes.length) :
    Exit M t call (t.countFallback.routeToSse call "payload_over_preferred_datagram_size")
  | datagram {bytes : Bytes} {flag : Bool} (hforce : call.event.shouldForceFallback = false)
    (hlost : ¬ (call.event.isSimulatedLossEvent = true ∨
      t.shouldDropForRateLimit call.event = true))
    (hser : t.serializeEventForDatagram M call.event = .ok (bytes, flag))
    (hfits : bytes.length ≤ t.preferredDatagramSize) :
    Exit M t call
      (match call.outcome with
        | .sent => ((t.recordLossSample true).mirror call.runId call.event, .sent)
        | .policyRefusal => t.routeToSse call "datagram_policy_route_to_sse"
        | .failed => (t.countDrop.mirror call.runId call.event).dropOrFallBack)

theorem sendEvent_exit (M : MsgPack) (t : QuicDatagramTransport) (call : DatagramCall) :
    Exit M { t with sent := (t.sent + 1) % 2 ^ 64 } call (t.sendEvent M call) := by
  unfold sendEvent
  generalize { t with sent := (t.sent + 1) % 2 ^ 64 } = t
  dsimp only
  cases hforce : call.event.shouldForceFallback with
  | true =>
    rw [if_pos rfl]
    exact .forced hforce
  | false =>
    rw [if_neg Bool.false_ne_true]
    by_cases hloss : call.event.isSimulatedLossEvent = true
    · rw [if_pos hloss]
      exact .lost hforce (Or.inl hloss)
    by_cases hrate : t.shouldDropForRateLimit call.event = true
    · rw [if_neg hloss, if_pos hrate]
      exact .lost hforce (Or.inr hrate)
    rw [if_neg hloss, if_neg hrate]
    have hlost := not_or.mpr ⟨hloss, hrate⟩
    cases hser : t.serializeEventForDatagram M call.event with
    | error e => exact .unserializable hforce hlost hser
    | ok datagram =>
      dsimp only
      split
      · next hlarge => exact .large hforce hlost hser hlarge
      · next hlarge => exact .datagram hforce hlost hser (Nat.le_of_not_lt hlarge)

/-! ## What one call does to the subscribers -/

theorem serializeEventForDatagram_isOk (M : MsgPack) (t : QuicDatagramTransport)
    (event : TelemetryEvent) :
    (t.serializeEventForDatagram M event).isOk = event.fitsDatagram M t.maxDatagramSize := by
  unfold serializeEventForDatagram TelemetryEvent.fitsDatagram
  cases M.toVecNamed event with
  | error e => rfl
  | ok original =>
    by_cases hlen : original.length ≤ t.maxDatagramSize
    · simp [Except.mapError, hlen, bind, Except.bind, pure, Except.pure, Except.isOk,
        Except.toBool]
    · cases M.toVecNamed event.truncated with
      | error e => simp [Except.mapError, hlen, bind, Except.bind, Except.isOk, Except.toBool]
      | ok summary =>
        by_cases hsum : summary.length ≤ t.maxDatagramSize
        · simp [Except.mapError, hlen, hsum, bind, Except.bind, pure, Except.pure, Except.isOk,
            Except.toBool]
        · simp [Except.mapError, hlen, hsum, bind, Except.bind, throw, throwThe,
            MonadExceptOf.throw, Except.isOk, Except.toBool]

/-- A call sent `events` to the subscribers of `runId` and kept the size limit. -/
structure Accounted (t t' : QuicDatagramTransport) (runId : String)
    (events : List TelemetryEvent) : Prop where
  subscribers : t'.fallback.subscribers =
    t.fallback.subscribers.map (Subscriber.receive runId events)
  maxDatagramSize : t'.maxDatagramSize = t.maxDatagramSize

/-- Neither the subscribers nor the size limit were touched. -/
theorem Accounted.of_eq {t t' : QuicDatagramTransport} (hf : t'.fallback = t.fallback)
    (hm : t'.maxDatagramSize = t.maxDatagramSize) (runId : String) : Accounted t t' runId [] where
  subscribers := by rw [hf, Subscriber.receive_nil, List.map_id]
  maxDatagramSize := hm

theorem Accounted.mirror {t t' : QuicDatagramTransport} {runId : String}
    {events : List TelemetryEvent} (h : Accounted t t' runId events) (event : TelemetryEvent) :
    Accounted t (t'.mirror runId event) runId (events ++ [event]) where
  subscribers := by
    rw [QuicDatagramTransport.mirror, HttpSseTransport.subscribers_sendEvent, h.subscribers,
      List.map_map, Subscriber.receive_comp_receive]
  maxDatagramSize := h.maxDatagramSize

theorem Accounted.dropOrFallBack {t t' : QuicDatagramTransport} {runId : String}
    {events : List TelemetryEvent} (h : Accounted t t' runId events) :
    Accounted t t'.dropOrFallBack.1 runId events := by
  unfold QuicDatagramTransport.dropOrFallBack
  split
  · exact ⟨h.subscribers, h.maxDatagramSize⟩
  · exact h

theorem Accounted.routeToSse {t t' : QuicDatagramTransport} {call : DatagramCall}
    (h : Accounted t t' call.runId []) (reason : String) :
    Accounted t (t'.routeToSse call reason).1 call.runId
      [fallbackEvent call.runId reason call.now, call.event] :=
  (h.mirror _).mirror _

/-- Only progress events are dropped by the rate limit. -/
theorem isTransition_of_rateLimit {t : QuicDatagramTransport} {event : TelemetryEvent}
    (h : t.shouldDropForRateLimit event = true) : event.isTransition = false := by
  simp only [shouldDropForRateLimit, Bool.and_eq_true, decide_eq_true_iff] at h
  simp [TelemetryEvent.isTransition, h.1.2]

/--
**One call.** Of an event whose payload asks for no loss and no fallback, the subscribers see a
transition exactly when it fits a datagram.
-/
theorem sendEvent_accounted (M : MsgPack) (t : QuicDatagramTransport) {call : DatagramCall}
    (hforce : call.event.shouldForceFallback = false)
    (hloss : call.event.isSimulatedLossEvent = false) :
    ∃ events, Accounted t (t.sendEvent M call).1 call.runId events ∧
      events.filter TelemetryEvent.isTransition =
        if call.event.isTransition && call.event.fitsDatagram M t.maxDatagramSize then
          [call.event]
        else [] := by
  -- every exit sends some announcements, and then the event or nothing
  have hsent : ∀ announced : List TelemetryEvent,
      announced.filter TelemetryEvent.isTransition = [] →
      call.event.fitsDatagram M t.maxDatagramSize = true →
      (announced ++ [call.event]).filter TelemetryEvent.isTransition =
        if call.event.isTransition && call.event.fitsDatagram M t.maxDatagramSize then
          [call.event]
        else [] := by
    intro announced hann hfits
    rw [List.filter_append, hann, hfits, Bool.and_true, List.nil_append, List.filter_cons,
      List.filter_nil]
  have hstart : ∀ t' : QuicDatagramTransport, t'.fallback = t.fallback →
      t'.maxDatagramSize = t.maxDatagramSize → Accounted t t' call.runId [] :=
    fun t' hf hm => Accounted.of_eq hf hm call.runId
  have hok := serializeEventForDatagram_isOk M { t with sent := (t.sent + 1) % 2 ^ 64 } call.event
  have hexit := t.sendEvent_exit M call
  generalize t.sendEvent M call = result at hexit ⊢
  cases hexit with
  | forced h => exact absurd (hforce.symm.trans h) Bool.false_ne_true
  | lost _ hlost =>
    have hrate := hlost.resolve_left (by rw [hloss]; exact Bool.false_ne_true)
    refine ⟨[], Accounted.dropOrFallBack (hstart _ rfl rfl), ?_⟩
    rw [isTransition_of_rateLimit hrate]
    rfl
  | unserializable _ _ hser =>
    rw [hser] at hok
    refine ⟨[], hstart _ rfl rfl, ?_⟩
    rw [show call.event.fitsDatagram M t.maxDatagramSize = false from hok.symm, Bool.and_false]
    rfl
  | large _ _ hser =>
    rw [hser] at hok
    refine ⟨_, Accounted.routeToSse (hstart _ ?_ ?_) _, hsent [fallbackEvent _ _ _] rfl hok.symm⟩
    all_goals rfl
  | datagram _ _ hser =>
    rw [hser] at hok
    have hfits : call.event.fitsDatagram M t.maxDatagramSize = true := hok.symm
    split
    · refine ⟨_, Accounted.mirror (hstart _ ?_ ?_) _, hsent [] rfl hfits⟩
      all_goals rfl
    · refine ⟨_, Accounted.routeToSse (hstart _ ?_ ?_) _, hsent [fallbackEvent _ _ _] rfl hfits⟩
      all_goals rfl
    · refine ⟨_, Accounted.dropOrFallBack (Accounted.mirror (hstart _ ?_ ?_) _),
        hsent [] rfl hfits⟩
      all_goals rfl

end QuicDatagramTransport

/-! ## A run of calls -/

section Run

variable (M : MsgPack)

/-- The payload asks for neither a simulated loss nor a fallback. -/
def DatagramCall.Plain (call : DatagramCall) : Prop :=
  call.event.shouldForceFallback = false ∧ call.event.isSimulatedLossEvent = false

/-- The calls that send a transition of the run. -/
def transitionsOf (runId : String) (calls : List DatagramCall) : List DatagramCall :=
  calls.filter fun call => runId = call.runId && call.event.isTransition

/-- What a subscriber of the run sees of them: those that fit a datagram. -/
theorem QuicDatagramTransport.getElem?_sendAll {k : Nat} {calls : List DatagramCall}
    (hplain : ∀ call ∈ calls, call.Plain) :
    ∀ {t : QuicDatagramTransport} {s : Subscriber}, t.fallback.subscribers[k]? = some s →
      ∃ s', (t.sendAll M calls).fallback.subscribers[k]? = some s' ∧
        s'.received.filter TelemetryEvent.isTransition =
          s.received.filter TelemetryEvent.isTransition ++
            ((transitionsOf s.runId calls).map fun call => call.event).filter
              (TelemetryEvent.fitsDatagram M t.maxDatagramSize) := by
  induction calls with
  | nil =>
    intro t s h
    exact ⟨s, h, (List.append_nil _).symm⟩
  | cons call rest ih =>
    intro t s h
    obtain ⟨hforce, hloss⟩ := hplain call List.mem_cons_self
    obtain ⟨events, hacc, hfilter⟩ := t.sendEvent_accounted M hforce hloss
    have hstep : (t.sendEvent M call).1.fallback.subscribers[k]? =
        some (s.receive call.runId events) := by
      rw [hacc.subscribers, List.getElem?_map, h]
      rfl
    obtain ⟨s', hs', heq⟩ := ih (fun c hc => hplain c (List.mem_cons_of_mem _ hc)) hstep
    refine ⟨s', hs', ?_⟩
    rw [heq, hacc.maxDatagramSize, Subscriber.runId_receive, Subscriber.received_receive,
      List.filter_append, List.append_assoc]
    unfold transitionsOf
    by_cases hrun : s.runId = call.runId
    · rw [if_pos hrun, hfilter]
      cases htrans : call.event.isTransition with
      | false => simp [hrun, htrans]
      | true =>
        cases hfits : call.event.fitsDatagram M t.maxDatagramSize with
        | false => simp [hrun, htrans, hfits]
        | true => simp [hrun, htrans, hfits]
    · simp [hrun]

/-- What an SSE subscriber sees of the same calls. -/
theorem filter_isTransition_events (runId : String) (calls : List DatagramCall) :
    (((calls.map DatagramCall.toSendCall).filter fun call => runId = call.runId).map
      SendCall.event).filter TelemetryEvent.isTransition =
      (transitionsOf runId calls).map fun call => call.event := by
  induction calls with
  | nil => rfl
  | cons call rest ih =>
    unfold transitionsOf at ih ⊢
    by_cases hrun : runId = call.runId
    · cases htrans : call.event.isTransition with
      | false => simpa [hrun, htrans] using ih
      | true => simpa [hrun, htrans] using ih
    · simpa [hrun] using ih

/-- The events a new subscriber of the run receives from the calls. -/
def HttpSseTransport.streamOf (t : HttpSseTransport) (runId : String) (calls : List SendCall) :
    List TelemetryEvent :=
  ((t.subscribe runId).sendAll calls).receivedBy t.subscribers.length

/-- The events a new subscriber of the run receives from the calls. -/
def QuicDatagramTransport.streamOf (t : QuicDatagramTransport) (runId : String)
    (calls : List DatagramCall) : List TelemetryEvent :=
  ((t.subscribe runId).sendAll M calls).fallback.receivedBy t.fallback.subscribers.length

theorem HttpSseTransport.getElem?_subscribe (t : HttpSseTransport) (runId : String) :
    (t.subscribe runId).subscribers[t.subscribers.length]? = some ⟨runId, []⟩ :=
  List.getElem?_concat_length

theorem HttpSseTransport.transitions_streamOf (t : HttpSseTransport) (runId : String)
    (calls : List DatagramCall) :
    (t.streamOf runId (calls.map DatagramCall.toSendCall)).filter TelemetryEvent.isTransition =
      (transitionsOf runId calls).map fun call => call.event := by
  have hget := getElem?_sendAll (calls.map DatagramCall.toSendCall) (t.getElem?_subscribe runId)
  rw [streamOf, receivedBy, hget]
  exact filter_isTransition_events runId calls

theorem QuicDatagramTransport.transitions_streamOf (t : QuicDatagramTransport) (runId : String)
    {calls : List DatagramCall} (hplain : ∀ call ∈ calls, call.Plain) :
    (t.streamOf M runId calls).filter TelemetryEvent.isTransition =
      ((transitionsOf runId calls).map fun call => call.event).filter
        (TelemetryEvent.fitsDatagram M t.maxDatagramSize) := by
  have hsub : (t.subscribe runId).fallback.subscribers[t.fallback.subscribers.length]? =
      some ⟨runId, []⟩ := t.fallback.getElem?_subscribe runId
  obtain ⟨s', hget, heq⟩ := getElem?_sendAll M hplain hsub
  rw [streamOf, HttpSseTransport.receivedBy, hget]
  exact heq

/--
**Transparency.** A subscriber sees the transitions an SSE subscriber sees for the same calls
exactly when each of them, or its summary, fits a datagram; and then both derive the same state.
-/
theorem transitions_survive (t : QuicDatagramTransport) (sse : HttpSseTransport) (runId : String)
    (calls : List DatagramCall) (hplain : ∀ call ∈ calls, call.Plain) :
    ((t.streamOf M runId calls).filter TelemetryEvent.isTransition =
        (sse.streamOf runId (calls.map DatagramCall.toSendCall)).filter
          TelemetryEvent.isTransition ↔
      ∀ call ∈ calls, call.runId = runId → call.event.isTransition = true →
        call.event.fitsDatagram M t.maxDatagramSize = true) ∧
    ((∀ call ∈ calls, call.runId = runId → call.event.isTransition = true →
        call.event.fitsDatagram M t.maxDatagramSize = true) →
      finalState (t.streamOf M runId calls) =
        finalState (sse.streamOf runId (calls.map DatagramCall.toSendCall))) := by
  have hiff : (t.streamOf M runId calls).filter TelemetryEvent.isTransition =
        (sse.streamOf runId (calls.map DatagramCall.toSendCall)).filter
          TelemetryEvent.isTransition ↔
      ∀ call ∈ calls, call.runId = runId → call.event.isTransition = true →
        call.event.fitsDatagram M t.maxDatagramSize = true := by
    rw [t.transitions_streamOf M runId hplain, sse.transitions_streamOf, List.filter_eq_self]
    constructor
    · intro h call hcall hrun htrans
      refine h call.event (List.mem_map_of_mem (List.mem_filter.mpr ⟨hcall, ?_⟩))
      simp [hrun, htrans]
    · intro h event hevent
      obtain ⟨call, hcall, rfl⟩ := List.mem_map.mp hevent
      obtain ⟨hmem, hmoves⟩ := List.mem_filter.mp hcall
      rw [Bool.and_eq_true, decide_eq_true_iff] at hmoves
      exact h call hmem hmoves.1.symm hmoves.2
  refine ⟨hiff, fun hfits => ?_⟩
  rw [← finalState_filter, hiff.mpr hfits, finalState_filter]

end Run

/-! ### A run that starts, under two size limits -/

/-- `rmp_serde` on `sampleTelemetry` and on its summary. -/
def MsgPack.sampleSummary : MsgPack where
  toVecNamed
    | ⟨"r", none, .runStarted, 1, .null⟩ => .ok sampleTelemetryBytes
    | ⟨"r", none, .runStarted, 1, .object [("original_payload_type", .string "summary"),
        ("truncated", .bool true)]⟩ =>
      .ok (sampleTelemetryBytes.dropLast ++ 0x82 :: fixstr "original_payload_type" ++
        fixstr "summary" ++ fixstr "truncated" ++ [0xc3])
    | _ => .error "not the sample"
  fromSlice bytes :=
    if bytes = sampleTelemetryBytes then .ok sampleTelemetry else .error "not the sample"

/-- A new transport, with `SC_DGRAM_MAX_BYTES` set. -/
def sampleDatagrams (limit : Nat) : QuicDatagramTransport :=
  .withConfig {} ⟨some limit, none, none⟩ fun _ => false

def sampleStarted : DatagramCall := ⟨⟨"r", sampleTelemetry⟩, 2, .failed⟩

/-- With room for the event the failed datagram changes nothing. -/
theorem sample_transitions_survive :
    finalState ((sampleDatagrams 1200).streamOf MsgPack.sampleSummary "r" [sampleStarted]) =
      .running ∧
    ((sampleDatagrams 1200).streamOf MsgPack.sampleSummary "r" [sampleStarted]).filter
        TelemetryEvent.isTransition =
      (HttpSseTransport.streamOf ⟨[], 0, 0⟩ "r" [sampleStarted.toSendCall]).filter
        TelemetryEvent.isTransition := by
  refine ⟨by decide +kernel, ?_⟩
  refine (transitions_survive MsgPack.sampleSummary (sampleDatagrams 1200) ⟨[], 0, 0⟩ "r"
    [sampleStarted] ?_).1.mpr ?_
  · intro call hcall
    obtain rfl := List.mem_singleton.mp hcall
    exact ⟨by decide +kernel, by decide +kernel⟩
  · intro call hcall _ _
    obtain rfl := List.mem_singleton.mp hcall
    decide +kernel

/-- With a limit of 64 bytes not even the summary fits: nobody learns that the run started. -/
theorem sample_transition_dropped :
    sampleStarted.Plain ∧
    ((sampleDatagrams 64).sendEvent MsgPack.sampleSummary sampleStarted).2 = .dropped ∧
    ((sampleDatagrams 64).streamOf MsgPack.sampleSummary "r" [sampleStarted]).filter
        TelemetryEvent.isTransition ≠
      (HttpSseTransport.streamOf ⟨[], 0, 0⟩ "r" [sampleStarted.toSendCall]).filter
        TelemetryEvent.isTransition ∧
    finalState ((sampleDatagrams 64).streamOf MsgPack.sampleSummary "r" [sampleStarted]) =
      .unknown ∧
    finalState (HttpSseTransport.streamOf ⟨[], 0, 0⟩ "r" [sampleStarted.toSendCall]) =
      .running := by
  refine ⟨⟨by decide +kernel, by decide +kernel⟩, by decide +kernel, fun h => ?_,
    by decide +kernel, by decide +kernel⟩
  have hlen := congrArg List.length h
  revert hlen
  decide +kernel

end ScTransport
