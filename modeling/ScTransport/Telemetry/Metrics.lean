import ScTransport.Telemetry.Datagram
import ScTransport.Telemetry.Stream
import ScTransport.Infra.Lts

/-!
# What the transports report

`metrics()` of the three transports, after any calls of `send_event` and with subscribers that
come and go.

- `Transport`: the trait, as far as calls change a transport
- `Transport.Counting.balanced`: what every call must count for the balance to hold in every run
- `counters_balanced`: when no more is delivered and dropped than was sent
-/

namespace ScTransport

open Infra

structure TransportMetrics where
  eventsSent : Nat
  eventsDelivered : Nat
  eventsDropped : Nat
  fallbackCount : Nat
  currentMode : String
  activeSubscribers : Nat
  deriving DecidableEq

namespace TransportMetrics

def Balanced (m : TransportMetrics) : Prop :=
  m.eventsDelivered + m.eventsDropped ≤ m.eventsSent

/-- From `m` to `m'` one event was sent, and at most one delivered or dropped. -/
structure CountsOne (m m' : TransportMetrics) : Prop where
  sent : m'.eventsSent = m.eventsSent + 1
  le : m'.eventsDelivered + m'.eventsDropped ≤ m.eventsDelivered + m.eventsDropped + 1

theorem CountsOne.balanced {m m' : TransportMetrics} (h : CountsOne m m') (hm : m.Balanced) :
    m'.Balanced := by
  have hle := h.le
  unfold Balanced at hm ⊢
  rw [h.sent]
  omega

end TransportMetrics

/-! ## Transports -/

/-- `trait Transport`, and what becomes of a transport when a subscriber leaves. -/
structure Transport (T C : Type) where
  sendEvent : T → C → T × DeliveryStatus
  subscribe : T → String → T
  leave : T → Nat → T
  metrics : T → TransportMetrics

inductive TransportLabel (C : Type) where
  | send (call : C)
  | subscribe (runId : String)
  | leave (k : Nat)

namespace Transport

variable {T C : Type} (X : Transport T C)

def system : Lts T (TransportLabel C) where
  step t
    | .send call => some (X.sendEvent t call).1
    | .subscribe runId => some (X.subscribe t runId)
    | .leave k => some (X.leave t k)

/-- The call is `ok`, and `events_sent` does not wrap. -/
def allows (ok : T → C → Bool) (t : T) : TransportLabel C → Bool
  | .send call => decide ((X.metrics t).eventsSent + 1 < 2 ^ 64) && ok t call
  | _ => true

/-- Calls that are `ok` count one event, and subscribers do not matter. -/
structure Counting (ok : T → C → Bool) : Prop where
  send {t : T} {call : C} (hfits : (X.metrics t).eventsSent + 1 < 2 ^ 64)
    (hok : ok t call = true) : (X.metrics t).CountsOne (X.metrics (X.sendEvent t call).1)
  subscribe {t : T} (runId : String) (h : (X.metrics t).Balanced) :
    (X.metrics (X.subscribe t runId)).Balanced
  leave {t : T} (k : Nat) (h : (X.metrics t).Balanced) : (X.metrics (X.leave t k)).Balanced

variable {X}

theorem Counting.step {ok : T → C → Bool} (hX : X.Counting ok) {t t' : T}
    {l : TransportLabel C} (h : (X.metrics t).Balanced) (hok : X.allows ok t l = true)
    (hs : X.system.step t l = some t') : (X.metrics t').Balanced := by
  cases l with
  | send call =>
    cases hs
    simp only [allows, Bool.and_eq_true, decide_eq_true_eq] at hok
    exact (hX.send hok.1 hok.2).balanced h
  | subscribe runId =>
    cases hs
    exact hX.subscribe runId h
  | leave k =>
    cases hs
    exact hX.leave k h

/-- **Every run** keeps the balance. -/
theorem Counting.balanced {ok : T → C → Bool} (hX : X.Counting ok) {t t' : T}
    (hrun : X.system.Reach (fun t l => X.allows ok t l = true) t t') (h : (X.metrics t).Balanced) :
    (X.metrics t').Balanced :=
  hrun.invariant h fun h hok hs => hX.step h hok hs

end Transport

/-! ## SSE -/

/-- `metrics`; nothing counts a drop or a fallback. -/
def HttpSseTransport.metrics (t : HttpSseTransport) : TransportMetrics where
  eventsSent := t.eventsSent
  eventsDelivered := t.eventsDelivered
  eventsDropped := 0
  fallbackCount := 0
  currentMode := "sse"
  activeSubscribers := t.subscribers.length

def HttpSseTransport.transport : Transport HttpSseTransport SendCall where
  sendEvent t call := t.sendEvent call.runId call.event
  subscribe := HttpSseTransport.subscribe
  leave := HttpSseTransport.leave
  metrics := HttpSseTransport.metrics

/-- What one call counts. -/
theorem HttpSseTransport.sendEvent_counts (t : HttpSseTransport) (runId : String)
    (event : TelemetryEvent) :
    (t.sendEvent runId event).1.eventsSent = (t.eventsSent + 1) % 2 ^ 64 ∧
      (t.sendEvent runId event).1.eventsDelivered ≤
        t.eventsDelivered + if t.listened runId then 1 else 0 := by
  unfold sendEvent
  dsimp only
  split
  · exact ⟨rfl, Nat.mod_le _ _⟩
  · exact ⟨rfl, Nat.le_refl _⟩

theorem HttpSseTransport.counting : transport.Counting fun _ _ => true where
  send {t call} hfits _ := by
    obtain ⟨hsent, hdelivered⟩ := t.sendEvent_counts call.runId call.event
    refine ⟨hsent.trans (Nat.mod_eq_of_lt hfits), ?_⟩
    show (t.sendEvent call.runId call.event).1.eventsDelivered + 0 ≤ t.eventsDelivered + 0 + 1
    split at hdelivered <;> omega
  subscribe _ h := h
  leave _ h := h

/-! ## Streams -/

def QuicStreamTransport.metrics (t : QuicStreamTransport) : TransportMetrics where
  eventsSent := t.eventsSent
  eventsDelivered := t.eventsDelivered
  eventsDropped := t.eventsDropped
  fallbackCount := t.fallbackCount
  currentMode := "quic-stream"
  activeSubscribers := t.fallback.metrics.activeSubscribers

def QuicStreamTransport.transport (M : MsgPack) : Transport QuicStreamTransport StreamCall where
  sendEvent := QuicStreamTransport.sendEvent M
  subscribe := QuicStreamTransport.subscribe
  leave t k := { t with fallback := t.fallback.leave k }
  metrics := QuicStreamTransport.metrics

theorem QuicStreamTransport.counting (M : MsgPack) :
    (transport M).Counting fun _ _ => true where
  send {t call} hfits _ := by
    have hcounts := t.counts_sendEvent M call
    simp only [counts, Prod.mk.injEq] at hcounts
    obtain ⟨hsent, hdelivered, hdropped⟩ := hcounts
    refine ⟨hsent.trans (Nat.mod_eq_of_lt hfits), ?_⟩
    show (t.sendEvent M call).1.eventsDelivered + (t.sendEvent M call).1.eventsDropped ≤
      t.eventsDelivered + t.eventsDropped + 1
    rw [hdelivered, hdropped]
    have hle := Nat.mod_le (t.eventsDelivered + 1) (2 ^ 64)
    omega
  subscribe _ h := h
  leave _ h := h

/-! ## Datagrams -/

/-- `metrics`: the deliveries are those of the SSE transport. -/
def QuicDatagramTransport.metrics (t : QuicDatagramTransport) : TransportMetrics :=
  { t.fallback.metrics with
    currentMode := "quic-datagram"
    eventsSent := t.sent
    eventsDropped := t.dropped
    fallbackCount := t.fallbackCount }

def QuicDatagramTransport.transport (M : MsgPack) :
    Transport QuicDatagramTransport DatagramCall where
  sendEvent := QuicDatagramTransport.sendEvent M
  subscribe := QuicDatagramTransport.subscribe
  leave t k := { t with fallback := t.fallback.leave k }
  metrics := QuicDatagramTransport.metrics

/--
Nobody listens to the run of the call, or the call neither leaves its event to SSE with a notice
nor counts it as dropped and mirrors it.
-/
def QuicDatagramTransport.countsOnce (M : MsgPack) (t : QuicDatagramTransport)
    (call : DatagramCall) : Bool :=
  let t := { t with sent := (t.sent + 1) % 2 ^ 64 }
  !t.fallback.listened call.runId ||
    (!call.event.shouldForceFallback &&
      (call.event.isSimulatedLossEvent || t.shouldDropForRateLimit call.event ||
        match t.serializeEventForDatagram M call.event with
        | .error _ => true
        | .ok (bytes, _) =>
          decide (bytes.length ≤ t.preferredDatagramSize) && decide (call.outcome = .sent)))

/-- From `t` to `t'` at most so many events were counted as delivered and as dropped. -/
structure QuicDatagramTransport.Tallied (t t' : QuicDatagramTransport) (delivered dropped : Nat) :
    Prop where
  sent : t'.sent = t.sent
  listened (runId : String) : t'.fallback.listened runId = t.fallback.listened runId
  delivered_le : t'.fallback.eventsDelivered ≤ t.fallback.eventsDelivered + delivered
  dropped_le : t'.dropped ≤ t.dropped + dropped

theorem HttpSseTransport.listened_sendEvent (t : HttpSseTransport) (runId : String)
    (event : TelemetryEvent) (runId' : String) :
    (t.sendEvent runId event).1.listened runId' = t.listened runId' := by
  unfold listened
  rw [subscribers_sendEvent, List.any_map]
  refine congrArg _ (funext fun s => ?_)
  rw [Function.comp_apply, Subscriber.runId_receive]

namespace QuicDatagramTransport

variable {t t' : QuicDatagramTransport} {delivered dropped : Nat}

theorem Tallied.rfl : Tallied t t 0 0 :=
  ⟨Eq.refl _, fun _ => Eq.refl _, Nat.le_refl _, Nat.le_refl _⟩

theorem Tallied.mirror (h : Tallied t t' delivered dropped) (runId : String)
    (event : TelemetryEvent) :
    Tallied t (t'.mirror runId event)
      (delivered + if t.fallback.listened runId then 1 else 0) dropped where
  sent := h.sent
  listened runId' := by
    rw [← h.listened]
    exact t'.fallback.listened_sendEvent runId event runId'
  delivered_le := by
    have hstep := (t'.fallback.sendEvent_counts runId event).2
    have hle := h.delivered_le
    rw [h.listened] at hstep
    show (t'.fallback.sendEvent runId event).1.eventsDelivered ≤ _
    omega
  dropped_le := h.dropped_le

theorem Tallied.countDrop (h : Tallied t t' delivered dropped) :
    Tallied t t'.countDrop delivered (dropped + 1) where
  sent := h.sent
  listened := h.listened
  delivered_le := h.delivered_le
  dropped_le := by
    have hmod := Nat.mod_le (t'.dropped + 1) (2 ^ 64)
    have hle := h.dropped_le
    show (t'.dropped + 1) % 2 ^ 64 ≤ _
    omega

theorem Tallied.countFallback (h : Tallied t t' delivered dropped) :
    Tallied t t'.countFallback delivered dropped :=
  ⟨h.sent, h.listened, h.delivered_le, h.dropped_le⟩

theorem Tallied.recordLossSample (h : Tallied t t' delivered dropped) (sample : Bool) :
    Tallied t (t'.recordLossSample sample) delivered dropped :=
  ⟨h.sent, h.listened, h.delivered_le, h.dropped_le⟩

theorem Tallied.dropOrFallBack (h : Tallied t t' delivered dropped) :
    Tallied t t'.dropOrFallBack.1 delivered dropped := by
  unfold QuicDatagramTransport.dropOrFallBack
  split
  · exact h.countFallback
  · exact h

/-- The notice and the event are both delivered, if somebody listens. -/
theorem Tallied.routeToSse (h : Tallied t t' delivered dropped) (call : DatagramCall)
    (reason : String) :
    Tallied t (t'.routeToSse call reason).1
      (delivered + (if t.fallback.listened call.runId then 1 else 0) +
        if t.fallback.listened call.runId then 1 else 0) dropped :=
  (h.mirror _ _).mirror _ _

/-- **One call** delivers or drops at most one event, if it is one that `countsOnce`. -/
theorem sendEvent_tallied (M : MsgPack) (t : QuicDatagramTransport) (call : DatagramCall) :
    ∃ delivered dropped,
      Tallied { t with sent := (t.sent + 1) % 2 ^ 64 } (t.sendEvent M call).1 delivered dropped ∧
        (t.countsOnce M call = true → delivered + dropped ≤ 1) := by
  have hstart : Tallied { t with sent := (t.sent + 1) % 2 ^ 64 }
      { t with sent := (t.sent + 1) % 2 ^ 64 } 0 0 := .rfl
  have hone : (if t.fallback.listened call.runId then 1 else 0) ≤ 1 := by
    split <;> omega
  -- where the event and a notice are sent, or a drop is mirrored, nobody may listen
  have hnone : ∀ {b : Bool}, (!t.fallback.listened call.runId || b) = true → b = false →
      (if t.fallback.listened call.runId then 1 else 0) = 0 := by
    intro b hb hfalse
    rw [hfalse, Bool.or_false, Bool.not_eq_true'] at hb
    rw [hb]
    rfl
  unfold countsOnce
  dsimp only
  have hexit := t.sendEvent_exit M call
  generalize t.sendEvent M call = result at hexit ⊢
  cases hexit with
  | forced hforce =>
    refine ⟨_, _, (hstart.recordLossSample false).countFallback.routeToSse call _, fun h => ?_⟩
    have hzero := hnone h (by simp [hforce])
    dsimp only
    omega
  | lost => exact ⟨0, 1, hstart.countDrop.dropOrFallBack, fun _ => Nat.le_refl _⟩
  | unserializable => exact ⟨0, 1, hstart.countDrop, fun _ => Nat.le_refl _⟩
  | large hforce hlost hser hlarge =>
    rw [not_or, Bool.not_eq_true, Bool.not_eq_true] at hlost
    refine ⟨_, _, hstart.countFallback.routeToSse call _, fun h => ?_⟩
    rw [hlost.1, hlost.2, hser] at h
    have hzero := hnone h (by simp [hlarge])
    dsimp only
    omega
  | datagram hforce hlost hser hfits =>
    rw [not_or, Bool.not_eq_true, Bool.not_eq_true] at hlost
    cases call.outcome with
    | sent =>
      refine ⟨_, _, (hstart.recordLossSample true).mirror _ _, fun _ => ?_⟩
      dsimp only
      omega
    | policyRefusal =>
      refine ⟨_, _, hstart.routeToSse call _, fun h => ?_⟩
      rw [hlost.1, hlost.2, hser] at h
      have hzero := hnone h (by simp)
      dsimp only
      omega
    | failed =>
      refine ⟨_, _, (hstart.countDrop.mirror _ _).dropOrFallBack, fun h => ?_⟩
      rw [hlost.1, hlost.2, hser] at h
      have hzero := hnone h (by simp)
      dsimp only
      omega

theorem counting (M : MsgPack) : (transport M).Counting (countsOnce M) where
  send {t call} hfits hok := by
    obtain ⟨delivered, dropped, htally, hle⟩ := t.sendEvent_tallied M call
    refine ⟨htally.sent.trans (Nat.mod_eq_of_lt hfits), ?_⟩
    have hdelivered := htally.delivered_le
    have hdropped := htally.dropped_le
    have hone := hle hok
    show (t.sendEvent M call).1.fallback.eventsDelivered + (t.sendEvent M call).1.dropped ≤
      t.fallback.eventsDelivered + t.dropped + 1
    dsimp only at hdelivered hdropped
    omega
  subscribe _ h := h
  leave _ h := h

end QuicDatagramTransport

/--
**Balance.** In every run of calls, with subscribers that come and go, SSE and streams deliver and
drop no more events than they were sent. Datagrams do so too if each call `countsOnce`. A call
always raises `events_sent` by one.
-/
theorem counters_balanced (M : MsgPack) (quicStreamsEnabled : Bool) (config : QuicDatagramConfig)
    (env : DatagramEnv) (lossRateExceeded : List Bool → Bool) :
    (∀ t, HttpSseTransport.transport.system.Reach
        (fun t l => HttpSseTransport.transport.allows (fun _ _ => true) t l = true) ⟨[], 0, 0⟩ t →
      t.metrics.Balanced) ∧
    (∀ t, (QuicStreamTransport.transport M).system.Reach
        (fun t l => (QuicStreamTransport.transport M).allows (fun _ _ => true) t l = true)
        (.new quicStreamsEnabled) t →
      t.metrics.Balanced) ∧
    (∀ t, (QuicDatagramTransport.transport M).system.Reach
        (fun t l => (QuicDatagramTransport.transport M).allows
          (QuicDatagramTransport.countsOnce M) t l = true)
        (.withConfig config env lossRateExceeded) t →
      t.metrics.Balanced) ∧
    (∀ (t : HttpSseTransport) (call : SendCall), t.eventsSent + 1 < 2 ^ 64 →
      (t.sendEvent call.runId call.event).1.metrics.eventsSent = t.metrics.eventsSent + 1) ∧
    (∀ (t : QuicStreamTransport) (call : StreamCall), t.eventsSent + 1 < 2 ^ 64 →
      (t.sendEvent M call).1.metrics.eventsSent = t.metrics.eventsSent + 1) ∧
    ∀ (t : QuicDatagramTransport) (call : DatagramCall), t.sent + 1 < 2 ^ 64 →
      (t.sendEvent M call).1.metrics.eventsSent = t.metrics.eventsSent + 1 := by
  refine ⟨?_, ?_, ?_, ?_, ?_, ?_⟩
  · intro t hrun
    exact HttpSseTransport.counting.balanced hrun (Nat.le_refl 0)
  · intro t hrun
    exact (QuicStreamTransport.counting M).balanced hrun (Nat.le_refl 0)
  · intro t hrun
    exact (QuicDatagramTransport.counting M).balanced hrun (Nat.le_refl 0)
  · intro t call hfits
    exact (HttpSseTransport.counting.send hfits rfl).sent
  · intro t call hfits
    exact ((QuicStreamTransport.counting M).send hfits rfl).sent
  · intro t call hfits
    obtain ⟨delivered, dropped, htally, -⟩ := t.sendEvent_tallied M call
    exact htally.sent.trans (Nat.mod_eq_of_lt hfits)

/-- A subscriber of `sampleStarted`'s run, and the call with this outcome. -/
def sampleListened (outcome : DatagramOutcome) : List (TransportLabel DatagramCall) :=
  [.subscribe "r", .send { sampleStarted with outcome }]

theorem sample_counters_balanced :
    ∃ t, (QuicDatagramTransport.transport MsgPack.sampleSummary).system.execWhere
        ((QuicDatagramTransport.transport MsgPack.sampleSummary).allows
          (QuicDatagramTransport.countsOnce MsgPack.sampleSummary))
        (sampleDatagrams 1200) (sampleListened .sent) = some t ∧
      t.metrics.eventsSent = 1 ∧ t.metrics.Balanced := by
  have hexec : ((QuicDatagramTransport.transport MsgPack.sampleSummary).system.execWhere
      ((QuicDatagramTransport.transport MsgPack.sampleSummary).allows
        (QuicDatagramTransport.countsOnce MsgPack.sampleSummary))
      (sampleDatagrams 1200) (sampleListened .sent)).map (fun t => t.metrics.eventsSent) =
      some 1 := by
    decide +kernel
  obtain ⟨t, ht, hsent⟩ := Option.map_eq_some_iff.mp hexec
  exact ⟨t, ht, hsent, (counters_balanced MsgPack.sampleSummary true {} ⟨some 1200, none, none⟩
    fun _ => false).2.2.1 t (Lts.Reach.of_execWhere ht)⟩

/-- A datagram that fails is dropped and delivered; one that is refused is delivered twice. -/
theorem sample_counters_unbalanced :
    ((QuicDatagramTransport.transport MsgPack.sampleSummary).system.exec (sampleDatagrams 1200)
        (sampleListened .failed)).map (fun t => t.metrics) =
      some ⟨1, 1, 1, 0, "quic-datagram", 1⟩ ∧
    ((QuicDatagramTransport.transport MsgPack.sampleSummary).system.exec (sampleDatagrams 1200)
        (sampleListened .policyRefusal)).map (fun t => t.metrics) =
      some ⟨1, 2, 0, 0, "quic-datagram", 1⟩ := by
  decide +kernel

end ScTransport
