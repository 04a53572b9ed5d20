import ScTransport.Telemetry.Framing
import ScTransport.Telemetry.Sse

/-!
# Events over streams

`QuicStreamTransport` of `sc-transport-quic`: an event is framed and appended to a stream of the
shared connection, or goes to the SSE transport if that fails. Progress events can be held back
until there are enough of them for a batch.

- `QuicStreamTransport.sendEventOverQuic`: the source's `send_event_over_quic` with all its exits
- `QuicStreamTransport.sendEvent`: the source's `send_event`

How the connection fares during a call is a parameter of the call. Flushing and the last error
before the bidirectional stream have no effect and are left out.
-/

namespace ScTransport

open Infra

structure QuicStreamTransport where
  /-- Built with `quic-streams`. -/
  quicStreamsEnabled : Bool
  fallback : HttpSseTransport
  eventsSent : Nat
  eventsDelivered : Nat
  eventsDropped : Nat
  fallbackCount : Nat
  /-- There is a stream in `shared_uni_stream`. -/
  sharedUniStream : Bool
  pendingEvents : List TelemetryEvent
  uniWrites : Nat
  /-- The frames that were written as a whole, oldest first. -/
  written : List Bytes

/-- `SC_QUIC_COALESCE_EVENTS`, `SC_QUIC_PERSISTENT_UNI` and `SC_QUIC_MIRROR_SSE`, as parsed. -/
structure StreamEnv where
  coalesceEvents : Option Nat
  persistentUni : Option Bool
  mirrorSse : Option Bool

/-- One turn of the loop over the shared stream. -/
structure UniAttempt where
  openUni : Except String Unit
  write : Except String Unit

/-- How the connection fares during a call, with the texts of its errors. -/
structure StreamNet where
  connect : Except TransportError Unit
  /-- The detached task for a large frame opens its stream and writes the frame. -/
  detachedWrites : Bool
  first : UniAttempt
  second : UniAttempt
  openBi : Except String Unit
  writeBi : Except String Unit
  finishBi : Except String Unit

structure StreamCall extends SendCall where
  now : Nat
  env : StreamEnv
  net : StreamNet

/-- The `Display` of an error. -/
def TransportError.text : TransportError → String
  | .serialization text => s!"serialization error: {text}"
  | .unavailable text => s!"transport unavailable: {text}"
  | .fallbackRequired => "fallback required"
  | .quicError text => s!"quic error: {text}"

def largeFrameThreshold : Nat := 16 * 1024

namespace QuicStreamTransport

def new (quicStreamsEnabled : Bool) : QuicStreamTransport where
  quicStreamsEnabled
  fallback := ⟨[], 0, 0⟩
  eventsSent := 0
  eventsDelivered := 0
  eventsDropped := 0
  fallbackCount := 0
  sharedUniStream := false
  pendingEvents := []
  uniWrites := 0
  written := []

/-- The loop over the shared stream; the result says whether a write succeeded. -/
def writeShared (framed : Bytes) :
    List UniAttempt → QuicStreamTransport → Bool × QuicStreamTransport
  | [], t => (false, t)
  | attempt :: rest, t =>
    match if t.sharedUniStream then .ok () else attempt.openUni with
    | .error _ => writeShared framed rest t
    | .ok _ =>
      match attempt.write with
      | .ok _ => (true, { t with
          sharedUniStream := true
          uniWrites := (t.uniWrites + 1) % 2 ^ 64
          written := t.written ++ [framed] })
      -- the stream is stale
      | .error _ => writeShared framed rest { t with sharedUniStream := false }

/-- For peers that expect bidirectional streams. -/
def writeBi (t : QuicStreamTransport) (net : StreamNet) (framed : Bytes) :
    Except TransportError Unit × QuicStreamTransport :=
  match net.openBi with
  | .error text => (.error (.quicError text), t)
  | .ok _ =>
    match net.writeBi with
    | .error text => (.error (.unavailable text), t)
    | .ok _ =>
      let t := { t with written := t.written ++ [framed] }
      match net.finishBi with
      | .error text => (.error (.quicError text), t)
      | .ok _ => (.ok (), t)

/-- The second half of `send_event_over_quic`. -/
def sendFramed (t : QuicStreamTransport) (env : StreamEnv) (net : StreamNet) :
    Except TransportError Bytes → Except TransportError Unit × QuicStreamTransport
  | .error e => (.error e, t)
  | .ok framed =>
    if largeFrameThreshold < framed.length ∨ env.persistentUni.getD true = false then
      -- nobody waits for the task that writes the frame
      (.ok (), if net.detachedWrites then { t with written := t.written ++ [framed] } else t)
    else
      match t.writeShared framed [net.first, net.second] with
      | (true, t) => (.ok (), t)
      | (false, t) => t.writeBi net framed

def sendEventOverQuic (M : MsgPack) (t : QuicStreamTransport) (env : StreamEnv) (net : StreamNet)
    (event : TelemetryEvent) : Except TransportError Unit × QuicStreamTransport :=
  match net.connect with
  | .error e => (.error e, t)
  | .ok _ =>
    let coalesceN := (env.coalesceEvents.filter fun n => decide (1 < n)).getD 1
    if 1 < coalesceN ∧ event.eventType = .progress then
      let pending := t.pendingEvents ++ [event]
      if pending.length < coalesceN then (.ok (), { t with pendingEvents := pending })
      else { t with pendingEvents := [] }.sendFramed env net (M.frameEventBatch pending)
    else t.sendFramed env net (M.frameEvent event)

/-- How both exits end that leave an event to SSE. -/
def fallBack (t : QuicStreamTransport) (call : StreamCall) (reason : String) :
    QuicStreamTransport × DeliveryStatus :=
  let notified := (t.fallback.sendEvent call.runId (fallbackEvent call.runId reason call.now)).1
  let t := { t with fallbackCount := (t.fallbackCount + 1) % 2 ^ 64 }
  match notified.sendEvent call.runId call.event with
  | (fallback, .dropped) =>
    ({ t with fallback, eventsDropped := (t.eventsDropped + 1) % 2 ^ 64 }, .fellBack reason)
  | (fallback, _) =>
    ({ t with fallback, eventsDelivered := (t.eventsDelivered + 1) % 2 ^ 64 }, .fellBack reason)

/-- `send_event`. -/
def sendEvent (M : MsgPack) (t : QuicStreamTransport) (call : StreamCall) :
    QuicStreamTransport × DeliveryStatus :=
  let t := { t with eventsSent := (t.eventsSent + 1) % 2 ^ 64 }
  if t.quicStreamsEnabled = false then t.fallBack call "quic_streams_feature_disabled"
  else
    match t.sendEventOverQuic M call.env call.net call.event with
    | (.ok _, t) =>
      let t := { t with eventsDelivered := (t.eventsDelivered + 1) % 2 ^ 64 }
      (if call.env.mirrorSse.getD false then
        { t with fallback := (t.fallback.sendEvent call.runId call.event).1 } else t, .sent)
    | (.error e, t) => t.fallBack call s!"quic_stream_send_failed:{e.text}"

/-- `subscribe`. -/
def subscribe (t : QuicStreamTransport) (runId : String) : QuicStreamTransport :=
  { t with fallback := t.fallback.subscribe runId }

/-! ## Writing a frame -/

/-- `events_sent`, `events_delivered` and `events_dropped`. -/
def counts (t : QuicStreamTransport) : Nat × Nat × Nat :=
  (t.eventsSent, t.eventsDelivered, t.eventsDropped)

/-- What writing a frame leaves alone. -/
def kept (t : QuicStreamTransport) :
    HttpSseTransport × (Nat × Nat × Nat) × List TelemetryEvent :=
  (t.fallback, t.counts, t.pendingEvents)

theorem kept_writeShared (framed : Bytes) : ∀ (attempts : List UniAttempt)
    (t : QuicStreamTransport), (t.writeShared framed attempts).2.kept = t.kept
  | [], _ => rfl
  | attempt :: rest, t => by
    unfold writeShared
    split
    · exact kept_writeShared framed rest t
    · split
      · rfl
      · exact kept_writeShared framed rest { t with sharedUniStream := false }

theorem kept_writeBi (t : QuicStreamTransport) (net : StreamNet) (framed : Bytes) :
    (t.writeBi net framed).2.kept = t.kept := by
  unfold writeBi
  split
  · rfl
  · split
    · rfl
    · dsimp only
      split <;> rfl

theorem kept_sendFramed (t : QuicStreamTransport) (env : StreamEnv) (net : StreamNet)
    (framed : Except TransportError Bytes) :
    (t.sendFramed env net framed).2.kept = t.kept := by
  cases framed with
  | error e => rfl
  | ok framed =>
    have hshared := kept_writeShared framed [net.first, net.second] t
    unfold sendFramed
    dsimp only
    split
    · dsimp only
      split <;> rfl
    · split
      · next t' h => rwa [h] at hshared
      · next t' h =>
        rw [h] at hshared
        exact (kept_writeBi t' net framed).trans hshared

/-- Sending over the connection counts nothing and mirrors nothing; the caller does. -/
theorem kept_sendEventOverQuic (M : MsgPack) (t : QuicStreamTransport) (env : StreamEnv)
    (net : StreamNet) (event : TelemetryEvent) :
    (t.sendEventOverQuic M env net event).2.fallback = t.fallback ∧
      (t.sendEventOverQuic M env net event).2.counts = t.counts := by
  have hkept : ∀ (t' : QuicStreamTransport) (framed : Except TransportError Bytes),
      t'.fallback = t.fallback → t'.counts = t.counts →
      (t'.sendFramed env net framed).2.fallback = t.fallback ∧
        (t'.sendFramed env net framed).2.counts = t.counts := by
    intro t' framed hfallback hcounts
    have h := kept_sendFramed t' env net framed
    simp only [kept, Prod.mk.injEq] at h
    exact ⟨h.1.trans hfallback, h.2.1.trans hcounts⟩
  unfold sendEventOverQuic
  split
  · exact ⟨rfl, rfl⟩
  · dsimp only
    split
    · split
      · exact ⟨rfl, rfl⟩
      · exact hkept _ _ rfl rfl
    · exact hkept t _ rfl rfl

/-! ## What one call counts -/

theorem sendEvent_ne_dropped (t : HttpSseTransport) (runId : String) (event : TelemetryEvent) :
    (t.sendEvent runId event).2 ≠ .dropped := by
  unfold HttpSseTransport.sendEvent
  dsimp only
  split <;> nofun

/-- SSE drops nothing, so an event left to it counts as delivered. -/
theorem counts_fallBack (t : QuicStreamTransport) (call : StreamCall) (reason : String) :
    (t.fallBack call reason).1.counts =
      (t.eventsSent, (t.eventsDelivered + 1) % 2 ^ 64, t.eventsDropped) := by
  unfold fallBack
  dsimp only
  split
  · next h => exact absurd (congrArg Prod.snd h) (sendEvent_ne_dropped _ _ _)
  · rfl

/-- **One call** is counted as sent and as delivered. -/
theorem counts_sendEvent (M : MsgPack) (t : QuicStreamTransport) (call : StreamCall) :
    (t.sendEvent M call).1.counts =
      ((t.eventsSent + 1) % 2 ^ 64, (t.eventsDelivered + 1) % 2 ^ 64, t.eventsDropped) := by
  unfold sendEvent
  dsimp only
  split
  · exact counts_fallBack _ call _
  · have hcounts := (kept_sendEventOverQuic M
      { t with eventsSent := (t.eventsSent + 1) % 2 ^ 64 } call.env call.net call.event).2
    simp only [counts, Prod.mk.injEq] at hcounts
    split
    · next t' h =>
      rw [h] at hcounts
      dsimp only at hcounts ⊢
      obtain ⟨hsent, hdelivered, hdropped⟩ := hcounts
      split <;> simp only [counts, hsent, hdelivered, hdropped]
    · next t' h =>
      rw [h] at hcounts
      dsimp only at hcounts
      obtain ⟨hsent, hdelivered, hdropped⟩ := hcounts
      rw [counts_fallBack, hsent, hdelivered, hdropped]

end QuicStreamTransport

end ScTransport
