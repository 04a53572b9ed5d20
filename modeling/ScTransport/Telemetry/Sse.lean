import ScTransport.Telemetry.Event

/-!
# Fan-out to subscribers

`sc-transport-sse`: one broadcast channel for each run. A subscriber that does not lag receives
every event sent on its run's channel after it subscribed, so its stream is kept here as the list
of those events.
-/

namespace ScTransport

inductive DeliveryStatus where
  | sent
  | delivered
  | dropped
  | fellBack (reason : String)
  deriving DecidableEq

/-- A receiver of a run's channel. -/
structure Subscriber where
  runId : String
  received : List TelemetryEvent

/-- The counters are `AtomicU64`s, whose sums wrap. -/
structure HttpSseTransport where
  subscribers : List Subscriber
  eventsSent : Nat
  eventsDelivered : Nat

/-- What a subscriber holds once `events` were sent on the channel of `runId`. -/
def Subscriber.receive (runId : String) (events : List TelemetryEvent) (s : Subscriber) :
    Subscriber :=
  if s.runId = runId then { s with received := s.received ++ events } else s

/-- One `send_event` call. -/
structure SendCall where
  runId : String
  event : TelemetryEvent

/-- `fallback_event`, of which both QUIC transports have a copy. -/
def fallbackEvent (runId reason : String) (now : Nat) : TelemetryEvent where
  runId := runId
  taskId := none
  eventType := .transportFallback
  timestampMs := now
  payload := .object [("reason", .string reason)]

namespace HttpSseTransport

/-- `subscribe`: the subscriber sees what is sent from now on. -/
def subscribe (t : HttpSseTransport) (runId : String) : HttpSseTransport :=
  { t with subscribers := t.subscribers ++ [⟨runId, []⟩] }

/-- A subscriber's task ends: its stream was dropped, or it lagged. -/
def leave (t : HttpSseTransport) (k : Nat) : HttpSseTransport :=
  { t with subscribers := t.subscribers.eraseIdx k }

/-- The channel of the run has a receiver. -/
def listened (t : HttpSseTransport) (runId : String) : Bool :=
  t.subscribers.any fun s => decide (s.runId = runId)

/-- `send_event`. The channel refuses an event only when nobody listens to it. -/
def sendEvent (t : HttpSseTransport) (runId : String) (event : TelemetryEvent) :
    HttpSseTransport × DeliveryStatus :=
  let sent : HttpSseTransport := { t with
    subscribers := t.subscribers.map (Subscriber.receive runId [event])
    eventsSent := (t.eventsSent + 1) % 2 ^ 64 }
  if t.listened runId then
    ({ sent with eventsDelivered := (sent.eventsDelivered + 1) % 2 ^ 64 }, .delivered)
  else (sent, .sent)

def sendAll (t : HttpSseTransport) (calls : List SendCall) : HttpSseTransport :=
  calls.foldl (fun t call => (t.sendEvent call.runId call.event).1) t

/-- What the `k`th subscriber has received. -/
def receivedBy (t : HttpSseTransport) (k : Nat) : List TelemetryEvent :=
  (t.subscribers[k]?.map Subscriber.received).getD []

theorem subscribers_sendEvent (t : HttpSseTransport) (runId : String) (event : TelemetryEvent) :
    (t.sendEvent runId event).1.subscribers =
      t.subscribers.map (Subscriber.receive runId [event]) := by
  simp only [sendEvent]
  split <;> rfl

end HttpSseTransport

namespace Subscriber

variable (runId : String)

theorem receive_nil : receive runId [] = id := by
  funext s
  unfold receive
  split
  · rw [List.append_nil]
    rfl
  · rfl

theorem receive_comp_receive (first second : List TelemetryEvent) :
    receive runId second ∘ receive runId first = receive runId (first ++ second) := by
  funext s
  by_cases h : s.runId = runId
  · simp [receive, h]
  · simp [receive, h]

@[simp] theorem runId_receive (events : List TelemetryEvent) (s : Subscriber) :
    (s.receive runId events).runId = s.runId := by
  unfold receive
  split <;> rfl

/-- A subscriber's share of what was sent on the channel of `runId`. -/
theorem received_receive (events : List TelemetryEvent) (s : Subscriber) :
    (s.receive runId events).received =
      s.received ++ if s.runId = runId then events else [] := by
  unfold receive
  split
  · rfl
  · rw [List.append_nil]

end Subscriber

/-- **A run of calls.** A subscriber receives exactly the events sent to its run, in order. -/
theorem HttpSseTransport.getElem?_sendAll {k : Nat} (calls : List SendCall) :
    ∀ {t : HttpSseTransport} {s : Subscriber}, t.subscribers[k]? = some s →
      (t.sendAll calls).subscribers[k]? = some { s with
        received := s.received ++
          (calls.filter fun call => s.runId = call.runId).map SendCall.event } := by
  induction calls with
  | nil =>
    intro t s h
    rw [List.filter_nil, List.map_nil, List.append_nil]
    exact h
  | cons call rest ih =>
    intro t s h
    have hstep : (t.sendEvent call.runId call.event).1.subscribers[k]? =
        some (s.receive call.runId [call.event]) := by
      rw [subscribers_sendEvent, List.getElem?_map, h]
      rfl
    refine (ih hstep).trans ?_
    rw [Subscriber.runId_receive, Subscriber.received_receive, List.append_assoc]
    by_cases hrun : s.runId = call.runId
    · simp [hrun]
    · simp [hrun]

/-! ## The state a client derives -/

/-- The events that change the state of a run or of a task. -/
def TelemetryEvent.isTransition (event : TelemetryEvent) : Bool :=
  event.eventType ≠ .progress && event.eventType ≠ .transportFallback

inductive RunState where
  | unknown
  | running
  | completed
  | failed
  deriving DecidableEq

/-- `final_state` of the transparency tests. -/
def finalState (events : List TelemetryEvent) : RunState :=
  if events.any fun e => decide (e.eventType = .runFailed) then .failed
  else if events.any fun e => decide (e.eventType = .runCompleted) then .completed
  else if events.any fun e => decide (e.eventType = .runStarted) then .running
  else .unknown

theorem any_eventType_filter_isTransition {events : List TelemetryEvent} {ty : EventType}
    (h₁ : ty ≠ .progress) (h₂ : ty ≠ .transportFallback) :
    ((events.filter TelemetryEvent.isTransition).any fun e => decide (e.eventType = ty)) =
      events.any fun e => decide (e.eventType = ty) := by
  rw [List.any_filter]
  congr 1
  funext e
  by_cases h : e.eventType = ty
  · simp [TelemetryEvent.isTransition, h, h₁, h₂]
  · simp [h]

/-- The derived state depends on the transitions only. -/
theorem finalState_filter (events : List TelemetryEvent) :
    finalState (events.filter TelemetryEvent.isTransition) = finalState events := by
  unfold finalState
  rw [any_eventType_filter_isTransition (by decide) (by decide),
    any_eventType_filter_isTransition (by decide) (by decide),
    any_eventType_filter_isTransition (by decide) (by decide)]

end ScTransport
