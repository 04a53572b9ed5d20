import ScTransport.Telemetry.Datagram
import ScTransport.Telemetry.Stream

/-!
# What `FellBack` promises

A call that returns `FellBack` should have told the subscribers of the run twice: that the
transport fell back, and the event itself. The stream transport always does. The datagram
transport has one more reason to fall back, its loss rate, and then it announces nothing.

* `Subscriber.ToldOfFallback` — what a subscriber should have been sent
* `QuicDatagramTransport.LossFallback` — the calls that fall back because of the loss rate
* `fellBack_truthful_iff` — both transports
-/

namespace ScTransport

/-- From `s` to `s'` the subscriber was sent a notice of a fallback, and the event. -/
def Subscriber.ToldOfFallback (s s' : Subscriber) (event : TelemetryEvent) : Prop :=
  ∃ sent notice, s'.received = s.received ++ sent ∧ notice.eventType = .transportFallback ∧
    List.Sublist [notice, event] sent

/-- Nobody is told with fewer than two events. -/
theorem Subscriber.not_toldOfFallback {s s' : Subscriber} {event : TelemetryEvent}
    {sent : List TelemetryEvent} (h : s'.received = s.received ++ sent) (hlen : sent.length < 2) :
    ¬ s.ToldOfFallback s' event := by
  rintro ⟨sent', notice, h', -, hsub⟩
  obtain rfl : sent = sent' := List.append_cancel_left (h.symm.trans h')
  have hle := hsub.length_le
  simp only [List.length_cons, List.length_nil] at hle
  omega

theorem Subscriber.ToldOfFallback.notice_mem {s s' : Subscriber} {event : TelemetryEvent}
    (h : s.ToldOfFallback s' event) :
    ∃ notice ∈ s'.received, notice.eventType = .transportFallback := by
  obtain ⟨sent, notice, hsent, htype, hsub⟩ := h
  refine ⟨notice, ?_, htype⟩
  rw [hsent]
  exact List.mem_append_right _ (hsub.subset List.mem_cons_self)

theorem Subscriber.receive_of_runId {s : Subscriber} {runId : String} (h : s.runId = runId)
    (events : List TelemetryEvent) : (s.receive runId events).received = s.received ++ events := by
  rw [received_receive, if_pos h]

theorem Subscriber.toldOfFallback {s : Subscriber} {runId : String} (h : s.runId = runId)
    (reason : String) (now : Nat) (event : TelemetryEvent) :
    s.ToldOfFallback (s.receive runId [fallbackEvent runId reason now, event]) event :=
  ⟨_, fallbackEvent runId reason now, receive_of_runId h _, rfl, List.Sublist.refl _⟩

/-! ## Streams -/

namespace QuicStreamTransport

variable {t : QuicStreamTransport} {call : StreamCall}

theorem subscribers_fallBack (t : QuicStreamTransport) (call : StreamCall) (reason : String) :
    (t.fallBack call reason).1.fallback.subscribers =
      t.fallback.subscribers.map
        (Subscriber.receive call.runId [fallbackEvent call.runId reason call.now, call.event]) := by
  have hfallback : (t.fallBack call reason).1.fallback =
      ((t.fallback.sendEvent call.runId (fallbackEvent call.runId reason call.now)).1.sendEvent
        call.runId call.event).1 := by
    unfold fallBack
    dsimp only
    split
    · next h => rw [h]
    · next h => rw [h]
  rw [hfallback, HttpSseTransport.subscribers_sendEvent, HttpSseTransport.subscribers_sendEvent,
    List.map_map, Subscriber.receive_comp_receive]
  rfl

/-- Both exits that return `FellBack` send the notice and the event. -/
theorem subscribers_of_fellBack (M : MsgPack) {reason : String}
    (h : (t.sendEvent M call).2 = .fellBack reason) :
    ∃ reason', (t.sendEvent M call).1.fallback.subscribers =
      t.fallback.subscribers.map (Subscriber.receive call.runId
        [fallbackEvent call.runId reason' call.now, call.event]) := by
  unfold sendEvent at h ⊢
  dsimp only at h ⊢
  split
  · exact ⟨_, subscribers_fallBack _ call _⟩
  · next henabled =>
    rw [if_neg henabled] at h
    have hkept := (kept_sendEventOverQuic M
      { t with eventsSent := (t.eventsSent + 1) % 2 ^ 64 } call.env call.net call.event).1
    split
    · next t' hrun =>
      rw [hrun] at h
      cases h
    · next e t' hrun =>
      rw [hrun] at hkept
      have hsubs := subscribers_fallBack t' call
      rw [show t'.fallback = t.fallback from hkept] at hsubs
      exact ⟨_, hsubs _⟩

end QuicStreamTransport

/-! ## Datagrams -/

namespace QuicDatagramTransport

/--
The call falls back because of the loss rate: its event counts as lost, and the window with it is
over the threshold.
-/
def LossFallback (M : MsgPack) (t : QuicDatagramTransport) (call : DatagramCall) : Prop :=
  call.event.shouldForceFallback = false ∧
  (t.recordLossSample false).shouldTriggerFallbackByLoss = true ∧
  (call.event.isSimulatedLossEvent = true ∨
    { t with sent := (t.sent + 1) % 2 ^ 64 }.shouldDropForRateLimit call.event = true ∨
    call.outcome = .failed ∧ ∃ bytes flag,
      t.serializeEventForDatagram M call.event = .ok (bytes, flag) ∧
        bytes.length ≤ t.preferredDatagramSize)

variable {t : QuicDatagramTransport} {call : DatagramCall}

/-- A lost event makes the transport fall back if the window with it does. -/
theorem trigger_of_dropOrFallBack {t' : QuicDatagramTransport} {reason : String}
    (hwindow : t'.lossWindow = (t.recordLossSample false).lossWindow)
    (hrate : t'.lossRateExceeded = t.lossRateExceeded)
    (h : t'.dropOrFallBack.2 = .fellBack reason) :
    (t.recordLossSample false).shouldTriggerFallbackByLoss = true := by
  unfold dropOrFallBack at h
  split at h
  · next htrigger =>
    unfold shouldTriggerFallbackByLoss at htrigger ⊢
    rw [hwindow, hrate] at htrigger
    exact htrigger
  · cases h

/-- A loss fallback of an event that got as far as its datagram. -/
theorem LossFallback.failed {M : MsgPack} (h : t.LossFallback M call)
    (hlost : ¬ (call.event.isSimulatedLossEvent = true ∨
      { t with sent := (t.sent + 1) % 2 ^ 64 }.shouldDropForRateLimit call.event = true)) :
    call.outcome = .failed ∧ ∃ bytes flag,
      t.serializeEventForDatagram M call.event = .ok (bytes, flag) ∧
        bytes.length ≤ t.preferredDatagramSize := by
  obtain ⟨-, -, hsim | hrate | hfailed⟩ := h
  · exact absurd (Or.inl hsim) hlost
  · exact absurd (Or.inr hrate) hlost
  · exact hfailed

/-- **The exits that return `FellBack`**, and what they send. -/
theorem sendEvent_fellBack (M : MsgPack) {reason : String}
    (h : (t.sendEvent M call).2 = .fellBack reason) :
    (t.LossFallback M call ∧ ∃ sent, sent.length < 2 ∧
      Accounted t (t.sendEvent M call).1 call.runId sent) ∨
    (¬ t.LossFallback M call ∧ ∃ reason',
      Accounted t (t.sendEvent M call).1 call.runId
        [fallbackEvent call.runId reason' call.now, call.event]) := by
  have hstart : ∀ t' : QuicDatagramTransport, t'.fallback = t.fallback →
      t'.maxDatagramSize = t.maxDatagramSize → Accounted t t' call.runId [] :=
    fun t' hf hm => Accounted.of_eq hf hm call.runId
  have hexit := t.sendEvent_exit M call
  generalize t.sendEvent M call = result at h hexit ⊢
  cases hexit with
  | forced hforce =>
    refine Or.inr ⟨fun hloss => ?_, _, Accounted.routeToSse (hstart _ ?_ ?_) _⟩
    · exact absurd (hloss.1.symm.trans hforce) Bool.false_ne_true
    all_goals rfl
  | lost hforce hlost =>
    refine Or.inl ⟨⟨hforce, trigger_of_dropOrFallBack ?_ ?_ h, hlost.imp_right Or.inl⟩, [],
      by decide, Accounted.dropOrFallBack (hstart _ ?_ ?_)⟩
    all_goals rfl
  | unserializable => cases h
  | large _ hlost hser hlarge =>
    -- the sample was never recorded: the event was too long for a datagram
    refine Or.inr ⟨fun hloss => ?_, _, Accounted.routeToSse (hstart _ ?_ ?_) _⟩
    · obtain ⟨-, bytes, flag, hbytes, hlen⟩ := hloss.failed hlost
      cases hser.symm.trans hbytes
      exact absurd hlarge (Nat.not_lt.mpr hlen)
    all_goals rfl
  | datagram hforce hlost hser hfits =>
    cases hout : call.outcome with
    | sent =>
      rw [hout] at h
      cases h
    | policyRefusal =>
      refine Or.inr ⟨fun hloss => ?_, _, Accounted.routeToSse (hstart _ ?_ ?_) _⟩
      · cases hout.symm.trans (hloss.failed hlost).1
      all_goals rfl
    | failed =>
      rw [hout] at h
      refine Or.inl ⟨⟨hforce, trigger_of_dropOrFallBack ?_ ?_ h,
        Or.inr (Or.inr ⟨hout, _, _, hser, hfits⟩)⟩, [call.event], by simp,
        Accounted.dropOrFallBack (Accounted.mirror (hstart _ ?_ ?_) _)⟩
      all_goals rfl

end QuicDatagramTransport

/--
**A call that returns `FellBack` told the subscribers of its run about the fallback and the event**,
unless the datagram transport fell back because of its loss rate.
-/
theorem fellBack_truthful_iff (M : MsgPack) (reason : String) (k : Nat) (s : Subscriber) :
    (∀ (t : QuicStreamTransport) (call : StreamCall),
      (t.sendEvent M call).2 = .fellBack reason → t.fallback.subscribers[k]? = some s →
      s.runId = call.runId →
      ∃ s', (t.sendEvent M call).1.fallback.subscribers[k]? = some s' ∧
        s.ToldOfFallback s' call.event) ∧
    (∀ (t : QuicDatagramTransport) (call : DatagramCall),
      (t.sendEvent M call).2 = .fellBack reason → t.fallback.subscribers[k]? = some s →
      s.runId = call.runId →
      ∃ s', (t.sendEvent M call).1.fallback.subscribers[k]? = some s' ∧
        (s.ToldOfFallback s' call.event ↔ ¬ t.LossFallback M call)) := by
  constructor
  · intro t call hfell hk hrun
    obtain ⟨reason', hsubs⟩ := QuicStreamTransport.subscribers_of_fellBack M hfell
    refine ⟨_, ?_, Subscriber.toldOfFallback hrun reason' call.now call.event⟩
    rw [hsubs, List.getElem?_map, hk]
    rfl
  · intro t call hfell hk hrun
    rcases QuicDatagramTransport.sendEvent_fellBack M hfell with
      ⟨hloss, sent, hlen, hacc⟩ | ⟨hloss, reason', hacc⟩
    · refine ⟨s.receive call.runId sent, ?_, ?_⟩
      · rw [hacc.subscribers, List.getElem?_map, hk]
        rfl
      · exact iff_of_false (Subscriber.not_toldOfFallback (Subscriber.receive_of_runId hrun sent)
          hlen) (not_not.mpr hloss)
    · refine ⟨_, ?_, iff_of_true (Subscriber.toldOfFallback hrun reason' call.now call.event)
        hloss⟩
      rw [hacc.subscribers, List.getElem?_map, hk]
      rfl

/-! ### Forced fallbacks, and ten lost datagrams -/

/-- The default threshold with its bonus: more than a fifth of the window is lost. -/
def lossyDatagrams : QuicDatagramTransport :=
  .withConfig {} ⟨none, none, none⟩ fun window =>
    decide (window.length < 5 * (window.filter not).length)

def forcedCall : DatagramCall :=
  ⟨⟨"r", { sampleTelemetry with payload := .object [("force_fallback", .bool true)] }⟩, 2, .sent⟩

def disabledCall : StreamCall :=
  ⟨⟨"r", sampleTelemetry⟩, 2, ⟨none, none, none⟩,
    ⟨.ok (), true, ⟨.ok (), .ok ()⟩, ⟨.ok (), .ok ()⟩, .ok (), .ok (), .ok ()⟩⟩

/-- A forced fallback, and a build without streams, are announced. -/
theorem forced_fallback_announced :
    (∃ s', (((QuicStreamTransport.new false).subscribe "r").sendEvent MsgPack.sample
        disabledCall).1.fallback.subscribers[0]? = some s' ∧
      Subscriber.ToldOfFallback ⟨"r", []⟩ s' sampleTelemetry) ∧
    ∃ s', ((lossyDatagrams.subscribe "r").sendEvent MsgPack.sample
        forcedCall).1.fallback.subscribers[0]? = some s' ∧
      Subscriber.ToldOfFallback ⟨"r", []⟩ s' forcedCall.event := by
  constructor
  · exact (fellBack_truthful_iff MsgPack.sample "quic_streams_feature_disabled" 0 ⟨"r", []⟩).1
      ((QuicStreamTransport.new false).subscribe "r") disabledCall (by decide +kernel) rfl rfl
  · obtain ⟨s', hs', htold⟩ :=
      (fellBack_truthful_iff MsgPack.sample "forced_by_event_payload" 0 ⟨"r", []⟩).2
        (lossyDatagrams.subscribe "r") forcedCall (by decide +kernel) rfl rfl
    refine ⟨s', hs', htold.mpr fun hloss => ?_⟩
    have hforce : forcedCall.event.shouldForceFallback = true := by decide +kernel
    rw [hloss.1] at hforce
    cases hforce

/-- The transport after nine datagrams that failed. -/
def nineLost : QuicDatagramTransport :=
  (lossyDatagrams.subscribe "r").sendAll MsgPack.sample (List.replicate 9 sampleStarted)

/-- The tenth one makes the transport fall back, and no subscriber is told. -/
theorem loss_fallback_unannounced :
    (nineLost.sendEvent MsgPack.sample sampleStarted).2 = .fellBack "loss_threshold_exceeded" ∧
    ∃ s s', nineLost.fallback.subscribers[0]? = some s ∧ s.runId = sampleStarted.runId ∧
      (nineLost.sendEvent MsgPack.sample sampleStarted).1.fallback.subscribers[0]? = some s' ∧
      (∀ event ∈ s'.received, event.eventType ≠ .transportFallback) ∧
      ¬ s.ToldOfFallback s' sampleStarted.event := by
  have hbefore : nineLost.fallback.subscribers[0]?.map Subscriber.runId =
      some sampleStarted.runId := by
    decide +kernel
  have hafter : ((nineLost.sendEvent MsgPack.sample sampleStarted).1.fallback.subscribers[0]?.map
      fun s => s.received.map TelemetryEvent.eventType) =
      some (List.replicate 10 .runStarted) := by
    decide +kernel
  obtain ⟨s, hs, hrun⟩ := Option.map_eq_some_iff.mp hbefore
  obtain ⟨s', hs', htypes⟩ := Option.map_eq_some_iff.mp hafter
  have hnone : ∀ event ∈ s'.received, event.eventType ≠ .transportFallback := by
    intro event hevent
    have hmem := List.mem_map_of_mem (f := TelemetryEvent.eventType) hevent
    rw [htypes] at hmem
    rw [List.eq_of_mem_replicate hmem]
    decide
  refine ⟨by decide +kernel, s, s', hs, hrun, hs', hnone, fun htold => ?_⟩
  obtain ⟨notice, hmem, htype⟩ := htold.notice_mem
  exact hnone notice hmem htype

end ScTransport
