import ScTransport.Infra.Lts
import ScTransport.Telemetry.Stream

/-!
# Held-back events

With `SC_QUIC_COALESCE_EVENTS` above one, a progress event is accepted before it is written: it
waits in `pending_events` until there are enough of them for a batch. The batch is taken out before
it is framed and written, and nothing puts it back.

* `Conserved` — the accepted events are those that wait and those in the written frames
* `KeepsEvents` — the calls that keep it so
* `step_conserved_iff`, `coalescing_conserves_iff` — one call, and every sequence of calls
-/

namespace ScTransport

open Infra

/-- Writing a frame to a bidirectional stream succeeds. -/
def StreamNet.writesBi (net : StreamNet) : Bool := net.openBi.isOk && net.writeBi.isOk

/-- The events in the frames that were written. -/
def MsgPack.eventsIn (M : MsgPack) (written : List Bytes) : List TelemetryEvent :=
  written.flatMap fun framed => (M.parseFramedEvents framed).toOption.getD []

theorem MsgPack.eventsIn_append (M : MsgPack) (written written' : List Bytes) :
    M.eventsIn (written ++ written') = M.eventsIn written ++ M.eventsIn written' :=
  List.flatMap_append

/-- A small frame holds the events it was made of. -/
theorem MsgPack.Lawful.eventsIn_frame {M : MsgPack} (hM : M.Lawful) {frame : TelemetryFrame}
    {framed : Bytes} (h : M.frameBytes frame = .ok framed)
    (hsmall : framed.length ≤ largeFrameThreshold) : M.eventsIn [framed] = frame.events := by
  obtain ⟨payload, hf⟩ := hM.frameBytes h
  have hlen : framed.length = 4 + payload.length := by
    rw [hf.wire_eq, List.length_append, length_toBe32]
  have hmax : payload.length ≤ maxTelemetryFrameBytes := by
    unfold largeFrameThreshold at hsmall
    unfold maxTelemetryFrameBytes
    omega
  unfold MsgPack.eventsIn
  rw [List.flatMap_singleton, hf.parse hmax]
  rfl

/-! ## Writing -/

namespace QuicStreamTransport

variable {M : MsgPack} {env : StreamEnv} {net : StreamNet} {framed : Bytes}

/-- One of the two turns of the loop writes a frame to the shared stream. -/
def writesShared (t : QuicStreamTransport) (net : StreamNet) : Bool :=
  (t.sharedUniStream || net.first.openUni.isOk) && net.first.write.isOk ||
    net.second.openUni.isOk && net.second.write.isOk

theorem writeShared_spec (t : QuicStreamTransport) (net : StreamNet) (framed : Bytes) :
    (t.writeShared framed [net.first, net.second]).1 = t.writesShared net ∧
      (t.writeShared framed [net.first, net.second]).2.written =
        t.written ++ if t.writesShared net then [framed] else [] := by
  unfold writesShared
  cases hshared : t.sharedUniStream <;> cases hopen : net.first.openUni <;>
    cases hwrite : net.first.write <;> cases hopen' : net.second.openUni <;>
    cases hwrite' : net.second.write <;>
    simp [writeShared, hshared, hopen, hwrite, hopen', hwrite', Except.isOk, Except.toBool]

theorem writeBi_spec (t : QuicStreamTransport) (net : StreamNet) (framed : Bytes) :
    (t.writeBi net framed).1.isOk = (net.writesBi && net.finishBi.isOk) ∧
      (t.writeBi net framed).2.written =
        t.written ++ if net.writesBi then [framed] else [] := by
  unfold writeBi StreamNet.writesBi
  cases net.openBi with
  | error text => simp [Except.isOk, Except.toBool]
  | ok _ =>
    cases net.writeBi with
    | error text => simp [Except.isOk, Except.toBool]
    | ok _ => cases net.finishBi <;> simp [Except.isOk, Except.toBool]

/-- **A small frame** is written to the shared stream or to one of its own, or not at all. -/
theorem sendFramed_spec (t : QuicStreamTransport) (net : StreamNet)
    (hpersist : env.persistentUni.getD true = true)
    (hsmall : framed.length ≤ largeFrameThreshold) :
    (t.sendFramed env net (.ok framed)).1.isOk =
        (t.writesShared net || net.writesBi && net.finishBi.isOk) ∧
      (t.sendFramed env net (.ok framed)).2.written =
        t.written ++ if t.writesShared net || net.writesBi then [framed] else [] := by
  obtain ⟨hresult, hwritten⟩ := writeShared_spec t net framed
  unfold sendFramed
  dsimp only
  rw [if_neg (by rw [hpersist]; simp; omega)]
  cases hrun : t.writeShared framed [net.first, net.second] with
  | mk done t' =>
    rw [hrun] at hresult hwritten
    dsimp only at hresult hwritten
    rw [← hresult] at hwritten ⊢
    cases done with
    | true =>
      simp only [Bool.true_or, if_true] at hwritten ⊢
      exact ⟨rfl, hwritten⟩
    | false =>
      obtain ⟨hbi, hbiWritten⟩ := writeBi_spec t' net framed
      simp only [Bool.false_or, Bool.false_eq_true, if_false, List.append_nil] at hwritten ⊢
      rw [hwritten] at hbiWritten
      exact ⟨hbi, hbiWritten⟩

/-! ## One call -/

/-- The event is accepted and waits. -/
def holdsBack (t : QuicStreamTransport) (n : Nat) (event : TelemetryEvent) : Bool :=
  event.eventType = .progress && t.pendingEvents.length + 1 < n

/-- What the call writes if the event does not wait. -/
def nextFrame (t : QuicStreamTransport) (event : TelemetryEvent) : TelemetryFrame :=
  if event.eventType = .progress then .batch (t.pendingEvents ++ [event]) else .single event

/-- The events that still wait once the frame is made. -/
def afterFrame (t : QuicStreamTransport) (event : TelemetryEvent) : List TelemetryEvent :=
  if event.eventType = .progress then [] else t.pendingEvents

theorem afterFrame_append_events (t : QuicStreamTransport) (event : TelemetryEvent) :
    t.afterFrame event ++ (t.nextFrame event).events = t.pendingEvents ++ [event] := by
  unfold afterFrame nextFrame
  split <;> rfl

theorem sendEventOverQuic_eq {n : Nat} (hn : env.coalesceEvents = some n) (hone : 1 < n)
    (t : QuicStreamTransport) (net : StreamNet) (event : TelemetryEvent) :
    t.sendEventOverQuic M env net event =
      match net.connect with
      | .error e => (.error e, t)
      | .ok _ =>
        if t.holdsBack n event then
          (.ok (), { t with pendingEvents := t.pendingEvents ++ [event] })
        else { t with pendingEvents := t.afterFrame event }.sendFramed env net
          (M.frameBytes (t.nextFrame event)) := by
  have hcoalesce : (env.coalesceEvents.filter fun n => decide (1 < n)).getD 1 = n := by
    rw [hn, Option.filter, if_pos (decide_eq_true hone)]
    rfl
  unfold sendEventOverQuic holdsBack afterFrame nextFrame
  rw [hcoalesce]
  cases net.connect with
  | error e => rfl
  | ok _ =>
    by_cases hprogress : event.eventType = .progress
    · have hlen : (t.pendingEvents ++ [event]).length = t.pendingEvents.length + 1 :=
        List.length_append
      dsimp only
      rw [if_pos ⟨hone, hprogress⟩, hlen, if_pos hprogress, if_pos hprogress]
      by_cases hheld : t.pendingEvents.length + 1 < n
      · rw [if_pos hheld, if_pos (by simp [hprogress, hheld])]
      · rw [if_neg hheld, if_neg (by simp [hheld])]
        rfl
    · simp [hprogress, MsgPack.frameBytes]

/-- The frame of the call, if it makes one, is small. -/
def SmallFrame (M : MsgPack) (n : Nat) (t : QuicStreamTransport) (event : TelemetryEvent) :
    Prop :=
  t.holdsBack n event = false → ∀ framed, M.frameBytes (t.nextFrame event) = .ok framed →
    framed.length ≤ largeFrameThreshold

/--
The call loses and doubles no event. A batch is framed and one of the writes succeeds, and a
bidirectional stream that took a frame is finished.
-/
def KeepsEvents (M : MsgPack) (n : Nat) (t : QuicStreamTransport) (net : StreamNet)
    (event : TelemetryEvent) : Prop :=
  net.connect.isOk = true → t.holdsBack n event = false →
    (event.eventType = .progress → ∃ framed, M.frameBytes (t.nextFrame event) = .ok framed ∧
      (t.writesShared net || net.writesBi) = true) ∧
    ∀ framed, M.frameBytes (t.nextFrame event) = .ok framed → t.writesShared net = false →
      net.writesBi = true → net.finishBi.isOk = true

end QuicStreamTransport

/-! ## Sequences of calls -/

/-- A call of `send_event_over_quic`, and how the connection fares during it. -/
structure StreamSend where
  net : StreamNet
  event : TelemetryEvent

/-- The transport, and the events whose calls returned `Ok`. -/
structure CoalesceRun where
  transport : QuicStreamTransport
  accepted : List TelemetryEvent

namespace CoalesceRun

def step (M : MsgPack) (env : StreamEnv) (r : CoalesceRun) (send : StreamSend) : CoalesceRun :=
  let sent := r.transport.sendEventOverQuic M env send.net send.event
  ⟨sent.2, r.accepted ++ if sent.1.isOk then [send.event] else []⟩

/--
The accepted events are those that wait and those in the written frames, each as often as it was
accepted. An event whose call failed is in neither.
-/
def Conserved (M : MsgPack) (r : CoalesceRun) : Prop :=
  r.accepted.Perm (r.transport.pendingEvents ++ M.eventsIn r.transport.written)

variable {M : MsgPack} {env : StreamEnv} {n : Nat} {r : CoalesceRun} {send : StreamSend}

theorem Conserved.length (h : Conserved M r) : r.accepted.length =
    r.transport.pendingEvents.length + (M.eventsIn r.transport.written).length := by
  rw [h.length_eq, List.length_append]

/-- A batch is only made when something waits. -/
theorem pending_ne_nil {t : QuicStreamTransport} {event : TelemetryEvent} (hone : 1 < n)
    (hheld : t.holdsBack n event = false) (hprogress : event.eventType = .progress) :
    0 < t.pendingEvents.length := by
  unfold QuicStreamTransport.holdsBack at hheld
  simp [hprogress] at hheld
  omega

/-- What the step does, if the event does not wait. -/
theorem step_eq (hn : env.coalesceEvents = some n) (hone : 1 < n)
    (hconnect : send.net.connect.isOk = true)
    (hheld : r.transport.holdsBack n send.event = false) :
    (r.step M env send).transport =
      ({ r.transport with pendingEvents := r.transport.afterFrame send.event }.sendFramed env
        send.net (M.frameBytes (r.transport.nextFrame send.event))).2 ∧
    (r.step M env send).accepted = r.accepted ++
      if ({ r.transport with pendingEvents := r.transport.afterFrame send.event }.sendFramed env
        send.net (M.frameBytes (r.transport.nextFrame send.event))).1.isOk then [send.event]
      else [] := by
  have heq := QuicStreamTransport.sendEventOverQuic_eq (M := M) hn hone r.transport send.net
    send.event
  cases hc : send.net.connect with
  | error e =>
    rw [hc] at hconnect
    cases hconnect
  | ok _ =>
    rw [hc, hheld] at heq
    simp only [Bool.false_eq_true, if_false] at heq
    unfold step
    rw [heq]
    exact ⟨rfl, rfl⟩

theorem step_of_not_connect (hconnect : ¬ send.net.connect.isOk = true) :
    r.step M env send = r := by
  unfold step QuicStreamTransport.sendEventOverQuic
  cases hc : send.net.connect with
  | error e =>
    show (⟨r.transport, r.accepted ++ []⟩ : CoalesceRun) = r
    rw [List.append_nil]
  | ok _ => exact absurd (by rw [hc]; rfl) hconnect

theorem step_of_holdsBack (hn : env.coalesceEvents = some n) (hone : 1 < n)
    (hconnect : send.net.connect.isOk = true)
    (hheld : r.transport.holdsBack n send.event = true) :
    r.step M env send = ⟨{ r.transport with
      pendingEvents := r.transport.pendingEvents ++ [send.event] },
      r.accepted ++ [send.event]⟩ := by
  have heq := QuicStreamTransport.sendEventOverQuic_eq (M := M) hn hone r.transport send.net
    send.event
  cases hc : send.net.connect with
  | error e =>
    rw [hc] at hconnect
    cases hconnect
  | ok _ =>
    rw [hc, hheld] at heq
    unfold step
    rw [heq]
    rfl

/-- The event and those that waited move into the frame. -/
theorem perm_of_frame {α : Type} {accepted pending inFrames rest framed : List α} {event : α}
    (h : accepted.Perm (pending ++ inFrames)) (hsplit : rest ++ framed = pending ++ [event]) :
    (accepted ++ [event]).Perm (rest ++ (inFrames ++ framed)) := by
  calc List.Perm (accepted ++ [event]) (pending ++ inFrames ++ [event]) := h.append_right _
    List.Perm _ (pending ++ [event] ++ inFrames) := by
      rw [List.append_assoc, List.append_assoc]
      exact List.perm_append_comm.append_left _
    _ = rest ++ framed ++ inFrames := by rw [hsplit]
    List.Perm _ (rest ++ (inFrames ++ framed)) := by
      rw [List.append_assoc]
      exact List.perm_append_comm.append_left _

/-- A frame is written or not, and its call succeeds or not. -/
theorem perm_sent_iff {α : Type} {accepted pending inFrames rest framed : List α} {event : α}
    {P : Prop} (h : accepted.Perm (pending ++ inFrames))
    (hsplit : rest ++ framed = pending ++ [event])
    (hunsent : accepted.Perm (rest ++ inFrames) ↔ P) (shared bi finished : Bool) :
    (accepted ++ if shared || bi && finished then [event] else []).Perm
        (rest ++ (inFrames ++ if shared || bi then framed else [])) ↔
      (¬ P → (shared || bi) = true) ∧ (shared = false → bi = true → finished = true) := by
  have hmoved := perm_of_frame h hsplit
  cases shared with
  | true => exact iff_of_true hmoved ⟨fun _ => rfl, nofun⟩
  | false =>
    cases bi with
    | false =>
      show (accepted ++ []).Perm (rest ++ (inFrames ++ [])) ↔ _
      rw [List.append_nil, List.append_nil, hunsent]
      constructor
      · exact fun hP => ⟨fun hnot => absurd hP hnot, nofun⟩
      · rintro ⟨hwritten, -⟩
        by_contra hnot
        cases hwritten hnot
    | true =>
      cases finished with
      | true => exact iff_of_true hmoved ⟨fun _ => rfl, fun _ _ => rfl⟩
      | false =>
        -- the frame is out, and the caller sends its last event once more
        refine iff_of_false (fun hperm => ?_) fun hboth => absurd (hboth.2 rfl rfl) nofun
        have hlen := hperm.length_eq
        have hlen' := hmoved.length_eq
        simp only [Bool.false_or, Bool.and_false, Bool.false_eq_true, if_false, if_true,
          List.length_append, List.length_nil, List.length_cons] at hlen hlen'
        omega

/-- Without a written frame the events are kept unless a batch was taken out. -/
theorem perm_afterFrame_iff (hone : 1 < n) (hr : Conserved M r) {event : TelemetryEvent}
    (hheld : r.transport.holdsBack n event = false) :
    r.accepted.Perm (r.transport.afterFrame event ++ M.eventsIn r.transport.written) ↔
      event.eventType ≠ .progress := by
  unfold QuicStreamTransport.afterFrame
  constructor
  · intro h hprogress
    rw [if_pos hprogress, List.nil_append] at h
    have hlen := h.length_eq
    rw [hr.length] at hlen
    have := pending_ne_nil hone hheld hprogress
    omega
  · intro hprogress
    rw [if_neg hprogress]
    exact hr

theorem pendingEvents_step (hn : env.coalesceEvents = some n) (hone : 1 < n)
    (hconnect : send.net.connect.isOk = true)
    (hheld : r.transport.holdsBack n send.event = false) :
    (r.step M env send).transport.pendingEvents = r.transport.afterFrame send.event := by
  have hkept := QuicStreamTransport.kept_sendFramed
    { r.transport with pendingEvents := r.transport.afterFrame send.event } env send.net
    (M.frameBytes (r.transport.nextFrame send.event))
  simp only [QuicStreamTransport.kept, Prod.mk.injEq] at hkept
  rw [(step_eq hn hone hconnect hheld).1]
  exact hkept.2.2

/-- A call that makes a frame. -/
theorem frame_conserved_iff (hM : M.Lawful) (hn : env.coalesceEvents = some n) (hone : 1 < n)
    (hpersist : env.persistentUni.getD true = true) (hr : Conserved M r)
    (hsmall : r.transport.SmallFrame M n send.event)
    (hconnect : send.net.connect.isOk = true)
    (hheld : r.transport.holdsBack n send.event = false) :
    Conserved M (r.step M env send) ↔
      (send.event.eventType = .progress →
        ∃ framed, M.frameBytes (r.transport.nextFrame send.event) = .ok framed ∧
          (r.transport.writesShared send.net || send.net.writesBi) = true) ∧
      ∀ framed, M.frameBytes (r.transport.nextFrame send.event) = .ok framed →
        r.transport.writesShared send.net = false → send.net.writesBi = true →
        send.net.finishBi.isOk = true := by
  obtain ⟨htransport, haccepted⟩ := step_eq (M := M) (r := r) hn hone hconnect hheld
  have hunsent := perm_afterFrame_iff hone hr hheld
  unfold Conserved
  rw [pendingEvents_step hn hone hconnect hheld]
  cases hframe : M.frameBytes (r.transport.nextFrame send.event) with
  | error e =>
    rw [hframe] at htransport haccepted
    rw [htransport, haccepted]
    show (r.accepted ++ []).Perm (_ ++ M.eventsIn r.transport.written) ↔ _
    rw [List.append_nil, hunsent]
    constructor
    · exact fun hne => ⟨fun hprogress => absurd hprogress hne, nofun⟩
    · rintro ⟨hbatch, -⟩ hprogress
      obtain ⟨framed, hframed, -⟩ := hbatch hprogress
      cases hframed
  | ok framed =>
    have hsize := hsmall hheld framed hframe
    have hwrote : ∀ b : Bool, M.eventsIn (if b then [framed] else []) =
        if b then (r.transport.nextFrame send.event).events else [] := by
      intro b
      cases b with
      | false => rfl
      | true => exact hM.eventsIn_frame hframe hsize
    rw [hframe] at htransport haccepted
    obtain ⟨hok, hwritten⟩ := QuicStreamTransport.sendFramed_spec
      { r.transport with pendingEvents := r.transport.afterFrame send.event } send.net hpersist
      hsize
    rw [htransport, haccepted, hok, hwritten, M.eventsIn_append, hwrote]
    refine (perm_sent_iff hr (r.transport.afterFrame_append_events send.event) hunsent _ _ _).trans
      ?_
    rw [not_not]
    constructor
    · rintro ⟨hwrites, hfinished⟩
      exact ⟨fun hprogress => ⟨framed, rfl, hwrites hprogress⟩, fun _ _ => hfinished⟩
    · rintro ⟨hbatch, hfinished⟩
      refine ⟨fun hprogress => ?_, hfinished framed rfl⟩
      obtain ⟨_, -, hwrites⟩ := hbatch hprogress
      exact hwrites

/-- **One call** keeps the events exactly when it meets the condition. -/
theorem step_conserved_iff (hM : M.Lawful) (hn : env.coalesceEvents = some n) (hone : 1 < n)
    (hpersist : env.persistentUni.getD true = true) (hr : Conserved M r)
    (hsmall : r.transport.SmallFrame M n send.event) :
    Conserved M (r.step M env send) ↔ r.transport.KeepsEvents M n send.net send.event := by
  by_cases hconnect : send.net.connect.isOk = true
  swap
  · rw [step_of_not_connect hconnect]
    exact iff_of_true hr fun h => absurd h hconnect
  cases hheld : r.transport.holdsBack n send.event with
  | true =>
    rw [step_of_holdsBack hn hone hconnect hheld]
    refine iff_of_true ?_ fun _ h => absurd (hheld.symm.trans h) nofun
    refine (perm_of_frame hr rfl).trans ?_
    show List.Perm _ (r.transport.pendingEvents ++ [send.event] ++ M.eventsIn r.transport.written)
    rw [List.append_assoc]
    exact List.perm_append_comm.append_left _
  | false =>
    rw [frame_conserved_iff hM hn hone hpersist hr hsmall hconnect hheld]
    exact ⟨fun h _ _ => h, fun h => h hconnect hheld⟩

end CoalesceRun

/-- The calls as a system; every one of them returns. -/
def coalescing (M : MsgPack) (env : StreamEnv) : Lts CoalesceRun StreamSend where
  step r send := some (r.step M env send)

/--
**Accepted events wait or are written, after every call, exactly when every call keeps them.**

A call fails to keep them in two ways: it takes a batch out and does not get it written, or a
bidirectional stream takes the frame and cannot be finished.
-/
theorem coalescing_conserves_iff (M : MsgPack) (hM : M.Lawful) (env : StreamEnv) (n : Nat)
    (hn : env.coalesceEvents = some n) (hone : 1 < n)
    (hpersist : env.persistentUni.getD true = true) (r : CoalesceRun) (hr : r.Conserved M)
    (sends : List StreamSend)
    (hsmall : (coalescing M env).Each
      (fun r send _ => r.transport.SmallFrame M n send.event) r sends) :
    (coalescing M env).Each (fun _ _ r' => r'.Conserved M) r sends ↔
      (coalescing M env).Each
        (fun r send _ => r.transport.KeepsEvents M n send.net send.event) r sends := by
  refine Lts.each_iff hr hsmall ?_
  intro r send r' hstep hframe hconserved
  cases hstep
  exact CoalesceRun.step_conserved_iff hM hn hone hpersist hconserved hframe

/-! ### Two progress events, in batches of two -/

def sampleProgress (timestamp : Nat) : TelemetryEvent := ⟨"r", none, .progress, timestamp, .null⟩

def sampleProgressBytes (timestamp : UInt8) : Bytes :=
  0x85 :: fixstr "run_id" ++ fixstr "r" ++ fixstr "task_id" ++ [0xc0] ++ fixstr "event_type" ++
    fixstr "progress" ++ fixstr "timestamp_ms" ++ [timestamp] ++ fixstr "payload" ++ [0xc0]

/-- `rmp_serde` on the two events. -/
def MsgPack.progress : MsgPack where
  toVecNamed
    | ⟨"r", none, .progress, 1, .null⟩ => .ok (sampleProgressBytes 1)
    | ⟨"r", none, .progress, 2, .null⟩ => .ok (sampleProgressBytes 2)
    | _ => .error "not a sample"
  fromSlice bytes :=
    if bytes = sampleProgressBytes 1 then .ok (sampleProgress 1)
    else if bytes = sampleProgressBytes 2 then .ok (sampleProgress 2)
    else .error "not a sample"

theorem MsgPack.progress_lawful : MsgPack.progress.Lawful where
  fromSlice_toVecNamed {event bytes} h := by
    simp only [MsgPack.progress] at h ⊢
    split at h
    · cases h
      rw [if_pos rfl]
      rfl
    · cases h
      rw [if_neg (by decide), if_pos rfl]
      rfl
    · cases h
  marker {event bytes} h := by
    simp only [MsgPack.progress] at h
    split at h
    · cases h
      exact ⟨_, _, rfl, by decide⟩
    · cases h
      exact ⟨_, _, rfl, by decide⟩
    · cases h

/-- Every operation of the connection succeeds, or only connecting does. -/
def sampleNet (up : Bool) : StreamNet :=
  let result : Except String Unit := if up then .ok () else .error "connection lost"
  ⟨.ok (), up, ⟨result, result⟩, ⟨result, result⟩, result, result, result⟩

def pairs : StreamEnv := ⟨some 2, none, none⟩

def freshRun : CoalesceRun := ⟨.new true, []⟩

theorem freshRun_conserved (M : MsgPack) : freshRun.Conserved M := List.Perm.nil

theorem progress_batch : ∃ framed,
    MsgPack.progress.frameBytes (.batch [sampleProgress 1, sampleProgress 2]) = .ok framed ∧
      framed.length ≤ largeFrameThreshold := by
  have heval : ((MsgPack.progress.frameBytes
      (.batch [sampleProgress 1, sampleProgress 2])).toOption.map fun framed =>
        decide (framed.length ≤ largeFrameThreshold)) = some true := by
    decide +kernel
  cases hframe : MsgPack.progress.frameBytes (.batch [sampleProgress 1, sampleProgress 2]) with
  | error e =>
    rw [hframe] at heval
    cases heval
  | ok framed =>
    rw [hframe] at heval
    exact ⟨framed, rfl, of_decide_eq_true (Option.some.inj heval)⟩

/-- The second call finds the first event waiting. -/
theorem progress_smallFrames (net : StreamNet) :
    (coalescing MsgPack.progress pairs).Each
      (fun r send _ => r.transport.SmallFrame MsgPack.progress 2 send.event) freshRun
      [⟨sampleNet true, sampleProgress 1⟩, ⟨net, sampleProgress 2⟩] := by
  refine ⟨_, rfl, fun hheld => absurd hheld (by decide), _, rfl, fun _ framed hframed => ?_,
    trivial⟩
  obtain ⟨framed', hframed', hlen⟩ := progress_batch
  obtain rfl : framed' = framed := Except.ok.inj (hframed'.symm.trans hframed)
  exact hlen

/-- Both events end up in a written frame. -/
theorem progress_pair_conserved :
    (coalescing MsgPack.progress pairs).Each (fun _ _ r => r.Conserved MsgPack.progress) freshRun
      [⟨sampleNet true, sampleProgress 1⟩, ⟨sampleNet true, sampleProgress 2⟩] := by
  refine (coalescing_conserves_iff MsgPack.progress MsgPack.progress_lawful pairs 2 rfl (by decide)
    rfl freshRun (freshRun_conserved _) _ (progress_smallFrames _)).mpr ?_
  refine ⟨_, rfl, fun _ hheld => absurd hheld (by decide), _, rfl, fun _ _ => ⟨fun _ => ?_, ?_⟩,
    trivial⟩
  · obtain ⟨framed, hframed, -⟩ := progress_batch
    exact ⟨framed, hframed, rfl⟩
  · intro _ _ hshared
    cases hshared

/-- The batch cannot be written: the first event was accepted, and is nowhere. -/
theorem accepted_event_lost :
    (coalescing MsgPack.progress pairs).Each
      (fun r send _ => r.transport.SmallFrame MsgPack.progress 2 send.event) freshRun
      [⟨sampleNet true, sampleProgress 1⟩, ⟨sampleNet false, sampleProgress 2⟩] ∧
    ∃ r, (coalescing MsgPack.progress pairs).exec freshRun
        [⟨sampleNet true, sampleProgress 1⟩, ⟨sampleNet false, sampleProgress 2⟩] = some r ∧
      r.accepted.map TelemetryEvent.timestampMs = [1] ∧ r.transport.pendingEvents = [] ∧
      r.transport.written = [] ∧ ¬ r.Conserved MsgPack.progress := by
  have heval : ((coalescing MsgPack.progress pairs).exec freshRun
      [⟨sampleNet true, sampleProgress 1⟩, ⟨sampleNet false, sampleProgress 2⟩]).map (fun r =>
        (r.accepted.map TelemetryEvent.timestampMs, r.transport.pendingEvents.length,
          r.transport.written)) = some ([1], 0, []) := by
    decide +kernel
  obtain ⟨r, hrun, hview⟩ := Option.map_eq_some_iff.mp heval
  simp only [Prod.mk.injEq] at hview
  obtain ⟨haccepted, hlen, hwritten⟩ := hview
  have hpending := List.length_eq_zero_iff.mp hlen
  refine ⟨progress_smallFrames _, r, hrun, haccepted, hpending, hwritten, fun hperm => ?_⟩
  unfold CoalesceRun.Conserved at hperm
  rw [hpending, hwritten] at hperm
  rw [hperm.eq_nil] at haccepted
  cases haccepted

end ScTransport
