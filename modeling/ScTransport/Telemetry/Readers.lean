import ScTransport.Telemetry.Framing
import ScTransport.Infra.Checked

/-!
# Reading telemetry from a peer

The parsers and both readers with every operation that can panic, and with the space that is
reserved for the records of a batch. `read_framed_event` reads the same frames as
`read_framed_events` and returns the first event of each.

* `parseFramedEventsChecked_eq`, `readFramedEventsChecked_eq` — what is modelled without panics
  elsewhere is what the code does
* `readFramedEvent_eq` — one reader in terms of the other
* `telemetry_safe_iff` — which bytes are parsed safely
* `readers_agree_iff` — on which streams both readers see the same events
-/

namespace ScTransport

open Infra

/-- Space for `count` records of a payload of this length. -/
structure Reservation where
  count : Nat
  payloadLength : Nat
  deriving DecidableEq

/-- Every record starts with its length, so a payload that is complete has this many bytes. -/
def Reservation.Fair (r : Reservation) : Prop := 4 * r.count + 8 ≤ r.payloadLength

abbrev Parsing := Checked Reservation TransportError

/-! ## The source, with its panics -/

/-- The test of both parsers for a batch. -/
def isBatchChecked (payload : Bytes) : Parsing Bool :=
  if payload.length < 8 then pure false
  else do
    let magic ← Checked.range payload 0 4
    return decide (magic = batchMagic)

namespace MsgPack

variable (M : MsgPack)

def parseFramedEventChecked (buf : Bytes) : Parsing TelemetryEvent :=
  if buf.length < 4 then .throw (.unavailable "frame too small")
  else do
    let declaredLen ← Checked.be32At buf 0
    if declaredLen = 0 ∨ maxTelemetryFrameBytes < declaredLen then
      .throw (.unavailable "frame length out of range")
    else do
      let payload ← Checked.range buf 4 buf.length
      if payload.length ≠ declaredLen then .throw (.unavailable "frame length mismatch")
      else .ofExcept (M.decode payload)

/-- The loop of `parse_framed_events`, from `idx` on. -/
def parseBatchChecked (payload : Bytes) : Nat → Nat → Parsing (List TelemetryEvent)
  | 0, _ => pure []
  | n + 1, idx => do
    let start ← Checked.add idx 4
    if payload.length < start then
      .throw (.unavailable "invalid batch frame length header")
    else do
      let len ← Checked.be32At payload idx
      let stop ← Checked.add start len
      if payload.length < stop then
        .throw (.unavailable "invalid batch frame payload boundary")
      else do
        let encoded ← Checked.range payload start stop
        let event ← .ofExcept (M.decode encoded)
        let events ← parseBatchChecked payload n stop
        return event :: events

def parseFramedEventsChecked (buf : Bytes) : Parsing (List TelemetryEvent) :=
  if buf.length < 4 then .throw (.unavailable "frame too small")
  else do
    let declaredLen ← Checked.be32At buf 0
    let payload ← Checked.range buf 4 buf.length
    if payload.length ≠ declaredLen then .throw (.unavailable "frame length mismatch")
    else do
      let batch ← isBatchChecked payload
      if batch = false then do
        let event ← M.parseFramedEventChecked buf
        return [event]
      else do
        let count ← Checked.be32At payload 4
        -- before the first record is looked at
        Checked.reserve ⟨count, payload.length⟩
        M.parseBatchChecked payload count 8

/-- Both readers start with the length and the payload of the next frame. -/
def readFrame (s : Stream) : Except TransportError (Bytes × Bytes × Stream) :=
  match s.readExact 4 with
  | none => .error earlyEof
  | some (lenBuf, s) =>
    let payloadLen := ofBe32 lenBuf
    if payloadLen = 0 ∨ maxTelemetryFrameBytes < payloadLen then
      .error (.unavailable
        s!"telemetry frame length {payloadLen} outside 1..={maxTelemetryFrameBytes}")
    else
      match s.readExact payloadLen with
      | none => .error earlyEof
      | some (payload, s) => .ok (lenBuf, payload, s)

def readFramedEventsChecked (s : Stream) : Parsing (List TelemetryEvent × Stream) := do
  let (lenBuf, payload, s) ← .ofExcept (readFrame s)
  let events ← M.parseFramedEventsChecked (lenBuf ++ payload)
  return (events, s)

def readFramedEvent (s : Stream) : Parsing (TelemetryEvent × Stream) := do
  let (lenBuf, payload, s) ← .ofExcept (readFrame s)
  let batch ← isBatchChecked payload
  if batch = true then do
    let events ← M.parseFramedEventsChecked (lenBuf ++ payload)
    let drained ← Checked.drain 1 events
    match drained with
    | event :: _ => return (event, s)
    | [] => .throw (.unavailable "empty batch frame")
  else do
    let event ← .ofExcept (M.decode payload)
    return (event, s)

end MsgPack

/-! ## Refinement -/

/-- The count that a payload declares, if it is a batch. -/
def batchCount (payload : Bytes) : Option Nat :=
  if payload.length < 8 ∨ payload.take 4 ≠ batchMagic then none
  else some (ofBe32 ((payload.drop 4).take 4))

def reservation (payload : Bytes) : Option Reservation :=
  (batchCount payload).map fun count => ⟨count, payload.length⟩

/-- The payload of a buffer that is as long as it declares. -/
def framePayload (buf : Bytes) : Option Bytes :=
  if 4 ≤ buf.length ∧ (buf.drop 4).length = ofBe32 (buf.take 4) then some (buf.drop 4) else none

/-- The payload of the first frame of a stream, if its length is allowed and it is all there. -/
def nextPayload (bytes : Bytes) : Option Bytes :=
  let payloadLen := ofBe32 (bytes.take 4)
  if 4 + payloadLen ≤ bytes.length ∧ 0 < payloadLen ∧ payloadLen ≤ maxTelemetryFrameBytes then
    some ((bytes.drop 4).take payloadLen)
  else none

theorem isBatchChecked_eq (payload : Bytes) :
    isBatchChecked payload = pure (batchCount payload).isSome := by
  unfold isBatchChecked batchCount
  by_cases hlen : payload.length < 8
  · simp only [if_pos hlen, if_pos (Or.inl hlen), Option.isSome_none]
  · rw [if_neg hlen, Checked.range_of_le (by omega) (by omega), Checked.pure_bind, List.drop_zero,
      Nat.sub_zero]
    by_cases hmagic : payload.take 4 = batchMagic
    · rw [if_neg (by simp [hlen, hmagic]), hmagic]
      rfl
    · rw [if_pos (Or.inr hmagic), decide_eq_false hmagic]
      rfl

namespace MsgPack

variable {M : MsgPack}

theorem parseFramedEventChecked_eq (buf : Bytes) :
    M.parseFramedEventChecked buf = .ofExcept (M.parseFramedEvent buf) := by
  unfold parseFramedEventChecked parseFramedEvent
  by_cases hlen : buf.length < 4
  · rw [if_pos hlen, if_pos hlen]
    rfl
  rw [if_neg hlen, if_neg hlen, Checked.be32At_of_le (by omega), Checked.pure_bind,
    List.drop_zero]
  dsimp only
  by_cases hrange : ofBe32 (buf.take 4) = 0 ∨ maxTelemetryFrameBytes < ofBe32 (buf.take 4)
  · rw [if_pos hrange, if_pos hrange]
    rfl
  rw [if_neg hrange, if_neg hrange, Checked.range_of_le (by omega) (Nat.le_refl _),
    Checked.pure_bind, List.take_of_length_le (by rw [List.length_drop])]
  by_cases hlen' : (buf.drop 4).length ≠ ofBe32 (buf.take 4)
  · rw [if_pos hlen', if_pos hlen']
    rfl
  · rw [if_neg hlen', if_neg hlen']

/-- The sums of the loop stay below the length of a payload and a word of four bytes. -/
theorem parseBatchChecked_eq {payload : Bytes} (hpayload : payload.length < 2 ^ 32) :
    ∀ {n idx : Nat}, idx ≤ payload.length →
      M.parseBatchChecked payload n idx = .ofExcept (M.parseBatch n (payload.drop idx))
  | 0, _, _ => rfl
  | n + 1, idx, hidx => by
    unfold parseBatchChecked parseBatch
    rw [Checked.add_of_lt (by omega), Checked.pure_bind]
    by_cases hheader : payload.length < idx + 4
    · rw [if_pos hheader, if_pos (by rw [List.length_drop]; omega)]
      rfl
    rw [if_neg hheader, if_neg (by rw [List.length_drop]; omega),
      Checked.be32At_of_le (by omega), Checked.pure_bind]
    dsimp only
    generalize hlen : ofBe32 ((payload.drop idx).take 4) = len
    have hlt : len < 2 ^ 32 := hlen ▸ ofBe32_lt (by rw [List.length_take]; omega)
    rw [Checked.add_of_lt (by omega), Checked.pure_bind, List.drop_drop, List.length_drop]
    by_cases hbound : payload.length < idx + 4 + len
    · rw [if_pos hbound, if_pos (by omega)]
      rfl
    rw [if_neg hbound, if_neg (by omega), Checked.range_of_le (by omega) (by omega),
      Checked.pure_bind, Nat.add_sub_cancel_left, List.drop_drop]
    cases M.decode ((payload.drop (idx + 4)).take len) with
    | error e => rfl
    | ok event =>
      rw [Checked.ofExcept_ok, Checked.pure_bind, parseBatchChecked_eq hpayload (by omega)]
      cases M.parseBatch n (payload.drop (idx + 4 + len)) <;> rfl

theorem parseFramedEventsChecked_eq (buf : Bytes) :
    M.parseFramedEventsChecked buf = ⟨((framePayload buf).bind reservation).toList,
      (M.parseFramedEvents buf).mapError .error⟩ := by
  unfold parseFramedEventsChecked parseFramedEvents framePayload
  by_cases hlen : buf.length < 4
  · rw [if_pos hlen, if_pos hlen, if_neg (by omega)]
    rfl
  rw [if_neg hlen, if_neg hlen, Checked.be32At_of_le (by omega), Checked.pure_bind,
    List.drop_zero, Checked.range_of_le (by omega) (Nat.le_refl _), Checked.pure_bind,
    List.take_of_length_le (by rw [List.length_drop])]
  dsimp only
  by_cases hdeclared : (buf.drop 4).length ≠ ofBe32 (buf.take 4)
  · rw [if_pos hdeclared, if_pos hdeclared, if_neg (fun h => hdeclared h.2)]
    rfl
  rw [if_neg hdeclared, if_neg hdeclared, if_pos ⟨by omega, not_not.mp hdeclared⟩,
    isBatchChecked_eq, Checked.pure_bind, Option.bind_some]
  have hlt : (buf.drop 4).length < 2 ^ 32 := by
    rw [not_not.mp hdeclared]
    exact ofBe32_lt (by rw [List.length_take]; omega)
  unfold reservation batchCount
  by_cases hbatch : (buf.drop 4).length < 8 ∨ (buf.drop 4).take 4 ≠ batchMagic
  · rw [if_pos hbatch, if_pos hbatch, Option.isSome_none, if_pos rfl,
      parseFramedEventChecked_eq]
    cases M.parseFramedEvent buf <;> rfl
  · have hlong : 8 ≤ (buf.drop 4).length := by
      rw [not_or] at hbatch
      omega
    rw [if_neg hbatch, if_neg hbatch, Option.isSome_some, if_neg Bool.true_eq_false.mp,
      Checked.be32At_of_le (by omega), Checked.pure_bind, parseBatchChecked_eq hlt hlong]
    rfl

/-! ## Readers -/

theorem readFramedEvents_eq (s : Stream) :
    M.readFramedEvents s = (do
      let (lenBuf, payload, s) ← readFrame s
      let events ← M.parseFramedEvents (lenBuf ++ payload)
      return (events, s)) := by
  unfold readFramedEvents readFrame
  cases s.readExact 4 with
  | none => rfl
  | some head =>
    obtain ⟨lenBuf, s₁⟩ := head
    dsimp only
    by_cases hrange : ofBe32 lenBuf = 0 ∨ maxTelemetryFrameBytes < ofBe32 lenBuf
    · rw [if_pos hrange, if_pos hrange]
      rfl
    rw [if_neg hrange, if_neg hrange]
    cases s₁.readExact (ofBe32 lenBuf) with
    | none => rfl
    | some body =>
      obtain ⟨payload, s₂⟩ := body
      dsimp only
      show _ = (M.parseFramedEvents (lenBuf ++ payload) >>= fun events => pure (events, s₂))
      cases M.parseFramedEvents (lenBuf ++ payload) <;> rfl

/-- A frame that was read is the front of the stream. -/
theorem readFrame_eq_ok {s s' : Stream} {lenBuf payload : Bytes}
    (h : readFrame s = .ok (lenBuf, payload, s')) :
    lenBuf.length = 4 ∧ ofBe32 lenBuf = payload.length ∧ 0 < payload.length ∧
      payload.length ≤ maxTelemetryFrameBytes ∧ s.bytes = lenBuf ++ (payload ++ s'.bytes) := by
  unfold readFrame at h
  split at h
  · cases h
  · next s₁ hread =>
    obtain ⟨hlen, hs⟩ := Stream.readExact_eq_some hread
    dsimp only at h
    split at h
    · cases h
    · next hrange =>
      split at h
      · cases h
      · next hread' =>
        obtain ⟨hlen', hs'⟩ := Stream.readExact_eq_some hread'
        cases h
        refine ⟨hlen, hlen'.symm, by omega, by omega, ?_⟩
        rw [hs, hs']

theorem nextPayload_of_readFrame {s s' : Stream} {lenBuf payload : Bytes}
    (h : readFrame s = .ok (lenBuf, payload, s')) : nextPayload s.bytes = some payload := by
  obtain ⟨hlen, hdeclared, hpos, hmax, hs⟩ := readFrame_eq_ok h
  unfold nextPayload
  have htake : s.bytes.take 4 = lenBuf := by rw [hs, ← hlen, List.take_left]
  have hdrop : s.bytes.drop 4 = payload ++ s'.bytes := by rw [hs, ← hlen, List.drop_left]
  simp only [htake, hdrop, hdeclared]
  rw [if_pos, List.take_left]
  refine ⟨?_, hpos, hmax⟩
  rw [hs, List.length_append, List.length_append]
  omega

/-- The frame is put together again for the parser. -/
theorem frame_of_readFrame {s s' : Stream} {lenBuf payload : Bytes}
    (h : readFrame s = .ok (lenBuf, payload, s')) :
    ¬ (lenBuf ++ payload).length < 4 ∧ ofBe32 ((lenBuf ++ payload).take 4) = payload.length ∧
      (lenBuf ++ payload).drop 4 = payload := by
  obtain ⟨hlen, hdeclared, -, -, -⟩ := readFrame_eq_ok h
  refine ⟨?_, ?_, ?_⟩
  · rw [List.length_append]
    omega
  · rw [← hlen, List.take_left, hdeclared]
  · rw [← hlen, List.drop_left]

theorem framePayload_of_readFrame {s s' : Stream} {lenBuf payload : Bytes}
    (h : readFrame s = .ok (lenBuf, payload, s')) :
    framePayload (lenBuf ++ payload) = some payload := by
  obtain ⟨hlong, hdeclared, hdrop⟩ := frame_of_readFrame h
  unfold framePayload
  rw [hdeclared, hdrop, if_pos ⟨Nat.le_of_not_lt hlong, rfl⟩]

/-- A frame that is there is read. -/
theorem readFrame_of_nextPayload {s : Stream} {payload : Bytes}
    (h : nextPayload s.bytes = some payload) :
    ∃ lenBuf s', readFrame s = .ok (lenBuf, payload, s') := by
  unfold nextPayload at h
  dsimp only at h
  split at h
  · next hthere =>
    obtain ⟨hlen, hpos, hmax⟩ := hthere
    have hlen₁ : (s.bytes.take 4).length = 4 := by
      rw [List.length_take]
      omega
    obtain ⟨s₁, hread, hs₁⟩ := Stream.readExact_append (List.take_append_drop 4 s.bytes).symm
    rw [hlen₁] at hread
    generalize hn : ofBe32 (s.bytes.take 4) = n at *
    have hlen₂ : (s₁.bytes.take n).length = n := by
      rw [hs₁, List.length_take, List.length_drop]
      omega
    obtain ⟨s₂, hread', -⟩ := Stream.readExact_append (List.take_append_drop n s₁.bytes).symm
    rw [hlen₂, hs₁] at hread'
    cases h
    refine ⟨s.bytes.take 4, s₂, ?_⟩
    unfold readFrame
    rw [hread]
    dsimp only
    rw [hn, if_neg (by omega), hread']
  · cases h

/-- The checked reader is the reader of frames, and reserves for the frame it reads. -/
theorem readFramedEventsChecked_eq (s : Stream) :
    M.readFramedEventsChecked s = ⟨((nextPayload s.bytes).bind reservation).toList,
      (M.readFramedEvents s).mapError .error⟩ := by
  rw [readFramedEvents_eq]
  unfold readFramedEventsChecked
  cases hf : readFrame s with
  | error e =>
    cases hn : nextPayload s.bytes with
    | none => rfl
    | some payload =>
      obtain ⟨lenBuf, s', hok⟩ := readFrame_of_nextPayload hn
      rw [hf] at hok
      cases hok
  | ok frame =>
    obtain ⟨lenBuf, payload, s'⟩ := frame
    show (M.parseFramedEventsChecked (lenBuf ++ payload) >>= fun events => pure (events, s')) =
      ⟨_, (M.parseFramedEvents (lenBuf ++ payload) >>= fun events =>
        pure (events, s')).mapError .error⟩
    rw [parseFramedEventsChecked_eq, framePayload_of_readFrame hf, nextPayload_of_readFrame hf,
      Checked.mk_bind_pure]

/-- A frame without a batch is its only event. -/
theorem parseFramedEvents_of_single {s s' : Stream} {lenBuf payload : Bytes}
    (h : readFrame s = .ok (lenBuf, payload, s')) (hsingle : batchCount payload = none) :
    M.parseFramedEvents (lenBuf ++ payload) = (do
      let event ← M.decode payload
      return [event]) := by
  obtain ⟨-, -, hpos, hmax, -⟩ := readFrame_eq_ok h
  obtain ⟨hlong, hdeclared, hdrop⟩ := frame_of_readFrame h
  have hone : M.parseFramedEvent (lenBuf ++ payload) = M.decode payload := by
    unfold parseFramedEvent
    rw [if_neg hlong, hdrop, hdeclared]
    dsimp only
    rw [if_neg (by omega), if_neg (not_not.mpr rfl)]
  have hbatch : payload.length < 8 ∨ payload.take 4 ≠ batchMagic := by
    unfold batchCount at hsingle
    split at hsingle
    · assumption
    · cases hsingle
  unfold parseFramedEvents
  rw [if_neg hlong, hdrop, hdeclared]
  dsimp only
  rw [if_neg (not_not.mpr rfl), if_pos hbatch, hone]

/-- `read_framed_event` reads what `read_framed_events` reads and returns its first event. -/
theorem readFramedEvent_eq (s : Stream) :
    M.readFramedEvent s = (do
      let (events, s) ← M.readFramedEventsChecked s
      match events with
      | [] => .panicked
      | event :: _ => pure (event, s)) := by
  unfold readFramedEvent readFramedEventsChecked
  cases hf : readFrame s with
  | error e => rfl
  | ok frame =>
    obtain ⟨lenBuf, payload, s'⟩ := frame
    rw [Checked.ofExcept_ok, Checked.pure_bind, Checked.pure_bind]
    dsimp only
    rw [isBatchChecked_eq, Checked.pure_bind, Checked.bind_assoc]
    cases hcount : batchCount payload with
    | none =>
      rw [Option.isSome_none, if_neg Bool.false_ne_true, parseFramedEventsChecked_eq,
        framePayload_of_readFrame hf, parseFramedEvents_of_single hf hcount]
      simp only [Option.bind_some, reservation, hcount, Option.map_none, Option.toList_none]
      cases M.decode payload <;> rfl
    | some count =>
      rw [Option.isSome_some, if_pos rfl]
      refine congrArg _ (funext fun events => ?_)
      cases events <;> rfl

/-! ## What is parsed safely -/

theorem length_of_parseBatch : ∀ {n : Nat} {rest : Bytes} {events : List TelemetryEvent},
    M.parseBatch n rest = .ok events → events.length = n
  | 0, _, _, h => by
    cases h
    rfl
  | n + 1, rest, events, h => by
    unfold parseBatch at h
    split at h
    · cases h
    · dsimp only at h
      split at h
      · cases h
      · obtain ⟨event, -, h⟩ := bind_eq_ok h
        obtain ⟨events', hrest, h⟩ := bind_eq_ok h
        cases h
        rw [List.length_cons, length_of_parseBatch hrest]

/-- A batch is parsed record by record. -/
theorem parseFramedEvents_of_batch {s s' : Stream} {lenBuf payload : Bytes} {count : Nat}
    (h : readFrame s = .ok (lenBuf, payload, s')) (hcount : batchCount payload = some count) :
    M.parseFramedEvents (lenBuf ++ payload) = M.parseBatch count (payload.drop 8) := by
  obtain ⟨hlong, hdeclared, hdrop⟩ := frame_of_readFrame h
  unfold batchCount at hcount
  split at hcount
  · cases hcount
  · next hbatch =>
    cases hcount
    unfold parseFramedEvents
    rw [if_neg hlong, hdrop, hdeclared]
    dsimp only
    rw [if_neg (not_not.mpr rfl), if_neg hbatch]

/-- The frame that was read has as many events as it declares. -/
theorem readFramedEvents_eq_ok {s s' : Stream} {events : List TelemetryEvent}
    (h : M.readFramedEvents s = .ok (events, s')) :
    ∃ payload, nextPayload s.bytes = some payload ∧
      events.length = (batchCount payload).getD 1 := by
  rw [readFramedEvents_eq] at h
  obtain ⟨⟨lenBuf, payload, s₁⟩, hf, h⟩ := bind_eq_ok h
  obtain ⟨events', hparse, h⟩ := bind_eq_ok h
  cases h
  refine ⟨payload, nextPayload_of_readFrame hf, ?_⟩
  cases hcount : batchCount payload with
  | none =>
    rw [parseFramedEvents_of_single hf hcount] at hparse
    obtain ⟨event, -, hparse⟩ := bind_eq_ok hparse
    cases hparse
    rfl
  | some count =>
    rw [parseFramedEvents_of_batch hf hcount] at hparse
    exact length_of_parseBatch hparse

/-- The last call of `read_framed_event` panics on a batch of nothing. -/
theorem readFramedEvent_panics_iff (s : Stream) :
    (M.readFramedEvent s).result = .error .panicked ↔
      ∃ payload, nextPayload s.bytes = some payload ∧ batchCount payload = some 0 := by
  rw [readFramedEvent_eq, readFramedEventsChecked_eq]
  constructor
  · intro h
    cases hread : M.readFramedEvents s with
    | error e =>
      rw [hread] at h
      cases h
    | ok read =>
      obtain ⟨events, s'⟩ := read
      obtain ⟨payload, hnext, hlen⟩ := readFramedEvents_eq_ok hread
      rw [hread] at h
      cases events with
      | cons event events => cases h
      | nil =>
        refine ⟨payload, hnext, ?_⟩
        cases hcount : batchCount payload with
        | none => rw [hcount] at hlen; cases hlen
        | some count => rw [hcount] at hlen; exact congrArg some hlen.symm
  · rintro ⟨payload, hnext, hcount⟩
    obtain ⟨lenBuf, s', hf⟩ := readFrame_of_nextPayload hnext
    have hread : M.readFramedEvents s = .ok ([], s') := by
      rw [readFramedEvents_eq, hf]
      show (M.parseFramedEvents (lenBuf ++ payload) >>= fun events => pure (events, s')) = _
      rw [parseFramedEvents_of_batch hf hcount]
      rfl
    rw [hread]
    rfl

theorem readFramedEvent_reserved (s : Stream) :
    (M.readFramedEvent s).reserved = ((nextPayload s.bytes).bind reservation).toList := by
  rw [readFramedEvent_eq, readFramedEventsChecked_eq]
  cases M.readFramedEvents s with
  | error e => rfl
  | ok read =>
    obtain ⟨events, s'⟩ := read
    cases events <;> exact List.append_nil _

end MsgPack

/-- The records that a frame declares fit into it. -/
theorem fair_reservation_iff (frame : Option Bytes) :
    (∀ r, frame.bind reservation = some r → r.Fair) ↔
      ∀ payload count, frame = some payload → batchCount payload = some count →
        4 * count + 8 ≤ payload.length := by
  constructor
  · rintro h payload count rfl hcount
    refine h ⟨count, payload.length⟩ ?_
    rw [Option.bind_some, reservation, hcount, Option.map_some]
  · intro h r hr
    obtain ⟨payload, rfl, hr⟩ := Option.bind_eq_some_iff.mp hr
    obtain ⟨count, hcount, rfl⟩ := Option.map_eq_some_iff.mp hr
    exact h payload count rfl hcount

/--
**What is parsed safely.** `parse_framed_event` is safe on all bytes. The others reserve what the
batch declares before they look at it, and `read_framed_event` takes the first of its events, so
they are safe exactly on the batches that can hold their records, and are not empty for the last.
-/
theorem telemetry_safe_iff (M : MsgPack) (buf : Bytes) (s : Stream) :
    (M.parseFramedEventChecked buf).Safe Reservation.Fair ∧
    ((M.parseFramedEventsChecked buf).Safe Reservation.Fair ↔
      ∀ payload count, framePayload buf = some payload → batchCount payload = some count →
        4 * count + 8 ≤ payload.length) ∧
    ((M.readFramedEventsChecked s).Safe Reservation.Fair ↔
      ∀ payload count, nextPayload s.bytes = some payload → batchCount payload = some count →
        4 * count + 8 ≤ payload.length) ∧
    ((M.readFramedEvent s).Safe Reservation.Fair ↔
      ∀ payload count, nextPayload s.bytes = some payload → batchCount payload = some count →
        count ≠ 0 ∧ 4 * count + 8 ≤ payload.length) := by
  refine ⟨?_, ?_, ?_, ?_⟩
  · rw [MsgPack.parseFramedEventChecked_eq]
    exact Checked.safe_ofExcept _
  · rw [MsgPack.parseFramedEventsChecked_eq, Checked.safe_mk_iff, fair_reservation_iff]
  · rw [MsgPack.readFramedEventsChecked_eq, Checked.safe_mk_iff, fair_reservation_iff]
  · rw [Checked.safe_iff (MsgPack.readFramedEvent_reserved s), fair_reservation_iff, ne_eq,
      MsgPack.readFramedEvent_panics_iff]
    constructor
    · rintro ⟨hreturns, hfair⟩ payload count hnext hcount
      refine ⟨?_, hfair payload count hnext hcount⟩
      rintro rfl
      exact hreturns ⟨payload, hnext, hcount⟩
    · intro h
      refine ⟨?_, fun payload count hnext hcount => (h payload count hnext hcount).2⟩
      rintro ⟨payload, hnext, hcount⟩
      exact (h payload 0 hnext hcount).1 rfl

/-- A frame of eight bytes that declares this many records and holds none. -/
def sampleHollow (count : Nat) : Bytes := toBe32 8 ++ (batchMagic ++ toBe32 count)

/-- Twelve bytes reserve space for all the records a word can count, or make a reader panic. -/
theorem sampleHollow_not_safe :
    (MsgPack.sample.parseFramedEventsChecked (sampleHollow (2 ^ 32 - 1))).reserved =
      [⟨2 ^ 32 - 1, 8⟩] ∧ ¬ Reservation.Fair ⟨2 ^ 32 - 1, 8⟩ ∧
    (MsgPack.sample.readFramedEvent ⟨[sampleHollow 0], by decide⟩).result = .error .panicked := by
  refine ⟨?_, ?_, ?_⟩
  · rw [MsgPack.parseFramedEventsChecked_eq]
    decide +kernel
  · unfold Reservation.Fair
    decide
  · rw [MsgPack.readFramedEvent_panics_iff]
    exact ⟨batchMagic ++ toBe32 0, by decide +kernel, by decide +kernel⟩

/-! ## Both readers on the same stream -/

namespace MsgPack

section Loop

variable (M : MsgPack)

/-- `read_framed_event` again and again, until the stream ends or a call does not return. -/
def readEachLoop : Nat → Stream → List TelemetryEvent × Option (Stop TransportError)
  | 0, _ => ([], none)
  | n + 1, s =>
    if s.atEnd then ([], none)
    else
      match (M.readFramedEvent s).result with
      | .error stop => ([], some stop)
      | .ok (event, s) => (event :: (readEachLoop n s).1, (readEachLoop n s).2)

/-- Every successful call takes at least a byte from the stream, so this many calls suffice. -/
def readEach (s : Stream) : List TelemetryEvent × Option (Stop TransportError) :=
  M.readEachLoop s.bytes.length s

end Loop

variable {M : MsgPack}

/-- What `read_framed_event` makes of some frames. -/
def firstEvents : List TelemetryFrame → List TelemetryEvent × Option (Stop TransportError)
  | [] => ([], none)
  | frame :: frames =>
    match frame.events with
    | [] => ([], some .panicked)
    | event :: _ => (event :: (firstEvents frames).1, (firstEvents frames).2)

theorem Framed.readEach {events : List TelemetryEvent} {wire payload : Bytes} {s : Stream}
    (hf : Framed M events wire payload) (hmax : payload.length ≤ maxTelemetryFrameBytes)
    {more : Bytes} (hs : s.bytes = wire ++ more) :
    ∃ s', s'.bytes = more ∧ (M.readFramedEvent s).result =
      match events with
      | [] => .error .panicked
      | event :: _ => .ok (event, s') := by
  obtain ⟨s', hread, hs'⟩ := hf.read hmax hs
  refine ⟨s', hs', ?_⟩
  rw [readFramedEvent_eq, readFramedEventsChecked_eq, hread]
  cases events <;> rfl

theorem Lawful.readEachLoop (hM : M.Lawful) : ∀ {sent : List (TelemetryFrame × Bytes)} {n : Nat}
    {s : Stream}, M.Sent sent → s.bytes = (sent.map Prod.snd).flatten → s.bytes.length ≤ n →
      M.readEachLoop n s = firstEvents (sent.map Prod.fst)
  | [], n, s, _, hs, _ => by
    cases n with
    | zero => rfl
    | succ n =>
      rw [MsgPack.readEachLoop, Stream.atEnd_iff.mpr hs, if_pos rfl]
      rfl
  | (frame, wire) :: sent, n, s, hsent, hs, hn => by
    rw [List.map_cons, List.flatten_cons] at hs
    obtain ⟨payload, hf, hmax, hend, hlt⟩ := hM.sent_head hsent hs
    obtain ⟨s', hs', hread⟩ := hf.readEach hmax hs
    rw [← hs'] at hlt
    cases n with
    | zero => omega
    | succ n =>
      have hrest := hM.readEachLoop (n := n) (fun p hp => hsent p (List.mem_cons_of_mem _ hp)) hs'
        (by omega)
      rw [MsgPack.readEachLoop, hend, if_neg Bool.false_ne_true, hread, List.map_cons, firstEvents]
      cases frame.events with
      | nil => rfl
      | cons event events => simp only [hrest]

/-- A run over all the frames has met no empty batch. -/
theorem length_firstEvents : ∀ {frames : List TelemetryFrame}, (firstEvents frames).2 = none →
    (firstEvents frames).1.length = frames.length ∧
      frames.length ≤ (frames.flatMap TelemetryFrame.events).length
  | [], _ => ⟨rfl, Nat.le_refl _⟩
  | frame :: frames, h => by
    unfold firstEvents at h ⊢
    rw [List.flatMap_cons, List.length_append]
    cases hevents : frame.events with
    | nil =>
      rw [hevents] at h
      cases h
    | cons event events =>
      rw [hevents] at h
      obtain ⟨hlen, hle⟩ := length_firstEvents h
      refine ⟨congrArg (· + 1) hlen, ?_⟩
      simp only [List.length_cons]
      omega

/-- All events of the frames are their first events just if each frame has one event. -/
theorem firstEvents_eq_iff : ∀ {frames : List TelemetryFrame},
    firstEvents frames = (frames.flatMap TelemetryFrame.events, none) ↔
      ∀ frame ∈ frames, frame.events.length = 1
  | [] => ⟨fun _ => nofun, fun _ => rfl⟩
  | frame :: frames => by
    rw [List.forall_mem_cons, ← firstEvents_eq_iff, firstEvents, List.flatMap_cons]
    cases hevents : frame.events with
    | nil =>
      refine ⟨fun h => ?_, fun h => ?_⟩
      · cases congrArg Prod.snd h
      · cases h.1
    | cons event events =>
      cases events with
      | nil => simp [Prod.ext_iff]
      | cons second events =>
        -- an event is missing, and no other frame makes up for it
        refine ⟨fun h => ?_, nofun⟩
        obtain ⟨hlen, hle⟩ := length_firstEvents (congrArg Prod.snd h)
        have hcount := congrArg (List.length ∘ Prod.fst) h
        simp only [Function.comp_apply, List.length_append, List.length_cons] at hcount
        omega

end MsgPack

/--
**Where both readers agree.** On a stream of frames `read_framed_event` comes to the end with the
events of `read_framed_events` exactly if each batch has one event.
-/
theorem readers_agree_iff (M : MsgPack) (hM : M.Lawful) (sent : List (TelemetryFrame × Bytes))
    (hsent : M.Sent sent) (s : Stream) (hs : s.bytes = (sent.map Prod.snd).flatten) :
    M.readEach s = ((M.readAll s).1, none) ↔
      ∀ events wire, (TelemetryFrame.batch events, wire) ∈ sent → events.length = 1 := by
  have heach : M.readEach s = MsgPack.firstEvents (sent.map Prod.fst) :=
    hM.readEachLoop hsent hs (Nat.le_refl _)
  have hall : (M.readAll s).1 = (sent.map Prod.fst).flatMap TelemetryFrame.events := by
    rw [hM.readAll hsent hs, List.flatMap_map]
  rw [heach, hall, MsgPack.firstEvents_eq_iff]
  constructor
  · intro h events wire hmem
    exact h (.batch events) (List.mem_map_of_mem hmem)
  · intro h frame hframe
    obtain ⟨⟨frame, wire⟩, hmem, rfl⟩ := List.mem_map.mp hframe
    cases frame with
    | single event => rfl
    | batch events => exact h events wire hmem

/-- A single event and a batch of one. -/
def sampleOnes : List (TelemetryFrame × Bytes) :=
  [.single sampleTelemetry, .batch [sampleTelemetry]].map fun frame => (frame, sampleWire frame)

theorem sampleOnes_readers_agree :
    MsgPack.sample.readEach ⟨sampleOnes.map Prod.snd, by decide +kernel⟩ =
      ((MsgPack.sample.readAll ⟨sampleOnes.map Prod.snd, by decide +kernel⟩).1, none) := by
  refine (readers_agree_iff MsgPack.sample MsgPack.sample_lawful sampleOnes ?_ _ rfl).mpr ?_
  · exact sample_sent (by decide +kernel)
  · intro events wire hmem
    simp only [sampleOnes, List.map_cons, List.map_nil, List.mem_cons, Prod.mk.injEq,
      reduceCtorEq, false_and, TelemetryFrame.batch.injEq, List.not_mem_nil, or_false,
      false_or] at hmem
    rw [hmem.1]
    rfl

/-- The second event of a batch is lost, and an empty batch ends the reading with a panic. -/
theorem sampleSent_readers_differ :
    (MsgPack.sample.readAll ⟨sampleSent.map Prod.snd, by decide +kernel⟩) =
      ([sampleTelemetry, sampleTelemetry, sampleTelemetry], none) ∧
    MsgPack.sample.readEach ⟨sampleSent.map Prod.snd, by decide +kernel⟩ =
      ([sampleTelemetry, sampleTelemetry], some .panicked) := by
  constructor
  · rw [MsgPack.sample_lawful.readAll sampleSent_sent rfl]
    rfl
  · exact MsgPack.sample_lawful.readEachLoop sampleSent_sent rfl (Nat.le_refl _)

end ScTransport
