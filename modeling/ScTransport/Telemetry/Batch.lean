import ScTransport.Telemetry.Framing

/-!
# Sending events in batches

`BatchSender` cuts a list of events into chunks and writes each as one frame on a stream of its
own. How many events go into a chunk is chosen by the first event alone. The encoders refuse what
does not fit a word of four bytes, the readers what is longer than `maxTelemetryFrameBytes`.

* `BatchSender.sendBatch` — the chunks, what became of each, and the counts
* `BatchSender.flatten_tasks`, `BatchSender.frame_of_sent` — every event is in one chunk, and a
  chunk that is counted was written
* `MsgPack.payloadLength` — the length of a frame's payload, from the encodings of its events
* `MsgPack.Framed.read_iff` — which frames a reader rejects for their length
* `telemetry_limits_iff` — which frames and which counted chunks are readable
-/

namespace ScTransport

open Infra

/-! ## The sender -/

/-- `slice::chunks`. -/
def chunks {α : Type} (n : Nat) (l : List α) : List (List α) :=
  (List.range ((l.length + n - 1) / n)).map fun k => (l.drop (k * n)).take n

/-- The size of the pool of streams only limits how many chunks are under way at a time. -/
structure BatchSender where
  chunkSize : Nat := 128

/-- Whether a stream is opened for a chunk, and whether its frame can then be written. -/
structure ChunkNet where
  opens : Bool
  writes : Bool

/-- A chunk, the frame written for it, and what the task of the chunk returns. -/
structure ChunkSent where
  events : List TelemetryEvent
  written : Option Bytes
  sent : Nat
  failed : Nat

structure BatchSendResult where
  totalEvents : Nat
  sentEvents : Nat
  failedChunks : Nat

/-- A chunk of one event is not framed as a batch. -/
def MsgPack.frameChunk (M : MsgPack) : List TelemetryEvent → Except TransportError Bytes
  | [event] => M.frameEvent event
  | events => M.frameEventBatch events

/-- The task of a chunk. -/
def sendChunk (M : MsgPack) (net : ChunkNet) (events : List TelemetryEvent) : ChunkSent :=
  if net.opens = false then ⟨events, none, 0, 1⟩
  else
    match M.frameChunk events with
    | .ok bytes =>
      if net.writes then ⟨events, some bytes, events.length, 0⟩ else ⟨events, none, 0, 1⟩
    | .error _ => ⟨events, none, 0, 1⟩

namespace BatchSender

def largeFrameThreshold : Nat := 16 * 1024

variable (b : BatchSender) (M : MsgPack) (net : Nat → ChunkNet) (events : List TelemetryEvent)

/-- The size of the chunks, from the first event. -/
def effectiveChunkSize : Nat :=
  match events.head? with
  | none => max b.chunkSize 1
  | some event =>
    match M.frameEvent event with
    | .error _ => max b.chunkSize 1
    | .ok bytes => if largeFrameThreshold < bytes.length then 1 else max b.chunkSize 1

/-- What the tasks do, one for each chunk. -/
def tasks : List ChunkSent :=
  (chunks (b.effectiveChunkSize M events) events).mapIdx fun k chunk => sendChunk M (net k) chunk

def sendBatch : BatchSendResult where
  totalEvents := events.length
  sentEvents := ((b.tasks M net events).map ChunkSent.sent).sum
  failedChunks := ((b.tasks M net events).map ChunkSent.failed).sum

end BatchSender

/-! ## Chunks and counts -/

theorem flatten_chunks {α : Type} {n : Nat} (hn : 0 < n) (l : List α) :
    (chunks n l).flatten = l := by
  have htake : ∀ k, ((List.range k).map fun k => (l.drop (k * n)).take n).flatten =
      l.take (k * n) := by
    intro k
    induction k with
    | zero => simp
    | succ k ih =>
      rw [List.range_succ, List.map_append, List.flatten_append, ih, Nat.succ_mul,
        List.take_add]
      simp
  unfold chunks
  rw [htake]
  apply List.take_of_length_le
  have hdiv := Nat.div_add_mod (l.length + n - 1) n
  have hmod := Nat.mod_lt (l.length + n - 1) hn
  rw [Nat.mul_comm]
  omega

theorem BatchSender.effectiveChunkSize_pos (b : BatchSender) (M : MsgPack)
    (events : List TelemetryEvent) : 0 < b.effectiveChunkSize M events := by
  unfold effectiveChunkSize
  split
  · omega
  · split
    · omega
    · split <;> omega

/-- A task writes a frame exactly when nothing fails, and then counts all its events. -/
theorem sendChunk_spec (M : MsgPack) (net : ChunkNet) (events : List TelemetryEvent) :
    (sendChunk M net events).events = events ∧
      ((sendChunk M net events).written = none ∧ (sendChunk M net events).sent = 0 ∨
        ∃ wire, M.frameChunk events = .ok wire ∧
          (sendChunk M net events).written = some wire ∧
          (sendChunk M net events).sent = events.length) := by
  unfold sendChunk
  split
  · exact ⟨rfl, Or.inl ⟨rfl, rfl⟩⟩
  · split
    · next wire hwire =>
      split
      · exact ⟨rfl, Or.inr ⟨wire, hwire, rfl, rfl⟩⟩
      · exact ⟨rfl, Or.inl ⟨rfl, rfl⟩⟩
    · exact ⟨rfl, Or.inl ⟨rfl, rfl⟩⟩

/-- Every event is in one of the tasks. -/
theorem BatchSender.flatten_tasks (b : BatchSender) (M : MsgPack) (net : Nat → ChunkNet)
    (events : List TelemetryEvent) :
    ((b.tasks M net events).map ChunkSent.events).flatten = events := by
  have hmap : (b.tasks M net events).map ChunkSent.events =
      chunks (b.effectiveChunkSize M events) events := by
    apply List.ext_getElem?
    intro k
    simp [tasks, Function.comp_def, (sendChunk_spec M _ _).1]
  rw [hmap, flatten_chunks (b.effectiveChunkSize_pos M events)]

/-- The frame of a task that is counted. -/
theorem BatchSender.frame_of_sent {b : BatchSender} {M : MsgPack} {net : Nat → ChunkNet}
    {events : List TelemetryEvent} {task : ChunkSent} (htask : task ∈ b.tasks M net events)
    (hsent : 0 < task.sent) :
    ∃ wire, M.frameChunk task.events = .ok wire ∧ task.written = some wire := by
  obtain ⟨k, hk, rfl⟩ := List.mem_mapIdx.mp htask
  obtain ⟨hevents, ⟨-, hzero⟩ | ⟨wire, hwire, hwritten, -⟩⟩ :=
    sendChunk_spec M (net k) ((chunks (b.effectiveChunkSize M events) events)[k])
  · omega
  · exact ⟨wire, by rw [hevents, hwire], hwritten⟩

/-! ## The length of a frame -/

namespace MsgPack

/-- The length of the encoding of an event that can be encoded. -/
def encodedLength (M : MsgPack) (event : TelemetryEvent) : Nat :=
  match M.toVecNamed event with
  | .ok bytes => bytes.length
  | .error _ => 0

/-- A batch has its magic and its count, and for each event a length and the encoding. -/
def payloadLength (M : MsgPack) : TelemetryFrame → Nat
  | .single event => M.encodedLength event
  | .batch events => 8 + (events.map fun event => 4 + M.encodedLength event).sum

variable {M : MsgPack}

theorem length_encode {event : TelemetryEvent} {bytes : Bytes} (h : M.encode event = .ok bytes) :
    bytes.length = M.encodedLength event := by
  unfold encode at h
  unfold encodedLength
  cases hok : M.toVecNamed event with
  | ok encoded =>
    rw [hok] at h
    cases h
    rfl
  | error e =>
    rw [hok] at h
    cases h

theorem length_batchEntries : ∀ {events : List TelemetryEvent} {entries : Bytes},
    M.batchEntries events = .ok entries →
      entries.length = (events.map fun event => 4 + M.encodedLength event).sum
  | [], _, h => by
    cases h
    rfl
  | event :: events, entries, h => by
    unfold batchEntries at h
    obtain ⟨encoded, hencoded, h⟩ := bind_eq_ok h
    obtain ⟨len, hlen, h⟩ := bind_eq_ok h
    obtain ⟨more, hmore, h⟩ := bind_eq_ok h
    cases h
    obtain ⟨-, rfl⟩ := tryBe32_eq_ok hlen
    rw [List.length_append, List.length_append, length_toBe32, length_encode hencoded,
      length_batchEntries hmore, List.map_cons, List.sum_cons, Nat.add_assoc]

theorem length_frameBytes {frame : TelemetryFrame} {wire : Bytes}
    (h : M.frameBytes frame = .ok wire) : wire.length = 4 + M.payloadLength frame := by
  cases frame with
  | single event =>
    obtain ⟨payload, hpayload, h⟩ := bind_eq_ok h
    obtain ⟨len, hlen, h⟩ := bind_eq_ok h
    cases h
    obtain ⟨-, rfl⟩ := tryBe32_eq_ok hlen
    rw [List.length_append, length_toBe32, length_encode hpayload, payloadLength]
  | batch events =>
    obtain ⟨count, hcount, h⟩ := bind_eq_ok h
    obtain ⟨entries, hentries, h⟩ := bind_eq_ok h
    obtain ⟨len, hlen, h⟩ := bind_eq_ok h
    cases h
    obtain ⟨-, rfl⟩ := tryBe32_eq_ok hcount
    obtain ⟨-, rfl⟩ := tryBe32_eq_ok hlen
    simp only [List.length_append, length_toBe32, length_batchEntries hentries, payloadLength]
    simp only [batchMagic, List.length_cons, List.length_nil]
    omega

end MsgPack

/-- The frame that is written for a chunk. -/
def frameOfChunk : List TelemetryEvent → TelemetryFrame
  | [event] => .single event
  | events => .batch events

theorem events_frameOfChunk (events : List TelemetryEvent) :
    (frameOfChunk events).events = events := by
  unfold frameOfChunk
  split <;> rfl

theorem MsgPack.frameChunk_eq (M : MsgPack) (events : List TelemetryEvent) :
    M.frameChunk events = M.frameBytes (frameOfChunk events) := by
  unfold MsgPack.frameChunk frameOfChunk
  split <;> rfl

/-! ## Limits -/

/-- The error of a reader that does not accept the length of a frame. -/
def RejectedForLength {α : Type} (result : Except TransportError α) : Prop :=
  ∃ len : Nat, result = .error (.unavailable
    s!"telemetry frame length {len} outside 1..={maxTelemetryFrameBytes}")

theorem MsgPack.Framed.rejected {M : MsgPack} {events : List TelemetryEvent}
    {wire payload rest : Bytes} (hf : M.Framed events wire payload)
    (hmax : maxTelemetryFrameBytes < payload.length) {s : Stream} (hs : s.bytes = wire ++ rest) :
    RejectedForLength (M.readFramedEvents s) := by
  rw [hf.wire_eq, List.append_assoc] at hs
  obtain ⟨s₁, hread, hs₁⟩ := Stream.readExact_append hs
  rw [length_toBe32] at hread
  refine ⟨payload.length, ?_⟩
  unfold readFramedEvents
  rw [hread]
  simp only [ofBe32_toBe32 hf.lt]
  rw [if_pos (Or.inr hmax)]

/-- What a reader does with a frame that the encoders make. -/
theorem MsgPack.Framed.read_iff {M : MsgPack} {events : List TelemetryEvent}
    {wire payload rest : Bytes} (hf : M.Framed events wire payload) {s : Stream}
    (hs : s.bytes = wire ++ rest) :
    (¬ RejectedForLength (M.readFramedEvents s) ↔ wire.length ≤ 4 + maxTelemetryFrameBytes) ∧
      (wire.length ≤ 4 + maxTelemetryFrameBytes →
        ∃ s', M.readFramedEvents s = .ok (events, s') ∧ s'.bytes = rest) := by
  have hwire : wire.length = 4 + payload.length := by
    rw [hf.wire_eq, List.length_append, length_toBe32]
  by_cases hmax : payload.length ≤ maxTelemetryFrameBytes
  · obtain ⟨s', hread, hs'⟩ := hf.read hmax hs
    refine ⟨⟨fun _ => by omega, fun _ => ?_⟩, fun _ => ⟨s', hread, hs'⟩⟩
    rintro ⟨len, herror⟩
    rw [hread] at herror
    cases herror
  · have hrejected := hf.rejected (by omega) hs
    exact ⟨⟨fun h => absurd hrejected h, fun h => by omega⟩, fun h => by omega⟩

theorem MsgPack.Lawful.frameChunk {M : MsgPack} (hM : M.Lawful) {events : List TelemetryEvent}
    {wire : Bytes} (h : M.frameChunk events = .ok wire) :
    ∃ payload, M.Framed events wire payload := by
  rw [MsgPack.frameChunk_eq] at h
  obtain ⟨payload, hf⟩ := hM.frameBytes h
  rw [events_frameOfChunk] at hf
  exact ⟨payload, hf⟩

/-- The same in terms of the encoded events. -/
theorem MsgPack.Lawful.read_iff {M : MsgPack} (hM : M.Lawful) {frame : TelemetryFrame}
    {wire rest : Bytes} (hwire : M.frameBytes frame = .ok wire) {s : Stream}
    (hs : s.bytes = wire ++ rest) :
    (¬ RejectedForLength (M.readFramedEvents s) ↔
        M.payloadLength frame ≤ maxTelemetryFrameBytes) ∧
      (M.payloadLength frame ≤ maxTelemetryFrameBytes →
        ∃ s', M.readFramedEvents s = .ok (frame.events, s') ∧ s'.bytes = rest) := by
  obtain ⟨payload, hf⟩ := hM.frameBytes hwire
  have hread := hf.read_iff hs
  rwa [length_frameBytes hwire, Nat.add_le_add_iff_left] at hread

/-- The peer reads the chunk from the stream it was written to, whatever follows it there. -/
def ChunkSent.Readable (M : MsgPack) (task : ChunkSent) : Prop :=
  ∃ wire, task.written = some wire ∧ ∀ s rest, s.bytes = wire ++ rest →
    ∃ s', M.readFramedEvents s = .ok (task.events, s') ∧ s'.bytes = rest

/--
**The limits of the encoders and of the readers differ.** A frame is rejected for its length
exactly when the encoded events make a payload longer than `maxTelemetryFrameBytes`, though the
encoders make such frames; otherwise it is read to its events. So a chunk that `sendBatch` counts
is readable exactly when its events are not longer than that.
-/
theorem telemetry_limits_iff (M : MsgPack) (hM : M.Lawful) :
    (∀ frame wire, M.frameBytes frame = .ok wire → ∀ s rest, s.bytes = wire ++ rest →
      (¬ RejectedForLength (M.readFramedEvents s) ↔
        M.payloadLength frame ≤ maxTelemetryFrameBytes) ∧
      (M.payloadLength frame ≤ maxTelemetryFrameBytes →
        ∃ s', M.readFramedEvents s = .ok (frame.events, s') ∧ s'.bytes = rest)) ∧
    ∀ (b : BatchSender) net events, ∀ task ∈ b.tasks M net events, 0 < task.sent →
      (task.Readable M ↔
        M.payloadLength (frameOfChunk task.events) ≤ maxTelemetryFrameBytes) := by
  refine ⟨fun frame wire hwire s rest hs => hM.read_iff hwire hs, ?_⟩
  intro b net events task htask hsent
  obtain ⟨wire, hwire, hwritten⟩ := BatchSender.frame_of_sent htask hsent
  rw [MsgPack.frameChunk_eq] at hwire
  constructor
  · rintro ⟨wire', hwritten', hread⟩
    obtain rfl : wire = wire' := Option.some.inj (hwritten.symm.trans hwritten')
    -- the reader of a stream with this frame alone
    have hs : (Stream.ofBytes wire).bytes = wire ++ [] := by
      rw [Stream.bytes_ofBytes, List.append_nil]
    obtain ⟨s', hok, -⟩ := hread _ [] hs
    refine (hM.read_iff hwire hs).1.mp ?_
    rintro ⟨len, herror⟩
    rw [hok] at herror
    cases herror
  · intro hlen
    refine ⟨wire, hwritten, fun s rest hs => ?_⟩
    have hread := (hM.read_iff hwire hs).2 hlen
    rwa [events_frameOfChunk] at hread

/-! ### A short event and one of 64 MiB -/

/-- The sample event is short enough, alone and sent as a batch. -/
theorem sampleTelemetry_within_limits :
    ¬ RejectedForLength (MsgPack.sample.readFramedEvents
      (Stream.ofBytes (sampleWire (.single sampleTelemetry)))) ∧
    ∀ task ∈ (⟨128⟩ : BatchSender).tasks MsgPack.sample (fun _ => ⟨true, true⟩)
      [sampleTelemetry, sampleTelemetry], task.Readable MsgPack.sample := by
  obtain ⟨hframe, htasks⟩ := telemetry_limits_iff MsgPack.sample MsgPack.sample_lawful
  constructor
  · refine (hframe (.single sampleTelemetry) _ (frameBytes_sampleWire (by decide +kernel)) _ []
      (by rw [Stream.bytes_ofBytes, List.append_nil])).1.mpr (by decide +kernel)
  · intro task htask
    have hsize : (⟨128⟩ : BatchSender).effectiveChunkSize MsgPack.sample
        [sampleTelemetry, sampleTelemetry] = 128 := by decide +kernel
    have hbatch : MsgPack.sample.frameBytes (.batch [sampleTelemetry, sampleTelemetry]) = _ :=
      frameBytes_sampleWire (by decide +kernel)
    have hone : (⟨128⟩ : BatchSender).tasks MsgPack.sample (fun _ => ⟨true, true⟩)
        [sampleTelemetry, sampleTelemetry] =
          [⟨[sampleTelemetry, sampleTelemetry],
            some (sampleWire (.batch [sampleTelemetry, sampleTelemetry])), 2, 0⟩] := by
      unfold BatchSender.tasks
      rw [hsize]
      show [sendChunk MsgPack.sample ⟨true, true⟩ [sampleTelemetry, sampleTelemetry]] = _
      simp only [sendChunk, MsgPack.frameChunk_eq, frameOfChunk, hbatch]
      rfl
    have htask' := htask
    rw [hone, List.mem_singleton] at htask'
    refine (htasks _ _ _ task htask ?_).mpr ?_
    · rw [htask']
      decide
    · rw [htask']
      decide +kernel

/-- A string of MessagePack whose length takes four bytes. -/
def str32 (text : String) : Bytes :=
  0xdb :: toBe32 text.toList.length ++ text.toList.map fun c => UInt8.ofNat c.toNat

/-- The sample event up to its payload. -/
def sampleTelemetryHead : Bytes := sampleTelemetryBytes.dropLast

/-- The sample event with a text for its payload. -/
def textEvent (text : String) : TelemetryEvent := { sampleTelemetry with payload := .string text }

/-- `rmp_serde` on ASCII texts that are too long for a shorter form. -/
def MsgPack.text : MsgPack where
  toVecNamed
    | ⟨"r", none, .runStarted, 1, .string text⟩ =>
      if text.toList.all (fun c => c.toNat < 128) && decide (2 ^ 16 ≤ text.toList.length) then
        .ok (sampleTelemetryHead ++ str32 text)
      else .error "not a long text"
    | _ => .error "not a text"
  fromSlice bytes :=
    if bytes.take sampleTelemetryHead.length = sampleTelemetryHead then
      .ok (textEvent (String.ofList
        ((bytes.drop (sampleTelemetryHead.length + 5)).map fun b => Char.ofNat b.toNat)))
    else .error "not a text"

theorem ofNat_toNat_of_ascii {c : Char} (h : c.toNat < 128) :
    Char.ofNat (UInt8.ofNat c.toNat).toNat = c := by
  rw [UInt8.toNat_ofNat_of_lt' (h.trans (by decide)), Char.ofNat_toNat]

theorem MsgPack.text_lawful : MsgPack.text.Lawful where
  fromSlice_toVecNamed {event bytes} h := by
    simp only [MsgPack.text] at h ⊢
    split at h
    · next text =>
      split at h
      · next hlong =>
        cases h
        have hascii := List.all_eq_true.mp (Bool.and_eq_true_iff.mp hlong).1
        have hbody : ((str32 text).drop 5).map (fun b => Char.ofNat b.toNat) = text.toList := by
          show ((toBe32 text.toList.length ++ _).drop 4).map _ = _
          rw [drop_toBe32, List.map_map]
          refine (List.map_congr_left fun c hc => ?_).trans (List.map_id _)
          exact ofNat_toNat_of_ascii (of_decide_eq_true (hascii c hc))
        rw [List.take_left, if_pos rfl, ← List.drop_drop, List.drop_left, hbody,
          String.ofList_toList]
        rfl
      · cases h
    · cases h
  marker {event bytes} h := by
    simp only [MsgPack.text] at h
    split at h
    · split at h
      · cases h
        exact ⟨0x85, _, rfl, by decide⟩
      · cases h
    · cases h

/-- `n` times the same letter. -/
def longText (n : Nat) : String := String.ofList (List.replicate n 'a')

theorem toList_longText (n : Nat) : (longText n).toList = List.replicate n 'a' :=
  String.toList_ofList

section Long

variable {n : Nat} (hmax : maxTelemetryFrameBytes ≤ n) (hn : n + 100 < 2 ^ 32)

include hmax in
theorem toVecNamed_longText :
    MsgPack.text.toVecNamed (textEvent (longText n)) =
      .ok (sampleTelemetryHead ++ str32 (longText n)) := by
  have hlong : 2 ^ 16 ≤ n := le_trans (by decide) hmax
  show (if (longText n).toList.all (fun c => c.toNat < 128) &&
    decide (2 ^ 16 ≤ (longText n).toList.length) then _ else _) = _
  rw [toList_longText, List.length_replicate, decide_eq_true hlong, Bool.and_true,
    if_pos (List.all_eq_true.mpr fun c hc => by rw [List.eq_of_mem_replicate hc]; decide)]

include hmax in
theorem encodedLength_longText :
    MsgPack.text.encodedLength (textEvent (longText n)) = sampleTelemetryHead.length + 5 + n := by
  rw [MsgPack.encodedLength, toVecNamed_longText hmax]
  simp only [str32, List.length_append, List.length_cons, length_toBe32, List.length_map,
    toList_longText, List.length_replicate]
  omega

include hmax hn in
/-- The event is framed, and the frame is rejected. -/
theorem rejected_longText : ∃ wire, MsgPack.text.frameEvent (textEvent (longText n)) = .ok wire ∧
    BatchSender.largeFrameThreshold < wire.length ∧
    RejectedForLength (MsgPack.text.readFramedEvents (Stream.ofBytes wire)) := by
  have hhead : sampleTelemetryHead.length < 90 := by decide +kernel
  have hlen := encodedLength_longText hmax
  have hencode : MsgPack.text.encode (textEvent (longText n)) =
      .ok (sampleTelemetryHead ++ str32 (longText n)) := by
    rw [MsgPack.encode, toVecNamed_longText hmax]
  have hlength := MsgPack.length_encode hencode
  obtain ⟨wire, hwire⟩ : ∃ wire, MsgPack.text.frameEvent (textEvent (longText n)) = .ok wire := by
    refine ⟨toBe32 (sampleTelemetryHead ++ str32 (longText n)).length ++
      (sampleTelemetryHead ++ str32 (longText n)), ?_⟩
    rw [MsgPack.frameEvent, hencode]
    show (tryBe32 _ _ >>= _) = _
    rw [tryBe32, if_pos (by omega)]
    rfl
  have hframe : MsgPack.text.frameBytes (.single (textEvent (longText n))) = .ok wire := hwire
  have hbytes := MsgPack.length_frameBytes hframe
  have hthreshold : BatchSender.largeFrameThreshold < maxTelemetryFrameBytes := by decide
  have hpayload : MsgPack.text.payloadLength (.single (textEvent (longText n))) =
      sampleTelemetryHead.length + 5 + n := hlen
  refine ⟨wire, hwire, by omega, ?_⟩
  by_contra haccepted
  have hle := (MsgPack.text_lawful.read_iff hframe
    (by rw [Stream.bytes_ofBytes, List.append_nil])).1.mp haccepted
  omega

include hmax hn in
theorem sentEvents_longText :
    ((⟨128⟩ : BatchSender).sendBatch MsgPack.text (fun _ => ⟨true, true⟩)
      [textEvent (longText n)]).sentEvents = 1 := by
  obtain ⟨wire, hframe, hlarge, -⟩ := rejected_longText hmax hn
  have hsize : (⟨128⟩ : BatchSender).effectiveChunkSize MsgPack.text
      [textEvent (longText n)] = 1 := by
    simp only [BatchSender.effectiveChunkSize, List.head?_cons, hframe, if_pos hlarge]
  have hchunk : sendChunk MsgPack.text ⟨true, true⟩ [textEvent (longText n)] =
      ⟨[textEvent (longText n)], some wire, 1, 0⟩ := by
    simp only [sendChunk, MsgPack.frameChunk, hframe]
    rfl
  have htasks : (⟨128⟩ : BatchSender).tasks MsgPack.text (fun _ => ⟨true, true⟩)
      [textEvent (longText n)] = [⟨[textEvent (longText n)], some wire, 1, 0⟩] := by
    have hone : ∀ event : TelemetryEvent, chunks 1 [event] = [[event]] := by simp [chunks]
    unfold BatchSender.tasks
    rw [hsize, ← hchunk, hone]
    rfl
  unfold BatchSender.sendBatch
  rw [htasks]
  rfl

end Long

/-- An event with a text of 64 MiB is sent, counted, and rejected. -/
theorem long_event_rejected :
    ∃ (text : String) (wire : Bytes), text.toList.length = maxTelemetryFrameBytes ∧
      MsgPack.text.frameEvent (textEvent text) = .ok wire ∧
      RejectedForLength (MsgPack.text.readFramedEvents (Stream.ofBytes wire)) ∧
      ((⟨128⟩ : BatchSender).sendBatch MsgPack.text (fun _ => ⟨true, true⟩)
        [textEvent text]).sentEvents = 1 := by
  obtain ⟨n, hn, hmax, hlt⟩ : ∃ n, n = maxTelemetryFrameBytes ∧ maxTelemetryFrameBytes ≤ n ∧
      n + 100 < 2 ^ 32 := ⟨_, rfl, Nat.le_refl _, by decide⟩
  obtain ⟨wire, hwire, -, hrejected⟩ := rejected_longText hmax hlt
  refine ⟨longText n, wire, ?_, hwire, hrejected, sentEvents_longText hmax hlt⟩
  rw [toList_longText, List.length_replicate, hn]

end ScTransport
