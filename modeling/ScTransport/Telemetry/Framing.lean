import ScTransport.Telemetry.Event
import ScTransport.Infra.Stream

/-!
# Framing of telemetry events

A frame is a four byte length and a payload. The payload is one encoded event, or a batch: the
magic `SCB1`, a count, and for each event its length and its encoding. Nothing but the first
bytes of the payload tells the two apart.

* `frameEvent`, `frameEventBatch`, `parseFramedEvents` — writing and parsing a frame
* `readFramedEvents` — reading one frame from a stream
* `MsgPack.Framed.parse` — parsing undoes framing
* `readAll_frames` — reading a stream of frames to its end, or to where it is cut
-/

namespace ScTransport

open Infra

/-! ## Writing -/

def batchMagic : Bytes := [0x53, 0x43, 0x42, 0x31]

def maxTelemetryFrameBytes : Nat := 64 * 1024 * 1024

/-- `u32::try_from(len)`, as four big-endian bytes. -/
def tryBe32 (n : Nat) (text : String) : Except TransportError Bytes :=
  if n < 2 ^ 32 then .ok (toBe32 n) else .error (.unavailable text)

namespace MsgPack

variable (M : MsgPack)

def encode (event : TelemetryEvent) : Except TransportError Bytes :=
  match M.toVecNamed event with
  | .ok bytes => .ok bytes
  | .error text => .error (.serialization text)

def decode (bytes : Bytes) : Except TransportError TelemetryEvent :=
  match M.fromSlice bytes with
  | .ok event => .ok event
  | .error text => .error (.serialization text)

def frameEvent (event : TelemetryEvent) : Except TransportError Bytes := do
  let payload ← M.encode event
  let len ← tryBe32 payload.length "event payload exceeds u32 frame length"
  return len ++ payload

/-- The loop of `frame_event_batch`. -/
def batchEntries : List TelemetryEvent → Except TransportError Bytes
  | [] => .ok []
  | event :: events => do
    let encoded ← M.encode event
    let len ← tryBe32 encoded.length "batched event payload exceeds u32 frame length"
    let more ← batchEntries events
    return len ++ (encoded ++ more)

def frameEventBatch (events : List TelemetryEvent) : Except TransportError Bytes := do
  let count ← tryBe32 events.length "too many events for batch frame"
  let entries ← M.batchEntries events
  let payload := batchMagic ++ (count ++ entries)
  let len ← tryBe32 payload.length "batch payload exceeds u32 frame length"
  return len ++ payload

/-! ## Parsing -/

def parseFramedEvent (buf : Bytes) : Except TransportError TelemetryEvent :=
  if buf.length < 4 then .error (.unavailable "frame too small")
  else
    let declaredLen := ofBe32 (buf.take 4)
    if declaredLen = 0 ∨ maxTelemetryFrameBytes < declaredLen then
      .error (.unavailable "frame length out of range")
    else if (buf.drop 4).length ≠ declaredLen then
      .error (.unavailable "frame length mismatch")
    else M.decode (buf.drop 4)

/-- The loop of `parse_framed_events` over what is left of the payload. -/
def parseBatch : Nat → Bytes → Except TransportError (List TelemetryEvent)
  | 0, _ => .ok []
  | n + 1, rest =>
    if rest.length < 4 then .error (.unavailable "invalid batch frame length header")
    else
      let len := ofBe32 (rest.take 4)
      if (rest.drop 4).length < len then
        .error (.unavailable "invalid batch frame payload boundary")
      else do
        let event ← M.decode ((rest.drop 4).take len)
        let events ← parseBatch n ((rest.drop 4).drop len)
        return event :: events

def parseFramedEvents (buf : Bytes) : Except TransportError (List TelemetryEvent) :=
  if buf.length < 4 then .error (.unavailable "frame too small")
  else
    let payload := buf.drop 4
    if payload.length ≠ ofBe32 (buf.take 4) then .error (.unavailable "frame length mismatch")
    else if payload.length < 8 ∨ payload.take 4 ≠ batchMagic then do
      let event ← M.parseFramedEvent buf
      return [event]
    else M.parseBatch (ofBe32 ((payload.drop 4).take 4)) (payload.drop 8)

/-! ## Reading -/

/-- The text of `UnexpectedEof` from `read_exact`. -/
def earlyEof : TransportError := .unavailable "early eof"

def readFramedEvents (s : Stream) : Except TransportError (List TelemetryEvent × Stream) :=
  match s.readExact 4 with
  | none => .error earlyEof
  | some (lenBuf, s) =>
    let payloadLen := ofBe32 lenBuf
    if payloadLen = 0 ∨ maxTelemetryFrameBytes < payloadLen then
      .error (.unavailable
        s!"telemetry frame length {payloadLen} outside 1..={maxTelemetryFrameBytes}")
    else
      match s.readExact payloadLen with
      | none => .error earlyEof
      | some (payload, s) =>
        match M.parseFramedEvents (lenBuf ++ payload) with
        | .error e => .error e
        | .ok events => .ok (events, s)

/-- `read_framed_events` again and again, until the stream ends or a call fails. -/
def readLoop : Nat → Stream → List TelemetryEvent × Option TransportError
  | 0, _ => ([], none)
  | n + 1, s =>
    if s.atEnd then ([], none)
    else
      match M.readFramedEvents s with
      | .error e => ([], some e)
      | .ok (events, s) => (events ++ (readLoop n s).1, (readLoop n s).2)

/-- Every successful call takes at least a byte from the stream, so this many calls suffice. -/
def readAll (s : Stream) : List TelemetryEvent × Option TransportError :=
  M.readLoop s.bytes.length s

end MsgPack

/-! ## Parsing undoes framing -/

/-- What is written to the stream at a time. -/
inductive TelemetryFrame where
  | single (event : TelemetryEvent)
  | batch (events : List TelemetryEvent)

def TelemetryFrame.events : TelemetryFrame → List TelemetryEvent
  | .single event => [event]
  | .batch events => events

def MsgPack.frameBytes (M : MsgPack) : TelemetryFrame → Except TransportError Bytes
  | .single event => M.frameEvent event
  | .batch events => M.frameEventBatch events

theorem bind_eq_ok {ε α β : Type} {x : Except ε α} {f : α → Except ε β} {b : β}
    (h : (x >>= f) = .ok b) : ∃ a, x = .ok a ∧ f a = .ok b := by
  cases x with
  | error e => cases h
  | ok a => exact ⟨a, rfl, h⟩

theorem tryBe32_eq_ok {n : Nat} {text : String} {bytes : Bytes}
    (h : tryBe32 n text = .ok bytes) : n < 2 ^ 32 ∧ bytes = toBe32 n := by
  unfold tryBe32 at h
  split at h
  · next hlt => cases h; exact ⟨hlt, rfl⟩
  · cases h

namespace MsgPack

variable {M : MsgPack}

theorem Lawful.decode_encode (hM : M.Lawful) {event : TelemetryEvent} {bytes : Bytes}
    (h : M.encode event = .ok bytes) : M.decode bytes = .ok event ∧
      ∃ first rest, bytes = first :: rest ∧ first ≠ 0x53 := by
  unfold encode at h
  split at h
  · next hok =>
    cases h
    unfold decode
    rw [hM.fromSlice_toVecNamed hok]
    exact ⟨rfl, hM.marker hok⟩
  · cases h

/-- The entries of a batch are read back one by one. -/
theorem Lawful.parseBatch (hM : M.Lawful) : ∀ {events : List TelemetryEvent} {entries : Bytes},
    M.batchEntries events = .ok entries → M.parseBatch events.length entries = .ok events
  | [], _, _ => rfl
  | event :: events, entries, h => by
    unfold batchEntries at h
    obtain ⟨encoded, hencoded, h⟩ := bind_eq_ok h
    obtain ⟨len, hlen, h⟩ := bind_eq_ok h
    obtain ⟨more, hmore, h⟩ := bind_eq_ok h
    cases h
    obtain ⟨hlt, rfl⟩ := tryBe32_eq_ok hlen
    rw [List.length_cons, MsgPack.parseBatch, if_neg (by simp), take_toBe32, drop_toBe32]
    simp only [ofBe32_toBe32 hlt]
    rw [if_neg (by simp), List.take_left, List.drop_left, (hM.decode_encode hencoded).1]
    show (do let events ← M.parseBatch events.length more; return event :: events) = _
    rw [hM.parseBatch hmore]
    rfl

/-- A frame is its length and a payload, and is parsed to the events it was made of. -/
structure Framed (M : MsgPack) (events : List TelemetryEvent) (wire payload : Bytes) : Prop where
  wire_eq : wire = toBe32 payload.length ++ payload
  lt : payload.length < 2 ^ 32
  ne_nil : payload ≠ []
  parse : payload.length ≤ maxTelemetryFrameBytes → M.parseFramedEvents wire = .ok events

theorem Lawful.frameEvent (hM : M.Lawful) {event : TelemetryEvent} {wire : Bytes}
    (h : M.frameEvent event = .ok wire) : ∃ payload, Framed M [event] wire payload := by
  unfold MsgPack.frameEvent at h
  obtain ⟨payload, hpayload, h⟩ := bind_eq_ok h
  obtain ⟨len, hlen, h⟩ := bind_eq_ok h
  cases h
  obtain ⟨hlt, rfl⟩ := tryBe32_eq_ok hlen
  obtain ⟨hdecode, first, rest, hfirst, hmarker⟩ := hM.decode_encode hpayload
  have hne : payload ≠ [] := by
    rw [hfirst]
    nofun
  refine ⟨payload, rfl, hlt, hne, fun hmax => ?_⟩
  have hmagic : payload.length < 8 ∨ payload.take 4 ≠ batchMagic := by
    refine Or.inr fun heq => hmarker ?_
    rw [hfirst] at heq
    exact (List.cons.inj heq).1
  have hpos : payload.length ≠ 0 := fun h0 => hne (List.length_eq_zero_iff.mp h0)
  have hone : M.parseFramedEvent (toBe32 payload.length ++ payload) = .ok event := by
    unfold parseFramedEvent
    rw [if_neg (by simp), take_toBe32, drop_toBe32]
    simp only [ofBe32_toBe32 hlt]
    rw [if_neg (by omega), if_neg (by simp), hdecode]
  unfold parseFramedEvents
  rw [if_neg (by simp), take_toBe32, drop_toBe32]
  simp only [ofBe32_toBe32 hlt]
  rw [if_neg (by simp), if_pos hmagic, hone]
  rfl

theorem Lawful.frameEventBatch (hM : M.Lawful) {events : List TelemetryEvent} {wire : Bytes}
    (h : M.frameEventBatch events = .ok wire) : ∃ payload, Framed M events wire payload := by
  unfold MsgPack.frameEventBatch at h
  obtain ⟨count, hcount, h⟩ := bind_eq_ok h
  obtain ⟨entries, hentries, h⟩ := bind_eq_ok h
  obtain ⟨len, hlen, h⟩ := bind_eq_ok h
  cases h
  obtain ⟨hcount_lt, rfl⟩ := tryBe32_eq_ok hcount
  obtain ⟨hlt, rfl⟩ := tryBe32_eq_ok hlen
  refine ⟨_, rfl, hlt, nofun, fun _ => ?_⟩
  generalize hpayload : batchMagic ++ (toBe32 events.length ++ entries) = payload at hlt
  have hlength : 8 ≤ payload.length := by
    rw [← hpayload]
    simp [batchMagic]
  have hmagic : payload.take 4 = batchMagic := by
    rw [← hpayload]
    rfl
  have hcount' : (payload.drop 4).take 4 = toBe32 events.length := by
    rw [← hpayload]
    rfl
  have hrest : payload.drop 8 = entries := by
    rw [← hpayload]
    rfl
  unfold parseFramedEvents
  rw [if_neg (by simp), take_toBe32, drop_toBe32]
  simp only [ofBe32_toBe32 hlt, hmagic]
  rw [if_neg (by simp), if_neg (by simp; omega), hcount', hrest, ofBe32_toBe32 hcount_lt]
  exact hM.parseBatch hentries

theorem Lawful.frameBytes (hM : M.Lawful) {frame : TelemetryFrame} {wire : Bytes}
    (h : M.frameBytes frame = .ok wire) : ∃ payload, Framed M frame.events wire payload := by
  cases frame with
  | single event => exact hM.frameEvent h
  | batch events => exact hM.frameEventBatch h

/-! ## Reading frames from a stream -/

section Read

variable {events : List TelemetryEvent} {wire payload : Bytes} {s : Stream}

theorem Framed.read (hf : Framed M events wire payload)
    (hmax : payload.length ≤ maxTelemetryFrameBytes) {more : Bytes}
    (hs : s.bytes = wire ++ more) :
    ∃ s', M.readFramedEvents s = .ok (events, s') ∧ s'.bytes = more := by
  have hparse := hf.parse hmax
  rw [hf.wire_eq] at hs hparse
  rw [List.append_assoc] at hs
  obtain ⟨s₁, hread, hs₁⟩ := Stream.readExact_append hs
  obtain ⟨s₂, hread₂, hs₂⟩ := Stream.readExact_append hs₁
  rw [length_toBe32] at hread
  have hpos : payload.length ≠ 0 := fun h0 => hf.ne_nil (List.length_eq_zero_iff.mp h0)
  refine ⟨s₂, ?_, hs₂⟩
  unfold readFramedEvents
  rw [hread]
  simp only [ofBe32_toBe32 hf.lt]
  rw [if_neg (by omega), hread₂]
  simp only [hparse]

/-- A frame of which something is missing. -/
theorem Framed.read_cut (hf : Framed M events wire payload)
    (hmax : payload.length ≤ maxTelemetryFrameBytes) {missing : Bytes} (hne : missing ≠ [])
    (hs : s.bytes ++ missing = wire) : M.readFramedEvents s = .error earlyEof := by
  rw [hf.wire_eq] at hs
  unfold readFramedEvents
  rcases Stream.readExact_cut hs hne with hread | ⟨s₁, hread, hshort⟩
  · rw [length_toBe32] at hread
    rw [hread]
  · -- the length is there, and the payload is cut
    have hpos : payload.length ≠ 0 := fun h0 => hf.ne_nil (List.length_eq_zero_iff.mp h0)
    rw [length_toBe32] at hread
    rw [hread]
    simp only [ofBe32_toBe32 hf.lt]
    rw [if_neg (by omega), Stream.readExact_short hshort]

end Read

/-- The frames of a stream, each with the bytes it was written as. -/
def Sent (M : MsgPack) (sent : List (TelemetryFrame × Bytes)) : Prop :=
  ∀ p ∈ sent, M.frameBytes p.1 = .ok p.2 ∧ p.2.length ≤ 4 + maxTelemetryFrameBytes

/-- The first of some frames can be read, and reading it makes the stream shorter. -/
theorem Lawful.sent_head (hM : M.Lawful) {frame : TelemetryFrame} {wire more : Bytes}
    {sent : List (TelemetryFrame × Bytes)} {s : Stream} (hsent : M.Sent ((frame, wire) :: sent))
    (hs : s.bytes = wire ++ more) :
    ∃ payload, Framed M frame.events wire payload ∧ payload.length ≤ maxTelemetryFrameBytes ∧
      s.atEnd = false ∧ more.length < s.bytes.length := by
  have hfirst : M.frameBytes frame = .ok wire ∧ wire.length ≤ 4 + maxTelemetryFrameBytes :=
    hsent _ List.mem_cons_self
  obtain ⟨payload, hf⟩ := hM.frameBytes hfirst.1
  have hwire : wire.length = 4 + payload.length := by
    rw [hf.wire_eq, List.length_append, length_toBe32]
  have hbytes : s.bytes.length = wire.length + more.length := by
    rw [hs, List.length_append]
  refine ⟨payload, hf, ?_, ?_, by omega⟩
  · have hlen := hfirst.2
    omega
  · rw [← Bool.not_eq_true, Stream.atEnd_iff]
    intro hnil
    rw [hnil, List.length_nil] at hbytes
    omega

/-- The loop reads the complete frames and goes on with what is left. -/
theorem Lawful.readLoop (hM : M.Lawful) : ∀ {sent : List (TelemetryFrame × Bytes)} {n : Nat}
    {s : Stream} {rest : Bytes}, M.Sent sent → s.bytes = (sent.map Prod.snd).flatten ++ rest →
      s.bytes.length ≤ n → ∃ m s', s'.bytes = rest ∧ rest.length ≤ m ∧
        M.readLoop n s = ((sent.flatMap fun p => p.1.events) ++ (M.readLoop m s').1,
          (M.readLoop m s').2)
  | [], n, s, rest, _, hs, hn => ⟨n, s, hs, by rw [hs] at hn; simpa using hn, rfl⟩
  | (frame, wire) :: sent, n, s, rest, hsent, hs, hn => by
    rw [List.map_cons, List.flatten_cons, List.append_assoc] at hs
    obtain ⟨payload, hf, hmax, hend, hlt⟩ := hM.sent_head hsent hs
    obtain ⟨s₁, hread, hs₁⟩ := hf.read hmax hs
    rw [← hs₁] at hlt
    cases n with
    | zero => omega
    | succ n =>
      obtain ⟨m, s', hrest, hm, hloop⟩ := hM.readLoop (n := n)
        (fun p hp => hsent p (List.mem_cons_of_mem _ hp)) hs₁ (by omega)
      refine ⟨m, s', hrest, hm, ?_⟩
      rw [MsgPack.readLoop, hend]
      simp only [Bool.false_eq_true, if_false, hread, hloop, List.flatMap_cons,
        List.append_assoc]

/-- Frames that are all there are read to their events. -/
theorem Lawful.readAll (hM : M.Lawful) {sent : List (TelemetryFrame × Bytes)} {s : Stream}
    (hsent : M.Sent sent) (hs : s.bytes = (sent.map Prod.snd).flatten) :
    M.readAll s = (sent.flatMap fun p => p.1.events, none) := by
  rw [← List.append_nil (sent.map Prod.snd).flatten] at hs
  obtain ⟨m, s', hrest, -, hloop⟩ := hM.readLoop hsent hs (Nat.le_refl _)
  have hend : M.readLoop m s' = ([], none) := by
    cases m with
    | zero => rfl
    | succ m => rw [MsgPack.readLoop, Stream.atEnd_iff.mpr hrest, if_pos rfl]
  unfold MsgPack.readAll
  rw [hloop, hend, List.append_nil]

end MsgPack

/--
**Reading undoes writing.** Frames written back to back and delivered in any pieces are read back
to exactly their events, in order. If the stream is cut inside a frame, the events of the frames
before it are read, and then an error.
-/
theorem readAll_frames (M : MsgPack) (hM : M.Lawful) (sent : List (TelemetryFrame × Bytes))
    (hsent : M.Sent sent) (s : Stream) :
    (s.bytes = (sent.map Prod.snd).flatten →
      M.readAll s = (sent.flatMap fun p => p.1.events, none)) ∧
    ∀ frame cut missing, M.Sent [(frame, cut ++ missing)] → cut ≠ [] → missing ≠ [] →
      s.bytes = (sent.map Prod.snd).flatten ++ cut →
      M.readAll s = (sent.flatMap fun p => p.1.events, some MsgPack.earlyEof) := by
  constructor
  · exact hM.readAll hsent
  · intro frame cut missing hframe hcut hmissing hs
    obtain ⟨m, s', hrest, hm, hloop⟩ := hM.readLoop hsent hs (Nat.le_refl _)
    obtain ⟨hok, hlen⟩ := hframe _ List.mem_cons_self
    obtain ⟨payload, hf⟩ := hM.frameBytes hok
    have hmax : payload.length ≤ maxTelemetryFrameBytes := by
      have hwire := congrArg List.length hf.wire_eq
      simp only [List.length_append, length_toBe32] at hwire hlen
      omega
    have hend : M.readLoop m s' = ([], some MsgPack.earlyEof) := by
      have hpos : 0 < cut.length := List.length_pos_iff.mpr hcut
      cases m with
      | zero => omega
      | succ m =>
        have hnot : s'.atEnd = false := by
          rw [← Bool.not_eq_true, Stream.atEnd_iff, hrest]
          exact hcut
        rw [MsgPack.readLoop, hnot, hf.read_cut hmax hmissing (by rw [hrest])]
        rfl
    unfold MsgPack.readAll
    rw [hloop, hend, List.append_nil]

/-! ### A single event, a batch, an empty batch -/

/-- A short string of MessagePack. -/
def fixstr (text : String) : Bytes :=
  UInt8.ofNat (0xa0 + text.length) :: text.toList.map fun c => UInt8.ofNat c.toNat

def sampleTelemetry : TelemetryEvent := ⟨"r", none, .runStarted, 1, .null⟩

def sampleTelemetryBytes : Bytes :=
  0x85 :: fixstr "run_id" ++ fixstr "r" ++ fixstr "task_id" ++ [0xc0] ++ fixstr "event_type" ++
    fixstr "run_started" ++ fixstr "timestamp_ms" ++ [0x01] ++ fixstr "payload" ++ [0xc0]

/-- `rmp_serde` on `sampleTelemetry`. -/
def MsgPack.sample : MsgPack where
  toVecNamed
    | ⟨"r", none, .runStarted, 1, .null⟩ => .ok sampleTelemetryBytes
    | _ => .error "not the sample"
  fromSlice bytes :=
    if bytes = sampleTelemetryBytes then .ok sampleTelemetry else .error "not the sample"

theorem MsgPack.sample_lawful : MsgPack.sample.Lawful where
  fromSlice_toVecNamed {event bytes} h := by
    simp only [MsgPack.sample] at h ⊢
    split at h
    · cases h
      rw [if_pos rfl]
      rfl
    · cases h
  marker {event bytes} h := by
    simp only [MsgPack.sample] at h
    split at h
    · cases h
      exact ⟨0x85, _, rfl, by decide⟩
    · cases h

def sampleWire (frame : TelemetryFrame) : Bytes :=
  (MsgPack.sample.frameBytes frame).toOption.getD []

def sampleFrames : List TelemetryFrame :=
  [.single sampleTelemetry, .batch [sampleTelemetry, sampleTelemetry], .batch []]

def sampleSent : List (TelemetryFrame × Bytes) :=
  sampleFrames.map fun frame => (frame, sampleWire frame)

theorem frameBytes_sampleWire {frame : TelemetryFrame}
    (h : (MsgPack.sample.frameBytes frame).toOption.isSome = true) :
    MsgPack.sample.frameBytes frame = .ok (sampleWire frame) := by
  unfold sampleWire
  cases hf : MsgPack.sample.frameBytes frame with
  | error e => rw [hf] at h; cases h
  | ok wire => rfl

theorem sample_sent {frames : List TelemetryFrame}
    (h : ∀ frame ∈ frames, (MsgPack.sample.frameBytes frame).toOption.isSome = true ∧
      (sampleWire frame).length ≤ 4 + maxTelemetryFrameBytes) :
    MsgPack.sample.Sent (frames.map fun frame => (frame, sampleWire frame)) := by
  intro p hp
  obtain ⟨frame, hframe, rfl⟩ := List.mem_map.mp hp
  exact ⟨frameBytes_sampleWire (h frame hframe).1, (h frame hframe).2⟩

theorem sampleSent_sent : MsgPack.sample.Sent sampleSent :=
  sample_sent (by decide +kernel)

/-- All three frames in two pieces; and the first two of them, with the third cut. -/
theorem sample_readAll_frames :
    MsgPack.sample.readAll ⟨[(sampleSent.map Prod.snd).flatten.take 7,
        (sampleSent.map Prod.snd).flatten.drop 7], by decide +kernel⟩ =
      ([sampleTelemetry, sampleTelemetry, sampleTelemetry], none) ∧
    MsgPack.sample.readAll ⟨[(sampleSent.map Prod.snd).flatten.dropLast], by decide +kernel⟩ =
      ([sampleTelemetry, sampleTelemetry, sampleTelemetry], some MsgPack.earlyEof) := by
  have hlast : MsgPack.sample.Sent [(.batch [], (sampleWire (.batch [])).take 11 ++ [0])] := by
    intro p hp
    obtain rfl := List.mem_singleton.mp hp
    exact ⟨rfl, by decide +kernel⟩
  constructor
  · exact (readAll_frames MsgPack.sample MsgPack.sample_lawful sampleSent sampleSent_sent _).1
      (by decide +kernel)
  · exact (readAll_frames MsgPack.sample MsgPack.sample_lawful (sampleSent.take 2)
      (fun p hp => sampleSent_sent p (List.mem_of_mem_take hp)) _).2 (.batch []) _ [0] hlast
      (by decide +kernel) nofun (by decide +kernel)

end ScTransport
