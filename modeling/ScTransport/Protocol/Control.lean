import ScTransport.Protocol.Messages
import ScTransport.Infra.Checked
import ScTransport.Infra.Stream

/-!
# Control messages

The manifest, the acknowledgements and the feedback frames travel on streams of their own, each as
a four byte length and its bincode encoding. Nothing on the wire tells the type of a message: the
reader asks for the type that is due. A call that reads reserves the buffer for the payload, and
that is the space it is accounted for here.

* `writeFramed`, `readFramed` — one message
* `writeMessages`, `readMessages` — messages of any types, one after the other
* `ControlFrame.read`, `ControlFrame.read_cut` — what a reader does with one frame
* `control_framing` — what it does with frames written back to back
-/

namespace ScTransport

open Infra

/-! ## Types of messages -/

/-- `encode` and `decode` of `protocol`. What follows a message in the buffer is ignored. -/
structure Bincode (T : Type) where
  encode : T → Option Bytes
  decode : Bytes → Option T

/-- Decoding undoes encoding. -/
def Bincode.Lawful {T : Type} (B : Bincode T) : Prop :=
  ∀ {msg : T} {payload : Bytes}, B.encode msg = some payload → B.decode payload = some msg

def Bincode.ofRecord {T : Type} (R : Record T) : Bincode T where
  encode msg := some (R.encode msg)
  decode := R.decode

theorem Bincode.ofRecord_lawful {T : Type} {R : Record T} (h : R.Positional) :
    (Bincode.ofRecord R).Lawful := by
  intro msg payload hencode
  cases hencode
  exact h.decode_encode msg

/-- A type that both derive macros are written at. -/
structure MessageType where
  Msg : Type
  bincode : Bincode Msg

/-- A message of some type. -/
abbrev Message := (type : MessageType) × type.Msg

/-! ## The two functions -/

/-- `MAX_CONTROL_FRAME_BYTES`. -/
def maxControlFrameBytes : Nat := 64 * 1024 * 1024

inductive ControlError where
  | bincode
  | frame (error : ReceiveError)
  | unexpectedEof
  deriving DecidableEq

def checkControlLen (len : Nat) : Except ControlError Unit :=
  (checkFrameLen len maxControlFrameBytes).mapError .frame

section Framed

variable {T : Type} (B : Bincode T)

/-- What has been written, with the frame of `msg` behind it. -/
def writeFramed (msg : T) (written : Bytes) : Except ControlError Bytes :=
  match B.encode msg with
  | none => .error .bincode
  | some payload => do
    checkControlLen payload.length
    return written ++ (toBe32 payload.length ++ payload)

def readFramed (s : Stream) : Checked Nat ControlError (T × Stream) :=
  match s.readExact 4 with
  | none => .throw .unexpectedEof
  | some (lenBuf, s) => do
    let len := ofBe32 lenBuf
    Checked.ofExcept (checkControlLen len)
    Checked.reserve len
    match s.readExact len with
    | none => .throw .unexpectedEof
    | some (payload, s) =>
      match B.decode payload with
      | none => .throw .bincode
      | some msg => return (msg, s)

end Framed

/-- `write_framed` once per message. -/
def writeMessages : List Message → Bytes → Except ControlError Bytes
  | [], written => .ok written
  | ⟨type, msg⟩ :: msgs, written => do
    let written ← writeFramed type.bincode msg written
    writeMessages msgs written

/-- The messages that were read, the space that was reserved for them, and how it ended. -/
structure ControlRead where
  messages : List Message
  reserved : List Nat
  outcome : Except (Stop ControlError) Stream

/-- `read_framed` once per type, until a call fails. -/
def readMessages : List MessageType → Stream → ControlRead
  | [], s => ⟨[], [], .ok s⟩
  | type :: types, s =>
    let call := readFramed type.bincode s
    match call.result with
    | .error stop => ⟨[], call.reserved, .error stop⟩
    | .ok (msg, s) =>
      let next := readMessages types s
      ⟨⟨type, msg⟩ :: next.messages, call.reserved ++ next.reserved, next.outcome⟩

/-! ## One frame -/

/-- The frame that `write_framed` makes of a message. -/
structure ControlFrame {T : Type} (B : Bincode T) (msg : T) (frame : Bytes) : Prop where
  split : ∃ payload, B.encode msg = some payload ∧ 0 < payload.length ∧
    payload.length ≤ maxControlFrameBytes ∧ frame = toBe32 payload.length ++ payload

theorem checkControlLen_eq_ok {len : Nat} :
    checkControlLen len = .ok () ↔ 0 < len ∧ len ≤ maxControlFrameBytes := by
  unfold checkControlLen checkFrameLen
  split
  · next h =>
    refine ⟨nofun, ?_⟩
    rintro ⟨hpos, hle⟩
    omega
  · next h => exact ⟨fun _ => by omega, fun _ => rfl⟩

theorem writeFramed_eq_ok {T : Type} {B : Bincode T} {msg : T} {written wire : Bytes}
    (h : writeFramed B msg written = .ok wire) :
    ∃ frame, ControlFrame B msg frame ∧ wire = written ++ frame := by
  unfold writeFramed at h
  cases hencode : B.encode msg with
  | none =>
    rw [hencode] at h
    cases h
  | some payload =>
    simp only [hencode] at h
    cases hlen : checkControlLen payload.length with
    | error e =>
      rw [hlen] at h
      cases h
    | ok _ =>
      rw [hlen] at h
      cases h
      obtain ⟨hpos, hle⟩ := checkControlLen_eq_ok.mp hlen
      exact ⟨_, ⟨payload, hencode, hpos, hle, rfl⟩, rfl⟩

section Frame

variable {T : Type} {B : Bincode T} {msg : T} {frame : Bytes} {s : Stream}

/-- A frame that is there is read to its message, and nothing behind it is touched. -/
theorem ControlFrame.read (hf : ControlFrame B msg frame) (hB : B.Lawful) {rest : Bytes}
    (hs : s.bytes = frame ++ rest) :
    ∃ s', (readFramed B s).result = .ok (msg, s') ∧ s'.bytes = rest := by
  obtain ⟨payload, hencode, hpos, hle, rfl⟩ := hf.split
  rw [List.append_assoc] at hs
  obtain ⟨s₁, hread₁, hs₁⟩ := Stream.readExact_append hs
  obtain ⟨s₂, hread₂, hs₂⟩ := Stream.readExact_append hs₁
  rw [length_toBe32] at hread₁
  have hmax : maxControlFrameBytes < 2 ^ 32 := by decide
  refine ⟨s₂, ?_, hs₂⟩
  unfold readFramed
  simp only [hread₁, ofBe32_toBe32 (show payload.length < 2 ^ 32 by omega),
    checkControlLen_eq_ok.mpr ⟨hpos, hle⟩, hread₂, hB hencode]
  rfl

/-- Of a frame that is cut no message is read. -/
theorem ControlFrame.read_cut (hf : ControlFrame B msg frame) {missing : Bytes}
    (hne : missing ≠ []) (hs : s.bytes ++ missing = frame) :
    (readFramed B s).result = .error (.error .unexpectedEof) := by
  obtain ⟨payload, hencode, hpos, hle, rfl⟩ := hf.split
  unfold readFramed
  rcases Stream.readExact_cut hs hne with hread | ⟨s₁, hread, hshort⟩
  · rw [length_toBe32] at hread
    rw [hread]
    rfl
  · rw [length_toBe32] at hread
    have hmax : maxControlFrameBytes < 2 ^ 32 := by decide
    simp only [hread, ofBe32_toBe32 (show payload.length < 2 ^ 32 by omega),
      checkControlLen_eq_ok.mpr ⟨hpos, hle⟩, Stream.readExact_short hshort]
    rfl

/-- The buffer is made after its size was checked, whatever the peer sends. -/
theorem readFramed_safe (B : Bincode T) (s : Stream) :
    (readFramed B s).Safe (· ≤ maxControlFrameBytes) := by
  unfold readFramed
  split
  · exact Checked.safe_throw _
  · refine (Checked.safe_ofExcept _).bind fun _ hlen => ?_
    have hok : checkControlLen _ = .ok () := Checked.ofExcept_result_eq_ok.mp hlen
    have hfair := (checkControlLen_eq_ok.mp hok).2
    refine Checked.Safe.bind (Checked.safe_reserve hfair) fun _ _ => ?_
    split
    · exact Checked.safe_throw _
    · split
      · exact Checked.safe_throw _
      · exact Checked.safe_pure _

end Frame

/-! ## Frames back to back -/

theorem writeMessages_cons {type : MessageType} {msg : type.Msg} {msgs : List Message}
    {written wire : Bytes} (h : writeMessages (⟨type, msg⟩ :: msgs) written = .ok wire) :
    ∃ frame, ControlFrame type.bincode msg frame ∧
      writeFramed type.bincode msg written = .ok (written ++ frame) ∧
      writeMessages msgs (written ++ frame) = .ok wire := by
  unfold writeMessages at h
  cases hfirst : writeFramed type.bincode msg written with
  | error e =>
    rw [hfirst] at h
    cases h
  | ok next =>
    rw [hfirst] at h
    obtain ⟨frame, hframe, rfl⟩ := writeFramed_eq_ok hfirst
    exact ⟨frame, hframe, rfl, h⟩

/-- What was written before stays in front. -/
theorem writeMessages_eq_ok : ∀ {msgs : List Message} {written wire : Bytes},
    writeMessages msgs written = .ok wire → ∃ frames, wire = written ++ frames
  | [], written, wire, h => by
    cases h
    exact ⟨[], (List.append_nil _).symm⟩
  | ⟨type, msg⟩ :: msgs, written, wire, h => by
    obtain ⟨frame, -, -, hrest⟩ := writeMessages_cons h
    obtain ⟨frames, rfl⟩ := writeMessages_eq_ok hrest
    exact ⟨frame ++ frames, List.append_assoc _ _ _⟩

/-- The reader gives back the messages and stands behind their frames. -/
theorem readMessages_append : ∀ {msgs : List Message} {written frames rest : Bytes} {s : Stream},
    (∀ m ∈ msgs, m.1.bincode.Lawful) → writeMessages msgs written = .ok (written ++ frames) →
      s.bytes = frames ++ rest →
      (readMessages (msgs.map Sigma.fst) s).messages = msgs ∧
        ∃ s', (readMessages (msgs.map Sigma.fst) s).outcome = .ok s' ∧ s'.bytes = rest
  | [], written, frames, rest, s, _, hwrite, hs => by
    have heq : written = written ++ frames := Except.ok.inj hwrite
    rw [List.self_eq_append_right.mp heq] at hs
    exact ⟨rfl, s, rfl, hs⟩
  | ⟨type, msg⟩ :: msgs, written, frames, rest, s, hlaw, hwrite, hs => by
    obtain ⟨frame, hframe, -, hrest⟩ := writeMessages_cons hwrite
    obtain ⟨more, hmore⟩ := writeMessages_eq_ok hrest
    have hframes : frames = frame ++ more := by
      rw [List.append_assoc] at hmore
      exact List.append_cancel_left hmore
    subst hframes
    rw [List.append_assoc] at hs
    obtain ⟨s₁, hread, hs₁⟩ := hframe.read (hlaw _ List.mem_cons_self) hs
    rw [← List.append_assoc] at hrest
    obtain ⟨hmsgs, s', hend, hs'⟩ :=
      readMessages_append (fun m hm => hlaw m (List.mem_cons_of_mem _ hm)) hrest hs₁
    simp only [List.map_cons, readMessages, hread, hmsgs]
    exact ⟨trivial, s', hend, hs'⟩

/--
Where the stream ends, the reader ends. `sent` are the messages whose frames are all there, and `m`
is the first one whose frame is not.
-/
theorem readMessages_cut : ∀ {msgs : List Message} {written missing : Bytes} {s : Stream},
    (∀ m ∈ msgs, m.1.bincode.Lawful) →
      writeMessages msgs written = .ok (written ++ (s.bytes ++ missing)) → missing ≠ [] →
      ∃ sent m later before frame, msgs = sent ++ m :: later ∧
        writeMessages sent written = .ok before ∧
        writeMessages (sent ++ [m]) written = .ok (before ++ frame) ∧
        before.length ≤ written.length + s.bytes.length ∧
        written.length + s.bytes.length < (before ++ frame).length ∧
        (readMessages (msgs.map Sigma.fst) s).messages = sent ∧
        (readMessages (msgs.map Sigma.fst) s).outcome = .error (.error .unexpectedEof)
  | [], written, missing, s, _, hwrite, hne => by
    have heq : written = written ++ (s.bytes ++ missing) := Except.ok.inj hwrite
    have hnil : s.bytes ++ missing = [] := List.self_eq_append_right.mp heq
    exact absurd (List.append_eq_nil_iff.mp hnil).2 hne
  | ⟨type, msg⟩ :: msgs, written, missing, s, hlaw, hwrite, hne => by
    obtain ⟨frame, hframe, hfirst, hrest⟩ := writeMessages_cons hwrite
    obtain ⟨more, hmore⟩ := writeMessages_eq_ok hrest
    have hbytes : s.bytes ++ missing = frame ++ more := by
      rw [List.append_assoc] at hmore
      exact List.append_cancel_left hmore
    by_cases hlt : s.bytes.length < frame.length
    · -- the first frame is cut
      obtain ⟨gap, hcut⟩ : s.bytes <+: frame :=
        List.prefix_of_prefix_length_le ⟨missing, hbytes⟩ (List.prefix_append frame more)
          (Nat.le_of_lt hlt)
      have hgap : gap ≠ [] := by
        rintro rfl
        rw [← hcut, List.append_nil] at hlt
        exact Nat.lt_irrefl _ hlt
      have hread := hframe.read_cut hgap hcut
      refine ⟨[], ⟨type, msg⟩, msgs, written, frame, rfl, rfl, ?_, by omega, ?_, ?_, ?_⟩
      · show (writeFramed type.bincode msg written >>= fun w => .ok w) = _
        rw [hfirst]
        rfl
      · rw [List.length_append]
        omega
      · simp only [List.map_cons, readMessages, hread]
      · simp only [List.map_cons, readMessages, hread]
    · -- the first frame is there, and the others are read behind it
      obtain ⟨tail, hs⟩ : frame <+: s.bytes :=
        List.prefix_of_prefix_length_le (List.prefix_append frame more) ⟨missing, hbytes⟩
          (Nat.le_of_not_lt hlt)
      obtain ⟨s₁, hread, hs₁⟩ := hframe.read (hlaw _ List.mem_cons_self) hs.symm
      have hlen : s.bytes.length = frame.length + s₁.bytes.length := by
        rw [← hs, hs₁, List.length_append]
      have hrest' : writeMessages msgs (written ++ frame) =
          .ok ((written ++ frame) ++ (s₁.bytes ++ missing)) := by
        rw [hrest, ← hs, hs₁]
        simp only [List.append_assoc]
      obtain ⟨sent, m, later, before, frame', hmsgs, hbefore, hafter, hle, hgt, hread', hend⟩ :=
        readMessages_cut (fun m hm => hlaw m (List.mem_cons_of_mem _ hm)) hrest' hne
      rw [List.length_append] at hle hgt
      refine ⟨⟨type, msg⟩ :: sent, m, later, before, frame', ?_, ?_, ?_, by omega, by omega, ?_, ?_⟩
      · rw [hmsgs]
        rfl
      · show (writeFramed type.bincode msg written >>= fun w => writeMessages sent w) = _
        rw [hfirst]
        exact hbefore
      · show (writeFramed type.bincode msg written >>= fun w => writeMessages (sent ++ [m]) w) = _
        rw [hfirst]
        exact hafter
      · simp only [List.map_cons, readMessages, hread, hread']
      · simp only [List.map_cons, readMessages, hread, hend]

theorem readMessages_reserved : ∀ {types : List MessageType} {s : Stream},
    ∀ n ∈ (readMessages types s).reserved, n ≤ maxControlFrameBytes
  | [], _ => nofun
  | type :: types, s => by
    have hsafe := readFramed_safe type.bincode s
    intro n hn
    unfold readMessages at hn
    cases hresult : (readFramed type.bincode s).result with
    | error stop =>
      simp only [hresult] at hn
      exact hsafe.fair n hn
    | ok r =>
      simp only [hresult] at hn
      rcases List.mem_append.mp hn with hn | hn
      · exact hsafe.fair n hn
      · exact readMessages_reserved n hn

/--
**Control messages read back.** Messages that were written one after the other are read in order,
in whatever pieces they arrive, and the reader then stands exactly behind them. If the stream ends
earlier, the messages whose frames are complete are read and the next call reports the end of the
stream. No call reserves more than `maxControlFrameBytes`, on any stream.
-/
theorem control_framing (msgs : List Message) (hlaw : ∀ m ∈ msgs, m.1.bincode.Lawful)
    (wire : Bytes) (hwrite : writeMessages msgs [] = .ok wire) :
    (∀ s rest, s.bytes = wire ++ rest →
      (readMessages (msgs.map Sigma.fst) s).messages = msgs ∧
        ∃ s', (readMessages (msgs.map Sigma.fst) s).outcome = .ok s' ∧ s'.bytes = rest) ∧
    (∀ s missing, s.bytes ++ missing = wire → missing ≠ [] →
      ∃ sent m later before frame, msgs = sent ++ m :: later ∧
        writeMessages sent [] = .ok before ∧
        writeMessages (sent ++ [m]) [] = .ok (before ++ frame) ∧
        before.length ≤ s.bytes.length ∧ s.bytes.length < (before ++ frame).length ∧
        (readMessages (msgs.map Sigma.fst) s).messages = sent ∧
        (readMessages (msgs.map Sigma.fst) s).outcome = .error (.error .unexpectedEof)) ∧
    ∀ types s, ∀ n ∈ (readMessages types s).reserved, n ≤ maxControlFrameBytes := by
  refine ⟨?_, ?_, fun types s => readMessages_reserved⟩
  · intro s rest hs
    exact readMessages_append hlaw hwrite hs
  · intro s missing hs hne
    have hcut := readMessages_cut hlaw (hs ▸ hwrite) hne
    simpa only [List.length_nil, Nat.zero_add] using hcut

/-! ### An acknowledgement and a feedback frame on one stream -/

theorem sampleAck_hashes_lt : ([] : List Digest).length < 2 ^ 64 := by decide

def sampleAck : Wire.ManifestAck where
  accepted := true
  message := none
  receivedChunks := ⟨[0, 4], by decide⟩
  chunkHashes := ⟨[], sampleAck_hashes_lt⟩

def sampleFeedback : Wire.ReceiverFeedbackFrame where
  transferId := ⟨List.replicate 16 7, by decide⟩
  decodeDelayMs := 3
  bufferOccupancy := 0
  cpuLoad := 0
  lossHint := 0
  rttMs := 40
  completedBlockId := some 1
  blockReconstructable := true
  missingChunkIndices := ⟨[2], by decide⟩

def sampleMessages : List Message :=
  [⟨⟨_, .ofRecord (Wire.manifestAck .bincode)⟩, sampleAck⟩,
    ⟨⟨_, .ofRecord (Wire.receiverFeedbackFrame .bincode)⟩, sampleFeedback⟩]

def sampleControlWire : Bytes := (writeMessages sampleMessages []).toOption.getD []

theorem sampleMessages_lawful : ∀ m ∈ sampleMessages, m.1.bincode.Lawful := by
  intro m hm
  simp only [sampleMessages, List.mem_cons, List.not_mem_nil, or_false] at hm
  rcases hm with rfl | rfl
  · exact Bincode.ofRecord_lawful (Wire.manifestAck_positional _)
  · exact Bincode.ofRecord_lawful (Wire.receiverFeedbackFrame_positional _)

/-- Both messages byte by byte; and without the last byte. -/
theorem sampleMessages_control_framing :
    (readMessages (sampleMessages.map Sigma.fst)
      ⟨sampleControlWire.map fun b => [b], by decide +kernel⟩).messages = sampleMessages ∧
    (readMessages (sampleMessages.map Sigma.fst)
      ⟨[sampleControlWire.dropLast], by decide +kernel⟩).outcome =
        .error (.error .unexpectedEof) := by
  obtain ⟨hread, hcut, -⟩ := control_framing sampleMessages sampleMessages_lawful
    sampleControlWire rfl
  constructor
  · exact (hread _ [] (by decide +kernel)).1
  · obtain ⟨_, _, _, _, _, -, -, -, -, -, -, hend⟩ :=
      hcut ⟨[sampleControlWire.dropLast], by decide +kernel⟩ [2] (by decide +kernel) nofun
    exact hend

end ScTransport
