import ScTransport.Infra.Lts
import ScTransport.Pipeline.Run
import ScTransport.Receiver.Reassembly
import ScTransport.Session.Receiver

/-!
# The data phase of a transfer

`FileSender::send_adaptive` and the receive loop of `FileReceiver::accept_transfer`, with what lies
between them: the two packet pumps of the sender, the QUIC streams and datagrams, and the feedback
stream with its listener.

- `sendStep`: the sender's own task, cut between the stages of `flush_batch`
- `adaptiveStep`: one step of anyone
- `SendMove`, `AdaptiveMove`: what a step can do, once for all invariants

Streams are reliable but arrive in any order; datagrams may be lost, repeated and reordered.
Feedback frames arrive in order, at any later time. A pump may write its packets in any order,
since up to `max_parallel_chunks` of them are written at once. The file does not change while it
is sent.
-/

namespace ScTransport

open Infra

/-! ## Parameters -/

/-- What is fixed once the manifest is acknowledged. -/
structure AdaptiveSetup where
  crates : Crates
  transfer : Transfer
  /-- The coder the receiver built from the manifest. -/
  fecRs : Option ReedSolomon
  /-- The chunks the receiver acknowledged with the manifest. -/
  skip : Finset Nat
  /-- `SC_SCT_ADAPTIVE_BATCH_SIZE` -/
  batchSize : Nat
  /-- `SC_SCT_FEEDBACK_EVERY_CHUNKS` -/
  feedbackEvery : Nat
  /-- `max_parallel_chunks` of the receiver -/
  maxParallel : Nat
  verifyChecksums : Bool

namespace AdaptiveSetup

variable (P : AdaptiveSetup)

def manifest : TransferManifest := P.transfer.manifest P.crates

/-- No parity is sent at all when a chunk of the first group is skipped. -/
def parityCap : Nat :=
  if (List.range P.manifest.dataShards).any fun i => decide (i ∈ P.skip) then 0
  else P.manifest.parityShards

end AdaptiveSetup

/-- The fields of a feedback frame that are not measurements. -/
structure ReceiverFeedbackFrame where
  completedBlockId : Option Nat
  blockReconstructable : Bool
  missingChunkIndices : List Nat

/-! ## The sender -/

/-- Where `send_adaptive` is; `last` marks the flush behind the loop. -/
inductive SendPc where
  | filling
  | applying (last : Bool)
  | nacking (last : Bool)
  | sending (last : Bool)
  | checking
  | draining
  | returned (ok : Bool)
  deriving DecidableEq

structure SendAdaptive where
  pc : SendPc
  /-- The next index of the loop. -/
  next : Nat
  packets : List Packet
  runtime : AutopilotRuntime
  nackRetransmitted : Finset Nat
  /-- The newest feedback frame the listener has read. -/
  feedbackState : Option ReceiverFeedbackFrame
  streamQueue : List Packet
  datagramQueue : List Packet
  firstErr : Bool

inductive SendLabel where
  /-- One turn of the loop; the packet gets this deadline. -/
  | fill (deadline : Nat)
  | endLoop
  /-- `apply_feedback_if_present`; `parity` is the count computed from the loss rate. -/
  | apply (parity : Nat)
  /-- `push_nack_retransmits`; the packet of a chunk gets the clock's deadline. -/
  | nack (clock : Nat → Nat)
  | pipeline (U : Utilities)
  | check
  | finish

section Sender

variable (P : AdaptiveSetup)

def makeDataPacket (idx : Nat) (payload : Bytes) (priority deadline : Nat) : Packet where
  id := idx
  seq := idx
  payload := payload
  isParity := false
  info :=
    { id := idx
      priority := if idx < 2 then 240 else priority
      deadline := some deadline
      size := chunkLen P.transfer.cfg idx P.manifest.totalSize }
  fecGroup := idx / max P.manifest.dataShards 1
  reconstructable := false
  parityIndex := 0

/-- `apply_feedback_if_present`, apart from the measurements. -/
def applyFeedbackIfPresent (parity : Nat) (A : AutopilotRuntime) :
    Option ReceiverFeedbackFrame → AutopilotRuntime
  | none => A
  | some fb =>
    { A with
      completedBlocks :=
        match fb.blockReconstructable, fb.completedBlockId with
        | true, some blockId => A.completedBlocks.insert blockId
        | _, _ => A.completedBlocks
      fec :=
        { dataShards := max P.manifest.dataShards 1
          parityShards :=
            if P.manifest.parityShards = 0 ∨ P.parityCap = 0 then 0
            else max (min (min parity P.manifest.parityShards) P.parityCap) 1 } }

/-- One turn of the loop in `push_nack_retransmits`. -/
def pushNackRetransmit (clock : Nat → Nat) (acc : List Packet × Finset Nat) (idx : Nat) :
    List Packet × Finset Nat :=
  if idx ∈ P.skip ∨ idx ∈ acc.2 then acc
  else
    match P.transfer.chunkFrame P.crates idx with
    | none => (acc.1, insert idx acc.2)
    | some payload =>
      (acc.1 ++ [makeDataPacket P idx payload 255 (clock idx)], insert idx acc.2)

def pushNackRetransmits (clock : Nat → Nat) (packets : List Packet) (nacked : Finset Nat) :
    Option ReceiverFeedbackFrame → List Packet × Finset Nat
  | none => (packets, nacked)
  | some fb => (fb.missingChunkIndices.take 8).foldl (pushNackRetransmit P clock) (packets, nacked)

/-- The packets handed to one of the two paths: streams are path 0, datagrams path 1. -/
def handedTo (path : Nat) (sent : List (Nat × Packet)) : List Packet :=
  (sent.filter fun s => s.1 = path).map Prod.snd

/-- One step of the task that runs `send_adaptive`. -/
def sendStep (s : SendAdaptive) : SendLabel → Option SendAdaptive
  | .fill deadline =>
    if s.pc = .filling ∧ s.next < P.manifest.numChunks then
      if s.next ∈ P.skip then some { s with next := s.next + 1 }
      else
        match P.transfer.chunkFrame P.crates s.next with
        | none => some { s with pc := .returned false }
        | some payload =>
          let packets := s.packets ++ [makeDataPacket P s.next payload 100 deadline]
          some { s with
            packets := packets
            next := s.next + 1
            pc := if max P.batchSize 1 ≤ packets.length then .applying false else .filling }
    else none
  | .endLoop =>
    if s.pc = .filling ∧ P.manifest.numChunks ≤ s.next then
      some { s with pc := if s.packets = [] then .draining else .applying true }
    else none
  | .apply parity =>
    match s.pc with
    | .applying last =>
      some { s with
        runtime := applyFeedbackIfPresent P parity s.runtime s.feedbackState
        pc := .nacking last }
    | _ => none
  | .nack clock =>
    match s.pc with
    | .nacking last =>
      let (packets, nacked) :=
        pushNackRetransmits P clock s.packets s.nackRetransmitted s.feedbackState
      some { s with packets := packets, nackRetransmitted := nacked, pc := .sending last }
    | _ => none
  | .pipeline U =>
    match s.pc with
    | .sending last =>
      match runPipeline P.crates s.runtime U P.parityCap s.packets with
      | .error _ => none
      | .ok sent =>
        some { s with
          packets := []
          streamQueue := s.streamQueue ++ handedTo 0 sent
          datagramQueue := s.datagramQueue ++ handedTo 1 sent
          pc := if last then .draining else .checking }
    | _ => none
  | .check =>
    if s.pc = .checking then
      some { s with pc := if s.firstErr then .returned false else .filling }
    else none
  | .finish =>
    -- both pumps have ended
    if s.pc = .draining ∧ s.streamQueue = [] ∧ s.datagramQueue = [] then
      some { s with pc := .returned (!s.firstErr) }
    else none

/-- `send_adaptive` before its loop. -/
def SendAdaptive.init : SendAdaptive where
  pc := .filling
  next := 0
  packets := []
  runtime :=
    { fec :=
        { dataShards := max P.manifest.dataShards 1
          parityShards := if P.parityCap = 0 then 0 else P.manifest.parityShards }
      completionFirstEnabled := true
      completedBlocks := []
      paths := 2 }
  nackRetransmitted := ∅
  feedbackState := none
  streamQueue := []
  datagramQueue := []
  firstErr := false

end Sender

/-! ## The receiver and the network -/

inductive PathKind where
  | stream
  | datagram
  deriving DecidableEq

/-- What `write_packet_on_path` put on the connection. Datagrams fit a packet of the path. -/
inductive Written where
  | stream (packet : Packet)
  | datagram (packet : Packet) (fits : packet.payload.length < 2 ^ 16)

def Written.packet : Written → Packet
  | .stream packet => packet
  | .datagram packet _ => packet

/-- The packet a stream was opened for. -/
def Written.onStream : Written → Option Packet
  | .stream packet => some packet
  | .datagram _ _ => none

def Written.isDatagram : Written → Bool
  | .stream _ => false
  | .datagram _ _ => true

theorem Written.onStream_of_isDatagram {w : Written} (h : w.isDatagram = false) :
    w.onStream = some w.packet := by
  cases w with
  | stream packet => rfl
  | datagram packet fits => cases h

theorem Written.onStream_eq_none {w : Written} (h : w.isDatagram = true) : w.onStream = none := by
  cases w with
  | stream packet => cases h
  | datagram packet fits => rfl

inductive LoopPc where
  | receiving
  | finished
  | failed (e : SessionError)
  deriving DecidableEq

/-- The receive loop. Streams and datagrams are named by their place in the order of writing. -/
structure ReceiveLoop where
  pc : LoopPc
  st : IngestState
  accepted : Finset Nat
  /-- Accepted streams that are still being read. -/
  inflight : Finset Nat
  /-- Ghost: what has been ingested. -/
  ingested : Finset Nat

structure Adaptive where
  sender : SendAdaptive
  wires : List Written
  feedbacks : List ReceiverFeedbackFrame
  receiver : ReceiveLoop

inductive AdaptiveLabel where
  | send (l : SendLabel)
  /-- The feedback listener reads the next frame. -/
  | hear
  /-- A pump writes its packet number `k`; `cap` is `max_datagram_size()` at that moment. -/
  | write (path : PathKind) (k : Nat) (cap : Option UInt16)
  | writeFails (path : PathKind) (k : Nat)
  /-- The receiver accepts a stream. -/
  | accept (k : Nat)
  /-- An accepted stream was read to its end; `heard` tells whether a feedback frame gets out. -/
  | join (k : Nat) (heard : Bool)
  /-- A datagram arrives, or a frame that was ingested before. -/
  | deliver (k : Nat) (heard : Bool)
  | giveUp
  | finishLoop
  | receiverFails

/-- `read_to_end(32 * 1024 * 1024)`. -/
def readLimit : Nat := 32 * 1024 * 1024

section Network

variable (P : AdaptiveSetup)

/-- `write_packet_on_path`. -/
def writePacketOnPath (packet : Packet) : PathKind → Option UInt16 → Written
  | .datagram, some cap =>
    if h : packet.payload.length ≤ cap.toNat then
      .datagram packet (lt_of_le_of_lt h cap.toNat_lt)
    else .stream packet
  | .datagram, none => .stream packet
  | .stream, _ => .stream packet

/-- `maybe_write_feedback`: the frame it writes, if one is due. -/
def maybeWriteFeedback (st : IngestState) (fecGroup : Nat) : Option ReceiverFeedbackFrame :=
  if st.received = ∅ ∨ st.received.card % max P.feedbackEvery 1 ≠ 0 then none
  else
    some
      { completedBlockId := some fecGroup
        blockReconstructable :=
          ((st.groups fecGroup).map fun group => fecRecoveryReady group P.manifest).getD false
        missingChunkIndices :=
          ((List.range P.manifest.numChunks).filter fun i => i ∉ st.received).take 64 }

/-- Ingests frame `k` and reports. -/
def ingestFrame (s : Adaptive) (k : Nat) (wire : Bytes) (heard : Bool) : Adaptive :=
  match ingestWireFrame P.crates wire P.manifest P.fecRs P.verifyChecksums ∅ s.receiver.st with
  | .error e => { s with receiver := { s.receiver with pc := .failed (.ingest e) } }
  | .ok (g, st) =>
    { s with
      receiver := { s.receiver with st := st, ingested := insert k s.receiver.ingested }
      feedbacks := s.feedbacks ++ if heard then (maybeWriteFeedback P st g).toList else [] }

/-- The condition of the receive loop. -/
def ReceiveLoop.open (r : ReceiveLoop) : Prop :=
  r.pc = .receiving ∧ r.st.received.card < P.manifest.numChunks

instance (r : ReceiveLoop) : Decidable (r.open P) := by
  unfold ReceiveLoop.open
  infer_instance

def SendAdaptive.queue (s : SendAdaptive) : PathKind → List Packet
  | .stream => s.streamQueue
  | .datagram => s.datagramQueue

/-- Takes packet `k` out of a queue. -/
def SendAdaptive.unqueue (s : SendAdaptive) (path : PathKind) (k : Nat) : SendAdaptive :=
  match path with
  | .stream => { s with streamQueue := s.streamQueue.eraseIdx k }
  | .datagram => { s with datagramQueue := s.datagramQueue.eraseIdx k }

def adaptiveStep (s : Adaptive) : AdaptiveLabel → Option Adaptive
  | .send l => (sendStep P s.sender l).map fun sender => { s with sender := sender }
  | .hear =>
    match s.feedbacks with
    | [] => none
    | fb :: rest =>
      some { s with feedbacks := rest, sender := { s.sender with feedbackState := some fb } }
  | .write path k cap =>
    match (s.sender.queue path)[k]? with
    | none => none
    | some packet =>
      some { s with
        sender := s.sender.unqueue path k
        wires := s.wires ++ [writePacketOnPath packet path cap] }
  | .writeFails path k =>
    if k < (s.sender.queue path).length then
      some { s with sender := { s.sender.unqueue path k with firstErr := true } }
    else none
  | .accept k =>
    match s.wires[k]? with
    | some (.stream _) =>
      if s.receiver.open P ∧ k ∉ s.receiver.accepted ∧
          s.receiver.accepted.card < maxStreams P.manifest ∧
          s.receiver.inflight.card < max P.maxParallel 1 then
        some { s with
          receiver := { s.receiver with
            accepted := insert k s.receiver.accepted
            inflight := insert k s.receiver.inflight } }
      else none
    | _ => none
  | .join k heard =>
    if s.receiver.open P ∧ k ∈ s.receiver.inflight then
      match s.wires[k]? with
      | none => none
      | some w =>
        let s := { s with
          receiver := { s.receiver with inflight := s.receiver.inflight.erase k } }
        if w.packet.payload.length ≤ readLimit then
          some (ingestFrame P s k w.packet.payload heard)
        else some { s with receiver := { s.receiver with pc := .failed .fileOperation } }
    else none
  | .deliver k heard =>
    if s.receiver.open P then
      match s.wires[k]? with
      | some (.datagram packet _) => some (ingestFrame P s k packet.payload heard)
      | some (.stream packet) =>
        if k ∈ s.receiver.ingested ∧ packet.payload.length ≤ readLimit then
          some (ingestFrame P s k packet.payload heard)
        else none
      | none => none
    else none
  | .giveUp =>
    if s.receiver.open P ∧ maxStreams P.manifest ≤ s.receiver.accepted.card ∧
        s.receiver.inflight = ∅ then
      some { s with
        receiver := { s.receiver with
          pc := .failed (.incomplete s.receiver.st.received.card P.manifest.numChunks
            s.receiver.accepted.card) } }
    else none
  | .finishLoop =>
    if s.receiver.pc = .receiving ∧ P.manifest.numChunks ≤ s.receiver.st.received.card then
      some { s with receiver := { s.receiver with pc := .finished } }
    else none
  | .receiverFails =>
    if s.receiver.pc = .receiving then
      some { s with receiver := { s.receiver with pc := .failed .fileOperation } }
    else none

def adaptive : Lts Adaptive AdaptiveLabel := ⟨adaptiveStep P⟩

/-- Both sides at the start of the data phase. -/
def Adaptive.init (st : IngestState) : Adaptive where
  sender := SendAdaptive.init P
  wires := []
  feedbacks := []
  receiver := ⟨.receiving, st, ∅, ∅, ∅⟩

end Network

/-- Three single bytes in groups of two, a feedback frame after each chunk. -/
def sampleSetup : AdaptiveSetup where
  crates := Crates.reference
  transfer := sampleBytewise
  fecRs := some ⟨2, 1⟩
  skip := ∅
  batchSize := 2
  feedbackEvery := 1
  maxParallel := 2
  verifyChecksums := true

def sampleFresh : IngestState := ⟨[0, 0, 0], ∅, fun _ => none⟩

theorem sampleFresh_start : sampleSetup.transfer.Start sampleFresh := .empty rfl

/-- A flush, from the feedback to the pumps. -/
def sampleFlush (U : Utilities) : List AdaptiveLabel :=
  [.send (.apply 1), .send (.nack fun _ => 0), .send (.pipeline U)]

/-! ## What a step can do -/

/-- The steps of the sender's task. -/
inductive SendMove (P : AdaptiveSetup) (s : SendAdaptive) : SendLabel → SendAdaptive → Prop where
  | skipped {deadline : Nat} (hpc : s.pc = .filling) (hlt : s.next < P.manifest.numChunks)
      (hskip : s.next ∈ P.skip) : SendMove P s (.fill deadline) { s with next := s.next + 1 }
  | unreadable {deadline : Nat} (hpc : s.pc = .filling) :
      SendMove P s (.fill deadline) { s with pc := .returned false }
  | filled {deadline : Nat} {payload : Bytes} (hpc : s.pc = .filling)
      (hlt : s.next < P.manifest.numChunks)
      (hframe : P.transfer.chunkFrame P.crates s.next = some payload) {pc : SendPc}
      (hpc' : pc = .applying false ∨ pc = .filling) :
      SendMove P s (.fill deadline) { s with
        packets := s.packets ++ [makeDataPacket P s.next payload 100 deadline]
        next := s.next + 1
        pc := pc }
  | ended (hpc : s.pc = .filling) (hall : P.manifest.numChunks ≤ s.next) {pc : SendPc}
      (hpc' : pc = .draining ∧ s.packets = [] ∨ pc = .applying true) :
      SendMove P s .endLoop { s with pc := pc }
  | applied {parity : Nat} {last : Bool} (hpc : s.pc = .applying last) :
      SendMove P s (.apply parity) { s with
        runtime := applyFeedbackIfPresent P parity s.runtime s.feedbackState
        pc := .nacking last }
  | nacked {clock : Nat → Nat} {last : Bool} (hpc : s.pc = .nacking last) :
      SendMove P s (.nack clock) { s with
        packets :=
          (pushNackRetransmits P clock s.packets s.nackRetransmitted s.feedbackState).1
        nackRetransmitted :=
          (pushNackRetransmits P clock s.packets s.nackRetransmitted s.feedbackState).2
        pc := .sending last }
  | piped {U : Utilities} {last : Bool} {sent : List (Nat × Packet)} (hpc : s.pc = .sending last)
      (hrun : runPipeline P.crates s.runtime U P.parityCap s.packets = .ok sent) :
      SendMove P s (.pipeline U) { s with
        packets := []
        streamQueue := s.streamQueue ++ handedTo 0 sent
        datagramQueue := s.datagramQueue ++ handedTo 1 sent
        pc := if last then .draining else .checking }
  | checked (hpc : s.pc = .checking) :
      SendMove P s .check { s with pc := if s.firstErr then .returned false else .filling }
  | finished (hpc : s.pc = .draining) (hstream : s.streamQueue = [])
      (hdatagram : s.datagramQueue = []) :
      SendMove P s .finish { s with pc := .returned (!s.firstErr) }

theorem SendMove.of_step {P : AdaptiveSetup} {s s' : SendAdaptive} {l : SendLabel}
    (h : sendStep P s l = some s') : SendMove P s l s' := by
  cases l with
  | fill deadline =>
    simp only [sendStep] at h
    split at h
    · next hcond =>
      split at h
      · next hskip =>
        cases h
        exact .skipped hcond.1 hcond.2 hskip
      · split at h
        · cases h
          exact .unreadable hcond.1
        · next payload hframe =>
          cases h
          refine .filled hcond.1 hcond.2 hframe ?_
          split
          · exact Or.inl rfl
          · exact Or.inr rfl
    · cases h
  | endLoop =>
    simp only [sendStep] at h
    split at h
    · next hcond =>
      cases h
      refine .ended hcond.1 hcond.2 ?_
      split
      · next hnil => exact Or.inl ⟨rfl, hnil⟩
      · exact Or.inr rfl
    · cases h
  | apply parity =>
    simp only [sendStep] at h
    split at h
    · next last hpc =>
      cases h
      exact .applied hpc
    · cases h
  | nack clock =>
    simp only [sendStep] at h
    split at h
    · next last hpc =>
      cases h
      exact .nacked hpc
    · cases h
  | pipeline U =>
    simp only [sendStep] at h
    split at h
    · next last hpc =>
      split at h
      · cases h
      · next sent hrun =>
        cases h
        exact .piped hpc hrun
    · cases h
  | check =>
    simp only [sendStep] at h
    split at h
    · next hpc =>
      cases h
      exact .checked hpc
    · cases h
  | finish =>
    simp only [sendStep] at h
    split at h
    · next hcond =>
      cases h
      exact .finished hcond.1 hcond.2.1 hcond.2.2
    · cases h

/-- The steps of anyone. -/
inductive AdaptiveMove (P : AdaptiveSetup) (s : Adaptive) : AdaptiveLabel → Adaptive → Prop where
  | sent {l : SendLabel} {sender : SendAdaptive} (h : SendMove P s.sender l sender) :
      AdaptiveMove P s (.send l) { s with sender := sender }
  | heard {fb : ReceiverFeedbackFrame} {rest : List ReceiverFeedbackFrame}
      (h : s.feedbacks = fb :: rest) :
      AdaptiveMove P s .hear
        { s with feedbacks := rest, sender := { s.sender with feedbackState := some fb } }
  | wrote {path : PathKind} {k : Nat} {cap : Option UInt16} {packet : Packet}
      (h : (s.sender.queue path)[k]? = some packet) :
      AdaptiveMove P s (.write path k cap) { s with
        sender := s.sender.unqueue path k
        wires := s.wires ++ [writePacketOnPath packet path cap] }
  | unwritten {path : PathKind} {k : Nat} (hk : k < (s.sender.queue path).length) :
      AdaptiveMove P s (.writeFails path k)
        { s with sender := { s.sender.unqueue path k with firstErr := true } }
  | accepted {k : Nat} {packet : Packet} (hw : s.wires[k]? = some (.stream packet)) :
      AdaptiveMove P s (.accept k) { s with
        receiver := { s.receiver with
          accepted := insert k s.receiver.accepted
          inflight := insert k s.receiver.inflight } }
  | ingested {l : AdaptiveLabel} {k g : Nat} {w : Written} {st : IngestState} {heard : Bool}
      {inflight : Finset Nat} (hw : s.wires[k]? = some w)
      (hsmall : w.packet.payload.length < 2 ^ 32)
      (h : ingestWireFrame P.crates w.packet.payload P.manifest P.fecRs P.verifyChecksums ∅
        s.receiver.st = .ok (g, st)) :
      AdaptiveMove P s l { s with
        receiver := { s.receiver with
          st := st
          inflight := inflight
          ingested := insert k s.receiver.ingested }
        feedbacks := s.feedbacks ++ if heard then (maybeWriteFeedback P st g).toList else [] }
  | gaveUp (hmissing : s.receiver.st.received.card < P.manifest.numChunks)
      (hall : maxStreams P.manifest ≤ s.receiver.accepted.card) :
      AdaptiveMove P s .giveUp { s with
        receiver := { s.receiver with
          pc := .failed (.incomplete s.receiver.st.received.card P.manifest.numChunks
            s.receiver.accepted.card) } }
  | stopped {l : AdaptiveLabel} {pc : LoopPc} {inflight : Finset Nat}
      (hpc : ∀ received total streams, pc ≠ .failed (.incomplete received total streams)) :
      AdaptiveMove P s l
        { s with receiver := { s.receiver with pc := pc, inflight := inflight } }

section Moves

variable {P : AdaptiveSetup} {s s' : Adaptive}

theorem readLimit_lt {n : Nat} (h : n ≤ readLimit) : n < 2 ^ 32 := by
  unfold readLimit at h
  omega

/-- Ingesting a frame moves on or stops. -/
theorem AdaptiveMove.of_ingestFrame {l : AdaptiveLabel} {k : Nat} {w : Written} {heard : Bool}
    {inflight : Finset Nat} (hw : s.wires[k]? = some w)
    (hsmall : w.packet.payload.length < 2 ^ 32) :
    AdaptiveMove P s l (ingestFrame P
      { s with receiver := { s.receiver with inflight := inflight } } k w.packet.payload
      heard) := by
  unfold ingestFrame
  dsimp only
  split
  · exact .stopped nofun
  · next g st hrun => exact .ingested hw hsmall hrun

theorem AdaptiveMove.of_step {l : AdaptiveLabel} (h : adaptiveStep P s l = some s') :
    AdaptiveMove P s l s' := by
  cases l with
  | send l =>
    obtain ⟨sender, hs, rfl⟩ := Option.map_eq_some_iff.mp h
    exact .sent (SendMove.of_step hs)
  | hear =>
    simp only [adaptiveStep] at h
    split at h
    · cases h
    · next fb rest hq =>
      cases h
      exact .heard hq
  | write path k cap =>
    simp only [adaptiveStep] at h
    split at h
    · cases h
    · next packet hq =>
      cases h
      exact .wrote hq
  | writeFails path k =>
    simp only [adaptiveStep] at h
    split at h
    · next hk =>
      cases h
      exact .unwritten hk
    · cases h
  | accept k =>
    simp only [adaptiveStep] at h
    split at h
    · next packet hw =>
      split at h
      · cases h
        exact .accepted hw
      · cases h
    · cases h
  | join k heard =>
    simp only [adaptiveStep] at h
    split at h
    · split at h
      · cases h
      · next w hw =>
        split at h
        · next hlen =>
          cases h
          exact .of_ingestFrame hw (readLimit_lt hlen)
        · cases h
          exact .stopped nofun
    · cases h
  | deliver k heard =>
    simp only [adaptiveStep] at h
    split at h
    · split at h
      · next packet fits hw =>
        cases h
        exact .of_ingestFrame hw (lt_trans fits (by decide))
      · next packet hw =>
        split at h
        · next hcond =>
          cases h
          exact .of_ingestFrame hw (readLimit_lt hcond.2)
        · cases h
      · cases h
    · cases h
  | giveUp =>
    simp only [adaptiveStep] at h
    split at h
    · next hcond =>
      cases h
      exact .gaveUp hcond.1.2 hcond.2.1
    · cases h
  | finishLoop =>
    simp only [adaptiveStep] at h
    split at h
    · cases h
      exact .stopped nofun
    · cases h
  | receiverFails =>
    simp only [adaptiveStep] at h
    split at h
    · cases h
      exact .stopped nofun
    · cases h

end Moves

end ScTransport
