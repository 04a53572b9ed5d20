import Mathlib.Data.Finset.Prod
import ScTransport.Adaptive.Delivery

/-!
# The receiver's stream budget

The receiver accepts a stream for every chunk, one for every parity row of every group, and 256
more for repeated frames. How often the sender repeats a frame grows with the number of flushes,
so the constant is used up by a file that is long enough.

- `Transfer.frameKeys`: the frames of a transfer, at most as many as the budget without its headroom
- `streams_lt_maxStreams`: the budget suffices while fewer than 256 streams repeat a frame
- `Adaptive.reach_groups`: groups of two in batches of their own take four streams each, one more
  than the budget counts
-/

namespace ScTransport

open Infra

/-! ## Frames and repetitions -/

/-- The frames an honest sender has to send: every chunk, and the parity rows of whole groups. -/
def Transfer.frameKeys (t : Transfer) : Finset FrameKey :=
  (Finset.range t.numChunks).image .data ∪
    (Finset.range (t.numChunks / t.width) ×ˢ Finset.range t.fec.parityShards).image
      fun r => .parity r.1 r.2

section Keys

variable {t : Transfer} {X : Crates} {q : Packet}

theorem Transfer.card_frameKeys_le (t : Transfer) :
    t.frameKeys.card ≤ t.numChunks + t.numChunks / t.width * t.fec.parityShards := by
  refine (Finset.card_union_le _ _).trans (Nat.add_le_add ?_ ?_)
  · exact Finset.card_image_le.trans (Finset.card_range _).le
  · refine Finset.card_image_le.trans ?_
    rw [Finset.card_product, Finset.card_range, Finset.card_range]

/-- Parity exists only for groups that lie in the file. -/
theorem Transfer.ParityFrame.group_lt {g p' j : Nat} {wire : Bytes}
    (h : t.ParityFrame X g p' j wire) :
    g < t.numChunks / t.width ∧ j < t.fec.parityShards := by
  obtain ⟨hp', data, r, hfull, hr, hpar, rfl, rfl⟩ := h
  have hin := hfull.in_range
  refine ⟨(Nat.le_div_iff_mul_le t.width_pos).mpr hin, ?_⟩
  rcases encodeBlock_cases hr with hmem | ⟨-, -, hlt, -⟩
  · rw [hfull.not_parity r hmem] at hpar
    cases hpar
  · exact hlt.trans_le hp'

theorem Transfer.HonestPacket.key_mem (h : t.HonestPacket X q) : q.key ∈ t.frameKeys := by
  cases h with
  | data h =>
    rw [Packet.key_data h.isData]
    exact Finset.mem_union_left _ (Finset.mem_image_of_mem _ (Finset.mem_range.mpr h.seq_lt))
  | parity hpar h =>
    obtain ⟨hg, hj⟩ := h.group_lt
    rw [Packet.key_parity hpar]
    refine Finset.mem_union_right _ (Finset.mem_image.mpr ⟨(q.fecGroup, q.parityIndex), ?_, rfl⟩)
    exact Finset.mem_product.mpr ⟨Finset.mem_range.mpr hg, Finset.mem_range.mpr hj⟩

end Keys

/-- The frames that have been sent on streams. -/
def Adaptive.sentKeys (s : Adaptive) : Finset FrameKey := (s.streams.map Packet.key).toFinset

/-- How many streams repeat the frame of an earlier one. -/
def Adaptive.repeats (s : Adaptive) : Nat := s.streams.length - s.sentKeys.card

/-- A stream repeats a frame only while fewer than 255 streams have done so. -/
def Adaptive.RepeatsFit (s : Adaptive) : AdaptiveLabel → Prop
  | .write path k cap => ∀ q ∈ (s.sender.queue path)[k]?,
      (writePacketOnPath q path cap).isDatagram = false → q.key ∈ s.sentKeys → s.repeats < 255
  | _ => True

instance (s : Adaptive) : DecidablePred s.RepeatsFit
  | .write path k cap => inferInstanceAs (Decidable (∀ q ∈ (s.sender.queue path)[k]?,
      (writePacketOnPath q path cap).isDatagram = false → q.key ∈ s.sentKeys → s.repeats < 255))
  | .send _ | .hear | .writeFails _ _ | .accept _ | .join _ _ | .deliver _ _ | .giveUp
  | .finishLoop | .receiverFails => inferInstanceAs (Decidable True)

/-! ## The invariant -/

structure Adaptive.Budgeted (s : Adaptive) : Prop where
  repeats : s.streams.length ≤ s.sentKeys.card + 255
  accepted : ∀ k ∈ s.receiver.accepted, ∃ q, s.wires[k]? = some (.stream q)

section Budget

variable {P : AdaptiveSetup} {s s' : Adaptive} {st : IngestState}

/-- One more stream is one more frame, or one more repetition. -/
theorem Adaptive.Budgeted.wrote (h : s.Budgeted) {path : PathKind} {k : Nat} {cap : Option UInt16}
    {packet : Packet} (hk : (s.sender.queue path)[k]? = some packet)
    (hok : s.RepeatsFit (.write path k cap)) :
    { s with
      sender := s.sender.unqueue path k
      wires := s.wires ++ [writePacketOnPath packet path cap] }.Budgeted := by
  refine ⟨?_, fun j hj => ?_⟩
  · have hold := h.repeats
    unfold Adaptive.sentKeys at hold ⊢
    rw [Adaptive.streams_append]
    cases hw : (writePacketOnPath packet path cap).isDatagram with
    | true =>
      rw [Written.onStream_eq_none hw, Option.toList_none, List.append_nil]
      exact hold
    | false =>
      rw [Written.onStream_of_isDatagram hw, Written.packet_writePacketOnPath, Option.toList_some,
        List.map_append, List.map_singleton, List.toFinset_append, List.length_append,
        List.length_singleton]
      by_cases hmem : packet.key ∈ (s.streams.map Packet.key).toFinset
      · -- a repetition: the condition leaves room for it
        have hroom := hok packet hk hw hmem
        unfold Adaptive.repeats Adaptive.sentKeys at hroom
        have hle : (s.streams.map Packet.key).toFinset.card ≤
            ((s.streams.map Packet.key).toFinset ∪ [packet.key].toFinset).card :=
          Finset.card_le_card Finset.subset_union_left
        omega
      · have hcard : ((s.streams.map Packet.key).toFinset ∪ [packet.key].toFinset).card
            = (s.streams.map Packet.key).toFinset.card + 1 := by
          rw [Finset.card_union_of_disjoint]
          · rfl
          · simpa using hmem
        omega
  · obtain ⟨q, hq⟩ := h.accepted j hj
    exact ⟨q, getElem?_append_of_some hq _⟩

theorem Adaptive.Budgeted.step (h : s.Budgeted) {l : AdaptiveLabel} (hok : s.RepeatsFit l)
    (hs : (adaptive P).step s l = some s') : s'.Budgeted := by
  cases AdaptiveMove.of_step hs with
  | sent hm => exact { h with }
  | heard hq => exact { h with }
  | wrote hk => exact h.wrote hk hok
  | unwritten hk => exact { h with }
  | @accepted k packet hw =>
    refine { h with accepted := fun j hj => ?_ }
    rcases Finset.mem_insert.mp hj with rfl | hj
    · exact ⟨packet, hw⟩
    · exact h.accepted j hj
  | ingested hw hsmall hrun => exact { h with }
  | gaveUp hmissing hall => exact { h with }
  | stopped hpc => exact { h with }

theorem Adaptive.Budgeted.run
    (hrun : (adaptive P).Reach Adaptive.RepeatsFit (Adaptive.init P st) s) : s.Budgeted := by
  refine hrun.invariant ⟨Nat.zero_le _, fun k hk => ?_⟩ fun h hok hs => h.step hok hs
  exact absurd hk (Finset.notMem_empty k)

/-- What an honest sender puts on streams are frames of the transfer. -/
theorem Adaptive.Honest.sentKeys_subset (h : s.Honest P) : s.sentKeys ⊆ P.transfer.frameKeys := by
  intro key hkey
  obtain ⟨q, hq, rfl⟩ := List.mem_map.mp (List.mem_toFinset.mp hkey)
  obtain ⟨w, hw, hstream⟩ := List.mem_filterMap.mp hq
  cases w with
  | datagram packet fits => cases hstream
  | stream packet =>
    cases hstream
    exact (h.wires _ hw).key_mem

/-- The budget when its sum does not saturate. -/
theorem maxStreams_eq {m : TransferManifest}
    (hfit : m.numChunks + divCeil m.numChunks (max m.dataShards 1) * m.parityShards + 256
      < 2 ^ 64) :
    maxStreams m
      = m.numChunks + divCeil m.numChunks (max m.dataShards 1) * m.parityShards + 256 := by
  have hframes : satAdd m.numChunks (divCeil m.numChunks (max m.dataShards 1) * m.parityShards)
      = m.numChunks + divCeil m.numChunks (max m.dataShards 1) * m.parityShards :=
    satAdd_eq (by omega)
  unfold maxStreams
  rw [satMul_eq (by omega), hframes, satAdd_eq hfit]

/-- The budget has a stream for each frame and one for each repetition. -/
theorem Adaptive.Budgeted.streams_lt (h : s.Budgeted) (hh : s.Honest P)
    (hfit : P.manifest.numChunks + divCeil P.manifest.numChunks (max P.manifest.dataShards 1) *
      P.manifest.parityShards + 256 < 2 ^ 64) :
    s.streams.length < maxStreams P.manifest := by
  have hcard := (Finset.card_le_card hh.sentKeys_subset).trans P.transfer.card_frameKeys_le
  have hgroups : P.transfer.numChunks / P.transfer.width * P.transfer.fec.parityShards ≤
      divCeil P.transfer.numChunks P.transfer.width * P.transfer.fec.parityShards := by
    refine Nat.mul_le_mul_right _ (Nat.div_le_div_right ?_)
    have := P.transfer.width_pos
    omega
  calc s.streams.length
      ≤ s.sentKeys.card + 255 := h.repeats
    _ ≤ P.transfer.numChunks +
          divCeil P.transfer.numChunks P.transfer.width * P.transfer.fec.parityShards + 255 := by
        omega
    _ < maxStreams P.manifest := by
        rw [maxStreams_eq hfit]
        exact Nat.lt_succ_self _

/-- No more streams are accepted than were opened. -/
theorem Adaptive.Budgeted.accepted_card_le (h : s.Budgeted) :
    s.receiver.accepted.card ≤ s.streams.length := by
  -- the places of the streams among everything written
  let places := (s.wires.zipIdx.filter fun r => r.1.onStream.isSome).map Prod.snd
  have hsub : s.receiver.accepted ⊆ places.toFinset := by
    intro k hk
    obtain ⟨q, hq⟩ := h.accepted k hk
    rw [List.mem_toFinset, List.mem_map]
    refine ⟨(.stream q, k), List.mem_filter.mpr ⟨?_, rfl⟩, rfl⟩
    exact List.mk_mem_zipIdx_iff_getElem?.mpr hq
  have hlen : places.length = s.streams.length := by
    have hfst : s.wires.zipIdx.map Prod.fst = s.wires := List.zipIdx_map_fst 0 s.wires
    rw [Adaptive.streams, List.length_filterMap_eq_countP, ← hfst, List.countP_map,
      List.length_map, List.countP_eq_length_filter]
    rfl
  exact (Finset.card_le_card hsub).trans ((List.toFinset_card_le _).trans hlen.le)

/--
**The budget covers the repetitions it has headroom for.** If fewer than 256 streams repeat the
frame of an earlier one, then in every state the sender has opened fewer streams than the receiver
accepts, and the receiver does not give up for having accepted too many.
-/
theorem streams_lt_maxStreams (P : AdaptiveSetup)
    (hfit : P.manifest.numChunks + divCeil P.manifest.numChunks (max P.manifest.dataShards 1) *
      P.manifest.parityShards + 256 < 2 ^ 64)
    (hrun : (adaptive P).Reach Adaptive.RepeatsFit (Adaptive.init P st) s) :
    s.streams.length < maxStreams P.manifest ∧
      ∀ received total streams,
        s.receiver.pc ≠ .failed (.incomplete received total streams) := by
  refine ⟨(Adaptive.Budgeted.run hrun).streams_lt (.run (.init P st) hrun) hfit, ?_⟩
  induction hrun with
  | refl => exact nofun
  | @step s₁ s₂ l hrun hok hs ih =>
    cases AdaptiveMove.of_step hs with
    | gaveUp hmissing hall =>
      -- the receiver has accepted as many streams as were never opened
      have hb := Adaptive.Budgeted.run hrun
      have hlt := hb.streams_lt (.run (.init P st) hrun) hfit
      have hle := hb.accepted_card_le
      omega
    | stopped hpc => exact hpc
    | sent hm => exact ih
    | heard hq => exact ih
    | wrote hk => exact ih
    | unwritten hk => exact ih
    | accepted hw => exact ih
    | ingested hw hsmall hrun => exact ih

end Budget

/-- A flush of one group; the last of its four packets repeats chunk 0. -/
def sampleGroup : List AdaptiveLabel :=
  [.send (.fill 0), .send (.fill 0)] ++ sampleFlush sampleUtilities ++ sampleWrites .stream 4

theorem sample_streams_lt_maxStreams :
    ∃ s, (adaptive sampleSetup).execWhere (fun s l => s.RepeatsFit l)
        (.init sampleSetup sampleFresh) sampleGroup = some s ∧
      s.streams.length = 4 ∧ s.repeats = 1 ∧ maxStreams sampleSetup.manifest = 261 ∧
      s.streams.length < maxStreams sampleSetup.manifest ∧
      ∀ received total streams,
        s.receiver.pc ≠ .failed (.incomplete received total streams) := by
  have hexec : ((adaptive sampleSetup).execWhere (fun s l => s.RepeatsFit l)
      (.init sampleSetup sampleFresh) sampleGroup).map
      (fun s => (s.streams.length, s.repeats)) = some (4, 1) := by
    decide +kernel
  obtain ⟨s, hs, hcount⟩ := Option.map_eq_some_iff.mp hexec
  have hrun := Lts.Reach.of_execWhere hs
  simp only [decide_eq_true_eq] at hrun
  exact ⟨s, hs, congrArg Prod.fst hcount, congrArg Prod.snd hcount, by decide,
    streams_lt_maxStreams sampleSetup (by decide) hrun⟩

/-! ## A batch of one group -/

/-- A scheduler that sends nothing twice hands everything to the first path. -/
theorem distributeAll_sample (encoded : List Packet) :
    distributeAll ⟨⟨2, 1⟩, true, [], 2⟩ sampleUtilities encoded =
      encoded.zipIdx.map fun r =>
        (0, if r.1.info.priority < 200 then r.1.withDeadline (some r.2) else r.1) :=
  List.flatMap_pure_eq_map _ _

section Pair

variable {X : Crates} {a b : Packet} {g : Nat}

/-- A group that is alone in its batch is a straggler, so its packets are sent twice. -/
theorem optimizeTransfer_pair (h : b.fecGroup = a.fecGroup) :
    optimizeTransfer ⟨⟨2, 1⟩, true, [], 2⟩ sampleUtilities [a, b] = .ok [b, b, a, a] := by
  simp [optimizeTransfer, keptPackets, groupKeys, optStart, blocksFromPackets, optLoop,
    optIteration, sampleUtilities, h, detectStragglers, scheduleBlock, Block.isComplete,
    sendShards, Function.update]

theorem prioritize_pair (hp : b.info.priority = a.info.priority)
    (hd : b.info.deadline = a.info.deadline) :
    prioritize sampleUtilities [b, b, a, a] = [b, b, a, a] := by
  unfold prioritize
  refine List.Pairwise.insertionSort_eq ?_
  simp [hp, hd, sampleUtilities]

/-- Where the two chunks of group `g` are. -/
theorem blockPositions_pair (packets : List Packet) (hlt : 2 * g + 2 < 2 ^ 64) :
    blockPositions packets (satMul g 2) (satAdd (satMul g 2) 2 - satMul g 2) =
      (packets.findIdx? fun p => p.seq == 2 * g).bind fun pos =>
        (packets.findIdx? fun p => p.seq == 2 * g + 1).map fun pos' => [pos, pos'] := by
  have hmul : satMul g 2 = 2 * g := by rw [satMul_eq (by omega), Nat.mul_comm]
  rw [hmul, satAdd_eq hlt, Nat.add_sub_cancel_left]
  unfold blockPositions blockPositions blockPositions
  cases packets.findIdx? fun p => p.seq == 2 * g with
  | none => rfl
  | some pos => cases packets.findIdx? fun p => p.seq == 2 * g + 1 <;> rfl

theorem drain_missing {packets : List Packet} (hlt : 2 * g + 2 < 2 ^ 64)
    (h : (packets.findIdx? fun p => p.seq == 2 * g) = none ∨
      (packets.findIdx? fun p => p.seq == 2 * g + 1) = none) :
    drainFecBlockFromPackets X packets g ⟨2, 1⟩ = .ok none := by
  have hpos : blockPositions packets (satMul g 2) (satAdd (satMul g 2) 2 - satMul g 2)
      = none := by
    rw [blockPositions_pair packets hlt]
    rcases h with h | h <;> rw [h]
    · rfl
    · cases packets.findIdx? fun p => p.seq == 2 * g <;> rfl
  simp only [drainFecBlockFromPackets]
  rw [show max 2 1 = 2 from rfl, hpos]

theorem drain_pair (ha : a.seq = 2 * g) (hb : b.seq = 2 * g + 1) (hlt : 2 * g + 2 < 2 ^ 64) :
    drainFecBlockFromPackets X [b, a] g ⟨2, 1⟩ =
      .ok (some (FecEncoder.encodeBlock X ⟨2, 1⟩ [a, b], [])) := by
  have hpos : blockPositions [b, a] (satMul g 2) (satAdd (satMul g 2) 2 - satMul g 2)
      = some [1, 0] := by
    rw [blockPositions_pair [b, a] hlt]
    simp [List.findIdx?_cons, ha, hb]
  simp only [drainFecBlockFromPackets]
  rw [show max 2 1 = 2 from rfl, hpos]
  rfl

/-- The first copies make a block. The second copy of `b` is merged with the first in the stash,
that of `a` comes too late and goes out by itself. -/
theorem encodeStage_pair (hga : a.fecGroup = g) (hgb : b.fecGroup = g) (ha : a.seq = 2 * g)
    (hb : b.seq = 2 * g + 1) (hlt : 2 * g + 2 < 2 ^ 64) :
    encodeStage X ⟨⟨2, 1⟩, true, [], 2⟩ sampleUtilities 1 [b, b, a, a] =
      .ok (FecEncoder.encodeBlock X ⟨2, 1⟩ [a, b] ++ [a]) := by
  have hnil : drainFecBlockFromPackets X [] g ⟨2, 1⟩ = .ok none :=
    drain_missing hlt (Or.inl rfl)
  have hfirst : drainFecBlockFromPackets X [b] g ⟨2, 1⟩ = .ok none :=
    drain_missing hlt (Or.inl (by simp [hb]))
  have hlate : drainFecBlockFromPackets X [a] g ⟨2, 1⟩ = .ok none :=
    drain_missing hlt (Or.inr (by simp [ha]))
  have hblock := drain_pair (X := X) ha hb hlt
  simp [encodeStage, blocksFromPackets, groupKeys, detectStragglers, sampleUtilities, encodeAll,
    flushStash, drainGroup, drainLoop, EncoderTask.put, stashPacket, fecFor, hga, hgb, ha, hb,
    hnil, hfirst, hlate, hblock]

/-- A block of two packets gets its parity packet. -/
theorem length_encodeBlock_pair (hrs : X.RsLawful 2 1)
    (henc : ∀ desc, ∃ bs, X.encodeDescriptor desc = some bs) (hseq : a.seq ≤ b.seq)
    (hpay : 0 < a.payload.length) :
    (FecEncoder.encodeBlock X ⟨2, 1⟩ [a, b]).length = 3 := by
  have hsort : sortBlock (max 2 1) [a, b] = [a, b] := by
    simp [sortBlock, hseq]
  have hmax : 0 < maxPayload [a, b] := by
    simp only [maxPayload, List.map_cons, List.map_nil, List.foldl_cons, List.foldl_nil]
    omega
  obtain ⟨shards, hshards⟩ : ∃ shards, X.rsEncode 2 1 (encodeInput
      ([a, b].map fun q => resize q.payload (maxPayload [a, b])) 1 (maxPayload [a, b]))
        = some shards := by
    have hblock : IsBlock ([a, b].map fun q => resize q.payload (maxPayload [a, b])) 2
        (maxPayload [a, b]) := ⟨rfl, hmax, by simp⟩
    obtain ⟨parity, -, hencode⟩ := hrs.encode_ok hblock
    exact ⟨_, hencode 1 one_pos le_rfl⟩
  obtain ⟨q, hq⟩ : ∃ q, parityPacket X [a, b] 2 1 shards 0 = some q := by
    unfold parityPacket
    simp only []
    split
    · next hnone => exact absurd hnone (frame_ne_none henc _ _)
    · exact ⟨_, rfl⟩
  simp only [FecEncoder.encodeBlock]
  rw [hsort, show max 2 1 = 2 from rfl, if_neg (List.cons_ne_nil _ _), if_neg (by simp),
    if_neg (by omega), hrs.new_ok one_pos le_rfl, hshards]
  simp [hq, List.reduceOption]

/-- What the paths are handed for a batch of one group. -/
theorem runPipeline_pair (hrs : X.RsLawful 2 1)
    (henc : ∀ desc, ∃ bs, X.encodeDescriptor desc = some bs) (hga : a.fecGroup = g)
    (hgb : b.fecGroup = g) (ha : a.seq = 2 * g) (hb : b.seq = 2 * g + 1)
    (hlt : 2 * g + 2 < 2 ^ 64) (hpay : 0 < a.payload.length)
    (hp : b.info.priority = a.info.priority) (hd : b.info.deadline = a.info.deadline) :
    ∃ sent, runPipeline X ⟨⟨2, 1⟩, true, [], 2⟩ sampleUtilities 1 [a, b] = .ok sent ∧
      (handedTo 0 sent).length = 4 ∧ handedTo 1 sent = [] := by
  have hlen := length_encodeBlock_pair hrs henc (a := a) (b := b) (by omega) hpay
  refine ⟨distributeAll ⟨⟨2, 1⟩, true, [], 2⟩ sampleUtilities
    (FecEncoder.encodeBlock X ⟨2, 1⟩ [a, b] ++ [a]), ?_, ?_, ?_⟩
  · unfold runPipeline
    rw [optimizeTransfer_pair (hgb.trans hga.symm)]
    simp only [prioritize_pair hp hd, encodeStage_pair hga hgb ha hb hlt]
  · simp [distributeAll_sample, handedTo, List.filter_map, Function.comp_def, hlen]
  · simp [distributeAll_sample, handedTo, List.filter_map, Function.comp_def]

end Pair

/-! ## A file that is too long -/

/-- A transfer in groups of two with one parity row, sent a group at a time. -/
structure AdaptiveSetup.Paired (P : AdaptiveSetup) : Prop where
  fec : P.transfer.fec = ⟨2, 1⟩
  skip : P.skip = ∅
  batchSize : P.batchSize = 2
  compression : P.transfer.cfg.compression = .none
  lawful : P.crates.Lawful
  encodes : ∀ desc, ∃ bs, P.crates.encodeDescriptor desc = some bs
  rs : P.crates.RsLawful 2 1

section Rounds

variable {P : AdaptiveSetup} {s : Adaptive}

/-- The stream pump can write all it was handed. -/
theorem Adaptive.reach_written (P : AdaptiveSetup) : ∀ (queue : List Packet) (s : Adaptive),
    s.sender.streamQueue = queue → (adaptive P).Reach (fun _ _ => True) s { s with
      sender := { s.sender with streamQueue := [] }
      wires := s.wires ++ queue.map .stream } := by
  intro queue
  induction queue with
  | nil =>
    intro s hqueue
    rw [List.map_nil, List.append_nil, ← hqueue]
    exact .refl
  | cons packet queue ih =>
    intro s hqueue
    let s₁ : Adaptive :=
      { s with
        sender := { s.sender with streamQueue := queue }
        wires := s.wires ++ [.stream packet] }
    have hs : (adaptive P).step s (.write .stream 0 none) = some s₁ := by
      simp [adaptive, adaptiveStep, SendAdaptive.queue, SendAdaptive.unqueue, writePacketOnPath,
        hqueue, s₁]
    rw [List.map_cons, List.append_cons]
    exact (Lts.Reach.refl.step trivial hs).trans (ih s₁ rfl)

/-- The chunks of the file can be read and framed. -/
theorem AdaptiveSetup.Paired.chunkFrame (h : P.Paired) {i : Nat}
    (hi : i < P.manifest.numChunks) :
    ∃ payload, P.transfer.chunkFrame P.crates i = some payload ∧ 0 < payload.length := by
  obtain ⟨payload, hframe⟩ : ∃ payload, P.transfer.chunkFrame P.crates i = some payload := by
    refine Option.ne_none_iff_exists'.mp ?_
    unfold Transfer.chunkFrame buildChunkPayload
    rw [readChunkRange_eq hi]
    simp only [frameChunk, maybeCompress, h.compression]
    exact frame_ne_none h.encodes _ _
  exact ⟨payload, hframe, by have := Transfer.chunkFrame_length h.lawful hi hframe; omega⟩

/-- Between two batches, with `2 * k` chunks sent. -/
def SendAdaptive.afterGroups (P : AdaptiveSetup) (k : Nat) : SendAdaptive :=
  { SendAdaptive.init P with next := 2 * k }

/-- A group is read, encoded and written on four streams. -/
theorem Adaptive.reach_group (h : P.Paired) {k : Nat} (hk : 2 * k + 2 ≤ P.manifest.numChunks)
    (hlt : P.manifest.numChunks < 2 ^ 64) (hs : s.sender = .afterGroups P k) :
    ∃ s', (adaptive P).Reach (fun _ _ => True) s s' ∧ s'.sender = .afterGroups P (k + 1) ∧
      s'.receiver = s.receiver ∧ s'.streams.length = s.streams.length + 4 := by
  obtain ⟨p₀, hframe₀, hpay⟩ := h.chunkFrame (i := 2 * k) (by omega)
  obtain ⟨p₁, hframe₁, -⟩ := h.chunkFrame (i := 2 * k + 1) (by omega)
  have hdata : P.manifest.dataShards = 2 := congrArg FecEncoder.dataShards h.fec
  have hparity : P.manifest.parityShards = 1 := congrArg FecEncoder.parityShards h.fec
  have hcap : P.parityCap = 1 := by
    simp [AdaptiveSetup.parityCap, h.skip, hparity]
  obtain ⟨sent, hsent, hstream, hdatagram⟩ := runPipeline_pair (g := k)
    (a := makeDataPacket P (2 * k) p₀ 100 0) (b := makeDataPacket P (2 * k + 1) p₁ 100 0)
    h.rs h.encodes (by simp [makeDataPacket, hdata]) (by simp [makeDataPacket, hdata]; omega)
    rfl rfl (by omega) hpay (by unfold makeDataPacket; dsimp only; split <;> split <;> omega) rfl
  have hexec : (adaptive P).exec s
      ([.send (.fill 0), .send (.fill 0)] ++ sampleFlush sampleUtilities ++ [.send .check])
      = some { s with
        sender := { SendAdaptive.afterGroups P (k + 1) with streamQueue := handedTo 0 sent } } := by
    simp [Lts.exec, adaptive, adaptiveStep, sendStep, sampleFlush, hs, SendAdaptive.afterGroups,
      SendAdaptive.init, h.skip, h.batchSize, hframe₀, hframe₁, applyFeedbackIfPresent,
      pushNackRetransmits, hdata, hparity, hcap, hsent, hdatagram,
      show 2 * k < P.manifest.numChunks by omega, show 2 * k + 1 < P.manifest.numChunks by omega]
    omega
  refine ⟨_, (Lts.Reach.of_exec hexec).trans (Adaptive.reach_written P _ _ rfl), rfl, rfl, ?_⟩
  have hall : ((handedTo 0 sent).map Written.stream).filterMap Written.onStream
      = handedTo 0 sent := by
    rw [List.filterMap_map]
    exact List.filterMap_some
  rw [Adaptive.streams, List.filterMap_append, List.length_append, hall, hstream]
  rfl

/-- **Every group opens four streams**, although it has three frames. -/
theorem Adaptive.reach_groups (h : P.Paired) (hlt : P.manifest.numChunks < 2 ^ 64)
    (st : IngestState) : ∀ k, 2 * k ≤ P.manifest.numChunks →
      ∃ s, (adaptive P).Reach (fun _ _ => True) (.init P st) s ∧
        s.sender = .afterGroups P k ∧ s.receiver.st = st ∧ s.streams.length = 4 * k := by
  intro k
  induction k with
  | zero => exact fun _ => ⟨_, .refl, rfl, rfl, rfl⟩
  | succ k ih =>
    intro hk
    obtain ⟨s, hrun, hsender, hst, hlen⟩ := ih (by omega)
    obtain ⟨s', hrun', hsender', hrecv, hlen'⟩ := Adaptive.reach_group h (by omega) hlt hsender
    exact ⟨s', hrun.trans hrun', hsender', by rw [hrecv, hst], by omega⟩

end Rounds

/-- 520 single bytes in groups of two, with any hash function. -/
def sampleLong (blake3 : Bytes → Digest) : AdaptiveSetup :=
  { sampleSetup with
    crates := { Crates.reference with blake3 := blake3 }
    transfer := { sampleBytewise with
      src := ⟨List.replicate 520 97, by rw [List.length_replicate]; decide⟩ } }

theorem sampleLong_paired (blake3 : Bytes → Digest) : (sampleLong blake3).Paired where
  fec := rfl
  skip := rfl
  batchSize := rfl
  compression := rfl
  lawful := { Crates.reference_lawful with }
  encodes := fun _ => ⟨_, rfl⟩
  rs := { Crates.reference_rsLawful with }

theorem sampleLong_numChunks (blake3 : Bytes → Digest) :
    (sampleLong blake3).manifest.numChunks = 520 := by
  show divCeil (List.replicate 520 97).length 1 = 520
  rw [List.length_replicate]
  rfl

theorem sampleLong_maxStreams (blake3 : Bytes → Digest) :
    maxStreams (sampleLong blake3).manifest = 520 + 260 * 1 + 256 := by
  have hsum : (sampleLong blake3).manifest.numChunks +
      divCeil (sampleLong blake3).manifest.numChunks
        (max (sampleLong blake3).manifest.dataShards 1) *
          (sampleLong blake3).manifest.parityShards + 256 = 520 + 260 * 1 + 256 := by
    rw [sampleLong_numChunks]
    show 520 + divCeil 520 (max 2 1) * 1 + 256 = 520 + 260 * 1 + 256
    decide
  rw [maxStreams_eq (by rw [hsum]; decide), hsum]

/--
Nothing is sent on two paths and no chunk is asked for again, but a batch of one group is always
sent twice, and of the second copies one is not merged with the first. After 259 of the 260 groups
the budget is used up; the last two chunks have not been sent, and the receiver has ingested
nothing yet.
-/
theorem sampleLong_budget_exceeded :
    (∀ blake3, maxStreams (sampleLong blake3).manifest = 520 + 260 * 1 + 256) ∧
    ∀ blake3, ∃ s, (adaptive (sampleLong blake3)).Reach (fun _ _ => True)
        (.init (sampleLong blake3) ⟨List.replicate 520 0, ∅, fun _ => none⟩) s ∧
      s.sender.next = 518 ∧ s.receiver.st.received = ∅ ∧
      maxStreams (sampleLong blake3).manifest ≤ s.streams.length := by
  refine ⟨sampleLong_maxStreams, fun blake3 => ?_⟩
  have hchunks := sampleLong_numChunks blake3
  obtain ⟨s, hrun, hsender, hst, hlen⟩ := Adaptive.reach_groups (sampleLong_paired blake3)
    (by omega) ⟨List.replicate 520 0, ∅, fun _ => none⟩ 259 (by omega)
  refine ⟨s, hrun, ?_, ?_, ?_⟩
  · rw [hsender]
    rfl
  · rw [hst]
  · rw [sampleLong_maxStreams, hlen]

end ScTransport
