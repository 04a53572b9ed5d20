import ScTransport.Adaptive.System

/-!
# What the sender puts on the wire

Every packet of a run is a data packet of the file or a parity packet of a whole group of it,
whatever the utilities answer and whatever the feedback says. Nothing is assumed about the crates.

- `HonestPacket.of_emitted`: what the encoder makes of a batch of data packets
- `Adaptive.Honest`: the invariant of a run
-/

namespace ScTransport

open Infra

/-! ## Packets -/

/-- A packet as `make_data_packet` builds it. -/
structure Transfer.DataPacket (t : Transfer) (X : Crates) (q : Packet) : Prop where
  isData : q.isParity = false
  seq_lt : q.seq < t.numChunks
  group : q.fecGroup = q.seq / t.width
  payload : t.chunkFrame X q.seq = some q.payload

/-- A packet an honest sender hands to a path. -/
inductive Transfer.HonestPacket (t : Transfer) (X : Crates) (q : Packet) : Prop where
  | data (h : t.DataPacket X q)
  | parity {p' : Nat} (hpar : q.isParity = true)
      (h : t.ParityFrame X q.fecGroup p' q.parityIndex q.payload)

/-- Which frame of the transfer a packet carries. -/
inductive FrameKey where
  | data (chunk : Nat)
  | parity (group row : Nat)
  deriving DecidableEq

def Packet.key (q : Packet) : FrameKey :=
  if q.isParity then .parity q.fecGroup q.parityIndex else .data q.seq

/-- The frame in row `r` of the code word of group `g`. -/
def Transfer.rowKey (t : Transfer) (g r : Nat) : FrameKey :=
  if r < t.fec.dataShards then .data (g * t.width + r) else .parity g (r - t.fec.dataShards)

section Packets

variable {t : Transfer} {X : Crates} {q : Packet} {batch : List Packet} {fec : FecEncoder}

theorem Transfer.DataPacket.withDeadline (h : t.DataPacket X q) (deadline : Option Nat) :
    t.DataPacket X (q.withDeadline deadline) :=
  ⟨h.isData, h.seq_lt, h.group, h.payload⟩

theorem Transfer.HonestPacket.withDeadline (h : t.HonestPacket X q) (deadline : Option Nat) :
    t.HonestPacket X (q.withDeadline deadline) := by
  cases h with
  | data h => exact .data (h.withDeadline deadline)
  | parity hpar h => exact .parity hpar h

theorem Packet.key_data (h : q.isParity = false) : q.key = .data q.seq := by
  unfold Packet.key
  rw [h]
  rfl

theorem Packet.key_parity (h : q.isParity = true) : q.key = .parity q.fecGroup q.parityIndex := by
  unfold Packet.key
  rw [h]
  rfl

theorem Packet.key_eq_data {i : Nat} (h : q.key = .data i) : q.isParity = false ∧ q.seq = i := by
  cases hpar : q.isParity with
  | true =>
    rw [Packet.key_parity hpar] at h
    cases h
  | false =>
    rw [Packet.key_data hpar] at h
    exact ⟨rfl, FrameKey.data.inj h⟩

theorem Packet.key_eq_parity {g j : Nat} (h : q.key = .parity g j) :
    q.isParity = true ∧ q.fecGroup = g ∧ q.parityIndex = j := by
  cases hpar : q.isParity with
  | true =>
    rw [Packet.key_parity hpar] at h
    exact ⟨rfl, FrameKey.parity.inj h⟩
  | false =>
    rw [Packet.key_data hpar] at h
    cases h

theorem makeDataPacket_data {P : AdaptiveSetup} {i : Nat} {payload : Bytes}
    (hi : i < P.transfer.numChunks) (hw : P.transfer.chunkFrame P.crates i = some payload)
    (priority deadline : Nat) :
    P.transfer.DataPacket P.crates (makeDataPacket P i payload priority deadline) :=
  ⟨rfl, hi, rfl, hw⟩

theorem Transfer.DataPacket.dataPackets (hfec : fec.dataShards = t.width)
    (h : ∀ q ∈ batch, t.DataPacket X q) : DataPackets fec batch where
  dataShards := hfec ▸ t.width_pos
  isData q hq := (h q hq).isData
  group q hq := hfec ▸ (h q hq).group
  seq q hq := by
    have := (h q hq).seq_lt
    have := t.numChunks_lt
    unfold u64Max
    omega
  payload q hq q' hq' hseq := by
    have hq := (h q hq).payload
    rw [hseq, (h q' hq').payload] at hq
    exact (Option.some.inj hq).symm

/-- The encoder reads its width as at least one. -/
theorem encodeBlock_width (X : Crates) (n p : Nat) (data : List Packet) :
    FecEncoder.encodeBlock X ⟨max n 1, p⟩ data = FecEncoder.encodeBlock X ⟨n, p⟩ data := by
  have hmax : max (max n 1) 1 = max n 1 := by omega
  simp only [FecEncoder.encodeBlock, hmax]

/-- The packets of a whole block make a full group of the transfer. -/
theorem Transfer.DataPacket.fullGroup {g : Nat} {block : List Packet}
    (h : ∀ q ∈ block, t.DataPacket X q) (hgrp : ∀ q ∈ block, q.fecGroup = g)
    (hseqs : (block.map Packet.seq).Perm (List.range' (g * t.width) t.width)) :
    t.FullGroup X g block where
  in_range := by
    have hpos := t.width_pos
    have hlast : g * t.width + (t.width - 1) ∈ block.map Packet.seq :=
      hseqs.mem_iff.mpr (List.mem_range'_1.mpr (by omega))
    obtain ⟨q, hq, hqs⟩ := List.mem_map.mp hlast
    have hlt := (h q hq).seq_lt
    rw [Nat.add_mul, Nat.one_mul]
    omega
  seqs := hseqs
  payload q hq := (h q hq).payload
  group := hgrp
  not_parity q hq := (h q hq).isData

/-- **Honest in, honest out.** -/
theorem Transfer.HonestPacket.of_emitted {cap : Nat} {r : Packet}
    (hfec : fec.dataShards = t.width) (hcap : cap ≤ t.fec.parityShards)
    (h : ∀ q ∈ batch, t.DataPacket X q) (hr : Emitted X fec cap batch r) :
    t.HonestPacket X r := by
  rcases hr with hr | ⟨g, p', block, hp', hblock, hseqs, hr, hpar⟩
  · exact .data (h r hr)
  · have hdata : ∀ q ∈ block, t.DataPacket X q := fun q hq => h q (hblock q hq).1
    have hgroup : r.fecGroup = g := by
      rcases encodeBlock_cases hr with hmem | ⟨-, -, -, q₀, hq₀, hgrp⟩
      · rw [(hdata r hmem).isData] at hpar
        cases hpar
      · rw [hgrp, (hblock q₀ hq₀).2]
    rw [hfec] at hseqs hr
    have hfull := Transfer.DataPacket.fullGroup hdata (fun q hq => (hblock q hq).2) hseqs
    rw [Transfer.width, encodeBlock_width] at hr
    exact .parity hpar ⟨hp'.trans hcap, block, r, hgroup ▸ hfull, hr, hpar, rfl, rfl⟩

end Packets

/-! ## Retransmissions -/

section Nack

variable {P : AdaptiveSetup} {clock : Nat → Nat}

/-- A retransmission adds data packets of the file. -/
theorem pushNackRetransmit_mem {acc : List Packet × Finset Nat} {i : Nat}
    (hi : i < P.transfer.numChunks) {q : Packet} (hq : q ∈ (pushNackRetransmit P clock acc i).1) :
    q ∈ acc.1 ∨ P.transfer.DataPacket P.crates q := by
  unfold pushNackRetransmit at hq
  split at hq
  · exact Or.inl hq
  · split at hq
    · exact Or.inl hq
    · next payload hw =>
      rcases List.mem_append.mp hq with hq | hq
      · exact Or.inl hq
      · rw [List.mem_singleton.mp hq]
        exact Or.inr (makeDataPacket_data hi hw _ _)

/-- Packets that wait for the flush stay in the batch. -/
theorem subset_pushNackRetransmit {acc : List Packet × Finset Nat} (i : Nat) {q : Packet}
    (hq : q ∈ acc.1) : q ∈ (pushNackRetransmit P clock acc i).1 := by
  unfold pushNackRetransmit
  split
  · exact hq
  · split
    · exact hq
    · exact List.mem_append_left _ hq

theorem foldl_pushNackRetransmit {indices : List Nat} :
    ∀ (acc : List Packet × Finset Nat), (∀ i ∈ indices, i < P.transfer.numChunks) →
      (∀ q ∈ acc.1, q ∈ (indices.foldl (pushNackRetransmit P clock) acc).1) ∧
      ∀ q ∈ (indices.foldl (pushNackRetransmit P clock) acc).1,
        q ∈ acc.1 ∨ P.transfer.DataPacket P.crates q := by
  induction indices with
  | nil =>
    intro acc _
    exact ⟨fun q hq => hq, fun q hq => Or.inl hq⟩
  | cons i rest ih =>
    intro acc hlt
    obtain ⟨hkeep, hnew⟩ := ih (pushNackRetransmit P clock acc i)
      fun j hj => hlt j (List.mem_cons_of_mem _ hj)
    refine ⟨fun q hq => hkeep q (subset_pushNackRetransmit i hq), fun q hq => ?_⟩
    rcases hnew q hq with hq | hq
    · exact pushNackRetransmit_mem (hlt i List.mem_cons_self) hq
    · exact Or.inr hq

/-- A flush keeps its packets and adds data packets of the file. -/
theorem pushNackRetransmits_spec {packets : List Packet} {nacked : Finset Nat}
    {fb : Option ReceiverFeedbackFrame}
    (hfb : ∀ frame, fb = some frame → ∀ i ∈ frame.missingChunkIndices, i < P.transfer.numChunks) :
    (∀ q ∈ packets, q ∈ (pushNackRetransmits P clock packets nacked fb).1) ∧
    ∀ q ∈ (pushNackRetransmits P clock packets nacked fb).1,
      q ∈ packets ∨ P.transfer.DataPacket P.crates q := by
  cases fb with
  | none => exact ⟨fun q hq => hq, fun q hq => Or.inl hq⟩
  | some frame =>
    exact foldl_pushNackRetransmit (packets, nacked) fun i hi =>
      hfb frame rfl i (List.mem_of_mem_take hi)

end Nack

/-! ## The invariant -/

/-- A feedback frame on its way, or the newest one the sender has read. -/
def Adaptive.Reports (s : Adaptive) (fb : ReceiverFeedbackFrame) : Prop :=
  fb ∈ s.feedbacks ∨ s.sender.feedbackState = some fb

structure Adaptive.Honest (P : AdaptiveSetup) (s : Adaptive) : Prop where
  dataShards : s.sender.runtime.fec.dataShards = P.transfer.width
  enabled : s.sender.runtime.completionFirstEnabled = true
  paths : s.sender.runtime.paths = 2
  packets : ∀ q ∈ s.sender.packets, P.transfer.DataPacket P.crates q
  queues : ∀ path, ∀ q ∈ s.sender.queue path, P.transfer.HonestPacket P.crates q
  wires : ∀ w ∈ s.wires, P.transfer.HonestPacket P.crates w.packet
  missing : ∀ fb, s.Reports fb → ∀ i ∈ fb.missingChunkIndices, i < P.transfer.numChunks

section Invariant

variable {P : AdaptiveSetup} {s s' : Adaptive}

theorem mem_handedTo {path : Nat} {sent : List (Nat × Packet)} {q : Packet} :
    q ∈ handedTo path sent ↔ (path, q) ∈ sent := by
  simp [handedTo]

theorem parityCap_le (P : AdaptiveSetup) : P.parityCap ≤ P.transfer.fec.parityShards := by
  unfold AdaptiveSetup.parityCap
  split
  · exact Nat.zero_le _
  · exact le_rfl

theorem SendAdaptive.mem_queue_unqueue {snd : SendAdaptive} {path path' : PathKind} {k : Nat}
    {q : Packet} (hq : q ∈ (snd.unqueue path k).queue path') : q ∈ snd.queue path' := by
  cases path <;> cases path' <;> first | exact hq | exact List.mem_of_mem_eraseIdx hq

@[simp] theorem Written.packet_writePacketOnPath (q : Packet) (path : PathKind)
    (cap : Option UInt16) : (writePacketOnPath q path cap).packet = q := by
  cases path with
  | stream => rfl
  | datagram =>
    cases cap with
    | none => rfl
    | some cap =>
      simp only [writePacketOnPath]
      split <;> rfl

theorem Adaptive.Honest.init (P : AdaptiveSetup) (st : IngestState) :
    (Adaptive.init P st).Honest P where
  dataShards := rfl
  enabled := rfl
  paths := rfl
  packets := fun q hq => absurd hq List.not_mem_nil
  queues := fun path q hq => by cases path <;> exact absurd hq List.not_mem_nil
  wires := fun w hw => absurd hw List.not_mem_nil
  missing := fun fb hfb => by
    rcases hfb with hfb | hfb
    · exact absurd hfb List.not_mem_nil
    · cases hfb

/-- A batch is handed to the two paths as honest packets, every chunk of an open group as data. -/
theorem Adaptive.Honest.piped (h : s.Honest P) {U : Utilities} {sent : List (Nat × Packet)}
    (hrun : runPipeline P.crates s.sender.runtime U P.parityCap s.sender.packets = .ok sent) :
    (∀ r ∈ sent, P.transfer.HonestPacket P.crates r.2) ∧
    ∀ q ∈ s.sender.packets, q.fecGroup ∉ s.sender.runtime.completedBlocks →
      ∃ r ∈ sent, (r.1 = 0 ∨ r.1 = 1) ∧ r.2.key = .data q.seq := by
  obtain ⟨sent', hrun', hdata, hsent⟩ := runPipeline_spec P.crates U P.parityCap h.enabled
    (by rw [h.paths]; decide) (Transfer.DataPacket.dataPackets h.dataShards h.packets)
  rw [hrun] at hrun'
  cases hrun'
  refine ⟨fun r hr => ?_, fun q hq hopen => ?_⟩
  · obtain ⟨-, e, he, heq, -⟩ := hsent r hr
    have hhonest := Transfer.HonestPacket.of_emitted h.dataShards (parityCap_le P) h.packets he
    rw [heq]
    exact hhonest.withDeadline _
  · obtain ⟨r, hr, hpath, hpar, hseq, -⟩ := hdata q hq hopen
    rw [h.paths] at hpath
    exact ⟨r, hr, by omega, by rw [Packet.key_data hpar, hseq]⟩

theorem Adaptive.Honest.sent (h : s.Honest P) {l : SendLabel} {snd : SendAdaptive}
    (hm : SendMove P s.sender l snd) : { s with sender := snd }.Honest P := by
  cases hm with
  | skipped hpc hlt hskip => exact { h with }
  | unreadable hpc => exact { h with }
  | filled hpc hlt hframe hpc' =>
    refine { h with packets := fun q hq => ?_ }
    rcases List.mem_append.mp hq with hq | hq
    · exact h.packets q hq
    · rw [List.mem_singleton.mp hq]
      exact makeDataPacket_data hlt hframe _ _
  | ended hpc hall hpc' => exact { h with }
  | applied hpc =>
    refine { h with dataShards := ?_, enabled := ?_, paths := ?_ }
    all_goals
      dsimp only
      cases s.sender.feedbackState with
      | none => first | exact h.dataShards | exact h.enabled | exact h.paths
      | some fb => first | rfl | exact h.enabled | exact h.paths
  | nacked hpc =>
    refine { h with packets := fun q hq => ?_ }
    rcases (pushNackRetransmits_spec fun fb hfb => h.missing fb (Or.inr hfb)).2 q hq with hq | hq
    · exact h.packets q hq
    · exact hq
  | piped hpc hrun =>
    have hhonest := (h.piped hrun).1
    refine { h with packets := fun q hq => absurd hq List.not_mem_nil, queues := ?_ }
    intro path q hq
    have hold := h.queues path q
    cases path <;>
    · rcases List.mem_append.mp hq with hq | hq
      · exact hold hq
      · exact hhonest _ (mem_handedTo.mp hq)
  | checked hpc => exact { h with }
  | finished hpc hstream hdatagram => exact { h with }

/-- What a receiver reports as missing is a chunk of the file. -/
theorem missing_maybeWriteFeedback {st : IngestState} {g : Nat} {fb : ReceiverFeedbackFrame}
    (h : maybeWriteFeedback P st g = some fb) :
    ∀ i ∈ fb.missingChunkIndices, i < P.transfer.numChunks := by
  unfold maybeWriteFeedback at h
  split at h
  · cases h
  · cases h
    intro i hi
    exact List.mem_range.mp (List.mem_of_mem_filter (List.mem_of_mem_take hi))

/-- The listener reads a frame that was on its way. -/
theorem Adaptive.Reports.of_heard {fb frame : ReceiverFeedbackFrame}
    {rest : List ReceiverFeedbackFrame} (hq : s.feedbacks = frame :: rest)
    (h : { s with
      feedbacks := rest
      sender := { s.sender with feedbackState := some frame } }.Reports fb) : s.Reports fb := by
  left
  rw [hq]
  rcases h with h | h
  · exact List.mem_cons_of_mem _ h
  · cases h
    exact List.mem_cons_self

/-- A frame on its way after an ingested frame was so before, or has just been written. -/
theorem Adaptive.Reports.of_ingested {loop : ReceiveLoop} {st : IngestState} {g : Nat}
    {heard : Bool} {fb : ReceiverFeedbackFrame}
    (h : { s with
      receiver := loop
      feedbacks := s.feedbacks ++
        if heard then (maybeWriteFeedback P st g).toList else [] }.Reports fb) :
    s.Reports fb ∨ maybeWriteFeedback P st g = some fb := by
  rcases h with h | h
  · rcases List.mem_append.mp h with h | h
    · exact Or.inl (Or.inl h)
    · cases heard with
      | false => exact absurd h List.not_mem_nil
      | true => exact Or.inr (Option.mem_toList.mp h)
  · exact Or.inl (Or.inr h)

theorem Adaptive.Honest.unqueued (h : s.Honest P) (path : PathKind) (k : Nat) :
    { s with sender := s.sender.unqueue path k }.Honest P := by
  have hqueues : ∀ path', ∀ q ∈ (s.sender.unqueue path k).queue path',
      P.transfer.HonestPacket P.crates q :=
    fun path' q hq => h.queues path' q (SendAdaptive.mem_queue_unqueue hq)
  cases path <;> exact { h with queues := hqueues }

theorem Adaptive.Honest.wire (h : s.Honest P) (w : Written)
    (hw : P.transfer.HonestPacket P.crates w.packet) :
    { s with wires := s.wires ++ [w] }.Honest P := by
  refine { h with wires := fun w' hw' => ?_ }
  rcases List.mem_append.mp hw' with hw' | hw'
  · exact h.wires w' hw'
  · rw [List.mem_singleton.mp hw']
    exact hw

theorem Adaptive.Honest.step (h : s.Honest P) {l : AdaptiveLabel}
    (hs : (adaptive P).step s l = some s') : s'.Honest P := by
  cases AdaptiveMove.of_step hs with
  | sent hm => exact h.sent hm
  | heard hq => exact { h with missing := fun fb hfb => h.missing fb (hfb.of_heard hq) }
  | wrote hq =>
    refine (h.unqueued _ _).wire _ ?_
    rw [Written.packet_writePacketOnPath]
    exact h.queues _ _ (List.mem_of_getElem? hq)
  | unwritten hk => exact { h.unqueued _ _ with }
  | accepted hw => exact { h with }
  | ingested hw hsmall hrun =>
    refine { h with missing := fun fb hfb => ?_ }
    rcases hfb.of_ingested with hfb | hfb
    · exact h.missing fb hfb
    · exact missing_maybeWriteFeedback hfb
  | gaveUp hmissing hall => exact { h with }
  | stopped hpc => exact { h with }

theorem Adaptive.Honest.run {ok : Adaptive → AdaptiveLabel → Prop} (h : s.Honest P)
    (hrun : (adaptive P).Reach ok s s') : s'.Honest P :=
  hrun.invariant h fun h _ hs => h.step hs

end Invariant

end ScTransport
