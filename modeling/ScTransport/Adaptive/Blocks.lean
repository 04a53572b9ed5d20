import ScTransport.Adaptive.Honest

/-!
# Completed blocks

The receiver reports the group of the frame it has just ingested as reconstructable if enough of
its shards are stored. The sender reads the report some flushes later and from then on drops the
packets of that group.

- `Kept`: what the receiver has of a packet it has ingested
- `Adaptive.Tracked`: whatever the sender believes to be complete is complete
- `completed_received`: no chunk is dropped that the receiver lacks
-/

namespace ScTransport

open Infra

/-! ## Ingesting an honest packet -/

/-- The receiver has the chunk of a data packet and the row of either kind of packet. -/
structure Kept (t : Transfer) (st : IngestState) (q : Packet) : Prop where
  received : q.isParity = false → q.seq ∈ st.received
  data : q.isParity = false → 0 < t.fec.dataShards → 0 < t.fec.parityShards →
    Have t st (q.seq / t.width) (q.seq % t.width)
  parity : q.isParity = true → 0 < t.fec.dataShards → 0 < t.fec.parityShards →
    Have t st q.fecGroup (t.fec.dataShards + q.parityIndex)

section Ingest

variable {t : Transfer} {X : Crates} {q : Packet} {st st' : IngestState}

theorem Kept.advance (h : Kept t st q) (hadv : Advance t X st st') : Kept t st' q where
  received hdata := hadv.mono (h.received hdata)
  data hdata hds hps := hadv.keeps (h.data hdata hds hps)
  parity hpar hds hps := hadv.keeps (h.parity hpar hds hps)

/-- **A packet that is ingested advances the state and is kept.** -/
theorem Transfer.HonestPacket.ingested (hX : X.Lawful) (hrs : t.Decodable X)
    (hq : t.HonestPacket X q) (hlen : q.payload.length < 2 ^ 32) (h : Sound t X st)
    (hsmall : ShardsSmall st) {verify : Bool} {g : Nat}
    (hrun : ingestWireFrame X q.payload (t.manifest X) t.coder verify ∅ st = .ok (g, st')) :
    Advance t X st st' ∧ Kept t st' q := by
  have hok : SizeOk X (t.manifest X) q.payload := SizeOk.of_ingest hrun
  cases hq with
  | data hq =>
    obtain ⟨g', st'', hrun', hadv, hdone⟩ := ingest_data_of_sizeOk hX hrs verify ∅ h
      (fun _ _ => hsmall) hq.seq_lt hq.payload hlen hok
    rw [hrun] at hrun'
    cases hrun'
    obtain ⟨hrec, hhave⟩ := hdone (Finset.notMem_empty _)
    refine ⟨hadv, fun _ => hrec, fun _ => hhave, fun hpar => ?_⟩
    rw [hq.isData] at hpar
    cases hpar
  | parity hpar hq =>
    obtain ⟨g', st'', hrun', hadv, hhave⟩ := ingest_parity_of_sizeOk hX hrs verify ∅ h
      (fun _ _ => hsmall) hq hlen hok
    rw [hrun] at hrun'
    cases hrun'
    refine ⟨hadv, fun hdata => ?_, fun hdata => ?_, fun _ => hhave⟩ <;>
    · rw [hpar] at hdata
      cases hdata

/-- Every chunk of group `b` is recorded. -/
def GroupReceived (t : Transfer) (b : Nat) (received : Finset Nat) : Prop :=
  ∀ i, i / t.width = b → i ∈ received

theorem GroupReceived.mono {b : Nat} {r r' : Finset Nat} (h : GroupReceived t b r)
    (hsub : r ⊆ r') : GroupReceived t b r' :=
  fun i hi => hsub (h i hi)

/-- A complete group has no other chunks. -/
theorem GroupReceived.of_complete {b : Nat} {received : Finset Nat} (hds : 0 < t.fec.dataShards)
    (h : Complete t b received) : GroupReceived t b received := by
  intro i hi
  have hmod : i % t.width < t.fec.dataShards := by
    rw [← t.width_eq hds]
    exact Nat.mod_lt _ t.width_pos
  have hidx := h (i % t.width) hmod
  rwa [← hi, Nat.div_add_mod'] at hidx

/-- **A group that is reported is complete.** -/
theorem GroupReceived.of_feedback {P : AdaptiveSetup} {fb : ReceiverFeedbackFrame} {g b : Nat}
    (hd : Drained P.transfer P.crates st) (hfb : maybeWriteFeedback P st g = some fb)
    (hready : fb.blockReconstructable = true) (hb : fb.completedBlockId = some b) :
    GroupReceived P.transfer b st.received := by
  unfold maybeWriteFeedback at hfb
  split at hfb
  · cases hfb
  · cases hfb
    cases hb
    cases hg : st.groups g with
    | none =>
      rw [hg] at hready
      cases hready
    | some group =>
      rw [hg] at hready
      have hready : fecRecoveryReady group P.manifest = true := hready
      obtain ⟨-, ⟨s, hs, -⟩, -⟩ := fecRecoveryReady_iff.mp hready
      exact .of_complete (Nat.zero_lt_of_lt hs) (hd g group hg hready)

/-- The receiver's coder is the one its manifest asks for. -/
theorem fecRsOf_eq_coder {fecRs : Option ReedSolomon}
    (h : fecRsOf X (t.manifest X) = .ok fecRs) : fecRs = t.coder := by
  have hdef : fecRsOf X (t.manifest X) =
      if 0 < t.fec.parityShards ∧ 0 < t.fec.dataShards then
        if X.rsNew t.fec.dataShards t.fec.parityShards then
          .ok (some ⟨t.fec.dataShards, t.fec.parityShards⟩)
        else .error .invalidFecDimensions
      else .ok none := rfl
  rw [hdef] at h
  unfold Transfer.coder
  split at h
  · next hpos =>
    rw [if_pos hpos]
    split at h
    · cases h
      rfl
    · cases h
  · next hpos =>
    rw [if_neg hpos]
    cases h
    rfl

end Ingest

/-! ## The invariant -/

structure Adaptive.Tracked (P : AdaptiveSetup) (s : Adaptive) : Prop where
  sound : Sound P.transfer P.crates s.receiver.st
  drained : Drained P.transfer P.crates s.receiver.st
  small : ShardsSmall s.receiver.st
  reported : ∀ fb, s.Reports fb → fb.blockReconstructable = true →
    ∀ b, fb.completedBlockId = some b → GroupReceived P.transfer b s.receiver.st.received
  completed : ∀ b ∈ s.sender.runtime.completedBlocks,
    GroupReceived P.transfer b s.receiver.st.received

section Invariant

variable {P : AdaptiveSetup} {s s' : Adaptive} {st : IngestState}

theorem Adaptive.Tracked.init (hst : P.transfer.Start st) : (Adaptive.init P st).Tracked P where
  sound := hst.sound
  drained := hst.drained
  small := by
    intro g group s b hg
    rw [show (Adaptive.init P st).receiver.st.groups g = none from hst.no_groups g] at hg
    cases hg
  reported := by
    rintro fb (hfb | hfb)
    · exact absurd hfb List.not_mem_nil
    · cases hfb
  completed := fun b hb => absurd hb List.not_mem_nil

/-- Applying feedback adds at most the reported block. -/
theorem mem_completedBlocks_apply {parity b : Nat} {A : AutopilotRuntime}
    {fb : Option ReceiverFeedbackFrame}
    (hb : b ∈ (applyFeedbackIfPresent P parity A fb).completedBlocks) :
    b ∈ A.completedBlocks ∨
      ∃ frame, fb = some frame ∧ frame.blockReconstructable = true ∧
        frame.completedBlockId = some b := by
  cases fb with
  | none => exact Or.inl hb
  | some frame =>
    simp only [applyFeedbackIfPresent] at hb
    split at hb
    · next blockId hready hid =>
      rcases List.mem_insert_iff.mp hb with rfl | hb
      · exact Or.inr ⟨frame, rfl, hready, hid⟩
      · exact Or.inl hb
    · exact Or.inl hb

/-- The sender's task changes nothing but what it believes, and that by a report. -/
theorem Adaptive.Tracked.sent (h : s.Tracked P) {l : SendLabel} {snd : SendAdaptive}
    (hm : SendMove P s.sender l snd) : { s with sender := snd }.Tracked P := by
  cases hm with
  | applied hpc =>
    refine { h with completed := fun b hb => ?_ }
    rcases mem_completedBlocks_apply hb with hb | ⟨fb, hfb, hready, hid⟩
    · exact h.completed b hb
    · exact h.reported fb (Or.inr hfb) hready b hid
  | skipped hpc hlt hskip => exact { h with }
  | unreadable hpc => exact { h with }
  | filled hpc hlt hframe hpc' => exact { h with }
  | ended hpc hall hpc' => exact { h with }
  | nacked hpc => exact { h with }
  | piped hpc hrun => exact { h with }
  | checked hpc => exact { h with }
  | finished hpc hstream hdatagram => exact { h with }

/-- What is known of the receiver stays true when it advances. -/
theorem Adaptive.Tracked.advance (h : s.Tracked P)
    (hadv : Advance P.transfer P.crates s.receiver.st st) (loop : ReceiveLoop)
    (hloop : loop.st = st) : { s with receiver := loop }.Tracked P := by
  subst hloop
  exact
    { sound := hadv.sound
      drained := hadv.drained h.drained
      small := hadv.small h.small
      reported := fun fb hfb hready b hb => (h.reported fb hfb hready b hb).mono hadv.mono
      completed := fun b hb => (h.completed b hb).mono hadv.mono }

theorem Adaptive.Tracked.step (hX : P.crates.Lawful) (hrs : P.transfer.Decodable P.crates)
    (hcoder : P.fecRs = P.transfer.coder) (hh : s.Honest P) (h : s.Tracked P) {l : AdaptiveLabel}
    (hs : (adaptive P).step s l = some s') : s'.Tracked P := by
  cases AdaptiveMove.of_step hs with
  | sent hm => exact h.sent hm
  | heard hq => exact { h with reported := fun fb hfb => h.reported fb (hfb.of_heard hq) }
  | @wrote path => cases path <;> exact { h with }
  | @unwritten path => cases path <;> exact { h with }
  | accepted hw => exact { h with }
  | @ingested l k g w st heard inflight hw hsmall hrun =>
    rw [hcoder] at hrun
    have hing := (hh.wires w (List.mem_of_getElem? hw)).ingested hX hrs hsmall h.sound h.small hrun
    have hadv := h.advance hing.1
      { s.receiver with
        st := st
        inflight := inflight
        ingested := insert k s.receiver.ingested } rfl
    refine { hadv with reported := fun fb hfb hready b hb => ?_ }
    rcases hfb.of_ingested with hfb | hfb
    · exact hadv.reported fb hfb hready b hb
    · exact .of_feedback hadv.drained hfb hready hb
  | gaveUp hmissing hall => exact { h with }
  | stopped hpc => exact { h with }

/-- Both invariants hold on every run. -/
theorem Adaptive.Tracked.run (hX : P.crates.Lawful) (hrs : P.transfer.Decodable P.crates)
    (hcoder : P.fecRs = P.transfer.coder) (hst : P.transfer.Start st)
    {ok : Adaptive → AdaptiveLabel → Prop}
    (hrun : (adaptive P).Reach ok (Adaptive.init P st) s) : s.Honest P ∧ s.Tracked P := by
  induction hrun with
  | refl => exact ⟨.init P st, .init hst⟩
  | step _ _ hs ih => exact ⟨ih.1.step hs, ih.2.step hX hrs hcoder ih.1 hs⟩

/--
**A block is cancelled only when the receiver has it.** In every state of every run, the chunks of
a block the sender believes to be complete are recorded. So whatever the utilities answer, a packet
`optimize_transfer` drops from the batch is for a chunk the receiver does not lack.
-/
theorem completed_received (P : AdaptiveSetup) (hX : P.crates.Lawful)
    (hrs : P.transfer.Decodable P.crates) (hfec : fecRsOf P.crates P.manifest = .ok P.fecRs)
    (hst : P.transfer.Start st)
    (hrun : (adaptive P).Reach (fun _ _ => True) (Adaptive.init P st) s) :
    (∀ i, i / max P.manifest.dataShards 1 ∈ s.sender.runtime.completedBlocks →
      i ∈ s.receiver.st.received) ∧
    ∀ U, ∃ out, optimizeTransfer s.sender.runtime U s.sender.packets = .ok out ∧
      ∀ q ∈ s.sender.packets, q ∉ out → q.seq ∈ s.receiver.st.received := by
  obtain ⟨hh, h⟩ := Adaptive.Tracked.run hX hrs (fecRsOf_eq_coder hfec) hst hrun
  refine ⟨fun i hi => h.completed _ hi i rfl, fun U => ?_⟩
  obtain ⟨out, hout, hmem⟩ := optimizeTransfer_spec (U := U) hh.enabled
    (by rw [hh.paths]; decide) s.sender.packets
  refine ⟨out, hout, fun q hq hdropped => ?_⟩
  have hdone : q.fecGroup ∈ s.sender.runtime.completedBlocks := by
    by_contra hopen
    exact hdropped ((hmem q).mpr ⟨hq, hopen⟩)
  exact h.completed _ hdone q.seq (hh.packets q hq).group.symm

end Invariant

/-- Two whole blocks of single bytes, sent packet by packet. -/
def sampleBlocks : AdaptiveSetup :=
  { sampleSetup with
    transfer := { sampleBytewise with src := ⟨[97, 98, 99, 97], by decide⟩ }
    batchSize := 1 }

theorem sampleBlocks_admissible : sampleBlocks.transfer.Admissible Crates.reference :=
  ⟨⟨by decide, by decide⟩, by decide, sample_admissible.rs⟩

def sampleBlank : IngestState := ⟨[0, 0, 0, 0], ∅, fun _ => none⟩

theorem sampleBlank_start : sampleBlocks.transfer.Start sampleBlank := .empty rfl

/-- Chunk 0 arrives, and all others are reported missing. So the next flush sends chunks 2 and 3
early; they complete their block, and the report is read before chunk 2 would go out in its turn. -/
def sampleReported : List AdaptiveLabel :=
  [.send (.fill 0)] ++ sampleFlush sampleUtilities ++
    [.send .check, .write .stream 0 none, .accept 0, .join 0 true, .hear, .send (.fill 0)] ++
    sampleFlush sampleUtilities ++
    [.send .check, .write .stream 0 none, .write .stream 0 none, .accept 1, .accept 2,
      .join 1 true, .join 2 true, .hear, .hear, .send (.fill 0), .send (.apply 1)]

/-- The pending packet of chunk 2 is dropped, and the receiver has the chunk. -/
theorem sample_completed_received :
    ∃ s, (adaptive sampleBlocks).exec (.init sampleBlocks sampleBlank) sampleReported = some s ∧
      s.sender.packets.map Packet.seq = [2] ∧ s.sender.runtime.completedBlocks = [1] ∧
      optimizeTransfer s.sender.runtime sampleUtilities s.sender.packets = .ok [] ∧
      ∀ q ∈ s.sender.packets, q.seq ∈ s.receiver.st.received := by
  have hexec : ((adaptive sampleBlocks).exec (.init sampleBlocks sampleBlank) sampleReported).map
      (fun s => (s.sender.packets.map Packet.seq, s.sender.runtime.completedBlocks,
        (optimizeTransfer s.sender.runtime sampleUtilities s.sender.packets).toOption)) =
      some ([2], [1], some []) := by decide +kernel
  obtain ⟨s, hs, hstate⟩ := Option.map_eq_some_iff.mp hexec
  simp only [Prod.mk.injEq] at hstate
  obtain ⟨hpackets, hblocks, hdropped⟩ := hstate
  obtain ⟨out, hout, hreceived⟩ := (completed_received sampleBlocks Crates.reference_lawful
    sampleBlocks_admissible.decodable rfl sampleBlank_start (.of_exec hs)).2 sampleUtilities
  rw [hout] at hdropped
  obtain rfl : out = [] := Option.some.inj hdropped
  exact ⟨s, hs, hpackets, hblocks, hout, fun q hq => hreceived q hq List.not_mem_nil⟩

end ScTransport
