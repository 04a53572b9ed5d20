import ScTransport.Adaptive.Blocks
import ScTransport.Infra.Pool

/-!
# What the streams deliver

A chunk may take the datagram path as its only copy, and is sent again only if a later flush finds
it reported. So a datagram that is lost near the end of the file is never replaced: `send_adaptive`
returns and the receiver waits.

- `Adaptive.Covered`: the receiver has the chunk or will get it from the streams alone
- `Adaptive.Accounted`: where each chunk the loop has passed can be
- `streams_deliver`: if a datagram carries only covered chunks, the streams deliver the file
-/

namespace ScTransport

open Infra

/-! ## Covered chunks -/

section Covered

variable (P : AdaptiveSetup) (s : Adaptive)

/-- The packets the sender has opened a stream for. -/
def Adaptive.streams : List Packet := s.wires.filterMap Written.onStream

/-- A packet with this frame is on a stream or waits for one. -/
def Adaptive.OnStream (key : FrameKey) : Prop :=
  ∃ q ∈ s.sender.streamQueue ++ s.streams, q.key = key

instance (key : FrameKey) : Decidable (s.OnStream key) := by
  unfold Adaptive.OnStream
  infer_instance

/-- The rows of group `g` that need no datagram. -/
def Adaptive.streamRows (g : Nat) : Finset Nat :=
  (Finset.range (P.transfer.fec.dataShards + P.transfer.fec.parityShards)).filter fun r =>
    s.OnStream (P.transfer.rowKey g r)

/-- Chunk `i` is recorded, or streams carry it or enough rows of its group. -/
def Adaptive.Covered (i : Nat) : Prop :=
  i ∈ s.receiver.st.received ∨ s.OnStream (.data i) ∨
    (∃ r ∈ s.streamRows P (i / P.transfer.width), r < P.transfer.fec.dataShards) ∧
      P.transfer.fec.dataShards ≤ (s.streamRows P (i / P.transfer.width)).card

instance (i : Nat) : Decidable (s.Covered P i) := by
  unfold Adaptive.Covered
  infer_instance

/-- A data packet is written as a datagram only if its chunk is covered without it. -/
def Adaptive.DatagramsCovered : AdaptiveLabel → Prop
  | .write path k cap => ∀ q ∈ (s.sender.queue path)[k]?, q.isParity = false →
      (writePacketOnPath q path cap).isDatagram = true → s.Covered P q.seq
  | _ => True

instance (l : AdaptiveLabel) : Decidable (s.DatagramsCovered P l) := by
  cases l <;> unfold Adaptive.DatagramsCovered <;> infer_instance

/-- Every stream the sender opened has been ingested. -/
def Adaptive.StreamsIngested : Prop :=
  ∀ r ∈ s.wires.zipIdx, r.1.isDatagram = false → r.2 ∈ s.receiver.ingested

instance : Decidable s.StreamsIngested := by
  unfold Adaptive.StreamsIngested
  infer_instance

end Covered

section Mono

variable {P : AdaptiveSetup} {s s' : Adaptive} {i : Nat}

theorem Adaptive.streams_append (snd : SendAdaptive) (w : Written) :
    { s with sender := snd, wires := s.wires ++ [w] }.streams
      = s.streams ++ w.onStream.toList := by
  simp only [Adaptive.streams, List.filterMap_append]
  cases hw : w.onStream <;> simp [hw]

/-- Nothing that is covered becomes uncovered. -/
theorem Adaptive.Covered.mono (h : s.Covered P i)
    (hrec : s.receiver.st.received ⊆ s'.receiver.st.received)
    (hstream : ∀ key, s.OnStream key → s'.OnStream key) : s'.Covered P i := by
  have hrows : ∀ g, s.streamRows P g ⊆ s'.streamRows P g := by
    intro g r hr
    obtain ⟨hlt, hr⟩ := Finset.mem_filter.mp hr
    exact Finset.mem_filter.mpr ⟨hlt, hstream _ hr⟩
  rcases h with h | h | ⟨⟨r, hr, hlt⟩, hcard⟩
  · exact Or.inl (hrec h)
  · exact Or.inr (Or.inl (hstream _ h))
  · exact Or.inr (Or.inr ⟨⟨r, hrows _ hr, hlt⟩, hcard.trans (Finset.card_le_card (hrows _))⟩)

theorem Adaptive.OnStream.of_subset {key : FrameKey} (h : s.OnStream key)
    (hsub : s.sender.streamQueue ++ s.streams ⊆ s'.sender.streamQueue ++ s'.streams) :
    s'.OnStream key := by
  obtain ⟨q, hq, hkey⟩ := h
  exact ⟨q, hsub hq, hkey⟩

/-- A packet leaves the queue for a stream or for a datagram. -/
theorem Adaptive.OnStream.write {key : FrameKey} {path : PathKind} {k : Nat} {cap : Option UInt16}
    {packet : Packet} (hk : (s.sender.queue path)[k]? = some packet) (h : s.OnStream key) :
    { s with
      sender := s.sender.unqueue path k
      wires := s.wires ++ [writePacketOnPath packet path cap] }.OnStream key := by
  obtain ⟨q, hq, hkey⟩ := h
  refine ⟨q, ?_, hkey⟩
  rw [Adaptive.streams_append]
  rcases List.mem_append.mp hq with hq | hq
  · cases path with
    | datagram => exact List.mem_append_left _ hq
    | stream =>
      rcases mem_eraseIdx_or hk hq with hq | rfl
      · exact List.mem_append_left _ hq
      · refine List.mem_append_right _ (List.mem_append_right _ ?_)
        exact List.mem_singleton.mpr rfl
  · exact List.mem_append_right _ (List.mem_append_left _ hq)

end Mono

/-! ## The invariant -/

/-- The loop over the chunks has ended, unless by an error. -/
def SendPc.last : SendPc → Bool
  | .applying last | .nacking last | .sending last => last
  | .draining => true
  | .returned ok => ok
  | .filling | .checking => false

/-- What the place in `send_adaptive` tells. -/
structure SendAdaptive.Placed (P : AdaptiveSetup) (s : SendAdaptive) : Prop where
  last : s.pc.last = true → P.manifest.numChunks ≤ s.next
  flushed : s.pc = .draining ∨ s.pc = .returned true → s.packets = []
  returned : s.pc = .returned true →
    s.streamQueue = [] ∧ s.datagramQueue = [] ∧ s.firstErr = false

structure Adaptive.Accounted (P : AdaptiveSetup) (s : Adaptive) : Prop where
  placed : s.sender.Placed P
  /-- Unless a pump has failed, a chunk is still to be sent, or covered. -/
  chunk : s.sender.firstErr = false → ∀ i < s.sender.next,
    (∃ q ∈ s.sender.packets, q.seq = i) ∨
    (∃ q ∈ s.sender.datagramQueue, q.isParity = false ∧ q.seq = i) ∨ s.Covered P i
  kept : ∀ k ∈ s.receiver.ingested, ∃ w, s.wires[k]? = some w ∧
    Kept P.transfer s.receiver.st w.packet

section Invariant

variable {P : AdaptiveSetup} {s s' : Adaptive} {st : IngestState}

theorem Adaptive.Accounted.init (P : AdaptiveSetup) (st : IngestState) :
    (Adaptive.init P st).Accounted P where
  placed := ⟨nofun, nofun, nofun⟩
  chunk := fun _ i hi => absurd hi (Nat.not_lt_zero i)
  kept := fun k hk => absurd hk (Finset.notMem_empty k)

theorem SendAdaptive.Placed.sent {snd snd' : SendAdaptive} (h : snd.Placed P) {l : SendLabel}
    (hm : SendMove P snd l snd') : snd'.Placed P := by
  have hlast := h.last
  cases hm with
  | skipped hpc hlt hmem =>
    refine { h with last := fun hl => ?_ }
    dsimp only at hl
    rw [hpc] at hl
    cases hl
  | unreadable hpc => exact ⟨nofun, nofun, nofun⟩
  | filled hpc hlt hframe hpc' =>
    rcases hpc' with rfl | rfl
    · exact ⟨nofun, nofun, nofun⟩
    · exact ⟨nofun, nofun, nofun⟩
  | ended hpc hall hpc' =>
    rcases hpc' with ⟨rfl, hnil⟩ | rfl
    · exact ⟨fun _ => hall, fun _ => hnil, nofun⟩
    · exact ⟨fun _ => hall, nofun, nofun⟩
  | applied hpc =>
    rw [hpc] at hlast
    exact ⟨hlast, nofun, nofun⟩
  | nacked hpc =>
    rw [hpc] at hlast
    exact ⟨hlast, nofun, nofun⟩
  | @piped U last sent hpc hrun =>
    rw [hpc] at hlast
    cases last
    · exact ⟨nofun, nofun, nofun⟩
    · exact ⟨hlast, fun _ => rfl, nofun⟩
  | checked hpc =>
    cases snd.firstErr
    · exact ⟨nofun, nofun, nofun⟩
    · exact ⟨nofun, nofun, nofun⟩
  | finished hpc hstream hdatagram =>
    have hnil := h.flushed (Or.inl hpc)
    rw [hpc] at hlast
    exact ⟨fun _ => hlast rfl, fun _ => hnil, fun hret => ⟨hstream, hdatagram, by simpa using hret⟩⟩

/-- Taking a packet out of a queue leaves the task where it is. -/
theorem SendAdaptive.Placed.unqueue {snd : SendAdaptive} (h : snd.Placed P) {path : PathKind}
    {k : Nat} (hk : k < (snd.queue path).length) (err : Bool) :
    { snd.unqueue path k with firstErr := err }.Placed P := by
  have hpc : snd.pc ≠ .returned true := by
    intro hpc
    obtain ⟨hstream, hdatagram, -⟩ := h.returned hpc
    cases path with
    | stream => simp [SendAdaptive.queue, hstream] at hk
    | datagram => simp [SendAdaptive.queue, hdatagram] at hk
  cases path <;> exact { h with returned := fun hret => absurd hret hpc }

/-- The flush hands every chunk of its batch to a path, or the receiver has it. -/
theorem Adaptive.Accounted.piped (hh : s.Honest P) (ht : s.Tracked P) {U : Utilities}
    {sent : List (Nat × Packet)}
    (hrun : runPipeline P.crates s.sender.runtime U P.parityCap s.sender.packets = .ok sent)
    {q : Packet} (hq : q ∈ s.sender.packets) :
    (∃ r ∈ handedTo 1 sent, r.isParity = false ∧ r.seq = q.seq) ∨
    (∃ r ∈ handedTo 0 sent, r.key = .data q.seq) ∨ q.seq ∈ s.receiver.st.received := by
  by_cases hopen : q.fecGroup ∈ s.sender.runtime.completedBlocks
  · exact Or.inr (Or.inr (ht.completed _ hopen q.seq (hh.packets q hq).group.symm))
  obtain ⟨⟨path, r⟩, hr, hpath, hkey⟩ := (hh.piped hrun).2 q hq hopen
  rcases hpath with rfl | rfl
  · exact Or.inr (Or.inl ⟨r, mem_handedTo.mpr hr, hkey⟩)
  · exact Or.inl ⟨r, mem_handedTo.mpr hr, Packet.key_eq_data hkey⟩

/-- The chunks the loop has passed, after a step of the sender's task. -/
theorem Adaptive.Accounted.sent (hskip : P.skip = ∅) (hh : s.Honest P) (ht : s.Tracked P)
    (h : s.Accounted P) {l : SendLabel} {snd : SendAdaptive} (hm : SendMove P s.sender l snd) :
    { s with sender := snd }.Accounted P := by
  have hplaced := h.placed.sent hm
  cases hm with
  | skipped hpc hlt hmem =>
    rw [hskip] at hmem
    exact absurd hmem (Finset.notMem_empty _)
  | unreadable hpc => exact { h with placed := hplaced }
  | filled hpc hlt hframe hpc' =>
    refine ⟨hplaced, fun herr i hi => ?_, h.kept⟩
    rcases Nat.lt_succ_iff_lt_or_eq.mp hi with hi | rfl
    · rcases h.chunk herr i hi with ⟨q, hq, hseq⟩ | hrest
      · exact Or.inl ⟨q, List.mem_append_left _ hq, hseq⟩
      · exact Or.inr hrest
    · exact Or.inl ⟨_, List.mem_append_right _ (List.mem_singleton.mpr rfl), rfl⟩
  | ended hpc hall hpc' => exact { h with placed := hplaced }
  | applied hpc => exact { h with placed := hplaced }
  | nacked hpc =>
    refine ⟨hplaced, fun herr i hi => ?_, h.kept⟩
    rcases h.chunk herr i hi with ⟨q, hq, hseq⟩ | hrest
    · refine Or.inl ⟨q, ?_, hseq⟩
      exact (pushNackRetransmits_spec fun fb hfb => hh.missing fb (Or.inr hfb)).1 q hq
    · exact Or.inr hrest
  | piped hpc hrun =>
    refine ⟨hplaced, fun herr i hi => Or.inr ?_, h.kept⟩
    rcases h.chunk herr i hi with ⟨q, hq, rfl⟩ | ⟨q, hq, hseq⟩ | hcov
    · rcases Adaptive.Accounted.piped hh ht hrun hq with ⟨r, hr, hdata⟩ | ⟨r, hr, hkey⟩ | hrec
      · exact Or.inl ⟨r, List.mem_append_right _ hr, hdata⟩
      · refine Or.inr (Or.inr (Or.inl ⟨r, ?_, hkey⟩))
        exact List.mem_append_left _ (List.mem_append_right _ hr)
      · exact Or.inr (Or.inl hrec)
    · exact Or.inl ⟨q, List.mem_append_left _ hq, hseq⟩
    · refine Or.inr (hcov.mono subset_rfl fun key hkey => hkey.of_subset ?_)
      intro q hq
      rcases List.mem_append.mp hq with hq | hq
      · exact List.mem_append_left _ (List.mem_append_left _ hq)
      · exact List.mem_append_right _ hq
  | checked hpc => exact { h with placed := hplaced }
  | finished hpc hstream hdatagram => exact { h with placed := hplaced }

/-- A written packet is on a stream, or its chunk was covered before. -/
theorem Adaptive.Accounted.wrote (h : s.Accounted P) {path : PathKind} {k : Nat}
    {cap : Option UInt16} {packet : Packet} (hk : (s.sender.queue path)[k]? = some packet)
    (hok : s.DatagramsCovered P (.write path k cap)) :
    { s with
      sender := s.sender.unqueue path k
      wires := s.wires ++ [writePacketOnPath packet path cap] }.Accounted P := by
  have hcov : ∀ {i : Nat}, s.Covered P i →
      { s with
        sender := s.sender.unqueue path k
        wires := s.wires ++ [writePacketOnPath packet path cap] }.Covered P i := by
    intro i hi
    exact hi.mono (by cases path <;> exact subset_rfl) fun key hkey => hkey.write hk
  have hlt : k < (s.sender.queue path).length := (List.getElem?_eq_some_iff.mp hk).1
  refine ⟨?_, fun herr i hi => ?_, fun j hj => ?_⟩
  · have := h.placed.unqueue hlt s.sender.firstErr
    cases path <;> exact this
  · have hold := h.chunk (by cases path <;> exact herr) i (by cases path <;> exact hi)
    cases path with
    | stream =>
      rcases hold with hq | hq | hq
      · exact Or.inl hq
      · exact Or.inr (Or.inl hq)
      · exact Or.inr (Or.inr (hcov hq))
    | datagram =>
      rcases hold with hq | ⟨q, hq, hdata, hseq⟩ | hq
      · exact Or.inl hq
      · rcases mem_eraseIdx_or hk hq with hq | rfl
        · exact Or.inr (Or.inl ⟨q, hq, hdata, hseq⟩)
        · right
          right
          cases hw : (writePacketOnPath q .datagram cap).isDatagram with
          | true =>
            rw [← hseq]
            exact hcov (hok q hk hdata hw)
          | false =>
            refine Or.inr (Or.inl ⟨q, List.mem_append_right _ ?_, ?_⟩)
            · rw [Adaptive.streams_append, Written.onStream_of_isDatagram hw,
                Written.packet_writePacketOnPath]
              exact List.mem_append_right _ (List.mem_singleton.mpr rfl)
            · rw [Packet.key_data hdata, hseq]
      · exact Or.inr (Or.inr (hcov hq))
  · obtain ⟨w, hw, hkept⟩ := h.kept j hj
    exact ⟨w, getElem?_append_of_some hw _, hkept⟩

theorem Adaptive.Accounted.step (hX : P.crates.Lawful) (hrs : P.transfer.Decodable P.crates)
    (hcoder : P.fecRs = P.transfer.coder) (hskip : P.skip = ∅) (hh : s.Honest P)
    (ht : s.Tracked P) (h : s.Accounted P) {l : AdaptiveLabel} (hok : s.DatagramsCovered P l)
    (hs : (adaptive P).step s l = some s') : s'.Accounted P := by
  cases AdaptiveMove.of_step hs with
  | sent hm => exact h.sent hskip hh ht hm
  | heard hq => exact { h with placed := { h.placed with } }
  | wrote hk => exact h.wrote hk hok
  | @unwritten path k hk =>
    have hplaced := h.placed.unqueue hk true
    cases path <;> exact { h with placed := hplaced, chunk := nofun }
  | accepted hw => exact { h with }
  | @ingested l k g w st heard inflight hw hsmall hrun =>
    rw [hcoder] at hrun
    obtain ⟨hadv, hkept⟩ := (hh.wires w (List.mem_of_getElem? hw)).ingested hX hrs hsmall ht.sound
      ht.small hrun
    refine ⟨h.placed, fun herr i hi => ?_, fun j hj => ?_⟩
    · rcases h.chunk herr i hi with hq | hq | hcov
      · exact Or.inl hq
      · exact Or.inr (Or.inl hq)
      · exact Or.inr (Or.inr (hcov.mono hadv.mono fun key hkey => hkey))
    · rcases Finset.mem_insert.mp hj with rfl | hj
      · exact ⟨w, hw, hkept⟩
      · obtain ⟨w', hw', hkept'⟩ := h.kept j hj
        exact ⟨w', hw', hkept'.advance hadv⟩
  | gaveUp hmissing hall => exact { h with }
  | stopped hpc => exact { h with }

/-! ## The end of a run -/

/-- A kept row is there. -/
theorem Kept.have_row {t : Transfer} {q : Packet} {g r : Nat} (hq : Kept t st q)
    (hkey : q.key = t.rowKey g r) (hds : 0 < t.fec.dataShards) (hps : 0 < t.fec.parityShards) :
    Have t st g r := by
  unfold Transfer.rowKey at hkey
  split at hkey
  · next hr =>
    obtain ⟨hdata, hseq⟩ := Packet.key_eq_data hkey
    obtain ⟨hdiv, hmod⟩ := Transfer.slot_div_mod (g := g) hr
    rw [t.width_eq hds] at hseq
    have hrow := hq.data hdata hds hps
    rwa [hseq, hdiv, hmod] at hrow
  · next hr =>
    obtain ⟨hpar, rfl, hidx⟩ := Packet.key_eq_parity hkey
    have hrow := hq.parity hpar hds hps
    rwa [hidx, Nat.add_sub_of_le (Nat.le_of_not_lt hr)] at hrow

/-- A stream that has been read is kept. -/
theorem Adaptive.OnStream.kept (h : s.Accounted P) (hqueue : s.sender.streamQueue = [])
    (hall : s.StreamsIngested) {key : FrameKey} (hon : s.OnStream key) :
    ∃ q : Packet, q.key = key ∧ Kept P.transfer s.receiver.st q := by
  obtain ⟨q, hq, hkey⟩ := hon
  rw [hqueue, List.nil_append] at hq
  obtain ⟨w, hw, hstream⟩ := List.mem_filterMap.mp hq
  cases w with
  | datagram packet fits => cases hstream
  | stream packet =>
    cases hstream
    obtain ⟨k, hk⟩ := List.mem_iff_getElem?.mp hw
    obtain ⟨w', hw', hkept⟩ := h.kept k (hall _ (List.mk_mem_zipIdx_iff_getElem?.mpr hk) rfl)
    rw [hk] at hw'
    cases hw'
    exact ⟨q, hkey, hkept⟩

/-- Without parity rows, enough rows of a group are all its chunks. -/
theorem Adaptive.onStream_of_no_parity (hps : P.transfer.fec.parityShards = 0) {i : Nat}
    (hds : 0 < P.transfer.fec.dataShards)
    (hcard : P.transfer.fec.dataShards ≤ (s.streamRows P (i / P.transfer.width)).card) :
    s.OnStream (.data i) := by
  have hsub : s.streamRows P (i / P.transfer.width) ⊆ Finset.range P.transfer.fec.dataShards := by
    intro r hr
    have hr := (Finset.mem_filter.mp hr).1
    rwa [hps, Nat.add_zero] at hr
  have heq := Finset.eq_of_subset_of_card_le hsub (by rwa [Finset.card_range])
  have hmod : i % P.transfer.width < P.transfer.fec.dataShards := by
    rw [← P.transfer.width_eq hds]
    exact Nat.mod_lt _ P.transfer.width_pos
  have hrow : i % P.transfer.width ∈ s.streamRows P (i / P.transfer.width) := by
    rw [heq]
    exact Finset.mem_range.mpr hmod
  have hon := (Finset.mem_filter.mp hrow).2
  rwa [Transfer.rowKey, if_pos hmod, Nat.div_add_mod'] at hon

/-- **Covered chunks are recorded once the streams are read.** -/
theorem Adaptive.Covered.received (ht : s.Tracked P) (h : s.Accounted P)
    (hqueue : s.sender.streamQueue = []) (hall : s.StreamsIngested) {i : Nat}
    (hi : s.Covered P i) : i ∈ s.receiver.st.received := by
  have hsingle : s.OnStream (.data i) → i ∈ s.receiver.st.received := by
    intro hon
    obtain ⟨q, hkey, hq⟩ := hon.kept h hqueue hall
    obtain ⟨hdata, rfl⟩ := Packet.key_eq_data hkey
    exact hq.received hdata
  rcases hi with hi | hi | ⟨⟨r₀, hr₀, hlt⟩, hcard⟩
  · exact hi
  · exact hsingle hi
  · have hds := Nat.zero_lt_of_lt hlt
    rcases Nat.eq_zero_or_pos P.transfer.fec.parityShards with hps | hps
    · exact hsingle (Adaptive.onStream_of_no_parity hps hds hcard)
    · have hhave : ∀ r ∈ s.streamRows P (i / P.transfer.width),
          Have P.transfer s.receiver.st (i / P.transfer.width) r := by
        intro r hr
        obtain ⟨q, hkey, hq⟩ := (Finset.mem_filter.mp hr).2.kept h hqueue hall
        exact hq.have_row hkey hds hps
      exact GroupReceived.of_complete hds
        (complete_of_have ht.sound ht.drained _ hhave ⟨r₀, hr₀, hlt⟩ hcard) i rfl

theorem Adaptive.Accounted.run (hX : P.crates.Lawful) (hrs : P.transfer.Decodable P.crates)
    (hcoder : P.fecRs = P.transfer.coder) (hskip : P.skip = ∅) (hst : P.transfer.Start st)
    (hrun : (adaptive P).Reach (Adaptive.DatagramsCovered P) (Adaptive.init P st) s) :
    s.Accounted P := by
  induction hrun with
  | refl => exact .init P st
  | step hrun hok hs ih =>
    obtain ⟨hh, ht⟩ := Adaptive.Tracked.run hX hrs hcoder hst hrun
    exact ih.step hX hrs hcoder hskip hh ht hok hs

/--
**The streams deliver the file.** If no data packet is written as a datagram unless its chunk is
covered without it, then once `send_adaptive` has returned and the streams are ingested, every
chunk is recorded, whichever datagrams were lost.
-/
theorem streams_deliver (P : AdaptiveSetup) (hX : P.crates.Lawful)
    (hrs : P.transfer.Decodable P.crates) (hfec : fecRsOf P.crates P.manifest = .ok P.fecRs)
    (hskip : P.skip = ∅) (hst : P.transfer.Start st)
    (hrun : (adaptive P).Reach (Adaptive.DatagramsCovered P) (Adaptive.init P st) s)
    (hret : s.sender.pc = .returned true) (hall : s.StreamsIngested) :
    ∀ i < P.manifest.numChunks, i ∈ s.receiver.st.received := by
  have hcoder := fecRsOf_eq_coder hfec
  obtain ⟨-, ht⟩ := Adaptive.Tracked.run hX hrs hcoder hst hrun
  have h := Adaptive.Accounted.run hX hrs hcoder hskip hst hrun
  obtain ⟨hstream, hdatagram, herr⟩ := h.placed.returned hret
  have hlast : P.manifest.numChunks ≤ s.sender.next := h.placed.last (by rw [hret]; rfl)
  intro i hi
  rcases h.chunk herr i (hi.trans_le hlast) with ⟨q, hq, -⟩ | ⟨q, hq, -⟩ | hcov
  · rw [h.placed.flushed (Or.inr hret)] at hq
    exact absurd hq List.not_mem_nil
  · rw [hdatagram] at hq
    exact absurd hq List.not_mem_nil
  · exact hcov.received ht h hstream hall

end Invariant

/-- A pump writes `n` packets in order. -/
def sampleWrites (path : PathKind) (n : Nat) : List AdaptiveLabel :=
  List.replicate n (.write path 0 (some 1200))

/-- Streams are read one after the other. -/
def sampleReads (ks : List Nat) : List AdaptiveLabel :=
  ks.flatMap fun k => [.accept k, .join k true]

/-- Every packet goes out on both paths, the datagrams first; all of them are lost. -/
def sampleTwice : List AdaptiveLabel :=
  [.send (.fill 0), .send (.fill 0)] ++
    sampleFlush { sampleUtilities with sendTwice := fun _ => true } ++
    [.send .check, .send (.fill 0), .send .endLoop] ++
    sampleFlush { sampleUtilities with sendTwice := fun _ => true } ++
    sampleWrites .datagram 5 ++ sampleWrites .stream 5 ++ [.send .finish] ++
    sampleReads [5, 6, 7, 8, 9]

theorem sample_streams_deliver :
    ∃ s, (adaptive sampleSetup).execWhere (fun s l => s.DatagramsCovered sampleSetup l)
        (.init sampleSetup sampleFresh) sampleTwice = some s ∧
      ∀ i < sampleSetup.manifest.numChunks, i ∈ s.receiver.st.received := by
  have hexec : ((adaptive sampleSetup).execWhere (fun s l => s.DatagramsCovered sampleSetup l)
      (.init sampleSetup sampleFresh) sampleTwice).map
      (fun s => decide (s.sender.pc = .returned true ∧ s.StreamsIngested)) = some true := by
    decide +kernel
  obtain ⟨s, hs, hend⟩ := Option.map_eq_some_iff.mp hexec
  obtain ⟨hret, hall⟩ := of_decide_eq_true hend
  have hrun := Lts.Reach.of_execWhere hs
  simp only [decide_eq_true_eq] at hrun
  exact ⟨s, hs, streams_deliver sampleSetup Crates.reference_lawful
    sampleBytewise_admissible.decodable rfl rfl sampleFresh_start hrun hret hall⟩

/-- Chunk 2 has no group to recover it from and takes the datagram path, where it is lost. -/
def sampleTail : List AdaptiveLabel :=
  [.send (.fill 0), .send (.fill 0)] ++ sampleFlush sampleUtilities ++
    [.send .check, .send (.fill 0), .send .endLoop] ++
    sampleFlush { sampleUtilities with explore := fun _ => true } ++
    sampleWrites .stream 4 ++ sampleWrites .datagram 1 ++ [.send .finish] ++
    sampleReads [0, 1, 2, 3]

/-- The sender has returned, the streams are ingested, and the last chunk is missing. -/
theorem sample_tail_lost :
    ∃ s, (adaptive sampleSetup).exec (.init sampleSetup sampleFresh) sampleTail = some s ∧
      s.sender.pc = .returned true ∧ s.StreamsIngested ∧
      2 < sampleSetup.manifest.numChunks ∧ 2 ∉ s.receiver.st.received := by
  have hexec : ((adaptive sampleSetup).exec (.init sampleSetup sampleFresh) sampleTail).map
      (fun s => decide (s.sender.pc = .returned true ∧ s.StreamsIngested ∧
        2 < sampleSetup.manifest.numChunks ∧ 2 ∉ s.receiver.st.received)) = some true := by
    decide +kernel
  obtain ⟨s, hs, hend⟩ := Option.map_eq_some_iff.mp hexec
  exact ⟨s, hs, of_decide_eq_true hend⟩

end ScTransport
