import ScTransport.Pipeline.Optimize

/-!
# The encoder task

The second stage of `AutopilotRuntime::run_pipeline` collects packets by FEC group. A group is
encoded as soon as all its packets are in the stash; what is left at the end goes out as it is.
Packets with the same `seq` replace each other in the stash.

* `drainFecBlockFromPackets_spec` — a drain takes a whole block out of the buffer, or nothing
* `drainLoop_spec` — draining a buffer ends
* `encodeStage_spec` — the task loses no packet, and adds only parity of complete groups
-/

namespace ScTransport

open Infra

/-! ## The encoder's stash -/

/-- `stash_fec_packet` on one buffer: replace the packet with the same `seq`, or append. -/
def stashPacket (buf : List Packet) (pkt : Packet) : List Packet :=
  match buf.findIdx? fun x => x.seq == pkt.seq with
  | some pos => buf.set pos pkt
  | none => buf ++ [pkt]

/-- Where the packets `base`, …, `base + n - 1` are; `none` if one of them is missing. -/
def blockPositions (packets : List Packet) : Nat → Nat → Option (List Nat)
  | _, 0 => some []
  | base, n + 1 =>
    match packets.findIdx? fun p => p.seq == base with
    | none => none
    | some pos => (blockPositions packets (base + 1) n).map (pos :: ·)

/-- `Vec::remove` at each of the positions in turn: the packets removed and what is left. -/
def removeAll : List Nat → List Packet → Except Fault (List Packet × List Packet)
  | [], packets => .ok ([], packets)
  | pos :: rest, packets =>
    match packets[pos]? with
    | none => .error .outOfRange
    | some pkt =>
      match removeAll rest (packets.eraseIdx pos) with
      | .error e => .error e
      | .ok (block, left) => .ok (pkt :: block, left)

/-- `drain_fec_block_from_packets`: the encoded block and the packets left in the buffer. -/
def drainFecBlockFromPackets (X : Crates) (packets : List Packet) (fecGroup : Nat)
    (fec : FecEncoder) : Except Fault (Option (List Packet × List Packet)) :=
  let n := max fec.dataShards 1
  let base := satMul fecGroup n
  match blockPositions packets base (satAdd base n - base) with
  | none => .ok none
  | some positions =>
    match removeAll (positions.insertionSort (· ≥ ·)) packets with
    | .error e => .error e
    | .ok (block, left) => .ok (some (fec.encodeBlock X block, left))

/-- `while let Some(encoded) = drain_fec_block_from_packets(..)`. -/
def drainLoop (X : Crates) (fecGroup : Nat) (fec : FecEncoder) :
    Nat → List Packet → Except Fault (List Packet × List Packet)
  | 0, _ => .error .outOfFuel
  | fuel + 1, buf =>
    match drainFecBlockFromPackets X buf fecGroup fec with
    | .error e => .error e
    | .ok none => .ok ([], buf)
    | .ok (some (encoded, left)) =>
      match drainLoop X fecGroup fec fuel left with
      | .error e => .error e
      | .ok (more, rest) => .ok (encoded ++ more, rest)

/-! ## The encoder task -/

/-- The stash, with the empty list for a missing key, and what went to the next stage. -/
structure EncoderTask where
  stash : Nat → List Packet
  out : List Packet

/-- Replaces the buffer of group `g` and sends `emitted` on. -/
def EncoderTask.put (task : EncoderTask) (g : Nat) (buf emitted : List Packet) : EncoderTask :=
  { stash := Function.update task.stash g buf, out := task.out ++ emitted }

/-- The `fec_for` closure of the encoder task. The sum wraps, as it does in release builds. -/
def fecFor (fec : FecEncoder) (fecCap : Nat) (stragglerIds : List Nat) (g : Nat) : FecEncoder :=
  if fecCap = 0 then { fec with parityShards := 0 }
  else if stragglerIds.contains g then
    { fec with
      parityShards := min (max (min ((fec.parityShards + 1) % 2 ^ 64) (fec.dataShards / 2))
        fec.parityShards) fecCap }
  else { fec with parityShards := min fec.parityShards fecCap }

section Task

variable (X : Crates) (fecOf : Nat → FecEncoder)

/-- Encodes the blocks of a group that are complete in the stash. -/
def drainGroup (g : Nat) (task : EncoderTask) : Except Fault EncoderTask :=
  match drainLoop X g (fecOf g) ((task.stash g).length + 1) (task.stash g) with
  | .error e => .error e
  | .ok (encoded, left) => .ok (task.put g left encoded)

/-- The task's loop over the packets it receives. -/
def encodeAll : List Packet → EncoderTask → Except Fault EncoderTask
  | [], task => .ok task
  | p :: rest, task =>
    let stashed := task.put p.fecGroup (stashPacket (task.stash p.fecGroup) p) []
    match drainGroup X fecOf p.fecGroup stashed with
    | .error e => .error e
    | .ok task' => encodeAll rest task'

/-- The task's last loop, over the groups in the stash. -/
def flushStash : List Nat → EncoderTask → Except Fault EncoderTask
  | [], task => .ok task
  | g :: rest, task =>
    match drainGroup X fecOf g task with
    | .error e => .error e
    | .ok task' => flushStash rest (task'.put g [] (task'.stash g))

end Task

/-- The encoder task from its first packet to its end. -/
def encodeStage (X : Crates) (A : AutopilotRuntime) (U : Utilities) (fecParityCap : Nat)
    (prioritized : List Packet) : Except Fault (List Packet) :=
  let blocksHint := blocksFromPackets A U prioritized
  let fecOf := fecFor A.fec fecParityCap (detectStragglers U prioritized blocksHint)
  match encodeAll X fecOf prioritized ⟨fun _ => [], []⟩ with
  | .error e => .error e
  | .ok task =>
    match flushStash X fecOf (groupKeys U.stashLe prioritized) task with
    | .error e => .error e
    | .ok task => .ok task.out

/-! ## Draining a buffer -/

theorem mem_stashPacket {buf : List Packet} {pkt q : Packet} (h : q ∈ stashPacket buf pkt) :
    q ∈ buf ∨ q = pkt := by
  unfold stashPacket at h
  split at h
  · exact List.mem_or_eq_of_mem_set h
  · simpa using h

theorem self_mem_stashPacket (buf : List Packet) (pkt : Packet) : pkt ∈ stashPacket buf pkt := by
  unfold stashPacket
  split
  · next pos hpos =>
    obtain ⟨hlt, -⟩ := List.findIdx?_eq_some_iff_getElem.mp hpos
    exact List.mem_set hlt _
  · simp

/-- Only a packet with the same `seq` is replaced. -/
theorem mem_stashPacket_of_ne {buf : List Packet} {pkt q : Packet} (hq : q ∈ buf)
    (hne : q.seq ≠ pkt.seq) : q ∈ stashPacket buf pkt := by
  unfold stashPacket
  split
  · next pos hpos =>
    obtain ⟨hlt, hseq, -⟩ := List.findIdx?_eq_some_iff_getElem.mp hpos
    obtain ⟨i, hi, rfl⟩ := List.mem_iff_getElem.mp hq
    have hip : pos ≠ i := by
      rintro rfl
      exact hne (by simpa using hseq)
    exact List.mem_iff_getElem.mpr ⟨i, by simpa using hi, List.getElem_set_ne hip _⟩
  · exact List.mem_append_left _ hq

/-- The positions found hold the packets `base`, …, `base + n - 1`, in this order. -/
theorem blockPositions_spec {packets : List Packet} :
    ∀ {n base : Nat} {positions : List Nat}, blockPositions packets base n = some positions →
      positions.map (fun pos => packets[pos]?.map Packet.seq) = (List.range' base n).map some
  | 0, base, positions, h => by
    cases h
    rfl
  | n + 1, base, positions, h => by
    unfold blockPositions at h
    split at h
    · cases h
    · next pos hpos =>
      obtain ⟨rest, hrest, rfl⟩ := Option.map_eq_some_iff.mp h
      obtain ⟨hlt, hseq, -⟩ := List.findIdx?_eq_some_iff_getElem.mp hpos
      have hseq : packets[pos].seq = base := by simpa using hseq
      rw [List.map_cons, blockPositions_spec hrest, List.getElem?_eq_getElem hlt,
        List.range'_succ, List.map_cons, Option.map_some, hseq]

/-- From the back to the front, no position is invalidated by an earlier removal. -/
theorem removeAll_spec :
    ∀ (positions : List Nat) (packets : List Packet), positions.Pairwise (· > ·) →
      (∀ pos ∈ positions, pos < packets.length) →
      ∃ block left, removeAll positions packets = .ok (block, left) ∧
        block.map some = positions.map (fun pos => packets[pos]?) ∧ packets.Perm (block ++ left)
  | [], packets, _, _ => ⟨[], packets, rfl, rfl, List.Perm.refl _⟩
  | pos :: rest, packets, hsorted, hlt => by
    rw [List.pairwise_cons] at hsorted
    have hpos : pos < packets.length := hlt pos List.mem_cons_self
    obtain ⟨block, left, hrest, hblock, hperm⟩ := removeAll_spec rest (packets.eraseIdx pos)
      hsorted.2 (fun pos' hmem => by
        have := hsorted.1 pos' hmem
        rw [List.length_eraseIdx_of_lt hpos]
        omega)
    refine ⟨packets[pos] :: block, left, ?_, ?_, ?_⟩
    · unfold removeAll
      rw [List.getElem?_eq_getElem hpos]
      simp only [hrest]
    · rw [List.map_cons, hblock, List.map_cons, List.getElem?_eq_getElem hpos]
      congr 1
      refine List.map_congr_left fun pos' hmem => ?_
      rw [List.getElem?_eraseIdx_of_lt (hsorted.1 pos' hmem)]
    · exact (List.getElem_cons_eraseIdx_perm hpos).symm.trans (hperm.cons _)

/-- A drain finds nothing if one of the packets it looks for is missing. -/
theorem blockPositions_eq_none {packets : List Packet} :
    ∀ {n base : Nat}, blockPositions packets base n = none →
      ∃ seq ∈ List.range' base n, seq ∉ packets.map Packet.seq
  | n + 1, base, h => by
    unfold blockPositions at h
    split at h
    · next hpos =>
      refine ⟨base, by simp, fun hmem => ?_⟩
      obtain ⟨q, hq, hseq⟩ := List.mem_map.mp hmem
      simpa [hseq] using List.findIdx?_eq_none_iff.mp hpos q hq
    · obtain ⟨seq, hseq, hmissing⟩ := blockPositions_eq_none (Option.map_eq_none_iff.mp h)
      exact ⟨seq, by rw [List.range'_succ]; exact List.mem_cons_of_mem _ hseq, hmissing⟩

/-- The `seq`s a drain looks for: those of the group, short of the largest number. -/
def blockSeqs (fec : FecEncoder) (g : Nat) : List Nat :=
  let n := max fec.dataShards 1
  List.range' (satMul g n) (satAdd (satMul g n) n - satMul g n)

/-- What one drain does: nothing if a packet is missing, else it takes the block out. -/
theorem drainFecBlockFromPackets_cases (X : Crates) (fec : FecEncoder) (g : Nat)
    (packets : List Packet) :
    (drainFecBlockFromPackets X packets g fec = .ok none ∧
      ∃ seq ∈ blockSeqs fec g, seq ∉ packets.map Packet.seq) ∨
    ∃ block left,
      drainFecBlockFromPackets X packets g fec = .ok (some (fec.encodeBlock X block, left)) ∧
      packets.Perm (block ++ left) ∧ (block.map Packet.seq).Perm (blockSeqs fec g) := by
  unfold drainFecBlockFromPackets blockSeqs
  dsimp only
  generalize satMul g (max fec.dataShards 1) = base
  generalize satAdd base (max fec.dataShards 1) - base = k
  split
  · next hnone => exact Or.inl ⟨rfl, blockPositions_eq_none hnone⟩
  · next positions hpos =>
    have hseqs := blockPositions_spec hpos
    have hnodup : positions.Nodup := by
      refine List.Nodup.of_map (fun pos => packets[pos]?.map Packet.seq) ?_
      rw [hseqs]
      exact List.Nodup.map (Option.some_injective Nat) List.nodup_range'
    have hperm := List.perm_insertionSort (fun a b : Nat => a ≥ b) positions
    have hsorted : (positions.insertionSort (· ≥ ·)).Pairwise (· > ·) := by
      have hge := List.pairwise_insertionSort (fun a b : Nat => a ≥ b) positions
      have hne := (hperm.nodup_iff).mpr hnodup
      exact (hge.and hne).imp fun h => lt_of_le_of_ne h.1 (Ne.symm h.2)
    obtain ⟨block, left, hrem, hblock, hpk⟩ := removeAll_spec _ packets hsorted
      (fun pos hmem => by
        have hin : packets[pos]?.map Packet.seq ∈ (List.range' base k).map some :=
          hseqs ▸ List.mem_map_of_mem (hperm.mem_iff.mp hmem)
        obtain ⟨i, -, hi⟩ := List.mem_map.mp hin
        obtain ⟨q, hq, -⟩ := Option.map_eq_some_iff.mp hi.symm
        exact (List.getElem?_eq_some_iff.mp hq).1)
    refine Or.inr ⟨block, left, by simp only [hrem], hpk, ?_⟩
    -- the block holds the packets at the sorted positions
    have hsome : ((block.map Packet.seq).map some).Perm ((List.range' base k).map some) := by
      have hmap : (block.map Packet.seq).map some =
          (positions.insertionSort (· ≥ ·)).map fun pos => packets[pos]?.map Packet.seq := by
        have := congrArg (List.map (Option.map Packet.seq)) hblock
        rw [List.map_map, List.map_map] at this
        rw [List.map_map]
        exact this
      rw [hmap, ← hseqs]
      exact hperm.map _
    exact (List.map_perm_map_iff (Option.some_injective Nat)).mp hsome

/--
What one drain does below the end of the numbering: the packets it takes out are a whole block
unless the numbering ends within it.
-/
theorem drainFecBlockFromPackets_spec (X : Crates) {fec : FecEncoder} {g : Nat}
    (hg : g * max fec.dataShards 1 < u64Max) (packets : List Packet) :
    drainFecBlockFromPackets X packets g fec = .ok none ∨
    ∃ block left k,
      drainFecBlockFromPackets X packets g fec = .ok (some (fec.encodeBlock X block, left)) ∧
      0 < k ∧ k ≤ max fec.dataShards 1 ∧ packets.Perm (block ++ left) ∧
      (block.map Packet.seq).Perm (List.range' (g * max fec.dataShards 1) k) := by
  have hbase : satMul g (max fec.dataShards 1) = g * max fec.dataShards 1 := by
    unfold satMul
    omega
  rcases drainFecBlockFromPackets_cases X fec g packets with ⟨hd, -⟩ |
    ⟨block, left, hd, hperm, hseqs⟩
  · exact Or.inl hd
  · rw [blockSeqs, hbase] at hseqs
    refine Or.inr ⟨block, left, _, hd, ?_, ?_, hperm, hseqs⟩
    · unfold satAdd
      omega
    · unfold satAdd
      omega

/-! ## What the encoder task may emit -/

/-- A parity packet of a group all of whose data packets are in the batch. -/
structure ParityOf (fec : FecEncoder) (cap : Nat) (batch : List Packet) (r : Packet) : Prop where
  isParity : r.isParity = true
  parityIndex : r.parityIndex < cap
  complete : ∀ i < fec.dataShards, ∃ q ∈ batch, q.seq = r.fecGroup * fec.dataShards + i

/-- What the task emits: packets of the batch, and parity of blocks that are whole in it. -/
def Emitted (X : Crates) (fec : FecEncoder) (cap : Nat) (batch : List Packet) (r : Packet) : Prop :=
  r ∈ batch ∨ ∃ g p' block, p' ≤ cap ∧ (∀ q ∈ block, q ∈ batch ∧ q.fecGroup = g) ∧
    (block.map Packet.seq).Perm (List.range' (g * fec.dataShards) fec.dataShards) ∧
    r ∈ FecEncoder.encodeBlock X ⟨fec.dataShards, p'⟩ block ∧ r.isParity = true

/-- Some packet of `l` is a data packet with the `seq` and the payload of `q`. -/
def Carries (l : List Packet) (q : Packet) : Prop :=
  ∃ r ∈ l, r.isParity = false ∧ r.seq = q.seq ∧ r.payload = q.payload

theorem Carries.of_mem {l : List Packet} {q : Packet} (hq : q ∈ l) (hdata : q.isParity = false) :
    Carries l q := ⟨q, hq, hdata, rfl, rfl⟩

theorem Carries.mono {l l' : List Packet} {q : Packet} (h : Carries l q)
    (hsub : ∀ r ∈ l, r.isParity = false → r ∈ l') : Carries l' q := by
  obtain ⟨r, hr, hrest⟩ := h
  exact ⟨r, hsub r hr hrest.1, hrest⟩

/-- A batch of data packets, with `seq`s below the largest number; so with those below
`2 ^ 64 - data_shards`, whose groups end before it. -/
structure DataPackets (fec : FecEncoder) (batch : List Packet) : Prop where
  dataShards : 1 ≤ fec.dataShards
  isData : ∀ q ∈ batch, q.isParity = false
  group : ∀ q ∈ batch, q.fecGroup = q.seq / fec.dataShards
  seq : ∀ q ∈ batch, q.seq < u64Max
  payload : ∀ q ∈ batch, ∀ q' ∈ batch, q.seq = q'.seq → q.payload = q'.payload

/-- The invariant of the encoder task, once the packets of `done` have been received. -/
structure EncoderTask.Inv (X : Crates) (fec : FecEncoder) (cap : Nat) (batch : List Packet)
    (done : Packet → Prop) (task : EncoderTask) : Prop where
  stash : ∀ {g : Nat} {q : Packet}, q ∈ task.stash g → q ∈ batch ∧ q.fecGroup = g
  out : ∀ r ∈ task.out, Emitted X fec cap batch r
  carried : ∀ q, done q → Carries task.out q ∨ Carries (task.stash q.fecGroup) q

section Encode

variable {X : Crates} {fec : FecEncoder} {cap : Nat} {batch : List Packet} {g : Nat}
  {fecOf : Nat → FecEncoder} {done : Packet → Prop} {task : EncoderTask}

theorem DataPackets.max_dataShards (hb : DataPackets fec batch) :
    max fec.dataShards 1 = fec.dataShards := Nat.max_eq_left hb.dataShards

/-- The first packet of a batch's group has a number. -/
theorem DataPackets.base_lt (hb : DataPackets fec batch) {q : Packet} (hq : q ∈ batch) :
    q.fecGroup * fec.dataShards < u64Max := by
  rw [hb.group q hq]
  exact lt_of_le_of_lt (Nat.div_mul_le_self q.seq fec.dataShards) (hb.seq q hq)

/-- An emitted packet is one of the batch or parity of a group that is complete in it. -/
theorem Emitted.cases {r : Packet} (h : Emitted X fec cap batch r) :
    r ∈ batch ∨ ParityOf fec cap batch r := by
  rcases h with hr | ⟨g, p', block, hp', hblock, hseqs, hr, hpar⟩
  · exact Or.inl hr
  · rcases encodeBlock_cases hr with hr | ⟨-, -, hidx, q₀, hq₀, hgrp⟩
    · exact Or.inl (hblock r hr).1
    · refine Or.inr ⟨hpar, lt_of_lt_of_le hidx hp', fun i hi => ?_⟩
      have hmem : g * fec.dataShards + i ∈ block.map Packet.seq :=
        hseqs.mem_iff.mpr (List.mem_range'_1.mpr (by omega))
      obtain ⟨q, hq, hqs⟩ := List.mem_map.mp hmem
      exact ⟨q, (hblock q hq).1, by rw [hqs, hgrp, (hblock q₀ hq₀).2]⟩

/-- The encoders the task uses for its groups: the right width, and no more parity than allowed. -/
structure Capped (fec : FecEncoder) (cap : Nat) (fecOf : Nat → FecEncoder) : Prop where
  dataShards : ∀ g, (fecOf g).dataShards = fec.dataShards
  parityShards : ∀ g, (fecOf g).parityShards ≤ cap

theorem fecFor_capped (fec : FecEncoder) (cap : Nat) (stragglerIds : List Nat) :
    Capped fec cap (fecFor fec cap stragglerIds) where
  dataShards g := by
    unfold fecFor
    split
    · rfl
    · split <;> rfl
  parityShards g := by
    unfold fecFor
    split
    · exact Nat.zero_le _
    · split <;> exact min_le_right _ _

/--
Draining a buffer of group `g` ends, and what was in the buffer is afterwards encoded or still
in it.
-/
theorem drainLoop_spec (hb : DataPackets fec batch) (hf : Capped fec cap fecOf)
    (hg : g * fec.dataShards < u64Max) :
    ∀ {fuel : Nat} {buf : List Packet}, buf.length < fuel →
      (∀ q ∈ buf, q ∈ batch ∧ q.fecGroup = g) →
      ∃ encoded left, drainLoop X g (fecOf g) fuel buf = .ok (encoded, left) ∧
        (∀ q ∈ buf, q ∈ encoded ∨ q ∈ left) ∧ (∀ q ∈ left, q ∈ buf) ∧
        ∀ r ∈ encoded, Emitted X fec cap batch r
  | 0, buf, hfuel, _ => absurd hfuel (Nat.not_lt_zero _)
  | fuel + 1, buf, hfuel, hbuf => by
    have hn : max (fecOf g).dataShards 1 = fec.dataShards := by
      rw [hf.dataShards, hb.max_dataShards]
    unfold drainLoop
    rcases drainFecBlockFromPackets_spec X (by rwa [hn]) buf with
      hd | ⟨block, left, k, hd, hk, hle, hperm, hseqs⟩
    · rw [hd]
      exact ⟨[], buf, rfl, fun q hq => Or.inr hq, fun q hq => hq,
        fun r hr => absurd hr List.not_mem_nil⟩
    · have hlen : block.length = k := by simpa using hseqs.length_eq
      have hblock : ∀ q ∈ block, q ∈ buf := fun q hq =>
        hperm.mem_iff.mpr (List.mem_append_left _ hq)
      have hleft : ∀ q ∈ left, q ∈ buf := fun q hq =>
        hperm.mem_iff.mpr (List.mem_append_right _ hq)
      have hshorter : left.length < fuel := by
        have := hperm.length_eq
        rw [List.length_append] at this
        omega
      obtain ⟨more, rest, hrec, hkeep, hsub, hemit⟩ := drainLoop_spec hb hf hg hshorter
        (fun q hq => hbuf q (hleft q hq))
      rw [hd]
      simp only [hrec]
      refine ⟨_, rest, rfl, fun q hq => ?_, fun q hq => hleft q (hsub q hq), fun r hr => ?_⟩
      · rcases List.mem_append.mp (hperm.mem_iff.mp hq) with hq | hq
        · exact Or.inl (List.mem_append_left _ (encodeBlock_mem (by omega) hq))
        · exact (hkeep q hq).imp_left (List.mem_append_right _)
      · rcases List.mem_append.mp hr with hr | hr
        · rcases encodeBlock_cases hr with hr' | ⟨hwhole, hpar, -⟩
          · exact Or.inl (hbuf r (hblock r hr')).1
          · -- parity is only computed for a whole block
            obtain rfl : k = fec.dataShards := by omega
            have hfec : fecOf g = ⟨fec.dataShards, (fecOf g).parityShards⟩ := by
              rw [← hf.dataShards g]
            rw [hn] at hseqs
            rw [hfec] at hr
            exact Or.inr ⟨g, _, block, hf.parityShards g, fun q hq => hbuf q (hblock q hq), hseqs,
              hr, hpar⟩
        · exact hemit r hr

/--
Replacing a group's buffer keeps the invariant if what the old one carried is carried by the new
one or by the packets sent on.
-/
theorem EncoderTask.Inv.put (h : task.Inv X fec cap batch done) {buf emitted : List Packet}
    (hbuf : ∀ q ∈ buf, q ∈ batch ∧ q.fecGroup = g)
    (hemit : ∀ r ∈ emitted, Emitted X fec cap batch r)
    (hkeep : ∀ q, Carries (task.stash g) q → Carries emitted q ∨ Carries buf q) :
    (task.put g buf emitted).Inv X fec cap batch done where
  stash := by
    intro g' q hq
    by_cases hgg : g' = g
    · subst hgg
      exact hbuf q (by simpa [EncoderTask.put] using hq)
    · exact h.stash (by simpa [EncoderTask.put, hgg] using hq)
  out := by
    intro r hr
    rcases List.mem_append.mp hr with hr | hr
    · exact h.out r hr
    · exact hemit r hr
  carried := by
    intro q hq
    rcases h.carried q hq with hc | hc
    · exact Or.inl (hc.mono fun r hr _ => List.mem_append_left _ hr)
    · by_cases hgg : q.fecGroup = g
      · rw [hgg] at hc ⊢
        simp only [EncoderTask.put, Function.update_self]
        exact (hkeep q hc).imp_left fun hc => hc.mono fun r hr _ => List.mem_append_right _ hr
      · simp only [EncoderTask.put, Function.update_of_ne hgg]
        exact Or.inr hc

/-- Draining a group neither loses nor invents a packet. -/
theorem drainGroup_spec (hb : DataPackets fec batch) (hf : Capped fec cap fecOf)
    (hg : g * fec.dataShards < u64Max) (h : task.Inv X fec cap batch done) :
    ∃ task', drainGroup X fecOf g task = .ok task' ∧ task'.Inv X fec cap batch done ∧
      ∀ q, Carries task.out q → Carries task'.out q := by
  obtain ⟨encoded, left, hd, hkeep, hsub, hemit⟩ := drainLoop_spec (X := X) hb hf hg
    (Nat.lt_add_one _) (fun q hq => h.stash hq)
  refine ⟨task.put g left encoded, by unfold drainGroup; simp only [hd],
    h.put (fun q hq => h.stash (hsub q hq)) hemit ?_,
    fun q hc => hc.mono fun r hr _ => List.mem_append_left _ hr⟩
  rintro q ⟨r, hr, hrest⟩
  exact (hkeep r hr).imp (fun hr => ⟨r, hr, hrest⟩) fun hr => ⟨r, hr, hrest⟩

/-- Stashing a packet keeps the invariant and adds the packet to what is carried. -/
theorem stash_inv (hb : DataPackets fec batch) {p : Packet} (hp : p ∈ batch)
    (h : task.Inv X fec cap batch done) :
    (task.put p.fecGroup (stashPacket (task.stash p.fecGroup) p) []).Inv X fec cap batch
      fun q => q = p ∨ done q := by
  have hput : (task.put p.fecGroup (stashPacket (task.stash p.fecGroup) p) []).Inv X fec cap batch
      done := by
    refine h.put (fun q hq => ?_) (fun r hr => absurd hr List.not_mem_nil) ?_
    · rcases mem_stashPacket hq with hq | rfl
      · exact h.stash hq
      · exact ⟨hp, rfl⟩
    · rintro q ⟨r, hr, hdata, hseq, hpay⟩
      by_cases hrp : r.seq = p.seq
      · -- the packet stashed before is replaced by one with the same payload
        refine Or.inr ⟨p, self_mem_stashPacket _ _, hb.isData p hp, hrp.symm.trans hseq, ?_⟩
        rw [← hpay]
        exact hb.payload p hp r (h.stash hr).1 hrp.symm
      · exact Or.inr ⟨r, mem_stashPacket_of_ne hr hrp, hdata, hseq, hpay⟩
  refine ⟨hput.stash, hput.out, ?_⟩
  rintro q (rfl | hq)
  · refine Or.inr (.of_mem ?_ (hb.isData q hp))
    simpa [EncoderTask.put] using self_mem_stashPacket _ _
  · exact hput.carried q hq

theorem encodeAll_spec (hb : DataPackets fec batch) (hf : Capped fec cap fecOf) :
    ∀ {packets : List Packet} {done : Packet → Prop} {task : EncoderTask},
      (∀ p ∈ packets, p ∈ batch) → task.Inv X fec cap batch done →
      ∃ task', encodeAll X fecOf packets task = .ok task' ∧
        task'.Inv X fec cap batch fun q => q ∈ packets ∨ done q
  | [], done, task, _, h => ⟨task, rfl, h.stash, h.out, fun q hq =>
      h.carried q (hq.resolve_left List.not_mem_nil)⟩
  | p :: rest, done, task, hsub, h => by
    have hp : p ∈ batch := hsub p List.mem_cons_self
    obtain ⟨task₁, hd, h₁, -⟩ := drainGroup_spec (X := X) hb hf (hb.base_lt hp)
      (stash_inv hb hp h)
    obtain ⟨task₂, hrec, h₂⟩ := encodeAll_spec hb hf
      (fun q hq => hsub q (List.mem_cons_of_mem _ hq)) h₁
    refine ⟨task₂, ?_, h₂.stash, h₂.out, fun q hq => h₂.carried q ?_⟩
    · unfold encodeAll
      simp only [hd, hrec]
    · rw [List.mem_cons] at hq
      tauto

/-- Once every group is flushed, all that was received has been sent on. -/
theorem flushStash_spec (hb : DataPackets fec batch) (hf : Capped fec cap fecOf) :
    ∀ (keys : List Nat) {task : EncoderTask}, (∀ g ∈ keys, g * fec.dataShards < u64Max) →
      task.Inv X fec cap batch done →
      (∀ q, done q → q.fecGroup ∉ keys → Carries task.out q) →
      ∃ task', flushStash X fecOf keys task = .ok task' ∧
        (∀ r ∈ task'.out, Emitted X fec cap batch r) ∧
        ∀ q, done q → Carries task'.out q
  | [], task, _, h, hflushed => ⟨task, rfl, h.out, fun q hq => hflushed q hq List.not_mem_nil⟩
  | g :: keys, task, hkeys, h, hflushed => by
    obtain ⟨task₁, hd, h₁, hmono⟩ := drainGroup_spec (X := X) hb hf
      (hkeys g List.mem_cons_self) h
    have hput : (task₁.put g [] (task₁.stash g)).Inv X fec cap batch done :=
      h₁.put (fun q hq => by cases hq) (fun r hr => Or.inl (h₁.stash hr).1) fun q hc => Or.inl hc
    obtain ⟨task₂, hrec, h₂⟩ := flushStash_spec hb hf keys
      (fun g' hg' => hkeys g' (List.mem_cons_of_mem _ hg')) hput (fun q hq hnot => by
        by_cases hgg : q.fecGroup = g
        · -- the buffer of `g` is empty now, so `q` is out
          rcases hput.carried q hq with hc | ⟨r, hr, -⟩
          · exact hc
          · simp [EncoderTask.put, hgg] at hr
        · have hc := hmono q (hflushed q hq fun hmem =>
            (List.mem_cons.mp hmem).elim hgg hnot)
          exact hc.mono fun r hr _ => List.mem_append_left _ hr)
    refine ⟨task₂, ?_, h₂⟩
    unfold flushStash
    simp only [hd, hrec]

end Encode

/-- The encoder task ends; it loses no packet, and adds only parity of whole blocks. -/
theorem encodeStage_spec {A : AutopilotRuntime} (X : Crates) (U : Utilities) (cap : Nat)
    {batch : List Packet} (hb : DataPackets A.fec batch) :
    ∃ encoded, encodeStage X A U cap batch = .ok encoded ∧
      (∀ r ∈ encoded, Emitted X A.fec cap batch r) ∧
      ∀ q ∈ batch, Carries encoded q := by
  have hf := fecFor_capped A.fec cap (detectStragglers U batch (blocksFromPackets A U batch))
  have hstart : EncoderTask.Inv X A.fec cap batch (fun _ => False) ⟨fun _ => [], []⟩ :=
    ⟨fun hq => absurd hq List.not_mem_nil, fun r hr => absurd hr List.not_mem_nil,
      fun q hq => hq.elim⟩
  obtain ⟨task, hall, htask⟩ := encodeAll_spec (X := X) hb hf (fun q hq => hq) hstart
  obtain ⟨task', hflush, hout, hcarried⟩ := flushStash_spec (X := X) hb hf
    (groupKeys U.stashLe batch) (fun g hg => by
      obtain ⟨q, hq, rfl⟩ := mem_groupKeys.mp hg
      exact hb.base_lt hq) htask (fun q hq hnot =>
        absurd (mem_groupKeys.mpr ⟨q, hq.resolve_right id, rfl⟩) hnot)
  refine ⟨task'.out, ?_, hout, fun q hq => hcarried q (Or.inl hq)⟩
  unfold encodeStage
  simp only [hall, hflush]

end ScTransport
