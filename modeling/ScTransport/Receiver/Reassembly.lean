import ScTransport.Receiver.Recovery
import ScTransport.Fec.Reference

/-!
# Reassembly from any honest frames

The frames of an honest sender may arrive in any order, any number of times, and mixed with
parity frames of any parity count. `Advance` is what one call of `ingest_wire_frame` does to
the receive state: it keeps the invariant, never forgets a chunk or a shard, and leaves no
group ready for recovery.

* `ingest_honest` — one honest frame
* `ingestAll_honest` — any sequence of them
* `ingestAll_reassembles` — the part file converges to the source
* `ingestAll_recovers_group` — any sufficient subset of a group recovers the whole group
-/

namespace ScTransport

open Infra

/-! ## Honest frames -/

/-- The transfer fits the types on the wire, and Reed–Solomon works in its dimensions. -/
structure Transfer.Admissible (t : Transfer) (X : Crates) : Prop where
  fits : t.cfg.Fits
  shards_le : t.fec.dataShards + t.fec.parityShards ≤ 256
  rs : ∀ {p : Nat}, 0 < p → p ≤ t.fec.parityShards → t.width + p ≤ 256 → X.RsLawful t.width p

/-- `wire` is parity row `j` of group `g`, encoded with `p'` parity rows. -/
def Transfer.ParityFrame (t : Transfer) (X : Crates) (g p' j : Nat) (wire : Bytes) : Prop :=
  p' ≤ t.fec.parityShards ∧ ∃ data q, t.FullGroup X g data ∧
    q ∈ FecEncoder.encodeBlock X ⟨t.fec.dataShards, p'⟩ data ∧ q.isParity = true ∧
    q.parityIndex = j ∧ q.payload = wire

/-- What an honest sender puts on the wire. -/
inductive HonestFrame (t : Transfer) (X : Crates) (wire : Bytes) : Prop where
  | data {i : Nat} (hi : i < t.numChunks) (hw : t.chunkFrame X i = some wire)
  | parity {g p' j : Nat} (hw : t.ParityFrame X g p' j wire)

section Parity

variable {t : Transfer} {X : Crates} {g p' j : Nat} {wire : Bytes}

theorem Transfer.Admissible.rs_full (ht : t.Admissible X) (hds : 0 < t.fec.dataShards)
    (hps : 0 < t.fec.parityShards) : X.RsLawful t.width t.fec.parityShards := by
  have hw := t.width_eq hds
  have := ht.shards_le
  exact ht.rs hps le_rfl (by omega)

/-- The same transfer with another parity count; data frames do not depend on it. -/
def Transfer.withParity (t : Transfer) (p : Nat) : Transfer :=
  { t with fec := ⟨t.fec.dataShards, p⟩ }

theorem Transfer.FullGroup.withParity {data : List Packet} (h : t.FullGroup X g data) (p : Nat) :
    (t.withParity p).FullGroup X g data :=
  ⟨h.in_range, h.seqs, h.payload, h.group, h.not_parity⟩

/-- The crate refuses more than 256 rows, so such a block has no parity packets. -/
theorem Transfer.ParityFrame.shards_le (hX : X.Lawful) (h : t.ParityFrame X g p' j wire) :
    0 < p' ∧ t.width + p' ≤ 256 := by
  obtain ⟨-, data, q, hfull, hq, hpar, -, -⟩ := h
  have hnew : 0 < p' ∧ X.rsNew t.width p' = true := by
    by_contra hno
    have hmem : q ∈ data := by
      simp only [FecEncoder.encodeBlock] at hq
      split at hq
      · simp at hq
      · split at hq
        · exact hq
        · next hp =>
          split at hq
          · exact List.mem_of_mem_take (mem_sortBlock.mp hq)
          · split at hq
            · exact hq
            · next hrs =>
              exact absurd ⟨by omega, by simpa [Transfer.width] using hrs⟩ hno
    rw [hfull.not_parity q hmem] at hpar
    cases hpar
  refine ⟨hnew.1, ?_⟩
  by_contra hgt
  rw [hX.rs_limit (by omega)] at hnew
  cases hnew.2

/-- What a parity frame says about its row. -/
structure ParityDesc (X : Crates) (t : Transfer) (g j : Nat) (desc : ChunkDescriptor)
    (row : Bytes) : Prop where
  parityIndex : desc.parityIndex.toNat = j
  fecGroup : desc.fecGroup.toNat = g
  isParity : desc.isParity = true
  checksum : X.blake3 row = desc.checksum
  code : 0 < t.fec.dataShards → (t.groupCode X g)[t.fec.dataShards + j]? = some row

/-- Reed–Solomon works in the dimensions of the manifest. -/
def Transfer.Decodable (t : Transfer) (X : Crates) : Prop :=
  0 < t.fec.dataShards → 0 < t.fec.parityShards → X.RsLawful t.width t.fec.parityShards

theorem Transfer.Admissible.decodable (ht : t.Admissible X) : t.Decodable X :=
  fun hds hps => ht.rs_full hds hps

/-- The row inside a parity frame, and the call that framed it. -/
theorem Transfer.ParityFrame.row (hX : X.Lawful) (hrs : t.Decodable X)
    (h : t.ParityFrame X g p' j wire) :
    ∃ row, j < p' ∧ t.Framed X g ∧
      frameFecWireShard X (parityFrameIndex g p' j) 0 row true j g = some wire ∧
      (0 < t.fec.dataShards → (t.groupCode X g)[t.fec.dataShards + j]? = some row) := by
  obtain ⟨hp0, -⟩ := h.shards_le hX
  obtain ⟨hp', data, q, hfull, hq, hpar, rfl, rfl⟩ := h
  by_cases hds : 0 < t.fec.dataShards
  · have hw := t.width_eq hds
    obtain ⟨row, hj, hcode, -, hframe⟩ := hfull.encodeBlock_parity hX (hrs hds (by omega)) hp'
      hq hpar
    exact ⟨row, hj, hfull.framed, hframe, fun _ => hw ▸ hcode⟩
  · obtain ⟨shards, hj, -, hframe⟩ := hfull.parity_packet hq hpar
    exact ⟨_, hj, hfull.framed, hframe, fun hpos => absurd hpos hds⟩

/-- **Every parity frame describes its row**, and the row is the codeword's. -/
theorem Transfer.ParityFrame.framedAs (hX : X.Lawful) (hrs : t.Decodable X)
    (h : t.ParityFrame X g p' j wire) (hsmall : wire.length < 2 ^ 32) :
    ∃ desc row, FramedAs X wire desc row ∧ ParityDesc X t g j desc row ∧ j < p' ∧
      t.Framed X g := by
  obtain ⟨-, hle⟩ := h.shards_le hX
  obtain ⟨row, hj, hfr, hframe, hcode⟩ := h.row hX hrs
  have hg : g < 2 ^ 64 := by
    have h0 : g ≤ g * t.width + 0 := Nat.le_mul_of_pos_right g t.width_pos
    have h1 := Transfer.slot_lt hfr.in_range t.width_pos
    have h2 := t.numChunks_lt
    omega
  have hsize : (UInt32.ofNat row.length).toNat = row.length := by
    have := (length_frame hX hframe).1
    rw [UInt32.toNat_ofNat', Nat.mod_eq_of_lt (by omega)]
  refine ⟨_, row, FramedAs.of_frame (by simpa using hsize.symm) hframe, ?_, hj, hfr⟩
  constructor
  · rw [UInt64.toNat_ofNat', Nat.mod_eq_of_lt (by omega)]
  · rw [UInt64.toNat_ofNat', Nat.mod_eq_of_lt hg]
  · rfl
  · rfl
  · exact hcode

/-- A parity frame is little longer than the longest data frame of its group. -/
theorem Transfer.ParityFrame.length_le (hX : X.Lawful) (ht : t.Admissible X)
    (h : t.ParityFrame X g p' j wire) : wire.length ≤ 264 + t.cfg.chunkSize := by
  obtain ⟨hp0, hle⟩ := h.shards_le hX
  obtain ⟨hp', data, q, hfull, hq, hpar, rfl, rfl⟩ := h
  -- without data shards the manifest's parity count need not be one the crate accepts
  obtain ⟨row, -, -, hlen, hframe⟩ := Transfer.FullGroup.encodeBlock_parity
    (t := t.withParity p') hX (ht.rs hp0 hp' hle) (hfull.withParity p') le_rfl hq hpar
  have hrow : row.length = t.groupLen X g := hlen
  have hbound := (hfull.framed.groupLen_bounds hX).2
  have hwire := (length_frame hX hframe).2
  omega

/-- No parity frame is a data frame. -/
theorem Transfer.ParityFrame.ne_data (hX : X.Lawful) (ht : t.Admissible X)
    (h : t.ParityFrame X g p' j wire) {i : Nat} (hi : i < t.numChunks) :
    t.chunkFrame X i ≠ some wire := by
  intro hw
  have hsmall := ht.fits.length_lt (h.length_le hX ht)
  obtain ⟨desc, row, hframed, hdesc, -⟩ := h.framedAs hX ht.decodable hsmall
  obtain ⟨desc', body, hframed', hdesc'⟩ := buildChunkPayload_framedAs hX hi hw hsmall
  obtain ⟨_, hparse, -⟩ := hframed.parse hX
  obtain ⟨_, hparse', -⟩ := hframed'.parse hX
  rw [hparse] at hparse'
  simp only [Except.ok.injEq, Prod.mk.injEq] at hparse'
  have hflag := hdesc'.isParity
  rw [← hparse'.1, hdesc.isParity] at hflag
  cases hflag

end Parity

theorem sample_admissible : sample.Admissible Crates.reference where
  fits := sample_fits
  shards_le := by decide
  rs := by
    intro p hp hle _
    have hle' : p ≤ 1 := hle
    obtain rfl : p = 1 := by omega
    exact Crates.reference_rsLawful

/-- The sample cut into single bytes. -/
def sampleBytewise : Transfer := { sample with cfg := ⟨1, .none, true⟩ }

theorem sampleBytewise_admissible : sampleBytewise.Admissible Crates.reference :=
  ⟨⟨by decide, by decide⟩, by decide, sample_admissible.rs⟩

theorem sample_parityFrame : sample.ParityFrame Crates.reference 0 1 0 (sampleFrame 2) := by
  have hq : ∃ q ∈ FecEncoder.encodeBlock Crates.reference ⟨2, 1⟩ samplePackets,
      q.isParity = true ∧ q.parityIndex = 0 ∧ q.payload = sampleFrame 2 := by
    decide +kernel
  obtain ⟨q, hmem, hq⟩ := hq
  exact ⟨by decide, samplePackets, q, sample_fullGroup, hmem, hq⟩

theorem sample_honest : ∀ i < 3, HonestFrame sample Crates.reference (sampleFrame i)
  | 0, _ => .data (by decide) (sample_chunkFrame 0 (by decide))
  | 1, _ => .data (by decide) (sample_chunkFrame 1 (by decide))
  | 2, _ => .parity sample_parityFrame
  | i + 3, h => absurd h (by omega)

/-! ## Storing a shard -/

/-- Slot `s` of group `g` is filled, or the group needs nothing any more. -/
def Have (t : Transfer) (st : IngestState) (g s : Nat) : Prop :=
  (∃ group b, st.groups g = some group ∧ group[s]? = some (some b)) ∨ Complete t g st.received

/-- What ingesting honest frames does to the state. -/
structure Advance (t : Transfer) (X : Crates) (st st' : IngestState) : Prop where
  sound : Sound t X st'
  mono : st.received ⊆ st'.received
  drained : Drained t X st → Drained t X st'
  keeps : ∀ {g s : Nat}, Have t st g s → Have t st' g s
  small : ShardsSmall st → ShardsSmall st'

section Store

variable {t : Transfer} {X : Crates} {st : IngestState} {g slot : Nat} {shard : Bytes}

theorem Advance.refl (h : Sound t X st) : Advance t X st st :=
  ⟨h, subset_rfl, id, id, id⟩

theorem Advance.trans {st' st'' : IngestState} (h : Advance t X st st')
    (h' : Advance t X st' st'') : Advance t X st st'' :=
  ⟨h'.sound, h.mono.trans h'.mono, fun hd => h'.drained (h.drained hd),
    fun hh => h'.keeps (h.keeps hh), fun hs => h'.small (h.small hs)⟩

/-- The slot vector a shard is put into. -/
def groupOrNew (m : TransferManifest) (g : Nat) (st : IngestState) : Group :=
  (st.groups g).getD (List.replicate (m.dataShards + m.parityShards) none)

theorem GroupSound.orNew
    (h : ∀ {group : Group}, st.groups g = some group → GroupSound t X g group st.received) :
    GroupSound t X g (groupOrNew (t.manifest X) g st) st.received := by
  unfold groupOrNew
  cases hg : st.groups g with
  | some group => exact h hg
  | none =>
    refine ⟨List.length_replicate, ?_, ?_⟩ <;>
    · intro s b _ hb
      simp only [Option.getD_none, List.getElem?_replicate] at hb
      split at hb <;> simp at hb

/-- Filling a slot with the row that belongs there keeps the group sound. -/
theorem GroupSound.set {group : Group} {received : Finset Nat}
    (h : GroupSound t X g group received)
    (hdata : slot < t.fec.dataShards →
      t.chunkFrame X (g * t.width + slot) = some shard ∧ g * t.width + slot ∈ received)
    (hpar : t.fec.dataShards ≤ slot → t.Framed X g ∧ (t.groupCode X g)[slot]? = some shard) :
    GroupSound t X g (group.set slot (some shard)) received := by
  refine ⟨by simpa using h.length_eq, ?_, ?_⟩ <;>
  · intro s b hs hb
    rw [List.getElem?_set] at hb
    split at hb
    · next heq =>
      subst heq
      split at hb
      · obtain rfl : shard = b := by simpa using hb
        first
          | exact hdata hs
          | exact hpar hs
      · simp at hb
    · first
        | exact h.data hs hb
        | exact h.parity hs hb

/-- Storing a shard that belongs to its slot keeps all groups sound. -/
theorem GroupSound.storeShard
    (h : ∀ {g : Nat} {group : Group}, st.groups g = some group →
      GroupSound t X g group st.received)
    (hdata : slot < t.fec.dataShards →
      t.chunkFrame X (g * t.width + slot) = some shard ∧ g * t.width + slot ∈ st.received)
    (hpar : t.fec.dataShards ≤ slot → t.Framed X g ∧ (t.groupCode X g)[slot]? = some shard)
    {g' : Nat} {group' : Group}
    (hg' : (storeShard (t.manifest X) g slot shard st).groups g' = some group') :
    GroupSound t X g' group' st.received := by
  by_cases heq : g' = g
  · subst heq
    simp only [ScTransport.storeShard, Function.update_self, Option.some.injEq] at hg'
    rw [← hg']
    exact (GroupSound.orNew fun hg => h hg).set hdata hpar
  · simp only [ScTransport.storeShard, Function.update_of_ne heq] at hg'
    exact h hg'

theorem Sound.storeShard (h : Sound t X st)
    (hdata : slot < t.fec.dataShards →
      t.chunkFrame X (g * t.width + slot) = some shard ∧ g * t.width + slot ∈ st.received)
    (hpar : t.fec.dataShards ≤ slot → t.Framed X g ∧ (t.groupCode X g)[slot]? = some shard) :
    Sound t X (storeShard (t.manifest X) g slot shard st) :=
  ⟨h.length_out, h.received_lt, h.holds,
    fun hg => GroupSound.storeShard (fun hg => h.groups hg) hdata hpar hg⟩

theorem storeShard_groups_self (m : TransferManifest) :
    (storeShard m g slot shard st).groups g
      = some ((groupOrNew m g st).set slot (some shard)) := by
  simp [storeShard, groupOrNew]

theorem storeShard_groups_of_ne (m : TransferManifest) {g' : Nat} (h : g' ≠ g) :
    (storeShard m g slot shard st).groups g' = st.groups g' := by
  simp [storeShard, Function.update_of_ne h]

theorem Have.storeShard {m : TransferManifest} {g' s : Nat} (h : Have t st g' s) :
    Have t (storeShard m g slot shard st) g' s := by
  rcases h with ⟨group, b, hg, hb⟩ | hc
  · left
    by_cases heq : g' = g
    · subst heq
      have hnew : groupOrNew m g' st = group := by simp [groupOrNew, hg]
      have hlt : s < group.length := (List.getElem?_eq_some_iff.mp hb).1
      by_cases hs : slot = s
      · subst hs
        exact ⟨_, shard, storeShard_groups_self m,
          by rw [hnew, List.getElem?_set_self hlt]⟩
      · exact ⟨_, b, storeShard_groups_self m, by rw [hnew, List.getElem?_set_ne hs]; exact hb⟩
    · exact ⟨group, b, by rw [storeShard_groups_of_ne m heq]; exact hg, hb⟩
  · exact Or.inr hc

theorem ShardsSmall.storeShard {m : TransferManifest} (h : ShardsSmall st)
    (hshard : shard.length < 2 ^ 32) : ShardsSmall (storeShard m g slot shard st) := by
  intro g' group s b hg hb
  by_cases heq : g' = g
  · subst heq
    rw [storeShard_groups_self, Option.some.injEq] at hg
    rw [← hg, List.getElem?_set] at hb
    split at hb
    · split at hb
      · obtain rfl : shard = b := by simpa using hb
        exact hshard
      · cases hb
    · unfold groupOrNew at hb
      cases hold : st.groups g' with
      | some old =>
        rw [hold] at hb
        exact h hold hb
      | none =>
        rw [hold, Option.getD_none, List.getElem?_replicate] at hb
        split at hb <;> cases hb
  · rw [storeShard_groups_of_ne m heq] at hg
    exact h hg hb

/-- **Storing a shard and trying to recover is an advance**, and the shard is not lost. -/
theorem storeShard_recover (hX : X.Lawful) (hrs : t.Decodable X)
    (hds : 0 < t.fec.dataShards) (hps : 0 < t.fec.parityShards) (verify : Bool)
    (h : Sound t X st) (hsmall : ShardsSmall st) (g slot : Nat) (shard : Bytes)
    (hshard : shard.length < 2 ^ 32)
    (hdata : slot < t.fec.dataShards →
      t.chunkFrame X (g * t.width + slot) = some shard ∧ g * t.width + slot ∈ st.received)
    (hpar : t.fec.dataShards ≤ slot → t.Framed X g ∧ (t.groupCode X g)[slot]? = some shard) :
    ∃ st', tryFecGroupRecover X g (t.manifest X) ⟨t.fec.dataShards, t.fec.parityShards⟩ verify
        (storeShard (t.manifest X) g slot shard st) = .ok st' ∧ Advance t X st st' ∧
      (slot < t.fec.dataShards + t.fec.parityShards → Have t st' g slot) := by
  have hsound := h.storeShard hdata hpar
  obtain ⟨st', hrun, hs', hmono, hother, hself, hready⟩ :=
    tryFecGroupRecover_spec (g := g) hX (hrs hds hps) hds hps verify hsound
      (hsmall.storeShard hshard)
  -- a filled slot stays filled unless recovery dropped the completed group
  have hkeep : ∀ {g' s : Nat}, Have t (storeShard (t.manifest X) g slot shard st) g' s →
      Have t st' g' s := by
    rintro g' s (⟨group, b, hg, hb⟩ | hc)
    · by_cases heq : g' = g
      · subst heq
        rcases hself with hsame | ⟨-, hc⟩
        · exact Or.inl ⟨group, b, hsame.trans hg, hb⟩
        · exact Or.inr hc
      · exact Or.inl ⟨group, b, (hother g' heq).trans hg, hb⟩
    · exact Or.inr (hc.mono hmono)
  refine ⟨st', hrun, ⟨hs', hmono, ?_, fun hh => hkeep hh.storeShard, ?_⟩, ?_⟩
  · intro hd g' group hg hr
    by_cases heq : g' = g
    · subst heq
      exact hready group hg hr
    · rw [hother g' heq, storeShard_groups_of_ne _ heq] at hg
      exact (hd g' group hg hr).mono hmono
  · intro _ g' group s b hg hb
    by_cases heq : g' = g
    · subst heq
      rcases hself with hsame | ⟨hnone, -⟩
      · exact hsmall.storeShard hshard (hsame ▸ hg) hb
      · rw [hnone] at hg
        cases hg
    · exact hsmall.storeShard hshard ((hother g' heq) ▸ hg) hb
  · intro hslot
    refine hkeep (Or.inl ⟨_, shard, storeShard_groups_self _, List.getElem?_set_self ?_⟩)
    rw [(GroupSound.orNew fun hg => h.groups hg).length_eq]
    exact hslot

theorem Advance.deliver (h : Sound t X st) {i : Nat} (hi : i < t.numChunks) :
    Advance t X st (t.deliver i st) where
  sound := h.deliver hi
  mono := subset_deliver t i st
  drained := by
    intro hd g group hg hr
    rw [Transfer.deliver_groups] at hg
    exact (hd g group hg hr).mono (subset_deliver t i st)
  keeps := by
    rintro g s (⟨group, b, hg, hb⟩ | hc)
    · exact Or.inl ⟨group, b, by rw [Transfer.deliver_groups]; exact hg, hb⟩
    · exact Or.inr (hc.mono (subset_deliver t i st))
  small := by
    intro hs g group s b hg hb
    rw [Transfer.deliver_groups] at hg
    exact hs hg hb

end Store

/-! ## One frame -/

section Step

variable {t : Transfer} {X : Crates} {st : IngestState} {wire : Bytes}

/-- The coder a receiver builds from an honest manifest. -/
def Transfer.coder (t : Transfer) : Option ReedSolomon :=
  if 0 < t.fec.parityShards ∧ 0 < t.fec.dataShards then
    some ⟨t.fec.dataShards, t.fec.parityShards⟩
  else none

theorem Transfer.Decodable.fecRsOf_eq (hrs : t.Decodable X) :
    fecRsOf X (t.manifest X) = .ok t.coder := by
  have hdef : fecRsOf X (t.manifest X) =
      if 0 < t.fec.parityShards ∧ 0 < t.fec.dataShards then
        if X.rsNew t.fec.dataShards t.fec.parityShards then
          .ok (some ⟨t.fec.dataShards, t.fec.parityShards⟩)
        else .error .invalidFecDimensions
      else .ok none := rfl
  rw [hdef, Transfer.coder]
  by_cases h : 0 < t.fec.parityShards ∧ 0 < t.fec.dataShards
  · have hw := t.width_eq h.2
    have hnew := (hrs h.2 h.1).new_ok h.1 le_rfl
    rw [hw] at hnew
    rw [if_pos h, if_pos h, if_pos hnew]
  · rw [if_neg h, if_neg h]

theorem fecRsOf_manifest (ht : t.Admissible X) : fecRsOf X (t.manifest X) = .ok t.coder :=
  ht.decodable.fecRsOf_eq

/-- The receiver's size check lets the frame pass. -/
def SizeOk (X : Crates) (m : TransferManifest) (wire : Bytes) : Prop :=
  ∀ {desc : ChunkDescriptor} {off len : Nat}, parseFramedHeader X wire = .ok (desc, off, len) →
    desc.compressedSize.toNat ≤ maxBody m

/-- A frame that was ingested passed the check. -/
theorem SizeOk.of_ingest {m : TransferManifest} {fecRs : Option ReedSolomon} {verify : Bool}
    {lost : Finset Nat} {r : Nat × IngestState}
    (h : ingestWireFrame X wire m fecRs verify lost st = .ok r) : SizeOk X m wire := by
  intro desc off len hparse
  unfold ingestWireFrame at h
  simp only [hparse, bind, Except.bind] at h
  split at h
  · cases h
  · omega

theorem SizeOk.of_length (hX : X.Lawful) (ht : t.Admissible X) {desc : ChunkDescriptor}
    {body : Bytes} (hframed : FramedAs X wire desc body)
    (hlen : wire.length ≤ 264 + t.cfg.chunkSize) : SizeOk X (t.manifest X) wire := by
  intro desc' off len hparse'
  obtain ⟨descLen, hparse, hbody, -⟩ := hframed.parse hX
  rw [hparse] at hparse'
  cases hparse'
  have h1 := ht.fits.chunkSize_le
  have hcs : (t.manifest X).chunkSize = t.cfg.chunkSize := Nat.mod_eq_of_lt (by omega)
  unfold maxBody
  rw [hcs, satMul_eq (by omega)]
  omega

/-- Within the bounds of an admissible transfer the stored shards are small. -/
theorem Sound.shardsSmall (hX : X.Lawful) (ht : t.Admissible X) (h : Sound t X st)
    (hds : 0 < t.fec.dataShards) (hps : 0 < t.fec.parityShards) : ShardsSmall st := by
  intro g group s b hg hb
  refine ht.fits.length_lt ?_
  by_cases hs : s < t.fec.dataShards
  · obtain ⟨hw, hrec⟩ := (h.groups hg).data hs hb
    have := (Transfer.chunkFrame_length hX (h.received_lt hrec) hw).2
    omega
  · have hlen := (h.groups hg).parity_length hX (ht.rs_full hds hps) hds hps (by omega) hb
    have := (((h.groups hg).parity (by omega) hb).1.groupLen_bounds hX).2
    omega

/--
A data frame: unless it is lost on purpose, its chunk is written and its group is tried with the
frame in its slot.
-/
theorem ingest_data_eq (hX : X.Lawful) (verify : Bool) (lost : Finset Nat) (st : IngestState)
    {i : Nat} (hi : i < t.numChunks) (hw : t.chunkFrame X i = some wire)
    (hlt : wire.length < 2 ^ 32) (hok : SizeOk X (t.manifest X) wire) :
    ingestWireFrame X wire (t.manifest X) t.coder verify lost st =
      if i ∈ lost then .ok (i / t.width, st)
      else if 0 < t.fec.parityShards ∧ 0 < t.fec.dataShards then
        (tryFecGroupRecover X (i / t.width) (t.manifest X)
          ⟨t.fec.dataShards, t.fec.parityShards⟩ verify
          (storeShard (t.manifest X) (i / t.width) (i % t.width) wire (t.deliver i st))).map
          (i / t.width, ·)
      else .ok (i / t.width, t.deliver i st) := by
  obtain ⟨desc, body, hframed, hdesc⟩ := buildChunkPayload_framedAs hX hi hw hlt
  obtain ⟨descLen, hparse, hlen, hbody⟩ := hframed.parse hX
  have hsize : ¬ maxBody (t.manifest X) < desc.compressedSize.toNat := Nat.not_lt.mpr (hok hparse)
  have hgroup : desc.fecGroup.toNat = i / t.width := hdesc.fecGroup
  have hslot : i - satMul (i / t.width) (max (t.manifest X).dataShards 1) = i % t.width := by
    have hwidth : max (t.manifest X).dataShards 1 = t.width := rfl
    have hmod := Nat.div_add_mod' i t.width
    have := t.numChunks_lt
    rw [hwidth, satMul_eq (by omega)]
    omega
  unfold ingestWireFrame
  simp only [hparse, hdesc.isParity, hdesc.index, hgroup, bind, Except.bind, pure, Except.pure,
    Bool.false_eq_true, if_false]
  rw [if_neg hsize, if_neg (by omega), persistFramedChunk_data hX hframed hdesc verify st]
  by_cases hl : i ∈ lost
  · rw [if_pos hl, if_pos hl]
  · rw [if_neg hl, if_neg hl]
    unfold Transfer.coder
    by_cases hfec : 0 < t.fec.parityShards ∧ 0 < t.fec.dataShards
    · have hlt' : i % t.width < (t.manifest X).dataShards := by
        have hds : (t.manifest X).dataShards = t.width := (t.width_eq hfec.2).symm
        rw [hds]
        exact Nat.mod_lt _ t.width_pos
      simp only [if_pos hfec, hslot, if_pos hlt']
      cases tryFecGroupRecover X (i / t.width) (t.manifest X)
        ⟨t.fec.dataShards, t.fec.parityShards⟩ verify
        (storeShard (t.manifest X) (i / t.width) (i % t.width) wire (t.deliver i st)) <;> rfl
    · simp only [if_neg hfec]

/-- A data frame: its chunk is written, and its slot is filled. -/
theorem ingest_data_of_sizeOk (hX : X.Lawful) (hrs : t.Decodable X) (verify : Bool)
    (lost : Finset Nat) (h : Sound t X st)
    (hsmall : 0 < t.fec.dataShards → 0 < t.fec.parityShards → ShardsSmall st) {i : Nat}
    (hi : i < t.numChunks) (hw : t.chunkFrame X i = some wire) (hlt : wire.length < 2 ^ 32)
    (hok : SizeOk X (t.manifest X) wire) :
    ∃ g st', ingestWireFrame X wire (t.manifest X) t.coder verify lost st = .ok (g, st') ∧
      Advance t X st st' ∧ (i ∉ lost → i ∈ st'.received ∧
        (0 < t.fec.dataShards → 0 < t.fec.parityShards →
          Have t st' (i / t.width) (i % t.width))) := by
  have hadv := Advance.deliver h hi
  have hrec : i ∈ (t.deliver i st).received := Transfer.mem_deliver.mpr (Or.inl rfl)
  rw [ingest_data_eq hX verify lost st hi hw hlt hok]
  by_cases hl : i ∈ lost
  · rw [if_pos hl]
    exact ⟨_, st, rfl, Advance.refl h, fun hnot => absurd hl hnot⟩
  · rw [if_neg hl]
    by_cases hfec : 0 < t.fec.parityShards ∧ 0 < t.fec.dataShards
    · have hwidth := t.width_eq hfec.2
      have hlt' : i % t.width < t.fec.dataShards := by
        rw [← hwidth]
        exact Nat.mod_lt _ t.width_pos
      have hidx : i / t.width * t.width + i % t.width = i := Nat.div_add_mod' i t.width
      obtain ⟨st', hrun, hadv', hhave⟩ := storeShard_recover hX hrs hfec.2 hfec.1 verify
        hadv.sound (hadv.small (hsmall hfec.2 hfec.1)) (i / t.width) (i % t.width) wire hlt
        (fun _ => by rw [hidx]; exact ⟨hw, hrec⟩) (fun hge => by omega)
      rw [if_pos hfec, hrun]
      exact ⟨_, st', rfl, hadv.trans hadv', fun _ =>
        ⟨hadv'.mono hrec, fun _ _ => hhave (by omega)⟩⟩
    · rw [if_neg hfec]
      exact ⟨_, t.deliver i st, rfl, hadv, fun _ =>
        ⟨hrec, fun hds hps => absurd ⟨hps, hds⟩ hfec⟩⟩

/-- A parity frame: its group is tried with the row in its slot. -/
theorem ingest_parity_eq (hX : X.Lawful) (hrs : t.Decodable X) (verify : Bool)
    (lost : Finset Nat) (st : IngestState) {g p' j : Nat} (hw : t.ParityFrame X g p' j wire)
    (hlt : wire.length < 2 ^ 32) (hok : SizeOk X (t.manifest X) wire) :
    ∃ row, row.length < 2 ^ 32 ∧ j < p' ∧ t.Framed X g ∧
      (0 < t.fec.dataShards → (t.groupCode X g)[t.fec.dataShards + j]? = some row) ∧
      ingestWireFrame X wire (t.manifest X) t.coder verify lost st =
        if 0 < t.fec.parityShards ∧ 0 < t.fec.dataShards then
          (tryFecGroupRecover X g (t.manifest X) ⟨t.fec.dataShards, t.fec.parityShards⟩ verify
            (storeShard (t.manifest X) g (t.fec.dataShards + j) row st)).map (g, ·)
        else .ok (g, st) := by
  obtain ⟨desc, row, hframed, hdesc, hj, hfr⟩ := hw.framedAs hX hrs hlt
  have hle := (hw.shards_le hX).2
  obtain ⟨descLen, hparse, hlen, hbody⟩ := hframed.parse hX
  have hsize : ¬ maxBody (t.manifest X) < desc.compressedSize.toNat := Nat.not_lt.mpr (hok hparse)
  have hrow : row.length < 2 ^ 32 := by
    have := hframed.length_body_le
    omega
  refine ⟨row, hrow, hj, hfr, hdesc.code, ?_⟩
  unfold ingestWireFrame
  simp only [hparse, hbody, hdesc.isParity, hdesc.fecGroup, hdesc.parityIndex, hdesc.checksum,
    bind, Except.bind, pure, Except.pure, if_true, ne_eq, not_true_eq_false, decide_false,
    Bool.and_false, Bool.false_eq_true, if_false]
  rw [if_neg hsize, if_neg (by omega)]
  unfold Transfer.coder
  by_cases hfec : 0 < t.fec.parityShards ∧ 0 < t.fec.dataShards
  · have hpi : satAdd j (t.manifest X).dataShards = t.fec.dataShards + j := by
      have hds : (t.manifest X).dataShards = t.fec.dataShards := rfl
      have hwidth := t.width_eq hfec.2
      rw [hds, satAdd_eq (by omega)]
      omega
    simp only [if_pos hfec, hpi]
    cases tryFecGroupRecover X g (t.manifest X) ⟨t.fec.dataShards, t.fec.parityShards⟩ verify
      (storeShard (t.manifest X) g (t.fec.dataShards + j) row st) <;> rfl
  · simp only [if_neg hfec]

/-- A parity frame: its row goes to its slot. -/
theorem ingest_parity_of_sizeOk (hX : X.Lawful) (hrs : t.Decodable X) (verify : Bool)
    (lost : Finset Nat) (h : Sound t X st)
    (hsmall : 0 < t.fec.dataShards → 0 < t.fec.parityShards → ShardsSmall st) {g p' j : Nat}
    (hw : t.ParityFrame X g p' j wire) (hlt : wire.length < 2 ^ 32)
    (hok : SizeOk X (t.manifest X) wire) :
    ∃ g' st', ingestWireFrame X wire (t.manifest X) t.coder verify lost st = .ok (g', st') ∧
      Advance t X st st' ∧
      (0 < t.fec.dataShards → 0 < t.fec.parityShards → Have t st' g (t.fec.dataShards + j)) := by
  obtain ⟨row, hrow, hj, hfr, hcode, heq⟩ := ingest_parity_eq hX hrs verify lost st hw hlt hok
  have hp' : p' ≤ t.fec.parityShards := hw.1
  rw [heq]
  by_cases hfec : 0 < t.fec.parityShards ∧ 0 < t.fec.dataShards
  · obtain ⟨st', hrun, hadv, hhave⟩ := storeShard_recover hX hrs hfec.2 hfec.1 verify h
      (hsmall hfec.2 hfec.1) g (t.fec.dataShards + j) row hrow
      (fun hlt => by omega) (fun _ => ⟨hfr, hcode hfec.2⟩)
    rw [if_pos hfec, hrun]
    exact ⟨_, st', rfl, hadv, fun _ _ => hhave (by omega)⟩
  · rw [if_neg hfec]
    exact ⟨_, st, rfl, Advance.refl h, fun hds hps => absurd ⟨hps, hds⟩ hfec⟩

theorem chunkFrame_sizeOk (hX : X.Lawful) (ht : t.Admissible X) {i : Nat} (hi : i < t.numChunks)
    (hw : t.chunkFrame X i = some wire) :
    wire.length < 2 ^ 32 ∧ SizeOk X (t.manifest X) wire := by
  have hlen := (Transfer.chunkFrame_length hX hi hw).2
  have hlt := ht.fits.length_lt (show wire.length ≤ 264 + t.cfg.chunkSize by omega)
  obtain ⟨desc, body, hframed, -⟩ := buildChunkPayload_framedAs hX hi hw hlt
  exact ⟨hlt, SizeOk.of_length hX ht hframed (by omega)⟩

theorem Transfer.ParityFrame.sizeOk (hX : X.Lawful) (ht : t.Admissible X) {g p' j : Nat}
    (hw : t.ParityFrame X g p' j wire) :
    wire.length < 2 ^ 32 ∧ SizeOk X (t.manifest X) wire := by
  have hlen := hw.length_le hX ht
  have hlt := ht.fits.length_lt hlen
  obtain ⟨desc, row, hframed, -⟩ := hw.framedAs hX ht.decodable hlt
  exact ⟨hlt, SizeOk.of_length hX ht hframed hlen⟩

theorem ingest_data (hX : X.Lawful) (ht : t.Admissible X) (verify : Bool)
    (lost : Finset Nat) (h : Sound t X st) {i : Nat} (hi : i < t.numChunks)
    (hw : t.chunkFrame X i = some wire) :
    ∃ g st', ingestWireFrame X wire (t.manifest X) t.coder verify lost st = .ok (g, st') ∧
      Advance t X st st' ∧ (i ∉ lost → i ∈ st'.received ∧
        (0 < t.fec.dataShards → 0 < t.fec.parityShards →
          Have t st' (i / t.width) (i % t.width))) := by
  obtain ⟨hlt, hok⟩ := chunkFrame_sizeOk hX ht hi hw
  exact ingest_data_of_sizeOk hX ht.decodable verify lost h (h.shardsSmall hX ht) hi hw hlt hok

theorem ingest_parity (hX : X.Lawful) (ht : t.Admissible X) (verify : Bool)
    (lost : Finset Nat) (h : Sound t X st) {g p' j : Nat} (hw : t.ParityFrame X g p' j wire) :
    ∃ g' st', ingestWireFrame X wire (t.manifest X) t.coder verify lost st = .ok (g', st') ∧
      Advance t X st st' ∧
      (0 < t.fec.dataShards → 0 < t.fec.parityShards → Have t st' g (t.fec.dataShards + j)) := by
  obtain ⟨hlt, hok⟩ := hw.sizeOk hX ht
  exact ingest_parity_of_sizeOk hX ht.decodable verify lost h (h.shardsSmall hX ht) hw hlt hok

/-- **One honest frame never fails.** -/
theorem ingest_honest (hX : X.Lawful) (ht : t.Admissible X) (verify : Bool)
    (lost : Finset Nat) (h : Sound t X st) (hw : HonestFrame t X wire) :
    ∃ g st', ingestWireFrame X wire (t.manifest X) t.coder verify lost st = .ok (g, st') ∧
      Advance t X st st' := by
  cases hw with
  | data hi hw =>
    obtain ⟨g, st', hrun, hadv, -⟩ := ingest_data hX ht verify lost h hi hw
    exact ⟨g, st', hrun, hadv⟩
  | parity hw =>
    obtain ⟨g, st', hrun, hadv, -⟩ := ingest_parity hX ht verify lost h hw
    exact ⟨g, st', hrun, hadv⟩

end Step

/-! ## Whole runs -/

/-- Where a receive may start: recorded chunks are in the part file, no shard is stored. -/
structure Transfer.Start (t : Transfer) (st : IngestState) : Prop where
  length_out : st.out.length = t.src.bytes.length
  received_lt : ∀ {i : Nat}, i ∈ st.received → i < t.numChunks
  holds : ∀ {i : Nat}, i ∈ st.received →
    slice st.out (i * t.cfg.chunkSize) (t.raw i).length = t.raw i
  no_groups : ∀ g, st.groups g = none

section Run

variable {t : Transfer} {X : Crates} {st : IngestState}

/-- A fresh transfer: a part file of the right size, nothing recorded. -/
theorem Transfer.Start.empty {out : Bytes} (h : out.length = t.src.bytes.length) :
    t.Start ⟨out, ∅, fun _ => none⟩ where
  length_out := h
  received_lt := fun hi => absurd hi (Finset.notMem_empty _)
  holds := fun hi => absurd hi (Finset.notMem_empty _)
  no_groups := fun _ => rfl

theorem Transfer.Start.sound (h : t.Start st) : Sound t X st where
  length_out := h.length_out
  received_lt := h.received_lt
  holds := h.holds
  groups := by
    intro g group hg
    rw [h.no_groups g] at hg
    cases hg

theorem Transfer.Start.drained (h : t.Start st) : Drained t X st := by
  intro g group hg
  rw [h.no_groups g] at hg
  cases hg

/-- **Any sequence of honest frames is accepted.** -/
theorem ingestAll_honest (hX : X.Lawful) (ht : t.Admissible X) (verify : Bool)
    (lost : Finset Nat) : ∀ (frames : List Bytes) {st : IngestState}, Sound t X st →
    (∀ w ∈ frames, HonestFrame t X w) →
    ∃ st', ingestAll X (t.manifest X) t.coder verify lost frames st = .ok st' ∧
      Advance t X st st'
  | [], st, h, _ => ⟨st, rfl, Advance.refl h⟩
  | wire :: rest, st, h, hf => by
    obtain ⟨g, st₁, hrun, hadv⟩ :=
      ingest_honest hX ht verify lost h (hf wire List.mem_cons_self)
    obtain ⟨st', hrest, hadv'⟩ := ingestAll_honest hX ht verify lost rest hadv.sound
      fun w hw => hf w (List.mem_cons_of_mem _ hw)
    refine ⟨st', ?_, hadv.trans hadv'⟩
    rw [ingestAll, hrun]
    exact hrest

/-- What one frame establishes and no later frame undoes holds at the end. -/
theorem ingestAll_after (hX : X.Lawful) (ht : t.Admissible X) {verify : Bool}
    {lost : Finset Nat} {P : IngestState → Prop}
    (hkeep : ∀ {a b : IngestState}, Advance t X a b → P a → P b) {wire : Bytes}
    (hmake : ∀ {a : IngestState}, Sound t X a → ∃ g b,
      ingestWireFrame X wire (t.manifest X) t.coder verify lost a = .ok (g, b) ∧ P b) :
    ∀ (frames : List Bytes) {st st' : IngestState}, Sound t X st →
    (∀ w ∈ frames, HonestFrame t X w) → wire ∈ frames →
    ingestAll X (t.manifest X) t.coder verify lost frames st = .ok st' → P st'
  | [], _, _, _, _, hmem, _ => absurd hmem List.not_mem_nil
  | w :: rest, st, st', h, hf, hmem, hrun => by
    have hrest : ∀ x ∈ rest, HonestFrame t X x := fun x hx => hf x (List.mem_cons_of_mem _ hx)
    obtain ⟨g, st₁, hstep, hadv⟩ := ingest_honest hX ht verify lost h (hf w List.mem_cons_self)
    rw [ingestAll, hstep] at hrun
    dsimp only at hrun
    rcases List.mem_cons.mp hmem with rfl | hmem
    · obtain ⟨g', st₂, hstep', hP⟩ := hmake h
      rw [hstep, Except.ok.injEq, Prod.mk.injEq] at hstep'
      obtain ⟨-, rfl⟩ := hstep'
      obtain ⟨st'', hrun', hadv'⟩ := ingestAll_honest hX ht verify lost rest hadv.sound hrest
      obtain rfl : st'' = st' := by
        rw [hrun'] at hrun
        exact Except.ok.inj hrun
      exact hkeep hadv' hP
    · exact ingestAll_after hX ht hkeep hmake rest hadv.sound hrest hmem hrun

/-- A file of the right length with all chunks in it is the source. -/
theorem Transfer.eq_src_of_chunks (hpos : 0 < t.cfg.chunkSize) {file : Bytes}
    (hlen : file.length = t.src.bytes.length)
    (h : ∀ i, i < t.numChunks →
      slice file (i * t.cfg.chunkSize) (t.raw i).length = t.raw i) : file = t.src.bytes := by
  refine eq_of_slices hpos hlen fun i hi => ?_
  rw [hlen] at hi
  have hclip : (t.raw i).length = min t.cfg.chunkSize (file.length - i * t.cfg.chunkSize) := by
    rw [hlen]
    exact length_chunkRaw _ _ _
  have hchunk := h i ((lt_divCeil_iff hpos).mpr hi)
  rw [hclip, slice_clip] at hchunk
  exact hchunk

/-- All chunks recorded means the whole file is there. -/
theorem Sound.complete_file (hcfg : t.cfg.Fits) (h : Sound t X st)
    (hall : st.received.card = t.numChunks) : st.out = t.src.bytes := by
  have hsub : st.received ⊆ Finset.range t.numChunks :=
    fun i hi => Finset.mem_range.mpr (h.received_lt hi)
  have hfull : st.received = Finset.range t.numChunks :=
    Finset.eq_of_subset_of_card_le hsub (by rw [Finset.card_range, hall])
  refine Transfer.eq_src_of_chunks hcfg.chunkSize_pos h.length_out fun i hi => h.holds ?_
  rw [hfull]
  exact Finset.mem_range.mpr hi

/--
**Reassembly is correct under any order, duplication and mix of frames.**

No frame is refused, every recorded chunk holds the source bytes, and a complete record
means a complete file.
-/
theorem ingestAll_reassembles (hX : X.Lawful) (ht : t.Admissible X) (verify : Bool)
    (lost : Finset Nat) (hst : t.Start st) (frames : List Bytes)
    (hframes : ∀ w ∈ frames, HonestFrame t X w) :
    ∃ fecRs st', fecRsOf X (t.manifest X) = .ok fecRs ∧
      ingestAll X (t.manifest X) fecRs verify lost frames st = .ok st' ∧
      (∀ i ∈ st'.received, i < (t.manifest X).numChunks ∧
        slice st'.out (i * t.cfg.chunkSize) (t.raw i).length = t.raw i) ∧
      st'.out.length = (t.manifest X).totalSize ∧
      (st'.received.card = (t.manifest X).numChunks → st'.out = t.src.bytes) := by
  obtain ⟨st', hrun, hadv⟩ := ingestAll_honest hX ht verify lost frames hst.sound hframes
  refine ⟨t.coder, st', fecRsOf_manifest ht, hrun, ?_, hadv.sound.length_out, ?_⟩
  · exact fun i hi => ⟨hadv.sound.received_lt hi, hadv.sound.holds hi⟩
  · exact fun hall => hadv.sound.complete_file ht.fits hall

/-- A part file whose second chunk survived an interruption. -/
def sampleResumed : IngestState := ⟨[0, 0, 99], {1}, fun _ => none⟩

theorem sampleResumed_start : sample.Start sampleResumed where
  length_out := rfl
  received_lt := by
    intro i hi
    rw [Finset.mem_singleton.mp hi]
    decide
  holds := by
    intro i hi
    rw [Finset.mem_singleton.mp hi]
    rfl
  no_groups := fun _ => rfl

/-- Parity before data, repeated frames, and a chunk that is there already. -/
theorem sample_reassembles :
    ∃ fecRs st', fecRsOf Crates.reference (sample.manifest Crates.reference) = .ok fecRs ∧
      ingestAll Crates.reference (sample.manifest Crates.reference) fecRs true ∅
        ([2, 0, 2, 0, 1].map sampleFrame) sampleResumed = .ok st' ∧
      (∀ i ∈ st'.received, i < (sample.manifest Crates.reference).numChunks ∧
        slice st'.out (i * 2) (sample.raw i).length = sample.raw i) ∧
      st'.out.length = (sample.manifest Crates.reference).totalSize ∧
      (st'.received.card = (sample.manifest Crates.reference).numChunks →
        st'.out = [97, 98, 99]) := by
  refine ingestAll_reassembles Crates.reference_lawful sample_admissible true ∅
    sampleResumed_start _ fun w hw => ?_
  obtain ⟨i, hi, rfl⟩ := List.mem_map.mp hw
  exact sample_honest i (by revert i; decide)

end Run

/-! ## Any sufficient subset of a group -/

/-- `wire` is the frame that belongs to slot `r` of group `g`. -/
def Transfer.InSlot (t : Transfer) (X : Crates) (g p' r : Nat) (wire : Bytes) : Prop :=
  r < t.fec.dataShards ∧ t.chunkFrame X (g * t.fec.dataShards + r) = some wire ∨
    ∃ j, r = t.fec.dataShards + j ∧ t.ParityFrame X g p' j wire

section Subset

variable {t : Transfer} {X : Crates} {g p' r : Nat} {st : IngestState}

/-- A slot has one frame. -/
theorem Transfer.InSlot.unique (hX : X.Lawful) (ht : t.Admissible X)
    (hds : 0 < t.fec.dataShards) {w w' : Bytes} (h : t.InSlot X g p' r w)
    (h' : t.InSlot X g p' r w') : w = w' := by
  rcases h with ⟨hr, hw⟩ | ⟨j, rfl, hw⟩
  · rcases h' with ⟨-, hw'⟩ | ⟨j, rfl, -⟩
    · rw [hw] at hw'
      exact Option.some.inj hw'
    · omega
  · rcases h' with ⟨hr, -⟩ | ⟨j', hj, hw'⟩
    · omega
    · obtain rfl : j = j' := by omega
      obtain ⟨row, -, -, hframe, hcode⟩ := hw.row hX ht.decodable
      obtain ⟨row', -, -, hframe', hcode'⟩ := hw'.row hX ht.decodable
      obtain rfl : row = row' := by
        have hc := hcode hds
        rw [hcode' hds] at hc
        exact (Option.some.inj hc).symm
      rw [hframe] at hframe'
      exact Option.some.inj hframe'

/-- Enough filled slots of a drained state complete the group. -/
theorem complete_of_have (h : Sound t X st) (hd : Drained t X st) (slots : Finset Nat)
    (hhave : ∀ r ∈ slots, Have t st g r) (hdata : ∃ r ∈ slots, r < t.fec.dataShards)
    (hcard : t.fec.dataShards ≤ slots.card) : Complete t g st.received := by
  by_contra hnot
  have hfilled : ∀ r ∈ slots, ∃ group b, st.groups g = some group ∧ group[r]? = some (some b) := by
    intro r hr
    rcases hhave r hr with hf | hc
    · exact hf
    · exact absurd hc hnot
  obtain ⟨r₀, hr₀, hlt⟩ := hdata
  obtain ⟨group, b₀, hg, hb₀⟩ := hfilled r₀ hr₀
  refine hnot (hd g group hg (fecRecoveryReady_iff.mpr ⟨(h.groups hg).length_eq, ?_, ?_⟩))
  · exact ⟨r₀, hlt, slotPresent_iff.mpr ⟨b₀, hb₀⟩⟩
  · refine hcard.trans (card_le_present group slots fun r hr => ?_)
    obtain ⟨group', b, hg', hb⟩ := hfilled r hr
    obtain rfl : group' = group := by
      rw [hg] at hg'
      exact (Option.some.inj hg').symm
    exact ⟨b, hb⟩

/-- The slot of a chunk is its place in its group. -/
theorem Transfer.slot_div_mod {s : Nat} (hs : s < t.fec.dataShards) :
    (g * t.fec.dataShards + s) / t.width = g ∧ (g * t.fec.dataShards + s) % t.width = s := by
  have hds : 0 < t.fec.dataShards := Nat.zero_lt_of_lt hs
  rw [t.width_eq hds, Nat.mul_comm]
  constructor
  · rw [Nat.mul_add_div hds, Nat.div_eq_of_lt hs, Nat.add_zero]
  · rw [Nat.mul_add_mod, Nat.mod_eq_of_lt hs]

/-- Without parity rows only the data slots have frames. -/
theorem Transfer.InSlot.lt_of_no_parity (hX : X.Lawful) (hps : t.fec.parityShards = 0) {w : Bytes}
    (h : t.InSlot X g p' r w) : r < t.fec.dataShards := by
  rcases h with ⟨hlt, -⟩ | ⟨j, -, hpar⟩
  · exact hlt
  · have := (hpar.shards_le hX).1
    have := hpar.1
    omega

/-- A data frame sits in a data slot and nowhere else. -/
theorem Transfer.InSlot.lt_of_data (hX : X.Lawful) (ht : t.Admissible X) {w : Bytes} {i : Nat}
    (hi : i < t.numChunks) (hw : t.chunkFrame X i = some w) (h : t.InSlot X g p' r w) :
    r < t.fec.dataShards := by
  rcases h with ⟨hlt, -⟩ | ⟨j, -, hpar⟩
  · exact hlt
  · exact absurd hw (hpar.ne_data hX ht hi)

section Received

variable {verify : Bool} {frames : List Bytes} {st' : IngestState}

/-- A data frame of the run ends up recorded. -/
theorem ingestAll_records (hX : X.Lawful) (ht : t.Admissible X) (h : Sound t X st)
    (hframes : ∀ w ∈ frames, HonestFrame t X w)
    (hrun : ingestAll X (t.manifest X) t.coder verify ∅ frames st = .ok st') {i : Nat} {w : Bytes}
    (hw : w ∈ frames) (hi : i < t.numChunks) (hframe : t.chunkFrame X i = some w) :
    i ∈ st'.received := by
  refine ingestAll_after hX ht (P := fun a => i ∈ a.received) (fun ha hP => ha.mono hP)
    (fun ha => ?_) frames h hframes hw hrun
  obtain ⟨g', b, hstep, -, hdone⟩ := ingest_data hX ht verify ∅ ha hi hframe
  exact ⟨g', b, hstep, (hdone (Finset.notMem_empty _)).1⟩

/-- Every frame of the run ends up in its slot, unless the group is complete. -/
theorem ingestAll_have (hX : X.Lawful) (ht : t.Admissible X) (hds : 0 < t.fec.dataShards)
    (hps : 0 < t.fec.parityShards) (h : Sound t X st)
    (hframes : ∀ w ∈ frames, HonestFrame t X w)
    (hrun : ingestAll X (t.manifest X) t.coder verify ∅ frames st = .ok st')
    (hg : ∀ s, s < t.fec.dataShards → g * t.fec.dataShards + s < t.numChunks) {w : Bytes}
    (hw : w ∈ frames) (hslot : t.InSlot X g p' r w) : Have t st' g r := by
  refine ingestAll_after hX ht (P := fun a => Have t a g r) (fun ha hP => ha.keeps hP)
    (fun ha => ?_) frames h hframes hw hrun
  rcases hslot with ⟨hlt, hframe⟩ | ⟨j, rfl, hpar⟩
  · obtain ⟨g', b, hstep, -, hdone⟩ := ingest_data hX ht verify ∅ ha (hg r hlt) hframe
    have hhave := (hdone (Finset.notMem_empty _)).2 hds hps
    rw [(Transfer.slot_div_mod hlt).1, (Transfer.slot_div_mod hlt).2] at hhave
    exact ⟨g', b, hstep, hhave⟩
  · obtain ⟨g', b, hstep, -, hhave⟩ := ingest_parity hX ht verify ∅ ha hpar
    exact ⟨g', b, hstep, hhave hds hps⟩

end Received

/--
**Any sufficient subset of a group recovers it.**

`S` are frames of group `g`, one of them a data frame and at least `data_shards` together.
They may be mixed with other honest frames, reordered and repeated.
-/
theorem ingestAll_recovers_group (hX : X.Lawful) (ht : t.Admissible X) (verify : Bool)
    (g p' : Nat) (hg : ∀ s, s < t.fec.dataShards → g * t.fec.dataShards + s < t.numChunks)
    (S : Finset Bytes) (hS : ∀ w ∈ S, ∃ r, t.InSlot X g p' r w)
    (hdata : ∃ w ∈ S, ∃ s, s < t.fec.dataShards ∧
      t.chunkFrame X (g * t.fec.dataShards + s) = some w)
    (hcard : t.fec.dataShards ≤ S.card) (hst : t.Start st) (frames : List Bytes)
    (hframes : ∀ w ∈ frames, HonestFrame t X w) (hsub : ∀ w ∈ S, w ∈ frames) :
    ∃ fecRs st', fecRsOf X (t.manifest X) = .ok fecRs ∧
      ingestAll X (t.manifest X) fecRs verify ∅ frames st = .ok st' ∧
      ∀ s, s < t.fec.dataShards → g * t.fec.dataShards + s ∈ st'.received ∧
        slice st'.out ((g * t.fec.dataShards + s) * t.cfg.chunkSize)
          (t.raw (g * t.fec.dataShards + s)).length = t.raw (g * t.fec.dataShards + s) := by
  obtain ⟨st', hrun, hadv⟩ := ingestAll_honest hX ht verify ∅ frames hst.sound hframes
  refine ⟨t.coder, st', fecRsOf_manifest ht, hrun, ?_⟩
  obtain ⟨w₀, hw₀, s₀, hs₀, hframe₀⟩ := hdata
  have hds : 0 < t.fec.dataShards := by omega
  have hwidth := t.width_eq hds
  choose! slot hslot using hS
  have hinj : Set.InjOn slot S := fun a ha b hb hab =>
    (hslot a ha).unique hX ht hds (hab ▸ hslot b hb)
  have hslots : t.fec.dataShards ≤ (S.image slot).card := by
    rw [Finset.card_image_of_injOn hinj]
    exact hcard
  have hcomplete : Complete t g st'.received := by
    rcases Nat.eq_zero_or_pos t.fec.parityShards with hps | hps
    · -- no parity at all: the set is the whole group
      have hrange : S.image slot ⊆ Finset.range t.fec.dataShards := by
        intro r hr
        obtain ⟨w, hw, rfl⟩ := Finset.mem_image.mp hr
        exact Finset.mem_range.mpr ((hslot w hw).lt_of_no_parity hX hps)
      have hfull := Finset.eq_of_subset_of_card_le hrange (by rw [Finset.card_range]; exact hslots)
      intro s hs
      obtain ⟨w, hw, rfl⟩ := Finset.mem_image.mp (hfull ▸ Finset.mem_range.mpr hs)
      rcases hslot w hw with ⟨-, hframe⟩ | ⟨j, hj, -⟩
      · rw [hwidth]
        exact ingestAll_records hX ht hst.sound hframes hrun (hsub w hw) (hg _ hs) hframe
      · omega
    · refine complete_of_have hadv.sound (hadv.drained hst.drained) (S.image slot) ?_ ?_ hslots
      · intro r hr
        obtain ⟨w, hw, rfl⟩ := Finset.mem_image.mp hr
        exact ingestAll_have hX ht hds hps hst.sound hframes hrun hg (hsub w hw) (hslot w hw)
      · exact ⟨slot w₀, Finset.mem_image_of_mem _ hw₀,
          (hslot w₀ hw₀).lt_of_data hX ht (hg s₀ hs₀) hframe₀⟩
  intro s hs
  have hmem := hcomplete s hs
  rw [hwidth] at hmem
  exact ⟨hmem, hadv.sound.holds hmem⟩

/-- One chunk and the parity row bring the other chunk back. -/
theorem sample_recovers_group :
    ∃ fecRs st', fecRsOf Crates.reference (sample.manifest Crates.reference) = .ok fecRs ∧
      ingestAll Crates.reference (sample.manifest Crates.reference) fecRs true ∅
        ([2, 0].map sampleFrame) ⟨[0, 0, 0], ∅, fun _ => none⟩ = .ok st' ∧
      ∀ s, s < 2 → 0 * 2 + s ∈ st'.received ∧
        slice st'.out ((0 * 2 + s) * 2) (sample.raw (0 * 2 + s)).length
          = sample.raw (0 * 2 + s) := by
  have hstart : sample.Start ⟨[0, 0, 0], ∅, fun _ => none⟩ := .empty rfl
  refine ingestAll_recovers_group Crates.reference_lawful sample_admissible true 0 1 (by decide)
    {sampleFrame 0, sampleFrame 2} ?_ ?_ (by decide +kernel)
    hstart _ ?_ (by decide +kernel)
  · intro w hw
    rcases Finset.mem_insert.mp hw with rfl | hw
    · exact ⟨0, Or.inl ⟨by decide, sample_chunkFrame 0 (by decide)⟩⟩
    · rw [Finset.mem_singleton.mp hw]
      exact ⟨2, Or.inr ⟨0, rfl, sample_parityFrame⟩⟩
  · exact ⟨sampleFrame 0, by simp, 0, by decide, sample_chunkFrame 0 (by decide)⟩
  · intro w hw
    obtain ⟨i, hi, rfl⟩ := List.mem_map.mp hw
    exact sample_honest i (by revert i; decide)

end Subset

end ScTransport
