import ScTransport.Adaptive.System

/-!
# Size guards of the receiver

A frame passes four of them: the length of its descriptor, the length of its body, the body lies
within the frame, and the limit that a data stream is read with. The first three follow the chunk
size; the last one is fixed.

* `PassesGuards` — a frame that none of them rejects
* `passesGuards_iff` — of a frame that describes its body only the last one can
* `frames_pass_guards_iff` — which frames of an honest sender are accepted
-/

namespace ScTransport

open Infra

/-- None of the size guards rejects the frame. -/
structure PassesGuards (X : Crates) (m : TransferManifest) (wire : Bytes) : Prop where
  ingested : ∃ desc descLen, parseFramedHeader X wire = .ok (desc, 4, descLen) ∧
    desc.compressedSize.toNat ≤ maxBody m ∧ 4 + descLen + desc.compressedSize.toNat ≤ wire.length
  read : wire.length ≤ readLimit

/-- The length of a frame with a body of `n` bytes. -/
def frameLen (X : Crates) (desc : ChunkDescriptor) (n : Nat) : Nat :=
  4 + ((X.encodeDescriptor desc).getD []).length + n

/-- An encoded descriptor adds at most 132 bytes with its length prefix. -/
theorem frameLen_le {X : Crates} (hX : X.Lawful) (desc : ChunkDescriptor) (n : Nat) :
    frameLen X desc n ≤ 132 + n := by
  unfold frameLen
  cases he : X.encodeDescriptor desc with
  | none => simp
  | some bs =>
    have := (hX.encode_length he).2
    rw [Option.getD_some]
    omega

section Frame

variable {X : Crates} {m : TransferManifest} {desc : ChunkDescriptor} {body wire : Bytes}

theorem length_eq_frameLen (h : frame X desc body = some wire) :
    wire.length = frameLen X desc body.length := by
  unfold frame at h
  unfold frameLen
  cases he : X.encodeDescriptor desc with
  | none => simp [he] at h
  | some descBytes =>
    simp only [he, Option.some.injEq] at h
    rw [← h, Option.getD_some]
    simp
    omega

/-- Only the limit of the stream can reject a frame that describes a body of allowed length. -/
theorem passesGuards_iff (hX : X.Lawful) (hbody : body.length ≤ maxBody m)
    (hsize : desc.compressedSize = UInt32.ofNat body.length) (h : frame X desc body = some wire) :
    PassesGuards X m wire ↔ frameLen X desc body.length ≤ readLimit := by
  rw [← length_eq_frameLen h]
  refine ⟨PassesGuards.read, fun hlimit => ?_⟩
  have hlt := readLimit_lt hlimit
  have hle := (length_frame hX h).1
  have hnat : desc.compressedSize.toNat = body.length := by
    rw [hsize, UInt32.toNat_ofNat', Nat.mod_eq_of_lt (by omega)]
  obtain ⟨descLen, hparse, hin, -⟩ := (FramedAs.of_frame hnat.symm h).parse hX
  exact ⟨⟨desc, descLen, hparse, by rw [hnat]; exact hbody, hin⟩, hlimit⟩

end Frame

/-! ## Data frames -/

/-- The descriptor of `frame_chunk`. -/
def dataDescriptor (X : Crates) (t : Transfer) (i : Nat) (chunk : Bytes) : ChunkDescriptor where
  index := UInt64.ofNat i
  offset := UInt64.ofNat (i * t.cfg.chunkSize)
  compressedSize := UInt32.ofNat chunk.length
  uncompressedSize := UInt32.ofNat (t.raw i).length
  checksum := X.blake3 chunk
  wasCompressed := decide (chunk.length < (t.raw i).length)
  isParity := false
  parityIndex := 0
  fecGroup := UInt64.ofNat (i / max (t.manifest X).dataShards 1)

section Honest

variable {t : Transfer} {X : Crates}

theorem chunkFrame_eq {i : Nat} {wire : Bytes} (hi : i < t.numChunks)
    (h : t.chunkFrame X i = some wire) :
    ∃ chunk, maybeCompress X (t.raw i) t.cfg.compression = some chunk ∧
      frame X (dataDescriptor X t i chunk) chunk = some wire :=
  buildChunkPayload_eq hi h

/-- A body that is at most a framed chunk is allowed. -/
theorem le_maxBody (hlt : t.cfg.chunkSize < 2 ^ 32) {n : Nat}
    (hn : n ≤ 132 + t.cfg.chunkSize) : n ≤ maxBody (t.manifest X) := by
  have hchunk : (t.manifest X).chunkSize = t.cfg.chunkSize := Nat.mod_eq_of_lt hlt
  unfold maxBody
  rw [hchunk, satMul_eq (by omega)]
  omega

theorem chunkFrame_passesGuards_iff (hX : X.Lawful) (hlt : t.cfg.chunkSize < 2 ^ 32) {i : Nat}
    {wire : Bytes} (hi : i < t.numChunks) (h : t.chunkFrame X i = some wire) :
    ∃ chunk, maybeCompress X (t.raw i) t.cfg.compression = some chunk ∧
      (PassesGuards X (t.manifest X) wire ↔
        frameLen X (dataDescriptor X t i chunk) chunk.length ≤ readLimit) := by
  obtain ⟨chunk, hc, hframe⟩ := chunkFrame_eq hi h
  have hle := (maybeCompress_spec hX hc).1
  have hraw : (t.raw i).length ≤ t.cfg.chunkSize := length_chunkRaw_le _ _ _
  exact ⟨chunk, hc, passesGuards_iff hX (le_maxBody hlt (by omega)) rfl hframe⟩

/-- Chunks of 32 MiB less one frame header fit. -/
theorem chunkFrame_passesGuards (hX : X.Lawful) (hfit : t.cfg.chunkSize + 132 ≤ readLimit)
    {i : Nat} {wire : Bytes} (hi : i < t.numChunks) (h : t.chunkFrame X i = some wire) :
    PassesGuards X (t.manifest X) wire := by
  obtain ⟨chunk, hc, hiff⟩ := chunkFrame_passesGuards_iff hX (readLimit_lt (by omega)) hi h
  have hle := (maybeCompress_spec hX hc).1
  have hraw : (t.raw i).length ≤ t.cfg.chunkSize := length_chunkRaw_le _ _ _
  refine hiff.mpr ((frameLen_le hX _ _).trans ?_)
  omega

end Honest

/-! ## Parity frames -/

/-- The descriptor of `frame_fec_wire_shard` for parity packet `q` of a block of `p` rows. -/
def parityDescriptor (X : Crates) (q : Packet) (p : Nat) (row : Bytes) : ChunkDescriptor where
  index := UInt64.ofNat (parityFrameIndex q.fecGroup p q.parityIndex)
  offset := UInt64.ofNat 0
  compressedSize := UInt32.ofNat row.length
  uncompressedSize := UInt32.ofNat row.length
  checksum := X.blake3 row
  wasCompressed := false
  isParity := true
  parityIndex := UInt64.ofNat q.parityIndex
  fecGroup := UInt64.ofNat q.fecGroup

/-- The rows that a block of packets is encoded to. -/
def blockRows (X : Crates) (fec : FecEncoder) (data : List Packet) : List Bytes :=
  let n := max fec.dataShards 1
  let block := sortBlock n data
  (X.rsEncode n fec.parityShards
    (encodeInput (block.map fun q => resize q.payload (maxPayload block)) fec.parityShards
      (maxPayload block))).getD []

/-- The row that parity packet `q` of the block carries. -/
def parityRow (X : Crates) (fec : FecEncoder) (data : List Packet) (q : Packet) : Bytes :=
  (blockRows X fec data).getD (max fec.dataShards 1 + q.parityIndex) []

/-- Packets of framed chunks, in any order and any number. -/
structure Transfer.DataPackets (t : Transfer) (X : Crates) (data : List Packet) : Prop where
  not_parity : ∀ q ∈ data, q.isParity = false
  payload : ∀ q ∈ data, ∃ i, i < t.numChunks ∧ t.chunkFrame X i = some q.payload

section Parity

variable {t : Transfer} {X : Crates} {fec : FecEncoder} {data : List Packet} {q : Packet}

/-- A parity packet frames a row of its block. -/
theorem encodeBlock_parity_frame (hdata : ∀ r ∈ data, r.isParity = false)
    (hq : q ∈ fec.encodeBlock X data) (hpar : q.isParity = true) :
    q.parityIndex < fec.parityShards ∧ max fec.dataShards 1 ≤ data.length ∧
      0 < maxPayload (sortBlock (max fec.dataShards 1) data) ∧
      frame X (parityDescriptor X q fec.parityShards (parityRow X fec data q))
        (parityRow X fec data q) = some q.payload := by
  have hnot : q ∉ data := fun hmem => by simp [hdata q hmem] at hpar
  have hsort : q ∉ sortBlock (max fec.dataShards 1) data := fun hmem =>
    hnot (List.mem_of_mem_take (mem_sortBlock.mp hmem))
  rcases encodeBlock_shape X fec data with he | he | ⟨shards, hn, -, hmax, hs, he⟩
  · exact absurd (he ▸ hq) hnot
  · exact absurd (he ▸ hq) hsort
  · rw [he] at hq
    rcases List.mem_append.mp hq with hq | hq
    · exact absurd hq hsort
    · rw [List.reduceOption_mem_iff, List.mem_map] at hq
      obtain ⟨i, hi, hpq⟩ := hq
      obtain ⟨-, rfl, -, hframe⟩ := parityPacket_spec hpq
      have hrows : blockRows X fec data = shards := by
        simp only [blockRows, hs, Option.getD_some]
      rw [parityRow, hrows]
      exact ⟨List.mem_range.mp hi, hn, hmax, hframe⟩

/-- Parity rows are as long as the longest payload of the block. -/
theorem length_parityRow (hrs : X.RsLawful (max fec.dataShards 1) fec.parityShards)
    (hn : max fec.dataShards 1 ≤ data.length)
    (hmax : 0 < maxPayload (sortBlock (max fec.dataShards 1) data))
    (hi : q.parityIndex < fec.parityShards) :
    (parityRow X fec data q).length = maxPayload (sortBlock (max fec.dataShards 1) data) := by
  have hblock : IsBlock ((sortBlock (max fec.dataShards 1) data).map fun q =>
      resize q.payload (maxPayload (sortBlock (max fec.dataShards 1) data)))
      (max fec.dataShards 1) (maxPayload (sortBlock (max fec.dataShards 1) data)) := by
    refine ⟨?_, hmax, ?_⟩
    · rw [List.length_map, sortBlock, List.length_insertionSort, List.length_take]
      omega
    · intro r hr
      obtain ⟨w, -, rfl⟩ := List.mem_map.mp hr
      exact length_resize _ _
  obtain ⟨parity, hpar, henc⟩ := hrs.encode_ok hblock
  have hip : q.parityIndex < parity.length := by rw [hpar.length_eq]; exact hi
  have hrow : parityRow X fec data q = parity[q.parityIndex] := by
    simp only [parityRow, blockRows, henc _ (by omega) le_rfl, Option.getD_some]
    rw [List.getD_eq_getElem?_getD, List.getElem?_append_right (by rw [hblock.length_eq]; omega),
      hblock.length_eq, Nat.add_sub_cancel_left, List.getElem?_take, if_pos hi,
      List.getElem?_eq_getElem hip, Option.getD_some]
  rw [hrow]
  exact hpar.row_length _ (List.getElem_mem hip)

theorem Transfer.DataPackets.maxPayload_le (hX : X.Lawful) (h : t.DataPackets X data) (n : Nat) :
    maxPayload (sortBlock n data) ≤ 132 + t.cfg.chunkSize := by
  refine foldl_max_le (Nat.zero_le _) fun x hx => ?_
  obtain ⟨q, hq, rfl⟩ := List.mem_map.mp hx
  obtain ⟨i, hi, hw⟩ := h.payload q (List.mem_of_mem_take (mem_sortBlock.mp hq))
  exact (Transfer.chunkFrame_length hX hi hw).2

/-- Dimensions that the crate refuses give no parity. -/
theorem rsNew_of_parity (hdata : ∀ r ∈ data, r.isParity = false) (hq : q ∈ fec.encodeBlock X data)
    (hpar : q.isParity = true) : X.rsNew (max fec.dataShards 1) fec.parityShards = true := by
  have hnot : q ∉ data := fun hmem => by simp [hdata q hmem] at hpar
  by_contra hnew
  rw [Bool.not_eq_true] at hnew
  simp only [FecEncoder.encodeBlock, hnew, if_true] at hq
  split at hq
  · cases hq
  · split at hq
    · exact hnot hq
    · split at hq
      · exact hnot (List.mem_of_mem_take (mem_sortBlock.mp hq))
      · exact hnot hq

theorem parity_passesGuards_iff (hX : X.Lawful) (hlt : t.cfg.chunkSize < 2 ^ 32)
    (hrs : X.rsNew (max fec.dataShards 1) fec.parityShards = true →
      X.RsLawful (max fec.dataShards 1) fec.parityShards)
    (hdata : t.DataPackets X data) (hq : q ∈ fec.encodeBlock X data) (hpar : q.isParity = true) :
    PassesGuards X (t.manifest X) q.payload ↔
      frameLen X (parityDescriptor X q fec.parityShards (parityRow X fec data q))
        (maxPayload (sortBlock (max fec.dataShards 1) data)) ≤ readLimit := by
  obtain ⟨hi, hn, hmax, hframe⟩ := encodeBlock_parity_frame hdata.not_parity hq hpar
  have hlen := length_parityRow (hrs (rsNew_of_parity hdata.not_parity hq hpar)) hn hmax hi
  have hbody := hdata.maxPayload_le hX (max fec.dataShards 1)
  rw [← hlen] at hbody ⊢
  exact passesGuards_iff hX (le_maxBody hlt hbody) rfl hframe

end Parity

/-! ## Every frame -/

/--
**Which frames pass the size guards.**

The descriptor and the body always do, whatever the chunk size. The stream is read with a fixed
limit, so a frame passes if and only if it is not longer than that. The body of a data frame is
its chunk as compressed, that of a parity frame is as long as the longest framed chunk of its
block. Chunks of 32 MiB less two frame headers fit.
-/
theorem frames_pass_guards_iff (t : Transfer) (X : Crates) (fec : FecEncoder) (hX : X.Lawful)
    (hlt : t.cfg.chunkSize < 2 ^ 32)
    (hrs : X.rsNew (max fec.dataShards 1) fec.parityShards = true →
      X.RsLawful (max fec.dataShards 1) fec.parityShards) :
    (∀ i wire, i < t.numChunks → t.chunkFrame X i = some wire →
      ∃ chunk, maybeCompress X (t.raw i) t.cfg.compression = some chunk ∧
        (PassesGuards X (t.manifest X) wire ↔
          frameLen X (dataDescriptor X t i chunk) chunk.length ≤ readLimit)) ∧
    (∀ data, t.DataPackets X data → ∀ q ∈ fec.encodeBlock X data, q.isParity = true →
      (PassesGuards X (t.manifest X) q.payload ↔
        frameLen X (parityDescriptor X q fec.parityShards (parityRow X fec data q))
          (maxPayload (sortBlock (max fec.dataShards 1) data)) ≤ readLimit)) ∧
    (t.cfg.chunkSize + 264 ≤ readLimit →
      ∀ data, t.DataPackets X data → ∀ q ∈ fec.encodeBlock X data,
        PassesGuards X (t.manifest X) q.payload) := by
  refine ⟨fun i wire hi hw => chunkFrame_passesGuards_iff hX hlt hi hw,
    fun data hdata q hq hpar => parity_passesGuards_iff hX hlt hrs hdata hq hpar, ?_⟩
  intro hfit data hdata q hq
  rcases Bool.eq_false_or_eq_true q.isParity with hpar | hpar
  · refine (parity_passesGuards_iff hX hlt hrs hdata hq hpar).mpr ((frameLen_le hX _ _).trans ?_)
    have := hdata.maxPayload_le hX (max fec.dataShards 1)
    omega
  · rcases encodeBlock_cases hq with hmem | ⟨-, hpar', -⟩
    · obtain ⟨i, hi, hw⟩ := hdata.payload q hmem
      exact chunkFrame_passesGuards hX (by omega) hi hw
    · rw [hpar] at hpar'
      cases hpar'

/-- The small transfer with its parity. -/
theorem sample_frames_pass_guards :
    (sample.fec.encodeBlock Crates.reference samplePackets).length = 3 ∧
    (sample.fec.encodeBlock Crates.reference samplePackets).Forall fun q =>
      PassesGuards Crates.reference (sample.manifest Crates.reference) q.payload := by
  have hdata : sample.DataPackets Crates.reference samplePackets := by
    refine ⟨sample_fullGroup.not_parity, fun q hq => ⟨q.seq, ?_, sample_fullGroup.payload q hq⟩⟩
    have := sample_fullGroup.seqs.mem_iff.mp (List.mem_map_of_mem hq)
    exact (List.mem_range'_1.mp this).2
  refine ⟨by decide +kernel, List.forall_iff_forall_mem.mpr ?_⟩
  exact (frames_pass_guards_iff sample Crates.reference sample.fec Crates.reference_lawful
    (by decide) fun _ => Crates.reference_rsLawful).2.2 (by decide) samplePackets hdata

/-- Uncompressed, a chunk of 32 MiB is not read. -/
theorem chunkFrame_rejected {t : Transfer} {X : Crates} (hX : X.Lawful)
    (hnone : t.cfg.compression = .none) {i : Nat} {wire : Bytes} (hi : i < t.numChunks)
    (hw : t.chunkFrame X i = some wire) (hlong : readLimit ≤ (t.raw i).length) :
    ¬ PassesGuards X (t.manifest X) wire := by
  intro hpass
  obtain ⟨chunk, hc, hframe⟩ := chunkFrame_eq hi hw
  have hchunk : chunk = t.raw i := by
    rw [hnone] at hc
    exact (Option.some.inj hc).symm
  have hlen := (length_frame hX hframe).1
  have hread := hpass.read
  rw [hchunk] at hlen
  omega

theorem reference_chunkFrame {t : Transfer} (hnone : t.cfg.compression = .none) {i : Nat}
    (hi : i < t.numChunks) : ∃ wire, t.chunkFrame Crates.reference i = some wire := by
  unfold Transfer.chunkFrame buildChunkPayload
  rw [readChunkRange_eq hi]
  simp only [frameChunk, hnone]
  exact ⟨_, rfl⟩

/-- A file of 32 MiB, sent as one chunk. -/
def sampleWide : Transfer where
  cfg := ⟨readLimit, .none, true⟩
  filename := ['f']
  src := ⟨List.replicate readLimit 0, by rw [List.length_replicate]; decide⟩
  fec := ⟨0, 0⟩

/-- Its only frame is longer than the receiver reads. -/
theorem sampleWide_rejected : 0 < sampleWide.numChunks ∧
    ∃ wire, sampleWide.chunkFrame Crates.reference 0 = some wire ∧
      ¬ PassesGuards Crates.reference (sampleWide.manifest Crates.reference) wire := by
  have hlen : sampleWide.src.bytes.length = readLimit := by
    simp only [sampleWide, List.length_replicate]
  have hsize : sampleWide.cfg.chunkSize = readLimit := by simp only [sampleWide]
  have hpos : 0 < readLimit := by decide
  have hnum : 0 < sampleWide.numChunks := by
    rw [Transfer.numChunks, lt_divCeil_iff (by rw [hsize]; exact hpos), hlen, Nat.zero_mul]
    exact hpos
  have hraw : readLimit ≤ (sampleWide.raw 0).length := by
    rw [Transfer.raw, length_chunkRaw, hlen, hsize, Nat.zero_mul, Nat.sub_zero, min_self]
  have hnone : sampleWide.cfg.compression = .none := by simp only [sampleWide]
  obtain ⟨wire, hw⟩ := reference_chunkFrame hnone hnum
  exact ⟨hnum, wire, hw, chunkFrame_rejected Crates.reference_lawful hnone hnum hw hraw⟩

end ScTransport
