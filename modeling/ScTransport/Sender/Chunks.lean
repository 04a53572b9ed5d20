import ScTransport.Protocol.Framing

/-!
# The sender: manifest and chunks

`FileSender::send` cuts the source file into chunks of `chunk_size` bytes and announces them
in the manifest. `readChunkRange`, `chunkLen` and `frameChunk` each compute the range of a
chunk anew. `chunkRaw` is the range they all mean.

Offsets are products of two `u64`. They are reduced modulo `2 ^ 64` as a release build does,
and `chunkStart_lt` shows that nothing is lost for the indices of a manifest.
-/

namespace ScTransport

open Infra

/-! ## Configuration -/

/-- A file on disk. Its length fits a `u64`. -/
structure SourceFile where
  bytes : Bytes
  length_lt : bytes.length < 2 ^ 64

/-- The part of the sender's configuration that decides what goes on the wire. -/
structure SenderConfig where
  chunkSize : Nat
  compression : CompressionType
  requireFinalAck : Bool

/-- Dimensions of a Reed–Solomon block. -/
structure FecEncoder where
  dataShards : Nat
  parityShards : Nat
  deriving DecidableEq

/-! ## Manifest -/

/-- `u64::div_ceil`. -/
def divCeil (a b : Nat) : Nat := (a + b - 1) / b

theorem divCeil_le {a b : Nat} (hb : 0 < b) : divCeil a b ≤ a := by
  unfold divCeil
  rcases Nat.eq_zero_or_pos a with ha | ha
  · subst ha
    rw [Nat.div_eq_of_lt (by omega)]
  · have hmul : a + b - 1 ≤ a * b := by
      obtain ⟨a', rfl⟩ := Nat.exists_eq_succ_of_ne_zero (by omega : a ≠ 0)
      have : a' ≤ a' * b := Nat.le_mul_of_pos_right a' hb
      rw [Nat.succ_mul]
      omega
    calc (a + b - 1) / b ≤ a * b / b := Nat.div_le_div_right hmul
      _ = a := Nat.mul_div_cancel a hb

theorem divCeil_zero_right (a : Nat) : divCeil a 0 = 0 := Nat.div_zero _

/-- The chunks are exactly those that begin inside the file. -/
theorem lt_divCeil_iff {a b i : Nat} (hb : 0 < b) : i < divCeil a b ↔ i * b < a := by
  unfold divCeil
  rw [Nat.lt_iff_add_one_le, Nat.le_div_iff_mul_le hb, Nat.add_mul, Nat.one_mul]
  omega

theorem divCeil_lt (src : SourceFile) (c : Nat) : divCeil src.bytes.length c < 2 ^ 64 := by
  rcases Nat.eq_zero_or_pos c with hc | hc
  · rw [hc, divCeil_zero_right]
    omega
  · exact lt_of_le_of_lt (divCeil_le hc) src.length_lt

/-- `hash_file_streaming`: the hash of the whole file, fed in pieces. -/
def hashFileStreaming (X : Crates) (file : Bytes) : Digest := X.blake3 file

/-- The eight bytes of `u64::to_le_bytes`. -/
def toLe64 (n : Nat) : Bytes := (List.range 8).map fun i => UInt8.ofNat (n / 256 ^ i)

/-- File name, size and content. The chunk size does not enter. -/
def transferId (X : Crates) (filename : List Char) (src : SourceFile) : Bytes :=
  (X.blake3 ((String.ofList filename).toUTF8.toList ++ toLe64 src.bytes.length ++
    (hashFileStreaming X src.bytes).bytes)).bytes.take 16

/-- The manifest `FileSender::send` announces for a file and a planned FEC block. -/
def buildManifest (X : Crates) (cfg : SenderConfig) (filename : List Char) (src : SourceFile)
    (fec : FecEncoder) : TransferManifest where
  transferId := transferId X filename src
  filename := filename
  totalSize := src.bytes.length
  chunkSize := cfg.chunkSize % 2 ^ 32
  numChunks := divCeil src.bytes.length cfg.chunkSize
  fileChecksum := hashFileStreaming X src.bytes
  compression := cfg.compression
  dataShards := fec.dataShards
  parityShards := fec.parityShards
  totalSize_lt := src.length_lt
  chunkSize_lt := Nat.mod_lt _ (by decide)
  numChunks_lt := divCeil_lt src cfg.chunkSize

/-! ## Chunks -/

/-- `read_chunk_range`. `none` when the file is shorter than it was announced. -/
def readChunkRange (cfg : SenderConfig) (file : Bytes) (idx totalSize : Nat) : Option Bytes :=
  let off := idx * cfg.chunkSize % 2 ^ 64
  if totalSize ≤ off then some []
  else
    let len := min (totalSize - off) cfg.chunkSize
    if off + len ≤ file.length then some (slice file off len) else none

def chunkLen (cfg : SenderConfig) (idx totalSize : Nat) : Nat :=
  let off := idx * cfg.chunkSize % 2 ^ 64
  if totalSize ≤ off then 0 else min (totalSize - off) cfg.chunkSize

/-- `FileSender::frame_chunk`. -/
def frameChunk (X : Crates) (cfg : SenderConfig) (idx : Nat) (chunkRaw : Bytes)
    (m : TransferManifest) : Option Bytes :=
  match maybeCompress X chunkRaw cfg.compression with
  | none => none
  | some chunk =>
    let ds := max m.dataShards 1
    frame X
      { index := UInt64.ofNat idx
        offset := UInt64.ofNat (idx * cfg.chunkSize)
        compressedSize := UInt32.ofNat chunk.length
        uncompressedSize := UInt32.ofNat chunkRaw.length
        checksum := X.blake3 chunk
        wasCompressed := decide (chunk.length < chunkRaw.length)
        isParity := false
        parityIndex := 0
        fecGroup := UInt64.ofNat (idx / ds) }
      chunk

def buildChunkPayload (X : Crates) (cfg : SenderConfig) (file : Bytes) (idx totalSize : Nat)
    (m : TransferManifest) : Option Bytes :=
  match readChunkRange cfg file idx totalSize with
  | none => none
  | some raw => frameChunk X cfg idx raw m

/-! ## Geometry -/

section Geometry

variable {c : Nat} {bs : Bytes} {i : Nat}

/-- The bytes of chunk `i` when the file is cut every `c` bytes. -/
def chunkRaw (bs : Bytes) (c i : Nat) : Bytes := slice bs (i * c) c

theorem length_chunkRaw (bs : Bytes) (c i : Nat) :
    (chunkRaw bs c i).length = min c (bs.length - i * c) := length_slice _ _ _

theorem length_chunkRaw_le (bs : Bytes) (c i : Nat) : (chunkRaw bs c i).length ≤ c := by
  rw [length_chunkRaw]
  omega

theorem chunk_end_le (hi : i * c < bs.length) :
    i * c + (chunkRaw bs c i).length ≤ bs.length := by
  rw [length_chunkRaw]
  omega

/-- A chunk starts at least a whole chunk behind every earlier one. -/
theorem chunk_disjoint {j : Nat} (hij : i ≠ j) :
    i * c + c ≤ j * c ∨ j * c + c ≤ i * c := by
  rcases Nat.lt_or_gt_of_ne hij with h | h
  · left
    calc i * c + c = (i + 1) * c := by ring
      _ ≤ j * c := Nat.mul_le_mul_right c h
  · right
    calc j * c + c = (j + 1) * c := by ring
      _ ≤ i * c := Nat.mul_le_mul_right c h

end Geometry

/-- The bounds every frame of a manifest relies on. -/
structure SenderConfig.Fits (cfg : SenderConfig) : Prop where
  chunkSize_pos : 0 < cfg.chunkSize
  chunkSize_le : cfg.chunkSize ≤ 2 ^ 31

section Chunks

variable {X : Crates} {cfg : SenderConfig} {src : SourceFile} {i : Nat}

theorem chunkStart_lt (hi : i < divCeil src.bytes.length cfg.chunkSize) :
    i * cfg.chunkSize < src.bytes.length := by
  rcases Nat.eq_zero_or_pos cfg.chunkSize with hc | hc
  · rw [hc, divCeil_zero_right] at hi
    omega
  · exact (lt_divCeil_iff hc).mp hi

/-- `read_chunk_range` returns the chunk for every announced index. -/
theorem readChunkRange_eq (hi : i < divCeil src.bytes.length cfg.chunkSize) :
    readChunkRange cfg src.bytes i src.bytes.length
      = some (chunkRaw src.bytes cfg.chunkSize i) := by
  have hstart := chunkStart_lt hi
  have hlt := src.length_lt
  unfold readChunkRange
  rw [Nat.mod_eq_of_lt (by omega)]
  simp only []
  rw [if_neg (by omega), if_pos (by omega)]
  rw [min_comm, slice_clip]
  rfl

/-- Packets and progress count the bytes that were read. -/
theorem length_readChunkRange {file raw : Bytes} {total : Nat}
    (h : readChunkRange cfg file i total = some raw) : raw.length = chunkLen cfg i total := by
  unfold readChunkRange at h
  unfold chunkLen
  simp only [] at h ⊢
  split at h
  · next hend =>
    rw [if_pos hend, ← Option.some.inj h]
    rfl
  · next hend =>
    split at h
    · next hle =>
      rw [if_neg hend, ← Option.some.inj h, length_slice]
      omega
    · cases h

/-- What a data frame of an honest sender says about its chunk. -/
structure DataDesc (X : Crates) (cfg : SenderConfig) (src : SourceFile) (m : TransferManifest)
    (i : Nat) (desc : ChunkDescriptor) (body : Bytes) : Prop where
  index : desc.index.toNat = i
  offset : desc.offset.toNat = i * cfg.chunkSize
  fecGroup : desc.fecGroup.toNat = i / max m.dataShards 1
  isParity : desc.isParity = false
  checksum : X.blake3 body = desc.checksum
  size_le : desc.compressedSize.toNat ≤ cfg.chunkSize
  raw : desc.wasCompressed = false → body = chunkRaw src.bytes cfg.chunkSize i
  packed : desc.wasCompressed = true →
    maybeDecompress X body cfg.compression = some (chunkRaw src.bytes cfg.chunkSize i)

/-- How a data frame comes about: its chunk, possibly compressed, and the call that framed it. -/
theorem buildChunkPayload_eq {m : TransferManifest} {wire : Bytes}
    (hi : i < divCeil src.bytes.length cfg.chunkSize)
    (h : buildChunkPayload X cfg src.bytes i src.bytes.length m = some wire) :
    ∃ chunk, maybeCompress X (chunkRaw src.bytes cfg.chunkSize i) cfg.compression = some chunk ∧
      frame X
        { index := UInt64.ofNat i
          offset := UInt64.ofNat (i * cfg.chunkSize)
          compressedSize := UInt32.ofNat chunk.length
          uncompressedSize := UInt32.ofNat (chunkRaw src.bytes cfg.chunkSize i).length
          checksum := X.blake3 chunk
          wasCompressed := decide (chunk.length < (chunkRaw src.bytes cfg.chunkSize i).length)
          isParity := false
          parityIndex := 0
          fecGroup := UInt64.ofNat (i / max m.dataShards 1) } chunk = some wire := by
  unfold buildChunkPayload at h
  rw [readChunkRange_eq hi] at h
  simp only [frameChunk] at h
  cases hc : maybeCompress X (chunkRaw src.bytes cfg.chunkSize i) cfg.compression with
  | none => simp [hc] at h
  | some chunk =>
    simp only [hc] at h
    exact ⟨chunk, rfl, h⟩

theorem length_buildChunkPayload (hX : X.Lawful) {m : TransferManifest} {wire : Bytes}
    (hi : i < divCeil src.bytes.length cfg.chunkSize)
    (h : buildChunkPayload X cfg src.bytes i src.bytes.length m = some wire) :
    4 < wire.length ∧ wire.length ≤ 132 + cfg.chunkSize := by
  obtain ⟨chunk, hc, hframe⟩ := buildChunkPayload_eq hi h
  obtain ⟨hle, -, -⟩ := maybeCompress_spec hX hc
  obtain ⟨hpos, hlen⟩ := length_frame hX hframe
  have hraw := length_chunkRaw_le src.bytes cfg.chunkSize i
  omega

/-- Frames stay below 4 GiB, the range of the descriptor's sizes. -/
theorem SenderConfig.Fits.length_lt (hcfg : cfg.Fits) {wire : Bytes}
    (h : wire.length ≤ 264 + cfg.chunkSize) : wire.length < 2 ^ 32 := by
  have := hcfg.chunkSize_le
  omega

/-- **Every data frame describes its chunk.** -/
theorem buildChunkPayload_framedAs (hX : X.Lawful) {m : TransferManifest} {wire : Bytes}
    (hi : i < divCeil src.bytes.length cfg.chunkSize)
    (h : buildChunkPayload X cfg src.bytes i src.bytes.length m = some wire)
    (hsmall : wire.length < 2 ^ 32) :
    ∃ desc body, FramedAs X wire desc body ∧ DataDesc X cfg src m i desc body := by
  have hstart := chunkStart_lt hi
  have hlt := src.length_lt
  obtain ⟨chunk, hc, hframe⟩ := buildChunkPayload_eq hi h
  obtain ⟨hle, hsame, hback⟩ := maybeCompress_spec hX hc
  have hraw := length_chunkRaw_le src.bytes cfg.chunkSize i
  have hidx : i < 2 ^ 64 := lt_trans hi (divCeil_lt src cfg.chunkSize)
  have hbody := (length_frame hX hframe).1
  have hsize : (UInt32.ofNat chunk.length).toNat = chunk.length := by
    rw [UInt32.toNat_ofNat', Nat.mod_eq_of_lt (by omega)]
  refine ⟨_, chunk, FramedAs.of_frame (by simpa using hsize.symm) hframe, ?_⟩
  constructor
  · rw [UInt64.toNat_ofNat', Nat.mod_eq_of_lt hidx]
  · rw [UInt64.toNat_ofNat', Nat.mod_eq_of_lt (by omega)]
  · rw [UInt64.toNat_ofNat', Nat.mod_eq_of_lt (lt_of_le_of_lt (Nat.div_le_self _ _) hidx)]
  · rfl
  · rfl
  · simp only [hsize]
    omega
  · intro hw
    exact hsame (by simpa using hw)
  · intro hw
    exact hback (by simpa using hw)

end Chunks

end ScTransport
