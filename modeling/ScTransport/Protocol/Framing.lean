import ScTransport.Protocol.Types

/-!
# Compression and framing of chunks

A frame is a four byte length, the encoded descriptor, and the body. Data chunks and parity
rows share this layout (`frameChunk` in the sender, `frameFecWireShard` in the FEC encoder).

The receiver parses a frame twice: as it arrives, and again after Reed–Solomon returned it
padded with zeros to the longest row of its group. `FramedAs` therefore allows any padding
behind the body, and `FramedAs.parse` is the only place where a frame is taken apart.
-/

namespace ScTransport

open Infra

/-! ## Errors -/

/-- Errors of the data plane. -/
inductive ReceiveError where
  | truncatedChunkStream
  | frameLength (len max : Nat)
  | truncatedChunkDescriptor
  | decodeDescriptor
  | payloadTooLarge (index : Nat) (parity : Bool)
  | truncatedChunkBody
  | parityChecksumMismatch (fecGroup parityIndex : Nat)
  | chunkChecksumMismatch (index : Nat)
  | decompress
  | invalidFecDimensions
  deriving DecidableEq

/-- The texts of the source. Decoder failures carry the text of their package. -/
def ReceiveError.text : ReceiveError → String
  | .truncatedChunkStream => "truncated chunk stream"
  | .frameLength len max => s!"frame length {len} outside 1..={max}"
  | .truncatedChunkDescriptor => "truncated chunk descriptor"
  | .decodeDescriptor => "bincode"
  | .payloadTooLarge index parity => s!"payload too large at index {index} (parity={parity})"
  | .truncatedChunkBody => "truncated chunk body"
  | .parityChecksumMismatch fecGroup parityIndex =>
    s!"parity checksum mismatch fec_group={fecGroup} parity_index={parityIndex}"
  | .chunkChecksumMismatch index => s!"chunk checksum mismatch at {index}"
  | .decompress => "zstd"
  | .invalidFecDimensions => "invalid fec dimensions"

/-! ## Compression -/

/-- Magic bytes of formats that do not compress further. -/
def isLikelyCompressed : Bytes → Bool
  | 0x50 :: 0x4B :: 0x03 :: 0x04 :: _ => true -- ZIP
  | 0x1F :: 0x8B :: _ :: _ :: _ => true -- GZIP
  | 0x28 :: 0xB5 :: 0x2F :: 0xFD :: _ => true -- Zstd
  | 0x04 :: 0x22 :: 0x4D :: 0x18 :: _ => true -- LZ4
  | 0x89 :: 0x48 :: 0x44 :: 0x46 :: _ => true -- HDF5
  | 0x72 :: 0x6F :: 0x6F :: 0x74 :: _ => true -- ROOT
  | 0x42 :: 0x5A :: 0x68 :: _ :: _ => true -- BZ2
  | 0x37 :: 0x7A :: 0xBC :: 0xAF :: _ => true -- 7-Zip
  | _ => false

/-- Passes the input through unless zstd really makes it smaller. -/
def maybeCompress (X : Crates) (input : Bytes) : CompressionType → Option Bytes
  | .none => some input
  | .zstd level =>
    if isLikelyCompressed input then some input
    else
      match X.zstdEncodeAll level input with
      | none => none
      | some compressed =>
        if input.length ≤ compressed.length then some input else some compressed

def maybeDecompress (X : Crates) (input : Bytes) : CompressionType → Option Bytes
  | .none => some input
  | .zstd _ => X.zstdDecodeAll input

/--
**The length tells whether a chunk was compressed.**

`maybeCompress` never grows its input. Equal length means it was passed through, and a
shorter result is undone by `maybeDecompress`.
-/
theorem maybeCompress_spec {X : Crates} (hX : X.Lawful) {input out : Bytes}
    {mode : CompressionType} (h : maybeCompress X input mode = some out) :
    out.length ≤ input.length ∧ (¬ out.length < input.length → out = input) ∧
      (out.length < input.length → maybeDecompress X out mode = some input) := by
  cases mode with
  | none =>
    simp only [maybeCompress, Option.some.injEq] at h
    subst h
    exact ⟨le_rfl, fun _ => rfl, fun hlt => absurd hlt (lt_irrefl _)⟩
  | zstd level =>
    simp only [maybeCompress] at h
    split at h
    · simp only [Option.some.injEq] at h
      subst h
      exact ⟨le_rfl, fun _ => rfl, fun hlt => absurd hlt (lt_irrefl _)⟩
    · cases hz : X.zstdEncodeAll level input with
      | none => simp [hz] at h
      | some packed =>
        simp only [hz] at h
        split at h
        · simp only [Option.some.injEq] at h
          subst h
          exact ⟨le_rfl, fun _ => rfl, fun hlt => absurd hlt (lt_irrefl _)⟩
        · next hlt =>
          simp only [Option.some.injEq] at h
          subst h
          exact ⟨by omega, fun hge => absurd (by omega) hge, fun _ => hX.zstd_roundtrip hz⟩

/-! ## Frames -/

/-- `MAX_CHUNK_DESCRIPTOR_BYTES`. -/
def maxChunkDescriptorBytes : Nat := 1024 * 1024

/-- Length prefix, descriptor, body. -/
def frame (X : Crates) (desc : ChunkDescriptor) (body : Bytes) : Option Bytes :=
  match X.encodeDescriptor desc with
  | none => none
  | some descBytes => some (toBe32 descBytes.length ++ (descBytes ++ body))

/-- Framing fails only where the descriptor cannot be encoded. -/
theorem frame_ne_none {X : Crates} (henc : ∀ desc, ∃ bs, X.encodeDescriptor desc = some bs)
    (desc : ChunkDescriptor) (body : Bytes) : frame X desc body ≠ none := by
  obtain ⟨bs, hbs⟩ := henc desc
  unfold frame
  rw [hbs]
  exact Option.some_ne_none _

/-- Frame of a parity row, or of any raw shard. -/
def frameFecWireShard (X : Crates) (index offset : Nat) (rawShard : Bytes) (isParity : Bool)
    (parityIndex fecGroup : Nat) : Option Bytes :=
  frame X
    { index := UInt64.ofNat index
      offset := UInt64.ofNat offset
      compressedSize := UInt32.ofNat rawShard.length
      uncompressedSize := UInt32.ofNat rawShard.length
      checksum := X.blake3 rawShard
      wasCompressed := false
      isParity := isParity
      parityIndex := UInt64.ofNat parityIndex
      fecGroup := UInt64.ofNat fecGroup }
    rawShard

def checkFrameLen (len max : Nat) : Except ReceiveError Unit :=
  if len = 0 ∨ max < len then .error (.frameLength len max) else .ok ()

/-- The descriptor, the offset behind the length prefix, and the descriptor's length. -/
def parseFramedHeader (X : Crates) (wire : Bytes) :
    Except ReceiveError (ChunkDescriptor × Nat × Nat) := do
  if wire.length < 4 then throw .truncatedChunkStream
  let descLen := ofBe32 (slice wire 0 4)
  checkFrameLen descLen maxChunkDescriptorBytes
  if wire.length < 4 + descLen then throw .truncatedChunkDescriptor
  match X.decodeDescriptor (slice wire 4 descLen) with
  | none => throw .decodeDescriptor
  | some desc => return (desc, 4, descLen)

def peekFramedChunkIndex (X : Crates) (wire : Bytes) : Except ReceiveError Nat := do
  if wire.length < 4 then throw .truncatedChunkStream
  let (desc, _, _) ← parseFramedHeader X wire
  return desc.index.toNat

/-- `wire` is the frame of `desc` and `body`, followed by padding. -/
def FramedAs (X : Crates) (wire : Bytes) (desc : ChunkDescriptor) (body : Bytes) : Prop :=
  body.length = desc.compressedSize.toNat ∧ ∃ descBytes padding,
    X.encodeDescriptor desc = some descBytes ∧
      wire = toBe32 descBytes.length ++ (descBytes ++ (body ++ padding))

theorem FramedAs.of_frame {X : Crates} {desc : ChunkDescriptor} {body wire : Bytes}
    (hlen : body.length = desc.compressedSize.toNat) (h : frame X desc body = some wire) :
    FramedAs X wire desc body := by
  unfold frame at h
  cases he : X.encodeDescriptor desc with
  | none => simp [he] at h
  | some descBytes =>
    simp only [he, Option.some.injEq] at h
    exact ⟨hlen, descBytes, [], he, by rw [← h, List.append_nil]⟩

/-- Zero padding behind a frame does not disturb it. -/
theorem FramedAs.resize {X : Crates} {wire body : Bytes} {desc : ChunkDescriptor} {n : Nat}
    (h : FramedAs X wire desc body) (hn : wire.length ≤ n) :
    FramedAs X (resize wire n) desc body := by
  obtain ⟨hlen, descBytes, padding, he, hw⟩ := h
  refine ⟨hlen, descBytes, padding ++ List.replicate (n - wire.length) 0, he, ?_⟩
  rw [resize_of_le hn]
  nth_rewrite 1 [hw]
  simp

/-- **A frame parses back to its descriptor, and its body is where the parser looks.** -/
theorem FramedAs.parse {X : Crates} (hX : X.Lawful) {wire body : Bytes} {desc : ChunkDescriptor}
    (h : FramedAs X wire desc body) :
    ∃ descLen, parseFramedHeader X wire = .ok (desc, 4, descLen) ∧
      4 + descLen + desc.compressedSize.toNat ≤ wire.length ∧
      slice wire (4 + descLen) desc.compressedSize.toNat = body := by
  obtain ⟨hlen, descBytes, padding, he, hw⟩ := h
  obtain ⟨hpos, hle⟩ := hX.encode_length he
  have hwl : wire.length = 4 + descBytes.length + body.length + padding.length := by
    rw [hw]
    simp
    omega
  have hlead : slice wire 0 4 = toBe32 descBytes.length := by
    rw [hw]
    rfl
  have hdesc : slice wire 4 descBytes.length = descBytes := by
    rw [hw]
    exact slice_append_mid (toBe32 descBytes.length) descBytes (body ++ padding)
  refine ⟨descBytes.length, ?_, by omega, ?_⟩
  · unfold parseFramedHeader
    have hbe : ofBe32 (slice wire 0 4) = descBytes.length := by
      rw [hlead]
      exact ofBe32_toBe32 (by omega)
    have hchk : checkFrameLen descBytes.length maxChunkDescriptorBytes = .ok () := by
      unfold checkFrameLen maxChunkDescriptorBytes
      rw [if_neg (by omega)]
    simp only [hbe, hchk, hdesc, hX.decode_encode he]
    rw [if_neg (by omega), if_neg (by omega)]
    rfl
  · rw [hw, ← List.append_assoc, ← hlen]
    have := slice_append_mid (toBe32 descBytes.length ++ descBytes) body padding
    rwa [List.length_append, length_toBe32] at this

theorem FramedAs.length_body_le {X : Crates} {wire body : Bytes} {desc : ChunkDescriptor}
    (h : FramedAs X wire desc body) : body.length ≤ wire.length := by
  obtain ⟨-, descBytes, padding, -, hw⟩ := h
  rw [hw]
  simp
  omega

theorem FramedAs.peek {X : Crates} (hX : X.Lawful) {wire body : Bytes} {desc : ChunkDescriptor}
    (h : FramedAs X wire desc body) : peekFramedChunkIndex X wire = .ok desc.index.toNat := by
  obtain ⟨descLen, hparse, hlen, _⟩ := h.parse hX
  unfold peekFramedChunkIndex
  rw [if_neg (by omega), hparse]
  rfl

/-- The length of a frame, which the shard padding of a group depends on. -/
theorem length_frame {X : Crates} (hX : X.Lawful) {desc : ChunkDescriptor} {body wire : Bytes}
    (h : frame X desc body = some wire) :
    4 + body.length < wire.length ∧ wire.length ≤ 132 + body.length := by
  unfold frame at h
  cases he : X.encodeDescriptor desc with
  | none => simp [he] at h
  | some descBytes =>
    simp only [he, Option.some.injEq] at h
    obtain ⟨hpos, hle⟩ := hX.encode_length he
    rw [← h]
    simp
    omega

end ScTransport
