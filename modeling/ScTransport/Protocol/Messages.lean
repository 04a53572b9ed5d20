import ScTransport.Fec.Reference
import ScTransport.Infra.Codec

/-!
# Messages on the wire

The four messages of `sct-proto` that have fields with a serde default. bincode writes a struct as
its fields one after the other; how it writes a field is left open. The readers are those that
`#[derive(Deserialize)]` makes. A manifest, an acknowledgement and a feedback frame stand here with
all their fields in machine width; the rest of the development reads parts of them.

* `Wire.FieldCodecs` — writing and reading the types of the fields
* `Wire.chunkDescriptor`, `Wire.transferManifest`, `Wire.manifestAck`,
  `Wire.receiverFeedbackFrame` — the records
* `old_encodings_unreadable` — no encoding without the later fields is read
* `Wire.FieldCodecs.bincode` — bincode's standard configuration
-/

namespace ScTransport

open Infra

namespace Wire

inductive ChecksumAlg where
  | blake3
  deriving DecidableEq

inductive CompressionType where
  | none
  | zstd (level : Int32)
  deriving DecidableEq

/-- `[u8; 16]`. -/
abbrev TransferId := { bs : Bytes // bs.length = 16 }

structure TransferManifest where
  transferId : TransferId
  filename : Text
  totalSize : UInt64
  chunkSize : UInt32
  numChunks : UInt64
  checksumAlgorithm : ChecksumAlg
  fileChecksum : Digest
  compression : CompressionType
  /-- The entries in the order in which the map visits them. -/
  metadata : Vec (Text × Text)
  dataShards : UInt64
  parityShards : UInt64

structure ManifestAck where
  accepted : Bool
  message : Option Text
  receivedChunks : Vec UInt64
  chunkHashes : Vec Digest

/-- The three rates by their bits. -/
structure ReceiverFeedbackFrame where
  transferId : TransferId
  decodeDelayMs : UInt32
  bufferOccupancy : UInt32
  cpuLoad : UInt32
  lossHint : UInt32
  rttMs : UInt32
  completedBlockId : Option UInt64
  blockReconstructable : Bool
  missingChunkIndices : Vec UInt64

/-! ## Fields -/

/-- How bincode writes and reads the types of the fields. Of its layout only the laws of a `Codec`
are used: what is written is read back, and nothing is read from no bytes. -/
structure FieldCodecs where
  u32 : Codec UInt32
  u64 : Codec UInt64
  f32 : Codec UInt32
  bool : Codec Bool
  text : Codec Text
  digest : Codec Digest
  transferId : Codec TransferId
  checksumAlg : Codec ChecksumAlg
  compressionType : Codec CompressionType
  metadata : Codec (Vec (Text × Text))
  message : Codec (Option Text)
  blockId : Codec (Option UInt64)
  indices : Codec (Vec UInt64)
  hashes : Codec (Vec Digest)

/-! ## Records -/

def defaultDataShards : UInt64 := 4

section Records

variable (C : FieldCodecs)

def chunkDescriptor : Record ChunkDescriptor where
  visit := do
    return {
      index := ← field C.u64
      offset := ← field C.u64
      compressedSize := ← field C.u32
      uncompressedSize := ← field C.u32
      checksum := ← field C.digest
      wasCompressed := ← fieldOr C.bool false
      isParity := ← fieldOr C.bool false
      parityIndex := ← fieldOr C.u64 0
      fecGroup := ← fieldOr C.u64 0 }
  encodeFields d := [
    C.u64.encode d.index,
    C.u64.encode d.offset,
    C.u32.encode d.compressedSize,
    C.u32.encode d.uncompressedSize,
    C.digest.encode d.checksum,
    C.bool.encode d.wasCompressed,
    C.bool.encode d.isParity,
    C.u64.encode d.parityIndex,
    C.u64.encode d.fecGroup]
  fields := 9
  oldFields := 5
  withDefaults d :=
    { d with wasCompressed := false, isParity := false, parityIndex := 0, fecGroup := 0 }

def transferManifest : Record TransferManifest where
  visit := do
    return {
      transferId := ← field C.transferId
      filename := ← field C.text
      totalSize := ← field C.u64
      chunkSize := ← field C.u32
      numChunks := ← field C.u64
      checksumAlgorithm := ← field C.checksumAlg
      fileChecksum := ← field C.digest
      compression := ← field C.compressionType
      metadata := ← field C.metadata
      dataShards := ← fieldOr C.u64 defaultDataShards
      parityShards := ← fieldOr C.u64 0 }
  encodeFields m := [
    C.transferId.encode m.transferId,
    C.text.encode m.filename,
    C.u64.encode m.totalSize,
    C.u32.encode m.chunkSize,
    C.u64.encode m.numChunks,
    C.checksumAlg.encode m.checksumAlgorithm,
    C.digest.encode m.fileChecksum,
    C.compressionType.encode m.compression,
    C.metadata.encode m.metadata,
    C.u64.encode m.dataShards,
    C.u64.encode m.parityShards]
  fields := 11
  oldFields := 9
  withDefaults m := { m with dataShards := defaultDataShards, parityShards := 0 }

def manifestAck : Record ManifestAck where
  visit := do
    return {
      accepted := ← field C.bool
      message := ← field C.message
      receivedChunks := ← field C.indices
      chunkHashes := ← fieldOr C.hashes ⟨[], by decide⟩ }
  encodeFields a := [
    C.bool.encode a.accepted,
    C.message.encode a.message,
    C.indices.encode a.receivedChunks,
    C.hashes.encode a.chunkHashes]
  fields := 4
  oldFields := 3
  withDefaults a := { a with chunkHashes := ⟨[], by decide⟩ }

def receiverFeedbackFrame : Record ReceiverFeedbackFrame where
  visit := do
    return {
      transferId := ← field C.transferId
      decodeDelayMs := ← field C.u32
      bufferOccupancy := ← field C.f32
      cpuLoad := ← field C.f32
      lossHint := ← field C.f32
      rttMs := ← field C.u32
      completedBlockId := ← fieldOr C.blockId none
      blockReconstructable := ← fieldOr C.bool false
      missingChunkIndices := ← fieldOr C.indices ⟨[], by decide⟩ }
  encodeFields f := [
    C.transferId.encode f.transferId,
    C.u32.encode f.decodeDelayMs,
    C.f32.encode f.bufferOccupancy,
    C.f32.encode f.cpuLoad,
    C.f32.encode f.lossHint,
    C.u32.encode f.rttMs,
    C.blockId.encode f.completedBlockId,
    C.bool.encode f.blockReconstructable,
    C.indices.encode f.missingChunkIndices]
  fields := 9
  oldFields := 6
  withDefaults f :=
    { f with
      completedBlockId := none
      blockReconstructable := false
      missingChunkIndices := ⟨[], by decide⟩ }

/-! ## Reading -/

theorem chunkDescriptor_positional : (chunkDescriptor C).Positional where
  length_encodeFields _ := rfl
  visit_encode _ := by
    simp only [Record.encode, chunkDescriptor, List.flatten_cons, List.flatten_nil, field_bind,
      fieldOr_bind, visit_pure]
  visit_encodeOld _ := by
    simp only [Record.encodeOld, chunkDescriptor, List.take_succ_cons, List.take_zero,
      List.flatten_cons, List.flatten_nil, field_bind, fieldOr_bind_done, visit_pure]
  visit_fields_encodeOld _ := by
    simp only [Record.encodeOld, chunkDescriptor, List.take_succ_cons, List.take_zero,
      List.flatten_cons, List.flatten_nil, field_bind, fieldOr_bind_nil]

theorem transferManifest_positional : (transferManifest C).Positional where
  length_encodeFields _ := rfl
  visit_encode _ := by
    simp only [Record.encode, transferManifest, List.flatten_cons, List.flatten_nil, field_bind,
      fieldOr_bind, visit_pure]
  visit_encodeOld _ := by
    simp only [Record.encodeOld, transferManifest, List.take_succ_cons, List.take_zero,
      List.flatten_cons, List.flatten_nil, field_bind, fieldOr_bind_done, visit_pure]
  visit_fields_encodeOld _ := by
    simp only [Record.encodeOld, transferManifest, List.take_succ_cons, List.take_zero,
      List.flatten_cons, List.flatten_nil, field_bind, fieldOr_bind_nil]

theorem manifestAck_positional : (manifestAck C).Positional where
  length_encodeFields _ := rfl
  visit_encode _ := by
    simp only [Record.encode, manifestAck, List.flatten_cons, List.flatten_nil, field_bind,
      fieldOr_bind, visit_pure]
  visit_encodeOld _ := by
    simp only [Record.encodeOld, manifestAck, List.take_succ_cons, List.take_zero,
      List.flatten_cons, List.flatten_nil, field_bind, fieldOr_bind_done, visit_pure]
  visit_fields_encodeOld _ := by
    simp only [Record.encodeOld, manifestAck, List.take_succ_cons, List.take_zero,
      List.flatten_cons, List.flatten_nil, field_bind, fieldOr_bind_nil]

theorem receiverFeedbackFrame_positional : (receiverFeedbackFrame C).Positional where
  length_encodeFields _ := rfl
  visit_encode _ := by
    simp only [Record.encode, receiverFeedbackFrame, List.flatten_cons, List.flatten_nil,
      field_bind, fieldOr_bind, visit_pure]
  visit_encodeOld _ := by
    simp only [Record.encodeOld, receiverFeedbackFrame, List.take_succ_cons, List.take_zero,
      List.flatten_cons, List.flatten_nil, field_bind, fieldOr_bind_done, visit_pure]
  visit_fields_encodeOld _ := by
    simp only [Record.encodeOld, receiverFeedbackFrame, List.take_succ_cons, List.take_zero,
      List.flatten_cons, List.flatten_nil, field_bind, fieldOr_bind_nil]

end Records

end Wire

/--
**Older encodings are not read.** A message that ends before its first field with a default is
refused, whatever its value: the access promises all fields, so the reader asks for a field behind
the end and does not come to its default.
-/
theorem old_encodings_unreadable (C : Wire.FieldCodecs) (d : ChunkDescriptor)
    (m : Wire.TransferManifest) (a : Wire.ManifestAck) (f : Wire.ReceiverFeedbackFrame) :
    (Wire.chunkDescriptor C).decode ((Wire.chunkDescriptor C).encodeOld d) = none ∧
    (Wire.transferManifest C).decode ((Wire.transferManifest C).encodeOld m) = none ∧
    (Wire.manifestAck C).decode ((Wire.manifestAck C).encodeOld a) = none ∧
    (Wire.receiverFeedbackFrame C).decode ((Wire.receiverFeedbackFrame C).encodeOld f) = none :=
  ⟨(Wire.chunkDescriptor_positional C).decode_encodeOld d,
    (Wire.transferManifest_positional C).decode_encodeOld m,
    (Wire.manifestAck_positional C).decode_encodeOld a,
    (Wire.receiverFeedbackFrame_positional C).decode_encodeOld f⟩

/-! ## The standard configuration of bincode -/

namespace Wire

def digest : Codec Digest :=
  (Codec.byteArray 32 (by decide)).equiv ⟨fun bs => ⟨bs.1, bs.2⟩, fun d => ⟨d.bytes, d.length_eq⟩,
    fun _ => rfl, fun _ => rfl⟩

def transferId : Codec TransferId := Codec.byteArray 16 (by decide)

/-- A variant is its number and its fields. -/
def checksumAlg : Codec ChecksumAlg where
  encode _ := Codec.u32.encode 0
  decode bs := (Codec.u32.decode bs).bind fun r => if r.1 = 0 then some (.blake3, r.2) else none
  decode_encode _ rest := by
    rw [Codec.u32.decode_encode, Option.bind_some, if_pos rfl]
  decode_nil := rfl

def compressionType : Codec CompressionType where
  encode
    | .none => Codec.u32.encode 0
    | .zstd level => Codec.u32.encode 1 ++ Codec.i32.encode level
  decode bs :=
    (Codec.u32.decode bs).bind fun r =>
      if r.1 = 0 then some (.none, r.2)
      else if r.1 = 1 then (Codec.i32.decode r.2).map fun r => (.zstd r.1, r.2)
      else none
  decode_encode compression rest := by
    cases compression with
    | none =>
      dsimp only
      rw [Codec.u32.decode_encode, Option.bind_some, if_pos rfl]
    | zstd level =>
      dsimp only
      rw [List.append_assoc, Codec.u32.decode_encode, Option.bind_some,
        if_neg (by decide : (1 : UInt32) ≠ 0), if_pos rfl, Codec.i32.decode_encode,
        Option.map_some]
  decode_nil := rfl

def FieldCodecs.bincode : FieldCodecs where
  u32 := .u32
  u64 := .u64
  f32 := .f32
  bool := .bool
  text := .text
  digest := Wire.digest
  transferId := Wire.transferId
  checksumAlg := Wire.checksumAlg
  compressionType := Wire.compressionType
  metadata := (Codec.text.pair .text).vec
  message := Codec.text.option
  blockId := Codec.u64.option
  indices := Codec.u64.vec
  hashes := Wire.digest.vec

end Wire

/-- The reference crates write a descriptor this way. -/
theorem bincodeEncode_eq (d : ChunkDescriptor) :
    bincodeEncode d = (Wire.chunkDescriptor .bincode).encode d := by
  have hbool : ∀ b : Bool, Wire.FieldCodecs.bincode.bool.encode b = [encodeBool b] := by
    intro b
    cases b <;> rfl
  simp only [Record.encode, Wire.chunkDescriptor, List.flatten_cons, List.flatten_nil, hbool,
    List.append_nil, List.singleton_append]
  rfl

def sampleDescriptor : ChunkDescriptor := ⟨0, 0, 5, 5, .zero, false, false, 0, 0⟩

/-- A descriptor whose later fields are at their defaults reads back, but not without them. -/
theorem sampleDescriptor_old_unreadable :
    (Wire.chunkDescriptor .bincode).withDefaults sampleDescriptor = sampleDescriptor ∧
    (Wire.chunkDescriptor .bincode).decode
      ((Wire.chunkDescriptor .bincode).encode sampleDescriptor) = some sampleDescriptor ∧
    (Wire.chunkDescriptor .bincode).decode
      ((Wire.chunkDescriptor .bincode).encodeOld sampleDescriptor) = none := by
  decide +kernel

end ScTransport
