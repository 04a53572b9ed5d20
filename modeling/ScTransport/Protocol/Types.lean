import ScTransport.Infra.Erasure

/-!
# Wire types, and the crates the transfer path links against

The messages of `sct-proto` as the source declares them. Fields of the chunk descriptor keep
their machine width, because the descriptor is what an untrusted peer sends. The manifest
stores its integers as `Nat` together with the bounds its types impose. `usize` is 64 bits.

`Crates` collects what the code calls in other packages: BLAKE3, zstd, bincode for the
descriptor, and Reed–Solomon. Nothing is known of them except `Crates.Lawful` and
`Crates.RsLawful`, which state what the respective documentation promises.
-/

namespace ScTransport

open Infra

/-! ## Machine integers -/

/-- `u64::MAX`. -/
def u64Max : Nat := 2 ^ 64 - 1

/-- `u64::saturating_add`. -/
def satAdd (a b : Nat) : Nat := min (a + b) u64Max

/-- `u64::saturating_mul`. -/
def satMul (a b : Nat) : Nat := min (a * b) u64Max

theorem satAdd_eq {a b : Nat} (h : a + b < 2 ^ 64) : satAdd a b = a + b := by
  unfold satAdd u64Max
  omega

theorem satMul_eq {a b : Nat} (h : a * b < 2 ^ 64) : satMul a b = a * b := by
  unfold satMul u64Max
  omega

/-! ## Messages -/

/-- A BLAKE3 hash, `[u8; 32]`. -/
structure Digest where
  bytes : Bytes
  length_eq : bytes.length = 32
  deriving DecidableEq

/-- `[0u8; 32]`, the receiver's mark for a chunk it could not hash. -/
def Digest.zero : Digest := ⟨List.replicate 32 0, by simp⟩

/-- Lower case, as `{:x}` prints it. -/
def hexDigit (n : Nat) : Char := Char.ofNat (if n < 10 then 48 + n else 87 + n)

/-- Two digits a byte, as `blake3::Hash::to_hex` writes a hash. -/
def Digest.toHex (d : Digest) : List Char :=
  d.bytes.flatMap fun b => [hexDigit (b.toNat / 16), hexDigit (b.toNat % 16)]

inductive CompressionType where
  | none
  | zstd (level : Int)
  deriving DecidableEq

structure ChunkDescriptor where
  index : UInt64
  offset : UInt64
  compressedSize : UInt32
  uncompressedSize : UInt32
  checksum : Digest
  wasCompressed : Bool
  isParity : Bool
  parityIndex : UInt64
  fecGroup : UInt64
  deriving DecidableEq

/-- What the sender announces. `checksum_algorithm` and `metadata` are never read. -/
structure TransferManifest where
  transferId : Bytes
  filename : List Char
  totalSize : Nat
  chunkSize : Nat
  numChunks : Nat
  fileChecksum : Digest
  compression : CompressionType
  dataShards : Nat
  parityShards : Nat
  totalSize_lt : totalSize < 2 ^ 64
  chunkSize_lt : chunkSize < 2 ^ 32
  numChunks_lt : numChunks < 2 ^ 64

/-- `chunkHashes` is empty when the receiver has nothing to compare. -/
structure ManifestAck where
  accepted : Bool
  message : Option String
  receivedChunks : List Nat
  chunkHashes : List Digest

structure TransferComplete where
  transferId : Bytes
  deriving DecidableEq

structure FinalAck where
  success : Bool
  message : Option String
  deriving DecidableEq

/-! ## Other packages -/

/-- The functions called in other packages. `none` is an `Err`. -/
structure Crates where
  /-- `blake3::hash` -/
  blake3 : Bytes → Digest
  /-- `zstd::stream::encode_all` -/
  zstdEncodeAll : Int → Bytes → Option Bytes
  /-- `zstd::stream::decode_all` -/
  zstdDecodeAll : Bytes → Option Bytes
  /-- `protocol::encode` at `ChunkDescriptor` -/
  encodeDescriptor : ChunkDescriptor → Option Bytes
  /-- `protocol::decode` at `ChunkDescriptor` -/
  decodeDescriptor : Bytes → Option ChunkDescriptor
  /-- whether `ReedSolomon::new(data, parity)` accepts the dimensions -/
  rsNew : Nat → Nat → Bool
  /-- `ReedSolomon::encode`: all rows in, all rows out -/
  rsEncode : Nat → Nat → List Bytes → Option (List Bytes)
  /-- `ReedSolomon::reconstruct_data` -/
  rsReconstructData : Nat → Nat → List (Option Bytes) → Option (List (Option Bytes))

/--
zstd and bincode undo themselves, an encoded descriptor is short and not empty, and
Reed–Solomon over bytes has room for 256 rows.
-/
structure Crates.Lawful (X : Crates) : Prop where
  zstd_roundtrip : ∀ {level : Int} {raw packed : Bytes},
    X.zstdEncodeAll level raw = some packed → X.zstdDecodeAll packed = some raw
  decode_encode : ∀ {desc : ChunkDescriptor} {bs : Bytes},
    X.encodeDescriptor desc = some bs → X.decodeDescriptor bs = some desc
  encode_length : ∀ {desc : ChunkDescriptor} {bs : Bytes},
    X.encodeDescriptor desc = some bs → 0 < bs.length ∧ bs.length ≤ 128
  rs_limit : ∀ {n p : Nat}, 256 < n + p → X.rsNew n p = false

/-- The rows handed to `encode`: the data rows and zeroed parity rows. -/
def encodeInput (data : List Bytes) (p len : Nat) : List Bytes :=
  data ++ List.replicate p (List.replicate len 0)

/-- `data` is a block of `n` rows, all of the positive length `len`. -/
structure IsBlock (data : List Bytes) (n len : Nat) : Prop where
  length_eq : data.length = n
  len_pos : 0 < len
  row_length : ∀ r ∈ data, r.length = len

/--
What the code relies on in Reed–Solomon for `n` data and at most `p` parity rows.

Encoding keeps the data rows. Parity row `i` does not depend on how many parity rows are
asked for. Any `n` rows of one encoding give the data rows back.
-/
structure Crates.RsLawful (X : Crates) (n p : Nat) : Prop where
  new_ok : ∀ {p' : Nat}, 0 < p' → p' ≤ p → X.rsNew n p' = true
  encode_ok : ∀ {data : List Bytes} {len : Nat}, IsBlock data n len →
    ∃ parity : List Bytes, IsBlock parity p len ∧ ∀ p', 0 < p' → p' ≤ p →
      X.rsEncode n p' (encodeInput data p' len) = some (data ++ parity.take p')
  reconstruct_ok : ∀ {data parity : List Bytes} {len : Nat} {shards : List (Option Bytes)},
    IsBlock data n len → X.rsEncode n p (encodeInput data p len) = some (data ++ parity) →
    Agrees shards (data ++ parity) → n ≤ present shards →
    ∃ out, X.rsReconstructData n p shards = some out ∧
      ∀ (i : Nat) (r : Bytes), data[i]? = some r → out[i]? = some (some r)

end ScTransport
