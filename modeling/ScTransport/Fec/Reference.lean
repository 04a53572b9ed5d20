import ScTransport.Fec.Group
import ScTransport.Infra.Varint
import ScTransport.Infra.Gf256

/-!
# A concrete instance of the crates

The descriptor codec is bincode's standard configuration: integers are varints, a `bool` is
one byte, and `[u8; 32]` is its bytes. Reed–Solomon is implemented for two data rows and one
parity row. BLAKE3 is a table of the digests that the small transfer below needs. Nothing is
compressed, so zstd is never called.

* `Crates.reference_lawful`, `Crates.reference_rsLawful` — what the development assumes of the
  crates holds here
-/

namespace ScTransport

open Infra

/-! ## The descriptor codec -/

def encodeBool (b : Bool) : UInt8 := if b then 1 else 0

def readBool : Bytes → Option (Bool × Bytes)
  | [] => none
  | b :: rest => if b = 0 then some (false, rest) else if b = 1 then some (true, rest) else none

def readDigest (bs : Bytes) : Option (Digest × Bytes) :=
  if h : (bs.take 32).length = 32 then some (⟨bs.take 32, h⟩, bs.drop 32) else none

/-- A `u32` does not take the eight byte form. -/
def readVarint32 (bs : Bytes) : Option (Nat × Bytes) :=
  match readVarint bs with
  | none => none
  | some (n, rest) => if n < 2 ^ 32 then some (n, rest) else none

def bincodeEncode (desc : ChunkDescriptor) : Bytes :=
  varint desc.index.toNat ++ (varint desc.offset.toNat ++ (varint desc.compressedSize.toNat ++
    (varint desc.uncompressedSize.toNat ++ (desc.checksum.bytes ++
      (encodeBool desc.wasCompressed :: encodeBool desc.isParity ::
        (varint desc.parityIndex.toNat ++ varint desc.fecGroup.toNat))))))

def bincodeDecode (bs : Bytes) : Option ChunkDescriptor := do
  let (index, bs) ← readVarint bs
  let (offset, bs) ← readVarint bs
  let (compressedSize, bs) ← readVarint32 bs
  let (uncompressedSize, bs) ← readVarint32 bs
  let (checksum, bs) ← readDigest bs
  let (wasCompressed, bs) ← readBool bs
  let (isParity, bs) ← readBool bs
  let (parityIndex, bs) ← readVarint bs
  let (fecGroup, _) ← readVarint bs
  return {
    index := UInt64.ofNat index
    offset := UInt64.ofNat offset
    compressedSize := UInt32.ofNat compressedSize
    uncompressedSize := UInt32.ofNat uncompressedSize
    checksum := checksum
    wasCompressed := wasCompressed
    isParity := isParity
    parityIndex := UInt64.ofNat parityIndex
    fecGroup := UInt64.ofNat fecGroup }

theorem readBool_encodeBool (b : Bool) (rest : Bytes) :
    readBool (encodeBool b :: rest) = some (b, rest) := by
  cases b <;> rfl

theorem readDigest_append (d : Digest) (rest : Bytes) :
    readDigest (d.bytes ++ rest) = some (d, rest) := by
  have htake : (d.bytes ++ rest).take 32 = d.bytes := List.take_left' d.length_eq
  unfold readDigest
  rw [dif_pos (by rw [htake]; exact d.length_eq), List.drop_left' d.length_eq]
  simp only [htake]

theorem readVarint_u64 (n : UInt64) (rest : Bytes) :
    readVarint (varint n.toNat ++ rest) = some (n.toNat, rest) :=
  readVarint_varint n.toNat_lt rest

theorem readVarint32_u32 (n : UInt32) (rest : Bytes) :
    readVarint32 (varint n.toNat ++ rest) = some (n.toNat, rest) := by
  have hlt := n.toNat_lt
  unfold readVarint32
  rw [readVarint_varint (by omega)]
  exact if_pos hlt

/-- **A descriptor reads back.** -/
theorem bincodeDecode_encode (desc : ChunkDescriptor) :
    bincodeDecode (bincodeEncode desc) = some desc := by
  have hlast : readVarint (varint desc.fecGroup.toNat) = some (desc.fecGroup.toNat, []) := by
    have := readVarint_u64 desc.fecGroup []
    rwa [List.append_nil] at this
  unfold bincodeDecode bincodeEncode
  simp only [readVarint_u64, readVarint32_u32, readDigest_append, readBool_encodeBool, hlast,
    bind, Option.bind, UInt64.ofNat_toNat, UInt32.ofNat_toNat]
  rfl

theorem length_bincodeEncode (desc : ChunkDescriptor) :
    0 < (bincodeEncode desc).length ∧ (bincodeEncode desc).length ≤ 128 := by
  have h1 := length_varint desc.index.toNat
  have h2 := length_varint desc.offset.toNat
  have h3 := length_varint desc.compressedSize.toNat
  have h4 := length_varint desc.uncompressedSize.toNat
  have h5 := length_varint desc.parityIndex.toNat
  have h6 := length_varint desc.fecGroup.toNat
  have h7 := desc.checksum.length_eq
  simp only [bincodeEncode, List.length_append, List.length_cons]
  omega

/-! ## Reed–Solomon with two data rows and one parity row -/

def rsEncode21 : Nat → Nat → List Bytes → Option (List Bytes)
  | 2, 1, [a, b, _] => some [a, b, Gf256.parityRow a b]
  | _, _, _ => none

def rsReconstruct21 : Nat → Nat → List (Option Bytes) → Option (List (Option Bytes))
  | 2, 1, [some a, some b, c] => some [some a, some b, c]
  | 2, 1, [some a, none, some c] => some [some a, some (Gf256.secondRow a c), some c]
  | 2, 1, [none, some b, some c] => some [some (Gf256.firstRow b c), some b, some c]
  | _, _, _ => none

/-! ## BLAKE3 on a few inputs -/

/-- The digest with this big-endian value. -/
def Digest.ofNat (n : Nat) : Digest :=
  ⟨(List.range 32).map fun i => UInt8.ofNat (n / 256 ^ (31 - i)), by simp⟩

/-- Every piece of the file `abc`, its transfer id as `f`, and the parity row of its two frames
when it is cut into `ab` and `c`. -/
def knownDigests : List (Bytes × Digest) :=
  [([], .ofNat 0xaf1349b9f5f9a1a6a0404dea36dcc9499bcb25c9adc112b7cc9a93cae41f3262),
   ([97], .ofNat 0x17762fddd969a453925d65717ac3eea21320b66b54342fde15128d6caf21215f),
   ([98], .ofNat 0x10e5cf3d3c8a4f9f3468c8cc58eea84892a22fdadbc1acb22410190044c1d553),
   ([98, 99], .ofNat 0xc0c2373a42840ac99572d6d72850acb51e0f6c6d08364c4a862b424e53cceab3),
   ([97, 98], .ofNat 0x2dc99999a6aaef3f20349d2ed4057a2b54419545dabb809e6381de1bad8337e2),
   ([99], .ofNat 0xea7aa1fc9efdbe106dbb70369a75e9671fa29d52bd55536711bf197477b8f021),
   ([97, 98, 99], .ofNat 0x6437b3ac38465133ffb63b75273a8db548c558465d79db03fd359c6cd5bd9d85),
   ([102, 3, 0, 0, 0, 0, 0, 0, 0, 100, 55, 179, 172, 56, 70, 81, 51, 255, 182, 59, 117, 39, 58,
     141, 181, 72, 197, 88, 70, 93, 121, 219, 3, 253, 53, 156, 108, 213, 189, 157, 133],
    .ofNat 0xf6678b23cbae212f4abd20ccdd468d57b5cd2aeaee2b36dc7759940c2d571267),
   ([0, 0, 0, 40, 2, 4, 4, 4, 190, 178, 233, 83, 214, 4, 77, 97, 186, 55, 90, 30, 72, 229, 65,
     179, 194, 154, 133, 107, 20, 122, 59, 113, 135, 253, 77, 197, 4, 245, 164, 121, 0, 0, 0, 0,
     101, 166],
    .ofNat 0x3a0708e133357e7dc4cec0ab15048ace101f4958bd189468abfadbb40ae55e77)]

def blake3Table (b : Bytes) : Digest := (knownDigests.lookup b).getD (.ofNat 1)

/-- No second input has the digest of a known one. -/
theorem blake3Table_inj {known : Bytes} (hk : known ∈ knownDigests.map Prod.fst) {b : Bytes}
    (h : blake3Table b = blake3Table known) : b = known := by
  have hdistinct : ∀ x ∈ knownDigests, blake3Table x.1 ≠ .ofNat 1 ∧
      ∀ y ∈ knownDigests, blake3Table x.1 = y.2 → y.1 = x.1 := by
    decide +kernel
  obtain ⟨x, hx, rfl⟩ := List.mem_map.mp hk
  obtain ⟨hfallback, hinj⟩ := hdistinct x hx
  cases hl : knownDigests.lookup b with
  | none =>
    have hb : blake3Table b = .ofNat 1 := by simp [blake3Table, hl]
    exact absurd (h.symm.trans hb) hfallback
  | some d =>
    have hb : blake3Table b = d := by simp [blake3Table, hl]
    obtain ⟨l₁, l₂, heq, -⟩ := List.lookup_eq_some_iff.mp hl
    exact hinj (b, d) (by rw [heq]; simp) (h.symm.trans hb)

/-! ## The instance -/

def Crates.reference : Crates where
  blake3 := blake3Table
  zstdEncodeAll := fun _ _ => none
  zstdDecodeAll := fun _ => none
  encodeDescriptor := fun desc => some (bincodeEncode desc)
  decodeDescriptor := bincodeDecode
  rsNew := fun n p => decide (0 < n ∧ 0 < p ∧ n + p ≤ 256)
  rsEncode := rsEncode21
  rsReconstructData := rsReconstruct21

theorem Crates.reference_lawful : Crates.reference.Lawful where
  zstd_roundtrip := by
    intro level raw packed h
    cases h
  decode_encode := by
    intro desc bs h
    cases h
    exact bincodeDecode_encode desc
  encode_length := by
    intro desc bs h
    cases h
    exact length_bincodeEncode desc
  rs_limit := by
    intro n p h
    exact decide_eq_false (by omega)

/-- A block of two rows is two rows. -/
theorem IsBlock.two {data : List Bytes} {len : Nat} (h : IsBlock data 2 len) :
    ∃ a b, data = [a, b] ∧ a.length = len ∧ b.length = len := by
  obtain ⟨a, b, rfl⟩ := List.length_eq_two.mp h.length_eq
  exact ⟨a, b, rfl, h.row_length a (by simp), h.row_length b (by simp)⟩

/-- Two rows of the codeword give both data rows back. -/
theorem rsReconstruct21_agrees {a b : Bytes} (hab : a.length = b.length)
    {shards : List (Option Bytes)} (h : Agrees shards [a, b, Gf256.parityRow a b])
    (hpresent : 2 ≤ present shards) :
    ∃ o, rsReconstruct21 2 1 shards = some [some a, some b, o] := by
  obtain ⟨x, y, z, rfl⟩ := List.length_eq_three.mp h.length_eq
  have hx : ∀ r, x = some r → a = r := fun r hr => by
    simpa using h.row (i := 0) (b := r) (by simp [hr])
  have hy : ∀ r, y = some r → b = r := fun r hr => by
    simpa using h.row (i := 1) (b := r) (by simp [hr])
  have hz : ∀ r, z = some r → Gf256.parityRow a b = r := fun r hr => by
    simpa using h.row (i := 2) (b := r) (by simp [hr])
  match x, y, z with
  | some r, some r', z =>
    obtain rfl := hx r rfl
    obtain rfl := hy r' rfl
    exact ⟨z, rfl⟩
  | some r, none, some c =>
    obtain rfl := hx r rfl
    obtain rfl := hz c rfl
    refine ⟨some (Gf256.parityRow a b), ?_⟩
    show some [some a, some (Gf256.secondRow a _), some _] = _
    rw [Gf256.secondRow_parityRow hab]
  | none, some r', some c =>
    obtain rfl := hy r' rfl
    obtain rfl := hz c rfl
    refine ⟨some (Gf256.parityRow a b), ?_⟩
    show some [some (Gf256.firstRow b _), some b, some _] = _
    rw [Gf256.firstRow_parityRow hab]
  | some _, none, none => simp [present] at hpresent
  | none, some _, none => simp [present] at hpresent
  | none, none, some _ => simp [present] at hpresent
  | none, none, none => simp [present] at hpresent

theorem Crates.reference_rsLawful : Crates.reference.RsLawful 2 1 where
  new_ok := by
    intro p' h0 h1
    exact decide_eq_true (by omega)
  encode_ok := by
    intro data len h
    obtain ⟨a, b, rfl, ha, hb⟩ := h.two
    refine ⟨[Gf256.parityRow a b], ⟨rfl, h.len_pos, ?_⟩, ?_⟩
    · intro r hr
      rw [List.mem_singleton.mp hr, Gf256.length_parityRow (ha.trans hb.symm), ha]
    · intro p' h0 h1
      obtain rfl : p' = 1 := by omega
      rfl
  reconstruct_ok := by
    intro data parity len shards h henc hagree hpresent
    obtain ⟨a, b, rfl, ha, hb⟩ := h.two
    obtain rfl : parity = [Gf256.parityRow a b] := by
      have henc' : some [a, b, Gf256.parityRow a b] = some ([a, b] ++ parity) := henc
      simpa using henc'.symm
    obtain ⟨o, ho⟩ := rsReconstruct21_agrees (ha.trans hb.symm) hagree hpresent
    refine ⟨_, ho, fun i r hi => ?_⟩
    match i with
    | 0 => simpa using hi
    | 1 => simpa using hi
    | i + 2 => simp at hi

/-! ## A small transfer -/

/-- The file `abc`, sent as `f` in chunks of two bytes; the two chunks are one FEC group. -/
def sample : Transfer where
  cfg := ⟨2, .none, true⟩
  filename := ['f']
  src := ⟨[97, 98, 99], by decide⟩
  fec := ⟨2, 1⟩

/-- The data packets of the sample, in the wrong order. -/
def samplePackets : List Packet :=
  [1, 0].map fun i =>
    { id := i
      seq := i
      payload := (sample.chunkFrame Crates.reference i).getD []
      isParity := false
      info := ⟨i, 1, none, 46⟩
      fecGroup := 0
      reconstructable := false
      parityIndex := 0 }

def sampleParity : List Packet :=
  (FecEncoder.encodeBlock Crates.reference ⟨2, 1⟩ samplePackets).filter Packet.isParity

/-- The three frames of the sample: both chunks, and the parity row. -/
def sampleFrame : Nat → Bytes
  | 2 => (sampleParity.map Packet.payload).headD []
  | i => (sample.chunkFrame Crates.reference i).getD []

theorem sample_fits : sample.cfg.Fits := ⟨by decide, by decide⟩

theorem sample_chunkFrame : ∀ i < 2,
    sample.chunkFrame Crates.reference i = some (sampleFrame i) := by
  decide +kernel

/-- No second input has the digest of a piece of the sample's file. -/
theorem sample_blake3 (off len : Nat) (b : Bytes)
    (h : Crates.reference.blake3 b = Crates.reference.blake3 (slice sample.src.bytes off len)) :
    b = slice sample.src.bytes off len := by
  refine blake3Table_inj ?_ h
  have hclip := slice_clip sample.src.bytes off len
  have hbound : ∀ o < 4, ∀ n < 4,
      slice sample.src.bytes o n ∈ knownDigests.map Prod.fst := by decide +kernel
  rw [← hclip]
  by_cases ho : off < 4
  · have hlen : sample.src.bytes.length = 3 := rfl
    exact hbound off ho _ (by omega)
  · have hnil : slice sample.src.bytes off (min len (sample.src.bytes.length - off)) = [] := by
      have hlen : sample.src.bytes.length = 3 := rfl
      unfold slice
      rw [List.drop_of_length_le (by omega), List.take_nil]
    rw [hnil]
    decide +kernel

theorem sample_fullGroup : sample.FullGroup Crates.reference 0 samplePackets where
  in_range := by decide
  seqs := by decide
  payload := by decide +kernel
  group := by decide
  not_parity := by decide

end ScTransport
