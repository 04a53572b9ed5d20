import ScTransport.Adaptive.Delivery
import ScTransport.Session.Resume
import ScTransport.Infra.Checked
import Mathlib.Order.CompletePartialOrder
import Mathlib.Order.Interval.Set.Disjoint

/-!
# Where the chunks lie

Sender and receiver each compute the range of a chunk for themselves, and with different clamping:
`chunk_len` and `read_chunk_range` cut at the file's size, `frame_chunk` measures what was read,
and `hash_existing_chunks` cuts at the length of the part file and at the size in the manifest.

* `chunkLenChecked` and so on — the same computations with overflow checks
* `chunkRange_cover`, `chunkRange_disjoint` — the ranges cut the file
* `ProgressRun` — the byte count of `send_adaptive`, in runs of both sides
* `chunk_geometry` — all computations agree, and none overflows
-/

namespace ScTransport

open Infra

/-! ## The computations with overflow checks -/

/-- A computation without reservations; the error is that of an input or output operation. -/
abbrev Calc := Checked Empty Unit

def chunkLenChecked (cfg : SenderConfig) (idx totalSize : Nat) : Calc Nat := do
  let off ← Checked.mul idx cfg.chunkSize
  if totalSize ≤ off then return 0
  let rest ← Checked.sub totalSize off
  return min rest cfg.chunkSize

def readChunkRangeChecked (cfg : SenderConfig) (file : Bytes) (idx totalSize : Nat) :
    Calc Bytes := do
  let off ← Checked.mul idx cfg.chunkSize
  if totalSize ≤ off then return []
  let rest ← Checked.sub totalSize off
  let len := min rest cfg.chunkSize
  -- `read_exact` behind `seek`
  if off + len ≤ file.length then return slice file off len else Checked.throw ()

def frameChunkChecked (X : Crates) (cfg : SenderConfig) (idx : Nat) (chunkRaw : Bytes)
    (m : TransferManifest) : Calc Bytes :=
  match maybeCompress X chunkRaw cfg.compression with
  | none => Checked.throw ()
  | some chunk => do
    let ds := max m.dataShards 1
    let off ← Checked.mul idx cfg.chunkSize
    match X.encodeDescriptor
        { index := UInt64.ofNat idx
          offset := UInt64.ofNat off
          compressedSize := UInt32.ofNat chunk.length
          uncompressedSize := UInt32.ofNat chunkRaw.length
          checksum := X.blake3 chunk
          wasCompressed := decide (chunk.length < chunkRaw.length)
          isParity := false
          parityIndex := 0
          fecGroup := UInt64.ofNat (idx / ds) } with
    | none => Checked.throw ()
    | some descBytes => do
      -- the capacity of the vector
      let header ← Checked.add 4 descBytes.length
      let _ ← Checked.add header chunk.length
      return toBe32 descBytes.length ++ (descBytes ++ chunk)

/-- One turn of the loop in `hash_existing_chunks`. -/
def hashExistingChunkChecked (X : Crates) (m : TransferManifest) (file : Bytes) (i : Nat) :
    Calc Digest := do
  let off ← Checked.mul i m.chunkSize
  let stop ← Checked.add off m.chunkSize
  let stop := min (min stop file.length) m.totalSize
  if stop ≤ off then return Digest.zero
  let len ← Checked.sub stop off
  return X.blake3 (slice file off len)

/-! ## One chunk -/

section Chunk

variable {cfg : SenderConfig} {total i : Nat}

/-- The length of a chunk that begins inside the file. -/
theorem chunkLen_eq (hstart : i * cfg.chunkSize < total) (htotal : total < 2 ^ 64) :
    chunkLen cfg i total = min (total - i * cfg.chunkSize) cfg.chunkSize := by
  unfold chunkLen
  rw [Nat.mod_eq_of_lt (by omega)]
  exact if_neg (Nat.not_le.mpr hstart)

theorem chunkLenChecked_eq (hstart : i * cfg.chunkSize < total) (htotal : total < 2 ^ 64) :
    chunkLenChecked cfg i total = pure (chunkLen cfg i total) := by
  unfold chunkLenChecked
  rw [Checked.mul_of_lt (by omega), Checked.pure_bind, if_neg (Nat.not_le.mpr hstart),
    Checked.sub_of_le (Nat.le_of_lt hstart), Checked.pure_bind, chunkLen_eq hstart htotal]

theorem readChunkRangeChecked_eq {file : Bytes} (hstart : i * cfg.chunkSize < file.length)
    (htotal : file.length < 2 ^ 64) :
    readChunkRangeChecked cfg file i file.length =
      pure (slice file (i * cfg.chunkSize) (chunkLen cfg i file.length)) := by
  unfold readChunkRangeChecked
  rw [Checked.mul_of_lt (by omega), Checked.pure_bind, if_neg (Nat.not_le.mpr hstart),
    Checked.sub_of_le (Nat.le_of_lt hstart), Checked.pure_bind, chunkLen_eq hstart htotal]
  exact if_pos (by omega)

/-- Only an input or output operation stops `frame_chunk`. -/
theorem frameChunkChecked_eq {X : Crates} (hX : X.Lawful) {raw : Bytes} {m : TransferManifest}
    (hstart : i * cfg.chunkSize < 2 ^ 64) (hraw : raw.length < 2 ^ 32) :
    frameChunkChecked X cfg i raw m =
      match frameChunk X cfg i raw m with
      | none => Checked.throw ()
      | some wire => pure wire := by
  unfold frameChunkChecked frameChunk
  cases hchunk : maybeCompress X raw cfg.compression with
  | none => rfl
  | some chunk =>
    have hle := (maybeCompress_spec hX hchunk).1
    dsimp only
    rw [Checked.mul_of_lt hstart, Checked.pure_bind, frame]
    generalize hdesc : X.encodeDescriptor _ = encoded
    cases encoded with
    | none => rfl
    | some descBytes =>
      have hlen := (hX.encode_length hdesc).2
      dsimp only
      rw [Checked.add_of_lt (by omega), Checked.pure_bind, Checked.add_of_lt (by omega),
        Checked.pure_bind]

/-- Where `hash_existing_chunks` stops, for a part file as long as the file. -/
theorem hashStop_eq (hstart : i * cfg.chunkSize < total) (htotal : total < 2 ^ 64) :
    min (min (i * cfg.chunkSize + cfg.chunkSize) total) total =
      i * cfg.chunkSize + chunkLen cfg i total := by
  rw [chunkLen_eq hstart htotal]
  omega

theorem chunkLen_pos (hpos : 0 < cfg.chunkSize) (hstart : i * cfg.chunkSize < total)
    (htotal : total < 2 ^ 64) : 0 < chunkLen cfg i total := by
  rw [chunkLen_eq hstart htotal]
  omega

variable {X : Crates} {m : TransferManifest} {part : Bytes}

theorem hashExistingChunkChecked_eq (hchunk : m.chunkSize = cfg.chunkSize)
    (hsize : m.totalSize = part.length) (hpos : 0 < cfg.chunkSize)
    (hstart : i * cfg.chunkSize < part.length) (hsum : part.length + cfg.chunkSize < 2 ^ 64) :
    hashExistingChunkChecked X m part i =
      pure (X.blake3 (slice part (i * cfg.chunkSize) (chunkLen cfg i part.length))) := by
  have htotal : part.length < 2 ^ 64 := by omega
  have hlen := chunkLen_pos hpos hstart htotal
  unfold hashExistingChunkChecked
  rw [hchunk, hsize, Checked.mul_of_lt (by omega), Checked.pure_bind,
    Checked.add_of_lt (by omega), Checked.pure_bind, hashStop_eq hstart htotal,
    if_neg (by omega), Checked.sub_of_le (by omega), Checked.pure_bind, Nat.add_sub_cancel_left]

/-- The model that wraps hashes the same range. -/
theorem hashExistingChunk_eq (hchunk : m.chunkSize = cfg.chunkSize)
    (hsize : m.totalSize = part.length) (hpos : 0 < cfg.chunkSize)
    (hstart : i * cfg.chunkSize < part.length) (hsum : part.length + cfg.chunkSize < 2 ^ 64) :
    hashExistingChunk X m part i =
      X.blake3 (slice part (i * cfg.chunkSize) (chunkLen cfg i part.length)) := by
  have htotal : part.length < 2 ^ 64 := by omega
  have hlen := chunkLen_pos hpos hstart htotal
  unfold hashExistingChunk
  rw [hchunk, hsize, Nat.mod_eq_of_lt (by omega)]
  dsimp only
  rw [Nat.mod_eq_of_lt (by omega), hashStop_eq hstart htotal, if_neg (by omega),
    Nat.add_sub_cancel_left]

/-- What `frame_chunk` writes of the range it was given. -/
theorem frameChunk_range {raw wire : Bytes} (h : frameChunk X cfg i raw m = some wire)
    (hstart : i * cfg.chunkSize < 2 ^ 64) (hraw : raw.length < 2 ^ 32) :
    ∃ desc body, frame X desc body = some wire ∧ desc.offset.toNat = i * cfg.chunkSize ∧
      desc.uncompressedSize.toNat = raw.length := by
  unfold frameChunk at h
  split at h
  · cases h
  · next chunk _ =>
    refine ⟨_, chunk, h, ?_, ?_⟩
    · rw [UInt64.toNat_ofNat', Nat.mod_eq_of_lt hstart]
    · rw [UInt32.toNat_ofNat', Nat.mod_eq_of_lt hraw]

end Chunk

/-! ## All chunks -/

section Ranges

variable {cfg : SenderConfig} {total : Nat}

/-- The bytes of the file that belong to a chunk. -/
def chunkRange (cfg : SenderConfig) (total i : Nat) : Set Nat :=
  Set.Ico (i * cfg.chunkSize) (i * cfg.chunkSize + chunkLen cfg i total)

theorem chunkLen_le (cfg : SenderConfig) (i total : Nat) :
    chunkLen cfg i total ≤ cfg.chunkSize := by
  unfold chunkLen
  dsimp only
  split
  · exact Nat.zero_le _
  · exact min_le_right _ _

theorem chunkRange_disjoint {i j : Nat} (hij : i ≠ j) :
    Disjoint (chunkRange cfg total i) (chunkRange cfg total j) := by
  have hi := chunkLen_le cfg i total
  have hj := chunkLen_le cfg j total
  rw [chunkRange, chunkRange, Set.Ico_disjoint_Ico]
  rcases chunk_disjoint (c := cfg.chunkSize) hij with h | h <;> omega

/-- Byte `x` is in chunk `x / chunk_size`. -/
theorem chunkRange_cover (hpos : 0 < cfg.chunkSize) (htotal : total < 2 ^ 64) :
    ⋃ i ∈ Set.Iio (divCeil total cfg.chunkSize), chunkRange cfg total i = Set.Ico 0 total := by
  ext x
  simp only [Set.mem_iUnion, Set.mem_Iio, lt_divCeil_iff hpos, chunkRange, Set.mem_Ico, exists_prop]
  constructor
  · rintro ⟨i, hstart, -, hlt⟩
    rw [chunkLen_eq hstart htotal] at hlt
    omega
  · rintro ⟨-, hx⟩
    have hdiv := Nat.div_add_mod' x cfg.chunkSize
    have hmod := Nat.mod_lt x hpos
    have hstart : x / cfg.chunkSize * cfg.chunkSize < total := by omega
    refine ⟨x / cfg.chunkSize, hstart, by omega, ?_⟩
    rw [chunkLen_eq hstart htotal]
    omega

end Ranges

/-! ## The progress of a transfer -/

section Progress

variable (P : AdaptiveSetup)

/-- `bytes_total` of every report. -/
def AdaptiveSetup.totalSize : Nat := P.transfer.src.bytes.length

/-- How a turn of the loop in `send_adaptive` counts its chunk, with overflow checks. -/
def countChunk (sent idx : Nat) : Calc Nat :=
  if idx ∈ P.skip then pure sent
  else do
    let len ← chunkLenChecked P.transfer.cfg idx P.totalSize
    Checked.add sent len

/-- What the whole loop counts if every frame can be built. -/
def sentTotal : Calc Nat := (List.range P.manifest.numChunks).foldlM (countChunk P) 0

/--
What a turn of the loop in `send_adaptive` adds to `sent`: nothing if the chunk is skipped, or if
its frame cannot be built.
-/
def countedBytes (s : SendAdaptive) : Option Nat :=
  if s.next ∈ P.skip then none
  else
    (P.transfer.chunkFrame P.crates s.next).map fun _ =>
      chunkLen P.transfer.cfg s.next P.totalSize

/-- Both sides, `sent`, and what `emit_progress` was called with. -/
structure ProgressRun where
  system : Adaptive
  sent : Nat
  reported : List Nat

namespace ProgressRun

/-- One step of anyone; a turn of the sender's loop counts its chunk. The sum wraps. -/
def step (r : ProgressRun) (l : AdaptiveLabel) : Option ProgressRun :=
  (adaptiveStep P r.system l).map fun system =>
    match l with
    | .send (.fill _) =>
      match countedBytes P r.system.sender with
      | none => { r with system }
      | some len =>
        let sent := (r.sent + len) % 2 ^ 64
        { system, sent, reported := r.reported ++ [sent] }
    | _ => { r with system }

/-- The start of the data phase, whatever the receiver has. -/
def init (st : IngestState) : ProgressRun := ⟨Adaptive.init P st, 0, []⟩

end ProgressRun

def progress : Lts ProgressRun AdaptiveLabel := ⟨ProgressRun.step P⟩

variable {P}

/-- The bytes of the chunks before `next`. -/
def AdaptiveSetup.bytesBefore (P : AdaptiveSetup) (next : Nat) : Nat :=
  min (next * P.transfer.cfg.chunkSize) P.totalSize

theorem AdaptiveSetup.bytesBefore_succ {i : Nat} (hi : i < P.manifest.numChunks) :
    P.bytesBefore i + chunkLen P.transfer.cfg i P.totalSize = P.bytesBefore (i + 1) := by
  have hstart : i * P.transfer.cfg.chunkSize < P.totalSize := chunkStart_lt hi
  rw [chunkLen_eq hstart P.transfer.src.length_lt, bytesBefore, bytesBefore, Nat.add_mul,
    Nat.one_mul]
  omega

theorem AdaptiveSetup.bytesBefore_lt (P : AdaptiveSetup) (next : Nat) :
    P.bytesBefore next < 2 ^ 64 :=
  lt_of_le_of_lt (min_le_right _ _) P.transfer.src.length_lt

/-- The chunks reach to the end of the file. -/
theorem AdaptiveSetup.bytesBefore_eq {next : Nat} (hpos : 0 < P.transfer.cfg.chunkSize)
    (hall : P.manifest.numChunks ≤ next) : P.bytesBefore next = P.totalSize := by
  refine min_eq_right ?_
  by_contra hlt
  exact absurd ((lt_divCeil_iff hpos).mpr (Nat.not_le.mp hlt)) (Nat.not_lt.mpr hall)

theorem countChunk_bytesBefore {i : Nat} (hskip : i ∉ P.skip) (hi : i < P.manifest.numChunks) :
    countChunk P (P.bytesBefore i) i = pure (P.bytesBefore (i + 1)) := by
  have hstart : i * P.transfer.cfg.chunkSize < P.totalSize := chunkStart_lt hi
  have hlt := P.bytesBefore_lt (i + 1)
  rw [← P.bytesBefore_succ hi] at hlt ⊢
  rw [countChunk, if_neg hskip, chunkLenChecked_eq hstart P.transfer.src.length_lt,
    Checked.pure_bind, Checked.add_of_lt hlt]

theorem sentTotal_eq (hskip : P.skip = ∅) (hpos : 0 < P.transfer.cfg.chunkSize) :
    sentTotal P = pure P.totalSize := by
  have hzero : P.bytesBefore 0 = 0 := by rw [AdaptiveSetup.bytesBefore, Nat.zero_mul, Nat.zero_min]
  have hturn : ∀ i, 0 ≤ i → i < 0 + P.manifest.numChunks →
      countChunk P (P.bytesBefore i) i = pure (P.bytesBefore (i + 1)) := by
    intro i _ hi
    exact countChunk_bytesBefore (by simp [hskip]) (by omega)
  have hloop := Checked.foldlM_range' hturn
  rw [← List.range_eq_range', hzero, Nat.zero_add, P.bytesBefore_eq hpos le_rfl] at hloop
  exact hloop

/-- The sender has counted the bytes of the chunks before `next`. -/
structure BytesCounted (P : AdaptiveSetup) (r : ProgressRun) : Prop where
  placed : r.system.sender.Placed P
  sent : r.sent = P.bytesBefore r.system.sender.next
  reported : ∀ bytes ∈ r.reported, bytes ≤ P.totalSize

theorem BytesCounted.init (st : IngestState) : BytesCounted P (.init P st) := by
  refine ⟨(Adaptive.Accounted.init P st).placed, ?_, nofun⟩
  show 0 = P.bytesBefore 0
  rw [AdaptiveSetup.bytesBefore, Nat.zero_mul, Nat.zero_min]

/-- A turn of the loop on a chunk that is not skipped. -/
theorem sendStep_fill {s s' : SendAdaptive} {deadline : Nat} (hskip : s.next ∉ P.skip)
    (h : sendStep P s (.fill deadline) = some s') :
    s.next < P.manifest.numChunks ∧
      (countedBytes P s = none ∧ s'.next = s.next ∨
      countedBytes P s = some (chunkLen P.transfer.cfg s.next P.totalSize) ∧
        s'.next = s.next + 1) := by
  simp only [sendStep] at h
  split at h
  · next hpc =>
    unfold countedBytes
    rw [if_neg hskip]
    refine ⟨hpc.2, ?_⟩
    cases hframe : P.transfer.chunkFrame P.crates s.next with
    | none =>
      rw [hframe] at h
      cases h
      exact Or.inl ⟨rfl, rfl⟩
    | some payload =>
      rw [hframe] at h
      cases h
      exact Or.inr ⟨rfl, rfl⟩
  · cases h

/-- The other steps of the sender keep `next`. -/
theorem SendMove.keeps_next {s s' : SendAdaptive} {l : SendLabel} (h : SendMove P s l s')
    (hl : ∀ deadline, l ≠ .fill deadline) : s'.next = s.next := by
  cases h with
  | skipped => exact absurd rfl (hl _)
  | unreadable => exact absurd rfl (hl _)
  | filled => exact absurd rfl (hl _)
  | _ => rfl

/-- Only a turn of the loop changes `next`. -/
theorem AdaptiveMove.keeps_loop {s s' : Adaptive} {l : AdaptiveLabel} (h : AdaptiveMove P s l s')
    (hl : ∀ deadline, l ≠ .send (.fill deadline)) (hp : s.sender.Placed P) :
    s'.sender.next = s.sender.next ∧ s'.sender.Placed P := by
  cases h with
  | sent hm =>
    refine ⟨hm.keeps_next fun deadline hfill => ?_, hp.sent hm⟩
    exact hl deadline (congrArg _ hfill)
  | @wrote path k cap packet hk =>
    have hplaced := hp.unqueue (List.getElem?_eq_some_iff.mp hk).1 s.sender.firstErr
    cases path <;> exact ⟨rfl, hplaced⟩
  | @unwritten path k hk =>
    have hplaced := hp.unqueue hk true
    cases path <;> exact ⟨rfl, hplaced⟩
  | _ => exact ⟨rfl, { hp with }⟩

theorem BytesCounted.step (hskip : P.skip = ∅) {r r' : ProgressRun} {l : AdaptiveLabel}
    (h : BytesCounted P r) (hstep : r.step P l = some r') : BytesCounted P r' := by
  obtain ⟨system, hsystem, rfl⟩ := Option.map_eq_some_iff.mp hstep
  split
  · next deadline =>
    obtain ⟨snd, hsnd, rfl⟩ := Option.map_eq_some_iff.mp hsystem
    have hplaced := h.placed.sent (.of_step hsnd)
    obtain ⟨hlt, hcase⟩ := sendStep_fill (by simp [hskip]) hsnd
    rcases hcase with ⟨hnone, hnext⟩ | ⟨hsome, hnext⟩
    · rw [hnone]
      exact ⟨hplaced, by simpa only [hnext] using h.sent, h.reported⟩
    · have hsum : (r.sent + chunkLen P.transfer.cfg r.system.sender.next P.totalSize) % 2 ^ 64 =
          P.bytesBefore snd.next := by
        rw [h.sent, P.bytesBefore_succ hlt, hnext, Nat.mod_eq_of_lt (P.bytesBefore_lt _)]
      rw [hsome]
      refine ⟨hplaced, hsum, fun bytes hbytes => ?_⟩
      rcases List.mem_append.mp hbytes with hold | hnew
      · exact h.reported bytes hold
      · rw [List.mem_singleton.mp hnew, hsum]
        exact min_le_right _ _
  · next hfill =>
    obtain ⟨hnext, hplaced⟩ := (AdaptiveMove.of_step hsystem).keeps_loop hfill h.placed
    exact ⟨hplaced, by simpa only [hnext] using h.sent, h.reported⟩

end Progress

/-! ## All of it -/

section Agreement

variable (P : AdaptiveSetup)

/-- The bytes of a file at the place of chunk `i`. -/
def AdaptiveSetup.chunkBytes (file : Bytes) (i : Nat) : Bytes :=
  slice file (i * P.transfer.cfg.chunkSize) (chunkLen P.transfer.cfg i P.totalSize)

/-- Sender and receiver find chunk `i` in one place, and no sum or product overflows. -/
structure SameRange (i : Nat) : Prop where
  nonempty : (chunkRange P.transfer.cfg P.totalSize i).Nonempty
  lengthSafe : chunkLenChecked P.transfer.cfg i P.totalSize =
    pure (chunkLen P.transfer.cfg i P.totalSize)
  read : readChunkRange P.transfer.cfg P.transfer.src.bytes i P.totalSize =
    some (P.chunkBytes P.transfer.src.bytes i)
  readSafe : readChunkRangeChecked P.transfer.cfg P.transfer.src.bytes i P.totalSize =
    pure (P.chunkBytes P.transfer.src.bytes i)
  framed : ∀ wire, P.transfer.chunkFrame P.crates i = some wire →
    ∃ desc body, frame P.crates desc body = some wire ∧
      desc.offset.toNat = i * P.transfer.cfg.chunkSize ∧
      desc.uncompressedSize.toNat = chunkLen P.transfer.cfg i P.totalSize
  /-- The sizes of the two crates' outputs are sums, too. -/
  frameSafe : P.crates.Lawful →
    frameChunkChecked P.crates P.transfer.cfg i (P.chunkBytes P.transfer.src.bytes i) P.manifest =
      match P.transfer.chunkFrame P.crates i with
      | none => Checked.throw ()
      | some wire => pure wire
  hashed : ∀ part : Bytes, part.length = P.totalSize →
    (hashExistingChunks P.crates P.manifest part)[i]? = some (P.crates.blake3 (P.chunkBytes part i))
  hashSafe : ∀ part : Bytes, part.length = P.totalSize →
    hashExistingChunkChecked P.crates P.manifest part i =
      pure (P.crates.blake3 (P.chunkBytes part i))

variable {P}

theorem SameRange.of_lt (hpos : 0 < P.transfer.cfg.chunkSize)
    (hword : P.transfer.cfg.chunkSize < 2 ^ 32)
    (hsum : P.totalSize + P.transfer.cfg.chunkSize < 2 ^ 64) {i : Nat}
    (hi : i < P.manifest.numChunks) : SameRange P i := by
  have htotal : P.totalSize < 2 ^ 64 := P.transfer.src.length_lt
  have hstart : i * P.transfer.cfg.chunkSize < P.totalSize := chunkStart_lt hi
  have hlen := chunkLen_le P.transfer.cfg i P.totalSize
  have hmanifest : P.manifest.chunkSize = P.transfer.cfg.chunkSize := Nat.mod_eq_of_lt hword
  have hread : readChunkRange P.transfer.cfg P.transfer.src.bytes i P.totalSize =
      some (P.chunkBytes P.transfer.src.bytes i) := by
    rw [AdaptiveSetup.chunkBytes, chunkLen_eq hstart htotal, min_comm]
    exact (readChunkRange_eq hi).trans (congrArg some (slice_clip _ _ _).symm)
  have hraw : (P.chunkBytes P.transfer.src.bytes i).length =
      chunkLen P.transfer.cfg i P.totalSize := length_readChunkRange hread
  have hframe : P.transfer.chunkFrame P.crates i =
      frameChunk P.crates P.transfer.cfg i (P.chunkBytes P.transfer.src.bytes i) P.manifest := by
    show buildChunkPayload P.crates P.transfer.cfg P.transfer.src.bytes i P.totalSize _ = _
    rw [buildChunkPayload, hread]
    rfl
  refine ⟨?_, chunkLenChecked_eq hstart htotal, hread, readChunkRangeChecked_eq hstart htotal,
    fun wire hwire => ?_, fun hX => ?_, fun part hpart => ?_, fun part hpart => ?_⟩
  · refine Set.nonempty_Ico.mpr ?_
    have := chunkLen_pos hpos hstart htotal
    omega
  · rw [hframe] at hwire
    obtain ⟨desc, body, hdesc, hoff, hsize⟩ := frameChunk_range hwire (by omega) (by omega)
    exact ⟨desc, body, hdesc, hoff, hsize.trans hraw⟩
  · rw [hframe]
    exact frameChunkChecked_eq hX (by omega) (by omega)
  · rw [hashExistingChunks, List.getElem?_map, List.getElem?_range hi, Option.map_some,
      hashExistingChunk_eq hmanifest hpart.symm hpos (by omega) (by omega), hpart]
    rfl
  · rw [hashExistingChunkChecked_eq hmanifest hpart.symm hpos (by omega) (by omega), hpart]
    rfl

end Agreement

/-- **Every party computes the same ranges, and they cut the file.** -/
theorem chunk_geometry (P : AdaptiveSetup) (hpos : 0 < P.transfer.cfg.chunkSize)
    (hword : P.transfer.cfg.chunkSize < 2 ^ 32)
    (hsum : P.totalSize + P.transfer.cfg.chunkSize < 2 ^ 64) :
    (∀ i < P.manifest.numChunks, SameRange P i) ∧
      (∀ i j, i ≠ j → Disjoint (chunkRange P.transfer.cfg P.totalSize i)
        (chunkRange P.transfer.cfg P.totalSize j)) ∧
      ⋃ i ∈ Set.Iio P.manifest.numChunks, chunkRange P.transfer.cfg P.totalSize i =
        Set.Ico 0 P.totalSize ∧
      (P.skip = ∅ →
        sentTotal P = pure P.totalSize ∧
        ∀ st r, (progress P).Reach (fun _ _ => True) (.init P st) r →
          r.sent ≤ P.totalSize ∧ (∀ bytes ∈ r.reported, bytes ≤ P.totalSize) ∧
          (r.system.sender.next < P.manifest.numChunks →
            r.sent + chunkLen P.transfer.cfg r.system.sender.next P.totalSize < 2 ^ 64) ∧
          (r.system.sender.pc.last = true → r.sent = P.totalSize)) := by
  refine ⟨fun i hi => .of_lt hpos hword hsum hi, fun i j hij => chunkRange_disjoint hij,
    chunkRange_cover hpos P.transfer.src.length_lt, fun hskip => ⟨sentTotal_eq hskip hpos, ?_⟩⟩
  intro st r hrun
  have hcounted : BytesCounted P r :=
    hrun.invariant (BytesCounted.init st) fun h _ hstep => h.step hskip hstep
  refine ⟨hcounted.sent ▸ min_le_right _ _, hcounted.reported, fun hlt => ?_, fun hlast => ?_⟩
  · rw [hcounted.sent, P.bytesBefore_succ hlt]
    exact P.bytesBefore_lt _
  · rw [hcounted.sent, P.bytesBefore_eq hpos (hcounted.placed.last hlast)]

/-- Three bytes in chunks of two: the last chunk is short. -/
def sampleUneven : AdaptiveSetup :=
  { sampleSetup with transfer := { sampleBytewise with cfg := ⟨2, .none, true⟩ } }

/-- The loop, to its end. -/
def sampleUnevenLoop : List AdaptiveLabel :=
  [.send (.fill 0), .send (.fill 0)] ++ sampleFlush sampleUtilities ++
    [.send .check, .send .endLoop]

theorem sampleUneven_geometry :
    ∃ r, (progress sampleUneven).exec (.init sampleUneven sampleFresh) sampleUnevenLoop = some r ∧
      r.reported = [2, 3] ∧ r.sent = sampleUneven.totalSize ∧ SameRange sampleUneven 1 := by
  have hexec : ((progress sampleUneven).exec (.init sampleUneven sampleFresh)
      sampleUnevenLoop).map
      (fun r => decide (r.reported = [2, 3] ∧ r.system.sender.pc.last = true)) = some true := by
    decide +kernel
  obtain ⟨r, hr, hend⟩ := Option.map_eq_some_iff.mp hexec
  obtain ⟨hreported, hlast⟩ := of_decide_eq_true hend
  obtain ⟨hsame, -, -, hcount⟩ :=
    chunk_geometry sampleUneven (by decide) (by decide) (by decide +kernel)
  obtain ⟨-, hruns⟩ := hcount rfl
  exact ⟨r, hr, hreported, (hruns sampleFresh r (.of_exec hr)).2.2.2 hlast,
    hsame 1 (by decide +kernel)⟩

end ScTransport
