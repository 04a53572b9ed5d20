import ScTransport.Receiver.Placement
import ScTransport.Infra.Checked

/-!
# Ingesting a frame does not panic

The functions of the receiver once more, with the operations that can panic: slices of the frame,
slots of a group, and sums that are not saturating. Everything in a frame is chosen by its sender.

* `ingestWireFrameChecked` — `ingest_wire_frame` with its panics
* `ingestWireFrameChecked_eq` — it is `ingestWireFrame`, which has none
* `Sized` — every stored group has a slot for each of its rows
* `ingest_never_panics` — both, in every state that a receive gets to
-/

namespace ScTransport

open Infra

/-- A call of the receiver. It notes no reservations. -/
abbrev Receiving := Checked Empty ReceiveError

/-! ## The source, with its panics -/

def parseFramedHeaderChecked (X : Crates) (wire : Bytes) :
    Receiving (ChunkDescriptor × Nat × Nat) :=
  if wire.length < 4 then .throw .truncatedChunkStream
  else do
    let descLenBytes ← Checked.range wire 0 4
    let descLen := ofBe32 descLenBytes
    Checked.ofExcept (checkFrameLen descLen maxChunkDescriptorBytes)
    let descEnd ← Checked.add 4 descLen
    if wire.length < descEnd then .throw .truncatedChunkDescriptor
    else do
      let encoded ← Checked.range wire 4 descEnd
      match X.decodeDescriptor encoded with
      | none => .throw .decodeDescriptor
      | some desc => return (desc, 4, descLen)

def peekFramedChunkIndexChecked (X : Crates) (wire : Bytes) : Receiving Nat :=
  if wire.length < 4 then .throw .truncatedChunkStream
  else do
    let (desc, _, _) ← parseFramedHeaderChecked X wire
    return desc.index.toNat

def persistFramedChunkChecked (X : Crates) (wire : Bytes) (m : TransferManifest) (verify : Bool)
    (st : IngestState) : Receiving IngestState := do
  let (desc, offset, descLen) ← parseFramedHeaderChecked X wire
  if desc.isParity then return st
  else do
    let payloadOff ← Checked.add offset descLen
    let payloadEnd ← Checked.add payloadOff desc.compressedSize.toNat
    if wire.length < payloadEnd then .throw .truncatedChunkBody
    else do
      let wirePayload ← Checked.range wire payloadOff payloadEnd
      if verify && X.blake3 wirePayload ≠ desc.checksum then
        .throw (.chunkChecksumMismatch desc.index.toNat)
      else if desc.index.toNat ∈ st.received then return st
      else if desc.wasCompressed then
        match maybeDecompress X wirePayload m.compression with
        | none => .throw .decompress
        | some chunk =>
          return { st with
            out := writeAt st.out desc.offset.toNat chunk
            received := insert desc.index.toNat st.received }
      else
        return { st with
          out := writeAt st.out desc.offset.toNat wirePayload
          received := insert desc.index.toNat st.received }

def fecRecoveryReadyChecked (group : Group) (m : TransferManifest) : Receiving Bool := do
  let total ← Checked.add m.dataShards m.parityShards
  if group.length ≠ total then return false
  else if ((List.range m.dataShards).filter (slotPresent group)).length = 0 then return false
  else return decide (m.dataShards ≤ present group)

/-- The rows that are there have one length. -/
def EqualLengths (shards : Group) : Prop :=
  ∀ a ∈ shards.reduceOption, ∀ b ∈ shards.reduceOption, a.length = b.length

instance (shards : Group) : Decidable (EqualLengths shards) := by
  unfold EqualLengths
  infer_instance

/-- `rs.reconstruct_data(&mut shards)`, which is known to return if the rows have one length. -/
def reconstructDataChecked (X : Crates) (rs : ReedSolomon) (shards : Group) :
    Receiving (Option Group) :=
  if EqualLengths shards then pure (X.rsReconstructData rs.dataShards rs.parityShards shards)
  else Checked.panicked

def recoverSlotChecked (X : Crates) (m : TransferManifest) (verify : Bool) (fecGroup : Nat)
    (shards : Group) (acc : IngestState × Bool) (slot : Nat) : Receiving (IngestState × Bool) :=
  match shards.getD slot none with
  | none => pure acc
  | some bytes => do
    let peeked ← Checked.attempt (peekFramedChunkIndexChecked X bytes)
    match peeked with
    | .error _ => return acc
    | .ok recoveredIndex =>
      if recoveredIndex ≠ slotIndex m fecGroup slot then return acc
      else do
        let st ← persistFramedChunkChecked X bytes m verify acc.1
        return (st, true)

def tryFecGroupRecoverChecked (X : Crates) (fecGroup : Nat) (m : TransferManifest)
    (rs : ReedSolomon) (verify : Bool) (st : IngestState) : Receiving IngestState :=
  match st.groups fecGroup with
  | none => pure st
  | some group =>
    let missing := fecMissingDataSlots group m fecGroup st.received
    if missing = [] then pure st
    else do
      let ready ← fecRecoveryReadyChecked group m
      if ready = false then return st
      else
        let maxLen := maxShard group
        if maxLen = 0 then return st
        else do
          let result ← reconstructDataChecked X rs (group.map (Option.map (resize · maxLen)))
          match result with
          | none => return st
          | some shards =>
            let (st', recoveredAny) ←
              missing.foldlM (recoverSlotChecked X m verify fecGroup shards) (st, false)
            if recoveredAny ∧ fecMissingDataSlots group m fecGroup st'.received = [] then
              return { st' with groups := Function.update st'.groups fecGroup none }
            else return st'

/-- `fec_groups.entry(g).or_insert_with(|| vec![None; data_shards + parity_shards])`. -/
def groupEntryChecked (m : TransferManifest) (g : Nat) (st : IngestState) : Receiving Group :=
  match st.groups g with
  | some group => pure group
  | none => do
    let total ← Checked.add m.dataShards m.parityShards
    return List.replicate total none

/-- The entry of the group, and `group[slot] = Some(shard)` if it has the slot. -/
def storeShardChecked (m : TransferManifest) (g slot : Nat) (shard : Bytes) (st : IngestState) :
    Receiving IngestState := do
  let group ← groupEntryChecked m g st
  let group ← if slot < group.length then Checked.assign group slot (some shard) else pure group
  return { st with groups := Function.update st.groups g (some group) }

def ingestWireFrameChecked (X : Crates) (wire : Bytes) (m : TransferManifest)
    (fecRs : Option ReedSolomon) (verify : Bool) (simulateLost : Finset Nat)
    (st : IngestState) : Receiving (Nat × IngestState) := do
  let (desc, _, descLen) ← parseFramedHeaderChecked X wire
  if maxBody m < desc.compressedSize.toNat then
    .throw (.payloadTooLarge desc.index.toNat desc.isParity)
  else do
    let payloadOff ← Checked.add 4 descLen
    let payloadEnd ← Checked.add payloadOff desc.compressedSize.toNat
    if wire.length < payloadEnd then .throw .truncatedChunkBody
    else do
      let payload ← Checked.range wire payloadOff payloadEnd
      if desc.isParity then
        match fecRs with
        | none => return (desc.fecGroup.toNat, st)
        | some rs =>
          if verify && X.blake3 payload ≠ desc.checksum then
            .throw (.parityChecksumMismatch desc.fecGroup.toNat desc.parityIndex.toNat)
          else do
            let g := desc.fecGroup.toNat
            let pi := satAdd desc.parityIndex.toNat m.dataShards
            let st ← storeShardChecked m g pi payload st
            let st' ← tryFecGroupRecoverChecked X g m rs verify st
            return (g, st')
      else if desc.index.toNat ∈ simulateLost then return (desc.fecGroup.toNat, st)
      else do
        let st' ← persistFramedChunkChecked X wire m verify st
        match fecRs with
        | none => return (desc.fecGroup.toNat, st')
        | some rs =>
          let g := desc.fecGroup.toNat
          let slot := desc.index.toNat - satMul g (max m.dataShards 1)
          if slot < m.dataShards then do
            let st' ← storeShardChecked m g slot wire st'
            let st'' ← tryFecGroupRecoverChecked X g m rs verify st'
            return (g, st'')
          else return (g, st')

/-! ## No panics -/

section Equal

variable {X : Crates} {m : TransferManifest}

theorem parseFramedHeaderChecked_eq (wire : Bytes) :
    parseFramedHeaderChecked X wire = .ofExcept (parseFramedHeader X wire) := by
  unfold parseFramedHeaderChecked parseFramedHeader
  by_cases hlen : wire.length < 4
  · rw [if_pos hlen, if_pos hlen]
    rfl
  have hlt : ofBe32 (slice wire 0 4) < 2 ^ 32 := ofBe32_lt (by
    rw [length_slice]
    omega)
  have hlead : (Checked.range wire 0 (0 + 4) : Receiving Bytes) = pure (slice wire 0 4) :=
    Checked.range_slice (by omega)
  rw [if_neg hlen, if_neg hlen, hlead, Checked.pure_bind]
  dsimp only
  generalize ofBe32 (slice wire 0 4) = descLen at hlt ⊢
  cases checkFrameLen descLen maxChunkDescriptorBytes with
  | error e => rfl
  | ok u =>
    rw [Checked.ofExcept_ok, Checked.pure_bind, Checked.add_of_lt (by omega), Checked.pure_bind]
    by_cases hdesc : wire.length < 4 + descLen
    · simp only [if_pos hdesc]
      rfl
    · rw [if_neg hdesc, Checked.range_slice (by omega), Checked.pure_bind]
      simp only [if_neg hdesc]
      show _ = Checked.ofExcept (match X.decodeDescriptor (slice wire 4 descLen) with
        | none => throw ReceiveError.decodeDescriptor
        | some desc => pure (desc, 4, descLen))
      cases X.decodeDescriptor (slice wire 4 descLen) <;> rfl

/-- What a parsed header says about the frame. -/
theorem parseFramedHeader_bounds {wire : Bytes} {desc : ChunkDescriptor} {offset descLen : Nat}
    (h : parseFramedHeader X wire = .ok (desc, offset, descLen)) :
    offset = 4 ∧ descLen < 2 ^ 32 := by
  unfold parseFramedHeader at h
  by_cases hlen : wire.length < 4
  · rw [if_pos hlen] at h
    cases h
  rw [if_neg hlen] at h
  have hlt : ofBe32 (slice wire 0 4) < 2 ^ 32 := ofBe32_lt (by
    rw [length_slice]
    omega)
  dsimp only at h
  generalize ofBe32 (slice wire 0 4) = len at h hlt
  cases hcheck : checkFrameLen len maxChunkDescriptorBytes with
  | error e =>
    rw [hcheck] at h
    cases h
  | ok u =>
    rw [hcheck] at h
    by_cases hdesc : wire.length < 4 + len
    · simp only [if_pos hdesc] at h
      cases h
    · simp only [if_neg hdesc] at h
      cases hdec : X.decodeDescriptor (slice wire 4 len) with
      | none =>
        rw [hdec] at h
        cases h
      | some d =>
        rw [hdec] at h
        cases h
        exact ⟨rfl, hlt⟩

theorem peekFramedChunkIndexChecked_eq (wire : Bytes) :
    peekFramedChunkIndexChecked X wire = .ofExcept (peekFramedChunkIndex X wire) := by
  unfold peekFramedChunkIndexChecked peekFramedChunkIndex
  by_cases hlen : wire.length < 4
  · rw [if_pos hlen, if_pos hlen]
    rfl
  rw [if_neg hlen, if_neg hlen, parseFramedHeaderChecked_eq]
  cases parseFramedHeader X wire <;> rfl

theorem persistFramedChunkChecked_eq (wire : Bytes) (verify : Bool) (st : IngestState) :
    persistFramedChunkChecked X wire m verify st =
      .ofExcept (persistFramedChunk X wire m verify st) := by
  unfold persistFramedChunkChecked persistFramedChunk
  rw [parseFramedHeaderChecked_eq]
  cases hparse : parseFramedHeader X wire with
  | error e => rfl
  | ok header =>
    obtain ⟨desc, offset, descLen⟩ := header
    obtain ⟨rfl, hlt⟩ := parseFramedHeader_bounds hparse
    have hsize := desc.compressedSize.toNat_lt
    simp only [Checked.ofExcept_ok, Checked.pure_bind]
    show _ = Checked.ofExcept (if desc.isParity = true then _ else _)
    by_cases hpar : desc.isParity = true
    · simp only [if_pos hpar]
      rfl
    rw [if_neg hpar, if_neg hpar, Checked.add_of_lt (by omega), Checked.pure_bind,
      Checked.add_of_lt (by omega), Checked.pure_bind]
    by_cases hbody : wire.length < 4 + descLen + desc.compressedSize.toNat
    · simp only [if_pos hbody]
      rfl
    rw [if_neg hbody, Checked.range_slice (by omega), Checked.pure_bind]
    simp only [if_neg hbody]
    generalize slice wire (4 + descLen) desc.compressedSize.toNat = payload
    by_cases hsum : (verify && decide (X.blake3 payload ≠ desc.checksum)) = true
    · simp only [if_pos hsum]
      rfl
    simp only [if_neg hsum]
    by_cases hmem : desc.index.toNat ∈ st.received
    · simp only [if_pos hmem]
      rfl
    simp only [if_neg hmem]
    by_cases hcomp : desc.wasCompressed = true
    · simp only [if_pos hcomp]
      cases maybeDecompress X payload m.compression <;> rfl
    · simp only [if_neg hcomp]
      rfl

theorem fecRecoveryReadyChecked_eq (htotal : m.dataShards + m.parityShards < 2 ^ 64)
    (group : Group) :
    fecRecoveryReadyChecked group m = pure (fecRecoveryReady group m) := by
  unfold fecRecoveryReadyChecked fecRecoveryReady
  rw [Checked.add_of_lt htotal, Checked.pure_bind]
  split
  · rfl
  · split <;> rfl

/-- The rows are padded to the longest one. -/
theorem equalLengths_resize (group : Group) (len : Nat) :
    EqualLengths (group.map (Option.map (resize · len))) := by
  have hlen : ∀ row ∈ (group.map (Option.map (resize · len))).reduceOption, row.length = len := by
    intro row hrow
    rw [List.reduceOption_mem_iff, List.mem_map] at hrow
    obtain ⟨slot, -, hslot⟩ := hrow
    obtain ⟨v, -, rfl⟩ := Option.map_eq_some_iff.mp hslot
    exact length_resize v len
  intro a ha b hb
  rw [hlen a ha, hlen b hb]

theorem recoverSlotChecked_eq (verify : Bool) (g : Nat) (shards : Group)
    (acc : IngestState × Bool) (slot : Nat) :
    recoverSlotChecked X m verify g shards acc slot =
      .ofExcept (recoverSlot X m verify g shards acc slot) := by
  unfold recoverSlotChecked recoverSlot
  cases shards.getD slot none with
  | none => rfl
  | some bytes =>
    dsimp only
    rw [peekFramedChunkIndexChecked_eq, Checked.attempt_ofExcept, Checked.pure_bind]
    cases peekFramedChunkIndex X bytes with
    | error e => rfl
    | ok index =>
      dsimp only
      by_cases hidx : index ≠ slotIndex m g slot
      · rw [if_pos hidx, if_pos hidx]
        rfl
      · rw [if_neg hidx, if_neg hidx, persistFramedChunkChecked_eq]
        cases persistFramedChunk X bytes m verify acc.1 <;> rfl

theorem tryFecGroupRecoverChecked_eq (htotal : m.dataShards + m.parityShards < 2 ^ 64) (g : Nat)
    (rs : ReedSolomon) (verify : Bool) (st : IngestState) :
    tryFecGroupRecoverChecked X g m rs verify st =
      .ofExcept (tryFecGroupRecover X g m rs verify st) := by
  unfold tryFecGroupRecoverChecked tryFecGroupRecover
  cases st.groups g with
  | none => rfl
  | some group =>
    dsimp only
    by_cases hmissing : fecMissingDataSlots group m g st.received = []
    · rw [if_pos hmissing, if_pos (Or.inl hmissing)]
      rfl
    rw [if_neg hmissing, fecRecoveryReadyChecked_eq htotal, Checked.pure_bind]
    by_cases hready : fecRecoveryReady group m = false
    · rw [if_pos hready, if_pos (Or.inr hready)]
      rfl
    rw [if_neg hready, if_neg (not_or.mpr ⟨hmissing, hready⟩)]
    by_cases hzero : maxShard group = 0
    · rw [if_pos hzero, if_pos hzero]
      rfl
    rw [if_neg hzero, if_neg hzero, reconstructDataChecked, if_pos (equalLengths_resize _ _),
      Checked.pure_bind]
    cases X.rsReconstructData rs.dataShards rs.parityShards
        (group.map (Option.map (resize · (maxShard group)))) with
    | none => rfl
    | some shards =>
      dsimp only
      rw [Checked.foldlM_ofExcept (recoverSlotChecked_eq verify g shards)]
      cases (fecMissingDataSlots group m g st.received).foldlM
          (recoverSlot X m verify g shards) (st, false) with
      | error e => rfl
      | ok r =>
        obtain ⟨st', any⟩ := r
        simp only [Checked.ofExcept_ok, Checked.pure_bind]
        split <;> rfl

theorem storeShardChecked_eq (htotal : m.dataShards + m.parityShards < 2 ^ 64) (g slot : Nat)
    (shard : Bytes) (st : IngestState) :
    storeShardChecked m g slot shard st = pure (storeShard m g slot shard st) := by
  have hentry : groupEntryChecked m g st =
      pure ((st.groups g).getD (List.replicate (m.dataShards + m.parityShards) none)) := by
    unfold groupEntryChecked
    cases st.groups g with
    | some group => rfl
    | none =>
      dsimp only
      rw [Checked.add_of_lt htotal]
      rfl
  unfold storeShardChecked storeShard
  rw [hentry, Checked.pure_bind]
  generalize (st.groups g).getD (List.replicate (m.dataShards + m.parityShards) none) = group
  by_cases hslot : slot < group.length
  · rw [if_pos hslot, Checked.assign_of_lt hslot]
    rfl
  · rw [if_neg hslot]
    dsimp only
    rw [List.set_eq_of_length_le (Nat.le_of_not_lt hslot)]
    rfl

/-- `ingest_wire_frame` has no panics, if the number of rows of a group is a machine word. -/
theorem ingestWireFrameChecked_eq {fecRs : Option ReedSolomon}
    (htotal : fecRs.isSome = true → m.dataShards + m.parityShards < 2 ^ 64) (wire : Bytes)
    (verify : Bool) (lost : Finset Nat) (st : IngestState) :
    ingestWireFrameChecked X wire m fecRs verify lost st =
      .ofExcept (ingestWireFrame X wire m fecRs verify lost st) := by
  unfold ingestWireFrameChecked ingestWireFrame
  rw [parseFramedHeaderChecked_eq]
  cases hparse : parseFramedHeader X wire with
  | error e => rfl
  | ok header =>
    obtain ⟨desc, offset, descLen⟩ := header
    obtain ⟨rfl, hlt⟩ := parseFramedHeader_bounds hparse
    have hsize := desc.compressedSize.toNat_lt
    simp only [Checked.ofExcept_ok, Checked.pure_bind]
    show _ = Checked.ofExcept (if maxBody m < desc.compressedSize.toNat then _ else _)
    by_cases hmax : maxBody m < desc.compressedSize.toNat
    · rw [if_pos hmax, if_pos hmax]
      rfl
    rw [if_neg hmax, if_neg hmax, Checked.add_of_lt (by omega), Checked.pure_bind,
      Checked.add_of_lt (by omega), Checked.pure_bind]
    by_cases hbody : wire.length < 4 + descLen + desc.compressedSize.toNat
    · simp only [if_pos hbody]
      rfl
    rw [if_neg hbody, Checked.range_slice (by omega), Checked.pure_bind]
    simp only [if_neg hbody]
    generalize slice wire (4 + descLen) desc.compressedSize.toNat = payload
    by_cases hpar : desc.isParity = true
    · simp only [if_pos hpar]
      cases fecRs with
      | none => rfl
      | some rs =>
        dsimp only
        have htotal := htotal rfl
        by_cases hsum : (verify && decide (X.blake3 payload ≠ desc.checksum)) = true
        · simp only [if_pos hsum]
          rfl
        simp only [if_neg hsum]
        rw [storeShardChecked_eq htotal, Checked.pure_bind, tryFecGroupRecoverChecked_eq htotal]
        cases tryFecGroupRecover X desc.fecGroup.toNat m rs verify _ <;> rfl
    simp only [if_neg hpar]
    by_cases hlost : desc.index.toNat ∈ lost
    · simp only [if_pos hlost]
      rfl
    simp only [if_neg hlost]
    rw [persistFramedChunkChecked_eq]
    cases persistFramedChunk X wire m verify st with
    | error e => rfl
    | ok st' =>
      cases fecRs with
      | none => rfl
      | some rs =>
        have htotal := htotal rfl
        simp only [Checked.ofExcept_ok, Checked.pure_bind]
        show _ = Checked.ofExcept (if _ < m.dataShards then _ else _)
        by_cases hslot : desc.index.toNat - satMul desc.fecGroup.toNat (max m.dataShards 1)
            < m.dataShards
        · rw [if_pos hslot, if_pos hslot, storeShardChecked_eq htotal, Checked.pure_bind,
            tryFecGroupRecoverChecked_eq htotal]
          cases tryFecGroupRecover X desc.fecGroup.toNat m rs verify _ <;> rfl
        · rw [if_neg hslot, if_neg hslot]
          rfl

end Equal

/-! ## Stored groups -/

/-- Every stored group has a slot for each of its rows. -/
def Sized (m : TransferManifest) (st : IngestState) : Prop :=
  ∀ g group, st.groups g = some group → group.length = m.dataShards + m.parityShards

section Groups

variable {X : Crates} {m : TransferManifest} {verify : Bool} {st st' : IngestState}

theorem Sized.of_groups (h : Sized m st) (hgroups : st'.groups = st.groups) : Sized m st' := by
  intro g group hg
  rw [hgroups] at hg
  exact h g group hg

theorem Sized.storeShard (h : Sized m st) (g slot : Nat) (shard : Bytes) :
    Sized m (storeShard m g slot shard st) := by
  intro g' group hg'
  by_cases heq : g' = g
  · subst heq
    rw [storeShard_groups_self] at hg'
    cases hg'
    rw [List.length_set]
    unfold groupOrNew
    cases hgroup : st.groups g' with
    | none => exact List.length_replicate
    | some old => exact h g' old hgroup
  · rw [storeShard_groups_of_ne m heq] at hg'
    exact h g' group hg'

theorem Sized.dropGroup (h : Sized m st) (g : Nat) :
    Sized m { st with groups := Function.update st.groups g none } := by
  intro g' group hg'
  change Function.update st.groups g none g' = some group at hg'
  by_cases heq : g' = g
  · subst heq
    rw [Function.update_self] at hg'
    cases hg'
  · rw [Function.update_of_ne heq] at hg'
    exact h g' group hg'

theorem recoverLoop_groups {g : Nat} {shards : Group} {missing : List Nat} {any any' : Bool}
    (h : missing.foldlM (recoverSlot X m verify g shards) (st, any) = .ok (st', any')) :
    st'.groups = st.groups := by
  induction missing generalizing st any with
  | nil =>
    cases h
    rfl
  | cons slot rest ih =>
    rw [List.foldlM_cons, recoverSlot_eq] at h
    cases hrow : recoveredRow X m g shards slot with
    | none =>
      rw [hrow] at h
      exact ih h
    | some bytes =>
      simp only [hrow] at h
      cases hp : persistFramedChunk X bytes m verify st with
      | error e =>
        rw [hp] at h
        cases h
      | ok st₁ =>
        rw [hp] at h
        rw [ih h]
        exact (persist_written [] hp).1

theorem Sized.recover {g : Nat} {rs : ReedSolomon} (hst : Sized m st)
    (h : tryFecGroupRecover X g m rs verify st = .ok st') : Sized m st' := by
  unfold tryFecGroupRecover at h
  cases hg : st.groups g with
  | none =>
    simp only [hg] at h
    cases h
    exact hst
  | some group =>
    simp only [hg] at h
    split at h
    · cases h
      exact hst
    split at h
    · cases h
      exact hst
    split at h
    · cases h
      exact hst
    split at h
    · cases h
    · next st₁ any hloop =>
      have hsized := hst.of_groups (recoverLoop_groups hloop)
      split at h
      · cases h
        exact hsized.dropGroup g
      · cases h
        exact hsized

/-- **One frame keeps the groups sized.** -/
theorem Sized.ingest {wire : Bytes} {fecRs : Option ReedSolomon} {lost : Finset Nat} {g : Nat}
    (hst : Sized m st) (h : ingestWireFrame X wire m fecRs verify lost st = .ok (g, st')) :
    Sized m st' := by
  cases Ingested.of_ok h with
  | skipped => exact hst
  | parity hrecover => exact (hst.storeShard _ _ _).recover hrecover
  | written hpersist => exact hst.of_groups (persist_written [] hpersist).1
  | tried hpersist _ hrecover =>
    have hst₁ := hst.of_groups (persist_written [] hpersist).1
    exact (hst₁.storeShard _ _ _).recover hrecover

/-- A whole receive keeps them so. -/
theorem Sized.ingestAll {fecRs : Option ReedSolomon} {lost : Finset Nat} {frames : List Bytes}
    (hst : Sized m st) (h : ingestAll X m fecRs verify lost frames st = .ok st') :
    Sized m st' := by
  induction frames generalizing st with
  | nil =>
    cases h
    exact hst
  | cons wire rest ih =>
    obtain ⟨g, st₁, hstep, hrest⟩ := ingestAll_cons_ok h
    exact ih (hst.ingest hstep) hrest

end Groups

/-! ## Every receive -/

/-- A coder that was built has at most 256 rows. -/
theorem total_lt_of_fecRsOf {X : Crates} (hlimit : ∀ {n p : Nat}, X.rsNew n p = true → n + p ≤ 256)
    {m : TransferManifest} {fecRs : Option ReedSolomon} (h : fecRsOf X m = .ok fecRs)
    (hsome : fecRs.isSome = true) : m.dataShards + m.parityShards < 2 ^ 64 := by
  unfold fecRsOf at h
  split at h
  · split at h
    · next hnew =>
      have := hlimit hnew
      omega
    · cases h
  · cases h
    cases hsome

/--
**Whatever the bytes, ingesting a frame returns.**

The state is any that a receive gets to: it starts without groups, and each frame before was
ingested. `hlimit` is what the constructor of the coder checks.
-/
theorem ingest_never_panics {X : Crates}
    (hlimit : ∀ {n p : Nat}, X.rsNew n p = true → n + p ≤ 256) {m : TransferManifest}
    {fecRs : Option ReedSolomon} (hrs : fecRsOf X m = .ok fecRs) (verify : Bool)
    (lost : Finset Nat) {start st : IngestState} (hstart : ∀ g, start.groups g = none)
    (frames : List Bytes) (hrun : ingestAll X m fecRs verify lost frames start = .ok st)
    (wire : Bytes) :
    Sized m st ∧
    ingestWireFrameChecked X wire m fecRs verify lost st =
      .ofExcept (ingestWireFrame X wire m fecRs verify lost st) ∧
    (ingestWireFrameChecked X wire m fecRs verify lost st).result ≠ .error .panicked ∧
    ∀ g st', (ingestWireFrameChecked X wire m fecRs verify lost st).result = .ok (g, st') →
      Sized m st' := by
  have hstartSized : Sized m start := by
    intro g group hg
    rw [hstart g] at hg
    cases hg
  have hsized : Sized m st := hstartSized.ingestAll hrun
  have heq := ingestWireFrameChecked_eq (X := X) (total_lt_of_fecRsOf hlimit hrs) wire verify lost
    st
  refine ⟨hsized, heq, ?_, ?_⟩
  · rw [heq]
    exact Checked.ofExcept_returns _
  · intro g st' hok
    rw [heq, Checked.ofExcept_result_eq_ok] at hok
    exact hsized.ingest hok

/-- A parity frame that names the last group, the last row and the last chunk there can be. -/
def hostileWire : Bytes :=
  (frame Crates.reference
    { index := UInt64.ofNat (2 ^ 64 - 1)
      offset := UInt64.ofNat (2 ^ 64 - 1)
      compressedSize := 1
      uncompressedSize := UInt32.ofNat (2 ^ 32 - 1)
      checksum := Crates.reference.blake3 [0]
      wasCompressed := true
      isParity := true
      parityIndex := UInt64.ofNat (2 ^ 64 - 1)
      fecGroup := UInt64.ofNat (2 ^ 64 - 1) } [0]).getD []

/-- It opens a group of its own beside the one of the file, and a second copy is ingested too. -/
theorem hostileWire_never_panics :
    ∃ st, ingestAll Crates.reference (sample.manifest Crates.reference) sample.coder true ∅
        [sampleFrame 0, hostileWire] sampleEmpty = .ok st ∧
      Sized (sample.manifest Crates.reference) st ∧
      (ingestWireFrameChecked Crates.reference hostileWire (sample.manifest Crates.reference)
        sample.coder true ∅ st).result ≠ .error .panicked := by
  have hrun : (ingestAll Crates.reference (sample.manifest Crates.reference) sample.coder true ∅
      [sampleFrame 0, hostileWire] sampleEmpty).toOption.isSome = true := by
    decide +kernel
  cases hst : ingestAll Crates.reference (sample.manifest Crates.reference) sample.coder true ∅
      [sampleFrame 0, hostileWire] sampleEmpty with
  | error e =>
    rw [hst] at hrun
    cases hrun
  | ok st =>
    obtain ⟨hsized, -, hreturns, -⟩ := ingest_never_panics (X := Crates.reference)
      (fun hnew => (of_decide_eq_true hnew).2.2) (fecRsOf_manifest sample_admissible) true ∅
      (fun _ => rfl) _ hst hostileWire
    exact ⟨st, rfl, hsized, hreturns⟩

end ScTransport
