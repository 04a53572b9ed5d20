import ScTransport.Receiver.Reassembly
import Mathlib.Order.Interval.Finset.Nat

/-!
# Where the receiver writes

`persist_framed_chunk` takes index, offset and length from the descriptor of the frame, and
compares none of them with the manifest. Frames reach it in two ways: as they arrive, and as
rows that Reed–Solomon returned.

* `WrittenBy` — a state follows from another by a list of writes, one for each new index
* `Ingested` — how a call of `ingest_wire_frame` succeeds
* `ingest_written` — the writes of one call of `ingest_wire_frame`
* `received_in_place_iff` — the received chunks fill their places exactly if the sender made
  every frame for its place
-/

namespace ScTransport

open Infra

/-! ## Writes -/

/-- A chunk on its way to the part file. -/
structure ChunkWrite where
  index : Nat
  offset : Nat
  bytes : Bytes
  deriving DecidableEq

/-- The bytes of the file that the write covers. -/
def ChunkWrite.range (w : ChunkWrite) : Finset Nat :=
  Finset.Ico w.offset (w.offset + w.bytes.length)

/-- The bytes of the file that belong to chunk `i`. -/
def TransferManifest.place (m : TransferManifest) (i : Nat) : Finset Nat :=
  Finset.Ico (i * m.chunkSize) (min ((i + 1) * m.chunkSize) m.totalSize)

/-- The write is one for a chunk of the manifest and covers exactly its place. -/
def ChunkWrite.InPlace (m : TransferManifest) (w : ChunkWrite) : Prop :=
  w.index < m.numChunks ∧ w.range = m.place w.index

instance (m : TransferManifest) (w : ChunkWrite) : Decidable (w.InPlace m) :=
  inferInstanceAs (Decidable (_ ∧ _))

/-- What `persist_framed_chunk` writes for a frame; nothing for a parity frame. -/
def chunkWrite (X : Crates) (m : TransferManifest) (wire : Bytes) : Option ChunkWrite :=
  match parseFramedHeader X wire with
  | .error _ => none
  | .ok (desc, offset, descLen) =>
    if desc.isParity then none
    else
      let body := slice wire (offset + descLen) desc.compressedSize.toNat
      let chunk := if desc.wasCompressed then maybeDecompress X body m.compression else some body
      chunk.map fun bytes => ⟨desc.index.toNat, desc.offset.toNat, bytes⟩

/-- The frames handed to `persist_framed_chunk` in turn, less those received before. -/
def newWrites (X : Crates) (m : TransferManifest) : List Bytes → Finset Nat → List ChunkWrite
  | [], _ => []
  | wire :: rest, received =>
    match chunkWrite X m wire with
    | none => newWrites X m rest received
    | some w =>
      if w.index ∈ received then newWrites X m rest received
      else w :: newWrites X m rest (insert w.index received)

/-- `st'` is `st` after these writes; every one of them added its index. -/
structure WrittenBy (st st' : IngestState) (ws : List ChunkWrite) : Prop where
  out_eq : st'.out = ws.foldl (fun file w => writeAt file w.offset w.bytes) st.out
  received_eq : st'.received = st.received ∪ (ws.map ChunkWrite.index).toFinset
  nodup : (ws.map ChunkWrite.index).Nodup
  fresh : ∀ w ∈ ws, w.index ∉ st.received

section Writes

variable {X : Crates} {m : TransferManifest} {verify : Bool} {st st' st'' : IngestState}

theorem WrittenBy.of_eq (hout : st'.out = st.out) (hrec : st'.received = st.received) :
    WrittenBy st st' [] :=
  ⟨hout, by simp [hrec], List.nodup_nil, by simp⟩

theorem WrittenBy.mono {ws : List ChunkWrite} (h : WrittenBy st st' ws) :
    st.received ⊆ st'.received := by
  rw [h.received_eq]
  exact Finset.subset_union_left

theorem WrittenBy.mem {ws : List ChunkWrite} (h : WrittenBy st st' ws) {w : ChunkWrite}
    (hw : w ∈ ws) : w.index ∈ st'.received := by
  rw [h.received_eq]
  exact Finset.mem_union_right _ (List.mem_toFinset.mpr (List.mem_map_of_mem hw))

theorem WrittenBy.append {ws ws' : List ChunkWrite} (h : WrittenBy st st' ws)
    (h' : WrittenBy st' st'' ws') : WrittenBy st st'' (ws ++ ws') where
  out_eq := by rw [h'.out_eq, h.out_eq, List.foldl_append]
  received_eq := by
    rw [h'.received_eq, h.received_eq, List.map_append, List.toFinset_append,
      Finset.union_assoc]
  nodup := by
    rw [List.map_append]
    refine h.nodup.append h'.nodup ?_
    -- what is written later was not received before
    intro i hi hi'
    obtain ⟨w, hw, rfl⟩ := List.mem_map.mp hi
    obtain ⟨w', hw', heq⟩ := List.mem_map.mp hi'
    exact h'.fresh w' hw' (heq ▸ h.mem hw)
  fresh := by
    intro w hw
    rcases List.mem_append.mp hw with hw | hw
    · exact h.fresh w hw
    · exact fun hmem => h'.fresh w hw (h.mono hmem)

/-- Writes within the file leave its length. -/
theorem WrittenBy.length_out {ws : List ChunkWrite} (h : WrittenBy st st' ws)
    (hin : ∀ w ∈ ws, w.range ⊆ Finset.range st.out.length) :
    st'.out.length = st.out.length := by
  rw [h.out_eq]
  generalize st.out = file at hin ⊢
  clear h
  induction ws generalizing file with
  | nil => rfl
  | cons w rest ih =>
    have hlen : (writeAt file w.offset w.bytes).length = file.length := by
      by_cases hnil : w.bytes = []
      · rw [writeAt, if_pos hnil]
      · have hpos := List.length_pos_iff.mpr hnil
        have hlast : w.offset + (w.bytes.length - 1) ∈ w.range :=
          Finset.mem_Ico.mpr ⟨by omega, by omega⟩
        have := Finset.mem_range.mp (hin w List.mem_cons_self hlast)
        exact length_writeAt (by omega)
    rw [List.foldl_cons, ← hlen]
    refine ih _ fun x hx => ?_
    rw [hlen]
    exact hin x (List.mem_cons_of_mem _ hx)

/-- A frame is either passed over or written. -/
theorem persist_cases {wire : Bytes} (h : persistFramedChunk X wire m verify st = .ok st') :
    (st' = st ∧ ∀ desc off len, parseFramedHeader X wire = .ok (desc, off, len) →
      desc.isParity = true ∨ desc.index.toNat ∈ st.received) ∨
    ∃ w, chunkWrite X m wire = some w ∧ w.index ∉ st.received ∧
      st' = { st with
        out := writeAt st.out w.offset w.bytes
        received := insert w.index st.received } := by
  unfold persistFramedChunk at h
  unfold chunkWrite
  cases hparse : parseFramedHeader X wire with
  | error e =>
    rw [hparse] at h
    cases h
  | ok header =>
    obtain ⟨desc, off, len⟩ := header
    simp only [hparse, bind, Except.bind, pure, Except.pure] at h
    split at h
    · next hpar =>
      cases h
      refine Or.inl ⟨rfl, fun desc' _ _ heq => ?_⟩
      cases heq
      exact Or.inl hpar
    · next hpar =>
      split at h
      · cases h
      · split at h
        · cases h
        · split at h
          · next hmem =>
            cases h
            refine Or.inl ⟨rfl, fun desc' _ _ heq => ?_⟩
            cases heq
            exact Or.inr hmem
          · next hmem =>
            right
            simp only [if_neg hpar]
            split at h
            · next hcomp =>
              rw [if_pos hcomp]
              split at h
              · cases h
              · next chunk hchunk =>
                cases h
                exact ⟨_, by rw [hchunk]; rfl, hmem, rfl⟩
            · next hcomp =>
              cases h
              rw [if_neg hcomp]
              exact ⟨_, rfl, hmem, rfl⟩

theorem chunkWrite_index {wire : Bytes} {w : ChunkWrite} (h : chunkWrite X m wire = some w) :
    ∃ desc off len, parseFramedHeader X wire = .ok (desc, off, len) ∧ desc.isParity = false ∧
      w.index = desc.index.toNat := by
  unfold chunkWrite at h
  split at h
  · cases h
  · next desc off len hparse =>
    split at h
    · cases h
    · next hpar =>
      obtain ⟨bytes, -, rfl⟩ := Option.map_eq_some_iff.mp h
      exact ⟨desc, off, len, hparse, by simpa using hpar, rfl⟩

/-- **Frames handed over in turn.** Each is written unless its index was received before. -/
theorem persist_written {wire : Bytes} (rest : List Bytes)
    (h : persistFramedChunk X wire m verify st = .ok st') :
    st'.groups = st.groups ∧ ∃ ws, WrittenBy st st' ws ∧
      newWrites X m (wire :: rest) st.received = ws ++ newWrites X m rest st'.received := by
  rcases persist_cases h with ⟨rfl, hold⟩ | ⟨w, hw, hnew, rfl⟩
  · refine ⟨rfl, [], .of_eq rfl rfl, ?_⟩
    simp only [newWrites, List.nil_append]
    cases hw : chunkWrite X m wire with
    | none => rfl
    | some w =>
      obtain ⟨desc, off, len, hparse, hpar, hidx⟩ := chunkWrite_index hw
      refine if_pos ?_
      rw [hidx]
      refine (hold desc off len hparse).resolve_left ?_
      rw [hpar]
      exact Bool.false_ne_true
  · refine ⟨rfl, [w], ⟨rfl, ?_, List.nodup_singleton _, ?_⟩, ?_⟩
    · simp
    · simpa using hnew
    · simp only [newWrites, hw, if_neg hnew, List.cons_append, List.nil_append]

/-- A single frame handed over. -/
theorem persist_written_one {wire : Bytes}
    (h : persistFramedChunk X wire m verify st = .ok st') :
    WrittenBy st st' (newWrites X m [wire] st.received) := by
  obtain ⟨-, ws, hws, heq⟩ := persist_written [] h
  rw [heq]
  exact hws.append (.of_eq rfl rfl)

end Writes

/-! ## Frames handed over -/

/-- The row of a slot, if Reed–Solomon returned a frame for the chunk of that slot. -/
def recoveredRow (X : Crates) (m : TransferManifest) (fecGroup : Nat) (shards : Group)
    (slot : Nat) : Option Bytes :=
  match shards.getD slot none with
  | none => none
  | some bytes =>
    match peekFramedChunkIndex X bytes with
    | .error _ => none
    | .ok recoveredIndex =>
      if recoveredIndex ≠ slotIndex m fecGroup slot then none else some bytes

/-- The rows that `try_fec_group_recover` hands to `persist_framed_chunk`. -/
def recoveredRows (X : Crates) (fecGroup : Nat) (m : TransferManifest) (rs : ReedSolomon)
    (st : IngestState) : List Bytes :=
  match st.groups fecGroup with
  | none => []
  | some group =>
    let missing := fecMissingDataSlots group m fecGroup st.received
    if missing = [] ∨ fecRecoveryReady group m = false then []
    else if maxShard group = 0 then []
    else
      match X.rsReconstructData rs.dataShards rs.parityShards
          (group.map (Option.map (resize · (maxShard group)))) with
      | none => []
      | some shards => missing.filterMap (recoveredRow X m fecGroup shards)

/-- The frames that `ingest_wire_frame` hands over: the one that arrived, then recovered rows. -/
def handedFrames (X : Crates) (m : TransferManifest) (fecRs : Option ReedSolomon)
    (simulateLost : Finset Nat) (wire : Bytes) (st : IngestState) : List Bytes :=
  match parseFramedHeader X wire with
  | .error _ => []
  | .ok (desc, _, descLen) =>
    let g := desc.fecGroup.toNat
    if desc.isParity then
      match fecRs with
      | none => []
      | some rs =>
        recoveredRows X g m rs (storeShard m g (satAdd desc.parityIndex.toNat m.dataShards)
          (slice wire (4 + descLen) desc.compressedSize.toNat) st)
    else if desc.index.toNat ∈ simulateLost then []
    else
      let slot := desc.index.toNat - satMul g (max m.dataShards 1)
      wire :: match fecRs with
        | none => []
        | some rs =>
          if slot < m.dataShards then
            recoveredRows X g m rs (storeShard m g slot wire
              { st with received := insert desc.index.toNat st.received })
          else []

/-- The writes of one call of `ingest_wire_frame`. -/
def stepWrites (X : Crates) (m : TransferManifest) (fecRs : Option ReedSolomon)
    (simulateLost : Finset Nat) (wire : Bytes) (st : IngestState) : List ChunkWrite :=
  newWrites X m (handedFrames X m fecRs simulateLost wire st) st.received

section Handed

variable {X : Crates} {m : TransferManifest} {verify : Bool} {g : Nat} {st st' : IngestState}

theorem recoverSlot_eq (shards : Group) (acc : IngestState × Bool) (slot : Nat) :
    recoverSlot X m verify g shards acc slot =
      match recoveredRow X m g shards slot with
      | none => .ok acc
      | some bytes =>
        match persistFramedChunk X bytes m verify acc.1 with
        | .error e => .error e
        | .ok st => .ok (st, true) := by
  unfold recoverSlot recoveredRow
  cases shards.getD slot none with
  | none => rfl
  | some bytes =>
    cases hpeek : peekFramedChunkIndex X bytes with
    | error e => simp only [hpeek]
    | ok index =>
      simp only [hpeek]
      split <;> rfl

/-- The recovery loop writes the recovered rows. -/
theorem recoverLoop_written {shards : Group} {missing : List Nat} {any any' : Bool}
    (h : missing.foldlM (recoverSlot X m verify g shards) (st, any) = .ok (st', any')) :
    WrittenBy st st'
      (newWrites X m (missing.filterMap (recoveredRow X m g shards)) st.received) := by
  induction missing generalizing st any with
  | nil =>
    cases h
    exact .of_eq rfl rfl
  | cons slot rest ih =>
    rw [List.foldlM_cons, recoverSlot_eq] at h
    cases hrow : recoveredRow X m g shards slot with
    | none =>
      rw [hrow] at h
      rw [List.filterMap_cons_none hrow]
      exact ih h
    | some bytes =>
      rw [List.filterMap_cons_some hrow]
      simp only [hrow] at h
      cases hp : persistFramedChunk X bytes m verify st with
      | error e =>
        rw [hp] at h
        cases h
      | ok st₁ =>
        rw [hp] at h
        obtain ⟨-, ws, hws, heq⟩ :=
          persist_written (rest.filterMap (recoveredRow X m g shards)) hp
        rw [heq]
        exact hws.append (ih h)

theorem tryFecGroupRecover_written {rs : ReedSolomon}
    (h : tryFecGroupRecover X g m rs verify st = .ok st') :
    WrittenBy st st' (newWrites X m (recoveredRows X g m rs st) st.received) := by
  unfold tryFecGroupRecover at h
  unfold recoveredRows
  cases hg : st.groups g with
  | none =>
    simp only [hg] at h
    cases h
    exact .of_eq rfl rfl
  | some group =>
    simp only [hg] at h ⊢
    split at h
    · next hidle =>
      cases h
      rw [if_pos hidle]
      exact .of_eq rfl rfl
    · next hidle =>
      rw [if_neg hidle]
      split at h
      · next hzero =>
        cases h
        rw [if_pos hzero]
        exact .of_eq rfl rfl
      · next hzero =>
        rw [if_neg hzero]
        cases hrs : X.rsReconstructData rs.dataShards rs.parityShards
            (group.map (Option.map (resize · (maxShard group)))) with
        | none =>
          simp only [hrs] at h
          cases h
          exact .of_eq rfl rfl
        | some shards =>
          simp only [hrs] at h
          split at h
          · cases h
          · next st₁ any hloop =>
            have hwr := recoverLoop_written hloop
            -- dropping a completed group changes neither the file nor the indices
            split at h <;> cases h <;> exact ⟨hwr.out_eq, hwr.received_eq, hwr.nodup, hwr.fresh⟩

/-- Recovery looks at the groups and the received indices only. -/
theorem recoveredRows_congr {rs : ReedSolomon} (hgroups : st.groups = st'.groups)
    (hrec : st.received = st'.received) :
    recoveredRows X g m rs st = recoveredRows X g m rs st' := by
  unfold recoveredRows
  rw [hgroups, hrec]

/-- Once handed over, the index of a data frame is received. -/
theorem persist_received {wire : Bytes} {desc : ChunkDescriptor} {off len : Nat}
    (hparse : parseFramedHeader X wire = .ok (desc, off, len)) (hpar : ¬ desc.isParity = true)
    (h : persistFramedChunk X wire m verify st = .ok st') :
    st'.received = insert desc.index.toNat st.received := by
  rcases persist_cases h with ⟨rfl, hold⟩ | ⟨w, hw, -, rfl⟩
  · exact (Finset.insert_eq_of_mem ((hold desc off len hparse).resolve_left hpar)).symm
  · obtain ⟨desc', off', len', hparse', -, hidx⟩ := chunkWrite_index hw
    rw [hparse] at hparse'
    cases hparse'
    rw [hidx]

/-- A data frame that completes its group: it is written, then the rows recovered with it. -/
theorem persist_recover_written {wire : Bytes} {rs : ReedSolomon} {i slot : Nat}
    {st₁ st₂ : IngestState} (hpersist : persistFramedChunk X wire m verify st = .ok st₁)
    (hrec : st₁.received = insert i st.received)
    (h : tryFecGroupRecover X g m rs verify (storeShard m g slot wire st₁) = .ok st₂) :
    WrittenBy st st₂ (newWrites X m (wire :: recoveredRows X g m rs
      (storeShard m g slot wire { st with received := insert i st.received })) st.received) := by
  have hwr := tryFecGroupRecover_written h
  obtain ⟨hgroups, ws, hws, heq⟩ := persist_written (recoveredRows X g m rs
    (storeShard m g slot wire { st with received := insert i st.received })) hpersist
  have hrows : recoveredRows X g m rs
      (storeShard m g slot wire { st with received := insert i st.received })
        = recoveredRows X g m rs (storeShard m g slot wire st₁) :=
    recoveredRows_congr (by simp only [storeShard, hgroups]) hrec.symm
  rw [heq, hrows]
  exact hws.append ⟨hwr.out_eq, hwr.received_eq, hwr.nodup, hwr.fresh⟩

/-- How a call of `ingest_wire_frame` succeeds, with the frames it hands over. -/
inductive Ingested (X : Crates) (m : TransferManifest) (fecRs : Option ReedSolomon) (verify : Bool)
    (lost : Finset Nat) (wire : Bytes) (st : IngestState) : IngestState → Prop where
  | skipped (hhanded : handedFrames X m fecRs lost wire st = []) :
    Ingested X m fecRs verify lost wire st st
  | parity {rs : ReedSolomon} {g slot : Nat} {shard : Bytes} {st' : IngestState}
    (hrecover : tryFecGroupRecover X g m rs verify (storeShard m g slot shard st) = .ok st')
    (hhanded : handedFrames X m fecRs lost wire st =
      recoveredRows X g m rs (storeShard m g slot shard st)) :
    Ingested X m fecRs verify lost wire st st'
  | written {st' : IngestState} (hpersist : persistFramedChunk X wire m verify st = .ok st')
    (hhanded : handedFrames X m fecRs lost wire st = [wire]) :
    Ingested X m fecRs verify lost wire st st'
  | tried {rs : ReedSolomon} {g slot i : Nat} {st₁ st' : IngestState}
    (hpersist : persistFramedChunk X wire m verify st = .ok st₁)
    (hreceived : st₁.received = insert i st.received)
    (hrecover : tryFecGroupRecover X g m rs verify (storeShard m g slot wire st₁) = .ok st')
    (hhanded : handedFrames X m fecRs lost wire st = wire :: recoveredRows X g m rs
      (storeShard m g slot wire { st with received := insert i st.received })) :
    Ingested X m fecRs verify lost wire st st'

theorem Ingested.of_ok {wire : Bytes} {fecRs : Option ReedSolomon} {lost : Finset Nat}
    (h : ingestWireFrame X wire m fecRs verify lost st = .ok (g, st')) :
    Ingested X m fecRs verify lost wire st st' := by
  unfold ingestWireFrame at h
  cases hparse : parseFramedHeader X wire with
  | error e =>
    rw [hparse] at h
    cases h
  | ok header =>
    obtain ⟨desc, off, len⟩ := header
    simp only [hparse, bind, Except.bind, pure, Except.pure] at h
    split at h
    · cases h
    split at h
    · cases h
    by_cases hpar : desc.isParity = true
    · simp only [if_pos hpar] at h
      cases fecRs with
      | none =>
        cases h
        exact .skipped (by simp only [handedFrames, hparse, if_pos hpar])
      | some rs =>
        dsimp only at h
        split at h
        · cases h
        split at h
        · cases h
        · next st₁ hrecover =>
          cases h
          exact .parity hrecover (by simp only [handedFrames, hparse, if_pos hpar])
    by_cases hlost : desc.index.toNat ∈ lost
    · simp only [if_neg hpar, if_pos hlost] at h
      cases h
      exact .skipped (by simp only [handedFrames, hparse, if_neg hpar, if_pos hlost])
    simp only [if_neg hpar, if_neg hlost] at h
    split at h
    · cases h
    · next st₁ hpersist =>
      cases fecRs with
      | none =>
        cases h
        exact .written hpersist (by simp only [handedFrames, hparse, if_neg hpar, if_neg hlost])
      | some rs =>
        dsimp only at h
        split at h
        · next hslot =>
          split at h
          · cases h
          · next st₂ hrecover =>
            cases h
            exact .tried hpersist (persist_received hparse hpar hpersist) hrecover
              (by simp only [handedFrames, hparse, if_neg hpar, if_neg hlost, if_pos hslot])
        · next hslot =>
          cases h
          exact .written hpersist
            (by simp only [handedFrames, hparse, if_neg hpar, if_neg hlost, if_neg hslot])

/-- **One call of `ingest_wire_frame`.** It writes the new ones among the frames handed over. -/
theorem ingest_written {wire : Bytes} {fecRs : Option ReedSolomon} {lost : Finset Nat}
    (h : ingestWireFrame X wire m fecRs verify lost st = .ok (g, st')) :
    WrittenBy st st' (stepWrites X m fecRs lost wire st) := by
  unfold stepWrites
  cases Ingested.of_ok h with
  | skipped hhanded =>
    rw [hhanded]
    exact .of_eq rfl rfl
  | parity hrecover hhanded =>
    rw [hhanded]
    have hwr := tryFecGroupRecover_written hrecover
    exact ⟨hwr.out_eq, hwr.received_eq, hwr.nodup, hwr.fresh⟩
  | written hpersist hhanded =>
    rw [hhanded]
    exact persist_written_one hpersist
  | tried hpersist hreceived hrecover hhanded =>
    rw [hhanded]
    exact persist_recover_written hpersist hreceived hrecover

end Handed

/-! ## Runs -/

/-- The writes of a run. -/
def runWrites (X : Crates) (m : TransferManifest) (fecRs : Option ReedSolomon) (verify : Bool)
    (simulateLost : Finset Nat) : List Bytes → IngestState → List ChunkWrite
  | [], _ => []
  | wire :: rest, st =>
    match ingestWireFrame X wire m fecRs verify simulateLost st with
    | .error _ => []
    | .ok (_, st') =>
      stepWrites X m fecRs simulateLost wire st ++
        runWrites X m fecRs verify simulateLost rest st'

/-- At every step, whatever is handed over for the first time is made for its place. -/
def RunInPlace (X : Crates) (m : TransferManifest) (fecRs : Option ReedSolomon) (verify : Bool)
    (simulateLost : Finset Nat) : List Bytes → IngestState → Prop
  | [], _ => True
  | wire :: rest, st =>
    (∀ w ∈ stepWrites X m fecRs simulateLost wire st, w.InPlace m) ∧
      ∀ g st', ingestWireFrame X wire m fecRs verify simulateLost st = .ok (g, st') →
        RunInPlace X m fecRs verify simulateLost rest st'

section Run

variable {X : Crates} {m : TransferManifest} {fecRs : Option ReedSolomon} {verify : Bool}
  {lost : Finset Nat} {frames : List Bytes} {st st' : IngestState}

theorem ingestAll_cons_ok {wire : Bytes}
    (h : ingestAll X m fecRs verify lost (wire :: frames) st = .ok st') :
    ∃ g st₁, ingestWireFrame X wire m fecRs verify lost st = .ok (g, st₁) ∧
      ingestAll X m fecRs verify lost frames st₁ = .ok st' := by
  simp only [ingestAll] at h
  split at h
  · cases h
  · next g st₁ hrun => exact ⟨g, st₁, hrun, h⟩

/-- **A run** changes file and indices by its writes. -/
theorem ingestAll_written (h : ingestAll X m fecRs verify lost frames st = .ok st') :
    WrittenBy st st' (runWrites X m fecRs verify lost frames st) := by
  induction frames generalizing st with
  | nil =>
    cases h
    exact .of_eq rfl rfl
  | cons wire rest ih =>
    obtain ⟨g, st₁, hstep, hrest⟩ := ingestAll_cons_ok h
    simp only [runWrites, hstep]
    exact (ingest_written hstep).append (ih hrest)

theorem runInPlace_iff (h : ingestAll X m fecRs verify lost frames st = .ok st') :
    RunInPlace X m fecRs verify lost frames st ↔
      ∀ w ∈ runWrites X m fecRs verify lost frames st, w.InPlace m := by
  induction frames generalizing st with
  | nil => simp [RunInPlace, runWrites]
  | cons wire rest ih =>
    obtain ⟨g, st₁, hstep, hrest⟩ := ingestAll_cons_ok h
    have hrun : (∀ g st', ingestWireFrame X wire m fecRs verify lost st = .ok (g, st') →
        RunInPlace X m fecRs verify lost rest st') ↔ RunInPlace X m fecRs verify lost rest st₁ := by
      constructor
      · exact fun hall => hall g st₁ hstep
      · intro hone g' st' hstep'
        rw [hstep] at hstep'
        cases hstep'
        exact hone
    rw [RunInPlace, hrun, ih hrest]
    simp only [runWrites, hstep, List.mem_append, or_imp, forall_and]

/-- Writes in their places leave no byte outside the file. -/
theorem ChunkWrite.InPlace.range_subset {w : ChunkWrite} (h : w.InPlace m) :
    w.range ⊆ Finset.range m.totalSize := by
  rw [h.2]
  intro k hk
  rw [TransferManifest.place, Finset.mem_Ico] at hk
  rw [Finset.mem_range]
  omega

/--
**Received chunks fill their places if and only if every frame was made for its place.**

The receiver adds what it is handed, so its set of indices says what the sender claimed. With
frames made for their places, as many indices as there are chunks are all the chunks.
-/
theorem received_in_place_iff (X : Crates) (m : TransferManifest) (fecRs : Option ReedSolomon)
    (verify : Bool) (lost : Finset Nat) (frames : List Bytes) (out : Bytes) (st : IngestState)
    (h : ingestAll X m fecRs verify lost frames ⟨out, ∅, fun _ => none⟩ = .ok st) :
    WrittenBy ⟨out, ∅, fun _ => none⟩ st
        (runWrites X m fecRs verify lost frames ⟨out, ∅, fun _ => none⟩) ∧
    ((∀ i ∈ st.received, i < m.numChunks ∧
        ∃ w ∈ runWrites X m fecRs verify lost frames ⟨out, ∅, fun _ => none⟩,
          w.index = i ∧ w.range = m.place i) ↔
      RunInPlace X m fecRs verify lost frames ⟨out, ∅, fun _ => none⟩) ∧
    (RunInPlace X m fecRs verify lost frames ⟨out, ∅, fun _ => none⟩ →
      (m.numChunks ≤ st.received.card → st.received = Finset.range m.numChunks) ∧
      ∀ w ∈ runWrites X m fecRs verify lost frames ⟨out, ∅, fun _ => none⟩,
        w.range ⊆ Finset.range m.totalSize) := by
  have hwr := ingestAll_written h
  rw [runInPlace_iff h]
  generalize runWrites X m fecRs verify lost frames ⟨out, ∅, fun _ => none⟩ = ws at hwr ⊢
  have hmem : ∀ i, i ∈ st.received ↔ ∃ w ∈ ws, w.index = i := by
    intro i
    rw [hwr.received_eq]
    simp
  refine ⟨hwr, ⟨?_, ?_⟩, ?_⟩
  · intro hprop w hw
    obtain ⟨hlt, w', hw', hidx, hrange⟩ := hprop w.index ((hmem _).mpr ⟨w, hw, rfl⟩)
    obtain rfl : w' = w := List.inj_on_of_nodup_map hwr.nodup hw' hw hidx
    exact ⟨hlt, hrange⟩
  · intro hall i hi
    obtain ⟨w, hw, rfl⟩ := (hmem i).mp hi
    exact ⟨(hall w hw).1, w, hw, rfl, (hall w hw).2⟩
  · intro hall
    refine ⟨fun hcard => ?_, fun w hw => (hall w hw).range_subset⟩
    refine Finset.eq_of_subset_of_card_le (fun i hi => ?_) (by simpa using hcard)
    obtain ⟨w, hw, rfl⟩ := (hmem i).mp hi
    exact Finset.mem_range.mpr (hall w hw).1

end Run

/-! ## Two runs -/

/-- The receive state of a fresh transfer of three bytes. -/
def sampleEmpty : IngestState := ⟨[0, 0, 0], ∅, fun _ => none⟩

/-- File and indices after a run of the sample. -/
def sampleContent (frames : List Bytes) : Option (Bytes × Finset Nat) :=
  match ingestAll Crates.reference (sample.manifest Crates.reference) (some ⟨2, 1⟩) true ∅ frames
      sampleEmpty with
  | .error _ => none
  | .ok st => some (st.out, st.received)

theorem sampleContent_eq {frames : List Bytes} {out : Bytes} {received : Finset Nat}
    (h : sampleContent frames = some (out, received)) :
    ∃ st, ingestAll Crates.reference (sample.manifest Crates.reference) (some ⟨2, 1⟩) true ∅
        frames sampleEmpty = .ok st ∧ st.out = out ∧ st.received = received := by
  unfold sampleContent at h
  split at h
  · cases h
  · next st hrun =>
    cases h
    exact ⟨st, hrun, rfl, rfl⟩

/-- The first chunk and the parity row: the second chunk is written as a recovered row. -/
theorem sample_received_in_place : ∃ st,
    ingestAll Crates.reference (sample.manifest Crates.reference) (some ⟨2, 1⟩) true ∅
      [sampleFrame 0, sampleFrame 2] sampleEmpty = .ok st ∧
    RunInPlace Crates.reference (sample.manifest Crates.reference) (some ⟨2, 1⟩) true ∅
      [sampleFrame 0, sampleFrame 2] sampleEmpty ∧
    st.received = Finset.range 2 := by
  obtain ⟨st, hrun, -, hrec⟩ := sampleContent_eq
    (show sampleContent [sampleFrame 0, sampleFrame 2] = some ([97, 98, 99], {0, 1}) by
      decide +kernel)
  have hplace : RunInPlace Crates.reference (sample.manifest Crates.reference) (some ⟨2, 1⟩) true
      ∅ [sampleFrame 0, sampleFrame 2] sampleEmpty := by
    rw [runInPlace_iff hrun]
    decide +kernel
  refine ⟨st, hrun, hplace, ?_⟩
  refine ((received_in_place_iff _ _ _ _ _ _ _ st hrun).2.2 hplace).1 ?_
  rw [hrec]
  decide

/-- A data frame with whatever index, offset and body, and the checksum of the body. -/
def sampleData (index offset : Nat) (body : Bytes) : Bytes :=
  (frame Crates.reference
    { index := UInt64.ofNat index
      offset := UInt64.ofNat offset
      compressedSize := UInt32.ofNat body.length
      uncompressedSize := UInt32.ofNat body.length
      checksum := Crates.reference.blake3 body
      wasCompressed := false
      isParity := false
      parityIndex := 0
      fecGroup := 0 } body).getD []

/-- Two bytes for an index that the manifest does not have, behind the end of the file. -/
def sampleStray (i : Nat) : Bytes := sampleData i 10 [97, 98]

/-- Two of them end the receive loop: no chunk was received, and the part file has grown. -/
theorem sampleStray_received : ∃ st,
    ingestAll Crates.reference (sample.manifest Crates.reference) (some ⟨2, 1⟩) true ∅
      [sampleStray 7, sampleStray 8] sampleEmpty = .ok st ∧
    (sample.manifest Crates.reference).numChunks ≤ st.received.card ∧
    (∀ i ∈ st.received, ¬ i < (sample.manifest Crates.reference).numChunks) ∧
    (sample.manifest Crates.reference).totalSize < st.out.length := by
  obtain ⟨st, hrun, hout, hrec⟩ := sampleContent_eq
    (show sampleContent [sampleStray 7, sampleStray 8]
      = some ([0, 0, 0, 0, 0, 0, 0, 0, 0, 0, 97, 98], {7, 8}) by decide +kernel)
  refine ⟨st, hrun, ?_⟩
  rw [hout, hrec]
  decide

end ScTransport
