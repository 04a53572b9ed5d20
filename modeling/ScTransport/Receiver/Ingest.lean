import ScTransport.Protocol.Framing
import Mathlib.Data.Finset.Insert
import Mathlib.Logic.Function.Basic

/-!
# The receiver: ingesting a frame

`ingest_wire_frame` writes a data chunk to the part file and keeps its frame in the slot of
its FEC group; a parity row goes to its slot only. After each change of a group,
`try_fec_group_recover` looks whether Reed–Solomon can fill the missing data slots.

The state is what the source passes by `&mut`. On `Err` the receive loop returns at once, so
a failed call has no state to return. File operations succeed here; their failures are part
of the completion protocol.
-/

namespace ScTransport

open Infra

/-- `Option<ReedSolomon>` of the receiver: the dimensions it was built with. -/
structure ReedSolomon where
  dataShards : Nat
  parityShards : Nat
  deriving DecidableEq

/-- Slots of a group: data frames first, then parity rows. -/
abbrev Group := List (Option Bytes)

/-- The part file, the indices written so far, and the stored groups. -/
structure IngestState where
  out : Bytes
  received : Finset Nat
  groups : Nat → Option Group

/-! ## Chunks -/

def persistFramedChunk (X : Crates) (wire : Bytes) (m : TransferManifest) (verify : Bool)
    (st : IngestState) : Except ReceiveError IngestState := do
  let (desc, offset, descLen) ← parseFramedHeader X wire
  if desc.isParity then return st
  let payloadOff := offset + descLen
  let payloadEnd := payloadOff + desc.compressedSize.toNat
  if wire.length < payloadEnd then throw .truncatedChunkBody
  let wirePayload := slice wire payloadOff desc.compressedSize.toNat
  if verify && X.blake3 wirePayload ≠ desc.checksum then
    throw (.chunkChecksumMismatch desc.index.toNat)
  if desc.index.toNat ∈ st.received then return st
  if desc.wasCompressed then
    match maybeDecompress X wirePayload m.compression with
    | none => throw .decompress
    | some chunk =>
      return { st with
        out := writeAt st.out desc.offset.toNat chunk
        received := insert desc.index.toNat st.received }
  else
    return { st with
      out := writeAt st.out desc.offset.toNat wirePayload
      received := insert desc.index.toNat st.received }

/-! ## Recovery -/

/-- Index of the chunk in a data slot. -/
def slotIndex (m : TransferManifest) (fecGroup slot : Nat) : Nat :=
  satAdd (satMul fecGroup (max m.dataShards 1)) slot

/-- The slot is filled. -/
def slotPresent (group : Group) (slot : Nat) : Bool := (group.getD slot none).isSome

def fecMissingDataSlots (group : Group) (m : TransferManifest) (fecGroup : Nat)
    (received : Finset Nat) : List Nat :=
  (List.range m.dataShards).filter fun slot =>
    decide (slotIndex m fecGroup slot ∉ received) && !slotPresent group slot

/-- At least one data frame, and as many rows as there are data slots. -/
def fecRecoveryReady (group : Group) (m : TransferManifest) : Bool :=
  if group.length ≠ m.dataShards + m.parityShards then false
  else if ((List.range m.dataShards).filter (slotPresent group)).length = 0 then false
  else decide (m.dataShards ≤ present group)

/-- Longest stored row. -/
def maxShard (group : Group) : Nat := (group.reduceOption.map List.length).foldl max 0

/-- One turn of the recovery loop. The flag is `recovered_any`. -/
def recoverSlot (X : Crates) (m : TransferManifest) (verify : Bool) (fecGroup : Nat)
    (shards : Group) (acc : IngestState × Bool) (slot : Nat) :
    Except ReceiveError (IngestState × Bool) :=
  match shards.getD slot none with
  | none => .ok acc
  | some bytes =>
    match peekFramedChunkIndex X bytes with
    | .error _ => .ok acc
    | .ok recoveredIndex =>
      if recoveredIndex ≠ slotIndex m fecGroup slot then .ok acc
      else
        match persistFramedChunk X bytes m verify acc.1 with
        | .error e => .error e
        | .ok st => .ok (st, true)

def tryFecGroupRecover (X : Crates) (fecGroup : Nat) (m : TransferManifest) (rs : ReedSolomon)
    (verify : Bool) (st : IngestState) : Except ReceiveError IngestState :=
  match st.groups fecGroup with
  | none => .ok st
  | some group =>
    let missing := fecMissingDataSlots group m fecGroup st.received
    if missing = [] ∨ fecRecoveryReady group m = false then .ok st
    else
      let maxLen := maxShard group
      if maxLen = 0 then .ok st
      else
        match X.rsReconstructData rs.dataShards rs.parityShards
            (group.map (Option.map (resize · maxLen))) with
        | none => .ok st
        | some shards =>
          match missing.foldlM (recoverSlot X m verify fecGroup shards) (st, false) with
          | .error e => .error e
          | .ok (st', recoveredAny) =>
            if recoveredAny ∧ fecMissingDataSlots group m fecGroup st'.received = [] then
              .ok { st' with groups := Function.update st'.groups fecGroup none }
            else .ok st'

/-! ## Frames -/

/-- `fec_groups.entry(g).or_insert_with(..)`, then the slot if the vector has it. -/
def storeShard (m : TransferManifest) (g slot : Nat) (shard : Bytes) (st : IngestState) :
    IngestState :=
  let group := (st.groups g).getD (List.replicate (m.dataShards + m.parityShards) none)
  { st with groups := Function.update st.groups g (some (group.set slot (some shard))) }

/-- Largest body the receiver accepts. -/
def maxBody (m : TransferManifest) : Nat := max (satMul m.chunkSize 4) (64 * 1024)

/-- `ingest_wire_frame`. Returns the FEC group the frame named. -/
def ingestWireFrame (X : Crates) (wire : Bytes) (m : TransferManifest)
    (fecRs : Option ReedSolomon) (verify : Bool) (simulateLost : Finset Nat)
    (st : IngestState) : Except ReceiveError (Nat × IngestState) := do
  let (desc, _, descLen) ← parseFramedHeader X wire
  if maxBody m < desc.compressedSize.toNat then
    throw (.payloadTooLarge desc.index.toNat desc.isParity)
  let payloadOff := 4 + descLen
  if wire.length < payloadOff + desc.compressedSize.toNat then throw .truncatedChunkBody
  let payload := slice wire payloadOff desc.compressedSize.toNat
  if desc.isParity then
    match fecRs with
    | none => return (desc.fecGroup.toNat, st)
    | some rs =>
      if verify && X.blake3 payload ≠ desc.checksum then
        throw (.parityChecksumMismatch desc.fecGroup.toNat desc.parityIndex.toNat)
      let g := desc.fecGroup.toNat
      let pi := satAdd desc.parityIndex.toNat m.dataShards
      let st' ← tryFecGroupRecover X g m rs verify (storeShard m g pi payload st)
      return (g, st')
  else if desc.index.toNat ∈ simulateLost then return (desc.fecGroup.toNat, st)
  else
    let st' ← persistFramedChunk X wire m verify st
    match fecRs with
    | none => return (desc.fecGroup.toNat, st')
    | some rs =>
      let g := desc.fecGroup.toNat
      let slot := desc.index.toNat - satMul g (max m.dataShards 1)
      if slot < m.dataShards then
        let st'' ← tryFecGroupRecover X g m rs verify (storeShard m g slot wire st')
        return (g, st'')
      else return (g, st')

/-- The coder the receiver builds from the manifest; `none` when the manifest has no FEC. -/
def fecRsOf (X : Crates) (m : TransferManifest) : Except ReceiveError (Option ReedSolomon) :=
  if 0 < m.parityShards ∧ 0 < m.dataShards then
    if X.rsNew m.dataShards m.parityShards then .ok (some ⟨m.dataShards, m.parityShards⟩)
    else .error .invalidFecDimensions
  else .ok none

/-- The receive loop over the frames as they arrive. -/
def ingestAll (X : Crates) (m : TransferManifest) (fecRs : Option ReedSolomon) (verify : Bool)
    (simulateLost : Finset Nat) : List Bytes → IngestState → Except ReceiveError IngestState
  | [], st => .ok st
  | wire :: rest, st =>
    match ingestWireFrame X wire m fecRs verify simulateLost st with
    | .error e => .error e
    | .ok (_, st') => ingestAll X m fecRs verify simulateLost rest st'

end ScTransport
