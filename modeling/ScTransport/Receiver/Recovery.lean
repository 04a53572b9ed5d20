import ScTransport.Fec.Group
import ScTransport.Receiver.Ingest

/-!
# Writing chunks and recovering groups

What the receiver's two write paths do with the frames of an honest sender.

* `persistFramedChunk_data` — a data frame, padded or not, writes its chunk once
* `Sound` — the invariant of the receive state: recorded chunks hold the source bytes, and
  every stored shard belongs to its slot of its group
* `tryFecGroupRecover_spec` — recovery keeps `Sound`, and leaves no group behind that is
  ready and still misses a chunk

A parity row has the length all rows of its group were padded to. Recovery only runs when a
parity row is stored, so the length the receiver recomputes from the shards it happens to
hold is the sender's.
-/

namespace ScTransport

open Infra

/-! ## Writing a chunk -/

/-- Write chunk `i` of the source unless it is recorded already. -/
def Transfer.deliver (t : Transfer) (i : Nat) (st : IngestState) : IngestState :=
  if i ∈ st.received then st
  else
    { st with
      out := writeAt st.out (i * t.cfg.chunkSize) (t.raw i)
      received := insert i st.received }

section Deliver

variable {t : Transfer} {i : Nat} {st : IngestState}

@[simp] theorem Transfer.deliver_groups : (t.deliver i st).groups = st.groups := by
  unfold Transfer.deliver
  split <;> rfl

theorem Transfer.mem_deliver {j : Nat} :
    j ∈ (t.deliver i st).received ↔ j = i ∨ j ∈ st.received := by
  unfold Transfer.deliver
  split
  · next h =>
    constructor
    · exact Or.inr
    · rintro (rfl | hj)
      · exact h
      · exact hj
  · exact Finset.mem_insert

end Deliver

/-- **A data frame writes its chunk.** The frame may carry padding. -/
theorem persistFramedChunk_data {X : Crates} (hX : X.Lawful) {t : Transfer} {wire body : Bytes}
    {desc : ChunkDescriptor} {i : Nat} (hw : FramedAs X wire desc body)
    (hd : DataDesc X t.cfg t.src (t.manifest X) i desc body) (verify : Bool)
    (st : IngestState) :
    persistFramedChunk X wire (t.manifest X) verify st = .ok (t.deliver i st) := by
  obtain ⟨descLen, hparse, hlen, hbody⟩ := hw.parse hX
  have hcomp : (t.manifest X).compression = t.cfg.compression := rfl
  unfold persistFramedChunk Transfer.deliver
  simp only [hparse, hd.isParity, hd.index, hd.offset, hbody, hd.checksum, hcomp, bind,
    Except.bind, pure, Except.pure, Bool.false_eq_true, if_false, ne_eq, not_true_eq_false,
    decide_false, Bool.and_false]
  rw [if_neg (by omega)]
  split
  · rfl
  · cases hwc : desc.wasCompressed with
    | false =>
      simp only [Bool.false_eq_true, if_false]
      rw [hd.raw hwc]
      rfl
    | true =>
      simp only [if_true, hd.packed hwc]
      rfl

/-! ## The invariant -/

/-- What the stored shards of group `g` are, relative to the recorded chunks. -/
structure GroupSound (t : Transfer) (X : Crates) (g : Nat) (group : Group)
    (received : Finset Nat) : Prop where
  length_eq : group.length = t.fec.dataShards + t.fec.parityShards
  data : ∀ {s : Nat} {b : Bytes}, s < t.fec.dataShards → group[s]? = some (some b) →
    t.chunkFrame X (g * t.width + s) = some b ∧ g * t.width + s ∈ received
  parity : ∀ {s : Nat} {b : Bytes}, t.fec.dataShards ≤ s → group[s]? = some (some b) →
    t.Framed X g ∧ (t.groupCode X g)[s]? = some b

/-- The invariant of the receive state. -/
structure Sound (t : Transfer) (X : Crates) (st : IngestState) : Prop where
  length_out : st.out.length = t.src.bytes.length
  received_lt : ∀ {i : Nat}, i ∈ st.received → i < t.numChunks
  holds : ∀ {i : Nat}, i ∈ st.received →
    slice st.out (i * t.cfg.chunkSize) (t.raw i).length = t.raw i
  groups : ∀ {g : Nat} {group : Group}, st.groups g = some group →
    GroupSound t X g group st.received

/-- Every stored shard is shorter than 4 GiB. The receiver's read limits see to that. -/
def ShardsSmall (st : IngestState) : Prop :=
  ∀ {g : Nat} {group : Group} {s : Nat} {b : Bytes}, st.groups g = some group →
    group[s]? = some (some b) → b.length < 2 ^ 32

/-- Every chunk of group `g` is recorded. -/
def Complete (t : Transfer) (g : Nat) (received : Finset Nat) : Prop :=
  ∀ s, s < t.fec.dataShards → g * t.width + s ∈ received

/-- No stored group is ready for recovery and still incomplete. -/
def Drained (t : Transfer) (X : Crates) (st : IngestState) : Prop :=
  ∀ g group, st.groups g = some group → fecRecoveryReady group (t.manifest X) = true →
    Complete t g st.received

section Sound

variable {t : Transfer} {X : Crates} {st : IngestState}

theorem GroupSound.mono {g : Nat} {group : Group} {r r' : Finset Nat}
    (h : GroupSound t X g group r) (hsub : r ⊆ r') : GroupSound t X g group r' where
  length_eq := h.length_eq
  data := fun hs hb => ⟨(h.data hs hb).1, hsub (h.data hs hb).2⟩
  parity := h.parity

theorem Complete.mono {g : Nat} {r r' : Finset Nat} (h : Complete t g r) (hsub : r ⊆ r') :
    Complete t g r' := fun s hs => hsub (h s hs)

theorem raw_length_le (t : Transfer) (i : Nat) : (t.raw i).length ≤ t.cfg.chunkSize :=
  length_chunkRaw_le _ _ _

theorem subset_deliver (t : Transfer) (i : Nat) (st : IngestState) :
    st.received ⊆ (t.deliver i st).received :=
  fun _ hj => Transfer.mem_deliver.mpr (Or.inr hj)

/-- Writing a chunk keeps the invariant: other chunks lie elsewhere in the file. -/
theorem Sound.deliver (h : Sound t X st) {i : Nat} (hi : i < t.numChunks) :
    Sound t X (t.deliver i st) := by
  have hstart : i * t.cfg.chunkSize < t.src.bytes.length := chunkStart_lt hi
  have hend : i * t.cfg.chunkSize + (t.raw i).length ≤ st.out.length := by
    rw [h.length_out]
    exact chunk_end_le hstart
  refine ⟨?_, ?_, ?_, ?_⟩
  · unfold Transfer.deliver
    split
    · exact h.length_out
    · exact (length_writeAt hend).trans h.length_out
  · intro j hj
    rcases Transfer.mem_deliver.mp hj with rfl | hj
    · exact hi
    · exact h.received_lt hj
  · intro j hj
    by_cases hin : i ∈ st.received
    · rw [Transfer.deliver, if_pos hin] at hj ⊢
      exact h.holds hj
    · rw [Transfer.deliver, if_neg hin] at hj ⊢
      rcases Finset.mem_insert.mp hj with rfl | hj
      · exact slice_writeAt_self (by omega) _
      · have hne : j ≠ i := fun he => hin (he ▸ hj)
        have hri := raw_length_le t i
        have hrj := raw_length_le t j
        refine (slice_writeAt_of_disjoint (by omega) ?_).trans (h.holds hj)
        rcases chunk_disjoint (c := t.cfg.chunkSize) hne with hd | hd
        · exact Or.inl (by omega)
        · exact Or.inr (by omega)
  · intro g group hg
    rw [Transfer.deliver_groups] at hg
    exact (h.groups hg).mono (subset_deliver t i st)

end Sound

/-! ## Slots -/

section Slots

variable {t : Transfer} {X : Crates} {g s : Nat} {group : Group}

/-- The saturating index is exact unless it is the largest `u64`. -/
theorem slotIndex_of_lt (h : slotIndex (t.manifest X) g s < u64Max) :
    slotIndex (t.manifest X) g s = g * t.width + s := by
  have hdef : slotIndex (t.manifest X) g s = satAdd (satMul g t.width) s := rfl
  rw [hdef] at h ⊢
  unfold satAdd satMul at *
  omega

theorem slotIndex_eq (h : g * t.width + s < 2 ^ 64) :
    slotIndex (t.manifest X) g s = g * t.width + s := by
  have hdef : slotIndex (t.manifest X) g s = satAdd (satMul g t.width) s := rfl
  rw [hdef, satMul_eq (by omega), satAdd_eq h]

theorem slotPresent_iff : slotPresent group s = true ↔ ∃ b, group[s]? = some (some b) := by
  unfold slotPresent
  rw [List.getD_eq_getElem?_getD]
  cases h : group[s]? with
  | none => simp
  | some o => cases o <;> simp

theorem mem_fecMissingDataSlots {m : TransferManifest} {received : Finset Nat} :
    s ∈ fecMissingDataSlots group m g received ↔
      s < m.dataShards ∧ slotIndex m g s ∉ received ∧ slotPresent group s = false := by
  simp [fecMissingDataSlots]

theorem fecRecoveryReady_iff {m : TransferManifest} :
    fecRecoveryReady group m = true ↔ group.length = m.dataShards + m.parityShards ∧
      (∃ s, s < m.dataShards ∧ slotPresent group s = true) ∧ m.dataShards ≤ present group := by
  unfold fecRecoveryReady
  split
  · next h => simp [h]
  · next h =>
    split
    · next h0 =>
      rw [List.length_eq_zero_iff, List.filter_eq_nil_iff] at h0
      constructor
      · intro hc
        simp at hc
      · rintro ⟨-, ⟨s, hs, hp⟩, -⟩
        exact absurd hp (h0 s (List.mem_range.mpr hs))
    · next h0 =>
      rw [List.length_eq_zero_iff, List.filter_eq_nil_iff] at h0
      push Not at h0 h
      obtain ⟨s, hs, hp⟩ := h0
      simp only [decide_eq_true_eq]
      exact ⟨fun hc => ⟨h, ⟨s, List.mem_range.mp hs, hp⟩, hc⟩, fun hc => hc.2.2⟩

/-- A stored group without missing slots is complete. -/
theorem complete_of_missing_nil {st : IngestState} (h : Sound t X st)
    (hg : st.groups g = some group)
    (hm : fecMissingDataSlots group (t.manifest X) g st.received = []) :
    Complete t g st.received := by
  intro s hs
  by_contra hnot
  have hmem : s ∈ fecMissingDataSlots group (t.manifest X) g st.received := by
    refine mem_fecMissingDataSlots.mpr ⟨hs, ?_, ?_⟩
    · intro hin
      have hlt := h.received_lt hin
      have hmax : slotIndex (t.manifest X) g s < u64Max := by
        have := t.numChunks_lt
        unfold u64Max
        omega
      rw [slotIndex_of_lt hmax] at hin
      exact hnot hin
    · by_contra hp
      obtain ⟨b, hb⟩ := slotPresent_iff.mp (by simpa using hp)
      exact hnot ((h.groups hg).data hs hb).2
  rw [hm] at hmem
  simp at hmem

/-- If a data slot is empty although there are enough rows, a parity row is among them. -/
theorem exists_parity_slot {n : Nat} (hn : n ≤ present group) (hs : s < n)
    (hp : slotPresent group s = false) : ∃ r b, n ≤ r ∧ group[r]? = some (some b) := by
  by_contra hnone
  push Not at hnone
  have hcard : present group ≤ ((Finset.range n).erase s).card := by
    refine present_le_card group _ fun i b hb => ?_
    have hi : i < n := by
      by_contra hge
      exact hnone i b (by omega) hb
    refine Finset.mem_erase.mpr ⟨?_, Finset.mem_range.mpr hi⟩
    intro he
    rw [he] at hb
    rw [slotPresent_iff.mpr ⟨b, hb⟩] at hp
    cases hp
  rw [Finset.card_erase_of_mem (Finset.mem_range.mpr hs), Finset.card_range] at hcard
  omega

/-- A group that is ready and still misses a chunk has a parity row. -/
theorem exists_parity_of_missing {m : TransferManifest} {received : Finset Nat}
    (hready : fecRecoveryReady group m = true)
    (hmissing : fecMissingDataSlots group m g received ≠ []) :
    ∃ r b, m.dataShards ≤ r ∧ group[r]? = some (some b) := by
  obtain ⟨-, -, henough⟩ := fecRecoveryReady_iff.mp hready
  obtain ⟨s₀, hs₀⟩ := List.exists_mem_of_ne_nil _ hmissing
  obtain ⟨hlt, -, hempty⟩ := mem_fecMissingDataSlots.mp hs₀
  exact exists_parity_slot henough hlt hempty

end Slots

/-! ## Recovering a group -/

/-- Deliver the chunks of the given slots, one after another. -/
def Transfer.deliverSlots (t : Transfer) (g : Nat) (slots : List Nat) (st : IngestState) :
    IngestState :=
  slots.foldl (fun st s => t.deliver (g * t.width + s) st) st

section Recover

variable {t : Transfer} {X : Crates} {g : Nat} {st : IngestState}

theorem Transfer.deliverSlots_groups (slots : List Nat) (st : IngestState) :
    (t.deliverSlots g slots st).groups = st.groups := by
  induction slots generalizing st with
  | nil => rfl
  | cons s rest ih => exact (ih _).trans Transfer.deliver_groups

theorem Transfer.mem_deliverSlots {j : Nat} (slots : List Nat) (st : IngestState) :
    j ∈ (t.deliverSlots g slots st).received ↔
      (∃ s ∈ slots, j = g * t.width + s) ∨ j ∈ st.received := by
  induction slots generalizing st with
  | nil => simp [Transfer.deliverSlots]
  | cons s rest ih =>
    refine (ih (t.deliver (g * t.width + s) st)).trans ?_
    rw [Transfer.mem_deliver]
    simp only [List.mem_cons, exists_eq_or_imp]
    rw [or_left_comm, or_assoc]

theorem Sound.deliverSlots {slots : List Nat}
    (hs : ∀ s ∈ slots, g * t.width + s < t.numChunks) (h : Sound t X st) :
    Sound t X (t.deliverSlots g slots st) := by
  induction slots generalizing st with
  | nil => exact h
  | cons s rest ih =>
    exact ih (fun x hx => hs x (List.mem_cons_of_mem _ hx))
      (h.deliver (hs s List.mem_cons_self))

/-- A stored parity row has the length of the group's rows. -/
theorem GroupSound.parity_length (hX : X.Lawful)
    (hrs : X.RsLawful t.width t.fec.parityShards) (hds : 0 < t.fec.dataShards)
    (hps : 0 < t.fec.parityShards) {group : Group} {received : Finset Nat}
    (hgrp : GroupSound t X g group received) {s : Nat} {c : Bytes}
    (hs : t.fec.dataShards ≤ s) (hc : group[s]? = some (some c)) :
    c.length = t.groupLen X g := by
  obtain ⟨hfr, hcs⟩ := hgrp.parity hs hc
  obtain ⟨parity, hblk, hcode, -⟩ := hfr.groupCode_eq hX hrs hps
  have hrl : (t.groupRows X g).length = t.fec.dataShards := by
    rw [(hfr.isBlock hX).length_eq, t.width_eq hds]
  rw [hcode, List.getElem?_append_right (by omega)] at hcs
  exact hblk.row_length c (List.mem_of_getElem? hcs)

/-- The receiver pads to the sender's row length as soon as it holds a parity row. -/
theorem maxShard_eq (hX : X.Lawful)
    (hrs : X.RsLawful t.width t.fec.parityShards) (hds : 0 < t.fec.dataShards)
    (hps : 0 < t.fec.parityShards) {group : Group} {received : Finset Nat}
    (hgrp : GroupSound t X g group received) {r : Nat} {b : Bytes}
    (hr : t.fec.dataShards ≤ r) (hb : group[r]? = some (some b)) :
    maxShard group = t.groupLen X g := by
  have hw := t.width_eq hds
  refine le_antisymm (foldl_max_le (Nat.zero_le _) ?_) ?_
  · intro x hx
    obtain ⟨c, hc, rfl⟩ := List.mem_map.mp hx
    obtain ⟨s, hs⟩ := List.mem_iff_getElem?.mp (List.reduceOption_mem_iff.mp hc)
    by_cases hlt : s < t.fec.dataShards
    · refine Transfer.frame_le_groupLen (List.mem_of_getElem? (i := s) ?_)
      rw [Transfer.getElem?_groupFrames (by omega), (hgrp.data hlt hs).1]
      rfl
    · exact le_of_eq (hgrp.parity_length hX hrs hds hps (by omega) hs)
  · rw [← hgrp.parity_length hX hrs hds hps hr hb]
    exact le_foldl_max (Or.inl (List.mem_map_of_mem
      (List.reduceOption_mem_iff.mpr (List.mem_of_getElem? hb))))

/-- The padded slots are a partial view of the group's codeword. -/
theorem GroupSound.agrees (hX : X.Lawful)
    (hrs : X.RsLawful t.width t.fec.parityShards) (hds : 0 < t.fec.dataShards)
    (hps : 0 < t.fec.parityShards) {group : Group} {received : Finset Nat}
    (hgrp : GroupSound t X g group received) (hfr : t.Framed X g) :
    Agrees (group.map (Option.map (resize · (t.groupLen X g)))) (t.groupCode X g) := by
  obtain ⟨parity, hblk, hcode, -⟩ := hfr.groupCode_eq hX hrs hps
  have hw := t.width_eq hds
  have hrl : (t.groupRows X g).length = t.fec.dataShards := by
    rw [(hfr.isBlock hX).length_eq, hw]
  constructor
  · rw [List.length_map, hgrp.length_eq, hcode, List.length_append, hrl, hblk.length_eq]
  · intro s b hb
    rw [List.getElem?_map, Option.map_eq_some_iff] at hb
    obtain ⟨o, ho, hob⟩ := hb
    obtain ⟨c, rfl, rfl⟩ := Option.map_eq_some_iff.mp hob
    by_cases hlt : s < t.fec.dataShards
    · rw [hcode, List.getElem?_append_left (by omega), Transfer.groupRows, List.getElem?_map,
        Transfer.getElem?_groupFrames (by omega), (hgrp.data hlt ho).1]
      rfl
    · have hge : t.fec.dataShards ≤ s := by omega
      rw [← hgrp.parity_length hX hrs hds hps hge ho, resize_length]
      exact (hgrp.parity hge ho).2

/-- A reconstructed row is the padded frame of its chunk, so it is persisted. -/
theorem recoverSlot_ok (hX : X.Lawful) (hfr : t.Framed X g) (hlen : t.groupLen X g < 2 ^ 32)
    {s : Nat} (hs : s < t.width) {shards : Group} {row : Bytes}
    (hrow : (t.groupRows X g)[s]? = some row)
    (hsh : shards[s]? = some (some row)) (verify : Bool) (st : IngestState) (any : Bool) :
    recoverSlot X (t.manifest X) verify g shards (st, any) s
      = .ok (t.deliver (g * t.width + s) st, true) := by
  have hi := Transfer.slot_lt hfr.in_range hs
  obtain ⟨w, hw⟩ := hfr.frame_exists hs
  have hwlen : w.length ≤ t.groupLen X g := by
    refine Transfer.frame_le_groupLen (List.mem_of_getElem? (i := s) ?_)
    rw [Transfer.getElem?_groupFrames hs, hw]
    rfl
  obtain ⟨desc, body, hframed, hdesc⟩ :=
    buildChunkPayload_framedAs hX hi hw (lt_of_le_of_lt hwlen hlen)
  have hrw : row = resize w (t.groupLen X g) := by
    rw [Transfer.groupRows, List.getElem?_map, Transfer.getElem?_groupFrames hs, hw] at hrow
    exact (Option.some.inj hrow).symm
  have hpadded : FramedAs X row desc body := hrw ▸ hframed.resize hwlen
  have hidx : slotIndex (t.manifest X) g s = g * t.width + s :=
    slotIndex_eq (lt_trans hi t.numChunks_lt)
  unfold recoverSlot
  simp only [List.getD_eq_getElem?_getD, hsh, Option.getD_some, hpadded.peek hX, hdesc.index,
    hidx, ne_eq, not_true_eq_false, if_false, persistFramedChunk_data hX hpadded hdesc verify st]

theorem foldlM_recoverSlot (hX : X.Lawful) (hfr : t.Framed X g)
    (hlen : t.groupLen X g < 2 ^ 32) {shards : Group}
    (hsh : ∀ (i : Nat) (r : Bytes), (t.groupRows X g)[i]? = some r →
      shards[i]? = some (some r)) (verify : Bool) :
    ∀ (slots : List Nat) (st : IngestState) (any : Bool), (∀ s ∈ slots, s < t.width) →
      slots.foldlM (recoverSlot X (t.manifest X) verify g shards) (st, any)
        = .ok (t.deliverSlots g slots st, any || !slots.isEmpty)
  | [], st, any, _ => by simp [Transfer.deliverSlots, pure, Except.pure]
  | s :: rest, st, any, hs => by
    have hlt : s < t.width := hs s List.mem_cons_self
    have hin : s < (t.groupRows X g).length := by
      rw [(hfr.isBlock hX).length_eq]
      exact hlt
    have hrow : (t.groupRows X g)[s]? = some (t.groupRows X g)[s] :=
      List.getElem?_eq_getElem hin
    rw [List.foldlM_cons, recoverSlot_ok hX hfr hlen hlt hrow (hsh s _ hrow) verify st any]
    simp only [bind, Except.bind]
    rw [foldlM_recoverSlot hX hfr hlen hsh verify rest _ true
      fun x hx => hs x (List.mem_cons_of_mem _ hx)]
    simp [Transfer.deliverSlots]

/-- A group that is ready and still misses a chunk can be decoded, and the rows come back. -/
theorem reconstruct_ready (hX : X.Lawful)
    (hrs : X.RsLawful t.width t.fec.parityShards) (hds : 0 < t.fec.dataShards)
    (hps : 0 < t.fec.parityShards) {group : Group} {received : Finset Nat}
    (hgrp : GroupSound t X g group received)
    (hready : fecRecoveryReady group (t.manifest X) = true)
    (hmissing : fecMissingDataSlots group (t.manifest X) g received ≠ []) :
    t.Framed X g ∧ maxShard group = t.groupLen X g ∧
      (∃ (r : Nat) (b : Bytes), group[r]? = some (some b) ∧ b.length = t.groupLen X g) ∧
      ∃ shards, X.rsReconstructData t.fec.dataShards t.fec.parityShards
          (group.map (Option.map (resize · (t.groupLen X g)))) = some shards ∧
        ∀ (i : Nat) (r : Bytes), (t.groupRows X g)[i]? = some r → shards[i]? = some (some r) := by
  obtain ⟨-, -, henough⟩ := fecRecoveryReady_iff.mp hready
  obtain ⟨r, b, hr, hb⟩ := exists_parity_of_missing hready hmissing
  have hfr : t.Framed X g := (hgrp.parity hr hb).1
  refine ⟨hfr, maxShard_eq hX hrs hds hps hgrp hr hb,
    ⟨r, b, hb, hgrp.parity_length hX hrs hds hps hr hb⟩, ?_⟩
  obtain ⟨parity, hblk, hcode, henc⟩ := hfr.groupCode_eq hX hrs hps
  have hagree := hgrp.agrees hX hrs hds hps hfr
  rw [hcode] at hagree
  have henc := henc _ hps le_rfl
  rw [List.take_of_length_le (by rw [hblk.length_eq])] at henc
  have hw := t.width_eq hds
  obtain ⟨shards, hshards, hrows⟩ := hrs.reconstruct_ok (hfr.isBlock hX) henc hagree
    (by rw [present_map, hw]; exact henough)
  rw [hw] at hshards
  exact ⟨shards, hshards, hrows⟩

/-- Delivering the missing slots leaves none missing. -/
theorem missing_deliverSlots (group : Group) (hin : (g + 1) * t.width ≤ t.numChunks)
    (hw : t.width = t.fec.dataShards) (st : IngestState) :
    fecMissingDataSlots group (t.manifest X) g (t.deliverSlots g
      (fecMissingDataSlots group (t.manifest X) g st.received) st).received = [] := by
  refine List.eq_nil_iff_forall_not_mem.mpr fun s hs => ?_
  obtain ⟨hslt, hnot, hempty⟩ := mem_fecMissingDataSlots.mp hs
  have hwas : s ∈ fecMissingDataSlots group (t.manifest X) g st.received :=
    mem_fecMissingDataSlots.mpr
      ⟨hslt, fun h => hnot ((Transfer.mem_deliverSlots _ st).mpr (Or.inr h)), hempty⟩
  refine hnot ((Transfer.mem_deliverSlots _ st).mpr (Or.inl ⟨s, hwas, ?_⟩))
  exact slotIndex_eq (lt_trans (Transfer.slot_lt hin (hw ▸ hslt)) t.numChunks_lt)

/-- Forgetting a group keeps the invariant. -/
theorem Sound.dropGroup (h : Sound t X st) (g : Nat) :
    Sound t X { st with groups := Function.update st.groups g none } where
  length_out := h.length_out
  received_lt := h.received_lt
  holds := h.holds
  groups := by
    intro g' group' hg'
    by_cases heq : g' = g
    · subst heq
      simp at hg'
    · dsimp only at hg'
      rw [Function.update_of_ne heq] at hg'
      exact h.groups hg'

/-- Nothing happens unless the group is ready and misses a chunk. -/
theorem tryFecGroupRecover_idle {m : TransferManifest} {rs : ReedSolomon} (verify : Bool)
    (h : ∀ group, st.groups g = some group →
      fecMissingDataSlots group m g st.received = [] ∨ fecRecoveryReady group m = false) :
    tryFecGroupRecover X g m rs verify st = .ok st := by
  unfold tryFecGroupRecover
  cases hg : st.groups g with
  | none => rfl
  | some group => exact if_pos (h group hg)

/-- Otherwise the missing chunks are delivered, and the group is dropped. -/
theorem tryFecGroupRecover_ready (hX : X.Lawful)
    (hrs : X.RsLawful t.width t.fec.parityShards) (hds : 0 < t.fec.dataShards)
    (hps : 0 < t.fec.parityShards) (verify : Bool) {group : Group}
    (hg : st.groups g = some group) (hgrp : GroupSound t X g group st.received)
    (hsmall : ShardsSmall st) (hready : fecRecoveryReady group (t.manifest X) = true)
    (hmissing : fecMissingDataSlots group (t.manifest X) g st.received ≠ []) :
    t.Framed X g ∧
      tryFecGroupRecover X g (t.manifest X) ⟨t.fec.dataShards, t.fec.parityShards⟩ verify st =
        .ok { t.deliverSlots g (fecMissingDataSlots group (t.manifest X) g st.received) st with
          groups := Function.update st.groups g none } := by
  have hw := t.width_eq hds
  obtain ⟨hfr, hmax, ⟨r, b, hb, hblen⟩, shards, hshards, hrows⟩ :=
    reconstruct_ready hX hrs hds hps hgrp hready hmissing
  refine ⟨hfr, ?_⟩
  have hlen : t.groupLen X g < 2 ^ 32 := hblen ▸ hsmall hg hb
  have hpos := (hfr.groupLen_bounds hX).1
  have hslots : ∀ s ∈ fecMissingDataSlots group (t.manifest X) g st.received, s < t.width :=
    fun s hs => hw ▸ (mem_fecMissingDataSlots.mp hs).1
  have hstill := missing_deliverSlots (X := X) group hfr.in_range hw st
  unfold tryFecGroupRecover
  simp only [hg]
  rw [if_neg (by simp [hmissing, hready]), hmax, if_neg (by omega), hshards]
  dsimp only
  rw [foldlM_recoverSlot hX hfr hlen hrows verify _ st false hslots]
  dsimp only
  rw [if_pos ⟨by simpa using hmissing, hstill⟩, Transfer.deliverSlots_groups]

/--
**Recovery is sound and leaves nothing ready behind.**

Only the entry of the group itself can change, and it is dropped only once every chunk of
the group is recorded.
-/
theorem tryFecGroupRecover_spec (hX : X.Lawful)
    (hrs : X.RsLawful t.width t.fec.parityShards) (hds : 0 < t.fec.dataShards)
    (hps : 0 < t.fec.parityShards) (verify : Bool) (h : Sound t X st) (hsmall : ShardsSmall st) :
    ∃ st', tryFecGroupRecover X g (t.manifest X) ⟨t.fec.dataShards, t.fec.parityShards⟩ verify st
        = .ok st' ∧ Sound t X st' ∧ st.received ⊆ st'.received ∧
      (∀ g', g' ≠ g → st'.groups g' = st.groups g') ∧
      (st'.groups g = st.groups g ∨ st'.groups g = none ∧ Complete t g st'.received) ∧
      (∀ group, st'.groups g = some group → fecRecoveryReady group (t.manifest X) = true →
        Complete t g st'.received) := by
  by_cases hidle : ∀ group, st.groups g = some group →
      fecMissingDataSlots group (t.manifest X) g st.received = [] ∨
        fecRecoveryReady group (t.manifest X) = false
  · refine ⟨st, tryFecGroupRecover_idle verify hidle, h, subset_rfl, fun _ _ => rfl, Or.inl rfl,
      ?_⟩
    intro group hg hready
    rcases hidle group hg with hnil | hnot
    · exact complete_of_missing_nil h hg hnil
    · rw [hready] at hnot
      cases hnot
  · push Not at hidle
    obtain ⟨group, hg, hmissing, hready⟩ := hidle
    obtain ⟨hfr, hrun⟩ := tryFecGroupRecover_ready hX hrs hds hps verify hg (h.groups hg) hsmall
      (by simpa using hready) hmissing
    have hw := t.width_eq hds
    have hslots : ∀ s ∈ fecMissingDataSlots group (t.manifest X) g st.received, s < t.width :=
      fun s hs => hw ▸ (mem_fecMissingDataSlots.mp hs).1
    have hstill := missing_deliverSlots (X := X) group hfr.in_range hw st
    generalize fecMissingDataSlots group (t.manifest X) g st.received = missing at *
    have hsound : Sound t X (t.deliverSlots g missing st) :=
      h.deliverSlots fun s hs => Transfer.slot_lt hfr.in_range (hslots s hs)
    have hgroups := Transfer.deliverSlots_groups (t := t) (g := g) missing st
    have hcomplete : Complete t g (t.deliverSlots g missing st).received :=
      complete_of_missing_nil hsound (hgroups ▸ hg) hstill
    refine ⟨_, hrun, hgroups ▸ hsound.dropGroup g, ?_, ?_,
      Or.inr ⟨Function.update_self .., hcomplete⟩, fun _ _ _ => hcomplete⟩
    · exact fun j hj => (Transfer.mem_deliverSlots missing st).mpr (Or.inr hj)
    · exact fun g' heq => Function.update_of_ne heq _ _

end Recover

end ScTransport
