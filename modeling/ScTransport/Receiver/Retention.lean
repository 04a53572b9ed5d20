import ScTransport.Receiver.Reassembly
import ScTransport.Infra.Lts

/-!
# Which groups the receiver keeps

The shards of a group are kept until recovery fills the last gap of the group, and only then are
they dropped. A group that is completed by its own data frames is never looked at again, and a late
frame of a complete group starts a new entry.

* `Gathered`, `Pruned` — a group has all its chunks; no such group is stored
* `recover_gathered` — what storing a shard and trying to recover does to that
* `ingest_pruned_iff` — one honest frame
* `retained_groups_iff` — every run of honest frames
-/

namespace ScTransport

open Infra

/-- All chunks of group `g` that the file has are recorded. -/
def Gathered (t : Transfer) (g : Nat) (received : Finset Nat) : Prop :=
  ∀ i < t.numChunks, i / t.width = g → i ∈ received

/-- No stored group has all its chunks. -/
def Pruned (t : Transfer) (st : IngestState) : Prop :=
  ∀ g group, st.groups g = some group → ¬ Gathered t g st.received

section Recover

variable {t : Transfer} {X : Crates} {st : IngestState} {g : Nat}

/-- Chunks of other groups do not matter. -/
theorem gathered_congr {r r' : Finset Nat}
    (h : ∀ i < t.numChunks, i / t.width = g → (i ∈ r ↔ i ∈ r')) :
    Gathered t g r ↔ Gathered t g r' := by
  constructor
  · intro hr i hi hdiv
    exact (h i hi hdiv).mp (hr i hi hdiv)
  · intro hr i hi hdiv
    exact (h i hi hdiv).mpr (hr i hi hdiv)

theorem Transfer.div_slot {s : Nat} (hs : s < t.width) : (g * t.width + s) / t.width = g := by
  rw [Nat.mul_comm, Nat.mul_add_div t.width_pos, Nat.div_eq_of_lt hs, Nat.add_zero]

/-- A group that recovery works on misses a chunk of the file. -/
theorem not_gathered_of_missing (hfr : t.Framed X g) {group : Group}
    (hw : t.width = t.fec.dataShards)
    (hmissing : fecMissingDataSlots group (t.manifest X) g st.received ≠ []) :
    ¬ Gathered t g st.received := by
  intro hall
  obtain ⟨s, hs⟩ := List.exists_mem_of_ne_nil _ hmissing
  obtain ⟨hslot, hnot, -⟩ := mem_fecMissingDataSlots.mp hs
  have hlt : s < t.width := hw ▸ hslot
  have hidx := Transfer.slot_lt hfr.in_range hlt
  rw [slotIndex_eq (lt_trans hidx t.numChunks_lt)] at hnot
  exact hnot (hall _ hidx (Transfer.div_slot hlt))

/--
Trying to recover a stored group: it is stored afterwards and has all its chunks exactly when it had
them before. Nothing changes for other groups.
-/
theorem recover_gathered (hX : X.Lawful) (hrs : t.Decodable X) (hds : 0 < t.fec.dataShards)
    (hps : 0 < t.fec.parityShards) (verify : Bool) (h : Sound t X st) (hsmall : ShardsSmall st)
    {group : Group} (hg : st.groups g = some group) :
    ∃ st', tryFecGroupRecover X g (t.manifest X) ⟨t.fec.dataShards, t.fec.parityShards⟩ verify st
        = .ok st' ∧
      ((∃ group, st'.groups g = some group) ∧ Gathered t g st'.received ↔
        Gathered t g st.received) ∧
      ∀ g', g' ≠ g → st'.groups g' = st.groups g' ∧
        (Gathered t g' st'.received ↔ Gathered t g' st.received) := by
  have hw := t.width_eq hds
  by_cases hidle : fecMissingDataSlots group (t.manifest X) g st.received = [] ∨
      fecRecoveryReady group (t.manifest X) = false
  · refine ⟨st, tryFecGroupRecover_idle verify ?_, ⟨And.right, fun hall => ⟨⟨group, hg⟩, hall⟩⟩,
      fun g' _ => ⟨rfl, Iff.rfl⟩⟩
    intro group' hg'
    rw [hg] at hg'
    cases hg'
    exact hidle
  · rw [not_or] at hidle
    obtain ⟨hmissing, hready⟩ := hidle
    obtain ⟨hfr, hrun⟩ := tryFecGroupRecover_ready hX (hrs hds hps) hds hps verify hg (h.groups hg)
      hsmall (by simpa using hready) hmissing
    refine ⟨_, hrun, ⟨?_, fun hall => absurd hall (not_gathered_of_missing hfr hw hmissing)⟩, ?_⟩
    · -- the entry is gone
      rintro ⟨⟨group', hgroup'⟩, -⟩
      change Function.update st.groups g none g = some group' at hgroup'
      rw [Function.update_self] at hgroup'
      cases hgroup'
    · intro g' hne
      refine ⟨Function.update_of_ne hne _ _, gathered_congr fun i hi hdiv => ?_⟩
      show i ∈ (t.deliverSlots g _ st).received ↔ _
      rw [Transfer.mem_deliverSlots]
      refine or_iff_right ?_
      rintro ⟨s, hs, rfl⟩
      have hlt : s < t.width := hw ▸ (mem_fecMissingDataSlots.mp hs).1
      rw [Transfer.div_slot hlt] at hdiv
      exact hne hdiv.symm

/-- Storing a shard of group `g` before that. -/
theorem storeShard_pruned_iff (hX : X.Lawful) (hrs : t.Decodable X) (hds : 0 < t.fec.dataShards)
    (hps : 0 < t.fec.parityShards) (verify : Bool) (slot : Nat) (shard : Bytes)
    (h : Sound t X (storeShard (t.manifest X) g slot shard st))
    (hsmall : ShardsSmall (storeShard (t.manifest X) g slot shard st))
    (hpruned : ∀ g' group, g' ≠ g → st.groups g' = some group → ¬ Gathered t g' st.received) :
    ∃ st', tryFecGroupRecover X g (t.manifest X) ⟨t.fec.dataShards, t.fec.parityShards⟩ verify
        (storeShard (t.manifest X) g slot shard st) = .ok st' ∧
      (Pruned t st' ↔ ¬ Gathered t g st.received) := by
  obtain ⟨st', hrun, hself, hother⟩ :=
    recover_gathered hX hrs hds hps verify h hsmall (storeShard_groups_self _)
  refine ⟨st', hrun, ?_⟩
  constructor
  · intro hpruned' hall
    obtain ⟨⟨group, hgroup⟩, hall'⟩ := hself.mpr hall
    exact hpruned' g group hgroup hall'
  · intro hnot g' group hgroup hall'
    by_cases heq : g' = g
    · subst heq
      exact hnot (hself.mp ⟨⟨group, hgroup⟩, hall'⟩)
    · obtain ⟨hsame, hiff⟩ := hother g' heq
      rw [hsame, storeShard_groups_of_ne _ heq] at hgroup
      exact hpruned g' group heq hgroup (hiff.mp hall')

end Recover

/-! ## One frame -/

/-- The group of the frame misses a chunk, also when the frame's own chunk is counted. -/
def StillNeeds (t : Transfer) (X : Crates) (lost : Finset Nat) (st : IngestState) (wire : Bytes) :
    Prop :=
  (∀ i < t.numChunks, t.chunkFrame X i = some wire → i ∉ lost →
    ¬ Gathered t (i / t.width) (insert i st.received)) ∧
  ∀ g p' j, t.ParityFrame X g p' j wire → ¬ Gathered t g st.received

section Step

variable {t : Transfer} {X : Crates} {st : IngestState} {wire : Bytes}

theorem received_deliver (i : Nat) : (t.deliver i st).received = insert i st.received := by
  ext j
  rw [Transfer.mem_deliver, Finset.mem_insert]

/-- A data frame leaves a pruned state unless its chunk completes its group, or comes after that. -/
theorem ingest_data_pruned_iff (hX : X.Lawful) (ht : t.Admissible X) (hds : 0 < t.fec.dataShards)
    (hps : 0 < t.fec.parityShards) (verify : Bool) {lost : Finset Nat} (h : Sound t X st)
    (hpruned : Pruned t st) {i : Nat} (hi : i < t.numChunks) (hw : t.chunkFrame X i = some wire)
    (hlost : i ∉ lost) :
    ∃ g st', ingestWireFrame X wire (t.manifest X) t.coder verify lost st = .ok (g, st') ∧
      (Pruned t st' ↔ ¬ Gathered t (i / t.width) (insert i st.received)) := by
  have hwidth := t.width_eq hds
  obtain ⟨hlt, hok⟩ := chunkFrame_sizeOk hX ht hi hw
  have hadv := Advance.deliver h hi
  have hidx : i / t.width * t.width + i % t.width = i := Nat.div_add_mod' i t.width
  have hslot : i % t.width < t.fec.dataShards := hwidth ▸ Nat.mod_lt _ t.width_pos
  have hsound : Sound t X
      (storeShard (t.manifest X) (i / t.width) (i % t.width) wire (t.deliver i st)) := by
    refine hadv.sound.storeShard (fun _ => ?_) fun hge => absurd hge (by omega)
    rw [hidx]
    exact ⟨hw, Transfer.mem_deliver.mpr (Or.inl rfl)⟩
  have hsmall : ShardsSmall (t.deliver i st) := hadv.small (h.shardsSmall hX ht hds hps)
  -- the chunk matters to its own group only
  have hothers : ∀ g' group, g' ≠ i / t.width → (t.deliver i st).groups g' = some group →
      ¬ Gathered t g' (t.deliver i st).received := by
    intro g' group hne hgroup hall
    rw [Transfer.deliver_groups] at hgroup
    refine hpruned g' group hgroup ((gathered_congr fun j hj hdiv => ?_).mp hall)
    rw [Transfer.mem_deliver]
    refine or_iff_right ?_
    rintro rfl
    exact hne hdiv.symm
  obtain ⟨st', hrun, hiff⟩ := storeShard_pruned_iff hX ht.decodable hds hps verify _ _ hsound
    (hsmall.storeShard hlt) hothers
  rw [received_deliver] at hiff
  refine ⟨i / t.width, st', ?_, hiff⟩
  rw [ingest_data_eq hX verify lost st hi hw hlt hok, if_neg hlost, if_pos ⟨hps, hds⟩, hrun]
  rfl

/-- A parity frame leaves a pruned state unless its group has all its chunks. -/
theorem ingest_parity_pruned_iff (hX : X.Lawful) (ht : t.Admissible X) (hds : 0 < t.fec.dataShards)
    (hps : 0 < t.fec.parityShards) (verify : Bool) (lost : Finset Nat) (h : Sound t X st)
    (hpruned : Pruned t st) {g p' j : Nat} (hw : t.ParityFrame X g p' j wire) :
    ∃ g' st', ingestWireFrame X wire (t.manifest X) t.coder verify lost st = .ok (g', st') ∧
      (Pruned t st' ↔ ¬ Gathered t g st.received) := by
  obtain ⟨hlt, hok⟩ := hw.sizeOk hX ht
  obtain ⟨row, hrow, -, hfr, hcode, heq⟩ :=
    ingest_parity_eq hX ht.decodable verify lost st hw hlt hok
  have hsound : Sound t X (storeShard (t.manifest X) g (t.fec.dataShards + j) row st) :=
    h.storeShard (fun hlt => by omega) (fun _ => ⟨hfr, hcode hds⟩)
  have hsmall : ShardsSmall st := h.shardsSmall hX ht hds hps
  obtain ⟨st', hrun, hiff⟩ := storeShard_pruned_iff hX ht.decodable hds hps verify _ _ hsound
    (hsmall.storeShard hrow) fun g' group _ hgroup => hpruned g' group hgroup
  refine ⟨g, st', ?_, hiff⟩
  rw [heq, if_pos ⟨hps, hds⟩, hrun]
  rfl

/-- **One honest frame.** -/
theorem ingest_pruned_iff (hX : X.Lawful) (ht : t.Admissible X) (hds : 0 < t.fec.dataShards)
    (hps : 0 < t.fec.parityShards) (verify : Bool) (lost : Finset Nat) (h : Sound t X st)
    (hpruned : Pruned t st) (hw : HonestFrame t X wire) {g : Nat} {st' : IngestState}
    (hrun : ingestWireFrame X wire (t.manifest X) t.coder verify lost st = .ok (g, st')) :
    Pruned t st' ↔ StillNeeds t X lost st wire := by
  have hdata : ∀ i < t.numChunks, t.chunkFrame X i = some wire → i ∉ lost →
      (Pruned t st' ↔ ¬ Gathered t (i / t.width) (insert i st.received)) := by
    intro i hi hframe hlost
    obtain ⟨_, _, hrun', hiff⟩ :=
      ingest_data_pruned_iff hX ht hds hps verify h hpruned hi hframe hlost
    rw [hrun] at hrun'
    cases hrun'
    exact hiff
  have hparity : ∀ g p' j, t.ParityFrame X g p' j wire →
      (Pruned t st' ↔ ¬ Gathered t g st.received) := by
    intro g p' j hframe
    obtain ⟨_, _, hrun', hiff⟩ :=
      ingest_parity_pruned_iff hX ht hds hps verify lost h hpruned hframe
    rw [hrun] at hrun'
    cases hrun'
    exact hiff
  constructor
  · intro hpruned'
    exact ⟨fun i hi hframe hlost => (hdata i hi hframe hlost).mp hpruned',
      fun g p' j hframe => (hparity g p' j hframe).mp hpruned'⟩
  · rintro ⟨hdata', hparity'⟩
    cases hw with
    | @data i hi hframe =>
      by_cases hlost : i ∈ lost
      · -- the test hook drops the frame
        obtain ⟨hlt, hok⟩ := chunkFrame_sizeOk hX ht hi hframe
        rw [ingest_data_eq hX verify lost st hi hframe hlt hok, if_pos hlost] at hrun
        cases hrun
        exact hpruned
      · exact (hdata i hi hframe hlost).mpr (hdata' i hi hframe hlost)
    | parity hframe => exact (hparity _ _ _ hframe).mpr (hparity' _ _ _ hframe)

end Step

/-! ## Every run -/

/-- The receive loop as a system: a frame that fails ends it. -/
def ingestion (X : Crates) (m : TransferManifest) (fecRs : Option ReedSolomon) (verify : Bool)
    (lost : Finset Nat) : Lts IngestState Bytes where
  step st wire := ((ingestWireFrame X wire m fecRs verify lost st).toOption).map Prod.snd

section Run

variable {t : Transfer} {X : Crates} {st : IngestState}

/-- Where a receive starts no group is stored. -/
theorem Transfer.Start.pruned (hst : t.Start st) : Pruned t st := by
  intro g group hgroup
  rw [hst.no_groups g] at hgroup
  cases hgroup

theorem ingestion_step_eq_some {m : TransferManifest} {fecRs : Option ReedSolomon} {verify : Bool}
    {lost : Finset Nat} {wire : Bytes} {st' : IngestState} :
    (ingestion X m fecRs verify lost).step st wire = some st' ↔
      ∃ g, ingestWireFrame X wire m fecRs verify lost st = .ok (g, st') := by
  unfold ingestion
  dsimp only
  cases ingestWireFrame X wire m fecRs verify lost st with
  | error e =>
    constructor
    · nofun
    · rintro ⟨g, hg⟩
      cases hg
  | ok r =>
    constructor
    · intro h
      cases h
      exact ⟨r.1, rfl⟩
    · rintro ⟨g, hg⟩
      cases hg
      rfl

/-- Honest frames are ingested one after the other, and the state stays sound. -/
theorem each_honest (hX : X.Lawful) (ht : t.Admissible X) (verify : Bool) (lost : Finset Nat)
    {frames : List Bytes} (h : Sound t X st) (hframes : ∀ w ∈ frames, HonestFrame t X w) :
    (ingestion X (t.manifest X) t.coder verify lost).Each
      (fun st wire _ => Sound t X st ∧ HonestFrame t X wire) st frames := by
  refine Lts.Each.of_invariant h fun {st} wire hwire hst => ?_
  obtain ⟨g, st', hrun, hadv⟩ := ingest_honest hX ht verify lost hst (hframes wire hwire)
  exact ⟨st', ingestion_step_eq_some.mpr ⟨g, hrun⟩, ⟨hst, hframes wire hwire⟩, hadv.sound⟩

/--
**The receiver keeps no complete group, as long as every frame finds its group in need.**

`StillNeeds` fails for a data frame whose chunk is the last one its group waits for, and for every
frame of a group that is complete already: such a frame leaves the whole group behind.
-/
theorem retained_groups_iff (hX : X.Lawful) (ht : t.Admissible X) (hds : 0 < t.fec.dataShards)
    (hps : 0 < t.fec.parityShards) (verify : Bool) (lost : Finset Nat) (hst : t.Start st)
    {fecRs : Option ReedSolomon} (hrs : fecRsOf X (t.manifest X) = .ok fecRs)
    (frames : List Bytes) (hframes : ∀ w ∈ frames, HonestFrame t X w) :
    (ingestion X (t.manifest X) fecRs verify lost).Each (fun _ _ st' => Pruned t st') st frames ↔
      (ingestion X (t.manifest X) fecRs verify lost).Each
        (fun st wire _ => StillNeeds t X lost st wire) st frames := by
  obtain rfl : t.coder = fecRs := by
    rw [fecRsOf_manifest ht] at hrs
    exact Except.ok.inj hrs
  refine Lts.each_iff hst.pruned (each_honest hX ht verify lost hst.sound hframes) ?_
  rintro st wire st' hstep ⟨hsound, hw⟩ hpruned
  obtain ⟨g, hrun⟩ := ingestion_step_eq_some.mp hstep
  exact ingest_pruned_iff hX ht hds hps verify lost hsound hpruned hw hrun

end Run

/-! ## One group of two chunks -/

theorem sample_gathered_iff {received : Finset Nat} :
    Gathered sample 0 received ↔ 0 ∈ received ∧ 1 ∈ received := by
  constructor
  · intro hall
    exact ⟨hall 0 (by decide) (by decide), hall 1 (by decide) (by decide)⟩
  · rintro ⟨h₀, h₁⟩ i hi -
    have hi' : i < 2 := hi
    obtain rfl | rfl : i = 0 ∨ i = 1 := by omega
    · exact h₀
    · exact h₁

theorem exists_ok_of_toOption {ε α β : Type} {r : Except ε α} {f : α → β} {b : β}
    (h : r.toOption.map f = some b) : ∃ a, r = .ok a ∧ f a = b := by
  cases r with
  | error e => cases h
  | ok a => exact ⟨a, rfl, Option.some.inj h⟩

theorem sample_stillNeeds_data :
    StillNeeds sample Crates.reference ∅ ⟨[0, 0, 0], ∅, fun _ => none⟩ (sampleFrame 0) := by
  constructor
  · intro i hi _ _ hall
    have hi' : i < 2 := hi
    obtain rfl | rfl : i = 0 ∨ i = 1 := by omega
    · have h := (sample_gathered_iff.mp hall).2
      revert h
      decide
    · have h := (sample_gathered_iff.mp hall).1
      revert h
      decide
  · intro g p' j hpar _
    exact hpar.ne_data Crates.reference_lawful sample_admissible (by decide)
      (sample_chunkFrame 0 (by decide))

theorem sample_stillNeeds_parity {st : IngestState} (h : st.received = {0}) :
    StillNeeds sample Crates.reference ∅ st (sampleFrame 2) := by
  constructor
  · intro i hi hframe
    exact absurd hframe
      (sample_parityFrame.ne_data Crates.reference_lawful sample_admissible hi)
  · intro g p' j hpar hall
    obtain ⟨-, -, hfr, -⟩ := hpar.row Crates.reference_lawful sample_admissible.decodable
    have hlt : g * 2 + 1 < 2 := Transfer.slot_lt hfr.in_range (show 1 < sample.width by decide)
    obtain rfl : g = 0 := by omega
    have h₁ := (sample_gathered_iff.mp hall).2
    rw [h] at h₁
    revert h₁
    decide

/-- One chunk and the parity row: the group is dropped with the recovery. -/
theorem sample_retains_nothing_complete :
    ∃ fecRs, fecRsOf Crates.reference (sample.manifest Crates.reference) = .ok fecRs ∧
      (ingestion Crates.reference (sample.manifest Crates.reference) fecRs true ∅).Each
        (fun _ _ st' => Pruned sample st') ⟨[0, 0, 0], ∅, fun _ => none⟩
        ([0, 2].map sampleFrame) := by
  have hstart : sample.Start ⟨[0, 0, 0], ∅, fun _ => none⟩ := .empty rfl
  have hcoder := fecRsOf_manifest sample_admissible
  refine ⟨_, hcoder, (retained_groups_iff Crates.reference_lawful sample_admissible (by decide)
    (by decide) true ∅ hstart hcoder _ ?_).mpr ?_⟩
  · intro w hw
    obtain ⟨i, hi, rfl⟩ := List.mem_map.mp hw
    exact sample_honest i (by revert i; decide)
  · have hfirst : (ingestWireFrame Crates.reference (sampleFrame 0)
        (sample.manifest Crates.reference) sample.coder true ∅
        ⟨[0, 0, 0], ∅, fun _ => none⟩).toOption.map (·.2.received) = some {0} := by
      decide +kernel
    obtain ⟨⟨g, st₁⟩, hrun, hrecv⟩ := exists_ok_of_toOption hfirst
    obtain ⟨g', st₁', hrun', hadv⟩ := ingest_honest Crates.reference_lawful sample_admissible true
      ∅ hstart.sound (sample_honest 0 (by decide))
    rw [hrun] at hrun'
    cases hrun'
    obtain ⟨g₂, st₂, hrun₂, -⟩ := ingest_honest Crates.reference_lawful sample_admissible true ∅
      hadv.sound (sample_honest 2 (by decide))
    exact ⟨st₁, ingestion_step_eq_some.mpr ⟨g, hrun⟩, sample_stillNeeds_data,
      st₂, ingestion_step_eq_some.mpr ⟨g₂, hrun₂⟩, sample_stillNeeds_parity hrecv, trivial⟩

/-- Both chunks arrive: the group is complete, and its shards stay. -/
theorem complete_group_retained :
    sample.Start ⟨[0, 0, 0], ∅, fun _ => none⟩ ∧
    (∀ w ∈ [0, 1].map sampleFrame, HonestFrame sample Crates.reference w) ∧
    ∃ fecRs st' group, fecRsOf Crates.reference (sample.manifest Crates.reference) = .ok fecRs ∧
      ingestAll Crates.reference (sample.manifest Crates.reference) fecRs true ∅
        ([0, 1].map sampleFrame) ⟨[0, 0, 0], ∅, fun _ => none⟩ = .ok st' ∧
      st'.groups 0 = some group ∧ Gathered sample 0 st'.received := by
  refine ⟨.empty rfl, ?_, ?_⟩
  · intro w hw
    obtain ⟨i, hi, rfl⟩ := List.mem_map.mp hw
    exact sample_honest i (by revert i; decide)
  · have heval : (ingestAll Crates.reference (sample.manifest Crates.reference) sample.coder true ∅
        ([0, 1].map sampleFrame) ⟨[0, 0, 0], ∅, fun _ => none⟩).toOption.map
          (fun st => ((st.groups 0).isSome, st.received)) = some (true, {0, 1}) := by
      decide +kernel
    obtain ⟨st', hrun, hst'⟩ := exists_ok_of_toOption heval
    obtain ⟨hsome, hrecv⟩ := Prod.mk.inj hst'
    obtain ⟨group, hgroup⟩ := Option.isSome_iff_exists.mp hsome
    refine ⟨_, st', group, fecRsOf_manifest sample_admissible, hrun, hgroup, ?_⟩
    rw [sample_gathered_iff, hrecv]
    decide

end ScTransport
