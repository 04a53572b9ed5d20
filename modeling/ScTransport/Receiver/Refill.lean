import ScTransport.Receiver.Guards

/-!
# Receiving on top of any record

A resumed transfer starts from whatever the state file says. The indices on record may be wrong:
their chunks were never checked, and they need not be chunks of this manifest at all. Chunks on
record are not written again, and the sender does not send what it skips.

* `SentFrame` — what a sender puts on the wire that skips a set of chunks
* `Filled` — chunks on record are as they were found, the others that were received are right
* `ingest_refills` — one frame
-/

namespace ScTransport

open Infra

/--
A frame of a sender that skips `skip`. Parity is made of blocks all of whose chunks are sent.
-/
inductive SentFrame (t : Transfer) (X : Crates) (skip : Finset Nat) (wire : Bytes) : Prop where
  | data {i : Nat} (hi : i < t.numChunks) (hsent : i ∉ skip) (hw : t.chunkFrame X i = some wire)
  | parity {g p' j : Nat} (hw : t.ParityFrame X g p' j wire)
      (hsent : ∀ s, s < t.width → g * t.width + s ∉ skip)

/-- The bytes of the file where chunk `i` belongs. -/
def Transfer.chunkIn (t : Transfer) (file : Bytes) (i : Nat) : Bytes :=
  slice file (i * t.cfg.chunkSize) (t.raw i).length

/-- What was stored came from the sender, and parity only from groups without skipped chunks. -/
structure Stored (t : Transfer) (X : Crates) (skip : Finset Nat) (st : IngestState) : Prop where
  groups : ∀ {g : Nat} {group : Group}, st.groups g = some group →
    GroupSound t X g group st.received
  sent : ∀ {g s : Nat} {group : Group} {b : Bytes}, st.groups g = some group →
    t.fec.dataShards ≤ s → group[s]? = some (some b) →
    ∀ r, r < t.width → g * t.width + r ∉ skip
  small : ShardsSmall st

/-- What became of a part file `file` with the record `record`. -/
structure Filled (t : Transfer) (skip record : Finset Nat) (file : Bytes)
    (st : IngestState) : Prop where
  length_out : st.out.length = t.src.bytes.length
  record_sub : record ⊆ st.received
  sent : ∀ i ∈ st.received, i ∉ record → i < t.numChunks ∧ i ∉ skip
  old : ∀ i, i < t.numChunks → i ∈ record ∨ i ∉ st.received → t.chunkIn st.out i = t.chunkIn file i
  new : ∀ i ∈ st.received, i ∉ record → t.chunkIn st.out i = t.raw i

section Fill

variable {t : Transfer} {X : Crates} {skip record : Finset Nat} {file : Bytes} {st : IngestState}

theorem Filled.init (h : file.length = t.src.bytes.length) :
    Filled t skip record file ⟨file, record, fun _ => none⟩ where
  length_out := h
  record_sub := subset_rfl
  sent := fun _ hi hnot => absurd hi hnot
  old := fun _ _ _ => rfl
  new := fun _ hi hnot => absurd hi hnot

/-- Writing a chunk that is sent: other chunks lie elsewhere in the file. -/
theorem Filled.deliver (h : Filled t skip record file st) {i : Nat} (hi : i < t.numChunks)
    (hsent : i ∉ skip) : Filled t skip record file (t.deliver i st) := by
  by_cases hin : i ∈ st.received
  · rw [Transfer.deliver, if_pos hin]
    exact h
  · have hend : i * t.cfg.chunkSize + (t.raw i).length ≤ st.out.length := by
      rw [h.length_out]
      exact chunk_end_le (chunkStart_lt hi)
    have hother : ∀ j, j ≠ i →
        t.chunkIn (writeAt st.out (i * t.cfg.chunkSize) (t.raw i)) j = t.chunkIn st.out j := by
      intro j hne
      have hri := raw_length_le t i
      have hrj := raw_length_le t j
      refine slice_writeAt_of_disjoint (by omega) ?_
      rcases chunk_disjoint (c := t.cfg.chunkSize) hne with hd | hd
      · exact Or.inl (by omega)
      · exact Or.inr (by omega)
    rw [Transfer.deliver, if_neg hin]
    refine ⟨(length_writeAt hend).trans h.length_out,
      h.record_sub.trans (Finset.subset_insert _ _), ?_, ?_, ?_⟩
    · intro j hj hnot
      rcases Finset.mem_insert.mp hj with rfl | hj
      · exact ⟨hi, hsent⟩
      · exact h.sent j hj hnot
    · intro j hj hold
      have hne : j ≠ i := by
        rintro rfl
        rcases hold with hrec | hnot
        · exact hin (h.record_sub hrec)
        · exact hnot (Finset.mem_insert_self _ _)
      rw [hother j hne]
      exact h.old j hj (hold.imp_right fun hnot hmem => hnot (Finset.mem_insert_of_mem hmem))
    · intro j hj hnot
      by_cases hne : j = i
      · subst hne
        exact slice_writeAt_self (by omega) _
      · rw [hother j hne]
        exact h.new j ((Finset.mem_insert.mp hj).resolve_left hne) hnot

theorem Filled.deliverSlots (h : Filled t skip record file st) {g : Nat} {slots : List Nat}
    (hslots : ∀ s ∈ slots, g * t.width + s < t.numChunks ∧ g * t.width + s ∉ skip) :
    Filled t skip record file (t.deliverSlots g slots st) := by
  induction slots generalizing st with
  | nil => exact h
  | cons s rest ih =>
    have hs := hslots s List.mem_cons_self
    exact ih (h.deliver hs.1 hs.2) fun x hx => hslots x (List.mem_cons_of_mem _ hx)

/-- The groups do not matter for what is in the file. -/
theorem Filled.with_groups (h : Filled t skip record file st) (groups : Nat → Option Group) :
    Filled t skip record file { st with groups := groups } :=
  ⟨h.length_out, h.record_sub, h.sent, h.old, h.new⟩

/-- More chunks on record do not hurt what is stored. -/
theorem Stored.mono (h : Stored t X skip st) {st' : IngestState} (hgroups : st'.groups = st.groups)
    (hsub : st.received ⊆ st'.received) : Stored t X skip st' where
  groups := by
    intro g group hg
    rw [hgroups] at hg
    exact (h.groups hg).mono hsub
  sent := by
    intro g s group b hg
    rw [hgroups] at hg
    exact h.sent hg
  small := by
    intro g group s b hg
    rw [hgroups] at hg
    exact h.small hg

theorem Stored.dropGroup (h : Stored t X skip st) (g : Nat) :
    Stored t X skip { st with groups := Function.update st.groups g none } := by
  have hold : ∀ {g' : Nat} {group : Group},
      Function.update st.groups g none g' = some group → st.groups g' = some group := by
    intro g' group hg'
    by_cases heq : g' = g
    · subst heq
      simp at hg'
    · rwa [Function.update_of_ne heq] at hg'
  exact ⟨fun hg => h.groups (hold hg), fun hg => h.sent (hold hg), fun hg => h.small (hold hg)⟩

end Fill

/-! ## One frame -/

/-- The state of a receiver that resumed with `record` and reads what the sender sends. -/
structure Refilling (t : Transfer) (X : Crates) (skip record : Finset Nat) (file : Bytes)
    (st : IngestState) : Prop where
  stored : Stored t X skip st
  filled : Filled t skip record file st

section Frame

variable {t : Transfer} {X : Crates} {skip record : Finset Nat} {file : Bytes} {st : IngestState}
  {wire : Bytes}

theorem Refilling.init (h : file.length = t.src.bytes.length) :
    Refilling t X skip record file ⟨file, record, fun _ => none⟩ where
  stored := ⟨nofun, nofun, nofun⟩
  filled := .init h

theorem Refilling.deliver (h : Refilling t X skip record file st) {i : Nat}
    (hi : i < t.numChunks) (hsent : i ∉ skip) :
    Refilling t X skip record file (t.deliver i st) where
  stored := h.stored.mono Transfer.deliver_groups (subset_deliver t i st)
  filled := h.filled.deliver hi hsent

/-- Recovery delivers chunks of a group with parity, and such a group is sent whole. -/
theorem tryFecGroupRecover_refills (hX : X.Lawful)
    (hrs : X.RsLawful t.width t.fec.parityShards) (hds : 0 < t.fec.dataShards)
    (hps : 0 < t.fec.parityShards) (verify : Bool) (g : Nat)
    (h : Refilling t X skip record file st) :
    ∃ st', tryFecGroupRecover X g (t.manifest X) ⟨t.fec.dataShards, t.fec.parityShards⟩ verify st
        = .ok st' ∧ Refilling t X skip record file st' ∧ st.received ⊆ st'.received := by
  by_cases hidle : ∀ group, st.groups g = some group →
      fecMissingDataSlots group (t.manifest X) g st.received = [] ∨
        fecRecoveryReady group (t.manifest X) = false
  · exact ⟨st, tryFecGroupRecover_idle verify hidle, h, subset_rfl⟩
  · push Not at hidle
    obtain ⟨group, hg, hmissing, hready⟩ := hidle
    have hready' : fecRecoveryReady group (t.manifest X) = true := by simpa using hready
    obtain ⟨hfr, hrun⟩ := tryFecGroupRecover_ready hX hrs hds hps verify hg (h.stored.groups hg)
      h.stored.small hready' hmissing
    obtain ⟨r, b, hr, hb⟩ := exists_parity_of_missing hready' hmissing
    have hslots : ∀ s ∈ fecMissingDataSlots group (t.manifest X) g st.received,
        g * t.width + s < t.numChunks ∧ g * t.width + s ∉ skip := by
      intro s hs
      have hlt : s < t.width := t.width_eq hds ▸ (mem_fecMissingDataSlots.mp hs).1
      exact ⟨Transfer.slot_lt hfr.in_range hlt, h.stored.sent hg hr hb s hlt⟩
    generalize fecMissingDataSlots group (t.manifest X) g st.received = missing at *
    have hsub : st.received ⊆ (t.deliverSlots g missing st).received :=
      fun j hj => (Transfer.mem_deliverSlots missing st).mpr (Or.inr hj)
    have hgroups := Transfer.deliverSlots_groups (t := t) (g := g) missing st
    refine ⟨_, hrun, ⟨?_, (h.filled.deliverSlots hslots).with_groups _⟩, hsub⟩
    rw [← hgroups]
    exact (h.stored.mono hgroups hsub).dropGroup g

theorem storeShard_refills {g slot : Nat} {shard : Bytes}
    (h : Refilling t X skip record file st) (hshard : shard.length < 2 ^ 32)
    (hdata : slot < t.fec.dataShards →
      t.chunkFrame X (g * t.width + slot) = some shard ∧ g * t.width + slot ∈ st.received)
    (hpar : t.fec.dataShards ≤ slot → (t.Framed X g ∧ (t.groupCode X g)[slot]? = some shard) ∧
      ∀ s, s < t.width → g * t.width + s ∉ skip) :
    Refilling t X skip record file (storeShard (t.manifest X) g slot shard st) where
  stored :=
    { groups := fun hg => GroupSound.storeShard (fun hg => h.stored.groups hg) hdata
        (fun hge => (hpar hge).1) hg
      sent := by
        intro g' s group b hg hs hb
        by_cases heq : g' = g
        · subst heq
          rw [storeShard_groups_self, Option.some.injEq] at hg
          rw [← hg, List.getElem?_set] at hb
          split at hb
          · next hslot => exact (hpar (hslot ▸ hs)).2
          · unfold groupOrNew at hb
            cases hold : st.groups g' with
            | some old =>
              rw [hold] at hb
              exact h.stored.sent hold hs hb
            | none =>
              rw [hold, Option.getD_none, List.getElem?_replicate] at hb
              split at hb <;> cases hb
        · rw [storeShard_groups_of_ne _ heq] at hg
          exact h.stored.sent hg hs hb
      small := ShardsSmall.storeShard (fun hg => h.stored.small hg) hshard }
  filled := h.filled.with_groups _

/-- A frame that passes the guards is as long as its descriptor says. -/
theorem PassesGuards.sizeOk {m : TransferManifest} (h : PassesGuards X m wire) :
    SizeOk X m wire := by
  intro desc off len hparse
  obtain ⟨desc', len', hparse', hle, -⟩ := h.ingested
  rw [hparse] at hparse'
  cases hparse'
  exact hle

theorem ingest_data_refills (hX : X.Lawful) (hrs : t.Decodable X) (verify : Bool)
    (h : Refilling t X skip record file st) (hguard : PassesGuards X (t.manifest X) wire) {i : Nat}
    (hi : i < t.numChunks) (hsent : i ∉ skip) (hw : t.chunkFrame X i = some wire) :
    ∃ g st', ingestWireFrame X wire (t.manifest X) t.coder verify ∅ st = .ok (g, st') ∧
      Refilling t X skip record file st' ∧ st.received ⊆ st'.received ∧ i ∈ st'.received := by
  have hlt : wire.length < 2 ^ 32 := readLimit_lt hguard.read
  have hdel := h.deliver hi hsent
  have hsub := subset_deliver t i st
  have hmem : i ∈ (t.deliver i st).received := Transfer.mem_deliver.mpr (Or.inl rfl)
  rw [ingest_data_eq hX verify ∅ st hi hw hlt hguard.sizeOk, if_neg (Finset.notMem_empty i)]
  by_cases hfec : 0 < t.fec.parityShards ∧ 0 < t.fec.dataShards
  · have hslot : i % t.width < t.fec.dataShards := by
      rw [← t.width_eq hfec.2]
      exact Nat.mod_lt _ t.width_pos
    have hstore : Refilling t X skip record file
        (storeShard (t.manifest X) (i / t.width) (i % t.width) wire (t.deliver i st)) := by
      refine storeShard_refills hdel hlt (fun _ => ?_) fun hge => by omega
      rw [Nat.div_add_mod' i t.width]
      exact ⟨hw, hmem⟩
    obtain ⟨st', hrun, href, hsub'⟩ := tryFecGroupRecover_refills hX (hrs hfec.2 hfec.1) hfec.2
      hfec.1 verify (i / t.width) hstore
    rw [if_pos hfec, hrun]
    exact ⟨_, st', rfl, href, hsub.trans hsub', hsub' hmem⟩
  · rw [if_neg hfec]
    exact ⟨_, _, rfl, hdel, hsub, hmem⟩

theorem ingest_parity_refills (hX : X.Lawful) (hrs : t.Decodable X) (verify : Bool)
    (h : Refilling t X skip record file st) (hguard : PassesGuards X (t.manifest X) wire)
    {g p' j : Nat} (hw : t.ParityFrame X g p' j wire)
    (hsent : ∀ s, s < t.width → g * t.width + s ∉ skip) :
    ∃ g' st', ingestWireFrame X wire (t.manifest X) t.coder verify ∅ st = .ok (g', st') ∧
      Refilling t X skip record file st' ∧ st.received ⊆ st'.received := by
  obtain ⟨row, hrow, -, hfr, hcode, heq⟩ :=
    ingest_parity_eq hX hrs verify ∅ st hw (readLimit_lt hguard.read) hguard.sizeOk
  rw [heq]
  by_cases hfec : 0 < t.fec.parityShards ∧ 0 < t.fec.dataShards
  · have hstore : Refilling t X skip record file
        (storeShard (t.manifest X) g (t.fec.dataShards + j) row st) :=
      storeShard_refills h hrow (fun hlt => by omega) fun _ => ⟨⟨hfr, hcode hfec.2⟩, hsent⟩
    obtain ⟨st', hrun, href, hsub⟩ := tryFecGroupRecover_refills hX (hrs hfec.2 hfec.1) hfec.2
      hfec.1 verify g hstore
    rw [if_pos hfec, hrun]
    exact ⟨_, st', rfl, href, hsub⟩
  · rw [if_neg hfec]
    exact ⟨_, st, rfl, h, subset_rfl⟩

/--
**One frame on top of any record.** It is accepted, whatever is written is a chunk that the
sender does not skip, and the chunk of a data frame is received afterwards.
-/
theorem ingest_refills (hX : X.Lawful) (hrs : t.Decodable X) (verify : Bool)
    (h : Refilling t X skip record file st) (hw : SentFrame t X skip wire)
    (hguard : PassesGuards X (t.manifest X) wire) :
    ∃ g st', ingestWireFrame X wire (t.manifest X) t.coder verify ∅ st = .ok (g, st') ∧
      Refilling t X skip record file st' ∧ st.received ⊆ st'.received ∧
      ∀ i, i < t.numChunks → i ∉ skip → t.chunkFrame X i = some wire → i ∈ st'.received := by
  have hdata : ∀ {g st'}, ingestWireFrame X wire (t.manifest X) t.coder verify ∅ st = .ok (g, st') →
      ∀ i, i < t.numChunks → i ∉ skip → t.chunkFrame X i = some wire → i ∈ st'.received := by
    intro g st' hrun i hi hsent hwi
    obtain ⟨g', st'', hrun', -, -, hmem⟩ :=
      ingest_data_refills hX hrs verify h hguard hi hsent hwi
    rw [hrun, Except.ok.injEq, Prod.mk.injEq] at hrun'
    rw [hrun'.2]
    exact hmem
  cases hw with
  | data hi hsent hw =>
    obtain ⟨g, st', hrun, href, hsub, -⟩ := ingest_data_refills hX hrs verify h hguard hi hsent hw
    exact ⟨g, st', hrun, href, hsub, hdata hrun⟩
  | parity hw hsent =>
    obtain ⟨g, st', hrun, href, hsub⟩ := ingest_parity_refills hX hrs verify h hguard hw hsent
    exact ⟨g, st', hrun, href, hsub, hdata hrun⟩

end Frame

end ScTransport
