import ScTransport.Fec.Encoder

/-!
# The groups of one transfer

`Transfer` fixes an honest sender: its configuration, the source file, and the FEC block it
planned. Everything on the wire is determined by these and by the crates.

A group is `n` consecutive chunks. Its codeword is the Reed–Solomon encoding of the `n`
framed chunks, each padded to the longest of them. Data slots of the receiver hold the frames
without padding, parity slots hold rows of the codeword.
-/

namespace ScTransport

open Infra

/-- One honest transfer. -/
structure Transfer where
  cfg : SenderConfig
  filename : List Char
  src : SourceFile
  fec : FecEncoder

namespace Transfer

variable (t : Transfer) (X : Crates)

def manifest : TransferManifest := buildManifest X t.cfg t.filename t.src t.fec

def numChunks : Nat := divCeil t.src.bytes.length t.cfg.chunkSize

/-- Width of a group: `data_shards.max(1)`. -/
def width : Nat := max t.fec.dataShards 1

theorem width_pos : 0 < t.width := by
  unfold width
  omega

theorem width_eq (h : 0 < t.fec.dataShards) : t.width = t.fec.dataShards := by
  unfold width
  omega

/-- The source bytes of chunk `i`. -/
def raw (i : Nat) : Bytes := chunkRaw t.src.bytes t.cfg.chunkSize i

/-- The data frame of chunk `i`; `none` when compressing or encoding fails. -/
def chunkFrame (i : Nat) : Option Bytes :=
  buildChunkPayload X t.cfg t.src.bytes i t.src.bytes.length (t.manifest X)

/-- The framed chunks of group `g`, in slot order. -/
def groupFrames (g : Nat) : List Bytes :=
  (List.range t.width).map fun s => (t.chunkFrame X (g * t.width + s)).getD []

/-- Longest frame of group `g`. -/
def groupLen (g : Nat) : Nat := ((t.groupFrames X g).map List.length).foldl max 0

/-- The padded data rows of group `g`. -/
def groupRows (g : Nat) : List Bytes := (t.groupFrames X g).map (resize · (t.groupLen X g))

/-- The codeword of group `g`: data rows, then all parity rows of the manifest. -/
def groupCode (g : Nat) : List Bytes :=
  (X.rsEncode t.width t.fec.parityShards
    (encodeInput (t.groupRows X g) t.fec.parityShards (t.groupLen X g))).getD []

/-- The data packets of a group all of whose chunks exist, in any order. -/
structure FullGroup (g : Nat) (data : List Packet) : Prop where
  in_range : (g + 1) * t.width ≤ t.numChunks
  seqs : (data.map Packet.seq).Perm (List.range' (g * t.width) t.width)
  payload : ∀ q ∈ data, t.chunkFrame X q.seq = some q.payload
  group : ∀ q ∈ data, q.fecGroup = g
  not_parity : ∀ q ∈ data, q.isParity = false

end Transfer

/-! ## Maxima -/

theorem le_foldl_max {l : List Nat} {a x : Nat} (h : x ∈ l ∨ x ≤ a) : x ≤ l.foldl max a := by
  induction l generalizing a with
  | nil => simpa using h
  | cons y rest ih =>
    refine ih ?_
    rcases h with h | h
    · rcases List.mem_cons.mp h with rfl | h
      · exact Or.inr (le_max_right _ _)
      · exact Or.inl h
    · exact Or.inr (h.trans (le_max_left _ _))

theorem foldl_max_le {l : List Nat} {a b : Nat} (ha : a ≤ b) (h : ∀ x ∈ l, x ≤ b) :
    l.foldl max a ≤ b := by
  induction l generalizing a with
  | nil => exact ha
  | cons y rest ih =>
    exact ih (max_le ha (h y List.mem_cons_self)) fun x hx => h x (List.mem_cons_of_mem _ hx)

/-! ## Full groups -/

section Group

variable {t : Transfer} {X : Crates} {g : Nat}

theorem Transfer.numChunks_lt (t : Transfer) : t.numChunks < 2 ^ 64 :=
  divCeil_lt t.src t.cfg.chunkSize

/-- Slot `s` of a full group is an existing chunk. -/
theorem Transfer.slot_lt {s : Nat} (hg : (g + 1) * t.width ≤ t.numChunks) (hs : s < t.width) :
    g * t.width + s < t.numChunks := by
  rw [Nat.add_mul, Nat.one_mul] at hg
  omega

theorem Transfer.length_groupFrames : (t.groupFrames X g).length = t.width := by
  simp [Transfer.groupFrames]

theorem Transfer.getElem?_groupFrames {s : Nat} (hs : s < t.width) :
    (t.groupFrames X g)[s]? = some ((t.chunkFrame X (g * t.width + s)).getD []) := by
  simp [Transfer.groupFrames, hs]

theorem Transfer.frame_le_groupLen {w : Bytes} (hw : w ∈ t.groupFrames X g) :
    w.length ≤ t.groupLen X g :=
  le_foldl_max (Or.inl (List.mem_map_of_mem hw))

/-- Every frame of a chunk is longer than its length prefix. -/
theorem Transfer.chunkFrame_length (hX : X.Lawful) {i : Nat} {w : Bytes}
    (hi : i < t.numChunks) (hw : t.chunkFrame X i = some w) :
    4 < w.length ∧ w.length ≤ 132 + t.cfg.chunkSize :=
  length_buildChunkPayload hX hi hw

/--
**Sorting a full group gives its frames in slot order.**

The sequence numbers are a permutation of the group's indices and the sorted block has them
in ascending order. The frame of a chunk depends on its index alone.
-/
theorem Transfer.FullGroup.payloads {data : List Packet} (h : t.FullGroup X g data) :
    (sortBlock t.width data).map Packet.payload = t.groupFrames X g := by
  have hpay : (sortBlock t.width data).map Packet.payload
      = ((sortBlock t.width data).map Packet.seq).map fun i => (t.chunkFrame X i).getD [] := by
    rw [List.map_map]
    refine List.map_congr_left fun q hq => ?_
    have hmem : q ∈ data := List.mem_of_mem_take (mem_sortBlock.mp hq)
    simp [h.payload q hmem]
  rw [hpay, map_seq_sortBlock h.seqs, Transfer.groupFrames, List.range'_eq_map_range, List.map_map]
  rfl

theorem Transfer.FullGroup.length_eq {data : List Packet} (h : t.FullGroup X g data) :
    data.length = t.width := by
  simpa using h.seqs.length_eq

theorem Transfer.FullGroup.maxPayload_eq {data : List Packet} (h : t.FullGroup X g data) :
    maxPayload (sortBlock t.width data) = t.groupLen X g := by
  unfold maxPayload Transfer.groupLen
  rw [← h.payloads, List.map_map]
  rfl

/-- In a full group every slot's frame exists. -/
theorem Transfer.FullGroup.frame_exists {data : List Packet} (h : t.FullGroup X g data) {s : Nat}
    (hs : s < t.width) : ∃ w, t.chunkFrame X (g * t.width + s) = some w := by
  have hmem : g * t.width + s ∈ data.map Packet.seq :=
    h.seqs.mem_iff.mpr (List.mem_range'_1.mpr (by omega))
  obtain ⟨q, hq, hqs⟩ := List.mem_map.mp hmem
  exact ⟨q.payload, by rw [← hqs]; exact h.payload q hq⟩

end Group

/-! ## The codeword -/

section Code

variable {t : Transfer} {X : Crates} {g : Nat}

/-- A group whose chunks all exist and could all be framed. -/
structure Transfer.Framed (t : Transfer) (X : Crates) (g : Nat) : Prop where
  in_range : (g + 1) * t.width ≤ t.numChunks
  frame_exists : ∀ {s : Nat}, s < t.width → ∃ w, t.chunkFrame X (g * t.width + s) = some w

theorem Transfer.FullGroup.framed {data : List Packet} (h : t.FullGroup X g data) :
    t.Framed X g := ⟨h.in_range, fun hs => h.frame_exists hs⟩

theorem Transfer.Framed.groupLen_bounds (hX : X.Lawful) (h : t.Framed X g) :
    4 < t.groupLen X g ∧ t.groupLen X g ≤ 132 + t.cfg.chunkSize := by
  constructor
  · obtain ⟨w, hw⟩ := h.frame_exists t.width_pos
    have hmem : w ∈ t.groupFrames X g := by
      refine List.mem_of_getElem? (i := 0) ?_
      rw [Transfer.getElem?_groupFrames t.width_pos, hw]
      rfl
    have h4 := (Transfer.chunkFrame_length hX
      (Transfer.slot_lt h.in_range t.width_pos) hw).1
    exact lt_of_lt_of_le h4 (Transfer.frame_le_groupLen hmem)
  · refine foldl_max_le (Nat.zero_le _) ?_
    intro x hx
    obtain ⟨w, hw, rfl⟩ := List.mem_map.mp hx
    obtain ⟨s, hs, rfl⟩ := List.mem_map.mp hw
    obtain ⟨w, hw⟩ := h.frame_exists (List.mem_range.mp hs)
    rw [hw]
    exact (Transfer.chunkFrame_length hX
      (Transfer.slot_lt h.in_range (List.mem_range.mp hs)) hw).2

theorem Transfer.Framed.isBlock (hX : X.Lawful) (h : t.Framed X g) :
    IsBlock (t.groupRows X g) t.width (t.groupLen X g) where
  length_eq := by simp [Transfer.groupRows, Transfer.length_groupFrames]
  len_pos := by
    have := (h.groupLen_bounds hX).1
    omega
  row_length := by
    intro r hr
    obtain ⟨w, _, rfl⟩ := List.mem_map.mp hr
    exact length_resize _ _

/-- The codeword of a framed group is its rows and `parityShards` parity rows. -/
theorem Transfer.Framed.groupCode_eq (hX : X.Lawful)
    (hrs : X.RsLawful t.width t.fec.parityShards) (hp : 0 < t.fec.parityShards)
    (h : t.Framed X g) :
    ∃ parity, IsBlock parity t.fec.parityShards (t.groupLen X g) ∧
      t.groupCode X g = t.groupRows X g ++ parity ∧
      ∀ p', 0 < p' → p' ≤ t.fec.parityShards →
        X.rsEncode t.width p' (encodeInput (t.groupRows X g) p' (t.groupLen X g))
          = some (t.groupRows X g ++ parity.take p') := by
  obtain ⟨parity, hpar, henc⟩ := hrs.encode_ok (h.isBlock hX)
  refine ⟨parity, hpar, ?_, henc⟩
  unfold Transfer.groupCode
  rw [henc _ hp le_rfl, Option.getD_some, List.take_of_length_le (by rw [hpar.length_eq])]

/-- Nothing in the sorted block is a parity packet. -/
theorem Transfer.FullGroup.not_parity_sort {data : List Packet} (h : t.FullGroup X g data)
    {q : Packet} (hq : q ∈ sortBlock t.width data) : q.isParity = false :=
  h.not_parity q (List.mem_of_mem_take (mem_sortBlock.mp hq))

/-- The rows handed to the crate are the group's rows. -/
theorem Transfer.FullGroup.rows_eq {data : List Packet} (h : t.FullGroup X g data) :
    ((sortBlock t.width data).map fun q =>
      resize q.payload (maxPayload (sortBlock t.width data))) = t.groupRows X g := by
  unfold Transfer.groupRows
  rw [h.maxPayload_eq, ← h.payloads, List.map_map]
  rfl

/-- Parity packets are filed under the group of the first data packet. -/
theorem Transfer.FullGroup.head_group {data : List Packet} (h : t.FullGroup X g data)
    (hmax : maxPayload (sortBlock t.width data) ≠ 0) :
    ((sortBlock t.width data).head?.map Packet.fecGroup).getD 0 = g := by
  cases hb : sortBlock t.width data with
  | nil => rw [hb] at hmax; simp [maxPayload] at hmax
  | cons q₀ rest =>
    have hmem : q₀ ∈ sortBlock t.width data := by
      rw [hb]
      exact List.mem_cons_self
    exact h.group q₀ (List.mem_of_mem_take (mem_sortBlock.mp hmem))

/-- How a parity packet of a full group comes about, whatever the crate computes. -/
theorem Transfer.FullGroup.parity_packet {data : List Packet} (h : t.FullGroup X g data) {p' : Nat}
    {q : Packet} (hq : q ∈ FecEncoder.encodeBlock X ⟨t.fec.dataShards, p'⟩ data)
    (hpar : q.isParity = true) :
    ∃ shards, q.parityIndex < p' ∧
      X.rsEncode t.width p' (encodeInput (t.groupRows X g) p' (t.groupLen X g)) = some shards ∧
      frameFecWireShard X (parityFrameIndex g p' q.parityIndex) 0
        (shards.getD (t.width + q.parityIndex) []) true q.parityIndex g = some q.payload := by
  have hsort : q ∉ sortBlock t.width data := fun hmem => by
    rw [h.not_parity_sort hmem] at hpar
    cases hpar
  rcases encodeBlock_shape X ⟨t.fec.dataShards, p'⟩ data with he | he |
    ⟨shards, hn, hp0, hmax, hs, he⟩
  · rw [he] at hq
    rw [h.not_parity q hq] at hpar
    cases hpar
  · rw [he] at hq
    exact absurd hq hsort
  · rw [he] at hq
    rcases List.mem_append.mp hq with hq | hq
    · exact absurd hq hsort
    · rw [List.reduceOption_mem_iff, List.mem_map] at hq
      obtain ⟨i, hi, hpq⟩ := hq
      obtain ⟨-, hidx, hgrp, hframe⟩ := parityPacket_spec hpq
      simp only [show max t.fec.dataShards 1 = t.width from rfl] at hs hmax hgrp hframe
      rw [h.rows_eq, h.maxPayload_eq] at hs
      rw [hgrp, h.head_group (by omega)] at hframe
      rw [hidx]
      exact ⟨shards, List.mem_range.mp hi, hs, hframe⟩

/--
**Parity frames carry the codeword's parity rows.**

Neither the order of the packets nor the parity count asked for matters: sorting restores
the slot order, and a smaller encoder computes a prefix of the same rows.
-/
theorem Transfer.FullGroup.encodeBlock_parity (hX : X.Lawful)
    (hrs : X.RsLawful t.width t.fec.parityShards) {data : List Packet}
    (h : t.FullGroup X g data) {p' : Nat} (hp' : p' ≤ t.fec.parityShards) {q : Packet}
    (hq : q ∈ FecEncoder.encodeBlock X ⟨t.fec.dataShards, p'⟩ data)
    (hpar : q.isParity = true) :
    ∃ row, q.parityIndex < p' ∧ (t.groupCode X g)[t.width + q.parityIndex]? = some row ∧
      row.length = t.groupLen X g ∧
      frameFecWireShard X (parityFrameIndex g p' q.parityIndex) 0 row true q.parityIndex g
        = some q.payload := by
  obtain ⟨shards, hi, hs, hframe⟩ := h.parity_packet hq hpar
  generalize q.parityIndex = i at hi hframe ⊢
  obtain ⟨parity, hblk, hcode, henc⟩ :=
    h.framed.groupCode_eq hX hrs (by omega : 0 < t.fec.parityShards)
  have hshards : shards = t.groupRows X g ++ parity.take p' := by
    rw [henc p' (by omega) hp'] at hs
    exact (Option.some.inj hs).symm
  have hrl : (t.groupRows X g).length = t.width := (h.framed.isBlock hX).length_eq
  have hip : i < parity.length := by rw [hblk.length_eq]; omega
  have hget : (t.groupCode X g)[t.width + i]? = some (parity[i]) := by
    rw [hcode, List.getElem?_append_right (by omega), hrl, Nat.add_sub_cancel_left,
      List.getElem?_eq_getElem hip]
  have hrow : shards.getD (t.width + i) [] = parity[i] := by
    rw [hshards, List.getD_eq_getElem?_getD, List.getElem?_append_right (by omega), hrl,
      Nat.add_sub_cancel_left, List.getElem?_take, if_pos hi, List.getElem?_eq_getElem hip,
      Option.getD_some]
  rw [hrow] at hframe
  exact ⟨parity[i], hi, hget, hblk.row_length _ (List.getElem_mem hip), hframe⟩

end Code

end ScTransport
