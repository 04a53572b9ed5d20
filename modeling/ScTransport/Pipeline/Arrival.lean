import ScTransport.Fec.Reference
import ScTransport.Pipeline.Encode

/-!
# The order of arrival

The encoder task finds a block by the `seq`s of its packets, takes it out of the stash from the
back, and sorts it again in `encode_block`. Packets that come twice fill the stash again after
their block is gone, so one group can give several blocks.

* `GroupStash` — the stash of one group, with its blocks kept apart
* `encodeAll_eq_feed` — it is what the encoder task does with the packets of one group
* `GroupStash.Held` — what feeding packets keeps, in any order
* `parity_order_free_iff` — when the parity of a group does not depend on the order

The range a drain looks for ends before the largest number. In the one group that reaches it, the
packets before it are taken for a block: they are too few to be encoded, and stay unsorted. If
there are none, the loop never ends.
-/

namespace ScTransport

open Infra

/-! ## The stash of one group -/

/-- The packets that wait, and the blocks that went to the next stage. -/
structure GroupStash where
  buf : List Packet
  blocks : List (List Packet)
  /-- Ghost: everything the buffer has been. -/
  history : List (List Packet)

namespace GroupStash

def empty : GroupStash := ⟨[], [], []⟩

/-- `stash_fec_packet` -/
def stash (s : GroupStash) (p : Packet) : GroupStash :=
  { s with
    buf := stashPacket s.buf p
    history := s.history ++ [stashPacket s.buf p] }

section Run

variable (X : Crates) (g : Nat) (fec : FecEncoder)

/-- The drain loop, block by block. -/
def drain : Nat → GroupStash → Except Fault GroupStash
  | 0, _ => .error .outOfFuel
  | fuel + 1, s =>
    match drainFecBlockFromPackets X s.buf g fec with
    | .error e => .error e
    | .ok none => .ok s
    | .ok (some (encoded, left)) =>
      drain fuel ⟨left, s.blocks ++ [encoded], s.history ++ [left]⟩

/-- Packets one by one, each with its drain loop. -/
def feed : List Packet → GroupStash → Except Fault GroupStash
  | [], s => .ok s
  | p :: rest, s =>
    match drain X g fec ((s.stash p).buf.length + 1) (s.stash p) with
    | .error e => .error e
    | .ok s' => feed rest s'

end Run

end GroupStash

/-! ## The encoder task -/

section Task

variable {X : Crates} {g : Nat} {fecOf : Nat → FecEncoder}

theorem EncoderTask.put_put (task : EncoderTask) (g : Nat) (buf buf' out out' : List Packet) :
    (task.put g buf out).put g buf' out' = task.put g buf' (out ++ out') := by
  simp only [EncoderTask.put, Function.update_idem, List.append_assoc]

/-- A group's stash, as a part of the encoder task. -/
def GroupStash.within (s : GroupStash) (task : EncoderTask) (g : Nat) : EncoderTask :=
  task.put g s.buf s.blocks.flatten

theorem GroupStash.stash_within (s : GroupStash) (task : EncoderTask) (g : Nat) :
    (s.within task g).stash g = s.buf := Function.update_self _ _ _

/-- The loop that keeps the blocks apart sends on what the other one does. -/
theorem drainLoop_eq_drain (fec : FecEncoder) (task : EncoderTask) :
    ∀ (fuel : Nat) (s : GroupStash),
      (drainLoop X g fec fuel s.buf).map
          (fun r => task.put g r.2 (s.blocks.flatten ++ r.1)) =
        (s.drain X g fec fuel).map fun s' => s'.within task g
  | 0, s => rfl
  | fuel + 1, s => by
    unfold drainLoop GroupStash.drain
    cases drainFecBlockFromPackets X s.buf g fec with
    | error e => rfl
    | ok found =>
      cases found with
      | none => simp only [Except.map, List.append_nil, GroupStash.within]
      | some block =>
        have ih := drainLoop_eq_drain fec task fuel
          ⟨block.2, s.blocks ++ [block.1], s.history ++ [block.2]⟩
        dsimp only at ih ⊢
        rw [← ih]
        cases drainLoop X g fec fuel block.2 with
        | error e => rfl
        | ok r => simp only [Except.map, List.flatten_append, List.flatten_singleton,
            List.append_assoc]

theorem drainGroup_within (task : EncoderTask) (s : GroupStash) :
    drainGroup X fecOf g (s.within task g) =
      (s.drain X g (fecOf g) (s.buf.length + 1)).map fun s' => s'.within task g := by
  rw [← drainLoop_eq_drain, drainGroup, s.stash_within]
  cases drainLoop X g (fecOf g) (s.buf.length + 1) s.buf with
  | error e => rfl
  | ok r => simp only [GroupStash.within, EncoderTask.put_put, Except.map]

/-- The encoder task, on packets of one group. -/
theorem encodeAll_eq_feed (task : EncoderTask) :
    ∀ {packets : List Packet} (s : GroupStash), (∀ p ∈ packets, p.fecGroup = g) →
      encodeAll X fecOf packets (s.within task g) =
        (s.feed X g (fecOf g) packets).map fun s' => s'.within task g
  | [], s, _ => rfl
  | p :: rest, s, hg => by
    have hstash : (s.within task g).put g (stashPacket s.buf p) [] = (s.stash p).within task g := by
      rw [GroupStash.within, EncoderTask.put_put, List.append_nil]
      rfl
    unfold encodeAll GroupStash.feed
    dsimp only
    rw [hg p List.mem_cons_self, s.stash_within, hstash, drainGroup_within]
    cases (s.stash p).drain X g (fecOf g) ((s.stash p).buf.length + 1) with
    | error e => rfl
    | ok s' => exact encodeAll_eq_feed task s' fun q hq => hg q (List.mem_cons_of_mem _ hq)

end Task

/-! ## What feeding keeps -/

/-- Data packets of group `g`; packets with the same `seq` are equal. -/
structure GroupPackets (g : Nat) (packets : List Packet) : Prop where
  group : ∀ q ∈ packets, q.fecGroup = g
  isData : ∀ q ∈ packets, q.isParity = false
  payload : ∀ q ∈ packets, q.payload ≠ []
  same : ∀ q ∈ packets, ∀ q' ∈ packets, q.seq = q'.seq → q = q'

theorem nodup_stashPacket {buf : List Packet} (h : (buf.map Packet.seq).Nodup) (pkt : Packet) :
    ((stashPacket buf pkt).map Packet.seq).Nodup := by
  unfold stashPacket
  split
  · next pos hpos =>
    -- the new packet has the `seq` of the one it replaces
    obtain ⟨hlt, hseq, -⟩ := List.findIdx?_eq_some_iff_getElem.mp hpos
    have hset : (buf.set pos pkt).map Packet.seq = buf.map Packet.seq := by
      have hpos : pos < (buf.map Packet.seq).length := by simpa using hlt
      have hold : (buf.map Packet.seq)[pos] = pkt.seq := by simpa using hseq
      rw [List.map_set, ← hold, List.set_getElem_self]
    rwa [hset]
  · next hnone =>
    rw [List.map_append, List.map_singleton, ← List.concat_eq_append]
    refine h.concat fun hmem => ?_
    obtain ⟨q, hq, hseq⟩ := List.mem_map.mp hmem
    simpa [hseq] using List.findIdx?_eq_none_iff.mp hnone q hq

/-- A block as it was found: the packets of the range, in any order. -/
structure FoundBlock (fec : FecEncoder) (g : Nat) (packets data : List Packet) : Prop where
  mem : ∀ q ∈ data, q ∈ packets
  seqs : (data.map Packet.seq).Perm (blockSeqs fec g)

/-- What holds of the stash of group `g` once the packets of `fed` have come. -/
structure GroupStash.Held (X : Crates) (fec : FecEncoder) (g : Nat) (packets fed : List Packet)
    (s : GroupStash) : Prop where
  mem : ∀ q ∈ s.buf, q ∈ packets
  unique : (s.buf.map Packet.seq).Nodup
  history : ∀ buf ∈ s.history, (buf.map Packet.seq).Nodup
  blocks : ∀ block ∈ s.blocks, ∃ data, block = fec.encodeBlock X data ∧
    FoundBlock fec g packets data
  kept : ∀ q ∈ fed, (∃ block ∈ s.blocks, q ∈ block) ∨ q ∈ s.buf

section Held

variable {X : Crates} {fec : FecEncoder} {g : Nat} {packets fed : List Packet} {s : GroupStash}

theorem length_blockSeqs_le (fec : FecEncoder) (g : Nat) :
    (blockSeqs fec g).length ≤ max fec.dataShards 1 := by
  simp only [blockSeqs, List.length_range', satAdd]
  omega

theorem FoundBlock.length_eq {data : List Packet} (h : FoundBlock fec g packets data) :
    data.length = (blockSeqs fec g).length := by
  simpa using h.seqs.length_eq

namespace GroupStash.Held

theorem empty : Held X fec g packets [] .empty :=
  ⟨nofun, List.nodup_nil, nofun, nofun, nofun⟩

theorem stash (hp : GroupPackets g packets) (h : s.Held X fec g packets fed) {p : Packet}
    (hmem : p ∈ packets) : (s.stash p).Held X fec g packets (fed ++ [p]) := by
  have hunique := nodup_stashPacket h.unique p
  refine ⟨fun q hq => ?_, hunique, fun buf hbuf => ?_, h.blocks, fun q hq => ?_⟩
  · rcases mem_stashPacket hq with hq | rfl
    · exact h.mem q hq
    · exact hmem
  · rcases List.mem_append.mp hbuf with hold | hnew
    · exact h.history buf hold
    · rw [List.mem_singleton.mp hnew]
      exact hunique
  · rcases List.mem_append.mp hq with hold | hnew
    · refine (h.kept q hold).imp_right fun hbuf => ?_
      by_cases hseq : q.seq = p.seq
      · rw [hp.same q (h.mem q hbuf) p hmem hseq]
        exact self_mem_stashPacket _ _
      · exact mem_stashPacket_of_ne hbuf hseq
    · rw [List.mem_singleton.mp hnew]
      exact Or.inr (self_mem_stashPacket _ _)

/-- A block leaves the buffer. -/
theorem drained (h : s.Held X fec g packets fed) {block left : List Packet}
    (hperm : s.buf.Perm (block ++ left))
    (hseqs : (block.map Packet.seq).Perm (blockSeqs fec g)) :
    Held X fec g packets fed
      ⟨left, s.blocks ++ [fec.encodeBlock X block], s.history ++ [left]⟩ := by
  have hfound : FoundBlock fec g packets block :=
    ⟨fun q hq => h.mem q (hperm.mem_iff.mpr (List.mem_append_left _ hq)), hseqs⟩
  have hunique : (left.map Packet.seq).Nodup := by
    have hall := (hperm.map Packet.seq).nodup_iff.mp h.unique
    rw [List.map_append] at hall
    exact hall.of_append_right
  refine ⟨fun q hq => h.mem q (hperm.mem_iff.mpr (List.mem_append_right _ hq)), hunique,
    fun buf hbuf => ?_, fun b hb => ?_, fun q hq => ?_⟩
  · rcases List.mem_append.mp hbuf with hold | hnew
    · exact h.history buf hold
    · rw [List.mem_singleton.mp hnew]
      exact hunique
  · rcases List.mem_append.mp hb with hold | hnew
    · exact h.blocks b hold
    · exact ⟨block, List.mem_singleton.mp hnew, hfound⟩
  · rcases h.kept q hq with ⟨b, hb, hqb⟩ | hbuf
    · exact Or.inl ⟨b, List.mem_append_left _ hb, hqb⟩
    · rcases List.mem_append.mp (hperm.mem_iff.mp hbuf) with hqb | hleft
      · refine Or.inl ⟨_, List.mem_append_right _ (List.mem_singleton.mpr rfl), ?_⟩
        exact encodeBlock_mem (hfound.length_eq ▸ length_blockSeqs_le fec g) hqb
      · exact Or.inr hleft

/-- The drain loop ends, with a packet of the block missing. -/
theorem drain (hsome : blockSeqs fec g ≠ []) :
    ∀ {fuel : Nat} {s : GroupStash}, s.Held X fec g packets fed → s.buf.length < fuel →
      ∃ s', s.drain X g fec fuel = .ok s' ∧ s'.Held X fec g packets fed ∧
        ∃ seq ∈ blockSeqs fec g, seq ∉ s'.buf.map Packet.seq
  | 0, _, _, hfuel => absurd hfuel (Nat.not_lt_zero _)
  | fuel + 1, s, h, hfuel => by
    unfold GroupStash.drain
    rcases drainFecBlockFromPackets_cases X fec g s.buf with ⟨hd, hmissing⟩ |
      ⟨block, left, hd, hperm, hseqs⟩
    · rw [hd]
      exact ⟨s, rfl, h, hmissing⟩
    · have hpos : 0 < block.length := by
        have hlen : block.length = (blockSeqs fec g).length := by simpa using hseqs.length_eq
        rw [hlen]
        exact List.length_pos_iff.mpr hsome
      have hleft : left.length < fuel := by
        have := hperm.length_eq
        rw [List.length_append] at this
        omega
      rw [hd]
      exact drain hsome (h.drained hperm hseqs) hleft

/-- All packets are taken, in any order. -/
theorem feed (hp : GroupPackets g packets) (hsome : blockSeqs fec g ≠ []) :
    ∀ {arriving fed : List Packet} {s : GroupStash}, (∀ p ∈ arriving, p ∈ packets) →
      s.Held X fec g packets fed →
      ∃ s', s.feed X g fec arriving = .ok s' ∧ s'.Held X fec g packets (fed ++ arriving) ∧
        (arriving ≠ [] → ∃ seq ∈ blockSeqs fec g, seq ∉ s'.buf.map Packet.seq)
  | [], fed, s, _, h => ⟨s, rfl, by rwa [List.append_nil], fun hne => absurd rfl hne⟩
  | p :: rest, fed, s, hsub, h => by
    obtain ⟨s₁, hd, h₁, hmissing⟩ :=
      (h.stash hp (hsub p List.mem_cons_self)).drain hsome (Nat.lt_add_one _)
    obtain ⟨s₂, hrec, h₂, hlast⟩ :=
      feed hp hsome (fun q hq => hsub q (List.mem_cons_of_mem _ hq)) h₁
    refine ⟨s₂, ?_, ?_, fun _ => ?_⟩
    · unfold GroupStash.feed
      rw [hd]
      exact hrec
    · rwa [List.append_assoc, List.singleton_append] at h₂
    · cases rest with
      | nil =>
        cases hrec
        exact hmissing
      | cons q rest => exact hlast (List.cons_ne_nil q rest)

end GroupStash.Held

/-- Where no packet is looked for, the drain loop finds empty blocks for ever. -/
theorem GroupStash.drain_endless (hnone : blockSeqs fec g = []) :
    ∀ (fuel : Nat) (s : GroupStash), s.drain X g fec fuel = .error .outOfFuel
  | 0, _ => rfl
  | fuel + 1, s => by
    unfold GroupStash.drain
    rcases drainFecBlockFromPackets_cases X fec g s.buf with ⟨-, seq, hmem, -⟩ |
      ⟨block, left, hd, -, -⟩
    · rw [hnone] at hmem
      cases hmem
    · rw [hd]
      exact drain_endless hnone fuel _

end Held

/-! ## Blocks -/

/-- Reed–Solomon accepts the dimensions and encodes every block; bincode encodes descriptors. -/
structure Crates.Encodes (X : Crates) (n p : Nat) : Prop where
  new_ok : X.rsNew n p = true
  encode_ok : ∀ {data : List Bytes} {len : Nat}, IsBlock data n len →
    (X.rsEncode n p (encodeInput data p len)).isSome = true
  descriptor_ok : ∀ desc, (X.encodeDescriptor desc).isSome = true

section Blocks

variable {X : Crates} {fec : FecEncoder} {g : Nat} {packets : List Packet}

/-- Too few packets are not encoded. -/
theorem encodeBlock_short {data : List Packet} (h : data.length < max fec.dataShards 1) :
    fec.encodeBlock X data = data := by
  unfold FecEncoder.encodeBlock
  dsimp only
  split
  · next hnil => exact hnil.symm
  · rw [if_pos (Or.inr h)]

theorem maxPayload_pos {block : List Packet} {q : Packet} (hq : q ∈ block)
    (hpay : q.payload ≠ []) : 0 < maxPayload block := by
  have hle : q.payload.length ≤ maxPayload block :=
    le_foldl_max (Or.inl (List.mem_map_of_mem hq))
  have hpos := List.length_pos_iff.mpr hpay
  omega

theorem isSome_parityPacket (hX : ∀ desc, (X.encodeDescriptor desc).isSome = true)
    (block : List Packet) (n p : Nat) (shards : List Bytes) (i : Nat) :
    (parityPacket X block n p shards i).isSome = true := by
  unfold parityPacket frameFecWireShard frame
  dsimp only
  split
  · next hnone =>
    split at hnone
    · next hdesc => exact absurd hdesc (Option.isSome_iff_ne_none.mp (hX _))
    · cases hnone
  · rfl

/-- The parity of a whole block is a function of the sorted block. -/
theorem encodeBlock_whole (hn : 1 ≤ fec.dataShards) (hp : 1 ≤ fec.parityShards)
    (hX : X.Encodes fec.dataShards fec.parityShards) {block : List Packet}
    (hlen : block.length = fec.dataShards) (hpay : ∀ q ∈ block, q.payload ≠ []) :
    ∃ parity : List Packet, parity.length = fec.parityShards ∧
      (∀ q ∈ parity, q.isParity = true) ∧
      ∀ data : List Packet, data.length = fec.dataShards →
        sortBlock fec.dataShards data = block → fec.encodeBlock X data = block ++ parity := by
  have hmax : max fec.dataShards 1 = fec.dataShards := Nat.max_eq_left hn
  obtain ⟨q, hq⟩ := List.exists_mem_of_length_pos (by omega : 0 < block.length)
  have hpos : 0 < maxPayload block := maxPayload_pos hq (hpay q hq)
  have hblock : IsBlock (block.map fun q => resize q.payload (maxPayload block)) fec.dataShards
      (maxPayload block) := by
    refine ⟨by simpa using hlen, hpos, fun r hr => ?_⟩
    obtain ⟨q, -, rfl⟩ := List.mem_map.mp hr
    exact length_resize _ _
  obtain ⟨shards, hshards⟩ := Option.isSome_iff_exists.mp (hX.encode_ok hblock)
  have hsome : ∀ r ∈ (List.range fec.parityShards).map
      (parityPacket X block fec.dataShards fec.parityShards shards), r.isSome = true := by
    intro r hr
    obtain ⟨i, -, rfl⟩ := List.mem_map.mp hr
    exact isSome_parityPacket hX.descriptor_ok _ _ _ _ _
  refine ⟨((List.range fec.parityShards).map
    (parityPacket X block fec.dataShards fec.parityShards shards)).reduceOption, ?_, ?_, ?_⟩
  · rw [List.reduceOption_length_eq_iff.mpr hsome, List.length_map, List.length_range]
  · intro q hq
    obtain ⟨i, -, hi⟩ := List.mem_map.mp ((List.reduceOption_mem_iff).mp hq)
    exact (parityPacket_spec hi).1
  · intro data hdata hsort
    have hne : data ≠ [] := by
      rintro rfl
      simp at hdata
      omega
    unfold FecEncoder.encodeBlock
    dsimp only
    rw [hmax, if_neg hne, if_neg (by omega), hsort, if_neg (by omega), if_neg (by simp [hX.new_ok]),
      hshards]
    exact if_pos (List.all_eq_true.mpr hsome)

/-- A packet of the list by its `seq`. -/
def packetAt (packets : List Packet) (seq : Nat) : Option Packet :=
  packets.find? fun q => q.seq == seq

theorem GroupPackets.packetAt_seq (hp : GroupPackets g packets) {q : Packet} (hq : q ∈ packets) :
    packetAt packets q.seq = some q := by
  cases hfind : packetAt packets q.seq with
  | none => simpa using List.find?_eq_none.mp hfind q hq
  | some q' =>
    have hseq : q'.seq = q.seq := by simpa using List.find?_some hfind
    rw [hp.same q' (List.mem_of_find?_eq_some hfind) q hq hseq]

/-- All the ways to find a whole block give the same sorted block. -/
theorem FoundBlock.sortBlock_eq (hp : GroupPackets g packets)
    (hfull : blockSeqs fec g = List.range' (g * fec.dataShards) fec.dataShards)
    {data data' : List Packet} (h : FoundBlock fec g packets data)
    (h' : FoundBlock fec g packets data') :
    sortBlock fec.dataShards data = sortBlock fec.dataShards data' := by
  -- the packets are those that belong to the numbers of the group, in this order
  have hnumbered : ∀ {data : List Packet}, FoundBlock fec g packets data →
      (sortBlock fec.dataShards data).map some =
        (List.range' (g * fec.dataShards) fec.dataShards).map (packetAt packets) := by
    intro data h
    rw [← map_seq_sortBlock (hfull ▸ h.seqs), List.map_map]
    refine List.map_congr_left fun q hq => ?_
    have hmem : q ∈ packets := h.mem q (List.mem_of_mem_take (mem_sortBlock.mp hq))
    exact (hp.packetAt_seq hmem).symm
  exact List.map_injective_iff.mpr (Option.some_injective Packet)
    ((hnumbered h).trans (hnumbered h').symm)

end Blocks

/-! ## Order -/

/-- What a receiver uses of a parity packet. -/
def Packet.parityView (q : Packet) : Bytes × Nat × Nat := (q.payload, q.parityIndex, q.fecGroup)

/-- Data packets in ascending order, and then the given parity. -/
structure BlockOf (packets : List Packet) (parity : List (Bytes × Nat × Nat))
    (block data par : List Packet) : Prop where
  split : block = data ++ par
  mem : ∀ q ∈ data, q ∈ packets
  ascending : data.Pairwise fun a b => a.seq < b.seq
  isParity : ∀ q ∈ par, q.isParity = true
  view : par.map Packet.parityView = parity

/-- The blocks, the stash and the packets that have come, for a group with this parity. -/
structure GroupStash.Settled (packets : List Packet) (parity : List (Bytes × Nat × Nat))
    (fed : List Packet) (s : GroupStash) : Prop where
  blocks : ∀ block ∈ s.blocks, ∃ data par, BlockOf packets parity block data par
  unique : ∀ buf ∈ s.history, (buf.map Packet.seq).Nodup
  kept : ∀ q ∈ fed, (∃ block ∈ s.blocks, q ∈ block) ∨ q ∈ s.buf

/--
One list of parity fits every block, in every order of the packets; after each packet the drain
loop has ended and nothing is lost.
-/
def OrderFree (X : Crates) (fec : FecEncoder) (g : Nat) (packets : List Packet) : Prop :=
  ∃ parity : List (Bytes × Nat × Nat), parity.length = fec.parityShards ∧
    ∀ arrived : List Packet, arrived.Perm packets → ∀ fed : List Packet, fed <+: arrived →
      ∃ s, GroupStash.empty.feed X g fec fed = .ok s ∧ s.Settled packets parity fed

/--
The group reaches the largest number, and the list holds all its packets before that one (of which
there may be none).
-/
def CutBlock (fec : FecEncoder) (g : Nat) (packets : List Packet) : Prop :=
  u64Max < (g + 1) * fec.dataShards ∧ packets ≠ [] ∧
    ∀ seq, g * fec.dataShards ≤ seq → seq < u64Max → seq ∈ packets.map Packet.seq

section Order

variable {X : Crates} {fec : FecEncoder} {g : Nat} {packets : List Packet}

/-- A group that ends before the largest number is looked for as a whole. -/
theorem blockSeqs_whole (hn : 1 ≤ fec.dataShards) (h : (g + 1) * fec.dataShards ≤ u64Max) :
    blockSeqs fec g = List.range' (g * fec.dataShards) fec.dataShards := by
  rw [Nat.add_mul, Nat.one_mul] at h
  have hbase : satMul g fec.dataShards = g * fec.dataShards := by
    unfold satMul
    omega
  have hstop : satAdd (g * fec.dataShards) fec.dataShards - g * fec.dataShards =
      fec.dataShards := by
    unfold satAdd
    omega
  rw [blockSeqs, Nat.max_eq_left hn, hbase, hstop]

/-- Of the other groups, a drain looks for less than a block. -/
theorem mem_blockSeqs_cut (hn : 1 ≤ fec.dataShards) (h : u64Max < (g + 1) * fec.dataShards)
    {seq : Nat} : seq ∈ blockSeqs fec g ↔ g * fec.dataShards ≤ seq ∧ seq < u64Max := by
  rw [Nat.add_mul, Nat.one_mul] at h
  simp only [blockSeqs, Nat.max_eq_left hn, List.mem_range'_1, satMul, satAdd]
  omega

theorem length_blockSeqs_cut (hn : 1 ≤ fec.dataShards) (h : u64Max < (g + 1) * fec.dataShards) :
    (blockSeqs fec g).length < fec.dataShards := by
  rw [Nat.add_mul, Nat.one_mul] at h
  simp only [blockSeqs, Nat.max_eq_left hn, List.length_range', satMul, satAdd]
  omega

/-- Parity of no block at all: any list of the right length will do. -/
theorem exists_parity_of_none (h : ∀ data₀, ¬FoundBlock fec g packets data₀) :
    ∃ parity : List (Bytes × Nat × Nat), parity.length = fec.parityShards ∧
      ∀ data₀, FoundBlock fec g packets data₀ →
        ∃ data par, BlockOf packets parity (fec.encodeBlock X data₀) data par :=
  ⟨List.replicate fec.parityShards ([], 0, 0), List.length_replicate,
    fun data₀ hfound => absurd hfound (h data₀)⟩

/-- One list of parity fits every block that can be found. -/
theorem exists_parity (hn : 1 ≤ fec.dataShards) (hp : 1 ≤ fec.parityShards)
    (hX : X.Encodes fec.dataShards fec.parityShards) (hg : GroupPackets g packets)
    (hfull : blockSeqs fec g = List.range' (g * fec.dataShards) fec.dataShards) :
    ∃ parity : List (Bytes × Nat × Nat), parity.length = fec.parityShards ∧
      ∀ data₀, FoundBlock fec g packets data₀ →
        ∃ data par, BlockOf packets parity (fec.encodeBlock X data₀) data par := by
  by_cases hany : ∃ data₀, FoundBlock fec g packets data₀
  · obtain ⟨data₀, h₀⟩ := hany
    have hwhole : ∀ {data : List Packet}, FoundBlock fec g packets data →
        data.length = fec.dataShards := by
      intro data h
      rw [h.length_eq, hfull, List.length_range']
    have hmem : ∀ q ∈ sortBlock fec.dataShards data₀, q ∈ packets := fun q hq =>
      h₀.mem q (List.mem_of_mem_take (mem_sortBlock.mp hq))
    have hseqs := map_seq_sortBlock (hfull ▸ h₀.seqs)
    have hlen : (sortBlock fec.dataShards data₀).length = fec.dataShards := by
      simpa using congrArg List.length hseqs
    obtain ⟨par, hpar, hparity, hencode⟩ :=
      encodeBlock_whole hn hp hX hlen fun q hq => hg.payload q (hmem q hq)
    refine ⟨par.map Packet.parityView, by rw [List.length_map, hpar], fun data h => ?_⟩
    refine ⟨sortBlock fec.dataShards data₀, par, ?_, hmem, ?_, hparity, rfl⟩
    · exact hencode data (hwhole h) (h.sortBlock_eq hg hfull h₀)
    · rw [← List.pairwise_map (f := Packet.seq) (R := (· < ·)), hseqs]
      exact List.pairwise_lt_range'
  · exact exists_parity_of_none fun data h => hany ⟨data, h⟩

/-- If every block that can be found is encoded with one parity, the order does not matter. -/
theorem OrderFree.of_parity (hg : GroupPackets g packets) (hsome : blockSeqs fec g ≠ [])
    (hparity : ∃ parity : List (Bytes × Nat × Nat), parity.length = fec.parityShards ∧
      ∀ data₀, FoundBlock fec g packets data₀ →
        ∃ data par, BlockOf packets parity (fec.encodeBlock X data₀) data par) :
    OrderFree X fec g packets := by
  obtain ⟨parity, hlen, hblocks⟩ := hparity
  refine ⟨parity, hlen, fun arrived harrived fed hfed => ?_⟩
  have hsub : ∀ q ∈ fed, q ∈ packets := fun q hq => harrived.mem_iff.mp (hfed.subset hq)
  obtain ⟨s, hs, hheld, -⟩ := GroupStash.Held.feed (X := X) hg hsome hsub .empty
  refine ⟨s, hs, fun block hblock => ?_, hheld.history, by simpa using hheld.kept⟩
  obtain ⟨data₀, rfl, hfound⟩ := hheld.blocks block hblock
  exact hblocks data₀ hfound

theorem orderFree_nil : OrderFree X fec g [] := by
  refine ⟨List.replicate fec.parityShards ([], 0, 0), List.length_replicate, ?_⟩
  intro arrived harrived fed hfed
  rw [harrived.eq_nil, List.prefix_nil] at hfed
  subst hfed
  exact ⟨.empty, rfl, nofun, nofun, nofun⟩

theorem orderFree_of_not_cutBlock (hn : 1 ≤ fec.dataShards) (hp : 1 ≤ fec.parityShards)
    (hX : X.Encodes fec.dataShards fec.parityShards) (hg : GroupPackets g packets)
    (hcut : ¬CutBlock fec g packets) : OrderFree X fec g packets := by
  rcases Nat.lt_or_ge u64Max ((g + 1) * fec.dataShards) with hlast | hwhole
  · by_cases hnil : packets = []
    · rw [hnil]
      exact orderFree_nil
    · -- one of the packets is missing, so there is no block at all
      have hmissing : ∃ seq ∈ blockSeqs fec g, seq ∉ packets.map Packet.seq := by
        by_contra hall
        refine hcut ⟨hlast, hnil, fun seq hle hlt => ?_⟩
        by_contra hnot
        exact hall ⟨seq, (mem_blockSeqs_cut hn hlast).mpr ⟨hle, hlt⟩, hnot⟩
      obtain ⟨seq, hseq, hnot⟩ := hmissing
      refine .of_parity hg (List.ne_nil_of_mem hseq) (exists_parity_of_none fun data h => ?_)
      obtain ⟨q, hq, rfl⟩ := List.mem_map.mp (h.seqs.mem_iff.mpr hseq)
      exact hnot (List.mem_map_of_mem (h.mem q hq))
  · have hfull := blockSeqs_whole hn hwhole
    refine .of_parity hg ?_ (exists_parity hn hp hX hg hfull)
    rw [hfull, ← List.length_pos_iff, List.length_range']
    omega

/-- The packets before the largest number come out as they are, or the loop does not end. -/
theorem CutBlock.not_orderFree (hn : 1 ≤ fec.dataShards) (hp : 1 ≤ fec.parityShards)
    (hg : GroupPackets g packets) (hcut : CutBlock fec g packets) :
    ¬OrderFree X fec g packets := by
  rintro ⟨parity, hlen, horder⟩
  obtain ⟨hlast, hne, hall⟩ := hcut
  obtain ⟨s, hs, hsettled⟩ := horder packets (.refl _) packets (List.prefix_refl _)
  by_cases hnone : blockSeqs fec g = []
  · cases packets with
    | nil => exact hne rfl
    | cons p rest =>
      unfold GroupStash.feed at hs
      rw [GroupStash.drain_endless hnone] at hs
      cases hs
  · obtain ⟨s', hs', hheld, hmissing⟩ :=
      GroupStash.Held.feed (X := X) hg hnone (fun q hq => hq) .empty
    obtain rfl : s = s' := Except.ok.inj (hs.symm.trans hs')
    -- a packet that left the stash is in a block, and the block is too short
    obtain ⟨seq, hseq, hnot⟩ := hmissing hne
    obtain ⟨hle, hlt⟩ := (mem_blockSeqs_cut hn hlast).mp hseq
    obtain ⟨q, hq, rfl⟩ := List.mem_map.mp (hall seq hle hlt)
    rcases hsettled.kept q hq with ⟨block, hblock, -⟩ | hbuf
    · obtain ⟨data₀, hencode, hfound⟩ := hheld.blocks block hblock
      have hshort : data₀.length < max fec.dataShards 1 := by
        rw [hfound.length_eq, Nat.max_eq_left hn]
        exact length_blockSeqs_cut hn hlast
      obtain ⟨data, par, hblockOf⟩ := hsettled.blocks block hblock
      have hpar : 0 < par.length := by
        have := congrArg List.length hblockOf.view
        rw [List.length_map] at this
        omega
      obtain ⟨r, hr⟩ := List.exists_mem_of_length_pos hpar
      have hdata : r ∈ data₀ := by
        rw [← encodeBlock_short (X := X) hshort, ← hencode, hblockOf.split]
        exact List.mem_append_right _ hr
      have hparity := hblockOf.isParity r hr
      rw [hg.isData r (hfound.mem r hdata)] at hparity
      cases hparity
    · exact hnot (List.mem_map_of_mem hbuf)

end Order

/-- A group whose numbers stay below `2 ^ 64 - data_shards` is not cut. -/
theorem not_cutBlock_of_seq_lt {fec : FecEncoder} {g : Nat} {packets : List Packet}
    (hgroup : ∀ q ∈ packets, q.seq / fec.dataShards = g)
    (hseq : ∀ q ∈ packets, q.seq < 2 ^ 64 - fec.dataShards) : ¬CutBlock fec g packets := by
  rintro ⟨hlast, hne, -⟩
  obtain ⟨q, hq⟩ := List.exists_mem_of_ne_nil packets hne
  have hbase : g * fec.dataShards ≤ q.seq := by
    rw [← hgroup q hq]
    exact Nat.div_mul_le_self _ _
  have hlt := hseq q hq
  rw [Nat.add_mul, Nat.one_mul, u64Max] at hlast
  omega

/-- **Parity does not depend on the order of arrival, except where the numbering ends.** -/
theorem parity_order_free_iff (X : Crates) (fec : FecEncoder) (g : Nat) (packets : List Packet)
    (hn : 1 ≤ fec.dataShards) (hp : 1 ≤ fec.parityShards)
    (hX : X.Encodes fec.dataShards fec.parityShards) (hg : GroupPackets g packets) :
    OrderFree X fec g packets ↔ ¬CutBlock fec g packets :=
  ⟨fun h hcut => hcut.not_orderFree hn hp hg h, orderFree_of_not_cutBlock hn hp hX hg⟩

theorem Crates.reference_encodes : Crates.reference.Encodes 2 1 where
  new_ok := rfl
  encode_ok := by
    intro data len h
    obtain ⟨a, b, rfl, -, -⟩ := h.two
    rfl
  descriptor_ok := fun _ => rfl

/-- Both packets of the sample's group come twice, and give two blocks. -/
theorem sample_order_free :
    (GroupStash.empty.feed Crates.reference 0 ⟨2, 1⟩ (samplePackets ++ samplePackets)).map
        (fun s => s.blocks.length) = .ok 2 ∧
      OrderFree Crates.reference ⟨2, 1⟩ 0 (samplePackets ++ samplePackets) := by
  have hpackets : GroupPackets 0 (samplePackets ++ samplePackets) :=
    ⟨by decide +kernel, by decide +kernel, by decide +kernel, by decide +kernel⟩
  refine ⟨by decide +kernel, ?_⟩
  exact (parity_order_free_iff _ ⟨2, 1⟩ 0 _ (by decide) (by decide) Crates.reference_encodes
    hpackets).mpr (not_cutBlock_of_seq_lt (by decide +kernel) (by decide +kernel))

/-- The last group of four; its packet `2 ^ 64 - 1` is still to come. -/
def lastPackets : List Packet :=
  [2 ^ 64 - 4, 2 ^ 64 - 3, 2 ^ 64 - 2].map fun seq =>
    { id := seq
      seq := seq
      payload := [1]
      isParity := false
      info := ⟨seq, 1, none, 1⟩
      fecGroup := 2 ^ 62 - 1
      reconstructable := false
      parityIndex := 0 }

theorem lastPackets_group : GroupPackets (2 ^ 62 - 1) lastPackets :=
  ⟨by decide +kernel, by decide +kernel, by decide +kernel, by decide +kernel⟩

theorem lastPackets_cut : CutBlock ⟨4, 1⟩ (2 ^ 62 - 1) lastPackets := by
  refine ⟨by decide, by decide, fun seq hle hlt => ?_⟩
  simp only [lastPackets, List.map_map, List.mem_map, List.mem_cons, u64Max] at hle hlt ⊢
  refine ⟨seq, ?_, rfl⟩
  simp
  omega

/-- Whatever the coder, the three packets go out in descending order and without parity. -/
theorem last_group_unsorted :
    GroupPackets (2 ^ 62 - 1) lastPackets ∧
      ∀ X : Crates,
        (GroupStash.empty.feed X (2 ^ 62 - 1) ⟨4, 1⟩ lastPackets).map (fun s => s.blocks) =
          .ok [lastPackets.reverse] ∧
        ¬OrderFree X ⟨4, 1⟩ (2 ^ 62 - 1) lastPackets := by
  refine ⟨lastPackets_group, fun X => ⟨?_, ?_⟩⟩
  · rfl
  · exact lastPackets_cut.not_orderFree (by decide) (by decide) lastPackets_group

end ScTransport
