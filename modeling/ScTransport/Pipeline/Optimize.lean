import ScTransport.Fec.Encoder
import Mathlib.Algebra.Order.BigOperators.Group.List
import Mathlib.Data.List.Dedup
import Mathlib.Logic.Function.Basic

/-!
# The block optimiser

`AutopilotRuntime::optimize_transfer` reorders a batch before it is encoded. It drops the
packets of completed groups, repeatedly picks the block its utilities rank first and takes one
to three of its shards, some of them twice, and finally drains whatever is left.

Utilities, completion estimates and hash-map orders are floats, clocks and seeds; the model
takes them from `Utilities`, about which nothing is assumed.

* `optLoop_spec` — the loop ends within one turn per shard
* `optimizeTransfer_spec` — a packet comes out exactly if it went in and its group is not
  completed
-/

namespace ScTransport

open Infra

/-! ## Blocks and decisions -/

structure Block where
  id : Nat
  totalShards : Nat
  requiredShards : Nat
  sentShards : Nat
  receivedAcks : Nat
  inFlight : Nat
  deriving DecidableEq

def Block.isComplete (b : Block) : Bool := decide (b.requiredShards ≤ b.receivedAcks)

/-- `optimization::remaining_data_shards`. -/
def Block.remainingDataShards (b : Block) : Nat :=
  b.requiredShards - max b.receivedAcks (min b.sentShards b.requiredShards)

structure SchedulingDecision where
  additionalShards : Nat
  duplicate : Bool
  panicMode : Bool
  deriving DecidableEq

/-- What the pipeline reads of the runtime besides its estimates; `paths` is their number. -/
structure AutopilotRuntime where
  fec : FecEncoder
  completionFirstEnabled : Bool
  completedBlocks : List Nat
  paths : Nat

/-- The answers of everything that is a float, a clock, a seed or a hash order. -/
structure Utilities where
  /-- Order in which `by_block` is visited. -/
  groupLe : Nat → Nat → Bool
  /-- Order in which the encoder's stash is visited. -/
  stashLe : Nat → Nat → Bool
  /-- Order of the blocks by utility, given what is scheduled already. -/
  blockLe : List Packet → Block → Block → Bool
  /-- Order of the blocks by estimated completion time, slowest first. -/
  slower : List Packet → Block → Block → Bool
  /-- Whether sending a shard twice beats sending it once. -/
  dupPays : List Packet → Packet → Block → Bool
  /-- The deadline assumed for a packet without one when it is compared with another. -/
  later : Packet → Packet → Nat
  /-- Order of the paths by utility for the `k`-th encoded packet. -/
  pathLe : Nat → Nat → Nat → Bool
  /-- Whether the `k`-th packet explores the second-best path. -/
  explore : Nat → Bool
  /-- The deadline stamped on the `k`-th packet. -/
  deadline : Nat → Nat
  /-- Whether the `k`-th packet goes out on a second path too. -/
  sendTwice : Nat → Bool

/-- Why a run can stop short: a loop out of fuel, or an index out of range, where Rust panics. -/
inductive Fault where
  | outOfFuel
  | outOfRange
  deriving DecidableEq

section Model

variable (A : AutopilotRuntime) (U : Utilities)

/-- The keys of a map from group to packets, in the order `le` visits them. -/
def groupKeys (le : Nat → Nat → Bool) (packets : List Packet) : List Nat :=
  ((packets.map Packet.fecGroup).dedup).insertionSort fun a b => le a b

/-- `AutopilotRuntime::blocks_from_packets`. -/
def blocksFromPackets (packets : List Packet) : List Block :=
  (groupKeys U.groupLe packets).map fun id =>
    let shards := (packets.filter fun q => q.fecGroup = id).length
    { id := id
      totalShards := shards
      requiredShards := max (shards - A.fec.parityShards) 1
      sentShards := min shards A.fec.dataShards
      receivedAcks := if id ∈ A.completedBlocks then u64Max / 2 else 0
      inFlight := 0 }

/-- `AutopilotRuntime::detect_stragglers`: the slowest twentieth, at least one, at most four. -/
def detectStragglers (out : List Packet) (blocks : List Block) : List Nat :=
  let k := min (min (max ((blocks.length + 19) / 20) 1) 4) blocks.length
  ((blocks.insertionSort fun a b => U.slower out a b).take k).map Block.id

/-- `AutopilotRuntime::schedule_block`. -/
def scheduleBlock (block : Block) (isStraggler : Bool) : SchedulingDecision :=
  if block.isComplete then ⟨0, false, false⟩
  else if A.completionFirstEnabled && isStraggler then ⟨3, true, true⟩
  else if block.remainingDataShards ≤ 2 then ⟨2, true, false⟩
  else
    let missing := block.requiredShards - (block.sentShards + block.inFlight)
    let extra := if A.completionFirstEnabled then 1 else 0
    ⟨min (max (missing + extra) 1) 3, false, false⟩

/-! ## The loop -/

/-- `shards` is `by_block`, with the empty list for a missing key. -/
structure OptState where
  blocks : List Block
  shards : Nat → List Packet
  out : List Packet

/-- Takes up to `n` shards off the back of a block's list. -/
def sendShards (decision : SchedulingDecision) :
    Nat → Block → List Packet → List Packet → Block × List Packet × List Packet
  | 0, block, shards, out => (block, shards, out)
  | n + 1, block, shards, out =>
    match shards.getLast? with
    | none => sendShards decision n block shards out
    | some pkt =>
      let twice := decision.duplicate && (decision.panicMode || U.dupPays out pkt block)
      sendShards decision n
        { block with sentShards := block.sentShards + 1, inFlight := block.inFlight + 1 }
        shards.dropLast (out ++ (if twice then [pkt, pkt] else [pkt]))

/-- One turn of the loop, and whether there is another one. -/
def optIteration (st : OptState) : Except Fault (OptState × Bool) :=
  let blocks := st.blocks.insertionSort fun a b => U.blockLe st.out a b
  let stragglerIds := detectStragglers U st.out blocks
  match blocks.findIdx? fun b => !b.isComplete && !(st.shards b.id).isEmpty with
  | none => .ok ({ st with blocks := blocks }, false)
  | some nextIdx =>
    match blocks[nextIdx]? with
    | none => .error .outOfRange
    | some block =>
      let decision := scheduleBlock A block (stragglerIds.contains block.id)
      if decision.additionalShards = 0 then .ok ({ st with blocks := blocks }, false)
      -- every shard is rated on the best path, `utils_paths[0]`
      else if A.paths = 0 then .error .outOfRange
      else
        let sent := sendShards U decision decision.additionalShards block (st.shards block.id)
          st.out
        let blocks := blocks.set nextIdx sent.1
        let shards := Function.update st.shards block.id sent.2.1
        .ok ({ blocks := blocks, shards := shards, out := sent.2.2 },
          !(blocks.all fun b => b.isComplete || (shards b.id).isEmpty))

def optLoop : Nat → OptState → Except Fault OptState
  | 0, _ => .error .outOfFuel
  | fuel + 1, st =>
    match optIteration A U st with
    | .error e => .error e
    | .ok (st', false) => .ok st'
    | .ok (st', true) => optLoop fuel st'

/-- The packets of groups that are still open. -/
def keptPackets (packets : List Packet) : List Packet :=
  packets.filter fun q => !A.completedBlocks.contains q.fecGroup

def optStart (kept : List Packet) : OptState :=
  { blocks := blocksFromPackets A U kept
    shards := fun g => kept.filter fun q => q.fecGroup = g
    out := [] }

/-- Number of shards still in `by_block`. -/
def OptState.left (keys : List Nat) (st : OptState) : Nat :=
  (keys.map fun g => (st.shards g).length).sum

/-- The packets `AutopilotRuntime::optimize_transfer` returns. -/
def optimizeTransfer (packets : List Packet) : Except Fault (List Packet) :=
  if A.completionFirstEnabled = false then .ok packets
  else
    let kept := keptPackets A packets
    let keys := groupKeys U.groupLe kept
    let start := optStart A U kept
    match optLoop A U (start.left keys + 1) start with
    | .error e => .error e
    -- the safety net: what the loop left behind goes out as well
    | .ok st => .ok (st.out ++ keys.flatMap fun g => (st.shards g).reverse)

end Model

/-! ## What one turn does -/

variable {A : AutopilotRuntime} {U : Utilities}

theorem mem_groupKeys {le : Nat → Nat → Bool} {packets : List Packet} {g : Nat} :
    g ∈ groupKeys le packets ↔ ∃ q ∈ packets, q.fecGroup = g := by
  unfold groupKeys
  rw [List.mem_insertionSort, List.mem_dedup, List.mem_map]

theorem mem_keptPackets {packets : List Packet} {q : Packet} :
    q ∈ keptPackets A packets ↔ q ∈ packets ∧ q.fecGroup ∉ A.completedBlocks := by
  simp [keptPackets]

/-- `sendShards` moves the last `n` shards to the output, each at least once. -/
theorem sendShards_spec (decision : SchedulingDecision) :
    ∀ (n : Nat) (block : Block) (shards out : List Packet),
      (sendShards U decision n block shards out).2.1 = shards.take (shards.length - n) ∧
      ∀ q, q ∈ (sendShards U decision n block shards out).2.2 ↔
        q ∈ out ∨ q ∈ shards.drop (shards.length - n)
  | 0, block, shards, out => by simp [sendShards]
  | n + 1, block, shards, out => by
    unfold sendShards
    rcases List.eq_nil_or_concat shards with rfl | ⟨front, pkt, rfl⟩
    · have ih := sendShards_spec decision n block [] out
      simpa using ih
    · simp only [List.concat_eq_append, List.getLast?_concat, List.dropLast_concat,
        List.length_append, List.length_singleton, Nat.add_sub_add_right]
      obtain ⟨ih₁, ih₂⟩ := sendShards_spec decision n
        { block with sentShards := block.sentShards + 1, inFlight := block.inFlight + 1 } front
        (out ++ if (decision.duplicate && (decision.panicMode || U.dupPays out pkt block)) = true
          then [pkt, pkt] else [pkt])
      refine ⟨?_, fun q => ?_⟩
      · rw [ih₁, List.take_append_of_le_length (Nat.sub_le _ _)]
      · rw [ih₂, List.drop_append_of_le_length (Nat.sub_le _ _)]
        have hpkt : q ∈ (if (decision.duplicate &&
            (decision.panicMode || U.dupPays out pkt block)) = true
            then [pkt, pkt] else [pkt]) ↔ q = pkt := by
          split <;> simp
        simp only [List.mem_append, hpkt, List.mem_singleton]
        tauto

/--
One turn either stops and leaves the shards alone, or takes the last `n ≥ 1` shards of some
block that has any.
-/
theorem optIteration_cases {st st' : OptState} {more : Bool}
    (h : optIteration A U st = .ok (st', more)) :
    (more = false ∧ st'.shards = st.shards ∧ st'.out = st.out) ∨
    ∃ g n, 0 < n ∧ st.shards g ≠ [] ∧
      st'.shards = Function.update st.shards g
        ((st.shards g).take ((st.shards g).length - n)) ∧
      ∀ q, q ∈ st'.out ↔ q ∈ st.out ∨ q ∈ (st.shards g).drop ((st.shards g).length - n) := by
  unfold optIteration at h
  simp only [] at h
  split at h
  · cases h
    exact Or.inl ⟨rfl, rfl, rfl⟩
  · next i hi =>
    split at h
    · cases h
    · next block hblock =>
      split at h
      · cases h
        exact Or.inl ⟨rfl, rfl, rfl⟩
      · next hpos =>
        split at h
        · cases h
        · cases h
          refine Or.inr ⟨block.id, _, Nat.pos_of_ne_zero hpos, ?_,
            congrArg (Function.update st.shards block.id) (sendShards_spec _ _ _ _ _).1,
            (sendShards_spec _ _ _ _ _).2⟩
          obtain ⟨hlt, hsel, -⟩ := List.findIdx?_eq_some_iff_getElem.mp hi
          rw [List.getElem?_eq_getElem hlt, Option.some.injEq] at hblock
          rw [hblock] at hsel
          simp only [Bool.and_eq_true, Bool.not_eq_true', List.isEmpty_eq_false_iff] at hsel
          exact hsel.2

/-- A turn fails only for want of a path. -/
theorem optIteration_ok (hpaths : 0 < A.paths) (st : OptState) :
    ∃ r, optIteration A U st = .ok r := by
  unfold optIteration
  simp only []
  split
  · exact ⟨_, rfl⟩
  · next i hi =>
    obtain ⟨hlt, -, -⟩ := List.findIdx?_eq_some_iff_getElem.mp hi
    rw [List.getElem?_eq_getElem hlt]
    simp only []
    split
    · exact ⟨_, rfl⟩
    · rw [if_neg (by omega)]
      exact ⟨_, rfl⟩

/-! ## What the loop does -/

/-- Every packet of the batch is either scheduled or still among its group's shards. -/
structure OptState.Accounts (kept : List Packet) (st : OptState) : Prop where
  group : ∀ {g : Nat} {q : Packet}, q ∈ st.shards g → q.fecGroup = g
  mem : ∀ q, q ∈ kept ↔ q ∈ st.out ∨ q ∈ st.shards q.fecGroup

section Loop

variable {kept : List Packet} {st st' : OptState} {more : Bool}

theorem optStart_accounts (kept : List Packet) : (optStart A U kept).Accounts kept where
  group := by
    intro g q hq
    simp only [optStart, List.mem_filter, decide_eq_true_eq] at hq
    exact hq.2
  mem := by
    intro q
    simp [optStart]

theorem optIteration_accounts (hst : st.Accounts kept)
    (h : optIteration A U st = .ok (st', more)) : st'.Accounts kept := by
  rcases optIteration_cases h with ⟨-, hshards, hout⟩ | ⟨g, n, hn, hne, hshards, hout⟩
  · exact ⟨fun hq => hst.group (hshards ▸ hq), by rw [hshards, hout]; exact hst.mem⟩
  · refine ⟨fun {g'} {q} hq => ?_, fun q => ?_⟩
    · rw [hshards] at hq
      by_cases hg : g' = g
      · subst hg
        rw [Function.update_self] at hq
        exact hst.group (List.mem_of_mem_take hq)
      · rw [Function.update_of_ne hg] at hq
        exact hst.group hq
    · rw [hst.mem, hout, hshards]
      -- the shards of `g` are split in two, the other groups are untouched
      by_cases hg : q.fecGroup = g
      · subst hg
        rw [Function.update_self]
        conv_lhs => rw [← List.take_append_drop ((st.shards q.fecGroup).length - n)
          (st.shards q.fecGroup), List.mem_append]
        tauto
      · rw [Function.update_of_ne hg]
        have : q ∉ (st.shards g).drop ((st.shards g).length - n) :=
          fun hq => hg (hst.group (List.mem_of_mem_drop hq))
        tauto

theorem optIteration_left (le : Nat → Nat → Bool) (hst : st.Accounts kept)
    (h : optIteration A U st = .ok (st', true)) :
    st'.left (groupKeys le kept) < st.left (groupKeys le kept) := by
  rcases optIteration_cases h with ⟨hmore, -, -⟩ | ⟨g, n, hn, hne, hshards, -⟩
  · cases hmore
  · have hlen : 0 < (st.shards g).length := List.length_pos_of_ne_nil hne
    unfold OptState.left
    rw [hshards]
    refine List.sum_lt_sum _ _ (fun g' _ => ?_) ⟨g, ?_, ?_⟩
    · by_cases hg : g' = g
      · subst hg
        rw [Function.update_self, List.length_take]
        exact min_le_right _ _
      · rw [Function.update_of_ne hg]
    · obtain ⟨q, hq⟩ := List.exists_mem_of_ne_nil _ hne
      have hgq := hst.group hq
      exact mem_groupKeys.mpr ⟨q, (hst.mem q).mpr (Or.inr (hgq ▸ hq)), hgq⟩
    · rw [Function.update_self, List.length_take]
      omega

/-- The loop ends within one turn per shard, with every packet accounted for. -/
theorem optLoop_spec (le : Nat → Nat → Bool) (hpaths : 0 < A.paths) :
    ∀ (fuel : Nat) {st : OptState}, st.Accounts kept → st.left (groupKeys le kept) < fuel →
      ∃ st', optLoop A U fuel st = .ok st' ∧ st'.Accounts kept
  | 0, st, _, hfuel => absurd hfuel (Nat.not_lt_zero _)
  | fuel + 1, st, hst, hfuel => by
    obtain ⟨⟨st', more⟩, hr⟩ := optIteration_ok (U := U) hpaths st
    have hst' := optIteration_accounts hst hr
    unfold optLoop
    rw [hr]
    cases more with
    | false => exact ⟨st', rfl, hst'⟩
    | true =>
      have hleft := optIteration_left le hst hr
      exact optLoop_spec le hpaths fuel hst' (by omega)

end Loop

/--
**The optimiser ends, and only drops what is complete.** Whatever the utilities answer, a
packet is scheduled exactly if it is in the batch and its group is not completed.
-/
theorem optimizeTransfer_spec (hon : A.completionFirstEnabled = true) (hpaths : 0 < A.paths)
    (packets : List Packet) :
    ∃ out, optimizeTransfer A U packets = .ok out ∧
      ∀ q, q ∈ out ↔ q ∈ packets ∧ q.fecGroup ∉ A.completedBlocks := by
  obtain ⟨st, hloop, hst⟩ := optLoop_spec (U := U) U.groupLe hpaths _
    (optStart_accounts (A := A) (U := U) (keptPackets A packets)) (Nat.lt_add_one _)
  refine ⟨st.out ++ (groupKeys U.groupLe (keptPackets A packets)).flatMap fun g =>
    (st.shards g).reverse, ?_, fun q => ?_⟩
  · unfold optimizeTransfer
    simp only [hon, Bool.true_eq_false, if_false, hloop]
  rw [← mem_keptPackets, hst.mem, List.mem_append, List.mem_flatMap]
  constructor
  · rintro (hq | ⟨g, -, hq⟩)
    · exact Or.inl hq
    · have hq := List.mem_reverse.mp hq
      exact Or.inr (hst.group hq ▸ hq)
  · rintro (hq | hq)
    · exact Or.inl hq
    · exact Or.inr ⟨q.fecGroup, mem_groupKeys.mpr ⟨q, (hst.mem q).mpr (Or.inr hq), rfl⟩,
        List.mem_reverse.mpr hq⟩

end ScTransport
