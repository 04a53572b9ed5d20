import ScTransport.Fec.Encoder
import ScTransport.Infra.KeyMap
import ScTransport.Infra.Lts

/-!
# The reorder buffer

`ReorderBuffer` takes packets in any order and hands them out by sequence number. It skips a packet
whose id it has seen, but forgets all ids when it has seen `maxSeen` of them.

* `ReorderBuffer.ingest`, `ReorderBuffer.reassembleReady` — the source
* `drain_rule`, `find?_drain` — the loop of `reassemble_ready`: what one delivery keeps holds at the
  end, and the loop ends because the next packet is not there
* `InOrder`, `FirstCopies` — what holds in every run, and what holds while no id is forgotten
* `reorder_buffer_delivers` — both, for all runs
-/

namespace ScTransport

open Infra

/-! ## The buffer -/

structure ReorderBuffer where
  received : KeyMap Nat Packet
  nextSeq : Nat
  seen : List Nat
  maxSeen : Nat

namespace ReorderBuffer

def default : ReorderBuffer := ⟨.empty, 0, [], 65536⟩

def ingest (b : ReorderBuffer) (packet : Packet) : ReorderBuffer :=
  if packet.id ∈ b.seen then b
  else
    let seen := if b.maxSeen ≤ b.seen.length then [] else b.seen
    { b with seen := packet.id :: seen, received := b.received.insert packet.id packet }

/-- A packet with the next sequence number. -/
def next? (b : ReorderBuffer) : Option (Nat × Packet) :=
  b.received.find? fun packet => packet.seq = b.nextSeq

/-- The buffer without the packet that is handed out. -/
def deliver (b : ReorderBuffer) (id : Nat) : ReorderBuffer :=
  { b with received := b.received.erase id, nextSeq := b.nextSeq + 1 }

/-- The loop of `reassemble_ready`, at most `n` times. -/
def drain : Nat → ReorderBuffer → List Packet × ReorderBuffer
  | 0, b => ([], b)
  | n + 1, b =>
    match b.next? with
    | none => ([], b)
    | some (id, _) =>
      match b.received.get? id with
      | none => drain n b
      | some packet =>
        let rest := drain n (b.deliver id)
        (packet :: rest.1, rest.2)

/-- Every round takes a packet away, so there are no more rounds than packets. -/
def reassembleReady (b : ReorderBuffer) : List Packet × ReorderBuffer :=
  b.drain b.received.entries.length

end ReorderBuffer

/-! ## One packet -/

namespace ReorderBuffer

variable {b : ReorderBuffer} {packet : Packet}

theorem nextSeq_ingest : (b.ingest packet).nextSeq = b.nextSeq := by
  unfold ingest
  split <;> rfl

theorem mem_seen_ingest {id : Nat} (h : id ∈ (b.ingest packet).seen) :
    id = packet.id ∨ id ∈ b.seen := by
  unfold ingest at h
  split at h
  · exact Or.inr h
  · refine (List.mem_cons.mp h).imp_right fun hold => ?_
    split at hold
    · cases hold
    · exact hold

theorem received_ingest (hseen : packet.id ∉ b.seen) :
    (b.ingest packet).received = b.received.insert packet.id packet := by
  rw [ingest, if_neg hseen]

/-- Whatever waits is the new packet or waited before. -/
theorem mem_received_ingest {e : Nat × Packet} (h : e ∈ (b.ingest packet).received.entries) :
    packet.id ∉ b.seen ∧ e = (packet.id, packet) ∨ e ∈ b.received.entries := by
  by_cases hseen : packet.id ∈ b.seen
  · rw [ingest, if_pos hseen] at h
    exact Or.inr h
  · rw [received_ingest hseen] at h
    exact (KeyMap.mem_insert.mp h).imp (⟨hseen, ·⟩) And.left

/-- No id stops waiting. -/
theorem ingest_keeps {id : Nat} {q : Packet} (h : (id, q) ∈ b.received.entries) :
    ∃ q', (id, q') ∈ (b.ingest packet).received.entries := by
  by_cases hseen : packet.id ∈ b.seen
  · rw [ingest, if_pos hseen]
    exact ⟨q, h⟩
  · rw [received_ingest hseen]
    by_cases heq : id = packet.id
    · exact ⟨packet, KeyMap.mem_insert.mpr (Or.inl (by rw [heq]))⟩
    · exact ⟨q, KeyMap.mem_insert.mpr (Or.inr ⟨h, heq⟩)⟩

end ReorderBuffer

/-! ## The loop -/

namespace ReorderBuffer

variable {b : ReorderBuffer}

theorem next?_eq_some {e : Nat × Packet} (h : b.next? = some e) :
    e ∈ b.received.entries ∧ e.2.seq = b.nextSeq := by
  refine ⟨List.mem_of_find?_eq_some h, ?_⟩
  simpa using List.find?_some h

theorem next?_eq_none (h : b.next? = none) : ∀ e ∈ b.received.entries, e.2.seq ≠ b.nextSeq := by
  intro e he
  simpa using List.find?_eq_none.mp h e he

/-- One round, and how the loop goes on. -/
theorem drain_succ {n : Nat} {e : Nat × Packet} (h : b.next? = some e) :
    b.drain (n + 1) = (e.2 :: ((b.deliver e.1).drain n).1, ((b.deliver e.1).drain n).2) := by
  obtain ⟨id, packet⟩ := e
  rw [drain, h]
  simp only [KeyMap.get?_of_mem (next?_eq_some h).1]

/-- **What one delivery keeps, the loop keeps.** `out` is what was handed out before. -/
theorem drain_rule {P : List Packet → ReorderBuffer → Prop}
    (hstep : ∀ {out b e}, P out b → b.next? = some e → P (out ++ [e.2]) (b.deliver e.1)) :
    ∀ {n : Nat} {b : ReorderBuffer} {out : List Packet}, P out b →
      P (out ++ (b.drain n).1) (b.drain n).2
  | 0, b, out, h => by
    rw [drain, List.append_nil]
    exact h
  | n + 1, b, out, h => by
    cases hnext : b.next? with
    | none =>
      rw [drain, hnext, List.append_nil]
      exact h
    | some e =>
      have hrest := drain_rule hstep (n := n) (hstep h hnext)
      rw [drain_succ hnext]
      rwa [List.append_assoc, List.singleton_append] at hrest

/-- Only what is in the buffer is handed out. -/
theorem mem_of_mem_drain {p : Packet} : ∀ {n : Nat} {b : ReorderBuffer}, p ∈ (b.drain n).1 →
    ∃ id, (id, p) ∈ b.received.entries
  | 0, b, h => absurd h List.not_mem_nil
  | n + 1, b, h => by
    cases hnext : b.next? with
    | none =>
      rw [drain, hnext] at h
      exact absurd h List.not_mem_nil
    | some e =>
      rw [drain_succ hnext] at h
      rcases List.mem_cons.mp h with rfl | h
      · exact ⟨e.1, (next?_eq_some hnext).1⟩
      · obtain ⟨id, hid⟩ := mem_of_mem_drain h
        exact ⟨id, (KeyMap.mem_erase.mp hid).1⟩

/-- The loop ends because no packet is next. -/
theorem next?_drain : ∀ {n : Nat} {b : ReorderBuffer}, b.received.entries.length ≤ n →
    (b.drain n).2.next? = none
  | 0, b, hn => by
    have hnil : b.received.entries = [] := List.length_eq_zero_iff.mp (by omega)
    rw [drain, next?, KeyMap.find?, hnil]
    rfl
  | n + 1, b, hn => by
    cases hnext : b.next? with
    | none =>
      rw [drain, hnext]
      exact hnext
    | some e =>
      have hlt := KeyMap.length_erase_lt (next?_eq_some hnext).1
      rw [drain_succ hnext]
      exact next?_drain (b := b.deliver e.1) (by
        show (b.received.erase e.1).entries.length ≤ n
        omega)

end ReorderBuffer

/-! ## Runs -/

inductive ReorderOp where
  | ingest (packet : Packet)
  | reassembleReady

/-- The buffer, with the packets it was given and the packets it handed out. -/
structure ReorderRun where
  buffer : ReorderBuffer
  history : List Packet
  delivered : List Packet

namespace ReorderRun

def start : ReorderRun := ⟨.default, [], []⟩

def step (r : ReorderRun) : ReorderOp → ReorderRun
  | .ingest packet =>
    { r with buffer := r.buffer.ingest packet, history := r.history ++ [packet] }
  | .reassembleReady =>
    { r with
      buffer := r.buffer.reassembleReady.2
      delivered := r.delivered ++ r.buffer.reassembleReady.1 }

/-- The first packet with this id. -/
def firstCopy (r : ReorderRun) (id : Nat) : Option Packet := r.history.find? fun p => p.id = id

/-- A packet that is given to the buffer again is still known to it. -/
def Remembers (r : ReorderRun) : ReorderOp → Prop
  | .ingest packet => packet.id ∈ r.history.map Packet.id → packet.id ∈ r.buffer.seen
  | .reassembleReady => True

end ReorderRun

/-- Ids are sequence numbers. -/
def ReorderOp.Keyed : ReorderOp → Prop
  | .ingest packet => packet.id = packet.seq
  | .reassembleReady => True

instance : DecidablePred ReorderOp.Keyed
  | .ingest packet => inferInstanceAs (Decidable (packet.id = packet.seq))
  | .reassembleReady => inferInstanceAs (Decidable True)

instance (r : ReorderRun) : DecidablePred r.Remembers
  | .ingest packet =>
    inferInstanceAs (Decidable (packet.id ∈ r.history.map Packet.id → packet.id ∈ r.buffer.seen))
  | .reassembleReady => inferInstanceAs (Decidable True)

/-- Calls in any order; a run ends before `next_seq` overflows. -/
def reorder : Lts ReorderRun ReorderOp where
  step r op := if (r.step op).buffer.nextSeq < 2 ^ 64 then some (r.step op) else none

theorem eq_of_reorder_step {r r' : ReorderRun} {op : ReorderOp} (h : reorder.step r op = some r') :
    r' = r.step op := by
  simp only [reorder] at h
  split at h
  · exact (Option.some.inj h).symm
  · cases h

/-! ## In every run -/

/-- Packets are handed out by number, and what was given is handed out or kept. -/
structure InOrder (r : ReorderRun) : Prop where
  keyed : ∀ e ∈ r.buffer.received.entries, e.2.id = e.1 ∧ e.2.seq = e.1
  ids : ∀ p ∈ r.history, p.id = p.seq
  numbered : r.delivered.map Packet.seq = List.range r.buffer.nextSeq
  kept : ∀ p ∈ r.history, p.id < r.buffer.nextSeq ∨ ∃ q, (p.id, q) ∈ r.buffer.received.entries
  seen : ∀ id ∈ r.buffer.seen, ∃ p ∈ r.history, p.id = id

theorem InOrder.start : InOrder .start where
  keyed := nofun
  ids := nofun
  numbered := rfl
  kept := nofun
  seen := nofun

theorem InOrder.length_delivered {r : ReorderRun} (h : InOrder r) :
    r.delivered.length = r.buffer.nextSeq := by
  have hlen := congrArg List.length h.numbered
  rwa [List.length_map, List.length_range] at hlen

/-- The next packet is the one whose id is next. -/
theorem InOrder.next_id {r : ReorderRun} (h : InOrder r) {e : Nat × Packet}
    (hnext : r.buffer.next? = some e) : e.1 = r.buffer.nextSeq := by
  obtain ⟨hmem, hseq⟩ := ReorderBuffer.next?_eq_some hnext
  rw [← (h.keyed e hmem).2, hseq]

theorem InOrder.deliver {r : ReorderRun} (h : InOrder r) {e : Nat × Packet}
    (hnext : r.buffer.next? = some e) :
    InOrder { r with buffer := r.buffer.deliver e.1, delivered := r.delivered ++ [e.2] } := by
  obtain ⟨hmem, hseq⟩ := ReorderBuffer.next?_eq_some hnext
  refine ⟨fun e' he' => h.keyed e' (KeyMap.mem_erase.mp he').1, h.ids, ?_, ?_, h.seen⟩
  · show (r.delivered ++ [e.2]).map Packet.seq = List.range (r.buffer.nextSeq + 1)
    rw [List.map_append, h.numbered, List.range_succ, List.map_singleton, hseq]
  · intro p hp
    show p.id < r.buffer.nextSeq + 1 ∨ ∃ q, (p.id, q) ∈ (r.buffer.received.erase e.1).entries
    have hid := h.next_id hnext
    rcases h.kept p hp with hlt | ⟨q, hq⟩
    · exact Or.inl (by omega)
    · by_cases heq : p.id = e.1
      · exact Or.inl (by omega)
      · exact Or.inr ⟨q, KeyMap.mem_erase.mpr ⟨hq, heq⟩⟩

theorem InOrder.reassembleReady {r : ReorderRun} (h : InOrder r) :
    InOrder (r.step .reassembleReady) :=
  ReorderBuffer.drain_rule
    (P := fun out b => InOrder { r with buffer := b, delivered := out })
    (fun h' hnext => h'.deliver hnext) h

theorem InOrder.ingest {r : ReorderRun} (h : InOrder r) {packet : Packet}
    (hid : packet.id = packet.seq) : InOrder (r.step (.ingest packet)) := by
  have hids : ∀ p ∈ r.history ++ [packet], p.id = p.seq := by
    intro p hp
    rcases List.mem_append.mp hp with hp | hp
    · exact h.ids p hp
    · rw [List.mem_singleton.mp hp, hid]
  have hold : ∀ p ∈ r.history, p.id < (r.buffer.ingest packet).nextSeq ∨
      ∃ q, (p.id, q) ∈ (r.buffer.ingest packet).received.entries := by
    intro p hp
    rw [ReorderBuffer.nextSeq_ingest]
    rcases h.kept p hp with hlt | ⟨q, hq⟩
    · exact Or.inl hlt
    · exact Or.inr (ReorderBuffer.ingest_keeps hq)
  refine ⟨?_, hids, ?_, ?_, ?_⟩
  · intro e he
    rcases ReorderBuffer.mem_received_ingest he with ⟨-, rfl⟩ | he
    · exact ⟨rfl, hid.symm⟩
    · exact h.keyed e he
  · show r.delivered.map Packet.seq = List.range (r.buffer.ingest packet).nextSeq
    rw [ReorderBuffer.nextSeq_ingest, h.numbered]
  · intro p hp
    rcases List.mem_append.mp hp with hp | hp
    · exact hold p hp
    obtain rfl := List.mem_singleton.mp hp
    by_cases hseen : p.id ∈ r.buffer.seen
    · -- skipped: a packet with this id was given before
      obtain ⟨q, hq, hqid⟩ := h.seen _ hseen
      have hkept := hold q hq
      rw [hqid] at hkept
      exact hkept
    · refine Or.inr ⟨p, ?_⟩
      show (p.id, p) ∈ (r.buffer.ingest p).received.entries
      rw [ReorderBuffer.received_ingest hseen]
      exact KeyMap.mem_insert.mpr (Or.inl rfl)
  · intro id hmem
    rcases ReorderBuffer.mem_seen_ingest hmem with rfl | hmem
    · exact ⟨packet, List.mem_append_right _ (List.mem_singleton_self _), rfl⟩
    · obtain ⟨p, hp, heq⟩ := h.seen id hmem
      exact ⟨p, List.mem_append_left _ hp, heq⟩

/-! ## While nothing is forgotten -/

/-- Every packet that waits or was handed out is the first with its id. -/
structure FirstCopies (r : ReorderRun) : Prop extends InOrder r where
  pending : ∀ e ∈ r.buffer.received.entries,
    r.buffer.nextSeq ≤ e.1 ∧ r.firstCopy e.1 = some e.2
  first : ∀ p ∈ r.delivered, r.firstCopy p.id = some p

theorem FirstCopies.start : FirstCopies .start where
  toInOrder := .start
  pending := nofun
  first := nofun

theorem FirstCopies.deliver {r : ReorderRun} (h : FirstCopies r) {e : Nat × Packet}
    (hnext : r.buffer.next? = some e) :
    FirstCopies { r with buffer := r.buffer.deliver e.1, delivered := r.delivered ++ [e.2] } := by
  obtain ⟨hmem, -⟩ := ReorderBuffer.next?_eq_some hnext
  have hid := h.next_id hnext
  refine ⟨h.toInOrder.deliver hnext, ?_, ?_⟩
  · intro e' he'
    obtain ⟨he', hne⟩ := KeyMap.mem_erase.mp he'
    obtain ⟨hle, hfirst⟩ := h.pending e' he'
    refine ⟨?_, hfirst⟩
    show r.buffer.nextSeq + 1 ≤ e'.1
    omega
  · intro p hp
    rcases List.mem_append.mp hp with hp | hp
    · exact h.first p hp
    · rw [List.mem_singleton.mp hp, (h.keyed e hmem).1]
      exact (h.pending e hmem).2

theorem FirstCopies.reassembleReady {r : ReorderRun} (h : FirstCopies r) :
    FirstCopies (r.step .reassembleReady) :=
  ReorderBuffer.drain_rule
    (P := fun out b => FirstCopies { r with buffer := b, delivered := out })
    (fun h' hnext => h'.deliver hnext) h

/-- A first copy stays the first copy. -/
theorem ReorderRun.firstCopy_ingest {r : ReorderRun} {id : Nat} {p packet : Packet}
    (h : r.firstCopy id = some p) : (r.step (.ingest packet)).firstCopy id = some p := by
  show (r.history ++ [packet]).find? _ = some p
  rw [List.find?_append]
  unfold firstCopy at h
  rw [h]
  rfl

/-- A number that was handed out belongs to a packet that was given. -/
theorem FirstCopies.mem_history {r : ReorderRun} (h : FirstCopies r) {id : Nat}
    (hid : id < r.buffer.nextSeq) : id ∈ r.history.map Packet.id := by
  have hmem : id ∈ r.delivered.map Packet.seq := by
    rw [h.numbered]
    exact List.mem_range.mpr hid
  obtain ⟨p, hp, rfl⟩ := List.mem_map.mp hmem
  have hhist : p ∈ r.history := List.mem_of_find?_eq_some (h.first p hp)
  rw [← h.ids p hhist]
  exact List.mem_map_of_mem hhist

theorem FirstCopies.ingest {r : ReorderRun} (h : FirstCopies r) {packet : Packet}
    (hid : packet.id = packet.seq) (hrem : r.Remembers (.ingest packet)) :
    FirstCopies (r.step (.ingest packet)) := by
  refine ⟨h.toInOrder.ingest hid, ?_, fun p hp => ReorderRun.firstCopy_ingest (h.first p hp)⟩
  show ∀ e ∈ (r.buffer.ingest packet).received.entries,
    (r.buffer.ingest packet).nextSeq ≤ e.1 ∧ _
  rw [ReorderBuffer.nextSeq_ingest]
  intro e he
  rcases ReorderBuffer.mem_received_ingest he with ⟨hseen, rfl⟩ | he
  · -- a new id: this packet is the first with it, and none was handed out
    have hnew : packet.id ∉ r.history.map Packet.id := fun hmem => hseen (hrem hmem)
    have hnone : r.history.find? (fun p => p.id = packet.id) = none := by
      rw [List.find?_eq_none]
      intro p hp heq
      exact hnew (List.mem_map.mpr ⟨p, hp, by simpa using heq⟩)
    refine ⟨?_, ?_⟩
    · show r.buffer.nextSeq ≤ packet.id
      by_contra hlt
      exact hnew (h.mem_history (by omega))
    · show (r.history ++ [packet]).find? _ = some packet
      rw [List.find?_append, hnone]
      simp
  · exact ⟨(h.pending e he).1, ReorderRun.firstCopy_ingest (h.pending e he).2⟩

/-! ## All runs -/

theorem InOrder.step {r : ReorderRun} {op : ReorderOp} (h : InOrder r) (hop : op.Keyed) :
    InOrder (r.step op) := by
  cases op with
  | ingest packet => exact h.ingest hop
  | reassembleReady => exact h.reassembleReady

theorem InOrder.of_reach {r : ReorderRun}
    (h : reorder.Reach (fun _ op => op.Keyed) .start r) : InOrder r := by
  refine h.invariant InOrder.start ?_
  intro r₁ r₂ op hr hop hstep
  rw [eq_of_reorder_step hstep]
  exact hr.step hop

theorem FirstCopies.of_reach {r : ReorderRun}
    (h : reorder.Reach (fun r op => op.Keyed ∧ r.Remembers op) .start r) : FirstCopies r := by
  refine h.invariant FirstCopies.start ?_
  intro r₁ r₂ op hr hop hstep
  rw [eq_of_reorder_step hstep]
  cases op with
  | ingest packet => exact hr.ingest hop.1 hop.2
  | reassembleReady => exact hr.reassembleReady

/-- All numbers up to a gap are handed out. -/
theorem InOrder.delivered_of_ingested {r : ReorderRun} (h : InOrder r) {s : Nat}
    (hs : ∀ t ≤ s, ∃ p ∈ r.history, p.seq = t) :
    s < (r.step .reassembleReady).delivered.length := by
  have h' := h.reassembleReady
  rw [h'.length_delivered]
  by_contra hle
  -- the packet the loop stopped at was given, so it is still in the buffer
  obtain ⟨p, hp, hseq⟩ := hs (r.step .reassembleReady).buffer.nextSeq (by omega)
  have hid : p.id = (r.step .reassembleReady).buffer.nextSeq := by rw [h.ids p hp, hseq]
  have hend : (r.step .reassembleReady).buffer.next? = none :=
    ReorderBuffer.next?_drain (Nat.le_refl _)
  rcases h'.kept p hp with hlt | ⟨q, hq⟩
  · omega
  · refine ReorderBuffer.next?_eq_none hend _ hq ?_
    rw [(h'.keyed _ hq).2, hid]

/-- A packet whose id is not remembered takes the place of one that waits with the same id. -/
theorem InOrder.deliver_unseen {r : ReorderRun} (h : InOrder r) {packet : Packet}
    (hid : packet.id = packet.seq) (hunseen : packet.id ∉ r.buffer.seen)
    (hwaits : r.buffer.nextSeq ≤ packet.id)
    (hall : ∀ t ≤ packet.id, ∃ p ∈ (r.step (.ingest packet)).history, p.seq = t) :
    packet ∈ ((r.step (.ingest packet)).step .reassembleReady).delivered := by
  have h' := h.ingest hid
  have hlt := h'.delivered_of_ingested hall
  rw [h'.reassembleReady.length_delivered] at hlt
  have hmem : packet.id ∈ List.map Packet.seq
      ((r.step (.ingest packet)).step .reassembleReady).delivered := by
    rw [h'.reassembleReady.numbered]
    exact List.mem_range.mpr hlt
  obtain ⟨p, hp, hseq⟩ := List.mem_map.mp hmem
  rcases List.mem_append.mp hp with hbefore | hout
  · -- not among the packets handed out before
    have hseq' : p.seq ∈ List.range r.buffer.nextSeq := by
      rw [← h.numbered]
      exact List.mem_map_of_mem hbefore
    have hlt' := List.mem_range.mp hseq'
    omega
  · obtain ⟨id, hentry⟩ := ReorderBuffer.mem_of_mem_drain hout
    have hkey : id = packet.id := (h'.keyed _ hentry).2.symm.trans hseq
    have hpacket : (packet.id, packet) ∈ (r.buffer.ingest packet).received.entries := by
      rw [ReorderBuffer.received_ingest hunseen]
      exact KeyMap.mem_insert.mpr (Or.inl rfl)
    rw [hkey] at hentry
    have heq : p = packet := KeyMap.eq_of_mem hentry hpacket
    rwa [heq] at hp

/--
**The reorder buffer hands out every number once and in order.** With ids that are sequence
numbers, what was handed out is `0, 1, 2, …`, and `reassemble_ready` goes on up to the first number
that was not given. As long as no packet is given again after its id was forgotten, each packet
handed out is the first with its id, and nothing below `next_seq` is kept.
-/
theorem reorder_buffer_delivers (r : ReorderRun)
    (h : reorder.Reach (fun _ op => op.Keyed) .start r) :
    r.delivered.map Packet.seq = List.range r.delivered.length ∧
    (∀ s, (∀ t ≤ s, ∃ p ∈ r.history, p.seq = t) →
      s < (r.step .reassembleReady).delivered.length) ∧
    (reorder.Reach (fun r op => op.Keyed ∧ r.Remembers op) .start r →
      (∀ p ∈ r.delivered, r.firstCopy p.id = some p) ∧
      ∀ e ∈ (r.step .reassembleReady).buffer.received.entries,
        (r.step .reassembleReady).buffer.nextSeq ≤ e.2.seq) := by
  have hr := InOrder.of_reach h
  refine ⟨?_, fun s hs => hr.delivered_of_ingested hs, fun hrem => ?_⟩
  · rw [hr.numbered, hr.length_delivered]
  · have hfirst := FirstCopies.of_reach hrem
    have hafter := hfirst.reassembleReady
    refine ⟨hfirst.first, fun e he => ?_⟩
    rw [(hafter.keyed e he).2]
    exact (hafter.pending e he).1

/-! ### Three packets; and more than the buffer can remember -/

def reorderPacket (id : Nat) (payload : Bytes) : Packet where
  id := id
  seq := id
  payload := payload
  isParity := false
  info := ⟨id, 10, none, payload.length⟩
  fecGroup := 0
  reconstructable := false
  parityIndex := 0

def reorderOps : List ReorderOp :=
  [.ingest (reorderPacket 1 [1]), .ingest (reorderPacket 0 [0]), .ingest (reorderPacket 0 [9]),
    .reassembleReady]

/-- The second packet with id `0` is skipped. -/
theorem reorderOps_deliver :
    (reorderOps.foldl ReorderRun.step .start).delivered =
        [reorderPacket 0 [0], reorderPacket 1 [1]] ∧
      ∀ p ∈ (reorderOps.foldl ReorderRun.step .start).delivered,
        (reorderOps.foldl ReorderRun.step .start).firstCopy p.id = some p := by
  have hrun : reorder.execWhere (fun r op => decide (op.Keyed ∧ r.Remembers op)) .start reorderOps =
      some (reorderOps.foldl ReorderRun.step .start) := rfl
  have hrem := (Lts.Reach.of_execWhere hrun).mono of_decide_eq_true
  have hall := reorder_buffer_delivers _ (hrem.mono And.left)
  exact ⟨by decide +kernel, (hall.2.2 hrem).1⟩

/-- `n` packets with the ids from `1` on. -/
def flood (n : Nat) : List ReorderOp :=
  (List.range' 1 n).map fun id => .ingest (reorderPacket id [0])

theorem InOrder.foldl {ops : List ReorderOp} {r : ReorderRun} (h : InOrder r)
    (hops : ∀ op ∈ ops, op.Keyed) : InOrder (ops.foldl ReorderRun.step r) := by
  induction ops generalizing r with
  | nil => exact h
  | cons op rest ih =>
    exact ih (h.step (hops op List.mem_cons_self)) fun op' hop' =>
      hops op' (List.mem_cons_of_mem op hop')

theorem flood_keyed {n : Nat} : ∀ op ∈ flood n, op.Keyed := by
  intro op hop
  obtain ⟨id, -, rfl⟩ := List.mem_map.mp hop
  rfl

theorem flood_succ (n : Nat) :
    flood (n + 1) = flood n ++ [.ingest (reorderPacket (1 + n) [0])] := by
  unfold flood
  rw [List.range'_concat, List.map_append]
  simp

/-- Up to its limit the buffer remembers all of them. -/
theorem seen_flood : ∀ {n : Nat}, n ≤ ReorderBuffer.default.maxSeen →
    ((flood n).foldl ReorderRun.step .start).buffer.seen = (List.range' 1 n).reverse ∧
      ((flood n).foldl ReorderRun.step .start).buffer.maxSeen = ReorderBuffer.default.maxSeen ∧
      ((flood n).foldl ReorderRun.step .start).buffer.nextSeq = 0
  | 0, _ => ⟨rfl, rfl, rfl⟩
  | n + 1, hn => by
    obtain ⟨hseen, hmax, hnext⟩ := seen_flood (n := n) (by omega)
    have hnew : 1 + n ∉ (List.range' 1 n).reverse := by simp
    rw [flood_succ, List.foldl_append]
    generalize (flood n).foldl ReorderRun.step .start = r at hseen hmax hnext
    show (r.buffer.ingest (reorderPacket (1 + n) [0])).seen = _ ∧
      (r.buffer.ingest (reorderPacket (1 + n) [0])).maxSeen = _ ∧
      (r.buffer.ingest (reorderPacket (1 + n) [0])).nextSeq = _
    rw [ReorderBuffer.ingest, if_neg (by rw [hseen]; exact hnew)]
    refine ⟨?_, hmax, hnext⟩
    show (1 + n) :: (if r.buffer.maxSeen ≤ r.buffer.seen.length then [] else r.buffer.seen) = _
    rw [hmax, hseen, if_neg (by simp; omega), List.range'_concat]
    simp

/-- The run that goes over the limit: a second packet with id `1` after the ids were forgotten. -/
def floodOps (n : Nat) : List ReorderOp :=
  flood n ++ [.ingest (reorderPacket 0 [0]), .ingest (reorderPacket 1 [1]), .reassembleReady]

theorem floodOps_keyed {n : Nat} : ∀ op ∈ floodOps n, op.Keyed := by
  intro op hop
  rcases List.mem_append.mp hop with hop | hop
  · exact flood_keyed op hop
  · simp only [List.mem_cons, List.not_mem_nil, or_false] at hop
    rcases hop with rfl | rfl | rfl
    · rfl
    · rfl
    · trivial

/-- The first packet with id `1` is the first of the flood. -/
theorem firstCopy_flood : ∀ {n : Nat}, 0 < n →
    ((flood n).foldl ReorderRun.step .start).firstCopy 1 = some (reorderPacket 1 [0])
  | 1, _ => rfl
  | n + 2, _ => by
    rw [flood_succ, List.foldl_append]
    exact ReorderRun.firstCopy_ingest (firstCopy_flood (n := n + 1) (by omega))

theorem floodOps_delivers {n : Nat} (hn : n = ReorderBuffer.default.maxSeen) (hpos : 0 < n) :
    reorderPacket 1 [1] ∈ ((floodOps n).foldl ReorderRun.step .start).delivered ∧
      ((floodOps n).foldl ReorderRun.step .start).firstCopy 1 = some (reorderPacket 1 [0]) := by
  obtain ⟨hseen, hmax, hnext⟩ := seen_flood (Nat.le_of_eq hn)
  have hfirst := firstCopy_flood hpos
  have horder := InOrder.start.foldl (flood_keyed (n := n))
  unfold floodOps
  rw [List.foldl_append]
  generalize (flood n).foldl ReorderRun.step .start = r at hseen hmax hnext hfirst horder
  -- packet `0` is new, and the buffer forgets all others
  have hingest : r.buffer.ingest (reorderPacket 0 [0]) =
      { r.buffer with
        seen := [0], received := r.buffer.received.insert 0 (reorderPacket 0 [0]) } := by
    rw [ReorderBuffer.ingest, if_neg (by rw [hseen]; simp [reorderPacket]),
      if_pos (by rw [hmax, hseen]; simp [hn])]
    rfl
  have horder₀ : InOrder (r.step (.ingest (reorderPacket 0 [0]))) := horder.ingest rfl
  refine ⟨horder₀.deliver_unseen rfl ?_ ?_ ?_, ?_⟩
  · show 1 ∉ (r.buffer.ingest (reorderPacket 0 [0])).seen
    rw [hingest]
    simp
  · show (r.buffer.ingest (reorderPacket 0 [0])).nextSeq ≤ 1
    rw [hingest]
    show r.buffer.nextSeq ≤ 1
    omega
  · intro t ht
    have ht : t = 0 ∨ t = 1 := by
      have hle : t ≤ 1 := ht
      omega
    rcases ht with rfl | rfl
    · refine ⟨reorderPacket 0 [0], ?_, rfl⟩
      exact List.mem_append_left _ (List.mem_append_right _ (List.mem_singleton_self _))
    · exact ⟨reorderPacket 1 [1], List.mem_append_right _ (List.mem_singleton_self _), rfl⟩
  · exact ReorderRun.firstCopy_ingest (ReorderRun.firstCopy_ingest hfirst)

/-- After 65,537 ids the second of two packets with id `1` is handed out. -/
theorem second_copy_delivered :
    (∀ op ∈ floodOps 65536, op.Keyed) ∧
      reorderPacket 1 [1] ∈ ((floodOps 65536).foldl ReorderRun.step .start).delivered ∧
      ((floodOps 65536).foldl ReorderRun.step .start).firstCopy 1 = some (reorderPacket 1 [0]) :=
  ⟨floodOps_keyed, floodOps_delivers rfl (by decide)⟩

end ScTransport
