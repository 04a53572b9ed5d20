import ScTransport.Telemetry.Batch
import Mathlib.Data.List.Perm.Basic

/-!
# What the peer reads of a batch

Each chunk of a batch goes on a stream of its own, and the peer accepts the streams in any order.
A stream whose write failed may carry a part of its frame.

* `readAll_carried` — what is read from the stream of a chunk
* `batch_delivered` — the counts of `send_batch` are what the peer reads
-/

namespace ScTransport

open Infra

/-- What the stream of a chunk carries. -/
inductive ChunkSent.Carried (M : MsgPack) (task : ChunkSent) (s : Stream) : Prop where
  | whole {wire : Bytes} (h : task.written = some wire) (hs : s.bytes = wire)
  /-- The write has failed on the way. -/
  | cut {wire missing : Bytes} (h : task.written = none)
      (hwire : M.frameChunk task.events = .ok wire) (hne : missing ≠ [])
      (hs : s.bytes ++ missing = wire)
  /-- There was no stream, or no frame. -/
  | nothing (h : task.written = none) (hs : s.bytes = [])

def ChunkSent.delivered (task : ChunkSent) : List TelemetryEvent :=
  if task.written.isSome then task.events else []

def ChunkSent.lost (task : ChunkSent) : List TelemetryEvent :=
  if task.written.isSome then [] else task.events

/-! ## One chunk -/

section Chunk

variable {M : MsgPack} {task : ChunkSent} {s : Stream}

/-- The frame of a chunk, as one of the two kinds of frames. -/
theorem frameBytes_of_frameChunk {events : List TelemetryEvent} {wire : Bytes}
    (h : M.frameChunk events = .ok wire) :
    ∃ frame : TelemetryFrame, M.frameBytes frame = .ok wire ∧ frame.events = events := by
  rw [MsgPack.frameChunk_eq] at h
  exact ⟨frameOfChunk events, h, events_frameOfChunk events⟩

/-- Nothing is read from a frame of which something is missing. -/
theorem MsgPack.Framed.readAll_cut {events : List TelemetryEvent} {wire payload missing : Bytes}
    (hf : M.Framed events wire payload) (hmax : payload.length ≤ maxTelemetryFrameBytes)
    (hne : missing ≠ []) (hs : s.bytes ++ missing = wire) : (M.readAll s).1 = [] := by
  unfold MsgPack.readAll
  cases s.bytes.length with
  | zero => rfl
  | succ n =>
    unfold MsgPack.readLoop
    split
    · rfl
    · rw [hf.read_cut hmax hne hs]

/-- A stream that carries the whole frame is read to the events of the chunk, any other to none. -/
theorem readAll_carried (hM : M.Lawful) (h : task.Carried M s)
    (hwritten : ∀ wire, task.written = some wire → M.frameChunk task.events = .ok wire)
    (hlimit : ∀ wire, M.frameChunk task.events = .ok wire →
      wire.length ≤ 4 + maxTelemetryFrameBytes) :
    (M.readAll s).1 = task.delivered := by
  cases h with
  | @whole wire h hs =>
    obtain ⟨frame, hframe, hevents⟩ := frameBytes_of_frameChunk (hwritten wire h)
    have hsent : M.Sent [(frame, wire)] := by
      intro p hp
      rw [List.mem_singleton.mp hp]
      exact ⟨hframe, hlimit wire (hwritten wire h)⟩
    rw [hM.readAll hsent (by simpa using hs)]
    simp [ChunkSent.delivered, h, hevents]
  | @cut wire missing h hwire hne hs =>
    obtain ⟨payload, hf⟩ := hM.frameChunk hwire
    have hmax : payload.length ≤ maxTelemetryFrameBytes := by
      have hlen := hlimit wire hwire
      rw [hf.wire_eq, List.length_append, length_toBe32] at hlen
      omega
    rw [hf.readAll_cut hmax hne hs]
    simp [ChunkSent.delivered, h]
  | nothing h hs =>
    rw [MsgPack.readAll, hs]
    simp [ChunkSent.delivered, h, MsgPack.readLoop]

end Chunk

/-! ## The tasks of a batch -/

section Tasks

variable {M : MsgPack} {b : BatchSender} {net : Nat → ChunkNet} {events : List TelemetryEvent}
  {task : ChunkSent}

theorem ne_nil_of_mem_chunks {α : Type} {n : Nat} (hn : 0 < n) {l chunk : List α}
    (h : chunk ∈ chunks n l) : chunk ≠ [] := by
  obtain ⟨k, hk, rfl⟩ := List.mem_map.mp h
  have hk : k < (l.length + n - 1) / n := List.mem_range.mp hk
  have hlt : k * n < l.length := by
    have hmul : (k + 1) * n ≤ l.length + n - 1 := (Nat.le_div_iff_mul_le hn).mp hk
    rw [Nat.succ_mul] at hmul
    omega
  intro hnil
  have hlen := congrArg List.length hnil
  rw [List.length_take, List.length_drop, List.length_nil] at hlen
  omega

/-- What the task of a chunk returns, by whether its frame was written. -/
structure ChunkSent.Counted (M : MsgPack) (task : ChunkSent) : Prop where
  ne_nil : task.events ≠ []
  frame : ∀ wire, task.written = some wire → M.frameChunk task.events = .ok wire
  sent : task.sent = task.delivered.length
  failed : task.failed = if task.written.isSome then 0 else 1

theorem BatchSender.counted (h : task ∈ b.tasks M net events) : task.Counted M := by
  obtain ⟨k, hk, rfl⟩ := List.mem_mapIdx.mp h
  have hne := ne_nil_of_mem_chunks (b.effectiveChunkSize_pos M events) (List.getElem_mem hk)
  generalize (chunks (b.effectiveChunkSize M events) events)[k] = chunk at hne ⊢
  unfold sendChunk
  split
  · exact ⟨hne, nofun, rfl, rfl⟩
  · split
    · next wire hwire =>
      split
      · refine ⟨hne, ?_, rfl, rfl⟩
        rintro _ ⟨⟩
        exact hwire
      · exact ⟨hne, nofun, rfl, rfl⟩
    · exact ⟨hne, nofun, rfl, rfl⟩

theorem ChunkSent.Counted.failed_eq_zero_iff (h : task.Counted M) :
    task.failed = 0 ↔ task.lost = [] := by
  rw [h.failed, ChunkSent.lost]
  cases task.written with
  | some wire => simp
  | none => simpa using h.ne_nil

/-- Every event of the batch is in a chunk that was written or in one that was not. -/
theorem BatchSender.delivered_append_lost (b : BatchSender) (M : MsgPack) (net : Nat → ChunkNet)
    (events : List TelemetryEvent) :
    ((b.tasks M net events).flatMap ChunkSent.delivered ++
      (b.tasks M net events).flatMap ChunkSent.lost).Perm events := by
  have hsplit : (fun task : ChunkSent => task.delivered ++ task.lost) = ChunkSent.events := by
    funext task
    unfold ChunkSent.delivered ChunkSent.lost
    cases task.written <;> simp
  refine (List.flatMap_append_perm _ _ _).trans (List.Perm.of_eq ?_)
  rw [hsplit, List.flatMap_def]
  exact b.flatten_tasks M net events

/-- `sent_events` are the events of the chunks that were written. -/
theorem BatchSender.sentEvents_eq (b : BatchSender) (M : MsgPack) (net : Nat → ChunkNet)
    (events : List TelemetryEvent) :
    (b.sendBatch M net events).sentEvents =
      ((b.tasks M net events).flatMap ChunkSent.delivered).length := by
  rw [List.length_flatMap]
  exact congrArg List.sum (List.map_congr_left fun task htask => (counted htask).sent)

/-- `failed_chunks` is zero when no event is lost. -/
theorem BatchSender.failedChunks_eq_zero_iff (b : BatchSender) (M : MsgPack)
    (net : Nat → ChunkNet) (events : List TelemetryEvent) :
    (b.sendBatch M net events).failedChunks = 0 ↔
      (b.tasks M net events).flatMap ChunkSent.lost = [] := by
  rw [List.flatMap_eq_nil_iff]
  show (List.map _ _).sum = 0 ↔ _
  rw [List.sum_eq_zero_iff_forall_eq_nat, List.forall_mem_map]
  exact forall₂_congr fun task htask => (counted htask).failed_eq_zero_iff

end Tasks

/--
**The peer reads what is counted.** The peer accepts the streams of a batch in any order and reads
each to its end; a stream whose write failed may carry any part of its frame. Provided the frames
are within the limit of the readers, it then has as many events as `sent_events` says, none of them
invented or read twice; and it has all the events of the batch exactly when `failed_chunks` is zero.
-/
theorem batch_delivered {M : MsgPack} (hM : M.Lawful) (b : BatchSender) (net : Nat → ChunkNet)
    (events : List TelemetryEvent) {accepted : List (ChunkSent × Stream)}
    (hperm : (accepted.map Prod.fst).Perm (b.tasks M net events))
    (hcarried : ∀ p ∈ accepted, p.1.Carried M p.2)
    (hlimit : ∀ task ∈ b.tasks M net events, ∀ wire, M.frameChunk task.events = .ok wire →
      wire.length ≤ 4 + maxTelemetryFrameBytes) :
    (accepted.flatMap fun p => (M.readAll p.2).1).length = (b.sendBatch M net events).sentEvents ∧
      (∃ lost, ((accepted.flatMap fun p => (M.readAll p.2).1) ++ lost).Perm events) ∧
      ((accepted.flatMap fun p => (M.readAll p.2).1).Perm events ↔
        (b.sendBatch M net events).failedChunks = 0) := by
  have hread : (accepted.flatMap fun p => (M.readAll p.2).1) =
      (accepted.map Prod.fst).flatMap ChunkSent.delivered := by
    rw [List.flatMap_map]
    refine List.flatMap_congr fun p hp => ?_
    have htask : p.1 ∈ b.tasks M net events := hperm.mem_iff.mp (List.mem_map_of_mem hp)
    exact readAll_carried hM (hcarried p hp) (BatchSender.counted htask).frame (hlimit p.1 htask)
  have hreceived := hperm.flatMap_right ChunkSent.delivered
  rw [← hread] at hreceived
  have hall := (hreceived.append_right _).trans (b.delivered_append_lost M net events)
  refine ⟨hreceived.length_eq.trans (b.sentEvents_eq M net events).symm, ⟨_, hall⟩, ?_⟩
  rw [b.failedChunks_eq_zero_iff]
  constructor
  · intro hcomplete
    have hlen := hall.length_eq
    rw [List.length_append, hcomplete.length_eq] at hlen
    exact List.length_eq_zero_iff.mp (by omega)
  · intro hlost
    rwa [hlost, List.append_nil] at hall

/-! ### A chunk that is written and one that is not -/

def sampleOneOpens (k : Nat) : ChunkNet := ⟨decide (k = 0), true⟩

def samplePair : List TelemetryEvent := [sampleTelemetry, sampleTelemetry]

def sampleWritten : ChunkSent :=
  ⟨[sampleTelemetry], some (sampleWire (.single sampleTelemetry)), 1, 0⟩

def sampleUnopened : ChunkSent := ⟨[sampleTelemetry], none, 0, 1⟩

/-- The peer looks at the empty stream first. -/
def sampleAccepted : List (ChunkSent × Stream) :=
  [(sampleUnopened, Stream.ofBytes []),
    (sampleWritten, Stream.ofBytes (sampleWire (.single sampleTelemetry)))]

theorem frameChunk_sample :
    MsgPack.sample.frameChunk [sampleTelemetry] = .ok (sampleWire (.single sampleTelemetry)) := by
  have hframe : MsgPack.sample.frameBytes (.single sampleTelemetry) = _ :=
    frameBytes_sampleWire (by decide +kernel)
  exact hframe

theorem samplePair_tasks :
    (⟨1⟩ : BatchSender).tasks MsgPack.sample sampleOneOpens samplePair =
      [sampleWritten, sampleUnopened] := by
  have hsize : (⟨1⟩ : BatchSender).effectiveChunkSize MsgPack.sample samplePair = 1 := by
    decide +kernel
  unfold BatchSender.tasks
  rw [hsize]
  show [sendChunk MsgPack.sample ⟨true, true⟩ [sampleTelemetry],
    sendChunk MsgPack.sample ⟨false, true⟩ [sampleTelemetry]] = _
  simp only [sendChunk, frameChunk_sample]
  rfl

theorem sample_batch_delivered :
    (sampleAccepted.flatMap fun p => (MsgPack.sample.readAll p.2).1).length =
        ((⟨1⟩ : BatchSender).sendBatch MsgPack.sample sampleOneOpens samplePair).sentEvents ∧
      ((⟨1⟩ : BatchSender).sendBatch MsgPack.sample sampleOneOpens samplePair).failedChunks =
        1 := by
  have hfailed : ((⟨1⟩ : BatchSender).sendBatch MsgPack.sample sampleOneOpens
      samplePair).failedChunks = 1 := by
    unfold BatchSender.sendBatch
    rw [samplePair_tasks]
    rfl
  refine ⟨(batch_delivered MsgPack.sample_lawful ⟨1⟩ sampleOneOpens samplePair ?_ ?_ ?_).1,
    hfailed⟩
  · rw [samplePair_tasks]
    exact List.Perm.swap ..
  · intro p hp
    simp only [sampleAccepted, List.mem_cons, List.not_mem_nil, or_false] at hp
    rcases hp with rfl | rfl
    · exact .nothing rfl (Stream.bytes_ofBytes _)
    · exact .whole rfl (Stream.bytes_ofBytes _)
  · intro task htask wire hwire
    rw [samplePair_tasks] at htask
    have hevents : task.events = [sampleTelemetry] := by
      simp only [List.mem_cons, List.not_mem_nil, or_false] at htask
      rcases htask with rfl | rfl <;> rfl
    rw [hevents, frameChunk_sample, Except.ok.injEq] at hwire
    rw [← hwire]
    decide +kernel

end ScTransport
