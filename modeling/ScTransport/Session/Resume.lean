import ScTransport.Fec.Reference
import ScTransport.Receiver.Ingest
import Mathlib.Data.Finset.Lattice.Fold
import Mathlib.Order.Lattice.Nat

/-!
# Resume negotiation

A receiver with `resume_partial` announces in its `ManifestAck` which chunks it has recorded
and, if a part file exists, the hash of every chunk in it. The sender skips the recorded
chunks and those whose hash equals its own. The receiver counts only what it has recorded.

* `mem_senderSkip` — the set the sender skips
* `senderSkip_agrees_iff` — both sides agree on what is outstanding exactly when no chunk
  missing from the record already has the right hash in the part file
-/

namespace ScTransport

open Infra

/-! ## What the receiver finds -/

/-- The state file as `serde_json` reads it. -/
inductive SavedState where
  | unreadable
  | saved (receivedChunks : List Nat)
  deriving DecidableEq

/-- The files of one transfer id, and the file that will replace the part file. -/
structure Disk where
  part : Option Bytes
  state : Option SavedState
  final : Option Bytes
  deriving DecidableEq

/-- `received_chunks` as it is when the manifest is acknowledged. -/
def loadReceived (resumePartial : Bool) (disk : Disk) : Finset Nat :=
  if resumePartial && disk.state.isSome && disk.part.isSome then
    match disk.state with
    | some (.saved receivedChunks) => receivedChunks.toFinset
    | _ => ∅
  else ∅

/-- Hash of chunk `i` of the part file; zeros where the file has no bytes for it. -/
def hashExistingChunk (X : Crates) (m : TransferManifest) (file : Bytes) (i : Nat) : Digest :=
  let off := i * m.chunkSize % 2 ^ 64
  let stop := min (min ((off + m.chunkSize) % 2 ^ 64) file.length) m.totalSize
  if stop ≤ off then Digest.zero else X.blake3 (slice file off (stop - off))

def hashExistingChunks (X : Crates) (m : TransferManifest) (file : Bytes) : List Digest :=
  (List.range m.numChunks).map (hashExistingChunk X m file)

def chunkHashes (X : Crates) (resumePartial : Bool) (m : TransferManifest) (disk : Disk) :
    List Digest :=
  match disk.part with
  | some file => if resumePartial then hashExistingChunks X m file else []
  | none => []

/-- The indices of a hash set. Its order is unspecified, and every reader collects them into
a set again. -/
def indexList (received : Finset Nat) : List Nat :=
  (List.range (received.sup id + 1)).filter (· ∈ received)

theorem toFinset_indexList (received : Finset Nat) : (indexList received).toFinset = received := by
  ext i
  simp only [indexList, List.mem_toFinset, List.mem_filter, List.mem_range, decide_eq_true_eq]
  refine and_iff_right_of_imp fun hi => ?_
  have hle : i ≤ received.sup id := Finset.le_sup (f := id) hi
  omega

def manifestAck (X : Crates) (resumePartial : Bool) (m : TransferManifest) (disk : Disk) :
    ManifestAck where
  accepted := true
  message := none
  receivedChunks := indexList (loadReceived resumePartial disk)
  chunkHashes := chunkHashes X resumePartial m disk

/-! ## What the sender skips -/

/-- Errors of `FileSender::send`. File errors carry the text of the operating system. -/
inductive SendError where
  | fileOperation
  | manifestRejected (message : Option String)
  | verificationFailed (message : Option String)
  | missingFinalAck
  deriving DecidableEq

def SendError.text : SendError → String
  | .fileOperation => "io"
  | .manifestRejected message => s!"receiver rejected manifest: " ++ message.getD "no reason"
  | .verificationFailed message => s!"receiver verification failed: " ++ message.getD "unknown"
  | .missingFinalAck => "missing final ack"

/-- One turn of the delta loop. -/
def deltaStep (X : Crates) (cfg : SenderConfig) (file : Bytes) (m : TransferManifest)
    (hashes : List Digest) (skip : Finset Nat) (idx : Nat) : Except SendError (Finset Nat) :=
  if idx ∈ skip then .ok skip
  else
    match hashes[idx]? with
    | none => .ok skip
    | some receiverHash =>
      if receiverHash = Digest.zero then .ok skip
      else
        match readChunkRange cfg file idx m.totalSize with
        | none => .error .fileOperation
        | some raw =>
          if raw ≠ [] ∧ X.blake3 raw = receiverHash then .ok (insert idx skip) else .ok skip

/-- The skip set `FileSender::send` computes from the acknowledgement. -/
def senderSkip (X : Crates) (cfg : SenderConfig) (file : Bytes) (m : TransferManifest)
    (ack : ManifestAck) : Except SendError (Finset Nat) :=
  if ack.accepted = false then .error (.manifestRejected ack.message)
  else if ack.chunkHashes = [] then .ok ack.receivedChunks.toFinset
  else
    (List.range m.numChunks).foldlM (deltaStep X cfg file m ack.chunkHashes)
      ack.receivedChunks.toFinset

/-- The receiver's hash of chunk `i` is a real one and equals the sender's. -/
def HashHit (X : Crates) (cfg : SenderConfig) (file : Bytes) (m : TransferManifest)
    (hashes : List Digest) (i : Nat) : Prop :=
  ∃ h raw, hashes[i]? = some h ∧ h ≠ Digest.zero ∧
    readChunkRange cfg file i m.totalSize = some raw ∧ raw ≠ [] ∧ X.blake3 raw = h

section Skip

variable {X : Crates} {t : Transfer} (hashes : List Digest)

/-- A turn that adds nothing is right when its index is there already or misses. -/
theorem mem_skip_iff {P : Prop} {skip : Finset Nat} {idx : Nat} (h : P → idx ∈ skip) (j : Nat) :
    j ∈ skip ↔ j ∈ skip ∨ j = idx ∧ P := by
  refine ⟨Or.inl, ?_⟩
  rintro (hj | ⟨rfl, hP⟩)
  · exact hj
  · exact h hP

/-- One turn adds its index exactly when the hashes agree. -/
theorem deltaStep_ok (skip : Finset Nat) {idx : Nat} (hi : idx < t.numChunks) :
    ∃ skip', deltaStep X t.cfg t.src.bytes (t.manifest X) hashes skip idx = .ok skip' ∧
      ∀ j, j ∈ skip' ↔ j ∈ skip ∨
        j = idx ∧ HashHit X t.cfg t.src.bytes (t.manifest X) hashes idx := by
  have hread : readChunkRange t.cfg t.src.bytes idx (t.manifest X).totalSize
      = some (t.raw idx) := readChunkRange_eq hi
  unfold deltaStep
  split
  · next hmem => exact ⟨skip, rfl, mem_skip_iff fun _ => hmem⟩
  · cases hh : hashes[idx]? with
    | none =>
      refine ⟨skip, rfl, mem_skip_iff ?_⟩
      rintro ⟨_, _, hsome, -⟩
      rw [hh] at hsome
      cases hsome
    | some h =>
      dsimp only
      split
      · next hzero =>
        refine ⟨skip, rfl, mem_skip_iff ?_⟩
        rintro ⟨_, _, hsome, hne, -⟩
        rw [hh] at hsome
        cases hsome
        exact absurd hzero hne
      · next hne =>
        rw [hread]
        dsimp only
        split
        · next hhit =>
          refine ⟨_, rfl, fun j => ?_⟩
          rw [Finset.mem_insert, or_comm]
          have hH : HashHit X t.cfg t.src.bytes (t.manifest X) hashes idx :=
            ⟨h, t.raw idx, hh, hne, hread, hhit⟩
          exact or_congr_right (and_iff_left hH).symm
        · next hmiss =>
          refine ⟨skip, rfl, mem_skip_iff ?_⟩
          rintro ⟨_, _, hsome, -, hraw, hhit⟩
          rw [hh] at hsome
          rw [hread] at hraw
          cases hsome
          cases hraw
          exact absurd hhit hmiss

theorem deltaFold_ok : ∀ (idxs : List Nat) (skip : Finset Nat), (∀ i ∈ idxs, i < t.numChunks) →
    ∃ skip', idxs.foldlM (deltaStep X t.cfg t.src.bytes (t.manifest X) hashes) skip = .ok skip' ∧
      ∀ j, j ∈ skip' ↔ j ∈ skip ∨
        j ∈ idxs ∧ HashHit X t.cfg t.src.bytes (t.manifest X) hashes j
  | [], skip, _ => ⟨skip, rfl, fun j => by simp⟩
  | idx :: rest, skip, h => by
    obtain ⟨s₁, hs₁, hmem₁⟩ := deltaStep_ok (X := X) (t := t) hashes skip
      (h idx List.mem_cons_self)
    obtain ⟨s₂, hs₂, hmem₂⟩ := deltaFold_ok rest s₁ fun i hi => h i (List.mem_cons_of_mem _ hi)
    refine ⟨s₂, ?_, fun j => ?_⟩
    · rw [List.foldlM_cons, hs₁]
      exact hs₂
    · rw [hmem₂, hmem₁, or_assoc, List.mem_cons, or_and_right]
      refine or_congr_right (or_congr_left ?_)
      constructor
      · rintro ⟨rfl, hj⟩
        exact ⟨rfl, hj⟩
      · rintro ⟨rfl, hj⟩
        exact ⟨rfl, hj⟩

/-- **The sender's skip set**: what is recorded, and what has the right hash. -/
theorem mem_senderSkip (X : Crates) (t : Transfer) (resumePartial : Bool) (disk : Disk) :
    ∃ skip, senderSkip X t.cfg t.src.bytes (t.manifest X)
        (manifestAck X resumePartial (t.manifest X) disk) = .ok skip ∧
      ∀ j, j ∈ skip ↔ j ∈ loadReceived resumePartial disk ∨ j < t.numChunks ∧
        HashHit X t.cfg t.src.bytes (t.manifest X)
          (chunkHashes X resumePartial (t.manifest X) disk) j := by
  have hrec : (manifestAck X resumePartial (t.manifest X) disk).receivedChunks.toFinset
      = loadReceived resumePartial disk := toFinset_indexList _
  unfold senderSkip
  rw [if_neg (by simp [manifestAck]), hrec]
  split
  · next hnil =>
    refine ⟨_, rfl, fun j => ⟨Or.inl, ?_⟩⟩
    rintro (hj | ⟨-, h, _, hsome, -⟩)
    · exact hj
    · have hnil' : chunkHashes X resumePartial (t.manifest X) disk = [] := hnil
      rw [hnil'] at hsome
      cases hsome
  · obtain ⟨skip, hskip, hmem⟩ := deltaFold_ok (X := X) (t := t)
      (chunkHashes X resumePartial (t.manifest X) disk) (List.range t.numChunks)
      (loadReceived resumePartial disk) fun i hi => List.mem_range.mp hi
    refine ⟨skip, hskip, fun j => ?_⟩
    rw [hmem, List.mem_range]

/--
**When both sides agree on what is outstanding.**

Agreement means that the sender skips only recorded chunks, so that the receive loop ends
once everything else has been ingested.
-/
theorem senderSkip_agrees_iff (X : Crates) (t : Transfer) (disk : Disk) :
    ∃ skip, senderSkip X t.cfg t.src.bytes (t.manifest X)
        (manifestAck X true (t.manifest X) disk) = .ok skip ∧
      ((skip ⊆ loadReceived true disk ∧
          ∀ received : Finset Nat,
            loadReceived true disk ∪ (Finset.range (t.manifest X).numChunks \ skip) ⊆ received →
            ¬ received.card < (t.manifest X).numChunks) ↔
        ∀ i, i < (t.manifest X).numChunks → i ∉ loadReceived true disk →
          ¬ HashHit X t.cfg t.src.bytes (t.manifest X)
            (chunkHashes X true (t.manifest X) disk) i) := by
  obtain ⟨skip, hskip, hmem⟩ := mem_senderSkip X t true disk
  refine ⟨skip, hskip, ?_, ?_⟩
  · rintro ⟨hsub, -⟩ i hi hnot hhit
    exact hnot (hsub ((hmem i).mpr (Or.inr ⟨hi, hhit⟩)))
  · intro hcond
    have hsub : skip ⊆ loadReceived true disk := by
      intro j hj
      by_contra hnot
      rcases (hmem j).mp hj with hrec | ⟨hlt, hhit⟩
      · exact hnot hrec
      · exact hcond j hlt hnot hhit
    refine ⟨hsub, fun received hrec => Nat.not_lt.mpr ?_⟩
    -- every announced index is recorded or was sent
    have hall : Finset.range (t.manifest X).numChunks ⊆ received := by
      intro i hi
      refine hrec (Finset.mem_union.mpr ?_)
      by_cases hs : i ∈ skip
      · exact Or.inl (hsub hs)
      · exact Or.inr (Finset.mem_sdiff.mpr ⟨hi, hs⟩)
    calc (t.manifest X).numChunks = (Finset.range (t.manifest X).numChunks).card :=
          (Finset.card_range _).symm
      _ ≤ received.card := Finset.card_le_card hall

/-- A part file with the first chunk in it, cut off before the state file was written. -/
def sampleUnrecorded : Disk := ⟨some [97, 98, 0], none, none⟩

/--
The sender skips chunk `0`, the receiver has not recorded it. When chunk `1` has been ingested
nothing more is sent, and the receive loop still waits.
-/
theorem sample_skip_not_received :
    senderSkip Crates.reference sample.cfg sample.src.bytes (sample.manifest Crates.reference)
        (manifestAck Crates.reference true (sample.manifest Crates.reference) sampleUnrecorded)
      = .ok {0} ∧
    ¬ ({0} : Finset Nat) ⊆ loadReceived true sampleUnrecorded ∧
    (loadReceived true sampleUnrecorded ∪ (Finset.range 2 \ {0})).card
      < (sample.manifest Crates.reference).numChunks := by
  decide +kernel

end Skip

end ScTransport
