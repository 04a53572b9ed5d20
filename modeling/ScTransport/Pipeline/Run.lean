import ScTransport.Pipeline.Encode
import ScTransport.Fec.Reference

/-!
# The sending pipeline

`AutopilotRuntime::run_pipeline` sends a batch through four stages: the optimiser, a sort by
priority, the FEC encoder task and the path scheduler. The channels between the tasks are
FIFO and lossless, so a stage is a function on the list of packets that enter it.

* `distributeAll_spec` — every encoded packet is handed to a path, and nothing else is
* `runPipeline_delivers` — the pipeline neither loses nor invents data
-/

namespace ScTransport

open Infra

/-! ## The path scheduler -/

/-- `optimization::pick_primary_path` for `n` paths. -/
def pickPrimaryPath (le : Nat → Nat → Bool) (explore : Bool) (n : Nat) : Option Nat :=
  let sorted := (List.range n).insertionSort fun a b => le a b
  if n = 0 then none
  else if n = 1 then sorted[0]?
  else if explore then sorted[1]? else sorted[0]?

def Packet.withDeadline (pkt : Packet) (deadline : Option Nat) : Packet :=
  { pkt with info := { pkt.info with deadline := deadline } }

/-- `MultiPathScheduler::distribute_and_send`: which path is handed which packet. -/
def distributeAndSend (A : AutopilotRuntime) (U : Utilities) (k : Nat) (packet : Packet) :
    List (Nat × Packet) :=
  if A.paths = 0 then []
  else
    let primary := (pickPrimaryPath (U.pathLe k) (U.explore k) A.paths).getD 0
    let pkt :=
      if packet.info.priority < 200 then packet.withDeadline (some (U.deadline k)) else packet
    let byUtility := (List.range A.paths).insertionSort fun a b => U.pathLe k a b
    match byUtility.find? fun i => i != primary with
    | some redundant =>
      if U.sendTwice k then [(primary, pkt), (redundant, pkt)] else [(primary, pkt)]
    | none => [(primary, pkt)]

/-- The main loop of `run_pipeline`: one packet after the other goes to the scheduler. -/
def distributeAll (A : AutopilotRuntime) (U : Utilities) (encoded : List Packet) :
    List (Nat × Packet) :=
  encoded.zipIdx.flatMap fun r => distributeAndSend A U r.2 r.1

/-! ## The pipeline -/

/-- The sort by priority, then by deadline. -/
def prioritize (U : Utilities) (packets : List Packet) : List Packet :=
  packets.insertionSort fun a b =>
    b.info.priority < a.info.priority ∨ a.info.priority = b.info.priority ∧
      a.info.deadline.getD (U.later a b) ≤ b.info.deadline.getD (U.later b a)

/-- The packets `AutopilotRuntime::run_pipeline` hands to its paths, in order. -/
def runPipeline (X : Crates) (A : AutopilotRuntime) (U : Utilities) (fecParityCap : Nat)
    (inputPackets : List Packet) : Except Fault (List (Nat × Packet)) :=
  match optimizeTransfer A U inputPackets with
  | .error e => .error e
  | .ok input =>
    match encodeStage X A U fecParityCap (prioritize U input) with
    | .error e => .error e
    | .ok encoded => .ok (distributeAll A U encoded)

/-! ## Handing the packets to the paths -/

theorem pickPrimaryPath_lt {le : Nat → Nat → Bool} {explore : Bool} {n i : Nat}
    (h : pickPrimaryPath le explore n = some i) : i < n := by
  have hmem : ∀ j : Nat, ((List.range n).insertionSort fun a b => le a b)[j]? = some i →
      i < n := by
    intro j hj
    have := List.mem_of_getElem? hj
    rwa [List.mem_insertionSort, List.mem_range] at this
  unfold pickPrimaryPath at h
  simp only [] at h
  split at h
  · cases h
  · split at h
    · exact hmem 0 h
    · split at h
      · exact hmem 1 h
      · exact hmem 0 h

/-- A packet is handed to one or two existing paths, with at most its deadline changed. -/
theorem distributeAndSend_spec {A : AutopilotRuntime} (hpaths : 0 < A.paths) (U : Utilities)
    (k : Nat) (pkt : Packet) :
    (∃ s ∈ distributeAndSend A U k pkt, s.2 = pkt.withDeadline s.2.info.deadline) ∧
    ∀ s ∈ distributeAndSend A U k pkt,
      s.1 < A.paths ∧ s.2 = pkt.withDeadline s.2.info.deadline := by
  have hprimary : (pickPrimaryPath (U.pathLe k) (U.explore k) A.paths).getD 0 < A.paths := by
    cases hp : pickPrimaryPath (U.pathLe k) (U.explore k) A.paths with
    | none => exact hpaths
    | some i => exact pickPrimaryPath_lt hp
  have hpkt : ∀ pkt', pkt' = (if pkt.info.priority < 200
      then pkt.withDeadline (some (U.deadline k)) else pkt) →
      pkt' = pkt.withDeadline pkt'.info.deadline := by
    rintro _ rfl
    split <;> rfl
  unfold distributeAndSend
  rw [if_neg (by omega)]
  simp only []
  split
  · next redundant hred =>
    have hlt : redundant < A.paths := by
      have := List.mem_of_find?_eq_some hred
      rwa [List.mem_insertionSort, List.mem_range] at this
    split
    · refine ⟨⟨_, List.mem_cons_self, hpkt _ rfl⟩, fun s hs => ?_⟩
      rcases List.mem_cons.mp hs with rfl | hs
      · exact ⟨hprimary, hpkt _ rfl⟩
      · rw [List.mem_singleton.mp hs]
        exact ⟨hlt, hpkt _ rfl⟩
    · refine ⟨⟨_, List.mem_cons_self, hpkt _ rfl⟩, fun s hs => ?_⟩
      rw [List.mem_singleton.mp hs]
      exact ⟨hprimary, hpkt _ rfl⟩
  · refine ⟨⟨_, List.mem_cons_self, hpkt _ rfl⟩, fun s hs => ?_⟩
    rw [List.mem_singleton.mp hs]
    exact ⟨hprimary, hpkt _ rfl⟩

/-- Every encoded packet is handed over, and nothing else is. -/
theorem distributeAll_spec {A : AutopilotRuntime} (hpaths : 0 < A.paths) (U : Utilities)
    (encoded : List Packet) :
    (∀ r ∈ encoded, ∃ s ∈ distributeAll A U encoded, s.2 = r.withDeadline s.2.info.deadline) ∧
    ∀ s ∈ distributeAll A U encoded,
      s.1 < A.paths ∧ ∃ r ∈ encoded, s.2 = r.withDeadline s.2.info.deadline := by
  constructor
  · intro r hr
    obtain ⟨k, hk⟩ := List.mem_iff_getElem?.mp hr
    have hk : (r, k) ∈ encoded.zipIdx := List.mem_zipIdx_iff_getElem?.mpr hk
    obtain ⟨s, hs, heq⟩ := (distributeAndSend_spec hpaths U k r).1
    exact ⟨s, List.mem_flatMap.mpr ⟨(r, k), hk, hs⟩, heq⟩
  · intro s hs
    obtain ⟨⟨r, k⟩, hrk, hs⟩ := List.mem_flatMap.mp hs
    obtain ⟨hlt, heq⟩ := (distributeAndSend_spec hpaths U k r).2 s hs
    exact ⟨hlt, r, List.fst_mem_of_mem_zipIdx hrk, heq⟩

/-! ## The whole pipeline -/

theorem mem_prioritize {U : Utilities} {packets : List Packet} {q : Packet} :
    q ∈ prioritize U packets ↔ q ∈ packets := by
  unfold prioritize
  exact List.mem_insertionSort _

/-- A part of a batch is a batch. -/
theorem DataPackets.subset {fec : FecEncoder} {batch part : List Packet}
    (hb : DataPackets fec batch) (hsub : ∀ q ∈ part, q ∈ batch) : DataPackets fec part where
  dataShards := hb.dataShards
  isData q hq := hb.isData q (hsub q hq)
  group q hq := hb.group q (hsub q hq)
  seq q hq := hb.seq q (hsub q hq)
  payload q hq q' hq' := hb.payload q (hsub q hq) q' (hsub q' hq')

theorem Emitted.mono {X : Crates} {fec : FecEncoder} {cap : Nat} {part batch : List Packet}
    {r : Packet} (h : Emitted X fec cap part r) (hsub : ∀ q ∈ part, q ∈ batch) :
    Emitted X fec cap batch r := by
  rcases h with hr | ⟨g, p', block, hp', hblock, hrest⟩
  · exact Or.inl (hsub r hr)
  · exact Or.inr ⟨g, p', block, hp', fun q hq => ⟨hsub q (hblock q hq).1, (hblock q hq).2⟩, hrest⟩

/--
A run over a batch of data packets ends. Every packet of an open group is handed to a path, and
what is handed over was emitted by the encoder; its data packets belong to open groups.
-/
theorem runPipeline_spec (X : Crates) {A : AutopilotRuntime} (U : Utilities) (cap : Nat)
    {packets : List Packet} (hon : A.completionFirstEnabled = true) (hpaths : 0 < A.paths)
    (hb : DataPackets A.fec packets) :
    ∃ sent, runPipeline X A U cap packets = .ok sent ∧
      (∀ q ∈ packets, q.fecGroup ∉ A.completedBlocks → ∃ s ∈ sent,
        s.1 < A.paths ∧ s.2.isParity = false ∧ s.2.seq = q.seq ∧ s.2.payload = q.payload) ∧
      ∀ s ∈ sent, s.1 < A.paths ∧ ∃ r, Emitted X A.fec cap packets r ∧
        s.2 = r.withDeadline s.2.info.deadline ∧
        (r.isParity = false → r.fecGroup ∉ A.completedBlocks) := by
  obtain ⟨input, hopt, hinput⟩ := optimizeTransfer_spec (U := U) hon hpaths packets
  have hmem : ∀ {q : Packet}, q ∈ prioritize U input ↔
      q ∈ packets ∧ q.fecGroup ∉ A.completedBlocks :=
    mem_prioritize.trans (hinput _)
  obtain ⟨encoded, henc, hout, hcarried⟩ := encodeStage_spec X U cap
    (hb.subset fun q hq => (hmem.mp hq).1 : DataPackets A.fec (prioritize U input))
  obtain ⟨hhanded, hsent⟩ := distributeAll_spec hpaths U encoded
  refine ⟨distributeAll A U encoded, by unfold runPipeline; simp only [hopt, henc], ?_, ?_⟩
  · intro q hq hopen
    obtain ⟨r, hr, hdata, hseq, hpay⟩ := hcarried q (hmem.mpr ⟨hq, hopen⟩)
    obtain ⟨s, hs, heq⟩ := hhanded r hr
    refine ⟨s, hs, (hsent s hs).1, ?_⟩
    rw [heq]
    exact ⟨hdata, hseq, hpay⟩
  · intro s hs
    obtain ⟨hlt, r, hr, heq⟩ := hsent s hs
    refine ⟨hlt, r, (hout r hr).mono fun q hq => (hmem.mp hq).1, heq, fun hdata => ?_⟩
    rcases (hout r hr).cases with hr | hr
    · exact (hmem.mp hr).2
    · exact absurd (hr.isParity.symm.trans hdata) (by decide)

/--
**The pipeline neither loses nor invents data.** Whatever the utilities answer, a run over a
batch of data packets ends. Every packet of a group that is not completed is handed to an
existing path as a data packet with its `seq` and payload. What is handed over is a packet of
such a group with at most its deadline changed, or a parity packet within the cap of a group
that is complete in the batch.
-/
theorem runPipeline_delivers (X : Crates) (A : AutopilotRuntime) (U : Utilities)
    (fecParityCap : Nat) (packets : List Packet) (hon : A.completionFirstEnabled = true)
    (hpaths : 0 < A.paths) (hb : DataPackets A.fec packets) :
    ∃ sent, runPipeline X A U fecParityCap packets = .ok sent ∧
      (∀ q ∈ packets, q.fecGroup ∉ A.completedBlocks → ∃ s ∈ sent,
        s.1 < A.paths ∧ s.2.isParity = false ∧ s.2.seq = q.seq ∧ s.2.payload = q.payload) ∧
      (∀ s ∈ sent, s.2.isParity = false → s.2.fecGroup ∉ A.completedBlocks) ∧
      ∀ s ∈ sent, s.1 < A.paths ∧
        ((∃ q ∈ packets, s.2 = q.withDeadline s.2.info.deadline) ∨
          ParityOf A.fec fecParityCap packets s.2) := by
  obtain ⟨sent, hrun, hdelivered, hsent⟩ :=
    runPipeline_spec X U fecParityCap hon hpaths hb
  refine ⟨sent, hrun, hdelivered, fun s hs hdata => ?_, fun s hs => ?_⟩
  · obtain ⟨-, r, -, heq, hopen⟩ := hsent s hs
    rw [heq] at hdata ⊢
    exact hopen hdata
  · obtain ⟨hlt, r, hr, heq, -⟩ := hsent s hs
    refine ⟨hlt, hr.cases.imp (fun hr => ⟨r, hr, heq⟩) fun hr => ?_⟩
    rw [heq]
    exact ⟨hr.isParity, hr.parityIndex, hr.complete⟩

/-! ### A batch with a repeated packet and a completed group -/

def samplePacket (seq : Nat) (payload : Bytes) : Packet :=
  { id := seq, seq := seq, payload := payload, isParity := false
    info := { id := seq, priority := 1, deadline := none, size := payload.length }
    fecGroup := seq / 2, reconstructable := false, parityIndex := 0 }

def sampleBatch : List Packet :=
  [samplePacket 1 [7], samplePacket 0 [5, 6], samplePacket 1 [7], samplePacket 2 [8]]

/-- One path, group 1 completed. -/
def sampleRuntime : AutopilotRuntime := ⟨⟨2, 1⟩, true, [1], 1⟩

/-- Keeps every order as it is, and never duplicates or explores. -/
def sampleUtilities : Utilities where
  groupLe := fun _ _ => true
  stashLe := fun _ _ => true
  blockLe := fun _ _ _ => true
  slower := fun _ _ _ => true
  dupPays := fun _ _ _ => false
  later := fun _ _ => 0
  pathLe := fun _ _ _ => true
  explore := fun _ => false
  deadline := fun k => k
  sendTwice := fun _ => false

theorem sampleBatch_data : DataPackets sampleRuntime.fec sampleBatch where
  dataShards := by decide
  isData := by decide
  group := by decide
  seq := by decide
  payload := by decide

theorem sampleBatch_delivered :
    ∃ sent, runPipeline Crates.reference sampleRuntime sampleUtilities 1 sampleBatch = .ok sent ∧
      (∀ q ∈ sampleBatch, q.fecGroup ∉ sampleRuntime.completedBlocks → ∃ s ∈ sent,
        s.1 < sampleRuntime.paths ∧ s.2.isParity = false ∧ s.2.seq = q.seq ∧
          s.2.payload = q.payload) ∧
      (∀ s ∈ sent, s.2.isParity = false → s.2.fecGroup ∉ sampleRuntime.completedBlocks) ∧
      ∀ s ∈ sent, s.1 < sampleRuntime.paths ∧
        ((∃ q ∈ sampleBatch, s.2 = q.withDeadline s.2.info.deadline) ∨
          ParityOf sampleRuntime.fec 1 sampleBatch s.2) :=
  runPipeline_delivers Crates.reference sampleRuntime sampleUtilities 1 sampleBatch rfl
    (by decide) sampleBatch_data

end ScTransport
