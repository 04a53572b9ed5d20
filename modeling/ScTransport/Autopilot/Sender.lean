import ScTransport.Adaptive.Blocks
import ScTransport.Autopilot.Runtime

/-!
# The sender with its controllers

`send_adaptive` with the whole `AutopilotRuntime`: the measurements of the feedback frames and of
the connection go into the controllers, and the pipeline runs with what these say. The rest of the
data phase is that of `Adaptive.System`.

* `controlled` — the data phase, with the controllers
* `Controlled.reach_data` — every run is one of the data phase without them
* `controlled_routing`, `controlled_counts` — what the controllers do in every transfer
-/

namespace ScTransport

open Infra

variable {R : FloatOps}

/-- The measurements of a feedback frame. -/
structure Measurements (R : FloatOps) where
  rttMs : Nat
  lossHint : Fl R
  decodeDelayMs : Nat
  bufferOccupancy : Fl R
  cpuLoad : Fl R

/-- What `send_adaptive` starts from, besides the manifest. -/
structure SenderEnv (R : FloatOps) where
  /-- `SC_SCT_DUPLICATE_BUDGET` -/
  duplicateBudget : Nat
  /-- `SC_SCT_ADAPTIVE_LOSS_HINT` -/
  lossHint : Fl R
  now : Nat
  rtt : Nat
  cwnd : Nat

/-- The bandwidth that a congestion window stands for. -/
def bandwidthOf (rtt cwnd : Nat) : Fl R :=
  ((max cwnd 1200 : Nat) : Fl R) / max (Fl.asSecs rtt) 0.001 * 8.0

/-- The parity shards of a mode. -/
def TransferMode.parity (parity : Nat) : TransferMode → Nat
  | .aggressive => parity + 1
  | .balanced => parity
  | .conservative => max (parity - 1) 1

namespace Autopilot

variable (P : AdaptiveSetup) (A : Autopilot R)

def syncStabilizerRttVariance : Autopilot R :=
  { A with stabilizer := { A.stabilizer with rttVarianceTrend := A.cc.rttVarianceTrend } }

/-- `send_adaptive` before its loop. -/
def init (e : SenderEnv R) : Autopilot R :=
  let bandwidth := bandwidthOf e.rtt e.cwnd
  let loss := e.lossHint.clamp 0 1
  let cc := HybridCongestionController.default.onNetworkSample bandwidth e.rtt e.rtt loss
  let feedback : ReceiverFeedback R :=
    { decodeDelay := if 80 * 1000000 < e.rtt then 45 * 1000000 else 10 * 1000000
      bufferOccupancy := if max e.cwnd 1200 < 2 ^ 20 then 0.75 else 0.35
      cpuLoad := 0.5 }
  let A : Autopilot R :=
    { strategy := StrategyEngine.default.update ⟨e.rtt, loss, 0.2, feedback⟩
      cc := cc
      scheduler := (MultiPathScheduler.init R (max e.duplicateBudget 1) e.now).applyNetworkSample
        e.rtt bandwidth loss
      fec :=
        { dataShards := max P.manifest.dataShards 1
          parityShards := if P.parityCap = 0 then 0 else P.manifest.parityShards }
      metrics := .default
      stabilizer := .default e.now
      completedBlocks := []
      blockDataShardsSent := fun _ => 0
      completionFirstEnabled := true }
  A.syncStabilizerRttVariance

/-- The `speculative_ratio` after a feedback frame. -/
def speculativeRatioFor (cc : HybridCongestionController R) (loss : Fl R) (rtt : Nat) : Fl R :=
  let headroom := cc.estimateUnusedBandwidth
  if cc.bandwidthEstimate * 0.25 < headroom then 0.20
  else if loss < 0.02 ∧ rtt ≤ 20 * 1000000 then 0.05
  else if headroom < cc.bandwidthEstimate * 0.05 then 0.08
  else 0.15

/-- `apply_feedback_if_present`, with the measurements of the frame. -/
def applyFeedbackIfPresent (defaultRtt : Nat) (m : Measurements R) :
    Option ReceiverFeedbackFrame → Autopilot R
  | none => A.syncStabilizerRttVariance
  | some fb =>
    let rtt := max (m.rttMs * 1000000) defaultRtt
    let loss := m.lossHint.clamp 0 1
    let feedback : ReceiverFeedback R :=
      ⟨m.decodeDelayMs * 1000000, m.bufferOccupancy, m.cpuLoad⟩
    let cc := A.cc.onNetworkSample A.cc.bandwidthEstimate rtt A.cc.minRtt loss
    let strategy := A.strategy.update ⟨rtt, loss, 0.2, feedback⟩
    let scheduler := A.scheduler.applyNetworkSample rtt cc.bandwidthEstimate loss
    let (completedBlocks, scheduler) :=
      match fb.blockReconstructable, fb.completedBlockId with
      | true, some blockId =>
        (A.completedBlocks.insert blockId, scheduler.markReconstructable blockId)
      | _, _ => (A.completedBlocks, scheduler)
    let parity := strategy.mode.parity (computeFecRatio loss cc.rttVariance).2
    { A with
      strategy := strategy
      cc := cc
      scheduler := { scheduler with speculativeRatio := speculativeRatioFor cc loss rtt }
      completedBlocks := completedBlocks
      fec :=
        { dataShards := max P.manifest.dataShards 1
          parityShards :=
            if P.manifest.parityShards = 0 ∨ P.parityCap = 0 then 0
            else max (min (min parity P.manifest.parityShards) P.parityCap) 1 } }
      |>.syncStabilizerRttVariance

/-- The sample of the connection behind `run_pipeline`, in `flush_batch`. -/
def sampled (sampleRtt cwnd prevRtt : Nat) : Autopilot R :=
  let bandwidth := bandwidthOf sampleRtt cwnd
  let cc := A.cc.onNetworkSample bandwidth sampleRtt prevRtt A.cc.lossRate
  { A with
    cc := cc
    scheduler := A.scheduler.applyNetworkSample sampleRtt bandwidth cc.lossRate }
    |>.syncStabilizerRttVariance

end Autopilot

/-! ## The system -/

/-- The data phase, and the controllers of its sender. -/
structure Controlled (R : FloatOps) where
  data : Adaptive
  autopilot : Autopilot R
  prevRtt : Nat
  /-- Ghost: what was handed to the paths for every packet so far. -/
  log : List (Packet × List (Nat × Packet))

inductive ControlledLabel (R : FloatOps) where
  | apply (defaultRtt : Nat) (m : Measurements R)
  | pipeline (E : PipelineEnv) (sampleRtt cwnd : Nat)
  /-- A step without the controllers. -/
  | other (l : AdaptiveLabel)

/-- The steps in which the controllers have a part. -/
def AdaptiveLabel.isControlled : AdaptiveLabel → Bool
  | .send (.apply _) => true
  | .send (.pipeline _) => true
  | _ => false

section System

variable (P : AdaptiveSetup)

def controlledStep (s : Controlled R) : ControlledLabel R → Option (Controlled R)
  | .apply defaultRtt m =>
    match s.data.sender.pc with
    | .applying last =>
      let A := s.autopilot.applyFeedbackIfPresent P defaultRtt m s.data.sender.feedbackState
      some { s with
        autopilot := A
        data := { s.data with
          sender := { s.data.sender with runtime := A.toRuntime, pc := .nacking last } } }
    | _ => none
  | .pipeline E sampleRtt cwnd =>
    match s.data.sender.pc with
    | .sending last =>
      match s.autopilot.runPipeline P.crates E P.parityCap s.data.sender.packets with
      | .error _ => none
      | .ok (A, log) =>
        let A := A.sampled sampleRtt cwnd s.prevRtt
        let sent := log.flatMap Prod.snd
        some
          { autopilot := A
            prevRtt := sampleRtt
            log := s.log ++ log
            data := { s.data with
              sender := { s.data.sender with
                packets := []
                runtime := A.toRuntime
                streamQueue := s.data.sender.streamQueue ++ handedTo 0 sent
                datagramQueue := s.data.sender.datagramQueue ++ handedTo 1 sent
                pc := if last then .draining else .checking } } }
    | _ => none
  | .other l =>
    if l.isControlled then none
    else (adaptiveStep P s.data l).map fun data => { s with data := data }

def controlled (R : FloatOps) : Lts (Controlled R) (ControlledLabel R) := ⟨controlledStep P⟩

def Controlled.init (e : SenderEnv R) (st : IngestState) : Controlled R where
  data := Adaptive.init P st
  autopilot := Autopilot.init P e
  prevRtt := e.rtt
  log := []

end System

/-! ## Refinement -/

variable {P : AdaptiveSetup}

namespace Autopilot

@[simp] theorem toRuntime_sync (A : Autopilot R) :
    A.syncStabilizerRttVariance.toRuntime = A.toRuntime := rfl

@[simp] theorem toRuntime_sampled (A : Autopilot R) (sampleRtt cwnd prevRtt : Nat) :
    (A.sampled sampleRtt cwnd prevRtt).toRuntime = A.toRuntime := by
  unfold sampled toRuntime
  simp [syncStabilizerRttVariance, MultiPathScheduler.applyNetworkSample]

/-- The parity shards a feedback frame asks for. -/
def feedbackParity (A : Autopilot R) (defaultRtt : Nat) (m : Measurements R) : Nat :=
  let rtt := max (m.rttMs * 1000000) defaultRtt
  let loss := m.lossHint.clamp 0 1
  let cc := A.cc.onNetworkSample A.cc.bandwidthEstimate rtt A.cc.minRtt loss
  (A.strategy.update ⟨rtt, loss, 0.2, ⟨m.decodeDelayMs * 1000000, m.bufferOccupancy,
    m.cpuLoad⟩⟩).mode.parity (computeFecRatio loss cc.rttVariance).2

/-- For the abstract sender the measurements come down to the number of parity shards. -/
theorem toRuntime_apply (A : Autopilot R) (defaultRtt : Nat) (m : Measurements R)
    (fb : Option ReceiverFeedbackFrame) :
    (A.applyFeedbackIfPresent P defaultRtt m fb).toRuntime =
      ScTransport.applyFeedbackIfPresent P (A.feedbackParity defaultRtt m) A.toRuntime fb := by
  cases fb with
  | none => rfl
  | some fb =>
    obtain ⟨completedBlockId, blockReconstructable, missing⟩ := fb
    have hpaths : ∀ (rtt : Nat) (bandwidth loss : Fl R),
        (A.scheduler.applyNetworkSample rtt bandwidth loss).paths.length =
          A.scheduler.paths.length :=
      fun rtt bandwidth loss => List.length_map ..
    unfold applyFeedbackIfPresent ScTransport.applyFeedbackIfPresent
    rw [toRuntime_sync]
    cases blockReconstructable with
    | false => exact congrArg (AutopilotRuntime.mk _ _ _) (hpaths _ _ _)
    | true =>
      cases completedBlockId with
      | none => exact congrArg (AutopilotRuntime.mk _ _ _) (hpaths _ _ _)
      | some blockId => exact congrArg (AutopilotRuntime.mk _ _ _) (hpaths _ _ _)

end Autopilot

/-- Steps without the controllers leave the runtime alone. -/
theorem runtime_of_not_controlled {s s' : Adaptive} {l : AdaptiveLabel}
    (hl : l.isControlled = false) (h : (adaptive P).step s l = some s') :
    s'.sender.runtime = s.sender.runtime := by
  cases AdaptiveMove.of_step h with
  | sent hm =>
    cases hm with
    | applied hpc => cases hl
    | _ => rfl
  | @wrote path => cases path <;> rfl
  | @unwritten path => cases path <;> rfl
  | _ => rfl

/-- The runtime of the data phase is what it sees of the controllers. -/
structure Controlled.Seen (s : Controlled R) : Prop where
  runtime : s.data.sender.runtime = s.autopilot.toRuntime
  paths : 2 ≤ s.autopilot.scheduler.paths.length

theorem Controlled.Seen.paths_of {s : Controlled R} (h : s.Seen) {A : Autopilot R}
    (hA : A.toRuntime.paths = s.autopilot.toRuntime.paths) : 2 ≤ A.scheduler.paths.length :=
  h.paths.trans_eq hA.symm

/-- A step with the controllers is a step without them, for some answers. -/
theorem Controlled.Seen.step {s s' : Controlled R} {l : ControlledLabel R} (h : s.Seen)
    (hstep : (controlled P R).step s l = some s') :
    s'.Seen ∧ (adaptive P).Reach (fun _ _ => True) s.data s'.data := by
  cases l with
  | apply defaultRtt m =>
    simp only [controlled, controlledStep] at hstep
    split at hstep
    · next last hpc =>
      cases hstep
      have hparity := s.autopilot.toRuntime_apply (P := P) defaultRtt m
        s.data.sender.feedbackState
      have hpaths := congrArg AutopilotRuntime.paths hparity
      have hkeep : (applyFeedbackIfPresent P (s.autopilot.feedbackParity defaultRtt m)
          s.autopilot.toRuntime s.data.sender.feedbackState).paths =
            s.autopilot.toRuntime.paths := by
        cases s.data.sender.feedbackState <;> rfl
      refine ⟨⟨rfl, h.paths_of (hpaths.trans hkeep)⟩,
        Lts.Reach.refl.step (l := .send (.apply (s.autopilot.feedbackParity defaultRtt m)))
          trivial ?_⟩
      show (sendStep P s.data.sender (.apply _)).map _ = _
      simp only [sendStep, hpc, Option.map_some, h.runtime, hparity]
    · cases hstep
  | pipeline E sampleRtt cwnd =>
    simp only [controlled, controlledStep] at hstep
    split at hstep
    · next last hpc =>
      split at hstep
      · cases hstep
      · next A log hrun =>
        cases hstep
        obtain ⟨⟨U, hU⟩, hA⟩ := Autopilot.runPipeline_refines h.paths hrun
        have hsampled : (A.sampled sampleRtt cwnd s.prevRtt).toRuntime =
            s.autopilot.toRuntime := (A.toRuntime_sampled _ _ _).trans hA
        refine ⟨⟨rfl, h.paths_of (congrArg AutopilotRuntime.paths hsampled)⟩,
          Lts.Reach.refl.step (l := .send (.pipeline U)) trivial ?_⟩
        show (sendStep P s.data.sender (.pipeline U)).map _ = _
        simp only [sendStep, hpc, h.runtime, hU, Option.map_some, hsampled]
    · cases hstep
  | other l =>
    simp only [controlled, controlledStep] at hstep
    split at hstep
    · cases hstep
    · next hl =>
      obtain ⟨data, hdata, rfl⟩ := Option.map_eq_some_iff.mp hstep
      have hruntime := runtime_of_not_controlled (P := P) (by simpa using hl) hdata
      exact ⟨⟨hruntime.trans h.runtime, h.paths⟩,
        Lts.Reach.refl.step (l := l) trivial hdata⟩

theorem Controlled.Seen.init (P : AdaptiveSetup) (e : SenderEnv R) (st : IngestState) :
    (Controlled.init P e st).Seen := ⟨rfl, le_rfl⟩

/-- Every run is one of the data phase without the controllers. -/
theorem Controlled.reach_data {e : SenderEnv R} {st : IngestState} {s : Controlled R}
    {ok : Controlled R → ControlledLabel R → Prop}
    (h : (controlled P R).Reach ok (.init P e st) s) :
    s.Seen ∧ (adaptive P).Reach (fun _ _ => True) (Adaptive.init P st) s.data :=
  h.simulates (f := Controlled.data) (Controlled.Seen.init P e st)
    fun hs _ hstep => hs.step hstep

/-! ## The controllers in every transfer -/

/-- What the controllers of a transfer keep. -/
structure Controlled.Steady (e : SenderEnv R) (s : Controlled R) : Prop where
  paths : 2 ≤ s.autopilot.scheduler.paths.length
  scheduler : (schedulerSystem R).Reach (fun _ l => l.Paced)
    ⟨.init R (max e.duplicateBudget 1) e.now, []⟩ ⟨s.autopilot.scheduler, s.log⟩
  inFlightDuplicates : s.autopilot.scheduler.inFlightDuplicates = 0
  dataSent : ∀ g, s.autopilot.blockDataShardsSent g = Autopilot.dataSent s.log g
  metrics : s.autopilot.metrics.Ordered

theorem Controlled.Steady.init (P : AdaptiveSetup) (e : SenderEnv R) (st : IngestState) :
    (Controlled.init P e st).Steady e where
  paths := le_rfl
  scheduler := Lts.Reach.refl.step (l := .sample _ _ _) trivial rfl
  inFlightDuplicates := rfl
  dataSent := fun _ => rfl
  metrics := ⟨le_rfl, le_rfl⟩

namespace Autopilot

/-- Feedback concerns what the paths report, the groups that are known and the ratio. -/
theorem applyFeedback_scheduler (A : Autopilot R) (defaultRtt : Nat) (m : Measurements R)
    (fb : Option ReceiverFeedbackFrame) (log : List (Packet × List (Nat × Packet))) :
    (schedulerSystem R).Reach (fun _ l => l.Paced) ⟨A.scheduler, log⟩
        ⟨(A.applyFeedbackIfPresent P defaultRtt m fb).scheduler, log⟩ ∧
      (A.applyFeedbackIfPresent P defaultRtt m fb).scheduler.inFlightDuplicates =
        A.scheduler.inFlightDuplicates ∧
      (A.applyFeedbackIfPresent P defaultRtt m fb).scheduler.paths.length =
        A.scheduler.paths.length := by
  cases fb with
  | none => exact ⟨.refl, rfl, rfl⟩
  | some fb =>
    obtain ⟨completedBlockId, blockReconstructable, missing⟩ := fb
    cases blockReconstructable with
    | false =>
      exact ⟨(Lts.Reach.refl.step (l := .sample _ _ _) trivial rfl).step (l := .ratio _) trivial
        rfl, rfl, List.length_map ..⟩
    | true =>
      cases completedBlockId with
      | none =>
        exact ⟨(Lts.Reach.refl.step (l := .sample _ _ _) trivial rfl).step (l := .ratio _) trivial
          rfl, rfl, List.length_map ..⟩
      | some blockId =>
        exact ⟨((Lts.Reach.refl.step (l := .sample _ _ _) trivial rfl).step (l := .mark blockId)
          trivial rfl).step (l := .ratio _) trivial rfl, rfl, List.length_map ..⟩

theorem applyFeedback_counts (A : Autopilot R) (defaultRtt : Nat) (m : Measurements R)
    (fb : Option ReceiverFeedbackFrame) :
    (A.applyFeedbackIfPresent P defaultRtt m fb).blockDataShardsSent = A.blockDataShardsSent ∧
      (A.applyFeedbackIfPresent P defaultRtt m fb).metrics = A.metrics := by
  cases fb <;> exact ⟨rfl, rfl⟩

end Autopilot

theorem Controlled.Steady.step {e : SenderEnv R} {s s' : Controlled R} {l : ControlledLabel R}
    (h : s.Steady e) (hstep : (controlled P R).step s l = some s') : s'.Steady e := by
  cases l with
  | apply defaultRtt m =>
    simp only [controlled, controlledStep] at hstep
    split at hstep
    · cases hstep
      obtain ⟨hreach, hinflight, hpaths⟩ := s.autopilot.applyFeedback_scheduler (P := P) defaultRtt
        m s.data.sender.feedbackState s.log
      obtain ⟨hsent, hmetrics⟩ := s.autopilot.applyFeedback_counts (P := P) defaultRtt m
        s.data.sender.feedbackState
      refine ⟨h.paths.trans_eq hpaths.symm, h.scheduler.trans hreach,
        hinflight.trans h.inFlightDuplicates, fun g => ?_, ?_⟩
      · exact (congrFun hsent g).trans (h.dataSent g)
      · exact hmetrics.symm ▸ h.metrics
    · cases hstep
  | pipeline E sampleRtt cwnd =>
    simp only [controlled, controlledStep] at hstep
    split at hstep
    · split at hstep
      · cases hstep
      · next A log hrun =>
        cases hstep
        obtain ⟨input, encoded, st, -, -, hst, rfl, rfl⟩ := Autopilot.runPipeline_cases hrun
        have hstart : (⟨s.autopilot.withSnapshot E s.data.sender.packets, [], [], []⟩ :
            Autopilot.Loop R).Counted s.log :=
          ⟨h.paths, h.inFlightDuplicates, fun g => (h.dataSent g).trans (by rw [List.append_nil]),
            h.metrics⟩
        have hcounted := Autopilot.sendLoop_counted E.clock encoded 0 hstart
        have hreach := Autopilot.sendLoop_reach E.clock s.log encoded 0
          (⟨s.autopilot.withSnapshot E s.data.sender.packets, [], [], []⟩ : Autopilot.Loop R)
        rw [← hst] at hcounted hreach
        rw [List.append_nil] at hreach
        refine ⟨hcounted.paths.trans_eq (List.length_map ..).symm,
          (h.scheduler.trans hreach).step (l := .sample _ _ _) trivial rfl,
          hcounted.inFlightDuplicates, hcounted.dataSent,
          Autopilot.measured_ordered hcounted.metrics st.completed⟩
    · cases hstep
  | other l =>
    simp only [controlled, controlledStep] at hstep
    split at hstep
    · cases hstep
    · obtain ⟨data, -, rfl⟩ := Option.map_eq_some_iff.mp hstep
      exact ⟨h.paths, h.scheduler, h.inFlightDuplicates, h.dataSent, h.metrics⟩

theorem Controlled.Steady.of_reach {e : SenderEnv R} {st : IngestState} {s : Controlled R}
    {ok : Controlled R → ControlledLabel R → Prop}
    (h : (controlled P R).Reach ok (.init P e st) s) : s.Steady e :=
  h.invariant (Controlled.Steady.init P e st) fun hs _ hstep => hs.step hstep

/--
**The controllers keep the data phase.** Every run of a transfer with the controllers is a run of
the data phase without them. So a block they treat as completed is one whose chunks the receiver
has, and wherever the sender stands, the pipeline runs to its end.
-/
theorem controlled_refines (hX : P.crates.Lawful) (hrs : P.transfer.Decodable P.crates)
    (hfec : fecRsOf P.crates P.manifest = .ok P.fecRs) {st : IngestState}
    (hst : P.transfer.Start st) {e : SenderEnv R} {s : Controlled R}
    (h : (controlled P R).Reach (fun _ _ => True) (.init P e st) s) :
    (adaptive P).Reach (fun _ _ => True) (Adaptive.init P st) s.data ∧
      (∀ i, i / P.transfer.width ∈ s.autopilot.completedBlocks →
        i ∈ s.data.receiver.st.received) ∧
      ∀ E, ∃ r, s.autopilot.runPipeline P.crates E P.parityCap s.data.sender.packets = .ok r := by
  obtain ⟨hseen, hreach⟩ := Controlled.reach_data h
  obtain ⟨hhonest, htracked⟩ := Adaptive.Tracked.run hX hrs (fecRsOf_eq_coder hfec) hst hreach
  refine ⟨hreach, fun i hi => ?_, fun E => ?_⟩
  · have hmem : i / P.transfer.width ∈ s.data.sender.runtime.completedBlocks := by
      rw [hseen.runtime]
      exact hi
    exact htracked.completed _ hmem i rfl
  · obtain ⟨sent, hsent, -⟩ := runPipeline_spec P.crates (s.autopilot.utilities E) P.parityCap
      hhonest.enabled (by rw [hhonest.paths]; decide)
      (Transfer.DataPacket.dataPackets hhonest.dataShards hhonest.packets)
    rw [hseen.runtime] at hsent
    exact Autopilot.runPipeline_ok hsent

def samplePipelineEnv : PipelineEnv where
  groupLe := fun a b => decide (a ≤ b)
  stashLe := fun a b => decide (a ≤ b)
  later := fun _ _ => 0
  clock := fun k => ⟨k, k, ⟨k, k, k, k, k, k⟩, k + 1⟩

/-- A loss of 1 %, a round trip of 20 ms and a window of 12 kB. -/
def sampleSenderEnv : SenderEnv binary64 := ⟨4, 0.01, 50000000, 20000000, 12000⟩

/-- A full block of two chunks goes through the controllers. -/
def sampleControlled : List (ControlledLabel binary64) :=
  [.other (.send (.fill 0)), .other (.send (.fill 0)),
    .apply 20000000 ⟨20, 0, 8, 0, 0.45⟩, .other (.send (.nack fun _ => 0)),
    .pipeline samplePipelineEnv 20000000 12000]

set_option maxRecDepth 10000 in
theorem sampleControlled_exec :
    ((controlled sampleSetup binary64).exec (.init sampleSetup sampleSenderEnv sampleFresh)
      sampleControlled).map (fun s => s.log.map fun r => r.1.seq) = some [0, 1, 2, 0] := by
  decide +kernel

theorem sample_controlled_refines :
    ∃ s, (controlled sampleSetup binary64).exec (.init sampleSetup sampleSenderEnv sampleFresh)
        sampleControlled = some s ∧ s.log.map (fun r => r.1.seq) = [0, 1, 2, 0] ∧
      (adaptive sampleSetup).Reach (fun _ _ => True) (.init sampleSetup sampleFresh) s.data := by
  obtain ⟨s, hs, hlog⟩ := Option.map_eq_some_iff.mp sampleControlled_exec
  exact ⟨s, hs, hlog, (controlled_refines Crates.reference_lawful
    sampleBytewise_admissible.decodable rfl sampleFresh_start (.of_exec hs)).1⟩

/--
**The paths of a transfer.** In every transfer, whatever the network does, the first packet goes to
the datagram path and each of the next 48 packets to the stream path; a second copy goes to the
other one. After that the seed goes on to decide.
-/
theorem controlled_routing {st : IngestState} {e : SenderEnv R} {s : Controlled R}
    (h : (controlled P R).Reach (fun _ _ => True) (.init P e st) s) :
    ∀ k packet handed, s.log[k]? = some (packet, handed) →
      Routes (if k = 0 then 1 else if k ≤ 48 then 0
        else primaryPath R (xorshift^[k] 0xC0FFEE) packet.info.size) packet handed := by
  have hsteady := Controlled.Steady.of_reach h
  have hfollows : SchedulerRun.Follows 0xC0FFEE ⟨s.autopilot.scheduler, s.log⟩ :=
    hsteady.scheduler.invariant ⟨le_rfl, rfl, nofun⟩ fun hs _ hstep => hs.step hstep
  intro k packet handed hk
  have hroutes := hfollows.routes k packet handed hk
  by_cases hzero : k = 0
  · subst hzero
    simpa [primaryPath, explores_first] using hroutes
  · rw [if_neg hzero]
    by_cases h48 : k ≤ 48
    · simpa [h48, primaryPath, not_explores_next (Nat.pos_of_ne_zero hzero) h48] using hroutes
    · rwa [if_neg h48]

theorem sample_controlled_routing :
    ∃ s handed packet, (controlled sampleSetup binary64).exec
        (.init sampleSetup sampleSenderEnv sampleFresh) sampleControlled = some s ∧
      s.log[0]? = some (packet, handed) ∧ packet.seq = 0 ∧ Routes 1 packet handed := by
  obtain ⟨s, hs, hlog⟩ := Option.map_eq_some_iff.mp sampleControlled_exec
  have hfirst : (s.log[0]?).map (fun r => r.1.seq) = some 0 := by
    rw [← List.getElem?_map, hlog]
    rfl
  obtain ⟨⟨packet, handed⟩, hget, hseq⟩ := Option.map_eq_some_iff.mp hfirst
  exact ⟨s, handed, packet, hs, hget, hseq, controlled_routing (.of_exec hs) 0 _ _ hget⟩

/--
**The counts of a transfer.** In every state between two steps of a transfer, no second copy counts
as in flight, the shards counted for a block are the data packets of its group that were handed to
the paths, and the completion times that are reported are in order.
-/
theorem controlled_counts {st : IngestState} {e : SenderEnv R} {s : Controlled R}
    (h : (controlled P R).Reach (fun _ _ => True) (.init P e st) s) :
    s.autopilot.scheduler.inFlightDuplicates = 0 ∧
      (∀ g, s.autopilot.blockDataShardsSent g = Autopilot.dataSent s.log g) ∧
      s.autopilot.metrics.Ordered := by
  have hsteady := Controlled.Steady.of_reach h
  exact ⟨hsteady.inFlightDuplicates, hsteady.dataSent, hsteady.metrics⟩

theorem sample_controlled_counts :
    ∃ s, (controlled sampleSetup binary64).exec (.init sampleSetup sampleSenderEnv sampleFresh)
        sampleControlled = some s ∧
      (∀ g, s.autopilot.blockDataShardsSent g = Autopilot.dataSent s.log g) := by
  obtain ⟨s, hs, -⟩ := Option.map_eq_some_iff.mp sampleControlled_exec
  exact ⟨s, hs, (controlled_counts (.of_exec hs)).2.1⟩

end ScTransport
