import ScTransport.Autopilot.SchedulerRuns

/-!
# The autopilot

`AutopilotRuntime` with all its controllers, and `run_pipeline` with its estimates computed. The
orders in which hash maps are visited and the readings of the clock are parameters.

* `Autopilot.runPipeline` — the source
* `Autopilot.runPipeline_refines` — the abstract pipeline does the same, for some answers
-/

namespace ScTransport

open Infra

variable {R : FloatOps}

def FecEncoder.parityRatio (fec : FecEncoder) : Fl R :=
  (fec.parityShards : Fl R) / ((max fec.dataShards 1 : Nat) : Fl R)

def Block.isAlmostComplete (b : Block) : Bool := decide (b.requiredShards - b.receivedAcks ≤ 1)

/-- Times are in nanoseconds. -/
structure TransferMetrics (R : FloatOps) where
  p50Completion : Nat
  p95Completion : Nat
  p99Completion : Nat
  stragglerCount : Nat
  canceledRedundantSends : Nat
  utilityPerTransmittedByte : Fl R
  duplicationEfficiency : Fl R
  correlatedLossPenalties : Fl R
  queuePredictionAccuracy : Fl R
  completionProbabilityAccuracy : Fl R
  utilityOscillationEvents : Nat
  queueOvershootEvents : Nat
  utilityStabilityEwma : Fl R
  congestionForecastConfidence : Fl R
  congestionRecoveryTicks : Nat

def TransferMetrics.default : TransferMetrics R := ⟨0, 0, 0, 0, 0, 0, 0, 0, 0, 0, 0, 0, 0, 0, 0⟩

/-- The percentiles are in order. -/
def TransferMetrics.Ordered (m : TransferMetrics R) : Prop :=
  m.p50Completion ≤ m.p95Completion ∧ m.p95Completion ≤ m.p99Completion

/-- `AutopilotRuntime`. The shards sent of a group without an entry are none. -/
structure Autopilot (R : FloatOps) where
  strategy : StrategyEngine R
  cc : HybridCongestionController R
  scheduler : MultiPathScheduler R
  fec : FecEncoder
  metrics : TransferMetrics R
  stabilizer : PredictiveStabilizer R
  completedBlocks : List Nat
  blockDataShardsSent : Nat → Nat
  completionFirstEnabled : Bool

/-- The readings of the clock in one turn of the loop. -/
structure LoopClock where
  start : Nat
  prepare : Nat
  readings : Readings
  finish : Nat

/-- What a run of the pipeline depends on besides its arguments. -/
structure PipelineEnv where
  groupLe : Nat → Nat → Bool
  stashLe : Nat → Nat → Bool
  /-- One hour after the comparison. -/
  later : Packet → Packet → Nat
  clock : Nat → LoopClock

namespace Autopilot

/-- What the abstract pipeline sees. -/
def toRuntime (A : Autopilot R) : AutopilotRuntime where
  fec := A.fec
  completionFirstEnabled := A.completionFirstEnabled
  completedBlocks := A.completedBlocks
  paths := A.scheduler.paths.length

variable (A : Autopilot R)

/-! ## Estimates -/

def blockContextForSchedule (packet : Packet) (dataShards parityShards : Nat) : Block :=
  let g := packet.fecGroup
  let required := max dataShards 1
  let dataSentBefore := A.blockDataShardsSent g
  let completed := decide (g ∈ A.completedBlocks)
  let receivedAcks :=
    if completed then required
    else if g ∈ A.scheduler.knownReconstructable then required - 1
    else 0
  let inFlight := dataSentBefore - receivedAcks
  { id := g
    totalShards := satAdd required parityShards
    requiredShards := required
    sentShards := min dataSentBefore required
    receivedAcks := receivedAcks
    inFlight := if inFlight = 0 ∧ completed = false then 1 else inFlight }

def buildCongestionSignal : CongestionSignal R :=
  let p95 := max (Fl.asSecs A.metrics.p95Completion) 0.001
  let p50 := max (Fl.asSecs A.metrics.p50Completion) 0.001
  { queuePressure :=
      (A.cc.rttVarianceTrend / max (Fl.asSecs A.cc.minRtt) 0.0005).clamp 0 1
    retransmissionPressure := A.cc.lossRate.clamp 0 1
    completionPressure := min ((p95 / p50 - 1).clamp 0 3.0 / 3.0) 1 }

def estimateCompletionTime (block : Block) : Nat :=
  let paths : List (PathState R) := A.scheduler.pathStatesSnapshot
  let remaining := block.remainingDataShards
  if paths.isEmpty then
    let estimate := 10 * 1000000 + satMul remaining (2 + block.inFlight) * 1000000
    if remaining = 0 then min estimate (800 * 1000) else estimate
  else
    let qDelay := Fl.sum (paths.mapIdx fun i p =>
      (queueAt A.scheduler.queueModels i).predictedQueueDelay p.bandwidth) / (paths.length : Fl R)
    let est := estimateCompletion block paths [] A.fec.parityShards qDelay
    let estimate :=
      if remaining = 0 then min est.expectedTime (800 * 1000) else est.expectedTime
    if A.completionFirstEnabled ∧ remaining ≤ 2 then estimate - 8 * 1000000
    else if A.completionFirstEnabled ∧ block.isAlmostComplete then estimate - 5 * 1000000
    else estimate

/-- `u_new` and `u_dup` of a shard in `optimize_transfer`. -/
def shardUtilities (pkt : Packet) (block : Block) : Fl R × Fl R :=
  let paths : List (PathState R) := A.scheduler.pathStatesSnapshot
  let qm := A.scheduler.queueModels
  let utils := byUtility ((List.range paths.length).map fun i =>
    (i, pathSendUtility i paths qm pkt block [] A.fec.parityShards 0.02))
  match utils with
  | [] => (0, 0)
  | [(_, uNew)] => (uNew, 0)
  | (p0, uNew) :: (p1, _) :: _ =>
    (uNew, duplicateSendUtility p0 p1 paths qm (.fromPathKinds (paths.map PathState.kind)) pkt
      block [] A.fec.parityShards 0.02)

/-- The answers of the controllers, those about single packets apart. -/
def utilities (E : PipelineEnv) : Utilities where
  groupLe := E.groupLe
  stashLe := E.stashLe
  blockLe := fun out a b =>
    let utility := globalUtility A.scheduler.pathStatesSnapshot A.fec.parityShards out
    let time := A.estimateCompletionTime
    decide (utility b < utility a ∨ utility a = utility b ∧
      (time b < time a ∨ time a = time b ∧ a.id ≤ b.id))
  slower := fun _ a b =>
    let time := fun b => (Fl.asSecs (A.estimateCompletionTime b) : Fl R)
    decide (time b < time a ∨ time a = time b ∧ a.id ≤ b.id)
  dupPays := fun _ pkt block =>
    let (uNew, uDup) := A.shardUtilities pkt block
    decide (uNew < uDup ∨ block.remainingDataShards ≤ 2 ∧ uNew * 0.99 < uDup)
  later := E.later
  pathLe := fun _ i j => decide (i ≤ j)
  explore := fun _ => false
  deadline := fun _ => 0
  sendTwice := fun _ => false

/-! ## The loop -/

/-- The runtime, the last data packets, the times so far and what the paths were handed. -/
structure Loop (R : FloatOps) where
  autopilot : Autopilot R
  inflightWindow : List Packet
  completed : List (Fl R)
  log : List (Packet × List (Nat × Packet))

/-- `inflight_window`: the last 64 data packets, without their payloads. -/
def pushInflight (window : List Packet) (pkt : Packet) : List Packet :=
  if pkt.isParity then window
  else (if 64 ≤ window.length then window.tail else window) ++ [{ pkt with payload := [] }]

/-- One turn of the loop of `run_pipeline`. -/
def sendPacket (st : Loop R) (clock : LoopClock) (pkt : Packet) : Loop R :=
  let A := st.autopilot
  let sig := A.buildCongestionSignal
  let cc := A.cc.applySchedulerSignal sig
  let (stabilizer, stab) := A.stabilizer.preparePacket
    { now := clock.prepare
      cc := cc
      queueModels := A.scheduler.queueModels
      sig := sig
      primaryRawUtility := A.scheduler.lastPrimaryUtility }
  let window := pushInflight st.inflightWindow pkt
  let out := A.scheduler.distributeAndSend
    { packet := pkt
      block := A.blockContextForSchedule pkt A.fec.dataShards A.fec.parityShards
      tailPenalty := Fl.asSecs A.metrics.p95Completion * stab.rankingPressureScale
      fecParityRatio := A.fec.parityRatio
      parityShards := A.fec.parityShards
      targetSendRate := cc.targetSendRate
      congestion := sig
      inflight := window
      stab := stab
      clock := clock.readings }
    stabilizer.control.utilityMomentum
  let scheduler :=
    if pkt.reconstructable then out.scheduler.markReconstructable pkt.fecGroup else out.scheduler
  { autopilot :=
      { A with
        cc := cc
        stabilizer :=
          { stabilizer with
            control := { stabilizer.control with utilityMomentum := out.utilityMomentum } }
        scheduler := scheduler.onFeedbackTick
        blockDataShardsSent :=
          if pkt.isParity then A.blockDataShardsSent
          else Function.update A.blockDataShardsSent pkt.fecGroup
            (A.blockDataShardsSent pkt.fecGroup + 1) }
    inflightWindow := window
    completed := st.completed ++ [Fl.asSecs (clock.finish - clock.start)]
    log := st.log ++ [(pkt, out.handed)] }

def sendLoop (clock : Nat → LoopClock) : Nat → List Packet → Loop R → Loop R
  | _, [], st => st
  | k, pkt :: rest, st => sendLoop clock (k + 1) rest (sendPacket st (clock k) pkt)

/-! ## The metrics -/

/-- A percentile of sorted times. -/
def percentile (sorted : List (Fl R)) (p : Fl R) : Nat :=
  let i := (p * (sorted.length : Fl R)).ceilNat - 1
  ((sorted[min i (sorted.length - 1)]?).getD 0).fromSecs

/-- The times `run_pipeline` has measured. -/
def measured (m : TransferMetrics R) (completed : List (Fl R)) : TransferMetrics R :=
  if completed.isEmpty then m
  else
    let sorted := completed.insertionSort (· ≤ ·)
    let p95 := percentile sorted 0.95
    { m with
      p50Completion := percentile sorted 0.50
      p95Completion := p95
      p99Completion := percentile sorted 0.99
      stragglerCount := (sorted.filter fun t => Fl.asSecs p95 < t).length }

/-- The last statements of `run_pipeline`. -/
def finish (st : Loop R) : Autopilot R :=
  let A := st.autopilot
  let kpi := A.scheduler.optimizationKpi
  let telemetry := A.stabilizer.telemetry
  { A with
    metrics :=
      { measured A.metrics st.completed with
        utilityPerTransmittedByte := kpi.utilityPerTransmittedByte
        duplicationEfficiency := kpi.duplicationEfficiency
        correlatedLossPenalties := kpi.correlatedLossPenalties
        queuePredictionAccuracy := kpi.queuePredictionAccuracyScore
        completionProbabilityAccuracy := kpi.completionProbabilityAccuracy
        utilityOscillationEvents := telemetry.oscillationZeroCrossings
        queueOvershootEvents := telemetry.queueOvershootEvents
        utilityStabilityEwma := telemetry.utilityStabilityEwma
        congestionForecastConfidence := telemetry.forecastConfidenceEwma
        congestionRecoveryTicks := telemetry.recoveryTicksAfterStress } }

/-- The counts `run_pipeline` takes from the snapshot of `optimize_transfer`. -/
def withSnapshot (E : PipelineEnv) (packets : List Packet) : Autopilot R :=
  let kept := if A.completionFirstEnabled then keptPackets A.toRuntime packets else packets
  let stragglers := detectStragglers (A.utilities E) []
    (blocksFromPackets A.toRuntime (A.utilities E) kept)
  { A with
    metrics :=
      { A.metrics with
        stragglerCount := stragglers.length
        canceledRedundantSends :=
          if A.completionFirstEnabled then
            max (packets.length - kept.length) (stragglers.length / 4)
          else 0 } }

/-- `AutopilotRuntime::run_pipeline`, and what the paths were handed for every packet. -/
def runPipeline (X : Crates) (E : PipelineEnv) (fecParityCap : Nat) (inputPackets : List Packet) :
    Except Fault (Autopilot R × List (Packet × List (Nat × Packet))) :=
  let U := A.utilities E
  match optimizeTransfer A.toRuntime U inputPackets with
  | .error e => .error e
  | .ok input =>
    match encodeStage X A.toRuntime U fecParityCap (prioritize U input) with
    | .error e => .error e
    | .ok encoded =>
      let st := sendLoop E.clock 0 encoded ⟨A.withSnapshot E inputPackets, [], [], []⟩
      .ok (finish st, st.log)

/-! ## The scheduler in the loop -/

/-- The rate and the scale of a packet are not negative. -/
theorem paced_sendPacket (cc : HybridCongestionController R) (z : PredictiveStabilizer R)
    (call : PredictiveStabilizer.Call R) :
    0 ≤ cc.targetSendRate ∧ 0 ≤ (z.preparePacket call).2.pacingScale := by
  have h1000 : (0 : Fl R) ≤ 1000.0 := (Fl.pos_literal (by norm_num)).le
  have h35 : (0 : Fl R) ≤ 0.35 := (Fl.pos_literal (by norm_num)).le
  exact ⟨h1000.trans (le_max_right _ _), h35.trans (Fl.le_clamp _)⟩

/-- A turn of the loop is a run of the scheduler: a send, perhaps a mark, and a tick. -/
theorem sendPacket_reach (st : Loop R) (clock : LoopClock) (pkt : Packet)
    (before : List (Packet × List (Nat × Packet))) :
    (schedulerSystem R).Reach (fun _ l => l.Paced)
      ⟨st.autopilot.scheduler, before ++ st.log⟩
      ⟨(sendPacket st clock pkt).autopilot.scheduler,
        before ++ (sendPacket st clock pkt).log⟩ := by
  unfold sendPacket
  dsimp only
  rw [← List.append_assoc]
  split
  · refine ((Lts.Reach.refl.step (l := .send _ _) ?_ rfl).step (l := .mark pkt.fecGroup) trivial
      rfl).step (l := .tick) trivial rfl
    exact paced_sendPacket _ _ _
  · refine (Lts.Reach.refl.step (l := .send _ _) ?_ rfl).step (l := .tick) trivial rfl
    exact paced_sendPacket _ _ _

theorem sendLoop_reach (clock : Nat → LoopClock) (before : List (Packet × List (Nat × Packet))) :
    ∀ (encoded : List Packet) (k : Nat) (st : Loop R),
      (schedulerSystem R).Reach (fun _ l => l.Paced)
        ⟨st.autopilot.scheduler, before ++ st.log⟩
        ⟨(sendLoop clock k encoded st).autopilot.scheduler,
          before ++ (sendLoop clock k encoded st).log⟩
  | [], _, _ => .refl
  | pkt :: rest, k, st =>
    (sendPacket_reach st (clock k) pkt before).trans
      (sendLoop_reach clock before rest (k + 1) (sendPacket st (clock k) pkt))

/-- The loop changes nothing that the abstract pipeline sees. -/
theorem sendPacket_toRuntime {st : Loop R} (hn : 2 ≤ st.autopilot.scheduler.paths.length)
    (clock : LoopClock) (pkt : Packet) :
    (sendPacket st clock pkt).autopilot.toRuntime = st.autopilot.toRuntime := by
  have hpaths : (sendPacket st clock pkt).autopilot.scheduler.paths =
      st.autopilot.scheduler.paths := by
    unfold sendPacket
    dsimp only
    split <;> exact (MultiPathScheduler.distributeAndSend_sends _ _ _ hn).paths
  unfold toRuntime
  rw [hpaths]
  rfl

theorem sendLoop_toRuntime (clock : Nat → LoopClock) :
    ∀ (encoded : List Packet) (k : Nat) (st : Loop R), 2 ≤ st.autopilot.scheduler.paths.length →
      (sendLoop clock k encoded st).autopilot.toRuntime = st.autopilot.toRuntime
  | [], _, _, _ => rfl
  | pkt :: rest, k, st, hn => by
    have hturn := sendPacket_toRuntime hn (clock k) pkt
    have hn' : 2 ≤ (sendPacket st (clock k) pkt).autopilot.scheduler.paths.length :=
      hn.trans_eq (congrArg AutopilotRuntime.paths hturn).symm
    exact (sendLoop_toRuntime clock rest (k + 1) _ hn').trans hturn

theorem sendLoop_packets (clock : Nat → LoopClock) :
    ∀ (encoded : List Packet) (k : Nat) (st : Loop R),
      (sendLoop clock k encoded st).log.map Prod.fst = st.log.map Prod.fst ++ encoded
  | [], _, st => (List.append_nil _).symm
  | pkt :: rest, k, st => by
    show (sendLoop clock (k + 1) rest (sendPacket st (clock k) pkt)).log.map Prod.fst = _
    rw [sendLoop_packets clock rest (k + 1)]
    show (st.log ++ [(pkt, _)]).map Prod.fst ++ rest = _
    rw [List.map_append, List.append_assoc]
    rfl

/-! ## Counts and times -/

/-- Every packet is followed by a tick, so its copy is not in flight any more. -/
theorem sendPacket_inFlight {st : Loop R} (hn : 2 ≤ st.autopilot.scheduler.paths.length)
    (h : st.autopilot.scheduler.inFlightDuplicates = 0) (clock : LoopClock) (pkt : Packet) :
    (sendPacket st clock pkt).autopilot.scheduler.inFlightDuplicates = 0 := by
  have hsend : ∀ a m,
      (st.autopilot.scheduler.distributeAndSend a m).scheduler.inFlightDuplicates - 1 = 0 := by
    intro a m
    obtain ⟨i, packet, -, -, hcopies⟩ :=
      (st.autopilot.scheduler.distributeAndSend_sends a m hn).copies
    rcases hcopies with ⟨-, -, hinflight, -⟩ | ⟨-, -, hinflight, -⟩ <;> omega
  unfold sendPacket
  dsimp only
  split <;> exact hsend _ _

/-- The data packets of a group in a log. -/
def dataSent (log : List (Packet × List (Nat × Packet))) (g : Nat) : Nat :=
  log.countP fun r => !r.1.isParity && decide (r.1.fecGroup = g)

theorem sendPacket_dataSent {st : Loop R} {before : List (Packet × List (Nat × Packet))}
    (h : ∀ g, st.autopilot.blockDataShardsSent g = dataSent (before ++ st.log) g)
    (clock : LoopClock) (pkt : Packet) (g : Nat) :
    (sendPacket st clock pkt).autopilot.blockDataShardsSent g =
      dataSent (before ++ (sendPacket st clock pkt).log) g := by
  show (if pkt.isParity then st.autopilot.blockDataShardsSent else _) g =
    dataSent (before ++ (st.log ++ [(pkt, _)])) g
  rw [dataSent, ← List.append_assoc, List.countP_append, List.countP_singleton]
  have hg := h g
  unfold dataSent at hg
  cases hparity : pkt.isParity with
  | true => simpa [hparity] using hg
  | false =>
    by_cases heq : pkt.fecGroup = g
    · subst heq
      simp [hg]
    · simp [heq, Function.update_of_ne (Ne.symm heq), hg]

/-- What the loop keeps of the counts. -/
structure Loop.Counted (before : List (Packet × List (Nat × Packet))) (st : Loop R) : Prop where
  paths : 2 ≤ st.autopilot.scheduler.paths.length
  inFlightDuplicates : st.autopilot.scheduler.inFlightDuplicates = 0
  dataSent : ∀ g, st.autopilot.blockDataShardsSent g = dataSent (before ++ st.log) g
  metrics : st.autopilot.metrics.Ordered

theorem sendLoop_counted (clock : Nat → LoopClock)
    {before : List (Packet × List (Nat × Packet))} :
    ∀ (encoded : List Packet) (k : Nat) {st : Loop R}, st.Counted before →
      (sendLoop clock k encoded st).Counted before
  | [], _, _, h => h
  | pkt :: rest, k, st, h => by
    have hruntime := congrArg AutopilotRuntime.paths (sendPacket_toRuntime h.paths (clock k) pkt)
    exact sendLoop_counted clock rest (k + 1)
      ⟨h.paths.trans_eq hruntime.symm, sendPacket_inFlight h.paths h.inFlightDuplicates _ _,
        sendPacket_dataSent h.dataSent _ _, h.metrics⟩

theorem percentile_mono {sorted : List (Fl R)} (hsorted : sorted.Pairwise (· ≤ ·)) {p q : Fl R}
    (h : p ≤ q) : percentile sorted p ≤ percentile sorted q := by
  unfold percentile
  refine Fl.fromSecs_mono ?_
  cases hlen : sorted.length with
  | zero =>
    rw [List.length_eq_zero_iff.mp hlen]
    exact le_rfl
  | succ n =>
    obtain ⟨i, hi⟩ : ∃ i, i = min ((p * ((n + 1 : Nat) : Fl R)).ceilNat - 1) (n + 1 - 1) := ⟨_, rfl⟩
    obtain ⟨j, hj⟩ : ∃ j, j = min ((q * ((n + 1 : Nat) : Fl R)).ceilNat - 1) (n + 1 - 1) := ⟨_, rfl⟩
    have hceil := Fl.ceilNat_mono (Fl.mul_mono_right (Fl.nonneg_natCast (R := R) (n + 1)) h)
    have hij : i ≤ j := by omega
    have hjlt : j < sorted.length := by omega
    rw [← hi, ← hj, List.getElem?_eq_getElem (by omega), List.getElem?_eq_getElem hjlt,
      Option.getD_some, Option.getD_some]
    exact List.Pairwise.rel_get_of_le hsorted (a := ⟨i, by omega⟩) (b := ⟨j, hjlt⟩) hij

theorem measured_ordered {m : TransferMetrics R} (h : m.Ordered) (completed : List (Fl R)) :
    (measured m completed).Ordered := by
  have hsorted := List.pairwise_insertionSort (α := Fl R) (· ≤ ·) completed
  unfold measured
  split
  · exact h
  · exact ⟨percentile_mono hsorted (Fl.literal_le (by norm_num)),
      percentile_mono hsorted (Fl.literal_le (by norm_num))⟩

/-! ## The abstract pipeline does the same -/

/-- The answers with which the abstract scheduler hands out what a log says. -/
def answering (U : Utilities) (log : List (Packet × List (Nat × Packet))) : Utilities :=
  { U with
    pathLe := fun _ i j => decide (i ≤ j)
    explore := fun k => decide (((log[k]?).bind fun r => r.2.head?).map Prod.fst = some 1)
    deadline := fun k =>
      (((log[k]?).bind fun r => r.2.head?).bind fun h => h.2.info.deadline).getD 0
    sendTwice := fun k => decide ((log[k]?).map (fun r => r.2.length) = some 2) }

section Answering

variable (A : AutopilotRuntime) (U : Utilities) (log : List (Packet × List (Nat × Packet)))

theorem sendShards_answering (decision : SchedulingDecision) :
    ∀ (n : Nat) (block : Block) (shards out : List Packet),
      sendShards (answering U log) decision n block shards out =
        sendShards U decision n block shards out
  | 0, _, _, _ => rfl
  | n + 1, block, shards, out => by
    unfold sendShards
    cases shards.getLast? with
    | none => exact sendShards_answering decision n block shards out
    | some pkt => exact sendShards_answering decision n _ _ _

theorem optLoop_answering :
    ∀ (fuel : Nat) (st : OptState), optLoop A (answering U log) fuel st = optLoop A U fuel st
  | 0, _ => rfl
  | fuel + 1, st => by
    have hturn : optIteration A (answering U log) st = optIteration A U st := by
      unfold optIteration
      simp only [sendShards_answering]
      rfl
    unfold optLoop
    rw [hturn]
    simp only [optLoop_answering fuel]

theorem optimizeTransfer_answering (packets : List Packet) :
    optimizeTransfer A (answering U log) packets = optimizeTransfer A U packets := by
  unfold optimizeTransfer
  simp only [optLoop_answering]
  rfl

theorem encodeStage_answering (X : Crates) (cap : Nat) (packets : List Packet) :
    encodeStage X A (answering U log) cap packets = encodeStage X A U cap packets := rfl

theorem prioritize_answering (packets : List Packet) :
    prioritize (answering U log) packets = prioritize U packets := rfl

end Answering

/-- The abstract scheduler, if the paths are in the order of their indices. -/
theorem distributeAndSend_eq {A : AutopilotRuntime} (hn : 2 ≤ A.paths) {U : Utilities} {k : Nat}
    (hle : U.pathLe k = fun i j => decide (i ≤ j)) (packet : Packet) {i : Nat}
    (hi : i = if U.explore k then 1 else 0) :
    distributeAndSend A U k packet =
      if U.sendTwice k then
        [(i, packet.stampedAt (U.deadline k)), (1 - i, packet.stampedAt (U.deadline k))]
      else [(i, packet.stampedAt (U.deadline k))] := by
  have hle1 : i ≤ 1 := by
    rw [hi]
    split <;> omega
  have hsorted : (List.range A.paths).insertionSort (fun a b => U.pathLe k a b) =
      List.range A.paths := by
    rw [hle]
    simp only [decide_eq_true_eq]
    exact List.Pairwise.insertionSort_eq List.pairwise_le_range
  have hpick : (pickPrimaryPath (U.pathLe k) (U.explore k) A.paths).getD 0 = i := by
    unfold pickPrimaryPath
    simp only [hsorted]
    rw [if_neg (by omega), if_neg (by omega), List.getElem?_range (by omega),
      List.getElem?_range (by omega), hi]
    split <;> rfl
  unfold distributeAndSend
  rw [if_neg (by omega)]
  simp only [hpick, hsorted, find?_other hn hle1]
  rfl

/-- A packet keeps its deadline, or has the one it was stamped with. -/
theorem stampedAt_deadline (packet : Packet) (d : Nat) :
    packet.stampedAt ((packet.stampedAt d).info.deadline.getD 0) = packet.stampedAt d := by
  unfold Packet.stampedAt
  split <;> rfl

/-- **Every log is the answer of the abstract scheduler to some answers.** -/
theorem distributeAll_answering {A : AutopilotRuntime} (hn : 2 ≤ A.paths) (U : Utilities)
    {log : List (Packet × List (Nat × Packet))}
    (hlog : ∀ packet handed, (packet, handed) ∈ log → ∃ i ≤ 1, Routes i packet handed) :
    distributeAll A (answering U log) (log.map Prod.fst) = log.flatMap Prod.snd := by
  have hentry : ∀ rk ∈ log.zipIdx,
      distributeAndSend A (answering U log) rk.2 rk.1.1 = rk.1.2 := by
    rintro ⟨⟨packet, handed⟩, k⟩ hk
    have hget : log[k]? = some (packet, handed) := List.mem_zipIdx_iff_getElem?.mp hk
    obtain ⟨i, hi, d, hroutes⟩ := hlog _ _ (List.mem_of_getElem? hget)
    have hsend := distributeAndSend_eq hn (U := answering U log) (k := k) rfl packet (i := i)
    have hhead : handed.head? = some (i, packet.stampedAt d) := by
      rcases hroutes with rfl | rfl <;> rfl
    have hexplore : i = if (answering U log).explore k then 1 else 0 := by
      show i = if decide (((log[k]?).bind fun r => r.2.head?).map Prod.fst = some 1) then 1 else 0
      rw [hget, Option.bind_some, hhead]
      simp only [Option.map_some, Option.some.injEq, decide_eq_true_eq]
      split <;> omega
    have hdeadline : packet.stampedAt ((answering U log).deadline k) = packet.stampedAt d := by
      show packet.stampedAt ((((log[k]?).bind fun r => r.2.head?).bind fun h =>
        h.2.info.deadline).getD 0) = _
      rw [hget, Option.bind_some, hhead, Option.bind_some, stampedAt_deadline]
    have htwice : (answering U log).sendTwice k = decide (handed.length = 2) := by
      show decide ((log[k]?).map (fun r => r.2.length) = some 2) = _
      rw [hget]
      simp
    rw [hsend hexplore, htwice, hdeadline]
    rcases hroutes with rfl | rfl <;> rfl
  unfold distributeAll
  rw [List.zipIdx_map, List.flatMap_map]
  calc log.zipIdx.flatMap (fun rk => distributeAndSend A (answering U log) rk.2 rk.1.1)
      = log.zipIdx.flatMap (fun rk => rk.1.2) := List.flatMap_congr hentry
    _ = (log.zipIdx.map Prod.fst).flatMap Prod.snd := (List.flatMap_map _ _ _).symm
    _ = log.flatMap Prod.snd := by rw [List.zipIdx_map_fst]

/-- The stages of a run. -/
theorem runPipeline_cases {A A' : Autopilot R} {X : Crates} {E : PipelineEnv} {cap : Nat}
    {packets : List Packet} {log : List (Packet × List (Nat × Packet))}
    (h : A.runPipeline X E cap packets = .ok (A', log)) :
    ∃ input encoded st, optimizeTransfer A.toRuntime (A.utilities E) packets = .ok input ∧
      encodeStage X A.toRuntime (A.utilities E) cap (prioritize (A.utilities E) input) =
        .ok encoded ∧
      st = sendLoop E.clock 0 encoded ⟨A.withSnapshot E packets, [], [], []⟩ ∧
      A' = finish st ∧ log = st.log := by
  unfold runPipeline at h
  dsimp only at h
  cases hopt : optimizeTransfer A.toRuntime (A.utilities E) packets with
  | error e => rw [hopt] at h; cases h
  | ok input =>
    rw [hopt] at h
    dsimp only at h
    cases henc : encodeStage X A.toRuntime (A.utilities E) cap
        (prioritize (A.utilities E) input) with
    | error e => rw [henc] at h; cases h
    | ok encoded =>
      rw [henc] at h
      obtain ⟨rfl, rfl⟩ := Prod.mk.inj (Except.ok.inj h)
      exact ⟨input, encoded, _, rfl, henc, rfl, rfl, rfl⟩

/-- The pipeline with its controllers ends where the abstract one does. -/
theorem runPipeline_ok {A : Autopilot R} {X : Crates} {E : PipelineEnv} {cap : Nat}
    {packets : List Packet} {sent : List (Nat × Packet)}
    (h : ScTransport.runPipeline X A.toRuntime (A.utilities E) cap packets = .ok sent) :
    ∃ r, A.runPipeline X E cap packets = .ok r := by
  unfold ScTransport.runPipeline at h
  unfold runPipeline
  dsimp only
  cases hopt : optimizeTransfer A.toRuntime (A.utilities E) packets with
  | error e => rw [hopt] at h; cases h
  | ok input =>
    rw [hopt] at h
    dsimp only at h ⊢
    cases henc : encodeStage X A.toRuntime (A.utilities E) cap
        (prioritize (A.utilities E) input) with
    | error e => rw [henc] at h; cases h
    | ok encoded => exact ⟨_, rfl⟩

/--
**The pipeline with its controllers refines the pipeline without them.** For every run there are
answers with which the abstract pipeline hands the same packets to the same paths in the same order.
The run leaves the parameters of the next one alone.
-/
theorem runPipeline_refines {A A' : Autopilot R} (hn : 2 ≤ A.scheduler.paths.length) {X : Crates}
    {E : PipelineEnv} {cap : Nat} {packets : List Packet}
    {log : List (Packet × List (Nat × Packet))}
    (h : A.runPipeline X E cap packets = .ok (A', log)) :
    (∃ U, ScTransport.runPipeline X A.toRuntime U cap packets = .ok (log.flatMap Prod.snd)) ∧
      A'.toRuntime = A.toRuntime := by
  obtain ⟨input, encoded, st, hopt, henc, hst, rfl, rfl⟩ := runPipeline_cases h
  have hreach := sendLoop_reach E.clock [] encoded 0
    (⟨A.withSnapshot E packets, [], [], []⟩ : Loop R)
  have hfollows : SchedulerRun.Follows A.scheduler.explorationSeed
      ⟨st.autopilot.scheduler, st.log⟩ := by
    rw [hst]
    exact hreach.invariant (⟨hn, rfl, nofun⟩ :
      SchedulerRun.Follows A.scheduler.explorationSeed ⟨A.scheduler, []⟩)
      fun hs _ hstep => hs.step hstep
  have hpackets : st.log.map Prod.fst = encoded := hst ▸ sendLoop_packets E.clock encoded 0 _
  refine ⟨⟨answering (A.utilities E) st.log, ?_⟩, ?_⟩
  · unfold ScTransport.runPipeline
    rw [optimizeTransfer_answering, hopt]
    dsimp only
    rw [prioritize_answering, encodeStage_answering, henc, ← hpackets]
    refine congrArg Except.ok (distributeAll_answering hn _ fun packet handed hmem => ?_)
    obtain ⟨k, hk⟩ := List.mem_iff_getElem?.mp hmem
    exact ⟨_, primaryPath_le_one _ _, hfollows.routes k packet handed hk⟩
  · show st.autopilot.toRuntime = A.toRuntime
    rw [hst]
    exact sendLoop_toRuntime E.clock encoded 0 _ hn

end Autopilot

end ScTransport
