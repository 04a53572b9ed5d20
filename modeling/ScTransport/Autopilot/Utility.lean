import ScTransport.Adaptive.System
import ScTransport.Infra.Rounded

/-!
# Utilities of the path scheduler

`adaptive/optimization.rs` rates what a further copy of a packet on a path is worth: the expected
reduction of the completion time of its block over the cost in bandwidth.

The reduction is estimated with one more shard in flight. That shard lets the estimate only grow,
so the reduction is never positive and every path is worth nothing.

* `estimateCompletion`, `pathSendUtility`, `duplicateSendUtility`, `QueueModel` — the source
* `estimateCompletion_oneMore` — the estimate grows with what is in flight
* `pathSendUtility_eq_zero` — the utility of every path
* `duplicateSendUtility_of_lossless` — the utility of a copy next to a path without losses
-/

namespace ScTransport

open Infra

variable {R : FloatOps}

/-! ## Paths -/

structure PathState (R : FloatOps) where
  rtt : Nat
  bandwidth : Fl R
  loss : Fl R
  kind : PathKind

/-- The entry of the matrix for two different paths, the lower index first. -/
def PathKind.correlation : PathKind → PathKind → Fl R
  | .stream, .datagram => 0.82
  | .datagram, .stream => 0.82
  | .stream, .stream => 0.68
  | .datagram, .datagram => 0.58

structure PathCorrelation (R : FloatOps) where
  correlationMatrix : List (List (Fl R))

namespace PathCorrelation

def fromPathKinds (kinds : List PathKind) : PathCorrelation R where
  correlationMatrix := kinds.mapIdx fun i a => kinds.mapIdx fun j b =>
    if i = j then 1 else if i < j then a.correlation b else b.correlation a

def rho (c : PathCorrelation R) (i j : Nat) : Fl R :=
  ((c.correlationMatrix[i]?).bind fun row => row[j]?).getD 0

end PathCorrelation

/-! ## The queue of a path -/

structure QueueModel (R : FloatOps) where
  ewmaDelay : Fl R
  inflightBytes : Nat
  pacingBacklog : Nat
  queueDelayVelocity : Fl R
  prevPredictedDelay : Fl R
  lastBw : Fl R

namespace QueueModel

def default : QueueModel R where
  ewmaDelay := 0
  inflightBytes := 0
  pacingBacklog := 0
  queueDelayVelocity := 0
  prevPredictedDelay := 0
  lastBw := 1

variable (q : QueueModel R)

def predictedQueueDelay (bandwidthBps : Fl R) : Fl R :=
  let bw := max bandwidthBps 1
  let ser := (q.inflightBytes : Fl R) / bw
  let pacingPenalty := min ((q.pacingBacklog : Fl R) / bw) 0.05
  q.ewmaDelay + ser + pacingPenalty

def predictedQueueAtHorizon (bandwidthBps horizonS : Fl R) : Fl R :=
  q.predictedQueueDelay bandwidthBps + q.queueDelayVelocity * max horizonS 0

/-- What `on_send` and `on_feedback_tick` end with. -/
def track (bw dt vAlpha : Fl R) : QueueModel R :=
  let newPred := q.predictedQueueDelay bw
  let dv := (newPred - q.prevPredictedDelay) / dt
  { q with
    queueDelayVelocity := (1 - vAlpha) * q.queueDelayVelocity + vAlpha * dv
    prevPredictedDelay := newPred }

def onSend (bytes : Nat) (bandwidthBps pacingTokensDeficit : Fl R) : QueueModel R :=
  let bw := max bandwidthBps 1
  let inst := (bytes : Fl R) / bw
  let q := { q with
    lastBw := bw
    ewmaDelay := (1 - 0.22) * q.ewmaDelay + 0.22 * inst
    inflightBytes := satAdd q.inflightBytes bytes
    pacingBacklog := (pacingTokensDeficit.clamp 0 (2.0 * 1500.0)).toNat }
  q.track bw 0.012 0.18

def onFeedbackTick (drainBytes : Nat) : QueueModel R :=
  let q := { q with inflightBytes := q.inflightBytes - drainBytes }
  q.track (max q.lastBw 1) 0.02 0.12

end QueueModel

/-! ## Estimates -/

structure CongestionSignal (R : FloatOps) where
  queuePressure : Fl R
  retransmissionPressure : Fl R
  completionPressure : Fl R

structure CompletionEstimate (R : FloatOps) where
  probability : Fl R
  expectedTime : Nat

def jointFailureProbability (p1 p2 rho : Fl R) : Fl R :=
  let p1 := p1.clamp 0 1
  let p2 := p2.clamp 0 1
  let rho := rho.clamp 0 1
  let independent := p1 * p2
  let corr := rho * (p1 * (1 - p1)).sqrt * (p2 * (1 - p2)).sqrt
  min (independent + corr) 1

def effectivePaths (paths : List (PathState R)) : Fl R := ((max paths.length 1 : Nat) : Fl R)

def avgRtt (paths : List (PathState R)) : Fl R :=
  Fl.sum (paths.map fun p => max (Fl.asSecs p.rtt) 0.00001) / effectivePaths paths

def avgLoss (paths : List (PathState R)) : Fl R :=
  Fl.sum (paths.map PathState.loss) / effectivePaths paths

/-- `missing`, in `estimate_completion`. -/
def Block.missing (b : Block) : Nat :=
  max b.remainingDataShards (min b.inFlight b.requiredShards)

/-- The expected time in seconds, before it becomes a `Duration`. -/
def expectedSecs (block : Block) (paths : List (PathState R)) (inflight : List Packet)
    (parityShards : Nat) (queueDelayS : Fl R) : Fl R :=
  let inflightSame := (inflight.filter fun p => p.fecGroup = block.id).length
  let pOk := (1 - avgLoss paths).clamp 0.02 1
  let parityRelief := min ((parityShards : Fl R) * 0.12) 0.45
  let rounds := (block.missing : Fl R) / max (pOk * (1 + parityRelief)) 0.15
  let inflightFactor := 1 + 0.18 * (inflightSame : Fl R) + 0.12 * (block.inFlight : Fl R)
  max (avgRtt paths * rounds * inflightFactor + queueDelayS) 0

def estimateCompletion (block : Block) (paths : List (PathState R)) (inflight : List Packet)
    (parityShards : Nat) (queueDelayS : Fl R) : CompletionEstimate R :=
  if paths.isEmpty then ⟨0, 3600 * 1000000000⟩
  else
    let parityRelief := min ((parityShards : Fl R) * 0.12) 0.45
    let prob :=
      (1 - (avgLoss paths).powf (min ((block.missing : Fl R) + 1) 32.0)).clamp 0 1
    { probability := min (prob + parityRelief * 0.25) 1
      expectedTime := (expectedSecs block paths inflight parityShards queueDelayS).fromSecs }

/-- The utility of a block in `optimize_global_schedule`. -/
def globalUtility (paths : List (PathState R)) (parityShards : Nat) (inflight : List Packet)
    (b : Block) : Fl R :=
  let q := ((paths.head?).map fun p => (b.inFlight : Fl R) * (1 / p.bandwidth) * 1500.0).getD 0
  let est := estimateCompletion b paths inflight parityShards q
  let timeS := max (Fl.asSecs est.expectedTime) 0.000001
  let u := est.probability / timeS
  if b.remainingDataShards ≤ 2 then u * 1.85 else u

def tailUrgencyMultiplier (block : Block) (tailPenalty : Fl R) : Fl R :=
  let base := 1 + tailPenalty * 40.0
  if block.remainingDataShards ≤ 2 then base * 1.65 else base

/-- The same block with one more shard in flight. -/
def Block.oneMore (b : Block) : Block := { b with inFlight := b.inFlight + 1 }

def marginalTimeReductionS (block : Block) (paths : List (PathState R)) (inflight : List Packet)
    (parityShards pathIdx : Nat) (tailPenalty queueDelayS : Fl R) : Fl R :=
  let base := estimateCompletion block paths inflight parityShards queueDelayS
  let after := estimateCompletion block.oneMore paths inflight parityShards queueDelayS
  let raw : Fl R := Fl.asSecs base.expectedTime - Fl.asSecs after.expectedTime
  let p : Fl R := ((paths[pathIdx]?).map fun x => 1 - x.loss).getD 0.5
  let p := p.clamp 0.05 1
  max raw 0 * p * tailUrgencyMultiplier block tailPenalty

def bandwidthCostS (packetBytes bandwidthBps queueDelayS : Fl R) : Fl R :=
  let ser := packetBytes / max bandwidthBps 1
  max (ser + queueDelayS) 0.000000001

def queueAt (queueModels : List (QueueModel R)) (i : Nat) : QueueModel R :=
  (queueModels[i]?).getD QueueModel.default

def pathSendUtility (pathIdx : Nat) (paths : List (PathState R))
    (queueModels : List (QueueModel R)) (packet : Packet) (block : Block)
    (inflight : List Packet) (parityShards : Nat) (tailPenalty : Fl R) : Fl R :=
  match paths[pathIdx]? with
  | none => 0
  | some p =>
    let qDelay := (queueAt queueModels pathIdx).predictedQueueAtHorizon p.bandwidth 0.55
    let reduction :=
      marginalTimeReductionS block paths inflight parityShards pathIdx tailPenalty qDelay
    let cost := bandwidthCostS (packet.info.size : Fl R) p.bandwidth qDelay
    let reliability := max ((1 - p.loss).powf 1.35) 0.06
    let retransmissionLoad := 1 + 1.6 * p.loss
    reduction * reliability / (cost * retransmissionLoad)

/-- `marginal_survival`: how much a second copy on another path helps against losses. -/
def marginalSurvival (p0 p1 rho : Fl R) : Fl R :=
  (1 - jointFailureProbability p0 p1 rho) - (1 - p0)

/-- Both indices are in range where this is called. -/
def duplicateSendUtility (primaryIdx secondaryIdx : Nat) (paths : List (PathState R))
    (queueModels : List (QueueModel R)) (correlation : PathCorrelation R) (packet : Packet)
    (block : Block) (inflight : List Packet) (parityShards : Nat) (tailPenalty : Fl R) : Fl R :=
  if primaryIdx = secondaryIdx then 0
  else
    match paths[primaryIdx]?, paths[secondaryIdx]? with
    | some primary, some secondary =>
      let p0 := primary.loss.clamp 0 0.999
      let p1 := secondary.loss.clamp 0 0.999
      let rho := (correlation.rho primaryIdx secondaryIdx).clamp 0 1
      let est := estimateCompletion block paths inflight parityShards
        (((queueModels[primaryIdx]?).map fun q =>
          q.predictedQueueAtHorizon primary.bandwidth 0.55).getD 0)
      let reduction := max (marginalSurvival p0 p1 rho) 0 * Fl.asSecs est.expectedTime * 0.22 *
        tailUrgencyMultiplier block tailPenalty * (1 - 0.55 * rho)
      let qDelay :=
        (queueAt queueModels secondaryIdx).predictedQueueAtHorizon secondary.bandwidth 0.55
      let cost := bandwidthCostS (packet.info.size : Fl R) secondary.bandwidth qDelay
      reduction / max cost 0.000000001
    | _, _ => 0

/-! ## Exploration -/

/-- The state `xorshift_u01` leaves behind. -/
def xorshift (seed : UInt64) : UInt64 :=
  let seed := seed ^^^ (seed <<< 13)
  let seed := seed ^^^ (seed >>> 7)
  seed ^^^ (seed <<< 17)

/-- The number `xorshift_u01` returns with that state. -/
def seedU01 (seed : UInt64) : Fl R :=
  ((seed.toNat : Fl R) / ((u64Max : Nat) : Fl R)).clamp 0 1

def epsilonGreedyExplore (epsilon rngU01 : Fl R) : Bool := decide (rngU01 < epsilon.clamp 0 0.5)

/-! ## A path is worth nothing -/

theorem Block.missing_le_oneMore (b : Block) : b.missing ≤ b.oneMore.missing := by
  unfold missing
  refine max_le_max le_rfl (min_le_min ?_ le_rfl)
  exact Nat.le_succ b.inFlight

theorem nonneg_effectivePaths (paths : List (PathState R)) : 0 ≤ effectivePaths paths :=
  Fl.nonneg_natCast _

theorem nonneg_avgRtt (paths : List (PathState R)) : 0 ≤ avgRtt paths := by
  refine Fl.nonneg_div (Fl.nonneg_sum fun a ha => ?_) (nonneg_effectivePaths paths)
  obtain ⟨p, -, rfl⟩ := List.mem_map.mp ha
  exact (Fl.nonneg_asSecs p.rtt).trans (le_max_left _ _)

/-- With one more shard in flight the estimate does not become smaller. -/
theorem expectedSecs_oneMore (block : Block) (paths : List (PathState R))
    (inflight : List Packet) (parityShards : Nat) (queueDelayS : Fl R) :
    expectedSecs block paths inflight parityShards queueDelayS ≤
      expectedSecs block.oneMore paths inflight parityShards queueDelayS := by
  have h15 : (0 : Fl R) < 0.15 := Fl.pos_literal (by norm_num)
  have h18 : (0 : Fl R) < 0.18 := Fl.pos_literal (by norm_num)
  have h12 : (0 : Fl R) < 0.12 := Fl.pos_literal (by norm_num)
  unfold expectedSecs
  refine max_le_max (Fl.add_mono ?_ le_rfl) le_rfl
  -- both the rounds and the factor grow
  have hrounds : ∀ d : Fl R, 0 < d →
      (block.missing : Fl R) / d ≤ (block.oneMore.missing : Fl R) / d :=
    fun d hd => Fl.div_mono hd.le (Fl.natCast_mono block.missing_le_oneMore)
  have hinflight : (block.inFlight : Fl R) ≤ (block.oneMore.inFlight : Fl R) :=
    Fl.natCast_mono (Nat.le_succ _)
  refine (Fl.mul_mono_left ?_ (Fl.add_mono le_rfl (Fl.mul_mono_left h12.le hinflight))).trans
    (Fl.mul_mono_right ?_ (Fl.mul_mono_left (nonneg_avgRtt paths)
      (hrounds _ (h15.trans_le (le_max_right _ _)))))
  · exact Fl.nonneg_mul (nonneg_avgRtt paths)
      (Fl.nonneg_div (Fl.nonneg_natCast _) (h15.le.trans (le_max_right _ _)))
  · refine Fl.nonneg_add (Fl.nonneg_add zero_le_one ?_) ?_
    · exact Fl.nonneg_mul h18.le (Fl.nonneg_natCast _)
    · exact Fl.nonneg_mul h12.le (Fl.nonneg_natCast _)

theorem estimateCompletion_oneMore (block : Block) (paths : List (PathState R))
    (inflight : List Packet) (parityShards : Nat) (queueDelayS : Fl R) :
    (estimateCompletion block paths inflight parityShards queueDelayS).expectedTime ≤
      (estimateCompletion block.oneMore paths inflight parityShards queueDelayS).expectedTime := by
  unfold estimateCompletion
  split
  · exact le_rfl
  · exact Fl.fromSecs_mono (expectedSecs_oneMore block paths inflight parityShards queueDelayS)

theorem marginalTimeReductionS_eq_zero (block : Block) (paths : List (PathState R))
    (inflight : List Packet) (parityShards pathIdx : Nat) (tailPenalty queueDelayS : Fl R) :
    marginalTimeReductionS block paths inflight parityShards pathIdx tailPenalty queueDelayS =
      0 := by
  have hraw := Fl.nonpos_sub (Fl.asSecs_mono (R := R)
    (estimateCompletion_oneMore block paths inflight parityShards queueDelayS))
  unfold marginalTimeReductionS
  simp only [max_eq_right hraw, Fl.zero_mul']

/-- **Every path is worth nothing**, for every packet in every state of the queues. -/
theorem pathSendUtility_eq_zero (pathIdx : Nat) (paths : List (PathState R))
    (queueModels : List (QueueModel R)) (packet : Packet) (block : Block)
    (inflight : List Packet) (parityShards : Nat) (tailPenalty : Fl R) :
    pathSendUtility pathIdx paths queueModels packet block inflight parityShards tailPenalty =
      0 := by
  unfold pathSendUtility
  split
  · rfl
  · simp only [marginalTimeReductionS_eq_zero, Fl.zero_mul', Fl.zero_div']

/-! ## A second copy -/

theorem clamp_zero {hi : Fl R} (h : 0 ≤ hi) : (0 : Fl R).clamp 0 hi = 0 := by
  unfold Fl.clamp
  rw [min_eq_left h, max_self]

theorem jointFailureProbability_zero (p1 rho : Fl R) :
    jointFailureProbability 0 p1 rho = 0 := by
  have hsqrt : (0 : Fl R).sqrt = 0 := by
    rw [Fl.sqrt, Fl.val_zero, R.sqrt_zero, Fl.ofRat_zero]
  unfold jointFailureProbability
  simp only [clamp_zero zero_le_one, Fl.zero_mul', hsqrt, Fl.mul_zero', Fl.add_zero']
  exact min_eq_left zero_le_one

/-- Next to a path without losses a second copy is worth nothing. -/
theorem duplicateSendUtility_of_lossless {primaryIdx secondaryIdx : Nat}
    {paths : List (PathState R)} {primary : PathState R}
    (hprimary : paths[primaryIdx]? = some primary) (hloss : primary.loss = 0)
    (queueModels : List (QueueModel R)) (correlation : PathCorrelation R) (packet : Packet)
    (block : Block) (inflight : List Packet) (parityShards : Nat) (tailPenalty : Fl R) :
    duplicateSendUtility primaryIdx secondaryIdx paths queueModels correlation packet block
      inflight parityShards tailPenalty = 0 := by
  have h999 : (0 : Fl R) ≤ 0.999 := (Fl.pos_literal (by norm_num)).le
  have hself : (1 - 0 : Fl R) - (1 - 0) ≤ 0 := Fl.nonpos_sub le_rfl
  unfold duplicateSendUtility
  split
  · rfl
  · rw [hprimary]
    cases paths[secondaryIdx]? with
    | none => rfl
    | some secondary =>
      simp only [hloss, clamp_zero h999, marginalSurvival, jointFailureProbability_zero,
        max_eq_right hself, Fl.zero_mul', Fl.zero_div']

end ScTransport
