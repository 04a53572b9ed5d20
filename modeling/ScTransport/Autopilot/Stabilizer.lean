import ScTransport.Autopilot.Control
import ScTransport.Infra.Window

/-!
# The predictive stabiliser

`adaptive/predictive.rs` keeps the last 48 samples of the network, forecasts the congestion from
them and damps pacing, duplication and ranking. Its three loops run at different speeds:
`MultiTimescaleClock` tells which of them a packet is in.

* `PredictiveStabilizer.preparePacket` — the source
* `StabilizerRun.Sound` — the samples, the momenta and the stamps of the clock
* `stabilizer_of_reach` — what every run keeps
-/

namespace ScTransport

open Infra

variable {R : FloatOps}

/-! ## Samples and forecast -/

structure NetworkSample (R : FloatOps) where
  rttSecs : Fl R
  loss : Fl R
  queuePressure : Fl R
  pacingBacklog : Fl R
  retransAccel : Fl R

structure CongestionForecast (R : FloatOps) where
  predictedQueueGrowth : Fl R
  predictedLossGrowth : Fl R
  predictedRttGrowth : Fl R
  confidence : Fl R

/-- The slope of a measure between the first and the last sample. -/
def slope (samples : List (NetworkSample R)) (f : NetworkSample R → Fl R) : Fl R :=
  let first := ((samples.head?).map f).getD 0
  let last := ((samples.getLast?).map f).getD 0
  (last - first) / max ((samples.length - 1 : Nat) : Fl R) 1

def meanVar (samples : List (NetworkSample R)) (f : NetworkSample R → Fl R) : Fl R :=
  let n := (samples.length : Fl R)
  let m := Fl.sum (samples.map f) / n
  Fl.sum (samples.map fun s => (f s - m) * (f s - m)) / n

def forecastCongestion (samples : List (NetworkSample R)) : CongestionForecast R :=
  if samples.length < 3 then
    { predictedQueueGrowth := 0
      predictedLossGrowth := 0
      predictedRttGrowth := 0
      confidence := ((samples.length : Fl R) / 6.0).clamp 0.15 0.45 }
  else
    let rttVar := (meanVar samples NetworkSample.rttSecs).sqrt
    let retrans := max (((samples.getLast?).map NetworkSample.retransAccel).getD 0) 0
    let horizon : Fl R := 0.20 * 0.55 + 1.0 * (1 - 0.55)
    let queueGrowth := max (slope samples NetworkSample.queuePressure * horizon +
      slope samples NetworkSample.pacingBacklog * 0.4 * horizon) 0
    let lossGrowth := max (slope samples NetworkSample.loss * horizon + retrans * 0.15 * horizon) 0
    let rttGrowth :=
      max (slope samples NetworkSample.rttSecs * horizon + rttVar * 0.35 * horizon) 0
    let qVar := (meanVar samples NetworkSample.queuePressure).sqrt
    { predictedQueueGrowth := (queueGrowth + qVar * 0.25 * horizon).clamp 0 1.2
      predictedLossGrowth := lossGrowth.clamp 0 0.8
      predictedRttGrowth := (rttGrowth + rttVar * 0.2 * horizon).clamp 0 1.0
      confidence := (((samples.length : Fl R) - 2.0) / 14.0).clamp 0.2 1.0 }

def smoothedUtility (alpha current historical : Fl R) : Fl R :=
  let a := alpha.clamp 0.05 0.95
  a * current + (1 - a) * historical

/-! ## Budget, oscillation and telemetry -/

structure ControlState (R : FloatOps) where
  utilityMomentum : Fl R
  pacingMomentum : Fl R
  duplicationMomentum : Fl R

structure StabilityBudget (R : FloatOps) where
  maxDuplicationRate : Fl R
  maxFecOverhead : Fl R
  maxInflightGrowth : Fl R

def StabilityBudget.fromForecastVolatility (forecast : CongestionForecast R)
    (queueVolatility rttAccel : Fl R) : StabilityBudget R :=
  let stress := (forecast.predictedQueueGrowth * 1.1 + forecast.predictedLossGrowth * 0.9 +
    forecast.predictedRttGrowth * 0.85 + queueVolatility * 0.6 + max rttAccel 0 * 0.5).clamp 0 2.5
  let relax := (1 - stress * 0.38).clamp 0.35 1
  { maxDuplicationRate := (0.55 + 0.45 * relax).clamp 0.2 1
    maxFecOverhead := (0.5 + 0.5 * relax).clamp 0.25 1
    maxInflightGrowth := (0.45 + 0.55 * relax).clamp 0.3 1 }

structure OscillationDetector (R : FloatOps) where
  utilityVariance : Fl R
  pacingVariance : Fl R
  queueVariance : Fl R
  lastUtility : Option (Fl R)
  lastPacing : Option (Fl R)
  lastQueue : Option (Fl R)

namespace OscillationDetector

def default : OscillationDetector R := ⟨0, 0, 0, none, none, none⟩

/-- One variance of `observe`. -/
def observed (variance : Fl R) (last : Option (Fl R)) (new : Fl R) : Fl R :=
  match last with
  | none => variance
  | some prev => (1 - 0.22) * variance + 0.22 * (new - prev) * (new - prev)

def observe (d : OscillationDetector R) (utility pacingNorm queueP : Fl R) :
    OscillationDetector R where
  utilityVariance := observed d.utilityVariance d.lastUtility utility
  pacingVariance := observed d.pacingVariance d.lastPacing pacingNorm
  queueVariance := observed d.queueVariance d.lastQueue queueP
  lastUtility := some utility
  lastPacing := some pacingNorm
  lastQueue := some queueP

def oscillationScore (d : OscillationDetector R) : Fl R :=
  (d.utilityVariance * 6.0 + d.pacingVariance * 4.0 + d.queueVariance * 3.0).sqrt.clamp 0 1.5

end OscillationDetector

structure StabilityTelemetry (R : FloatOps) where
  oscillationZeroCrossings : Nat
  queueOvershootEvents : Nat
  utilityStabilityEwma : Fl R
  forecastConfidenceEwma : Fl R
  recoveryTicksAfterStress : Nat
  lastUtilitySign : Int
  stressLevel : Fl R
  recoveryCounter : Nat

namespace StabilityTelemetry

def default : StabilityTelemetry R := ⟨0, 0, 0, 0, 0, 0, 0, 0⟩

def tick (t : StabilityTelemetry R) (utility : Fl R) (forecast : CongestionForecast R)
    (queuePressure overshootThreshold : Fl R) : StabilityTelemetry R :=
  let sign : Int :=
    if t.utilityStabilityEwma < utility then 1
    else if utility < t.utilityStabilityEwma then -1
    else 0
  let t := { t with
    oscillationZeroCrossings :=
      if sign ≠ 0 ∧ t.lastUtilitySign ≠ 0 ∧ sign ≠ t.lastUtilitySign then
        satAdd t.oscillationZeroCrossings 1
      else t.oscillationZeroCrossings
    lastUtilitySign := if sign ≠ 0 then sign else t.lastUtilitySign
    utilityStabilityEwma := 0.88 * t.utilityStabilityEwma + 0.12 * utility
    forecastConfidenceEwma := 0.9 * t.forecastConfidenceEwma + 0.1 * forecast.confidence
    queueOvershootEvents :=
      if overshootThreshold < queuePressure then satAdd t.queueOvershootEvents 1
      else t.queueOvershootEvents }
  let stress := (forecast.predictedQueueGrowth + forecast.predictedRttGrowth * 0.5).clamp 0 1
  if 0.35 < stress then { t with stressLevel := stress, recoveryCounter := 0 }
  else if 0.1 < t.stressLevel then
    let counter := satAdd t.recoveryCounter 1
    if 8 < counter then
      { t with
        recoveryTicksAfterStress := satAdd t.recoveryTicksAfterStress counter
        stressLevel := t.stressLevel * 0.85
        recoveryCounter := 0 }
    else { t with recoveryCounter := counter }
  else t

end StabilityTelemetry

/-! ## The clock -/

inductive TimescaleTier where
  | fast
  | medium
  | slow
  deriving DecidableEq

structure MultiTimescaleClock where
  fastMin : Nat
  mediumMin : Nat
  slowMin : Nat
  lastFast : Nat
  lastMedium : Nat
  lastSlow : Nat

namespace MultiTimescaleClock

def default (now : Nat) : MultiTimescaleClock where
  fastMin := 12 * 1000000
  mediumMin := 120 * 1000000
  slowMin := 1500 * 1000000
  lastFast := now
  lastMedium := now
  lastSlow := now

def tick (c : MultiTimescaleClock) (now : Nat) : MultiTimescaleClock × TimescaleTier :=
  if c.slowMin ≤ now - c.lastSlow then ({ c with lastSlow := now }, .slow)
  else if c.mediumMin ≤ now - c.lastMedium then ({ c with lastMedium := now }, .medium)
  else if c.fastMin ≤ now - c.lastFast then ({ c with lastFast := now }, .fast)
  else (c, .fast)

end MultiTimescaleClock

/-! ## The stabiliser -/

structure PacketStabilization (R : FloatOps) where
  forecast : CongestionForecast R
  budget : StabilityBudget R
  pacingScale : Fl R
  speculativeScale : Fl R
  dupUtilityScale : Fl R
  suppressSpeculativeDup : Bool
  oscillationDamp : Fl R
  rankingPressureScale : Fl R

structure PredictiveStabilizer (R : FloatOps) where
  samples : List (NetworkSample R)
  maxSamples : Nat
  control : ControlState R
  oscillation : OscillationDetector R
  telemetry : StabilityTelemetry R
  clock : MultiTimescaleClock
  lastSampleLoss : Fl R
  lastWall : Nat
  slowLoopRankingBias : Fl R
  rttVarianceTrend : Fl R

namespace PredictiveStabilizer

def default (now : Nat) : PredictiveStabilizer R where
  samples := []
  maxSamples := 48
  control := ⟨0, 1, 1⟩
  oscillation := .default
  telemetry := .default
  clock := .default now
  lastSampleLoss := 0
  lastWall := now
  slowLoopRankingBias := 1
  rttVarianceTrend := 0

variable (z : PredictiveStabilizer R)

def pushNetworkSample (s : NetworkSample R) : PredictiveStabilizer R :=
  { z with
    samples :=
      (if z.maxSamples ≤ z.samples.length then z.samples.tail else z.samples) ++ [s] }

/-- The arguments of `prepare_packet`; of the scheduler it reads the queues. -/
structure Call (R : FloatOps) where
  now : Nat
  cc : HybridCongestionController R
  queueModels : List (QueueModel R)
  sig : CongestionSignal R
  primaryRawUtility : Fl R

variable (call : Call R)

def Call.pacingNorm : Fl R :=
  Fl.sum (call.queueModels.map fun q => (q.pacingBacklog : Fl R) / 3000.0) /
    ((max call.queueModels.length 1 : Nat) : Fl R)

/-- The sample a packet leaves behind. -/
def sampleOf : NetworkSample R :=
  let dt := max (Fl.asSecs (call.now - z.lastWall)) 0.001
  { rttSecs := max (Fl.asSecs call.cc.lastRtt) 0.00001
    loss := call.cc.lossRate
    queuePressure := call.sig.queuePressure.clamp 0 1
    pacingBacklog := call.pacingNorm.clamp 0 3.0
    retransAccel := ((call.cc.lossRate - z.lastSampleLoss) / dt).clamp (0 - 5.0) 5.0 }

def oscillationDamp : Fl R := (1 / (1 + z.oscillation.oscillationScore * 2.2)).clamp 0.45 1

def budgetFor (forecast : CongestionForecast R) : StabilityBudget R :=
  let minRttS := max (Fl.asSecs call.cc.minRtt) 0.0005
  let rttJitter := (z.rttVarianceTrend / (minRttS * minRttS)).sqrt.clamp 0 2.0
  let queueVol := z.oscillation.queueVariance.sqrt + rttJitter * 0.25
  StabilityBudget.fromForecastVolatility forecast queueVol (max call.cc.rttGradient 0)

/-- The target of the fast loop. -/
def rawPacing (forecast : CongestionForecast R) : Fl R :=
  (1 - 0.55 * forecast.predictedQueueGrowth.clamp 0 0.9) *
    (1 - 0.35 * forecast.predictedRttGrowth.clamp 0 0.8)

/-- The target of the medium loop. -/
def rawSpeculative (budget : StabilityBudget R) (damp : Fl R) : Fl R :=
  (budget.maxDuplicationRate * damp).clamp 0.25 1

/-- The target of the slow loop. -/
def rawRanking (forecast : CongestionForecast R) : Fl R :=
  (1 - 0.2 * forecast.confidence * forecast.predictedQueueGrowth).clamp 0.55 1

/-- `suppress` and `dup_scale`. -/
def suppression (forecast : CongestionForecast R) (budget : StabilityBudget R) : Bool × Fl R :=
  let qGrowthTh := 0.28 + 0.12 * (1 - forecast.confidence)
  let suppress :=
    decide (qGrowthTh < forecast.predictedQueueGrowth ∧ 0.35 < forecast.confidence)
  let scale :=
    if suppress then
      (1 - (forecast.predictedQueueGrowth - qGrowthTh).clamp 0 0.5 * 1.4) * 0.55
    else 1
  (suppress, scale * budget.maxDuplicationRate)

def preparePacket : PredictiveStabilizer R × PacketStabilization R :=
  let z' := { z with lastWall := call.now, lastSampleLoss := call.cc.lossRate }
  let z' := z'.pushNetworkSample (z.sampleOf call)
  let forecast := forecastCongestion z'.samples
  let telemetry := z.telemetry.tick call.primaryRawUtility forecast call.sig.queuePressure 0.72
  let budget := z.budgetFor call forecast
  let (clock, tier) := z.clock.tick call.now
  let damp := z.oscillationDamp
  let pacingMomentum := 0.28 * rawPacing forecast + (1 - 0.28) * z.control.pacingMomentum
  let mediumLoop := tier = .medium ∨ tier = .slow
  let speculative := if mediumLoop then rawSpeculative budget damp else 1
  let duplicationMomentum :=
    if mediumLoop then 0.25 * speculative + (1 - 0.25) * z.control.duplicationMomentum
    else z.control.duplicationMomentum
  let bias :=
    if tier = .slow then 0.18 * rawRanking forecast + 0.82 * z.slowLoopRankingBias
    else z.slowLoopRankingBias
  let (suppress, dupScale) := suppression forecast budget
  ({ z' with
      telemetry := telemetry
      clock := clock
      control :=
        { z.control with
          pacingMomentum := pacingMomentum
          duplicationMomentum := duplicationMomentum }
      slowLoopRankingBias := bias
      oscillation :=
        z.oscillation.observe call.primaryRawUtility call.pacingNorm call.sig.queuePressure },
    { forecast := forecast
      budget := budget
      pacingScale := (pacingMomentum * damp).clamp 0.35 1
      speculativeScale := (speculative * duplicationMomentum).clamp 0.2 1
      dupUtilityScale := dupScale.clamp 0.08 1
      suppressSpeculativeDup := suppress
      oscillationDamp := damp
      rankingPressureScale := bias.clamp 0.5 1 })

end PredictiveStabilizer

/-! ## Runs -/

/-- What is done to a stabiliser: by the pipeline, by the sender and by the path scheduler. -/
inductive StabilizerLabel (R : FloatOps) where
  | prepare (call : PredictiveStabilizer.Call R)
  | sync (rttVarianceTrend : Fl R)
  | smooth (utilityMomentum : Fl R)

/-- The stabiliser, with the samples so far and the loop every packet was in. -/
structure StabilizerRun (R : FloatOps) where
  stabilizer : PredictiveStabilizer R
  sampled : List (NetworkSample R)
  ticks : List (Nat × TimescaleTier)

def stabilizerSystem (R : FloatOps) : Lts (StabilizerRun R) (StabilizerLabel R) where
  step s l := some <| match l with
    | .prepare call =>
      { stabilizer := (s.stabilizer.preparePacket call).1
        sampled := s.sampled ++ [s.stabilizer.sampleOf call]
        ticks := s.ticks ++ [(call.now, (s.stabilizer.clock.tick call.now).2)] }
    | .sync trend =>
      { s with stabilizer := { s.stabilizer with rttVarianceTrend := trend } }
    | .smooth momentum =>
      { s with stabilizer :=
        { s.stabilizer with control :=
          { s.stabilizer.control with utilityMomentum := momentum } } }

def StabilizerRun.init (R : FloatOps) (now : Nat) : StabilizerRun R := ⟨.default now, [], []⟩

/-- Two packets in the same of the two slower loops are as far apart as the loop asks. -/
def Spaced (earlier later : Nat × TimescaleTier) : Prop :=
  (earlier.2 = .slow → later.2 = .slow → earlier.1 + 1500 * 1000000 ≤ later.1) ∧
    (earlier.2 = .medium → later.2 = .medium → earlier.1 + 120 * 1000000 ≤ later.1)

namespace MultiTimescaleClock

/-- The clock keeps its intervals, and its stamps are not before the ticks so far. -/
structure Keeps (c : MultiTimescaleClock) (ticks : List (Nat × TimescaleTier)) : Prop where
  slowMin : c.slowMin = 1500 * 1000000
  mediumMin : c.mediumMin = 120 * 1000000
  slow : ∀ t ∈ ticks, t.2 = .slow → t.1 ≤ c.lastSlow
  medium : ∀ t ∈ ticks, t.2 = .medium → t.1 ≤ c.lastMedium
  spaced : ticks.Pairwise Spaced

variable {c : MultiTimescaleClock} {ticks : List (Nat × TimescaleTier)} {now : Nat}

theorem Keeps.init : (default now).Keeps [] := ⟨rfl, rfl, nofun, nofun, List.Pairwise.nil⟩

/-- What a tick does to the two slower loops. -/
theorem tick_cases (c : MultiTimescaleClock) (now : Nat) :
    (c.tick now).1.slowMin = c.slowMin ∧ (c.tick now).1.mediumMin = c.mediumMin ∧
    (((c.tick now).2 = .slow ∧ c.slowMin ≤ now - c.lastSlow ∧ (c.tick now).1.lastSlow = now ∧
        (c.tick now).1.lastMedium = c.lastMedium) ∨
      ((c.tick now).2 = .medium ∧ c.mediumMin ≤ now - c.lastMedium ∧
        (c.tick now).1.lastMedium = now ∧ (c.tick now).1.lastSlow = c.lastSlow) ∨
      ((c.tick now).2 = .fast ∧ (c.tick now).1.lastSlow = c.lastSlow ∧
        (c.tick now).1.lastMedium = c.lastMedium)) := by
  unfold tick
  split
  · next h => exact ⟨rfl, rfl, Or.inl ⟨rfl, h, rfl, rfl⟩⟩
  · split
    · next h => exact ⟨rfl, rfl, Or.inr (Or.inl ⟨rfl, h, rfl, rfl⟩)⟩
    · split <;> exact ⟨rfl, rfl, Or.inr (Or.inr ⟨rfl, rfl, rfl⟩)⟩

theorem Keeps.tick (h : c.Keeps ticks) (now : Nat) :
    (c.tick now).1.Keeps (ticks ++ [(now, (c.tick now).2)]) := by
  obtain ⟨hslowMin, hmediumMin, hcases⟩ := c.tick_cases now
  have hs := h.slowMin
  have hm := h.mediumMin
  have hspaced : (∀ t ∈ ticks, Spaced t (now, (c.tick now).2)) →
      (ticks ++ [(now, (c.tick now).2)]).Pairwise Spaced := fun hnew =>
    List.pairwise_append.mpr ⟨h.spaced, List.pairwise_singleton _ _, fun t ht t' ht' => by
      rw [List.mem_singleton.mp ht']
      exact hnew t ht⟩
  refine ⟨hslowMin.trans hs, hmediumMin.trans hm, ?_, ?_, hspaced ?_⟩
  · intro t ht htier
    rcases List.mem_append.mp ht with ht | ht
    · have := h.slow t ht htier
      rcases hcases with ⟨-, hle, hlast, -⟩ | ⟨-, -, -, hlast⟩ | ⟨-, hlast, -⟩ <;> omega
    · obtain rfl := List.mem_singleton.mp ht
      rcases hcases with ⟨-, -, hlast, -⟩ | ⟨hother, -⟩ | ⟨hother, -⟩
      · exact hlast.ge
      · exact absurd (htier.symm.trans hother) (by decide)
      · exact absurd (htier.symm.trans hother) (by decide)
  · intro t ht htier
    rcases List.mem_append.mp ht with ht | ht
    · have := h.medium t ht htier
      rcases hcases with ⟨-, -, -, hlast⟩ | ⟨-, hle, hlast, -⟩ | ⟨-, -, hlast⟩ <;> omega
    · obtain rfl := List.mem_singleton.mp ht
      rcases hcases with ⟨hother, -⟩ | ⟨-, -, hlast, -⟩ | ⟨hother, -⟩
      · exact absurd (htier.symm.trans hother) (by decide)
      · exact hlast.ge
      · exact absurd (htier.symm.trans hother) (by decide)
  · intro t ht
    constructor
    · intro hslow hnow
      have := h.slow t ht hslow
      rcases hcases with ⟨-, hle, -⟩ | ⟨hother, -⟩ | ⟨hother, -⟩
      · show t.1 + 1500 * 1000000 ≤ now
        omega
      · exact absurd (hnow.symm.trans hother) (by decide)
      · exact absurd (hnow.symm.trans hother) (by decide)
    · intro hmedium hnow
      have := h.medium t ht hmedium
      rcases hcases with ⟨hother, -⟩ | ⟨-, hle, -⟩ | ⟨hother, -⟩
      · exact absurd (hnow.symm.trans hother) (by decide)
      · show t.1 + 120 * 1000000 ≤ now
        omega
      · exact absurd (hnow.symm.trans hother) (by decide)

end MultiTimescaleClock

/-! ## What every run keeps -/

namespace PredictiveStabilizer

variable (z : PredictiveStabilizer R) (call : Call R)

theorem preparePacket_samples (hmax : 0 < z.maxSamples) :
    (z.preparePacket call).1.samples = pushLast z.maxSamples z.samples (z.sampleOf call) := by
  rw [pushLast_eq hmax]
  rfl

/-- Outside the medium and the slow loop the momentum rests. -/
theorem preparePacket_duplicationMomentum :
    (z.preparePacket call).1.control.duplicationMomentum = z.control.duplicationMomentum ∨
      ∃ budget damp, (z.preparePacket call).1.control.duplicationMomentum =
        0.25 * rawSpeculative budget damp + (1 - 0.25) * z.control.duplicationMomentum := by
  by_cases hloop : (z.clock.tick call.now).2 = .medium ∨ (z.clock.tick call.now).2 = .slow
  · right
    unfold preparePacket
    simp only [if_pos hloop]
    exact ⟨_, _, rfl⟩
  · exact Or.inl (if_neg hloop)

/-- The growths slow the pacing down and never turn it round. -/
theorem rawPacing_range (forecast : CongestionForecast R) :
    0 ≤ rawPacing forecast ∧ rawPacing forecast ≤ 1 := by
  have hpart : ∀ (w g hi : Fl R), 0 ≤ w → w ≤ 1 → 0 ≤ hi → hi ≤ 1 →
      0 ≤ 1 - w * g.clamp 0 hi ∧ 1 - w * g.clamp 0 hi ≤ 1 := by
    intro w g hi hw hw' hhi hhi'
    have hle : w * g.clamp 0 hi ≤ w := Fl.mul_le_of_le_one hw ((g.clamp_le hhi).trans hhi')
    exact ⟨Fl.nonneg_sub (hle.trans hw'), Fl.sub_le_self (Fl.nonneg_mul hw g.le_clamp)⟩
  obtain ⟨hq, hq'⟩ := hpart 0.55 forecast.predictedQueueGrowth 0.9
    (Fl.pos_literal (by norm_num)).le (Fl.literal_le_one (by norm_num))
    (Fl.pos_literal (by norm_num)).le (Fl.literal_le_one (by norm_num))
  obtain ⟨hr, hr'⟩ := hpart 0.35 forecast.predictedRttGrowth 0.8
    (Fl.pos_literal (by norm_num)).le (Fl.literal_le_one (by norm_num))
    (Fl.pos_literal (by norm_num)).le (Fl.literal_le_one (by norm_num))
  exact ⟨Fl.nonneg_mul hq hr, (Fl.mul_le_of_le_one hq hr').trans hq'⟩

theorem rawSpeculative_range (budget : StabilityBudget R) (damp : Fl R) :
    0 ≤ rawSpeculative budget damp ∧ rawSpeculative budget damp ≤ 1 :=
  ⟨(Fl.pos_literal (by norm_num)).le.trans (Fl.le_clamp _),
    Fl.clamp_le _ (Fl.literal_le_one (by norm_num))⟩

/-- A momentum between zero and one moves towards a target between zero and one. -/
theorem momentum_range {a target momentum : Fl R} (ha : 0 ≤ a) (ha' : a ≤ 1)
    (ht : 0 ≤ target ∧ target ≤ 1) (hm : 0 ≤ momentum ∧ momentum ≤ 1) :
    0 ≤ a * target + (1 - a) * momentum ∧ a * target + (1 - a) * momentum ≤ 1 := by
  rw [Fl.add_comm']
  exact ⟨Fl.nonneg_mix ha ha' hm.1 ht.1, Fl.mix_le_one ha ha' hm.2 ht.2⟩

end PredictiveStabilizer

namespace StabilizerRun

structure Sound (s : StabilizerRun R) : Prop where
  maxSamples : s.stabilizer.maxSamples = 48
  samples : s.stabilizer.samples = s.sampled.rtake 48
  pacing : 0 ≤ s.stabilizer.control.pacingMomentum ∧ s.stabilizer.control.pacingMomentum ≤ 1
  duplication :
    0 ≤ s.stabilizer.control.duplicationMomentum ∧ s.stabilizer.control.duplicationMomentum ≤ 1
  clock : s.stabilizer.clock.Keeps s.ticks

theorem Sound.init (now : Nat) : (StabilizerRun.init R now).Sound where
  maxSamples := rfl
  samples := (List.rtake_nil 48).symm
  pacing := ⟨zero_le_one, le_rfl⟩
  duplication := ⟨zero_le_one, le_rfl⟩
  clock := .init

open PredictiveStabilizer in
theorem Sound.step {s s' : StabilizerRun R} {l : StabilizerLabel R} (h : s.Sound)
    (hstep : (stabilizerSystem R).step s l = some s') : s'.Sound := by
  obtain rfl := Option.some.inj hstep
  cases l with
  | sync trend => exact ⟨h.maxSamples, h.samples, h.pacing, h.duplication, h.clock⟩
  | smooth momentum => exact ⟨h.maxSamples, h.samples, h.pacing, h.duplication, h.clock⟩
  | prepare call =>
    refine ⟨h.maxSamples, ?_, ?_, ?_, h.clock.tick call.now⟩
    · show (s.stabilizer.preparePacket call).1.samples = _
      rw [preparePacket_samples _ _ (by rw [h.maxSamples]; decide), h.maxSamples, h.samples,
        pushLast_rtake]
    · exact momentum_range (Fl.pos_literal (by norm_num)).le (Fl.literal_le_one (by norm_num))
        (rawPacing_range _) h.pacing
    · show 0 ≤ (s.stabilizer.preparePacket call).1.control.duplicationMomentum ∧
        (s.stabilizer.preparePacket call).1.control.duplicationMomentum ≤ 1
      obtain heq | ⟨budget, damp, heq⟩ := s.stabilizer.preparePacket_duplicationMomentum call
      · rw [heq]
        exact h.duplication
      · rw [heq]
        exact momentum_range (Fl.pos_literal (by norm_num)).le (Fl.literal_le_one (by norm_num))
          (rawSpeculative_range budget damp) h.duplication

end StabilizerRun

/--
**The stabiliser in every run.** Whatever is reported, it remembers the samples of the last 48
packets and no others, its momenta stay between zero and one, two packets of the slow loop are
1.5 s apart and two of the medium loop 120 ms.
-/
theorem stabilizer_of_reach {now : Nat} {s : StabilizerRun R}
    (h : (stabilizerSystem R).Reach (fun _ _ => True) (.init R now) s) :
    s.stabilizer.samples = s.sampled.rtake 48 ∧
      (0 ≤ s.stabilizer.control.pacingMomentum ∧ s.stabilizer.control.pacingMomentum ≤ 1) ∧
      (0 ≤ s.stabilizer.control.duplicationMomentum ∧
        s.stabilizer.control.duplicationMomentum ≤ 1) ∧
      s.ticks.Pairwise Spaced := by
  have hs : s.Sound := h.invariant (StabilizerRun.Sound.init now) fun hs _ hstep => hs.step hstep
  exact ⟨hs.samples, hs.pacing, hs.duplication, hs.clock.spaced⟩

/-- Two packets 200 ms apart, with an empty queue. -/
def sampleCalls : List (StabilizerLabel binary64) :=
  [.prepare ⟨0, .default, [], ⟨0.1, 0, 0⟩, 0⟩, .sync 0.1,
    .prepare ⟨200000000, .default, [], ⟨0.4, 0, 0⟩, 0⟩]

theorem sample_stabilizer :
    ∃ s, (stabilizerSystem binary64).exec (.init binary64 0) sampleCalls = some s ∧
      s.stabilizer.samples = s.sampled.rtake 48 ∧ s.ticks.Pairwise Spaced := by
  obtain ⟨hsamples, -, -, hspaced⟩ := stabilizer_of_reach (Lts.Reach.of_exec
    (rfl : (stabilizerSystem binary64).exec (.init binary64 0) sampleCalls = some _))
  exact ⟨_, rfl, hsamples, hspaced⟩

end ScTransport
