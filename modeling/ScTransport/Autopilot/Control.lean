import ScTransport.Autopilot.Utility
import ScTransport.Infra.Lts
import ScTransport.Infra.Binary64
import Mathlib.Order.Bounds.Basic
import Mathlib.Tactic.IntervalCases
import Mathlib.Tactic.Linarith

/-!
# Congestion control and strategy of the sender

`HybridCongestionController` turns samples of the network and pressures of the scheduler into a
send rate, `StrategyEngine` picks a mode with a hysteresis, and `plan_fec` and
`compute_fec_ratio` size the FEC blocks.

* `HybridCongestionController.onNetworkSample`, `targetSendRate`, `StrategyEngine.update`,
  `planFec` — the source
* `cc_rate_of_reach` — what every run keeps the rate and `min_rtt` within
* `aggressive_iff` — after which histories the mode is aggressive
* `planFec_cases` — which block sizes there are
-/

namespace ScTransport

open Infra

variable {R : FloatOps}

/-! ## The congestion controller -/

structure HybridCongestionController (R : FloatOps) where
  bandwidthEstimate : Fl R
  minRtt : Nat
  lastRtt : Nat
  lossRate : Fl R
  rttGradient : Fl R
  rttVariance : Fl R
  rttVarianceTrend : Fl R
  inUseBandwidth : Fl R
  schedulerQueuePressure : Fl R
  schedulerCompletionPressure : Fl R
  schedulerRetransmissionPressure : Fl R

namespace HybridCongestionController

def default : HybridCongestionController R where
  bandwidthEstimate := 1000000.0
  minRtt := 20 * 1000000
  lastRtt := 20 * 1000000
  lossRate := 0
  rttGradient := 0
  rttVariance := 0
  rttVarianceTrend := 0
  inUseBandwidth := 0
  schedulerQueuePressure := 0
  schedulerCompletionPressure := 0
  schedulerRetransmissionPressure := 0

variable (cc : HybridCongestionController R)

/-- One smoothed pressure of `apply_scheduler_signal`. -/
def ewma (old new : Fl R) : Fl R := (1 - 0.35) * old + 0.35 * new.clamp 0 1

def applySchedulerSignal (signal : CongestionSignal R) : HybridCongestionController R :=
  { cc with
    schedulerQueuePressure := ewma cc.schedulerQueuePressure signal.queuePressure
    schedulerCompletionPressure := ewma cc.schedulerCompletionPressure signal.completionPressure
    schedulerRetransmissionPressure :=
      ewma cc.schedulerRetransmissionPressure signal.retransmissionPressure }

/-- The rate after the losses. -/
def rateAfterLoss : Fl R :=
  if 0.15 < cc.lossRate then cc.bandwidthEstimate * 0.65
  else if 0.08 < cc.lossRate then cc.bandwidthEstimate * 0.80
  else if 0.05 < cc.lossRate then cc.bandwidthEstimate * 0.90
  else cc.bandwidthEstimate

def coupling : Fl R :=
  1 - 0.18 * cc.schedulerQueuePressure.clamp 0 1
    - 0.12 * cc.schedulerCompletionPressure.clamp 0 1
    - 0.08 * cc.schedulerRetransmissionPressure.clamp 0 1

def targetSendRate : Fl R :=
  let rate := cc.rateAfterLoss
  let rate := if 0.15 < cc.rttGradient then rate * 0.8 else rate
  let rate := rate * max cc.coupling 0.55
  max rate 1000.0

def onNetworkSample (bandwidthBps : Fl R) (rtt prevRtt : Nat) (lossRate : Fl R) :
    HybridCongestionController R :=
  let minRtt := min cc.minRtt rtt
  let rttF : Fl R := Fl.asSecs rtt
  let prevF : Fl R := Fl.asSecs prevRtt
  let deviation := rttF - Fl.asSecs minRtt
  let rttVariance := 0.9 * cc.rttVariance + 0.1 * (deviation * deviation)
  let cc := { cc with
    bandwidthEstimate := max bandwidthBps 1
    minRtt := minRtt
    lastRtt := rtt
    lossRate := lossRate.clamp 0 1
    rttGradient := (rttF - prevF) / max prevF 0.000001
    rttVariance := rttVariance
    rttVarianceTrend := 0.85 * cc.rttVarianceTrend + (1 - 0.85) * rttVariance }
  { cc with inUseBandwidth := cc.targetSendRate }

def estimateUnusedBandwidth : Fl R := max (cc.bandwidthEstimate - cc.inUseBandwidth) 0

end HybridCongestionController

/-! ## Strategy and block sizes -/

structure ReceiverFeedback (R : FloatOps) where
  decodeDelay : Nat
  bufferOccupancy : Fl R
  cpuLoad : Fl R

structure HysteresisThreshold (R : FloatOps) where
  enterThreshold : Fl R
  exitThreshold : Fl R

def HysteresisThreshold.default : HysteresisThreshold R where
  enterThreshold := 0.8
  exitThreshold := 0.5

def HysteresisThreshold.stepAggressive (h : HysteresisThreshold R) (inside : Bool)
    (score : Fl R) : Bool :=
  if inside then decide (h.exitThreshold ≤ score) else decide (h.enterThreshold < score)

inductive TransferMode where
  | conservative
  | balanced
  | aggressive
  deriving DecidableEq

structure StrategyEngine (R : FloatOps) where
  mode : TransferMode
  aggressiveLatch : Bool
  aggressiveHysteresis : HysteresisThreshold R

/-- The arguments of `StrategyEngine::update`. -/
structure StrategySample (R : FloatOps) where
  rtt : Nat
  loss : Fl R
  bandwidthVariance : Fl R
  feedback : ReceiverFeedback R

namespace StrategySample

variable (u : StrategySample R)

/-- The first test of `update`. -/
def resets : Bool := decide (0.12 < u.loss ∨ 200 * 1000000 < u.feedback.decodeDelay)

def score : Fl R :=
  let rttMs := ((u.rtt / 1000000 : Nat) : Fl R)
  (1 - u.loss * 3.0).clamp 0 1 *
    (1 - min (rttMs / 85.0) 1) *
    (1 - u.bandwidthVariance.clamp 0 1 * 0.35) *
    (1 - u.feedback.bufferOccupancy.clamp 0 1 * 0.45) *
    (1 - u.feedback.cpuLoad.clamp 0 1 * 0.25)

end StrategySample

namespace StrategyEngine

def default : StrategyEngine R where
  mode := .balanced
  aggressiveLatch := false
  aggressiveHysteresis := .default

def update (e : StrategyEngine R) (u : StrategySample R) : StrategyEngine R :=
  if u.resets then { e with aggressiveLatch := false, mode := .conservative }
  else
    let latch := e.aggressiveHysteresis.stepAggressive e.aggressiveLatch u.score
    { e with
      aggressiveLatch := latch
      mode :=
        if latch then .aggressive
        else if 0.1 < u.loss ∨ 60 * 1000000 < u.feedback.decodeDelay then .conservative
        else .balanced }

end StrategyEngine

def computeChunkSize (rtt : Nat) (loss : Fl R) : Nat :=
  let rttMs := ((rtt / 1000000 : Nat) : Fl R)
  if 120.0 < rttMs ∨ 0.08 < loss then 64 * 1024
  else if 50.0 < rttMs ∨ 0.03 < loss then 256 * 1024
  else 1024 * 1024

/-- Data and parity shards. -/
def computeFecRatio (loss rttVariance : Fl R) : Nat × Nat :=
  if 0.12 < loss ∨ 0.08 < rttVariance then (4, 3)
  else if 0.05 < loss ∨ 0.04 < rttVariance then (6, 2)
  else if 0.02 < loss ∨ 0.02 < rttVariance then (8, 2)
  else (10, 1)

/-- `FileSender::plan_fec`. -/
def planFec (rtt : Nat) (lossHint : Fl R) : FecEncoder :=
  let dataShards := if computeChunkSize rtt lossHint ≤ 128 * 1024 then 2 else 4
  let pBase := (computeFecRatio lossHint 0).2
  { dataShards := dataShards
    parityShards :=
      if dataShards = 0 then 0 else max (max (min (pBase + 1) (dataShards / 2)) pBase) 1 }

/-! ## The rate in every run -/

inductive CcLabel (R : FloatOps) where
  | signal (signal : CongestionSignal R)
  | sample (bandwidthBps : Fl R) (rtt prevRtt : Nat) (lossRate : Fl R)

/-- The controller and the round trips it was told. -/
structure CcRun (R : FloatOps) where
  cc : HybridCongestionController R
  rtts : List Nat

def ccSystem (R : FloatOps) : Lts (CcRun R) (CcLabel R) where
  step s l := some <| match l with
    | .signal signal => { s with cc := s.cc.applySchedulerSignal signal }
    | .sample bandwidthBps rtt prevRtt lossRate =>
      { cc := s.cc.onNetworkSample bandwidthBps rtt prevRtt lossRate, rtts := rtt :: s.rtts }

namespace HybridCongestionController

/-- What a controller keeps; `rtts` is what it was told. -/
structure Sound (cc : HybridCongestionController R) (rtts : List Nat) : Prop where
  minRtt : IsLeast { r | r = 20 * 1000000 ∨ r ∈ rtts } cc.minRtt
  lastRtt : cc.lastRtt = (rtts.head?).getD (20 * 1000000)
  bandwidth : 1 ≤ cc.bandwidthEstimate
  loss : 0 ≤ cc.lossRate ∧ cc.lossRate ≤ 1
  queue : 0 ≤ cc.schedulerQueuePressure ∧ cc.schedulerQueuePressure ≤ 1
  completion : 0 ≤ cc.schedulerCompletionPressure ∧ cc.schedulerCompletionPressure ≤ 1
  retransmission :
    0 ≤ cc.schedulerRetransmissionPressure ∧ cc.schedulerRetransmissionPressure ≤ 1
  variance : 0 ≤ cc.rttVariance
  trend : 0 ≤ cc.rttVarianceTrend

variable {cc : HybridCongestionController R} {rtts : List Nat}

theorem ewma_range {old : Fl R} (new : Fl R) (h : 0 ≤ old ∧ old ≤ 1) :
    0 ≤ ewma old new ∧ ewma old new ≤ 1 := by
  have h35 : (0 : Fl R) ≤ 0.35 := (Fl.pos_literal (by norm_num)).le
  have h35' : (0.35 : Fl R) ≤ 1 := Fl.literal_le_one (by norm_num)
  exact ⟨Fl.nonneg_mix h35 h35' h.1 new.le_clamp,
    Fl.mix_le_one h35 h35' h.2 (new.clamp_le zero_le_one)⟩

theorem Sound.default : (default : HybridCongestionController R).Sound [] where
  minRtt := by
    refine ⟨Or.inl rfl, fun r hr => ?_⟩
    rcases hr with rfl | hr
    · exact le_rfl
    · cases hr
  lastRtt := rfl
  bandwidth := by
    rw [← Fl.ofRat_one]
    exact Fl.ofRat_le (by norm_num)
  loss := ⟨le_rfl, zero_le_one⟩
  queue := ⟨le_rfl, zero_le_one⟩
  completion := ⟨le_rfl, zero_le_one⟩
  retransmission := ⟨le_rfl, zero_le_one⟩
  variance := le_rfl
  trend := le_rfl

theorem Sound.applySchedulerSignal (h : cc.Sound rtts) (signal : CongestionSignal R) :
    (cc.applySchedulerSignal signal).Sound rtts :=
  { h with
    queue := ewma_range signal.queuePressure h.queue
    completion := ewma_range signal.completionPressure h.completion
    retransmission := ewma_range signal.retransmissionPressure h.retransmission }

theorem Sound.onNetworkSample (h : cc.Sound rtts) (bandwidthBps : Fl R) (rtt prevRtt : Nat)
    (lossRate : Fl R) :
    (cc.onNetworkSample bandwidthBps rtt prevRtt lossRate).Sound (rtt :: rtts) := by
  have hnine : (0 : Fl R) ≤ 0.9 := (Fl.pos_literal (by norm_num)).le
  have htenth : (0 : Fl R) ≤ 0.1 := (Fl.pos_literal (by norm_num)).le
  have h85 : (0 : Fl R) ≤ 0.85 := (Fl.pos_literal (by norm_num)).le
  have h85' : (0.85 : Fl R) ≤ 1 := Fl.literal_le_one (by norm_num)
  have hvariance : 0 ≤ (cc.onNetworkSample bandwidthBps rtt prevRtt lossRate).rttVariance :=
    Fl.nonneg_add (Fl.nonneg_mul hnine h.variance) (Fl.nonneg_mul htenth (Fl.nonneg_square _))
  refine ⟨⟨?_, fun r hr => ?_⟩, rfl, le_max_right _ _, ⟨lossRate.le_clamp,
    lossRate.clamp_le zero_le_one⟩, h.queue, h.completion, h.retransmission, hvariance, ?_⟩
  · show min cc.minRtt rtt = 20 * 1000000 ∨ min cc.minRtt rtt ∈ rtt :: rtts
    rcases min_choice cc.minRtt rtt with hmin | hmin <;> rw [hmin]
    · exact h.minRtt.1.imp id (List.mem_cons_of_mem rtt)
    · exact Or.inr List.mem_cons_self
  · show min cc.minRtt rtt ≤ r
    rcases hr with hr | hr
    · exact (min_le_left _ _).trans (h.minRtt.2 (Or.inl hr))
    · rcases List.mem_cons.mp hr with rfl | hr
      · exact min_le_right _ _
      · exact (min_le_left _ _).trans (h.minRtt.2 (Or.inr hr))
  · exact Fl.nonneg_add (Fl.nonneg_mul h85 h.trend)
      (Fl.nonneg_mul (Fl.nonneg_sub h85') hvariance)

end HybridCongestionController

def CcRun.Sound (s : CcRun R) : Prop := s.cc.Sound s.rtts

theorem CcRun.Sound.step {s s' : CcRun R} {l : CcLabel R} (h : s.Sound)
    (hstep : (ccSystem R).step s l = some s') : s'.Sound := by
  obtain rfl := Option.some.inj hstep
  cases l with
  | signal signal => exact HybridCongestionController.Sound.applySchedulerSignal h signal
  | sample bandwidthBps rtt prevRtt lossRate =>
    exact HybridCongestionController.Sound.onNetworkSample h bandwidthBps rtt prevRtt lossRate

theorem CcRun.Sound.of_reach {s : CcRun R} {ok : CcRun R → CcLabel R → Prop}
    (h : (ccSystem R).Reach ok ⟨.default, []⟩ s) : s.Sound :=
  h.invariant HybridCongestionController.Sound.default fun hs _ hstep => hs.step hstep

namespace HybridCongestionController

variable {cc : HybridCongestionController R}

/-- The pressures never raise the rate. -/
theorem coupling_le_one (cc : HybridCongestionController R) : cc.coupling ≤ 1 := by
  have hpart : ∀ (a b : Fl R) (c : Fl R), 0 ≤ c → a ≤ 1 → a - c * b.clamp 0 1 ≤ 1 :=
    fun a b c hc ha => (Fl.sub_le_self (Fl.nonneg_mul hc b.le_clamp)).trans ha
  have h18 : (0 : Fl R) ≤ 0.18 := (Fl.pos_literal (by norm_num)).le
  have h12 : (0 : Fl R) ≤ 0.12 := (Fl.pos_literal (by norm_num)).le
  have h08 : (0 : Fl R) ≤ 0.08 := (Fl.pos_literal (by norm_num)).le
  exact hpart _ _ _ h08 (hpart _ _ _ h12 (hpart _ _ _ h18 le_rfl))

/-- The losses take between nothing and 35 % of the rate. -/
theorem rateAfterLoss_range (hbw : 0 ≤ cc.bandwidthEstimate) :
    cc.bandwidthEstimate * 0.65 ≤ cc.rateAfterLoss ∧
      cc.rateAfterLoss ≤ cc.bandwidthEstimate := by
  have h65 : (0.65 : Fl R) ≤ 1 := Fl.literal_le_one (by norm_num)
  have h80 : (0.65 : Fl R) ≤ 0.80 := Fl.literal_le (by norm_num)
  have h80' : (0.80 : Fl R) ≤ 1 := Fl.literal_le_one (by norm_num)
  have h90 : (0.65 : Fl R) ≤ 0.90 := Fl.literal_le (by norm_num)
  have h90' : (0.90 : Fl R) ≤ 1 := Fl.literal_le_one (by norm_num)
  unfold rateAfterLoss
  split
  · exact ⟨le_rfl, Fl.mul_le_of_le_one hbw h65⟩
  · split
    · exact ⟨Fl.mul_mono_left hbw h80, Fl.mul_le_of_le_one hbw h80'⟩
    · split
      · exact ⟨Fl.mul_mono_left hbw h90, Fl.mul_le_of_le_one hbw h90'⟩
      · exact ⟨Fl.mul_le_of_le_one hbw h65, le_rfl⟩

theorem targetSendRate_range (hbw : 0 ≤ cc.bandwidthEstimate) :
    cc.bandwidthEstimate * 0.65 * 0.8 * 0.55 ≤ cc.targetSendRate ∧
      cc.targetSendRate ≤ max cc.bandwidthEstimate 1000.0 := by
  have h65 : (0 : Fl R) ≤ 0.65 := (Fl.pos_literal (by norm_num)).le
  have h80 : (0.8 : Fl R) ≤ 1 := Fl.literal_le_one (by norm_num)
  have h80' : (0 : Fl R) ≤ 0.8 := (Fl.pos_literal (by norm_num)).le
  have h55 : (0.55 : Fl R) ≤ 1 := Fl.literal_le_one (by norm_num)
  have h55' : (0 : Fl R) ≤ 0.55 := (Fl.pos_literal (by norm_num)).le
  obtain ⟨hlow, hhigh⟩ := rateAfterLoss_range hbw
  have hnonneg : 0 ≤ cc.rateAfterLoss := (Fl.nonneg_mul hbw h65).trans hlow
  -- a rising round trip takes another fifth
  obtain ⟨rate, hrate⟩ : ∃ rate, rate =
      if 0.15 < cc.rttGradient then cc.rateAfterLoss * 0.8 else cc.rateAfterLoss := ⟨_, rfl⟩
  have hrange : cc.bandwidthEstimate * 0.65 * 0.8 ≤ rate ∧ rate ≤ cc.bandwidthEstimate := by
    rw [hrate]
    split
    · exact ⟨Fl.mul_mono_right h80' hlow, (Fl.mul_le_of_le_one hnonneg h80).trans hhigh⟩
    · exact ⟨(Fl.mul_mono_right h80' hlow).trans (Fl.mul_le_of_le_one hnonneg h80), hhigh⟩
  have hrate0 : 0 ≤ rate := (Fl.nonneg_mul (Fl.nonneg_mul hbw h65) h80').trans hrange.1
  have htarget : cc.targetSendRate = max (rate * max cc.coupling 0.55) 1000.0 := by
    rw [hrate]
    rfl
  rw [htarget]
  constructor
  · exact ((Fl.mul_mono_right h55' hrange.1).trans
      (Fl.mul_mono_left hrate0 (le_max_right _ _))).trans (le_max_left _ _)
  · refine max_le_max ?_ le_rfl
    exact (Fl.mul_le_of_le_one hrate0 (max_le cc.coupling_le_one h55)).trans hrange.2

end HybridCongestionController

/--
**The send rate in every run.** Whatever the network and the scheduler report, the rate stays
between the product of the three largest reductions and the bandwidth estimate, and it is never
below 1000 bit/s. `min_rtt` is the least of the samples and of the 20 ms it starts with, so on a
longer path it is no measurement at all.
-/
theorem cc_rate_of_reach {s : CcRun R}
    (hrun : (ccSystem R).Reach (fun _ _ => True) ⟨.default, []⟩ s) :
    s.cc.bandwidthEstimate * 0.65 * 0.8 * 0.55 ≤ s.cc.targetSendRate ∧
      1000.0 ≤ s.cc.targetSendRate ∧
      s.cc.targetSendRate ≤ max s.cc.bandwidthEstimate 1000.0 ∧
      IsLeast { r | r = 20 * 1000000 ∨ r ∈ s.rtts } s.cc.minRtt := by
  have hsound := CcRun.Sound.of_reach hrun
  have hbw : 0 ≤ s.cc.bandwidthEstimate := zero_le_one.trans hsound.bandwidth
  obtain ⟨hlow, hhigh⟩ := HybridCongestionController.targetSendRate_range hbw
  exact ⟨hlow, le_max_right _ _, hhigh, hsound.minRtt⟩

/-- A round trip of 35 ms and a report of full queues. -/
def sampleReports : List (CcLabel binary64) :=
  [.sample 8000000.0 35000000 35000000 0.02, .signal ⟨0.9, 0.1, 0.2⟩]

theorem sample_cc_rate :
    ∃ s, (ccSystem binary64).exec ⟨.default, []⟩ sampleReports = some s ∧
      1000.0 ≤ s.cc.targetSendRate ∧
      IsLeast { r | r = 20 * 1000000 ∨ r ∈ [35000000] } s.cc.minRtt := by
  obtain ⟨-, hrate, -, hmin⟩ := cc_rate_of_reach (Lts.Reach.of_exec
    (rfl : (ccSystem binary64).exec ⟨.default, []⟩ sampleReports = some _))
  exact ⟨_, rfl, hrate, hmin⟩

/-! ## The mode after a history -/

namespace StrategyEngine

/-- The engine after the updates, the first one first. -/
def run (e : StrategyEngine R) (us : List (StrategySample R)) : StrategyEngine R :=
  us.foldl update e

theorem run_concat (e : StrategyEngine R) (us : List (StrategySample R)) (u : StrategySample R) :
    e.run (us ++ [u]) = (e.run us).update u := by
  simp [run]

@[simp] theorem update_hysteresis (e : StrategyEngine R) (u : StrategySample R) :
    (e.update u).aggressiveHysteresis = e.aggressiveHysteresis := by
  unfold update
  split <;> rfl

theorem run_hysteresis (e : StrategyEngine R) (us : List (StrategySample R)) :
    (e.run us).aggressiveHysteresis = e.aggressiveHysteresis := by
  induction us generalizing e with
  | nil => rfl
  | cons u us ih => exact (ih (e.update u)).trans (update_hysteresis e u)

/-- The latch after one more update. -/
theorem latch_update {e : StrategyEngine R} (he : e.aggressiveHysteresis = .default)
    (u : StrategySample R) :
    (e.update u).aggressiveLatch = true ↔ u.resets = false ∧
      (e.aggressiveLatch = true ∧ 0.5 ≤ u.score ∨ 0.8 < u.score ∧ ¬ e.aggressiveLatch = true) := by
  unfold update
  cases hu : u.resets with
  | true => simp
  | false =>
    simp only [Bool.false_eq_true, if_false, he, HysteresisThreshold.stepAggressive,
      HysteresisThreshold.default]
    cases e.aggressiveLatch <;> simp

/-- The mode is aggressive exactly while the latch is set. -/
theorem mode_update (e : StrategyEngine R) (u : StrategySample R) :
    (e.update u).mode = .aggressive ↔ (e.update u).aggressiveLatch = true := by
  unfold update
  split
  · simp
  · dsimp only
    split
    · simp_all
    · split <;> simp_all

theorem mode_run (us : List (StrategySample R)) :
    ((default : StrategyEngine R).run us).mode = .aggressive ↔
      ((default : StrategyEngine R).run us).aggressiveLatch = true := by
  induction us using List.reverseRecOn with
  | nil => exact ⟨nofun, nofun⟩
  | append_singleton us u _ =>
    rw [run_concat]
    exact mode_update _ u

end StrategyEngine

/-- The updates since some one that scored above 0.8, none of them below 0.5 or a reset. -/
def AggressiveSince (us : List (StrategySample R)) : Prop :=
  ∃ pre u post, us = pre ++ u :: post ∧ 0.8 < u.score ∧
    ∀ v ∈ u :: post, v.resets = false ∧ 0.5 ≤ v.score

theorem aggressiveSince_concat {us : List (StrategySample R)} {v : StrategySample R} :
    AggressiveSince (us ++ [v]) ↔
      v.resets = false ∧ (AggressiveSince us ∧ 0.5 ≤ v.score ∨ 0.8 < v.score) := by
  have hhalf : (0.5 : Fl R) ≤ 0.8 := Fl.literal_le (by norm_num)
  constructor
  · rintro ⟨pre, u, post, hsplit, hscore, hlater⟩
    rcases List.eq_nil_or_concat post with rfl | ⟨post, w, rfl⟩
    · -- the last update is the one that set the latch
      obtain ⟨-, rfl⟩ : us = pre ∧ v = u := by
        simpa [List.append_eq_append_iff] using List.append_inj' hsplit rfl
      exact ⟨(hlater v List.mem_cons_self).1, Or.inr hscore⟩
    · have hsplit : us ++ [v] = (pre ++ u :: post) ++ [w] := by
        rw [hsplit]
        simp
      obtain ⟨rfl, hw⟩ := List.append_inj' hsplit rfl
      obtain rfl : v = w := by simpa using hw
      have hv := hlater v (by simp)
      refine ⟨hv.1, Or.inl ⟨⟨pre, u, post, rfl, hscore, fun x hx => hlater x ?_⟩, hv.2⟩⟩
      rcases List.mem_cons.mp hx with rfl | hx
      · exact List.mem_cons_self
      · exact List.mem_cons_of_mem u (by simp [hx])
  · rintro ⟨hreset, ⟨⟨pre, u, post, rfl, hscore, hlater⟩, hv⟩ | hscore⟩
    · refine ⟨pre, u, post ++ [v], by simp, hscore, fun x hx => ?_⟩
      rcases List.mem_cons.mp hx with rfl | hx
      · exact hlater x List.mem_cons_self
      · rcases List.mem_append.mp hx with hx | hx
        · exact hlater x (List.mem_cons_of_mem u hx)
        · rw [List.mem_singleton.mp hx]
          exact ⟨hreset, hv⟩
    · refine ⟨us, v, [], rfl, hscore, fun x hx => ?_⟩
      rw [List.mem_singleton.mp hx]
      exact ⟨hreset, hhalf.trans hscore.le⟩

theorem StrategyEngine.mode_eq_aggressive_iff (us : List (StrategySample R)) :
    ((default : StrategyEngine R).run us).mode = .aggressive ↔ AggressiveSince us := by
  rw [StrategyEngine.mode_run]
  induction us using List.reverseRecOn with
  | nil =>
    refine ⟨nofun, ?_⟩
    rintro ⟨pre, u, post, hsplit, -⟩
    simp at hsplit
  | append_singleton us v ih =>
    rw [StrategyEngine.run_concat,
      StrategyEngine.latch_update (StrategyEngine.run_hysteresis _ us), ih,
      aggressiveSince_concat]
    have hhalf : (0.8 : Fl R) < v.score → 0.5 ≤ v.score :=
      fun h => (Fl.literal_le (by norm_num) : (0.5 : Fl R) ≤ 0.8).trans h.le
    tauto

/--
**When the mode is aggressive.** After any history of updates the mode is aggressive exactly if
some update scored above 0.8 and since then, that one included, none scored below 0.5 and none
reported more than 12 % loss or 200 ms of decoding.
-/
theorem aggressive_iff (us : List (StrategySample R)) :
    ((StrategyEngine.default : StrategyEngine R).run us).mode = .aggressive ↔
      ∃ pre u post, us = pre ++ u :: post ∧ 0.8 < u.score ∧
        ∀ v ∈ u :: post, v.resets = false ∧ 0.5 ≤ v.score :=
  StrategyEngine.mode_eq_aggressive_iff us

/-! ### Long round trips -/

/-- Every factor of the score is at most one. -/
theorem StrategySample.score_le (u : StrategySample R) :
    u.score ≤ 1 - min (((u.rtt / 1000000 : Nat) : Fl R) / 85.0) 1 := by
  have hfactor : ∀ (x c : Fl R), 0 ≤ c → c ≤ 1 → 0 ≤ 1 - x.clamp 0 1 * c ∧
      1 - x.clamp 0 1 * c ≤ 1 := fun x c hc hc' => by
    have hx : x.clamp 0 1 * c ≤ 1 :=
      (Fl.mul_le_of_le_one x.le_clamp hc').trans (x.clamp_le zero_le_one)
    exact ⟨Fl.nonneg_sub hx, Fl.sub_le_self (Fl.nonneg_mul x.le_clamp hc)⟩
  have hvariance := hfactor u.bandwidthVariance 0.35 (Fl.pos_literal (by norm_num)).le
    (Fl.literal_le_one (by norm_num))
  have hbuffer := hfactor u.feedback.bufferOccupancy 0.45 (Fl.pos_literal (by norm_num)).le
    (Fl.literal_le_one (by norm_num))
  have hcpu := hfactor u.feedback.cpuLoad 0.25 (Fl.pos_literal (by norm_num)).le
    (Fl.literal_le_one (by norm_num))
  have hrtt : 0 ≤ 1 - min (((u.rtt / 1000000 : Nat) : Fl R) / 85.0) 1 :=
    Fl.nonneg_sub (min_le_right _ _)
  have hloss := (1 - u.loss * 3.0).clamp_le (zero_le_one : (0 : Fl R) ≤ 1)
  have hfirst : 0 ≤ (1 - u.loss * 3.0).clamp 0 1 *
      (1 - min (((u.rtt / 1000000 : Nat) : Fl R) / 85.0) 1) :=
    Fl.nonneg_mul (Fl.le_clamp _) hrtt
  unfold score
  refine (Fl.mul_le_of_le_one (Fl.nonneg_mul (Fl.nonneg_mul hfirst hvariance.1) hbuffer.1)
    hcpu.2).trans ?_
  refine (Fl.mul_le_of_le_one (Fl.nonneg_mul hfirst hvariance.1) hbuffer.2).trans ?_
  refine (Fl.mul_le_of_le_one hfirst hvariance.2).trans ?_
  simpa using Fl.mul_mono_right hrtt hloss

/-- From 18 ms on the score is at most 101/128, which is below 0.8. -/
theorem StrategySample.score_le_of_rtt {u : StrategySample R} (h : 18 ≤ u.rtt / 1000000) :
    u.score ≤ 0.8 := by
  have hval : (Fl.ofRat (27 / 128) : Fl R).val = 27 / 128 :=
    Fl.val_ofRat (m := 27) (k := -7) (by norm_num) (by norm_num)
  have h85 : (85.0 : Fl R).val = (85 : ℕ) := Fl.val_literal (by norm_num) (by norm_num)
  have hms : (18 : ℚ) ≤ ((u.rtt / 1000000 : Nat) : Fl R).val := by
    have h18 : ((18 : Nat) : Fl R).val = 18 := Fl.val_natCast (by norm_num)
    rw [← h18]
    exact Fl.natCast_mono h
  have hshare : (Fl.ofRat (27 / 128) : Fl R) ≤ min (((u.rtt / 1000000 : Nat) : Fl R) / 85.0) 1 := by
    refine le_min (Fl.ofRat_le ?_) ?_
    · rw [h85]
      push_cast
      linarith
    · rw [← Fl.ofRat_one]
      exact Fl.ofRat_le (by norm_num)
  refine u.score_le.trans ((Fl.sub_mono le_rfl hshare).trans (Fl.ofRat_le ?_))
  rw [hval, Fl.val_one]
  norm_num

/-- **On a path of 18 ms or more the mode is never aggressive**, whatever else is measured. -/
theorem not_aggressive_of_rtt (us : List (StrategySample R))
    (h : ∀ u ∈ us, 18 ≤ u.rtt / 1000000) :
    ((StrategyEngine.default : StrategyEngine R).run us).mode ≠ .aggressive := by
  rw [Ne, StrategyEngine.mode_eq_aggressive_iff]
  rintro ⟨pre, u, post, rfl, hscore, -⟩
  exact (StrategySample.score_le_of_rtt (h u (by simp))).not_gt hscore

theorem sample_not_aggressive :
    ((StrategyEngine.default : StrategyEngine binary64).run
      [⟨25000000, 0, 0.2, ⟨8000000, 0, 0.45⟩⟩]).mode ≠ .aggressive :=
  not_aggressive_of_rtt _ (by decide)

/-! ## Block sizes -/

theorem computeFecRatio_parity (loss rttVariance : Fl R) :
    1 ≤ (computeFecRatio loss rttVariance).2 ∧ (computeFecRatio loss rttVariance).2 ≤ 3 := by
  unfold computeFecRatio
  split
  · decide
  · split
    · decide
    · split <;> decide

/-- Without a variance only losses above 12 % call for a third parity shard. -/
theorem computeFecRatio_parity_le_two {loss : Fl R} (h : ¬ 0.12 < loss) :
    (computeFecRatio loss 0).2 ≤ 2 := by
  have h8 : ¬ (0.08 : Fl R) < 0 := (Fl.pos_literal (by norm_num)).not_gt
  unfold computeFecRatio
  rw [if_neg (not_or.mpr ⟨h, h8⟩)]
  split
  · decide
  · split <;> decide

theorem computeChunkSize_le_iff (rtt : Nat) (loss : Fl R) :
    computeChunkSize rtt loss ≤ 128 * 1024 ↔
      120.0 < ((rtt / 1000000 : Nat) : Fl R) ∨ 0.08 < loss := by
  unfold computeChunkSize
  dsimp only
  split
  · next h => exact ⟨fun _ => h, fun _ => by decide⟩
  · next h =>
    refine ⟨fun hle => ?_, fun h' => absurd h' h⟩
    split at hle <;> exact absurd hle (by decide)

/-- **The four block sizes a sender announces**, whatever the round trip and the losses. -/
theorem planFec_cases (rtt : Nat) (lossHint : Fl R) :
    planFec rtt lossHint ∈ ([⟨4, 2⟩, ⟨2, 1⟩, ⟨2, 2⟩, ⟨2, 3⟩] : List FecEncoder) := by
  have hle : (0.08 : Fl R) ≤ 0.12 := Fl.literal_le (by norm_num)
  obtain ⟨hlow, hhigh⟩ := computeFecRatio_parity lossHint 0
  unfold planFec
  dsimp only
  by_cases hshort : computeChunkSize rtt lossHint ≤ 128 * 1024
  · rw [if_pos hshort]
    generalize (computeFecRatio lossHint 0).2 = p at hlow hhigh ⊢
    interval_cases p <;> decide
  · -- long chunks: the losses are below 8 %
    have hloss : ¬ (0.12 : Fl R) < lossHint := fun h =>
      hshort ((computeChunkSize_le_iff rtt lossHint).mpr (Or.inr (hle.trans_lt h)))
    have htwo := computeFecRatio_parity_le_two hloss
    rw [if_neg hshort]
    generalize (computeFecRatio lossHint 0).2 = p at hlow htwo ⊢
    interval_cases p <;> decide

end ScTransport
