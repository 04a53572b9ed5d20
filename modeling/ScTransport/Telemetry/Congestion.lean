import ScTransport.Infra.Lts
import Mathlib.Data.Rat.Floor

/-!
# The congestion controller of the telemetry transport

`ScientificCongestionController` follows the smallest round trip and is meant to measure it anew,
in the state `probeRtt`, when it has not been confirmed for `minRttFilterWindow`. Floats are any
type with the operations the code uses; nothing here depends on how they round.

* `ScientificCongestionController.onAck`, `onCongestionEvent`, `onMtuUpdate` — the source
* `onAck_probeRtt_iff` — when an acknowledgement in `probeBw` leads to `probeRtt`
* `stamp_of_reach` — without losses the stamp is the time of the last refresh
* `probeRtt_entered_iff` — for all runs
-/

namespace ScTransport

open Infra

/-! ## Time and floats -/

/-- `Instant`, in nanoseconds, as durations are. -/
abbrev Instant := Int

/-- `later.duration_since(earlier)`, which is zero if `earlier` is not earlier. -/
def Instant.since (later earlier : Instant) : Nat := (later - earlier).toNat

/-- The operations on `f64`. -/
class F64Arith (F : Type) extends Mul F, Div F, Max F, NatCast F, OfScientific F where
  le : F → F → Bool
  /-- `as u64` -/
  toU64 : F → Nat
  /-- `Duration::as_secs_f64` -/
  asSecs : Nat → F

/-! ## The controller -/

structure SciBbrConfig (F : Type) where
  startupCwndGain : F
  drainCwndGain : F
  probeBwCwndGain : F
  probeRttDuration : Nat
  minRttFilterWindow : Nat
  initialCwndBytes : Nat
  maxSegmentSize : Nat

def SciBbrConfig.default {F : Type} [F64Arith F] : SciBbrConfig F where
  startupCwndGain := 2.885
  drainCwndGain := 0.35
  probeBwCwndGain := 2.0
  probeRttDuration := 200 * 1000000
  minRttFilterWindow := 10 * 1000000000
  initialCwndBytes := 10 * 1452
  maxSegmentSize := 1452

inductive BbrState (F : Type) where
  | startup
  | drain
  | probeBw (pacingGain : F)
  | probeRtt (enteredAt : Instant)
  deriving DecidableEq

def BbrState.isProbeRtt {F : Type} : BbrState F → Bool
  | .probeRtt _ => true
  | _ => false

structure ScientificCongestionController (F : Type) where
  bwSamples : List (Instant × F)
  bwWindowDuration : Nat
  maxBandwidthBps : F
  minRtt : Nat
  minRttStamp : Instant
  state : BbrState F
  cyclesInProbeBw : Nat
  cwnd : Nat
  pacingRateBps : F
  startupNoGrowthRounds : Nat
  config : SciBbrConfig F

namespace ScientificCongestionController

variable {F : Type} [F64Arith F]

def new (config : SciBbrConfig F) (now : Instant) (currentMtu : Nat) :
    ScientificCongestionController F :=
  let cwnd := max config.initialCwndBytes (currentMtu * 2)
  let minRtt := 100 * 1000000
  { bwSamples := []
    bwWindowDuration := 3 * 1000000000
    maxBandwidthBps := 0.0
    minRtt := minRtt
    minRttStamp := now
    state := .startup
    cyclesInProbeBw := 0
    cwnd := cwnd
    pacingRateBps := (cwnd : F) / max (F64Arith.asSecs minRtt) 0.001 * 8.0
    startupNoGrowthRounds := 0
    config := config }

variable (c : ScientificCongestionController F)

/-- The samples without the old ones at the front. -/
def dropExpired (now : Instant) (window : Nat) : List (Instant × F) → List (Instant × F)
  | [] => []
  | (ts, rate) :: rest =>
    if window < now.since ts then dropExpired now window rest else (ts, rate) :: rest

/-- `delivery_rate`. -/
def deliveryRate (bytesAcked rtt : Nat) : F :=
  (bytesAcked : F) / max (F64Arith.asSecs rtt) 0.000001 * 8.0

def updateBandwidthModel (bytesAcked : Nat) (rtt : Nat) (now : Instant) :
    ScientificCongestionController F :=
  let samples :=
    dropExpired now c.bwWindowDuration (c.bwSamples ++ [(now, deliveryRate bytesAcked rtt)])
  { c with
    bwSamples := samples
    maxBandwidthBps := (samples.map Prod.snd).foldl max 0.0 }

def updateRttModel (rtt : Nat) (now : Instant) : ScientificCongestionController F :=
  if c.config.minRttFilterWindow < now.since c.minRttStamp then
    { c with minRtt := rtt, minRttStamp := now }
  else if rtt < c.minRtt then { c with minRtt := rtt, minRttStamp := now }
  else c

def bdp : Nat :=
  max (F64Arith.toU64 (c.maxBandwidthBps / 8.0 * F64Arith.asSecs c.minRtt))
    c.config.initialCwndBytes

def transitionState (now : Instant) (previousBw : F) : ScientificCongestionController F :=
  match c.state with
  | .startup =>
    let rounds :=
      if F64Arith.le c.maxBandwidthBps (previousBw * 1.25) then
        min (c.startupNoGrowthRounds + 1) 255
      else 0
    { c with
      startupNoGrowthRounds := rounds
      state := if 3 ≤ rounds then .drain else .startup }
  | .drain => if c.cwnd ≤ c.bdp then { c with state := .probeBw 1.0 } else c
  | .probeBw _ =>
    if c.config.minRttFilterWindow ≤ now.since c.minRttStamp then { c with state := .probeRtt now }
    else c
  | .probeRtt enteredAt =>
    if c.config.probeRttDuration ≤ now.since enteredAt then { c with state := .probeBw 1.0 } else c

/-- `GAINS[i]`. -/
def gains : Nat → F
  | 0 => 1.25
  | 1 => 0.75
  | _ => 1.0

/-- The window of the state, and the next gain of `probeBw`. -/
def updateCwnd : ScientificCongestionController F :=
  let bdp := c.bdp
  match c.state with
  | .startup => { c with cwnd := F64Arith.toU64 ((bdp : F) * c.config.startupCwndGain) }
  | .drain => { c with cwnd := F64Arith.toU64 ((bdp : F) * c.config.drainCwndGain) }
  | .probeBw _ =>
    let gain := gains (c.cyclesInProbeBw % 8)
    { c with
      state := .probeBw gain
      cyclesInProbeBw := (c.cyclesInProbeBw + 1) % 256
      cwnd := F64Arith.toU64 ((bdp : F) * c.config.probeBwCwndGain * gain) }
  | .probeRtt _ => { c with cwnd := min bdp c.config.initialCwndBytes }

def onAck (now : Instant) (bytes : Nat) (rtt : Nat) : ScientificCongestionController F :=
  let previousBw := c.maxBandwidthBps
  let c := c.updateBandwidthModel bytes rtt now
  let c := c.updateRttModel rtt now
  let c := c.transitionState now previousBw
  let c := c.updateCwnd
  let cwnd := max c.cwnd (2 * c.config.maxSegmentSize)
  { c with
    cwnd := cwnd
    pacingRateBps := (cwnd : F) / max (F64Arith.asSecs c.minRtt) 0.000001 * 8.0 }

/-- `clock` is what `Instant::now()` says, which is not the time the event is reported for. -/
def onCongestionEvent (clock : Instant) : ScientificCongestionController F :=
  { c with minRttStamp := clock - c.config.minRttFilterWindow }

def onMtuUpdate (newMtu : Nat) : ScientificCongestionController F :=
  { c with cwnd := max c.cwnd (2 * newMtu) }

/-! ## One acknowledgement -/

variable {c} {gain : F} {now : Instant} {rtt : Nat}

/-- The sample lowers `minRtt` or takes its place. -/
def Refreshes (c : ScientificCongestionController F) (rtt : Nat) (now : Instant) : Prop :=
  c.config.minRttFilterWindow < now.since c.minRttStamp ∨ rtt < c.minRtt

instance : Decidable (c.Refreshes rtt now) := inferInstanceAs (Decidable (_ ∨ _))

omit [F64Arith F] in
theorem updateRttModel_of_refreshes (h : c.Refreshes rtt now) :
    c.updateRttModel rtt now = { c with minRtt := rtt, minRttStamp := now } := by
  unfold updateRttModel
  by_cases hwindow : c.config.minRttFilterWindow < now.since c.minRttStamp
  · rw [if_pos hwindow]
  · rw [if_neg hwindow, if_pos (h.resolve_left hwindow)]

omit [F64Arith F] in
theorem updateRttModel_of_not (h : ¬ c.Refreshes rtt now) : c.updateRttModel rtt now = c := by
  unfold Refreshes at h
  rw [not_or] at h
  rw [updateRttModel, if_neg h.1, if_neg h.2]

theorem isProbeRtt_updateCwnd : c.updateCwnd.state.isProbeRtt = c.state.isProbeRtt := by
  unfold updateCwnd
  cases c.state <;> simp [BbrState.isProbeRtt]

theorem isProbeRtt_transitionState {previousBw : F} (h : c.state = .probeBw gain) :
    (c.transitionState now previousBw).state.isProbeRtt = true ↔
      c.config.minRttFilterWindow ≤ now.since c.minRttStamp := by
  unfold transitionState
  simp only [h]
  split
  · next hle => exact ⟨fun _ => hle, fun _ => rfl⟩
  · next hle =>
    rw [h]
    exact ⟨nofun, fun hle' => absurd hle' hle⟩

/--
The sample is taken before the stamp is tested. If it refreshes the stamp, no time has passed
since; if not, at most the window has.
-/
theorem onAck_probeRtt_iff {bytes : Nat} (h : c.state = .probeBw gain) :
    (c.onAck now bytes rtt).state.isProbeRtt = true ↔
      c.config.minRttFilterWindow = 0 ∨
        now.since c.minRttStamp = c.config.minRttFilterWindow ∧ c.minRtt ≤ rtt := by
  have hstate : ((c.updateBandwidthModel bytes rtt now).updateRttModel rtt now).state =
      .probeBw gain := by
    by_cases hr : (c.updateBandwidthModel bytes rtt now).Refreshes rtt now
    · rw [updateRttModel_of_refreshes hr]
      exact h
    · rw [updateRttModel_of_not hr]
      exact h
  show (updateCwnd _).state.isProbeRtt = true ↔ _
  rw [isProbeRtt_updateCwnd, isProbeRtt_transitionState hstate]
  by_cases hr : c.Refreshes rtt now
  · have hzero : now.since now = 0 := by simp [Instant.since]
    have hr' : (c.updateBandwidthModel bytes rtt now).Refreshes rtt now := hr
    rw [updateRttModel_of_refreshes hr']
    show c.config.minRttFilterWindow ≤ now.since now ↔ _
    unfold Refreshes at hr
    omega
  · have hr' : ¬ (c.updateBandwidthModel bytes rtt now).Refreshes rtt now := hr
    rw [updateRttModel_of_not hr']
    show c.config.minRttFilterWindow ≤ now.since c.minRttStamp ↔ _
    unfold Refreshes at hr
    omega

/-- No acknowledgement changes the configuration, and the stamp moves to where it is refreshed. -/
theorem onAck_frame {bytes : Nat} :
    (c.onAck now bytes rtt).config = c.config ∧
      (c.onAck now bytes rtt).minRttStamp =
        if c.Refreshes rtt now then now else c.minRttStamp := by
  have hcwnd : ∀ c : ScientificCongestionController F,
      c.updateCwnd.config = c.config ∧ c.updateCwnd.minRttStamp = c.minRttStamp := by
    intro c
    unfold updateCwnd
    cases c.state <;> exact ⟨rfl, rfl⟩
  have htransition : ∀ (c : ScientificCongestionController F) (bw : F),
      (c.transitionState now bw).config = c.config ∧
        (c.transitionState now bw).minRttStamp = c.minRttStamp := by
    intro c bw
    unfold transitionState
    cases c.state with
    | startup => exact ⟨rfl, rfl⟩
    | drain => dsimp only; split <;> exact ⟨rfl, rfl⟩
    | probeBw gain => dsimp only; split <;> exact ⟨rfl, rfl⟩
    | probeRtt enteredAt => dsimp only; split <;> exact ⟨rfl, rfl⟩
  show (updateCwnd _).config = _ ∧ (updateCwnd _).minRttStamp = _
  rw [(hcwnd _).1, (hcwnd _).2, (htransition _ _).1, (htransition _ _).2]
  by_cases hr : c.Refreshes rtt now
  · have hr' : (c.updateBandwidthModel bytes rtt now).Refreshes rtt now := hr
    rw [updateRttModel_of_refreshes hr', if_pos hr]
    exact ⟨rfl, rfl⟩
  · have hr' : ¬ (c.updateBandwidthModel bytes rtt now).Refreshes rtt now := hr
    rw [updateRttModel_of_not hr', if_neg hr]
    exact ⟨rfl, rfl⟩

end ScientificCongestionController

/-! ## Runs -/

inductive BbrLabel where
  | ack (now : Instant) (bytes : Nat) (rtt : Nat)
  | congestionEvent (clock : Instant)
  | mtuUpdate (newMtu : Nat)

/-- The controller, the time of the last acknowledgement, when `minRtt` was last refreshed, and all
rates so far. -/
structure BbrRun (F : Type) where
  controller : ScientificCongestionController F
  lastAck : Option Instant
  refreshed : Instant
  rates : List (Instant × F)

namespace BbrRun

variable {F : Type} [F64Arith F]

def new (config : SciBbrConfig F) (now : Instant) (currentMtu : Nat) : BbrRun F :=
  ⟨.new config now currentMtu, none, now, []⟩

def step (r : BbrRun F) : BbrLabel → BbrRun F
  | .ack now bytes rtt =>
    { controller := r.controller.onAck now bytes rtt
      lastAck := some now
      refreshed := if r.controller.Refreshes rtt now then now else r.refreshed
      rates := r.rates ++ [(now, ScientificCongestionController.deliveryRate bytes rtt)] }
  | .congestionEvent clock => { r with controller := r.controller.onCongestionEvent clock }
  | .mtuUpdate newMtu => { r with controller := r.controller.onMtuUpdate newMtu }

/-- Acknowledgements come in the order of their times. -/
def Ordered (r : BbrRun F) : BbrLabel → Prop
  | .ack now _ _ => ∀ t ∈ r.lastAck, t ≤ now
  | _ => True

instance (r : BbrRun F) : DecidablePred r.Ordered
  | .ack now _ _ => inferInstanceAs (Decidable (∀ t ∈ r.lastAck, t ≤ now))
  | .congestionEvent _ => inferInstanceAs (Decidable True)
  | .mtuUpdate _ => inferInstanceAs (Decidable True)

end BbrRun

def BbrLabel.isLoss : BbrLabel → Bool
  | .congestionEvent _ => true
  | _ => false

def bbr (F : Type) [F64Arith F] : Lts (BbrRun F) BbrLabel where
  step r label := some (r.step label)

section Runs

variable {F : Type} [F64Arith F] {config : SciBbrConfig F} {start : Instant} {mtu : Nat}
  {r : BbrRun F}

/-- The configuration stays as it is. -/
theorem config_of_reach (h : (bbr F).Reach BbrRun.Ordered (.new config start mtu) r) :
    r.controller.config = config := by
  induction h with
  | refl => rfl
  | @step r₁ r₂ label _ _ hstep ih =>
    cases hstep
    cases label with
    | ack now bytes rtt => exact ScientificCongestionController.onAck_frame.1.trans ih
    | congestionEvent clock => exact ih
    | mtuUpdate newMtu => exact ih

/-- Without losses the stamp is the time of the last refresh. -/
theorem stamp_of_reach
    (h : (bbr F).Reach (fun r label => r.Ordered label ∧ label.isLoss = false)
      (.new config start mtu) r) :
    r.controller.minRttStamp = r.refreshed := by
  induction h with
  | refl => rfl
  | @step r₁ r₂ label _ hok hstep ih =>
    cases hstep
    cases label with
    | ack now bytes rtt =>
      rw [BbrRun.step, ScientificCongestionController.onAck_frame.2, ih]
    | congestionEvent clock => cases hok.2
    | mtuUpdate newMtu => exact ih

/--
**The controller seldom probes.** In any run, let an acknowledgement come in `probeBw`, more than
the window after the last refresh of `minRtt`. It leads to `probeRtt` exactly when the window is
empty, or the stamp, moved by a loss, is exactly the window old and the sample does not lower
`minRtt`. Without losses it never does unless the window is empty.
-/
theorem probeRtt_entered_iff (config : SciBbrConfig F) (start : Instant) (mtu : Nat)
    (r : BbrRun F) (hr : (bbr F).Reach BbrRun.Ordered (.new config start mtu) r) (gain : F)
    (hbw : r.controller.state = .probeBw gain) (now : Instant) (bytes : Nat) (rtt : Nat)
    (_hnow : r.Ordered (.ack now bytes rtt))
    (hlate : config.minRttFilterWindow < now.since r.refreshed) :
    ((r.step (.ack now bytes rtt)).controller.state.isProbeRtt = true ↔
      config.minRttFilterWindow = 0 ∨
        now.since r.controller.minRttStamp = config.minRttFilterWindow ∧
          r.controller.minRtt ≤ rtt) ∧
    ((bbr F).Reach (fun r label => r.Ordered label ∧ label.isLoss = false)
        (.new config start mtu) r →
      ((r.step (.ack now bytes rtt)).controller.state.isProbeRtt = true ↔
        config.minRttFilterWindow = 0)) := by
  have hiff : (r.step (.ack now bytes rtt)).controller.state.isProbeRtt = true ↔ _ :=
    ScientificCongestionController.onAck_probeRtt_iff hbw
  rw [config_of_reach hr] at hiff
  refine ⟨hiff, fun hloss => ?_⟩
  rw [hiff, stamp_of_reach hloss]
  omega

end Runs

/-! ### Exact arithmetic: a run without losses, and one with a loss -/

instance : F64Arith ℚ where
  le a b := a ≤ b
  toU64 a := ⌊a⌋.toNat
  asSecs d := d / 1000000000

/-- Five acknowledgements with the same rate, a millisecond apart. -/
def warmUp : List BbrLabel :=
  [.ack 1000000 1452 100000000, .ack 2000000 1452 100000000, .ack 3000000 1452 100000000,
    .ack 4000000 1452 100000000, .ack 5000000 1452 100000000]

/-- The controller with its default configuration. -/
def bbrSampleRun (labels : List BbrLabel) : BbrRun ℚ :=
  labels.foldl BbrRun.step (.new .default 0 1200)

theorem reach_warmUp :
    (bbr ℚ).Reach BbrRun.Ordered (.new .default 0 1200) (bbrSampleRun warmUp) := by
  have hrun : (bbr ℚ).execWhere (fun r label => decide (r.Ordered label)) (.new .default 0 1200)
      warmUp = some (bbrSampleRun warmUp) := rfl
  exact (Lts.Reach.of_execWhere hrun).mono of_decide_eq_true

/--
A loss is reported when the clock says 20 s, and an acknowledgement arrives at the same time: the
controller probes.
-/
theorem loss_probeRtt :
    ((bbrSampleRun warmUp).step (.congestionEvent 20000000000)).controller.state = .probeBw 1.25 ∧
    (((bbrSampleRun warmUp).step (.congestionEvent 20000000000)).step
      (.ack 20000000000 1452 100000000)).controller.state.isProbeRtt = true := by
  have hstate : ((bbrSampleRun warmUp).step (.congestionEvent 20000000000)).controller.state =
      .probeBw 1.25 := by decide +kernel
  have hreach : (bbr ℚ).Reach BbrRun.Ordered (.new .default 0 1200)
      ((bbrSampleRun warmUp).step (.congestionEvent 20000000000)) :=
    reach_warmUp.step (l := .congestionEvent 20000000000) trivial rfl
  refine ⟨hstate, (probeRtt_entered_iff _ _ _ _ hreach _ hstate _ _ _ ?_ ?_).1.mpr (Or.inr ?_)⟩
  · decide +kernel
  · decide +kernel
  · decide +kernel

/-- Without a loss, 10 s and a nanosecond after the controller was made, it does not. -/
theorem late_ack_stays_in_probeBw :
    (bbr ℚ).Reach BbrRun.Ordered (.new .default 0 1200) (bbrSampleRun warmUp) ∧
    (bbrSampleRun warmUp).controller.state = .probeBw 1.25 ∧
    (bbrSampleRun warmUp).Ordered (.ack 10000000001 1452 100000000) ∧
    (bbrSampleRun warmUp).controller.config.minRttFilterWindow <
      Instant.since 10000000001 (bbrSampleRun warmUp).refreshed ∧
    ((bbrSampleRun warmUp).step (.ack 10000000001 1452 100000000)).controller.state.isProbeRtt =
      false := by
  refine ⟨reach_warmUp, ?_⟩
  decide +kernel

end ScTransport
