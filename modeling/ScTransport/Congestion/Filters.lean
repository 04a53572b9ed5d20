import ScTransport.Telemetry.Congestion
import ScTransport.Protocol.Types
import ScTransport.Infra.Window

/-!
# The congestion controller of the file transport

`ScientificBbrController` of `sct-core` filters what it measures: the bandwidth is the largest
delivery rate of a window in time, and `minRtt` is the smallest round trip since its stamp. The
length of the window follows `minRtt`, which also rises, when it has not been confirmed for ten
seconds.

* `ScientificBbrController.onAcked` — the source; it panics if `min_rtt * 10` is no `Duration`
* `Filtered` — what the window holds, in terms of all calls so far
* `LeastRtt` — what `minRtt` is
* `bandwidth_filter_of_reach` — for all runs

The log of a run holds what every acknowledgement measured and the states before and after it.
-/

namespace ScTransport.SctCore

open Infra ScTransport

/-! ## Time and floats -/

/-- `checked_sub`. What the earliest instant is depends on the platform. -/
def checkedSub (earliest now : Instant) (d : Nat) : Option Instant :=
  if earliest ≤ now - d then some (now - d) else none

/-- The longest `Duration`, in nanoseconds. -/
def durationMax : Nat := 2 ^ 64 * 1000000000 - 1

/-- The operations on `f64` of this controller. -/
class F64Calc (F : Type) extends F64Arith F, Add F, Sub F where
  powi : F → Nat → F

/-! ## The controller -/

structure SciBbrConfig (F : Type) where
  startupGain : F
  drainGain : F
  cwndGain : F
  probeRttCwndGain : F
  initialCwndPackets : Nat
  targetCwndHeadroom : F

def SciBbrConfig.default {F : Type} [F64Arith F] : SciBbrConfig F where
  startupGain := 2.885
  drainGain := 0.35
  cwndGain := 2.0
  probeRttCwndGain := 0.5
  initialCwndPackets := 10
  targetCwndHeadroom := 1.0

inductive BbrState where
  | startup
  | drain
  | probeBw
  | probeRtt
  deriving DecidableEq

structure ScientificBbrController (F : Type) where
  maxBandwidthBps : F
  bandwidthSamples : List (Instant × F)
  minRtt : Nat
  rttVariance : F
  minRttStamp : Instant
  minRttFilterWindow : Nat
  state : BbrState
  pacingRateBps : F
  cwnd : Nat
  bdp : Nat
  config : SciBbrConfig F
  mtu : Nat
  startupRoundsWithoutGrowth : Nat
  probeBwCycleIdx : Nat
  lastAck : Option Instant
  roundStart : Instant
  ackEventsInRound : Nat
  appLimitedSamples : Nat

namespace ScientificBbrController

variable {F : Type} [F64Calc F]

def new (config : SciBbrConfig F) (now : Instant) (currentMtu : Nat) :
    ScientificBbrController F :=
  let initialCwnd := config.initialCwndPackets * currentMtu
  { maxBandwidthBps := 0.0
    bandwidthSamples := []
    minRtt := 100 * 1000000
    rttVariance := 0.0
    minRttStamp := now
    minRttFilterWindow := 10 * 1000000000
    state := .startup
    pacingRateBps := 0.0
    cwnd := initialCwnd
    bdp := initialCwnd
    config := config
    mtu := currentMtu
    startupRoundsWithoutGrowth := 0
    probeBwCycleIdx := 0
    lastAck := none
    roundStart := now
    ackEventsInRound := 0
    appLimitedSamples := 0 }

variable (c : ScientificBbrController F)

/-- The time since the last call, in seconds; a millisecond for the first one. -/
def elapsed (now : Instant) : F :=
  max (F64Arith.asSecs ((c.lastAck.map fun last => now.since last).getD 1000000)) 0.000001

def deliveryRateBps (bytes : Nat) (now : Instant) : F := (bytes : F) * 8.0 / c.elapsed now

/-- `bw_window`. -/
def bwWindow : Nat := max (c.minRtt * 10) (2 * 1000000000)

def cutoff (earliest now : Instant) : Instant := (checkedSub earliest now c.bwWindow).getD now

/-- The first part of `on_acked`: the bandwidth. -/
def updateBandwidth (earliest : Instant) (bytes : Nat) (now : Instant) (appLimited : Bool) :
    ScientificBbrController F :=
  let samples :=
    pushSince (c.cutoff earliest now) c.bandwidthSamples now (c.deliveryRateBps bytes now)
  let c := { c with
    lastAck := some now
    ackEventsInRound := satAdd c.ackEventsInRound 1
    bandwidthSamples := samples }
  if appLimited then { c with appLimitedSamples := satAdd c.appLimitedSamples 1 }
  else { c with maxBandwidthBps := (samples.map Prod.snd).foldl max 0.0 }

/-- The second part: the round trip. -/
def updateMinRtt (rtt : Nat) (now : Instant) : ScientificBbrController F :=
  let c :=
    if c.minRttFilterWindow < now.since c.minRttStamp then
      { c with minRtt := rtt, minRttStamp := now, state := .probeRtt }
    else if rtt < c.minRtt then { c with minRtt := rtt, minRttStamp := now }
    else c
  { c with minRtt := min c.minRtt rtt }

/-- The third part: variance and bandwidth-delay product. -/
def updateBdp (rtt : Nat) : ScientificBbrController F :=
  let varianceSample := F64Calc.powi (F64Arith.asSecs rtt - F64Arith.asSecs c.minRtt) 2
  { c with
    rttVariance := 0.9 * c.rttVariance + 0.1 * varianceSample
    bdp := max (F64Arith.toU64 (c.maxBandwidthBps / 8.0 * F64Arith.asSecs c.minRtt)) (c.mtu * 4) }

/-- The last part: the window of the state, and the next state. -/
def updateState (previousMax : F) (now : Instant) (appLimited : Bool) :
    ScientificBbrController F :=
  match c.state with
  | .startup =>
    let rounds :=
      if F64Arith.le c.maxBandwidthBps (previousMax * 1.05) then c.startupRoundsWithoutGrowth + 1
      else 0
    { c with
      cwnd := F64Arith.toU64 (c.config.startupGain * (c.bdp : F) * c.config.targetCwndHeadroom)
      startupRoundsWithoutGrowth := rounds
      state := if 3 ≤ rounds then .drain else .startup }
  | .drain =>
    { c with
      cwnd := F64Arith.toU64 (c.config.drainGain * (c.bdp : F))
      state := .probeBw }
  | .probeBw =>
    let c :=
      if max c.minRtt (50 * 1000000) ≤ now.since c.roundStart then
        { c with
          roundStart := now
          probeBwCycleIdx := (c.probeBwCycleIdx + 1) % 8
          ackEventsInRound := 0 }
      else c
    -- the table of gains is the one of the telemetry controller
    let gain := ScientificCongestionController.gains c.probeBwCycleIdx
    let scale : F := if appLimited then 0.9 else 1.0
    { c with cwnd := F64Arith.toU64 (c.config.cwndGain * (c.bdp : F) * gain * scale) }
  | .probeRtt =>
    { c with
      cwnd := max (F64Arith.toU64 (c.config.probeRttCwndGain * (c.bdp : F))) (c.mtu * 4)
      state := if 200 * 1000000 ≤ now.since c.minRttStamp then .probeBw else .probeRtt }

/-- `on_acked`; `none` is the panic of `min_rtt * 10`. -/
def onAcked (earliest : Instant) (bytes rtt : Nat) (now : Instant) (appLimited : Bool) :
    Option (ScientificBbrController F) :=
  if durationMax < c.minRtt * 10 then none
  else
    let elapsed := c.elapsed now
    let previousMax := c.maxBandwidthBps
    let c := c.updateBandwidth earliest bytes now appLimited
    let c := c.updateMinRtt rtt now
    let c := c.updateBdp rtt
    let c := c.updateState previousMax now appLimited
    some { c with pacingRateBps := max c.maxBandwidthBps ((c.cwnd : F) * 8.0 / elapsed) }

def onMtuUpdate (newMtu : Nat) : ScientificBbrController F :=
  { c with mtu := newMtu, cwnd := max c.cwnd (newMtu * 4) }

/-! ## One acknowledgement -/

variable {c} {c' : ScientificBbrController F} {earliest now : Instant} {bytes rtt : Nat}
  {appLimited : Bool}

/-- The fields of the two filters. -/
def filters (c : ScientificBbrController F) :
    Option Instant × List (Instant × F) × F × Nat × Instant × Nat :=
  (c.lastAck, c.bandwidthSamples, c.maxBandwidthBps, c.minRtt, c.minRttStamp, c.minRttFilterWindow)

/-- The sample takes the place of `minRtt`, or `minRtt` stays and is not above it. -/
structure RttKept (c : ScientificBbrController F) (rtt : Nat) (now : Instant)
    (c' : ScientificBbrController F) : Prop where
  window : c'.minRttFilterWindow = c.minRttFilterWindow
  cases : c'.minRtt = rtt ∧ c'.minRttStamp = now ∧
      (c.minRttFilterWindow < now.since c.minRttStamp ∨ rtt < c.minRtt) ∨
    c'.minRtt = c.minRtt ∧ c'.minRttStamp = c.minRttStamp ∧
      now.since c.minRttStamp ≤ c.minRttFilterWindow ∧ c.minRtt ≤ rtt

/-- What the filters are after a call. -/
structure Acked (c : ScientificBbrController F) (earliest : Instant) (bytes rtt : Nat)
    (now : Instant) (appLimited : Bool) (c' : ScientificBbrController F) : Prop
    extends RttKept c rtt now c' where
  lastAck : c'.lastAck = some now
  samples : c'.bandwidthSamples =
    pushSince (c.cutoff earliest now) c.bandwidthSamples now (c.deliveryRateBps bytes now)
  maxBandwidth : appLimited = false →
    c'.maxBandwidthBps = (c'.bandwidthSamples.map Prod.snd).foldl max 0.0

omit [F64Calc F] in
theorem updateMinRtt_kept (c : ScientificBbrController F) (rtt : Nat) (now : Instant) :
    RttKept c rtt now (c.updateMinRtt rtt now) := by
  unfold updateMinRtt
  dsimp only
  by_cases hold : c.minRttFilterWindow < now.since c.minRttStamp
  · rw [if_pos hold]
    exact ⟨rfl, Or.inl ⟨min_self rtt, rfl, Or.inl hold⟩⟩
  · rw [if_neg hold]
    by_cases hlow : rtt < c.minRtt
    · rw [if_pos hlow]
      exact ⟨rfl, Or.inl ⟨min_self rtt, rfl, Or.inr hlow⟩⟩
    · rw [if_neg hlow]
      have hle : c.minRtt ≤ rtt := Nat.le_of_not_lt hlow
      exact ⟨rfl, Or.inr ⟨min_eq_left hle, rfl, Nat.le_of_not_lt hold, hle⟩⟩

omit [F64Calc F] in
theorem updateMinRtt_frame (c : ScientificBbrController F) (rtt : Nat) (now : Instant) :
    (c.updateMinRtt rtt now).lastAck = c.lastAck ∧
    (c.updateMinRtt rtt now).bandwidthSamples = c.bandwidthSamples ∧
    (c.updateMinRtt rtt now).maxBandwidthBps = c.maxBandwidthBps := by
  unfold updateMinRtt
  dsimp only
  split
  · exact ⟨rfl, rfl, rfl⟩
  · split <;> exact ⟨rfl, rfl, rfl⟩

/-- The state machine does not touch the filters. -/
theorem filters_updateState (c : ScientificBbrController F) (previousMax : F) (now : Instant)
    (appLimited : Bool) : (c.updateState previousMax now appLimited).filters = c.filters := by
  unfold updateState
  cases c.state with
  | startup => rfl
  | drain => rfl
  | probeBw =>
    dsimp only
    split <;> rfl
  | probeRtt => rfl

/-- The bandwidth does not touch the round trip. -/
theorem updateBandwidth_frame (c : ScientificBbrController F) (earliest : Instant) (bytes : Nat)
    (now : Instant) (appLimited : Bool) :
    (c.updateBandwidth earliest bytes now appLimited).minRtt = c.minRtt ∧
    (c.updateBandwidth earliest bytes now appLimited).minRttStamp = c.minRttStamp ∧
    (c.updateBandwidth earliest bytes now appLimited).minRttFilterWindow =
      c.minRttFilterWindow := by
  unfold updateBandwidth
  cases appLimited <;> exact ⟨rfl, rfl, rfl⟩

theorem onAcked_acked (h : c.onAcked earliest bytes rtt now appLimited = some c') :
    Acked c earliest bytes rtt now appLimited c' := by
  -- the filters are those of the first two parts
  have hfilters : c'.filters =
      ((c.updateBandwidth earliest bytes now appLimited).updateMinRtt rtt now).filters := by
    unfold onAcked at h
    split at h
    · cases h
    obtain rfl := Option.some.inj h
    exact filters_updateState _ _ _ _
  simp only [filters, Prod.mk.injEq] at hfilters
  obtain ⟨hack, hsamples, hmax, hrtt, hstamp, hwindow⟩ := hfilters
  obtain ⟨hack', hsamples', hmax'⟩ :=
    updateMinRtt_frame (c.updateBandwidth earliest bytes now appLimited) rtt now
  obtain ⟨hrtt', hstamp', hwindow'⟩ := c.updateBandwidth_frame earliest bytes now appLimited
  have hkept := updateMinRtt_kept (c.updateBandwidth earliest bytes now appLimited) rtt now
  refine ⟨⟨?_, ?_⟩, ?_, ?_, ?_⟩
  · rw [hwindow, hkept.window, hwindow']
  · have hcases := hkept.cases
    rw [← hrtt, ← hstamp, hrtt', hstamp', hwindow'] at hcases
    exact hcases
  · rw [hack, hack']
    unfold updateBandwidth
    cases appLimited <;> rfl
  · rw [hsamples, hsamples']
    unfold updateBandwidth
    cases appLimited <;> rfl
  · rintro rfl
    rw [hmax, hmax', hsamples, hsamples']
    rfl

omit [F64Calc F] in
/-- A cutoff is not in the future. -/
theorem cutoff_le (c : ScientificBbrController F) (earliest now : Instant) :
    c.cutoff earliest now ≤ now := by
  unfold cutoff checkedSub
  split
  · exact Int.sub_le_self now (Int.natCast_nonneg c.bwWindow)
  · exact le_rfl

end ScientificBbrController

/-! ## Runs -/

inductive BbrLabel where
  | ack (bytes rtt : Nat) (now : Instant) (appLimited : Bool)
  | mtuUpdate (newMtu : Nat)

/-- A call of `on_acked`: what it measured, and the states before and after it. -/
structure Transition (F : Type) where
  now : Instant
  rtt : Nat
  rate : F
  cutoff : Instant
  before : BbrState
  after : BbrState

/-- The controller, and all calls so far. -/
structure BbrRun (F : Type) where
  controller : ScientificBbrController F
  log : List (Transition F)

namespace BbrRun

section Log

variable {F : Type} (r : BbrRun F)

def rates : List (Instant × F) := r.log.map fun e => (e.now, e.rate)

def rtts : List (Instant × Nat) := r.log.map fun e => (e.now, e.rtt)

def cutoffs : List Instant := r.log.map Transition.cutoff

/-- One more call. -/
def push (controller : ScientificBbrController F) (e : Transition F) : BbrRun F :=
  ⟨controller, r.log ++ [e]⟩

variable (controller : ScientificBbrController F) (e : Transition F)

@[simp] theorem controller_push : (r.push controller e).controller = controller := rfl

theorem rates_push : (r.push controller e).rates = r.rates ++ [(e.now, e.rate)] := List.map_append

theorem rtts_push : (r.push controller e).rtts = r.rtts ++ [(e.now, e.rtt)] := List.map_append

theorem cutoffs_push : (r.push controller e).cutoffs = r.cutoffs ++ [e.cutoff] := List.map_append

end Log

variable {F : Type} [F64Calc F]

def new (config : SciBbrConfig F) (now : Instant) (currentMtu : Nat) : BbrRun F :=
  ⟨.new config now currentMtu, []⟩

def step (earliest : Instant) (r : BbrRun F) : BbrLabel → Option (BbrRun F)
  | .ack bytes rtt now appLimited =>
    (r.controller.onAcked earliest bytes rtt now appLimited).map fun controller =>
      r.push controller
        { now := now
          rtt := rtt
          rate := r.controller.deliveryRateBps bytes now
          cutoff := r.controller.cutoff earliest now
          before := r.controller.state
          after := controller.state }
  | .mtuUpdate newMtu => some { r with controller := r.controller.onMtuUpdate newMtu }

omit [F64Calc F] in
/-- Times do not decrease. -/
def Ordered (r : BbrRun F) : BbrLabel → Prop
  | .ack _ _ now _ => ∀ t ∈ r.controller.lastAck, t ≤ now
  | .mtuUpdate _ => True

instance (r : BbrRun F) : DecidablePred r.Ordered
  | .ack _ _ now _ => inferInstanceAs (Decidable (∀ t ∈ r.controller.lastAck, t ≤ now))
  | .mtuUpdate _ => inferInstanceAs (Decidable True)

end BbrRun

def bbr (F : Type) [F64Calc F] (earliest : Instant) : Lts (BbrRun F) BbrLabel where
  step := BbrRun.step earliest

section Runs

variable {F : Type} [F64Calc F] {earliest : Instant} {r r' : BbrRun F}

/-- The bandwidth's window, in terms of all calls so far. -/
structure Filtered (r : BbrRun F) : Prop where
  ordered : TimeOrdered r.rates
  kept : KeptSince r.controller.bandwidthSamples r.rates r.cutoffs
  past : ∀ s ∈ r.rates, ∃ t ∈ r.controller.lastAck, s.1 ≤ t
  cutoff_past : ∀ cutoff ∈ r.cutoffs, ∃ t ∈ r.controller.lastAck, cutoff ≤ t

theorem Filtered.new (config : SciBbrConfig F) (now : Instant) (currentMtu : Nat) :
    Filtered (BbrRun.new config now currentMtu) :=
  ⟨List.Pairwise.nil, rfl, nofun, nofun⟩

/-- What was in the past stays there. -/
theorem le_now_of_past {lastAck : Option Instant} {now t : Instant}
    (hnow : ∀ t ∈ lastAck, t ≤ now) (h : ∃ t' ∈ lastAck, t ≤ t') : t ≤ now := by
  obtain ⟨t', ht', hle⟩ := h
  exact hle.trans (hnow t' ht')

theorem Filtered.step {label : BbrLabel} (h : Filtered r) (hok : r.Ordered label)
    (hstep : r.step earliest label = some r') : Filtered r' := by
  cases label with
  | ack bytes rtt now appLimited =>
    obtain ⟨c', hc', rfl⟩ := Option.map_eq_some_iff.mp hstep
    have hack := ScientificBbrController.onAcked_acked hc'
    have hnow : ∀ s ∈ r.rates, s.1 ≤ now := fun s hs => le_now_of_past hok (h.past s hs)
    have hcut : ∀ cutoff ∈ r.cutoffs, cutoff ≤ now :=
      fun cutoff hc => le_now_of_past hok (h.cutoff_past cutoff hc)
    constructor
    · rw [BbrRun.rates_push]
      exact h.ordered.push hnow _
    · rw [BbrRun.rates_push, BbrRun.cutoffs_push]
      show KeptSince c'.bandwidthSamples _ _
      rw [hack.samples]
      exact h.kept.push h.ordered hnow hcut _
    · rw [BbrRun.rates_push, List.forall_mem_append, List.forall_mem_singleton]
      exact ⟨fun s hs => ⟨now, hack.lastAck, hnow s hs⟩, now, hack.lastAck, le_rfl⟩
    · rw [BbrRun.cutoffs_push, List.forall_mem_append, List.forall_mem_singleton]
      exact ⟨fun cutoff hc => ⟨now, hack.lastAck, hcut cutoff hc⟩, now, hack.lastAck,
        r.controller.cutoff_le earliest now⟩
  | mtuUpdate newMtu =>
    cases hstep
    exact ⟨h.ordered, h.kept, h.past, h.cutoff_past⟩

/--
`minRtt` is at most every sample since its stamp. The stamp of a new controller may still lie in
the future; then no sample has been below `minRtt`.
-/
structure LeastRtt (r : BbrRun F) : Prop where
  since : ∀ s ∈ r.rtts, r.controller.minRttStamp ≤ s.1 → r.controller.minRtt ≤ s.2
  before : (∀ t ∈ r.controller.lastAck, t < r.controller.minRttStamp) →
    ∀ s ∈ r.rtts, r.controller.minRtt ≤ s.2
  fresh : ∀ t ∈ r.controller.lastAck,
    t.since r.controller.minRttStamp ≤ r.controller.minRttFilterWindow
  past : ∀ s ∈ r.rtts, ∃ t ∈ r.controller.lastAck, s.1 ≤ t

theorem LeastRtt.new (config : SciBbrConfig F) (now : Instant) (currentMtu : Nat) :
    LeastRtt (BbrRun.new config now currentMtu) :=
  ⟨nofun, fun _ => nofun, nofun, nofun⟩

omit [F64Calc F] in
/-- A sample of this very moment came in with the last call, so `minRtt` was compared with it. -/
theorem LeastRtt.le_of_now (h : LeastRtt r) {now : Instant}
    (hnow : ∀ t ∈ r.controller.lastAck, t ≤ now) {s : Instant × Nat} (hs : s ∈ r.rtts)
    (hle : now ≤ s.1) :
    r.controller.minRtt ≤ s.2 ∧
      now.since r.controller.minRttStamp ≤ r.controller.minRttFilterWindow := by
  obtain ⟨t, ht, hst⟩ := h.past s hs
  have htn := hnow t ht
  have heq : t = now := le_antisymm htn (hle.trans hst)
  subst heq
  refine ⟨?_, h.fresh t ht⟩
  by_cases hstamp : r.controller.minRttStamp ≤ s.1
  · exact h.since s hs hstamp
  · refine h.before ?_ s hs
    intro t' ht'
    rw [Option.mem_unique ht' ht]
    exact lt_of_le_of_lt hle (lt_of_not_ge hstamp)

section Ack

variable {rtt : Nat} {now : Instant}

omit [F64Calc F] in
theorem LeastRtt.past_ack (h : LeastRtt r) (hnow : ∀ t ∈ r.controller.lastAck, t ≤ now)
    (hrtts : r'.rtts = r.rtts ++ [(now, rtt)]) (hlast : r'.controller.lastAck = some now) :
    ∀ s ∈ r'.rtts, ∃ t ∈ r'.controller.lastAck, s.1 ≤ t := by
  rw [hrtts, List.forall_mem_append, List.forall_mem_singleton]
  exact ⟨fun s hs => ⟨now, hlast, le_now_of_past hnow (h.past s hs)⟩, now, hlast, le_rfl⟩

omit [F64Calc F] in
/-- The sample takes the place of `minRtt`: only the samples of this moment count. -/
theorem LeastRtt.renewed (h : LeastRtt r) (hnow : ∀ t ∈ r.controller.lastAck, t ≤ now)
    (hrtts : r'.rtts = r.rtts ++ [(now, rtt)]) (hlast : r'.controller.lastAck = some now)
    (hrtt : r'.controller.minRtt = rtt) (hstamp : r'.controller.minRttStamp = now)
    (hwhy : r.controller.minRttFilterWindow < now.since r.controller.minRttStamp ∨
      rtt < r.controller.minRtt) : LeastRtt r' := by
  refine ⟨?_, fun hfuture => ?_, fun t ht => ?_, h.past_ack hnow hrtts hlast⟩
  · rw [hrtts, hrtt, hstamp, List.forall_mem_append, List.forall_mem_singleton]
    refine ⟨fun s hs hsince => ?_, fun _ => le_rfl⟩
    obtain ⟨hmin, hnot⟩ := h.le_of_now hnow hs hsince
    rcases hwhy with hold | hlow
    · exact absurd hold (Nat.not_lt.mpr hnot)
    · exact (Nat.le_of_lt hlow).trans hmin
  · have hlt := hfuture now hlast
    rw [hstamp] at hlt
    exact absurd hlt (lt_irrefl now)
  · rw [Option.mem_unique ht hlast, hstamp]
    simp [Instant.since]

omit [F64Calc F] in
/-- The sample is not below `minRtt`, which stays. -/
theorem LeastRtt.stays (h : LeastRtt r) (hnow : ∀ t ∈ r.controller.lastAck, t ≤ now)
    (hrtts : r'.rtts = r.rtts ++ [(now, rtt)]) (hlast : r'.controller.lastAck = some now)
    (hwindow : r'.controller.minRttFilterWindow = r.controller.minRttFilterWindow)
    (hrtt : r'.controller.minRtt = r.controller.minRtt)
    (hstamp : r'.controller.minRttStamp = r.controller.minRttStamp)
    (hfresh : now.since r.controller.minRttStamp ≤ r.controller.minRttFilterWindow)
    (hle : r.controller.minRtt ≤ rtt) : LeastRtt r' := by
  refine ⟨?_, fun hfuture => ?_, fun t ht => ?_, h.past_ack hnow hrtts hlast⟩
  · rw [hrtts, hrtt, hstamp, List.forall_mem_append, List.forall_mem_singleton]
    exact ⟨h.since, fun _ => hle⟩
  · have hlt := hfuture now hlast
    rw [hstamp] at hlt
    rw [hrtts, hrtt, List.forall_mem_append, List.forall_mem_singleton]
    exact ⟨h.before fun t ht => lt_of_le_of_lt (hnow t ht) hlt, hle⟩
  · rw [Option.mem_unique ht hlast, hstamp, hwindow]
    exact hfresh

end Ack

theorem LeastRtt.step {label : BbrLabel} (h : LeastRtt r) (hok : r.Ordered label)
    (hstep : r.step earliest label = some r') : LeastRtt r' := by
  cases label with
  | ack bytes rtt now appLimited =>
    obtain ⟨c', hc', rfl⟩ := Option.map_eq_some_iff.mp hstep
    have hack := ScientificBbrController.onAcked_acked hc'
    rcases hack.cases with ⟨hrtt, hstamp, hwhy⟩ | ⟨hrtt, hstamp, hfresh, hle⟩
    · exact h.renewed hok (r.rtts_push _ _) hack.lastAck hrtt hstamp hwhy
    · exact h.stays hok (r.rtts_push _ _) hack.lastAck hack.window hrtt hstamp hfresh hle
  | mtuUpdate newMtu =>
    cases hstep
    exact ⟨h.since, h.before, h.fresh, h.past⟩

end Runs

/-! ## Exact rates -/

instance : F64Calc ℚ where
  powi a n := a ^ n

/-- The bandwidth is the largest rate that was measured at a time `ok` allows. -/
def BbrRun.MaxOver (r : BbrRun ℚ) (ok : Instant → Prop) : Prop :=
  IsGreatest { rate | ∃ t, (t, rate) ∈ r.rates ∧ ok t } r.controller.maxBandwidthBps

section Exact

variable {earliest : Instant} {config : SciBbrConfig ℚ} {start : Instant} {mtu : Nat}
  {r r' : BbrRun ℚ}

theorem deliveryRateBps_nonneg (c : ScientificBbrController ℚ) (bytes : Nat) (now : Instant) :
    0 ≤ c.deliveryRateBps bytes now := by
  have helapsed : (0 : ℚ) ≤ c.elapsed now :=
    le_trans (by norm_num) (le_max_right _ (0.000001 : ℚ))
  have hbits : (0 : ℚ) ≤ (bytes : ℚ) * 8.0 := mul_nonneg (Nat.cast_nonneg bytes) (by norm_num)
  exact div_nonneg hbits helapsed

theorem rates_nonneg (h : (bbr ℚ earliest).Reach BbrRun.Ordered (.new config start mtu) r) :
    ∀ s ∈ r.rates, 0 ≤ s.2 := by
  induction h with
  | refl => nofun
  | @step r₁ r₂ label _ _ hstep ih =>
    cases label with
    | ack bytes rtt now appLimited =>
      obtain ⟨c', -, rfl⟩ := Option.map_eq_some_iff.mp hstep
      rw [BbrRun.rates_push, List.forall_mem_append, List.forall_mem_singleton]
      exact ⟨ih, deliveryRateBps_nonneg _ bytes now⟩
    | mtuUpdate newMtu =>
      cases hstep
      exact ih

/-- The fold over the window is the largest rate that no cutoff so far excludes. -/
theorem Filtered.maxOver (h : Filtered r) (hpos : ∀ s ∈ r.rates, 0 ≤ s.2)
    (hne : r.controller.bandwidthSamples ≠ [])
    (hmax : r.controller.maxBandwidthBps =
      (r.controller.bandwidthSamples.map Prod.snd).foldl max 0.0) :
    r.MaxOver fun t => ∀ cutoff ∈ r.cutoffs, cutoff ≤ t := by
  have hset : { rate | ∃ t, (t, rate) ∈ r.rates ∧ ∀ cutoff ∈ r.cutoffs, cutoff ≤ t } =
      { rate | rate ∈ r.controller.bandwidthSamples.map Prod.snd } := by
    ext rate
    constructor
    · rintro ⟨t, hmem, hok⟩
      exact List.mem_map.mpr ⟨(t, rate), h.kept.mem_iff.mpr ⟨hmem, hok⟩, rfl⟩
    · intro hrate
      obtain ⟨s, hs, rfl⟩ := List.mem_map.mp hrate
      obtain ⟨hmem, hok⟩ := h.kept.mem_iff.mp hs
      exact ⟨s.1, hmem, hok⟩
  unfold BbrRun.MaxOver
  rw [hset, hmax]
  refine isGreatest_foldl_max (by simpa using hne) ?_
  intro rate hrate
  obtain ⟨s, hs, rfl⟩ := List.mem_map.mp hrate
  exact le_trans (by norm_num) (hpos s (h.kept.mem_iff.mp hs).1)

/-- The sample of the call itself is in every window. -/
theorem samples_ne_nil {c c' : ScientificBbrController ℚ} {bytes rtt : Nat} {now : Instant}
    {appLimited : Bool} (h : c.Acked earliest bytes rtt now appLimited c') :
    c'.bandwidthSamples ≠ [] := by
  rw [h.samples]
  intro hnil
  have hall := List.dropWhile_eq_nil_iff.mp hnil
  have hold := hall (now, c.deliveryRateBps bytes now) (by simp)
  rw [decide_eq_true_eq] at hold
  exact absurd hold (not_lt.mpr (c.cutoff_le earliest now))

/--
**The two filters.** In every run of calls in the order of their times: after a call that is not
limited by the application, the bandwidth is the largest rate measured since the cutoff of this
call and of all calls before it. It is the largest rate of the window of this call if no earlier
window began later. After every call, `minRtt` is at most every sample since its stamp.
-/
theorem bandwidth_filter_of_reach (earliest : Instant) (config : SciBbrConfig ℚ) (start : Instant)
    (mtu : Nat) (r r' : BbrRun ℚ)
    (hr : (bbr ℚ earliest).Reach BbrRun.Ordered (.new config start mtu) r) (bytes rtt : Nat)
    (now : Instant) (appLimited : Bool) (hnow : r.Ordered (.ack bytes rtt now appLimited))
    (hstep : r.step earliest (.ack bytes rtt now appLimited) = some r') :
    (appLimited = false → r'.MaxOver fun t =>
      r.controller.cutoff earliest now ≤ t ∧ ∀ cutoff ∈ r.cutoffs, cutoff ≤ t) ∧
    (appLimited = false → earliest ≤ now - r.controller.bwWindow →
      (∀ cutoff ∈ r.cutoffs, cutoff ≤ now - r.controller.bwWindow) →
      r'.MaxOver fun t => now - r.controller.bwWindow ≤ t) ∧
    ∀ s ∈ r'.rtts, r'.controller.minRttStamp ≤ s.1 → r'.controller.minRtt ≤ s.2 := by
  have hreach := hr.step hnow hstep
  have hfiltered : Filtered r' :=
    hreach.invariant (Filtered.new config start mtu) fun h hok hs => h.step hok hs
  have hleast : LeastRtt r' :=
    hreach.invariant (LeastRtt.new config start mtu) fun h hok hs => h.step hok hs
  obtain ⟨hack, hcutoffs⟩ : r.controller.Acked earliest bytes rtt now appLimited r'.controller ∧
      r'.cutoffs = r.cutoffs ++ [r.controller.cutoff earliest now] := by
    obtain ⟨c', hc', rfl⟩ := Option.map_eq_some_iff.mp hstep
    exact ⟨ScientificBbrController.onAcked_acked hc', r.cutoffs_push _ _⟩
  have hmax : appLimited = false → r'.MaxOver fun t =>
      r.controller.cutoff earliest now ≤ t ∧ ∀ cutoff ∈ r.cutoffs, cutoff ≤ t := by
    intro hlimited
    have hover := hfiltered.maxOver (rates_nonneg hreach) (samples_ne_nil hack)
      (hack.maxBandwidth hlimited)
    simp only [hcutoffs, List.forall_mem_append, List.forall_mem_singleton] at hover
    simpa only [and_comm] using hover
  refine ⟨hmax, fun hlimited hearliest hlater => ?_, hleast.since⟩
  have hcutoff : r.controller.cutoff earliest now = now - r.controller.bwWindow := by
    rw [ScientificBbrController.cutoff, checkedSub, if_pos hearliest, Option.getD_some]
  have hover := hmax hlimited
  rw [hcutoff] at hover
  have hok : ∀ t : Instant, (now - r.controller.bwWindow ≤ t ∧ ∀ cutoff ∈ r.cutoffs, cutoff ≤ t) ↔
      now - r.controller.bwWindow ≤ t :=
    fun t => and_iff_left_of_imp fun ht cutoff hc => (hlater cutoff hc).trans ht
  simpa only [hok] using hover

end Exact

/-! ### A window that grows -/

/-- The `Instant`s of a signed number of seconds. -/
def linuxEarliest : Instant := -(2 ^ 63 * 1000000000)

/-- A large rate after 8 s; after more than 10 s the round trip is measured anew. -/
def risingRtt : List BbrLabel :=
  [.ack 1000000 100000000 8000000000 false, .ack 100 1000000000 10001000000 false]

/-- The default controller after these calls. -/
def bbrAfter (labels : List BbrLabel) : Option (BbrRun ℚ) :=
  (bbr ℚ linuxEarliest).execWhere (fun r label => decide (r.Ordered label)) (.new .default 0 1200)
    labels

theorem reach_of_bbrAfter {labels : List BbrLabel} {r : BbrRun ℚ} (h : bbrAfter labels = some r) :
    (bbr ℚ linuxEarliest).Reach BbrRun.Ordered (.new .default 0 1200) r :=
  (Lts.Reach.of_execWhere h).mono of_decide_eq_true

/-- A call a millisecond later. -/
def lateAck : BbrLabel := .ack 100 1000000000 10002000000 false

/-- Its window is 10 s long, but the bandwidth is not the rate after 8 s. -/
theorem risingRtt_lateAck :
    ∃ r r', (bbr ℚ linuxEarliest).Reach BbrRun.Ordered (.new .default 0 1200) r ∧
      r.Ordered lateAck ∧ r.step linuxEarliest lateAck = some r' ∧
      r.controller.bwWindow = 10000000000 ∧ r'.controller.maxBandwidthBps = 800000 ∧
      r'.rates.head? = some (8000000000, 8000000000) := by
  have hexec : ((bbrAfter risingRtt).bind fun r => (r.step linuxEarliest lateAck).map fun r' =>
      (decide (r.Ordered lateAck), r.controller.bwWindow, r'.controller.maxBandwidthBps,
        r'.rates.head?)) = some (true, 10000000000, 800000, some (8000000000, 8000000000)) := by
    decide +kernel
  obtain ⟨r, hr, hnext⟩ := Option.bind_eq_some_iff.mp hexec
  obtain ⟨r', hstep, heq⟩ := Option.map_eq_some_iff.mp hnext
  simp only [Prod.mk.injEq, decide_eq_true_eq] at heq
  exact ⟨r, r', reach_of_bbrAfter hr, heq.1, hstep, heq.2⟩

theorem risingRtt_filtered :
    ∃ r r' : BbrRun ℚ, r.step linuxEarliest lateAck = some r' ∧
      r'.controller.maxBandwidthBps = 800000 ∧
      r'.MaxOver fun t =>
        r.controller.cutoff linuxEarliest 10002000000 ≤ t ∧ ∀ cutoff ∈ r.cutoffs, cutoff ≤ t := by
  obtain ⟨r, r', hr, hnow, hstep, -, hmax, -⟩ := risingRtt_lateAck
  exact ⟨r, r', hstep, hmax,
    (bandwidth_filter_of_reach _ _ _ _ r r' hr _ _ _ _ hnow hstep).1 rfl⟩

/-- The second call forgot the large rate; the third one has it in its window again. -/
theorem evicted_rate_in_window :
    ∃ r r', (bbr ℚ linuxEarliest).Reach BbrRun.Ordered (.new .default 0 1200) r ∧
      r.Ordered lateAck ∧ r.step linuxEarliest lateAck = some r' ∧
      ¬ r'.MaxOver fun t => (10002000000 : Instant) - r.controller.bwWindow ≤ t := by
  obtain ⟨r, r', hr, hnow, hstep, hwindow, hmax, hhead⟩ := risingRtt_lateAck
  refine ⟨r, r', hr, hnow, hstep, fun hover => ?_⟩
  have hle : (8000000000 : ℚ) ≤ r'.controller.maxBandwidthBps := by
    refine hover.2 ⟨8000000000, List.mem_of_mem_head? hhead, ?_⟩
    rw [hwindow]
    decide
  rw [hmax] at hle
  norm_num at hle

end ScTransport.SctCore
