import ScTransport.Congestion.Filters
import ScTransport.Telemetry.CongestionRuns

/-!
# The phases of the congestion controller

`ScientificBbrController` starts up, drains once and then probes, for bandwidth and now and then for
the round trip.

* `onAcked_state` — the state machine of one acknowledgement
* `phases_of_reach` — the phases of every run, and the times of the probes
* `window_of_reach` — four packets fit into the window of every run, apart from the one drain
* `app_limited_ends_startup` — an idle application ends the startup
-/

namespace ScTransport

theorem Instant.since_anti {now a b : Instant} (h : a ≤ b) : now.since b ≤ now.since a :=
  Int.toNat_le_toNat (Int.sub_le_sub_left h now)

end ScTransport

namespace ScTransport.SctCore

open Infra ScTransport

/-- How far a controller is. -/
def BbrState.phase : BbrState → Nat
  | .startup => 0
  | .drain => 1
  | .probeBw => 2
  | .probeRtt => 2

theorem BbrState.eq_startup {state : BbrState} (h : state.phase ≤ BbrState.startup.phase) :
    state = .startup := by
  cases state with
  | startup => rfl
  | _ => exact absurd h (by decide)

namespace ScientificBbrController

section Step

variable {F : Type} [F64Calc F] {c c' : ScientificBbrController F} {earliest now : Instant}
  {bytes rtt : Nat} {appLimited : Bool}

/-- `window`. -/
def window (c : ScientificBbrController F) : Nat := max c.cwnd (c.mtu * 2)

/-- `minRtt` was not confirmed for longer than the window. -/
def Expired (c : ScientificBbrController F) (now : Instant) : Prop :=
  c.minRttFilterWindow < now.since c.minRttStamp

instance : Decidable (c.Expired now) :=
  inferInstanceAs (Decidable (c.minRttFilterWindow < now.since c.minRttStamp))

/-! ## One acknowledgement -/

/-- The state after the acknowledgement that leads from `c` to `c'`. -/
def nextState (c c' : ScientificBbrController F) (now : Instant) : BbrState :=
  if c.Expired now then .probeRtt
  else match c.state with
    | .startup => if 3 ≤ c'.startupRoundsWithoutGrowth then .drain else .startup
    | .drain => .probeBw
    | .probeBw => .probeBw
    | .probeRtt => if 200 * 1000000 ≤ now.since c'.minRttStamp then .probeBw else .probeRtt

/-- What else the state machine does. -/
structure Counted (c c' : ScientificBbrController F) : Prop where
  config : c'.config = c.config
  mtu : c'.mtu = c.mtu
  cycle : c.probeBwCycleIdx < 8 → c'.probeBwCycleIdx < 8
  rounds : c'.startupRoundsWithoutGrowth ≤ c.startupRoundsWithoutGrowth + 1
  settled : c.state ≠ .startup → c'.startupRoundsWithoutGrowth = c.startupRoundsWithoutGrowth

omit [F64Calc F] in
theorem updateMinRtt_state (c : ScientificBbrController F) (rtt : Nat) (now : Instant) :
    (c.updateMinRtt rtt now).state = if c.Expired now then .probeRtt else c.state := by
  unfold updateMinRtt
  by_cases hexpired : c.Expired now
  · rw [if_pos hexpired]
    have hwindow : c.minRttFilterWindow < now.since c.minRttStamp := hexpired
    simp only [if_pos hwindow]
  · rw [if_neg hexpired]
    have hwindow : ¬ c.minRttFilterWindow < now.since c.minRttStamp := hexpired
    simp only [if_neg hwindow]
    split <;> rfl

omit [F64Calc F] in
theorem updateMinRtt_counted (c : ScientificBbrController F) (rtt : Nat) (now : Instant) :
    (c.updateMinRtt rtt now).config = c.config ∧ (c.updateMinRtt rtt now).mtu = c.mtu ∧
      (c.updateMinRtt rtt now).probeBwCycleIdx = c.probeBwCycleIdx ∧
      (c.updateMinRtt rtt now).startupRoundsWithoutGrowth = c.startupRoundsWithoutGrowth := by
  unfold updateMinRtt
  dsimp only
  split
  · exact ⟨rfl, rfl, rfl, rfl⟩
  · split <;> exact ⟨rfl, rfl, rfl, rfl⟩

theorem updateState_state (c : ScientificBbrController F) (previousMax : F) (now : Instant)
    (appLimited : Bool) :
    (c.updateState previousMax now appLimited).state = match c.state with
      | .startup =>
        if 3 ≤ (c.updateState previousMax now appLimited).startupRoundsWithoutGrowth then .drain
        else .startup
      | .drain => .probeBw
      | .probeBw => .probeBw
      | .probeRtt => if 200 * 1000000 ≤ now.since c.minRttStamp then .probeBw else .probeRtt := by
  unfold updateState
  cases hstate : c.state with
  | startup => rfl
  | drain => rfl
  | probeBw =>
    dsimp only
    split
    · rfl
    · exact hstate
  | probeRtt => rfl

theorem updateState_counted (c : ScientificBbrController F) (previousMax : F) (now : Instant)
    (appLimited : Bool) : Counted c (c.updateState previousMax now appLimited) := by
  unfold updateState
  cases hstate : c.state with
  | startup =>
    refine ⟨rfl, rfl, id, ?_, fun hne => absurd hstate hne⟩
    dsimp only
    split <;> omega
  | drain => exact ⟨rfl, rfl, id, Nat.le_succ _, fun _ => rfl⟩
  | probeBw =>
    dsimp only
    split
    · exact ⟨rfl, rfl, fun _ => Nat.mod_lt _ (by decide), Nat.le_succ _, fun _ => rfl⟩
    · exact ⟨rfl, rfl, id, Nat.le_succ _, fun _ => rfl⟩
  | probeRtt => exact ⟨rfl, rfl, id, Nat.le_succ _, fun _ => rfl⟩

/-- The controller before its state is updated. -/
def measured (c : ScientificBbrController F) (earliest : Instant) (bytes rtt : Nat) (now : Instant)
    (appLimited : Bool) : ScientificBbrController F :=
  ((c.updateBandwidth earliest bytes now appLimited).updateMinRtt rtt now).updateBdp rtt

theorem measured_state (c : ScientificBbrController F) (earliest : Instant) (bytes rtt : Nat)
    (now : Instant) (appLimited : Bool) :
    (c.measured earliest bytes rtt now appLimited).state =
      if c.Expired now then .probeRtt else c.state := by
  show ((c.updateBandwidth earliest bytes now appLimited).updateMinRtt rtt now).state = _
  rw [updateMinRtt_state]
  cases appLimited <;> rfl

theorem measured_counted (c : ScientificBbrController F) (earliest : Instant) (bytes rtt : Nat)
    (now : Instant) (appLimited : Bool) :
    (c.measured earliest bytes rtt now appLimited).config = c.config ∧
      (c.measured earliest bytes rtt now appLimited).mtu = c.mtu ∧
      (c.measured earliest bytes rtt now appLimited).probeBwCycleIdx = c.probeBwCycleIdx ∧
      (c.measured earliest bytes rtt now appLimited).startupRoundsWithoutGrowth =
        c.startupRoundsWithoutGrowth := by
  obtain ⟨hconfig, hmtu, hcycle, hrounds⟩ :=
    updateMinRtt_counted (c.updateBandwidth earliest bytes now appLimited) rtt now
  refine ⟨hconfig.trans ?_, hmtu.trans ?_, hcycle.trans ?_, hrounds.trans ?_⟩ <;>
    cases appLimited <;> rfl

/-- An acknowledgement: measurements, and then a step of the state machine. -/
theorem onAcked_eq (h : c.onAcked earliest bytes rtt now appLimited = some c') :
    c' = { (c.measured earliest bytes rtt now appLimited).updateState c.maxBandwidthBps now
        appLimited with
      pacingRateBps := c'.pacingRateBps } := by
  unfold onAcked at h
  split at h
  · cases h
  · obtain rfl := Option.some.inj h
    rfl

theorem onAcked_counted (h : c.onAcked earliest bytes rtt now appLimited = some c') :
    Counted c c' := by
  obtain ⟨hconfig, hmtu, hcycle, hrounds⟩ := c.measured_counted earliest bytes rtt now appLimited
  have hstate := c.measured_state earliest bytes rtt now appLimited
  have hupdate := updateState_counted (c.measured earliest bytes rtt now appLimited)
    c.maxBandwidthBps now appLimited
  rw [onAcked_eq h]
  refine ⟨hupdate.config.trans hconfig, hupdate.mtu.trans hmtu, fun hlt => ?_, ?_, fun hne => ?_⟩
  · exact hupdate.cycle (hcycle ▸ hlt)
  · exact hrounds ▸ hupdate.rounds
  · refine (hupdate.settled ?_).trans hrounds
    rw [hstate]
    split
    · nofun
    · exact hne

/-- **The state machine.** Whether the window is over is asked first. -/
theorem onAcked_state (h : c.onAcked earliest bytes rtt now appLimited = some c') :
    c'.state = c.nextState c' now := by
  have hstate := c.measured_state earliest bytes rtt now appLimited
  have hupdate := updateState_state (c.measured earliest bytes rtt now appLimited)
    c.maxBandwidthBps now appLimited
  have hstamp : c'.minRttStamp = (c.measured earliest bytes rtt now appLimited).minRttStamp := by
    have hfilters := filters_updateState (c.measured earliest bytes rtt now appLimited)
      c.maxBandwidthBps now appLimited
    rw [onAcked_eq h]
    exact congrArg (fun f => f.2.2.2.2.1) hfilters
  have hrounds : c'.startupRoundsWithoutGrowth = ((c.measured earliest bytes rtt now
      appLimited).updateState c.maxBandwidthBps now appLimited).startupRoundsWithoutGrowth := by
    rw [onAcked_eq h]
  have hafter : c'.state = ((c.measured earliest bytes rtt now appLimited).updateState
      c.maxBandwidthBps now appLimited).state := by
    rw [onAcked_eq h]
  rw [hafter, hupdate, hstate, ← hrounds, ← hstamp]
  unfold nextState
  by_cases hexpired : c.Expired now
  · -- the stamp has just been set
    rw [if_pos hexpired, if_pos hexpired]
    have hnow : c'.minRttStamp = now := by
      rcases (onAcked_acked h).cases with ⟨-, hnow, -⟩ | ⟨-, -, hkept, -⟩
      · exact hnow
      · exact absurd hexpired (Nat.not_lt.mpr hkept)
    have hzero : now.since now = 0 := by simp [Instant.since]
    dsimp only
    rw [hnow, hzero, if_neg (by decide)]
  · rw [if_neg hexpired, if_neg hexpired]

/-- The phase does not fall, and draining takes one acknowledgement. -/
theorem onAcked_phase (h : c.onAcked earliest bytes rtt now appLimited = some c') :
    c.state.phase ≤ c'.state.phase ∧ (c.state = .drain → c'.state.phase = 2) := by
  rw [onAcked_state h]
  unfold nextState
  split
  · exact ⟨by cases c.state <;> decide, fun _ => rfl⟩
  · cases c.state with
    | startup => exact ⟨Nat.zero_le _, nofun⟩
    | drain => exact ⟨Nat.le_succ 1, fun _ => rfl⟩
    | probeBw => exact ⟨le_rfl, nofun⟩
    | probeRtt =>
      dsimp only
      split <;> exact ⟨le_rfl, nofun⟩

theorem onAcked_startup (h : c.onAcked earliest bytes rtt now appLimited = some c')
    (hstartup : c'.state = .startup) : c'.startupRoundsWithoutGrowth < 3 := by
  rw [onAcked_state h] at hstartup
  unfold nextState at hstartup
  split at hstartup
  · cases hstartup
  · cases hc : c.state with
    | startup =>
      rw [hc] at hstartup
      dsimp only at hstartup
      split at hstartup
      · cases hstartup
      · next hlt => exact Nat.lt_of_not_le hlt
    | drain => rw [hc] at hstartup; cases hstartup
    | probeBw => rw [hc] at hstartup; cases hstartup
    | probeRtt =>
      rw [hc] at hstartup
      dsimp only at hstartup
      split at hstartup <;> cases hstartup

/-- A probe begins when the window is over, and nothing else begins one. -/
theorem onAcked_probes (h : c.onAcked earliest bytes rtt now appLimited = some c')
    (hbefore : c.state ≠ .probeRtt) (hafter : c'.state = .probeRtt) :
    c.Expired now ∧ c'.minRttStamp = now := by
  have hexpired : c.Expired now := by
    rw [onAcked_state h] at hafter
    unfold nextState at hafter
    split at hafter
    · next hexpired => exact hexpired
    · cases hc : c.state with
      | startup =>
        rw [hc] at hafter
        dsimp only at hafter
        split at hafter <;> cases hafter
      | drain => rw [hc] at hafter; cases hafter
      | probeBw => rw [hc] at hafter; cases hafter
      | probeRtt => exact absurd hc hbefore
  refine ⟨hexpired, ?_⟩
  rcases (onAcked_acked h).cases with ⟨-, hnow, -⟩ | ⟨-, -, hkept, -⟩
  · exact hnow
  · exact absurd hexpired (Nat.not_lt.mpr hkept)

theorem onAcked_leaves (h : c.onAcked earliest bytes rtt now appLimited = some c')
    (hbefore : c.state = .probeRtt) (hafter : c'.state ≠ .probeRtt) :
    200 * 1000000 ≤ now.since c'.minRttStamp := by
  rw [onAcked_state h] at hafter
  unfold nextState at hafter
  split at hafter
  · exact absurd rfl hafter
  · rw [hbefore] at hafter
    dsimp only at hafter
    split at hafter
    · next hlong => exact hlong
    · exact absurd rfl hafter

end Step

end ScientificBbrController

/-! ## Runs -/

/-- A probe for the round trip begins. -/
def Transition.Probes {F : Type} (e : Transition F) : Prop :=
  e.before ≠ .probeRtt ∧ e.after = .probeRtt

/-- A probe for the round trip ends. -/
def Transition.Leaves {F : Type} (e : Transition F) : Prop :=
  e.before = .probeRtt ∧ e.after ≠ .probeRtt

section Runs

variable {F : Type} [F64Calc F] {earliest : Instant} {s s' : BbrRun F}

/-- What two acknowledgements of a run have to do with each other. -/
structure Transition.Follows (a b : Transition F) : Prop where
  phase : a.after.phase ≤ b.before.phase
  probes : a.Probes → b.Probes → 10 * 1000000000 < b.now.since a.now
  leaves : a.Probes → b.Leaves → 200 * 1000000 ≤ b.now.since a.now

/-- What a run keeps. -/
structure BbrRun.Sound (s : BbrRun F) : Prop where
  window : s.controller.minRttFilterWindow = 10 * 1000000000
  cycle : s.controller.probeBwCycleIdx < 8
  rounds : s.controller.startupRoundsWithoutGrowth ≤ 3
  startup : s.controller.state = .startup → s.controller.startupRoundsWithoutGrowth < 3
  forward : ∀ e ∈ s.log, e.before.phase ≤ e.after.phase
  phase : ∀ e ∈ s.log, e.after.phase ≤ s.controller.state.phase
  drain : ∀ e ∈ s.log, e.before = .drain → e.after.phase = 2
  stamp : ∀ e ∈ s.log, e.Probes → e.now ≤ s.controller.minRttStamp
  past : ∀ e ∈ s.log, ∃ t ∈ s.controller.lastAck, e.now ≤ t
  follows : s.log.Pairwise Transition.Follows

theorem BbrRun.Sound.new (config : SciBbrConfig F) (now : Instant) (currentMtu : Nat) :
    (BbrRun.new config now currentMtu).Sound :=
  ⟨rfl, Nat.zero_lt_succ 7, Nat.zero_le 3, fun _ => Nat.zero_lt_succ 2, nofun, nofun, nofun, nofun,
    nofun, List.Pairwise.nil⟩

theorem BbrRun.Sound.step {label : BbrLabel} (h : s.Sound) (hok : s.Ordered label)
    (hstep : s.step earliest label = some s') : s'.Sound := by
  cases label with
  | mtuUpdate newMtu =>
    cases hstep
    exact ⟨h.window, h.cycle, h.rounds, h.startup, h.forward, h.phase, h.drain, h.stamp, h.past,
      h.follows⟩
  | ack bytes rtt now appLimited =>
    obtain ⟨c', hc', rfl⟩ := Option.map_eq_some_iff.mp hstep
    have hack := ScientificBbrController.onAcked_acked hc'
    have hstate := ScientificBbrController.onAcked_state hc'
    have hcounted := ScientificBbrController.onAcked_counted hc'
    obtain ⟨hphase, hdrain⟩ := ScientificBbrController.onAcked_phase hc'
    have hnow : ∀ e ∈ s.log, e.now ≤ now := fun e he => le_now_of_past hok (h.past e he)
    have hstamp : ∀ e ∈ s.log, e.Probes → e.now ≤ c'.minRttStamp := by
      intro e he hprobes
      rcases hack.cases with ⟨-, hset, -⟩ | ⟨-, hkept, -⟩
      · exact hset ▸ hnow e he
      · exact hkept ▸ h.stamp e he hprobes
    constructor
    case window => exact hack.window.trans h.window
    case cycle => exact hcounted.cycle h.cycle
    case rounds =>
      by_cases hstartup : s.controller.state = .startup
      · exact hcounted.rounds.trans (h.startup hstartup)
      · exact (hcounted.settled hstartup).le.trans h.rounds
    case startup => exact ScientificBbrController.onAcked_startup hc'
    case forward =>
      rw [BbrRun.push, List.forall_mem_append, List.forall_mem_singleton]
      exact ⟨h.forward, hphase⟩
    case phase =>
      rw [BbrRun.push, List.forall_mem_append, List.forall_mem_singleton]
      exact ⟨fun e he => (h.phase e he).trans hphase, le_rfl⟩
    case drain =>
      rw [BbrRun.push, List.forall_mem_append, List.forall_mem_singleton]
      exact ⟨h.drain, hdrain⟩
    case stamp =>
      rw [BbrRun.push, List.forall_mem_append, List.forall_mem_singleton]
      refine ⟨hstamp, fun hprobes => ?_⟩
      exact (ScientificBbrController.onAcked_probes hc' hprobes.1 hprobes.2).2.ge
    case past =>
      rw [BbrRun.push, List.forall_mem_append, List.forall_mem_singleton]
      exact ⟨fun e he => ⟨now, hack.lastAck, hnow e he⟩, now, hack.lastAck, le_rfl⟩
    case follows =>
      refine List.pairwise_append.mpr ⟨h.follows, List.pairwise_singleton _ _, ?_⟩
      intro a ha b hb
      obtain rfl := List.mem_singleton.mp hb
      refine ⟨h.phase a ha, fun hprobes hprobes' => ?_, fun hprobes hleaves => ?_⟩
      · -- the window is over since the stamp, which is not before `a`
        obtain ⟨hexpired, -⟩ := ScientificBbrController.onAcked_probes hc' hprobes'.1 hprobes'.2
        have hlong : s.controller.minRttFilterWindow < now.since s.controller.minRttStamp :=
          hexpired
        rw [h.window] at hlong
        exact hlong.trans_le (Instant.since_anti (h.stamp a ha hprobes))
      · have hlong := ScientificBbrController.onAcked_leaves hc' hleaves.1 hleaves.2
        exact hlong.trans (Instant.since_anti (hstamp a ha hprobes))

omit [F64Calc F] in
/-- The phase after the drain is the last one. -/
theorem BbrRun.Sound.drains (h : s.Sound) :
    (s.log.filter fun e => e.before = .drain).length ≤ 1 := by
  have hnone : (s.log.filter fun e => e.before = .drain).Pairwise fun _ _ => False := by
    refine (h.follows.filter _).imp_of_mem fun {a b} ha hb hab => ?_
    obtain ⟨ha, hdrain⟩ := List.mem_filter.mp ha
    have hlast := h.drain a ha (of_decide_eq_true hdrain)
    have hphase := hab.phase
    rw [hlast, of_decide_eq_true (List.mem_filter.mp hb).2] at hphase
    exact absurd hphase (by decide)
  generalize (s.log.filter fun e => e.before = .drain) = drains at hnone ⊢
  rcases drains with _ | ⟨a, _ | ⟨b, rest⟩⟩
  · exact Nat.zero_le 1
  · exact le_rfl
  · exact ((List.pairwise_cons.mp hnone).1 b List.mem_cons_self).elim

/--
**The phases of a controller.** In every run of acknowledgements in the order of their times, the
controller starts up, drains for one acknowledgement at most and then probes, without going back.
Probes for the round trip begin more than 10 s after each other and last 200 ms at least. The index
into the table of gains stays within the table.
-/
theorem phases_of_reach {config : SciBbrConfig F} {start : Instant} {mtu : Nat}
    (h : (bbr F earliest).Reach BbrRun.Ordered (.new config start mtu) s) :
    s.log.Pairwise (fun a b => a.after.phase ≤ b.before.phase) ∧
      (∀ e ∈ s.log, e.before.phase ≤ e.after.phase) ∧
      (s.log.filter fun e => e.before = .drain).length ≤ 1 ∧
      s.log.Pairwise (fun a b => a.Probes →
        (b.Probes → 10 * 1000000000 < b.now.since a.now) ∧
        (b.Leaves → 200 * 1000000 ≤ b.now.since a.now)) ∧
      s.controller.probeBwCycleIdx < 8 := by
  have hsound : s.Sound :=
    h.invariant (BbrRun.Sound.new config start mtu) fun hs hok hstep => hs.step hok hstep
  exact ⟨hsound.follows.imp fun hab => hab.phase, hsound.forward, hsound.drains, hsound.follows.imp
    fun hab hprobes => ⟨hab.probes hprobes, hab.leaves hprobes⟩, hsound.cycle⟩

end Runs

/-- Four equal rates end the startup; after 10 s the round trip is probed for 300 ms. -/
def samplePhases : List BbrLabel :=
  [.ack 1000 100000000 1000000 false, .ack 1000 100000000 2000000 false,
    .ack 1000 100000000 3000000 false, .ack 1000 100000000 4000000 false,
    .ack 1000 100000000 5000000 false, .ack 1000 100000000 10100000000 false,
    .ack 1000 100000000 10400000000 false]

theorem sample_phases :
    ∃ s, (bbr ℚ linuxEarliest).Reach BbrRun.Ordered (.new .default 0 1200) s ∧
      s.log.map Transition.after =
        [.startup, .startup, .startup, .drain, .probeBw, .probeRtt, .probeBw] ∧
      (s.log.filter fun e => e.before = .drain).length ≤ 1 ∧
      s.controller.probeBwCycleIdx < 8 := by
  have hexec : ((bbr ℚ linuxEarliest).execWhere (fun s label => decide (s.Ordered label))
      (.new .default 0 1200) samplePhases).map (fun s => s.log.map Transition.after) =
        some [.startup, .startup, .startup, .drain, .probeBw, .probeRtt, .probeBw] := by
    decide +kernel
  obtain ⟨s, hs, hlog⟩ := Option.map_eq_some_iff.mp hexec
  have hreach : (bbr ℚ linuxEarliest).Reach BbrRun.Ordered (.new .default 0 1200) s :=
    (Lts.Reach.of_execWhere hs).mono of_decide_eq_true
  obtain ⟨-, -, hdrains, -, hcycle⟩ := phases_of_reach hreach
  exact ⟨s, hreach, hlog, hdrains, hcycle⟩

/-! ## Floats that round -/

instance (R : FloatOps) : F64Calc (Fl R) where
  powi a n := .ofRat (a.val ^ n)

section Rounded

variable {R : FloatOps} {earliest : Instant} {s s' : BbrRun (Fl R)}

/-- A factor of three quarters or more leaves three quarters. -/
theorem natCast_le_mul {n k : Nat} (hn : n ≤ 2 ^ 53) (hk : 4 * k ≤ 3 * n) {x gain : Fl R}
    (hx : (n : Fl R) ≤ x) (hgain : 0.75 ≤ gain) : (k : Fl R) ≤ x * gain := by
  have hval : (0.75 : Fl R).val = 3 / 4 := by
    show R.rnd (0.75 : ℚ) = 3 / 4
    have hexact := R.exact 3 (-2) (by norm_num)
    norm_num at hexact ⊢
    exact hexact
  have hxn : (n : ℚ) ≤ x.val := by
    rw [← Fl.val_natCast (R := R) hn]
    exact Fl.le_def.mp hx
  have hquarters : (k : ℚ) ≤ n * (3 / 4) := by
    have hcast : (4 : ℚ) * k ≤ 3 * n := by exact_mod_cast hk
    linarith
  refine Fl.ofRat_le (hquarters.trans ?_)
  rw [← hval]
  exact mul_le_mul hxn (Fl.le_def.mp hgain) (by rw [hval]; norm_num)
    (hxn.trans' (Nat.cast_nonneg n))

namespace ScientificBbrController

variable {c : ScientificBbrController (Fl R)}

theorem gains_ge (i : Nat) :
    (0.75 : Fl R) ≤ ScientificCongestionController.gains i := by
  unfold ScientificCongestionController.gains
  split
  · exact Fl.literal_le (by norm_num)
  · exact le_rfl
  · exact Fl.literal_le (by norm_num)

/-- In every state but one the window has room for four packets. -/
theorem updateState_cwnd (hconfig : c.config = .default) (hmtu : c.mtu < 2 ^ 16)
    (hbdp : c.mtu * 4 ≤ c.bdp) (hdrain : c.state ≠ .drain) (previousMax : Fl R) (now : Instant)
    (appLimited : Bool) : c.mtu * 4 ≤ (c.updateState previousMax now appLimited).cwnd := by
  have hcast : ((c.mtu * 4 : Nat) : Fl R) ≤ (c.bdp : Fl R) := Fl.natCast_mono hbdp
  have hbdp0 : (0 : Fl R) ≤ c.bdp := Fl.nonneg_natCast _
  have hscale : (0.75 : Fl R) ≤ if appLimited then 0.9 else 1.0 := by
    split <;> exact Fl.literal_le (by norm_num)
  -- a gain of two makes up for the two factors below one
  have hprobe : ∀ i : Nat, c.mtu * 4 ≤ F64Arith.toU64 (2.0 * (c.bdp : Fl R) *
      ScientificCongestionController.gains i * if appLimited then 0.9 else 1.0) := by
    intro i
    have htwo : (2.0 : Fl R).val = (2 : ℕ) := Fl.val_literal (by norm_num) (by norm_num)
    have hdouble : ((c.mtu * 8 : Nat) : Fl R) ≤ 2.0 * (c.bdp : Fl R) := by
      refine Fl.ofRat_le ?_
      rw [htwo]
      have hval := Fl.le_def.mp hcast
      rw [Fl.val_natCast (by omega)] at hval
      push_cast at hval ⊢
      linarith
    have hgain : ((c.mtu * 6 : Nat) : Fl R) ≤ _ :=
      natCast_le_mul (by omega) (by omega) hdouble (gains_ge i)
    exact le_toU64 (by omega) (natCast_le_mul (by omega) (by omega) hgain hscale)
  unfold updateState
  rw [hconfig]
  cases hstate : c.state with
  | startup =>
    refine le_toU64 (by omega) (hcast.trans ?_)
    have hgain : (c.bdp : Fl R) ≤ 2.885 * c.bdp := by
      have hmono := Fl.mul_mono_right hbdp0
        (Fl.one_le_literal (by norm_num) : (1 : Fl R) ≤ 2.885)
      rwa [Fl.one_mul'] at hmono
    exact hgain.trans (Fl.le_mul_of_one_le (hbdp0.trans hgain) (Fl.one_le_literal (by norm_num)))
  | drain => exact absurd hstate hdrain
  | probeBw =>
    dsimp only
    split
    · exact hprobe _
    · rw [hconfig]
      exact hprobe _
  | probeRtt => exact le_max_right _ _

theorem onAcked_cwnd {c' : ScientificBbrController (Fl R)} {bytes rtt : Nat} {now : Instant}
    {appLimited : Bool} (h : c.onAcked earliest bytes rtt now appLimited = some c')
    (hconfig : c.config = .default) (hmtu : c.mtu < 2 ^ 16) (hdrain : c.state ≠ .drain) :
    c.mtu * 4 ≤ c'.cwnd := by
  obtain ⟨hconfig', hmtu', -, -⟩ := c.measured_counted earliest bytes rtt now appLimited
  have hbdp : (c.measured earliest bytes rtt now appLimited).mtu * 4 ≤
      (c.measured earliest bytes rtt now appLimited).bdp := le_max_right _ _
  have hstate : (c.measured earliest bytes rtt now appLimited).state ≠ .drain := by
    rw [measured_state]
    split
    · nofun
    · exact hdrain
  rw [onAcked_eq h, ← hmtu']
  exact updateState_cwnd (hconfig'.trans hconfig) (hmtu'.trans_lt hmtu) hbdp hstate _ _ _

end ScientificBbrController

/-- The sizes of packets are `u16`. -/
def BbrLabel.Fits : BbrLabel → Prop
  | .ack _ _ _ _ => True
  | .mtuUpdate newMtu => newMtu < 2 ^ 16

/-- Four packets fit, or the last acknowledgement drained the window. -/
structure BbrRun.Roomy (s : BbrRun (Fl R)) : Prop where
  config : s.controller.config = .default
  mtu : s.controller.mtu < 2 ^ 16
  room : s.controller.mtu * 4 ≤ s.controller.cwnd ∨ ∃ e ∈ s.log.getLast?, e.before = .drain

theorem BbrRun.Roomy.step {label : BbrLabel} (h : s.Roomy) (hok : label.Fits)
    (hstep : s.step earliest label = some s') : s'.Roomy := by
  cases label with
  | mtuUpdate newMtu =>
    cases hstep
    exact ⟨h.config, hok, Or.inl (le_max_right _ _)⟩
  | ack bytes rtt now appLimited =>
    obtain ⟨c', hc', rfl⟩ := Option.map_eq_some_iff.mp hstep
    have hcounted := ScientificBbrController.onAcked_counted hc'
    refine ⟨hcounted.config.trans h.config, hcounted.mtu.trans_lt h.mtu, ?_⟩
    by_cases hdrain : s.controller.state = .drain
    · exact Or.inr ⟨_, List.getLast?_concat, hdrain⟩
    · refine Or.inl ?_
      rw [BbrRun.controller_push, hcounted.mtu]
      exact ScientificBbrController.onAcked_cwnd hc' h.config h.mtu hdrain

/--
**The window has room for four packets.** With the default configuration, however the floats round,
the window is never below four packets of the current size, apart from the time between the one
acknowledgement that is handled while draining and the next one, when it is two.
-/
theorem window_of_reach {start : Instant} {mtu : Nat} (hmtu : mtu < 2 ^ 16)
    (h : (bbr (Fl R) earliest).Reach (fun _ label => label.Fits) (.new .default start mtu) s) :
    s.controller.mtu * 2 ≤ s.controller.window ∧
      (s.controller.mtu * 4 ≤ s.controller.window ∨ ∃ e ∈ s.log.getLast?, e.before = .drain) := by
  have hnew : (BbrRun.new (.default : SciBbrConfig (Fl R)) start mtu).Roomy :=
    ⟨rfl, hmtu, Or.inl (by show mtu * 4 ≤ 10 * mtu; omega)⟩
  have hroomy : s.Roomy := h.invariant hnew fun hs hok hstep => hs.step hok hstep
  exact ⟨le_max_right _ _, hroomy.room.imp_left fun hroom => hroom.trans (le_max_left _ _)⟩

theorem sample_window :
    ∃ s, (bbr (Fl binary64) linuxEarliest).exec (.new .default 0 1200)
        [.ack 12000 20000000 1000000 false, .mtuUpdate 1400] = some s ∧
      s.controller.mtu * 2 ≤ s.controller.window := by
  obtain ⟨s, hs⟩ : ∃ s, (bbr (Fl binary64) linuxEarliest).exec (.new .default 0 1200)
    [.ack 12000 20000000 1000000 false, .mtuUpdate 1400] = some s := ⟨_, rfl⟩
  have hfits : ∀ label ∈ [BbrLabel.ack 12000 20000000 1000000 false, .mtuUpdate 1400],
      label.Fits := by
    rw [List.forall_mem_cons, List.forall_mem_singleton]
    exact ⟨trivial, (by decide : 1400 < 2 ^ 16)⟩
  exact ⟨s, hs, (window_of_reach (by decide : 1200 < 2 ^ 16)
    (.of_exec_forall (fun l hl _ => hfits l hl) hs)).1⟩

/-! ## An idle application -/

/-- The application was the limit in this acknowledgement. -/
def BbrLabel.Limited : BbrLabel → Prop
  | .ack _ _ _ appLimited => appLimited = true
  | .mtuUpdate _ => True

def BbrLabel.isAck : BbrLabel → Bool
  | .ack _ _ _ _ => true
  | .mtuUpdate _ => false

namespace ScientificBbrController

variable {c c' : ScientificBbrController (Fl R)} {bytes rtt : Nat} {now : Instant}

theorem onAcked_limited (h : c.onAcked earliest bytes rtt now true = some c') :
    c'.maxBandwidthBps = c.maxBandwidthBps := by
  have hfilters := filters_updateState (c.measured earliest bytes rtt now true)
    c.maxBandwidthBps now true
  obtain ⟨-, -, hmax⟩ := updateMinRtt_frame (c.updateBandwidth earliest bytes now true) rtt now
  rw [onAcked_eq h]
  exact (congrArg (fun f => f.2.2.1) hfilters).trans hmax

/-- The bandwidth that is not measured does not grow, so the round counts. -/
theorem onAcked_limited_rounds (h : c.onAcked earliest bytes rtt now true = some c')
    (hmax : 0 ≤ c.maxBandwidthBps) (hstartup : c'.state = .startup) :
    c'.startupRoundsWithoutGrowth = c.startupRoundsWithoutGrowth + 1 := by
  have hbefore : c.state = .startup := BbrState.eq_startup (hstartup ▸ (onAcked_phase h).1)
  have hmeasured : (c.measured earliest bytes rtt now true).state = .startup := by
    rw [onAcked_state h, nextState] at hstartup
    rw [measured_state]
    split at hstartup
    · cases hstartup
    · next hexpired => rw [if_neg hexpired, hbefore]
  have hgrowth : F64Arith.le (c.measured earliest bytes rtt now true).maxBandwidthBps
      (c.maxBandwidthBps * 1.05) = true := by
    have hkept : (c.measured earliest bytes rtt now true).maxBandwidthBps = c.maxBandwidthBps :=
      (updateMinRtt_frame (c.updateBandwidth earliest bytes now true) rtt now).2.2
    rw [hkept]
    exact decide_eq_true (Fl.le_mul_of_one_le hmax (Fl.one_le_literal (by norm_num)))
  rw [onAcked_eq h]
  show (updateState _ _ _ _).startupRoundsWithoutGrowth = _
  unfold updateState
  rw [hmeasured]
  dsimp only
  rw [if_pos hgrowth, (c.measured_counted earliest bytes rtt now true).2.2.2]

end ScientificBbrController

/-- What the startup counts on. -/
structure BbrRun.Starting (s : BbrRun (Fl R)) : Prop where
  nonneg : 0 ≤ s.controller.maxBandwidthBps
  rounds : s.controller.state = .startup → s.controller.startupRoundsWithoutGrowth < 3

theorem BbrRun.Starting.step {label : BbrLabel} (h : s.Starting)
    (hstep : s.step earliest label = some s') : s'.Starting := by
  cases label with
  | mtuUpdate newMtu =>
    cases hstep
    exact ⟨h.nonneg, h.rounds⟩
  | ack bytes rtt now appLimited =>
    obtain ⟨c', hc', rfl⟩ := Option.map_eq_some_iff.mp hstep
    refine ⟨?_, ScientificBbrController.onAcked_startup hc'⟩
    cases appLimited with
    | true => exact (ScientificBbrController.onAcked_limited hc').symm ▸ h.nonneg
    | false =>
      have hzero : (0 : Fl R) ≤ 0.0 := Fl.ofRat_nonneg (by norm_num)
      show 0 ≤ c'.maxBandwidthBps
      rw [(ScientificBbrController.onAcked_acked hc').maxBandwidth rfl]
      exact hzero.trans (foldl_max_le_iff.mp le_rfl).1

/-- The startup is not entered again. -/
theorem BbrRun.startup_left {ok : BbrRun (Fl R) → BbrLabel → Prop}
    (h : (bbr (Fl R) earliest).Reach ok s s') (hs : s.controller.state ≠ .startup) :
    s'.controller.state ≠ .startup := by
  induction h with
  | refl => exact hs
  | @step s₁ s₂ label _ _ hstep hne =>
    cases label with
    | mtuUpdate newMtu =>
      cases hstep
      exact hne
    | ack bytes rtt now appLimited =>
      obtain ⟨c', hc', rfl⟩ := Option.map_eq_some_iff.mp hstep
      intro hstartup
      have hafter : c'.state = .startup := hstartup
      exact hne (BbrState.eq_startup (hafter ▸ (ScientificBbrController.onAcked_phase hc').1))

/-- Every acknowledgement counts as one without growth. -/
theorem BbrRun.Starting.limited :
    ∀ (labels : List BbrLabel) {s : BbrRun (Fl R)}, s.Starting → (∀ l ∈ labels, l.Limited) →
      (bbr (Fl R) earliest).exec s labels = some s' → s'.controller.state = .startup →
      s.controller.startupRoundsWithoutGrowth + labels.countP BbrLabel.isAck ≤
        s'.controller.startupRoundsWithoutGrowth
  | [], s, _, _, hexec, _ => by
    cases hexec
    exact le_rfl
  | label :: rest, s, h, hlimited, hexec, hstartup => by
    unfold Lts.exec at hexec
    cases hstep : (bbr (Fl R) earliest).step s label with
    | none => rw [hstep] at hexec; cases hexec
    | some s₁ =>
      rw [hstep] at hexec
      have ih := BbrRun.Starting.limited rest (h.step hstep)
        (fun l hl => hlimited l (List.mem_cons_of_mem _ hl)) hexec hstartup
      cases label with
      | mtuUpdate newMtu =>
        cases hstep
        rwa [List.countP_cons_of_neg Bool.false_ne_true]
      | ack bytes rtt now appLimited =>
        obtain rfl : appLimited = true := hlimited _ List.mem_cons_self
        obtain ⟨c', hc', rfl⟩ := Option.map_eq_some_iff.mp hstep
        have hfirst : c'.state = .startup := by
          by_contra hne
          exact BbrRun.startup_left (.of_exec hexec) hne hstartup
        have hrounds := ScientificBbrController.onAcked_limited_rounds hc' h.nonneg hfirst
        rw [List.countP_cons_of_pos rfl]
        rw [BbrRun.controller_push, hrounds] at ih
        omega

/--
**An idle application ends the startup.** Wherever a run stands, it is not in startup any more after
three acknowledgements in a row in which the application was the limit: these do not measure the
bandwidth, but they count as rounds in which it has not grown.
-/
theorem app_limited_ends_startup {config : SciBbrConfig (Fl R)} {start : Instant} {mtu : Nat}
    (h : (bbr (Fl R) earliest).Reach (fun _ _ => True) (.new config start mtu) s)
    {labels : List BbrLabel} (hlimited : ∀ l ∈ labels, l.Limited)
    (hacks : 3 ≤ labels.countP BbrLabel.isAck)
    (hexec : (bbr (Fl R) earliest).exec s labels = some s') :
    s'.controller.state ≠ .startup := by
  have hnew : (BbrRun.new config start mtu).Starting :=
    ⟨Fl.ofRat_nonneg (by norm_num), fun _ => Nat.zero_lt_succ 2⟩
  have hstarting : s.Starting := h.invariant hnew fun hs _ hstep => hs.step hstep
  have hstarting' : s'.Starting :=
    (Lts.Reach.of_exec hexec).invariant hstarting fun hs _ hstep => hs.step hstep
  intro hstartup
  have hcount := BbrRun.Starting.limited labels hstarting hlimited hexec hstartup
  have hrounds := hstarting'.rounds hstartup
  omega

/-- Three acknowledgements of an idle application. -/
def sampleIdle : List BbrLabel :=
  [.ack 100 20000000 1000000 true, .ack 100 20000000 2000000 true,
    .ack 100 20000000 3000000 true]

theorem sample_idle :
    ∃ s, (bbr (Fl binary64) linuxEarliest).exec (.new .default 0 1200) sampleIdle = some s ∧
      s.controller.state ≠ .startup := by
  have hexec : ((bbr (Fl binary64) linuxEarliest).exec (.new .default 0 1200)
      sampleIdle).isSome := by decide +kernel
  obtain ⟨s, hs⟩ := Option.isSome_iff_exists.mp hexec
  have hlimited : sampleIdle.Forall BbrLabel.Limited := ⟨rfl, rfl, rfl⟩
  exact ⟨s, hs, app_limited_ends_startup .refl
    (fun l hl => List.forall_iff_forall_mem.mp hlimited l hl) (by decide) hs⟩

end Rounded

end ScTransport.SctCore
