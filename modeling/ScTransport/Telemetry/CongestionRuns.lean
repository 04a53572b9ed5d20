import ScTransport.Telemetry.Congestion
import ScTransport.Protocol.Types
import ScTransport.Infra.Binary64
import ScTransport.Infra.Window

/-!
# Runs of the telemetry congestion controller

The bandwidth of `ScientificCongestionController` is filtered over a window of three seconds, and
its window of bytes is drained after the startup until it fits the bandwidth-delay product. Floats
are rounded in any way.

* `bandwidth_of_reach` — what the bandwidth is, in every run
* `drain_ends` — every drain ends after a bounded number of acknowledgements
-/

namespace ScTransport

open Infra

/-! ## Floats that round -/

instance (R : FloatOps) : F64Arith (Fl R) where
  le a b := decide (a ≤ b)
  toU64 a := min a.toNat u64Max
  asSecs := Fl.asSecs

theorem le_toU64 {R : FloatOps} {n : Nat} (hn : n ≤ 2 ^ 53) {x : Fl R} (h : (n : Fl R) ≤ x) :
    n ≤ F64Arith.toU64 x := by
  refine le_min (Fl.le_toNat ?_) (hn.trans (by decide))
  rw [← Fl.val_natCast hn]
  exact Fl.le_def.mp h

theorem toU64_le {R : FloatOps} {n : Nat} {x : Fl R} (h : x.val ≤ n) : F64Arith.toU64 x ≤ n :=
  (min_le_left _ _).trans (Fl.toNat_le h)

/-! ## The window of the bandwidth -/

namespace ScientificCongestionController

variable {F : Type} [F64Arith F] {c : ScientificCongestionController F}

omit [F64Arith F] in
theorem dropExpired_eq (now : Instant) (window : Nat) (samples : List (Instant × F)) :
    dropExpired now window samples =
      samples.dropWhile fun s => s.1 < now - (window : Int) := by
  induction samples with
  | nil => rfl
  | cons s rest ih =>
    obtain ⟨ts, rate⟩ := s
    have hiff : window < now.since ts ↔ ts < now - (window : Int) := by
      show window < (now - ts).toNat ↔ _
      rw [Int.lt_toNat]
      exact lt_sub_comm
    unfold dropExpired
    by_cases hold : window < now.since ts
    · rw [if_pos hold, ih, List.dropWhile_cons_of_pos]
      simpa [← hiff] using hold
    · rw [if_neg hold, List.dropWhile_cons_of_neg]
      simpa [← hiff] using hold

/-- The parts of the controller that the filter of the bandwidth is about. -/
def filter (c : ScientificCongestionController F) : Nat × List (Instant × F) × F :=
  (c.bwWindowDuration, c.bwSamples, c.maxBandwidthBps)

omit [F64Arith F] in
theorem filter_updateRttModel (rtt : Nat) (now : Instant) :
    (c.updateRttModel rtt now).filter = c.filter := by
  unfold updateRttModel
  split
  · rfl
  · split <;> rfl

theorem filter_transitionState (now : Instant) (previousBw : F) :
    (c.transitionState now previousBw).filter = c.filter := by
  unfold transitionState
  cases c.state with
  | startup => rfl
  | drain => dsimp only; split <;> rfl
  | probeBw gain => dsimp only; split <;> rfl
  | probeRtt enteredAt => dsimp only; split <;> rfl

theorem filter_updateCwnd : c.updateCwnd.filter = c.filter := by
  unfold updateCwnd
  cases c.state <;> rfl

/-- What an acknowledgement leaves in the window. -/
theorem onAck_filter (c : ScientificCongestionController F) (now : Instant) (bytes rtt : Nat) :
    (c.onAck now bytes rtt).filter = (c.updateBandwidthModel bytes rtt now).filter := by
  show (updateCwnd _).filter = _
  rw [filter_updateCwnd, filter_transitionState, filter_updateRttModel]

theorem updateBandwidthModel_samples (c : ScientificCongestionController F) (bytes rtt : Nat)
    (now : Instant) :
    (c.updateBandwidthModel bytes rtt now).bwSamples =
      pushSince (now - (c.bwWindowDuration : Int)) c.bwSamples now (deliveryRate bytes rtt) :=
  dropExpired_eq now c.bwWindowDuration _

end ScientificCongestionController

/-! ## Runs -/

section Runs

variable {F : Type} [F64Arith F] {r r' : BbrRun F}

/-- The window, in terms of all acknowledgements so far. -/
structure BbrRun.Filtered (r : BbrRun F) : Prop where
  duration : r.controller.bwWindowDuration = 3 * 1000000000
  ordered : TimeOrdered r.rates
  past : ∀ s ∈ r.rates, ∃ t ∈ r.lastAck, s.1 ≤ t
  latest : ∀ t ∈ r.lastAck, ∃ rate, (t, rate) ∈ r.rates
  kept : KeptSince r.controller.bwSamples r.rates
    (r.lastAck.toList.map fun t => t - (3 * 1000000000 : Int))
  greatest : r.controller.maxBandwidthBps = (r.controller.bwSamples.map Prod.snd).foldl max 0.0

theorem BbrRun.Filtered.step {label : BbrLabel} (h : r.Filtered) (hok : r.Ordered label) :
    (r.step label).Filtered := by
  cases label with
  | congestionEvent clock => exact ⟨h.duration, h.ordered, h.past, h.latest, h.kept, h.greatest⟩
  | mtuUpdate newMtu => exact ⟨h.duration, h.ordered, h.past, h.latest, h.kept, h.greatest⟩
  | ack now bytes rtt =>
    have hfilter := r.controller.onAck_filter now bytes rtt
    simp only [ScientificCongestionController.filter, Prod.mk.injEq] at hfilter
    obtain ⟨hduration, hsamples, hmax⟩ := hfilter
    have hnow : ∀ s ∈ r.rates, s.1 ≤ now := fun s hs => by
      obtain ⟨t, ht, hle⟩ := h.past s hs
      exact hle.trans (hok t ht)
    have hpast : ∀ c ∈ r.lastAck.toList.map (fun t => t - (3 * 1000000000 : Int)),
        c ≤ now - (3 * 1000000000 : Int) := by
      intro c hc
      obtain ⟨t, ht, rfl⟩ := List.mem_map.mp hc
      exact Int.sub_le_sub_right (hok t (Option.mem_toList.mp ht)) _
    refine ⟨hduration.trans h.duration, h.ordered.push hnow _, ?_, ?_, ?_, ?_⟩
    · show ∀ s ∈ r.rates ++ [_], ∃ t ∈ some now, s.1 ≤ t
      rw [List.forall_mem_append, List.forall_mem_singleton]
      exact ⟨fun s hs => ⟨now, rfl, hnow s hs⟩, now, rfl, le_rfl⟩
    · rintro t ⟨⟩
      exact ⟨_, List.mem_append_right _ (List.mem_singleton_self _)⟩
    · show KeptSince (r.controller.onAck now bytes rtt).bwSamples _ [now - (3 * 1000000000 : Int)]
      rw [hsamples, ScientificCongestionController.updateBandwidthModel_samples, h.duration]
      refine (h.kept.push h.ordered hnow (fun c hc => ?_) _).last hpast
      exact (hpast c hc).trans (Int.sub_le_self _ (by decide))
    · show (r.controller.onAck now bytes rtt).maxBandwidthBps =
        ((r.controller.onAck now bytes rtt).bwSamples.map Prod.snd).foldl max 0.0
      rw [hmax, hsamples]
      rfl

end Runs

section Rounded

variable {R : FloatOps} {r r' : BbrRun (Fl R)} {config : SciBbrConfig (Fl R)} {start : Instant}
  {mtu : Nat}

theorem deliveryRate_nonneg (bytes rtt : Nat) :
    (0 : Fl R) ≤ ScientificCongestionController.deliveryRate bytes rtt :=
  Fl.nonneg_mul (Fl.nonneg_div (Fl.nonneg_natCast bytes)
    ((Fl.nonneg_asSecs rtt).trans (le_max_left _ _))) (Fl.pos_literal (by norm_num)).le

theorem BbrRun.nonneg_of_reach
    (h : (bbr (Fl R)).Reach BbrRun.Ordered (.new config start mtu) r) :
    ∀ s ∈ r.rates, 0 ≤ s.2 := by
  induction h with
  | refl => nofun
  | @step r₁ r₂ label _ _ hstep ih =>
    cases hstep
    cases label with
    | ack now bytes rtt =>
      show ∀ s ∈ r₁.rates ++ [_], 0 ≤ s.2
      rw [List.forall_mem_append, List.forall_mem_singleton]
      exact ⟨ih, deliveryRate_nonneg bytes rtt⟩
    | congestionEvent clock => exact ih
    | mtuUpdate newMtu => exact ih

/--
**The bandwidth of the last three seconds.** In every run of acknowledgements in the order of their
times, with losses and new packet sizes in between, the bandwidth is the largest delivery rate of
the acknowledgements that are at most three seconds older than the last one.
-/
theorem bandwidth_of_reach
    (h : (bbr (Fl R)).Reach BbrRun.Ordered (.new config start mtu) r) (t : Instant)
    (ht : t ∈ r.lastAck) :
    IsGreatest { rate | ∃ t', (t', rate) ∈ r.rates ∧ t - (3 * 1000000000 : Int) ≤ t' }
      r.controller.maxBandwidthBps := by
  have hnew : (BbrRun.new config start mtu).Filtered :=
    ⟨rfl, List.Pairwise.nil, nofun, nofun, rfl, rfl⟩
  have hfiltered : r.Filtered := h.invariant hnew fun hr hok hstep => by
    cases hstep
    exact hr.step hok
  have hmem : ∀ s, s ∈ r.controller.bwSamples ↔
      s ∈ r.rates ∧ t - (3 * 1000000000 : Int) ≤ s.1 := by
    intro s
    rw [hfiltered.kept.mem_iff, Option.mem_def.mp ht]
    simp
  have hset : { rate | ∃ t', (t', rate) ∈ r.rates ∧ t - (3 * 1000000000 : Int) ≤ t' } =
      { rate | rate ∈ r.controller.bwSamples.map Prod.snd } := by
    ext rate
    constructor
    · rintro ⟨t', hrate, hle⟩
      exact List.mem_map.mpr ⟨(t', rate), (hmem _).mpr ⟨hrate, hle⟩, rfl⟩
    · intro hrate
      obtain ⟨s, hs, rfl⟩ := List.mem_map.mp hrate
      exact ⟨s.1, (hmem s).mp hs⟩
  obtain ⟨rate, hrate⟩ := hfiltered.latest t ht
  have hlast : (t, rate) ∈ r.controller.bwSamples :=
    (hmem _).mpr ⟨hrate, Int.sub_le_self _ (by decide)⟩
  rw [hset, hfiltered.greatest]
  refine isGreatest_foldl_max ?_ ?_
  · exact List.ne_nil_of_mem (List.mem_map_of_mem hlast)
  · intro x hx
    obtain ⟨s, hs, rfl⟩ := List.mem_map.mp hx
    have hzero : (0.0 : Fl R) ≤ 0 := Fl.ofRat_nonpos (by norm_num)
    exact hzero.trans (BbrRun.nonneg_of_reach h s ((hmem s).mp hs).1)

/-- Two acknowledgements four seconds apart, and a loss in between. -/
theorem sample_bandwidth :
    ∃ r : BbrRun (Fl binary64),
      (bbr (Fl binary64)).exec (.new .default 0 1200) [.ack 1000000 14520 100000000,
        .congestionEvent 0, .ack 4001000000 1452 100000000] = some r ∧
      IsGreatest { rate | ∃ t, (t, rate) ∈ r.rates ∧ 1001000000 ≤ t }
        r.controller.maxBandwidthBps := by
  refine ⟨_, rfl, bandwidth_of_reach (((Lts.Reach.refl.step (l := .ack _ _ _) ?_ rfl).step
    (l := .congestionEvent _) trivial rfl).step (l := .ack _ _ _) ?_ rfl) 4001000000 rfl⟩
  · nofun
  · rintro t ⟨⟩
    decide

end Rounded

/-! ## Draining -/

/-- How far a controller is. -/
def BbrState.phase {F : Type} : BbrState F → Nat
  | .startup => 0
  | .drain => 1
  | .probeBw _ => 2
  | .probeRtt _ => 2

namespace ScientificCongestionController

section Phase

variable {F : Type} [F64Arith F] {c : ScientificCongestionController F}

/-- The controller before its state is updated. -/
def measured (c : ScientificCongestionController F) (now : Instant) (bytes rtt : Nat) :
    ScientificCongestionController F :=
  (c.updateBandwidthModel bytes rtt now).updateRttModel rtt now

theorem measured_frame (c : ScientificCongestionController F) (now : Instant) (bytes rtt : Nat) :
    (c.measured now bytes rtt).state = c.state ∧ (c.measured now bytes rtt).cwnd = c.cwnd ∧
      (c.measured now bytes rtt).config = c.config := by
  unfold measured updateRttModel
  split
  · exact ⟨rfl, rfl, rfl⟩
  · split <;> exact ⟨rfl, rfl, rfl⟩

theorem phase_updateCwnd : c.updateCwnd.state.phase = c.state.phase := by
  unfold updateCwnd
  cases c.state <;> rfl

theorem phase_transitionState (now : Instant) (previousBw : F) :
    c.state.phase ≤ (c.transitionState now previousBw).state.phase := by
  unfold transitionState
  cases hstate : c.state with
  | startup => exact Nat.zero_le _
  | drain =>
    dsimp only
    split
    · exact Nat.le_succ 1
    · exact (congrArg BbrState.phase hstate).ge
  | probeBw gain =>
    dsimp only
    split
    · exact le_rfl
    · exact (congrArg BbrState.phase hstate).ge
  | probeRtt enteredAt =>
    dsimp only
    split
    · exact le_rfl
    · exact (congrArg BbrState.phase hstate).ge

/-- An acknowledgement: measurements, a step of the state machine and the window of the state. -/
theorem onAck_fields (now : Instant) (bytes rtt : Nat) :
    (c.onAck now bytes rtt).state =
        ((c.measured now bytes rtt).transitionState now c.maxBandwidthBps).updateCwnd.state ∧
      (c.onAck now bytes rtt).cwnd =
        max ((c.measured now bytes rtt).transitionState now c.maxBandwidthBps).updateCwnd.cwnd
          (2 * ((c.measured now bytes rtt).transitionState now
            c.maxBandwidthBps).updateCwnd.config.maxSegmentSize) := ⟨rfl, rfl⟩

theorem phase_onAck (now : Instant) (bytes rtt : Nat) :
    c.state.phase ≤ (c.onAck now bytes rtt).state.phase := by
  have hstate := (c.measured_frame now bytes rtt).1
  show _ ≤ (updateCwnd _).state.phase
  rw [phase_updateCwnd, ← hstate]
  exact phase_transitionState now _

omit [F64Arith F] in
theorem phase_le_two (state : BbrState F) : state.phase ≤ 2 := by
  cases state <;> simp [BbrState.phase]

end Phase

section Rounded

variable {R : FloatOps} {c : ScientificCongestionController (Fl R)}

/-- A drain leaves half of the window at most, up to the next power of two. -/
theorem toU64_drain {bdp k : Nat} (h : bdp ≤ 2 ^ (k + 1)) :
    F64Arith.toU64 ((bdp : Fl R) * 0.35) ≤ 2 ^ k := by
  have hbdp : (bdp : Fl R).val ≤ 2 ^ (k + 1) := by
    simpa using Fl.val_natCast_le (R := R) (m := 1) (k := k + 1) (by norm_num) (by simpa using h)
  have hhalf : (0.5 : Fl R).val = 1 / 2 := by
    show R.rnd (0.5 : ℚ) = 1 / 2
    have hexact := R.rnd_two_zpow (-1)
    norm_num at hexact ⊢
    exact hexact
  have hless : (bdp : Fl R) * 0.35 ≤ (bdp : Fl R) * 0.5 :=
    Fl.mul_mono_left (Fl.nonneg_natCast bdp) (Fl.literal_le (by norm_num))
  refine toU64_le ((Fl.le_def.mp hless).trans ?_)
  calc R.rnd ((bdp : Fl R).val * (0.5 : Fl R).val)
      ≤ R.rnd (2 ^ (k + 1) * (1 / 2)) := by
        rw [hhalf]
        exact R.mono (mul_le_mul_of_nonneg_right hbdp (by norm_num))
    _ = R.rnd (2 ^ (k : ℤ)) := by
        rw [pow_succ, mul_assoc, zpow_natCast]
        norm_num
    _ = ((2 ^ k : Nat) : ℚ) := by
        rw [R.rnd_two_zpow, zpow_natCast]
        push_cast
        rfl

/-- **One acknowledgement of a drain.** It ends the drain or makes the window smaller. -/
theorem onAck_drain (hconfig : c.config = .default) (hstate : c.state = .drain) (now : Instant)
    (bytes rtt : Nat) {k : Nat} (hk : 12 ≤ k) (hcwnd : c.cwnd ≤ 2 ^ (k + 1)) :
    (c.onAck now bytes rtt).state.phase = 2 ∨
      14520 < c.cwnd ∧ (c.onAck now bytes rtt).state = .drain ∧
        (c.onAck now bytes rtt).cwnd ≤ 2 ^ k := by
  obtain ⟨hstate', hcwnd', hconfig'⟩ := c.measured_frame now bytes rtt
  rw [hstate] at hstate'
  rw [hconfig] at hconfig'
  obtain ⟨hstate₁, hcwnd₁⟩ := c.onAck_fields now bytes rtt
  by_cases hfits : (c.measured now bytes rtt).cwnd ≤ (c.measured now bytes rtt).bdp
  · refine Or.inl ?_
    have htransition : ((c.measured now bytes rtt).transitionState now c.maxBandwidthBps).state =
        .probeBw 1.0 := by
      unfold transitionState
      rw [hstate']
      simp only [if_pos hfits]
    rw [hstate₁, phase_updateCwnd, htransition]
    rfl
  · refine Or.inr ?_
    have htransition : (c.measured now bytes rtt).transitionState now c.maxBandwidthBps =
        c.measured now bytes rtt := by
      unfold transitionState
      rw [hstate']
      simp only [if_neg hfits]
    have hupdate : (c.measured now bytes rtt).updateCwnd.state = .drain ∧
        (c.measured now bytes rtt).updateCwnd.cwnd =
          F64Arith.toU64 (((c.measured now bytes rtt).bdp : Fl R) * 0.35) ∧
        (c.measured now bytes rtt).updateCwnd.config = .default := by
      unfold updateCwnd
      rw [hstate', hconfig']
      exact ⟨rfl, rfl, rfl⟩
    obtain ⟨hdrain, hwindow, hdefault⟩ := hupdate
    have hlow : 14520 ≤ (c.measured now bytes rtt).bdp := by
      unfold bdp
      rw [hconfig']
      exact le_max_right _ _
    have hfloor : 2 * 1452 ≤ 2 ^ k :=
      (by decide : 2 * 1452 ≤ 2 ^ 12).trans (Nat.pow_le_pow_right (by decide) hk)
    rw [htransition] at hstate₁ hcwnd₁
    refine ⟨by omega, hstate₁.trans hdrain, ?_⟩
    rw [hcwnd₁, hwindow, hdefault]
    exact max_le (toU64_drain (by omega)) hfloor

theorem updateCwnd_le (hconfig : c.updateCwnd.config = .default) :
    c.updateCwnd.cwnd ≤ 2 ^ 64 := by
  have hu64 : ∀ x : Fl R, F64Arith.toU64 x ≤ 2 ^ 64 := fun x =>
    (min_le_right _ _).trans (by decide)
  unfold updateCwnd at hconfig ⊢
  cases hstate : c.state with
  | startup => exact hu64 _
  | drain => exact hu64 _
  | probeBw gain => exact hu64 _
  | probeRtt enteredAt =>
    rw [hstate] at hconfig
    have hdefault : c.config = .default := hconfig
    show min c.bdp c.config.initialCwndBytes ≤ 2 ^ 64
    rw [hdefault]
    exact (min_le_right _ _).trans (by decide : 10 * 1452 ≤ 2 ^ 64)

/-- The window is a `u64`. -/
theorem onAck_cwnd_le (hconfig : c.config = .default) (now : Instant) (bytes rtt : Nat) :
    (c.onAck now bytes rtt).cwnd ≤ 2 ^ 64 := by
  have hframe : (c.onAck now bytes rtt).config = c.config := onAck_frame.1
  have hconfig' : ((c.measured now bytes rtt).transitionState now
      c.maxBandwidthBps).updateCwnd.config = .default := hframe.trans hconfig
  rw [(c.onAck_fields now bytes rtt).2, hconfig']
  exact max_le (updateCwnd_le hconfig') (by decide : 2 * 1452 ≤ 2 ^ 64)

end Rounded

end ScientificCongestionController

/-- The sizes of packets are `u16`. -/
def BbrLabel.Fits : BbrLabel → Prop
  | .mtuUpdate newMtu => newMtu < 2 ^ 16
  | _ => True

def BbrLabel.isAck : BbrLabel → Bool
  | .ack _ _ _ => true
  | _ => false

def BbrLabel.isMtuUpdate : BbrLabel → Bool
  | .mtuUpdate _ => true
  | _ => false

section Drain

variable {R : FloatOps} {r r' : BbrRun (Fl R)}

/-- What a run with the default configuration keeps. -/
structure BbrRun.Bounded (r : BbrRun (Fl R)) : Prop where
  config : r.controller.config = .default
  cwnd : r.controller.cwnd ≤ 2 ^ 64

theorem BbrRun.Bounded.step {label : BbrLabel} (h : r.Bounded) (hok : label.Fits) :
    (r.step label).Bounded := by
  cases label with
  | ack now bytes rtt =>
    exact ⟨ScientificCongestionController.onAck_frame.1.trans h.config,
      ScientificCongestionController.onAck_cwnd_le h.config now bytes rtt⟩
  | congestionEvent clock => exact ⟨h.config, h.cwnd⟩
  | mtuUpdate newMtu =>
    have hmtu : newMtu < 2 ^ 16 := hok
    exact ⟨h.config, max_le h.cwnd (by omega)⟩

theorem BbrRun.phase_step (label : BbrLabel) :
    r.controller.state.phase ≤ (r.step label).controller.state.phase := by
  cases label with
  | ack now bytes rtt => exact ScientificCongestionController.phase_onAck now bytes rtt
  | congestionEvent clock => exact le_rfl
  | mtuUpdate newMtu => exact le_rfl

theorem BbrRun.phase_exec : ∀ (labels : List BbrLabel) {r : BbrRun (Fl R)},
    (bbr (Fl R)).exec r labels = some r' →
      r.controller.state.phase ≤ r'.controller.state.phase
  | [], _, h => by
    cases h
    exact le_rfl
  | label :: rest, r, h => (BbrRun.phase_step label).trans (BbrRun.phase_exec rest h)

/-- A window of `2 ^ (13 + n)` bytes is drained by `n + 1` acknowledgements. -/
theorem BbrRun.drained : ∀ (labels : List BbrLabel) {r : BbrRun (Fl R)} (n : Nat),
    r.controller.config = .default → (∀ l ∈ labels, l.isMtuUpdate = false) →
      r.controller.state = .drain → r.controller.cwnd ≤ 2 ^ (13 + n) →
      n < labels.countP BbrLabel.isAck → (bbr (Fl R)).exec r labels = some r' →
      r'.controller.state.phase = 2
  | [], _, n, _, _, _, _, hcount, _ => absurd hcount (Nat.not_lt_zero n)
  | label :: rest, r, n, hconfig, hlabels, hstate, hcwnd, hcount, hexec => by
    have hrest : ∀ l ∈ rest, l.isMtuUpdate = false := fun l hl =>
      hlabels l (List.mem_cons_of_mem _ hl)
    have hexec' : (bbr (Fl R)).exec (r.step label) rest = some r' := hexec
    cases label with
    | congestionEvent clock =>
      rw [List.countP_cons_of_neg Bool.false_ne_true] at hcount
      exact BbrRun.drained rest (r := r.step (.congestionEvent clock)) n hconfig hrest hstate
        hcwnd hcount hexec'
    | mtuUpdate newMtu => cases hlabels _ List.mem_cons_self
    | ack now bytes rtt =>
      rw [List.countP_cons_of_pos rfl] at hcount
      have hcwnd' : r.controller.cwnd ≤ 2 ^ (12 + n + 1) := by
        rwa [show 12 + n + 1 = 13 + n from by omega]
      rcases ScientificCongestionController.onAck_drain hconfig hstate now bytes rtt
        (Nat.le_add_right 12 n) hcwnd' with hprobing | ⟨hlarge, hdrain, hless⟩
      · have hmono := BbrRun.phase_exec rest hexec'
        have hstep : (r.step (.ack now bytes rtt)).controller.state.phase = 2 := hprobing
        rw [hstep] at hmono
        exact le_antisymm (ScientificCongestionController.phase_le_two _) hmono
      · cases n with
        | zero => omega
        | succ n =>
          have hless' : (r.controller.onAck now bytes rtt).cwnd ≤ 2 ^ (13 + n) := by
            rwa [show 13 + n = 12 + (n + 1) from by omega]
          exact BbrRun.drained rest n
            (ScientificCongestionController.onAck_frame.1.trans hconfig) hrest hdrain hless'
            (by omega) hexec'

/--
**Every drain ends.** With the default configuration, wherever a run drains, 52 acknowledgements
later it probes for bandwidth or for the round trip, and it never starts up or drains again,
whatever rates and round trips are measured and whatever is lost. A new packet size in between could
enlarge the window again.
-/
theorem drain_ends {start : Instant} {mtu : Nat} (hmtu : mtu < 2 ^ 16)
    (h : (bbr (Fl R)).Reach (fun _ label => label.Fits) (.new .default start mtu) r)
    (hdrain : r.controller.state = .drain) {labels : List BbrLabel}
    (hlabels : ∀ l ∈ labels, l.isMtuUpdate = false)
    (hacks : 52 ≤ labels.countP BbrLabel.isAck)
    (hexec : (bbr (Fl R)).exec r labels = some r') :
    r'.controller.state.phase = 2 := by
  have hnew : (BbrRun.new (.default : SciBbrConfig (Fl R)) start mtu).Bounded :=
    ⟨rfl, max_le (by decide : 10 * 1452 ≤ 2 ^ 64) (by omega)⟩
  have hbounded : r.Bounded := h.invariant hnew fun hr hok hstep => by
    cases hstep
    exact hr.step hok
  exact BbrRun.drained labels 51 hbounded.config hlabels hdrain hbounded.cwnd hacks hexec

/-- The rate stays the same for three acknowledgements. -/
def sampleSteady : List BbrLabel :=
  [.ack 1000000 1452 100000000, .ack 2000000 1452 100000000, .ack 3000000 1452 100000000,
    .ack 4000000 1452 100000000]

def sampleDrain : List BbrLabel := List.replicate 52 (.ack 5000000 1452 100000000)

theorem sample_drain_ends :
    ∃ r r' : BbrRun (Fl binary64),
      (bbr (Fl binary64)).exec (.new .default 0 1200) sampleSteady = some r ∧
      r.controller.state = .drain ∧ (bbr (Fl binary64)).exec r sampleDrain = some r' ∧
      r'.controller.state.phase = 2 := by
  have hexec : ((bbr (Fl binary64)).exec (.new .default 0 1200) sampleSteady).map
      (fun r => r.controller.state) = some .drain := by decide +kernel
  obtain ⟨r, hr, hdrain⟩ := Option.map_eq_some_iff.mp hexec
  obtain ⟨r', hr'⟩ : ∃ r', (bbr (Fl binary64)).exec r sampleDrain = some r' := ⟨_, rfl⟩
  have hfits : sampleSteady.Forall BbrLabel.Fits := ⟨trivial, trivial, trivial, trivial⟩
  refine ⟨r, r', hr, hdrain, hr', drain_ends (by decide : 1200 < 2 ^ 16)
    (.of_exec_forall (fun l hl _ => List.forall_iff_forall_mem.mp hfits l hl) hr) hdrain ?_
    (by decide) hr'⟩
  intro l hl
  rw [List.eq_of_mem_replicate hl]
  rfl

end Drain

end ScTransport
