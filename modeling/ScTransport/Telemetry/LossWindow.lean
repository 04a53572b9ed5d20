import ScTransport.Telemetry.Datagram
import ScTransport.Infra.Binary64
import ScTransport.Infra.Window
import Mathlib.Order.Interval.Set.Defs

/-!
# The loss window of the datagram transport

The transport falls back when too many of its last datagrams were lost. The rate of losses and the
threshold are floats here as in the source: the quotient, the difference and the sum are rounded.
A threshold or bonus that is no number or infinite is left out.

* `QuicDatagramTransport.recordAll_lossWindow` — the window holds the last outcomes
* `QuicDatagramTransport.trigger_iff` — when a window makes the transport fall back
* `loss_fallback_iff` — it reflects the losses exactly if the window has room for ten outcomes and
  rounding takes no fraction of losses across the threshold
* `undisturbed_of_apart` — a threshold that is `2 ^ -53` away from a fraction is safe from that
-/

namespace ScTransport

open Infra

variable {R : FloatOps}

/-! ## The comparison -/

/-- `bonus` is `SC_DGRAM_THRESHOLD_BONUS`, which is read on every call. -/
def effectiveFallbackThreshold (fallbackThreshold : Fl R) (bonus : Option (Fl R)) : Fl R :=
  (fallbackThreshold + bonus.getD 0.05).clamp 0.05 0.9

/-- `loss_rate`. -/
def lossRate (window : List Bool) : Fl R :=
  1 - ((window.filter fun delivered => delivered).length : Fl R) / (window.length : Fl R)

/-- `loss_rate > self.effective_fallback_threshold()`. -/
def lossRateExceeds (fallbackThreshold : Fl R) (bonus : Option (Fl R)) (window : List Bool) :
    Bool :=
  decide (effectiveFallbackThreshold fallbackThreshold bonus < lossRate window)

def lossCount (window : List Bool) : Nat := (window.filter fun delivered => !delivered).length

/-- The fraction of losses. -/
def lossFraction (window : List Bool) : ℚ := lossCount window / window.length

/-- The loss rate that is computed for `n` outcomes of which `lost` were lost. -/
def rateOf (R : FloatOps) (n lost : Nat) : Fl R := 1 - ((n - lost : Nat) : Fl R) / (n : Fl R)

/-- The threshold does not lie between a fraction and the rate that is computed for it. -/
def Undisturbed (threshold : Fl R) (n lost : Nat) : Prop :=
  threshold.val ∉ Set.Ico (min ((lost : ℚ) / n) (rateOf R n lost).val)
    (max ((lost : ℚ) / n) (rateOf R n lost).val)

/-- No fraction of at least ten and at most `size` outcomes is taken across the threshold. -/
def RoundingFree (threshold : Fl R) (size : Nat) : Prop :=
  ∀ n lost, 10 ≤ n → n ≤ size → lost ≤ n → Undisturbed threshold n lost

theorem lossCount_le (window : List Bool) : lossCount window ≤ window.length :=
  List.length_filter_le _ window

theorem lossRate_eq (window : List Bool) :
    (lossRate window : Fl R) = rateOf R window.length (lossCount window) := by
  have hsum := List.length_eq_length_filter_add (l := window) fun delivered => delivered
  have hdelivered : window.length - lossCount window =
      (window.filter fun delivered => delivered).length := by
    unfold lossCount
    omega
  rw [lossRate, rateOf, hdelivered]

theorem undisturbed_iff {threshold : Fl R} {n lost : Nat} :
    Undisturbed threshold n lost ↔
      (threshold < rateOf R n lost ↔ threshold.val < (lost : ℚ) / n) := by
  unfold Undisturbed
  rw [Set.mem_Ico, min_le_iff, lt_max_iff, Fl.lt_def]
  constructor
  · intro h
    constructor
    · intro hrate
      by_contra hle
      exact h ⟨Or.inl (not_lt.mp hle), Or.inr hrate⟩
    · intro hfraction
      by_contra hle
      exact h ⟨Or.inr (not_lt.mp hle), Or.inl hfraction⟩
  · rintro h ⟨hle | hle, hlt | hlt⟩
    · exact absurd hlt (not_lt.mpr hle)
    · exact absurd (h.mp hlt) (not_lt.mpr hle)
    · exact absurd (h.mpr hlt) (not_lt.mpr hle)
    · exact absurd hlt (not_lt.mpr hle)

theorem effectiveFallbackThreshold_lt_one (fallbackThreshold : Fl R) (bonus : Option (Fl R)) :
    (effectiveFallbackThreshold fallbackThreshold bonus).val < 1 := by
  have hbounds : (0.05 : Fl R) ≤ 0.9 := Fl.literal_le (by norm_num)
  have hle := Fl.le_def.mp ((fallbackThreshold + bonus.getD 0.05).clamp_le hbounds)
  -- the literal is rounded, but not beyond a number of four bits
  have hsixteenths : (0.9 : Fl R).val ≤ 15 * 2 ^ (-4 : ℤ) := by
    have hexact := R.exact 15 (-4) (by norm_num)
    push_cast at hexact
    rw [← hexact]
    exact R.mono (by norm_num)
  exact (hle.trans hsixteenths).trans_lt (by norm_num)

/-! ## Recording outcomes -/

namespace QuicDatagramTransport

/-- `record_loss_sample` for each of the outcomes. -/
def recordAll (t : QuicDatagramTransport) (outcomes : List Bool) : QuicDatagramTransport :=
  outcomes.foldl recordLossSample t

theorem recordAll_frame (t : QuicDatagramTransport) (outcomes : List Bool) :
    (t.recordAll outcomes).lossWindow = outcomes.foldl (pushLast t.lossWindowSize) t.lossWindow ∧
    (t.recordAll outcomes).lossWindowSize = t.lossWindowSize ∧
    (t.recordAll outcomes).lossRateExceeded = t.lossRateExceeded := by
  unfold recordAll
  induction outcomes generalizing t with
  | nil => exact ⟨rfl, rfl, rfl⟩
  | cons delivered rest ih => exact ih (t.recordLossSample delivered)

/-- **A new transport's window holds the last outcomes**, in their order. -/
theorem recordAll_lossWindow (config : QuicDatagramConfig) (env : DatagramEnv)
    (lossRateExceeded : List Bool → Bool) (outcomes : List Bool) :
    ((withConfig config env lossRateExceeded).recordAll outcomes).lossWindow =
      outcomes.rtake config.lossWindowSize := by
  rw [(recordAll_frame _ outcomes).1]
  exact foldl_pushLast config.lossWindowSize outcomes

/-- Below ten outcomes nothing is decided. -/
theorem trigger_iff {t : QuicDatagramTransport} {fallbackThreshold : Fl R} {bonus : Option (Fl R)}
    (hexceeds : t.lossRateExceeded = lossRateExceeds fallbackThreshold bonus) :
    t.shouldTriggerFallbackByLoss = true ↔
      10 ≤ t.lossWindow.length ∧
        effectiveFallbackThreshold fallbackThreshold bonus <
          rateOf R t.lossWindow.length (lossCount t.lossWindow) := by
  unfold shouldTriggerFallbackByLoss
  rw [hexceeds]
  by_cases hfew : t.lossWindow.length < 10
  · rw [if_pos hfew]
    exact iff_of_false Bool.false_ne_true fun h => Nat.not_le.mpr hfew h.1
  · rw [if_neg hfew, lossRateExceeds, decide_eq_true_eq, lossRate_eq]
    exact (and_iff_right (Nat.le_of_not_lt hfew)).symm

/-! ### Calls of `send_event` -/

/-- The fields that decide about falling back. -/
def lossView (t : QuicDatagramTransport) : List Bool × Nat × (List Bool → Bool) :=
  (t.lossWindow, t.lossWindowSize, t.lossRateExceeded)

theorem lossView_dropOrFallBack (t : QuicDatagramTransport) :
    t.dropOrFallBack.1.lossView = t.lossView := by
  unfold dropOrFallBack
  split <;> rfl

/-- A call records one outcome or none. -/
theorem sendEvent_recorded (M : MsgPack) (t : QuicDatagramTransport) (call : DatagramCall) :
    ∃ outcomes, outcomes.length ≤ 1 ∧
      (t.sendEvent M call).1.lossView = (t.recordAll outcomes).lossView := by
  have hexit := t.sendEvent_exit M call
  generalize t.sendEvent M call = result at hexit ⊢
  cases hexit with
  | forced => exact ⟨[false], Nat.le_refl 1, rfl⟩
  | lost => exact ⟨[false], Nat.le_refl 1, lossView_dropOrFallBack _⟩
  | unserializable => exact ⟨[false], Nat.le_refl 1, rfl⟩
  | large => exact ⟨[], Nat.zero_le 1, rfl⟩
  | datagram =>
    split
    · exact ⟨[true], Nat.le_refl 1, rfl⟩
    · exact ⟨[], Nat.zero_le 1, rfl⟩
    · exact ⟨[false], Nat.le_refl 1, lossView_dropOrFallBack _⟩

theorem lossView_recordAll {t t' : QuicDatagramTransport} (h : t.lossView = t'.lossView)
    (outcomes : List Bool) :
    (t.recordAll outcomes).lossView = (t'.recordAll outcomes).lossView := by
  obtain ⟨hwindow, hsize, hexceeded⟩ := t.recordAll_frame outcomes
  obtain ⟨hwindow', hsize', hexceeded'⟩ := t'.recordAll_frame outcomes
  simp only [lossView, Prod.mk.injEq] at h ⊢
  obtain ⟨h₁, h₂, h₃⟩ := h
  rw [hwindow, hsize, hexceeded, hwindow', hsize', hexceeded', h₁, h₂, h₃]
  exact ⟨rfl, rfl, rfl⟩

/-- **The window of a run of calls** is the end of what they recorded. -/
theorem sendAll_recorded (M : MsgPack) (t : QuicDatagramTransport) (calls : List DatagramCall) :
    ∃ outcomes, outcomes.length ≤ calls.length ∧
      (t.sendAll M calls).lossView = (t.recordAll outcomes).lossView := by
  induction calls generalizing t with
  | nil => exact ⟨[], Nat.le_refl 0, rfl⟩
  | cons call rest ih =>
    obtain ⟨first, hfirst, hcall⟩ := t.sendEvent_recorded M call
    obtain ⟨later, hlater, hrest⟩ := ih (t.sendEvent M call).1
    refine ⟨first ++ later, ?_, ?_⟩
    · rw [List.length_append, List.length_cons]
      omega
    · rw [recordAll, List.foldl_append]
      exact hrest.trans (lossView_recordAll hcall later)

end QuicDatagramTransport

theorem rtake_replicate {n k : Nat} (h : k ≤ n) (delivered : Bool) :
    (List.replicate n delivered).rtake k = List.replicate k delivered := by
  rw [List.rtake, List.drop_replicate, List.length_replicate]
  congr 1
  omega

/-- `lost` losses, and deliveries up to `n` outcomes. -/
def outcomesOf (n lost : Nat) : List Bool :=
  List.replicate lost false ++ List.replicate (n - lost) true

theorem length_outcomesOf {n lost : Nat} (h : lost ≤ n) : (outcomesOf n lost).length = n := by
  rw [outcomesOf, List.length_append, List.length_replicate, List.length_replicate]
  omega

theorem lossCount_outcomesOf (n lost : Nat) : lossCount (outcomesOf n lost) = lost := by
  simp [lossCount, outcomesOf]

/-- The guard counts the outcomes that the window has room for. -/
theorem trigger_recordAll_iff (config : QuicDatagramConfig) (env : DatagramEnv)
    (fallbackThreshold : Fl R) (bonus : Option (Fl R)) (outcomes : List Bool) :
    ((QuicDatagramTransport.withConfig config env
      (lossRateExceeds fallbackThreshold bonus)).recordAll
        outcomes).shouldTriggerFallbackByLoss = true ↔
      10 ≤ min outcomes.length config.lossWindowSize ∧
        effectiveFallbackThreshold fallbackThreshold bonus <
          rateOf R (min outcomes.length config.lossWindowSize)
            (lossCount (outcomes.rtake config.lossWindowSize)) := by
  rw [QuicDatagramTransport.trigger_iff (QuicDatagramTransport.recordAll_frame _ outcomes).2.2,
    QuicDatagramTransport.recordAll_lossWindow, length_rtake]

/--
**Fallback by loss.** The window always holds the last outcomes. Once ten outcomes have been
recorded, the transport falls back exactly if the losses of its window exceed the threshold, for
all outcomes, if and only if the window has room for ten and rounding takes no fraction of losses
that it can hold across the threshold.
-/
theorem loss_fallback_iff (config : QuicDatagramConfig) (env : DatagramEnv)
    (fallbackThreshold : Fl R) (bonus : Option (Fl R)) (hsize : 1 ≤ config.lossWindowSize) :
    (∀ outcomes,
      ((QuicDatagramTransport.withConfig config env
        (lossRateExceeds fallbackThreshold bonus)).recordAll outcomes).lossWindow =
          outcomes.rtake config.lossWindowSize ∧
      (outcomes.rtake config.lossWindowSize).length =
        min outcomes.length config.lossWindowSize) ∧
    ((∀ outcomes, 10 ≤ outcomes.length →
      (((QuicDatagramTransport.withConfig config env
        (lossRateExceeds fallbackThreshold bonus)).recordAll
          outcomes).shouldTriggerFallbackByLoss = true ↔
        (effectiveFallbackThreshold fallbackThreshold bonus).val <
          lossFraction (outcomes.rtake config.lossWindowSize))) ↔
      10 ≤ config.lossWindowSize ∧
        RoundingFree (effectiveFallbackThreshold fallbackThreshold bonus)
          config.lossWindowSize) := by
  have hwindow := QuicDatagramTransport.recordAll_lossWindow config env
    (lossRateExceeds fallbackThreshold bonus)
  refine ⟨fun outcomes => ⟨hwindow outcomes, length_rtake _ outcomes⟩, ?_, ?_⟩
  · intro h
    have hroom : 10 ≤ config.lossWindowSize := by
      -- ten losses exceed every threshold
      by_contra hsmall
      have hfraction :
          lossFraction ((List.replicate 10 false).rtake config.lossWindowSize) = 1 := by
        have hne : (config.lossWindowSize : ℚ) ≠ 0 := Nat.cast_ne_zero.mpr (by omega)
        rw [rtake_replicate (by omega), lossFraction, lossCount,
          List.filter_replicate_of_pos (by rfl), List.length_replicate, div_self hne]
      have hten := (h (List.replicate 10 false) (by simp)).mpr
        (hfraction ▸ effectiveFallbackThreshold_lt_one _ _)
      have := ((trigger_recordAll_iff _ _ _ _ _).mp hten).1
      omega
    refine ⟨hroom, fun n lost hn hle hlost => ?_⟩
    have hheld : (outcomesOf n lost).rtake config.lossWindowSize = outcomesOf n lost := by
      rw [List.rtake, length_outcomesOf hlost, Nat.sub_eq_zero_of_le hle, List.drop_zero]
    have hn' := h (outcomesOf n lost) ((length_outcomesOf hlost).symm ▸ hn)
    rw [trigger_recordAll_iff, hheld, lossFraction, length_outcomesOf hlost, lossCount_outcomesOf,
      min_eq_left hle, and_iff_right hn] at hn'
    exact undisturbed_iff.mpr hn'
  · rintro ⟨hroom, hfree⟩ outcomes hmany
    rw [trigger_recordAll_iff, and_iff_right (le_min hmany hroom), lossFraction, length_rtake]
    refine undisturbed_iff.mp (hfree _ _ (le_min hmany hroom) (min_le_right _ _) ?_)
    exact (lossCount_le _).trans_eq (length_rtake _ _)

/-! ## The error of the loss rate -/

theorem val_quotient (R : FloatOps) {m n : Nat} (hm : m ≤ 2 ^ 53) (hn : n ≤ 2 ^ 53) :
    ((m : Fl R) / (n : Fl R)) = Fl.ofRat ((m : ℚ) / n) := by
  show Fl.ofRat ((m : Fl R).val / (n : Fl R).val) = _
  rw [Fl.val_natCast hm, Fl.val_natCast hn]

/-- Both operations are off by at most half a unit in the last place. -/
theorem abs_rateOf_sub_le {n lost : Nat} (hpos : 0 < n) (hlost : lost ≤ n) (hn : n ≤ 2 ^ 53) :
    |(rateOf binary64 n lost).val - lost / n| ≤ 2 ^ (-53 : ℤ) := by
  have hn0 : (0 : ℚ) < n := Nat.cast_pos.mpr hpos
  obtain ⟨q, hq⟩ : ∃ q : ℚ, q = ((n - lost : Nat) : ℚ) / n := ⟨_, rfl⟩
  have hsplit : (lost : ℚ) / n = 1 - q := by
    rw [hq, Nat.cast_sub hlost, sub_div, div_self hn0.ne', sub_sub_cancel]
  have hq0 : 0 ≤ q := hq ▸ div_nonneg (Nat.cast_nonneg _) hn0.le
  have hq1 : q ≤ 1 := by
    have : (0 : ℚ) ≤ lost / n := div_nonneg (Nat.cast_nonneg _) hn0.le
    linarith
  have hval : (rateOf binary64 n lost).val = roundNearest (1 - roundNearest q) := by
    rw [rateOf, val_quotient binary64 (by omega) hn, ← hq]
    rfl
  have hround0 : 0 ≤ roundNearest q := binary64.rnd_nonneg hq0
  have hround1 : roundNearest q ≤ 1 := (binary64.mono hq1).trans_eq binary64.rnd_one
  have hquotient := abs_roundNearest_sub_le hq0 hq1
  have hdifference := abs_roundNearest_sub_le (sub_nonneg.mpr hround1) (sub_le_self 1 hround0)
  have hhalves : (2 : ℚ) ^ (-54 : ℤ) + 2 ^ (-54 : ℤ) = 2 ^ (-53 : ℤ) := by norm_num
  rw [hval, hsplit]
  rw [abs_le] at hquotient hdifference ⊢
  constructor <;> linarith [hquotient.1, hquotient.2, hdifference.1, hdifference.2]

theorem undisturbed_of_apart {threshold : Fl binary64} {n lost : Nat} (hpos : 0 < n)
    (hlost : lost ≤ n) (hn : n ≤ 2 ^ 53)
    (hapart : 2 ^ (-53 : ℤ) < |(lost : ℚ) / n - threshold.val|) :
    Undisturbed threshold n lost := by
  have hunit : (0 : ℚ) < 2 ^ (-53 : ℤ) := by positivity
  obtain ⟨hbelow, habove⟩ := abs_le.mp (abs_rateOf_sub_le hpos hlost hn)
  rw [undisturbed_iff, Fl.lt_def]
  rcases lt_abs.mp hapart with h | h
  · exact iff_of_true (by linarith) (by linarith)
  · exact iff_of_false (by linarith) (by linarith)

/-! ### Windows of a hundred and of five outcomes -/

theorem val_effectiveFallbackThreshold_default :
    (effectiveFallbackThreshold (0.15 : Fl binary64) none).val = 3602879701896397 / 2 ^ 54 := by
  decide +kernel

/-- The default threshold is next to one fifth, and that fraction is rounded down. -/
theorem roundingFree_default :
    RoundingFree (effectiveFallbackThreshold (0.15 : Fl binary64) none) 100 := by
  intro n lost hten hroom hlost
  have hn : (0 : ℚ) < n := Nat.cast_pos.mpr (by omega)
  have hn' : (n : ℚ) ≤ 100 := by exact_mod_cast hroom
  by_cases hfifth : 5 * lost = n
  · have hlost' : (lost : ℚ) / n = 1 / 5 := by
      rw [div_eq_div_iff hn.ne' (by norm_num), one_mul]
      exact_mod_cast (Nat.mul_comm lost 5).trans hfifth
    have hdelivered : ((n - lost : Nat) : ℚ) / n = 4 / 5 := by
      rw [Nat.cast_sub hlost, sub_div, div_self hn.ne', hlost']
      norm_num
    rw [undisturbed_iff, rateOf, val_quotient binary64 (by omega) (by omega), hdelivered, hlost',
      val_effectiveFallbackThreshold_default]
    exact iff_of_false (by decide +kernel) (by norm_num)
  · refine undisturbed_of_apart (by omega) hlost (by omega) ?_
    rw [val_effectiveFallbackThreshold_default, lt_abs]
    rcases Nat.lt_or_gt_of_ne hfifth with h | h
    · right
      have h' : (5 * lost + 1 : ℚ) ≤ n := by exact_mod_cast h
      have hle : (lost : ℚ) / n ≤ 99 / 500 := by
        rw [div_le_iff₀ hn]
        linarith
      norm_num
      linarith
    · left
      have h' : (n + 1 : ℚ) ≤ 5 * lost := by exact_mod_cast h
      have hle : (101 : ℚ) / 500 ≤ lost / n := by
        rw [le_div_iff₀ hn]
        linarith
      norm_num
      linarith

theorem default_falls_back :
    ((QuicDatagramTransport.withConfig {} ⟨none, none, none⟩
      (lossRateExceeds (0.15 : Fl binary64) none)).recordAll
        (outcomesOf 10 3)).shouldTriggerFallbackByLoss = true :=
  ((loss_fallback_iff {} ⟨none, none, none⟩ (0.15 : Fl binary64) none (by decide)).2.mpr
    ⟨by decide, roundingFree_default⟩ (outcomesOf 10 3) (by decide)).mpr (by decide +kernel)

/-- With room for five outcomes, ten losses do not make the transport fall back. With room for a
hundred, three losses of fifty do so although they do not exceed the threshold. -/
theorem small_window_ignores_losses :
    (((QuicDatagramTransport.withConfig { lossWindowSize := 5 } ⟨none, none, none⟩
        (lossRateExceeds (0.15 : Fl binary64) none)).recordAll
          (List.replicate 10 false)).shouldTriggerFallbackByLoss = false ∧
      (effectiveFallbackThreshold (0.15 : Fl binary64) none).val <
        lossFraction ((List.replicate 10 false).rtake 5)) ∧
    (((QuicDatagramTransport.withConfig {} ⟨none, none, none⟩
        (lossRateExceeds (0.01 : Fl binary64) none)).recordAll
          (outcomesOf 50 3)).shouldTriggerFallbackByLoss = true ∧
      ¬ (effectiveFallbackThreshold (0.01 : Fl binary64) none).val <
        lossFraction ((outcomesOf 50 3).rtake 100)) := by
  decide +kernel

end ScTransport
