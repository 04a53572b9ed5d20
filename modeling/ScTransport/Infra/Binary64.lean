import ScTransport.Infra.Rounded
import Mathlib.Data.Int.Log
import Mathlib.Data.Nat.Sqrt
import Mathlib.Data.Rat.Floor
import Mathlib.Tactic.Linarith

/-!
# Round to nearest, ties to even

The rounding of IEEE binary64 with an unbounded exponent: 53 significant bits, and of two equally
near numbers the one with an even last bit.

* `roundEven` — to an integer
* `roundBits` — to 53 bits
* `binary64` — the arithmetic
-/

namespace Infra

/-! ## To an integer -/

def roundEven (x : ℚ) : ℤ :=
  if x - ⌊x⌋ < 1 / 2 then ⌊x⌋
  else if 1 / 2 < x - ⌊x⌋ then ⌊x⌋ + 1
  else if ⌊x⌋ % 2 = 0 then ⌊x⌋ else ⌊x⌋ + 1

theorem floor_le_roundEven (x : ℚ) : ⌊x⌋ ≤ roundEven x := by
  unfold roundEven
  split
  · exact le_rfl
  · split
    · omega
    · split <;> omega

theorem roundEven_le (x : ℚ) : roundEven x ≤ ⌊x⌋ + 1 := by
  unfold roundEven
  split
  · omega
  · split
    · exact le_rfl
    · split <;> omega

@[simp] theorem roundEven_intCast (n : ℤ) : roundEven n = n := by
  unfold roundEven
  rw [Int.floor_intCast, if_pos (by norm_num)]

theorem roundEven_mono {x y : ℚ} (hxy : x ≤ y) : roundEven x ≤ roundEven y := by
  rcases (Int.floor_le_floor hxy).lt_or_eq with hlt | heq
  · exact (roundEven_le x).trans ((Int.add_one_le_of_lt hlt).trans (floor_le_roundEven y))
  · -- the same integer part: the fractions decide
    unfold roundEven
    rw [heq]
    have hfrac : x - ⌊y⌋ ≤ y - ⌊y⌋ := sub_le_sub_right hxy _
    by_cases hx : x - ⌊y⌋ < 1 / 2
    · rw [if_pos hx]
      split
      · exact le_rfl
      · split
        · omega
        · split <;> omega
    · rw [if_neg hx, if_neg (by linarith : ¬ y - ⌊y⌋ < 1 / 2)]
      by_cases hx' : 1 / 2 < x - ⌊y⌋
      · rw [if_pos hx', if_pos (hx'.trans_le hfrac)]
      · rw [if_neg hx']
        by_cases hy : 1 / 2 < y - ⌊y⌋
        · rw [if_pos hy]
          split <;> omega
        · rw [if_neg hy]

/-- Halfway between two integers both are equally near. -/
theorem abs_roundEven_sub_le (x : ℚ) : |(roundEven x : ℚ) - x| ≤ 1 / 2 := by
  have hfloor := Int.floor_le x
  have hlt := Int.lt_floor_add_one x
  rw [abs_le]
  unfold roundEven
  split
  · constructor <;> linarith
  · split
    · push_cast
      constructor <;> linarith
    · split
      · constructor <;> linarith
      · push_cast
        constructor <;> linarith

/-! ## To 53 bits -/

/-- The distance of neighbours around a positive number. -/
def ulp (x : ℚ) : ℚ := 2 ^ (Int.log 2 x - 52)

def roundBits (x : ℚ) : ℚ := roundEven (x / ulp x) * ulp x

theorem ulp_pos (x : ℚ) : 0 < ulp x := zpow_pos (by norm_num) _

theorem two_pow_mul_ulp {x : ℚ} {n : ℕ} {k : ℤ} (h : n + (Int.log 2 x - 52) = k) :
    2 ^ n * ulp x = 2 ^ k := by
  rw [ulp, ← zpow_natCast, ← zpow_add₀ (by norm_num), h]

section Positive

variable {x : ℚ} (hx : 0 < x)

include hx

/-- A positive number has 53 digits in units of `ulp`. -/
theorem div_ulp_range : (2 : ℚ) ^ 52 ≤ x / ulp x ∧ x / ulp x < 2 ^ 53 := by
  have hlow : (2 : ℚ) ^ Int.log 2 x ≤ x := by
    exact_mod_cast Int.zpow_log_le_self (b := 2) (by norm_num) hx
  have hhigh : x < (2 : ℚ) ^ (Int.log 2 x + 1) := by
    exact_mod_cast Int.lt_zpow_succ_log_self (b := 2) (by norm_num) x
  rw [le_div_iff₀ (ulp_pos x), div_lt_iff₀ (ulp_pos x),
    two_pow_mul_ulp (k := Int.log 2 x) (by omega),
    two_pow_mul_ulp (k := Int.log 2 x + 1) (by omega)]
  exact ⟨hlow, hhigh⟩

theorem roundEven_range :
    (2 : ℤ) ^ 52 ≤ roundEven (x / ulp x) ∧ roundEven (x / ulp x) ≤ 2 ^ 53 := by
  obtain ⟨hlow, hhigh⟩ := div_ulp_range hx
  constructor
  · exact (Int.le_floor.mpr (by exact_mod_cast hlow)).trans (floor_le_roundEven _)
  · have hfloor : ⌊x / ulp x⌋ < 2 ^ 53 := Int.floor_lt.mpr (by exact_mod_cast hhigh)
    exact (roundEven_le _).trans hfloor

theorem roundBits_range :
    (2 : ℚ) ^ Int.log 2 x ≤ roundBits x ∧ roundBits x ≤ 2 ^ (Int.log 2 x + 1) := by
  obtain ⟨hlow, hhigh⟩ := roundEven_range hx
  have hlow' : (2 : ℚ) ^ 52 ≤ roundEven (x / ulp x) := by exact_mod_cast hlow
  have hhigh' : (roundEven (x / ulp x) : ℚ) ≤ 2 ^ 53 := by exact_mod_cast hhigh
  have hl := mul_le_mul_of_nonneg_right hlow' (ulp_pos x).le
  have hh := mul_le_mul_of_nonneg_right hhigh' (ulp_pos x).le
  rw [two_pow_mul_ulp (k := Int.log 2 x) (by omega)] at hl
  rw [two_pow_mul_ulp (k := Int.log 2 x + 1) (by omega)] at hh
  exact ⟨hl, hh⟩

theorem roundBits_pos : 0 < roundBits x :=
  (zpow_pos (by norm_num) _).trans_le (roundBits_range hx).1

end Positive

theorem roundBits_mono {x y : ℚ} (hx : 0 < x) (hxy : x ≤ y) : roundBits x ≤ roundBits y := by
  have hy := hx.trans_le hxy
  rcases (Int.log_mono_right hx hxy : Int.log 2 x ≤ Int.log 2 y).lt_or_eq with hlt | heq
  · -- a power of two lies between them
    calc roundBits x ≤ 2 ^ (Int.log 2 x + 1) := (roundBits_range hx).2
      _ ≤ 2 ^ Int.log 2 y := zpow_le_zpow_right₀ (by norm_num) hlt
      _ ≤ roundBits y := (roundBits_range hy).1
  · have hulp : ulp x = ulp y := by rw [ulp, ulp, heq]
    unfold roundBits
    rw [hulp]
    refine mul_le_mul_of_nonneg_right ?_ (ulp_pos y).le
    exact_mod_cast roundEven_mono (div_le_div_of_nonneg_right hxy (ulp_pos y).le)

/-- Numbers of 53 bits stay where they are. -/
theorem roundBits_exact {m : ℕ} (k : ℤ) (hm : 0 < m) (hm' : m ≤ 2 ^ 53) :
    roundBits (m * 2 ^ k) = m * 2 ^ k := by
  have hpos : (0 : ℚ) < m * 2 ^ k := mul_pos (by exact_mod_cast hm) (zpow_pos (by norm_num) _)
  -- in units of `ulp` the number is an integer
  suffices h : ∃ n : ℤ, (m * 2 ^ k : ℚ) / ulp (m * 2 ^ k) = n by
    obtain ⟨n, hn⟩ := h
    unfold roundBits
    rw [hn, roundEven_intCast, ← hn, div_mul_cancel₀ _ (ulp_pos _).ne']
  obtain ⟨hlow, -⟩ := div_ulp_range hpos
  generalize hlog : Int.log 2 (m * 2 ^ k : ℚ) = e at *
  have hdiv : (m * 2 ^ k : ℚ) / ulp (m * 2 ^ k) = m * 2 ^ (k - e + 52) := by
    rw [ulp, hlog, mul_div_assoc, ← zpow_sub₀ (by norm_num)]
    congr 2
    omega
  rw [hdiv] at hlow ⊢
  rcases le_or_gt 0 (k - e + 52) with hk | hk
  · obtain ⟨j, hj⟩ := Int.eq_ofNat_of_zero_le hk
    exact ⟨m * 2 ^ j, by rw [hj]; push_cast; rw [zpow_natCast]⟩
  · -- only `2 ^ 53` is that long
    have hone : k - e + 52 ≤ -1 := by omega
    have hle : (m : ℚ) * 2 ^ (k - e + 52) ≤ 2 ^ 53 * 2 ^ (-1 : ℤ) :=
      mul_le_mul (by exact_mod_cast hm') (zpow_le_zpow_right₀ (by norm_num) hone)
        (zpow_nonneg (by norm_num) _) (by norm_num)
    refine ⟨2 ^ 52, le_antisymm (hle.trans (by norm_num)) (by exact_mod_cast hlow)⟩

/-! ## Both signs -/

def roundNearest (x : ℚ) : ℚ :=
  if 0 < x then roundBits x else if x < 0 then -roundBits (-x) else 0

theorem roundNearest_of_pos {x : ℚ} (h : 0 < x) : roundNearest x = roundBits x := if_pos h

theorem roundNearest_of_neg {x : ℚ} (h : x < 0) : roundNearest x = -roundBits (-x) := by
  rw [roundNearest, if_neg h.not_gt, if_pos h]

@[simp] theorem roundNearest_zero : roundNearest 0 = 0 := rfl

theorem roundNearest_mono : Monotone roundNearest := by
  intro x y hxy
  have hneg : ∀ {z : ℚ}, z < 0 → roundNearest z ≤ 0 := fun hz => by
    rw [roundNearest_of_neg hz]
    exact neg_nonpos.mpr (roundBits_pos (neg_pos.mpr hz)).le
  have hpos : ∀ {z : ℚ}, 0 < z → 0 ≤ roundNearest z := fun hz => by
    rw [roundNearest_of_pos hz]
    exact (roundBits_pos hz).le
  rcases lt_trichotomy x 0 with hx | rfl | hx
  · rcases lt_trichotomy y 0 with hy | rfl | hy
    · rw [roundNearest_of_neg hx, roundNearest_of_neg hy]
      exact neg_le_neg (roundBits_mono (neg_pos.mpr hy) (neg_le_neg hxy))
    · exact hneg hx
    · exact (hneg hx).trans (hpos hy)
  · rcases hxy.lt_or_eq with hy | rfl
    · exact hpos hy
    · exact le_rfl
  · rw [roundNearest_of_pos hx, roundNearest_of_pos (hx.trans_le hxy)]
    exact roundBits_mono hx hxy

theorem roundNearest_exact (m : ℕ) (k : ℤ) (hm : m ≤ 2 ^ 53) :
    roundNearest (m * 2 ^ k) = m * 2 ^ k := by
  rcases Nat.eq_zero_or_pos m with rfl | hpos
  · simp
  · have h : (0 : ℚ) < m * 2 ^ k := mul_pos (by exact_mod_cast hpos) (zpow_pos (by norm_num) _)
    rw [roundNearest_of_pos h, roundBits_exact k hpos hm]

theorem roundNearest_roundBits {x : ℚ} (hx : 0 < x) : roundNearest (roundBits x) = roundBits x := by
  obtain ⟨hlow, hhigh⟩ := roundEven_range hx
  obtain ⟨m, hm⟩ := Int.eq_ofNat_of_zero_le ((by norm_num : (0 : ℤ) ≤ 2 ^ 52).trans hlow)
  have hm' : m ≤ 2 ^ 53 := by
    rw [hm] at hhigh
    exact_mod_cast hhigh
  unfold roundBits
  rw [hm, ulp]
  exact_mod_cast roundNearest_exact m (Int.log 2 x - 52) hm'

theorem roundNearest_neg (x : ℚ) : roundNearest (-x) = -roundNearest x := by
  rcases lt_trichotomy x 0 with hx | rfl | hx
  · rw [roundNearest_of_neg hx, roundNearest_of_pos (neg_pos.mpr hx), neg_neg]
  · simp
  · rw [roundNearest_of_pos hx, roundNearest_of_neg (neg_neg_iff_pos.mpr hx), neg_neg]

theorem roundNearest_idem (x : ℚ) : roundNearest (roundNearest x) = roundNearest x := by
  rcases lt_trichotomy x 0 with hx | rfl | hx
  · rw [roundNearest_of_neg hx, roundNearest_neg, roundNearest_roundBits (neg_pos.mpr hx)]
  · rfl
  · rw [roundNearest_of_pos hx, roundNearest_roundBits hx]

/-- Below one the error is at most `2 ^ -54`. -/
theorem abs_roundBits_sub_le {x : ℚ} (hx : 0 < x) (hx' : x < 1) :
    |roundBits x - x| ≤ 2 ^ (-54 : ℤ) := by
  have hlog : Int.log 2 x ≤ -1 := by
    have h : ¬ (1 : ℚ) ≤ x := not_le.mpr hx'
    by_contra hc
    have hle : (2 : ℚ) ^ (0 : ℤ) ≤ 2 ^ Int.log 2 x := zpow_le_zpow_right₀ (by norm_num) (by omega)
    have hself : (2 : ℚ) ^ Int.log 2 x ≤ x := by
      exact_mod_cast Int.zpow_log_le_self (b := 2) (by norm_num) hx
    exact h ((by norm_num : (1 : ℚ) = 2 ^ (0 : ℤ)).le.trans (hle.trans hself))
  have hulp : ulp x ≤ 2 ^ (-53 : ℤ) := zpow_le_zpow_right₀ (by norm_num) (by omega)
  have hcancel : x / ulp x * ulp x = x := div_mul_cancel₀ _ (ulp_pos x).ne'
  calc |roundBits x - x|
      = |(roundEven (x / ulp x) : ℚ) - x / ulp x| * ulp x := by
        rw [← abs_of_pos (ulp_pos x), ← abs_mul, abs_of_pos (ulp_pos x), sub_mul, hcancel,
          roundBits]
    _ ≤ 1 / 2 * 2 ^ (-53 : ℤ) :=
        mul_le_mul (abs_roundEven_sub_le _) hulp (ulp_pos x).le (by norm_num)
    _ = 2 ^ (-54 : ℤ) := by norm_num

theorem abs_roundNearest_sub_le {x : ℚ} (hx : 0 ≤ x) (hx' : x ≤ 1) :
    |roundNearest x - x| ≤ 2 ^ (-54 : ℤ) := by
  rcases hx.lt_or_eq with hpos | rfl
  · rcases hx'.lt_or_eq with hlt | rfl
    · rw [roundNearest_of_pos hpos]
      exact abs_roundBits_sub_le hpos hlt
    · have hone : roundNearest 1 = 1 := by simpa using roundNearest_exact 1 0 (by norm_num)
      rw [hone, sub_self, abs_zero]
      positivity
  · rw [roundNearest_zero, sub_self, abs_zero]
    positivity

/-- The next number above one is further away than that. -/
theorem roundNearest_one_add : roundNearest (1 + 2 ^ (-54 : ℤ)) = 1 := by
  have hlog : Int.log 2 (1 + 2 ^ (-54 : ℤ) : ℚ) = 0 := by
    refine le_antisymm ?_ ?_
    · refine Int.lt_add_one_iff.mp ((Int.lt_zpow_iff_log_lt (by norm_num) (by positivity)).mp ?_)
      norm_num
    · refine (Int.zpow_le_iff_le_log (by norm_num) (by positivity)).mp ?_
      norm_num
  have hulp : ulp (1 + 2 ^ (-54 : ℤ)) = 2 ^ (-52 : ℤ) := by rw [ulp, hlog]; rfl
  have hfloor : ⌊(1 + 2 ^ (-54 : ℤ) : ℚ) / 2 ^ (-52 : ℤ)⌋ = 2 ^ 52 := by
    rw [Int.floor_eq_iff]
    norm_num
  rw [roundNearest_of_pos (by positivity), roundBits, hulp, roundEven, hfloor, if_pos (by norm_num)]
  norm_num

theorem roundNearest_split (a : ℚ) (ha : 0 ≤ a) (ha' : a ≤ 1) :
    roundNearest (roundNearest (1 - a) + a) ≤ 1 := by
  have herr := (abs_le.mp (abs_roundNearest_sub_le (sub_nonneg.mpr ha') (sub_le_self 1 ha))).2
  have hle : roundNearest (1 - a) + a ≤ 1 + 2 ^ (-54 : ℤ) := by linarith
  exact (roundNearest_mono hle).trans roundNearest_one_add.le

/-! ## The arithmetic -/

/-- Square roots to 60 binary digits; of a power only the integral part of the exponent counts. -/
def binary64 : FloatOps where
  rnd := roundNearest
  sqrt x := ((⌊x * 2 ^ 120⌋.toNat).sqrt : ℚ) / 2 ^ 60
  powf x y := x ^ ⌊y⌋.toNat
  asSecs n := n / 1000000000
  fromSecs x := (roundEven (x * 1000000000)).toNat
  mono := roundNearest_mono
  idem := roundNearest_idem
  exact := roundNearest_exact
  split := roundNearest_split
  asSecs_mono m n h := div_le_div_of_nonneg_right (Nat.cast_le.mpr h) (by norm_num)
  asSecs_zero := by norm_num
  fromSecs_mono x y h := Int.toNat_le_toNat
    (roundEven_mono (mul_le_mul_of_nonneg_right h (by norm_num)))
  sqrt_zero := by norm_num

end Infra
