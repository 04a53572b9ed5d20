import Mathlib.Algebra.Order.Archimedean.Basic
import Mathlib.Algebra.Order.Field.Power
import Mathlib.Data.Rat.Cast.Order
import Mathlib.Tactic.Linarith
import Mathlib.Tactic.NormNum
import Mathlib.Tactic.Positivity

/-!
# Arithmetic that rounds

Every operation on floats is the exact operation on rationals followed by a rounding `rnd`. What
is proved here holds for every monotone rounding that leaves numbers of 53 significant bits alone,
so for round-to-nearest as well as for exact arithmetic. There is no overflow, no underflow and no
`NaN`.

* `FloatOps` — the rounding, and the functions of the mathematical library
* `Fl` — the numbers that a rounding leaves alone
* `Fl.add_mono`, `Fl.mul_mono_left`, `Fl.div_mono`, … — the operations are monotone
* `Fl.mix_le_one` — a weighted mean of numbers up to one is at most one
-/

namespace Infra

/-- The square root, the powers and the conversion of durations are those of a library. -/
structure FloatOps where
  rnd : ℚ → ℚ
  sqrt : ℚ → ℚ
  powf : ℚ → ℚ → ℚ
  /-- A number of nanoseconds in seconds. -/
  asSecs : ℕ → ℚ
  fromSecs : ℚ → ℕ
  mono : Monotone rnd
  idem : ∀ x, rnd (rnd x) = rnd x
  exact : ∀ (m : ℕ) (k : ℤ), m ≤ 2 ^ 53 → rnd (m * 2 ^ k) = m * 2 ^ k
  /-- `1 - a + a` does not exceed one, although `1 - a` may be rounded up. -/
  split : ∀ a, 0 ≤ a → a ≤ 1 → rnd (rnd (1 - a) + a) ≤ 1
  asSecs_mono : Monotone asSecs
  asSecs_zero : asSecs 0 = 0
  fromSecs_mono : Monotone fromSecs
  sqrt_zero : sqrt 0 = 0

namespace FloatOps

variable (R : FloatOps)

theorem rnd_natCast {n : ℕ} (h : n ≤ 2 ^ 53) : R.rnd n = n := by
  simpa using R.exact n 0 h

theorem rnd_two_zpow (k : ℤ) : R.rnd (2 ^ k) = 2 ^ k := by
  simpa using R.exact 1 k (by norm_num)

@[simp] theorem rnd_zero : R.rnd 0 = 0 := by
  simpa using R.rnd_natCast (Nat.zero_le _)

@[simp] theorem rnd_one : R.rnd 1 = 1 := by
  simpa using R.rnd_two_zpow 0

theorem rnd_nonneg {x : ℚ} (h : 0 ≤ x) : 0 ≤ R.rnd x := by
  simpa using R.mono h

theorem rnd_nonpos {x : ℚ} (h : x ≤ 0) : R.rnd x ≤ 0 := by
  simpa using R.mono h

theorem rnd_pos {x : ℚ} (h : 0 < x) : 0 < R.rnd x := by
  -- some power of two is below `x` and stays where it is
  obtain ⟨n, hn⟩ := exists_pow_lt_of_lt_one h (by norm_num : (1 / 2 : ℚ) < 1)
  have hpow : (2 : ℚ) ^ (-(n : ℤ)) = (1 / 2) ^ n := by
    rw [zpow_neg, zpow_natCast, one_div, inv_pow]
  calc (0 : ℚ) < 2 ^ (-(n : ℤ)) := by positivity
    _ = R.rnd (2 ^ (-(n : ℤ))) := (R.rnd_two_zpow _).symm
    _ ≤ R.rnd x := R.mono (hpow ▸ hn.le)

end FloatOps

/-! ## The numbers -/

/-- A number that the arithmetic can hold. -/
structure Fl (R : FloatOps) where
  val : ℚ
  isFl : R.rnd val = val

namespace Fl

variable {R : FloatOps}

theorem val_injective : Function.Injective (val : Fl R → ℚ) := by
  rintro ⟨a, ha⟩ ⟨b, hb⟩ rfl
  rfl

instance : LinearOrder (Fl R) := LinearOrder.lift' val val_injective

def ofRat (q : ℚ) : Fl R := ⟨R.rnd q, R.idem q⟩

instance : Zero (Fl R) := ⟨⟨0, R.rnd_zero⟩⟩
instance : One (Fl R) := ⟨⟨1, R.rnd_one⟩⟩
instance : Inhabited (Fl R) := ⟨0⟩
instance : Add (Fl R) := ⟨fun a b => ofRat (a.val + b.val)⟩
instance : Sub (Fl R) := ⟨fun a b => ofRat (a.val - b.val)⟩
instance : Mul (Fl R) := ⟨fun a b => ofRat (a.val * b.val)⟩
instance : Div (Fl R) := ⟨fun a b => ofRat (a.val / b.val)⟩
instance : NatCast (Fl R) := ⟨fun n => ofRat n⟩
instance : OfScientific (Fl R) := ⟨fun m s e => ofRat (OfScientific.ofScientific m s e)⟩

def sqrt (a : Fl R) : Fl R := ofRat (R.sqrt a.val)

def powf (a b : Fl R) : Fl R := ofRat (R.powf a.val b.val)

def abs (a : Fl R) : Fl R := max a (0 - a)

def clamp (a lo hi : Fl R) : Fl R := max lo (min a hi)

/-- To the nearest integer, halves away from zero. -/
def round (a : Fl R) : Fl R :=
  ofRat (if 0 ≤ a then (a.val + 1 / 2).floor else -(1 / 2 - a.val).floor)

/-- The integer part, and zero below zero. -/
def toNat (a : Fl R) : ℕ := a.val.floor.toNat

def ceilNat (a : Fl R) : ℕ := ⌈a.val⌉.toNat

def asSecs (nanos : ℕ) : Fl R := ofRat (R.asSecs nanos)

def fromSecs (a : Fl R) : ℕ := R.fromSecs a.val

def sum (l : List (Fl R)) : Fl R := l.foldl (· + ·) 0

/-! ## Order -/

variable {a b c d : Fl R}

theorem le_def : a ≤ b ↔ a.val ≤ b.val := Iff.rfl

theorem lt_def : a < b ↔ a.val < b.val := by
  rw [← not_le, ← not_le, le_def]

@[simp] theorem val_zero : (0 : Fl R).val = 0 := rfl

@[simp] theorem val_one : (1 : Fl R).val = 1 := rfl

instance : ZeroLEOneClass (Fl R) := ⟨le_def.mpr zero_le_one⟩

@[simp] theorem ofRat_val (a : Fl R) : ofRat a.val = a := val_injective a.isFl

@[simp] theorem ofRat_zero : (ofRat 0 : Fl R) = 0 := val_injective R.rnd_zero

@[simp] theorem ofRat_one : (ofRat 1 : Fl R) = 1 := val_injective R.rnd_one

theorem ofRat_le {p q : ℚ} (h : p ≤ q) : (ofRat p : Fl R) ≤ ofRat q := R.mono h

theorem ofRat_nonneg {q : ℚ} (h : 0 ≤ q) : (0 : Fl R) ≤ ofRat q := R.rnd_nonneg h

theorem ofRat_nonpos {q : ℚ} (h : q ≤ 0) : (ofRat q : Fl R) ≤ 0 := R.rnd_nonpos h

theorem ofRat_pos {q : ℚ} (h : 0 < q) : (0 : Fl R) < ofRat q := lt_def.mpr (R.rnd_pos h)

/-! ## The operations are monotone -/

theorem add_mono (hab : a ≤ b) (hcd : c ≤ d) : a + c ≤ b + d := ofRat_le (add_le_add hab hcd)

theorem nonneg_add (ha : 0 ≤ a) (hb : 0 ≤ b) : 0 ≤ a + b := ofRat_nonneg (add_nonneg ha hb)

theorem nonneg_sub (h : b ≤ a) : 0 ≤ a - b := ofRat_nonneg (sub_nonneg.mpr h)

theorem nonpos_sub (h : a ≤ b) : a - b ≤ 0 := ofRat_nonpos (sub_nonpos.mpr h)

theorem sub_mono (hab : a ≤ b) (hcd : c ≤ d) : a - d ≤ b - c := ofRat_le (sub_le_sub hab hcd)

theorem sub_le_self (hb : 0 ≤ b) : a - b ≤ a := by
  conv_rhs => rw [← ofRat_val a]
  exact ofRat_le (sub_le_self_iff a.val |>.mpr hb)

theorem nonneg_square (a : Fl R) : 0 ≤ a * a := ofRat_nonneg (mul_self_nonneg a.val)

theorem nonneg_mul (ha : 0 ≤ a) (hb : 0 ≤ b) : 0 ≤ a * b := ofRat_nonneg (mul_nonneg ha hb)

theorem mul_mono_left (ha : 0 ≤ a) (hbc : b ≤ c) : a * b ≤ a * c :=
  ofRat_le (mul_le_mul_of_nonneg_left hbc ha)

theorem mul_mono_right (hc : 0 ≤ c) (hab : a ≤ b) : a * c ≤ b * c :=
  ofRat_le (mul_le_mul_of_nonneg_right hab hc)

@[simp] theorem mul_one' (a : Fl R) : a * 1 = a := by
  show ofRat (a.val * 1) = a
  rw [mul_one, ofRat_val]

@[simp] theorem one_mul' (a : Fl R) : 1 * a = a := by
  show ofRat (1 * a.val) = a
  rw [one_mul, ofRat_val]

theorem mul_le_of_le_one (ha : 0 ≤ a) (hb : b ≤ 1) : a * b ≤ a := by
  have h := mul_mono_left ha hb
  rwa [mul_one'] at h

theorem le_mul_of_one_le (ha : 0 ≤ a) (hb : 1 ≤ b) : a ≤ a * b := by
  have h := mul_mono_left ha hb
  rwa [mul_one'] at h

theorem nonneg_div (ha : 0 ≤ a) (hb : 0 ≤ b) : 0 ≤ a / b := ofRat_nonneg (div_nonneg ha hb)

theorem div_mono (hc : 0 ≤ c) (hab : a ≤ b) : a / c ≤ b / c :=
  ofRat_le (div_le_div_of_nonneg_right hab hc)

@[simp] theorem add_zero' (a : Fl R) : a + 0 = a := by
  show ofRat (a.val + 0) = a
  rw [add_zero, ofRat_val]

@[simp] theorem zero_mul' (a : Fl R) : 0 * a = 0 := by
  show ofRat (0 * a.val) = 0
  rw [zero_mul, ofRat_zero]

@[simp] theorem mul_zero' (a : Fl R) : a * 0 = 0 := by
  show ofRat (a.val * 0) = 0
  rw [mul_zero, ofRat_zero]

@[simp] theorem zero_div' (a : Fl R) : 0 / a = 0 := by
  show ofRat (0 / a.val) = 0
  rw [zero_div, ofRat_zero]

/-! ## Integers, literals and durations -/

theorem natCast_mono {m n : ℕ} (h : m ≤ n) : (m : Fl R) ≤ n := ofRat_le (Nat.cast_le.mpr h)

theorem nonneg_natCast (n : ℕ) : (0 : Fl R) ≤ n := ofRat_nonneg (Nat.cast_nonneg n)

theorem val_natCast {n : ℕ} (h : n ≤ 2 ^ 53) : (n : Fl R).val = n := R.rnd_natCast h

/-- Literals are compared as the rationals they stand for. -/
theorem literal_le {m m' e e' : ℕ} {s s' : Bool}
    (h : (OfScientific.ofScientific m s e : ℚ) ≤ OfScientific.ofScientific m' s' e') :
    (OfScientific.ofScientific m s e : Fl R) ≤ OfScientific.ofScientific m' s' e' := ofRat_le h

theorem literal_le_one {m e : ℕ} {s : Bool} (h : (OfScientific.ofScientific m s e : ℚ) ≤ 1) :
    (OfScientific.ofScientific m s e : Fl R) ≤ 1 := by
  rw [← ofRat_one]
  exact ofRat_le h

theorem one_le_literal {m e : ℕ} {s : Bool} (h : (1 : ℚ) ≤ OfScientific.ofScientific m s e) :
    (1 : Fl R) ≤ OfScientific.ofScientific m s e := by
  rw [← ofRat_one]
  exact ofRat_le h

theorem pos_literal {m e : ℕ} {s : Bool} (h : (0 : ℚ) < OfScientific.ofScientific m s e) :
    (0 : Fl R) < OfScientific.ofScientific m s e := ofRat_pos h

theorem val_literal {m e n : ℕ} {s : Bool} (hn : n ≤ 2 ^ 53)
    (h : (OfScientific.ofScientific m s e : ℚ) = n) :
    (OfScientific.ofScientific m s e : Fl R).val = n := by
  show R.rnd _ = _
  rw [h]
  exact R.rnd_natCast hn

theorem asSecs_mono {m n : ℕ} (h : m ≤ n) : (asSecs m : Fl R) ≤ asSecs n :=
  ofRat_le (R.asSecs_mono h)

/-- A number with few digits keeps its value. -/
theorem val_ofRat {q : ℚ} {m : ℕ} {k : ℤ} (hm : m ≤ 2 ^ 53) (hq : q = m * 2 ^ k) :
    (ofRat q : Fl R).val = q := by
  rw [hq]
  exact R.exact m k hm

/-- Rounding does not take a count across a number with few digits. -/
theorem val_natCast_le {n m k : ℕ} (hm : m ≤ 2 ^ 53) (h : n ≤ m * 2 ^ k) :
    (n : Fl R).val ≤ m * 2 ^ k := by
  have hexact := R.exact m k hm
  rw [zpow_natCast] at hexact
  rw [← hexact]
  exact R.mono (by exact_mod_cast h)

theorem le_val_natCast {n m k : ℕ} (hm : m ≤ 2 ^ 53) (h : m * 2 ^ k ≤ n) :
    m * 2 ^ k ≤ (n : Fl R).val := by
  have hexact := R.exact m k hm
  rw [zpow_natCast] at hexact
  rw [← hexact]
  exact R.mono (by exact_mod_cast h)

theorem nonneg_asSecs (n : ℕ) : (0 : Fl R) ≤ asSecs n := by
  have h : (asSecs 0 : Fl R) = 0 := by rw [asSecs, R.asSecs_zero, ofRat_zero]
  rw [← h]
  exact asSecs_mono (Nat.zero_le n)

theorem fromSecs_mono (h : a ≤ b) : a.fromSecs ≤ b.fromSecs := R.fromSecs_mono h

/-! ## Ranges -/

theorem le_clamp (a : Fl R) {lo hi : Fl R} : lo ≤ clamp a lo hi := le_max_left _ _

theorem clamp_le (a : Fl R) {lo hi : Fl R} (h : lo ≤ hi) : clamp a lo hi ≤ hi :=
  max_le h (min_le_right _ _)

theorem toNat_le {n : ℕ} (h : a.val ≤ n) : toNat a ≤ n := by
  have hfloor : ⌊a.val⌋ ≤ n := Int.floor_le_iff.mpr (lt_of_le_of_lt h (by push_cast; linarith))
  show ⌊a.val⌋.toNat ≤ n
  omega

theorem toNat_eq_zero (h : a < 1) : toNat a = 0 := by
  have hfloor : ⌊a.val⌋ < 1 := Int.floor_lt.mpr (by exact_mod_cast lt_def.mp h)
  show ⌊a.val⌋.toNat = 0
  omega

theorem le_toNat {n : ℕ} (h : n ≤ a.val) : n ≤ toNat a := by
  have hfloor : (n : ℤ) ≤ ⌊a.val⌋ := Int.le_floor.mpr (by exact_mod_cast h)
  show n ≤ ⌊a.val⌋.toNat
  omega

theorem ceilNat_mono (h : a ≤ b) : ceilNat a ≤ ceilNat b :=
  Int.toNat_le_toNat (Int.ceil_mono (le_def.mp h))

theorem nonneg_sum {l : List (Fl R)} (h : ∀ a ∈ l, 0 ≤ a) : 0 ≤ sum l := by
  have hfold : ∀ (l : List (Fl R)) (init : Fl R), 0 ≤ init → (∀ a ∈ l, 0 ≤ a) →
      0 ≤ l.foldl (· + ·) init := by
    intro l
    induction l with
    | nil => exact fun _ hinit _ => hinit
    | cons a l ih =>
      intro init hinit hl
      exact ih _ (nonneg_add hinit (hl a List.mem_cons_self)) fun b hb =>
        hl b (List.mem_cons_of_mem a hb)
  exact hfold l 0 le_rfl h

/-- A weighted mean of numbers up to one is at most one, however it is rounded. -/
theorem mix_le_one (ha : 0 ≤ a) (ha' : a ≤ 1) (hb : b ≤ 1) (hc : c ≤ 1) :
    (1 - a) * b + a * c ≤ 1 := by
  have hb' : (1 - a) * b ≤ 1 - a := by
    simpa using mul_mono_left (nonneg_sub ha') hb
  have hc' : a * c ≤ a := by
    simpa using mul_mono_left ha hc
  exact (add_mono hb' hc').trans (R.split a.val ha ha')

theorem add_comm' (a b : Fl R) : a + b = b + a := by
  show ofRat (a.val + b.val) = ofRat (b.val + a.val)
  rw [add_comm]

theorem nonneg_mix (ha : 0 ≤ a) (ha' : a ≤ 1) (hb : 0 ≤ b) (hc : 0 ≤ c) :
    0 ≤ (1 - a) * b + a * c :=
  nonneg_add (nonneg_mul (nonneg_sub ha') hb) (nonneg_mul ha hc)

end Fl

end Infra
