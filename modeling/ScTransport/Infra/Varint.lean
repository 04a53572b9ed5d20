import ScTransport.Infra.Bytes

/-!
# Little-endian integers and marked varints

A varint is one byte for small values, and otherwise a marker followed by two, four or eight
little-endian bytes. Readers take what they need from the front and return the rest.
-/

namespace Infra

/-! ## Little-endian -/

/-- The `k` low bytes of `n`, least significant first. -/
def leBytes : Nat → Nat → Bytes
  | 0, _ => []
  | k + 1, n => UInt8.ofNat (n % 256) :: leBytes k (n / 256)

def ofLe : Bytes → Nat
  | [] => 0
  | b :: rest => b.toNat + 256 * ofLe rest

def readLe (k : Nat) (bs : Bytes) : Option (Nat × Bytes) :=
  if k ≤ bs.length then some (ofLe (bs.take k), bs.drop k) else none

@[simp] theorem length_leBytes : ∀ k n : Nat, (leBytes k n).length = k
  | 0, _ => rfl
  | k + 1, n => by simp [leBytes, length_leBytes k]

theorem ofLe_leBytes : ∀ {k n : Nat}, n < 256 ^ k → ofLe (leBytes k n) = n
  | 0, n, h => by
    rw [Nat.pow_zero] at h
    simp only [leBytes, ofLe]
    omega
  | k + 1, n, h => by
    have ih : ofLe (leBytes k (n / 256)) = n / 256 := ofLe_leBytes (by
      rw [Nat.pow_succ] at h
      exact Nat.div_lt_of_lt_mul (by omega))
    have hb : (UInt8.ofNat (n % 256)).toNat = n % 256 := by
      rw [UInt8.toNat_ofNat', Nat.mod_eq_of_lt (Nat.mod_lt _ (by decide))]
    simp only [leBytes, ofLe, ih, hb]
    omega

theorem readLe_leBytes {k n : Nat} (h : n < 256 ^ k) (rest : Bytes) :
    readLe k (leBytes k n ++ rest) = some (n, rest) := by
  unfold readLe
  rw [if_pos (by simp), List.take_left' (length_leBytes k n), List.drop_left' (length_leBytes k n),
    ofLe_leBytes h]

/-! ## Varints -/

def varint (n : Nat) : Bytes :=
  if n < 251 then [UInt8.ofNat n]
  else if n < 2 ^ 16 then 251 :: leBytes 2 n
  else if n < 2 ^ 32 then 252 :: leBytes 4 n
  else 253 :: leBytes 8 n

def readVarint : Bytes → Option (Nat × Bytes)
  | [] => none
  | b :: rest =>
    if b.toNat < 251 then some (b.toNat, rest)
    else if b = 251 then readLe 2 rest
    else if b = 252 then readLe 4 rest
    else if b = 253 then readLe 8 rest
    else none

theorem length_varint (n : Nat) : 0 < (varint n).length ∧ (varint n).length ≤ 9 := by
  unfold varint
  split
  · simp
  · split
    · simp
    · split <;> simp

/-- A number of 32 bits does not take the longest form. -/
theorem head?_varint_ne {n : Nat} (h : n < 2 ^ 32) (rest : Bytes) :
    (varint n ++ rest).head? ≠ some 253 := by
  unfold varint
  split
  · next hlt =>
    intro heq
    have hb := congrArg UInt8.toNat (Option.some.inj heq)
    rw [UInt8.toNat_ofNat', Nat.mod_eq_of_lt (by omega)] at hb
    simp at hb
    omega
  · split <;> simp

/-- **A varint reads back**, and the reader stops right behind it. -/
theorem readVarint_varint {n : Nat} (h : n < 2 ^ 64) (rest : Bytes) :
    readVarint (varint n ++ rest) = some (n, rest) := by
  unfold varint
  split
  · next hlt =>
    have hb : (UInt8.ofNat n).toNat = n := by
      rw [UInt8.toNat_ofNat', Nat.mod_eq_of_lt (by omega)]
    simp only [List.cons_append, List.nil_append, readVarint, hb]
    rw [if_pos hlt]
  · split
    · next h16 => exact readLe_leBytes (k := 2) (by omega) rest
    · split
      · next h32 => exact readLe_leBytes (k := 4) (by omega) rest
      · exact readLe_leBytes (k := 8) (by omega) rest

end Infra
