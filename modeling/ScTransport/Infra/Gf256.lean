import ScTransport.Infra.Bytes

/-!
# Two rows and one parity row over GF(256)

The field is taken modulo `x ^ 8 + x ^ 4 + x ^ 3 + x ^ 2 + 1`. With two data rows the
systematic Vandermonde code has the single parity row `3 · a + 2 · b`. Either data row comes
back from the other one and the parity row.
-/

namespace Infra

namespace Gf256

def mul2 (x : UInt8) : UInt8 := if 128 ≤ x then x <<< 1 ^^^ 0x1D else x <<< 1

def mul3 (x : UInt8) : UInt8 := mul2 x ^^^ x

/-- Division by two: undo the reduction first if there was one. -/
def div2 (x : UInt8) : UInt8 := if x &&& 1 = 1 then (x ^^^ 0x1D) >>> 1 ||| 0x80 else x >>> 1

/-- Division by three is multiplication by `0xF4`. -/
def div3 (x : UInt8) : UInt8 :=
  let x4 := mul2 (mul2 x)
  let x16 := mul2 (mul2 x4)
  let x32 := mul2 x16
  let x64 := mul2 x32
  x4 ^^^ x16 ^^^ x32 ^^^ x64 ^^^ mul2 x64

/-- A fact about bytes may be checked on the 256 of them. -/
theorem forall_byte {P : UInt8 → Prop} (h : ∀ n : Fin 256, P (UInt8.ofNat n.val)) (x : UInt8) :
    P x := by
  have hx := h ⟨x.toNat, x.toNat_lt⟩
  rwa [UInt8.ofNat_toNat] at hx

theorem div2_mul2 (x : UInt8) : div2 (mul2 x) = x := by
  revert x
  exact forall_byte (by decide +kernel)

theorem div3_mul3 (x : UInt8) : div3 (mul3 x) = x := by
  revert x
  exact forall_byte (by decide +kernel)

def parityRow (a b : Bytes) : Bytes := List.zipWith (fun x y => mul3 x ^^^ mul2 y) a b

/-- The first row from the second and the parity. -/
def firstRow (b c : Bytes) : Bytes := List.zipWith (fun y z => div3 (z ^^^ mul2 y)) b c

/-- The second row from the first and the parity. -/
def secondRow (a c : Bytes) : Bytes := List.zipWith (fun x z => div2 (z ^^^ mul3 x)) a c

theorem length_parityRow {a b : Bytes} (h : a.length = b.length) :
    (parityRow a b).length = a.length := by
  simp [parityRow, h]

theorem firstRow_parityRow : ∀ {a b : Bytes}, a.length = b.length →
    firstRow b (parityRow a b) = a
  | [], [], _ => rfl
  | x :: a, y :: b, h => by
    have ih := firstRow_parityRow (a := a) (b := b) (by simpa using h)
    have hx : div3 (mul3 x ^^^ mul2 y ^^^ mul2 y) = x := by
      rw [UInt8.xor_assoc, UInt8.xor_self, UInt8.xor_zero, div3_mul3]
    unfold firstRow parityRow at *
    simp only [List.zipWith_cons_cons, hx, ih]

theorem secondRow_parityRow : ∀ {a b : Bytes}, a.length = b.length →
    secondRow a (parityRow a b) = b
  | [], [], _ => rfl
  | x :: a, y :: b, h => by
    have ih := secondRow_parityRow (a := a) (b := b) (by simpa using h)
    have hy : div2 (mul3 x ^^^ mul2 y ^^^ mul3 x) = y := by
      rw [UInt8.xor_comm (mul3 x), UInt8.xor_assoc, UInt8.xor_self, UInt8.xor_zero, div2_mul2]
    unfold secondRow parityRow at *
    simp only [List.zipWith_cons_cons, hy, ih]

end Gf256

end Infra
