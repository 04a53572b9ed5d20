import Mathlib.Data.List.GetD
import Mathlib.Tactic.Ring

/-!
# Byte buffers and files as byte lists

A file is the list of its bytes. Positions past the end read as absent, so every
statement about reading is a statement about `getElem?`.

* `slice` — the bytes `[off, off + len)`, clipped at the end of the file
* `resize` — `Vec::resize(n, 0)` and `File::set_len`: cut, or pad with zeros
* `writeAt` — seek, then write everything
* `toBe32` / `ofBe32` — the four byte big-endian length prefix

The lemma behind all the frame conditions is `getElem?_writeAt`.
-/

namespace Infra

/-- The content of a file, or a buffer on the wire. -/
abbrev Bytes := List UInt8

/-! ## Reading -/

/-- The bytes `[off, off + len)` of a file, clipped at its end. -/
def slice (bs : Bytes) (off len : Nat) : Bytes := (bs.drop off).take len

theorem getElem?_slice (bs : Bytes) (off len i : Nat) :
    (slice bs off len)[i]? = if i < len then bs[off + i]? else none := by
  unfold slice
  rw [List.getElem?_take]
  split
  · rw [List.getElem?_drop]
  · rfl

@[simp] theorem length_slice (bs : Bytes) (off len : Nat) :
    (slice bs off len).length = min len (bs.length - off) := by
  simp [slice]

theorem slice_append_mid (a b c : Bytes) : slice (a ++ (b ++ c)) a.length b.length = b := by
  simp [slice]

/-- A slice ends where the file ends. -/
theorem slice_clip (bs : Bytes) (off len : Nat) :
    slice bs off (min len (bs.length - off)) = slice bs off len := by
  unfold slice
  rw [List.take_eq_take_iff]
  simp

/--
**Two files with the same chunks are the same file.**

Every position lies in the chunk `i / c`, so agreeing on all chunks that begin inside the
file is agreeing on every byte.
-/
theorem eq_of_slices {a b : Bytes} {c : Nat} (hc : 0 < c) (hlen : a.length = b.length)
    (h : ∀ i, i * c < a.length → slice a (i * c) c = slice b (i * c) c) : a = b := by
  refine List.ext_getElem? fun k => ?_
  by_cases hk : k < a.length
  · have hdiv : k / c * c + k % c = k := Nat.div_add_mod' k c
    have hmod : k % c < c := Nat.mod_lt k hc
    have heq := congrArg (fun l : Bytes => l[k % c]?) (h (k / c) (by omega))
    simp only [getElem?_slice, hmod, if_true, hdiv] at heq
    exact heq
  · rw [List.getElem?_eq_none (by omega), List.getElem?_eq_none (by omega)]

/-! ## Resizing -/

/-- Cut to `n` bytes, or pad with zeros up to `n`. -/
def resize (bs : Bytes) (n : Nat) : Bytes := bs.take n ++ List.replicate (n - bs.length) 0

@[simp] theorem length_resize (bs : Bytes) (n : Nat) : (resize bs n).length = n := by
  simp only [resize, List.length_append, List.length_take, List.length_replicate]
  omega

theorem resize_of_le {bs : Bytes} {n : Nat} (h : bs.length ≤ n) :
    resize bs n = bs ++ List.replicate (n - bs.length) 0 := by
  rw [resize, List.take_of_length_le h]

@[simp] theorem resize_length (bs : Bytes) : resize bs bs.length = bs := by
  simp [resize]

theorem getElem?_resize_of_lt {bs : Bytes} {n i : Nat} (hn : i < n) (hi : i < bs.length) :
    (resize bs n)[i]? = bs[i]? := by
  unfold resize
  rw [List.getElem?_append_left (by simp; omega), List.getElem?_take, if_pos hn]

/-- What lies within both lengths is not touched. -/
theorem slice_resize {bs : Bytes} {n off len : Nat} (hn : off + len ≤ n)
    (hbs : off + len ≤ bs.length) : slice (resize bs n) off len = slice bs off len := by
  refine List.ext_getElem? fun i => ?_
  rw [getElem?_slice, getElem?_slice]
  split
  · rw [getElem?_resize_of_lt (by omega) (by omega)]
  · rfl

/-! ## Writing -/

/--
Seek to `off` and write all of `bs`.

A write beyond the end fills the hole with zeros. Writing nothing changes nothing, also
beyond the end.
-/
def writeAt (f : Bytes) (off : Nat) (bs : Bytes) : Bytes :=
  if bs = [] then f else resize f off ++ bs ++ f.drop (off + bs.length)

/-- **What a write does to each byte**: inside the written range the new byte, else the old. -/
theorem getElem?_writeAt {f : Bytes} {off : Nat} (h : off ≤ f.length) (bs : Bytes) (i : Nat) :
    (writeAt f off bs)[i]? =
      if off ≤ i ∧ i < off + bs.length then bs[i - off]? else f[i]? := by
  unfold writeAt
  split
  · next hnil =>
    subst hnil
    rw [if_neg (by simp)]
  · rw [List.append_assoc]
    by_cases hlo : i < off
    · rw [if_neg (by omega), List.getElem?_append_left (by simpa using hlo)]
      exact getElem?_resize_of_lt hlo (by omega)
    · rw [List.getElem?_append_right (by simp; omega), length_resize]
      by_cases hhi : i < off + bs.length
      · rw [if_pos (by omega), List.getElem?_append_left (by omega)]
      · rw [if_neg (by omega), List.getElem?_append_right (by omega), List.getElem?_drop]
        congr 1
        omega

theorem length_writeAt {f bs : Bytes} {off : Nat} (h : off + bs.length ≤ f.length) :
    (writeAt f off bs).length = f.length := by
  unfold writeAt
  split
  · rfl
  · simp only [List.length_append, length_resize, List.length_drop]
    omega

/-- The written range reads back as what was written. -/
theorem slice_writeAt_self {f : Bytes} {off : Nat} (h : off ≤ f.length) (bs : Bytes) :
    slice (writeAt f off bs) off bs.length = bs := by
  refine List.ext_getElem? fun i => ?_
  rw [getElem?_slice]
  split
  · next hi =>
    rw [getElem?_writeAt h, if_pos (by omega), Nat.add_sub_cancel_left]
  · next hi => rw [List.getElem?_eq_none (by omega)]

/-- A write leaves every range alone that it does not touch. -/
theorem slice_writeAt_of_disjoint {f bs : Bytes} {off o n : Nat} (h : off ≤ f.length)
    (hd : o + n ≤ off ∨ off + bs.length ≤ o) : slice (writeAt f off bs) o n = slice f o n := by
  refine List.ext_getElem? fun i => ?_
  rw [getElem?_slice, getElem?_slice]
  split
  · next hi =>
    rw [getElem?_writeAt h, if_neg (by omega)]
  · rfl

/-! ## The length prefix -/

/-- `u32::to_be_bytes`. -/
def toBe32 (n : Nat) : Bytes :=
  [UInt8.ofNat (n / 2 ^ 24), UInt8.ofNat (n / 2 ^ 16), UInt8.ofNat (n / 2 ^ 8), UInt8.ofNat n]

/-- `u32::from_be_bytes`, on as many bytes as it is given. -/
def ofBe32 (bs : Bytes) : Nat := bs.foldl (fun a b => a * 256 + b.toNat) 0

@[simp] theorem length_toBe32 (n : Nat) : (toBe32 n).length = 4 := rfl

@[simp] theorem take_toBe32 (n : Nat) (bs : Bytes) : (toBe32 n ++ bs).take 4 = toBe32 n := rfl

@[simp] theorem drop_toBe32 (n : Nat) (bs : Bytes) : (toBe32 n ++ bs).drop 4 = bs := rfl

theorem foldl_be_lt : ∀ (bs : Bytes) (a : Nat),
    bs.foldl (fun a b => a * 256 + b.toNat) a < (a + 1) * 256 ^ bs.length
  | [], a => by simp
  | b :: bs, a => by
    have hb : b.toNat < 256 := b.toNat_lt
    calc bs.foldl (fun a b => a * 256 + b.toNat) (a * 256 + b.toNat)
        < (a * 256 + b.toNat + 1) * 256 ^ bs.length := foldl_be_lt bs _
      _ ≤ (a + 1) * 256 * 256 ^ bs.length := Nat.mul_le_mul_right _ (by omega)
      _ = (a + 1) * 256 ^ (bs.length + 1) := by rw [Nat.mul_assoc, Nat.pow_succ']

theorem ofBe32_lt {bs : Bytes} (h : bs.length ≤ 4) : ofBe32 bs < 2 ^ 32 :=
  calc ofBe32 bs < (0 + 1) * 256 ^ bs.length := foldl_be_lt bs 0
    _ = 256 ^ bs.length := by rw [Nat.zero_add, Nat.one_mul]
    _ ≤ 256 ^ 4 := Nat.pow_le_pow_right (by decide) h

theorem ofBe32_toBe32 {n : Nat} (h : n < 2 ^ 32) : ofBe32 (toBe32 n) = n := by
  simp only [toBe32, ofBe32, List.foldl_cons, List.foldl_nil, UInt8.toNat_ofNat']
  omega

end Infra
