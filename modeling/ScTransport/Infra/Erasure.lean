import ScTransport.Infra.Bytes
import Mathlib.Data.Finset.Card

/-!
# Partial views of an erasure-coded block

A block of an erasure code is a list of rows, the codeword. A receiver holds a list of
slots of the same length, some of them filled. `Agrees` says that what is filled is what the
codeword has there.

The only counting fact the decoder needs is `card_le_present`: a set of filled slots is no
larger than the number of slots found filled by walking over the list.
-/

namespace Infra

variable {α : Type}

/-- How many slots are filled. -/
def present (slots : List (Option α)) : Nat := slots.countP Option.isSome

/-- The filled slots are the rows of the codeword. -/
structure Agrees (slots : List (Option α)) (code : List α) : Prop where
  length_eq : slots.length = code.length
  row : ∀ {i : Nat} {b : α}, slots[i]? = some (some b) → code[i]? = some b

@[simp] theorem present_map (slots : List (Option α)) (f : α → α) :
    present (slots.map (Option.map f)) = present slots := by
  unfold present
  rw [List.countP_map]
  congr 1
  funext o
  simp

/-- **A set of filled slots is no larger than the count.** -/
theorem card_le_present : ∀ (slots : List (Option α)) (s : Finset Nat),
    (∀ i ∈ s, ∃ b, slots[i]? = some (some b)) → s.card ≤ present slots
  | [], s, h => by
    have hs : s = ∅ := Finset.eq_empty_of_forall_notMem fun i hi => by
      obtain ⟨b, hb⟩ := h i hi
      simp at hb
    simp [hs]
  | o :: rest, s, h => by
    -- the positions behind the head, shifted down by one
    have hrest := card_le_present rest ((s.erase 0).image Nat.pred) (by
      intro i hi
      obtain ⟨j, hj, rfl⟩ := Finset.mem_image.mp hi
      obtain ⟨hj0, hjs⟩ := Finset.mem_erase.mp hj
      obtain ⟨b, hb⟩ := h j hjs
      obtain ⟨k, rfl⟩ := Nat.exists_eq_succ_of_ne_zero hj0
      exact ⟨b, by simpa using hb⟩)
    have hinj : Set.InjOn Nat.pred (s.erase 0 : Finset Nat) := by
      intro a ha b hb hab
      have ha0 : a ≠ 0 := (Finset.mem_erase.mp ha).1
      have hb0 : b ≠ 0 := (Finset.mem_erase.mp hb).1
      simp only [Nat.pred_eq_sub_one] at hab
      omega
    rw [Finset.card_image_of_injOn hinj] at hrest
    unfold present at hrest ⊢
    rw [List.countP_cons]
    by_cases h0 : 0 ∈ s
    · obtain ⟨b, hb⟩ := h 0 h0
      have ho : o = some b := by simpa using hb
      rw [Finset.card_erase_of_mem h0] at hrest
      simp only [ho, Option.isSome_some, if_true]
      omega
    · rw [Finset.erase_eq_of_notMem h0] at hrest
      omega

/-- The count is no larger than any set that contains all filled slots. -/
theorem present_le_card : ∀ (slots : List (Option α)) (s : Finset Nat),
    (∀ (i : Nat) (b : α), slots[i]? = some (some b) → i ∈ s) → present slots ≤ s.card
  | [], s, _ => Nat.zero_le _
  | o :: rest, s, h => by
    have hrest := present_le_card rest ((s.erase 0).image Nat.pred) (by
      intro i b hb
      refine Finset.mem_image.mpr ⟨i + 1, Finset.mem_erase.mpr ⟨by omega, ?_⟩, rfl⟩
      exact h (i + 1) b (by simpa using hb))
    have himg := hrest.trans Finset.card_image_le
    unfold present at himg ⊢
    rw [List.countP_cons]
    cases ho : o with
    | none =>
      have := Finset.card_erase_le (s := s) (a := 0)
      simp only [Option.isSome_none, Bool.false_eq_true, if_false]
      omega
    | some b =>
      have h0 : 0 ∈ s := h 0 b (by simp [ho])
      have := Finset.card_erase_add_one h0
      simp only [Option.isSome_some, if_true]
      omega

end Infra
