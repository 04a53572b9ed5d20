import Mathlib.Data.List.Basic

/-!
# Pools

A system keeps its tasks in a list and names each by its place. A task moves by replacing what is
at its place, and a new one is appended, so that no place changes its owner.

- `getElem?_set_cases`, `getElem?_concat_cases`: who is at a place afterwards
- `countP_set_add`, `countP_concat_add`: how many tasks are in a given state afterwards
-/

namespace Infra

variable {α : Type*} {pool : List α} {i j : Nat} {a b : α} {p : α → Bool}

/-- Who is at a place stays there when others are appended. -/
theorem getElem?_append_of_some (h : pool[i]? = some a) (more : List α) :
    (pool ++ more)[i]? = some a := by
  rw [List.getElem?_append_left (List.getElem?_eq_some_iff.mp h).1]
  exact h

theorem getElem?_concat_cases (h : (pool ++ [b])[j]? = some a) :
    pool[j]? = some a ∨ j = pool.length ∧ a = b := by
  rw [List.getElem?_append] at h
  split at h
  · exact Or.inl h
  · rw [List.getElem?_singleton] at h
    split at h
    · next hj =>
      cases h
      exact Or.inr ⟨by omega, rfl⟩
    · cases h

theorem getElem?_set_cases (h : (pool.set i b)[j]? = some a) :
    (j = i ∧ a = b) ∨ (j ≠ i ∧ pool[j]? = some a) := by
  rw [List.getElem?_set] at h
  split at h
  · next hij =>
    split at h
    · cases h
      exact Or.inl ⟨hij.symm, rfl⟩
    · cases h
  · next hij => exact Or.inr ⟨Ne.symm hij, h⟩

/-- Taking one out leaves the others. -/
theorem mem_eraseIdx_or (hi : pool[i]? = some a) (hb : b ∈ pool) :
    b ∈ pool.eraseIdx i ∨ b = a := by
  obtain ⟨j, hj⟩ := List.mem_iff_getElem?.mp hb
  by_cases hji : j = i
  · subst hji
    rw [hi] at hj
    exact Or.inr (Option.some.inj hj).symm
  · exact Or.inl (List.mem_eraseIdx_iff_getElem?.mpr ⟨j, hji, hj⟩)

theorem countP_concat_add (b : α) :
    (pool ++ [b]).countP p = pool.countP p + (p b).toNat := by
  rw [List.countP_append, List.countP_singleton]
  cases p b <;> rfl

theorem countP_set_add (hi : pool[i]? = some a) (b : α) :
    (pool.set i b).countP p + (p a).toNat = pool.countP p + (p b).toNat := by
  obtain ⟨hlt, hget⟩ := List.getElem?_eq_some_iff.mp hi
  have hpos : (p a).toNat ≤ pool.countP p := by
    cases h : p a with
    | false => exact Nat.zero_le _
    | true => exact List.countP_pos_iff.mpr ⟨a, List.mem_of_getElem? hi, h⟩
  have hite : ∀ b : Bool, (if b = true then 1 else 0) = b.toNat := by decide
  rw [List.countP_set hlt, hget, hite, hite]
  omega

end Infra
