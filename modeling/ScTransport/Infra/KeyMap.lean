import Mathlib.Data.List.Nodup

/-!
# Hash maps

A map is the list of its entries in the order in which an iteration visits them. The keys are
distinct, so a key has at most one entry, and what is said about entries does not depend on the
order.

* `get?`, `insert`, `erase`, `find?` — the operations
* `mem_insert`, `mem_erase`, `eq_of_mem` — which entries there are afterwards
-/

namespace Infra

structure KeyMap (κ α : Type) where
  entries : List (κ × α)
  nodup : (entries.map Prod.fst).Nodup

namespace KeyMap

variable {κ α : Type}

def empty : KeyMap κ α := ⟨[], List.nodup_nil⟩

/-- The first entry, in the order of an iteration, that `p` holds for. -/
def find? (m : KeyMap κ α) (p : α → Bool) : Option (κ × α) := m.entries.find? fun e => p e.2

/-- A key has one value. -/
theorem eq_of_mem {m : KeyMap κ α} {k : κ} {a b : α} (ha : (k, a) ∈ m.entries)
    (hb : (k, b) ∈ m.entries) : a = b := by
  have h := List.inj_on_of_nodup_map m.nodup ha hb rfl
  exact congrArg Prod.snd h

variable [DecidableEq κ]

def get? (m : KeyMap κ α) (k : κ) : Option α :=
  (m.entries.find? fun e => e.1 = k).map Prod.snd

theorem get?_of_mem {m : KeyMap κ α} {k : κ} {a : α} (h : (k, a) ∈ m.entries) :
    m.get? k = some a := by
  unfold get?
  cases hfind : m.entries.find? fun e => e.1 = k with
  | none =>
    have hno := List.find?_eq_none.mp hfind (k, a) h
    simp at hno
  | some e =>
    obtain ⟨k', b⟩ := e
    have hk : k' = k := by simpa using List.find?_some hfind
    subst hk
    rw [Option.map_some, eq_of_mem (List.mem_of_find?_eq_some hfind) h]

def erase (m : KeyMap κ α) (k : κ) : KeyMap κ α where
  entries := m.entries.filter fun e => e.1 ≠ k
  nodup := m.nodup.sublist (List.filter_sublist.map _)

theorem mem_erase {m : KeyMap κ α} {k : κ} {e : κ × α} :
    e ∈ (m.erase k).entries ↔ e ∈ m.entries ∧ e.1 ≠ k := by
  simp [erase]

/-- A value that the key had before is replaced. -/
def insert (m : KeyMap κ α) (k : κ) (a : α) : KeyMap κ α where
  entries := (k, a) :: (m.erase k).entries
  nodup := by
    refine List.nodup_cons.mpr ⟨fun hmem => ?_, (m.erase k).nodup⟩
    obtain ⟨e, he, heq⟩ := List.mem_map.mp hmem
    exact (mem_erase.mp he).2 heq

theorem mem_insert {m : KeyMap κ α} {k : κ} {a : α} {e : κ × α} :
    e ∈ (m.insert k a).entries ↔ e = (k, a) ∨ e ∈ m.entries ∧ e.1 ≠ k := by
  unfold insert
  rw [List.mem_cons, mem_erase]

theorem length_erase_lt {m : KeyMap κ α} {e : κ × α} (h : e ∈ m.entries) :
    (m.erase e.1).entries.length < m.entries.length :=
  List.length_filter_lt_length_iff_exists.mpr ⟨e, h, by simp⟩

end KeyMap

end Infra
