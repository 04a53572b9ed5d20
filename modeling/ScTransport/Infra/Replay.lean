import Mathlib.Data.List.AList
import Mathlib.Data.List.Induction

/-!
# Replaying a keyed log

A log of events over a map: every event changes the record of its own key. `lookup_run` says
that the record of a key depends on that key's events only, and `get_run` that a field which
events overwrite ends up with the last value the log holds for it. If it holds none, the field is
what it was (`get_run_of_none`) or what the first event makes it (`get_run_of_new`). `forall_run`
and `lookup_run_map` lift properties and maps of single records to the replay.
-/

namespace Infra

/-- How an event changes the record of its key, which may not exist yet. -/
structure Replay (κ ε ρ : Type) where
  key : ε → κ
  apply : Option ρ → ε → ρ

namespace Replay

variable {κ ε ρ α : Type} [DecidableEq κ] (R : Replay κ ε ρ)

def run (m : AList fun _ : κ => ρ) (log : List ε) : AList fun _ : κ => ρ :=
  log.foldl (fun m e => m.insert (R.key e) (R.apply (m.lookup (R.key e)) e)) m

/-- The last value that `val` reads from the events of key `k`. -/
def last (val : ε → Option α) (k : κ) (log : List ε) : Option α :=
  (log.filterMap fun e => if R.key e = k then val e else none).getLast?

variable {R} {m : AList fun _ : κ => ρ} {val : ε → Option α} {k : κ}

theorem run_concat (log : List ε) (e : ε) :
    R.run m (log ++ [e]) = (R.run m log).insert (R.key e)
      (R.apply ((R.run m log).lookup (R.key e)) e) := by
  unfold run
  rw [List.foldl_append]
  rfl

theorem last_concat_of_ne {e : ε} (h : R.key e ≠ k) (log : List ε) :
    R.last val k (log ++ [e]) = R.last val k log := by
  simp [last, h]

theorem last_concat (log : List ε) (e : ε) (h : R.key e = k) :
    R.last val k (log ++ [e]) = (val e).or (R.last val k log) := by
  unfold last
  cases hv : val e with
  | none => simp [h, hv]
  | some v => simp [h, hv]

theorem last_isSome {log : List ε} {e : ε} {v : α} (he : e ∈ log) (hk : R.key e = k)
    (hv : val e = some v) : ∃ w, R.last val k log = some w := by
  have hmem : v ∈ log.filterMap fun e => if R.key e = k then val e else none :=
    List.mem_filterMap.mpr ⟨e, he, by rw [if_pos hk, hv]⟩
  exact ⟨_, List.getLast?_eq_some_getLast (List.ne_nil_of_mem hmem)⟩

/-- The record of a key is built from the events of that key. -/
theorem lookup_run (log : List ε) :
    (R.run m log).lookup k =
      (log.filter fun e => R.key e = k).foldl (fun o e => some (R.apply o e)) (m.lookup k) := by
  induction log using List.reverseRecOn with
  | nil => rfl
  | append_singleton log e ih =>
    rw [run_concat, List.filter_append, List.foldl_append]
    by_cases h : R.key e = k
    · subst h
      simp [ih]
    · rw [AList.lookup_insert_ne (Ne.symm h), ih]
      simp [h]

/-- Events of one key that change nothing the second time change nothing in the map. -/
theorem lookup_run_run {log : List ε}
    (h : ∀ o, (log.filter fun e => R.key e = k).foldl (fun o e => some (R.apply o e))
      ((log.filter fun e => R.key e = k).foldl (fun o e => some (R.apply o e)) o) =
        (log.filter fun e => R.key e = k).foldl (fun o e => some (R.apply o e)) o) :
    (R.run (R.run m log) log).lookup k = (R.run m log).lookup k := by
  rw [lookup_run, lookup_run, h]

/--
**The last value wins.** If events overwrite the field `get` by the value they carry for it and
otherwise leave it alone, replay ends with the last value carried.
-/
theorem get_run (get : ρ → α) (hset : ∀ o e v, val e = some v → get (R.apply o e) = v)
    (hkeep : ∀ r e, val e = none → get (R.apply (some r) e) = get r) {log : List ε} {v : α}
    (hlast : R.last val k log = some v) :
    ∃ r, (R.run m log).lookup k = some r ∧ get r = v := by
  induction log using List.reverseRecOn with
  | nil => cases hlast
  | append_singleton log e ih =>
    rw [run_concat]
    by_cases h : R.key e = k
    · subst h
      rw [AList.lookup_insert]
      rw [last_concat log e rfl] at hlast
      refine ⟨_, rfl, ?_⟩
      cases hv : val e with
      | some w =>
        rw [hv] at hlast
        cases hlast
        exact hset _ e _ hv
      | none =>
        rw [hv] at hlast
        obtain ⟨r, hr, hget⟩ := ih hlast
        rw [hr, hkeep r e hv, hget]
    · rw [AList.lookup_insert_ne (Ne.symm h)]
      rw [last_concat_of_ne h] at hlast
      exact ih hlast

/-- What every event keeps holds of all records. -/
theorem forall_run {Q : ρ → Prop} {log : List ε} (hm : ∀ k r, m.lookup k = some r → Q r)
    (happly : ∀ o e, e ∈ log → (∀ r, o = some r → Q r) → Q (R.apply o e)) :
    ∀ k r, (R.run m log).lookup k = some r → Q r := by
  induction log using List.reverseRecOn with
  | nil => exact hm
  | append_singleton log e ih =>
    have hlog : ∀ k r, (R.run m log).lookup k = some r → Q r :=
      ih fun o e' he' => happly o e' (List.mem_append_left _ he')
    intro k r h
    rw [run_concat] at h
    by_cases hk : k = R.key e
    · subst hk
      rw [AList.lookup_insert, Option.some.injEq] at h
      rw [← h]
      exact happly _ e (by simp) fun r hr => hlog _ r hr
    · rw [AList.lookup_insert_ne hk] at h
      exact hlog k r h

/-- A map of the records and the events that commutes with one event commutes with replay. -/
theorem lookup_run_map {f : ρ → ρ} {g : ε → ε} {m' : AList fun _ : κ => ρ}
    (hkey : ∀ e, R.key (g e) = R.key e)
    (happly : ∀ o e, f (R.apply o e) = R.apply (o.map f) (g e))
    (hm : ∀ k, (m.lookup k).map f = m'.lookup k) (log : List ε) (k : κ) :
    ((R.run m log).lookup k).map f = (R.run m' (log.map g)).lookup k := by
  induction log using List.reverseRecOn generalizing k with
  | nil => exact hm k
  | append_singleton log e ih =>
    rw [List.map_append, List.map_singleton, run_concat, run_concat, hkey]
    by_cases hk : k = R.key e
    · subst hk
      rw [AList.lookup_insert, AList.lookup_insert, Option.map_some, happly, ih]
    · rw [AList.lookup_insert_ne hk, AList.lookup_insert_ne hk]
      exact ih k

section Unlogged

variable (get : ρ → α) (hkeep : ∀ r e, val e = none → get (R.apply (some r) e) = get r)
include hkeep

theorem get_run_of_none {log : List ε} {r : ρ} (hlast : R.last val k log = none)
    (hm : m.lookup k = some r) : ∃ r', (R.run m log).lookup k = some r' ∧ get r' = get r := by
  induction log using List.reverseRecOn with
  | nil => exact ⟨r, hm, rfl⟩
  | append_singleton log e ih =>
    rw [run_concat]
    by_cases h : R.key e = k
    · subst h
      rw [last_concat log e rfl, Option.or_eq_none_iff] at hlast
      obtain ⟨r', hr', hget⟩ := ih hlast.2
      rw [AList.lookup_insert, hr']
      exact ⟨_, rfl, (hkeep r' e hlast.1).trans hget⟩
    · rw [last_concat_of_ne h] at hlast
      rw [AList.lookup_insert_ne (Ne.symm h)]
      exact ih hlast

theorem get_run_of_new {log : List ε} {r : ρ} (hlast : R.last val k log = none)
    (hm : m.lookup k = none) (h : (R.run m log).lookup k = some r) :
    ∃ e, val e = none ∧ get r = get (R.apply none e) := by
  induction log using List.reverseRecOn generalizing r with
  | nil =>
    rw [run, List.foldl_nil, hm] at h
    cases h
  | append_singleton log e ih =>
    rw [run_concat] at h
    by_cases hk : R.key e = k
    · subst hk
      rw [last_concat log e rfl, Option.or_eq_none_iff] at hlast
      rw [AList.lookup_insert, Option.some.injEq] at h
      subst h
      cases hold : (R.run m log).lookup (R.key e) with
      | none => exact ⟨e, hlast.1, rfl⟩
      | some r' =>
        obtain ⟨e', he', hget⟩ := ih hlast.2 hold
        exact ⟨e', he', (hkeep r' e hlast.1).trans hget⟩
    · rw [last_concat_of_ne hk] at hlast
      rw [AList.lookup_insert_ne (Ne.symm hk)] at h
      exact ih hlast h

end Unlogged

end Replay

end Infra
