import Mathlib.Data.List.DropRight
import Mathlib.Order.Bounds.Basic
import Mathlib.Order.MinMax

/-!
# Windows over a stream of samples

A window keeps the recent samples of a stream in a queue: the last so many, or those since some
time. New samples come in at the back and old ones are taken away at the front, so a sample that is
gone does not come back when the window grows.

* `foldl_pushLast` — a window of fixed size holds the last samples
* `KeptSince.push` — a window in time holds the samples that no window so far was too short for
* `isGreatest_foldl_max` — the largest sample of a window
-/

namespace Infra

/-! ## The last so many samples -/

section Last

variable {α : Type}

/-- A sample at the back; if there are more than `n` now, the first one goes. -/
def pushLast (n : Nat) (window : List α) (a : α) : List α :=
  let pushed := window ++ [a]
  if n < pushed.length then pushed.tail else pushed

theorem length_rtake (n : Nat) (samples : List α) :
    (samples.rtake n).length = min samples.length n := by
  rw [List.rtake, List.length_drop]
  omega

theorem pushLast_rtake (n : Nat) (samples : List α) (a : α) :
    pushLast n (samples.rtake n) a = (samples ++ [a]).rtake n := by
  unfold pushLast
  dsimp only
  rw [List.length_append, length_rtake, List.length_singleton]
  split
  · next hfull =>
    -- the window is full: it moves on by one
    have hle : n ≤ samples.length := by omega
    rw [List.rtake, List.rtake, ← List.drop_append_of_le_length (by omega), List.tail_drop,
      List.length_append, List.length_singleton]
    congr 1
    omega
  · next hfull =>
    have hlt : samples.length < n := by omega
    rw [List.rtake, List.rtake, List.length_append, List.length_singleton,
      Nat.sub_eq_zero_of_le (by omega), Nat.sub_eq_zero_of_le (by omega), List.drop_zero,
      List.drop_zero]

/-- The same, if the first sample goes before the new one comes in. -/
theorem pushLast_eq {n : Nat} (hn : 0 < n) (window : List α) (a : α) :
    pushLast n window a = (if n ≤ window.length then window.tail else window) ++ [a] := by
  unfold pushLast
  dsimp only
  rw [List.length_append, List.length_singleton]
  by_cases hfull : n ≤ window.length
  · rw [if_pos (Nat.lt_succ_of_le hfull), if_pos hfull]
    have hne : window ≠ [] := List.ne_nil_of_length_pos (hn.trans_le hfull)
    rw [List.tail_append_of_ne_nil hne]
  · rw [if_neg (by omega), if_neg hfull]

/-- **The window is the end of the stream.** -/
theorem foldl_pushLast (n : Nat) (samples : List α) :
    samples.foldl (pushLast n) [] = samples.rtake n := by
  induction samples using List.reverseRecOn with
  | nil => rw [List.rtake_nil, List.foldl_nil]
  | append_singleton samples a ih =>
    rw [List.foldl_append, List.foldl_cons, List.foldl_nil, ih, pushLast_rtake]

end Last

/-! ## The samples since some time -/

section Since

variable {T α : Type} [LinearOrder T]

/-- A sample at the back; then the samples before `cutoff` go, from the front. -/
def pushSince (cutoff : T) (window : List (T × α)) (now : T) (a : α) : List (T × α) :=
  (window ++ [(now, a)]).dropWhile fun s => s.1 < cutoff

/-- Samples come in the order of their times. -/
def TimeOrdered (samples : List (T × α)) : Prop :=
  samples.Pairwise fun s s' => s.1 ≤ s'.1

/-- In order, the old samples are at the front. -/
theorem dropWhile_eq_filter {samples : List (T × α)} (h : TimeOrdered samples) (cutoff : T) :
    samples.dropWhile (fun s => s.1 < cutoff) = samples.filter fun s => cutoff ≤ s.1 := by
  induction samples with
  | nil => rfl
  | cons s rest ih =>
    obtain ⟨hfirst, hrest⟩ := List.pairwise_cons.mp h
    by_cases hold : s.1 < cutoff
    · rw [List.dropWhile_cons_of_pos (by simpa using hold), ih hrest,
        List.filter_cons_of_neg (by simpa using hold)]
    · rw [List.dropWhile_cons_of_neg (by simpa using hold)]
      have hall : ∀ s' ∈ s :: rest, decide (cutoff ≤ s'.1) = true := by
        intro s' hs'
        rw [decide_eq_true_eq]
        rcases List.mem_cons.mp hs' with rfl | hs'
        · exact not_lt.mp hold
        · exact le_trans (not_lt.mp hold) (hfirst s' hs')
      exact (List.filter_eq_self.mpr hall).symm

theorem TimeOrdered.push {samples : List (T × α)} (h : TimeOrdered samples) {now : T}
    (hnow : ∀ s ∈ samples, s.1 ≤ now) (a : α) : TimeOrdered (samples ++ [(now, a)]) := by
  refine List.pairwise_append.mpr ⟨h, List.pairwise_singleton _ _, ?_⟩
  intro s hs s' hs'
  rw [List.mem_singleton.mp hs']
  exact hnow s hs

/-- The window holds the samples of the stream that are not before any of the cutoffs so far. -/
def KeptSince (window samples : List (T × α)) (cutoffs : List T) : Prop :=
  window = samples.filter fun s => ∀ cutoff ∈ cutoffs, cutoff ≤ s.1

theorem KeptSince.mem_iff {window samples : List (T × α)} {cutoffs : List T}
    (h : KeptSince window samples cutoffs) {s : T × α} :
    s ∈ window ↔ s ∈ samples ∧ ∀ cutoff ∈ cutoffs, cutoff ≤ s.1 := by
  rw [h, List.mem_filter, decide_eq_true_eq]

/-- **One more sample.** The new sample is not before the cutoffs, as these lie in the past. -/
theorem KeptSince.push {window samples : List (T × α)} {cutoffs : List T}
    (h : KeptSince window samples cutoffs) (horder : TimeOrdered samples) {now cutoff : T}
    (hnow : ∀ s ∈ samples, s.1 ≤ now) (hpast : ∀ c ∈ cutoffs, c ≤ now) (a : α) :
    KeptSince (pushSince cutoff window now a) (samples ++ [(now, a)]) (cutoffs ++ [cutoff]) := by
  have hkept : window ++ [(now, a)] =
      (samples ++ [(now, a)]).filter fun s => ∀ c ∈ cutoffs, c ≤ s.1 := by
    rw [List.filter_append, ← h, List.filter_cons_of_pos (by simpa using hpast), List.filter_nil]
  have hsorted : TimeOrdered (window ++ [(now, a)]) := by
    rw [hkept]
    exact (horder.push hnow a).filter _
  unfold KeptSince pushSince
  rw [dropWhile_eq_filter hsorted, hkept, List.filter_filter]
  refine List.filter_congr fun s _ => ?_
  simp only [List.forall_mem_append, List.forall_mem_singleton, Bool.decide_and, and_comm]

/-- Of cutoffs that move on, the last one is enough. -/
theorem KeptSince.last {window samples : List (T × α)} {cutoffs : List T} {cutoff : T}
    (h : KeptSince window samples (cutoffs ++ [cutoff])) (hle : ∀ c ∈ cutoffs, c ≤ cutoff) :
    KeptSince window samples [cutoff] := by
  unfold KeptSince at h ⊢
  rw [h]
  refine List.filter_congr fun s _ => decide_eq_decide.mpr ?_
  rw [List.forall_mem_append, List.forall_mem_singleton]
  exact ⟨And.right, fun hs => ⟨fun c hc => (hle c hc).trans hs, hs⟩⟩

end Since

/-! ## The largest sample -/

section Greatest

variable {α : Type} [LinearOrder α]

theorem foldl_max_le_iff {l : List α} {init b : α} :
    l.foldl max init ≤ b ↔ init ≤ b ∧ ∀ a ∈ l, a ≤ b := by
  induction l generalizing init with
  | nil => simp
  | cons a l ih =>
    rw [List.foldl_cons, ih, max_le_iff, List.forall_mem_cons, and_assoc]

theorem foldl_max_mem {l : List α} {init : α} : l.foldl max init = init ∨ l.foldl max init ∈ l := by
  induction l generalizing init with
  | nil => exact Or.inl rfl
  | cons a l ih =>
    rw [List.foldl_cons]
    rcases @ih (max init a) with h | h
    · rw [h]
      rcases max_choice init a with hm | hm
      · exact Or.inl hm
      · rw [hm]
        exact Or.inr List.mem_cons_self
    · exact Or.inr (List.mem_cons_of_mem _ h)

/-- From below all samples, the fold gives the largest one. -/
theorem isGreatest_foldl_max {l : List α} {init : α} (hne : l ≠ []) (hinit : ∀ a ∈ l, init ≤ a) :
    IsGreatest { a | a ∈ l } (l.foldl max init) := by
  refine ⟨?_, fun a ha => (foldl_max_le_iff.mp le_rfl).2 a ha⟩
  rcases @foldl_max_mem α _ l init with h | h
  · -- nothing exceeds the start, and nothing is below it
    obtain ⟨a, ha⟩ := List.exists_mem_of_ne_nil l hne
    have hle : a ≤ init := h ▸ (foldl_max_le_iff.mp le_rfl).2 a ha
    rw [Set.mem_ofPred_eq, h, le_antisymm (hinit a ha) hle]
    exact ha
  · exact h

end Greatest

end Infra
