/-!
# Labelled transition systems

A system is a step function; `none` means that the label is not enabled. `Reach` is
reachability by steps that all meet a side condition, and `Reach.invariant` is the induction
rule for it. `Each` is about every step of one run, and `each_iff` says which steps keep a
property all the time.
-/

namespace Infra

structure Lts (State Label : Type) where
  step : State → Label → Option State

namespace Lts

variable {State Label : Type} (S : Lts State Label)

/-- The state after taking the labels in turn. -/
def exec : State → List Label → Option State
  | s, [] => some s
  | s, l :: rest =>
    match S.step s l with
    | none => none
    | some s' => exec s' rest

/-- The state after taking the labels in turn, if `ok` allows each of them where it is taken. -/
def execWhere (ok : State → Label → Bool) : State → List Label → Option State
  | s, [] => some s
  | s, l :: rest =>
    if ok s l then
      match S.step s l with
      | none => none
      | some s' => execWhere ok s' rest
    else none

/-- `s'` is reached from `s` by steps that meet `ok` where they are taken. -/
inductive Reach (ok : State → Label → Prop) (s : State) : State → Prop where
  | refl : Reach ok s s
  | step {s₁ s₂ : State} {l : Label} (h : Reach ok s s₁) (hok : ok s₁ l)
      (hstep : S.step s₁ l = some s₂) : Reach ok s s₂

variable {S} {ok : State → Label → Prop} {s s' s'' : State}

/-- **What holds at the start and is kept by every allowed step holds on the whole run.** -/
theorem Reach.invariant {Inv : State → Prop} (h : S.Reach ok s s') (h0 : Inv s)
    (hstep : ∀ {s₁ s₂ : State} {l : Label}, Inv s₁ → ok s₁ l → S.step s₁ l = some s₂ → Inv s₂) :
    Inv s' := by
  induction h with
  | refl => exact h0
  | step _ hok hs ih => exact hstep ih hok hs

theorem Reach.mono {ok' : State → Label → Prop} (h : S.Reach ok s s')
    (himp : ∀ {s l}, ok s l → ok' s l) : S.Reach ok' s s' := by
  induction h with
  | refl => exact .refl
  | step _ hok hs ih => exact ih.step (himp hok) hs

theorem Reach.trans (h : S.Reach ok s s') (h' : S.Reach ok s' s'') : S.Reach ok s s'' := by
  induction h' with
  | refl => exact h
  | step _ hok hs ih => exact ih.step hok hs

/--
**Simulation.** If every step from a state of the invariant is a run of another system, then so is
every run.
-/
theorem Reach.simulates {State' Label' : Type} {T : Lts State' Label'}
    {ok' : State' → Label' → Prop} {f : State → State'} {Inv : State → Prop}
    (h : S.Reach ok s s') (h0 : Inv s)
    (hstep : ∀ {s₁ s₂ : State} {l : Label}, Inv s₁ → ok s₁ l → S.step s₁ l = some s₂ →
      Inv s₂ ∧ T.Reach ok' (f s₁) (f s₂)) :
    Inv s' ∧ T.Reach ok' (f s) (f s') := by
  induction h with
  | refl => exact ⟨h0, .refl⟩
  | step _ hok hs ih =>
    obtain ⟨hinv, hreach⟩ := hstep ih.1 hok hs
    exact ⟨hinv, ih.2.trans hreach⟩

/--
**Noninterference.** If every step from a state of the invariant commutes with a map of the states,
then so does every computed run.
-/
theorem exec_map {f : State → State} {Inv : State → Prop}
    (hinv : ∀ {s₁ s₂ : State} {l : Label}, Inv s₁ → S.step s₁ l = some s₂ → Inv s₂)
    (hstep : ∀ {s : State} (l : Label), Inv s → S.step (f s) l = (S.step s l).map f) :
    ∀ (labels : List Label) {s : State}, Inv s →
      S.exec (f s) labels = (S.exec s labels).map f
  | [], _, _ => rfl
  | l :: rest, s, h => by
    unfold exec
    rw [hstep l h]
    cases hs : S.step s l with
    | none => rfl
    | some s₁ => exact exec_map hinv hstep rest (hinv h hs)

/--
**Removal.** If the labels that are dropped keep the relation on one side alone, then a run goes on
without them, and ends in a related state.
-/
theorem exec_filter {Sim : State → State → Prop} {keep : Label → Bool}
    (hkeep : ∀ {s t s₁ : State} {l : Label}, Sim s t → keep l = true → S.step s l = some s₁ →
      ∃ t₁, S.step t l = some t₁ ∧ Sim s₁ t₁)
    (hdrop : ∀ {s t s₁ : State} {l : Label}, Sim s t → keep l = false → S.step s l = some s₁ →
      Sim s₁ t) :
    ∀ (labels : List Label) {s t s' : State}, Sim s t → S.exec s labels = some s' →
      ∃ t', S.exec t (labels.filter keep) = some t' ∧ Sim s' t'
  | [], s, t, s', hsim, h => by
    cases h
    exact ⟨t, rfl, hsim⟩
  | l :: rest, s, t, s', hsim, h => by
    unfold exec at h
    cases hs : S.step s l with
    | none => rw [hs] at h; cases h
    | some s₁ =>
      rw [hs] at h
      cases hl : keep l with
      | true =>
        obtain ⟨t₁, ht, hsim₁⟩ := hkeep hsim hl hs
        obtain ⟨t', hrest, hsim'⟩ := exec_filter hkeep hdrop rest hsim₁ h
        refine ⟨t', ?_, hsim'⟩
        rw [List.filter_cons_of_pos hl, exec, ht]
        exact hrest
      | false =>
        rw [List.filter_cons_of_neg (by rw [hl]; decide)]
        exact exec_filter hkeep hdrop rest (hdrop hsim hl hs) h

/-- A computed run is a run, of labels that are allowed everywhere. -/
theorem Reach.of_exec_forall : ∀ {labels : List Label} {s : State},
    (∀ l ∈ labels, ∀ s, ok s l) → S.exec s labels = some s' → S.Reach ok s s'
  | [], s, _, h => by
    cases h
    exact .refl
  | l :: rest, s, hok, h => by
    unfold exec at h
    cases hs : S.step s l with
    | none => rw [hs] at h; cases h
    | some s₁ =>
      rw [hs] at h
      have hrest : ∀ l ∈ rest, ∀ s, ok s l := fun x hx => hok x (List.mem_cons_of_mem _ hx)
      exact (Reach.refl.step (hok l List.mem_cons_self s) hs).trans (Reach.of_exec_forall hrest h)

theorem Reach.of_exec {labels : List Label} (h : S.exec s labels = some s') :
    S.Reach (fun _ _ => True) s s' :=
  .of_exec_forall (fun _ _ _ => trivial) h

theorem Reach.of_execWhere {ok : State → Label → Bool} :
    ∀ {labels : List Label} {s : State}, S.execWhere ok s labels = some s' →
      S.Reach (fun s l => ok s l = true) s s'
  | [], s, h => by
    cases h
    exact .refl
  | l :: rest, s, h => by
    unfold execWhere at h
    split at h
    · next hok =>
      cases hs : S.step s l with
      | none => rw [hs] at h; cases h
      | some s₁ =>
        rw [hs] at h
        have hstep : S.Reach (fun s l => ok s l = true) s s₁ := Reach.refl.step hok hs
        exact hstep.trans (Reach.of_execWhere h)
    · cases h

/-! ## Every step of a run -/

variable (S) in
/-- The labels are enabled in turn, and `R` holds of every step. -/
def Each (R : State → Label → State → Prop) : State → List Label → Prop
  | _, [] => True
  | s, l :: rest => ∃ s', S.step s l = some s' ∧ R s l s' ∧ Each R s' rest

/-- What an invariant gives for every step. -/
theorem Each.of_invariant {R : State → Label → State → Prop} {Inv : State → Prop}
    {labels : List Label} (h0 : Inv s)
    (hstep : ∀ {s : State}, ∀ l ∈ labels, Inv s → ∃ s', S.step s l = some s' ∧ R s l s' ∧ Inv s') :
    S.Each R s labels := by
  induction labels generalizing s with
  | nil => trivial
  | cons l rest ih =>
    obtain ⟨s', hs, hR, hinv⟩ := hstep l List.mem_cons_self h0
    exact ⟨s', hs, hR, ih hinv fun l hl => hstep l (List.mem_cons_of_mem _ hl)⟩

/-- **`P` holds after every step exactly when `C` holds before every step.** -/
theorem each_iff {P : State → Prop} {C : State → Label → Prop}
    {known : State → Label → State → Prop} {labels : List Label} (h0 : P s)
    (hknown : S.Each known s labels)
    (hstep : ∀ {s l s'}, S.step s l = some s' → known s l s' → P s → (P s' ↔ C s l)) :
    S.Each (fun _ _ s' => P s') s labels ↔ S.Each (fun s l _ => C s l) s labels := by
  induction labels generalizing s with
  | nil => exact Iff.rfl
  | cons l rest ih =>
    obtain ⟨s', hs, hR, hrest⟩ := hknown
    have hiff := hstep hs hR h0
    constructor
    · rintro ⟨s'', hs'', hP, hlater⟩
      obtain rfl : s' = s'' := Option.some.inj (hs.symm.trans hs'')
      exact ⟨s', hs, hiff.mp hP, (ih hP hrest).mp hlater⟩
    · rintro ⟨s'', hs'', hC, hlater⟩
      obtain rfl : s' = s'' := Option.some.inj (hs.symm.trans hs'')
      have hP := hiff.mpr hC
      exact ⟨s', hs, hP, (ih hP hrest).mpr hlater⟩

end Lts

end Infra
