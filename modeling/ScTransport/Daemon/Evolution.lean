import ScTransport.Daemon.Moves

/-!
# Records in the long run

A record is never removed, and no step changes what its submission fixed.

* `evolves_of_step` — what a step can do to a record
* `KeyedById.run` — every transfer stays under its own id
-/

namespace ScTransport

open Infra

/-- What no step changes in a record, and the range of a priority that one does change. -/
structure TransferRecord.Evolves (rec rec' : TransferRecord) : Prop where
  transferId : rec'.transferId = rec.transferId
  source : rec'.source = rec.source
  destination : rec'.destination = rec.destination
  priority : rec'.priority = rec.priority ∨ 1 ≤ rec'.priority ∧ rec'.priority ≤ 10

theorem TransferRecord.Evolves.refl (rec : TransferRecord) : rec.Evolves rec :=
  ⟨rfl, rfl, rfl, Or.inl rfl⟩

theorem clampPriority_mem (priority : Nat) :
    1 ≤ clampPriority priority ∧ clampPriority priority ≤ 10 := by
  unfold clampPriority
  omega

section Step

variable {s s' : DaemonState} {l : DaemonLabel} {t : Uuid} {rec : TransferRecord}

theorem JobPc.next_evolves {point : JobPc} {records : Records} {now : Nat} {answer : Answer}
    {f : TransferRecord → TransferRecord} {pc : Pc}
    (h : point.next t records now answer = some (.update f, pc)) (rec : TransferRecord) :
    rec.Evolves (f rec) := by
  rcases JobPc.next_update h with ⟨_, rfl⟩ | ⟨_, rfl⟩ | ⟨_, _, _, _, -, rfl⟩ | rfl <;>
    exact ⟨rfl, rfl, rfl, Or.inl rfl⟩

theorem Pc.next_evolves {pc pc' : Pc} {records : Records} {now : Nat} {answer : Answer}
    {f : TransferRecord → TransferRecord}
    (h : pc.next t records now answer = some (.update f, pc')) (rec : TransferRecord) :
    rec.Evolves (f rec) := by
  cases pc with
  | job point => exact JobPc.next_evolves h rec
  | spawned =>
    rcases Pc.next_spawned h with ⟨hprim, -⟩ | ⟨hprim, -⟩ | ⟨hprim, -⟩ <;> cases hprim
    exact ⟨rfl, rfl, rfl, Or.inl rfl⟩
  | failed error => cases h; exact ⟨rfl, rfl, rfl, Or.inl rfl⟩
  | progress p => cases h; exact ⟨rfl, rfl, rfl, Or.inl rfl⟩
  | _ => cases h

/-- The first step of a handler leaves a record as it was or changes it in the allowed way. -/
theorem Request.evolves {t' : Uuid} {rec' : TransferRecord} {pc : Pc}
    (h : Request s l t' rec' pc) (ht : s.records.lookup t = some rec) :
    ∃ rec₁, (s.records.insert t' rec').lookup t = some rec₁ ∧ rec.Evolves rec₁ := by
  by_cases heq : t = t'
  · subst heq
    refine ⟨rec', AList.lookup_insert _, ?_⟩
    cases h with
    | submit hnone hreq => rw [ht] at hnone; cases hnone
    | cancel hrec =>
      cases ht.symm.trans hrec
      exact ⟨rfl, rfl, rfl, Or.inl rfl⟩
    | patchActive hrec hst | patchOther hrec hst =>
      cases ht.symm.trans hrec
      exact ⟨rfl, rfl, rfl, Or.inr (clampPriority_mem _)⟩
  · exact ⟨rec, (AList.lookup_insert_ne heq).trans ht, .refl rec⟩

/-- **A record stays, and keeps what its submission fixed.** -/
theorem evolves_of_step (h : daemonStep s l = some s') (ht : s.records.lookup t = some rec) :
    ∃ rec', s'.records.lookup t = some rec' ∧ rec.Evolves rec' := by
  cases DaemonMove.of_step h with
  | request hreq => exact hreq.evolves ht
  | @ran i now answer task prim pc htask hnext hlock =>
    by_cases heq : t = task.transferId
    · subst heq
      have hlookup := s.perform_lookup task.transferId prim
      rw [ht] at hlookup
      cases prim with
      | update f => exact ⟨f rec, hlookup, Pc.next_evolves hnext rec⟩
      | _ => exact ⟨rec, hlookup, .refl rec⟩
    · exact ⟨rec, (s.perform_lookup_of_ne _ prim heq).trans ht, .refl rec⟩
  | _ => exact ⟨rec, ht, .refl rec⟩

theorem KeyedById.step (hkeys : KeyedById s.records) (h : daemonStep s l = some s') :
    KeyedById s'.records := by
  intro t rec' hrec'
  cases ht : s.records.lookup t with
  | some rec =>
    obtain ⟨rec₁, hrec₁, hevolves⟩ := evolves_of_step h ht
    cases hrec₁.symm.trans hrec'
    rw [hevolves.transferId]
    exact hkeys t rec ht
  | none =>
    -- the record is new, so a submission has put it there
    cases DaemonMove.of_step h with
    | @request _ t' rec pc hreq =>
      have hne : t = t' := by
        by_contra hne
        have hold := (AList.lookup_insert_ne hne).symm.trans hrec'
        rw [ht] at hold
        cases hold
      subst hne
      cases (AList.lookup_insert _).symm.trans hrec'
      cases hreq with
      | submit hnone hreq => rfl
      | cancel hrec => rw [ht] at hrec; cases hrec
      | patchActive hrec hst | patchOther hrec hst => rw [ht] at hrec; cases hrec
    | @ran i now answer task prim pc htask hnext hlock =>
      have hnone : (s.perform task.transferId prim).records.lookup t = none := by
        by_cases heq : t = task.transferId
        · subst heq
          rw [s.perform_lookup, ht]
          cases prim <;> rfl
        · exact (s.perform_lookup_of_ne _ prim heq).trans ht
      cases hnone.symm.trans hrec'
    | _ => cases ht.symm.trans hrec'

theorem KeyedById.run {ok : DaemonState → DaemonLabel → Prop} (hkeys : KeyedById s.records)
    (h : daemon.Reach ok s s') : KeyedById s'.records := by
  induction h with
  | refl => exact hkeys
  | step _ _ hstep ih => exact ih.step hstep

end Step

end ScTransport
