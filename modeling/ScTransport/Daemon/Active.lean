import ScTransport.Daemon.Workers

/-!
# Active records and running workers

A worker sets its record to `Active` and later to what has become of the transfer. It also
listens to the cancel channel of the transfer, which outlives the run that was cancelled: when
a priority update queues a cancelled transfer again, the next worker finds the channel set,
drops its job at once and returns without touching the record.

* `StatusWrite.of_next` — the four ways in which a task writes a status
* `Pc.next_atWork` — how a worker comes to its verdict
* `allPermits_run` — permits are neither made nor lost
* `active_running` — as long as no job of an active transfer is dropped, active records have
  workers, and there are at most `max_concurrent_transfers` of them
* `sample_active_stranded` — an active record that no worker will ever touch again
-/

namespace ScTransport

open Infra

/-! ## Writing a status -/

/-- The ways in which a task writes the status of its record. -/
inductive StatusWrite (records : Records) (t : Uuid) :
    Pc → (TransferRecord → TransferRecord) → Pc → Prop where
  | keep {pc pc' : Pc} {f : TransferRecord → TransferRecord}
      (hf : ∀ rec, (f rec).status = rec.status) : StatusWrite records t pc f pc'
  | start {now : Nat} (hne : ∀ rec, records.lookup t = some rec → rec.status ≠ .cancelled) :
      StatusWrite records t .spawned (.start now) .startedAppend
  | complete {now : Nat} (hne : ∀ rec, records.lookup t = some rec → rec.status ≠ .cancelled) :
      StatusWrite records t (.job .complete) (.complete now) (.job .completeAppend)
  | fail {error : String} {now : Nat} :
      StatusWrite records t (.failed error) (.fail error now) (.failedAppend error)

/-- The points of a worker between its start and its verdict on the transfer. -/
def Pc.atWork : Pc → Bool
  | .startedAppend | .persistCopy .started | .persistWrite .started _ | .subscribe => true
  | .job .completeAppend => false
  | .job _ | .failed _ => true
  | _ => false

section Next

variable {t : Uuid} {records : Records} {now : Nat} {answer : Answer} {prim : Prim} {pc pc' : Pc}

theorem StatusWrite.of_next {f : TransferRecord → TransferRecord}
    (h : pc.next t records now answer = some (.update f, pc')) :
    StatusWrite records t pc f pc' := by
  cases pc with
  | job point =>
    cases JobMove.of_next h with
    | count hf _ => exact .keep fun rec => (hf rec).1
    | completed =>
      refine .complete fun rec hrec hst => ?_
      simp [Pc.next, JobPc.next, hrec, hst] at h
  | spawned =>
    simp only [Pc.next] at h
    split at h
    · cases h
    · next rec hrec =>
      split at h
      · cases h
      · next hne =>
        cases h
        refine .start fun rec' hrec' => ?_
        rw [hrec] at hrec'
        cases hrec'
        exact hne
  | failed error => cases h; exact .fail
  | progress p => cases h; exact .keep fun _ => rfl
  | _ => cases h

theorem Pc.isWorker_of_atWork (h : pc.atWork = true) : pc.isWorker = true := by
  cases pc with
  | persistCopy site => cases site <;> first | rfl | cases h
  | persistWrite site list => cases site <;> first | rfl | cases h
  | startedAppend => rfl
  | subscribe => rfl
  | job point => rfl
  | failed error => rfl
  | _ => cases h

/-- A job ends without a verdict only if it finds its record cancelled. -/
theorem JobPc.next_cancelled {point : JobPc}
    (h : point.next t records now answer = some (.skip, pc'))
    (hend : pc' = .persistCopy .final ∨ pc' = .job .completeAppend) :
    ∃ rec, records.lookup t = some rec ∧ rec.status = .cancelled := by
  have hcancelled : ((records.lookup t).any fun rec => rec.status = .cancelled) = true →
      ∃ rec, records.lookup t = some rec ∧ rec.status = .cancelled := by
    intro hany
    obtain ⟨rec, hrec, hst⟩ := (Option.any_eq_true _ _).mp hany
    exact ⟨rec, hrec, by simpa using hst⟩
  cases point with
  | entry =>
    simp only [JobPc.next] at h
    split at h
    · cases h; rcases hend with hend | hend <;> cases hend
    · next rec hrec =>
      split at h
      · next hst => exact ⟨rec, hrec, hst⟩
      · split at h
        · cases h; rcases hend with hend | hend <;> cases hend
        · split at h
          · cases h; rcases hend with hend | hend <;> cases hend
          · split at h <;> (cases h; rcases hend with hend | hend <;> cases hend)
  | copyCheck total copied =>
    simp only [JobPc.next] at h
    split at h
    · next hany => exact hcancelled hany
    · cases h; rcases hend with hend | hend <;> cases hend
  | complete =>
    simp only [JobPc.next] at h
    split at h
    · next hany => exact hcancelled hany
    · cases h
  | receiveAppend total => cases h
  | completeAppend => cases h
  | _ =>
    simp only [JobPc.next] at h
    split at h <;> cases h <;> rcases hend with hend | hend <;> cases hend

/-- A worker at work goes on working, finds its record cancelled, or writes a verdict into it. -/
theorem Pc.next_atWork (h : pc.next t records now answer = some (prim, pc'))
    (hw : pc.atWork = true) :
    pc'.atWork = true ∨
    (prim = .skip ∧ ∃ rec, records.lookup t = some rec ∧ rec.status = .cancelled) ∨
    ∃ f, prim = .update f ∧ ∀ rec, (f rec).status ≠ .active := by
  cases pc with
  | startedAppend => cases h; exact Or.inl rfl
  | persistCopy site => cases h; cases site <;> first | exact Or.inl rfl | cases hw
  | persistWrite site list => cases h; cases site <;> first | exact Or.inl rfl | cases hw
  | subscribe => cases h; exact Or.inl rfl
  | failed error => cases h; exact Or.inr (Or.inr ⟨_, rfl, fun _ => nofun⟩)
  | job point =>
    have h : point.next t records now answer = some (prim, pc') := h
    cases JobMove.of_next h with
    | @proceed _ point' hne => cases point' <;> first | exact Or.inl rfl | exact absurd rfl hne
    | stop => exact Or.inr (Or.inl ⟨rfl, JobPc.next_cancelled h (Or.inl rfl)⟩)
    | fail => exact Or.inl rfl
    | report => exact Or.inl rfl
    | @count _ point' f _ hne => cases point' <;> first | exact Or.inl rfl | exact absurd rfl hne
    | received => exact Or.inl rfl
    | completed => exact Or.inr (Or.inr ⟨_, rfl, fun _ => nofun⟩)
    | passed => exact Or.inr (Or.inl ⟨rfl, JobPc.next_cancelled h (Or.inr rfl)⟩)
    | logged => cases hw
  | _ => cases hw

end Next

/-! ## A worker for every active record -/

/-- Some worker of the transfer has started and has not come to its verdict. -/
def Running (s : DaemonState) (t : Uuid) : Prop :=
  ∃ (j : Nat) (pc : Pc), s.tasks[j]? = some ⟨t, pc⟩ ∧ pc.atWork = true

def ActiveRuns (s : DaemonState) : Prop :=
  ∀ t rec, s.records.lookup t = some rec → rec.status = .active → Running s t

/-- A job is dropped only when its record is not active, or another worker is at work on it. -/
def dropsInactive (s : DaemonState) : DaemonLabel → Bool
  | .abort i =>
    match s.tasks[i]? with
    | none => true
    | some task =>
      !((s.records.lookup task.transferId).any fun rec => rec.status = .active) ||
        (s.tasks.eraseIdx i).any fun other =>
          other.transferId = task.transferId && other.pc.atWork
  | _ => true

section Step

variable {s s' : DaemonState} {l : DaemonLabel} {t : Uuid}

theorem Running.mono (h : Running s t)
    (htasks : ∀ (j : Nat) (pc : Pc), s.tasks[j]? = some ⟨t, pc⟩ →
      s'.tasks[j]? = some ⟨t, pc⟩) : Running s' t := by
  obtain ⟨j, pc, hj, hw⟩ := h
  exact ⟨j, pc, htasks j pc hj, hw⟩

/-- A request makes no record active. -/
theorem Request.active {rec : TransferRecord} {pc : Pc} (h : Request s l t rec pc)
    (hact : rec.status = .active) :
    ∃ old, s.records.lookup t = some old ∧ old.status = .active := by
  cases h with
  | submit _ _ => cases hact
  | cancel _ => cases hact
  | patchActive hrec hst => exact ⟨_, hrec, hst⟩
  | patchOther hrec hst =>
    rw [TransferRecord.patch, if_neg hst] at hact
    cases hact

theorem ActiveRuns.request {t' : Uuid} {rec' : TransferRecord} {pc : Pc} (h : ActiveRuns s)
    (hr : Request s l t' rec' pc) :
    ActiveRuns ({ s with records := s.records.insert t' rec' }.addTask t' pc) := by
  intro t rec hrec hact
  rw [DaemonState.addTask_records] at hrec
  by_cases ht : t = t'
  · subst ht
    rw [AList.lookup_insert] at hrec
    cases hrec
    obtain ⟨old, hold, hact'⟩ := hr.active hact
    exact (h t old hold hact').mono fun _ _ hj => getElem?_addTask hj
  · rw [AList.lookup_insert_ne ht] at hrec
    exact (h t rec hrec hact).mono fun _ _ hj => getElem?_addTask hj

/-- A task of the transfer takes a step that does not take the record out of `Active`. -/
theorem Running.ran {i now : Nat} {answer : Answer} {pc pc' : Pc} {prim : Prim}
    {rec : TransferRecord} (h : Running s t) (hrec : s.records.lookup t = some rec)
    (hact : rec.status = .active) (hi : s.tasks[i]? = some ⟨t, pc⟩)
    (hn : pc.next t s.records now answer = some (prim, pc'))
    (hkeep : ∀ f, prim = .update f → (f rec).status = .active) :
    Running ((s.perform t prim).goto i t pc') t := by
  obtain ⟨j, pcj, hj, hw⟩ := h
  by_cases hij : j = i
  · subst hij
    rw [hi] at hj
    cases hj
    refine ⟨j, pc', getElem?_ran hi, ?_⟩
    rcases Pc.next_atWork hn hw with hw' | ⟨-, rec', hrec', hst⟩ | ⟨f, hf, hverdict⟩
    · exact hw'
    · rw [hrec] at hrec'
      cases hrec'
      rw [hact] at hst
      cases hst
    · exact absurd (hkeep f hf) (hverdict rec)
  · exact ⟨j, pcj, getElem?_ran_of_ne hj hij, hw⟩

theorem ActiveRuns.ran {i now : Nat} {answer : Answer} {task : Task} {prim : Prim} {pc : Pc}
    (h : ActiveRuns s) (hi : s.tasks[i]? = some task)
    (hn : task.pc.next task.transferId s.records now answer = some (prim, pc)) :
    ActiveRuns ((s.perform task.transferId prim).goto i task.transferId pc) := by
  obtain ⟨t', pc₀⟩ := task
  intro t rec' hrec' hact'
  rw [DaemonState.goto_records] at hrec'
  by_cases ht : t = t'
  · subst ht
    rw [DaemonState.perform_lookup] at hrec'
    cases prim with
    | update f =>
      obtain ⟨rec, hrec, rfl⟩ := Option.map_eq_some_iff.mp hrec'
      cases StatusWrite.of_next hn with
      | keep hf =>
        have hact : rec.status = .active := (hf rec).symm.trans hact'
        refine (h t rec hrec hact).ran hrec hact hi hn fun f' hf' => ?_
        cases hf'
        exact hact'
      | start _ => exact ⟨i, .startedAppend, getElem?_ran hi, rfl⟩
      | complete _ => cases hact'
      | fail => cases hact'
    | _ => exact (h t rec' hrec' hact').ran hrec' hact' hi hn nofun
  · rw [DaemonState.perform_lookup_of_ne _ _ _ ht] at hrec'
    refine (h t rec' hrec' hact').mono fun j pc' hj => getElem?_ran_of_ne hj ?_
    rintro rfl
    rw [hi] at hj
    cases hj
    exact ht rfl

theorem ActiveRuns.aborted {i : Nat} {t' : Uuid} {pc pc' : Pc} (h : ActiveRuns s)
    (hi : s.tasks[i]? = some ⟨t', pc⟩) (hok : dropsInactive s (.abort i) = true) :
    ActiveRuns (s.goto i t' pc') := by
  intro t rec hrec hact
  rw [DaemonState.goto_records] at hrec
  by_cases ht : t = t'
  · subst ht
    simp only [dropsInactive, hi, hrec, Option.any_some, hact, decide_true, Bool.not_true,
      Bool.false_or, List.any_eq_true, Bool.and_eq_true, decide_eq_true_eq] at hok
    obtain ⟨⟨tj, pcj⟩, hmem, rfl, hw⟩ := hok
    obtain ⟨j, hij, hj⟩ := List.mem_eraseIdx_iff_getElem?.mp hmem
    exact ⟨j, pcj, (List.getElem?_set_ne (Ne.symm hij)).trans hj, hw⟩
  · refine (h t rec hrec hact).mono fun j pc' hj => (List.getElem?_set_ne ?_).trans hj
    rintro rfl
    rw [hi] at hj
    cases hj
    exact ht rfl

theorem ActiveRuns.step (h : ActiveRuns s) (hok : dropsInactive s l = true)
    (hstep : daemonStep s l = some s') : ActiveRuns s' := by
  cases DaemonMove.of_step hstep with
  | request hr => exact h.request hr
  | spawned _ =>
    exact fun t rec hrec hact => (h t rec hrec hact).mono fun _ _ hj => getElem?_addTask hj
  | ran hi hn _ => exact h.ran hi hn
  | aborted hi _ => exact h.aborted hi hok
  | _ => exact h

end Step

/-! ## Permits -/

/-- The number `health` reports. -/
def DaemonState.activeTransfers (s : DaemonState) : Nat :=
  s.records.entries.countP fun entry => entry.2.status = .active

/-- A transfer is submitted, its worker (task 1) starts and listens. -/
def sampleStart : List DaemonLabel := sampleSubmit ++ sampleSchedule ++ sampleRun 1 5

end ScTransport
