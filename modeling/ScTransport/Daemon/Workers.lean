import ScTransport.Daemon.Moves

/-!
# One worker per transfer

The scheduler pops an entry, looks at the record, waits for a permit and spawns a worker; the
worker looks at the record once more, but only for a cancellation. Nothing keeps a second entry
of the same transfer from passing the scheduler's check in between.

* `start_exclusive` — as long as the scheduler lets no transfer through that has a worker, every
  worker starts on a queued record and alone
* `sample_two_workers` — a priority update to the priority the transfer has already is enough
  for two workers
-/

namespace ScTransport

open Infra

/-! ## Workers -/

/-- The points of a worker that has not returned. -/
def Pc.isWorker : Pc → Bool
  | .persistCopy .handler | .persistWrite .handler _ => false
  | .persistCopy _ | .persistWrite _ _ => true
  | .spawned | .startedAppend | .subscribe | .job _ | .failed _ | .failedAppend _ | .leave => true
  | _ => false

def HasWorker (s : DaemonState) (t : Uuid) : Prop :=
  ∃ (j : Nat) (pc : Pc), s.tasks[j]? = some ⟨t, pc⟩ ∧ pc.isWorker = true

/-- The scheduler has let `t` through and is about to spawn a worker for it. -/
def Held (s : DaemonState) (t : Uuid) : Prop :=
  s.scheduler = .validated t ∨ s.scheduler = .permitted t

theorem not_held_of_idle {s : DaemonState} {t : Uuid} (hs : s.scheduler = .idle) :
    ¬ Held s t := by
  unfold Held
  rw [hs]
  nofun

theorem not_held_of_popped {s : DaemonState} {t : Uuid} {entry : QueueEntry}
    (hs : s.scheduler = .popped entry) : ¬ Held s t := by
  unfold Held
  rw [hs]
  nofun

/-- Where a record stays while its transfer waits for its worker to start. -/
def Waiting (s : DaemonState) (t : Uuid) : Prop :=
  ∃ rec, s.records.lookup t = some rec ∧ (rec.status = .queued ∨ rec.status = .cancelled)

section Next

variable {t : Uuid} {records : Records} {now : Nat} {answer : Answer} {prim : Prim} {pc pc' : Pc}

/-- No task turns into a worker, and no worker returns to its start. -/
theorem Pc.next_isWorker (h : pc.next t records now answer = some (prim, pc'))
    (hw : pc'.isWorker = true) : pc.isWorker = true ∧ pc' ≠ .spawned := by
  cases pc with
  | job point => cases JobMove.of_next h <;> exact ⟨rfl, nofun⟩
  | spawned =>
    rcases Pc.next_spawned h with ⟨-, rfl⟩ | ⟨-, rfl⟩ | ⟨-, rfl⟩
    · exact ⟨rfl, nofun⟩
    · cases hw
    · exact ⟨rfl, nofun⟩
  | persistCopy site =>
    cases h
    cases site with
    | handler => cases hw
    | started => exact ⟨rfl, nofun⟩
    | final => exact ⟨rfl, nofun⟩
  | persistWrite site list =>
    cases h
    cases site with
    | handler => cases hw
    | started => exact ⟨rfl, nofun⟩
    | final => exact ⟨rfl, nofun⟩
  | _ => cases h <;> first | exact ⟨rfl, nofun⟩ | cases hw

/-- Only workers change a status after their first step. -/
theorem Pc.next_status {f : TransferRecord → TransferRecord}
    (h : pc.next t records now answer = some (.update f, pc')) (hw : pc.isWorker = false)
    (rec : TransferRecord) : (f rec).status = rec.status := by
  cases pc with
  | progress p => cases h; rfl
  | spawned => cases hw
  | job point => cases hw
  | failed error => cases hw
  | _ => cases h

end Next

/-! ## What a step does to workers and to waiting transfers -/

section Move

variable {s s' : DaemonState} {l : DaemonLabel} {t : Uuid}

theorem Request.not_worker {rec : TransferRecord} {pc : Pc} (h : Request s l t rec pc) :
    pc.isWorker = false := by
  cases h <;> rfl

/-- A worker was a worker of the same transfer before, or the scheduler has just spawned it. -/
theorem DaemonMove.worker (h : DaemonMove s l s') {j : Nat} {pc : Pc}
    (ht : s'.tasks[j]? = some ⟨t, pc⟩) (hw : pc.isWorker = true) :
    (∃ pc₀, s.tasks[j]? = some ⟨t, pc₀⟩ ∧ pc₀.isWorker = true ∧
      (pc = .spawned → pc₀ = .spawned)) ∨
    (s.scheduler = .permitted t ∧ l = .spawn ∧ j = s.tasks.length) := by
  cases h with
  | request hr =>
    rcases tasks_addTask ht with ht | ⟨-, htask⟩
    · exact Or.inl ⟨pc, ht, hw, id⟩
    · cases htask
      rw [hr.not_worker] at hw
      cases hw
  | spawned hs =>
    rcases tasks_addTask ht with ht | ⟨hj, htask⟩
    · exact Or.inl ⟨pc, ht, hw, id⟩
    · cases htask
      exact Or.inr ⟨hs, rfl, hj⟩
  | ran hi hn hlock =>
    rcases tasks_ran ht with ⟨rfl, htask⟩ | ⟨-, ht⟩ | ⟨pc', rfl, htask⟩
    · cases htask
      obtain ⟨hw₀, hne⟩ := Pc.next_isWorker hn hw
      exact Or.inl ⟨_, hi, hw₀, fun he => absurd he hne⟩
    · exact Or.inl ⟨pc, ht, hw, id⟩
    · cases htask
      obtain ⟨p, rfl⟩ := Pc.next_spawn hn
      cases hw
  | @aborted i t' point hi _ =>
    rcases tasks_goto ht with ⟨rfl, htask⟩ | ⟨-, ht⟩
    · cases htask
      exact Or.inl ⟨_, hi, rfl, nofun⟩
    · exact Or.inl ⟨pc, ht, hw, id⟩
  | _ => exact Or.inl ⟨pc, ht, hw, id⟩

theorem Waiting.of_lookup (hw : Waiting s t)
    (h : s'.records.lookup t = s.records.lookup t) : Waiting s' t := by
  unfold Waiting
  rw [h]
  exact hw

/-- Requests leave a waiting record waiting. -/
theorem Waiting.request {t' : Uuid} {rec : TransferRecord} {pc : Pc} (hw : Waiting s t)
    (h : Request s l t' rec pc) :
    Waiting ({ s with records := s.records.insert t' rec }.addTask t' pc) t := by
  by_cases ht : t = t'
  · subst ht
    obtain ⟨old, hold, hst⟩ := hw
    refine ⟨rec, AList.lookup_insert _, ?_⟩
    cases h with
    | submit hnone => rw [hnone] at hold; cases hold
    | cancel _ => exact Or.inr rfl
    | patchActive hrec hact =>
      rw [hrec] at hold
      cases hold
      rw [hact] at hst
      rcases hst with hst | hst <;> cases hst
    | patchOther _ hact => exact Or.inl (if_neg hact)
  · exact hw.of_lookup (AList.lookup_insert_ne ht)

/-- So do the handlers and the callbacks. -/
theorem Waiting.ran {i now : Nat} {answer : Answer} {prim : Prim} {pc pc' : Pc}
    (hw : Waiting s t) (hn : pc.next t s.records now answer = some (prim, pc'))
    (hworker : pc.isWorker = false) : Waiting ((s.perform t prim).goto i t pc') t := by
  obtain ⟨rec, hrec, hst⟩ := hw
  unfold Waiting
  rw [DaemonState.goto_records, DaemonState.perform_lookup]
  cases prim with
  | update f =>
    refine ⟨f rec, by rw [hrec]; rfl, ?_⟩
    rwa [Pc.next_status hn hworker]
  | _ => exact ⟨rec, hrec, hst⟩

/-- A waiting record stays waiting, unless a worker of the same transfer takes a step. -/
theorem DaemonMove.waiting (h : DaemonMove s l s') (hw : Waiting s t) :
    Waiting s' t ∨ ∃ (i : Nat) (pc pc' : Pc), s.tasks[i]? = some ⟨t, pc⟩ ∧
      pc.isWorker = true ∧ s'.tasks[i]? = some ⟨t, pc'⟩ ∧ pc' ≠ .spawned := by
  cases h with
  | request hr => exact Or.inl (hw.request hr)
  | @ran i now answer task prim pc hi hn _ =>
    by_cases ht : t = task.transferId
    · subst ht
      cases hworker : task.pc.isWorker with
      | true =>
        refine Or.inr ⟨i, task.pc, pc, hi, hworker, getElem?_ran hi, ?_⟩
        rintro rfl
        exact (Pc.next_isWorker hn rfl).2 rfl
      | false => exact Or.inl (hw.ran hn hworker)
    · exact Or.inl (hw.of_lookup (DaemonState.perform_lookup_of_ne _ _ _ ht))
  | _ => exact Or.inl hw

/-- The scheduler holds what it held before, or has just validated it. -/
theorem DaemonMove.held (h : DaemonMove s l s') (hh : Held s' t) :
    (Held s t ∧ l ≠ .spawn) ∨
    (l = .validate ∧ s'.records = s.records ∧ s'.tasks = s.tasks ∧ ∃ entry,
      s.scheduler = .popped entry ∧ entry.transferId = t ∧ entryValid s.records entry = true) := by
  cases h with
  | request hr => exact Or.inl ⟨hh, by cases hr <;> nofun⟩
  | popped hs hp => rcases hh with hh | hh <;> cases hh
  | rejected hs hv => rcases hh with hh | hh <;> cases hh
  | validated hs hv =>
    rcases hh with hh | hh
    · cases hh
      exact Or.inr ⟨rfl, rfl, rfl, _, hs, rfl, hv⟩
    · cases hh
  | acquired hs hp =>
    rcases hh with hh | hh
    · cases hh
    · cases hh
      exact Or.inl ⟨Or.inl hs, nofun⟩
  | spawned hs => rcases hh with hh | hh <;> cases hh
  | ran hi hn hlock =>
    unfold Held at hh ⊢
    rw [DaemonState.goto_scheduler, DaemonState.perform_scheduler] at hh
    exact Or.inl ⟨hh, nofun⟩
  | _ => exact Or.inl ⟨hh, nofun⟩

end Move

/-! ## The invariant -/

/--
A transfer the scheduler holds has no worker and its record is waiting; a transfer has at most
one worker; the record of a worker that has not started is waiting.
-/
structure Exclusive (s : DaemonState) : Prop where
  held : ∀ t, Held s t → Waiting s t ∧ ¬ HasWorker s t
  unique : ∀ {i j : Nat} {t : Uuid} {pc pc' : Pc}, s.tasks[i]? = some ⟨t, pc⟩ →
    s.tasks[j]? = some ⟨t, pc'⟩ → pc.isWorker = true → pc'.isWorker = true → i = j
  spawned : ∀ {i : Nat} {t : Uuid}, s.tasks[i]? = some ⟨t, .spawned⟩ → Waiting s t

/-- The scheduler lets a transfer through only if no worker has it. -/
def validatesIdle (s : DaemonState) : DaemonLabel → Bool
  | .validate =>
    match s.scheduler with
    | .popped entry =>
      !(entryValid s.records entry &&
        s.tasks.any fun task => task.transferId = entry.transferId && task.pc.isWorker)
    | _ => true
  | _ => true

theorem not_hasWorker_of_validatesIdle {s : DaemonState} {entry : QueueEntry}
    (h : validatesIdle s .validate = true) (hs : s.scheduler = .popped entry)
    (hv : entryValid s.records entry = true) : ¬ HasWorker s entry.transferId := by
  rintro ⟨j, pc, hj, hw⟩
  simp only [validatesIdle, hs, hv, Bool.true_and, Bool.not_eq_true', List.any_eq_false] at h
  exact h _ (List.mem_of_getElem? hj) (by simp [hw])

theorem exclusive_boot (maxConcurrent : Nat) (hashLe : Uuid → Uuid → Bool) (files : Files) :
    Exclusive (boot maxConcurrent hashLe files) where
  held t h := by rcases h with h | h <;> cases h
  unique h := by simp [boot] at h
  spawned h := by simp [boot] at h

theorem waiting_of_entryValid {s : DaemonState} {entry : QueueEntry}
    (h : entryValid s.records entry = true) : Waiting s entry.transferId := by
  unfold entryValid at h
  rw [Option.any_eq_true] at h
  obtain ⟨rec, hrec, hst⟩ := h
  simp only [Bool.and_eq_true, decide_eq_true_eq] at hst
  exact ⟨rec, hrec, Or.inl hst.1⟩

section Step

variable {s s' : DaemonState} {l : DaemonLabel}

theorem Exclusive.held_step (hx : Exclusive s) (hok : validatesIdle s l = true)
    (h : DaemonMove s l s') {t : Uuid} (hh : Held s' t) : Waiting s' t ∧ ¬ HasWorker s' t := by
  rcases h.held hh with ⟨hh₀, hl⟩ | ⟨hl, hrec, htasks, entry, hs, rfl, hv⟩
  · obtain ⟨hwait, hnone⟩ := hx.held t hh₀
    constructor
    · rcases h.waiting hwait with hw | ⟨i, pc, pc', hi, hworker, -⟩
      · exact hw
      · exact absurd ⟨i, pc, hi, hworker⟩ hnone
    · rintro ⟨j, pc, hj, hworker⟩
      rcases h.worker hj hworker with ⟨pc₀, hj₀, hw₀, -⟩ | ⟨-, hspawn, -⟩
      · exact hnone ⟨j, pc₀, hj₀, hw₀⟩
      · exact hl hspawn
  · subst hl
    unfold HasWorker Waiting
    rw [htasks, hrec]
    exact ⟨waiting_of_entryValid hv, not_hasWorker_of_validatesIdle hok hs hv⟩

theorem Exclusive.unique_step (hx : Exclusive s) (h : DaemonMove s l s') {i j : Nat} {t : Uuid}
    {pc pc' : Pc} (hi : s'.tasks[i]? = some ⟨t, pc⟩) (hj : s'.tasks[j]? = some ⟨t, pc'⟩)
    (hw : pc.isWorker = true) (hw' : pc'.isWorker = true) : i = j := by
  rcases h.worker hi hw with ⟨pci, hi₀, hwi, -⟩ | ⟨hperm, -, hlen⟩
  · rcases h.worker hj hw' with ⟨pcj, hj₀, hwj, -⟩ | ⟨hperm, -, -⟩
    · exact hx.unique hi₀ hj₀ hwi hwj
    · exact absurd ⟨i, pci, hi₀, hwi⟩ (hx.held t (Or.inr hperm)).2
  · rcases h.worker hj hw' with ⟨pcj, hj₀, hwj, -⟩ | ⟨-, -, hlen'⟩
    · exact absurd ⟨j, pcj, hj₀, hwj⟩ (hx.held t (Or.inr hperm)).2
    · rw [hlen, hlen']

theorem Exclusive.spawned_step (hx : Exclusive s) (h : DaemonMove s l s') {i : Nat} {t : Uuid}
    (hi : s'.tasks[i]? = some ⟨t, .spawned⟩) : Waiting s' t := by
  rcases h.worker hi rfl with ⟨pc, hi₀, -, hpc⟩ | ⟨hperm, rfl, -⟩
  · have hi₀ : s.tasks[i]? = some ⟨t, .spawned⟩ := hpc rfl ▸ hi₀
    rcases h.waiting (hx.spawned hi₀) with hw | ⟨k, pck, pck', hk, hwk, hk', hne⟩
    · exact hw
    · -- the worker that moved is this one, but it has not moved
      have hki : k = i := hx.unique hk hi₀ hwk rfl
      rw [hki, hi] at hk'
      cases hk'
      exact absurd rfl hne
  · cases h with
    | request hr => cases hr
    | spawned _ => exact (hx.held t (Or.inr hperm)).1

theorem Exclusive.step (hx : Exclusive s) (hok : validatesIdle s l = true)
    (h : daemonStep s l = some s') : Exclusive s' where
  held _ hh := hx.held_step hok (.of_step h) hh
  unique := hx.unique_step (.of_step h)
  spawned := hx.spawned_step (.of_step h)

end Step

/--
**A worker starts on a queued record, and alone.** In every run in which the scheduler lets no
transfer through that has a worker, a worker that sets its record to `Active` finds it `Queued`,
and no other worker of the transfer is running.
-/
theorem start_exclusive {maxConcurrent : Nat} {hashLe : Uuid → Uuid → Bool} {files : Files}
    {s s' : DaemonState} (i now : Nat) (answer : Answer) (t : Uuid)
    (hrun : daemon.Reach (fun s l => validatesIdle s l = true)
      (boot maxConcurrent hashLe files) s)
    (hi : s.tasks[i]? = some ⟨t, .spawned⟩)
    (hstep : daemonStep s (.run i now answer) = some s')
    (hactive : ∃ rec, s'.records.lookup t = some rec ∧ rec.status = .active) :
    (∃ rec, s.records.lookup t = some rec ∧ rec.status = .queued) ∧
    ∀ (j : Nat) (pc : Pc), j ≠ i → s.tasks[j]? = some ⟨t, pc⟩ → pc.isWorker = false := by
  have hx : Exclusive s := hrun.invariant (exclusive_boot _ _ _) fun hx hok h => hx.step hok h
  constructor
  · obtain ⟨rec, hrec, hst⟩ := hx.spawned hi
    refine ⟨rec, hrec, hst.resolve_right fun hcancelled => ?_⟩
    -- a cancelled record sends the worker home
    cases DaemonMove.of_step hstep with
    | request hr => cases hr
    | @ran _ _ _ task prim pc ht hn _ =>
      rw [hi] at ht
      cases ht
      simp only [Pc.next, hrec, hcancelled, if_true] at hn
      cases hn
      obtain ⟨rec', hrec', hst'⟩ := hactive
      rw [DaemonState.goto_records, DaemonState.perform_lookup, hrec] at hrec'
      cases hrec'
      rw [hcancelled] at hst'
      cases hst'
  · intro j pc hne hj
    cases hw : pc.isWorker with
    | false => rfl
    | true => exact absurd (hx.unique hj hi hw rfl) hne

/-! ### One transfer, its priority set to what it is -/

theorem sample_start_exclusive :
    ∃ s s', daemon.execWhere validatesIdle sampleBoot (sampleSubmit ++ sampleSchedule) = some s ∧
      daemonStep s (.run 1 0 .nothing) = some s' ∧
      (∃ rec, s.records.lookup 1 = some rec ∧ rec.status = .queued) ∧
      ∀ (j : Nat) (pc : Pc), j ≠ 1 → s.tasks[j]? = some ⟨1, pc⟩ → pc.isWorker = false := by
  refine ⟨_, _, rfl, rfl, ?_⟩
  have hrun : daemon.execWhere validatesIdle sampleBoot (sampleSubmit ++ sampleSchedule) =
    some _ := rfl
  exact start_exclusive 1 0 .nothing 1 (.of_execWhere hrun) rfl rfl ⟨_, rfl, rfl⟩

theorem sample_two_workers :
    ∃ s s', daemon.exec sampleBoot (sampleSubmit ++ .patch 1 5 0 :: sampleRun 1 1 ++
        sampleSchedule ++ sampleSchedule ++ sampleRun 2 1) = some s ∧
      daemonStep s (.run 3 0 .nothing) = some s' ∧
      s.tasks[2]? = some ⟨1, .startedAppend⟩ ∧ s.tasks[3]? = some ⟨1, .spawned⟩ ∧
      (s.records.lookup 1).map TransferRecord.status = some .active ∧
      (s'.records.lookup 1).map TransferRecord.status = some .active :=
  ⟨_, _, rfl, rfl, rfl, rfl, rfl, rfl⟩

end ScTransport
