import ScTransport.Daemon.Active

/-!
# Terminal states

Three places write a terminal status: `cancel_transfer`, the completion of the job and the
failure branch of the worker. Only the completion looks at the status it replaces, so a job that
fails after a cancellation makes a cancelled transfer failed, and a cancellation of a transfer
that is long over makes it cancelled.

* `pendingStarts`, `startedWorkers` — how often a transfer can still be started, and its workers
* `OneStart.step` — without priority updates a transfer is started at most once
* `terminal_stays` — apart from these two writes a terminal status is final
-/

namespace ScTransport

open Infra

/-! ## Starts that are still to come -/

/-- The tasks that push an entry or start a job later on. -/
def Pc.bringsStart : Pc → Bool
  | .submitChannel _ | .submitEnqueue _ | .patchEnqueue _ | .spawned => true
  | _ => false

def Pc.isStarted : Pc → Bool
  | .spawned => false
  | pc => pc.isWorker

def SchedulerPc.has (t : Uuid) : SchedulerPc → Bool
  | .idle => false
  | .popped entry => entry.transferId = t
  | .validated t' | .permitted t' => t' = t

def Prim.entries : Prim → Nat
  | .enqueue _ => 1
  | _ => 0

/-- The tasks of a transfer at points of a kind. -/
def DaemonState.tasksAt (s : DaemonState) (t : Uuid) (k : Pc → Bool) : Nat :=
  s.tasks.countP fun task => task.transferId = t && k task.pc

def pendingStarts (s : DaemonState) (t : Uuid) : Nat :=
  s.queue.countP (fun entry => entry.transferId = t) + (s.scheduler.has t).toNat +
    s.tasksAt t Pc.bringsStart

def startedWorkers (s : DaemonState) (t : Uuid) : Nat := s.tasksAt t Pc.isStarted

section Next

variable {t : Uuid} {records : Records} {now : Nat} {answer : Answer} {prim : Prim} {pc pc' : Pc}

/-- The only tasks that are spawned by a task are the callbacks of `pushSend`. -/
theorem Pc.next_spawn_progress {pc'' : Pc}
    (h : pc.next t records now answer = some (.spawn pc'', pc')) : ∃ p, pc'' = .progress p := by
  cases pc with
  | job point => cases JobMove.of_next h; exact ⟨_, rfl⟩
  | spawned => rcases Pc.next_spawned h with ⟨hp, -⟩ | ⟨hp, -⟩ | ⟨hp, -⟩ <;> cases hp
  | _ => cases h

/-- A task turns the start it brings into an entry or a worker, or gives it up. -/
theorem Pc.next_starts (h : pc.next t records now answer = some (prim, pc')) :
    pc'.bringsStart.toNat + prim.entries ≤ pc.bringsStart.toNat ∧
    pc'.bringsStart.toNat + prim.entries + pc'.isStarted.toNat ≤
      pc.bringsStart.toNat + pc.isStarted.toNat ∧
    (pc = .spawned → pc'.bringsStart.toNat + prim.entries = 0) := by
  cases pc with
  | job point =>
    cases JobMove.of_next h <;> exact ⟨Nat.le_refl _, Nat.le_refl _, fun hpc => by cases hpc⟩
  | spawned =>
    rcases Pc.next_spawned h with ⟨rfl, rfl⟩ | ⟨rfl, rfl⟩ | ⟨rfl, rfl⟩ <;>
      exact ⟨Nat.zero_le _, by simp [Pc.bringsStart, Pc.isStarted, Pc.isWorker, Prim.entries],
        fun _ => rfl⟩
  | persistCopy site =>
    cases h
    cases site <;> exact ⟨Nat.le_refl _, Nat.le_refl _, fun hpc => by cases hpc⟩
  | persistWrite site list =>
    cases h
    cases site <;> exact ⟨Nat.le_refl _, Nat.le_refl _, fun hpc => by cases hpc⟩
  | leave => cases h; exact ⟨Nat.le_refl _, Nat.zero_le _, fun hpc => by cases hpc⟩
  | _ => cases h <;> exact ⟨Nat.le_refl _, Nat.le_refl _, fun hpc => by cases hpc⟩

/-- A worker at work was at work before, or has just started. -/
theorem Pc.atWork_of_next (h : pc.next t records now answer = some (prim, pc'))
    (hw : pc'.atWork = true) : pc.atWork = true ∨ pc = .spawned := by
  cases pc with
  | job point =>
    have hne : point ≠ .completeAppend := by
      rintro rfl
      cases h
      cases hw
    cases point <;> first | exact Or.inl rfl | exact absurd rfl hne
  | spawned => exact Or.inr rfl
  | persistCopy site => cases h; cases site <;> first | exact Or.inl rfl | cases hw
  | persistWrite site list => cases h; cases site <;> first | exact Or.inl rfl | cases hw
  | _ => cases h <;> first | exact Or.inl rfl | cases hw

theorem Pc.isStarted_of_atWork (h : pc.atWork = true) : pc.isStarted = true := by
  cases pc with
  | spawned => cases h
  | _ => exact Pc.isWorker_of_atWork h

end Next

/-! ## How a step changes the counts -/

section Count

variable {s s' : DaemonState} {l : DaemonLabel} {t t' : Uuid} {k : Pc → Bool}

theorem tasksAt_addTask (pc : Pc) :
    (s.addTask t pc).tasksAt t k = s.tasksAt t k + (k pc).toNat := by
  unfold DaemonState.tasksAt
  rw [countP_addTask]
  simp

theorem tasksAt_addTask_of_ne (ht : t ≠ t') (pc : Pc) :
    (s.addTask t' pc).tasksAt t k = s.tasksAt t k := by
  unfold DaemonState.tasksAt
  rw [countP_addTask]
  simp [Ne.symm ht]

theorem tasksAt_goto {i : Nat} {pc : Pc} (hi : s.tasks[i]? = some ⟨t, pc⟩) (pc' : Pc) :
    (s.goto i t pc').tasksAt t k + (k pc).toNat = s.tasksAt t k + (k pc').toNat := by
  unfold DaemonState.tasksAt
  have h := countP_goto (p := fun task => task.transferId = t && k task.pc) hi t pc'
  simpa using h

theorem tasksAt_goto_of_ne {i : Nat} {pc : Pc} (ht : t ≠ t') (hi : s.tasks[i]? = some ⟨t', pc⟩)
    (pc' : Pc) : (s.goto i t' pc').tasksAt t k = s.tasksAt t k := by
  unfold DaemonState.tasksAt
  have h := countP_goto (p := fun task => task.transferId = t && k task.pc) hi t' pc'
  simpa [Ne.symm ht] using h

section Ran

variable {i now : Nat} {answer : Answer} {prim : Prim} {pc pc' : Pc}

theorem tasksAt_ran (hi : s.tasks[i]? = some ⟨t, pc⟩)
    (hn : pc.next t s.records now answer = some (prim, pc'))
    (hk : ∀ p, k (.progress p) = false) :
    ((s.perform t prim).goto i t pc').tasksAt t k + (k pc).toNat =
      s.tasksAt t k + (k pc').toNat := by
  have hspawn : ∀ pc'', prim = .spawn pc'' → (decide (t = t) && k pc'') = false := by
    rintro pc'' rfl
    obtain ⟨p, rfl⟩ := Pc.next_spawn_progress hn
    simp [hk]
  unfold DaemonState.tasksAt
  have h := countP_ran (p := fun task => task.transferId = t && k task.pc) (t := t) hi
    hspawn pc'
  simpa using h

theorem tasksAt_ran_of_ne (ht : t ≠ t') (hi : s.tasks[i]? = some ⟨t', pc⟩) :
    ((s.perform t' prim).goto i t' pc').tasksAt t k = s.tasksAt t k := by
  unfold DaemonState.tasksAt
  have hspawn : ∀ pc'', prim = .spawn pc'' → (decide (t' = t) && k pc'') = false := by
    simp [Ne.symm ht]
  have h := countP_ran (p := fun task => task.transferId = t && k task.pc) (t := t') hi
    hspawn pc'
  simpa [Ne.symm ht] using h

theorem pendingStarts_ran (hi : s.tasks[i]? = some ⟨t, pc⟩)
    (hn : pc.next t s.records now answer = some (prim, pc')) :
    pendingStarts ((s.perform t prim).goto i t pc') t + pc.bringsStart.toNat =
      pendingStarts s t + (pc'.bringsStart.toNat + prim.entries) := by
  have htasks := tasksAt_ran (k := Pc.bringsStart) hi hn fun _ => rfl
  have hqueue : (s.perform t prim).queue.countP (fun entry => entry.transferId = t) =
      s.queue.countP (fun entry => entry.transferId = t) + prim.entries := by
    rw [DaemonState.perform_queue]
    cases prim <;> simp [Prim.entries]
  unfold pendingStarts
  rw [DaemonState.goto_queue, DaemonState.goto_scheduler, DaemonState.perform_scheduler, hqueue]
  omega

theorem pendingStarts_ran_of_ne (ht : t ≠ t') (hi : s.tasks[i]? = some ⟨t', pc⟩) :
    pendingStarts ((s.perform t' prim).goto i t' pc') t = pendingStarts s t := by
  have hqueue : (s.perform t' prim).queue.countP (fun entry => entry.transferId = t) =
      s.queue.countP (fun entry => entry.transferId = t) := by
    rw [DaemonState.perform_queue]
    cases prim <;> simp [Ne.symm ht]
  unfold pendingStarts
  rw [DaemonState.goto_queue, DaemonState.goto_scheduler, DaemonState.perform_scheduler, hqueue,
    tasksAt_ran_of_ne ht hi]

end Ran

/-- The requests that bring a new start. -/
def DaemonLabel.starts (t : Uuid) : DaemonLabel → Bool
  | .submit t' _ _ | .patch t' _ _ => t' = t
  | _ => false

/-- Without a new submission or a priority update the starts of a transfer are used up. -/
theorem DaemonMove.starts_le (h : DaemonMove s l s') (hl : l.starts t = false) :
    pendingStarts s' t ≤ pendingStarts s t ∧
      pendingStarts s' t + startedWorkers s' t ≤ pendingStarts s t + startedWorkers s t := by
  unfold startedWorkers
  cases h with
  | @request _ t' rec pc hr =>
    by_cases ht : t = t'
    · subst ht
      have hpc : pc.bringsStart = false ∧ pc.isStarted = false := by
        cases hr with
        | cancel _ => exact ⟨rfl, rfl⟩
        | _ => simp [DaemonLabel.starts] at hl
      unfold pendingStarts
      rw [tasksAt_addTask, tasksAt_addTask, hpc.1, hpc.2]
      exact ⟨Nat.le_refl _, Nat.le_refl _⟩
    · unfold pendingStarts
      rw [tasksAt_addTask_of_ne ht, tasksAt_addTask_of_ne ht]
      exact ⟨Nat.le_refl _, Nat.le_refl _⟩
  | @popped e rest hs hp =>
    have hcount := (popQueue_perm hp).countP_eq fun entry => decide (entry.transferId = t)
    have hpending : pendingStarts { s with queue := rest, scheduler := .popped e } t =
        pendingStarts s t := by
      unfold pendingStarts
      rw [hcount, List.countP_cons, hs]
      by_cases he : e.transferId = t <;> simp [SchedulerPc.has, DaemonState.tasksAt, he]
    rw [hpending]
    exact ⟨Nat.le_refl _, Nat.le_refl _⟩
  | rejected hs _ =>
    unfold pendingStarts
    simp only [SchedulerPc.has, DaemonState.tasksAt, Bool.toNat_false]
    omega
  | validated hs _ =>
    unfold pendingStarts
    rw [hs]
    exact ⟨Nat.le_refl _, Nat.le_refl _⟩
  | acquired hs _ =>
    unfold pendingStarts
    rw [hs]
    exact ⟨Nat.le_refl _, Nat.le_refl _⟩
  | @spawned t' hs =>
    unfold pendingStarts
    rw [hs]
    by_cases ht : t = t'
    · subst ht
      rw [tasksAt_addTask, tasksAt_addTask]
      simp [SchedulerPc.has, DaemonState.addTask, DaemonState.tasksAt, Pc.bringsStart,
        Pc.isStarted]
      omega
    · rw [tasksAt_addTask_of_ne ht, tasksAt_addTask_of_ne ht]
      simp [SchedulerPc.has, DaemonState.addTask, DaemonState.tasksAt]
  | @ran i now answer task prim pc hi hn _ =>
    obtain ⟨t', pc₀⟩ := task
    by_cases ht : t = t'
    · subst ht
      have hn : pc₀.next t s.records now answer = some (prim, pc) := hn
      have hpending := pendingStarts_ran hi hn
      have hstarted := tasksAt_ran (k := Pc.isStarted) hi hn fun _ => rfl
      obtain ⟨h₁, h₂, -⟩ := Pc.next_starts hn
      simp only
      omega
    · rw [pendingStarts_ran_of_ne ht hi, tasksAt_ran_of_ne ht hi]
      exact ⟨Nat.le_refl _, Nat.le_refl _⟩
  | @aborted i t' point hi _ =>
    unfold pendingStarts
    by_cases ht : t = t'
    · subst ht
      have hpending := tasksAt_goto (k := Pc.bringsStart) hi (.persistCopy .final)
      have hstarted := tasksAt_goto (k := Pc.isStarted) hi (.persistCopy .final)
      simp only [Pc.bringsStart, Pc.isStarted, Pc.isWorker] at hpending hstarted
      rw [DaemonState.goto_queue, DaemonState.goto_scheduler]
      omega
    · rw [tasksAt_goto_of_ne ht hi, tasksAt_goto_of_ne ht hi]
      exact ⟨Nat.le_refl _, Nat.le_refl _⟩
  | _ => exact ⟨Nat.le_refl _, Nat.le_refl _⟩

theorem tasksAt_pos {i : Nat} {pc : Pc} (hi : s.tasks[i]? = some ⟨t, pc⟩) (hk : k pc = true) :
    0 < s.tasksAt t k := by
  refine List.countP_pos_iff.mpr ⟨⟨t, pc⟩, List.mem_of_getElem? hi, ?_⟩
  simp [hk]

theorem startedWorkers_unique (h : startedWorkers s t ≤ 1) {i j : Nat} {pc pc' : Pc}
    (hi : s.tasks[i]? = some ⟨t, pc⟩) (hj : s.tasks[j]? = some ⟨t, pc'⟩)
    (hw : pc.isStarted = true) (hw' : pc'.isStarted = true) : i = j := by
  by_contra hij
  -- take worker `i` away: worker `j` is still there
  have hcount := tasksAt_goto (k := Pc.isStarted) hi .done
  have hleft : 0 < (s.goto i t .done).tasksAt t Pc.isStarted :=
    tasksAt_pos ((List.getElem?_set_ne hij).trans hj) hw'
  unfold startedWorkers at h
  rw [hw] at hcount
  simp only [Pc.isStarted, Pc.isWorker, Bool.toNat_true, Bool.toNat_false] at hcount
  omega

end Count

/-! ## At most one start -/

/-- The record of a worker at work: the worker has made it active, a request cancelled. -/
def Working (s : DaemonState) (t : Uuid) : Prop :=
  ∃ rec, s.records.lookup t = some rec ∧ (rec.status = .active ∨ rec.status = .cancelled)

/--
A transfer is started at most once; until then its record is waiting, and while its worker is at
work it is active or cancelled.
-/
structure OneStart (s : DaemonState) (t : Uuid) : Prop where
  absent : s.records.lookup t = none → pendingStarts s t = 0 ∧ startedWorkers s t = 0
  single : pendingStarts s t + startedWorkers s t ≤ 1
  waiting : 0 < pendingStarts s t → Waiting s t
  working : ∀ {i : Nat} {pc : Pc}, s.tasks[i]? = some ⟨t, pc⟩ → pc.atWork = true → Working s t

section Step

variable {s s' : DaemonState} {l : DaemonLabel} {t : Uuid}

/-- Records do not disappear. -/
theorem DaemonMove.lookup_isSome (h : DaemonMove s l s')
    (hs : (s.records.lookup t).isSome = true) : (s'.records.lookup t).isSome = true := by
  cases h with
  | @request _ t' rec pc _ =>
    rw [DaemonState.addTask_records]
    by_cases ht : t = t'
    · subst ht
      rw [AList.lookup_insert]
      rfl
    · rwa [AList.lookup_insert_ne ht]
  | @ran _ _ _ task prim _ _ _ _ =>
    rw [DaemonState.goto_records]
    by_cases ht : t = task.transferId
    · subst ht
      rw [DaemonState.perform_lookup]
      cases prim with
      | update f => rwa [Option.isSome_map]
      | _ => exact hs
    · rwa [DaemonState.perform_lookup_of_ne _ _ _ ht]
  | _ => exact hs

theorem OneStart.startedWorkers_le (h : OneStart s t) : startedWorkers s t ≤ 1 :=
  (Nat.le_add_left _ _).trans h.single

/-- A transfer that brings a start has no worker yet. -/
theorem OneStart.no_worker (h : OneStart s t) (hp : 0 < pendingStarts s t) {i : Nat} {pc : Pc}
    (hi : s.tasks[i]? = some ⟨t, pc⟩) : pc.isStarted = false := by
  cases hw : pc.isStarted with
  | false => rfl
  | true =>
    have hpos : 0 < startedWorkers s t := tasksAt_pos hi hw
    have hone := h.single
    omega

theorem pendingStarts_pos {i : Nat} {pc : Pc} (hi : s.tasks[i]? = some ⟨t, pc⟩)
    (hp : pc.bringsStart = true) : 0 < pendingStarts s t :=
  Nat.lt_of_lt_of_le (tasksAt_pos hi hp) (Nat.le_add_left _ _)

/-- The transfer is submitted: its one start is on its way. -/
theorem OneStart.submit (h : OneStart s t) {rec : TransferRecord} {req : SubmitTransferRequest}
    (hnone : s.records.lookup t = none) (hq : rec.status = .queued) :
    OneStart ({ s with records := s.records.insert t rec }.addTask t (.submitChannel req)) t := by
  obtain ⟨hpending, hstarted⟩ := h.absent hnone
  have hlookup : ({ s with records := s.records.insert t rec }.addTask t
      (.submitChannel req)).records.lookup t = some rec := AList.lookup_insert _
  refine ⟨fun hnone' => ?_, ?_, fun _ => ⟨rec, hlookup, Or.inl hq⟩, fun hi hw => ?_⟩
  · rw [hlookup] at hnone'
    cases hnone'
  · have htasks : s.tasksAt t Pc.bringsStart = 0 := by
      unfold pendingStarts at hpending
      omega
    unfold pendingStarts startedWorkers at *
    rw [tasksAt_addTask, tasksAt_addTask]
    simp only [DaemonState.addTask, DaemonState.tasksAt, Pc.bringsStart, Pc.isStarted,
      Pc.isWorker, Bool.toNat_true, Bool.toNat_false] at hpending hstarted ⊢
    omega
  · rcases tasks_addTask hi with hi | ⟨-, htask⟩
    · have hpos : 0 < startedWorkers s t := tasksAt_pos hi (Pc.isStarted_of_atWork hw)
      omega
    · cases htask
      cases hw

/-- A request that brings no start is a cancellation. -/
theorem Request.cancelled {rec : TransferRecord} {pc : Pc} (hr : Request s l t rec pc)
    (hl : l.starts t = false) : rec.status = .cancelled := by
  cases hr with
  | cancel _ => rfl
  | _ => simp [DaemonLabel.starts] at hl

theorem OneStart.waiting_step (h : OneStart s t) (hm : DaemonMove s l s')
    (hl : l.starts t = false) (hp : 0 < pendingStarts s' t) : Waiting s' t := by
  have hp₀ : 0 < pendingStarts s t := Nat.lt_of_lt_of_le hp (hm.starts_le hl).1
  have hw : Waiting s t := h.waiting hp₀
  cases hm with
  | request hr => exact hw.request hr
  | @ran i now answer task prim pc hi hn _ =>
    obtain ⟨t', pc₀⟩ := task
    by_cases ht : t = t'
    · subst ht
      have hn : pc₀.next t s.records now answer = some (prim, pc) := hn
      cases hworker : pc₀.isWorker with
      | false => exact hw.ran hn hworker
      | true =>
        -- the worker that brings the only start uses it up
        have hspawned : pc₀ = .spawned := by
          have hnot := h.no_worker hp₀ hi
          cases pc₀ with
          | spawned => rfl
          | _ => exact absurd (hnot.symm.trans hworker) nofun
        have hpending := pendingStarts_ran hi hn
        rw [(Pc.next_starts hn).2.2 hspawned, hspawned] at hpending
        have hone := h.single
        simp only [Pc.bringsStart, Bool.toNat_true] at hpending
        exact absurd hp (by simp only; omega)
    · exact hw.of_lookup (DaemonState.perform_lookup_of_ne _ _ _ ht)
  | _ => exact hw

theorem Working.of_lookup (h : Working s t) (heq : s'.records.lookup t = s.records.lookup t) :
    Working s' t := by
  unfold Working
  rwa [heq]

/-- A step that does not write a status. -/
theorem Working.ran {i : Nat} {prim : Prim} {pc' : Pc} (h : Working s t)
    (hkeep : ∀ f, prim = .update f → ∀ rec, (f rec).status = rec.status) :
    Working ((s.perform t prim).goto i t pc') t := by
  obtain ⟨rec, hrec, hst⟩ := h
  unfold Working
  rw [DaemonState.goto_records, DaemonState.perform_lookup]
  cases prim with
  | update f =>
    refine ⟨f rec, by rw [hrec]; rfl, ?_⟩
    rwa [hkeep f rfl]
  | _ => exact ⟨rec, hrec, hst⟩

/-- A task of the transfer takes a step, after which worker `j` is at work. -/
theorem OneStart.working_ran (h : OneStart s t) {i j now : Nat} {answer : Answer} {prim : Prim}
    {pc pc' pcj : Pc} (hi : s.tasks[i]? = some ⟨t, pc⟩)
    (hn : pc.next t s.records now answer = some (prim, pc'))
    (hj : ((s.perform t prim).goto i t pc').tasks[j]? = some ⟨t, pcj⟩)
    (hw : pcj.atWork = true) : Working ((s.perform t prim).goto i t pc') t := by
  rcases tasks_ran hj with ⟨rfl, htask⟩ | ⟨hij, hj₀⟩ | ⟨pc'', rfl, htask⟩
  · -- the worker itself has moved
    cases htask
    rcases Pc.atWork_of_next hn hw with hw₀ | rfl
    · refine (h.working hi hw₀).ran fun f hf => ?_
      subst hf
      cases StatusWrite.of_next hn with
      | keep hf => exact hf
      | start _ => cases hw₀
      | complete _ => cases hw
      | fail => cases hw
    · obtain ⟨rec, hrec, -⟩ := h.waiting (pendingStarts_pos hi rfl)
      simp only [Pc.next, hrec] at hn
      split at hn
      · cases hn
        cases hw
      · cases hn
        refine ⟨rec.start now, ?_, Or.inl rfl⟩
        rw [DaemonState.goto_records, DaemonState.perform_lookup, hrec]
        rfl
  · -- another task has moved, and it is no second worker
    have hstarted := Pc.isStarted_of_atWork hw
    refine (h.working hj₀ hw).ran fun f hf => ?_
    subst hf
    cases StatusWrite.of_next hn with
    | keep hf => exact hf
    | start _ =>
      rw [h.no_worker (pendingStarts_pos hi rfl) hj₀] at hstarted
      cases hstarted
    | complete _ =>
      exact absurd (startedWorkers_unique h.startedWorkers_le hj₀ hi hstarted rfl) hij
    | fail => exact absurd (startedWorkers_unique h.startedWorkers_le hj₀ hi hstarted rfl) hij
  · obtain ⟨p, rfl⟩ := Pc.next_spawn_progress hn
    cases htask
    cases hw

theorem OneStart.working_step (h : OneStart s t) (hm : DaemonMove s l s')
    (hl : l.starts t = false) {j : Nat} {pcj : Pc} (hj : s'.tasks[j]? = some ⟨t, pcj⟩)
    (hw : pcj.atWork = true) : Working s' t := by
  cases hm with
  | @request _ t' rec pc hr =>
    by_cases ht : t = t'
    · subst ht
      exact ⟨rec, AList.lookup_insert _, Or.inr (hr.cancelled hl)⟩
    · rcases tasks_addTask hj with hj | ⟨-, htask⟩
      · exact (h.working hj hw).of_lookup (AList.lookup_insert_ne ht)
      · cases htask
        exact absurd rfl ht
  | spawned _ =>
    rcases tasks_addTask hj with hj | ⟨-, htask⟩
    · exact h.working hj hw
    · cases htask
      cases hw
  | @ran i now answer task prim pc hi hn _ =>
    obtain ⟨t', pc₀⟩ := task
    by_cases ht : t = t'
    · subst ht
      exact h.working_ran hi hn hj hw
    · rcases tasks_ran hj with ⟨-, htask⟩ | ⟨-, hj₀⟩ | ⟨pc'', -, htask⟩
      · cases htask
        exact absurd rfl ht
      · exact (h.working hj₀ hw).of_lookup (DaemonState.perform_lookup_of_ne _ _ _ ht)
      · cases htask
        exact absurd rfl ht
  | aborted hi _ =>
    rcases tasks_goto hj with ⟨-, htask⟩ | ⟨-, hj₀⟩
    · cases htask
      cases hw
    · exact h.working hj₀ hw
  | _ => exact h.working hj hw

def DaemonLabel.patches (t : Uuid) : DaemonLabel → Bool
  | .patch t' _ _ => t' = t
  | _ => false

theorem OneStart.step (h : OneStart s t) (hl : l.patches t = false)
    (hstep : daemonStep s l = some s') : OneStart s' t := by
  have hm := DaemonMove.of_step hstep
  cases hnew : l.starts t with
  | false =>
    have hle := hm.starts_le hnew
    refine ⟨fun hnone => ?_, hle.2.trans h.single, h.waiting_step hm hnew, h.working_step hm hnew⟩
    have hnone₀ : s.records.lookup t = none := by
      cases hs : s.records.lookup t with
      | none => rfl
      | some rec =>
        have hsome := hm.lookup_isSome (t := t) (by rw [hs]; rfl)
        rw [hnone] at hsome
        cases hsome
    obtain ⟨hpending, hstarted⟩ := h.absent hnone₀
    omega
  | true =>
    cases hm with
    | request hr =>
      cases hr with
      | submit hnone _ =>
        obtain rfl : _ = t := by simpa [DaemonLabel.starts] using hnew
        exact h.submit hnone rfl
      | cancel _ => cases hnew
      | patchActive _ _ => exact absurd (hl.symm.trans hnew) nofun
      | patchOther _ _ => exact absurd (hl.symm.trans hnew) nofun
    | unknownPatch _ => exact absurd (hl.symm.trans hnew) nofun
    | _ => cases hnew

end Step

theorem OneStart.run {ok : DaemonState → DaemonLabel → Prop} {s s' : DaemonState} {t : Uuid}
    (h : OneStart s t) (hrun : daemon.Reach ok s s')
    (hok : ∀ {s : DaemonState} {l : DaemonLabel}, ok s l → l.patches t = false) :
    OneStart s' t := by
  induction hrun with
  | refl => exact h
  | step _ hl hstep ih => exact ih.step (hok hl) hstep

theorem oneStart_boot (maxConcurrent : Nat) (hashLe : Uuid → Uuid → Bool) (files : Files)
    (t : Uuid) : OneStart (boot maxConcurrent hashLe files) t := by
  have hkeys := keyedById_loadRecords files
  have hstarted : startedWorkers (boot maxConcurrent hashLe files) t = 0 := rfl
  have hpending : pendingStarts (boot maxConcurrent hashLe files) t =
      (rebuildQueue hashLe (loadRecords files)).countP fun entry => entry.transferId = t := rfl
  have hqueued : 0 < pendingStarts (boot maxConcurrent hashLe files) t →
      ∃ rec, (loadRecords files).lookup t = some rec ∧ rec.status = .queued := by
    rw [hpending, List.countP_pos_iff]
    rintro ⟨entry, hmem, he⟩
    rw [← of_decide_eq_true he]
    exact queued_of_mem_rebuildQueue hashLe hkeys hmem
  refine ⟨fun hnone => ⟨?_, hstarted⟩, ?_, fun hp => ?_, nofun⟩
  · refine Nat.eq_zero_of_not_pos fun hp => ?_
    obtain ⟨rec, hrec, -⟩ := hqueued hp
    exact absurd (hnone.symm.trans hrec) nofun
  · have hcount := List.nodup_iff_count_le_one.mp (nodup_rebuildQueue hashLe hkeys) t
    rw [List.count, List.countP_map] at hcount
    rw [hpending, hstarted]
    exact hcount
  · obtain ⟨rec, hrec, hq⟩ := hqueued hp
    exact ⟨rec, hrec, Or.inl hq⟩

/-! ## Whole runs -/

/--
No cancellation of a transfer that has completed or failed is processed, and no worker records a
failure of a transfer that has been cancelled.
-/
def keepsTerminal (t : Uuid) (s : DaemonState) : DaemonLabel → Bool
  | .cancel t' _ => !(t' = t && (s.records.lookup t).any fun rec =>
      rec.status = .completed || rec.status = .failed)
  | .run i _ _ =>
    match s.tasks[i]? with
    | some ⟨t', .failed _⟩ =>
      !(t' = t && (s.records.lookup t).any fun rec => rec.status = .cancelled)
    | _ => true
  | _ => true

section Terminal

variable {s s' : DaemonState} {l : DaemonLabel} {t : Uuid} {rec : TransferRecord}

/-- A record that waits or is worked on is terminal only by a cancellation. -/
theorem cancelled_of_terminal {status : TransferStatus} (hopen : status.isTerminal = false)
    (h : ∃ rec, s.records.lookup t = some rec ∧ (rec.status = status ∨ rec.status = .cancelled))
    (hrec : s.records.lookup t = some rec) (hterm : rec.status.isTerminal = true) :
    rec.status = .cancelled := by
  obtain ⟨rec', hrec', hst⟩ := h
  rw [hrec] at hrec'
  cases hrec'
  rcases hst with hst | hst
  · rw [hst, hopen] at hterm
    cases hterm
  · exact hst

/-- A task of the transfer leaves a terminal status alone. -/
theorem OneStart.terminal_ran (h : OneStart s t) {i now : Nat} {answer : Answer} {prim : Prim}
    {pc pc' : Pc} (hi : s.tasks[i]? = some ⟨t, pc⟩)
    (hn : pc.next t s.records now answer = some (prim, pc'))
    (hok : keepsTerminal t s (.run i now answer) = true) (hrec : s.records.lookup t = some rec)
    (hterm : rec.status.isTerminal = true) :
    ∃ rec', (s.perform t prim).records.lookup t = some rec' ∧ rec'.status = rec.status := by
  rw [DaemonState.perform_lookup, hrec]
  cases prim with
  | update f =>
    refine ⟨f rec, rfl, ?_⟩
    cases StatusWrite.of_next hn with
    | keep hf => exact hf rec
    | start hne =>
      have hst := cancelled_of_terminal rfl (h.waiting (pendingStarts_pos hi rfl)) hrec hterm
      exact absurd hst (hne rec hrec)
    | complete hne =>
      exact absurd (cancelled_of_terminal rfl (h.working hi rfl) hrec hterm) (hne rec hrec)
    | fail =>
      have hst := cancelled_of_terminal rfl (h.working hi rfl) hrec hterm
      simp [keepsTerminal, hi, hrec, hst] at hok
  | _ => exact ⟨rec, rfl, rfl⟩

theorem OneStart.terminal_step (h : OneStart s t) (hl : l.patches t = false)
    (hok : keepsTerminal t s l = true) (hstep : daemonStep s l = some s')
    (hrec : s.records.lookup t = some rec) (hterm : rec.status.isTerminal = true) :
    ∃ rec', s'.records.lookup t = some rec' ∧ rec'.status = rec.status := by
  cases DaemonMove.of_step hstep with
  | @request _ t' rec' pc hr =>
    by_cases ht : t = t'
    · subst ht
      refine ⟨rec', AList.lookup_insert _, ?_⟩
      cases hr with
      | submit hnone _ => rw [hnone] at hrec; cases hrec
      | cancel hrec' =>
        rw [hrec] at hrec'
        cases hrec'
        show TransferStatus.cancelled = rec.status
        cases hst : rec.status with
        | cancelled => rfl
        | completed => simp [keepsTerminal, hrec, hst] at hok
        | failed => simp [keepsTerminal, hrec, hst] at hok
        | _ => rw [hst] at hterm; cases hterm
      | patchActive _ _ => simp [DaemonLabel.patches] at hl
      | patchOther _ _ => simp [DaemonLabel.patches] at hl
    · exact ⟨rec, (AList.lookup_insert_ne ht).trans hrec, rfl⟩
  | @ran i now answer task prim pc hi hn _ =>
    obtain ⟨t', pc₀⟩ := task
    by_cases ht : t = t'
    · subst ht
      exact h.terminal_ran hi hn hok hrec hterm
    · exact ⟨rec, (DaemonState.perform_lookup_of_ne _ _ _ ht).trans hrec, rfl⟩
  | _ => exact ⟨rec, hrec, rfl⟩

end Terminal

/--
**Terminal states are terminal.** In every run without a priority update of the transfer, in
which no cancellation meets a completed or failed transfer and no failure a cancelled one, the
status is final once it is `Completed`, `Failed` or `Cancelled`.
-/
theorem terminal_stays {maxConcurrent : Nat} {hashLe : Uuid → Uuid → Bool} {files : Files}
    {s s' : DaemonState} (t : Uuid) (rec : TransferRecord)
    (hrun : daemon.Reach (fun s l => (!l.patches t && keepsTerminal t s l) = true)
      (boot maxConcurrent hashLe files) s)
    (hrec : s.records.lookup t = some rec) (hterm : rec.status.isTerminal = true)
    (hrun' : daemon.Reach (fun s l => (!l.patches t && keepsTerminal t s l) = true) s s') :
    ∃ rec', s'.records.lookup t = some rec' ∧ rec'.status = rec.status := by
  have hok : ∀ {s : DaemonState} {l : DaemonLabel},
      (!l.patches t && keepsTerminal t s l) = true →
        l.patches t = false ∧ keepsTerminal t s l = true := by
    intro s l h
    simpa using h
  have hone : OneStart s t := (oneStart_boot _ _ _ t).run hrun fun h => (hok h).1
  induction hrun' with
  | refl => exact ⟨rec, hrec, rfl⟩
  | step hrun' hk hstep ih =>
    obtain ⟨rec₁, hrec₁, hst⟩ := ih
    have hone₁ := hone.run hrun' fun h => (hok h).1
    obtain ⟨rec₂, hrec₂, hst₂⟩ :=
      hone₁.terminal_step (hok hk).1 (hok hk).2 hstep hrec₁ (hst ▸ hterm)
    exact ⟨rec₂, hrec₂, hst₂.trans hst⟩

/-! ### A job that fails, a transfer that completes -/

/-- The job of `sampleStart` cannot open its source. -/
def sampleFail : List DaemonLabel := sampleRun 1 1 ++ [.run 1 0 (.fail "no such file")]

/-- The job of `sampleStart` copies an empty file. -/
def sampleComplete : List DaemonLabel :=
  sampleRun 1 1 ++ [.run 1 0 (.size 0), .run 1 0 .nothing, .run 1 0 (.read 0)] ++ sampleRun 1 5

/-- A request is processed by its handler, task 2, up to the answer. -/
def sampleDelete : List DaemonLabel := .cancel 1 0 :: sampleRun 2 4

theorem sample_terminal_stays :
    ∃ s rec s', daemon.execWhere (fun s l => !l.patches 1 && keepsTerminal 1 s l) sampleBoot
        (sampleStart ++ sampleDelete) = some s ∧
      s.records.lookup 1 = some rec ∧ rec.status = .cancelled ∧
      daemon.execWhere (fun s l => !l.patches 1 && keepsTerminal 1 s l) s
        (.abort 1 :: sampleRun 1 3) = some s' ∧
      ∃ rec', s'.records.lookup 1 = some rec' ∧ rec'.status = rec.status := by
  obtain ⟨s, rec, s', hrun, hrec, hst, hrun'⟩ : ∃ s rec s',
      daemon.execWhere (fun s l => !l.patches 1 && keepsTerminal 1 s l) sampleBoot
        (sampleStart ++ sampleDelete) = some s ∧
      s.records.lookup 1 = some rec ∧ rec.status = .cancelled ∧
      daemon.execWhere (fun s l => !l.patches 1 && keepsTerminal 1 s l) s
        (.abort 1 :: sampleRun 1 3) = some s' := ⟨_, _, _, rfl, rfl, rfl, rfl⟩
  refine ⟨s, rec, s', hrun, hrec, hst, hrun', ?_⟩
  exact terminal_stays 1 rec (.of_execWhere hrun) hrec (by rw [hst]; rfl) (.of_execWhere hrun')

/--
A `DELETE` that has been answered, and a job that had failed just before it; a `DELETE` of a
transfer that has completed.
-/
theorem sample_terminal_overwritten :
    (∃ s s', daemon.exec sampleBoot (sampleStart ++ sampleFail ++ sampleDelete) = some s ∧
      s.tasks[2]? = some ⟨1, .done⟩ ∧
      (s.records.lookup 1).map TransferRecord.status = some .cancelled ∧
      daemon.exec s (sampleRun 1 1) = some s' ∧
      (s'.records.lookup 1).map TransferRecord.status = some .failed) ∧
    ∃ s s', daemon.exec sampleBoot (sampleStart ++ sampleComplete) = some s ∧
      (s.records.lookup 1).map TransferRecord.status = some .completed ∧
      daemon.exec s sampleDelete = some s' ∧
      (s'.records.lookup 1).map TransferRecord.status = some .cancelled :=
  ⟨⟨_, _, rfl, rfl, rfl, rfl, rfl⟩, _, _, rfl, rfl, rfl, rfl⟩

end ScTransport
