import ScTransport.Daemon.Workers

/-!
# Queued transfers and their entries

The scheduler throws an entry away when the record is no longer queued or has another priority
by the time the entry is popped. A priority update changes both without the lock of the queue,
and pushes its own entry only later.

* `Scheduled` — the places where the start of a queued transfer can be on its way
* `Scheduled.step` — no step loses the last of them while the record stays queued
* `queued_scheduled` — no queued transfer is orphaned
-/

namespace ScTransport

open Infra

/-! ## Where a start can be -/

/-- A handler that has updated the record and will push an entry of this priority. -/
def Pc.pushes (priority : Nat) : Pc → Bool
  | .submitChannel req | .submitEnqueue req => clampPriority req.priority = priority
  | .patchEnqueue p => clampPriority p = priority
  | _ => false

/-- The start of a transfer queued with this priority is on its way. -/
inductive Scheduled (s : DaemonState) (t : Uuid) (priority : Nat) : Prop where
  | entry {e : QueueEntry} (h : e ∈ s.queue) (ht : e.transferId = t)
      (hp : e.priority = priority)
  | popped {e : QueueEntry} (h : s.scheduler = .popped e) (ht : e.transferId = t)
      (hp : e.priority = priority)
  | held (h : Held s t)
  | spawned {i : Nat} (h : s.tasks[i]? = some ⟨t, .spawned⟩)
  | handler {i : Nat} {pc : Pc} (h : s.tasks[i]? = some ⟨t, pc⟩) (hp : pc.pushes priority = true)

def Unorphaned (s : DaemonState) : Prop :=
  ∀ t rec, s.records.lookup t = some rec → rec.status = .queued → Scheduled s t rec.priority

theorem clampPriority_idem (priority : Nat) :
    clampPriority (clampPriority priority) = clampPriority priority := by
  unfold clampPriority
  omega

section Next

variable {t : Uuid} {records : Records} {now : Nat} {answer : Answer} {prim : Prim} {pc pc' : Pc}

/-- A handler goes on to its push, and then pushes. -/
theorem Pc.next_pushes {priority : Nat} (h : pc.next t records now answer = some (prim, pc'))
    (hp : pc.pushes priority = true) :
    pc'.pushes priority = true ∨ ∃ p, prim = .enqueue p ∧ clampPriority p = priority := by
  cases pc with
  | submitChannel req => cases h; exact Or.inl hp
  | submitEnqueue req => cases h; exact Or.inr ⟨_, rfl, by simpa [Pc.pushes] using hp⟩
  | patchEnqueue p => cases h; exact Or.inr ⟨_, rfl, by simpa [Pc.pushes] using hp⟩
  | _ => cases hp

/-- No task after its first step queues a record or changes the priority of a queued one. -/
theorem Pc.next_queued {f : TransferRecord → TransferRecord} {rec : TransferRecord}
    (h : pc.next t records now answer = some (.update f, pc')) (hq : (f rec).status = .queued) :
    rec.status = .queued ∧ (f rec).priority = rec.priority ∧ pc ≠ .spawned := by
  cases pc with
  | job point =>
    cases JobMove.of_next h with
    | count hf _ => exact ⟨(hf rec).1 ▸ hq, (hf rec).2, nofun⟩
    | completed => cases hq
  | spawned =>
    rcases Pc.next_spawned h with ⟨hp, -⟩ | ⟨hp, -⟩ | ⟨hp, -⟩
    · cases hp
    · cases hp
    · cases hp
      cases hq
  | failed error => cases h; cases hq
  | progress p => cases h; exact ⟨hq, rfl, nofun⟩
  | _ => cases h

/-- A worker that starts does not leave its record queued. -/
theorem Pc.next_spawned_of_queued {rec : TransferRecord} (hrec : records.lookup t = some rec)
    (hq : rec.status = .queued) (h : Pc.spawned.next t records now answer = some (prim, pc')) :
    ∃ f, prim = .update f := by
  simp only [Pc.next, hrec, hq, reduceCtorEq, if_false] at h
  cases h
  exact ⟨_, rfl⟩

end Next

/-! ## One step -/

section Step

variable {s s' : DaemonState} {l : DaemonLabel} {t : Uuid} {priority : Nat}

/-- The queue grows, the scheduler does not move, and the tasks of the transfer do not either. -/
theorem Scheduled.frame (h : Scheduled s t priority) (hqueue : s.queue ⊆ s'.queue)
    (hsched : s'.scheduler = s.scheduler)
    (htasks : ∀ (j : Nat) (pc : Pc), s.tasks[j]? = some ⟨t, pc⟩ →
      s'.tasks[j]? = some ⟨t, pc⟩) : Scheduled s' t priority := by
  cases h with
  | entry h ht hp => exact .entry (hqueue h) ht hp
  | popped h ht hp => exact .popped (hsched.trans h) ht hp
  | held h => exact .held (by unfold Held at h ⊢; rwa [hsched])
  | spawned h => exact .spawned (htasks _ _ h)
  | handler h hp => exact .handler (htasks _ _ h) hp

theorem queue_subset_perform (prim : Prim) : s.queue ⊆ (s.perform t prim).queue := by
  rw [DaemonState.perform_queue]
  split
  · exact List.subset_append_left _ _
  · exact List.Subset.refl _

/-- A request on the transfer leaves a handler behind that will push what the record asks for. -/
theorem Request.scheduled {rec : TransferRecord} {pc : Pc} (h : Request s l t rec pc)
    (hq : rec.status = .queued) : pc.pushes rec.priority = true := by
  cases h with
  | submit _ hreq =>
    subst hreq
    exact decide_eq_true (clampPriority_idem _)
  | cancel _ => cases hq
  | patchActive _ hst =>
    rw [TransferRecord.patch, if_pos hst] at hq
    cases hq
  | patchOther _ _ => exact decide_eq_true (clampPriority_idem _)

/-- The scheduler takes an entry out of the queue. -/
theorem Scheduled.pop (h : Scheduled s t priority) (hs : s.scheduler = .idle)
    {e : QueueEntry} {rest : List QueueEntry} (hp : popQueue s.queue = some (e, rest)) :
    Scheduled { s with queue := rest, scheduler := .popped e } t priority := by
  cases h with
  | entry hmem ht hprio =>
    rcases List.mem_cons.mp ((popQueue_perm hp).mem_iff.mp hmem) with rfl | hrest
    · exact .popped rfl ht hprio
    · exact .entry hrest ht hprio
  | popped h => rw [hs] at h; cases h
  | held h => exact absurd h (not_held_of_idle hs)
  | spawned h => exact .spawned h
  | handler h hprio => exact .handler h hprio

/-- The scheduler lets go only of entries that are not the record's. -/
theorem Scheduled.reject {rec : TransferRecord} (h : Scheduled s t rec.priority)
    (hrec : s.records.lookup t = some rec) (hq : rec.status = .queued) {e : QueueEntry}
    (hs : s.scheduler = .popped e) (hv : entryValid s.records e = false) :
    Scheduled { s with scheduler := .idle } t rec.priority := by
  cases h with
  | entry hmem ht hprio => exact .entry hmem ht hprio
  | popped h ht hprio =>
    rw [hs] at h
    cases h
    rw [entryValid, ht, hrec] at hv
    simp [hq, hprio] at hv
  | held h => exact absurd h (not_held_of_popped hs)
  | spawned h => exact .spawned h
  | handler h hprio => exact .handler h hprio

/-- The scheduler goes on with what it has: validated, permitted, spawned. -/
theorem Scheduled.advance (h : Scheduled s t priority) (hqueue : s'.queue = s.queue)
    (htasks : ∀ (j : Nat) (pc : Pc), s.tasks[j]? = some ⟨t, pc⟩ → s'.tasks[j]? = some ⟨t, pc⟩)
    (hpopped : ∀ e, s.scheduler = .popped e → e.transferId = t → Held s' t)
    (hheld : Held s t → Scheduled s' t priority) : Scheduled s' t priority := by
  cases h with
  | entry hmem ht hprio => exact .entry (hqueue ▸ hmem) ht hprio
  | popped h ht _ => exact .held (hpopped _ h ht)
  | held h => exact hheld h
  | spawned h => exact .spawned (htasks _ _ h)
  | handler h hprio => exact .handler (htasks _ _ h) hprio

/-- A task of the transfer takes a step after which the record is queued. -/
theorem Scheduled.ran {i now : Nat} {answer : Answer} {pc pc' : Pc} {prim : Prim}
    {rec : TransferRecord} (h : Scheduled s t rec.priority) (hrec : s.records.lookup t = some rec)
    (hq : rec.status = .queued) (hi : s.tasks[i]? = some ⟨t, pc⟩)
    (hn : pc.next t s.records now answer = some (prim, pc'))
    (hstart : pc = .spawned → ∀ f, prim ≠ .update f) :
    Scheduled ((s.perform t prim).goto i t pc') t rec.priority := by
  cases h with
  | entry hmem ht hprio => exact .entry (queue_subset_perform prim hmem) ht hprio
  | popped h ht hprio => exact .popped ((DaemonState.perform_scheduler _ _ _).trans h) ht hprio
  | held h =>
    refine .held ?_
    unfold Held at h ⊢
    rwa [DaemonState.goto_scheduler, DaemonState.perform_scheduler]
  | @spawned j hj =>
    by_cases hij : j = i
    · subst hij
      rw [hi] at hj
      cases hj
      obtain ⟨f, hf⟩ := Pc.next_spawned_of_queued hrec hq hn
      exact absurd hf (hstart rfl f)
    · exact .spawned (getElem?_ran_of_ne hj hij)
  | @handler j pcj hj hprio =>
    by_cases hij : j = i
    · subst hij
      rw [hi] at hj
      cases hj
      rcases Pc.next_pushes hn hprio with hp | ⟨p, rfl, hp⟩
      · exact .handler (getElem?_ran hi) hp
      · refine .entry (e := ⟨clampPriority p, s.sequence + 1, t⟩) ?_ rfl hp
        rw [DaemonState.goto_queue, DaemonState.perform_queue]
        exact List.mem_append_right _ (List.mem_singleton.mpr rfl)
    · exact .handler (getElem?_ran_of_ne hj hij) hprio

theorem Unorphaned.request {t' : Uuid} {rec' : TransferRecord} {pc : Pc} (h : Unorphaned s)
    (hr : Request s l t' rec' pc) :
    Unorphaned ({ s with records := s.records.insert t' rec' }.addTask t' pc) := by
  intro t rec hrec hq
  rw [DaemonState.addTask_records] at hrec
  by_cases ht : t = t'
  · subst ht
    rw [AList.lookup_insert] at hrec
    cases hrec
    exact .handler (getElem?_addTask_self (s := { s with records := s.records.insert t rec' }))
      (hr.scheduled hq)
  · rw [AList.lookup_insert_ne ht] at hrec
    exact (h t rec hrec hq).frame (List.Subset.refl _) rfl fun _ _ hj => getElem?_addTask hj

theorem Unorphaned.ran {i now : Nat} {answer : Answer} {task : Task} {prim : Prim} {pc : Pc}
    (h : Unorphaned s) (hi : s.tasks[i]? = some task)
    (hn : task.pc.next task.transferId s.records now answer = some (prim, pc)) :
    Unorphaned ((s.perform task.transferId prim).goto i task.transferId pc) := by
  obtain ⟨t', pc₀⟩ := task
  intro t rec' hrec' hq'
  rw [DaemonState.goto_records] at hrec'
  by_cases ht : t = t'
  · subst ht
    rw [DaemonState.perform_lookup] at hrec'
    cases prim with
    | update f =>
      obtain ⟨rec, hrec, rfl⟩ := Option.map_eq_some_iff.mp hrec'
      obtain ⟨hq, hprio, hne⟩ := Pc.next_queued hn hq'
      rw [hprio]
      exact (h t rec hrec hq).ran hrec hq hi hn fun he => absurd he hne
    | _ => exact (h t rec' hrec' hq').ran hrec' hq' hi hn nofun
  · rw [DaemonState.perform_lookup_of_ne _ _ _ ht] at hrec'
    refine (h t rec' hrec' hq').frame (queue_subset_perform prim)
      (DaemonState.perform_scheduler _ _ _) fun j pc' hj => getElem?_ran_of_ne hj ?_
    rintro rfl
    rw [hi] at hj
    cases hj
    exact ht rfl

theorem Unorphaned.step (h : Unorphaned s) (hstep : daemonStep s l = some s') :
    Unorphaned s' := by
  cases DaemonMove.of_step hstep with
  | request hr => exact h.request hr
  | popped hs hp => exact fun t rec hrec hq => (h t rec hrec hq).pop hs hp
  | rejected hs hv => exact fun t rec hrec hq => (h t rec hrec hq).reject hrec hq hs hv
  | @validated e hs hv =>
    intro t rec hrec hq
    refine (h t rec hrec hq).advance rfl (fun _ _ hj => hj) (fun e' he' ht => ?_)
      fun hh => absurd hh (not_held_of_popped hs)
    rw [hs] at he'
    cases he'
    exact Or.inl (ht ▸ rfl)
  | @acquired t' permits hs hp =>
    intro t rec hrec hq
    refine (h t rec hrec hq).advance rfl (fun _ _ hj => hj) (fun e he _ => ?_) fun hh => ?_
    · rw [hs] at he
      cases he
    · unfold Held at hh
      rw [hs] at hh
      rcases hh with hh | hh
      · cases hh
        exact .held (Or.inr rfl)
      · cases hh
  | @spawned t' hs =>
    intro t rec hrec hq
    refine (h t rec hrec hq).advance rfl (fun _ _ hj => getElem?_addTask hj)
      (fun e he _ => ?_) fun hh => ?_
    · rw [hs] at he
      cases he
    · unfold Held at hh
      rw [hs] at hh
      rcases hh with hh | hh
      · cases hh
      · cases hh
        exact .spawned (getElem?_addTask_self (s := { s with scheduler := .idle }))
  | ran hi hn _ => exact h.ran hi hn
  | @aborted i t' point hi _ =>
    intro t rec hrec hq
    cases h t rec hrec hq with
    | entry hmem ht hprio => exact .entry hmem ht hprio
    | popped hs ht hprio => exact .popped hs ht hprio
    | held hh => exact .held hh
    | @spawned j hj =>
      refine .spawned ((List.getElem?_set_ne ?_).trans hj)
      rintro rfl
      rw [hi] at hj
      cases hj
    | @handler j pc hj hprio =>
      refine .handler ((List.getElem?_set_ne ?_).trans hj) hprio
      rintro rfl
      rw [hi] at hj
      cases hj
      cases hprio
  | _ => exact h

end Step

/-! ## Whole runs -/

theorem unorphaned_boot (maxConcurrent : Nat) (hashLe : Uuid → Uuid → Bool) (files : Files) :
    Unorphaned (boot maxConcurrent hashLe files) := by
  intro t rec hrec hq
  obtain ⟨seq, hentry⟩ := rebuildQueue_entry hashLe (keyedById_loadRecords files) hrec hq
  have hmem : (⟨rec.priority, seq, t⟩ : QueueEntry) ∈
      (rebuildQueue hashLe (loadRecords files)).filter fun e => e.transferId = t := by
    rw [hentry]
    exact List.mem_singleton.mpr rfl
  exact .entry (List.mem_filter.mp hmem).1 rfl rfl

/--
**No queued transfer is orphaned.** After any run of a daemon that has loaded its files, a queued
transfer has an entry of its priority, or the scheduler or a worker that has not started holds
it, or a handler is about to push its entry.
-/
theorem queued_scheduled {maxConcurrent : Nat} {hashLe : Uuid → Uuid → Bool} {files : Files}
    {s : DaemonState} (t : Uuid) (rec : TransferRecord)
    (hrun : daemon.Reach (fun _ _ => True) (boot maxConcurrent hashLe files) s)
    (hrec : s.records.lookup t = some rec) (hq : rec.status = .queued) :
    Scheduled s t rec.priority := by
  have h : Unorphaned s := hrun.invariant (unorphaned_boot _ _ _) fun h _ hstep => h.step hstep
  exact h t rec hrec hq

/-- A priority update after the scheduler's check: its entry is on its way. -/
theorem sample_queued_scheduled :
    ∃ s rec, daemon.exec sampleBoot (sampleSubmit ++ [.pop, .validate, .patch 1 3 0]) = some s ∧
      s.records.lookup 1 = some rec ∧ rec.status = .queued ∧ rec.priority = 3 ∧
      Scheduled s 1 rec.priority := by
  refine ⟨_, _, rfl, rfl, rfl, rfl, ?_⟩
  have hrun : daemon.exec sampleBoot (sampleSubmit ++ [.pop, .validate, .patch 1 3 0]) =
    some _ := rfl
  exact queued_scheduled 1 _ (.of_exec hrun) rfl rfl

end ScTransport
