import ScTransport.Daemon.Step
import ScTransport.Infra.Pool

/-!
# What a step of the daemon can do

Every invariant of the daemon is proved from the lemmas of this file; none of them unfolds the
step function.

* `perform_lookup`, `perform_queue`, `perform_permits`, `perform_log`, `perform_tasks` — what a
  primitive does to the records, the queue, the permits, the log and the tasks
* `JobMove.of_next` — everything a step of the job can do
* `DaemonMove.of_step` — everything a step of the daemon can do
* `countP_addTask`, `countP_goto`, `countP_ran` — how a step changes the number of tasks of a kind
-/

namespace ScTransport

open Infra

/-! ## What a primitive changes -/

namespace DaemonState

variable (s : DaemonState) (t : Uuid)

@[simp] theorem addTask_records (pc : Pc) : (s.addTask t pc).records = s.records := rfl

@[simp] theorem goto_records (i : Nat) (pc : Pc) : (s.goto i t pc).records = s.records := rfl

@[simp] theorem goto_queue (i : Nat) (pc : Pc) : (s.goto i t pc).queue = s.queue := rfl

@[simp] theorem goto_files (i : Nat) (pc : Pc) : (s.goto i t pc).files = s.files := rfl

@[simp] theorem goto_scheduler (i : Nat) (pc : Pc) :
    (s.goto i t pc).scheduler = s.scheduler := rfl

@[simp] theorem perform_scheduler (prim : Prim) :
    (s.perform t prim).scheduler = s.scheduler := by
  cases prim <;> simp only [perform] <;> first | rfl | (split <;> rfl)

theorem perform_lookup_of_ne (prim : Prim) {t' : Uuid} (h : t' ≠ t) :
    (s.perform t prim).records.lookup t' = s.records.lookup t' := by
  cases prim with
  | update f =>
    simp only [perform]
    split
    · rfl
    · exact AList.lookup_insert_ne h
  | _ => simp only [perform] <;> first | rfl | (split <;> rfl)

theorem perform_lookup (prim : Prim) :
    (s.perform t prim).records.lookup t =
      match prim with
      | .update f => (s.records.lookup t).map f
      | _ => s.records.lookup t := by
  cases prim with
  | update f =>
    simp only [perform]
    split
    · next h => rw [h]; rfl
    · next rec h => rw [h]; exact AList.lookup_insert _
  | _ => simp only [perform] <;> first | rfl | (split <;> rfl)

theorem perform_queue (prim : Prim) :
    (s.perform t prim).queue =
      match prim with
      | .enqueue priority => s.queue ++ [⟨clampPriority priority, s.sequence + 1, t⟩]
      | _ => s.queue := by
  cases prim <;> simp only [perform] <;> first | rfl | (split <;> rfl)

theorem perform_log (prim : Prim) :
    (s.perform t prim).files.log =
      match prim with
      | .append event => s.files.log ++ [event]
      | _ => s.files.log := by
  cases prim <;> simp only [perform] <;> first | rfl | (split <;> rfl)

theorem perform_tasks (prim : Prim) :
    (s.perform t prim).tasks =
      match prim with
      | .spawn pc => s.tasks ++ [⟨t, pc⟩]
      | _ => s.tasks := by
  cases prim <;> simp only [perform] <;> first | rfl | (split <;> rfl)

end DaemonState

/-! ## What a step can do -/

/-- Everything a step of the job can do. -/
inductive JobMove (t : Uuid) (now : Nat) : JobPc → Prim → Pc → Prop where
  | proceed {point point' : JobPc} (h : point' ≠ .completeAppend) :
      JobMove t now point .skip (.job point')
  | stop {point : JobPc} : JobMove t now point .skip (.persistCopy .final)
  | fail {point : JobPc} {error : String} : JobMove t now point .skip (.failed error)
  | report {p : Progress} : JobMove t now .pushSend (.spawn (.progress p)) (.job .pushSend)
  -- sizes and counters only
  | count {point point' : JobPc} {f : TransferRecord → TransferRecord}
      (hf : ∀ rec, (f rec).status = rec.status ∧ (f rec).priority = rec.priority)
      (h : point' ≠ .completeAppend) : JobMove t now point (.update f) (.job point')
  | received {total : Nat} :
      JobMove t now (.receiveAppend total) (.append (receivedEvent now t total)) (.job .complete)
  | completed : JobMove t now .complete (.update (.complete now)) (.job .completeAppend)
  | passed : JobMove t now .complete .skip (.job .completeAppend)
  | logged : JobMove t now .completeAppend
      (.append { statusEvent now t .completed .completed with progressPct := some F64.hundred })
      (.persistCopy .final)

theorem JobMove.of_next {t : Uuid} {records : Records} {now : Nat} {answer : Answer}
    {point : JobPc} {prim : Prim} {pc : Pc}
    (h : point.next t records now answer = some (prim, pc)) : JobMove t now point prim pc := by
  cases point with
  | entry =>
    simp only [JobPc.next] at h
    split at h
    · cases h; exact .fail
    · split at h
      · cases h; exact .stop
      · split at h
        · cases h; exact .proceed nofun
        · split at h
          · cases h; exact .proceed nofun
          · split at h
            · cases h; exact .proceed nofun
            · cases h; exact .fail
  | pushOpen =>
    simp only [JobPc.next] at h
    split at h
    · cases h; exact .count (fun _ => ⟨rfl, rfl⟩) nofun
    · cases h; exact .fail
    · cases h
  | pushSend =>
    simp only [JobPc.next] at h
    split at h
    · cases h; exact .report
    · cases h; exact .proceed nofun
    · cases h; exact .fail
    · cases h
  | receive =>
    simp only [JobPc.next] at h
    split at h
    · cases h; exact .count (fun _ => ⟨rfl, rfl⟩) nofun
    · cases h; exact .fail
    · cases h
  | receiveAppend total => cases h; exact .received
  | copyOpen =>
    simp only [JobPc.next] at h
    split at h
    · cases h; exact .count (fun _ => ⟨rfl, rfl⟩) nofun
    · cases h; exact .fail
    · cases h
  | copyCheck total copied =>
    simp only [JobPc.next] at h
    split at h
    · cases h; exact .stop
    · cases h; exact .proceed nofun
  | copyRead total copied =>
    simp only [JobPc.next] at h
    split at h
    · cases h; exact .proceed nofun
    · cases h; exact .proceed nofun
    · cases h; exact .fail
    · cases h
  | copyUpdate total copied =>
    simp only [JobPc.next] at h
    split at h
    · cases h; exact .count (fun _ => ⟨rfl, rfl⟩) nofun
    · cases h
  | complete =>
    simp only [JobPc.next] at h
    split at h
    · cases h; exact .passed
    · cases h; exact .completed
  | completeAppend => cases h; exact .logged

/-- A worker that starts finds no record, a cancelled one, or one to work on. -/
theorem Pc.next_spawned {t : Uuid} {records : Records} {now : Nat} {answer : Answer} {prim : Prim}
    {pc : Pc} (h : Pc.spawned.next t records now answer = some (prim, pc)) :
    (prim = .skip ∧ pc = .startedAppend) ∨ (prim = .leave false ∧ pc = .done) ∨
      (prim = .update (.start now) ∧ pc = .startedAppend) := by
  simp only [Pc.next] at h
  split at h
  · cases h; exact Or.inl ⟨rfl, rfl⟩
  · split at h
    · cases h; exact Or.inr (Or.inl ⟨rfl, rfl⟩)
    · cases h; exact Or.inr (Or.inr ⟨rfl, rfl⟩)

/-- The changes a job makes to its record. -/
theorem JobPc.next_update {t : Uuid} {records : Records} {now : Nat} {answer : Answer}
    {point : JobPc} {f : TransferRecord → TransferRecord} {pc : Pc}
    (h : point.next t records now answer = some (.update f, pc)) :
    (∃ total, f = .sized total) ∨ (∃ total, f = .received total now) ∨
      (∃ total copied pct mbps, answer = .rate pct mbps ∧
        f = .copied total copied pct mbps now) ∨ f = .complete now := by
  cases point with
  | entry =>
    simp only [JobPc.next] at h
    split at h
    · cases h
    · split at h
      · cases h
      · split at h
        · cases h
        · split at h
          · cases h
          · split at h <;> cases h
  | pushOpen | copyOpen =>
    simp only [JobPc.next] at h
    split at h <;> cases h
    exact Or.inl ⟨_, rfl⟩
  | receive =>
    simp only [JobPc.next] at h
    split at h <;> cases h
    exact Or.inr (Or.inl ⟨_, rfl⟩)
  | copyUpdate total copied =>
    simp only [JobPc.next] at h
    split at h <;> cases h
    exact Or.inr (Or.inr (Or.inl ⟨_, _, _, _, rfl, rfl⟩))
  | complete =>
    simp only [JobPc.next] at h
    split at h <;> cases h
    exact Or.inr (Or.inr (Or.inr rfl))
  | pushSend | copyCheck | copyRead =>
    simp only [JobPc.next] at h
    split at h <;> cases h
  | receiveAppend | completeAppend => cases h

/-- A task spawns progress callbacks only. -/
theorem Pc.next_spawn {t : Uuid} {records : Records} {now : Nat} {answer : Answer}
    {pc pc' pc'' : Pc} (h : pc.next t records now answer = some (.spawn pc'', pc')) :
    ∃ p, pc'' = .progress p := by
  cases pc with
  | spawned => rcases Pc.next_spawned h with ⟨hp, -⟩ | ⟨hp, -⟩ | ⟨hp, -⟩ <;> cases hp
  | job point =>
    cases JobMove.of_next h with
    | report => exact ⟨_, rfl⟩
  | _ => cases h

/-- The first step of a handler: the record it leaves behind, and where it goes on. -/
inductive Request (s : DaemonState) : DaemonLabel → Uuid → TransferRecord → Pc → Prop where
  | submit {t : Uuid} {req req' : SubmitTransferRequest} {now : Nat}
      (h : s.records.lookup t = none)
      (hreq : req' = { req with priority := clampPriority req.priority }) :
      Request s (.submit t req now) t (.ofRequest t req' now) (.submitChannel req')
  | cancel {t : Uuid} {rec : TransferRecord} {now : Nat}
      (h : s.records.lookup t = some rec) :
      Request s (.cancel t now) t (rec.cancel now) .cancelSend
  | patchActive {t : Uuid} {rec : TransferRecord} {priority now : Nat}
      (h : s.records.lookup t = some rec) (hst : rec.status = .active) :
      Request s (.patch t priority now) t (rec.patch priority now)
        (.patchAppend (clampPriority priority) .active)
  | patchOther {t : Uuid} {rec : TransferRecord} {priority now : Nat}
      (h : s.records.lookup t = some rec) (hst : rec.status ≠ .active) :
      Request s (.patch t priority now) t (rec.patch priority now)
        (.patchEnqueue (clampPriority priority))

/-- Everything a step can do. -/
inductive DaemonMove (s : DaemonState) : DaemonLabel → DaemonState → Prop where
  | request {l : DaemonLabel} {t : Uuid} {rec : TransferRecord} {pc : Pc}
      (h : Request s l t rec pc) :
      DaemonMove s l ({ s with records := s.records.insert t rec }.addTask t pc)
  | unknownCancel {t : Uuid} {now : Nat} (h : s.records.lookup t = none) :
      DaemonMove s (.cancel t now) s
  | unknownPatch {t : Uuid} {priority now : Nat} (h : s.records.lookup t = none) :
      DaemonMove s (.patch t priority now) s
  | empty (hs : s.scheduler = .idle) (h : popQueue s.queue = none) : DaemonMove s .pop s
  | popped {entry : QueueEntry} {rest : List QueueEntry} (hs : s.scheduler = .idle)
      (h : popQueue s.queue = some (entry, rest)) :
      DaemonMove s .pop { s with queue := rest, scheduler := .popped entry }
  | rejected {entry : QueueEntry} (hs : s.scheduler = .popped entry)
      (h : entryValid s.records entry = false) :
      DaemonMove s .validate { s with scheduler := .idle }
  | validated {entry : QueueEntry} (hs : s.scheduler = .popped entry)
      (h : entryValid s.records entry = true) :
      DaemonMove s .validate { s with scheduler := .validated entry.transferId }
  | acquired {t : Uuid} {permits : Nat} (hs : s.scheduler = .validated t)
      (h : s.permits = permits + 1) :
      DaemonMove s .acquire { s with permits := permits, scheduler := .permitted t }
  | spawned {t : Uuid} (hs : s.scheduler = .permitted t) :
      DaemonMove s .spawn ({ s with scheduler := .idle }.addTask t .spawned)
  | ran {i now : Nat} {answer : Answer} {task : Task} {prim : Prim} {pc : Pc}
      (ht : s.tasks[i]? = some task)
      (h : task.pc.next task.transferId s.records now answer = some (prim, pc))
      (hlock : prim.isUpdate = true ∨ task.pc.readsRecords = true → s.lockFree = true) :
      DaemonMove s (.run i now answer)
        ((s.perform task.transferId prim).goto i task.transferId pc)
  | aborted {i : Nat} {t : Uuid} {point : JobPc} (ht : s.tasks[i]? = some ⟨t, .job point⟩)
      (h : (s.cancels.lookup t).any Watch.value = true) :
      DaemonMove s (.abort i) (s.goto i t (.persistCopy .final))

section Inversion

variable {s s' : DaemonState} {l : DaemonLabel}

theorem DaemonMove.of_runTask {i now : Nat} {answer : Answer}
    (h : runTask s i now answer = some s') : DaemonMove s (.run i now answer) s' := by
  unfold runTask at h
  split at h
  · cases h
  · next task ht =>
    split at h
    · cases h
    · next prim pc hn =>
      split at h
      · cases h
      · next hlock =>
        split at h
        · cases h
        · cases h
          exact .ran ht hn fun hneed => by simpa [hneed] using hlock

theorem DaemonMove.of_updatePriority {t : Uuid} {priority now : Nat}
    (h : updatePriority s t priority now = some s') :
    DaemonMove s (.patch t priority now) s' := by
  unfold updatePriority at h
  split at h
  · split at h
    · next hnone => cases h; exact .unknownPatch hnone
    · next rec hrec =>
      simp only [] at h
      split at h
      · next hst => cases h; exact .request (.patchActive hrec hst)
      · next hst => cases h; exact .request (.patchOther hrec hst)
  · cases h

theorem DaemonMove.of_step (h : daemonStep s l = some s') : DaemonMove s l s' := by
  cases l with
  | submit t req now =>
    simp only [daemonStep, submitTransfer] at h
    split at h
    · next hg =>
      cases h
      simp only [Bool.and_eq_true, Option.isNone_iff_eq_none] at hg
      exact .request (.submit hg.2 rfl)
    · cases h
  | cancel t now =>
    simp only [daemonStep, cancelTransfer] at h
    split at h
    · split at h
      · next hnone => cases h; exact .unknownCancel hnone
      · next rec hrec => cases h; exact .request (.cancel hrec)
    · cases h
  | patch t priority now => exact .of_updatePriority h
  | pop =>
    simp only [daemonStep] at h
    split at h
    · next hs =>
      split at h
      · next hp => cases h; exact .empty hs hp
      · next hp => cases h; exact .popped hs hp
    · cases h
  | validate =>
    simp only [daemonStep] at h
    split at h
    · next entry hs =>
      split at h
      · cases h
        cases hv : entryValid s.records entry with
        | true => exact .validated hs hv
        | false => exact .rejected hs hv
      · cases h
    · cases h
  | acquire =>
    simp only [daemonStep] at h
    split at h
    · next hs hp => cases h; exact .acquired hs hp
    · cases h
  | spawn =>
    simp only [daemonStep] at h
    split at h
    · next hs => cases h; exact .spawned hs
    · cases h
  | run i now answer => exact .of_runTask h
  | abort i =>
    simp only [daemonStep, abortJob] at h
    split at h
    · next ht =>
      split at h
      · next hv => cases h; exact .aborted ht hv
      · cases h
    · cases h

theorem tasks_goto {i j : Nat} {t : Uuid} {pc : Pc} {task : Task}
    (h : (s.goto i t pc).tasks[j]? = some task) :
    (j = i ∧ task = ⟨t, pc⟩) ∨ (j ≠ i ∧ s.tasks[j]? = some task) :=
  getElem?_set_cases h

theorem tasks_addTask {j : Nat} {t : Uuid} {pc : Pc} {task : Task}
    (h : (s.addTask t pc).tasks[j]? = some task) :
    s.tasks[j]? = some task ∨ j = s.tasks.length ∧ task = ⟨t, pc⟩ :=
  getElem?_concat_cases h

theorem getElem?_addTask {j : Nat} {t : Uuid} {pc : Pc} {task : Task}
    (hj : s.tasks[j]? = some task) : (s.addTask t pc).tasks[j]? = some task :=
  getElem?_append_of_some hj _

theorem getElem?_addTask_self {t : Uuid} {pc : Pc} :
    (s.addTask t pc).tasks[s.tasks.length]? = some ⟨t, pc⟩ := by
  simp [DaemonState.addTask]

/-- A task of the next state is the one that moved, was there before, or is new. -/
theorem tasks_ran {i j : Nat} {t : Uuid} {prim : Prim} {pc : Pc} {task : Task}
    (h : ((s.perform t prim).goto i t pc).tasks[j]? = some task) :
    (j = i ∧ task = ⟨t, pc⟩) ∨ (j ≠ i ∧ s.tasks[j]? = some task) ∨
      ∃ pc', prim = .spawn pc' ∧ task = ⟨t, pc'⟩ := by
  rcases tasks_goto h with h | ⟨hij, h⟩
  · exact Or.inl h
  · rw [DaemonState.perform_tasks] at h
    cases prim with
    | spawn pc' =>
      rcases tasks_addTask h with h | ⟨-, htask⟩
      · exact Or.inr (Or.inl ⟨hij, h⟩)
      · exact Or.inr (Or.inr ⟨pc', rfl, htask⟩)
    | _ => exact Or.inr (Or.inl ⟨hij, h⟩)

/-- The other tasks stay where they are. -/
theorem getElem?_ran_of_ne {i j : Nat} {t : Uuid} {prim : Prim} {pc : Pc} {task : Task}
    (hj : s.tasks[j]? = some task) (hij : j ≠ i) :
    ((s.perform t prim).goto i t pc).tasks[j]? = some task := by
  unfold DaemonState.goto
  rw [List.getElem?_set_ne (Ne.symm hij), DaemonState.perform_tasks]
  split
  · exact getElem?_append_of_some hj _
  · exact hj

theorem getElem?_ran {i : Nat} {t : Uuid} {prim : Prim} {pc : Pc} {task : Task}
    (hi : s.tasks[i]? = some task) :
    ((s.perform t prim).goto i t pc).tasks[i]? = some ⟨t, pc⟩ := by
  have hlt : i < s.tasks.length := (List.getElem?_eq_some_iff.mp hi).1
  unfold DaemonState.goto
  refine List.getElem?_set_self ?_
  rw [DaemonState.perform_tasks]
  split
  · rw [List.length_append]
    omega
  · exact hlt

theorem eq_of_run {i now : Nat} {answer : Answer} {task : Task} {prim : Prim} {pc : Pc}
    (hi : s.tasks[i]? = some task)
    (hn : task.pc.next task.transferId s.records now answer = some (prim, pc))
    (hstep : daemonStep s (.run i now answer) = some s') :
    s' = (s.perform task.transferId prim).goto i task.transferId pc := by
  cases DaemonMove.of_step hstep with
  | request hr => cases hr
  | ran hi' hn' hlock =>
    cases hi.symm.trans hi'
    cases hn.symm.trans hn'
    rfl

/-- A task moves only when it is its turn. -/
theorem getElem?_of_step {i : Nat} {task : Task} (hi : s.tasks[i]? = some task)
    (hstep : daemonStep s l = some s') (hrun : ∀ now answer, l ≠ .run i now answer)
    (habort : l ≠ .abort i) : s'.tasks[i]? = some task := by
  cases DaemonMove.of_step hstep with
  | request hr => exact getElem?_addTask hi
  | spawned hs => exact getElem?_addTask hi
  | @ran j now answer task' prim pc hj hn hlock =>
    refine getElem?_ran_of_ne hi ?_
    rintro rfl
    exact hrun now answer rfl
  | @aborted j t point hj hflag =>
    refine (List.getElem?_set_ne ?_).trans hi
    rintro rfl
    exact habort rfl
  | _ => exact hi

end Inversion

/-! ## Counting tasks -/

section Count

variable {s : DaemonState} {p : Task → Bool}

theorem countP_addTask (t : Uuid) (pc : Pc) :
    (s.addTask t pc).tasks.countP p = s.tasks.countP p + (p ⟨t, pc⟩).toNat :=
  countP_concat_add _

theorem countP_goto {i : Nat} {task : Task} (hi : s.tasks[i]? = some task) (t : Uuid) (pc : Pc) :
    (s.goto i t pc).tasks.countP p + (p task).toNat =
      s.tasks.countP p + (p ⟨t, pc⟩).toNat :=
  countP_set_add hi _

/-- A step replaces one task; what it spawns is not counted here. -/
theorem countP_ran {i : Nat} {task : Task} {t : Uuid} {prim : Prim} (hi : s.tasks[i]? = some task)
    (hspawn : ∀ pc', prim = .spawn pc' → p ⟨t, pc'⟩ = false) (pc : Pc) :
    ((s.perform t prim).goto i t pc).tasks.countP p + (p task).toNat =
      s.tasks.countP p + (p ⟨t, pc⟩).toNat := by
  have hi' : (s.perform t prim).tasks[i]? = some task := by
    rw [DaemonState.perform_tasks]
    split
    · exact getElem?_append_of_some hi _
    · exact hi
  have hcount : (s.perform t prim).tasks.countP p = s.tasks.countP p := by
    rw [DaemonState.perform_tasks]
    split
    · next pc' =>
      rw [countP_concat_add, hspawn pc' rfl]
      rfl
    · rfl
  rw [countP_goto hi', hcount]

end Count

end ScTransport
