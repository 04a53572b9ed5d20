import ScTransport.Daemon.Debts

/-!
# What a restart recovers

Recovery believes the last event of a transfer, so it is right about a transfer only if the last
event is the one of the last change.

A step is *timely* if it does not make the log lie: an event is logged only if it says what the
record says, or if the event that does is still to come; and no job is dropped between its last
change and the event for it.

* `reach_logged` — in a timely run, a restart finds what a record says, or some task has still to
  log it
* `restart_keeps_outcome` — after a timely run, a restart keeps every terminal status
* `sample_cancel_undone` — a run that breaks it without the condition
-/

namespace ScTransport

open Infra

/-! ## Timely steps -/

section Timely

variable {α : Type} [DecidableEq α] (F : OwedField α) (P : α → Bool)

/-- Some task of `t` has still to log the value `v`. -/
def Owed (s : DaemonState) (t : Uuid) (v : α) : Prop :=
  ∃ (j : Nat) (pc : Pc), s.tasks[j]? = some ⟨t, pc⟩ ∧ F.owed pc = some v

/-- Some task of `t` other than task `i` has still to log the value `v`. -/
def owedByOther (s : DaemonState) (i : Nat) (t : Uuid) (v : α) : Bool :=
  (s.tasks.eraseIdx i).any fun task => task.transferId = t && F.owed task.pc = some v

/--
Of the records whose value meets `P`: an event is logged only if it carries the value of its
record, and a job is not dropped while it owes that value, unless another task owes it too.
-/
def timely (s : DaemonState) : DaemonLabel → Bool
  | .run i now answer =>
    match s.tasks[i]? with
    | none => true
    | some task =>
      match task.pc.next task.transferId s.records now answer with
      | some (.append event, _) =>
        (s.records.lookup task.transferId).all fun rec =>
          !P (F.get rec) || (F.val event).all (fun v => v = F.get rec) ||
            owedByOther F s i task.transferId (F.get rec)
      | _ => true
  | .abort i =>
    match s.tasks[i]? with
    | none => true
    | some task =>
      (s.records.lookup task.transferId).all fun rec =>
        !P (F.get rec) || F.owed task.pc ≠ some (F.get rec) ||
          owedByOther F s i task.transferId (F.get rec)
  | _ => true

/-- A restart finds what the record of `t` says, or some task has still to log it. -/
def LoggedAt (s : DaemonState) (t : Uuid) : Prop :=
  ∀ rec, s.records.lookup t = some rec → P (F.get rec) = true →
    Retained F s t (F.get rec) ∨ Owed F s t (F.get rec)

end Timely

section Step

variable {α : Type} [DecidableEq α] {F : OwedField α} {P : α → Bool} {s s' : DaemonState}
  {l : DaemonLabel} {t : Uuid}

theorem owedByOther_iff {i : Nat} {v : α} :
    owedByOther F s i t v = true ↔
      ∃ (j : Nat) (pc : Pc), j ≠ i ∧ s.tasks[j]? = some ⟨t, pc⟩ ∧ F.owed pc = some v := by
  unfold owedByOther
  rw [List.any_eq_true]
  constructor
  · rintro ⟨⟨t', pc⟩, hmem, h⟩
    simp only [Bool.and_eq_true, decide_eq_true_eq] at h
    obtain ⟨rfl, hv⟩ := h
    obtain ⟨j, hne, hj⟩ := List.mem_eraseIdx_iff_getElem?.mp hmem
    exact ⟨j, pc, hne, hj, hv⟩
  · rintro ⟨j, pc, hne, hj, hv⟩
    exact ⟨⟨t, pc⟩, List.mem_eraseIdx_iff_getElem?.mpr ⟨j, hne, hj⟩, by simp [hv]⟩

/-- What every step keeps: copies are taken of the records. -/
def CopiesFrom (s s' : DaemonState) : Prop :=
  ∀ snapshot, s'.Offers snapshot → s.Offers snapshot ∨
    snapshot = some (s.records.entries.map fun entry => entry.2)

section Cases

variable (hkeys : KeyedById s.records) (hcopies : CopiesFrom s s')
include hkeys hcopies

omit [DecidableEq α] in
/-- A step that leaves the record alone, and logs nothing about it. -/
theorem LoggedAt.frame (h : LoggedAt F P s t)
    (hrec : s'.records.lookup t = s.records.lookup t)
    (hlog : s'.files.log = s.files.log ∨ ∃ event, s'.files.log = s.files.log ++ [event] ∧
      (event.transferId = t → F.val event = none))
    (htasks : ∀ v, Owed F s t v → Owed F s' t v) : LoggedAt F P s' t := by
  intro rec hlookup hP
  rw [hrec] at hlookup
  exact (h rec hlookup hP).imp
    (fun hretained => hretained.step hkeys hlookup hlog hcopies) (htasks _)

omit [DecidableEq α] in
/-- A request changes a record, and its handler owes the event. -/
theorem LoggedAt.request {rec : TransferRecord} {pc : Pc} (h : LoggedAt F P s t)
    (hr : Request s l t rec pc)
    (hs : s' = { s with records := s.records.insert t rec }.addTask t pc) :
    LoggedAt F P s' t := by
  subst hs
  intro rec' hrec' hP
  rw [DaemonState.addTask_records, AList.lookup_insert, Option.some.injEq] at hrec'
  subst hrec'
  rcases F.request hr with howed | ⟨old, hold, hget⟩
  · exact Or.inr ⟨s.tasks.length, pc, List.getElem?_concat_length, howed⟩
  · rw [hget] at hP ⊢
    refine (h old hold hP).imp (fun hretained => hretained.step hkeys hold (Or.inl rfl) hcopies) ?_
    rintro ⟨j, pc₀, hj, hv⟩
    exact ⟨j, pc₀, getElem?_addTask hj, hv⟩

section Ran

variable {i now : Nat} {answer : Answer} {pc pc' : Pc}

/-- A task logs an event of its transfer. -/
theorem LoggedAt.append {event : TransferEventRecord} (h : LoggedAt F P s t)
    (hi : s.tasks[i]? = some ⟨t, pc⟩)
    (hn : pc.next t s.records now answer = some (.append event, pc'))
    (hok : timely F P s (.run i now answer) = true)
    (hs : s' = (s.perform t (.append event)).goto i t pc') : LoggedAt F P s' t := by
  intro rec hrec hP
  have hrec : s.records.lookup t = some rec := by
    subst hs
    exact hrec
  have hid : event.transferId = t := (Pc.next_append hn).1
  have hlog : s'.files.log = s.files.log ++ [event] := by
    subst hs
    rfl
  have hother : ∀ {j : Nat} {pc₀ : Pc}, s.tasks[j]? = some ⟨t, pc₀⟩ → j ≠ i →
      s'.tasks[j]? = some ⟨t, pc₀⟩ := fun hj hne => by
    rw [hs]
    exact getElem?_ran_of_ne hj hne
  simp only [timely, hi, hn, hrec, Option.all_some, hP, Bool.not_true, Bool.false_or,
    Bool.or_eq_true, owedByOther_iff] at hok
  rcases hok with hok | ⟨j, pc₀, hne, hj, hv⟩
  · cases hval : F.val event with
    | some v =>
      rw [hval, Option.all_some, decide_eq_true_eq] at hok
      refine Or.inl (Or.inl ?_)
      unfold Field.logged
      rw [hlog, Replay.last_concat _ _ hid, hval, hok]
      rfl
    | none =>
      -- the event does not carry this field, so its task did not owe it
      refine (h rec hrec hP).imp (fun hretained =>
        hretained.step hkeys hrec (Or.inr ⟨event, hlog, fun _ => hval⟩) hcopies) ?_
      rintro ⟨j, pc₀, hj, hv⟩
      by_cases hij : j = i
      · subst hij
        rw [hi] at hj
        cases hj
        rw [F.append hn hv] at hval
        cases hval
      · exact ⟨j, pc₀, hother hj hij, hv⟩
  · exact Or.inr ⟨j, pc₀, hother hj hne, hv⟩

omit [DecidableEq α] in
/-- A task does anything else. -/
theorem LoggedAt.ran {prim : Prim} (h : LoggedAt F P s t) (hi : s.tasks[i]? = some ⟨t, pc⟩)
    (hn : pc.next t s.records now answer = some (prim, pc'))
    (hne : ∀ event, prim ≠ .append event)
    (hs : s' = (s.perform t prim).goto i t pc') : LoggedAt F P s' t := by
  have howed : ∀ v, Owed F s t v → Owed F s' t v := by
    rintro v ⟨j, pc₀, hj, hv⟩
    rw [hs]
    by_cases hij : j = i
    · subst hij
      rw [hi] at hj
      cases hj
      exact ⟨j, pc', getElem?_ran hi, F.keep hn hne hv⟩
    · exact ⟨j, pc₀, getElem?_ran_of_ne hj hij, hv⟩
  have hlog : s'.files.log = s.files.log := by
    rw [hs, DaemonState.goto_files, DaemonState.perform_log]
    cases prim with
    | append event => exact absurd rfl (hne event)
    | _ => rfl
  have hlookup : s'.records.lookup t = (s.perform t prim).records.lookup t := by
    rw [hs, DaemonState.goto_records]
  rw [DaemonState.perform_lookup] at hlookup
  cases prim with
  | update f =>
    intro rec' hrec' hP
    obtain ⟨rec, hrec, rfl⟩ := Option.map_eq_some_iff.mp (hlookup.symm.trans hrec')
    rcases F.update hn rec with ho | hget
    · rw [hs]
      exact Or.inr ⟨i, pc', getElem?_ran hi, ho⟩
    · rw [hget] at hP ⊢
      exact (h rec hrec hP).imp (fun hretained => hretained.step hkeys hrec (Or.inl hlog) hcopies)
        (howed _)
  | _ => exact h.frame hkeys hcopies hlookup (Or.inl hlog) howed

/-- A job is dropped. -/
theorem LoggedAt.aborted (h : LoggedAt F P s t) (hi : s.tasks[i]? = some ⟨t, pc⟩)
    (hok : timely F P s (.abort i) = true) (hs : s' = s.goto i t pc') : LoggedAt F P s' t := by
  subst hs
  intro rec hrec hP
  have hrec : s.records.lookup t = some rec := hrec
  have hother : ∀ (j : Nat) (pc₀ : Pc), j ≠ i → s.tasks[j]? = some ⟨t, pc₀⟩ →
      (s.goto i t pc').tasks[j]? = some ⟨t, pc₀⟩ := fun j pc₀ hne hj =>
    (List.getElem?_set_ne (Ne.symm hne)).trans hj
  simp only [timely, hi, hrec, Option.all_some, hP, Bool.not_true, Bool.false_or,
    Bool.or_eq_true, decide_eq_true_eq, owedByOther_iff] at hok
  rcases hok with hok | ⟨j, pc₀, hne, hj, hv⟩
  · refine (h rec hrec hP).imp (fun hretained => hretained.step hkeys hrec (Or.inl rfl) hcopies) ?_
    rintro ⟨j, pc₀, hj, hv⟩
    by_cases hij : j = i
    · subst hij
      rw [hi] at hj
      cases hj
      exact absurd hv hok
    · exact ⟨j, pc₀, hother j pc₀ hij hj, hv⟩
  · exact Or.inr ⟨j, pc₀, hother j pc₀ hne hj, hv⟩

end Ran

omit [DecidableEq α] in
/-- A task of another transfer takes a step. -/
theorem LoggedAt.ran_of_ne {i now : Nat} {answer : Answer} {t' : Uuid} {pc pc' : Pc}
    {prim : Prim} (h : LoggedAt F P s t) (hi : s.tasks[i]? = some ⟨t', pc⟩)
    (hn : pc.next t' s.records now answer = some (prim, pc')) (ht : t ≠ t')
    (hs : s' = (s.perform t' prim).goto i t' pc') : LoggedAt F P s' t := by
  refine h.frame hkeys hcopies ?_ ?_ ?_
  · rw [hs]
    exact DaemonState.perform_lookup_of_ne _ _ _ ht
  · rw [hs, DaemonState.goto_files, DaemonState.perform_log]
    cases prim with
    | append event =>
      have hid : event.transferId = t' := (Pc.next_append hn).1
      exact Or.inr ⟨event, rfl, fun heq => absurd (heq.symm.trans hid) ht⟩
    | _ => exact Or.inl rfl
  · rintro v ⟨j, pc₀, hj, hv⟩
    rw [hs]
    refine ⟨j, pc₀, getElem?_ran_of_ne hj fun hij => ht ?_, hv⟩
    rw [hij, hi] at hj
    cases hj
    rfl

end Cases

theorem LoggedAt.step (hkeys : KeyedById s.records) (h : ∀ t, LoggedAt F P s t)
    (hok : timely F P s l = true) (hstep : daemonStep s l = some s') (t : Uuid) :
    LoggedAt F P s' t := by
  have hcopies : CopiesFrom s s' := fun snapshot hsnap => hsnap.of_step hstep
  cases DaemonMove.of_step hstep with
  | @request l t' rec pc hr =>
    by_cases ht : t = t'
    · subst ht
      exact (h t).request hkeys hcopies hr rfl
    · refine (h t).frame hkeys hcopies (AList.lookup_insert_ne ht) (Or.inl rfl) ?_
      rintro v ⟨j, pc₀, hj, hv⟩
      exact ⟨j, pc₀, getElem?_addTask hj, hv⟩
  | spawned hs =>
    refine (h t).frame hkeys hcopies rfl (Or.inl rfl) ?_
    rintro v ⟨j, pc₀, hj, hv⟩
    exact ⟨j, pc₀, getElem?_addTask hj, hv⟩
  | @ran i now answer task prim pc hi hn _ =>
    obtain ⟨t', pc₀⟩ := task
    by_cases ht : t = t'
    · subst ht
      by_cases hp : ∃ event, prim = .append event
      · obtain ⟨event, rfl⟩ := hp
        exact (h t).append hkeys hcopies hi hn hok rfl
      · exact (h t).ran hkeys hcopies hi hn (fun event he => hp ⟨event, he⟩) rfl
    · exact (h t).ran_of_ne hkeys hcopies hi hn ht rfl
  | @aborted i t' point hi _ =>
    by_cases ht : t = t'
    · subst ht
      exact (h t).aborted hkeys hcopies hi hok rfl
    · refine (h t).frame hkeys hcopies rfl (Or.inl rfl) ?_
      rintro v ⟨j, pc₀, hj, hv⟩
      refine ⟨j, pc₀, (List.getElem?_set_ne ?_).trans hj, hv⟩
      rintro rfl
      rw [hi] at hj
      cases hj
      exact ht rfl
  | _ => exact (h t).frame hkeys hcopies rfl (Or.inl rfl) fun _ howed => howed

end Step

/-! ## Whole runs -/

section Runs

variable {α : Type} [DecidableEq α] {F : OwedField α} {P : α → Bool} {s : DaemonState}
  {maxConcurrent : Nat} {hashLe : Uuid → Uuid → Bool} {files : Files} {t : Uuid}

/-- In a timely run, a restart finds what a record says, or some task has still to log it. -/
theorem reach_logged {ok : DaemonState → DaemonLabel → Prop}
    (hok : ∀ s l, ok s l → timely F P s l = true)
    (hrun : daemon.Reach ok (boot maxConcurrent hashLe files) s) (t : Uuid) :
    LoggedAt F P s t := by
  induction hrun generalizing t with
  | refl => exact fun rec hrec _ => Or.inl (retained_boot hrec)
  | step hrun hl hstep ih =>
    exact LoggedAt.step ((keyedById_loadRecords files).run hrun) ih (hok _ _ hl) hstep t

omit [DecidableEq α] in
/-- When no task owes anything, a restart finds what the records say. -/
theorem LoggedAt.retained (h : LoggedAt F P s t) (hpaid : ∀ task ∈ s.tasks, task.pc.owes = none)
    {rec : TransferRecord} (hrec : s.records.lookup t = some rec) (hP : P (F.get rec) = true) :
    Retained F s t (F.get rec) := by
  refine (h rec hrec hP).resolve_right ?_
  rintro ⟨j, pc, hj, hv⟩
  unfold OwedField.owed at hv
  rw [hpaid _ (List.mem_of_getElem? hj)] at hv
  cases hv

end Runs

/-! ## Terminal outcomes -/

/-- No handler, worker or progress callback is outstanding. -/
def quiescent (s : DaemonState) : Bool := s.tasks.all fun task => task.pc = .done

/--
**A restart keeps every outcome.** After a timely run, when no task is outstanding, a completed,
failed or cancelled transfer has the same status after a restart.
-/
theorem restart_keeps_outcome {maxConcurrent : Nat} {hashLe : Uuid → Uuid → Bool} {files : Files}
    {s : DaemonState} {t : Uuid} {rec : TransferRecord}
    (hrun : daemon.Reach (fun s l => timely owedStatus TransferStatus.isTerminal s l = true)
      (boot maxConcurrent hashLe files) s)
    (hq : quiescent s = true) (hrec : s.records.lookup t = some rec)
    (hterm : rec.status.isTerminal = true) :
    ∃ rec', (loadRecords s.files).lookup t = some rec' ∧ rec'.status = rec.status := by
  have hlogged : LoggedAt owedStatus TransferStatus.isTerminal s t :=
    reach_logged (fun _ _ h => h) hrun t
  have hpaid : ∀ task ∈ s.tasks, task.pc.owes = none := by
    intro task htask
    have hdone := List.all_eq_true.mp hq task htask
    rw [decide_eq_true_eq] at hdone
    rw [hdone]
    rfl
  exact (hlogged.retained hpaid hrec hterm).loads

/-! ### A cancelled transfer -/

/-- Submission and cancellation, one after the other. -/
def sampleCancel : List DaemonLabel := sampleSubmit ++ .cancel 1 0 :: sampleRun 1 4

theorem sample_keeps_outcome :
    ∃ s rec, daemon.execWhere (timely owedStatus TransferStatus.isTerminal) sampleBoot
        sampleCancel = some s ∧
      quiescent s = true ∧ s.records.lookup 1 = some rec ∧ rec.status = .cancelled ∧
      ∃ rec', (loadRecords s.files).lookup 1 = some rec' ∧ rec'.status = rec.status := by
  have hrun : daemon.execWhere (timely owedStatus TransferStatus.isTerminal) sampleBoot
    sampleCancel = some _ := rfl
  exact ⟨_, _, hrun, rfl, rfl, rfl,
    restart_keeps_outcome (.of_execWhere hrun) rfl rfl rfl⟩

/-- The cancellation overtakes the event of the submission. -/
theorem sample_cancel_undone :
    ∃ s, daemon.exec sampleBoot (.submit 1 ⟨"file://a", "b", 5⟩ 0 :: sampleRun 0 2 ++
        .cancel 1 0 :: sampleRun 1 4 ++ sampleRun 0 3) = some s ∧
      quiescent s = true ∧
      (s.records.lookup 1).map TransferRecord.status = some .cancelled ∧
      ((loadRecords s.files).lookup 1).map TransferRecord.status = some .queued :=
  ⟨_, rfl, rfl, rfl, rfl⟩

end ScTransport
