import ScTransport.Daemon.Evolution

/-!
# What is on record, and what has still to be logged

A handler or a worker first changes a record and later logs the change: until then it owes the
event. Of a field that is not owed a restart finds the value in the log, or, if the log says
nothing about it, in whichever snapshot is in place by then.

* `Pc.owes` — what a task has still to log
* `OwedField` — a field of the records with what settles it
* `Offers.of_step` — where the snapshots come from
* `Retained` — a restart finds this value
* `retained_boot`, `Retained.step` — it does at the start, and after a step
-/

namespace ScTransport

open Infra

/-! ## What a task has still to log -/

/-- The status, and perhaps the priority, that a task has put into its record and not logged. -/
def Pc.owes : Pc → Option (TransferStatus × Option Nat)
  | .submitChannel req | .submitEnqueue req | .submitAppend req =>
    some (.queued, some req.priority)
  | .cancelSend | .cancelAppend => some (.cancelled, none)
  | .patchEnqueue priority => some (.queued, some priority)
  | .patchAppend priority status => some (status, some priority)
  | .startedAppend => some (.active, none)
  | .failedAppend _ => some (.failed, none)
  | .job .completeAppend => some (.completed, none)
  | _ => none

section Owes

variable {t : Uuid} {records : Records} {now : Nat} {answer : Answer} {pc pc' : Pc}

/-- A request owes the status it leaves behind, and the priority if it changes it. -/
theorem Request.owes {s : DaemonState} {l : DaemonLabel} {rec : TransferRecord}
    (h : Request s l t rec pc) :
    pc.owes = some (rec.status, some rec.priority) ∨ pc.owes = some (rec.status, none) ∧
      ∃ old, s.records.lookup t = some old ∧ rec.priority = old.priority := by
  cases h with
  | submit _ _ => exact Or.inl rfl
  | cancel hrec => exact Or.inr ⟨rfl, _, hrec, rfl⟩
  | patchActive _ hst => exact Or.inl (by simp [Pc.owes, TransferRecord.patch, hst])
  | patchOther _ hst => exact Or.inl (by simp [Pc.owes, TransferRecord.patch, hst])

/-- Later updates owe the status if they change it, and leave the priority alone. -/
theorem Pc.next_update {f : TransferRecord → TransferRecord}
    (h : pc.next t records now answer = some (.update f, pc')) (rec : TransferRecord) :
    (f rec).priority = rec.priority ∧
      (pc'.owes = some ((f rec).status, none) ∨ (f rec).status = rec.status) := by
  cases pc with
  | spawned =>
    rcases Pc.next_spawned h with ⟨hp, -⟩ | ⟨hp, -⟩ | ⟨hp, rfl⟩
    · cases hp
    · cases hp
    · cases hp; exact ⟨rfl, Or.inl rfl⟩
  | job point =>
    cases JobMove.of_next h with
    | count hf _ => exact ⟨(hf rec).2, Or.inr (hf rec).1⟩
    | completed => exact ⟨rfl, Or.inl rfl⟩
  | failed error => cases h; exact ⟨rfl, Or.inl rfl⟩
  | progress p => cases h; exact ⟨rfl, Or.inr rfl⟩
  | _ => cases h

/-- An event carries what its task owes. -/
theorem Pc.next_append {event : TransferEventRecord}
    (h : pc.next t records now answer = some (.append event, pc')) :
    event.transferId = t ∧ ∀ status priority, pc.owes = some (status, priority) →
      event.status = some status ∧ event.priority = priority := by
  cases pc with
  | spawned => rcases Pc.next_spawned h with ⟨hp, -⟩ | ⟨hp, -⟩ | ⟨hp, -⟩ <;> cases hp
  | job point =>
    cases JobMove.of_next h with
    | received => exact ⟨rfl, nofun⟩
    | logged => exact ⟨rfl, fun _ _ ho => by cases ho; exact ⟨rfl, rfl⟩⟩
  | progressAppend p => cases h; exact ⟨rfl, nofun⟩
  | _ => cases h <;> exact ⟨rfl, fun _ _ ho => by cases ho; exact ⟨rfl, rfl⟩⟩

/-- Whatever is owed stays owed until it is logged. -/
theorem Pc.next_owes {prim : Prim} (h : pc.next t records now answer = some (prim, pc'))
    (hne : ∀ event, prim ≠ .append event) {debt : TransferStatus × Option Nat}
    (hd : pc.owes = some debt) : pc'.owes = some debt := by
  cases pc with
  | spawned => cases hd
  | job point =>
    cases point with
    | completeAppend => cases h; exact absurd rfl (hne _)
    | _ => cases hd
  | _ => cases h <;> first | exact absurd rfl (hne _) | (cases hd <;> rfl)

end Owes

/-- A field of the records that is settled by a debt as above. -/
structure OwedField (α : Type) extends Field α where
  debt : TransferStatus × Option Nat → Option α
  debt_full : ∀ rec, debt (rec.status, some rec.priority) = some (get rec)
  debt_status : ∀ rec, debt (rec.status, none) = some (get rec) ∨
    ∀ old, rec.priority = old.priority → get rec = get old
  get_congr : ∀ {rec old}, rec.status = old.status → rec.priority = old.priority →
    get rec = get old
  val_event : ∀ {event status}, event.status = some status → val event =
    debt (status, event.priority)
  /-- What loading a snapshot makes of the field. -/
  requeued : α → α
  get_requeued : ∀ rec, get rec.requeued = requeued (get rec)
  requeued_default : ∀ event, val event = none →
    requeued (get (recordOfEvent event)) = get (recordOfEvent event)

def owedStatus : OwedField TransferStatus where
  toField := statusField
  debt d := some d.1
  debt_full _ := rfl
  debt_status _ := Or.inl rfl
  get_congr hst _ := hst
  val_event h := h
  requeued status := if status = .active then .queued else status
  get_requeued _ := rfl
  requeued_default event h := by
    have hnone : event.status = none := h
    simp [statusField, recordOfEvent, hnone]

def owedPriority : OwedField Nat where
  toField := priorityField
  debt d := d.2
  debt_full _ := rfl
  debt_status _ := Or.inr fun _ h => h
  get_congr _ hpr := hpr
  val_event _ := rfl
  requeued priority := priority
  get_requeued _ := rfl
  requeued_default _ _ := rfl

namespace OwedField

variable {α : Type} (F : OwedField α)

/-- The value of the field that a task has still to log. -/
def owed (pc : Pc) : Option α := pc.owes.bind F.debt

variable {F} {t : Uuid} {records : Records} {now : Nat} {answer : Answer} {pc pc' : Pc}

theorem request {s : DaemonState} {l : DaemonLabel} {rec : TransferRecord}
    (h : Request s l t rec pc) :
    F.owed pc = some (F.get rec) ∨
      ∃ old, s.records.lookup t = some old ∧ F.get rec = F.get old := by
  unfold owed
  rcases h.owes with ho | ⟨ho, old, hold, hpr⟩
  · rw [ho]
    exact Or.inl (F.debt_full rec)
  · rw [ho]
    exact (F.debt_status rec).imp_right fun hsame => ⟨old, hold, hsame old hpr⟩

theorem update {f : TransferRecord → TransferRecord}
    (h : pc.next t records now answer = some (.update f, pc')) (rec : TransferRecord) :
    F.owed pc' = some (F.get (f rec)) ∨ F.get (f rec) = F.get rec := by
  unfold owed
  obtain ⟨hpr, ho | hst⟩ := Pc.next_update h rec
  · rw [ho]
    exact (F.debt_status (f rec)).imp_right fun hsame => hsame rec hpr
  · exact Or.inr (F.get_congr hst hpr)

theorem append {event : TransferEventRecord}
    (h : pc.next t records now answer = some (.append event, pc')) {v : α}
    (hv : F.owed pc = some v) : F.val event = some v := by
  obtain ⟨⟨status, priority⟩, ho, hd⟩ := Option.bind_eq_some_iff.mp hv
  obtain ⟨hst, hpr⟩ := (Pc.next_append h).2 status priority ho
  rw [F.val_event hst, hpr, hd]

theorem keep {prim : Prim} (h : pc.next t records now answer = some (prim, pc'))
    (hne : ∀ event, prim ≠ .append event) {v : α} (hv : F.owed pc = some v) :
    F.owed pc' = some v := by
  obtain ⟨debt, ho, hd⟩ := Option.bind_eq_some_iff.mp hv
  unfold owed
  rw [Pc.next_owes h hne ho]
  exact hd

end OwedField

/-! ## Fields that are not logged -/

/-- The snapshot in place, or a copy that is still to be written. -/
def DaemonState.Offers (s : DaemonState) (snapshot : Option (List TransferRecord)) : Prop :=
  snapshot = s.files.snapshot ∨
    ∃ (j : Nat) (t : Uuid) (site : PersistSite) (list : List TransferRecord),
      s.tasks[j]? = some ⟨t, .persistWrite site list⟩ ∧ snapshot = some list

section Offers

variable {t : Uuid} {records : Records} {now : Nat} {answer : Answer} {pc pc' : Pc}
  {list : List TransferRecord}

theorem Pc.next_persistWrite {prim : Prim} {site : PersistSite}
    (h : pc.next t records now answer = some (prim, .persistWrite site list)) :
    list = records.entries.map fun entry => entry.2 := by
  cases pc with
  | persistCopy site' => cases h; rfl
  | persistWrite site' list' => cases site' <;> cases h
  | spawned => rcases Pc.next_spawned h with ⟨-, hp⟩ | ⟨-, hp⟩ | ⟨-, hp⟩ <;> cases hp
  | job point => cases JobMove.of_next h
  | _ => cases h

theorem Pc.next_writeSnapshot
    (h : pc.next t records now answer = some (.writeSnapshot list, pc')) :
    ∃ site, pc = .persistWrite site list := by
  cases pc with
  | persistWrite site list' => cases h; exact ⟨site, rfl⟩
  | spawned => rcases Pc.next_spawned h with ⟨hp, -⟩ | ⟨hp, -⟩ | ⟨hp, -⟩ <;> cases hp
  | job point => cases JobMove.of_next h
  | _ => cases h

variable {s s' : DaemonState} {l : DaemonLabel} {snapshot : Option (List TransferRecord)}

theorem DaemonState.Offers.of_addTask (h : (s.addTask t pc).Offers snapshot)
    (hpc : ∀ site list, pc ≠ .persistWrite site list) : s.Offers snapshot := by
  refine h.imp_right ?_
  rintro ⟨j, t', site, list, hj, rfl⟩
  rcases tasks_addTask hj with hj | ⟨-, htask⟩
  · exact ⟨j, t', site, list, hj, rfl⟩
  · cases htask
    exact absurd rfl (hpc site list)

theorem DaemonState.perform_snapshot (s : DaemonState) (t : Uuid) (prim : Prim) :
    (s.perform t prim).files.snapshot =
      match prim with
      | .writeSnapshot list => some list
      | _ => s.files.snapshot := by
  cases prim <;> simp only [perform] <;> first | rfl | (split <;> rfl)

/-- A snapshot is written from a copy, and a copy is taken of the records. -/
theorem DaemonState.Offers.of_step (h : s'.Offers snapshot) (hstep : daemonStep s l = some s') :
    s.Offers snapshot ∨ snapshot = some (s.records.entries.map fun entry => entry.2) := by
  cases DaemonMove.of_step hstep with
  | @request l t rec pc hr =>
    refine Or.inl ((of_addTask h fun site list => ?_).imp_right id)
    cases hr <;> nofun
  | spawned hs => exact Or.inl ((of_addTask h nofun).imp_right id)
  | @ran i now answer task prim pc hi hn hlock =>
    rcases h with rfl | ⟨j, t, site, list, hj, rfl⟩
    · rw [goto_files, perform_snapshot]
      cases prim with
      | writeSnapshot list =>
        obtain ⟨t, pc₀⟩ := task
        obtain ⟨site, rfl⟩ := Pc.next_writeSnapshot hn
        exact Or.inl (Or.inr ⟨i, t, site, list, hi, rfl⟩)
      | _ => exact Or.inl (Or.inl rfl)
    · rcases tasks_ran hj with ⟨-, htask⟩ | ⟨-, hj⟩ | ⟨pc', rfl, htask⟩
      · cases htask
        exact Or.inr (congrArg some (Pc.next_persistWrite hn))
      · exact Or.inl (Or.inr ⟨j, t, site, list, hj, rfl⟩)
      · obtain ⟨p, rfl⟩ := Pc.next_spawn hn
        cases htask
  | @aborted i t point hi hflag =>
    rcases h with rfl | ⟨j, t', site, list, hj, rfl⟩
    · exact Or.inl (Or.inl rfl)
    · rcases tasks_goto hj with ⟨-, htask⟩ | ⟨-, hj⟩
      · cases htask
      · exact Or.inl (Or.inr ⟨j, t', site, list, hj, rfl⟩)
  | _ => exact Or.inl h

end Offers

section Retained

variable {α : Type} (F : OwedField α)

/-- Loading these files gives the transfer this value of the field. -/
def Field.Loads (F : Field α) (files : Files) (t : Uuid) (v : α) : Prop :=
  ∃ rec, (ScTransport.loadRecords files).lookup t = some rec ∧ F.get rec = v

/-- Nothing is logged about the field, and with every snapshot it is loaded as it is. -/
structure Unlogged (s : DaemonState) (t : Uuid) (v : α) : Prop where
  logged : F.logged s.files.log t = none
  requeued : F.requeued v = v
  loads : ∀ snapshot, s.Offers snapshot → F.Loads ⟨snapshot, s.files.log⟩ t v

/-- A restart finds this value, whichever snapshot is in place by then. -/
def Retained (s : DaemonState) (t : Uuid) (v : α) : Prop :=
  F.logged s.files.log t = some v ∨ Unlogged F s t v

variable {F} {s s' : DaemonState} {t : Uuid} {v : α} {files : Files}

theorem Field.get_apply_of_none (F : Field α) (rec : TransferRecord) (event : TransferEventRecord)
    (h : F.val event = none) : F.get (eventReplay.apply (some rec) event) = F.get rec := by
  show F.get (applyEvent rec event) = F.get rec
  rw [F.get_applyEvent, h]
  rfl

theorem Retained.loads (h : Retained F s t v) : F.Loads s.files t v :=
  h.elim F.loadRecords fun h => h.loads _ (Or.inl rfl)

/-- A field for which the log has no value is loaded from a snapshot that leaves it as it is. -/
theorem OwedField.requeued_get_of_unlogged {rec : TransferRecord}
    (hlogged : F.logged files.log t = none) (hrec : (loadRecords files).lookup t = some rec) :
    F.requeued (F.get rec) = F.get rec := by
  cases hsnap : (loadSnapshot (files.snapshot.getD [])).lookup t with
  | some rec₀ =>
    obtain ⟨rec', hrec', hget⟩ := Replay.get_run_of_none F.get F.get_apply_of_none hlogged hsnap
    obtain ⟨row, -, -, rfl⟩ := mem_of_lookup_loadSnapshot hsnap
    cases hrec.symm.trans hrec'
    rw [hget, ← F.get_requeued, TransferRecord.requeued_requeued]
  | none =>
    obtain ⟨event, hval, hget⟩ :=
      Replay.get_run_of_new F.get F.get_apply_of_none hlogged hsnap hrec
    have hnew : F.get (eventReplay.apply none event) = F.get (recordOfEvent event) :=
      F.get_apply_of_none _ event hval
    rw [hget, hnew]
    exact F.requeued_default event hval

/-- What is loaded is kept. -/
theorem retained_boot {maxConcurrent : Nat} {hashLe : Uuid → Uuid → Bool} {rec : TransferRecord}
    (hrec : (loadRecords files).lookup t = some rec) :
    Retained F (boot maxConcurrent hashLe files) t (F.get rec) := by
  cases hlogged : F.logged files.log t with
  | some v =>
    obtain ⟨rec', hrec', hget⟩ := F.loadRecords hlogged
    cases hrec.symm.trans hrec'
    exact Or.inl (hlogged.trans (congrArg some hget.symm))
  | none =>
    refine Or.inr ⟨hlogged, F.requeued_get_of_unlogged hlogged hrec, ?_⟩
    rintro snapshot (rfl | ⟨j, t', site, list, hj, -⟩)
    · exact ⟨rec, hrec, rfl⟩
    · cases hj

/-- More events that do not carry the field for the transfer do not change what is loaded. -/
theorem Field.Loads.concat {F : Field α} {snapshot : Option (List TransferRecord)}
    {log : List TransferEventRecord} {event : TransferEventRecord}
    (h : F.Loads ⟨snapshot, log⟩ t v) (hevent : event.transferId = t → F.val event = none) :
    F.Loads ⟨snapshot, log ++ [event]⟩ t v := by
  obtain ⟨rec, hrec, rfl⟩ := h
  have hload : ScTransport.loadRecords ⟨snapshot, log ++ [event]⟩ = _ :=
    Replay.run_concat log event
  have hrec : (eventReplay.run (loadSnapshot (snapshot.getD [])) log).lookup t = some rec := hrec
  unfold Loads
  rw [hload]
  by_cases ht : event.transferId = t
  · subst ht
    refine ⟨_, AList.lookup_insert _, ?_⟩
    show F.get (eventReplay.apply ((eventReplay.run _ log).lookup event.transferId) event) = _
    rw [hrec]
    exact F.get_apply_of_none rec event (hevent rfl)
  · exact ⟨rec, (AList.lookup_insert_ne (Ne.symm ht)).trans hrec, rfl⟩

/-- What a step has to leave alone. -/
theorem Retained.step {rec : TransferRecord} (h : Retained F s t (F.get rec))
    (hkeys : KeyedById s.records) (hrec : s.records.lookup t = some rec)
    (hlog : s'.files.log = s.files.log ∨ ∃ event, s'.files.log = s.files.log ++ [event] ∧
      (event.transferId = t → F.val event = none))
    (hoffers : ∀ snapshot, s'.Offers snapshot → s.Offers snapshot ∨
      snapshot = some (s.records.entries.map fun entry => entry.2)) :
    Retained F s' t (F.get rec) := by
  have hlogged : F.logged s'.files.log t = F.logged s.files.log t := by
    rcases hlog with hlog | ⟨event, hlog, hevent⟩
    · rw [hlog]
    · rw [hlog]
      by_cases ht : event.transferId = t
      · unfold Field.logged
        rw [Replay.last_concat _ _ ht, hevent ht]
        rfl
      · exact Replay.last_concat_of_ne ht _
  rcases h with h | h
  · exact Or.inl (hlogged.trans h)
  · refine Or.inr ⟨hlogged.trans h.logged, h.requeued, fun snapshot hsnap => ?_⟩
    have hloads : F.Loads ⟨snapshot, s.files.log⟩ t (F.get rec) := by
      rcases hoffers snapshot hsnap with hsnap | rfl
      · exact h.loads snapshot hsnap
      · obtain ⟨rec', hrec', hget⟩ := Replay.get_run_of_none F.get F.get_apply_of_none h.logged
          (hkeys.lookup_loadSnapshot hrec)
        exact ⟨rec', hrec', by rw [hget, F.get_requeued, h.requeued]⟩
    rcases hlog with hlog | ⟨event, hlog, hevent⟩
    · rwa [hlog]
    · rw [hlog]
      exact hloads.concat hevent

end Retained

end ScTransport
