import ScTransport.Daemon.Step

/-!
# Recovery is decided by the log

A start-up replays the whole log over whatever snapshot is there. If the log begins each transfer
with a complete event, the snapshot decides nothing that matters: every field a client sees ends
with the last value logged for it, and replaying once more changes no record at all.

* `RecordFields`, `loggedFields` — the fields, and their last values in a log
* `Field.get_foldl`, `createdAt_foldl` — what events do to a record, field by field
* `foldl_applyEvent_idem` — the same events once more change nothing
* `recovery_decided_by_log` — all of it, with the queue
-/

namespace ScTransport

open Infra

/-! ## Fields -/

attribute [ext] TransferRecord

def sourceField : Field String := ⟨TransferRecord.source, TransferEventRecord.source,
  fun _ _ => rfl⟩

def destinationField : Field String :=
  ⟨TransferRecord.destination, TransferEventRecord.destination, fun _ _ => rfl⟩

def progressField : Field F64 := ⟨TransferRecord.progressPct, TransferEventRecord.progressPct,
  fun _ _ => rfl⟩

def throughputField : Field F64 :=
  ⟨TransferRecord.throughputMbps, TransferEventRecord.throughputMbps, fun _ _ => rfl⟩

def bytesTransferredField : Field Nat :=
  ⟨TransferRecord.bytesTransferred, TransferEventRecord.bytesTransferred, fun _ _ => rfl⟩

def bytesTotalField : Field Nat := ⟨TransferRecord.bytesTotal, TransferEventRecord.bytesTotal,
  fun _ _ => rfl⟩

/-- An event that carries no error leaves the error alone. -/
def errorField : Field (Option String) :=
  ⟨TransferRecord.error, fun event => event.error.map some, fun rec event => by
    show event.error.or rec.error = _
    cases event.error <;> rfl⟩

def updatedAtField : Field Nat := ⟨TransferRecord.updatedAtUnixMs, fun event => some event.tsUnixMs,
  fun _ _ => rfl⟩

/-- No event changes how often a transfer was tried. -/
def attemptsField : Field Nat := ⟨TransferRecord.attempts, fun _ => none, fun _ _ => rfl⟩

def transferIdField : Field Uuid := ⟨TransferRecord.transferId, fun _ => none, fun _ _ => rfl⟩

/-- What a client is told about a transfer. -/
structure RecordFields where
  source : String
  destination : String
  priority : Nat
  status : TransferStatus
  progressPct : F64
  throughputMbps : F64
  bytesTransferred : Nat
  bytesTotal : Nat
  deriving DecidableEq

def TransferRecord.fields (rec : TransferRecord) : RecordFields where
  source := rec.source
  destination := rec.destination
  priority := rec.priority
  status := rec.status
  progressPct := rec.progressPct
  throughputMbps := rec.throughputMbps
  bytesTransferred := rec.bytesTransferred
  bytesTotal := rec.bytesTotal

/-- The last values of all fields that are logged for a transfer. -/
def loggedFields (log : List TransferEventRecord) (t : Uuid) : Option RecordFields := do
  return {
    source := ← sourceField.logged log t
    destination := ← destinationField.logged log t
    priority := ← priorityField.logged log t
    status := ← statusField.logged log t
    progressPct := ← progressField.logged log t
    throughputMbps := ← throughputField.logged log t
    bytesTransferred := ← bytesTransferredField.logged log t
    bytesTotal := ← bytesTotalField.logged log t }

/-! ## The same events again -/

section Again

variable {α : Type} (F : Field α) (events : List TransferEventRecord) (rec : TransferRecord)

/-- A field ends with the last value the events carry for it. -/
theorem Field.get_foldl :
    F.get (events.foldl applyEvent rec) = (events.filterMap F.val).getLast?.getD (F.get rec) := by
  induction events using List.reverseRecOn with
  | nil => rfl
  | append_singleton events event ih =>
    rw [List.foldl_append, List.foldl_cons, List.foldl_nil, F.get_applyEvent, ih]
    cases hv : F.val event with
    | none => simp [hv]
    | some v => simp [hv]

theorem Field.get_foldl_again :
    F.get (events.foldl applyEvent (events.foldl applyEvent rec)) =
      F.get (events.foldl applyEvent rec) := by
  rw [F.get_foldl, F.get_foldl]
  cases (events.filterMap F.val).getLast? <;> rfl

/-- The time of creation is the first time that is not zero. -/
theorem createdAt_foldl :
    (events.foldl applyEvent rec).createdAtUnixMs =
      if rec.createdAtUnixMs = 0 then
        ((events.map TransferEventRecord.tsUnixMs).find? fun ts => ts ≠ 0).getD 0
      else rec.createdAtUnixMs := by
  induction events generalizing rec with
  | nil =>
    show rec.createdAtUnixMs = _
    split
    · next h => rw [h]; rfl
    · rfl
  | cons event events ih =>
    have hevent : (applyEvent rec event).createdAtUnixMs =
        if rec.createdAtUnixMs = 0 then event.tsUnixMs else rec.createdAtUnixMs := rfl
    rw [List.foldl_cons, ih, hevent]
    by_cases hrec : rec.createdAtUnixMs = 0
    · by_cases hts : event.tsUnixMs = 0
      · simp [hrec, hts]
      · simp [hrec, hts]
    · simp [hrec]

theorem createdAt_foldl_again :
    (events.foldl applyEvent (events.foldl applyEvent rec)).createdAtUnixMs =
      (events.foldl applyEvent rec).createdAtUnixMs := by
  rw [createdAt_foldl]
  split
  · next hzero =>
    -- no event has a time, since otherwise the first pass would have set it
    rw [createdAt_foldl] at hzero ⊢
    split at hzero
    · next hrec => rw [if_pos hrec]
    · next hrec => exact absurd hzero hrec
  · rfl

/-- **Events that were applied change nothing when they are applied again.** -/
theorem foldl_applyEvent_idem :
    events.foldl applyEvent (events.foldl applyEvent rec) = events.foldl applyEvent rec := by
  apply TransferRecord.ext
  · exact transferIdField.get_foldl_again events rec
  · exact sourceField.get_foldl_again events rec
  · exact destinationField.get_foldl_again events rec
  · exact priorityField.get_foldl_again events rec
  · exact statusField.get_foldl_again events rec
  · exact progressField.get_foldl_again events rec
  · exact throughputField.get_foldl_again events rec
  · exact bytesTransferredField.get_foldl_again events rec
  · exact bytesTotalField.get_foldl_again events rec
  · exact errorField.get_foldl_again events rec
  · exact createdAt_foldl_again events rec
  · exact updatedAtField.get_foldl_again events rec
  · exact attemptsField.get_foldl_again events rec

end Again

/-- Events of one transfer, over a record that may not be there. -/
theorem foldl_eventReplay (events : List TransferEventRecord) (rec : TransferRecord) :
    events.foldl (fun o e => some (eventReplay.apply o e)) (some rec) =
      some (events.foldl applyEvent rec) := by
  induction events generalizing rec with
  | nil => rfl
  | cons event events ih => exact ih (applyEvent rec event)

theorem lookup_replay_again (records : Records) (log : List TransferEventRecord) (t : Uuid) :
    (eventReplay.run (eventReplay.run records log) log).lookup t =
      (eventReplay.run records log).lookup t := by
  refine Replay.lookup_run_run fun o => ?_
  generalize (log.filter fun e => eventReplay.key e = t) = events
  cases events with
  | nil => rfl
  | cons event events =>
    -- the first event makes the record that it then changes
    have hsome : ∀ o, (event :: events).foldl (fun o e => some (eventReplay.apply o e)) o =
        some ((event :: events).foldl applyEvent (o.getD (recordOfEvent event))) := by
      intro o
      cases o with
      | none => exact foldl_eventReplay (event :: events) (recordOfEvent event)
      | some rec => exact foldl_eventReplay (event :: events) rec
    rw [hsome, hsome]
    exact congrArg some (foldl_applyEvent_idem _ _)

/-! ## What the log decides -/

/-- An event that begins a transfer: it carries every field but the error. -/
structure TransferEventRecord.Submitted (event : TransferEventRecord) : Prop where
  kind : event.kind = .submitted
  source : event.source.isSome
  destination : event.destination.isSome
  priority : event.priority.isSome
  status : event.status.isSome
  progressPct : event.progressPct.isSome
  throughputMbps : event.throughputMbps.isSome
  bytesTransferred : event.bytesTransferred.isSome
  bytesTotal : event.bytesTotal.isSome

/-- The daemon's own submissions are complete. -/
theorem submittedEvent_submitted (now : Nat) (t : Uuid) (req : SubmitTransferRequest) :
    (submittedEvent now t req).Submitted := by
  constructor <;> rfl

/-- Every transfer of the log begins with its submission. -/
def Submits (log : List TransferEventRecord) : Prop :=
  ∀ t event, log.find? (fun e => e.transferId = t) = some event → event.Submitted

section Load

variable {files : Files} {t : Uuid}

/-- A field that an event carries is recovered from the log. -/
theorem Field.get_of_logged {α : Type} (F : Field α) {event : TransferEventRecord}
    (hevent : event ∈ files.log) (ht : event.transferId = t) (hval : (F.val event).isSome)
    {rec : TransferRecord} (hrec : (ScTransport.loadRecords files).lookup t = some rec) :
    F.logged files.log t = some (F.get rec) := by
  obtain ⟨v, hv⟩ := Option.isSome_iff_exists.mp hval
  obtain ⟨w, hw⟩ : ∃ w, F.logged files.log t = some w := Replay.last_isSome hevent ht hv
  obtain ⟨rec', hrec', hget⟩ := F.loadRecords hw
  rw [hrec] at hrec'
  cases hrec'
  rw [hw, hget]

theorem fields_of_mem (hsub : Submits files.log) {event : TransferEventRecord}
    (hevent : event ∈ files.log) (ht : event.transferId = t) :
    ((loadRecords files).lookup t).map TransferRecord.fields = loggedFields files.log t := by
  obtain ⟨first, hfirst⟩ : ∃ first, files.log.find? (fun e => e.transferId = t) = some first := by
    apply Option.isSome_iff_exists.mp
    rw [List.find?_isSome]
    exact ⟨event, hevent, by simpa using ht⟩
  have hmem : first ∈ files.log := List.mem_of_find?_eq_some hfirst
  have hid : first.transferId = t := by simpa using List.find?_some hfirst
  have h := hsub t first hfirst
  obtain ⟨status, hstatus⟩ := Option.isSome_iff_exists.mp h.status
  obtain ⟨w, hw⟩ : ∃ w, statusField.logged files.log t = some w :=
    Replay.last_isSome hmem hid hstatus
  obtain ⟨rec, hrec, -⟩ := statusField.loadRecords hw
  unfold loggedFields
  rw [sourceField.get_of_logged hmem hid h.source hrec,
    destinationField.get_of_logged hmem hid h.destination hrec,
    priorityField.get_of_logged hmem hid h.priority hrec,
    statusField.get_of_logged hmem hid h.status hrec,
    progressField.get_of_logged hmem hid h.progressPct hrec,
    throughputField.get_of_logged hmem hid h.throughputMbps hrec,
    bytesTransferredField.get_of_logged hmem hid h.bytesTransferred hrec,
    bytesTotalField.get_of_logged hmem hid h.bytesTotal hrec, hrec]
  rfl

/-- A transfer that is not logged has no record, if the snapshot has none either. -/
theorem lookup_of_not_logged
    (hsnap : ∀ rec ∈ files.snapshot.getD [], ∃ e ∈ files.log, e.transferId = rec.transferId)
    (h : ∀ e ∈ files.log, e.transferId ≠ t) : (loadRecords files).lookup t = none := by
  have hfilter : (files.log.filter fun e => eventReplay.key e = t) = [] := by
    rw [List.filter_eq_nil_iff]
    intro e he
    have hne : eventReplay.key e ≠ t := h e he
    simpa using hne
  unfold loadRecords
  rw [Replay.lookup_run, hfilter]
  show (loadSnapshot _).lookup t = none
  cases hlookup : (loadSnapshot (files.snapshot.getD [])).lookup t with
  | none => rfl
  | some rec =>
    obtain ⟨rec', hmem, hid, -⟩ := mem_of_lookup_loadSnapshot hlookup
    obtain ⟨e, he, heq⟩ := hsnap rec' hmem
    exact absurd (heq.trans hid) (h e he)

theorem loggedFields_of_not_logged {log : List TransferEventRecord}
    (h : ∀ e ∈ log, e.transferId ≠ t) : loggedFields log t = none := by
  have hnone : sourceField.logged log t = none := by
    have hnil : (log.filterMap fun e =>
        if eventReplay.key e = t then sourceField.val e else none) = [] := by
      rw [List.filterMap_eq_nil_iff]
      intro e he
      exact if_neg (h e he)
    show (log.filterMap _).getLast? = none
    rw [hnil]
    rfl
  unfold loggedFields
  rw [hnone]
  rfl

/-- **The recovered fields are those of the log.** -/
theorem fields_loadRecords (files : Files) (hsub : Submits files.log)
    (hsnap : ∀ rec ∈ files.snapshot.getD [], ∃ e ∈ files.log, e.transferId = rec.transferId)
    (t : Uuid) :
    ((loadRecords files).lookup t).map TransferRecord.fields = loggedFields files.log t := by
  by_cases hlogged : ∃ e ∈ files.log, e.transferId = t
  · obtain ⟨e, he, ht⟩ := hlogged
    exact fields_of_mem hsub he ht
  · have hno : ∀ e ∈ files.log, e.transferId ≠ t := fun e he ht => hlogged ⟨e, he, ht⟩
    rw [lookup_of_not_logged hsnap hno, loggedFields_of_not_logged hno]
    rfl

end Load

/-! ## The queue -/

theorem nodup_seq_rebuildQueue (hashLe : Uuid → Uuid → Bool) (records : Records) :
    ((rebuildQueue hashLe records).map QueueEntry.seq).Nodup := by
  have hmap : ∀ l : List TransferRecord, (l.zipIdx.map fun r : TransferRecord × Nat =>
      (⟨r.1.priority, r.2 + 1, r.1.transferId⟩ : QueueEntry)).map QueueEntry.seq =
        (List.range' 0 l.length).map (· + 1) := by
    intro l
    rw [List.map_map, ← List.zipIdx_map_snd 0 l, List.map_map]
    rfl
  unfold rebuildQueue
  rw [hmap]
  refine List.Nodup.map (fun a b hab => ?_) List.nodup_range'
  exact Nat.add_right_cancel hab

/--
**Recovery is decided by the log.** If every transfer of the log begins with its submission and the
snapshot holds no other transfer, every transfer gets the last value logged for each field, with
this snapshot as with none. Replaying the log again changes no record. The queue has one entry for
each queued record, with its priority, and numbers the entries apart.
-/
theorem recovery_decided_by_log (hashLe : Uuid → Uuid → Bool) (files : Files)
    (hsub : Submits files.log)
    (hsnap : ∀ rec ∈ files.snapshot.getD [], ∃ e ∈ files.log, e.transferId = rec.transferId) :
    (∀ t, ((loadRecords files).lookup t).map TransferRecord.fields = loggedFields files.log t ∧
      ((loadRecords ⟨none, files.log⟩).lookup t).map TransferRecord.fields =
        loggedFields files.log t) ∧
    (∀ t, (eventReplay.run (loadRecords files) files.log).lookup t =
      (loadRecords files).lookup t) ∧
    (∀ t rec, (loadRecords files).lookup t = some rec → rec.status = .queued →
      ∃ seq, ((rebuildQueue hashLe (loadRecords files)).filter fun e => e.transferId = t) =
        [⟨rec.priority, seq, t⟩]) ∧
    (∀ e ∈ rebuildQueue hashLe (loadRecords files),
      ∃ rec, (loadRecords files).lookup e.transferId = some rec ∧ rec.status = .queued) ∧
    ((rebuildQueue hashLe (loadRecords files)).map QueueEntry.seq).Nodup := by
  have hkeys := keyedById_loadRecords files
  refine ⟨fun t => ⟨fields_loadRecords files hsub hsnap t, ?_⟩, fun t => ?_, fun t rec ht hq => ?_,
    fun e he => ?_, nodup_seq_rebuildQueue _ _⟩
  · exact fields_loadRecords ⟨none, files.log⟩ hsub (fun _ h => absurd h List.not_mem_nil) t
  · exact lookup_replay_again _ _ _
  · exact rebuildQueue_entry hashLe hkeys ht hq
  · exact queued_of_mem_rebuildQueue hashLe hkeys he

/-! ### A transfer whose snapshot is out of date -/

/-- The snapshot was written while the transfer ran, and before its priority was changed. -/
def staleFiles : Files where
  snapshot := some [
    { transferId := 1, source := "a", destination := "b", priority := 3, status := .active,
      progressPct := 7, throughputMbps := 1, bytesTransferred := 4, bytesTotal := 9, error := none,
      createdAtUnixMs := 5, updatedAtUnixMs := 6, attempts := 1 }]
  log := [submittedEvent 5 1 ⟨"a", "b", 3⟩,
    { tsUnixMs := 7, transferId := 1, kind := .priorityUpdated, priority := some 8 }]

theorem staleFiles_recovery :
    ((loadRecords staleFiles).lookup 1).map TransferRecord.fields =
      some ⟨"a", "b", 8, .queued, 0, 0, 0, 0⟩ ∧
    (eventReplay.run (loadRecords staleFiles) staleFiles.log).lookup 1 =
      (loadRecords staleFiles).lookup 1 := by
  have hsub : Submits staleFiles.log := by
    intro t event hfirst
    have hmem := List.mem_of_find?_eq_some hfirst
    by_cases ht : t = 1
    · subst ht
      cases hfirst
      exact submittedEvent_submitted _ _ _
    · simp only [staleFiles, List.mem_cons, List.not_mem_nil, or_false] at hmem
      have hid : event.transferId = t := by simpa using List.find?_some hfirst
      rcases hmem with rfl | rfl
      · exact absurd hid.symm ht
      · exact absurd hid.symm ht
  have hsnap : ∀ rec ∈ staleFiles.snapshot.getD [],
      ∃ e ∈ staleFiles.log, e.transferId = rec.transferId := by
    intro rec hrec
    rw [List.mem_singleton.mp hrec]
    exact ⟨_, List.mem_cons_self, rfl⟩
  obtain ⟨hfields, hagain, -⟩ :=
    recovery_decided_by_log (fun a b => decide (a ≤ b)) staleFiles hsub hsnap
  exact ⟨(hfields 1).1.trans (by decide), hagain 1⟩

end ScTransport
