import ScTransport.Daemon.Persistence
import Mathlib.Logic.Encodable.Basic
import Mathlib.Logic.Equiv.List
import Mathlib.Tactic.DeriveEncodable

/-!
# Live transfers after a restart

A restart should queue every transfer again that is queued or active. Queued ones come back, with
their priorities; active ones do not: the snapshot is read with active transfers queued, but the
events are replayed over it, and the last one says that the transfer is active.

* `loadRecords_discrete` — recovery does not look at floats
* `restart_requeues_iff` — after a run that is orderly, a restart queues all live transfers again
  exactly if none of them is active
* `sample_active_lost` — a transfer that is active is lost
-/

namespace ScTransport

open Infra

/-! ## Floats do not matter -/

def Files.discrete (files : Files) : Files :=
  ⟨files.snapshot.map (List.map TransferRecord.discrete),
    files.log.map TransferEventRecord.discrete⟩

section Discrete

variable {t : Uuid}

theorem loadSnapshot_discrete (list : List TransferRecord) (t : Uuid) :
    ((loadSnapshot list).lookup t).map TransferRecord.discrete =
      (loadSnapshot (list.map TransferRecord.discrete)).lookup t := by
  induction list using List.reverseRecOn with
  | nil => rfl
  | append_singleton list rec ih =>
    unfold loadSnapshot at ih ⊢
    rw [List.map_append, List.map_singleton, List.foldl_append, List.foldl_append]
    by_cases ht : t = rec.transferId
    · have ht' : t = rec.discrete.transferId := ht
      rw [List.foldl_cons, List.foldl_nil, List.foldl_cons, List.foldl_nil, ht,
        AList.lookup_insert, ← ht, ht', AList.lookup_insert]
      rfl
    · have ht' : t ≠ rec.discrete.transferId := ht
      rw [List.foldl_cons, List.foldl_nil, List.foldl_cons, List.foldl_nil,
        AList.lookup_insert_ne ht, AList.lookup_insert_ne ht', ih]

theorem apply_discrete (old : Option TransferRecord) (event : TransferEventRecord) :
    (eventReplay.apply old event).discrete =
      eventReplay.apply (old.map TransferRecord.discrete) event.discrete := by
  cases old <;> rfl

/-- Recovery does not look at floats. -/
theorem loadRecords_discrete (files : Files) (t : Uuid) :
    ((loadRecords files).lookup t).map TransferRecord.discrete =
      (loadRecords files.discrete).lookup t := by
  have hkey : ∀ event : TransferEventRecord,
      eventReplay.key event.discrete = eventReplay.key event := fun _ => rfl
  refine Replay.lookup_run_map hkey apply_discrete (fun t => ?_) files.log t
  rw [loadSnapshot_discrete]
  unfold Files.discrete
  cases files.snapshot <;> rfl

theorem lookup_of_discrete {files files' : Files} {rec : TransferRecord}
    (h : files.discrete = files'.discrete) (hrec : (loadRecords files').lookup t = some rec) :
    ∃ rec', (loadRecords files).lookup t = some rec' ∧ rec'.discrete = rec.discrete := by
  have hsame := (loadRecords_discrete files t).trans
    (congrArg (fun files => (loadRecords files).lookup t) h)
  rw [← loadRecords_discrete files' t, hrec] at hsame
  exact Option.map_eq_some_iff.mp hsame

end Discrete

/-! ## Stopping -/

/-- Not between a change of a record and the event or the snapshot that follows it. -/
def Pc.settled : Pc → Bool
  | .spawned | .subscribe | .failed _ | .leave | .progress _ | .progressAppend _ | .done => true
  | .job (.receiveAppend _) | .job .completeAppend => false
  | .job _ => true
  | _ => false

/-- No handler and no worker is between a change and the event or the snapshot for it. -/
def stopped (s : DaemonState) : Bool := s.tasks.all fun task => task.pc.settled

/-- Both the status and the priority are logged in time. -/
def timelyAll (s : DaemonState) (l : DaemonLabel) : Bool :=
  timely owedStatus (fun _ => true) s l && timely owedPriority (fun _ => true) s l

/-- Events are logged in time, each on a line of its own. -/
def DaemonHost.orderly (s : DaemonHost) (l : DaemonLabel) : Bool :=
  s.startsLine l && (s.effect l).all (timelyAll s.daemon)

/--
The files load, and every live transfer is queued then, with one entry that has its priority.
-/
def DaemonJson.Recovers (J : DaemonJson) (maxConcurrent : Nat) (hashLe : Uuid → Uuid → Bool)
    (s : DaemonHost) : Prop :=
  ∃ s', J.start maxConcurrent hashLe s.disk s.log = some s' ∧
    ∀ t rec, s.daemon.records.lookup t = some rec →
      rec.status = .queued ∨ rec.status = .active →
        (∃ rec', s'.daemon.records.lookup t = some rec' ∧ rec'.status = .queued) ∧
        ∃ seq, (s'.daemon.queue.filter fun e => e.transferId = t) = [⟨rec.priority, seq, t⟩]

section Stop

variable {J : DaemonJson} {maxConcurrent : Nat} {hashLe : Uuid → Uuid → Bool} {files : Files}

theorem Pc.owes_of_settled {pc : Pc} (h : pc.settled = true) : pc.owes = none := by
  cases pc with
  | job point => cases point <;> first | rfl | cases h
  | _ => first | rfl | cases h

/-- At a stop no snapshot is being written. -/
theorem DaemonHost.Writing.inTurn {s : DaemonHost} (h : s.Writing)
    (hstop : stopped s.daemon = true) : s.InTurn := by
  have hnone : ∀ i, (s.calls i).inFlight ≠ true := by
    intro i hi
    obtain ⟨t, site, list, htask⟩ := h i hi
    cases List.all_eq_true.mp hstop _ (List.mem_of_getElem? htask)
  exact ⟨fun i _ hi => absurd hi (hnone i), fun i hi => absurd hi (hnone i)⟩

/-- A restart at a stop loads what the daemon means to have written. -/
theorem Faithful.restart {s : DaemonHost} (h : Faithful J s) (hstop : stopped s.daemon = true)
    (maxConcurrent : Nat) (hashLe : Uuid → Uuid → Bool) :
    ∃ files, J.start maxConcurrent hashLe s.disk s.log =
        some ⟨boot maxConcurrent hashLe files, s.log, s.disk, fun _ => .idle⟩ ∧
      files.discrete = s.daemon.files.discrete := by
  obtain ⟨events, hevents, hlog⟩ := h.log.loads
  obtain ⟨snapshot, hsnapshot, hstate⟩ := (h.disk (h.writing.inTurn hstop)).loads
  refine ⟨⟨snapshot, events⟩, ?_, ?_⟩
  · unfold DaemonJson.start DaemonJson.load
    rw [hsnapshot, Option.bind_some, hevents]
    rfl
  · unfold Files.discrete
    rw [hlog, hstate]

/-- After a timely run, a restart finds the status and the priority of every transfer. -/
theorem loadRecords_of_stop {s : DaemonState} {t : Uuid} {rec : TransferRecord}
    (hrun : daemon.Reach (fun s l => timelyAll s l = true) (boot maxConcurrent hashLe files) s)
    (hstop : stopped s = true) (hrec : s.records.lookup t = some rec) :
    ∃ rec', (loadRecords s.files).lookup t = some rec' ∧ rec'.status = rec.status ∧
      rec'.priority = rec.priority := by
  have hpaid : ∀ task ∈ s.tasks, task.pc.owes = none := fun task htask =>
    Pc.owes_of_settled (List.all_eq_true.mp hstop task htask)
  have hst : LoggedAt owedStatus (fun _ => true) s t :=
    reach_logged (fun _ _ h => (Bool.and_eq_true_iff.mp h).1) hrun t
  have hpr : LoggedAt owedPriority (fun _ => true) s t :=
    reach_logged (fun _ _ h => (Bool.and_eq_true_iff.mp h).2) hrun t
  obtain ⟨rec₁, hrec₁, hstatus⟩ := (hst.retained hpaid hrec rfl).loads
  obtain ⟨rec₂, hrec₂, hpriority⟩ := (hpr.retained hpaid hrec rfl).loads
  cases hrec₁.symm.trans hrec₂
  exact ⟨rec₁, hrec₁, hstatus, hpriority⟩

end Stop

/--
**A restart brings queued transfers back, and loses active ones.** A run over the files starts with
files that load. Every event is logged in time and on a line of its own, and at the stop no handler
or worker is half-way. Then all live transfers are queued again with their priorities exactly if
none of them was active.
-/
theorem restart_requeues_iff (J : DaemonJson) {maxConcurrent maxConcurrent' : Nat}
    {hashLe hashLe' : Uuid → Uuid → Bool} {disk : Disk SnapshotFile} {log : Option (List Char)}
    {start s : DaemonHost} (hdisk : disk.Sound)
    (hstart : J.start maxConcurrent hashLe disk log = some start)
    (hrun : J.host.Reach (fun s l => s.orderly l = true) start s)
    (hstop : stopped s.daemon = true) :
    J.Recovers maxConcurrent' hashLe' s ↔
      ∀ t rec, s.daemon.records.lookup t = some rec → rec.status ≠ .active := by
  have hfaithful : Faithful J s := reach_faithful (faithful_start hdisk hstart)
    (fun _ _ h => (Bool.and_eq_true_iff.mp h).1) hrun
  obtain ⟨files, hrestart, hdiscrete⟩ := hfaithful.restart hstop maxConcurrent' hashLe'
  have hreach : daemon.Reach (fun s l => timelyAll s l = true) start.daemon s.daemon :=
    host_simulates (fun hok heffect => (Option.all_eq_true _ _).mp
      (Bool.and_eq_true_iff.mp hok).2 _ heffect) hrun
  obtain ⟨files₀, -, rfl⟩ := Option.map_eq_some_iff.mp hstart
  -- what the files say of a transfer
  have hfinds : ∀ {t rec}, s.daemon.records.lookup t = some rec →
      ∃ rec', (loadRecords files).lookup t = some rec' ∧ rec'.status = rec.status ∧
        rec'.priority = rec.priority := by
    intro t rec hrec
    obtain ⟨rec₁, hrec₁, hstatus, hpriority⟩ := loadRecords_of_stop hreach hstop hrec
    obtain ⟨rec₂, hrec₂, hsame⟩ := lookup_of_discrete hdiscrete hrec₁
    have hstatus₂ : rec₂.discrete.status = rec₁.discrete.status := by rw [hsame]
    have hpriority₂ : rec₂.discrete.priority = rec₁.discrete.priority := by rw [hsame]
    exact ⟨rec₂, hrec₂, hstatus₂.trans hstatus, hpriority₂.trans hpriority⟩
  constructor
  · rintro ⟨s', hs', hrecovers⟩ t rec hrec hactive
    cases hrestart.symm.trans hs'
    -- an active transfer comes back active
    obtain ⟨⟨rec', hrec', hqueued⟩, -⟩ := hrecovers t rec hrec (Or.inr hactive)
    obtain ⟨rec₁, hrec₁, hstatus, -⟩ := hfinds hrec
    cases hrec₁.symm.trans hrec'
    rw [hqueued, hactive] at hstatus
    cases hstatus
  · intro hnone
    refine ⟨_, hrestart, fun t rec hrec hlive => ?_⟩
    have hqueued : rec.status = .queued := hlive.resolve_right (hnone t rec hrec)
    obtain ⟨rec₁, hrec₁, hstatus, hpriority⟩ := hfinds hrec
    rw [hqueued] at hstatus
    refine ⟨⟨rec₁, hrec₁, hstatus⟩, ?_⟩
    rw [← hpriority]
    exact rebuildQueue_entry hashLe' (keyedById_loadRecords files) hrec₁ hstatus

/-! ### A queued and an active transfer -/

instance encodableUInt64 : Encodable UInt64 :=
  .ofLeftInverse UInt64.toNat UInt64.ofNat fun _ => UInt64.ofNat_toNat

instance encodableChar : Encodable Char := .ofLeftInverse Char.toNat Char.ofNat Char.ofNat_toNat

instance encodableString : Encodable String :=
  .ofLeftInverse String.toList String.ofList fun _ => String.ofList_toList

deriving instance Encodable for TransferStatus, EventKind, TransferRecord, TransferEventRecord

/-- A float that is not finite is written as `null`. -/
def TransferEventRecord.written (event : TransferEventRecord) : TransferEventRecord :=
  { event with
    progressPct := event.progressPct.filter F64.isFinite
    throughputMbps := event.throughputMbps.filter F64.isFinite }

theorem TransferEventRecord.isFinite_written (event : TransferEventRecord) :
    event.written.isFinite = true := by
  have hfilter : ∀ x : Option F64, (x.filter F64.isFinite).all F64.isFinite = true := by
    intro x
    cases x with
    | none => rfl
    | some x => by_cases hx : x.isFinite = true <;> simp [Option.filter, hx]
  exact Bool.and_eq_true_iff.mpr ⟨hfilter _, hfilter _⟩

/-- Texts that are as long as the number of what they stand for. -/
def DaemonJson.sample : DaemonJson where
  toText event := '{' :: List.replicate (Encodable.encode event.written) '0' ++ ['}']
  fromText text := (Encodable.decode (text.length - 2)).filter TransferEventRecord.isFinite
  readBack := TransferEventRecord.written
  fromText_toText event := by
    simp [Encodable.encodek, event.isFinite_written]
  object event := ⟨_, rfl⟩
  no_newline event := by simp
  toVec list := List.replicate (Encodable.encode list) 0
  fromVec bytes := (Encodable.decode bytes.length).filter fun list =>
    list.all TransferRecord.isFinite
  fromVec_toVec list h := ⟨list, by simpa [Encodable.encodek] using h, rfl⟩
  discrete_readBack event := rfl
  finite_fromVec h := List.all_eq_true.mp (Option.filter_eq_some_iff.mp h).2
  finite_fromText h := (Option.filter_eq_some_iff.mp h).2

/-- The daemon without files. -/
def sampleHost : DaemonHost := ⟨sampleBoot, none, .empty, fun _ => .idle⟩

/-- A submitted transfer whose handler has returned: three steps for its event, and three for the
snapshot. -/
def sampleHandled : List DaemonLabel := .submit 1 ⟨"file://a", "b", 5⟩ 0 :: sampleRun 0 9

theorem start_sampleHost (J : DaemonJson) :
    J.start 2 (fun _ _ => true) .empty none = some sampleHost := rfl

theorem sample_requeued :
    ∃ s, DaemonJson.sample.host.execWhere DaemonHost.orderly sampleHost sampleHandled = some s ∧
      stopped s.daemon = true ∧ DaemonJson.sample.Recovers 2 (fun _ _ => true) s := by
  have hrun : DaemonJson.sample.host.execWhere DaemonHost.orderly sampleHost sampleHandled =
    some _ := rfl
  refine ⟨_, hrun, rfl, (restart_requeues_iff _ Disk.sound_empty (start_sampleHost _)
    (.of_execWhere hrun) rfl).mpr fun t rec hrec => ?_⟩
  have hqueued : ∀ entry ∈ [(⟨1, .ofRequest 1 ⟨"file://a", "b", 5⟩ 0⟩ :
      Sigma fun _ : Uuid => TransferRecord)], entry.2.status ≠ .active := by decide
  exact hqueued ⟨t, rec⟩ (AList.mem_lookup_iff.mp hrec)

/--
The worker of the transfer has started it: its event is logged, the snapshot is written and the job
is about to run.
-/
theorem reach_active (J : DaemonJson) :
    ∃ s, J.host.Reach (fun s l => s.orderly l = true) sampleHost s ∧ stopped s.daemon = true ∧
      (s.daemon.records.lookup 1).map TransferRecord.status = some .active ∧
      ((loadRecords s.daemon.files).lookup 1).map TransferRecord.status = some .active := by
  -- the log is open for the event
  have hopened : J.host.execWhere DaemonHost.orderly sampleHost
      (sampleHandled ++ sampleSchedule ++ sampleRun 1 2) = some _ := rfl
  have hline : ∀ text : List Char, atLineStart (text ++ ['\n']) = true := by
    intro text
    simp [atLineStart]
  have htext : J.host.Reach (fun s l => s.orderly l = true) sampleHost _ :=
    (Lts.Reach.of_execWhere hopened).step (l := .run 1 0 .nothing)
      (Bool.and_eq_true_iff.mpr ⟨hline _, rfl⟩) rfl
  exact ⟨_, htext.trans (@Lts.Reach.of_execWhere _ _ _ _ _ (sampleRun 1 5) _ rfl), rfl, rfl, rfl⟩

/-- It is lost then, whatever the texts of the events and of the snapshot are. -/
theorem active_lost (J : DaemonJson) :
    ∃ s s' rec, J.host.Reach (fun s l => s.orderly l = true) sampleHost s ∧
      stopped s.daemon = true ∧
      (s.daemon.records.lookup 1).map TransferRecord.status = some .active ∧
      J.start 2 (fun _ _ => true) s.disk s.log = some s' ∧
      s'.daemon.records.lookup 1 = some rec ∧ rec.status = .active ∧
      (s'.daemon.queue.filter fun e => e.transferId = 1) = [] := by
  obtain ⟨s, hreach, hstop, hactive, hfound⟩ := reach_active J
  have hfaithful : Faithful J s :=
    reach_faithful (faithful_start Disk.sound_empty (start_sampleHost _))
      (fun _ _ h => (Bool.and_eq_true_iff.mp h).1) hreach
  obtain ⟨files, hrestart, hdiscrete⟩ := hfaithful.restart hstop 2 fun _ _ => true
  obtain ⟨rec₁, hrec₁, hstatus₁⟩ := Option.map_eq_some_iff.mp hfound
  obtain ⟨rec, hrec, hsame⟩ := lookup_of_discrete hdiscrete hrec₁
  have hstatus : rec.discrete.status = .active := by
    rw [hsame]
    exact hstatus₁
  refine ⟨s, _, rec, hreach, hstop, hactive, hrestart, hrec, hstatus, ?_⟩
  rw [List.filter_eq_nil_iff]
  intro e he hid
  -- only queued transfers have entries
  obtain ⟨rec', hrec', hqueued⟩ :=
    queued_of_mem_rebuildQueue (fun _ _ => true) (keyedById_loadRecords files) he
  rw [of_decide_eq_true hid] at hrec'
  cases hrec.symm.trans hrec'
  cases hstatus.symm.trans hqueued

/-- The daemon stops while the job of its only transfer is about to run. -/
theorem sample_active_lost :
    ∃ s s' rec, DaemonJson.sample.host.Reach (fun s l => s.orderly l = true) sampleHost s ∧
      stopped s.daemon = true ∧
      (s.daemon.records.lookup 1).map TransferRecord.status = some .active ∧
      DaemonJson.sample.start 2 (fun _ _ => true) s.disk s.log = some s' ∧
      s'.daemon.records.lookup 1 = some rec ∧ rec.status = .active ∧
      (s'.daemon.queue.filter fun e => e.transferId = 1) = [] :=
  active_lost .sample

end ScTransport
