import ScTransport.Daemon.Storage

/-!
# What is on disk is what the daemon means

If the text of an event is written only at the start of a line, the log can always be loaded, and
gives the events that are logged. The snapshot needs no condition but that the run goes on until no
call of `persist_records` is outstanding: calls that disturb each other leave one that finds no
temporary file to rename, and would not return.

* `InTurn.of_step` — calls that are in turn now have been in turn before
* `LogSays.step`, `DiskSays.step` — what the two files say, after a step
* `host_simulates` — every run over the files is a run of the daemon
* `reach_faithful` — the files of every run in which events start on lines of their own
-/

namespace ScTransport

open Infra

/-! ## Steps of the daemon -/

section Daemon

variable {s s' : DaemonState} {l : DaemonLabel} {prim : Prim}

theorem DaemonState.perform_files (s : DaemonState) (t : Uuid) (h : prim.isFile = false) :
    (s.perform t prim).files = s.files := by
  cases prim <;> simp only [perform] <;> first | rfl | (split <;> rfl) | cases h

/-- Steps that are no calls leave the files alone. -/
theorem files_of_step (hstep : daemonStep s l = some s')
    (hcall : ∀ i now answer, l = .run i now answer → ∀ task, s.tasks[i]? = some task →
      ∀ step, task.pc.next task.transferId s.records now answer = some step →
        step.1.isFile = false) : s'.files = s.files := by
  cases DaemonMove.of_step hstep with
  | ran hi hn hlock => exact s.perform_files _ (hcall _ _ _ rfl _ hi _ hn)
  | _ => rfl

end Daemon

/-! ## Calls that write a snapshot -/

theorem SnapshotFile.tmp_ne_state : SnapshotFile.tmp ≠ .state := nofun

/-- The call has truncated the temporary file and has not renamed it yet. -/
def FileCall.inFlight : FileCall → Bool
  | .truncated _ | .written => true
  | _ => false

namespace DaemonHost

/-- A call in flight is one of a task that writes a snapshot. -/
def Writing (s : DaemonHost) : Prop :=
  ∀ i, (s.calls i).inFlight = true →
    ∃ t site list, s.daemon.tasks[i]? = some ⟨t, .persistWrite site list⟩

/-- At most one call is in flight, and then there is a temporary file. -/
structure InTurn (s : DaemonHost) : Prop where
  single : ∀ i j, (s.calls i).inFlight = true → (s.calls j).inFlight = true → i = j
  present : ∀ i, (s.calls i).inFlight = true → s.disk.entry .tmp ≠ none

end DaemonHost

section Calls

variable {J : DaemonJson} {s s' : DaemonHost} {l : DaemonLabel}

theorem DaemonHost.call_self {i : Nat} {c : FileCall} : (s.call i c).calls i = c :=
  Function.update_self ..

theorem DaemonHost.call_of_ne {i j : Nat} {c : FileCall} (h : j ≠ i) :
    (s.call i c).calls j = s.calls j :=
  Function.update_of_ne h ..

/-- A step in memory alone leaves the files alone. -/
theorem files_of_memory {daemon : DaemonState} (h : daemonStep s.daemon l = some daemon)
    (hcall : ∀ i now answer, l = .run i now answer →
      ∀ step, s.next i now answer = some step → step.1.isFile = false) :
    daemon.files = s.daemon.files := by
  refine files_of_step h ?_
  rintro i now answer rfl task hi step hn
  refine hcall i now answer rfl step ?_
  rw [DaemonHost.next, hi]
  exact hn

/-- A step that has nothing to do with the snapshot. -/
structure Elsewhere (s s' : DaemonHost) : Prop where
  disk : s'.disk = s.disk
  snapshot : s'.daemon.files.snapshot = s.daemon.files.snapshot
  calls : ∀ i, s'.calls i = s.calls i ∨
    (s'.calls i).inFlight = false ∧ (s.calls i).inFlight = false
  tasks : ∀ {i : Nat} {task : Task}, (s.calls i).inFlight = true →
    s.daemon.tasks[i]? = some task → s'.daemon.tasks[i]? = some task

/-- A task that is not in flight goes on with something else. -/
theorem Elsewhere.of_call {i : Nat} {c : FileCall} {daemon : DaemonState}
    {log : Option (List Char)} (hi : (s.calls i).inFlight = false) (hc : c.inFlight = false)
    (hsnapshot : daemon.files.snapshot = s.daemon.files.snapshot)
    (htasks : ∀ {j : Nat} {task : Task}, j ≠ i → s.daemon.tasks[j]? = some task →
      daemon.tasks[j]? = some task) :
    Elsewhere s { s.call i c with daemon := daemon, log := log } := by
  refine ⟨rfl, hsnapshot, fun j => ?_, fun {j task} hj htask => htasks ?_ htask⟩
  · by_cases hne : j = i
    · subst hne
      exact Or.inr ⟨by rw [DaemonHost.call_self, hc], hi⟩
    · exact Or.inl (DaemonHost.call_of_ne hne)
  · rintro rfl
    rw [hi] at hj
    cases hj

/-- What a step does to the snapshot and the temporary file. -/
inductive SnapshotMove (J : DaemonJson) (s : DaemonHost) : DaemonHost → Prop where
  | elsewhere {s' : DaemonHost} (h : Elsewhere s s') : SnapshotMove J s s'
  | truncated {i file : Nat} {t : Uuid} {site : PersistSite} {list : List TransferRecord}
      {disk : Disk SnapshotFile} (hcall : s.calls i = .idle)
      (hi : s.daemon.tasks[i]? = some ⟨t, .persistWrite site list⟩)
      (hcreate : s.disk.create .tmp = (disk, file)) :
      SnapshotMove J s { s.call i (.truncated file) with disk := disk }
  | written {i file : Nat} {t : Uuid} {site : PersistSite} {list : List TransferRecord}
      (hcall : s.calls i = .truncated file)
      (hi : s.daemon.tasks[i]? = some ⟨t, .persistWrite site list⟩) :
      SnapshotMove J s { s.call i .written with disk := s.disk.write file (J.toVec list) }
  | renamed {i : Nat} {t : Uuid} {site : PersistSite} {list : List TransferRecord}
      {daemon : DaemonState} {disk : Disk SnapshotFile} (hcall : s.calls i = .written)
      (hi : s.daemon.tasks[i]? = some ⟨t, .persistWrite site list⟩)
      (hsnapshot : daemon.files.snapshot = some list)
      (htasks : ∀ {j : Nat} {task : Task}, j ≠ i → s.daemon.tasks[j]? = some task →
        daemon.tasks[j]? = some task)
      (hrename : s.disk.rename .tmp .state = some disk) :
      SnapshotMove J s { s.call i .idle with daemon := daemon, disk := disk }

/-- The other tasks stay where they are. -/
theorem getElem?_of_run {daemon : DaemonState} {i j now : Nat} {answer : Answer} {task : Task}
    (h : daemonStep s.daemon (.run i now answer) = some daemon) (hne : j ≠ i)
    (hj : s.daemon.tasks[j]? = some task) : daemon.tasks[j]? = some task := by
  refine getElem?_of_step hj h ?_ nofun
  rintro now' answer' ⟨⟩
  exact hne rfl

theorem SnapshotMove.of_step (hwriting : s.Writing) (h : J.hostStep s l = some s') :
    SnapshotMove J s s' := by
  cases HostMove.of_step h with
  | @memory _ daemon hmem heffect habort hcall =>
    refine .elsewhere ⟨rfl, ?_, fun _ => Or.inl rfl, fun {i task} hi htask => ?_⟩
    · exact congrArg Files.snapshot (files_of_memory hmem fun i now answer hl =>
        (hcall i now answer hl).2)
    · refine getElem?_of_step htask hmem ?_ (habort i)
      rintro now answer rfl
      rw [(hcall i now answer rfl).1] at hi
      cases hi
  | opened hcall heffect =>
    exact .elsewhere (.of_call (by rw [hcall]; rfl) rfl rfl fun _ hj => hj)
  | @text i now now' answer task event pc daemon hcall heffect hmem hi hn =>
    refine .elsewhere (.of_call (by rw [hcall]; rfl) rfl ?_ (getElem?_of_run hmem))
    rw [eq_of_run hi hn hmem]
    rfl
  | newline hcall heffect =>
    exact .elsewhere (.of_call (by rw [hcall]; rfl) rfl rfl fun _ hj => hj)
  | @truncated i now answer task list pc disk file hcall heffect hi hn hcreate =>
    obtain ⟨t, point⟩ := task
    obtain ⟨site, rfl⟩ := Pc.next_writeSnapshot hn
    exact .truncated hcall hi hcreate
  | @written i now file answer task list pc hcall heffect hi hn =>
    obtain ⟨t, point⟩ := task
    obtain ⟨site, rfl⟩ := Pc.next_writeSnapshot hn
    exact .written hcall hi
  | @renamed i now answer task list pc daemon disk hcall heffect hmem hi hn hrename =>
    have hdaemon := eq_of_run hi hn hmem
    obtain ⟨t, point⟩ := task
    obtain ⟨site, rfl⟩ := Pc.next_writeSnapshot hn
    refine .renamed hcall hi ?_ (getElem?_of_run hmem) hrename
    rw [hdaemon]
    rfl
  | @aborted i daemon heffect hmem =>
    have hi : (s.calls i).inFlight = false := by
      cases hcall : (s.calls i).inFlight with
      | false => rfl
      | true =>
        obtain ⟨t, site, list, hi⟩ := hwriting i hcall
        cases DaemonMove.of_step hmem with
        | request hr => cases hr
        | aborted hj hflag => cases hi.symm.trans hj
    refine .elsewhere (.of_call hi rfl ?_ fun hne hj => getElem?_of_step hj hmem nofun ?_)
    · exact congrArg Files.snapshot (files_of_step hmem nofun)
    · rintro ⟨⟩
      exact hne rfl
  | dropped hcall heffect =>
    exact .elsewhere (.of_call (by rw [hcall]; rfl) rfl rfl fun _ hj => hj)

/-- A task that writes a snapshot goes on with its call. -/
theorem DaemonHost.Writing.of_call (h : s.Writing) {i j : Nat} {c : FileCall} {t : Uuid}
    {site : PersistSite} {list : List TransferRecord}
    (hi : s.daemon.tasks[i]? = some ⟨t, .persistWrite site list⟩)
    (hj : ((s.call i c).calls j).inFlight = true) :
    ∃ t site list, s.daemon.tasks[j]? = some ⟨t, .persistWrite site list⟩ := by
  by_cases hne : j = i
  · subst hne
    exact ⟨t, site, list, hi⟩
  · rw [call_of_ne hne] at hj
    exact h j hj

theorem DaemonHost.Writing.step (h : s.Writing) (hstep : J.hostStep s l = some s') :
    s'.Writing := by
  intro j hj
  cases SnapshotMove.of_step h hstep with
  | elsewhere he =>
    have hold : (s.calls j).inFlight = true := by
      rcases he.calls j with hcall | ⟨hcall, -⟩
      · rwa [hcall] at hj
      · rw [hcall] at hj
        cases hj
    obtain ⟨t, site, list, htask⟩ := h j hold
    exact ⟨t, site, list, he.tasks hold htask⟩
  | truncated hcall hi hcreate => exact h.of_call hi hj
  | written hcall hi => exact h.of_call hi hj
  | @renamed i t site list daemon disk hcall hi hsnapshot htasks hrename =>
    by_cases hne : j = i
    · subst hne
      rw [call_self] at hj
      cases hj
    · rw [call_of_ne hne] at hj
      obtain ⟨t', site', list', htask⟩ := h j hj
      exact ⟨t', site', list', htasks hne htask⟩

/-- **Calls that are in turn now have been in turn before.** -/
theorem DaemonHost.InTurn.of_step (h : s'.InTurn) (hwriting : s.Writing)
    (hstep : J.hostStep s l = some s') : s.InTurn := by
  cases SnapshotMove.of_step hwriting hstep with
  | elsewhere he =>
    have hcalls : ∀ {i}, (s.calls i).inFlight = true → (s'.calls i).inFlight = true := by
      intro i hi
      rcases he.calls i with hcall | ⟨-, hcall⟩
      · rwa [hcall]
      · rw [hcall] at hi
        cases hi
    refine ⟨fun i j hi hj => h.single i j (hcalls hi) (hcalls hj), fun i hi => ?_⟩
    rw [← he.disk]
    exact h.present i (hcalls hi)
  | @truncated i file t site list disk hcall hi hcreate =>
    -- the call that begins is the only one
    have hnone : ∀ j, (s.calls j).inFlight = false := by
      intro j
      by_contra hj
      have hne : j ≠ i := by
        rintro rfl
        rw [hcall] at hj
        exact hj rfl
      refine hne (h.single j i ?_ ?_)
      · rw [call_of_ne hne]
        exact Bool.eq_true_of_not_eq_false hj
      · rw [call_self]
        rfl
    constructor
    · intro j k hj
      rw [hnone j] at hj
      cases hj
    · intro j hj
      rw [hnone j] at hj
      cases hj
  | @written i file t site list hcall hi =>
    have hcalls : ∀ {j}, (s.calls j).inFlight = true →
        ((s.call i .written).calls j).inFlight = true := by
      intro j hj
      by_cases hne : j = i
      · subst hne
        rw [call_self]
        rfl
      · rwa [call_of_ne hne]
    exact ⟨fun j k hj hk => h.single j k (hcalls hj) (hcalls hk),
      fun j hj => h.present j (hcalls hj)⟩
  | @renamed i t site list daemon disk hcall hi hsnapshot htasks hrename =>
    -- no temporary file is left, so no other call is in flight
    obtain ⟨⟨file, htmp⟩, hgone⟩ := Disk.entry_of_rename SnapshotFile.tmp_ne_state hrename
    have honly : ∀ {j}, (s.calls j).inFlight = true → j = i := by
      intro j hj
      by_contra hne
      refine h.present j ?_ hgone
      rwa [call_of_ne hne]
    refine ⟨fun j k hj hk => (honly hj).trans (honly hk).symm, fun j _ => ?_⟩
    rw [htmp]
    nofun

end Calls

/-! ## The log -/

/-- The log can be loaded, and gives the events that are logged. -/
structure LogSays (J : DaemonJson) (s : DaemonHost) : Prop where
  loads : ∃ events, J.loadLog s.log = some events ∧
    events.map TransferEventRecord.discrete =
      s.daemon.files.log.map TransferEventRecord.discrete
  last : ∀ i point, s.calls i = .appended point → (s.log.getD []).getLast? ≠ some '\r'

/-- The text of an event is written only when the log is empty or ends in a newline. -/
def DaemonHost.startsLine (s : DaemonHost) : DaemonLabel → Bool
  | .run i _ _ =>
    match s.calls i with
    | .opened _ => atLineStart (s.log.getD [])
    | _ => true
  | _ => true

section Log

variable {J : DaemonJson} {s s' : DaemonHost} {l : DaemonLabel}

/-- No other call is changed. -/
theorem DaemonHost.appended_of_call {i j : Nat} {c : FileCall} {point : Pc}
    (h : (s.call i c).calls j = .appended point) (hc : c ≠ .appended point) :
    s.calls j = .appended point := by
  by_cases hne : j = i
  · subst hne
    exact absurd (call_self.symm.trans h) hc
  · exact (call_of_ne hne).symm.trans h

theorem LogSays.step (h : LogSays J s) (hok : s.startsLine l = true)
    (hstep : J.hostStep s l = some s') : LogSays J s' := by
  obtain ⟨⟨events, hloads, hevents⟩, hlast⟩ := h
  cases HostMove.of_step hstep with
  | @memory _ daemon hmem heffect habort hcall =>
    refine ⟨⟨events, hloads, ?_⟩, hlast⟩
    rw [files_of_memory hmem fun i now answer hl => (hcall i now answer hl).2]
    exact hevents
  | @opened i now answer hcall heffect =>
    exact ⟨⟨events, (EventJson.loadLog_getD _).trans hloads, hevents⟩, fun j point hj =>
      hlast j point (DaemonHost.appended_of_call hj nofun)⟩
  | @text i now now' answer task event pc daemon hcall heffect hmem hi hn =>
    have hstart : atLineStart (s.log.getD []) = true := by
      simpa [DaemonHost.startsLine, hcall] using hok
    refine ⟨⟨events ++ [J.readBack event], EventJson.loadLog_append_text event hstart
      ((EventJson.loadLog_getD _).trans hloads), ?_⟩, fun j point hj => ?_⟩
    · rw [eq_of_run hi hn hmem, DaemonState.goto_files, DaemonState.perform_log, List.map_append,
        List.map_append, hevents, List.map_singleton, List.map_singleton, J.discrete_readBack]
    · rw [Option.getD_some, EventJson.getLast?_append_toText]
      decide
  | @newline i now answer point hcall heffect =>
    refine ⟨⟨events, ?_, hevents⟩, fun j point hj => ?_⟩
    · exact (EventJson.loadLog_concat_newline (hlast i point hcall)).trans
        ((EventJson.loadLog_getD _).trans hloads)
    · rw [Option.getD_some, List.getLast?_concat]
      decide
  | @renamed i now answer task list pc daemon disk hcall heffect hmem hi hn hrename =>
    refine ⟨⟨events, hloads, ?_⟩, fun j point hj =>
      hlast j point (DaemonHost.appended_of_call hj nofun)⟩
    rw [eq_of_run hi hn hmem, DaemonState.goto_files, DaemonState.perform_log]
    exact hevents
  | @aborted i daemon heffect hmem =>
    refine ⟨⟨events, hloads, ?_⟩, fun j point hj =>
      hlast j point (DaemonHost.appended_of_call hj nofun)⟩
    rw [files_of_step hmem nofun]
    exact hevents
  | truncated | written | dropped =>
    exact ⟨⟨events, hloads, hevents⟩, fun j point hj =>
      hlast j point (DaemonHost.appended_of_call hj nofun)⟩

end Log

/-! ## The snapshot -/

/--
The snapshot can be loaded, and gives the records that are saved; the temporary file of a call in
flight is empty or holds the copy.
-/
structure DiskSays (J : DaemonJson) (s : DaemonHost) : Prop where
  loads : ∃ snapshot, J.loadState (s.disk.read .state) = some snapshot ∧
    snapshot.map (List.map TransferRecord.discrete) =
      s.daemon.files.snapshot.map (List.map TransferRecord.discrete)
  truncated : ∀ i file, s.calls i = .truncated file →
    s.disk.entry .tmp = some file ∧ s.disk.contents[file]? = some []
  written : ∀ i t site list, s.calls i = .written →
    s.daemon.tasks[i]? = some ⟨t, .persistWrite site list⟩ →
      s.disk.read .tmp = some (J.toVec list)

section Snapshot

variable {J : DaemonJson} {s s' : DaemonHost} {l : DaemonLabel}

theorem DaemonHost.InTurn.idle (h : s.InTurn) {i j : Nat} (hi : (s.calls i).inFlight = true)
    (hne : j ≠ i) : (s.calls j).inFlight = false := by
  cases hj : (s.calls j).inFlight with
  | false => rfl
  | true => exact absurd (h.single j i hj hi) hne

/-- The calls that are not in flight need nothing. -/
theorem DiskSays.of_idle {i : Nat}
    (hloads : ∃ snapshot, J.loadState (s.disk.read .state) = some snapshot ∧
      snapshot.map (List.map TransferRecord.discrete) =
        s.daemon.files.snapshot.map (List.map TransferRecord.discrete))
    (hidle : ∀ j, j ≠ i → (s.calls j).inFlight = false)
    (htruncated : ∀ file, s.calls i = .truncated file →
      s.disk.entry .tmp = some file ∧ s.disk.contents[file]? = some [])
    (hwritten : ∀ t site list, s.calls i = .written →
      s.daemon.tasks[i]? = some ⟨t, .persistWrite site list⟩ →
        s.disk.read .tmp = some (J.toVec list)) : DiskSays J s := by
  refine ⟨hloads, fun j file hj => ?_, fun j t site list hj htask => ?_⟩
  · by_cases hne : j = i
    · subst hne
      exact htruncated file hj
    · have hflight := hidle j hne
      rw [hj] at hflight
      cases hflight
  · by_cases hne : j = i
    · subst hne
      exact hwritten t site list hj htask
    · have hflight := hidle j hne
      rw [hj] at hflight
      cases hflight

theorem DiskSays.of_elsewhere (h : DiskSays J s) (hwriting : s.Writing) (he : Elsewhere s s') :
    DiskSays J s' := by
  have hcalls : ∀ {i c}, s'.calls i = c → c.inFlight = true → s.calls i = c := by
    intro i c hi hc
    rcases he.calls i with hcall | ⟨hcall, -⟩
    · exact hcall.symm.trans hi
    · rw [hi, hc] at hcall
      cases hcall
  refine ⟨?_, fun i file hi => ?_, fun i t site list hi htask => ?_⟩
  · rw [he.disk, he.snapshot]
    exact h.loads
  · rw [he.disk]
    exact h.truncated i file (hcalls hi rfl)
  · rw [he.disk]
    have hflight : (s.calls i).inFlight = true := by
      rw [hcalls hi rfl]
      rfl
    obtain ⟨t', site', list', hold⟩ := hwriting i hflight
    cases (he.tasks hflight hold).symm.trans htask
    exact h.written i _ _ _ (hcalls hi rfl) hold

section Call

variable {i file : Nat} {t : Uuid} {site : PersistSite} {list : List TransferRecord}
  {disk : Disk SnapshotFile}

/-- The temporary file is created, or truncated. -/
theorem DiskSays.of_create (h : DiskSays J s) (hsound : s.disk.Sound)
    (hturn : ({ s.call i (.truncated file) with disk := disk } : DaemonHost).InTurn)
    (hcreate : s.disk.create .tmp = (disk, file)) :
    DiskSays J { s.call i (.truncated file) with disk := disk } := by
  obtain ⟨-, htmp, hempty, hread⟩ := hsound.create hcreate
  refine .of_idle (i := i) ?_ (fun j hne => hturn.idle (i := i) ?_ hne) ?_ ?_
  · show ∃ snapshot, J.loadState (disk.read .state) = some snapshot ∧ _
    rw [hread .state SnapshotFile.tmp_ne_state.symm]
    exact h.loads
  · rw [DaemonHost.call_self]
    rfl
  · intro file' hfile'
    cases DaemonHost.call_self.symm.trans hfile'
    exact ⟨htmp, hempty⟩
  · intro t' site' list' hcall'
    cases DaemonHost.call_self.symm.trans hcall'

/-- The copy is written into the empty file. -/
theorem DiskSays.of_write (h : DiskSays J s) (hsound : s.disk.Sound)
    (hcall : s.calls i = .truncated file)
    (hi : s.daemon.tasks[i]? = some ⟨t, .persistWrite site list⟩)
    (hturn : ({ s.call i .written with
      disk := s.disk.write file (J.toVec list) } : DaemonHost).InTurn) :
    DiskSays J { s.call i .written with disk := s.disk.write file (J.toVec list) } := by
  obtain ⟨htmp, hempty⟩ := h.truncated i file hcall
  refine .of_idle (i := i) ?_ (fun j hne => hturn.idle (i := i) ?_ hne) ?_ ?_
  · show ∃ snapshot, J.loadState ((s.disk.write file _).read .state) = some snapshot ∧ _
    rw [hsound.read_write htmp SnapshotFile.tmp_ne_state.symm]
    exact h.loads
  · rw [DaemonHost.call_self]
    rfl
  · intro file' hfile'
    cases DaemonHost.call_self.symm.trans hfile'
  · intro t' site' list' _ htask
    cases hi.symm.trans htask
    show (s.disk.entry .tmp).bind _ = _
    rw [htmp]
    exact Disk.getElem?_write_of_nil hempty _

/-- The copy becomes the snapshot. -/
theorem DiskSays.of_rename {daemon : DaemonState} (h : DiskSays J s) (hsound : s.disk.Sound)
    (hfinite : s.daemon.FiniteFloats) (hcall : s.calls i = .written)
    (hi : s.daemon.tasks[i]? = some ⟨t, .persistWrite site list⟩)
    (hsnapshot : daemon.files.snapshot = some list)
    (hrename : s.disk.rename .tmp .state = some disk)
    (hturn : ({ s.call i .idle with daemon := daemon, disk := disk } : DaemonHost).InTurn) :
    DiskSays J { s.call i .idle with daemon := daemon, disk := disk } := by
  have hcopy : s.disk.read .tmp = some (J.toVec list) := h.written i t site list hcall hi
  obtain ⟨back, hback, hdiscrete⟩ :=
    J.fromVec_toVec list (List.all_eq_true.mp (hfinite.tasks hi))
  have hnew : (s.call i .idle).calls i = .idle := DaemonHost.call_self
  have hnone : ∀ j, j ≠ i → ((s.call i .idle).calls j).inFlight = false := by
    intro j hne
    by_contra hj
    obtain ⟨-, hgone⟩ := Disk.entry_of_rename SnapshotFile.tmp_ne_state hrename
    exact hturn.present j (Bool.eq_true_of_not_eq_false hj) hgone
  refine .of_idle (i := i) ⟨some back, ?_, ?_⟩ hnone ?_ ?_
  · show J.loadState (disk.read .state) = _
    rw [(hsound.rename hrename).2, hcopy]
    show (J.fromVec (J.toVec list)).map some = _
    rw [hback]
    rfl
  · show _ = daemon.files.snapshot.map _
    rw [hsnapshot]
    exact congrArg some hdiscrete
  · intro file' hfile'
    cases hnew.symm.trans hfile'
  · intro t' site' list' hcall'
    cases hnew.symm.trans hcall'

end Call

theorem DiskSays.step (h : DiskSays J s) (hsound : s.disk.Sound) (hwriting : s.Writing)
    (hfinite : s.daemon.FiniteFloats) (hturn : s'.InTurn) (hstep : J.hostStep s l = some s') :
    DiskSays J s' := by
  cases SnapshotMove.of_step hwriting hstep with
  | elsewhere he => exact h.of_elsewhere hwriting he
  | truncated hcall hi hcreate => exact h.of_create hsound hturn hcreate
  | written hcall hi => exact h.of_write hsound hcall hi hturn
  | renamed hcall hi hsnapshot htasks hrename =>
    exact h.of_rename hsound hfinite hcall hi hsnapshot hrename hturn

theorem sound_step (hsound : s.disk.Sound) (hwriting : s.Writing)
    (hstep : J.hostStep s l = some s') : s'.disk.Sound := by
  cases SnapshotMove.of_step hwriting hstep with
  | elsewhere he =>
    rw [he.disk]
    exact hsound
  | truncated hcall hi hcreate => exact (hsound.create hcreate).1
  | written hcall hi => exact hsound.write _
  | renamed hcall hi hsnapshot htasks hrename => exact (hsound.rename hrename).1

end Snapshot

/-! ## Whole runs -/

/-- The files hold what the daemon means, apart from a snapshot that is written out of turn. -/
structure Faithful (J : DaemonJson) (s : DaemonHost) : Prop where
  log : LogSays J s
  writing : s.Writing
  sound : s.disk.Sound
  finite : s.daemon.FiniteFloats
  disk : s.InTurn → DiskSays J s

section Runs

variable {J : DaemonJson} {s s' : DaemonHost} {l : DaemonLabel}
  {ok : DaemonHost → DaemonLabel → Prop}

theorem memory_of_step (h : J.hostStep s l = some s') :
    s.blocked l = false ∧ s.memory l = some s'.daemon := by
  unfold DaemonJson.hostStep at h
  split at h
  · cases h
  · next hblocked =>
    obtain ⟨daemon, hmemory, hmap⟩ := Option.bind_eq_some_iff.mp h
    obtain ⟨s₁, -, rfl⟩ := Option.map_eq_some_iff.mp hmap
    exact ⟨by simpa using hblocked, hmemory⟩

/-- **Every run over the files is a run of the daemon.** -/
theorem host_simulates {ok' : DaemonState → DaemonLabel → Prop}
    (hok : ∀ {s l l'}, ok s l → s.effect l = some l' → ok' s.daemon l')
    (h : J.host.Reach ok s s') : daemon.Reach ok' s.daemon s'.daemon := by
  induction h with
  | refl => exact .refl
  | @step s₁ s₂ l _ hl hstep ih =>
    have hmemory := (memory_of_step hstep).2
    unfold DaemonHost.memory at hmemory
    split at hmemory
    · rw [← Option.some.inj hmemory]
      exact ih
    · next l' heffect => exact ih.step (hok hl heffect) hmemory

/-- The floats of a step that is not blocked are finite. -/
theorem DaemonHost.isFinite_effect {i now : Nat} {answer : Answer} (h : s.blocked l = false)
    (heffect : s.effect l = some (.run i now answer)) : answer.isFinite = true := by
  cases l with
  | run j now' answer' =>
    have hanswer : answer'.isFinite = true := by
      simp only [blocked, Bool.or_eq_false_iff, Bool.not_eq_eq_eq_not, Bool.not_false] at h
      exact h.2
    simp only [effect] at heffect
    split at heffect
    · split at heffect
      · cases heffect
      · cases heffect
      · cases heffect; exact hanswer
    · cases heffect; rfl
    · cases heffect
    · cases heffect
    · cases heffect; exact hanswer
  | abort j =>
    simp only [effect] at heffect
    split at heffect <;> cases heffect
  | _ => cases heffect

theorem Faithful.step (h : Faithful J s) (hok : s.startsLine l = true)
    (hstep : J.hostStep s l = some s') : Faithful J s' := by
  obtain ⟨hblocked, hmemory⟩ := memory_of_step hstep
  refine ⟨h.log.step hok hstep, h.writing.step hstep, sound_step h.sound h.writing hstep, ?_,
    fun hturn => ?_⟩
  · unfold DaemonHost.memory at hmemory
    split at hmemory
    · rw [← Option.some.inj hmemory]
      exact h.finite
    · next l' heffect =>
      refine h.finite.step (fun i now answer hl' => ?_) hmemory
      subst hl'
      exact DaemonHost.isFinite_effect hblocked heffect
  · exact (h.disk (hturn.of_step h.writing hstep)).step h.sound h.writing h.finite hturn hstep

theorem exists_of_mem_mapM {α β : Type} {f : α → Option β} {b : β} :
    ∀ {l : List α} {r : List β}, l.mapM f = some r → b ∈ r → ∃ a, f a = some b
  | [], r, h, hb => by
    cases h
    cases hb
  | a :: l, r, h, hb => by
    rw [List.mapM_cons] at h
    obtain ⟨b', hb', h⟩ := Option.bind_eq_some_iff.mp h
    obtain ⟨r', hr', h⟩ := Option.bind_eq_some_iff.mp h
    cases h
    rcases List.mem_cons.mp hb with rfl | hb
    · exact ⟨a, hb'⟩
    · exact exists_of_mem_mapM hr' hb

theorem DaemonJson.finite_loadLog {log : Option (List Char)} {events : List TransferEventRecord}
    (h : J.loadLog log = some events) : ∀ event ∈ events, event.isFinite = true := by
  intro event hevent
  cases log with
  | none =>
    cases h
    cases hevent
  | some raw =>
    rw [EventJson.loadLog_some] at h
    obtain ⟨line, hline⟩ := exists_of_mem_mapM h hevent
    exact J.finite_fromText hline

theorem DaemonJson.finite_loadState {raw : Option Bytes} {snapshot : Option (List TransferRecord)}
    (h : J.loadState raw = some snapshot) : ∀ rec ∈ snapshot.getD [], rec.isFinite = true := by
  intro rec hrec
  cases raw with
  | none =>
    cases h
    cases hrec
  | some bytes =>
    obtain ⟨list, hlist, rfl⟩ := Option.map_eq_some_iff.mp h
    exact J.finite_fromVec hlist rec hrec

theorem faithful_start {maxConcurrent : Nat} {hashLe : Uuid → Uuid → Bool}
    {disk : Disk SnapshotFile} {log : Option (List Char)} (hsound : disk.Sound)
    (hstart : J.start maxConcurrent hashLe disk log = some s) : Faithful J s := by
  obtain ⟨files, hload, rfl⟩ := Option.map_eq_some_iff.mp hstart
  obtain ⟨snapshot, hsnapshot, hmap⟩ := Option.bind_eq_some_iff.mp hload
  obtain ⟨events, hevents, rfl⟩ := Option.map_eq_some_iff.mp hmap
  refine ⟨⟨⟨events, hevents, rfl⟩, ?_⟩, ?_, hsound,
    finiteFloats_boot (J.finite_loadState hsnapshot) (J.finite_loadLog hevents),
    fun _ => ⟨⟨snapshot, hsnapshot, rfl⟩, ?_, ?_⟩⟩
  -- no call is under way
  · intro i point hi
    cases hi
  · intro i hi
    cases hi
  · intro i file hi
    cases hi
  · intro i t site list hi
    cases hi

theorem reach_faithful (h : Faithful J s) (hok : ∀ s l, ok s l → s.startsLine l = true)
    (hrun : J.host.Reach ok s s') : Faithful J s' :=
  hrun.invariant h fun hs hl hstep => hs.step (hok _ _ hl) hstep

end Runs

end ScTransport
