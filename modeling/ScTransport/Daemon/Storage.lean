import ScTransport.Daemon.EventLog
import ScTransport.Daemon.Finite
import ScTransport.Daemon.Restart
import ScTransport.Daemon.Snapshot

/-!
# The daemon over its files

In `DaemonState` an event is logged and a snapshot replaced in one step. On disk, `append_event`
writes the text of an event and then its newline, without a lock; `persist_records` truncates,
writes and renames a temporary file that all callers share; and `load_records_into_state` fails as a
whole if one of the two files cannot be parsed. Here the tasks of the daemon do all this, one file
operation at a time, and every file operation succeeds.

The `files` of `DaemonState` stay as what the tasks mean to have written: an event counts from the
write of its text on, a snapshot from its rename on.

* `DaemonJson` — what the daemon relies on in `serde_json`
* `DaemonJson.start` — `load_records_into_state` on the two files
* `DaemonJson.hostStep` — the daemon, one file operation at a time
* `HostMove.of_step` — everything a step can do
-/

namespace ScTransport

open Infra

/-! ## Loading -/

/-- All but the floats, which may read back as a neighbour of what was written. -/
def TransferRecord.discrete (rec : TransferRecord) : TransferRecord :=
  { rec with progressPct := 0, throughputMbps := 0 }

def TransferEventRecord.discrete (event : TransferEventRecord) : TransferEventRecord :=
  { event with progressPct := none, throughputMbps := none }

/--
What the daemon relies on in `serde_json` for its two files. In a record, a float that is not finite
is written as `null`, which is not read back as a float.
-/
structure DaemonJson extends EventJson where
  toVec : List TransferRecord → Bytes
  fromVec : Bytes → Option (List TransferRecord)
  fromVec_toVec : ∀ list, (∀ rec ∈ list, rec.isFinite = true) →
    ∃ back, fromVec (toVec list) = some back ∧
      back.map TransferRecord.discrete = list.map TransferRecord.discrete
  discrete_readBack : ∀ event, (readBack event).discrete = event.discrete
  finite_fromVec : ∀ {bytes list}, fromVec bytes = some list → ∀ rec ∈ list, rec.isFinite = true
  finite_fromText : ∀ {text event}, fromText text = some event → event.isFinite = true

/-- Where a task is in its call of `append_event` or `persist_records`. -/
inductive FileCall where
  | idle
  -- the log is open for an event of this time
  | opened (now : Nat)
  -- the text is written, by a task that was at this point
  | appended (point : Pc)
  -- the temporary file is open and empty
  | truncated (file : Nat)
  | written
  deriving DecidableEq

/-- The daemon, its log, its snapshot with the temporary file, and the call of each task. -/
structure DaemonHost where
  daemon : DaemonState
  log : Option (List Char)
  disk : Disk SnapshotFile
  calls : Nat → FileCall

namespace DaemonJson

variable (J : DaemonJson)

/-- The snapshot; `none` is the error of a file that does not parse. -/
def loadState : Option Bytes → Option (Option (List TransferRecord))
  | none => some none
  | some raw => (J.fromVec raw).map some

def load (disk : Disk SnapshotFile) (log : Option (List Char)) : Option Files :=
  (J.loadState (disk.read .state)).bind fun snapshot =>
    (J.loadLog log).map fun events => ⟨snapshot, events⟩

/-- The daemon after `load_records_into_state`, unless that fails. -/
def start (maxConcurrent : Nat) (hashLe : Uuid → Uuid → Bool) (disk : Disk SnapshotFile)
    (log : Option (List Char)) : Option DaemonHost :=
  (J.load disk log).map fun files =>
    ⟨boot maxConcurrent hashLe files, log, disk, fun _ => .idle⟩

end DaemonJson

/-! ## Steps -/

/-- The step is a call of `append_event` or `persist_records`. -/
def Prim.isFile : Prim → Bool
  | .append _ | .writeSnapshot _ => true
  | _ => false

namespace DaemonHost

variable (s : DaemonHost)

def call (i : Nat) (c : FileCall) : DaemonHost := { s with calls := Function.update s.calls i c }

/-- What task `i` is about to do. -/
def next (i now : Nat) (answer : Answer) : Option (Prim × Pc) :=
  s.daemon.tasks[i]?.bind fun task => task.pc.next task.transferId s.daemon.records now answer

/-- The step in memory that comes with a step, if any. -/
def effect : DaemonLabel → Option DaemonLabel
  | .run i now answer =>
    match s.calls i with
    | .idle =>
      match s.next i now answer with
      | some (.append _, _) | some (.writeSnapshot _, _) => none
      | _ => some (.run i now answer)
    | .opened now => some (.run i now .nothing)
    | .appended _ | .truncated _ => none
    | .written => some (.run i now answer)
  | .abort i =>
    match s.calls i with
    -- the job is over but for the newline
    | .appended (.job .completeAppend) => none
    | _ => some (.abort i)
  | l => some l

def memory (l : DaemonLabel) : Option DaemonState :=
  match s.effect l with
  | none => some s.daemon
  | some l' => daemonStep s.daemon l'

/-- A task keeps the `records` lock until the newline of its event is written. -/
def lockedByAppend : Bool :=
  (List.range s.daemon.tasks.length).any fun i =>
    match s.calls i with
    | .appended point => point.holdsLock
    | _ => false

/-- The step has to take the `records` lock. -/
def wantsRecords : DaemonLabel → Bool
  | .submit _ _ _ | .cancel _ _ | .patch _ _ _ | .validate => true
  | .run i now answer =>
    s.calls i = .idle && s.daemon.tasks[i]?.any fun task =>
      task.pc.readsRecords || (s.next i now answer).any fun step => step.1.isUpdate
  | _ => false

def blocked (l : DaemonLabel) : Bool :=
  s.wantsRecords l && s.lockedByAppend ||
    match l with
    -- no answer has such a float: the source divides by nothing that makes one
    | .run _ _ answer => !answer.isFinite
    | _ => false

end DaemonHost

namespace DaemonJson

variable (J : DaemonJson)

/-- The file operation of a step. -/
def fileStep (s : DaemonHost) : DaemonLabel → Option DaemonHost
  | .run i now answer =>
    match s.calls i with
    | .idle =>
      match s.next i now answer with
      | some (.append _, _) => some { s.call i (.opened now) with log := some (s.log.getD []) }
      | some (.writeSnapshot _, _) =>
        let (disk, file) := s.disk.create .tmp
        some { s.call i (.truncated file) with disk := disk }
      | _ => some s
    | .opened now =>
      match s.daemon.tasks[i]?, s.next i now .nothing with
      | some task, some (.append event, _) =>
        some { s.call i (.appended task.pc) with
          log := some (s.log.getD [] ++ J.toText event) }
      | _, _ => none
    | .appended _ => some { s.call i .idle with log := some (s.log.getD [] ++ ['\n']) }
    | .truncated file =>
      match s.next i now answer with
      | some (.writeSnapshot list, _) =>
        some { s.call i .written with disk := s.disk.write file (J.toVec list) }
      | _ => none
    | .written =>
      match s.next i now answer with
      | some (.writeSnapshot _, _) =>
        (s.disk.rename .tmp .state).map fun disk => { s.call i .idle with disk := disk }
      | _ => none
  | .abort i =>
    match s.calls i, s.daemon.tasks[i]? with
    | .appended (.job .completeAppend), some task =>
      if (s.daemon.cancels.lookup task.transferId).any Watch.value then some (s.call i .idle)
      else none
    | _, _ => some (s.call i .idle)
  | _ => some s

def hostStep (s : DaemonHost) (l : DaemonLabel) : Option DaemonHost :=
  if s.blocked l then none
  else
    (s.memory l).bind fun daemon => (J.fileStep s l).map fun s' => { s' with daemon := daemon }

def host : Lts DaemonHost DaemonLabel := ⟨J.hostStep⟩

end DaemonJson

/-! ## What a step can do -/

/-- Everything a step can do. -/
inductive HostMove (J : DaemonJson) (s : DaemonHost) : DaemonLabel → DaemonHost → Prop where
  -- a step in memory alone
  | memory {l : DaemonLabel} {daemon : DaemonState} (h : daemonStep s.daemon l = some daemon)
      (heffect : s.effect l = some l) (habort : ∀ i, l ≠ .abort i)
      (hcall : ∀ i now answer, l = .run i now answer → s.calls i = .idle ∧
        ∀ step, s.next i now answer = some step → step.1.isFile = false) :
      HostMove J s l { s with daemon := daemon }
  | opened {i now : Nat} {answer : Answer} (hcall : s.calls i = .idle)
      (heffect : s.effect (.run i now answer) = none) :
      HostMove J s (.run i now answer)
        { s.call i (.opened now) with log := some (s.log.getD []) }
  | text {i now now' : Nat} {answer : Answer} {task : Task} {event : TransferEventRecord} {pc : Pc}
      {daemon : DaemonState} (hcall : s.calls i = .opened now')
      (heffect : s.effect (.run i now answer) = some (.run i now' .nothing))
      (h : daemonStep s.daemon (.run i now' .nothing) = some daemon)
      (hi : s.daemon.tasks[i]? = some task)
      (hn : task.pc.next task.transferId s.daemon.records now' .nothing =
        some (.append event, pc)) :
      HostMove J s (.run i now answer)
        { s.call i (.appended task.pc) with
          daemon := daemon, log := some (s.log.getD [] ++ J.toText event) }
  | newline {i now : Nat} {answer : Answer} {point : Pc} (hcall : s.calls i = .appended point)
      (heffect : s.effect (.run i now answer) = none) :
      HostMove J s (.run i now answer)
        { s.call i .idle with log := some (s.log.getD [] ++ ['\n']) }
  | truncated {i now : Nat} {answer : Answer} {task : Task} {list : List TransferRecord} {pc : Pc}
      {disk : Disk SnapshotFile} {file : Nat} (hcall : s.calls i = .idle)
      (heffect : s.effect (.run i now answer) = none)
      (hi : s.daemon.tasks[i]? = some task)
      (hn : task.pc.next task.transferId s.daemon.records now answer =
        some (.writeSnapshot list, pc))
      (hcreate : s.disk.create .tmp = (disk, file)) :
      HostMove J s (.run i now answer) { s.call i (.truncated file) with disk := disk }
  | written {i now file : Nat} {answer : Answer} {task : Task} {list : List TransferRecord}
      {pc : Pc} (hcall : s.calls i = .truncated file)
      (heffect : s.effect (.run i now answer) = none)
      (hi : s.daemon.tasks[i]? = some task)
      (hn : task.pc.next task.transferId s.daemon.records now answer =
        some (.writeSnapshot list, pc)) :
      HostMove J s (.run i now answer)
        { s.call i .written with disk := s.disk.write file (J.toVec list) }
  | renamed {i now : Nat} {answer : Answer} {task : Task} {list : List TransferRecord} {pc : Pc}
      {daemon : DaemonState} {disk : Disk SnapshotFile} (hcall : s.calls i = .written)
      (heffect : s.effect (.run i now answer) = some (.run i now answer))
      (h : daemonStep s.daemon (.run i now answer) = some daemon)
      (hi : s.daemon.tasks[i]? = some task)
      (hn : task.pc.next task.transferId s.daemon.records now answer =
        some (.writeSnapshot list, pc))
      (hrename : s.disk.rename .tmp .state = some disk) :
      HostMove J s (.run i now answer) { s.call i .idle with daemon := daemon, disk := disk }
  | aborted {i : Nat} {daemon : DaemonState} (heffect : s.effect (.abort i) = some (.abort i))
      (h : daemonStep s.daemon (.abort i) = some daemon) :
      HostMove J s (.abort i) { s.call i .idle with daemon := daemon }
  | dropped {i : Nat} {point : Pc} (hcall : s.calls i = .appended point)
      (heffect : s.effect (.abort i) = none) : HostMove J s (.abort i) (s.call i .idle)

section Inversion

variable {J : DaemonJson} {s s' : DaemonHost} {l : DaemonLabel}

theorem DaemonHost.next_eq_some {i now : Nat} {answer : Answer} {step : Prim × Pc}
    (h : s.next i now answer = some step) :
    ∃ task, s.daemon.tasks[i]? = some task ∧
      task.pc.next task.transferId s.daemon.records now answer = some step :=
  Option.bind_eq_some_iff.mp h

theorem DaemonHost.memory_of_none (h : s.effect l = none) : s.memory l = some s.daemon := by
  unfold memory
  rw [h]

theorem DaemonHost.memory_of_some {l' : DaemonLabel} (h : s.effect l = some l') :
    s.memory l = daemonStep s.daemon l' := by
  unfold memory
  rw [h]

/-- A task that is not in a call goes on. -/
theorem HostMove.of_idle {i now : Nat} {answer : Answer} {daemon : DaemonState}
    (hcall : s.calls i = .idle) (hmemory : s.memory (.run i now answer) = some daemon)
    (hfiles : J.fileStep s (.run i now answer) = some s') :
    HostMove J s (.run i now answer) { s' with daemon := daemon } := by
  -- all steps but the two calls leave the files alone
  have hother : s.effect (.run i now answer) = some (.run i now answer) →
      J.fileStep s (.run i now answer) = some s →
      (∀ step, s.next i now answer = some step → step.1.isFile = false) →
        HostMove J s (.run i now answer) { s' with daemon := daemon } := by
    intro heffect hsame hnext
    rw [DaemonHost.memory_of_some heffect] at hmemory
    cases hsame.symm.trans hfiles
    refine .memory hmemory heffect nofun fun i' now' answer' heq => ?_
    cases heq
    exact ⟨hcall, hnext⟩
  cases hnext : s.next i now answer with
  | none =>
    refine hother ?_ ?_ fun step h => ?_
    · simp only [DaemonHost.effect, hcall, hnext]
    · simp only [DaemonJson.fileStep, hcall, hnext]
    · cases hnext.symm.trans h
  | some step =>
    obtain ⟨prim, pc⟩ := step
    obtain ⟨task, hi, hn⟩ := DaemonHost.next_eq_some hnext
    cases prim with
    | append event =>
      have heffect : s.effect (.run i now answer) = none := by
        simp only [DaemonHost.effect, hcall, hnext]
      rw [DaemonHost.memory_of_none heffect, Option.some.injEq] at hmemory
      simp only [DaemonJson.fileStep, hcall, hnext, Option.some.injEq] at hfiles
      subst hmemory hfiles
      exact .opened hcall heffect
    | writeSnapshot list =>
      have heffect : s.effect (.run i now answer) = none := by
        simp only [DaemonHost.effect, hcall, hnext]
      rw [DaemonHost.memory_of_none heffect, Option.some.injEq] at hmemory
      simp only [DaemonJson.fileStep, hcall, hnext, Option.some.injEq] at hfiles
      subst hmemory hfiles
      exact .truncated hcall heffect hi hn rfl
    | _ =>
      refine hother ?_ ?_ fun step h => ?_
      · simp only [DaemonHost.effect, hcall, hnext]
      · simp only [DaemonJson.fileStep, hcall, hnext]
      · cases hnext.symm.trans h
        rfl

theorem HostMove.of_run {i now : Nat} {answer : Answer} {daemon : DaemonState}
    (hmemory : s.memory (.run i now answer) = some daemon)
    (hfiles : J.fileStep s (.run i now answer) = some s') :
    HostMove J s (.run i now answer) { s' with daemon := daemon } := by
  cases hcall : s.calls i with
  | idle => exact .of_idle hcall hmemory hfiles
  | opened now' =>
    have heffect : s.effect (.run i now answer) = some (.run i now' .nothing) := by
      simp only [DaemonHost.effect, hcall]
    rw [DaemonHost.memory_of_some heffect] at hmemory
    simp only [DaemonJson.fileStep, hcall] at hfiles
    split at hfiles
    · next task event pc hi hnext =>
      obtain ⟨task', hi', hn⟩ := DaemonHost.next_eq_some hnext
      cases hi.symm.trans hi'
      cases hfiles
      exact .text hcall heffect hmemory hi hn
    · cases hfiles
  | appended point =>
    have heffect : s.effect (.run i now answer) = none := by
      simp only [DaemonHost.effect, hcall]
    rw [DaemonHost.memory_of_none heffect, Option.some.injEq] at hmemory
    simp only [DaemonJson.fileStep, hcall, Option.some.injEq] at hfiles
    subst hmemory hfiles
    exact .newline hcall heffect
  | truncated file =>
    have heffect : s.effect (.run i now answer) = none := by
      simp only [DaemonHost.effect, hcall]
    rw [DaemonHost.memory_of_none heffect, Option.some.injEq] at hmemory
    simp only [DaemonJson.fileStep, hcall] at hfiles
    split at hfiles
    · next list pc hnext =>
      obtain ⟨task, hi, hn⟩ := DaemonHost.next_eq_some hnext
      cases hfiles
      subst hmemory
      exact .written hcall heffect hi hn
    · cases hfiles
  | written =>
    have heffect : s.effect (.run i now answer) = some (.run i now answer) := by
      simp only [DaemonHost.effect, hcall]
    rw [DaemonHost.memory_of_some heffect] at hmemory
    simp only [DaemonJson.fileStep, hcall] at hfiles
    split at hfiles
    · next list pc hnext =>
      obtain ⟨task, hi, hn⟩ := DaemonHost.next_eq_some hnext
      obtain ⟨disk, hdisk, rfl⟩ := Option.map_eq_some_iff.mp hfiles
      exact .renamed hcall heffect hmemory hi hn hdisk
    · cases hfiles

theorem HostMove.of_abort {i : Nat} {daemon : DaemonState}
    (hmemory : s.memory (.abort i) = some daemon) (hfiles : J.fileStep s (.abort i) = some s') :
    HostMove J s (.abort i) { s' with daemon := daemon } := by
  by_cases hcall : s.calls i = .appended (.job .completeAppend)
  · have heffect : s.effect (.abort i) = none := by simp only [DaemonHost.effect, hcall]
    rw [DaemonHost.memory_of_none heffect, Option.some.injEq] at hmemory
    have hsame : s' = s.call i .idle := by
      simp only [DaemonJson.fileStep, hcall] at hfiles
      split at hfiles
      · split at hfiles
        · exact (Option.some.inj hfiles).symm
        · cases hfiles
      · exact (Option.some.inj hfiles).symm
    subst hmemory hsame
    exact .dropped hcall heffect
  · have heffect : s.effect (.abort i) = some (.abort i) := by
      simp only [DaemonHost.effect]
    rw [DaemonHost.memory_of_some heffect] at hmemory
    have hsame : s' = s.call i .idle := by
      simp only [DaemonJson.fileStep] at hfiles
      split at hfiles
      · next h _ => exact absurd h hcall
      · exact (Option.some.inj hfiles).symm
    subst hsame
    exact .aborted heffect hmemory

theorem HostMove.of_step (h : J.hostStep s l = some s') : HostMove J s l s' := by
  unfold DaemonJson.hostStep at h
  split at h
  · cases h
  · obtain ⟨daemon, hmemory, hmap⟩ := Option.bind_eq_some_iff.mp h
    obtain ⟨s₁, hfiles, rfl⟩ := Option.map_eq_some_iff.mp hmap
    cases l with
    | run i now answer => exact .of_run hmemory hfiles
    | abort i => exact .of_abort hmemory hfiles
    | _ =>
      cases hfiles
      exact .memory hmemory rfl nofun nofun

end Inversion

end ScTransport
