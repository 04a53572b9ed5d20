import ScTransport.Daemon.Records
import ScTransport.Infra.Lts
import Mathlib.Algebra.Group.Nat.Defs

/-!
# The daemon as a transition system

The request handlers, the scheduler, the workers and the progress callbacks of `sct-daemon`
run concurrently and share the records, the queue, the cancel channels and the two files. A
step is what one of them does between two points where another may run: one critical section
of the `records` lock, one push to the queue, one append to the log, one file written.

A task is a program point; `Pc.next` is its code, and says which primitive the next step
performs and where it leads. Four places append an event while they hold the `records` lock
(`Pc.holdsLock`): no other task can look at the records in between.
-/

namespace ScTransport

open Infra

/-! ## Program points -/

structure SubmitTransferRequest where
  source : String
  destination : String
  priority : Nat
  deriving DecidableEq

/-- A progress report of the sender; `ratioPct` is the float quotient in percent. -/
structure Progress where
  bytesSent : Nat
  bytesTotal : Nat
  ratioPct : F64
  throughputMbps : F64
  deriving DecidableEq

/-- The points of `run_transfer_job`. -/
inductive JobPc where
  | entry
  | pushOpen
  | pushSend
  | receive
  | receiveAppend (total : Nat)
  | copyOpen
  | copyCheck (total copied : Nat)
  | copyRead (total copied : Nat)
  | copyUpdate (total copied : Nat)
  | complete
  | completeAppend
  deriving DecidableEq

/-- The calls of `persist_records`: in a handler, after a start, at the end of a worker. -/
inductive PersistSite where
  | handler
  | started
  | final
  deriving DecidableEq

inductive Pc where
  -- `submit_transfer`, from the insertion of the record on
  | submitChannel (req : SubmitTransferRequest)
  | submitEnqueue (req : SubmitTransferRequest)
  | submitAppend (req : SubmitTransferRequest)
  -- `cancel_transfer`, from the update of the record on
  | cancelSend
  | cancelAppend
  -- `update_priority`, from the update of the record on
  | patchEnqueue (priority : Nat)
  | patchAppend (priority : Nat) (status : TransferStatus)
  -- `persist_records`
  | persistCopy (site : PersistSite)
  | persistWrite (site : PersistSite) (list : List TransferRecord)
  -- the worker spawned by `spawn_scheduler`
  | spawned
  | startedAppend
  | subscribe
  | job (point : JobPc)
  | failed (error : String)
  | failedAppend (error : String)
  | leave
  -- the task spawned by the progress callback
  | progress (p : Progress)
  | progressAppend (p : Progress)
  | done
  deriving DecidableEq

/-- The points between two awaits at which the task owns the `records` lock. -/
def Pc.holdsLock : Pc → Bool
  | .job (.receiveAppend _) | .job .completeAppend | .failedAppend _ | .progressAppend _ => true
  | _ => false

/-! ## Primitives -/

/-- What a step does to the shared state, for the transfer of its task. -/
inductive Prim where
  | skip
  | update (f : TransferRecord → TransferRecord)
  | append (event : TransferEventRecord)
  | writeSnapshot (list : List TransferRecord)
  | enqueue (priority : Nat)
  | openChannel
  | sendCancel
  | subscribe
  | spawn (pc : Pc)
  /-- The worker drops its permit and, if it has one, its receiver. -/
  | leave (subscribed : Bool)

/-- What the file system, the network and the clock answer a step of the job. -/
inductive Answer where
  | nothing
  | ok
  | fail (error : String)
  | size (total : Nat)
  | read (n : Nat)
  | rate (pct mbps : F64)
  | report (p : Progress)
  | isFile
  deriving DecidableEq

/-! ## Records and events of the code -/

/-- `100.0`. -/
def F64.hundred : F64 := 0x4059000000000000

namespace TransferRecord

def ofRequest (t : Uuid) (req : SubmitTransferRequest) (now : Nat) : TransferRecord where
  transferId := t
  source := req.source
  destination := req.destination
  priority := req.priority
  status := .queued
  progressPct := 0
  throughputMbps := 0
  bytesTransferred := 0
  bytesTotal := 0
  error := none
  createdAtUnixMs := now
  updatedAtUnixMs := now
  attempts := 0

def cancel (now : Nat) (rec : TransferRecord) : TransferRecord :=
  { rec with status := .cancelled, updatedAtUnixMs := now }

/-- An active transfer only gets the new priority, any other one is queued again. -/
def patch (priority now : Nat) (rec : TransferRecord) : TransferRecord :=
  { rec with
    priority := clampPriority priority
    status := if rec.status = .active then .active else .queued
    updatedAtUnixMs := now }

def start (now : Nat) (rec : TransferRecord) : TransferRecord :=
  { rec with
    status := .active
    attempts := min (rec.attempts + 1) (2 ^ 32 - 1)
    updatedAtUnixMs := now }

def fail (error : String) (now : Nat) (rec : TransferRecord) : TransferRecord :=
  { rec with status := .failed, error := some error, updatedAtUnixMs := now }

def complete (now : Nat) (rec : TransferRecord) : TransferRecord :=
  { rec with
    status := .completed, progressPct := F64.hundred, error := none, updatedAtUnixMs := now }

def sized (total : Nat) (rec : TransferRecord) : TransferRecord := { rec with bytesTotal := total }

def received (total now : Nat) (rec : TransferRecord) : TransferRecord :=
  { rec with
    bytesTotal := total, bytesTransferred := total, progressPct := F64.hundred
    updatedAtUnixMs := now }

def copied (total copied : Nat) (pct mbps : F64) (now : Nat) (rec : TransferRecord) :
    TransferRecord :=
  { rec with
    progressPct := if 0 < total then pct else F64.hundred
    bytesTotal := total, bytesTransferred := copied, throughputMbps := mbps
    updatedAtUnixMs := now }

def progress (p : Progress) (now : Nat) (rec : TransferRecord) : TransferRecord :=
  { rec with
    bytesTotal := p.bytesTotal, bytesTransferred := p.bytesSent
    progressPct := if 0 < p.bytesTotal then p.ratioPct else 0
    throughputMbps := p.throughputMbps, updatedAtUnixMs := now }

end TransferRecord

/-- An event that carries a status and nothing else. -/
def statusEvent (now : Nat) (t : Uuid) (kind : EventKind) (status : TransferStatus) :
    TransferEventRecord :=
  { tsUnixMs := now, transferId := t, kind := kind, status := some status }

def submittedEvent (now : Nat) (t : Uuid) (req : SubmitTransferRequest) : TransferEventRecord :=
  { statusEvent now t .submitted .queued with
    source := some req.source, destination := some req.destination
    priority := some req.priority, progressPct := some 0, throughputMbps := some 0
    bytesTransferred := some 0, bytesTotal := some 0 }

def progressEvent (now : Nat) (t : Uuid) (p : Progress) : TransferEventRecord :=
  { statusEvent now t .progress .active with
    progressPct := some (if 0 < p.bytesTotal then p.ratioPct else 0)
    throughputMbps := some p.throughputMbps, bytesTransferred := some p.bytesSent
    bytesTotal := some p.bytesTotal }

def receivedEvent (now : Nat) (t : Uuid) (total : Nat) : TransferEventRecord :=
  { statusEvent now t .progress .active with
    progressPct := some F64.hundred, bytesTransferred := some total, bytesTotal := some total }

/-! ## The code of the tasks -/

/-- Whether the text starts with the scheme, as in `str::starts_with`. -/
def hasScheme (scheme text : String) : Bool := scheme.toList.isPrefixOf text.toList

/-- `run_transfer_job`: `Ok` leads to the last `persist_records`, `Err` to `Pc.failed`. -/
def JobPc.next (t : Uuid) (records : Records) (now : Nat) (answer : Answer) :
    JobPc → Option (Prim × Pc)
  | .entry =>
    match records.lookup t with
    | none => some (.skip, .failed "missing transfer record")
    | some rec =>
      if rec.status = .cancelled then some (.skip, .persistCopy .final)
      else if hasScheme "sct://" rec.destination then some (.skip, .job .pushOpen)
      else if hasScheme "sct://" rec.source then some (.skip, .job .receive)
      else if hasScheme "file://" rec.source || answer = .isFile then
        some (.skip, .job .copyOpen)
      else some (.skip, .failed ("unsupported source scheme: " ++ rec.source))
  | .pushOpen =>
    match answer with
    | .size total => some (.update (.sized total), .job .pushSend)
    | .fail error => some (.skip, .failed error)
    | _ => none
  | .pushSend =>
    match answer with
    | .report p => some (.spawn (.progress p), .job .pushSend)
    | .ok => some (.skip, .job .complete)
    | .fail error => some (.skip, .failed error)
    | _ => none
  | .receive =>
    match answer with
    | .size total => some (.update (.received total now), .job (.receiveAppend total))
    | .fail error => some (.skip, .failed error)
    | _ => none
  | .receiveAppend total => some (.append (receivedEvent now t total), .job .complete)
  | .copyOpen =>
    match answer with
    | .size total => some (.update (.sized total), .job (.copyCheck total 0))
    | .fail error => some (.skip, .failed error)
    | _ => none
  | .copyCheck total copied =>
    if (records.lookup t).any fun rec => rec.status = .cancelled then
      some (.skip, .persistCopy .final)
    else some (.skip, .job (.copyRead total copied))
  | .copyRead total copied =>
    match answer with
    | .read 0 => some (.skip, .job .complete)
    | .read n => some (.skip, .job (.copyUpdate total (copied + n)))
    | .fail error => some (.skip, .failed error)
    | _ => none
  | .copyUpdate total copied =>
    match answer with
    | .rate pct mbps =>
      some (.update (.copied total copied pct mbps now), .job (.copyCheck total copied))
    | _ => none
  | .complete =>
    -- a cancelled record keeps its status, but the event below is logged all the same
    if (records.lookup t).any fun rec => rec.status = .cancelled then
      some (.skip, .job .completeAppend)
    else some (.update (.complete now), .job .completeAppend)
  | .completeAppend =>
    some (.append { statusEvent now t .completed .completed with
      progressPct := some F64.hundred }, .persistCopy .final)

/-- Where a task goes on after `persist_records`. -/
def PersistSite.after : PersistSite → Pc
  | .handler => .done
  | .started => .subscribe
  | .final => .leave

/-- The next step of a task of transfer `t`: what it does and where it leads. -/
def Pc.next (t : Uuid) (records : Records) (now : Nat) (answer : Answer) :
    Pc → Option (Prim × Pc)
  | .submitChannel req => some (.openChannel, .submitEnqueue req)
  | .submitEnqueue req => some (.enqueue req.priority, .submitAppend req)
  | .submitAppend req => some (.append (submittedEvent now t req), .persistCopy .handler)
  | .cancelSend => some (.sendCancel, .cancelAppend)
  | .cancelAppend =>
    some (.append (statusEvent now t .cancelled .cancelled), .persistCopy .handler)
  | .patchEnqueue priority => some (.enqueue priority, .patchAppend priority .queued)
  | .patchAppend priority status =>
    some (.append { statusEvent now t .priorityUpdated status with priority := some priority },
      .persistCopy .handler)
  | .persistCopy site =>
    some (.skip, .persistWrite site (records.entries.map fun entry => entry.2))
  | .persistWrite site list => some (.writeSnapshot list, site.after)
  | .spawned =>
    match records.lookup t with
    | none => some (.skip, .startedAppend)
    | some rec =>
      if rec.status = .cancelled then some (.leave false, .done)
      else some (.update (.start now), .startedAppend)
  | .startedAppend => some (.append (statusEvent now t .started .active), .persistCopy .started)
  | .subscribe => some (.subscribe, .job .entry)
  | .job point => point.next t records now answer
  | .failed error => some (.update (.fail error now), .failedAppend error)
  | .failedAppend error =>
    some (.append { statusEvent now t .failed .failed with error := some error },
      .persistCopy .final)
  | .leave => some (.leave true, .done)
  | .progress p => some (.update (.progress p now), .progressAppend p)
  | .progressAppend p => some (.append (progressEvent now t p), .done)
  | .done => none

/-- The steps that look at the records without changing them. -/
def Pc.readsRecords : Pc → Bool
  | .persistCopy _ | .spawned | .job .entry | .job (.copyCheck _ _) | .job .complete => true
  | _ => false

def Prim.isUpdate : Prim → Bool
  | .update _ => true
  | _ => false

def Prim.isEnqueue : Prim → Bool
  | .enqueue _ => true
  | _ => false

/-! ## The shared state -/

/-- A `watch` channel: its value and the number of receivers. -/
structure Watch where
  value : Bool
  receivers : Nat
  deriving DecidableEq

inductive SchedulerPc where
  | idle
  | popped (entry : QueueEntry)
  | validated (t : Uuid)
  | permitted (t : Uuid)
  deriving DecidableEq

structure Task where
  transferId : Uuid
  pc : Pc
  deriving DecidableEq

structure DaemonState where
  records : Records
  queue : List QueueEntry
  sequence : Nat
  permits : Nat
  cancels : AList fun _ : Uuid => Watch
  files : Files
  scheduler : SchedulerPc
  tasks : List Task

namespace DaemonState

variable (s : DaemonState)

/-- No task holds the `records` lock across an await. -/
def lockFree : Bool := s.tasks.all fun task => !task.pc.holdsLock

/-- `enqueue_transfer`. -/
def enqueueTransfer (t : Uuid) (priority : Nat) : DaemonState :=
  { s with
    sequence := s.sequence + 1
    queue := s.queue ++ [⟨clampPriority priority, s.sequence + 1, t⟩] }

def addTask (t : Uuid) (pc : Pc) : DaemonState := { s with tasks := s.tasks ++ [⟨t, pc⟩] }

def goto (i : Nat) (t : Uuid) (pc : Pc) : DaemonState := { s with tasks := s.tasks.set i ⟨t, pc⟩ }

def perform (t : Uuid) : Prim → DaemonState
  | .skip => s
  | .update f =>
    match s.records.lookup t with
    | none => s
    | some rec => { s with records := s.records.insert t (f rec) }
  | .append event => { s with files := { s.files with log := s.files.log ++ [event] } }
  | .writeSnapshot list => { s with files := { s.files with snapshot := some list } }
  | .enqueue priority => s.enqueueTransfer t priority
  | .openChannel => { s with cancels := s.cancels.insert t ⟨false, 0⟩ }
  | .sendCancel =>
    -- `watch::Sender::send` fails without a receiver and then leaves the value alone
    match s.cancels.lookup t with
    | some ⟨_, n + 1⟩ => { s with cancels := s.cancels.insert t ⟨true, n + 1⟩ }
    | _ => s
  | .subscribe =>
    match s.cancels.lookup t with
    | some watch =>
      { s with cancels := s.cancels.insert t { watch with receivers := watch.receivers + 1 } }
    | none => { s with cancels := s.cancels.insert t ⟨false, 1⟩ }
  | .spawn pc => s.addTask t pc
  | .leave subscribed =>
    match subscribed, s.cancels.lookup t with
    | true, some watch =>
      { s with
        permits := s.permits + 1
        cancels := s.cancels.insert t { watch with receivers := watch.receivers - 1 } }
    | _, _ => { s with permits := s.permits + 1 }

end DaemonState

/-! ## Steps -/

inductive DaemonLabel where
  | submit (t : Uuid) (req : SubmitTransferRequest) (now : Nat)
  | cancel (t : Uuid) (now : Nat)
  | patch (t : Uuid) (priority now : Nat)
  -- the four steps of the scheduler's loop
  | pop
  | validate
  | acquire
  | spawn
  -- task `i` takes its next step
  | run (i now : Nat) (answer : Answer)
  -- the worker's `select!` drops the job because the cancel channel is set
  | abort (i : Nat)
  deriving DecidableEq

/-- The scheduler goes on with an entry only if it is queued with the entry's priority. -/
def entryValid (records : Records) (entry : QueueEntry) : Bool :=
  (records.lookup entry.transferId).any fun rec =>
    rec.status = .queued && rec.priority = entry.priority

/-- Ids are fresh, as `Uuid::new_v4` makes them. -/
def submitTransfer (s : DaemonState) (t : Uuid) (req : SubmitTransferRequest) (now : Nat) :
    Option DaemonState :=
  if s.lockFree && (s.records.lookup t).isNone then
    let req := { req with priority := clampPriority req.priority }
    some ({ s with records := s.records.insert t (.ofRequest t req now) }.addTask t
      (.submitChannel req))
  else none

def cancelTransfer (s : DaemonState) (t : Uuid) (now : Nat) : Option DaemonState :=
  if s.lockFree then
    match s.records.lookup t with
    | none => some s
    | some rec => some ({ s with records := s.records.insert t (rec.cancel now) }.addTask t
        .cancelSend)
  else none

def updatePriority (s : DaemonState) (t : Uuid) (priority now : Nat) : Option DaemonState :=
  if s.lockFree then
    match s.records.lookup t with
    | none => some s
    | some rec =>
      let pc : Pc :=
        if rec.status = .active then .patchAppend (clampPriority priority) .active
        else .patchEnqueue (clampPriority priority)
      some ({ s with records := s.records.insert t (rec.patch priority now) }.addTask t pc)
  else none

def runTask (s : DaemonState) (i now : Nat) (answer : Answer) : Option DaemonState :=
  match s.tasks[i]? with
  | none => none
  | some task =>
    match task.pc.next task.transferId s.records now answer with
    | none => none
    | some (prim, pc) =>
      if (prim.isUpdate || task.pc.readsRecords) && !s.lockFree then none
      -- a run ends before the `u64` of the sequence numbers overflows
      else if prim.isEnqueue && 2 ^ 64 ≤ s.sequence + 1 then none
      else some ((s.perform task.transferId prim).goto i task.transferId pc)

def abortJob (s : DaemonState) (i : Nat) : Option DaemonState :=
  match s.tasks[i]? with
  | some ⟨t, .job _⟩ =>
    if (s.cancels.lookup t).any Watch.value then some (s.goto i t (.persistCopy .final)) else none
  | _ => none

def daemonStep (s : DaemonState) : DaemonLabel → Option DaemonState
  | .submit t req now => submitTransfer s t req now
  | .cancel t now => cancelTransfer s t now
  | .patch t priority now => updatePriority s t priority now
  | .pop =>
    match s.scheduler with
    | .idle =>
      match popQueue s.queue with
      | none => some s
      | some (entry, rest) => some { s with queue := rest, scheduler := .popped entry }
    | _ => none
  | .validate =>
    match s.scheduler with
    | .popped entry =>
      if s.lockFree then
        some { s with
          scheduler :=
            if entryValid s.records entry then .validated entry.transferId else .idle }
      else none
    | _ => none
  | .acquire =>
    match s.scheduler, s.permits with
    | .validated t, permits + 1 => some { s with permits := permits, scheduler := .permitted t }
    | _, _ => none
  | .spawn =>
    match s.scheduler with
    | .permitted t => some ({ s with scheduler := .idle }.addTask t .spawned)
    | _ => none
  | .run i now answer => runTask s i now answer
  | .abort i => abortJob s i

def daemon : Lts DaemonState DaemonLabel := ⟨daemonStep⟩

/-- The daemon after `load_records_into_state`, with no task running yet. -/
def boot (maxConcurrent : Nat) (hashLe : Uuid → Uuid → Bool) (files : Files) : DaemonState :=
  let records := loadRecords files
  let queue := rebuildQueue hashLe records
  { records := records
    queue := queue
    sequence := queue.length
    permits := maxConcurrent
    cancels := ∅
    files := files
    scheduler := .idle
    tasks := [] }

/-! ### Small runs -/

/-- Task `i` takes its next steps, in a world without files and peers. -/
def sampleRun (i n : Nat) : List DaemonLabel := List.replicate n (.run i 0 .nothing)

/-- A submitted transfer whose handler has returned. -/
def sampleSubmit : List DaemonLabel := .submit 1 ⟨"file://a", "b", 5⟩ 0 :: sampleRun 0 5

/-- The scheduler takes one entry from the queue to a worker. -/
def sampleSchedule : List DaemonLabel := [.pop, .validate, .acquire, .spawn]

def sampleBoot : DaemonState := boot 2 (fun _ _ => true) .empty

end ScTransport
