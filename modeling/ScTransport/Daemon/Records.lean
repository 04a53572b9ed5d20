import ScTransport.Infra.Replay
import Mathlib.Data.List.Sort

/-!
# Transfer records, their event log and recovery

The daemon keeps its transfers in a map, a snapshot file and an append-only event log. On
start-up `load_records_into_state` reads the snapshot, in which active transfers become queued,
replays the whole log over it and queues what is then queued.

* `Field.loadRecords` — replay decides: whatever the snapshot says, the last value in the log
  wins
* `popQueue_perm` — `pop` takes one entry of the queue away
* `rebuildQueue_entry`, `queued_of_mem_rebuildQueue` — a queued record gets exactly one queue
  entry, any other one none
-/

namespace ScTransport

open Infra

/-! ## Records and events -/

abbrev Uuid := Nat

/-- An `f64`, by its bits. -/
abbrev F64 := UInt64

inductive TransferStatus where
  | queued
  | active
  | completed
  | failed
  | cancelled
  deriving DecidableEq

def TransferStatus.isTerminal : TransferStatus → Bool
  | .queued | .active => false
  | .completed | .failed | .cancelled => true

structure TransferRecord where
  transferId : Uuid
  source : String
  destination : String
  priority : Nat
  status : TransferStatus
  progressPct : F64
  throughputMbps : F64
  bytesTransferred : Nat
  bytesTotal : Nat
  error : Option String
  createdAtUnixMs : Nat
  updatedAtUnixMs : Nat
  attempts : Nat
  deriving DecidableEq

inductive EventKind where
  | submitted
  | cancelled
  | priorityUpdated
  | started
  | progress
  | completed
  | failed
  deriving DecidableEq

structure TransferEventRecord where
  tsUnixMs : Nat
  transferId : Uuid
  kind : EventKind
  source : Option String := none
  destination : Option String := none
  priority : Option Nat := none
  status : Option TransferStatus := none
  progressPct : Option F64 := none
  throughputMbps : Option F64 := none
  bytesTransferred : Option Nat := none
  bytesTotal : Option Nat := none
  error : Option String := none
  deriving DecidableEq

abbrev Records := AList fun _ : Uuid => TransferRecord

/-! ## Recovery -/

/-- The record an event starts for a transfer that has none. -/
def recordOfEvent (event : TransferEventRecord) : TransferRecord where
  transferId := event.transferId
  source := event.source.getD ""
  destination := event.destination.getD ""
  priority := event.priority.getD 5
  status := event.status.getD .queued
  progressPct := event.progressPct.getD 0
  throughputMbps := event.throughputMbps.getD 0
  bytesTransferred := event.bytesTransferred.getD 0
  bytesTotal := event.bytesTotal.getD 0
  error := event.error
  createdAtUnixMs := event.tsUnixMs
  updatedAtUnixMs := event.tsUnixMs
  attempts := 0

/-- `apply_event`. -/
def applyEvent (rec : TransferRecord) (event : TransferEventRecord) : TransferRecord :=
  { rec with
    source := event.source.getD rec.source
    destination := event.destination.getD rec.destination
    priority := event.priority.getD rec.priority
    status := event.status.getD rec.status
    progressPct := event.progressPct.getD rec.progressPct
    throughputMbps := event.throughputMbps.getD rec.throughputMbps
    bytesTransferred := event.bytesTransferred.getD rec.bytesTransferred
    bytesTotal := event.bytesTotal.getD rec.bytesTotal
    error := event.error.or rec.error
    createdAtUnixMs :=
      if rec.createdAtUnixMs = 0 then event.tsUnixMs else rec.createdAtUnixMs
    updatedAtUnixMs := event.tsUnixMs }

def eventReplay : Replay Uuid TransferEventRecord TransferRecord where
  key := TransferEventRecord.transferId
  apply := fun rec event => applyEvent (rec.getD (recordOfEvent event)) event

/-- A record of the snapshot as it is read back: what was active is queued again. -/
def TransferRecord.requeued (rec : TransferRecord) : TransferRecord :=
  { rec with status := if rec.status = .active then .queued else rec.status }

def loadSnapshot (list : List TransferRecord) : Records :=
  list.foldl (fun records rec => records.insert rec.transferId rec.requeued) ∅

/-- The files of the daemon; the snapshot may not exist yet. -/
structure Files where
  snapshot : Option (List TransferRecord)
  log : List TransferEventRecord

def Files.empty : Files := ⟨none, []⟩

/-- The records `load_records_into_state` ends with. -/
def loadRecords (files : Files) : Records :=
  eventReplay.run (loadSnapshot (files.snapshot.getD [])) files.log

/-! ## The queue -/

/-- `(Reverse<u8>, u64, Uuid)`. -/
structure QueueEntry where
  priority : Nat
  seq : Nat
  transferId : Uuid
  deriving DecidableEq

/-- The order of the heap: a smaller priority number is larger. -/
def QueueEntry.le (a b : QueueEntry) : Bool :=
  decide (b.priority < a.priority ∨ a.priority = b.priority ∧
    (a.seq < b.seq ∨ a.seq = b.seq ∧ a.transferId ≤ b.transferId))

/-- `BinaryHeap::pop`: a largest entry, and the rest. -/
def popQueue : List QueueEntry → Option (QueueEntry × List QueueEntry)
  | [] => none
  | e :: rest =>
    let top := rest.foldl (fun a b => if a.le b then b else a) e
    some (top, (e :: rest).erase top)

/-- `u8::clamp(1, 10)`. -/
def clampPriority (priority : Nat) : Nat := min (max priority 1) 10

/-- The queue built on start-up, with the records visited in the order of the hash map. -/
def rebuildQueue (hashLe : Uuid → Uuid → Bool) (records : Records) : List QueueEntry :=
  let values := (records.keys.insertionSort fun a b => hashLe a b).filterMap records.lookup
  (values.filter fun rec => rec.status = .queued).zipIdx.map fun r =>
    ⟨r.1.priority, r.2 + 1, r.1.transferId⟩

/-! ## What the log decides -/

/-- A field of a record that an event overwrites by the value it carries for it, if any. -/
structure Field (α : Type) where
  get : TransferRecord → α
  val : TransferEventRecord → Option α
  get_applyEvent : ∀ rec event, get (applyEvent rec event) = (val event).getD (get rec)

def statusField : Field TransferStatus := ⟨TransferRecord.status, TransferEventRecord.status,
  fun _ _ => rfl⟩

def priorityField : Field Nat := ⟨TransferRecord.priority, TransferEventRecord.priority,
  fun _ _ => rfl⟩

/-- The last value of the field that is logged for a transfer. -/
def Field.logged {α : Type} (F : Field α) (log : List TransferEventRecord) (t : Uuid) :
    Option α :=
  eventReplay.last F.val t log

section Load

variable {files : Files} {t : Uuid}

/-- **Replay decides.** Whatever the snapshot says, the last value logged is recovered. -/
theorem Field.loadRecords {α : Type} (F : Field α) {v : α} (h : F.logged files.log t = some v) :
    ∃ rec, (loadRecords files).lookup t = some rec ∧ F.get rec = v := by
  refine Replay.get_run F.get ?_ ?_ h
  · intro rec event v hv
    show F.get (applyEvent _ event) = v
    rw [F.get_applyEvent, hv]
    rfl
  · intro rec event hv
    show F.get (applyEvent rec event) = F.get rec
    rw [F.get_applyEvent, hv]
    rfl

/-- Every transfer is stored under its own id. -/
def KeyedById (records : Records) : Prop :=
  ∀ t rec, records.lookup t = some rec → rec.transferId = t

theorem KeyedById.insert {records : Records} (h : KeyedById records) {rec : TransferRecord}
    (hrec : rec.transferId = t) : KeyedById (records.insert t rec) := by
  intro t' rec' h'
  by_cases ht : t' = t
  · subst ht
    rw [AList.lookup_insert] at h'
    cases h'
    exact hrec
  · rw [AList.lookup_insert_ne ht] at h'
    exact h t' rec' h'

theorem keyedById_loadSnapshot (list : List TransferRecord) : KeyedById (loadSnapshot list) := by
  induction list using List.reverseRecOn with
  | nil =>
    intro t rec h
    cases h
  | append_singleton list rec ih =>
    unfold loadSnapshot at ih ⊢
    rw [List.foldl_append]
    exact ih.insert rfl

theorem keyedById_replay {records : Records} (h : KeyedById records)
    (log : List TransferEventRecord) : KeyedById (eventReplay.run records log) := by
  induction log using List.reverseRecOn with
  | nil => exact h
  | append_singleton log e ih =>
    rw [Replay.run_concat]
    refine ih.insert ?_
    show ((eventReplay.run records log).lookup e.transferId |>.getD (recordOfEvent e)).transferId
      = e.transferId
    cases hl : (eventReplay.run records log).lookup e.transferId with
    | none => rfl
    | some rec => exact ih _ _ hl

theorem keyedById_loadRecords (files : Files) : KeyedById (loadRecords files) :=
  keyedById_replay (keyedById_loadSnapshot _) _

/-- What a snapshot without duplicates lists is found. -/
theorem lookup_loadSnapshot {list : List TransferRecord} {rec : TransferRecord}
    (hnd : (list.map TransferRecord.transferId).Nodup) (hrec : rec ∈ list) :
    (loadSnapshot list).lookup rec.transferId = some rec.requeued := by
  induction list using List.reverseRecOn with
  | nil => cases hrec
  | append_singleton list last ih =>
    unfold loadSnapshot at ih ⊢
    rw [List.foldl_append, List.foldl_cons, List.foldl_nil]
    rw [List.map_append, List.nodup_append] at hnd
    rcases List.mem_append.mp hrec with hrec | hrec
    · have hne : rec.transferId ≠ last.transferId :=
        hnd.2.2 _ (List.mem_map_of_mem hrec) _ List.mem_cons_self
      rw [AList.lookup_insert_ne hne]
      exact ih hnd.1 hrec
    · rw [List.mem_singleton.mp hrec, AList.lookup_insert]

/-- A snapshot of the records has the record of every transfer. -/
theorem KeyedById.lookup_loadSnapshot {records : Records} (h : KeyedById records)
    {rec : TransferRecord} (hrec : records.lookup t = some rec) :
    (loadSnapshot (records.entries.map fun entry => entry.2)).lookup t = some rec.requeued := by
  have hmem : ⟨t, rec⟩ ∈ records.entries := AList.mem_lookup_iff.mp hrec
  have hids : (records.entries.map fun entry => entry.2).map TransferRecord.transferId =
      records.keys := by
    rw [List.map_map]
    refine List.map_congr_left fun entry hentry => ?_
    exact h entry.1 entry.2 (AList.mem_lookup_iff.mpr hentry)
  rw [← h t rec hrec]
  refine ScTransport.lookup_loadSnapshot ?_ (List.mem_map.mpr ⟨_, hmem, rfl⟩)
  rw [hids]
  exact records.keys_nodup

theorem TransferRecord.requeued_requeued (rec : TransferRecord) :
    rec.requeued.requeued = rec.requeued := by
  unfold requeued
  split <;> simp_all

/-- A transfer found in the snapshot is listed there. -/
theorem mem_of_lookup_loadSnapshot {list : List TransferRecord} {rec : TransferRecord}
    (h : (loadSnapshot list).lookup t = some rec) :
    ∃ row ∈ list, row.transferId = t ∧ rec = row.requeued := by
  induction list using List.reverseRecOn with
  | nil => cases h
  | append_singleton list last ih =>
    unfold loadSnapshot at h ih
    rw [List.foldl_append] at h
    by_cases ht : t = last.transferId
    · subst ht
      rw [List.foldl_cons, List.foldl_nil, AList.lookup_insert, Option.some.injEq] at h
      exact ⟨last, by simp, rfl, h.symm⟩
    · rw [List.foldl_cons, List.foldl_nil, AList.lookup_insert_ne ht] at h
      obtain ⟨row, hmem, hrow⟩ := ih h
      exact ⟨row, List.mem_append_left _ hmem, hrow⟩

end Load

/-! ## Popping the queue -/

/-- `pop` takes one entry away. -/
theorem popQueue_perm {queue rest : List QueueEntry} {e : QueueEntry}
    (h : popQueue queue = some (e, rest)) : queue.Perm (e :: rest) := by
  have hmem : ∀ (l : List QueueEntry) (a : QueueEntry),
      l.foldl (fun a b => if a.le b then b else a) a ∈ a :: l := by
    intro l
    induction l with
    | nil => exact fun a => List.mem_cons_self
    | cons b l ih =>
      intro a
      rw [List.foldl_cons]
      rcases List.mem_cons.mp (ih (if a.le b then b else a)) with htop | htop
      · rw [htop]
        split
        · exact List.mem_cons_of_mem _ List.mem_cons_self
        · exact List.mem_cons_self
      · exact List.mem_cons_of_mem _ (List.mem_cons_of_mem _ htop)
  cases queue with
  | nil => cases h
  | cons a l =>
    cases h
    exact List.perm_cons_erase (hmem l a)

/-! ## Queue entries after recovery -/

theorem filter_eq_singleton {α β : Type} [DecidableEq β] {f : α → β} {x : α} :
    ∀ {l : List α}, (l.map f).Nodup → x ∈ l → (l.filter fun y => f y = f x) = [x]
  | y :: l, hnd, hx => by
    rw [List.map_cons, List.nodup_cons] at hnd
    rcases List.mem_cons.mp hx with rfl | hx
    · have hnone : (l.filter fun y => f y = f x) = [] := by
        rw [List.filter_eq_nil_iff]
        intro y hy
        have hne : f y ≠ f x := fun he => hnd.1 (he ▸ List.mem_map_of_mem hy)
        simpa using hne
      simp [hnone]
    · have hne : f y ≠ f x := fun he => hnd.1 (he ▸ List.mem_map_of_mem hx)
      rw [List.filter_cons_of_neg (by simpa using hne)]
      exact filter_eq_singleton hnd.2 hx

section Queue

variable {records : Records} (hashLe : Uuid → Uuid → Bool)

theorem nodup_rebuildQueue (hkeys : KeyedById records) :
    ((rebuildQueue hashLe records).map QueueEntry.transferId).Nodup := by
  have hsorted : (records.keys.insertionSort fun a b => hashLe a b).Nodup :=
    (List.perm_insertionSort _ _).nodup_iff.mpr records.keys_nodup
  have hvalues : ((records.keys.insertionSort fun a b => hashLe a b).filterMap
      records.lookup).Pairwise fun a b => a.transferId ≠ b.transferId := by
    refine List.Pairwise.filterMap _ (fun a b hab ra ha rb hb => ?_) hsorted
    rwa [hkeys a ra ha, hkeys b rb hb]
  have hmap : ∀ l : List TransferRecord, (l.zipIdx.map fun r : TransferRecord × Nat =>
      (⟨r.1.priority, r.2 + 1, r.1.transferId⟩ : QueueEntry)).map QueueEntry.transferId =
        l.map TransferRecord.transferId := by
    intro l
    rw [List.map_map]
    conv_rhs => rw [← List.zipIdx_map_fst 0 l, List.map_map]
    rfl
  unfold rebuildQueue
  rw [hmap, List.Nodup, List.pairwise_map]
  exact hvalues.filter _

/-- A queued record has exactly one entry, with its own priority. -/
theorem rebuildQueue_entry (hkeys : KeyedById records) {t : Uuid} {rec : TransferRecord}
    (ht : records.lookup t = some rec) (hq : rec.status = .queued) :
    ∃ seq, ((rebuildQueue hashLe records).filter fun e => e.transferId = t) =
      [⟨rec.priority, seq, t⟩] := by
  have hid : rec.transferId = t := hkeys t rec ht
  have hmem : rec ∈ (((records.keys.insertionSort fun a b => hashLe a b).filterMap
      records.lookup).filter fun rec => rec.status = .queued) := by
    refine List.mem_filter.mpr ⟨List.mem_filterMap.mpr ⟨t, ?_, ht⟩, by simpa using hq⟩
    rw [List.mem_insertionSort, ← AList.mem_keys, ← AList.lookup_isSome, ht]
    rfl
  obtain ⟨k, hk⟩ := List.mem_iff_getElem?.mp hmem
  have hentry : (⟨rec.priority, k + 1, t⟩ : QueueEntry) ∈ rebuildQueue hashLe records :=
    List.mem_map.mpr ⟨(rec, k), List.mem_zipIdx_iff_getElem?.mpr hk, by rw [hid]⟩
  exact ⟨k + 1, filter_eq_singleton (nodup_rebuildQueue hashLe hkeys) hentry⟩

/-- Only queued records have entries. -/
theorem queued_of_mem_rebuildQueue (hkeys : KeyedById records) {e : QueueEntry}
    (h : e ∈ rebuildQueue hashLe records) :
    ∃ rec, records.lookup e.transferId = some rec ∧ rec.status = .queued := by
  obtain ⟨⟨rec, k⟩, hk, rfl⟩ := List.mem_map.mp h
  have hmem := List.mem_of_getElem? (List.mem_zipIdx_iff_getElem?.mp hk)
  obtain ⟨hvalue, hq⟩ := List.mem_filter.mp hmem
  obtain ⟨t, -, ht⟩ := List.mem_filterMap.mp hvalue
  refine ⟨rec, ?_, by simpa using hq⟩
  rw [hkeys t rec ht]
  exact ht

end Queue

end ScTransport
