import ScTransport.Daemon.Step
import ScTransport.Infra.Disk

/-!
# Writing snapshots

`persist_records` copies the records under their lock, writes the copy to a temporary file and
renames that file onto the snapshot. The temporary file has one name for all callers, and
nothing orders their writes: a caller can truncate the file another one is about to rename, or
rename an old copy over a newer one.

* `persistStep` — `persist_records`, one file operation at a time
* `snapshot_atomic` — as long as calls write one after the other and in the order of their
  copies, the snapshot is complete and never goes backwards
* `sample_snapshot_torn_and_backwards` — calls that do not
-/

namespace ScTransport

open Infra

/-! ## Concurrent calls -/

inductive SnapshotFile where
  | tmp
  | state
  deriving DecidableEq

/-- The points of `persist_records`, with the instant of its copy. -/
inductive PersistPc where
  | copied (instant : Nat) (list : List TransferRecord)
  | truncated (instant : Nat) (list : List TransferRecord) (file : Nat)
  | written (instant : Nat)
  | done
  deriving DecidableEq

/-- The call has truncated the temporary file and has not renamed it yet. -/
def PersistPc.inFlight : PersistPc → Bool
  | .truncated _ _ _ | .written _ => true
  | _ => false

/--
The values the records have had, in order; the files; the calls; and, for the record, the
instant of the copy that was renamed last.
-/
structure PersistState where
  history : List (List TransferRecord)
  disk : Disk SnapshotFile
  calls : List PersistPc
  savedAt : Option Nat

inductive PersistLabel where
  -- the records change
  | change (list : List TransferRecord)
  | call
  -- call `i` takes its next step
  | run (i : Nat)
  deriving DecidableEq

/-- `persist_records`; `toVec` is `serde_json::to_vec_pretty`. -/
def persistStep (toVec : List TransferRecord → Bytes) (s : PersistState) :
    PersistLabel → Option PersistState
  | .change list => some { s with history := s.history ++ [list] }
  | .call =>
    match s.history.getLast? with
    | none => none
    | some list => some { s with calls := s.calls ++ [.copied (s.history.length - 1) list] }
  | .run i =>
    match s.calls[i]? with
    | some (.copied instant list) =>
      let (disk, file) := s.disk.create .tmp
      some { s with disk := disk, calls := s.calls.set i (.truncated instant list file) }
    | some (.truncated instant list file) =>
      some { s with
        disk := s.disk.write file (toVec list), calls := s.calls.set i (.written instant) }
    | some (.written instant) =>
      match s.disk.rename .tmp .state with
      | some disk =>
        some { s with disk := disk, calls := s.calls.set i .done, savedAt := some instant }
      | none => some { s with calls := s.calls.set i .done }
    | _ => none

def persist (toVec : List TransferRecord → Bytes) : Lts PersistState PersistLabel :=
  ⟨persistStep toVec⟩

def PersistState.start (list : List TransferRecord) : PersistState := ⟨[list], .empty, [], none⟩

/--
A call truncates the temporary file only when no other call is between its truncation and its
rename, and the snapshot in place is not newer than its own copy.
-/
def writesInTurn (s : PersistState) : PersistLabel → Bool
  | .run i =>
    match s.calls[i]? with
    | some (.copied instant _) =>
      (s.calls.all fun pc => !pc.inFlight) && s.savedAt.all fun saved => saved ≤ instant
    | _ => true
  | _ => true

/-! ## The invariant -/

/-- The temporary file of a call in flight: its own, with this content. -/
structure Pending (disk : Disk SnapshotFile) (savedAt : Option Nat) (instant file : Nat)
    (content : Bytes) : Prop where
  tmp : disk.entry .tmp = some file
  content : disk.contents[file]? = some content
  own : disk.entry .state ≠ some file
  newer : ∀ saved, savedAt = some saved → saved ≤ instant

/-- The snapshot is the copy of the instant it was saved at. -/
inductive Saved (toVec : List TransferRecord → Bytes) (history : List (List TransferRecord))
    (disk : Disk SnapshotFile) (savedAt : Option Nat) : Prop where
  | absent (h : disk.entry .state = none) (hat : savedAt = none)
  | present {file instant : Nat} {list : List TransferRecord} (h : disk.entry .state = some file)
      (hat : savedAt = some instant) (hlist : history[instant]? = some list)
      (hcontent : disk.contents[file]? = some (toVec list))

section

variable {toVec : List TransferRecord → Bytes} {history : List (List TransferRecord)}
  {disk disk' : Disk SnapshotFile} {savedAt : Option Nat}

/-- What a call knows at each of its points. -/
def PersistPc.Knows (toVec : List TransferRecord → Bytes) (history : List (List TransferRecord))
    (disk : Disk SnapshotFile) (savedAt : Option Nat) : PersistPc → Prop
  | .copied instant list => history[instant]? = some list
  | .truncated instant list file =>
    history[instant]? = some list ∧ Pending disk savedAt instant file []
  | .written instant => ∃ list file, history[instant]? = some list ∧
      Pending disk savedAt instant file (toVec list)
  | .done => True

/-- A call that is not in flight only knows what it has copied. -/
theorem PersistPc.Knows.of_idle {pc : PersistPc} {savedAt' : Option Nat}
    (h : pc.Knows toVec history disk savedAt) (hidle : pc.inFlight = false) :
    pc.Knows toVec history disk' savedAt' := by
  cases pc with
  | copied instant list => exact h
  | done => trivial
  | truncated instant list file => cases hidle
  | written instant => cases hidle

theorem PersistPc.Knows.change {pc : PersistPc} (h : pc.Knows toVec history disk savedAt)
    (more : List (List TransferRecord)) : pc.Knows toVec (history ++ more) disk savedAt := by
  have hpast : ∀ {k : Nat} {list : List TransferRecord}, history[k]? = some list →
      (history ++ more)[k]? = some list := fun hk => getElem?_append_of_some hk more
  cases pc with
  | copied instant list => exact hpast h
  | truncated instant list file => exact ⟨hpast h.1, h.2⟩
  | written instant =>
    obtain ⟨list, file, hlist, hpending⟩ := h
    exact ⟨list, file, hpast hlist, hpending⟩
  | done => trivial

theorem Saved.change (h : Saved toVec history disk savedAt)
    (more : List (List TransferRecord)) : Saved toVec (history ++ more) disk savedAt := by
  cases h with
  | absent h hat => exact .absent h hat
  | present h hat hlist hcontent =>
    exact .present h hat (getElem?_append_of_some hlist more) hcontent

/-- The snapshot does not notice changes to other files. -/
theorem Saved.frame (h : Saved toVec history disk savedAt)
    (hentry : disk'.entry .state = disk.entry .state)
    (hcontents : ∀ file bytes, disk.entry .state = some file →
      disk.contents[file]? = some bytes → disk'.contents[file]? = some bytes) :
    Saved toVec history disk' savedAt := by
  cases h with
  | absent h hat => exact .absent (hentry.trans h) hat
  | present h hat hlist hcontent =>
    exact .present (hentry.trans h) hat hlist (hcontents _ _ h hcontent)

end

structure Tidy (toVec : List TransferRecord → Bytes) (s : PersistState) : Prop where
  knows : ∀ {i : Nat} {pc : PersistPc}, s.calls[i]? = some pc →
    pc.Knows toVec s.history s.disk s.savedAt
  single : ∀ {i j : Nat} {pc pc' : PersistPc}, s.calls[i]? = some pc → s.calls[j]? = some pc' →
    pc.inFlight = true → pc'.inFlight = true → i = j
  clean : (∀ pc ∈ s.calls, pc.inFlight = false) → s.disk.entry .tmp = none
  saved : Saved toVec s.history s.disk s.savedAt

/-! ## One step -/

section

variable {toVec : List TransferRecord → Bytes} {s s' : PersistState} {l : PersistLabel}

/-- A new call takes its copy. -/
theorem Tidy.call (h : Tidy toVec s) {list : List TransferRecord}
    (hlast : s.history.getLast? = some list) :
    Tidy toVec { s with calls := s.calls ++ [.copied (s.history.length - 1) list] } := by
  refine ⟨fun {i pc} hi => ?_, fun {i j pc pc'} hi hj hw hw' => ?_, fun hidle => ?_, h.saved⟩
  · rcases getElem?_concat_cases hi with hi | ⟨-, rfl⟩
    · exact h.knows hi
    · rw [List.getLast?_eq_getElem?] at hlast
      exact hlast
  · rcases getElem?_concat_cases hi with hi | ⟨-, rfl⟩
    · rcases getElem?_concat_cases hj with hj | ⟨-, rfl⟩
      · exact h.single hi hj hw hw'
      · cases hw'
    · cases hw
  · exact h.clean fun pc hpc => hidle pc (List.mem_append_left _ hpc)

/--
A call moves on while no other call is in flight. If it is in flight afterwards, it has its
temporary file; if not, there is none.
-/
theorem Tidy.move (h : Tidy toVec s) {i : Nat} {pc : PersistPc} {disk : Disk SnapshotFile}
    {savedAt : Option Nat} (hi : i < s.calls.length)
    (hother : ∀ {j : Nat} {pc' : PersistPc}, s.calls[j]? = some pc' → j ≠ i →
      pc'.inFlight = false)
    (hknows : pc.Knows toVec s.history disk savedAt)
    (hclean : pc.inFlight = false → disk.entry .tmp = none)
    (hsaved : Saved toVec s.history disk savedAt) :
    Tidy toVec { s with disk := disk, calls := s.calls.set i pc, savedAt := savedAt } := by
  refine ⟨fun {j pc'} hj => ?_, fun {j k pcj pck} hj hk hw hw' => ?_, fun hidle => ?_, hsaved⟩
  · rcases getElem?_set_cases hj with ⟨rfl, rfl⟩ | ⟨hij, hj⟩
    · exact hknows
    · exact (h.knows hj).of_idle (hother hj hij)
  · rcases getElem?_set_cases hj with ⟨rfl, -⟩ | ⟨hij, hj⟩
    · rcases getElem?_set_cases hk with ⟨rfl, -⟩ | ⟨hik, hk⟩
      · rfl
      · rw [hother hk hik] at hw'
        cases hw'
    · rw [hother hj hij] at hw
      cases hw
  · exact hclean (hidle pc (List.mem_set hi pc))

/-- A call truncates the temporary file, which is not there. -/
theorem Tidy.truncate (h : Tidy toVec s) {i instant file : Nat} {list : List TransferRecord}
    {disk : Disk SnapshotFile} (hi : s.calls[i]? = some (.copied instant list))
    (hidle : ∀ pc ∈ s.calls, pc.inFlight = false)
    (hnewer : ∀ saved, s.savedAt = some saved → saved ≤ instant)
    (hcreate : s.disk.create .tmp = (disk, file)) :
    Tidy toVec { s with disk := disk, calls := s.calls.set i (.truncated instant list file) } := by
  obtain ⟨htmp, hempty, hentry, hold⟩ := Disk.create_of_none (h.clean hidle) hcreate
  have hstate : disk.entry .state = s.disk.entry .state := hentry .state nofun
  refine h.move (List.getElem?_eq_some_iff.mp hi).1
    (fun hj _ => hidle _ (List.mem_of_getElem? hj)) ⟨h.knows hi, htmp, hempty, ?_, hnewer⟩ nofun
    (h.saved.frame hstate fun file' bytes _ hbytes => (hold file' bytes hbytes).2)
  rw [hstate]
  intro hfile
  cases h.saved with
  | absent hnone _ => rw [hnone] at hfile; cases hfile
  | present hsome _ _ hcontent =>
    rw [hsome] at hfile
    cases hfile
    exact (hold _ _ hcontent).1 rfl

/-- The other calls are not in flight when one is. -/
theorem Tidy.other_idle (h : Tidy toVec s) {i : Nat} {pc : PersistPc}
    (hi : s.calls[i]? = some pc) (hw : pc.inFlight = true) {j : Nat} {pc' : PersistPc}
    (hj : s.calls[j]? = some pc') (hij : j ≠ i) : pc'.inFlight = false := by
  cases hw' : pc'.inFlight with
  | false => rfl
  | true => exact absurd (h.single hj hi hw' hw) hij

theorem Tidy.write (h : Tidy toVec s) {i instant file : Nat} {list : List TransferRecord}
    (hi : s.calls[i]? = some (.truncated instant list file)) :
    Tidy toVec { s with
      disk := s.disk.write file (toVec list), calls := s.calls.set i (.written instant) } := by
  obtain ⟨hlist, htmp, hempty, hown, hnewer⟩ := h.knows hi
  refine h.move (List.getElem?_eq_some_iff.mp hi).1 (h.other_idle hi rfl)
    ⟨list, file, hlist, htmp, Disk.getElem?_write_of_nil hempty _, hown, hnewer⟩ nofun
    (h.saved.frame rfl fun file' bytes hfile' hbytes => ?_)
  have hne : file' ≠ file := by
    rintro rfl
    exact hown hfile'
  rw [Disk.getElem?_write_of_ne hne]
  exact hbytes

/-- The rename puts the copy in place. -/
theorem Tidy.rename (h : Tidy toVec s) {i instant : Nat}
    (hi : s.calls[i]? = some (.written instant)) :
    ∃ disk, s.disk.rename .tmp .state = some disk ∧
      Tidy toVec { s with
        disk := disk, calls := s.calls.set i .done, savedAt := some instant } := by
  obtain ⟨list, file, hlist, htmp, hcontent, -, -⟩ := h.knows hi
  have hne : SnapshotFile.tmp ≠ .state := nofun
  obtain ⟨disk, hdisk, hstate, hgone, hcontents⟩ := Disk.rename_of_some hne htmp
  exact ⟨disk, hdisk, h.move (List.getElem?_eq_some_iff.mp hi).1 (h.other_idle hi rfl) trivial
    (fun _ => hgone) (.present hstate rfl hlist (hcontents ▸ hcontent))⟩

theorem Tidy.step (h : Tidy toVec s) (hok : writesInTurn s l = true)
    (hstep : persistStep toVec s l = some s') :
    Tidy toVec s' ∧ ∀ saved, s.savedAt = some saved → ∃ saved', s'.savedAt = some saved' ∧
      saved ≤ saved' := by
  have hsame : ∀ saved, s.savedAt = some saved → ∃ saved', s.savedAt = some saved' ∧
      saved ≤ saved' := fun saved hs => ⟨saved, hs, Nat.le_refl _⟩
  cases l with
  | change list =>
    cases hstep
    exact ⟨⟨fun hi => (h.knows hi).change [list], h.single, h.clean, h.saved.change [list]⟩, hsame⟩
  | call =>
    simp only [persistStep] at hstep
    split at hstep
    · cases hstep
    · next list hlast => cases hstep; exact ⟨h.call hlast, hsame⟩
  | run i =>
    simp only [persistStep] at hstep
    split at hstep
    · next instant list hi =>
      cases hstep
      simp only [writesInTurn, hi, Bool.and_eq_true, List.all_eq_true, Bool.not_eq_true',
        Option.all_eq_true, decide_eq_true_eq] at hok
      exact ⟨h.truncate hi hok.1 hok.2 rfl, hsame⟩
    · next instant list file hi => cases hstep; exact ⟨h.write hi, hsame⟩
    · next instant hi =>
      obtain ⟨disk, hdisk, htidy⟩ := h.rename hi
      obtain ⟨list, file, -, hpending⟩ := h.knows hi
      rw [hdisk] at hstep
      cases hstep
      exact ⟨htidy, fun saved hs => ⟨instant, rfl, hpending.newer saved hs⟩⟩
    · cases hstep

theorem tidy_start (list : List TransferRecord) : Tidy toVec (.start list) :=
  ⟨nofun, nofun, fun _ => rfl, .absent rfl rfl⟩

end

/-! ## Whole runs -/

/--
**Snapshots are atomic and never go backwards.** In every run in which a call truncates the
temporary file only while no other call is between its truncation and its rename and the snapshot
in place is not newer than its copy, the snapshot is always the complete serialisation of the
records at some past instant, and that instant never decreases.
-/
theorem snapshot_atomic (toVec : List TransferRecord → Bytes) (list : List TransferRecord)
    {s s' : PersistState}
    (hrun : (persist toVec).Reach (fun s l => writesInTurn s l = true) (.start list) s)
    (hrun' : (persist toVec).Reach (fun s l => writesInTurn s l = true) s s') :
    (∀ bytes, s.disk.read .state = some bytes → ∃ instant records, s.savedAt = some instant ∧
      s.history[instant]? = some records ∧ bytes = toVec records) ∧
    ∀ instant, s.savedAt = some instant → ∃ instant', s'.savedAt = some instant' ∧
      instant ≤ instant' := by
  have h : Tidy toVec s := hrun.invariant (tidy_start list) fun h hok hstep => (h.step hok hstep).1
  constructor
  · intro bytes hread
    unfold Disk.read at hread
    cases h.saved with
    | absent hentry _ => rw [hentry] at hread; cases hread
    | @present file instant records hentry hat hrecords hcontent =>
      rw [hentry, Option.bind_some, hcontent] at hread
      exact ⟨instant, records, hat, hrecords, (Option.some.inj hread).symm⟩
  · intro instant hat
    induction hrun' with
    | refl => exact ⟨instant, hat, Nat.le_refl _⟩
    | step hrun₁ hok hstep ih =>
      obtain ⟨instant₁, hat₁, hle⟩ := ih
      have h₁ := hrun₁.invariant h fun h hok hstep => (h.step hok hstep).1
      obtain ⟨instant₂, hat₂, hle₂⟩ := (h₁.step hok hstep).2 instant₁ hat₁
      exact ⟨instant₂, hat₂, hle.trans hle₂⟩

/-! ### Two calls at once -/

def sampleRecord : TransferRecord := .ofRequest 1 ⟨"file://a", "b", 5⟩ 0

def sampleRecordText : List Char :=
  "[\n  ".toList ++ '{' :: "\n    ".toList ++ (",\n    ".toList).intercalate
    (["\"transfer_id\": \"00000000-0000-0000-0000-000000000001\"", "\"source\": \"file://a\"",
      "\"destination\": \"b\"", "\"priority\": 5", "\"status\": \"queued\"",
      "\"progress_pct\": 0.0", "\"throughput_mbps\": 0.0", "\"bytes_transferred\": 0",
      "\"bytes_total\": 0", "\"error\": null", "\"created_at_unix_ms\": 0",
      "\"updated_at_unix_ms\": 0", "\"attempts\": 0"].map String.toList) ++
    "\n  ".toList ++ '}' :: "\n]".toList

/-- `serde_json` on no record and on `sampleRecord`. -/
def sampleToVec (list : List TransferRecord) : Bytes :=
  (if list = [] then "[]".toList else sampleRecordText).map fun c => UInt8.ofNat c.toNat

/-- One call after the other, the second with a newer copy. -/
theorem sample_snapshot_atomic :
    ∃ s s', (persist sampleToVec).execWhere writesInTurn (.start [])
        [.call, .change [sampleRecord], .run 0, .run 0, .run 0] = some s ∧
      (persist sampleToVec).execWhere writesInTurn s [.call, .run 1, .run 1, .run 1] = some s' ∧
      s.savedAt = some 0 ∧ s'.savedAt = some 1 ∧
      (∀ bytes, s.disk.read .state = some bytes → ∃ instant records, s.savedAt = some instant ∧
        s.history[instant]? = some records ∧ bytes = sampleToVec records) ∧
      ∀ instant, s.savedAt = some instant → ∃ instant', s'.savedAt = some instant' ∧
        instant ≤ instant' := by
  have hruns : (((persist sampleToVec).execWhere writesInTurn (.start [])
      [.call, .change [sampleRecord], .run 0, .run 0, .run 0]).bind fun s =>
        ((persist sampleToVec).execWhere writesInTurn s [.call, .run 1, .run 1, .run 1]).map
          fun s' => (s.savedAt, s'.savedAt)) = some (some 0, some 1) := by decide +kernel
  obtain ⟨s, hs, hmap⟩ := Option.bind_eq_some_iff.mp hruns
  obtain ⟨s', hs', hat⟩ := Option.map_eq_some_iff.mp hmap
  rw [Prod.mk.injEq] at hat
  exact ⟨s, s', hs, hs', hat.1, hat.2,
    snapshot_atomic sampleToVec [] (.of_execWhere hs) (.of_execWhere hs')⟩

/--
The second call truncates the file that the first one then renames: the snapshot is empty. And
the first call, with a copy from before a submission, renames after the second: the snapshot
loses the transfer again.
-/
theorem sample_snapshot_torn_and_backwards :
    (∃ s, (persist sampleToVec).exec (.start [])
        [.call, .call, .run 0, .run 0, .run 1, .run 0] = some s ∧
      s.disk.read .state = some [] ∧ ∀ records ∈ s.history, sampleToVec records ≠ []) ∧
    ∃ s s', (persist sampleToVec).exec (.start [])
        [.call, .change [sampleRecord], .call, .run 1, .run 1, .run 1] = some s ∧
      (persist sampleToVec).exec s [.run 0, .run 0, .run 0] = some s' ∧
      s'.history = [[], [sampleRecord]] ∧ sampleToVec [] ≠ sampleToVec [sampleRecord] ∧
      s.disk.read .state = some (sampleToVec [sampleRecord]) ∧
      s'.disk.read .state = some (sampleToVec []) := by
  constructor
  · exact ⟨_, rfl, rfl, by decide +kernel⟩
  · exact ⟨_, _, rfl, rfl, rfl, by decide +kernel, by decide +kernel, by decide +kernel⟩

end ScTransport
