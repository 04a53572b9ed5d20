import ScTransport.Daemon.Step
import ScTransport.Infra.Lines

/-!
# The event log as a text file

In the model of the daemon the log is a list of events. On disk it is a text with one event per
line, to which handlers, workers and progress callbacks append without a lock. `append_event`
appends the text of the event and its newline in two separate writes, and the loader rejects the
whole file at the first line that is not an event.

* `EventJson` — what the daemon relies on in `serde_json`
* `EventJson.loadLog` — `load_records_into_state` on the file
* `eventLog_loads` — as long as every event is appended at the start of a line, the file holds
  exactly the events appended
* `sample_log_unreadable` — two concurrent appends, or one after a crash, are enough to lose it
-/

namespace ScTransport

open Infra

/-! ## Events as text -/

/-- What the daemon relies on in `serde_json`: an event is written as an object on one line. -/
structure EventJson where
  toText : TransferEventRecord → List Char
  fromText : List Char → Option TransferEventRecord
  /-- The event as its text says it; a float that is not finite is written as `null`. -/
  readBack : TransferEventRecord → TransferEventRecord
  fromText_toText : ∀ event, fromText (toText event) = some (readBack event)
  object : ∀ event, ∃ body, toText event = '{' :: body ++ ['}']
  no_newline : ∀ event, '\n' ∉ toText event

namespace EventJson

variable (J : EventJson)

/-- The events of the log; `none` is the error of the first line that is not an event. -/
def loadLog : Option (List Char) → Option (List TransferEventRecord)
  | none => some []
  | some raw => ((lines raw).filter fun line => !isBlank line).mapM J.fromText

def loadRecordsIntoState (snapshot : Option (List TransferRecord)) (file : Option (List Char)) :
    Option Records :=
  (J.loadLog file).map fun log => loadRecords ⟨snapshot, log⟩

end EventJson

/-! ## Appending -/

/-- The points of `append_event`. -/
inductive AppendPc where
  | create (event : TransferEventRecord)
  | text (event : TransferEventRecord)
  | newline
  | done
  deriving DecidableEq

/-- The file, the calls in progress and, for the record, the events whose text is written. -/
structure LogState where
  file : Option (List Char)
  calls : List AppendPc
  appended : List TransferEventRecord

inductive LogLabel where
  | call (event : TransferEventRecord)
  -- call `i` takes its next step
  | run (i : Nat)
  -- the process ends; another one goes on with the file
  | crash
  deriving DecidableEq

/-- No file and no calls. -/
def LogState.start : LogState := ⟨none, [], []⟩

/-- `append_event`, one file operation at a time. -/
def EventJson.logStep (J : EventJson) (s : LogState) : LogLabel → Option LogState
  | .call event => some { s with calls := s.calls ++ [.create event] }
  | .run i =>
    match s.calls[i]? with
    | some (.create event) =>
      some { s with file := some (s.file.getD []), calls := s.calls.set i (.text event) }
    | some (.text event) =>
      some {
        file := some (s.file.getD [] ++ J.toText event)
        calls := s.calls.set i .newline
        appended := s.appended ++ [event] }
    | some .newline =>
      some { s with file := some (s.file.getD [] ++ ['\n']), calls := s.calls.set i .done }
    | _ => none
  | .crash => some { s with calls := [] }

def EventJson.eventLog (J : EventJson) : Lts LogState LogLabel := ⟨J.logStep⟩

/-- The text of an event is appended only when the file is empty or ends in a newline. -/
def startsLine (s : LogState) : LogLabel → Bool
  | .run i =>
    match s.calls[i]? with
    | some (.text _) => atLineStart (s.file.getD [])
    | _ => true
  | _ => true

/-! ## What a step does to the events in the file -/

/-- The file can be read, and says what was appended. -/
structure Readable (J : EventJson) (s : LogState) : Prop where
  loads : J.loadLog s.file = some (s.appended.map J.readBack)
  last : (s.file.getD []).getLast? ≠ some '\r'

namespace EventJson

variable {J : EventJson} {raw : List Char}

theorem loadLog_some (raw : List Char) :
    J.loadLog (some raw) = ((lines raw).filter fun line => !isBlank line).mapM J.fromText := rfl

theorem loadLog_getD (file : Option (List Char)) :
    J.loadLog (some (file.getD [])) = J.loadLog file := by
  cases file <;> rfl

theorem toText_ne_nil (event : TransferEventRecord) : J.toText event ≠ [] := by
  obtain ⟨body, hbody⟩ := J.object event
  rw [hbody]
  nofun

theorem toText_not_blank (event : TransferEventRecord) : isBlank (J.toText event) = false := by
  obtain ⟨body, hbody⟩ := J.object event
  rw [hbody]
  rfl

theorem getLast?_append_toText (event : TransferEventRecord) :
    (raw ++ J.toText event).getLast? = some '}' := by
  obtain ⟨body, hbody⟩ := J.object event
  rw [hbody, ← List.append_assoc]
  exact List.getLast?_concat

/-- One more event. -/
theorem loadLog_append_text {events : List TransferEventRecord} (event : TransferEventRecord)
    (hstart : atLineStart raw = true) (h : J.loadLog (some raw) = some events) :
    J.loadLog (some (raw ++ J.toText event)) = some (events ++ [J.readBack event]) := by
  rw [loadLog_some] at h ⊢
  rw [lines_append_line hstart (toText_ne_nil event) (J.no_newline event), List.filter_append,
    List.mapM_append, h]
  simp [toText_not_blank, J.fromText_toText]

/-- A newline changes nothing. -/
theorem loadLog_concat_newline (hlast : raw.getLast? ≠ some '\r') :
    J.loadLog (some (raw ++ ['\n'])) = J.loadLog (some raw) := by
  rw [loadLog_some, loadLog_some]
  rcases lines_concat_newline hlast with h | h
  · rw [h]
  · rw [h, List.filter_append]
    simp [isBlank]

end EventJson

open EventJson

variable {J : EventJson} {s s' : LogState} {l : LogLabel}

theorem Readable.step (h : Readable J s) (hok : startsLine s l = true)
    (hstep : J.logStep s l = some s') : Readable J s' := by
  obtain ⟨hloads, hlast⟩ := h
  cases l with
  | call event => cases hstep; exact ⟨hloads, hlast⟩
  | crash => cases hstep; exact ⟨hloads, hlast⟩
  | run i =>
    simp only [logStep] at hstep
    split at hstep
    · cases hstep
      exact ⟨(loadLog_getD _).trans hloads, hlast⟩
    · next event hi =>
      cases hstep
      have hstart : atLineStart (s.file.getD []) = true := by simpa [startsLine, hi] using hok
      constructor
      · rw [List.map_append]
        exact loadLog_append_text event hstart ((loadLog_getD _).trans hloads)
      · rw [Option.getD_some, getLast?_append_toText]
        decide
    · cases hstep
      refine ⟨(loadLog_concat_newline hlast).trans ((loadLog_getD _).trans hloads), ?_⟩
      rw [Option.getD_some, List.getLast?_concat]
      decide
    · cases hstep

/--
**The event log is always loadable.** In every run, with any number of concurrent appends and
crashes, in which the text of an event is appended only at the start of a line, every line of the
file is an event, and loading it applies exactly the events whose text has been appended.
-/
theorem eventLog_loads (J : EventJson) {s : LogState} (snapshot : Option (List TransferRecord))
    (hrun : J.eventLog.Reach (fun s l => startsLine s l = true) .start s) :
    J.loadLog s.file = some (s.appended.map J.readBack) ∧
      J.loadRecordsIntoState snapshot s.file =
        some (loadRecords ⟨snapshot, s.appended.map J.readBack⟩) := by
  have hstart : Readable J .start := ⟨rfl, nofun⟩
  have h : Readable J s := hrun.invariant hstart fun h hok hstep => h.step hok hstep
  refine ⟨h.loads, ?_⟩
  unfold loadRecordsIntoState
  rw [h.loads]
  rfl

/-! ### Two cancellations in the same millisecond -/

def sampleEvent : TransferEventRecord := statusEvent 0 1 .cancelled .cancelled

def sampleEventText : List Char :=
  '{' :: [','].intercalate (["\"ts_unix_ms\":0",
    "\"transfer_id\":\"00000000-0000-0000-0000-000000000001\"", "\"kind\":\"cancelled\"",
    "\"source\":null", "\"destination\":null", "\"priority\":null", "\"status\":\"cancelled\"",
    "\"progress_pct\":null", "\"throughput_mbps\":null", "\"bytes_transferred\":null",
    "\"bytes_total\":null", "\"error\":null"].map String.toList) ++ ['}']

/-- `serde_json` on `sampleEvent`. -/
def EventJson.sample : EventJson where
  toText _ := sampleEventText
  fromText text := if text = sampleEventText then some sampleEvent else none
  readBack _ := sampleEvent
  fromText_toText _ := if_pos rfl
  object _ := ⟨_, rfl⟩
  no_newline _ := by decide +kernel

/-- One call after the other, and a crash before the last newline. -/
theorem sample_log_loads :
    ∃ s, EventJson.sample.eventLog.execWhere startsLine .start
        [.call sampleEvent, .call sampleEvent, .run 0, .run 1, .run 0, .run 0, .run 1, .crash] =
          some s ∧
      s.appended = [sampleEvent, sampleEvent] ∧
      EventJson.sample.loadLog s.file = some (s.appended.map EventJson.sample.readBack) ∧
      EventJson.sample.loadRecordsIntoState none s.file =
        some (loadRecords ⟨none, s.appended.map EventJson.sample.readBack⟩) := by
  have hrun : (EventJson.sample.eventLog.execWhere startsLine .start
      [.call sampleEvent, .call sampleEvent, .run 0, .run 1, .run 0, .run 0, .run 1, .crash]).map
        LogState.appended = some [sampleEvent, sampleEvent] := by decide +kernel
  obtain ⟨s, hs, happended⟩ := Option.map_eq_some_iff.mp hrun
  exact ⟨s, hs, happended, eventLog_loads _ none (.of_execWhere hs)⟩

/-- Both texts before both newlines; a text after a crash between a text and its newline. -/
theorem sample_log_unreadable :
    (∃ s, EventJson.sample.eventLog.exec .start
        [.call sampleEvent, .call sampleEvent, .run 0, .run 1, .run 0, .run 1, .run 0, .run 1] =
          some s ∧
      EventJson.sample.loadRecordsIntoState none s.file = none) ∧
    ∃ s, EventJson.sample.eventLog.exec .start
        [.call sampleEvent, .run 0, .run 0, .crash, .call sampleEvent, .run 0, .run 0, .run 0] =
          some s ∧
      EventJson.sample.loadRecordsIntoState none s.file = none := by
  refine ⟨⟨_, rfl, ?_⟩, _, rfl, ?_⟩
  · decide +kernel
  · decide +kernel

end ScTransport
