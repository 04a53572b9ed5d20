import ScTransport.Session.Resume

/-!
# The receiver as a state machine

`FileReceiver::accept_transfer` from the manifest to the rename, cut wherever it waits, talks
on the control stream or changes a file. `fail` stands for a failing operation at the current
point; every such failure ends the function with `Err`, except for the removal of the state
file, whose result is ignored.

`ReceiverMove` lists the transitions once; the invariants of a session are proved over it.
-/

namespace ScTransport

open Infra

/-! ## Configuration and results -/

/-- `max_parallel_chunks` only bounds how many streams are read at once. -/
structure ReceiverConfig where
  verifyChecksums : Bool
  resumePartial : Bool

inductive SessionError where
  | control
  | fileOperation
  | ingest (e : ReceiveError)
  | incomplete (received total streams : Nat)
  | transferIdMismatch
  | fileChecksumMismatch
  | rename
  deriving DecidableEq

def SessionError.text : SessionError → String
  | .control => "control stream"
  | .fileOperation => "io"
  | .ingest e => e.text
  | .incomplete received total streams =>
    s!"incomplete transfer: {received} of {total} chunk indices after {streams} data streams"
  | .transferIdMismatch => "transfer id mismatch"
  | .fileChecksumMismatch => "file checksum mismatch"
  | .rename => "rename"

/-! ## States -/

/-- Where `accept_transfer` is. -/
inductive ReceiverPc where
  | awaitManifest
  | acking (m : TransferManifest) (fecRs : Option ReedSolomon)
  | opening (m : TransferManifest) (fecRs : Option ReedSolomon) (received : Finset Nat)
  | sizing (m : TransferManifest) (fecRs : Option ReedSolomon) (received : Finset Nat)
  | receiving (m : TransferManifest) (fecRs : Option ReedSolomon) (st : IngestState)
      (acceptedStreams : Nat)
  | saving (m : TransferManifest) (fecRs : Option ReedSolomon) (st : IngestState)
      (acceptedStreams : Nat)
  | awaitComplete (m : TransferManifest) (fullHash : Digest)
  | beforeRename
  | afterRename
  | done (result : Except SessionError Unit)

structure Session where
  pc : ReceiverPc
  disk : Disk

/-- Messages to the sender. -/
inductive ToSender where
  | manifestAck (ack : ManifestAck)
  | finalAck (ack : FinalAck)

inductive ReceiverLabel where
  | manifest (m : TransferManifest)
  | ack
  | openPart
  | setLen
  | frame (viaStream : Bool) (wire : Bytes)
  | saveState
  | incomplete
  | finishLoop
  | complete (c : TransferComplete)
  | rename
  | removeState (succeeds : Bool)
  | fail

/-! ## Steps -/

/-- How many data streams the receiver accepts before it gives up. -/
def maxStreams (m : TransferManifest) : Nat :=
  satAdd (satAdd m.numChunks
    (satMul (divCeil m.numChunks (max m.dataShards 1)) m.parityShards)) 256

/-- Whether the state file is written after a frame. -/
def saveDue (cfg : ReceiverConfig) (m : TransferManifest) (st : IngestState) : Bool :=
  cfg.resumePartial && (decide (st.received.card = m.numChunks) ||
    decide (st.received.card ≤ 32) || decide (st.received.card % 32 = 0))

/-- The part file after `open`, which creates it and truncates it unless the transfer is resumed. -/
def openedPart (cfg : ReceiverConfig) (disk : Disk) : Bytes :=
  if cfg.resumePartial then disk.part.getD [] else []

/-- The error of a failing operation, which depends on where it fails. -/
def ReceiverPc.failure : ReceiverPc → Option SessionError
  | .awaitManifest => some .control
  | .acking _ _ => some .fileOperation
  | .opening _ _ _ => some .fileOperation
  | .sizing _ _ _ => some .fileOperation
  | .receiving _ _ _ _ => some .fileOperation
  | .saving _ _ _ _ => some .fileOperation
  | .awaitComplete _ _ => some .control
  | .beforeRename => some .rename
  | .afterRename => none
  | .done _ => none

/-- The verdict on a received file. -/
def verdict (cfg : ReceiverConfig) (m : TransferManifest) (fullHash : Digest)
    (c : TransferComplete) : ReceiverPc × FinalAck :=
  if c.transferId ≠ m.transferId then
    (.done (.error .transferIdMismatch), ⟨false, some "transfer_id mismatch"⟩)
  else if cfg.verifyChecksums = true ∧ fullHash ≠ m.fileChecksum then
    (.done (.error .fileChecksumMismatch), ⟨false, some "file checksum mismatch"⟩)
  else (.beforeRename, ⟨true, none⟩)

/-- One step of the receiver, with the message it writes to the control stream. -/
def receiverStep (X : Crates) (cfg : ReceiverConfig) (s : Session) :
    ReceiverLabel → Option (Session × Option ToSender)
  | .manifest m =>
    match s.pc with
    | .awaitManifest =>
      match fecRsOf X m with
      | .error e => some ({ s with pc := .done (.error (.ingest e)) }, none)
      | .ok fecRs => some ({ s with pc := .acking m fecRs }, none)
    | _ => none
  | .ack =>
    match s.pc with
    | .acking m fecRs =>
      some ({ s with pc := .opening m fecRs (loadReceived cfg.resumePartial s.disk) },
        some (.manifestAck (manifestAck X cfg.resumePartial m s.disk)))
    | _ => none
  | .openPart =>
    match s.pc with
    | .opening m fecRs received =>
      some (⟨.sizing m fecRs received, { s.disk with part := some (openedPart cfg s.disk) }⟩, none)
    | _ => none
  | .setLen =>
    -- `set_len` is left out for a file that has the length, which it would not change
    match s.pc, s.disk.part with
    | .sizing m fecRs received, some file =>
      let out := resize file m.totalSize
      some (⟨.receiving m fecRs ⟨out, received, fun _ => none⟩ 0,
        { s.disk with part := some out }⟩, none)
    | _, _ => none
  | .frame viaStream wire =>
    match s.pc with
    | .receiving m fecRs st accepted =>
      if st.received.card < m.numChunks ∧ (viaStream = true → accepted < maxStreams m) then
        match ingestWireFrame X wire m fecRs cfg.verifyChecksums ∅ st with
        | .error e => some ({ s with pc := .done (.error (.ingest e)) }, none)
        | .ok (_, st') =>
          some (⟨.saving m fecRs st' (if viaStream then accepted + 1 else accepted),
            { s.disk with part := some st'.out }⟩, none)
      else none
    | _ => none
  | .saveState =>
    match s.pc with
    | .saving m fecRs st accepted =>
      some (⟨.receiving m fecRs st accepted,
        if saveDue cfg m st then
          { s.disk with state := some (.saved (indexList st.received)) }
        else s.disk⟩, none)
    | _ => none
  | .incomplete =>
    match s.pc with
    | .receiving m _ st accepted =>
      if st.received.card < m.numChunks ∧ maxStreams m ≤ accepted then
        some ({ s with pc := .done (.error (.incomplete st.received.card m.numChunks accepted)) },
          none)
      else none
    | _ => none
  | .finishLoop =>
    match s.pc, s.disk.part with
    | .receiving m _ st _, some file =>
      if st.received.card < m.numChunks then none
      else some ({ s with pc := .awaitComplete m (hashFileStreaming X file) }, none)
    | _, _ => none
  | .complete c =>
    match s.pc with
    | .awaitComplete m fullHash =>
      some ({ s with pc := (verdict cfg m fullHash c).1 },
        some (.finalAck (verdict cfg m fullHash c).2))
    | _ => none
  | .rename =>
    match s.pc, s.disk.part with
    | .beforeRename, some file =>
      some (⟨.afterRename, { s.disk with part := none, final := some file }⟩, none)
    | _, _ => none
  | .removeState succeeds =>
    match s.pc with
    | .afterRename =>
      some (⟨.done (.ok ()), if succeeds then { s.disk with state := none } else s.disk⟩, none)
    | _ => none
  | .fail =>
    match s.pc.failure with
    | some e => some ({ s with pc := .done (.error e) }, none)
    | none => none

/-! ## What a step can do -/

/-- Everything the receiver can do from `pc`, with the session and the message it leads to. -/
inductive ReceiverMove (X : Crates) (cfg : ReceiverConfig) (disk : Disk) :
    ReceiverPc → ReceiverLabel → Session → Option ToSender → Prop where
  | refused {m : TransferManifest} {e : ReceiveError} (h : fecRsOf X m = .error e) :
      ReceiverMove X cfg disk .awaitManifest (.manifest m) ⟨.done (.error (.ingest e)), disk⟩ none
  | accepted {m : TransferManifest} {fecRs : Option ReedSolomon} (h : fecRsOf X m = .ok fecRs) :
      ReceiverMove X cfg disk .awaitManifest (.manifest m) ⟨.acking m fecRs, disk⟩ none
  | acked {m : TransferManifest} {fecRs : Option ReedSolomon} :
      ReceiverMove X cfg disk (.acking m fecRs) .ack
        ⟨.opening m fecRs (loadReceived cfg.resumePartial disk), disk⟩
        (some (.manifestAck (manifestAck X cfg.resumePartial m disk)))
  | opened {m : TransferManifest} {fecRs : Option ReedSolomon} {received : Finset Nat} :
      ReceiverMove X cfg disk (.opening m fecRs received) .openPart
        ⟨.sizing m fecRs received, { disk with part := some (openedPart cfg disk) }⟩ none
  | sized {m : TransferManifest} {fecRs : Option ReedSolomon} {received : Finset Nat}
      {file : Bytes} (hpart : disk.part = some file) :
      ReceiverMove X cfg disk (.sizing m fecRs received) .setLen
        ⟨.receiving m fecRs ⟨resize file m.totalSize, received, fun _ => none⟩ 0,
          { disk with part := some (resize file m.totalSize) }⟩ none
  | rejected {m : TransferManifest} {fecRs : Option ReedSolomon} {st : IngestState}
      {accepted : Nat} {viaStream : Bool} {wire : Bytes} {e : ReceiveError}
      (hroom : st.received.card < m.numChunks ∧ (viaStream = true → accepted < maxStreams m))
      (h : ingestWireFrame X wire m fecRs cfg.verifyChecksums ∅ st = .error e) :
      ReceiverMove X cfg disk (.receiving m fecRs st accepted) (.frame viaStream wire)
        ⟨.done (.error (.ingest e)), disk⟩ none
  | ingested {m : TransferManifest} {fecRs : Option ReedSolomon} {st st' : IngestState}
      {accepted g : Nat} {viaStream : Bool} {wire : Bytes}
      (hroom : st.received.card < m.numChunks ∧ (viaStream = true → accepted < maxStreams m))
      (h : ingestWireFrame X wire m fecRs cfg.verifyChecksums ∅ st = .ok (g, st')) :
      ReceiverMove X cfg disk (.receiving m fecRs st accepted) (.frame viaStream wire)
        ⟨.saving m fecRs st' (if viaStream then accepted + 1 else accepted),
          { disk with part := some st'.out }⟩ none
  | saved {m : TransferManifest} {fecRs : Option ReedSolomon} {st : IngestState} {accepted : Nat} :
      ReceiverMove X cfg disk (.saving m fecRs st accepted) .saveState
        ⟨.receiving m fecRs st accepted,
          if saveDue cfg m st then { disk with state := some (.saved (indexList st.received)) }
          else disk⟩ none
  | gaveUp {m : TransferManifest} {fecRs : Option ReedSolomon} {st : IngestState} {accepted : Nat}
      (hmissing : st.received.card < m.numChunks ∧ maxStreams m ≤ accepted) :
      ReceiverMove X cfg disk (.receiving m fecRs st accepted) .incomplete
        ⟨.done (.error (.incomplete st.received.card m.numChunks accepted)), disk⟩ none
  | finished {m : TransferManifest} {fecRs : Option ReedSolomon} {st : IngestState}
      {accepted : Nat} {file : Bytes} (hpart : disk.part = some file)
      (hall : m.numChunks ≤ st.received.card) :
      ReceiverMove X cfg disk (.receiving m fecRs st accepted) .finishLoop
        ⟨.awaitComplete m (hashFileStreaming X file), disk⟩ none
  | judged {m : TransferManifest} {fullHash : Digest} {c : TransferComplete} :
      ReceiverMove X cfg disk (.awaitComplete m fullHash) (.complete c)
        ⟨(verdict cfg m fullHash c).1, disk⟩ (some (.finalAck (verdict cfg m fullHash c).2))
  | renamed {file : Bytes} (hpart : disk.part = some file) :
      ReceiverMove X cfg disk .beforeRename .rename
        ⟨.afterRename, { disk with part := none, final := some file }⟩ none
  | cleaned {succeeds : Bool} :
      ReceiverMove X cfg disk .afterRename (.removeState succeeds)
        ⟨.done (.ok ()), if succeeds then { disk with state := none } else disk⟩ none
  | failed {pc : ReceiverPc} {e : SessionError} (h : pc.failure = some e) :
      ReceiverMove X cfg disk pc .fail ⟨.done (.error e), disk⟩ none

section Moves

variable {X : Crates} {cfg : ReceiverConfig} {disk : Disk} {pc : ReceiverPc} {s' : Session}
  {msg : Option ToSender}

theorem ReceiverMove.of_step {l : ReceiverLabel}
    (h : receiverStep X cfg ⟨pc, disk⟩ l = some (s', msg)) :
    ReceiverMove X cfg disk pc l s' msg := by
  cases l with
  | manifest m =>
    cases pc <;> simp only [receiverStep, reduceCtorEq] at h
    split at h
    · next hf => cases h; exact .refused hf
    · next hf => cases h; exact .accepted hf
  | ack =>
    cases pc <;> simp only [receiverStep, reduceCtorEq] at h
    cases h
    exact .acked
  | openPart =>
    cases pc <;> simp only [receiverStep, reduceCtorEq] at h
    cases h
    exact .opened
  | setLen =>
    cases pc <;> simp only [receiverStep, reduceCtorEq] at h
    split at h
    · next heq hpart =>
      cases heq
      cases h
      exact .sized hpart
    · cases h
  | frame viaStream wire =>
    cases pc <;> simp only [receiverStep, reduceCtorEq] at h
    split at h
    · next hroom =>
      split at h
      · next hrun => cases h; exact .rejected hroom hrun
      · next hrun => cases h; exact .ingested hroom hrun
    · cases h
  | saveState =>
    cases pc <;> simp only [receiverStep, reduceCtorEq] at h
    cases h
    exact .saved
  | incomplete =>
    cases pc <;> simp only [receiverStep, reduceCtorEq] at h
    split at h
    · next hmissing => cases h; exact .gaveUp hmissing
    · cases h
  | finishLoop =>
    cases pc <;> simp only [receiverStep, reduceCtorEq] at h
    split at h
    · next heq hpart =>
      split at h
      · cases h
      · next hall =>
        cases heq
        cases h
        exact .finished hpart (Nat.not_lt.mp hall)
    · cases h
  | complete c =>
    cases pc <;> simp only [receiverStep, reduceCtorEq] at h
    cases h
    exact .judged
  | rename =>
    cases pc <;> simp only [receiverStep, reduceCtorEq] at h
    split at h
    · next hpart => cases h; exact .renamed hpart
    · cases h
  | removeState succeeds =>
    cases pc <;> simp only [receiverStep, reduceCtorEq] at h
    cases h
    exact .cleaned
  | fail =>
    simp only [receiverStep] at h
    split at h
    · next e hfail => cases h; exact .failed hfail
    · cases h

end Moves

end ScTransport
