import ScTransport.Session.Receiver
import ScTransport.Infra.Lts

/-!
# The completion handshake

One `FileSender::send` against one `FileReceiver::accept_transfer`. The control stream is two
queues; what arrives on the data plane is arbitrary. Any operation on either side may fail at
any point.

* `Promised` — the receiver has sent a successful `FinalAck`; only the rename can fail now
* `completion_agrees` — both sides agree on success in the runs in which the rename does not fail
-/

namespace ScTransport

open Infra

/-! ## The sender -/

inductive SenderPc where
  | start
  | awaitAck
  | sending (skip : Finset Nat)
  | awaitFinal
  | done (result : Except SendError Unit)

inductive SenderLabel where
  | sendManifest
  | readAck
  | sendComplete
  | readFinal
  | lostFinal
  | fail
  deriving DecidableEq

/-- Messages to the receiver. -/
inductive ToReceiver where
  | manifest (m : TransferManifest)
  | complete (c : TransferComplete)

/-! ## Both parties -/

structure Handshake where
  sender : SenderPc
  toReceiver : List ToReceiver
  session : Session
  toSender : List ToSender

inductive HandshakeLabel where
  | sender (l : SenderLabel)
  | deliver
  | receiver (l : ReceiverLabel)

/-- What `send` makes of the final acknowledgement. -/
def finalResult (ack : FinalAck) : Except SendError Unit :=
  if ack.success then .ok () else .error (.verificationFailed ack.message)

def senderStep (X : Crates) (t : Transfer) (w : Handshake) : SenderLabel → Option Handshake
  | .sendManifest =>
    match w.sender with
    | .start =>
      some { w with
        sender := .awaitAck
        toReceiver := w.toReceiver ++ [.manifest (t.manifest X)] }
    | _ => none
  | .readAck =>
    match w.sender, w.toSender with
    | .awaitAck, .manifestAck ack :: rest =>
      match senderSkip X t.cfg t.src.bytes (t.manifest X) ack with
      | .error e => some { w with sender := .done (.error e), toSender := rest }
      | .ok skip => some { w with sender := .sending skip, toSender := rest }
    | _, _ => none
  | .sendComplete =>
    match w.sender with
    | .sending _ =>
      some { w with
        sender := .awaitFinal
        toReceiver := w.toReceiver ++ [.complete ⟨(t.manifest X).transferId⟩] }
    | _ => none
  | .readFinal =>
    match w.sender, w.toSender with
    | .awaitFinal, .finalAck ack :: rest =>
      some { w with sender := .done (finalResult ack), toSender := rest }
    | _, _ => none
  | .lostFinal =>
    -- the receiver is gone and has left nothing to read
    match w.sender, w.session.pc, w.toSender with
    | .awaitFinal, .done _, [] =>
      some { w with
        sender := .done (if t.cfg.requireFinalAck then .error .missingFinalAck else .ok ()) }
    | _, _, _ => none
  | .fail =>
    match w.sender with
    | .done _ => none
    | _ => some { w with sender := .done (.error .fileOperation) }

/-- A receiver step inside the handshake: its message is queued for the sender. -/
def Handshake.receive (X : Crates) (cfg : ReceiverConfig) (w : Handshake) (l : ReceiverLabel)
    (rest : List ToReceiver) : Option Handshake :=
  match receiverStep X cfg w.session l with
  | none => none
  | some (session, msg) =>
    some { w with toReceiver := rest, session := session, toSender := w.toSender ++ msg.toList }

/-- The two parties; what they read from the control stream is what the other one wrote. -/
def handshake (X : Crates) (t : Transfer) (cfg : ReceiverConfig) :
    Lts Handshake HandshakeLabel where
  step w
    | .sender l => senderStep X t w l
    | .deliver =>
      match w.toReceiver with
      | .manifest m :: rest => w.receive X cfg (.manifest m) rest
      | .complete c :: rest => w.receive X cfg (.complete c) rest
      | [] => none
    | .receiver (.manifest _) => none
    | .receiver (.complete _) => none
    | .receiver l => w.receive X cfg l w.toReceiver

/-- Nothing has happened yet; the receiver may find any files. -/
def Handshake.init (disk : Disk) : Handshake := ⟨.start, [], ⟨.awaitManifest, disk⟩, []⟩

/-! ## What the receiver guarantees -/

/-- The receiver has acknowledged success. -/
def Promised : ReceiverPc → Prop
  | .beforeRename => True
  | .afterRename => True
  | .done (.ok ()) => True
  | .done (.error .rename) => True
  | _ => False

/-- What is on disk at each point of an honest session. -/
def Certified (X : Crates) (t : Transfer) (s : Session) : Prop :=
  match s.pc with
  | .awaitManifest => True
  | .acking m _ => m = t.manifest X
  | .opening m _ _ => m = t.manifest X
  | .sizing m _ _ => m = t.manifest X
  | .receiving m _ _ _ => m = t.manifest X
  | .saving m _ _ _ => m = t.manifest X
  | .awaitComplete m fullHash => m = t.manifest X ∧
      ∃ file, s.disk.part = some file ∧ fullHash = X.blake3 file
  | .beforeRename => s.disk.part = some t.src.bytes
  | .afterRename => s.disk.final = some t.src.bytes
  | .done (.ok ()) => s.disk.final = some t.src.bytes
  | .done (.error _) => True

/-- A successful acknowledgement. -/
def ToSender.IsSuccess : ToSender → Prop
  | .finalAck ack => ack.success = true
  | .manifestAck _ => False

section Receiver

variable {X : Crates} {t : Transfer} {cfg : ReceiverConfig}

/-- A successful acknowledgement goes with the rename, a failed one with an error. -/
theorem verdict_cases (cfg : ReceiverConfig) (m : TransferManifest) (fullHash : Digest)
    (c : TransferComplete) :
    (verdict cfg m fullHash c).1 = .beforeRename ∧
      (cfg.verifyChecksums = true → fullHash = m.fileChecksum) ∨
    (∃ e, (verdict cfg m fullHash c).1 = .done (.error e)) ∧
      (verdict cfg m fullHash c).2.success = false := by
  unfold verdict
  split
  · exact Or.inr ⟨⟨_, rfl⟩, rfl⟩
  · split
    · exact Or.inr ⟨⟨_, rfl⟩, rfl⟩
    · next hok =>
      refine Or.inl ⟨rfl, fun hver => ?_⟩
      by_contra hne
      exact hok ⟨hver, hne⟩

/--
**One step of the receiver keeps its guarantee.**

The hash check is what turns an arbitrary part file into the source file.
-/
theorem receiverStep_certified (hver : cfg.verifyChecksums = true)
    (hblake : ∀ file, X.blake3 file = X.blake3 t.src.bytes → file = t.src.bytes)
    {s s' : Session} {l : ReceiverLabel} {msg : Option ToSender}
    (hm : ∀ m, l = .manifest m → m = t.manifest X) (h : Certified X t s)
    (hs : receiverStep X cfg s l = some (s', msg)) :
    Certified X t s' ∧ (Promised s.pc → Promised s'.pc) ∧
      ∀ a, msg = some a → a.IsSuccess → Promised s'.pc := by
  obtain ⟨pc, disk⟩ := s
  cases ReceiverMove.of_step hs with
  | refused hf => exact ⟨trivial, False.elim, nofun⟩
  | accepted hf => exact ⟨hm _ rfl, False.elim, nofun⟩
  | acked => exact ⟨h, False.elim, fun a ha hsucc => by cases ha; exact hsucc.elim⟩
  | opened => exact ⟨h, False.elim, nofun⟩
  | sized _ => exact ⟨h, False.elim, nofun⟩
  | rejected _ _ => exact ⟨trivial, False.elim, nofun⟩
  | ingested _ _ => exact ⟨h, False.elim, nofun⟩
  | saved => exact ⟨h, False.elim, nofun⟩
  | gaveUp _ => exact ⟨trivial, False.elim, nofun⟩
  | finished hpart _ => exact ⟨⟨h, _, hpart, rfl⟩, False.elim, nofun⟩
  | @judged _ _ c =>
    obtain ⟨rfl, file, hpart, rfl⟩ := h
    rcases verdict_cases cfg (t.manifest X) (X.blake3 file) c with ⟨hpc, hhash⟩ | ⟨⟨e, hpc⟩, hno⟩
    · -- the part file has the announced hash, so it is the source file
      have hfile : file = t.src.bytes := hblake file (hhash hver)
      rw [hpc]
      refine ⟨?_, fun _ => trivial, fun _ _ _ => trivial⟩
      show disk.part = some t.src.bytes
      rw [hpart, hfile]
    · rw [hpc]
      refine ⟨trivial, False.elim, fun a ha hsucc => ?_⟩
      cases ha
      rw [ToSender.IsSuccess, hno] at hsucc
      cases hsucc
  | renamed hpart =>
    have hsrc : disk.part = some t.src.bytes := h
    rw [hpart] at hsrc
    exact ⟨hsrc, fun _ => trivial, nofun⟩
  | @cleaned succeeds =>
    have hfinal : disk.final = some t.src.bytes := h
    refine ⟨?_, fun _ => trivial, nofun⟩
    cases succeeds <;> exact hfinal
  | failed hfail =>
    refine ⟨trivial, fun hp => ?_, nofun⟩
    -- of the points behind a successful acknowledgement only the rename can fail
    cases pc <;> first | exact hp.elim | cases hfail
    trivial

end Receiver

/-! ## The whole handshake -/

section Run

variable {X : Crates} {t : Transfer} {cfg : ReceiverConfig}

/-- The invariant of every run. -/
structure Handshake.Inv (X : Crates) (t : Transfer) (w : Handshake) : Prop where
  certified : Certified X t w.session
  manifests : ∀ m, ToReceiver.manifest m ∈ w.toReceiver → m = t.manifest X
  queued : ∀ a ∈ w.toSender, a.IsSuccess → Promised w.session.pc
  accepted : w.sender = .done (.ok ()) → Promised w.session.pc

theorem Handshake.Inv.receive (hver : cfg.verifyChecksums = true)
    (hblake : ∀ file, X.blake3 file = X.blake3 t.src.bytes → file = t.src.bytes)
    {w w' : Handshake} {l : ReceiverLabel} {rest : List ToReceiver}
    (hm : ∀ m, l = .manifest m → m = t.manifest X) (hrest : ∀ x ∈ rest, x ∈ w.toReceiver)
    (h : w.Inv X t) (hs : w.receive X cfg l rest = some w') : w'.Inv X t := by
  unfold Handshake.receive at hs
  cases hr : receiverStep X cfg w.session l with
  | none => rw [hr] at hs; cases hs
  | some r =>
    obtain ⟨session, msg⟩ := r
    rw [hr] at hs
    cases hs
    obtain ⟨hcert, hkeep, hmsg⟩ := receiverStep_certified hver hblake hm h.certified hr
    refine ⟨hcert, fun m hmem => h.manifests m (hrest _ hmem), ?_, fun hs => hkeep (h.accepted hs)⟩
    intro a ha hsucc
    rcases List.mem_append.mp ha with ha | ha
    · exact hkeep (h.queued a ha hsucc)
    · exact hmsg a (Option.mem_toList.mp ha) hsucc

/-- A sender step neither touches the receiver nor announces another manifest. -/
theorem Handshake.Inv.senderStep (hreq : t.cfg.requireFinalAck = true) {w w' : Handshake}
    {l : SenderLabel} (h : w.Inv X t) (hs : senderStep X t w l = some w') : w'.Inv X t := by
  obtain ⟨sender, toReceiver, session, toSender⟩ := w
  cases l with
  | sendManifest =>
    cases sender <;> simp only [ScTransport.senderStep, reduceCtorEq] at hs
    cases hs
    refine ⟨h.certified, fun m hmem => ?_, h.queued, nofun⟩
    rcases List.mem_append.mp hmem with hmem | hmem
    · exact h.manifests m hmem
    · simpa using hmem
  | readAck =>
    cases sender <;> simp only [ScTransport.senderStep, reduceCtorEq] at hs
    split at hs
    · split at hs
      · cases hs
        exact ⟨h.certified, h.manifests, fun a ha => h.queued a (List.mem_cons_of_mem _ ha), nofun⟩
      · cases hs
        exact ⟨h.certified, h.manifests, fun a ha => h.queued a (List.mem_cons_of_mem _ ha), nofun⟩
    · cases hs
  | sendComplete =>
    cases sender <;> simp only [ScTransport.senderStep, reduceCtorEq] at hs
    cases hs
    refine ⟨h.certified, fun m hmem => ?_, h.queued, nofun⟩
    rcases List.mem_append.mp hmem with hmem | hmem
    · exact h.manifests m hmem
    · simp at hmem
  | readFinal =>
    cases sender <;> simp only [ScTransport.senderStep, reduceCtorEq] at hs
    split at hs
    · next ack rest _ =>
      cases hs
      refine ⟨h.certified, h.manifests, fun a ha => h.queued a (List.mem_cons_of_mem _ ha), ?_⟩
      intro hok
      refine h.queued (.finalAck ack) List.mem_cons_self ?_
      cases hsucc : ack.success with
      | true => exact hsucc
      | false => simp [finalResult, hsucc] at hok
    · cases hs
  | lostFinal =>
    simp only [ScTransport.senderStep] at hs
    split at hs
    · cases hs
      refine ⟨h.certified, h.manifests, h.queued, fun hok => ?_⟩
      simp [hreq] at hok
    · cases hs
  | fail =>
    cases sender <;> simp only [ScTransport.senderStep, reduceCtorEq] at hs <;>
    · cases hs
      exact ⟨h.certified, h.manifests, h.queued, nofun⟩

theorem Handshake.Inv.step (hreq : t.cfg.requireFinalAck = true)
    (hver : cfg.verifyChecksums = true)
    (hblake : ∀ file, X.blake3 file = X.blake3 t.src.bytes → file = t.src.bytes)
    {w w' : Handshake} {l : HandshakeLabel} (h : w.Inv X t)
    (hs : (handshake X t cfg).step w l = some w') : w'.Inv X t := by
  cases l with
  | sender l => exact h.senderStep hreq hs
  | deliver =>
    simp only [handshake] at hs
    split at hs
    · next m rest hq =>
      refine h.receive hver hblake (fun m' hm' => ?_)
        (fun x hx => by rw [hq]; exact List.mem_cons_of_mem _ hx) hs
      cases hm'
      exact h.manifests m (by rw [hq]; exact List.mem_cons_self)
    · next c rest hq =>
      exact h.receive hver hblake (fun m hm => by cases hm)
        (fun x hx => by rw [hq]; exact List.mem_cons_of_mem _ hx) hs
    · cases hs
  | receiver l =>
    cases l <;> simp only [handshake, reduceCtorEq] at hs <;>
    exact h.receive hver hblake (fun m hm => by cases hm) (fun x hx => hx) hs

/-- Any operation of either side may fail but the rename. -/
def RenameSucceeds (w : Handshake) (l : HandshakeLabel) : Prop :=
  l = .receiver .fail → w.session.pc ≠ .beforeRename

/-- The rename is not attempted elsewhere, so `accept_transfer` does not fail in it. -/
theorem receiverStep_rename {s s' : Session} {l : ReceiverLabel} {msg : Option ToSender}
    (hl : l = .fail → s.pc ≠ .beforeRename)
    (hs : receiverStep X cfg s l = some (s', msg)) : s'.pc ≠ .done (.error .rename) := by
  obtain ⟨pc, disk⟩ := s
  cases ReceiverMove.of_step hs with
  | @judged m fullHash c =>
    unfold verdict
    split
    · nofun
    · split <;> nofun
  | failed hfail =>
    have hpc := hl rfl
    cases pc <;> cases hfail <;> first | exact absurd rfl hpc | nofun
  | _ => nofun

theorem Handshake.receive_rename {w w' : Handshake} {l : ReceiverLabel} {rest : List ToReceiver}
    (hl : l = .fail → w.session.pc ≠ .beforeRename) (hs : w.receive X cfg l rest = some w') :
    w'.session.pc ≠ .done (.error .rename) := by
  unfold Handshake.receive at hs
  cases hr : receiverStep X cfg w.session l with
  | none => rw [hr] at hs; cases hs
  | some r =>
    rw [hr] at hs
    cases hs
    exact receiverStep_rename hl hr

theorem senderStep_session {w w' : Handshake} {l : SenderLabel}
    (hs : senderStep X t w l = some w') : w'.session = w.session := by
  unfold senderStep at hs
  repeat' split at hs
  all_goals cases hs
  all_goals rfl

theorem Handshake.step_rename {w w' : Handshake} {l : HandshakeLabel}
    (hl : RenameSucceeds w l) (h : w.session.pc ≠ .done (.error .rename))
    (hs : (handshake X t cfg).step w l = some w') : w'.session.pc ≠ .done (.error .rename) := by
  cases l with
  | sender l =>
    rw [senderStep_session hs]
    exact h
  | deliver =>
    simp only [handshake] at hs
    split at hs
    · exact Handshake.receive_rename (fun hfail => by cases hfail) hs
    · exact Handshake.receive_rename (fun hfail => by cases hfail) hs
    · cases hs
  | receiver l =>
    have hl' : l = .fail → w.session.pc ≠ .beforeRename := fun hfail => hl (hfail ▸ rfl)
    cases l <;> simp only [handshake, reduceCtorEq] at hs <;>
    exact Handshake.receive_rename hl' hs

theorem Handshake.reach_rename {disk : Disk} {w : Handshake}
    (hrun : (handshake X t cfg).Reach RenameSucceeds (Handshake.init disk) w) :
    w.session.pc ≠ .done (.error .rename) := by
  induction hrun with
  | refl => nofun
  | step _ hl hstep ih => exact Handshake.step_rename hl ih hstep

/--
**Success is agreed if the rename does not fail.**

Any other operation of either side may fail at any point. When `accept_transfer` has returned, a
sender that got its acknowledgement has its file in place, and if `accept_transfer` has failed,
`send` has not returned `Ok` and, the state being any of the run, never will.
-/
theorem completion_agrees (hreq : t.cfg.requireFinalAck = true) (hver : cfg.verifyChecksums = true)
    (hblake : ∀ file, X.blake3 file = X.blake3 t.src.bytes → file = t.src.bytes)
    {disk : Disk} {w : Handshake}
    (hrun : (handshake X t cfg).Reach RenameSucceeds (Handshake.init disk) w)
    {received : Except SessionError Unit} (hreceived : w.session.pc = .done received) :
    (w.sender = .done (.ok ()) → w.session.disk.final = some t.src.bytes) ∧
      ((∃ e, received = .error e) → w.sender ≠ .done (.ok ())) := by
  have hinv : w.Inv X t :=
    hrun.invariant ⟨trivial, nofun, nofun, nofun⟩ fun hs _ hstep => hs.step hreq hver hblake hstep
  have hrename := Handshake.reach_rename hrun
  -- a sender that succeeded leaves the receiver only one way to end
  have hend : w.sender = .done (.ok ()) → received = .ok () := by
    intro hok
    have hprom := hinv.accepted hok
    rw [hreceived] at hprom hrename
    cases received with
    | ok => rfl
    | error e =>
      cases e <;> first | exact hprom.elim | exact absurd rfl hrename
  have hcert := hinv.certified
  refine ⟨fun hok => ?_, ?_⟩
  · rw [Certified, hreceived, hend hok] at hcert
    exact hcert
  · rintro ⟨e, he⟩ hok
    rw [hend hok] at he
    cases he

end Run

/-! ## A complete run -/

/-- What `send` and `accept_transfer` returned, and the file that is left. -/
def Handshake.outcome (w : Handshake) :
    Option (Except SendError Unit × Except SessionError Unit) × Option Bytes :=
  match w.sender, w.session.pc with
  | .done sent, .done received => (some (sent, received), w.session.disk.final)
  | _, _ => (none, w.session.disk.final)

theorem Handshake.outcome_eq {w : Handshake} {sent : Except SendError Unit}
    {received : Except SessionError Unit} {final : Option Bytes}
    (h : w.outcome = (some (sent, received), final)) :
    w.sender = .done sent ∧ w.session.pc = .done received ∧ w.session.disk.final = final := by
  unfold Handshake.outcome at h
  split at h
  · next hs hr =>
    simp only [Prod.mk.injEq, Option.some.injEq] at h
    obtain ⟨⟨rfl, rfl⟩, rfl⟩ := h
    exact ⟨hs, hr, rfl⟩
  · cases h

/-- The sample is sent and acknowledged; the receiver is about to rename the part file. -/
def sampleHandshake : List HandshakeLabel :=
  [.sender .sendManifest, .deliver, .receiver .ack, .sender .readAck, .receiver .openPart,
    .receiver .setLen, .receiver (.frame true (sampleFrame 1)), .receiver .saveState,
    .receiver (.frame false (sampleFrame 0)), .receiver .saveState, .receiver .finishLoop,
    .sender .sendComplete, .deliver, .sender .readFinal]

/-- The run above, continued by the given steps, ends as told. -/
def SampleEnds (rest : List HandshakeLabel) (sent : Except SendError Unit)
    (received : Except SessionError Unit) (final : Option Bytes) : Prop :=
  ∃ w, (handshake Crates.reference sample ⟨true, false⟩).exec (Handshake.init ⟨none, none, none⟩)
      (sampleHandshake ++ rest) = some w ∧
    w.sender = .done sent ∧ w.session.pc = .done received ∧ w.session.disk.final = final

theorem SampleEnds.of_outcome {rest : List HandshakeLabel} {sent : Except SendError Unit}
    {received : Except SessionError Unit} {final : Option Bytes}
    (h : ((handshake Crates.reference sample ⟨true, false⟩).exec
      (Handshake.init ⟨none, none, none⟩) (sampleHandshake ++ rest)).map Handshake.outcome
      = some (some (sent, received), final)) : SampleEnds rest sent received final := by
  obtain ⟨w, hw, hout⟩ := Option.map_eq_some_iff.mp h
  exact ⟨w, hw, Handshake.outcome_eq hout⟩

/-- The rename succeeds: the sender reports success, and the file is there. -/
theorem sample_completion_agrees :
    ∃ w, (handshake Crates.reference sample ⟨true, false⟩).Reach RenameSucceeds
        (Handshake.init ⟨none, none, none⟩) w ∧
      w.sender = .done (.ok ()) ∧ w.session.pc = .done (.ok ()) ∧
      w.session.disk.final = some sample.src.bytes := by
  obtain ⟨w, hexec, hsent, hreceived, -⟩ : SampleEnds
      [.receiver .rename, .receiver (.removeState true)] (.ok ()) (.ok ()) (some [97, 98, 99]) :=
    .of_outcome (by decide +kernel)
  have hrun : (handshake Crates.reference sample ⟨true, false⟩).Reach RenameSucceeds
      (Handshake.init ⟨none, none, none⟩) w := by
    refine .of_exec_forall (fun l hl _ hfail => ?_) hexec
    subst hfail
    simp [sampleHandshake] at hl
  have hagrees := completion_agrees (t := sample) rfl rfl (fun file h => sample_blake3 0 3 file h)
    hrun hreceived
  exact ⟨w, hrun, hsent, hreceived, hagrees.1 hsent⟩

/-- The rename fails: the sender has reported success, the receiver fails, and no file exists. -/
theorem sample_completion_disagrees :
    SampleEnds [.receiver .fail] (.ok ()) (.error .rename) none :=
  .of_outcome (by decide +kernel)

end ScTransport
