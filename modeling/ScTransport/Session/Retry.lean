import ScTransport.Receiver.Placement
import ScTransport.Receiver.Refill
import ScTransport.Session.Attempts

/-!
# The attempt after a failed verification

When the hash of the received file is not the announced one, `accept_transfer` returns an error
and leaves both files behind. The state file lists what was counted, so the next attempt takes
the same chunks as received, and the sender skips them.

* `attempt` — the receiver's side of one more attempt
* `retry_iff` — from which files it succeeds
* `retry_after_mismatch_iff` — the files left by a run that failed
* `mismatch_wedges` — after a run whose frames were made for their places, no attempt succeeds
-/

namespace ScTransport

open Infra

/-! ## One more attempt -/

/-- The receiver on its own. -/
def receiver (X : Crates) (cfg : ReceiverConfig) : Lts Session ReceiverLabel :=
  ⟨fun s l => (receiverStep X cfg s l).map Prod.fst⟩

/-- `resume_partial` and `verify_checksums`. -/
def resuming : ReceiverConfig := ⟨true, true⟩

/-- The receive loop is not over. -/
def Session.reading (s : Session) : Bool :=
  match s.pc with
  | .receiving m _ st _ => decide (st.received.card < m.numChunks)
  | _ => false

/-- The receive loop on frames that arrive on streams or as datagrams. What comes after its end
is not read. -/
def readFrames (X : Crates) : List (Bool × Bytes) → Session → Option Session
  | [], s => some s
  | (viaStream, wire) :: rest, s =>
    if s.reading then
      match (receiver X resuming).exec s [.frame viaStream wire, .saveState] with
      | none => none
      | some s' => readFrames X rest s'
    else some s

/-- An attempt at `t` with these frames, up to the verdict; `none` if the loop does not end. -/
def attempt (X : Crates) (t : Transfer) (disk : Disk) (frames : List (Bool × Bytes)) :
    Option Session :=
  ((receiver X resuming).exec ⟨.awaitManifest, disk⟩
    [.manifest (t.manifest X), .ack, .openPart, .setLen]).bind fun s₁ =>
  (readFrames X frames s₁).bind fun s₂ =>
  (receiver X resuming).exec s₂ [.finishLoop, .complete ⟨(t.manifest X).transferId⟩]

/-- The frames of an honest sender that skips `skip`, with every other chunk among them. -/
structure Delivers (t : Transfer) (X : Crates) (skip : Finset Nat)
    (frames : List (Bool × Bytes)) : Prop where
  sent : ∀ f ∈ frames, SentFrame t X skip f.2
  guarded : ∀ f ∈ frames, PassesGuards X (t.manifest X) f.2
  streams : frames.countP Prod.fst ≤ maxStreams (t.manifest X)
  all : ∀ i, i < t.numChunks → i ∉ skip → ∃ f ∈ frames, t.chunkFrame X i = some f.2

/-- What the sender of `t` skips when the receiver has these files. -/
def skipFor (X : Crates) (t : Transfer) (disk : Disk) : Except SendError (Finset Nat) :=
  senderSkip X t.cfg t.src.bytes (t.manifest X) (manifestAck X true (t.manifest X) disk)

/-- Every attempt at `t` in which all chunks that are not skipped are delivered ends with the
right checksum. -/
def RetrySucceeds (X : Crates) (t : Transfer) (disk : Disk) : Prop :=
  ∀ skip frames, skipFor X t disk = .ok skip → Delivers t X skip frames →
    ∃ s, attempt X t disk frames = some s ∧ s.pc = .beforeRename

/-- The part file as the next attempt opens it. -/
def reopened (X : Crates) (t : Transfer) (disk : Disk) : Bytes :=
  resize (openedPart resuming disk) (t.manifest X).totalSize

/-- What the next attempt has counted when everything was delivered. -/
def countedAfter (t : Transfer) (skip : Finset Nat) (disk : Disk) : Finset Nat :=
  loadReceived true disk ∪ (Finset.range t.numChunks \ skip)

/-- Files from which the next attempt succeeds. -/
structure Resumable (X : Crates) (t : Transfer) (skip : Finset Nat) (disk : Disk) : Prop where
  enough : t.numChunks ≤ (countedAfter t skip disk).card
  recorded : ∀ i ∈ loadReceived true disk, i < t.numChunks →
    t.chunkIn (reopened X t disk) i = t.raw i
  -- with more indices than chunks the loop may end before the last chunk has come
  surplus : t.numChunks < (countedAfter t skip disk).card → reopened X t disk = t.src.bytes

/-! ## The receive loop -/

section Loop

variable {X : Crates} {t : Transfer} {disk : Disk} {skip record : Finset Nat} {file : Bytes}

theorem readFrames_cons (viaStream : Bool) (wire : Bytes) (rest : List (Bool × Bytes))
    (s : Session) :
    readFrames X ((viaStream, wire) :: rest) s =
      if s.reading then ((receiver X resuming).exec s [.frame viaStream wire, .saveState]).bind
        (readFrames X rest)
      else some s := by
  rw [readFrames]
  cases (receiver X resuming).exec s [.frame viaStream wire, .saveState] <;> rfl

/-- A loop that is over reads nothing. -/
theorem readFrames_of_not_reading {s : Session} (h : s.reading = false)
    (frames : List (Bool × Bytes)) : readFrames X frames s = some s := by
  cases frames with
  | nil => rfl
  | cons f rest =>
    rw [readFrames_cons, h]
    rfl

theorem readFrames_append (a b : List (Bool × Bytes)) (s : Session) :
    readFrames X (a ++ b) s = (readFrames X a s).bind (readFrames X b) := by
  induction a generalizing s with
  | nil => rfl
  | cons f rest ih =>
    rw [List.cons_append, readFrames_cons, readFrames_cons]
    cases hread : s.reading with
    | false => exact (readFrames_of_not_reading hread b).symm
    | true =>
      simp only [if_true]
      cases (receiver X resuming).exec s [.frame f.1 f.2, .saveState] with
      | none => rfl
      | some s' => exact ih s'

/-- One frame, and the state file that may be written after it. -/
theorem exec_frame (disk : Disk) {m : TransferManifest} {fecRs : Option ReedSolomon}
    {st st' : IngestState} {accepted g : Nat} {viaStream : Bool} {wire : Bytes}
    (hread : st.received.card < m.numChunks)
    (hroom : viaStream = true → accepted < maxStreams m)
    (h : ingestWireFrame X wire m fecRs true ∅ st = .ok (g, st')) :
    ∃ disk', disk'.part = some st'.out ∧
      (receiver X resuming).exec ⟨.receiving m fecRs st accepted, disk⟩
          [.frame viaStream wire, .saveState]
        = some ⟨.receiving m fecRs st' (if viaStream then accepted + 1 else accepted), disk'⟩ := by
  have hok : ingestWireFrame X wire m fecRs resuming.verifyChecksums ∅ st = .ok (g, st') := h
  simp only [Lts.exec, receiver, receiverStep, if_pos (And.intro hread hroom), hok,
    Option.map_some]
  refine ⟨_, ?_, rfl⟩
  split <;> rfl

/--
**The loop on top of any record.** It reads frame after frame until it has enough indices; if it
never has, every chunk that was delivered is received.
-/
theorem readFrames_refills (hX : X.Lawful) (hrs : t.Decodable X) (frames : List (Bool × Bytes))
    (hsent : ∀ f ∈ frames, SentFrame t X skip f.2)
    (hguard : ∀ f ∈ frames, PassesGuards X (t.manifest X) f.2) {st : IngestState} {accepted : Nat}
    (hroom : accepted + frames.countP Prod.fst ≤ maxStreams (t.manifest X))
    (h : Refilling t X skip record file st) (hpart : disk.part = some st.out) :
    ∃ st' accepted' disk', readFrames X frames
        ⟨.receiving (t.manifest X) t.coder st accepted, disk⟩
        = some ⟨.receiving (t.manifest X) t.coder st' accepted', disk'⟩ ∧
      disk'.part = some st'.out ∧ Refilling t X skip record file st' ∧
      st.received ⊆ st'.received ∧
      (t.numChunks ≤ st'.received.card ∨ ∀ f ∈ frames, ∀ i, i < t.numChunks → i ∉ skip →
        t.chunkFrame X i = some f.2 → i ∈ st'.received) := by
  induction frames generalizing st accepted disk with
  | nil => exact ⟨st, accepted, disk, rfl, hpart, h, subset_rfl, Or.inr nofun⟩
  | cons f rest ih =>
    obtain ⟨viaStream, wire⟩ := f
    by_cases hread : st.received.card < t.numChunks
    · obtain ⟨g, st₁, hrun, href, hsub, hmem⟩ := ingest_refills hX hrs true h
        (hsent _ List.mem_cons_self) (hguard _ List.mem_cons_self)
      rw [List.countP_cons] at hroom
      have hstream : viaStream = true → accepted < maxStreams (t.manifest X) := by
        rintro rfl
        simp only [if_true] at hroom
        omega
      have hroom' : (if viaStream then accepted + 1 else accepted) + rest.countP Prod.fst
          ≤ maxStreams (t.manifest X) := by
        cases viaStream
        · exact hroom
        · simp only [if_true] at hroom ⊢
          omega
      have hreading : (Session.mk (.receiving (t.manifest X) t.coder st accepted) disk).reading
          = true := decide_eq_true hread
      obtain ⟨disk₁, hpart₁, hexec⟩ := exec_frame disk hread hstream hrun
      obtain ⟨st', accepted', disk', hrest, hpart', href', hsub', hor⟩ := ih
        (fun f hf => hsent f (List.mem_cons_of_mem _ hf))
        (fun f hf => hguard f (List.mem_cons_of_mem _ hf)) hroom' href hpart₁
      refine ⟨st', accepted', disk', ?_, hpart', href', hsub.trans hsub', ?_⟩
      · rw [readFrames_cons, if_pos hreading, hexec]
        exact hrest
      · refine hor.imp_right fun hall f hf => ?_
        rcases List.mem_cons.mp hf with rfl | hf
        · exact fun i hi hnot hw => hsub' (hmem i hi hnot hw)
        · exact hall f hf
    · have hreading : (Session.mk (.receiving (t.manifest X) t.coder st accepted) disk).reading
          = false := decide_eq_false hread
      exact ⟨st, accepted, disk, readFrames_of_not_reading hreading _, hpart, h, subset_rfl,
        Or.inl (Nat.not_lt.mp hread)⟩

end Loop

/-! ## From which files it succeeds -/

section Outcome

variable {X : Crates} {t : Transfer} {disk : Disk} {skip : Finset Nat}

/-- Up to the receive loop. -/
theorem exec_open (hrs : t.Decodable X) (disk : Disk) :
    (receiver X resuming).exec ⟨.awaitManifest, disk⟩
        [.manifest (t.manifest X), .ack, .openPart, .setLen]
      = some ⟨.receiving (t.manifest X) t.coder
          ⟨reopened X t disk, loadReceived true disk, fun _ => none⟩ 0,
        { disk with part := some (reopened X t disk) }⟩ := by
  simp only [Lts.exec, receiver, receiverStep, hrs.fecRsOf_eq, Option.map_some]
  rfl

theorem verdict_eq_beforeRename {m : TransferManifest} {fullHash : Digest} :
    (verdict resuming m fullHash ⟨m.transferId⟩).1 = .beforeRename ↔
      fullHash = m.fileChecksum := by
  by_cases hhash : fullHash = m.fileChecksum
  · simp [verdict, hhash]
  · simp [verdict, hhash, resuming]

/-- From the receive loop to the verdict. -/
theorem exec_finish {st : IngestState} {accepted : Nat} (hpart : disk.part = some st.out) :
    (receiver X resuming).exec ⟨.receiving (t.manifest X) t.coder st accepted, disk⟩
        [.finishLoop, .complete ⟨(t.manifest X).transferId⟩]
      = if st.received.card < t.numChunks then none
        else some ⟨(verdict resuming (t.manifest X) (X.blake3 st.out)
          ⟨(t.manifest X).transferId⟩).1, disk⟩ := by
  have hnum : (t.manifest X).numChunks = t.numChunks := rfl
  by_cases hcard : st.received.card < t.numChunks
  · simp only [Lts.exec, receiver, receiverStep, hpart, hnum, if_pos hcard, Option.map_none]
  · simp only [Lts.exec, receiver, receiverStep, hpart, hnum, if_neg hcard, Option.map_some]
    rfl

/-- Nothing is counted beyond the record and what is sent. -/
theorem Filled.received_subset {file : Bytes} {st : IngestState}
    (h : Filled t skip (loadReceived true disk) file st) :
    st.received ⊆ countedAfter t skip disk := by
  intro i hi
  by_cases hrec : i ∈ loadReceived true disk
  · exact Finset.mem_union_left _ hrec
  · obtain ⟨hlt, hnot⟩ := h.sent i hi hrec
    exact Finset.mem_union_right _ (Finset.mem_sdiff.mpr ⟨Finset.mem_range.mpr hlt, hnot⟩)

/--
**How an attempt ends.** Either the loop has enough indices and reads no more, or everything that
was delivered is counted. The verdict is on the file as it is then.
-/
theorem attempt_outcome (hX : X.Lawful) (hrs : t.Decodable X)
    (hblake : ∀ file, X.blake3 file = X.blake3 t.src.bytes → file = t.src.bytes)
    (disk : Disk) {frames : List (Bool × Bytes)} (hdel : Delivers t X skip frames) :
    ∃ st, Filled t skip (loadReceived true disk) (reopened X t disk) st ∧
      (t.numChunks ≤ st.received.card ∨ countedAfter t skip disk ⊆ st.received) ∧
      ((∃ s, attempt X t disk frames = some s ∧ s.pc = .beforeRename) ↔
        t.numChunks ≤ st.received.card ∧ st.out = t.src.bytes) ∧
      (t.numChunks ≤ st.received.card → ∀ more,
        attempt X t disk (frames ++ more) = attempt X t disk frames) := by
  have hinit : Refilling t X skip (loadReceived true disk) (reopened X t disk)
      ⟨reopened X t disk, loadReceived true disk, fun _ => none⟩ := .init (length_resize _ _)
  have hroom : 0 + frames.countP Prod.fst ≤ maxStreams (t.manifest X) := by
    rw [Nat.zero_add]
    exact hdel.streams
  have hopen : ({ disk with part := some (reopened X t disk) } : Disk).part
      = some (reopened X t disk) := rfl
  obtain ⟨st, accepted, disk', hread, hpart, href, hsub, hor⟩ := readFrames_refills hX hrs frames
    hdel.sent hdel.guarded hroom hinit hopen
  refine ⟨st, href.filled, ?_, ?_, ?_⟩
  · refine hor.imp_right fun hall => Finset.union_subset hsub fun i hi => ?_
    obtain ⟨hlt, hnot⟩ := Finset.mem_sdiff.mp hi
    obtain ⟨f, hf, hw⟩ := hdel.all i (Finset.mem_range.mp hlt) hnot
    exact hall f hf i (Finset.mem_range.mp hlt) hnot hw
  · unfold attempt
    rw [exec_open hrs, Option.bind_some, hread, Option.bind_some, exec_finish hpart]
    by_cases hcard : st.received.card < t.numChunks
    · rw [if_pos hcard]
      exact iff_of_false (fun ⟨_, hsome, _⟩ => nomatch hsome) fun h => by omega
    · rw [if_neg hcard]
      simp only [Option.some.injEq, exists_eq_left', verdict_eq_beforeRename]
      exact ⟨fun h => ⟨Nat.not_lt.mp hcard, hblake _ h⟩, fun h => h.2 ▸ rfl⟩
  · intro hcard more
    have hreading : (Session.mk (.receiving (t.manifest X) t.coder st accepted) disk').reading
        = false := decide_eq_false (Nat.not_lt.mpr hcard)
    unfold attempt
    rw [exec_open hrs, Option.bind_some, Option.bind_some, readFrames_append, hread,
      Option.bind_some, readFrames_of_not_reading hreading]

end Outcome

section Files

variable {X : Crates} {t : Transfer} {disk : Disk} {skip : Finset Nat}

theorem reopened_of_part {file : Bytes} (hpart : disk.part = some file) :
    reopened X t disk = resize file t.src.bytes.length := by
  unfold reopened openedPart
  rw [hpart]
  rfl

/-- The source has its own chunks. -/
theorem Transfer.chunkIn_src (t : Transfer) (i : Nat) : t.chunkIn t.src.bytes i = t.raw i := by
  unfold Transfer.chunkIn Transfer.raw
  rw [length_chunkRaw, slice_clip]
  rfl

/-- A chunk that is in the part file is still there when the file is opened again. -/
theorem HoldsChunk.chunkIn_reopened {file : Bytes} (hpart : disk.part = some file) {i : Nat}
    (h : HoldsChunk t.src t.cfg.chunkSize file i) : t.chunkIn (reopened X t disk) i = t.raw i := by
  rw [Transfer.chunkIn, reopened_of_part hpart]
  exact h.resize.2

/-- A chunk that is not counted when all is delivered was skipped. -/
theorem mem_skip_of_notMem_countedAfter {i : Nat} (hi : i < t.numChunks)
    (h : i ∉ countedAfter t skip disk) : i ∈ skip := by
  by_contra hnot
  refine h (Finset.mem_union_right _ ?_)
  exact Finset.mem_sdiff.mpr ⟨Finset.mem_range.mpr hi, hnot⟩

/-- What is skipped without being on record is in the part file. -/
theorem skipped_in_file (hlt : t.cfg.chunkSize < 2 ^ 32)
    (hblake : ∀ off len file, X.blake3 file = X.blake3 (slice t.src.bytes off len) →
      file = slice t.src.bytes off len)
    (hmem : ∀ j, j ∈ skip ↔ j ∈ loadReceived true disk ∨ j < t.numChunks ∧
      HashHit X t.cfg t.src.bytes (t.manifest X) (chunkHashes X true (t.manifest X) disk) j)
    {i : Nat} (hi : i ∈ skip) (hnot : i ∉ loadReceived true disk) :
    t.chunkIn (reopened X t disk) i = t.raw i := by
  obtain ⟨hlt', hhit⟩ := ((hmem i).mp hi).resolve_left hnot
  obtain ⟨file, hpart, hholds⟩ := hhit.holds hlt hblake hlt'
  exact hholds.chunkIn_reopened hpart

end Files

/-! ## Choosing frames -/

/-- The data frames of the chunks outside `skip`, each on its own stream. -/
def dataFrames (X : Crates) (t : Transfer) (skip : Finset Nat) : List (Bool × Bytes) :=
  ((List.range t.numChunks).filter (· ∉ skip)).map fun i => (true, (t.chunkFrame X i).getD [])

section Choice

variable {X : Crates} {t : Transfer} {skip : Finset Nat}

theorem mem_dataFrames (hframes : ∀ i, i < t.numChunks → ∃ w, t.chunkFrame X i = some w)
    {f : Bool × Bytes} : f ∈ dataFrames X t skip ↔
      ∃ i, i < t.numChunks ∧ i ∉ skip ∧ f.1 = true ∧ t.chunkFrame X i = some f.2 := by
  obtain ⟨viaStream, wire⟩ := f
  simp only [dataFrames, List.mem_map, List.mem_filter, List.mem_range, decide_eq_true_eq,
    Prod.mk.injEq]
  constructor
  · rintro ⟨i, ⟨hi, hnot⟩, rfl, rfl⟩
    obtain ⟨w, hw⟩ := hframes i hi
    exact ⟨i, hi, hnot, rfl, by rw [hw]; rfl⟩
  · rintro ⟨i, hi, hnot, rfl, hw⟩
    exact ⟨i, ⟨hi, hnot⟩, rfl, by rw [hw]; rfl⟩

theorem countP_dataFrames_le : (dataFrames X t skip).countP Prod.fst ≤ t.numChunks := by
  refine List.countP_le_length.trans ?_
  rw [dataFrames, List.length_map]
  exact (List.length_filter_le _ _).trans (by rw [List.length_range])

theorem countP_dataFrames_insert_lt {i : Nat} (hi : i < t.numChunks) :
    (dataFrames X t (insert i skip)).countP Prod.fst < t.numChunks := by
  refine List.countP_le_length.trans_lt ?_
  rw [dataFrames, List.length_map]
  have hlt : ((List.range t.numChunks).filter (· ∉ insert i skip)).length
      < (List.range t.numChunks).length := by
    rw [List.length_filter_lt_length_iff_exists]
    exact ⟨i, List.mem_range.mpr hi, by simp⟩
  rwa [List.length_range] at hlt

theorem numChunks_le_maxStreams (t : Transfer) (X : Crates) :
    t.numChunks ≤ maxStreams (t.manifest X) := by
  have hlt := t.numChunks_lt
  have hnum : (t.manifest X).numChunks = t.numChunks := rfl
  unfold maxStreams satAdd u64Max
  rw [hnum]
  omega

end Choice

section Iff

variable {X : Crates} {t : Transfer} {disk : Disk} {skip : Finset Nat}

variable (hX : X.Lawful) (hrs : t.Decodable X) (hpos : 0 < t.cfg.chunkSize)
  (hlt : t.cfg.chunkSize < 2 ^ 32)
  (hblake : ∀ off len file, X.blake3 file = X.blake3 (slice t.src.bytes off len) →
    file = slice t.src.bytes off len)
  (hmem : ∀ j, j ∈ skip ↔ j ∈ loadReceived true disk ∨ j < t.numChunks ∧
    HashHit X t.cfg t.src.bytes (t.manifest X) (chunkHashes X true (t.manifest X) disk) j)
  (hframes : ∀ i, i < t.numChunks →
    ∃ w, t.chunkFrame X i = some w ∧ PassesGuards X (t.manifest X) w)

include hframes in
/-- Data frames deliver. -/
theorem Delivers.of_dataFrames {frames : List (Bool × Bytes)}
    (hmem : ∀ f, f ∈ frames ↔ ∃ i, i < t.numChunks ∧ i ∉ skip ∧ f.1 = true ∧
      t.chunkFrame X i = some f.2) (hcount : frames.countP Prod.fst ≤ t.numChunks) :
    Delivers t X skip frames where
  sent := by
    intro f hf
    obtain ⟨i, hi, hnot, -, hw⟩ := (hmem f).mp hf
    exact .data hi hnot hw
  guarded := by
    intro f hf
    obtain ⟨i, hi, -, -, hw⟩ := (hmem f).mp hf
    obtain ⟨w, hw', hguard⟩ := hframes i hi
    rw [hw] at hw'
    cases hw'
    exact hguard
  streams := hcount.trans (numChunks_le_maxStreams t X)
  all := by
    intro i hi hnot
    obtain ⟨w, hw, -⟩ := hframes i hi
    exact ⟨(true, w), (hmem _).mpr ⟨i, hi, hnot, rfl, hw⟩, hw⟩

include hframes in
/-- All chunks that are sent, in order. -/
theorem delivers_dataFrames (skip : Finset Nat) :
    Delivers t X skip (dataFrames X t skip) :=
  .of_dataFrames hframes (fun _ => mem_dataFrames fun i hi => (hframes i hi).imp fun _ h => h.1)
    countP_dataFrames_le

include hframes in
/-- All chunks that are sent, with chunk `i` as the last one. -/
theorem delivers_last {i : Nat} (hi : i < t.numChunks) (hskip : i ∉ skip) {w : Bytes}
    (hw : t.chunkFrame X i = some w) :
    Delivers t X skip (dataFrames X t (insert i skip) ++ [(true, w)]) := by
  refine .of_dataFrames hframes (fun f => ?_) ?_
  · rw [List.mem_append, mem_dataFrames fun i hi => (hframes i hi).imp fun _ h => h.1,
      List.mem_singleton]
    constructor
    · rintro (⟨j, hj, hnot, hrest⟩ | rfl)
      · exact ⟨j, hj, fun hmem => hnot (Finset.mem_insert_of_mem hmem), hrest⟩
      · exact ⟨i, hi, hskip, rfl, hw⟩
    · rintro ⟨j, hj, hnot, hstream, hwj⟩
      by_cases hji : j = i
      · subst hji
        rw [hw, Option.some.injEq] at hwj
        exact Or.inr (Prod.ext hstream hwj.symm)
      · exact Or.inl ⟨j, hj, by simp [hji, hnot], hstream, hwj⟩
  · have hcount : (dataFrames X t (insert i skip)).countP Prod.fst < t.numChunks :=
      countP_dataFrames_insert_lt hi
    rw [List.countP_append]
    simp only [List.countP_singleton, if_true]
    omega

/-- One chunk less is one index less. -/
theorem card_countedAfter_insert (t : Transfer) (skip : Finset Nat) (disk : Disk) (i : Nat) :
    (countedAfter t skip disk).card ≤ (countedAfter t (insert i skip) disk).card + 1 := by
  have hsub : (countedAfter t skip disk).erase i ⊆ countedAfter t (insert i skip) disk := by
    intro j hj
    obtain ⟨hne, hj⟩ := Finset.mem_erase.mp hj
    refine Finset.mem_union.mpr ((Finset.mem_union.mp hj).imp_right fun hj => ?_)
    obtain ⟨hlt, hnot⟩ := Finset.mem_sdiff.mp hj
    exact Finset.mem_sdiff.mpr ⟨hlt, by simp [hne, hnot]⟩
  have hle := Finset.card_le_card hsub
  have herase := Finset.pred_card_le_card_erase (s := countedAfter t skip disk) (a := i)
  omega

include hblake in
theorem blake3_src_inj (file : Bytes) (h : X.blake3 file = X.blake3 t.src.bytes) :
    file = t.src.bytes := by
  have hall : slice t.src.bytes 0 t.src.bytes.length = t.src.bytes := by simp [slice]
  have := hblake 0 t.src.bytes.length file
  rw [hall] at this
  exact this h

include hX hrs hpos hlt hblake hmem in
/-- Files that are resumable do resume, whatever the order of the frames. -/
theorem Resumable.succeeds (h : Resumable X t skip disk) {frames : List (Bool × Bytes)}
    (hdel : Delivers t X skip frames) :
    ∃ s, attempt X t disk frames = some s ∧ s.pc = .beforeRename := by
  obtain ⟨st, hfill, hor, hiff, -⟩ :=
    attempt_outcome hX hrs (blake3_src_inj hblake) disk hdel
  have hcard : t.numChunks ≤ st.received.card :=
    hor.elim id fun hsub => h.enough.trans (Finset.card_le_card hsub)
  refine hiff.mpr ⟨hcard, Transfer.eq_src_of_chunks hpos hfill.length_out fun i hi => ?_⟩
  by_cases hrec : i ∈ loadReceived true disk
  · exact (hfill.old i hi (Or.inl hrec)).trans (h.recorded i hrec hi)
  by_cases hin : i ∈ st.received
  · exact hfill.new i hin hrec
  refine (hfill.old i hi (Or.inr hin)).trans ?_
  rcases h.enough.lt_or_eq with hmore | hexact
  · rw [h.surplus hmore]
    exact t.chunkIn_src i
  · -- everything counted was received, so the chunk is one that the sender skips
    have heq : st.received = countedAfter t skip disk :=
      Finset.eq_of_subset_of_card_le hfill.received_subset (by omega)
    have hskip := mem_skip_of_notMem_countedAfter hi (heq ▸ hin)
    exact skipped_in_file hlt hblake hmem hskip hrec

include hX hrs hpos hlt hblake hmem hframes in
/-- If every order of the frames succeeds, the files are resumable. -/
theorem Resumable.of_succeeds
    (h : ∀ frames, Delivers t X skip frames →
      ∃ s, attempt X t disk frames = some s ∧ s.pc = .beforeRename) :
    Resumable X t skip disk := by
  have hsrc : ∀ {file : Bytes}, file = t.src.bytes → ∀ i, t.chunkIn file i = t.raw i := by
    rintro _ rfl i
    exact t.chunkIn_src i
  have hall := delivers_dataFrames hframes skip
  obtain ⟨st, hfill, -, hiff, -⟩ := attempt_outcome hX hrs (blake3_src_inj hblake) disk hall
  obtain ⟨hcard, hout⟩ := hiff.mp (h _ hall)
  have hrecorded : ∀ i ∈ loadReceived true disk, i < t.numChunks →
      t.chunkIn (reopened X t disk) i = t.raw i := fun i hrec hi =>
    (hfill.old i hi (Or.inl hrec)).symm.trans (hsrc hout i)
  refine ⟨hcard.trans (Finset.card_le_card hfill.received_subset), hrecorded, fun hmore => ?_⟩
  refine Transfer.eq_src_of_chunks hpos (length_resize _ _) fun i hi => ?_
  change t.chunkIn (reopened X t disk) i = t.raw i
  by_cases hrec : i ∈ loadReceived true disk
  · exact hrecorded i hrec hi
  by_cases hskip : i ∈ skip
  · exact skipped_in_file hlt hblake hmem hskip hrec
  -- deliver the chunk last: the loop is over before it is read
  obtain ⟨w, hw, -⟩ := hframes i hi
  obtain ⟨st', hfill', hor', hiff', hclosed⟩ := attempt_outcome hX hrs (blake3_src_inj hblake) disk
    (delivers_dataFrames hframes (insert i skip))
  have hcard' : t.numChunks ≤ st'.received.card := by
    refine hor'.elim id fun hsub => ?_
    have hle := Finset.card_le_card hsub
    have hless := card_countedAfter_insert t skip disk i
    omega
  have hout' : st'.out = t.src.bytes := by
    obtain ⟨s, hs, hpc⟩ := h _ (delivers_last hframes hi hskip hw)
    rw [hclosed hcard'] at hs
    exact (hiff'.mp ⟨s, hs, hpc⟩).2
  have hnot : i ∉ st'.received := fun hin =>
    (hfill'.sent i hin hrec).2 (Finset.mem_insert_self _ _)
  exact (hfill'.old i hi (Or.inr hnot)).symm.trans (hsrc hout' i)

include hX hrs hpos hlt hblake hframes in
/-- **From which files an attempt succeeds.** -/
theorem retry_iff (disk : Disk) :
    ∃ skip, skipFor X t disk = .ok skip ∧
      (RetrySucceeds X t disk ↔ Resumable X t skip disk) ∧
      (t.numChunks ≤ (loadReceived true disk).card →
        (RetrySucceeds X t disk ↔ reopened X t disk = t.src.bytes)) := by
  obtain ⟨skip, hskip, hmem⟩ := mem_senderSkip X t true disk
  have hiff : RetrySucceeds X t disk ↔ Resumable X t skip disk := by
    constructor
    · intro h
      exact .of_succeeds hX hrs hpos hlt hblake hmem hframes fun frames hdel =>
        h skip frames hskip hdel
    · intro h skip' frames hskip' hdel
      obtain rfl : skip = skip' := Except.ok.inj (hskip.symm.trans hskip')
      exact h.succeeds hX hrs hpos hlt hblake hmem hdel
  refine ⟨skip, hskip, hiff, fun hfull => hiff.trans ⟨fun h => ?_, fun h => ?_⟩⟩
  · rcases h.enough.lt_or_eq with hmore | hexact
    · exact h.surplus hmore
    · -- nothing is counted beyond the record, so nothing is sent
      have hsub : loadReceived true disk ⊆ countedAfter t skip disk := Finset.subset_union_left
      have heq : loadReceived true disk = countedAfter t skip disk :=
        Finset.eq_of_subset_of_card_le hsub (by omega)
      refine Transfer.eq_src_of_chunks hpos (length_resize _ _) fun i hi => ?_
      by_cases hrec : i ∈ loadReceived true disk
      · exact h.recorded i hrec hi
      · have hskip := mem_skip_of_notMem_countedAfter hi (heq ▸ hrec)
        exact skipped_in_file hlt hblake hmem hskip hrec
  · have hle := hfull.trans (Finset.card_le_card
      (Finset.subset_union_left : loadReceived true disk ⊆ countedAfter t skip disk))
    exact ⟨hle, fun i _ _ => h ▸ t.chunkIn_src i, fun _ => h⟩

end Iff

/-! ## The run that failed -/

/-- A run for the manifest of `t`. The frames may be anything. -/
def Announces (X : Crates) (t : Transfer) (_ : Session) (l : ReceiverLabel) : Prop :=
  ∀ m, l = .manifest m → m = t.manifest X

/-- What is known of the part file on the way to a checksum mismatch. -/
def Unverified (X : Crates) (t : Transfer) (s : Session) : Prop :=
  match s.pc with
  | .acking m _ => m = t.manifest X
  | .opening m _ _ => m = t.manifest X
  | .sizing m _ _ => m = t.manifest X
  | .receiving m _ _ _ => m = t.manifest X
  | .saving m _ _ _ => m = t.manifest X
  | .awaitComplete m fullHash => m = t.manifest X ∧
      ∃ file, s.disk.part = some file ∧ fullHash = X.blake3 file
  | .done (.error .fileChecksumMismatch) =>
      ∃ file, s.disk.part = some file ∧ X.blake3 file ≠ X.blake3 t.src.bytes
  | _ => True

section Failed

variable {X : Crates} {t : Transfer}

theorem failure_ne_mismatch (pc : ReceiverPc) :
    pc.failure ≠ some .fileChecksumMismatch := by
  cases pc <;> nofun

theorem Unverified.step {s s' : Session} {l : ReceiverLabel} (h : Unverified X t s)
    (hl : Announces X t s l) (hs : (receiver X resuming).step s l = some s') :
    Unverified X t s' := by
  obtain ⟨pc, disk⟩ := s
  obtain ⟨⟨s₁, msg⟩, hstep, rfl⟩ := Option.map_eq_some_iff.mp hs
  cases ReceiverMove.of_step hstep with
  | refused _ => trivial
  | accepted _ => exact hl _ rfl
  | acked => exact h
  | opened => exact h
  | sized _ => exact h
  | rejected _ _ => trivial
  | ingested _ _ => exact h
  | saved => exact h
  | gaveUp _ => trivial
  | finished hpart _ => exact ⟨h, _, hpart, rfl⟩
  | judged =>
    obtain ⟨rfl, file, hpart, rfl⟩ := h
    unfold verdict
    split
    · trivial
    · split
      · next hne => exact ⟨file, hpart, hne.2⟩
      · trivial
  | renamed _ => trivial
  | cleaned => trivial
  | @failed _ e hfail =>
    cases e with
    | fileChecksumMismatch => exact absurd hfail (failure_ne_mismatch pc)
    | _ => trivial

/--
**The attempt after a checksum mismatch.**

Any run for the manifest of `t₁` that ends in the mismatch, from any files and with any frames. If
the state file it leaves lists as many indices as there are chunks, the sender's chunks are not
read, and the next attempt at the same file ends as the run before: it succeeds only if the
mismatch came from bytes past the end of the file, which are cut off.
-/
theorem retry_after_mismatch_iff (X : Crates) (t₁ t₂ : Transfer) (disk₀ disk₁ : Disk)
    (hX : X.Lawful) (hrs : t₂.Decodable X) (hpos : 0 < t₂.cfg.chunkSize)
    (hlt : t₂.cfg.chunkSize < 2 ^ 32)
    (hblake : ∀ off len file, X.blake3 file = X.blake3 (slice t₂.src.bytes off len) →
      file = slice t₂.src.bytes off len)
    (hframes : ∀ i, i < t₂.numChunks →
      ∃ w, t₂.chunkFrame X i = some w ∧ PassesGuards X (t₂.manifest X) w)
    (hsame : t₁.src = t₂.src)
    (hrun : (receiver X resuming).Reach (Announces X t₁) ⟨.awaitManifest, disk₀⟩
      ⟨.done (.error .fileChecksumMismatch), disk₁⟩) :
    ∃ skip file, skipFor X t₂ disk₁ = .ok skip ∧ disk₁.part = some file ∧
      file ≠ t₂.src.bytes ∧
      (RetrySucceeds X t₂ disk₁ ↔ Resumable X t₂ skip disk₁) ∧
      (t₂.numChunks ≤ (loadReceived true disk₁).card →
        (RetrySucceeds X t₂ disk₁ ↔ resize file t₂.src.bytes.length = t₂.src.bytes)) := by
  have hinv : Unverified X t₁ ⟨.done (.error .fileChecksumMismatch), disk₁⟩ :=
    hrun.invariant trivial fun h hl hs => h.step hl hs
  obtain ⟨file, hpart, hne⟩ := hinv
  obtain ⟨skip, hskip, hiff, hfull⟩ :=
    retry_iff hX hrs hpos hlt hblake hframes disk₁
  rw [reopened_of_part hpart] at hfull
  refine ⟨skip, file, hskip, hpart, ?_, hiff, hfull⟩
  rintro rfl
  rw [hsame] at hne
  exact hne rfl

end Failed

/-! ## Frames made for their places -/

/-- Whatever the step writes for the first time is made for its place. -/
def InPlaceStep (X : Crates) (t : Transfer) (s : Session) (l : ReceiverLabel) : Prop :=
  Announces X t s l ∧ ∀ viaStream wire m fecRs st accepted, l = .frame viaStream wire →
    s.pc = .receiving m fecRs st accepted → ∀ w ∈ stepWrites X m fecRs ∅ wire st, w.InPlace m

/-- The part file and the indices of a run whose frames are made for their places. -/
structure Orderly (t : Transfer) (disk : Disk) (st : IngestState) : Prop where
  part : disk.part = some st.out
  length_out : st.out.length = t.src.bytes.length
  received_sub : st.received ⊆ Finset.range t.numChunks

/-- The files of a run that has counted every chunk. -/
structure Counted (t : Transfer) (disk : Disk) (file : Bytes) : Prop where
  part : disk.part = some file
  length_file : file.length = t.src.bytes.length
  recorded : 0 < t.numChunks → loadReceived true disk = Finset.range t.numChunks

/-- What holds on the way to the mismatch. -/
def Wedging (X : Crates) (t : Transfer) (s : Session) : Prop :=
  match s.pc with
  | .awaitManifest => loadReceived true s.disk ⊆ Finset.range t.numChunks
  | .acking m _ => m = t.manifest X ∧ loadReceived true s.disk ⊆ Finset.range t.numChunks
  | .opening m _ received => m = t.manifest X ∧ received = loadReceived true s.disk ∧
      loadReceived true s.disk ⊆ Finset.range t.numChunks
  | .sizing m _ received => m = t.manifest X ∧ received ⊆ Finset.range t.numChunks ∧
      (received ≠ ∅ → loadReceived true s.disk = received)
  | .receiving m _ st _ => m = t.manifest X ∧ Orderly t s.disk st ∧
      (st.received.card = t.numChunks → 0 < t.numChunks →
        loadReceived true s.disk = st.received)
  | .saving m _ st _ => m = t.manifest X ∧ Orderly t s.disk st
  | .awaitComplete m fullHash => m = t.manifest X ∧
      ∃ file, Counted t s.disk file ∧ fullHash = X.blake3 file
  | .done (.error .fileChecksumMismatch) =>
      ∃ file, Counted t s.disk file ∧ X.blake3 file ≠ X.blake3 t.src.bytes
  | _ => True

section Orderly

variable {X : Crates} {t : Transfer} {disk : Disk}

theorem loadReceived_saved {received : Finset Nat} {file : Bytes}
    (hpart : disk.part = some file) :
    loadReceived true { disk with state := some (.saved (indexList received)) } = received := by
  simp [loadReceived, hpart, toFinset_indexList]

/-- Opening the part file does not change what is on record, unless there was none. -/
theorem loadReceived_opened {file : Bytes} (hne : loadReceived true disk ≠ ∅) :
    loadReceived true { disk with part := some file } = loadReceived true disk := by
  cases hpart : disk.part with
  | none => simp [loadReceived, hpart] at hne
  | some _ => simp [loadReceived, hpart]

theorem Orderly.ingest {st st' : IngestState} {g : Nat} {wire : Bytes} {fecRs : Option ReedSolomon}
    (h : Orderly t disk st)
    (hrun : ingestWireFrame X wire (t.manifest X) fecRs true ∅ st = .ok (g, st'))
    (hin : ∀ w ∈ stepWrites X (t.manifest X) fecRs ∅ wire st, w.InPlace (t.manifest X)) :
    Orderly t { disk with part := some st'.out } st' := by
  have hwr := ingest_written hrun
  refine ⟨rfl, ?_, ?_⟩
  · rw [hwr.length_out fun w hw => ?_, h.length_out]
    rw [h.length_out]
    exact (hin w hw).range_subset
  · rw [hwr.received_eq]
    refine Finset.union_subset h.received_sub fun i hi => ?_
    obtain ⟨w, hw, rfl⟩ := List.mem_map.mp (List.mem_toFinset.mp hi)
    exact Finset.mem_range.mpr (hin w hw).1

theorem Wedging.step {s s' : Session} {l : ReceiverLabel} (h : Wedging X t s)
    (hl : InPlaceStep X t s l) (hs : (receiver X resuming).step s l = some s') :
    Wedging X t s' := by
  obtain ⟨pc, disk⟩ := s
  obtain ⟨⟨s₁, msg⟩, hstep, rfl⟩ := Option.map_eq_some_iff.mp hs
  cases ReceiverMove.of_step hstep with
  | refused _ => trivial
  | accepted _ => exact ⟨hl.1 _ rfl, h⟩
  | acked => exact ⟨h.1, rfl, h.2⟩
  | @opened m fecRs received =>
    obtain ⟨rfl, hload, hsub⟩ := h
    dsimp only at hload hsub
    subst hload
    exact ⟨rfl, hsub, loadReceived_opened⟩
  | @sized m fecRs received file hpart =>
    obtain ⟨rfl, hsub, hload⟩ := h
    refine ⟨rfl, ⟨rfl, length_resize _ _, hsub⟩, fun hcard hpos => ?_⟩
    have hne : received ≠ ∅ := by
      rintro rfl
      rw [Finset.card_empty] at hcard
      omega
    have hload' : loadReceived true disk = received := hload hne
    rw [← hload'] at hne
    exact (loadReceived_opened hne).trans hload'
  | rejected _ _ => trivial
  | ingested _ hrun =>
    obtain ⟨rfl, horderly, -⟩ := h
    exact ⟨rfl, horderly.ingest hrun (hl.2 _ _ _ _ _ _ rfl rfl)⟩
  | @saved m fecRs st accepted =>
    obtain ⟨rfl, horderly⟩ := h
    by_cases hdue : saveDue resuming (t.manifest X) st = true
    · rw [if_pos hdue]
      exact ⟨rfl, ⟨horderly.part, horderly.length_out, horderly.received_sub⟩,
        fun _ _ => loadReceived_saved horderly.part⟩
    · rw [if_neg hdue]
      refine ⟨rfl, horderly, fun hcard _ => absurd ?_ hdue⟩
      have hnum : (t.manifest X).numChunks = t.numChunks := rfl
      simp [saveDue, resuming, hnum, hcard]
  | gaveUp _ => trivial
  | @finished m fecRs st accepted file hpart hall =>
    obtain ⟨rfl, horderly, hsaved⟩ := h
    obtain rfl : st.out = file := Option.some.inj (horderly.part.symm.trans hpart)
    have hcard : st.received.card = t.numChunks := by
      have hle := Finset.card_le_card horderly.received_sub
      rw [Finset.card_range] at hle
      exact le_antisymm hle hall
    have hfull : st.received = Finset.range t.numChunks :=
      Finset.eq_of_subset_of_card_le horderly.received_sub (by rw [Finset.card_range, hcard])
    exact ⟨rfl, st.out,
      ⟨hpart, horderly.length_out, fun hpos => (hsaved hcard hpos).trans hfull⟩, rfl⟩
  | judged =>
    obtain ⟨rfl, file, hcounted, rfl⟩ := h
    unfold verdict
    split
    · trivial
    · split
      · next hne => exact ⟨file, hcounted, hne.2⟩
      · trivial
  | renamed _ => trivial
  | cleaned => trivial
  | @failed _ e hfail =>
    cases e with
    | fileChecksumMismatch => exact absurd hfail (failure_ne_mismatch pc)
    | _ => trivial

/--
**A failed verification wedges the transfer.**

If the frames of the run that failed were made for their places, and the record it started from
lists chunks of the manifest only, no attempt with the same chunk size succeeds after it.
-/
theorem mismatch_wedges {t₁ t₂ : Transfer} {disk₀ disk₁ : Disk} (hX : X.Lawful)
    (hrs : t₂.Decodable X) (hpos : 0 < t₂.cfg.chunkSize) (hlt : t₂.cfg.chunkSize < 2 ^ 32)
    (hblake : ∀ off len file, X.blake3 file = X.blake3 (slice t₂.src.bytes off len) →
      file = slice t₂.src.bytes off len)
    (hframes : ∀ i, i < t₂.numChunks →
      ∃ w, t₂.chunkFrame X i = some w ∧ PassesGuards X (t₂.manifest X) w)
    (hsrc : t₁.src = t₂.src) (hsize : t₁.cfg.chunkSize = t₂.cfg.chunkSize)
    (hstart : loadReceived true disk₀ ⊆ Finset.range t₁.numChunks)
    (hrun : (receiver X resuming).Reach (InPlaceStep X t₁) ⟨.awaitManifest, disk₀⟩
      ⟨.done (.error .fileChecksumMismatch), disk₁⟩) : ¬ RetrySucceeds X t₂ disk₁ := by
  have hinv : Wedging X t₁ ⟨.done (.error .fileChecksumMismatch), disk₁⟩ :=
    hrun.invariant hstart fun h hl hs => h.step hl hs
  obtain ⟨file, hcounted, hne⟩ := hinv
  have hnum : t₁.numChunks = t₂.numChunks := by
    unfold Transfer.numChunks
    rw [hsrc, hsize]
  obtain ⟨hpart, hlen, hrec⟩ := hcounted
  rw [hsrc] at hlen hne
  rw [hnum] at hrec
  have hfile : file ≠ t₂.src.bytes := fun heq => hne (heq ▸ rfl)
  have hchunks : 0 < t₂.numChunks := by
    by_contra hzero
    -- without chunks the source and the part file are both empty
    refine hfile (Transfer.eq_src_of_chunks hpos hlen fun i hi => absurd hi ?_)
    omega
  obtain ⟨-, -, -, hfull⟩ := retry_iff hX hrs hpos hlt hblake hframes disk₁
  have hopen : reopened X t₂ disk₁ = file := by
    rw [reopened_of_part hpart, ← hlen, resize_length]
  rw [hfull (by rw [hrec hchunks, Finset.card_range]), hopen]
  exact hfile

end Orderly

/-! ## Two runs that fail -/

/-- The run ended in the checksum mismatch. -/
def Session.mismatched (s : Session) : Bool :=
  match s.pc with
  | .done (.error .fileChecksumMismatch) => true
  | _ => false

theorem Session.eq_of_mismatched {o : Option Session} {disk : Disk}
    (h : o.map (fun s => (s.disk, s.mismatched)) = some (disk, true)) :
    o = some ⟨.done (.error .fileChecksumMismatch), disk⟩ := by
  obtain ⟨s, rfl, hs⟩ := Option.map_eq_some_iff.mp h
  obtain ⟨pc, disk'⟩ := s
  simp only [Prod.mk.injEq, Session.mismatched] at hs
  obtain ⟨rfl, hpc⟩ := hs
  split at hpc
  · rfl
  · cases hpc

/-- The sample with these frames, from an empty directory. -/
def sampleAccept (frames : List Bytes) : Option Session :=
  (receiver Crates.reference resuming).exec ⟨.awaitManifest, ⟨none, none, none⟩⟩
    ([.manifest (sample.manifest Crates.reference), .ack, .openPart, .setLen] ++
      frames.flatMap (fun wire => [.frame true wire, .saveState]) ++
      [.finishLoop, .complete ⟨(sample.manifest Crates.reference).transferId⟩])

theorem sampleAccept_reach {frames : List Bytes} {s : Session} (h : sampleAccept frames = some s) :
    (receiver Crates.reference resuming).Reach (Announces Crates.reference sample)
      ⟨.awaitManifest, ⟨none, none, none⟩⟩ s := by
  refine .of_exec_forall (fun l hl _ m hm => ?_) h
  subst hm
  simpa using hl

theorem sample_deliverable : ∀ i, i < sample.numChunks →
    ∃ w, sample.chunkFrame Crates.reference i = some w ∧
      PassesGuards Crates.reference (sample.manifest Crates.reference) w := by
  intro i hi
  have hw := sample_chunkFrame i hi
  exact ⟨_, hw, chunkFrame_passesGuards Crates.reference_lawful (by decide) hi hw⟩

/-- The second chunk came with a byte too many, which is behind the end of the file. -/
def sampleOverlong : Disk := ⟨some [97, 98, 99, 98], some (.saved [0, 1]), none⟩

/-- The next attempt cuts it off. -/
theorem sampleOverlong_retry_succeeds :
    sampleAccept [sampleFrame 0, sampleData 1 2 [99, 98]]
      = some ⟨.done (.error .fileChecksumMismatch), sampleOverlong⟩ ∧
    RetrySucceeds Crates.reference sample sampleOverlong := by
  have hrun : sampleAccept [sampleFrame 0, sampleData 1 2 [99, 98]]
      = some ⟨.done (.error .fileChecksumMismatch), sampleOverlong⟩ :=
    Session.eq_of_mismatched (by decide +kernel)
  refine ⟨hrun, ?_⟩
  obtain ⟨-, file, -, hpart, -, -, hfull⟩ := retry_after_mismatch_iff Crates.reference sample
    sample _ sampleOverlong Crates.reference_lawful sample_admissible.decodable (by decide)
    (by decide) sample_blake3 sample_deliverable rfl (sampleAccept_reach hrun)
  cases hpart
  exact (hfull (by decide)).mpr rfl

/-- The first chunk had other bytes, with their checksum. -/
def sampleForged : Disk := ⟨some [98, 99, 99], some (.saved [0, 1]), none⟩

/--
The sender skips both chunks, so nothing has to be delivered. The next attempt fails like the run
before and leaves the same files.
-/
theorem sampleForged_retry_fails :
    sampleAccept [sampleData 0 0 [98, 99], sampleFrame 1]
      = some ⟨.done (.error .fileChecksumMismatch), sampleForged⟩ ∧
    skipFor Crates.reference sample sampleForged = .ok {0, 1} ∧
    Delivers sample Crates.reference {0, 1} [] ∧
    attempt Crates.reference sample sampleForged []
      = some ⟨.done (.error .fileChecksumMismatch), sampleForged⟩ := by
  refine ⟨Session.eq_of_mismatched (by decide +kernel), by decide +kernel,
    ⟨nofun, nofun, Nat.zero_le _, ?_⟩, Session.eq_of_mismatched (by decide +kernel)⟩
  decide

end ScTransport
