import ScTransport.Receiver.Reassembly
import ScTransport.Session.Receiver
import ScTransport.Infra.Lts

/-!
# Interrupted attempts

The same file is sent again and again under the same name, each time with its own chunk size,
compression and FEC block. The transfer id does not depend on these, so all attempts meet the
same part file and the same state file. The state file lists chunk indices without the chunk
size they were counted in.

* `DiskSound` — what the files of an interrupted attempt promise, relative to the chunk size
  under which the state file was written
* `skip_sound_of_same_chunkSize` — if an attempt that finds a state file keeps that chunk size,
  every chunk the sender skips is in the part file
-/

namespace ScTransport

open Infra

/-! ## The series -/

/-- Between attempts there is no session. `savedWith` is the chunk size of the attempt that
wrote the state file last; the program does not store it. -/
structure Series where
  disk : Disk
  session : Option (Transfer × ReceiverPc)
  savedWith : Nat

inductive SeriesLabel where
  | start (t : Transfer)
  | receiver (l : ReceiverLabel)
  | interrupt

/-- The chunk size behind the state file after a step. -/
def savedWithAfter (cfg : ReceiverConfig) (t : Transfer) (pc : ReceiverPc) (old : Nat) :
    ReceiverLabel → Nat
  | .saveState =>
    match pc with
    | .saving m _ st _ => if saveDue cfg m st then t.cfg.chunkSize else old
    | _ => old
  | _ => old

def series (X : Crates) (cfg : ReceiverConfig) : Lts Series SeriesLabel where
  step s
    | .start t =>
      match s.session with
      | some _ => none
      | none =>
        match receiverStep X cfg ⟨.awaitManifest, s.disk⟩ (.manifest (t.manifest X)) with
        | none => none
        | some (r, _) => some { s with disk := r.disk, session := some (t, r.pc) }
    | .receiver l =>
      match s.session with
      | none => none
      | some (t, pc) =>
        match receiverStep X cfg ⟨pc, s.disk⟩ l with
        | none => none
        | some (r, _) =>
          some ⟨r.disk, some (t, r.pc), savedWithAfter cfg t pc s.savedWith l⟩
    | .interrupt =>
      match s.session with
      | none => none
      | some _ => some { s with session := none }

/-- No file exists yet. -/
def Series.init : Series := ⟨⟨none, none, none⟩, none, 0⟩

/-- A step of an attempt that is still receiving; its frames are honest. -/
def HonestReceive (X : Crates) (t : Transfer) : ReceiverLabel → Prop
  | .ack => True
  | .openPart => True
  | .setLen => True
  | .frame _ wire => HonestFrame t X wire
  | .saveState => True
  | .finishLoop => True
  | _ => False

/-- Attempts at sending `src` as `filename`, each cut off before the final rename. -/
def Honest (X : Crates) (filename : List Char) (src : SourceFile) (s : Series) :
    SeriesLabel → Prop
  | .start t => t.filename = filename ∧ t.src = src ∧ t.Admissible X
  | .receiver l => ∀ t pc, s.session = some (t, pc) → HonestReceive X t l
  | .interrupt => True

/-- An attempt that finds a state file uses the chunk size it was written with. -/
def SameChunkSize (s : Series) : SeriesLabel → Prop
  | .start t => s.disk.state ≠ none → s.savedWith = t.cfg.chunkSize
  | _ => True

/-- An honest series that keeps its chunk size while a state file exists. -/
def Steady (X : Crates) (filename : List Char) (src : SourceFile) (s : Series)
    (l : SeriesLabel) : Prop :=
  Honest X filename src s l ∧ SameChunkSize s l

/-! ## What the files promise -/

/-- Chunk `i` of size `c` is in the file. -/
def HoldsChunk (src : SourceFile) (c : Nat) (file : Bytes) (i : Nat) : Prop :=
  i < divCeil src.bytes.length c ∧
    slice file (i * c) (chunkRaw src.bytes c i).length = chunkRaw src.bytes c i

/-- What the state file of an interrupted attempt with chunk size `c` lists is in the part file. -/
def DiskSound (src : SourceFile) (c : Nat) (disk : Disk) : Prop :=
  ∀ v, disk.state = some v → ∃ indices file, v = .saved indices ∧
    disk.part = some file ∧ ∀ i ∈ indices, HoldsChunk src c file i

/-- What a running session knows, beyond its files. -/
def PcSound (X : Crates) (t : Transfer) (disk : Disk) : ReceiverPc → Prop
  | .acking m fecRs => m = t.manifest X ∧ fecRs = t.coder
  | .opening m fecRs received =>
    m = t.manifest X ∧ fecRs = t.coder ∧ received = loadReceived true disk
  | .sizing m fecRs received =>
    m = t.manifest X ∧ fecRs = t.coder ∧ received = loadReceived true disk
  | .receiving m fecRs st _ => m = t.manifest X ∧ fecRs = t.coder ∧ Sound t X st ∧
    disk.part = some st.out ∧
    ∀ indices, disk.state = some (.saved indices) → ∀ i ∈ indices, i ∈ st.received
  | .saving m fecRs st _ => m = t.manifest X ∧ fecRs = t.coder ∧ Sound t X st ∧
    disk.part = some st.out ∧
    ∀ indices, disk.state = some (.saved indices) → ∀ i ∈ indices, i ∈ st.received
  | _ => True

section Disk

variable {X : Crates} {t : Transfer} {disk : Disk} {c : Nat} {cfg : ReceiverConfig}

theorem mem_loadReceived {src : SourceFile} (h : DiskSound src c disk) {i : Nat} :
    i ∈ loadReceived true disk ↔ ∃ indices, disk.state = some (.saved indices) ∧ i ∈ indices := by
  cases hs : disk.state with
  | none => simp [loadReceived, hs]
  | some v =>
    obtain ⟨indices, file, rfl, hpart, -⟩ := h v hs
    simp [loadReceived, hs, hpart]

/-- What the receiver takes over from its files is in the part file. -/
theorem DiskSound.holds {src : SourceFile} (h : DiskSound src c disk) {i : Nat}
    (hi : i ∈ loadReceived true disk) :
    ∃ file, disk.part = some file ∧ HoldsChunk src c file i := by
  obtain ⟨indices, hs, hmem⟩ := (mem_loadReceived h).mp hi
  obtain ⟨indices', file, heq, hpart, hall⟩ := h _ hs
  cases heq
  exact ⟨file, hpart, hall i hmem⟩

/-- A chunk of the file is not cut off when the file gets the length of the source. -/
theorem HoldsChunk.resize {src : SourceFile} {file : Bytes} {i : Nat}
    (h : HoldsChunk src c file i) :
    HoldsChunk src c (Infra.resize file src.bytes.length) i := by
  obtain ⟨hi, hslice⟩ := h
  have hsize : 0 < c := by
    by_contra hzero
    rw [Nat.eq_zero_of_not_pos hzero, divCeil_zero_right] at hi
    omega
  have hstart : i * c < src.bytes.length := (lt_divCeil_iff hsize).mp hi
  have hend : i * c + (chunkRaw src.bytes c i).length ≤ src.bytes.length := chunk_end_le hstart
  have hpos : 0 < (chunkRaw src.bytes c i).length := by
    rw [length_chunkRaw]
    omega
  have hlong : i * c + (chunkRaw src.bytes c i).length ≤ file.length := by
    have hlen := congrArg List.length hslice
    rw [length_slice] at hlen
    omega
  exact ⟨hi, (slice_resize hend hlong).trans hslice⟩

/-- `open` keeps the part file of a resumed transfer. -/
theorem DiskSound.opened {src : SourceFile} (hresume : cfg.resumePartial = true)
    (h : DiskSound src c disk) :
    DiskSound src c { disk with part := some (openedPart cfg disk) } ∧
      loadReceived true { disk with part := some (openedPart cfg disk) } =
        loadReceived true disk := by
  obtain ⟨part, state, final⟩ := disk
  cases state with
  | none => exact ⟨nofun, by simp [loadReceived]⟩
  | some v =>
    obtain ⟨-, file, -, hpart, -⟩ := h v rfl
    have hopen : some (openedPart cfg ⟨part, some v, final⟩) = part := by
      rw [openedPart, if_pos hresume, hpart, Option.getD_some]
      exact hpart.symm
    rw [hopen]
    exact ⟨h, rfl⟩

/-- The part file, once it has its length, is a start for the next attempt. -/
theorem DiskSound.start {file : Bytes} (hpart : disk.part = some file)
    (h : DiskSound t.src t.cfg.chunkSize disk) :
    t.Start ⟨resize file t.src.bytes.length, loadReceived true disk, fun _ => none⟩ where
  length_out := length_resize _ _
  received_lt := by
    intro i hi
    obtain ⟨_, -, hholds⟩ := h.holds hi
    exact hholds.1
  holds := by
    intro i hi
    obtain ⟨file', hpart', hholds⟩ := h.holds hi
    obtain rfl : file = file' := Option.some.inj (hpart.symm.trans hpart')
    exact hholds.resize.2
  no_groups := fun _ => rfl

/-- A sound receive state makes sound files, whatever was saved before. -/
theorem Sound.diskSound {st : IngestState} (h : Sound t X st) (hpart : disk.part = some st.out)
    (hstate : ∀ v, disk.state = some v → ∃ indices, v = .saved indices ∧
      ∀ i ∈ indices, i ∈ st.received) : DiskSound t.src t.cfg.chunkSize disk := by
  intro v hv
  obtain ⟨indices, rfl, hmem⟩ := hstate v hv
  exact ⟨indices, st.out, rfl, hpart, fun i hi =>
    ⟨h.received_lt (hmem i hi), h.holds (hmem i hi)⟩⟩

/-- Without a state file the chunk size does not matter. -/
theorem DiskSound.with_size {src : SourceFile} {c' : Nat} (h : DiskSound src c disk)
    (hc : disk.state ≠ none → c = c') : DiskSound src c' disk := by
  intro v hv
  obtain rfl : c = c' := hc (by rw [hv]; simp)
  exact h v hv

/-- The part file may follow a receive state that still covers the state file. -/
theorem DiskSound.write (h : DiskSound t.src c disk)
    (hc : disk.state ≠ none → c = t.cfg.chunkSize) {st : IngestState} (hsound : Sound t X st)
    (hmem : ∀ indices, disk.state = some (.saved indices) → ∀ i ∈ indices, i ∈ st.received) :
    DiskSound t.src c { disk with part := some st.out } := by
  refine (Sound.diskSound hsound rfl fun v hv => ?_).with_size fun hne => (hc hne).symm
  obtain ⟨indices, _, rfl, -⟩ := h v hv
  exact ⟨indices, rfl, hmem indices hv⟩

end Disk

/-! ## One step -/

section Step

variable {X : Crates} {t : Transfer} {cfg : ReceiverConfig} {disk : Disk} {c : Nat}

/-- **A step of an honest session keeps its files sound**, for the chunk size behind the state
file after the step. -/
theorem receiverStep_diskSound (hX : X.Lawful) (ht : t.Admissible X)
    (hresume : cfg.resumePartial = true) {pc : ReceiverPc} {l : ReceiverLabel} {r : Session}
    {msg : Option ToSender} (hl : HonestReceive X t l) (hd : DiskSound t.src c disk)
    (hc : disk.state ≠ none → c = t.cfg.chunkSize) (hpc : PcSound X t disk pc)
    (hs : receiverStep X cfg ⟨pc, disk⟩ l = some (r, msg)) :
    DiskSound t.src (savedWithAfter cfg t pc c l) r.disk ∧
      (r.disk.state ≠ none → savedWithAfter cfg t pc c l = t.cfg.chunkSize) ∧
      PcSound X t r.disk r.pc := by
  cases ReceiverMove.of_step hs with
  | acked =>
    rw [hresume]
    exact ⟨hd, hc, hpc.1, hpc.2, rfl⟩
  | opened =>
    obtain ⟨rfl, rfl, rfl⟩ := hpc
    obtain ⟨hd', hload⟩ := hd.opened hresume
    exact ⟨hd', hc, rfl, rfl, hload.symm⟩
  | sized hpart =>
    obtain ⟨rfl, rfl, rfl⟩ := hpc
    have hsound := ((hd.with_size hc).start hpart).sound (X := X)
    have hmem : ∀ indices, disk.state = some (.saved indices) →
        ∀ i ∈ indices, i ∈ loadReceived true disk :=
      fun indices hst i hi => (mem_loadReceived hd).mpr ⟨indices, hst, hi⟩
    exact ⟨hd.write hc hsound hmem, hc, rfl, rfl, hsound, rfl, hmem⟩
  | rejected _ hrun =>
    obtain ⟨rfl, rfl, hsound, -, -⟩ := hpc
    obtain ⟨g, st', hok, -⟩ := ingest_honest hX ht cfg.verifyChecksums ∅ hsound hl
    rw [hok] at hrun
    cases hrun
  | ingested _ hrun =>
    obtain ⟨rfl, rfl, hsound, -, hmem⟩ := hpc
    obtain ⟨g, st', hok, hadv⟩ := ingest_honest hX ht cfg.verifyChecksums ∅ hsound hl
    rw [hok, Except.ok.injEq, Prod.mk.injEq] at hrun
    obtain ⟨-, rfl⟩ := hrun
    have hmem' : ∀ indices, disk.state = some (.saved indices) →
        ∀ i ∈ indices, i ∈ st'.received :=
      fun indices hst i hi => hadv.mono (hmem indices hst i hi)
    exact ⟨hd.write hc hadv.sound hmem', hc, rfl, rfl, hadv.sound, rfl, hmem'⟩
  | @saved m fecRs st accepted =>
    obtain ⟨rfl, rfl, hsound, hpart, hmem⟩ := hpc
    unfold savedWithAfter
    dsimp only
    split
    · have hlist : ∀ i ∈ indexList st.received, i ∈ st.received := fun i hi => by
        rw [← toFinset_indexList st.received]
        exact List.mem_toFinset.mpr hi
      refine ⟨Sound.diskSound hsound hpart fun v hv => ?_, fun _ => rfl, rfl, rfl, hsound, hpart,
        fun indices hst => ?_⟩
      · cases hv
        exact ⟨_, rfl, hlist⟩
      · cases hst
        exact hlist
    · exact ⟨hd, hc, rfl, rfl, hsound, hpart, hmem⟩
  | finished _ _ => exact ⟨hd, hc, trivial⟩
  -- no other label belongs to an attempt that is still receiving
  | refused _ => exact hl.elim
  | accepted _ => exact hl.elim
  | gaveUp _ => exact hl.elim
  | judged => exact hl.elim
  | renamed _ => exact hl.elim
  | cleaned => exact hl.elim
  | failed _ => exact hl.elim

end Step

/-! ## Whole series -/

/-- The invariant of a series whose attempts keep to the chunk size of the state file. -/
structure Series.Inv (X : Crates) (src : SourceFile) (s : Series) : Prop where
  disk : DiskSound src s.savedWith s.disk
  session : ∀ {t : Transfer} {pc : ReceiverPc}, s.session = some (t, pc) →
    t.src = src ∧ t.Admissible X ∧ (s.disk.state ≠ none → s.savedWith = t.cfg.chunkSize) ∧
      PcSound X t s.disk pc

section Run

variable {X : Crates} {cfg : ReceiverConfig} {filename : List Char} {src : SourceFile}

theorem Series.Inv.init : Series.init.Inv X src where
  disk := nofun
  session := nofun

theorem Series.Inv.step (hX : X.Lawful) (hresume : cfg.resumePartial = true) {s s' : Series}
    {l : SeriesLabel} (h : s.Inv X src) (hl : Honest X filename src s l)
    (hsame : SameChunkSize s l) (hs : (series X cfg).step s l = some s') : s'.Inv X src := by
  obtain ⟨disk, session, savedWith⟩ := s
  cases l with
  | start t =>
    obtain ⟨-, rfl, ht⟩ := hl
    cases session with
    | some _ => cases hs
    | none =>
      simp only [series, receiverStep, fecRsOf_manifest ht] at hs
      cases hs
      refine ⟨h.disk, fun hsome => ?_⟩
      cases hsome
      exact ⟨rfl, ht, hsame, rfl, rfl⟩
  | receiver l =>
    cases session with
    | none => cases hs
    | some p =>
      obtain ⟨t, pc⟩ := p
      obtain ⟨rfl, ht, hc, hpc⟩ := h.session rfl
      simp only [series] at hs
      cases hr : receiverStep X cfg ⟨pc, disk⟩ l with
      | none => rw [hr] at hs; cases hs
      | some r =>
        obtain ⟨r, msg⟩ := r
        rw [hr] at hs
        cases hs
        obtain ⟨hd', hc', hpc'⟩ :=
          receiverStep_diskSound hX ht hresume (hl t pc rfl) h.disk hc hpc hr
        refine ⟨hd', fun hsome => ?_⟩
        cases hsome
        exact ⟨rfl, ht, hc', hpc'⟩
  | interrupt =>
    cases session with
    | none => cases hs
    | some _ =>
      cases hs
      exact ⟨h.disk, fun hsome => by cases hsome⟩

/-- A chunk whose hash in the part file is the sender's has the sender's bytes there. -/
theorem HashHit.holds {t : Transfer} {disk : Disk} (hlt : t.cfg.chunkSize < 2 ^ 32)
    (hblake : ∀ off len file, X.blake3 file = X.blake3 (slice t.src.bytes off len) →
      file = slice t.src.bytes off len) {i : Nat} (hi : i < t.numChunks)
    (h : HashHit X t.cfg t.src.bytes (t.manifest X) (chunkHashes X true (t.manifest X) disk) i) :
    ∃ file, disk.part = some file ∧ HoldsChunk t.src t.cfg.chunkSize file i := by
  obtain ⟨d, raw, hd, hne, hread, -, hhash⟩ := h
  have hraw : raw = t.raw i := Option.some.inj (hread.symm.trans (readChunkRange_eq hi))
  cases hpart : disk.part with
  | none =>
    rw [chunkHashes, hpart] at hd
    cases hd
  | some file =>
    refine ⟨file, rfl, hi, ?_⟩
    have hcs : (t.manifest X).chunkSize = t.cfg.chunkSize := Nat.mod_eq_of_lt hlt
    have hoff : i * t.cfg.chunkSize % 2 ^ 64 = i * t.cfg.chunkSize := by
      have h1 : i * t.cfg.chunkSize < t.src.bytes.length := chunkStart_lt hi
      have h2 := t.src.length_lt
      exact Nat.mod_eq_of_lt (by omega)
    have hdig : d = hashExistingChunk X (t.manifest X) file i := by
      have hn : i < (t.manifest X).numChunks := hi
      simp only [chunkHashes, hpart, if_true, hashExistingChunks, List.getElem?_map,
        List.getElem?_range hn, Option.map_some, Option.some.injEq] at hd
      exact hd.symm
    rw [hdig, hashExistingChunk] at hne hhash
    simp only [hcs, hoff] at hne hhash
    split at hne
    · exact absurd rfl hne
    · next hgt =>
      rw [if_neg hgt, hraw] at hhash
      have hslice := hblake (i * t.cfg.chunkSize) t.cfg.chunkSize _ hhash.symm
      have hlen := congrArg List.length hslice
      rw [length_slice] at hlen
      show slice file _ (chunkRaw t.src.bytes t.cfg.chunkSize i).length
        = chunkRaw t.src.bytes t.cfg.chunkSize i
      rw [chunkRaw, ← hlen, ← hslice]
      congr 1
      omega

/--
**Skipping is sound when the chunk size stays.**

Any number of attempts, each cut off at any point of its receive loop.
-/
theorem skip_sound_of_same_chunkSize (hX : X.Lawful) (hresume : cfg.resumePartial = true)
    (hblake : ∀ off len file, X.blake3 file = X.blake3 (slice src.bytes off len) →
      file = slice src.bytes off len) {s : Series}
    (hrun : (series X cfg).Reach (Steady X filename src) Series.init s) {t : Transfer}
    (ht : Honest X filename src s (.start t)) (hsame : SameChunkSize s (.start t)) :
    ∃ skip, senderSkip X t.cfg t.src.bytes (t.manifest X)
        (manifestAck X cfg.resumePartial (t.manifest X) s.disk) = .ok skip ∧
      ∀ i ∈ skip, i < (t.manifest X).numChunks ∧ ∃ file, s.disk.part = some file ∧
        slice file (i * t.cfg.chunkSize) (t.raw i).length = t.raw i := by
  obtain ⟨-, rfl, hadm⟩ := ht
  have hinv : s.Inv X t.src := by
    refine hrun.invariant Series.Inv.init ?_
    intro s₁ s₂ l h₁ hok hstep
    exact h₁.step hX hresume hok.1 hok.2 hstep
  obtain ⟨skip, hskip, hmem⟩ := mem_senderSkip X t true s.disk
  rw [hresume]
  refine ⟨skip, hskip, fun i hi => ?_⟩
  have hholds : ∃ file, s.disk.part = some file ∧ HoldsChunk t.src t.cfg.chunkSize file i := by
    rcases (hmem i).mp hi with hrec | ⟨hlt, hhit⟩
    · exact (hinv.disk.with_size hsame).holds hrec
    · have hle := hadm.fits.chunkSize_le
      exact hhit.holds (by omega) hblake hlt
  obtain ⟨file, hpart, hlt, hslice⟩ := hholds
  exact ⟨hlt, file, hpart, hslice⟩

end Run

/-! ## Two attempts -/

section Sample

variable {X : Crates} {cfg : ReceiverConfig} {filename : List Char} {src : SourceFile}

/-- A run of receiver steps is part of the attempt it began in. -/
theorem Series.reach_attempt {t : Transfer} : ∀ {labels : List ReceiverLabel} {s s' : Series}
    {pc : ReceiverPc}, (∀ l ∈ labels, HonestReceive X t l) → s.session = some (t, pc) →
    (series X cfg).exec s (labels.map .receiver) = some s' →
    (series X cfg).Reach (Steady X filename src) s s' ∧
      ∃ pc', s'.session = some (t, pc')
  | [], s, s', pc, _, hs, h => by
    cases h
    exact ⟨.refl, pc, hs⟩
  | l :: rest, s, s', pc, hl, hs, h => by
    simp only [List.map_cons, Lts.exec] at h
    cases hstep : (series X cfg).step s (.receiver l) with
    | none => rw [hstep] at h; cases h
    | some s₁ =>
      rw [hstep] at h
      have hok : Steady X filename src s (.receiver l) := by
        refine ⟨fun t' pc' hs' => ?_, trivial⟩
        rw [hs] at hs'
        cases hs'
        exact hl l List.mem_cons_self
      have hs₁ : ∃ pc₁, s₁.session = some (t, pc₁) := by
        simp only [series, hs] at hstep
        split at hstep
        · cases hstep
        · cases hstep
          exact ⟨_, rfl⟩
      obtain ⟨pc₁, hs₁⟩ := hs₁
      obtain ⟨hreach, hend⟩ := Series.reach_attempt
        (fun x hx => hl x (List.mem_cons_of_mem _ hx)) hs₁ h
      exact ⟨(Lts.Reach.refl.step hok hstep).trans hreach, hend⟩

/-- The first byte has arrived and is recorded, then the receiver is stopped. -/
def sampleInterrupted : Disk := ⟨some [97, 0, 0], some (.saved [0]), none⟩

/-- These files are left by an attempt that sent single bytes. -/
theorem sampleInterrupted_reach : ∃ s,
    (series Crates.reference ⟨true, true⟩).Reach
      (Steady Crates.reference ['f'] sample.src) Series.init s ∧
      s.disk = sampleInterrupted ∧ s.savedWith = 1 := by
  obtain ⟨wire, hwire⟩ : ∃ wire, sampleBytewise.chunkFrame Crates.reference 0 = some wire :=
    ⟨(sampleBytewise.chunkFrame Crates.reference 0).getD [], by decide +kernel⟩
  -- the attempt up to the interruption
  let s₁ : Series := ⟨⟨none, none, none⟩, some (sampleBytewise,
    .acking (sampleBytewise.manifest Crates.reference) (some ⟨2, 1⟩)), 0⟩
  let labels : List ReceiverLabel := [.ack, .openPart, .setLen, .frame true wire, .saveState]
  have hstart : (series Crates.reference ⟨true, true⟩).step Series.init (.start sampleBytewise)
      = some s₁ := rfl
  have hexec : ((series Crates.reference ⟨true, true⟩).exec s₁
      (labels.map .receiver)).map (fun s => (s.disk, s.savedWith))
      = some (sampleInterrupted, 1) := by
    have hframe : wire = (sampleBytewise.chunkFrame Crates.reference 0).getD [] := by
      rw [hwire]
      rfl
    simp only [labels, hframe, s₁]
    decide +kernel
  obtain ⟨s₂, hs₂, hdisk⟩ := Option.map_eq_some_iff.mp hexec
  have hl : ∀ l ∈ labels, HonestReceive Crates.reference sampleBytewise l := by
    intro l hl
    simp only [labels, List.mem_cons, List.not_mem_nil, or_false] at hl
    rcases hl with rfl | rfl | rfl | rfl | rfl
    · trivial
    · trivial
    · trivial
    · exact .data (by decide) hwire
    · trivial
  obtain ⟨hreach, pc, hsess⟩ := Series.reach_attempt hl rfl hs₂
  have hbegun : (series Crates.reference ⟨true, true⟩).Reach
      (Steady Crates.reference ['f'] sample.src) Series.init s₁ :=
    Lts.Reach.refl.step (l := .start sampleBytewise)
      ⟨⟨rfl, rfl, sampleBytewise_admissible⟩, fun hne => absurd rfl hne⟩ hstart
  have hcut : (series Crates.reference ⟨true, true⟩).step s₂ .interrupt
      = some { s₂ with session := none } := by
    show (match s₂.session with
      | none => none
      | some _ => some { s₂ with session := none }) = _
    rw [hsess]
  exact ⟨{ s₂ with session := none }, (hbegun.trans hreach).step (l := .interrupt)
    ⟨trivial, trivial⟩ hcut,
    congrArg Prod.fst hdisk, congrArg Prod.snd hdisk⟩

/-- With the chunk size of the interrupted attempt, what is skipped is there. -/
theorem sampleBytewise_skip_sound :
    ∃ skip, senderSkip Crates.reference sampleBytewise.cfg sampleBytewise.src.bytes
        (sampleBytewise.manifest Crates.reference)
        (manifestAck Crates.reference true (sampleBytewise.manifest Crates.reference)
          sampleInterrupted) = .ok skip ∧
      ∀ i ∈ skip, i < (sampleBytewise.manifest Crates.reference).numChunks ∧
        ∃ file, sampleInterrupted.part = some file ∧
          slice file (i * 1) (sampleBytewise.raw i).length = sampleBytewise.raw i := by
  obtain ⟨s, hrun, hdisk, hsize⟩ := sampleInterrupted_reach
  have h := skip_sound_of_same_chunkSize Crates.reference_lawful rfl sample_blake3 hrun
    (t := sampleBytewise) ⟨rfl, rfl, sampleBytewise_admissible⟩ (fun _ => hsize)
  rwa [hdisk] at h

/--
The next attempt uses chunks of two bytes. It takes index `0` of the state file for the first
two bytes and skips them, but only one of them is there.
-/
theorem sample_skip_unsound :
    (∃ s, (series Crates.reference ⟨true, true⟩).Reach
        (Steady Crates.reference ['f'] sample.src) Series.init s ∧ s.disk = sampleInterrupted ∧
      Honest Crates.reference ['f'] sample.src s (.start sample)) ∧
    senderSkip Crates.reference sample.cfg sample.src.bytes (sample.manifest Crates.reference)
        (manifestAck Crates.reference true (sample.manifest Crates.reference) sampleInterrupted)
      = .ok {0} ∧
    ¬ ∃ file, sampleInterrupted.part = some file ∧
        slice file (0 * 2) (sample.raw 0).length = sample.raw 0 := by
  obtain ⟨s, hrun, hdisk, -⟩ := sampleInterrupted_reach
  refine ⟨⟨s, hrun, hdisk, rfl, rfl, sample_admissible⟩, by decide +kernel, ?_⟩
  rintro ⟨file, hpart, hslice⟩
  cases hpart
  revert hslice
  decide

end Sample

end ScTransport
