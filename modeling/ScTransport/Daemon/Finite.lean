import ScTransport.Daemon.Moves

/-!
# Floats

The daemon divides by nothing smaller than a nanosecond and by no size that is zero, so all floats
in its memory stay finite. A float that is not would be written as `null`.

* `DaemonState.FiniteFloats.step` — no step makes a float that is not finite
* `finiteFloats_boot` — nor does loading
-/

namespace ScTransport

open Infra

/-- The exponent is not all ones. -/
def F64.isFinite (x : F64) : Bool := x.toNat / 2 ^ 52 % 2 ^ 11 ≠ 2 ^ 11 - 1

def TransferRecord.isFinite (rec : TransferRecord) : Bool :=
  rec.progressPct.isFinite && rec.throughputMbps.isFinite

def TransferEventRecord.isFinite (event : TransferEventRecord) : Bool :=
  event.progressPct.all F64.isFinite && event.throughputMbps.all F64.isFinite

def Progress.isFinite (p : Progress) : Bool := p.ratioPct.isFinite && p.throughputMbps.isFinite

/-- The floats of an answer are quotients. -/
def Answer.isFinite : Answer → Bool
  | .rate pct mbps => pct.isFinite && mbps.isFinite
  | .report p => p.isFinite
  | _ => true

def Pc.isFinite : Pc → Bool
  | .persistWrite _ list => list.all TransferRecord.isFinite
  | .progress p | .progressAppend p => p.isFinite
  | _ => true

/-- The step makes no float that is not finite. -/
def Prim.KeepsFinite : Prim → Prop
  | .update f => ∀ rec : TransferRecord, rec.isFinite = true → (f rec).isFinite = true
  | .spawn pc => pc.isFinite = true
  | _ => True

/-- All floats in memory are finite. -/
structure DaemonState.FiniteFloats (s : DaemonState) : Prop where
  records : ∀ t rec, s.records.lookup t = some rec → rec.isFinite = true
  tasks : ∀ {i : Nat} {task : Task}, s.tasks[i]? = some task → task.pc.isFinite = true

theorem F64.isFinite_zero : (0 : F64).isFinite = true := by decide

theorem F64.isFinite_hundred : F64.hundred.isFinite = true := by decide

theorem TransferRecord.isFinite_iff {rec : TransferRecord} :
    rec.isFinite = true ↔ rec.progressPct.isFinite = true ∧ rec.throughputMbps.isFinite = true :=
  Bool.and_eq_true_iff

section Finite

variable {t : Uuid} {records : Records} {now : Nat} {answer : Answer} {prim : Prim} {pc pc' : Pc}

theorem JobPc.next_isFinite {point : JobPc}
    (h : point.next t records now answer = some (prim, pc)) (hanswer : answer.isFinite = true) :
    pc.isFinite = true ∧ prim.KeepsFinite := by
  cases prim with
  | update f =>
    refine ⟨by cases JobMove.of_next h <;> rfl, fun rec hrec => ?_⟩
    have hmbps := (TransferRecord.isFinite_iff.mp hrec).2
    rcases JobPc.next_update h with ⟨total, rfl⟩ | ⟨total, rfl⟩ |
      ⟨total, copied, pct, mbps, rfl, rfl⟩ | rfl
    · exact hrec
    · exact TransferRecord.isFinite_iff.mpr ⟨F64.isFinite_hundred, hmbps⟩
    · obtain ⟨hpct, hmbps⟩ := Bool.and_eq_true_iff.mp hanswer
      refine TransferRecord.isFinite_iff.mpr ⟨?_, hmbps⟩
      show (if 0 < total then pct else F64.hundred).isFinite = true
      split
      · exact hpct
      · exact F64.isFinite_hundred
    · exact TransferRecord.isFinite_iff.mpr ⟨F64.isFinite_hundred, hmbps⟩
  | spawn pc' =>
    cases JobMove.of_next h with
    | report =>
      simp only [JobPc.next] at h
      split at h <;> cases h
      exact ⟨rfl, hanswer⟩
  | _ => cases JobMove.of_next h <;> exact ⟨rfl, trivial⟩

theorem Pc.next_isFinite (h : pc.next t records now answer = some (prim, pc'))
    (hanswer : answer.isFinite = true) (hpc : pc.isFinite = true)
    (hrecords : ∀ t rec, records.lookup t = some rec → rec.isFinite = true) :
    pc'.isFinite = true ∧ prim.KeepsFinite := by
  cases pc with
  | job point => exact JobPc.next_isFinite h hanswer
  | spawned =>
    rcases Pc.next_spawned h with ⟨rfl, rfl⟩ | ⟨rfl, rfl⟩ | ⟨rfl, rfl⟩
    · exact ⟨rfl, trivial⟩
    · exact ⟨rfl, trivial⟩
    · exact ⟨rfl, fun rec hrec => hrec⟩
  | persistCopy site =>
    cases h
    refine ⟨List.all_eq_true.mpr fun rec hrec => ?_, trivial⟩
    obtain ⟨entry, hentry, rfl⟩ := List.mem_map.mp hrec
    exact hrecords entry.1 entry.2 (AList.mem_lookup_iff.mpr hentry)
  | persistWrite site list =>
    cases h
    exact ⟨by cases site <;> rfl, trivial⟩
  | failed error => cases h; exact ⟨rfl, fun rec hrec => hrec⟩
  | progress p =>
    cases h
    obtain ⟨hratio, hmbps⟩ := Bool.and_eq_true_iff.mp hpc
    refine ⟨hpc, fun rec hrec => TransferRecord.isFinite_iff.mpr ⟨?_, hmbps⟩⟩
    show (if 0 < p.bytesTotal then p.ratioPct else 0).isFinite = true
    split
    · exact hratio
    · exact F64.isFinite_zero
  | _ => cases h <;> exact ⟨rfl, trivial⟩

variable {s s' : DaemonState} {l : DaemonLabel}

/-- A request leaves floats that are finite. -/
theorem Request.isFinite {rec : TransferRecord} (hr : Request s l t rec pc)
    (h : s.FiniteFloats) : rec.isFinite = true ∧ pc.isFinite = true := by
  cases hr with
  | submit hnone hreq => exact ⟨TransferRecord.isFinite_iff.mpr
      ⟨F64.isFinite_zero, F64.isFinite_zero⟩, rfl⟩
  | @cancel t rec now hrec => exact ⟨h.records t rec hrec, rfl⟩
  | @patchActive t rec priority now hrec hst => exact ⟨h.records t rec hrec, rfl⟩
  | @patchOther t rec priority now hrec hst => exact ⟨h.records t rec hrec, rfl⟩

theorem DaemonState.FiniteFloats.addTask (h : s.FiniteFloats) (hpc : pc.isFinite = true) :
    (s.addTask t pc).FiniteFloats := by
  refine ⟨h.records, fun hi => ?_⟩
  rcases tasks_addTask hi with hi | ⟨-, rfl⟩
  · exact h.tasks hi
  · exact hpc

theorem DaemonState.FiniteFloats.insert {rec : TransferRecord} (h : s.FiniteFloats)
    (hrec : rec.isFinite = true) :
    ({ s with records := s.records.insert t rec } : DaemonState).FiniteFloats := by
  refine ⟨fun t' rec' h' => ?_, h.tasks⟩
  by_cases ht : t' = t
  · subst ht
    cases (AList.lookup_insert _).symm.trans h'
    exact hrec
  · exact h.records t' rec' ((AList.lookup_insert_ne ht).symm.trans h')

theorem DaemonState.FiniteFloats.ran {i : Nat} {task : Task} (h : s.FiniteFloats)
    (hi : s.tasks[i]? = some task)
    (hn : task.pc.next task.transferId s.records now answer = some (prim, pc))
    (hanswer : answer.isFinite = true) :
    ((s.perform task.transferId prim).goto i task.transferId pc).FiniteFloats := by
  obtain ⟨hpc, hprim⟩ := Pc.next_isFinite hn hanswer (h.tasks hi) h.records
  constructor
  · intro t rec hrec
    rw [goto_records] at hrec
    by_cases ht : t = task.transferId
    · subst ht
      rw [perform_lookup] at hrec
      cases prim with
      | update f =>
        obtain ⟨old, hold, rfl⟩ := Option.map_eq_some_iff.mp hrec
        exact hprim old (h.records _ _ hold)
      | _ => exact h.records _ _ hrec
    · exact h.records t rec ((s.perform_lookup_of_ne _ _ ht).symm.trans hrec)
  · intro j task' hj
    rcases tasks_ran hj with ⟨-, rfl⟩ | ⟨-, hj⟩ | ⟨pc', rfl, rfl⟩
    · exact hpc
    · exact h.tasks hj
    · exact hprim

theorem DaemonState.FiniteFloats.step (h : s.FiniteFloats)
    (hanswer : ∀ i now answer, l = .run i now answer → answer.isFinite = true)
    (hstep : daemonStep s l = some s') : s'.FiniteFloats := by
  cases DaemonMove.of_step hstep with
  | request hr =>
    obtain ⟨hrec, hpc⟩ := hr.isFinite h
    exact (h.insert hrec).addTask hpc
  | spawned hs => exact DaemonState.FiniteFloats.addTask ⟨h.records, h.tasks⟩ rfl
  | ran hi hn hlock => exact h.ran hi hn (hanswer _ _ _ rfl)
  | aborted hi hflag =>
    refine ⟨h.records, fun hj => ?_⟩
    rcases tasks_goto hj with ⟨-, rfl⟩ | ⟨-, hj⟩
    · rfl
    · exact h.tasks hj
  | _ => exact ⟨h.records, h.tasks⟩

/-- Loaded floats are finite. -/
theorem finiteFloats_boot {maxConcurrent : Nat} {hashLe : Uuid → Uuid → Bool} {files : Files}
    (hsnapshot : ∀ rec ∈ files.snapshot.getD [], rec.isFinite = true)
    (hlog : ∀ event ∈ files.log, event.isFinite = true) :
    (boot maxConcurrent hashLe files).FiniteFloats := by
  refine ⟨Replay.forall_run (fun t rec hrec => ?_) fun old event hevent hold => ?_, nofun⟩
  · obtain ⟨row, hrow, -, rfl⟩ := mem_of_lookup_loadSnapshot hrec
    exact hsnapshot row hrow
  · obtain ⟨hpct, hmbps⟩ := Bool.and_eq_true_iff.mp (hlog event hevent)
    have hbase : (old.getD (recordOfEvent event)).isFinite = true := by
      cases old with
      | some rec => exact hold rec rfl
      | none =>
        refine TransferRecord.isFinite_iff.mpr ⟨?_, ?_⟩
        · show (event.progressPct.getD 0).isFinite = true
          cases hp : event.progressPct with
          | none => exact F64.isFinite_zero
          | some x => rwa [hp] at hpct
        · show (event.throughputMbps.getD 0).isFinite = true
          cases hm : event.throughputMbps with
          | none => exact F64.isFinite_zero
          | some x => rwa [hm] at hmbps
    obtain ⟨hbase₁, hbase₂⟩ := TransferRecord.isFinite_iff.mp hbase
    refine TransferRecord.isFinite_iff.mpr ⟨?_, ?_⟩
    · show (event.progressPct.getD _).isFinite = true
      cases hp : event.progressPct with
      | none => exact hbase₁
      | some x => rwa [hp] at hpct
    · show (event.throughputMbps.getD _).isFinite = true
      cases hm : event.throughputMbps with
      | none => exact hbase₂
      | some x => rwa [hm] at hmbps

end Finite

end ScTransport
