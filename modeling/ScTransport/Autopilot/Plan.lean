import ScTransport.Autopilot.Sender

/-!
# The plan of the shards

`plan_fec` chooses the width of a block and its parity before the transfer starts, and both go
into the manifest. `send_adaptive` has to stay in sync with that plan, while every feedback frame
sets the encoder anew.

* `Adaptive.Planned` — encoder and packets keep to the plan
* `planned_shards` — so the plan, the encoder and the receiver's coder agree in every transfer
-/

namespace ScTransport

open Infra

/-- The encoder and the packets keep to the parity of the manifest. -/
structure Adaptive.Planned (P : AdaptiveSetup) (s : Adaptive) : Prop where
  parity_le : s.sender.runtime.fec.parityShards ≤ P.parityCap
  parity_pos : 0 < P.parityCap → 0 < s.sender.runtime.fec.parityShards
  queues : ∀ path, ∀ q ∈ s.sender.queue path, q.isParity = true → q.parityIndex < P.parityCap
  wires : ∀ w ∈ s.wires, w.packet.isParity = true → w.packet.parityIndex < P.parityCap

section Invariant

variable {P : AdaptiveSetup} {s s' : Adaptive}

/-- A chunk of the first block that is skipped turns the parity off, for every block. -/
theorem parityCap_cases (P : AdaptiveSetup) :
    ((∃ i < P.manifest.dataShards, i ∈ P.skip) ∧ P.parityCap = 0) ∨
      ((∀ i < P.manifest.dataShards, i ∉ P.skip) ∧ P.parityCap = P.manifest.parityShards) := by
  unfold AdaptiveSetup.parityCap
  split
  · next h =>
    obtain ⟨i, hi, hskip⟩ := List.any_eq_true.mp h
    exact Or.inl ⟨⟨i, List.mem_range.mp hi, of_decide_eq_true hskip⟩, rfl⟩
  · next h =>
    refine Or.inr ⟨fun i hi hskip => h ?_, rfl⟩
    exact List.any_eq_true.mpr ⟨i, List.mem_range.mpr hi, decide_eq_true hskip⟩

theorem Adaptive.Planned.init (P : AdaptiveSetup) (st : IngestState) :
    (Adaptive.init P st).Planned P where
  parity_le := by
    show (if P.parityCap = 0 then 0 else P.manifest.parityShards) ≤ P.parityCap
    rcases parityCap_cases P with ⟨-, hcap⟩ | ⟨-, hcap⟩ <;> rw [hcap]
    · exact le_rfl
    · split
      · exact Nat.zero_le _
      · exact le_rfl
  parity_pos := by
    intro hpos
    show 0 < if P.parityCap = 0 then 0 else P.manifest.parityShards
    rw [if_neg hpos.ne']
    exact hpos.trans_le (parityCap_le P)
  queues path q hq := by cases path <;> exact absurd hq List.not_mem_nil
  wires w hw := absurd hw List.not_mem_nil

/-- Whatever parity the measurements ask for, the encoder gets a count the plan allows. -/
theorem applyFeedback_parity (P : AdaptiveSetup) (parity : Nat) {A : AutopilotRuntime}
    (hle : A.fec.parityShards ≤ P.parityCap) (hpos : 0 < P.parityCap → 0 < A.fec.parityShards)
    (fb : Option ReceiverFeedbackFrame) :
    (applyFeedbackIfPresent P parity A fb).fec.parityShards ≤ P.parityCap ∧
      (0 < P.parityCap → 0 < (applyFeedbackIfPresent P parity A fb).fec.parityShards) := by
  cases fb with
  | none => exact ⟨hle, hpos⟩
  | some fb =>
    have hcap : P.parityCap ≤ P.manifest.parityShards := parityCap_le P
    unfold applyFeedbackIfPresent
    dsimp only
    split
    · next hzero =>
      refine ⟨Nat.zero_le _, fun h => ?_⟩
      omega
    · next hzero =>
      refine ⟨?_, fun _ => ?_⟩ <;> omega

/-- The pipeline makes no more parity than the plan has. -/
theorem Adaptive.Honest.piped_parity (h : s.Honest P) {U : Utilities}
    {sent : List (Nat × Packet)}
    (hrun : runPipeline P.crates s.sender.runtime U P.parityCap s.sender.packets = .ok sent) :
    ∀ r ∈ sent, r.2.isParity = true → r.2.parityIndex < P.parityCap := by
  obtain ⟨sent', hrun', -, hsent⟩ := runPipeline_spec P.crates U P.parityCap h.enabled
    (by rw [h.paths]; decide) (Transfer.DataPacket.dataPackets h.dataShards h.packets)
  rw [hrun] at hrun'
  cases hrun'
  intro r hr hpar
  obtain ⟨-, e, he, heq, -⟩ := hsent r hr
  rw [heq] at hpar ⊢
  rcases he.cases with hmem | hparity
  · have hdata := (h.packets e hmem).isData
    exact absurd (hdata.symm.trans hpar) (by decide)
  · exact hparity.parityIndex

theorem Adaptive.Planned.sent (h : s.Planned P) (hhonest : s.Honest P) {l : SendLabel}
    {snd : SendAdaptive} (hm : SendMove P s.sender l snd) :
    { s with sender := snd }.Planned P := by
  cases hm with
  | applied hpc =>
    obtain ⟨hle, hpos⟩ := applyFeedback_parity P _ h.parity_le h.parity_pos
      s.sender.feedbackState
    exact ⟨hle, hpos, h.queues, h.wires⟩
  | piped hpc hrun =>
    have hparity := hhonest.piped_parity hrun
    refine { h with queues := fun path q hq => ?_ }
    have hold := h.queues path q
    cases path <;>
    · rcases List.mem_append.mp hq with hq | hq
      · exact hold hq
      · exact hparity _ (mem_handedTo.mp hq)
  | _ => exact { h with }

theorem Adaptive.Planned.unqueued (h : s.Planned P) (path : PathKind) (k : Nat) :
    { s with sender := s.sender.unqueue path k }.Planned P := by
  have hqueues : ∀ path', ∀ q ∈ (s.sender.unqueue path k).queue path',
      q.isParity = true → q.parityIndex < P.parityCap :=
    fun path' q hq => h.queues path' q (SendAdaptive.mem_queue_unqueue hq)
  cases path <;> exact { h with queues := hqueues }

theorem Adaptive.Planned.step (h : s.Planned P) (hhonest : s.Honest P) {l : AdaptiveLabel}
    (hs : (adaptive P).step s l = some s') : s'.Planned P := by
  cases AdaptiveMove.of_step hs with
  | sent hm => exact h.sent hhonest hm
  | wrote hq =>
    refine { h.unqueued _ _ with wires := fun w hw => ?_ }
    rcases List.mem_append.mp hw with hw | hw
    · exact h.wires w hw
    · rw [List.mem_singleton.mp hw, Written.packet_writePacketOnPath]
      exact h.queues _ _ (List.mem_of_getElem? hq)
  | unwritten hk => exact { h.unqueued _ _ with }
  | _ => exact { h with }

theorem Adaptive.Planned.run {ok : Adaptive → AdaptiveLabel → Prop} (h : s.Planned P)
    (hhonest : s.Honest P) (hrun : (adaptive P).Reach ok s s') : s'.Planned P := by
  induction hrun with
  | refl => exact h
  | step hreach hok hs ih => exact ih.step (hhonest.run hreach) hs

end Invariant

variable {R : FloatOps} {P : AdaptiveSetup}

/-- A plan has blocks, and parity for them. -/
theorem planFec_pos (rtt : Nat) (lossHint : Fl R) :
    0 < (planFec rtt lossHint).dataShards ∧ 0 < (planFec rtt lossHint).parityShards := by
  have hcases := planFec_cases rtt lossHint
  simp only [List.mem_cons, List.not_mem_nil, or_false] at hcases
  rcases hcases with h | h | h | h <;> rw [h] <;> decide

/--
**The plan is kept.** When the manifest has the shards `plan_fec` chose, the receiver builds its
coder in just these dimensions, and in every state of the transfer the encoder has their width.
Unless the receiver has a chunk of the first block already, the encoder makes at least one parity
row and at most those of the manifest, whatever the feedback said. If it has one, no parity is made
for any block.
-/
theorem planned_shards {rtt : Nat} {lossHint : Fl R}
    (hplan : P.transfer.fec = planFec rtt lossHint) (hrs : P.transfer.Decodable P.crates)
    {st : IngestState} {e : SenderEnv R} {s : Controlled R}
    (h : (controlled P R).Reach (fun _ _ => True) (.init P e st) s) :
    fecRsOf P.crates P.manifest =
        .ok (some ⟨P.manifest.dataShards, P.manifest.parityShards⟩) ∧
      s.autopilot.fec.dataShards = P.manifest.dataShards ∧
      (((∃ i < P.manifest.dataShards, i ∈ P.skip) ∧ s.autopilot.fec.parityShards = 0 ∧
          ∀ w ∈ s.data.wires, w.packet.isParity = false) ∨
        ((∀ i < P.manifest.dataShards, i ∉ P.skip) ∧ 1 ≤ s.autopilot.fec.parityShards ∧
          s.autopilot.fec.parityShards ≤ P.manifest.parityShards ∧
          ∀ w ∈ s.data.wires, w.packet.isParity = true →
            w.packet.parityIndex < P.manifest.parityShards)) := by
  obtain ⟨hseen, hreach⟩ := Controlled.reach_data h
  have hplanned := (Adaptive.Planned.init P st).run (Adaptive.Honest.init P st) hreach
  have hhonest := (Adaptive.Honest.init P st).run hreach
  have hfec : s.data.sender.runtime.fec = s.autopilot.fec :=
    congrArg AutopilotRuntime.fec hseen.runtime
  obtain ⟨hds, hps⟩ := planFec_pos rtt lossHint
  rw [← hplan] at hds hps
  refine ⟨?_, ?_, ?_⟩
  · have hcoder : P.transfer.coder = some ⟨P.manifest.dataShards, P.manifest.parityShards⟩ :=
      if_pos ⟨hps, hds⟩
    exact hcoder ▸ hrs.fecRsOf_eq
  · rw [← hfec, hhonest.dataShards]
    exact P.transfer.width_eq hds
  · rw [← hfec]
    rcases parityCap_cases P with ⟨hskip, hcap⟩ | ⟨hskip, hcap⟩
    · refine Or.inl ⟨hskip, Nat.le_zero.mp (hcap ▸ hplanned.parity_le), fun w hw => ?_⟩
      -- a parity row would have an index below zero
      refine Bool.eq_false_iff.mpr fun hpar => ?_
      have hlt := hplanned.wires w hw hpar
      rw [hcap] at hlt
      exact Nat.not_lt_zero _ hlt
    · refine Or.inr ⟨hskip, hplanned.parity_pos (hcap ▸ hps), hcap ▸ hplanned.parity_le, ?_⟩
      exact hcap ▸ hplanned.wires

/-- A round trip of 200 ms and a loss of 1 % plan blocks of two with one row of parity. -/
theorem sample_planned :
    ∃ s, (controlled sampleSetup binary64).exec (.init sampleSetup sampleSenderEnv sampleFresh)
        sampleControlled = some s ∧
      planFec 200000000 (0.01 : Fl binary64) = ⟨2, 1⟩ ∧ s.autopilot.fec.dataShards = 2 := by
  obtain ⟨s, hs, -⟩ := Option.map_eq_some_iff.mp sampleControlled_exec
  have hplan : planFec 200000000 (0.01 : Fl binary64) = ⟨2, 1⟩ := by decide +kernel
  exact ⟨s, hs, hplan, (planned_shards hplan.symm sampleBytewise_admissible.decodable
    (.of_exec hs)).2.1⟩

end ScTransport
