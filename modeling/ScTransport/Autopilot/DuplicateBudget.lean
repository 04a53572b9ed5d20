import ScTransport.Autopilot.Sender

/-!
# The duplicate budget

`SC_SCT_DUPLICATE_BUDGET` bounds the second copies in flight. Every packet of the pipeline is
followed by a tick that takes the copy off the count, so before a packet the count is zero and the
budget, which is at least one, never stops a copy.

* `MultiPathScheduler.duplicates_iff` — what is left of the condition if nothing is in flight
* `duplicate_budget_without_effect` — two transfers that differ in the budget do the same
-/

namespace ScTransport

open Infra

variable {R : FloatOps}

namespace MultiPathScheduler

variable (s : MultiPathScheduler R) (a : SendArgs R) (m : Fl R)

def withBudget (d : Nat) : MultiPathScheduler R := { s with duplicateBudget := d }

/-! ## Nothing in flight -/

theorem speculativeLimit_pos : 0 < s.speculativeLimit a := by
  have h2 : (2.0 : Fl R).val = (2 : ℕ) := Fl.val_literal (by norm_num) (by norm_num)
  have hclamp : ∀ x : Fl R, 2 ≤ (x.clamp 2.0 64.0).toNat := fun x =>
    Fl.le_toNat (h2 ▸ Fl.le_def.mp x.le_clamp)
  unfold speculativeLimit
  dsimp only
  split
  · exact lt_min (lt_of_lt_of_le (by decide) (hclamp _)) (by decide)
  · exact lt_of_lt_of_le (by decide) (hclamp _)

theorem dynamicDupBudget_pos (hbudget : 0 < s.duplicateBudget) : 0 < s.dynamicDupBudget a := by
  unfold dynamicDupBudget
  rw [if_neg hbudget.ne']
  refine Fl.le_toNat (n := 1) ?_
  rw [Nat.cast_one]
  exact Fl.le_def.mp (Fl.le_clamp _)

/-- What is asked of a second copy, the two limits apart. -/
structure Unlimited : Prop where
  pays : 0 < (s.charged a m).dupUtility a (s.routed a m)
  slow : (s.charged a m).lowCostFast (s.routed a m) = false
  fec : (s.charged a m).fecSufficient a (s.routed a m) = false
  noFec : highFecLargePayload a (s.routed a m) = false
  urgent : deadlineOnlyLarge a (s.routed a m) = false
  small : (s.paths[1 - (s.routed a m).primary]?).map TransportPath.kind = some .datagram →
    a.packet.info.size < 64 * 1024

variable {s}

/-- **With nothing in flight the limits do not matter.** -/
theorem duplicates_iff (hinflight : s.inFlightDuplicates = 0) (hbudget : 0 < s.duplicateBudget) :
    s.Duplicates a m ↔ s.Unlimited a m := by
  constructor
  · intro h
    exact ⟨h.pays, h.slow, h.fec, h.noFec, h.urgent, h.small⟩
  · intro h
    have hlimit := s.speculativeLimit_pos a
    have hdynamic := s.dynamicDupBudget_pos a hbudget
    exact ⟨hinflight.trans_lt hlimit, hinflight.trans_lt hdynamic, h.pays, h.slow, h.fec, h.noFec,
      h.urgent, h.small⟩

/-! ## A send with another budget -/

variable (s) (d : Nat)

theorem pace_withBudget : (s.withBudget d).pace a = (s.pace a).withBudget d := by
  unfold pace
  dsimp only
  split <;> rfl

theorem charge_withBudget (i bytes : Nat) :
    (s.withBudget d).charge i bytes = (s.charge i bytes).withBudget d := by
  have hmodels : (s.withBudget d).queueModels = s.queueModels := rfl
  have hpaths : (s.withBudget d).paths = s.paths := rfl
  unfold charge
  rw [hmodels, hpaths]
  cases s.queueModels[i]? <;> cases s.paths[i]? <;> rfl

theorem routed_withBudget :
    (s.withBudget d).routed a m =
      { s.routed a m with scheduler := (s.routed a m).scheduler.withBudget d } := by
  unfold routed
  rw [pace_withBudget]
  rfl

theorem charged_withBudget : (s.withBudget d).charged a m = (s.charged a m).withBudget d := by
  unfold charged account
  rw [routed_withBudget]
  dsimp only
  rw [charge_withBudget]
  rfl

theorem accountDuplicate_withBudget (r : Routed R) (i : Nat) :
    (s.withBudget d).accountDuplicate a r i = (s.accountDuplicate a r i).withBudget d := by
  have hcharge := charge_withBudget { s with inFlightDuplicates := s.inFlightDuplicates + 1 } d i
    a.packet.info.size
  unfold accountDuplicate
  dsimp only
  rw [show ({ s.withBudget d with
    inFlightDuplicates := (s.withBudget d).inFlightDuplicates + 1 } : MultiPathScheduler R) =
      withBudget { s with inFlightDuplicates := s.inFlightDuplicates + 1 } d from rfl, hcharge]
  rfl

/-- The other conditions on a second copy do not read the budget. -/
theorem conditions_withBudget (r : Routed R) (s' : MultiPathScheduler R) :
    (s.withBudget d).dupUtility a { r with scheduler := s' } = s.dupUtility a r ∧
      (s.withBudget d).lowCostFast { r with scheduler := s' } = s.lowCostFast r ∧
      (s.withBudget d).fecSufficient a { r with scheduler := s' } = s.fecSufficient a r :=
  ⟨rfl, rfl, rfl⟩

theorem unlimited_withBudget : (s.withBudget d).Unlimited a m ↔ s.Unlimited a m := by
  obtain ⟨hpays, hslow, hfec⟩ := (s.charged a m).conditions_withBudget a d (s.routed a m)
    ((s.routed a m).scheduler.withBudget d)
  have hrouted := s.routed_withBudget a m d
  have hcharged := s.charged_withBudget a m d
  constructor
  · rintro ⟨pays, slow, fec, noFec, urgent, small⟩
    rw [hcharged, hrouted] at pays slow fec
    rw [hrouted] at noFec urgent small
    exact ⟨hpays ▸ pays, hslow ▸ slow, hfec ▸ fec, noFec, urgent, small⟩
  · rintro ⟨pays, slow, fec, noFec, urgent, small⟩
    refine ⟨?_, ?_, ?_, ?_, ?_, ?_⟩ <;> rw [hrouted]
    · rw [hcharged, hpays]
      exact pays
    · rw [hcharged, hslow]
      exact slow
    · rw [hcharged, hfec]
      exact fec
    · exact noFec
    · exact urgent
    · exact small

variable {s a m d}

/-- A scheduler between two packets: whatever its budget, a copy is within it. -/
structure Ready (s : MultiPathScheduler R) : Prop where
  paths : 2 ≤ s.paths.length
  inFlightDuplicates : s.inFlightDuplicates = 0
  budget : 0 < s.duplicateBudget

/-- The budget decides nothing between two packets. -/
theorem distributeAndSend_withBudget (h : s.Ready) (hd : 0 < d) :
    (s.withBudget d).distributeAndSend a m =
      { s.distributeAndSend a m with
        scheduler := (s.distributeAndSend a m).scheduler.withBudget d } := by
  have hiff : (s.withBudget d).Duplicates a m ↔ s.Duplicates a m :=
    (duplicates_iff a m (s := s.withBudget d) h.inFlightDuplicates hd).trans
      ((unlimited_withBudget s a m d).trans (duplicates_iff a m h.inFlightDuplicates h.budget).symm)
  have hcharged := s.charged_withBudget a m d
  rcases s.distributeAndSend_cases a m h.paths rfl rfl with ⟨hnot, hsend⟩ | ⟨hdup, hsend⟩ <;>
    rcases (s.withBudget d).distributeAndSend_cases a m h.paths rfl rfl with
      ⟨hnot', hsend'⟩ | ⟨hdup', hsend'⟩
  · rw [hsend, hsend', hcharged]
    rfl
  · exact absurd (hiff.mp hdup') hnot
  · exact absurd (hiff.mpr hdup) hnot'
  · rw [hsend, hsend', hcharged, routed_withBudget, accountDuplicate_withBudget]
    rfl

theorem Ready.applyNetworkSample (h : s.Ready) (rtt : Nat) (bandwidth loss : Fl R) :
    (s.applyNetworkSample rtt bandwidth loss).Ready :=
  ⟨h.paths.trans_eq (List.length_map ..).symm, h.inFlightDuplicates, h.budget⟩

end MultiPathScheduler

/-! ## The pipeline with another budget -/

namespace Autopilot

def withBudget (A : Autopilot R) (d : Nat) : Autopilot R :=
  { A with scheduler := A.scheduler.withBudget d }

def Loop.withBudget (st : Loop R) (d : Nat) : Loop R :=
  { st with autopilot := st.autopilot.withBudget d }

theorem sendPacket_ready {st : Loop R} (h : st.autopilot.scheduler.Ready) (clock : LoopClock)
    (pkt : Packet) : (sendPacket st clock pkt).autopilot.scheduler.Ready := by
  have hruntime := congrArg AutopilotRuntime.paths (sendPacket_toRuntime h.paths clock pkt)
  have hbudget : ∀ a m, (st.autopilot.scheduler.distributeAndSend a m).scheduler.duplicateBudget =
      st.autopilot.scheduler.duplicateBudget := fun a m =>
    (st.autopilot.scheduler.distributeAndSend_sends a m h.paths).duplicateBudget
  refine ⟨h.paths.trans_eq hruntime.symm, sendPacket_inFlight h.paths h.inFlightDuplicates _ _, ?_⟩
  unfold sendPacket
  dsimp only
  split <;> exact h.budget.trans_eq (hbudget _ _).symm

theorem sendLoop_ready (clock : Nat → LoopClock) :
    ∀ (encoded : List Packet) (k : Nat) {st : Loop R}, st.autopilot.scheduler.Ready →
      (sendLoop clock k encoded st).autopilot.scheduler.Ready
  | [], _, _, h => h
  | pkt :: rest, k, _, h => sendLoop_ready clock rest (k + 1) (sendPacket_ready h (clock k) pkt)

theorem sendPacket_withBudget {st : Loop R} (h : st.autopilot.scheduler.Ready) {d : Nat}
    (hd : 0 < d) (clock : LoopClock) (pkt : Packet) :
    sendPacket (st.withBudget d) clock pkt = (sendPacket st clock pkt).withBudget d := by
  have hsend : ∀ a m, (st.withBudget d).autopilot.scheduler.distributeAndSend a m =
      { st.autopilot.scheduler.distributeAndSend a m with
        scheduler := (st.autopilot.scheduler.distributeAndSend a m).scheduler.withBudget d } :=
    fun a m => MultiPathScheduler.distributeAndSend_withBudget h hd
  unfold sendPacket
  dsimp only
  rw [hsend]
  split <;> rfl

theorem sendLoop_withBudget (clock : Nat → LoopClock) {d : Nat} (hd : 0 < d) :
    ∀ (encoded : List Packet) (k : Nat) {st : Loop R}, st.autopilot.scheduler.Ready →
      sendLoop clock k encoded (st.withBudget d) = (sendLoop clock k encoded st).withBudget d
  | [], _, _, _ => rfl
  | pkt :: rest, k, st, h => by
    show sendLoop clock (k + 1) rest (sendPacket (st.withBudget d) (clock k) pkt) = _
    rw [sendPacket_withBudget h hd]
    exact sendLoop_withBudget clock hd rest (k + 1) (sendPacket_ready h (clock k) pkt)

variable {A : Autopilot R}

theorem runPipeline_withBudget (h : A.scheduler.Ready) {d : Nat} (hd : 0 < d) (X : Crates)
    (E : PipelineEnv) (cap : Nat) (packets : List Packet) :
    (A.withBudget d).runPipeline X E cap packets =
      (A.runPipeline X E cap packets).map fun r => (r.1.withBudget d, r.2) := by
  have hutilities : (A.withBudget d).utilities E = A.utilities E := rfl
  have hruntime : (A.withBudget d).toRuntime = A.toRuntime := rfl
  unfold runPipeline
  rw [hutilities, hruntime]
  dsimp only
  cases optimizeTransfer A.toRuntime (A.utilities E) packets with
  | error e => rfl
  | ok input =>
    dsimp only
    cases encodeStage X A.toRuntime (A.utilities E) cap (prioritize (A.utilities E) input) with
    | error e => rfl
    | ok encoded =>
      show Except.ok (finish (sendLoop E.clock 0 encoded (Loop.withBudget
        ⟨A.withSnapshot E packets, [], [], []⟩ d)), (sendLoop E.clock 0 encoded
          (Loop.withBudget ⟨A.withSnapshot E packets, [], [], []⟩ d)).log) = _
      rw [sendLoop_withBudget E.clock hd encoded 0 h]
      rfl

theorem applyFeedback_withBudget (P : AdaptiveSetup) (d defaultRtt : Nat) (m : Measurements R)
    (fb : Option ReceiverFeedbackFrame) :
    (A.withBudget d).applyFeedbackIfPresent P defaultRtt m fb =
      (A.applyFeedbackIfPresent P defaultRtt m fb).withBudget d := by
  cases fb with
  | none => rfl
  | some fb =>
    obtain ⟨completedBlockId, blockReconstructable, missing⟩ := fb
    cases blockReconstructable <;> cases completedBlockId <;> rfl

theorem applyFeedback_budget (P : AdaptiveSetup) (defaultRtt : Nat) (m : Measurements R)
    (fb : Option ReceiverFeedbackFrame) :
    (A.applyFeedbackIfPresent P defaultRtt m fb).scheduler.duplicateBudget =
      A.scheduler.duplicateBudget := by
  cases fb with
  | none => rfl
  | some fb =>
    obtain ⟨completedBlockId, blockReconstructable, missing⟩ := fb
    cases blockReconstructable <;> cases completedBlockId <;> rfl

end Autopilot

/-! ## A transfer with another budget -/

namespace Controlled

variable {P : AdaptiveSetup} {s : Controlled R} {d : Nat}

def withBudget (s : Controlled R) (d : Nat) : Controlled R :=
  { s with autopilot := s.autopilot.withBudget d }

theorem ready_step {s' : Controlled R} {l : ControlledLabel R} (h : s.autopilot.scheduler.Ready)
    (hstep : (controlled P R).step s l = some s') : s'.autopilot.scheduler.Ready := by
  cases l with
  | apply defaultRtt m =>
    simp only [controlled, controlledStep] at hstep
    split at hstep
    · cases hstep
      obtain ⟨-, hinflight, hpaths⟩ := s.autopilot.applyFeedback_scheduler (P := P) defaultRtt
        m s.data.sender.feedbackState s.log
      exact ⟨h.paths.trans_eq hpaths.symm, hinflight.trans h.inFlightDuplicates,
        h.budget.trans_eq (Autopilot.applyFeedback_budget P _ _ _).symm⟩
    · cases hstep
  | pipeline E sampleRtt cwnd =>
    simp only [controlled, controlledStep] at hstep
    split at hstep
    · split at hstep
      · cases hstep
      · next A log hrun =>
        cases hstep
        obtain ⟨input, encoded, st, -, -, hst, rfl, rfl⟩ := Autopilot.runPipeline_cases hrun
        have hready : st.autopilot.scheduler.Ready := by
          rw [hst]
          exact Autopilot.sendLoop_ready E.clock encoded 0 h
        exact hready.applyNetworkSample _ _ _
    · cases hstep
  | other l =>
    simp only [controlled, controlledStep] at hstep
    split at hstep
    · cases hstep
    · obtain ⟨data, -, rfl⟩ := Option.map_eq_some_iff.mp hstep
      exact h

theorem step_withBudget (hd : 0 < d) (l : ControlledLabel R) (h : s.autopilot.scheduler.Ready) :
    (controlled P R).step (s.withBudget d) l =
      ((controlled P R).step s l).map fun s' => s'.withBudget d := by
  have hdata : (s.withBudget d).data = s.data := rfl
  have hautopilot : (s.withBudget d).autopilot = s.autopilot.withBudget d := rfl
  cases l with
  | apply defaultRtt m =>
    simp only [controlled, controlledStep, hdata, hautopilot, Autopilot.applyFeedback_withBudget]
    cases s.data.sender.pc <;> rfl
  | pipeline E sampleRtt cwnd =>
    simp only [controlled, controlledStep, hdata, hautopilot,
      Autopilot.runPipeline_withBudget h hd]
    cases s.data.sender.pc <;> try rfl
    cases s.autopilot.runPipeline P.crates E P.parityCap s.data.sender.packets <;> rfl
  | other l =>
    simp only [controlled, controlledStep, hdata]
    split
    · rfl
    · cases adaptiveStep P s.data l <;> rfl

end Controlled

/--
**The duplicate budget has no effect.** A transfer goes the same way step by step whatever
`SC_SCT_DUPLICATE_BUDGET` says: the same packets to the same paths, the same state on both sides and
the same metrics. Every packet is followed by a tick, so no copy is in flight when the next one is
compared with the budget.
-/
theorem duplicate_budget_without_effect (P : AdaptiveSetup) (e : SenderEnv R) (st : IngestState)
    (d d' : Nat) (labels : List (ControlledLabel R)) :
    ((controlled P R).exec (.init P { e with duplicateBudget := d } st) labels).map
        (fun s => (s.data, s.log, s.autopilot.metrics)) =
      ((controlled P R).exec (.init P { e with duplicateBudget := d' } st) labels).map
        fun s => (s.data, s.log, s.autopilot.metrics) := by
  have hd : 0 < max d 1 := by omega
  have hready : (Controlled.init P { e with duplicateBudget := d' } st).autopilot.scheduler.Ready :=
    ⟨le_rfl, rfl, by show 0 < max d' 1; omega⟩
  have hinit : Controlled.init P { e with duplicateBudget := d } st =
      (Controlled.init P { e with duplicateBudget := d' } st).withBudget (max d 1) := rfl
  have hexec := Lts.exec_map (S := controlled P R) (f := fun s => s.withBudget (max d 1))
    Controlled.ready_step (fun l hs => Controlled.step_withBudget hd l hs) labels hready
  rw [hinit, hexec, Option.map_map]
  rfl

end ScTransport
