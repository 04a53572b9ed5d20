import ScTransport.Autopilot.Scheduler
import ScTransport.Infra.Lts
import Mathlib.Algebra.BigOperators.Group.List.Basic

/-!
# Runs of the multipath scheduler

Packets are sent and feedback comes in, in any order. Whatever the arguments are, the path of a
packet is fixed beforehand by the seed and the number of packets before it.

* `routing_of_reach` — the path of every packet of a run
* `scheduler_of_reach` — tokens, backlogs, copies in flight and counters in every run
* `single_copies_of_reach` — without losses there are no second copies
-/

namespace ScTransport

open Infra

variable {R : FloatOps}

inductive SchedulerLabel (R : FloatOps) where
  | send (a : SendArgs R) (utilityMomentum : Fl R)
  | tick
  | mark (fecGroup : Nat)
  | sample (rtt : Nat) (bandwidthBps lossRate : Fl R)
  | ratio (speculativeRatio : Fl R)

/-- The scheduler, with the packets so far and what the paths were handed for each of them. -/
structure SchedulerRun (R : FloatOps) where
  scheduler : MultiPathScheduler R
  log : List (Packet × List (Nat × Packet))

def schedulerSystem (R : FloatOps) : Lts (SchedulerRun R) (SchedulerLabel R) where
  step s l := some <| match l with
    | .send a utilityMomentum =>
      let out := s.scheduler.distributeAndSend a utilityMomentum
      ⟨out.scheduler, s.log ++ [(a.packet, out.handed)]⟩
    | .tick => { s with scheduler := s.scheduler.onFeedbackTick }
    | .mark fecGroup => { s with scheduler := s.scheduler.markReconstructable fecGroup }
    | .sample rtt bandwidthBps lossRate =>
      { s with scheduler := s.scheduler.applyNetworkSample rtt bandwidthBps lossRate }
    | .ratio speculativeRatio =>
      { s with scheduler := { s.scheduler with speculativeRatio := speculativeRatio } }

/-- The scheduler `send_adaptive` starts with. -/
def MultiPathScheduler.init (R : FloatOps) (duplicateBudget now : Nat) : MultiPathScheduler R where
  paths := [.new .stream, .new .datagram]
  speculativeRatio := 0
  duplicateBudget := duplicateBudget
  inFlightDuplicates := 0
  knownReconstructable := ∅
  tokens := 2.0 * 1500.0
  lastTokenRefill := now - 50 * 1000000
  lastPrimaryUtility := 0.12
  queueModels := []
  pathCorrelation := .fromPathKinds [.stream, .datagram]
  optimizationKpi := .default
  explorationSeed := 0xC0FFEE

/-! ## Routing -/

/-- A packet goes to path `i`, and a second copy to the other one of the first two paths. -/
def Routes (i : Nat) (packet : Packet) (handed : List (Nat × Packet)) : Prop :=
  ∃ deadline, handed = [(i, packet.stampedAt deadline)] ∨
    handed = [(i, packet.stampedAt deadline), (1 - i, packet.stampedAt deadline)]

theorem MultiPathScheduler.Sends.routes {s : MultiPathScheduler R} {a : SendArgs R} {m : Fl R}
    {out : Sent R} (h : s.Sends a m out) :
    Routes (primaryPath R s.explorationSeed a.packet.info.size) a.packet out.handed := by
  obtain ⟨i, pkt, rfl, rfl, hcopies⟩ := h.copies
  exact ⟨_, hcopies.imp (fun h => h.2.1) fun h => h.2.1⟩

/-- The seed has moved on once for every packet, and picked its path. -/
structure SchedulerRun.Follows (seed : UInt64) (s : SchedulerRun R) : Prop where
  paths : 2 ≤ s.scheduler.paths.length
  explorationSeed : s.scheduler.explorationSeed = xorshift^[s.log.length] seed
  routes : ∀ k packet handed, s.log[k]? = some (packet, handed) →
    Routes (primaryPath R (xorshift^[k] seed) packet.info.size) packet handed

theorem SchedulerRun.Follows.step {seed : UInt64} {s s' : SchedulerRun R} {l : SchedulerLabel R}
    (h : s.Follows seed) (hstep : (schedulerSystem R).step s l = some s') : s'.Follows seed := by
  obtain rfl := Option.some.inj hstep
  cases l with
  | tick => exact ⟨h.paths, h.explorationSeed, h.routes⟩
  | mark fecGroup => exact ⟨h.paths, h.explorationSeed, h.routes⟩
  | ratio speculativeRatio => exact ⟨h.paths, h.explorationSeed, h.routes⟩
  | sample rtt bandwidthBps lossRate =>
    refine ⟨?_, h.explorationSeed, h.routes⟩
    show 2 ≤ (s.scheduler.paths.map _).length
    rw [List.length_map]
    exact h.paths
  | send a m =>
    have hsends := s.scheduler.distributeAndSend_sends a m h.paths
    refine ⟨?_, ?_, fun k packet handed hk => ?_⟩
    · show 2 ≤ (s.scheduler.distributeAndSend a m).scheduler.paths.length
      rw [hsends.paths]
      exact h.paths
    · show (s.scheduler.distributeAndSend a m).scheduler.explorationSeed =
        xorshift^[(s.log ++ [_]).length] seed
      rw [hsends.explorationSeed, h.explorationSeed, List.length_append, List.length_singleton,
        Function.iterate_succ_apply']
    · by_cases hlt : k < s.log.length
      · rw [List.getElem?_append_left hlt] at hk
        exact h.routes k packet handed hk
      · -- the packet that is sent now
        rw [List.getElem?_append_right (not_lt.mp hlt), List.getElem?_singleton] at hk
        split at hk
        · next hzero =>
          obtain ⟨rfl, rfl⟩ := Prod.mk.inj (Option.some.inj hk)
          have hk' : k = s.log.length := by omega
          rw [hk', ← h.explorationSeed]
          exact hsends.routes
        · cases hk

/--
**The paths do not influence the routing.** In every run of a scheduler with two paths or more,
whatever round trips, bandwidths and losses are reported and however sends and feedback are
interleaved, the `k`-th packet goes to the path that the seed after `k + 1` steps and the size of
the packet pick out of the first two. A second copy goes to the other one of these, and no further
path is ever used.
-/
theorem routing_of_reach {scheduler : MultiPathScheduler R} (hn : 2 ≤ scheduler.paths.length)
    {s : SchedulerRun R}
    (h : (schedulerSystem R).Reach (fun _ _ => True) ⟨scheduler, []⟩ s) (k : Nat)
    (packet : Packet) (handed : List (Nat × Packet)) (hk : s.log[k]? = some (packet, handed)) :
    Routes (primaryPath R (xorshift^[k] scheduler.explorationSeed) packet.info.size) packet
      handed := by
  have hfollows : s.Follows scheduler.explorationSeed :=
    h.invariant ⟨hn, rfl, nofun⟩ fun hs _ hstep => hs.step hstep
  exact hfollows.routes k packet handed hk

def sampleStabilization : PacketStabilization binary64 :=
  ((PredictiveStabilizer.default 0).preparePacket ⟨0, .default, [], ⟨0, 0, 0⟩, 0⟩).2

def sampleSend (packet : Packet) : SchedulerLabel binary64 :=
  .send
    { packet := packet
      block := ⟨0, 3, 2, 0, 0, 1⟩
      tailPenalty := 0
      fecParityRatio := 0.5
      parityShards := 1
      targetSendRate := 1000.0
      congestion := ⟨0, 0, 0⟩
      inflight := []
      stab := sampleStabilization
      clock := ⟨0, 0, 0, 0, 0, 0⟩ } 0

/-- Two packets and a measurement between them. -/
def sampleSends : List (SchedulerLabel binary64) :=
  [sampleSend (samplePacket 0 [5, 6]), .tick, .sample 20000000 8000000.0 0,
    sampleSend (samplePacket 1 [7]), .tick]

theorem sample_routing :
    ∃ s handed, (schedulerSystem binary64).exec ⟨.init binary64 4 0, []⟩ sampleSends = some s ∧
      s.log[1]? = some (samplePacket 1 [7], handed) ∧
      Routes (primaryPath binary64
        (xorshift^[1] (MultiPathScheduler.init binary64 4 0).explorationSeed)
        (samplePacket 1 [7]).info.size) (samplePacket 1 [7]) handed := by
  have hexec : ((schedulerSystem binary64).exec ⟨.init binary64 4 0, []⟩ sampleSends).map
      (fun s => s.log.map Prod.fst) = some [samplePacket 0 [5, 6], samplePacket 1 [7]] := rfl
  obtain ⟨s, hs, hlog⟩ := Option.map_eq_some_iff.mp hexec
  have hsecond : (s.log[1]?).map Prod.fst = some (samplePacket 1 [7]) := by
    rw [← List.getElem?_map, hlog]
    rfl
  obtain ⟨⟨packet, handed⟩, hget, rfl⟩ := Option.map_eq_some_iff.mp hsecond
  exact ⟨s, handed, hs, hget, routing_of_reach le_rfl (.of_exec hs) 1 _ _ hget⟩

/-! ### The seed of a transfer -/

/-- Draws below `2 ^ 54` explore, whatever the rounding and the size. -/
theorem explores_of_le {seed : UInt64} (h : (xorshift seed).toNat ≤ 2 ^ 54) (size : Nat) :
    explores R seed size = true := by
  have hdraw : ((xorshift seed).toNat : Fl R).val ≤ 2 ^ 54 := by
    simpa using Fl.val_natCast_le (R := R) (m := 1) (k := 54) (by norm_num) (by simpa using h)
  have hmax : (2 : ℚ) ^ 63 ≤ ((u64Max : Nat) : Fl R).val := by
    simpa using Fl.le_val_natCast (R := R) (n := u64Max) (m := 1) (k := 63) (by norm_num)
      (by decide)
  have hbound : (Fl.ofRat (2 ^ (-9 : ℤ)) : Fl R).val = 2 ^ (-9 : ℤ) :=
    Fl.val_ofRat (m := 1) (k := -9) (by norm_num) (by norm_num)
  have hu : (seedU01 (xorshift seed) : Fl R) ≤ Fl.ofRat (2 ^ (-9 : ℤ)) := by
    refine max_le (Fl.ofRat_nonneg (by positivity)) ((min_le_left _ _).trans (Fl.ofRat_le ?_))
    rw [div_le_iff₀ (lt_of_lt_of_le (by norm_num) hmax)]
    calc ((xorshift seed).toNat : Fl R).val ≤ 2 ^ 54 := hdraw
      _ = 2 ^ (-9 : ℤ) * 2 ^ 63 := by norm_num
      _ ≤ 2 ^ (-9 : ℤ) * ((u64Max : Nat) : Fl R).val := by gcongr
  have hepsilon : (0.01 : Fl R) ≤ (explorationEpsilon size : Fl R).clamp 0 0.5 := by
    refine (le_min ?_ (Fl.literal_le (by norm_num))).trans (le_max_right _ _)
    unfold explorationEpsilon
    split
    · exact le_rfl
    · split <;> exact Fl.literal_le (by norm_num)
  have hgap : (Fl.ofRat (2 ^ (-9 : ℤ)) : Fl R) < 0.01 := by
    rw [Fl.lt_def, hbound]
    calc (2 : ℚ) ^ (-9 : ℤ) < 2 ^ (-7 : ℤ) := by norm_num
      _ = R.rnd (2 ^ (-7 : ℤ)) := (R.rnd_two_zpow _).symm
      _ ≤ R.rnd 0.01 := R.mono (by norm_num)
  exact decide_eq_true (hu.trans_lt (hgap.trans_le hepsilon))

/-- Draws from `27 * 2 ^ 55` on do not. -/
theorem not_explores_of_le {seed : UInt64} (h : 27 * 2 ^ 55 ≤ (xorshift seed).toNat)
    (size : Nat) : explores R seed size = false := by
  have hdraw : (27 : ℚ) * 2 ^ 55 ≤ ((xorshift seed).toNat : Fl R).val := by
    simpa using Fl.le_val_natCast (R := R) (m := 27) (k := 55) (by norm_num) h
  have hmax : ((u64Max : Nat) : Fl R).val ≤ 2 ^ 64 := by
    simpa using Fl.val_natCast_le (R := R) (n := u64Max) (m := 1) (k := 64) (by norm_num)
      (by decide)
  have hpos : (0 : ℚ) < ((u64Max : Nat) : Fl R).val := by
    have := Fl.le_val_natCast (R := R) (n := u64Max) (m := 1) (k := 63) (by norm_num) (by decide)
    exact lt_of_lt_of_le (by norm_num) this
  have hepsilon : (explorationEpsilon size : Fl R).clamp 0 0.5 ≤ Fl.ofRat (27 / 512) := by
    refine max_le (Fl.ofRat_nonneg (by norm_num)) ((min_le_left _ _).trans ?_)
    unfold explorationEpsilon
    split
    · exact Fl.ofRat_le (by norm_num)
    · split <;> exact Fl.ofRat_le (by norm_num)
  have hu : (Fl.ofRat (27 / 512) : Fl R) ≤ seedU01 (xorshift seed) := by
    refine (le_min (Fl.ofRat_le ?_) ?_).trans (le_max_right _ _)
    · rw [le_div_iff₀ hpos]
      calc (27 / 512 : ℚ) * ((u64Max : Nat) : Fl R).val ≤ 27 / 512 * 2 ^ 64 := by gcongr
        _ = 27 * 2 ^ 55 := by norm_num
        _ ≤ _ := hdraw
    · rw [← Fl.ofRat_one]
      exact Fl.ofRat_le (by norm_num)
  exact decide_eq_false (not_lt.mpr (hepsilon.trans hu))

theorem explores_first (size : Nat) : explores R 0xC0FFEE size = true :=
  explores_of_le (by decide) size

theorem not_explores_next {k : Nat} (h1 : 1 ≤ k) (h48 : k ≤ 48) (size : Nat) :
    explores R (xorshift^[k] 0xC0FFEE) size = false := by
  have hdraws : ∀ k < 49, 1 ≤ k → 27 * 2 ^ 55 ≤ (xorshift (xorshift^[k] 0xC0FFEE)).toNat := by
    decide +kernel
  exact not_explores_of_le (hdraws k (by omega) h1) size

/-! ## Limits and counters -/

namespace MultiPathScheduler

variable (s : MultiPathScheduler R) (a : SendArgs R)

theorem speculativeLimit_le : s.speculativeLimit a ≤ 64 := by
  have h2 : (2.0 : Fl R) ≤ 64.0 := Fl.literal_le (by norm_num)
  have h64 : (64.0 : Fl R).val = 64 := by
    exact_mod_cast Fl.val_literal (R := R) (n := 64) (by norm_num) (by norm_num)
  have hclamp : ∀ x : Fl R, (x.clamp 2.0 64.0).toNat ≤ 64 := by
    intro x
    refine Fl.toNat_le ?_
    have hle := Fl.le_def.mp (x.clamp_le h2)
    rw [h64] at hle
    exact_mod_cast hle
  unfold speculativeLimit
  dsimp only
  split
  · exact (min_le_left _ _).trans (hclamp _)
  · exact hclamp _

theorem dynamicDupBudget_le (hbudget : s.duplicateBudget ≤ 2 ^ 53) :
    s.dynamicDupBudget a ≤ s.duplicateBudget := by
  unfold dynamicDupBudget
  split
  · exact Nat.zero_le _
  · next hne =>
    have hval : (s.duplicateBudget : Fl R).val = s.duplicateBudget := Fl.val_natCast hbudget
    have hone : (1 : Fl R) ≤ s.duplicateBudget := by
      rw [Fl.le_def, hval, Fl.val_one]
      exact_mod_cast Nat.one_le_iff_ne_zero.mpr hne
    refine Fl.toNat_le ?_
    have hle := Fl.le_def.mp
      (Fl.clamp_le ((s.duplicateBudget : Fl R) * a.stab.budget.maxInflightGrowth).round hone)
    rw [hval] at hle
    exact hle

/-- A budget too large to be a float is larger than the limit of 64 anyway. -/
theorem Duplicates.inFlight_le {s : MultiPathScheduler R} {a : SendArgs R} {m : Fl R}
    (h : s.Duplicates a m) : s.inFlightDuplicates + 1 ≤ min s.duplicateBudget 64 := by
  have hlimit := s.speculativeLimit_le a
  have hlt := h.limit
  refine le_min ?_ (by omega)
  by_cases hbudget : s.duplicateBudget ≤ 2 ^ 53
  · have hdynamic := s.dynamicDupBudget_le a hbudget
    have hlt' := h.budget
    omega
  · omega

/-- A refill at a rate that is not negative keeps the tokens, and a packet takes at most all. -/
theorem pace_tokens (hrate : 0 ≤ a.targetSendRate) (hscale : 0 ≤ a.stab.pacingScale)
    (h : 0 ≤ s.tokens) : 0 ≤ (s.pace a).tokens ∧ (s.pace a).tokens ≤ 2.0 * 1500.0 := by
  have h8 : (0 : Fl R) ≤ 8.0 := (Fl.pos_literal (by norm_num)).le
  have hburst : (0 : Fl R) ≤ 2.0 * 1500.0 :=
    Fl.nonneg_mul (Fl.pos_literal (by norm_num)).le (Fl.pos_literal (by norm_num)).le
  obtain ⟨paced, hpaced⟩ : ∃ paced, paced = s.syncQueueModelsAndCorrelation.refillTokens
      a.clock.refill (a.targetSendRate * a.stab.pacingScale) := ⟨_, rfl⟩
  have hrefill : 0 ≤ paced.tokens ∧ paced.tokens ≤ 2.0 * 1500.0 := by
    rw [hpaced]
    refine ⟨le_min (Fl.nonneg_add h ?_) hburst, min_le_right _ _⟩
    exact Fl.nonneg_div (Fl.nonneg_mul (Fl.nonneg_asSecs _) (Fl.nonneg_mul hrate hscale)) h8
  unfold pace
  dsimp only
  rw [← hpaced]
  split
  · exact ⟨le_max_right _ _, max_le
      ((Fl.sub_le_self (Fl.nonneg_natCast _)).trans hrefill.2) hburst⟩
  · exact hrefill

end MultiPathScheduler

/-- The rates of a send are not negative. -/
def SchedulerLabel.Paced : SchedulerLabel R → Prop
  | .send a _ => 0 ≤ a.targetSendRate ∧ 0 ≤ a.stab.pacingScale
  | _ => True

/-- The bytes of the packets of a log. -/
def loggedBytes (log : List (Packet × List (Nat × Packet))) : Nat :=
  (log.map fun r => r.1.info.size).sum

/-- The part of a log where there were two copies. -/
def doubled (log : List (Packet × List (Nat × Packet))) : List (Packet × List (Nat × Packet)) :=
  log.filter fun r => r.2.length = 2

namespace SchedulerRun

structure Within (budget : Nat) (s : SchedulerRun R) : Prop where
  paths : 2 ≤ s.scheduler.paths.length
  duplicateBudget : s.scheduler.duplicateBudget = budget
  tokens : 0 ≤ s.scheduler.tokens ∧ s.scheduler.tokens ≤ 2.0 * 1500.0
  inFlightDuplicates : s.scheduler.inFlightDuplicates ≤ min budget 64
  pacingBacklog : ∀ q ∈ s.scheduler.queueModels, q.pacingBacklog ≤ 3000
  bytesSent : s.scheduler.optimizationKpi.bytesSent = min (loggedBytes s.log) u64Max
  duplicateBytes :
    s.scheduler.optimizationKpi.duplicateBytes = min (loggedBytes (doubled s.log)) u64Max
  utilitySum : s.scheduler.optimizationKpi.utilitySum = 0

theorem satAdd_min (n size : Nat) : satAdd (min n u64Max) size = min (n + size) u64Max := by
  unfold satAdd
  omega

theorem loggedBytes_concat (log : List (Packet × List (Nat × Packet)))
    (r : Packet × List (Nat × Packet)) :
    loggedBytes (log ++ [r]) = loggedBytes log + r.1.info.size := by
  simp [loggedBytes]

theorem doubled_concat (log : List (Packet × List (Nat × Packet)))
    (r : Packet × List (Nat × Packet)) :
    doubled (log ++ [r]) = doubled log ++ if r.2.length = 2 then [r] else [] := by
  unfold doubled
  rw [List.filter_append, List.filter_singleton]
  simp

theorem Within.step {budget : Nat} {s s' : SchedulerRun R} {l : SchedulerLabel R}
    (h : s.Within budget) (hl : l.Paced) (hstep : (schedulerSystem R).step s l = some s') :
    s'.Within budget := by
  obtain rfl := Option.some.inj hstep
  cases l with
  | mark fecGroup =>
    exact ⟨h.paths, h.duplicateBudget, h.tokens, h.inFlightDuplicates, h.pacingBacklog,
      h.bytesSent, h.duplicateBytes, h.utilitySum⟩
  | ratio speculativeRatio =>
    exact ⟨h.paths, h.duplicateBudget, h.tokens, h.inFlightDuplicates, h.pacingBacklog,
      h.bytesSent, h.duplicateBytes, h.utilitySum⟩
  | sample rtt bandwidthBps lossRate =>
    refine ⟨?_, h.duplicateBudget, h.tokens, h.inFlightDuplicates, h.pacingBacklog, h.bytesSent,
      h.duplicateBytes, h.utilitySum⟩
    show 2 ≤ (s.scheduler.paths.map _).length
    rw [List.length_map]
    exact h.paths
  | tick =>
    refine ⟨h.paths, h.duplicateBudget, h.tokens, (Nat.sub_le _ 1).trans h.inFlightDuplicates,
      fun q hq => ?_, h.bytesSent, h.duplicateBytes, h.utilitySum⟩
    obtain ⟨old, hold, rfl⟩ := List.mem_map.mp hq
    exact h.pacingBacklog old hold
  | send a m =>
    obtain ⟨out, hout⟩ : ∃ out, out = s.scheduler.distributeAndSend a m := ⟨_, rfl⟩
    have hsends : s.scheduler.Sends a m out :=
      hout ▸ s.scheduler.distributeAndSend_sends a m h.paths
    have htokens := s.scheduler.pace_tokens a hl.1 hl.2 h.tokens.1
    have hcopies : out.scheduler.inFlightDuplicates ≤ min budget 64 ∧
        out.scheduler.optimizationKpi.duplicateBytes =
          min (loggedBytes (doubled (s.log ++ [(a.packet, out.handed)]))) u64Max := by
      obtain ⟨i, pkt, -, -, hcases⟩ := hsends.copies
      rw [doubled_concat]
      rcases hcases with ⟨-, hhanded, hinflight, hdup⟩ | ⟨hd, hhanded, hinflight, hdup⟩
      · rw [hhanded, hinflight, hdup, h.duplicateBytes, if_neg (by simp), List.append_nil]
        exact ⟨h.inFlightDuplicates, rfl⟩
      · have hinflight_le := hd.inFlight_le
        rw [h.duplicateBudget] at hinflight_le
        rw [hhanded, hinflight, hdup, h.duplicateBytes, if_pos (by simp), loggedBytes_concat,
          satAdd_min]
        exact ⟨hinflight_le, rfl⟩
    show Within budget ⟨(s.scheduler.distributeAndSend a m).scheduler,
      s.log ++ [(a.packet, (s.scheduler.distributeAndSend a m).handed)]⟩
    rw [← hout]
    refine ⟨hsends.paths.symm ▸ h.paths, hsends.duplicateBudget.trans h.duplicateBudget,
      hsends.tokens.symm ▸ htokens, hcopies.1, fun q hq => ?_, ?_, hcopies.2,
      hsends.utilitySum.trans h.utilitySum⟩
    · exact (hsends.queueModels q hq).elim (h.pacingBacklog q) id
    · show out.scheduler.optimizationKpi.bytesSent = _
      rw [hsends.bytesSent, h.bytesSent, loggedBytes_concat, satAdd_min]

end SchedulerRun

/--
**The scheduler of a transfer.** In every run of the scheduler `send_adaptive` starts with, its
tokens stay within two segments, no queue model has a larger backlog, there are never more copies
in flight than the budget and 64 allow, and the counters of bytes add up, until they saturate. The
sum of the utilities, of which the sender reports the mean, is zero.
-/
theorem scheduler_of_reach {budget now : Nat} {s : SchedulerRun R}
    (h : (schedulerSystem R).Reach (fun _ l => l.Paced) ⟨.init R budget now, []⟩ s) :
    (0 ≤ s.scheduler.tokens ∧ s.scheduler.tokens ≤ 2.0 * 1500.0) ∧
      (∀ q ∈ s.scheduler.queueModels, q.pacingBacklog ≤ 3000) ∧
      s.scheduler.inFlightDuplicates ≤ min budget 64 ∧
      s.scheduler.optimizationKpi.bytesSent = min (loggedBytes s.log) u64Max ∧
      s.scheduler.optimizationKpi.duplicateBytes = min (loggedBytes (doubled s.log)) u64Max ∧
      s.scheduler.optimizationKpi.utilityPerTransmittedByte = 0 := by
  have hburst : (0 : Fl R) ≤ 2.0 * 1500.0 :=
    Fl.nonneg_mul (Fl.pos_literal (by norm_num)).le (Fl.pos_literal (by norm_num)).le
  have hwithin : s.Within budget := h.invariant
    ⟨le_rfl, rfl, ⟨hburst, le_rfl⟩, Nat.zero_le _, nofun, rfl, rfl, rfl⟩
    fun hs hl hstep => hs.step hl hstep
  refine ⟨hwithin.tokens, hwithin.pacingBacklog, hwithin.inFlightDuplicates, hwithin.bytesSent,
    hwithin.duplicateBytes, ?_⟩
  unfold OptimizationKpi.utilityPerTransmittedByte
  rw [hwithin.utilitySum, Fl.zero_div', ite_self]

theorem sample_scheduler :
    ∃ s, (schedulerSystem binary64).exec ⟨.init binary64 4 0, []⟩ sampleSends = some s ∧
      s.scheduler.tokens ≤ 2.0 * 1500.0 ∧
      s.scheduler.optimizationKpi.bytesSent = min (loggedBytes s.log) u64Max := by
  have hrate : (0 : Fl binary64) ≤ 1000.0 := (Fl.pos_literal (by norm_num)).le
  have hscale : (0 : Fl binary64) ≤ sampleStabilization.pacingScale :=
    (Fl.pos_literal (by norm_num) : (0 : Fl binary64) < 0.35).le.trans (Fl.le_clamp _)
  have hpaced : sampleSends.Forall SchedulerLabel.Paced :=
    ⟨⟨hrate, hscale⟩, trivial, trivial, ⟨hrate, hscale⟩, trivial⟩
  obtain ⟨s, hs⟩ : ∃ s, (schedulerSystem binary64).exec ⟨.init binary64 4 0, []⟩ sampleSends =
    some s := ⟨_, rfl⟩
  obtain ⟨⟨-, htokens⟩, -, -, hbytes, -⟩ := scheduler_of_reach
    (.of_exec_forall (fun l hl _ => List.forall_iff_forall_mem.mp hpaced l hl) hs)
  exact ⟨s, hs, htokens, hbytes⟩

/-! ## Without losses -/

/-- The reported losses are below one in a thousand. -/
def SchedulerLabel.Lossless : SchedulerLabel R → Prop
  | .sample _ _ lossRate => lossRate.clamp 0 1 * 1000.0 < 1
  | _ => True

structure SchedulerRun.Single (s : SchedulerRun R) : Prop where
  paths : 2 ≤ s.scheduler.paths.length
  lossless : ∀ p ∈ s.scheduler.paths, p.lossPerMille = 0
  inFlightDuplicates : s.scheduler.inFlightDuplicates = 0
  duplicateBytes : s.scheduler.optimizationKpi.duplicateBytes = 0
  single : ∀ r ∈ s.log, r.2.length = 1

/-- Next to a path that reported no losses a second copy does not pay. -/
theorem MultiPathScheduler.not_duplicates {s : MultiPathScheduler R} (hn : 2 ≤ s.paths.length)
    (hlossless : ∀ p ∈ s.paths, p.lossPerMille = 0) (a : SendArgs R) (m : Fl R) :
    ¬ s.Duplicates a m := by
  intro hd
  obtain ⟨refill, queueModels, correlation, kpi, hcharged, -⟩ := s.charged_eq a m hn
  obtain ⟨i, hi⟩ : ∃ i, i = primaryPath R s.explorationSeed a.packet.info.size := ⟨_, rfl⟩
  have hlt : i < s.paths.length := by
    have := hi ▸ primaryPath_le_one (R := R) s.explorationSeed a.packet.info.size
    omega
  have hstate : (s.charged a m).pathStatesSnapshot[i]? = some s.paths[i].state := by
    unfold pathStatesSnapshot
    rw [hcharged, List.getElem?_map, List.getElem?_eq_getElem hlt, Option.map_some]
  have hloss : (s.paths[i].state : PathState R).loss = 0 := by
    show (((s.paths[i].lossPerMille : Nat) : Fl R) / 1000.0).clamp 0 0.99 = 0
    rw [hlossless _ (List.getElem_mem hlt)]
    have hzero : ((0 : Nat) : Fl R) = 0 := Fl.val_injective (Fl.val_natCast (Nat.zero_le _))
    rw [hzero, Fl.zero_div', clamp_zero (Fl.pos_literal (by norm_num)).le]
  have hpays := hd.pays
  unfold dupUtility at hpays
  rw [s.routed_eq a m hn, ← hi] at hpays
  dsimp only at hpays
  rw [duplicateSendUtility_of_lossless hstate hloss, Fl.zero_mul'] at hpays
  exact lt_irrefl _ hpays

theorem SchedulerRun.Single.step {s s' : SchedulerRun R} {l : SchedulerLabel R} (h : s.Single)
    (hl : l.Lossless) (hstep : (schedulerSystem R).step s l = some s') : s'.Single := by
  obtain rfl := Option.some.inj hstep
  cases l with
  | mark fecGroup =>
    exact ⟨h.paths, h.lossless, h.inFlightDuplicates, h.duplicateBytes, h.single⟩
  | ratio speculativeRatio =>
    exact ⟨h.paths, h.lossless, h.inFlightDuplicates, h.duplicateBytes, h.single⟩
  | tick =>
    refine ⟨h.paths, h.lossless, ?_, h.duplicateBytes, h.single⟩
    show s.scheduler.inFlightDuplicates - 1 = 0
    rw [h.inFlightDuplicates]
  | sample rtt bandwidthBps lossRate =>
    refine ⟨?_, fun p hp => ?_, h.inFlightDuplicates, h.duplicateBytes, h.single⟩
    · show 2 ≤ (s.scheduler.paths.map _).length
      rw [List.length_map]
      exact h.paths
    · obtain ⟨old, -, rfl⟩ := List.mem_map.mp hp
      exact Fl.toNat_eq_zero hl
  | send a m =>
    have hsends := s.scheduler.distributeAndSend_sends a m h.paths
    obtain ⟨i, pkt, -, -, hcases⟩ := hsends.copies
    obtain ⟨-, hhanded, hinflight, hdup⟩ :=
      hcases.resolve_right fun hd => MultiPathScheduler.not_duplicates h.paths h.lossless a m hd.1
    refine ⟨?_, ?_, hinflight.trans h.inFlightDuplicates, hdup.trans h.duplicateBytes, ?_⟩
    · exact hsends.paths.symm ▸ h.paths
    · exact hsends.paths.symm ▸ h.lossless
    · intro r hr
      rcases List.mem_append.mp hr with hr | hr
      · exact h.single r hr
      · rw [List.mem_singleton.mp hr]
        show (s.scheduler.distributeAndSend a m).handed.length = 1
        rw [hhanded]
        rfl

/--
**Without losses there are no second copies.** As long as the losses that are reported are below
one in a thousand, every packet of a transfer goes to one path.
-/
theorem single_copies_of_reach {budget now : Nat} {s : SchedulerRun R}
    (h : (schedulerSystem R).Reach (fun _ l => l.Lossless) ⟨.init R budget now, []⟩ s) :
    (∀ r ∈ s.log, ∃ i packet, r.2 = [(i, packet)]) ∧
      s.scheduler.inFlightDuplicates = 0 ∧
      s.scheduler.optimizationKpi.duplicateBytes = 0 := by
  have hlossless : ∀ p ∈ (MultiPathScheduler.init R budget now).paths, p.lossPerMille = 0 := by
    intro p hp
    rcases List.mem_pair.mp hp with rfl | rfl <;> rfl
  have hsingle : s.Single := h.invariant ⟨le_rfl, hlossless, rfl, rfl, nofun⟩
    fun hs hl hstep => hs.step hl hstep
  refine ⟨fun r hr => ?_, hsingle.inFlightDuplicates, hsingle.duplicateBytes⟩
  obtain ⟨⟨i, packet⟩, hone⟩ := List.length_eq_one_iff.mp (hsingle.single r hr)
  exact ⟨i, packet, hone⟩

theorem sample_single_copies :
    ∃ s, (schedulerSystem binary64).exec ⟨.init binary64 4 0, []⟩ sampleSends = some s ∧
      s.log.length = 2 ∧ ∀ r ∈ s.log, ∃ i packet, r.2 = [(i, packet)] := by
  have hloss : (0 : Fl binary64).clamp 0 1 * 1000.0 < 1 := by
    rw [clamp_zero zero_le_one, Fl.zero_mul', Fl.lt_def]
    norm_num
  have hlossless : sampleSends.Forall SchedulerLabel.Lossless :=
    ⟨trivial, trivial, hloss, trivial, trivial⟩
  have hexec : ((schedulerSystem binary64).exec ⟨.init binary64 4 0, []⟩ sampleSends).map
      (fun s => s.log.length) = some 2 := rfl
  obtain ⟨s, hs, hlog⟩ := Option.map_eq_some_iff.mp hexec
  obtain ⟨hsingle, -, -⟩ := single_copies_of_reach
    (.of_exec_forall (fun l hl _ => List.forall_iff_forall_mem.mp hlossless l hl) hs)
  exact ⟨s, hs, hlog, hsingle⟩

end ScTransport
