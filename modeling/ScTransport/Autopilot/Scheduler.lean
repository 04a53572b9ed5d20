import ScTransport.Autopilot.Stabilizer

/-!
# The multipath scheduler

`MultiPathScheduler::distribute_and_send` paces a packet, picks the path it goes to, charges the
queue model of that path and decides whether a copy goes to a second one.

Since every path is worth nothing (`pathSendUtility_eq_zero`), the order of the paths is that of
their indices, and what the paths report has no say in where a packet goes. The rest of the
decision is about the second copy.

* `MultiPathScheduler.distributeAndSend`, `onFeedbackTick`, `applyNetworkSample` — the source
* `MultiPathScheduler.route_spec` — the path of a packet
* `MultiPathScheduler.shouldDuplicate_eq_some_iff` — when it goes to a second one
* `MultiPathScheduler.distributeAndSend_sends` — all that a send does
-/

namespace ScTransport

open Infra

variable {R : FloatOps}

/-! ## Packets and paths -/

def Packet.isCritical (p : Packet) : Bool :=
  decide (200 ≤ p.info.priority) || p.info.deadline.isSome

def Packet.nearingDeadline (p : Packet) (now : Nat) : Bool :=
  match p.info.deadline with
  | none => false
  | some d => decide (d ≤ now + 15 * 1000000)

/-- The packet, with a deadline if its priority is low. -/
def Packet.stampedAt (p : Packet) (deadline : Nat) : Packet :=
  if p.info.priority < 200 then p.withDeadline (some deadline) else p

/-- `QuicStreamPath` and `QuicDatagramPath` differ in their kind only. -/
structure TransportPath where
  kind : PathKind
  rttMs : Nat
  bwKbps : Nat
  lossPerMille : Nat

namespace TransportPath

def new (kind : PathKind) : TransportPath := ⟨kind, 20, 100000, 0⟩

variable (p : TransportPath)

def updateStats (rtt : Nat) (bandwidthBps lossRate : Fl R) : TransportPath :=
  { p with
    rttMs := max (rtt / 1000000) 1
    bwKbps := (max (bandwidthBps / 1000.0) 1.0).toNat
    lossPerMille := (lossRate.clamp 0 1 * 1000.0).toNat }

def estimatedRtt : Nat := max p.rttMs 1 * 1000000

def estimatedBandwidth : Fl R := (p.bwKbps : Fl R) * 1000.0

def lossRate : Fl R := (p.lossPerMille : Fl R) / 1000.0

/-- An entry of `path_states_snapshot`. -/
def state : PathState R where
  rtt := p.estimatedRtt
  bandwidth := p.estimatedBandwidth
  loss := (p.lossRate : Fl R).clamp 0 0.99
  kind := p.kind

end TransportPath

/-! ## The scheduler -/

structure OptimizationKpi (R : FloatOps) where
  bytesSent : Nat
  utilitySum : Fl R
  duplicateBytes : Nat
  duplicateUtilitySum : Fl R
  correlationPenaltyArea : Fl R
  queuePredErrorEwma : Fl R
  completionProbSamples : Fl R
  completionProbObserved : Fl R

namespace OptimizationKpi

def default : OptimizationKpi R := ⟨0, 0, 0, 0, 0, 0, 0, 0⟩

variable (kpi : OptimizationKpi R)

def utilityPerTransmittedByte : Fl R :=
  if kpi.bytesSent = 0 then 0 else kpi.utilitySum / (kpi.bytesSent : Fl R)

def duplicationEfficiency : Fl R :=
  if kpi.duplicateBytes = 0 then 0 else kpi.duplicateUtilitySum / (kpi.duplicateBytes : Fl R)

def correlatedLossPenalties : Fl R := kpi.correlationPenaltyArea

def queuePredictionAccuracyScore : Fl R := 1 / (1 + kpi.queuePredErrorEwma * 1000.0)

def completionProbabilityAccuracy : Fl R :=
  if kpi.completionProbSamples ≤ 0 then 0
  else 1 - min (kpi.completionProbObserved / kpi.completionProbSamples).abs 1

end OptimizationKpi

structure MultiPathScheduler (R : FloatOps) where
  paths : List TransportPath
  speculativeRatio : Fl R
  duplicateBudget : Nat
  inFlightDuplicates : Nat
  knownReconstructable : Finset Nat
  tokens : Fl R
  lastTokenRefill : Nat
  lastPrimaryUtility : Fl R
  queueModels : List (QueueModel R)
  pathCorrelation : PathCorrelation R
  optimizationKpi : OptimizationKpi R
  explorationSeed : UInt64

/-- The instants `distribute_and_send` reads, the last four in `nearing_deadline`. -/
structure Readings where
  refill : Nat
  stamp : Nat
  deadlineOnly : Nat
  suppression : Nat
  critical : Nat
  budget : Nat

/-- The arguments of `distribute_and_send`. -/
structure SendArgs (R : FloatOps) where
  packet : Packet
  block : Block
  tailPenalty : Fl R
  fecParityRatio : Fl R
  parityShards : Nat
  targetSendRate : Fl R
  congestion : CongestionSignal R
  inflight : List Packet
  stab : PacketStabilization R
  clock : Readings

/-- The paths by utility; equal ones by index. -/
def byUtility (utilities : List (Nat × Fl R)) : List (Nat × Fl R) :=
  utilities.insertionSort fun a b => b.2 < a.2 ∨ a.2 = b.2 ∧ a.1 ≤ b.1

/-- `optimization::pick_primary_path`, with the utilities and the seed. -/
def pickByUtility (utilities : List (Nat × Fl R)) (seed : UInt64) (epsilon : Fl R) :
    Option Nat × UInt64 :=
  let sorted := byUtility utilities
  if utilities.isEmpty then (none, seed)
  else if sorted.length = 1 then ((sorted[0]?).map Prod.fst, seed)
  else
    let seed := xorshift seed
    if epsilonGreedyExplore epsilon (seedU01 seed) then ((sorted[1]?).map Prod.fst, seed)
    else ((sorted[0]?).map Prod.fst, seed)

def explorationEpsilon (size : Nat) : Fl R :=
  if size < 64 * 1024 then 0.01 else if size < 512 * 1024 then 0.03 else 0.05

namespace MultiPathScheduler

variable (s : MultiPathScheduler R) (a : SendArgs R)

def estimateUnusedBandwidth (targetSendRate : Fl R) : Fl R :=
  max (Fl.sum (s.paths.map TransportPath.estimatedBandwidth) - targetSendRate) 0

def syncQueueModelsAndCorrelation : MultiPathScheduler R :=
  { s with
    pathCorrelation := .fromPathKinds (s.paths.map TransportPath.kind)
    queueModels :=
      if s.queueModels.length ≠ s.paths.length then
        s.queueModels.take s.paths.length ++
          List.replicate (s.paths.length - s.queueModels.length) .default
      else s.queueModels }

def pathStatesSnapshot : List (PathState R) := s.paths.map TransportPath.state

def refillTokens (now : Nat) (targetSendRateBps : Fl R) : MultiPathScheduler R :=
  let elapsed : Fl R := Fl.asSecs (min (now - s.lastTokenRefill) (100 * 1000000))
  let added := elapsed * targetSendRateBps / 8.0
  { s with tokens := min (s.tokens + added) (2.0 * 1500.0), lastTokenRefill := now }

/-- The start of `distribute_and_send`: a packet of up to two segments takes its tokens. -/
def pace : MultiPathScheduler R :=
  let s := s.syncQueueModelsAndCorrelation
  let s := s.refillTokens a.clock.refill (a.targetSendRate * a.stab.pacingScale)
  let packetBytes := (a.packet.info.size : Fl R)
  if packetBytes ≤ 2.0 * 1500.0 then { s with tokens := max (s.tokens - packetBytes) 0 } else s

def utilRaw : List (Nat × Fl R) :=
  (List.range s.paths.length).map fun i =>
    (i, pathSendUtility i s.pathStatesSnapshot s.queueModels a.packet a.block a.inflight
      a.parityShards a.tailPenalty)

def utilityOf (utilities : List (Nat × Fl R)) (i : Nat) : Option (Fl R) :=
  (utilities.find? fun r => r.1 = i).map Prod.snd

/-- What is settled once the path is picked. -/
structure Routed (R : FloatOps) where
  scheduler : MultiPathScheduler R
  utilityMomentum : Fl R
  primary : Nat
  secondary : Option Nat
  utilityPrimary : Fl R
  utilityPrimaryRaw : Fl R
  packet : Packet

/-- Picks the path and stamps the packet. -/
def route (utilityMomentum : Fl R) : Routed R :=
  let utilRaw := s.utilRaw a
  let uMaxRaw := (utilRaw.map Prod.snd).foldl max 0
  let momentum := smoothedUtility 0.26 uMaxRaw utilityMomentum
  let denom := max uMaxRaw 0.000000001
  let utilVec := utilRaw.map fun r => (r.1, 0.88 * r.2 + 0.12 * momentum * (r.2 / denom))
  let (picked, seed) :=
    pickByUtility utilVec s.explorationSeed (explorationEpsilon a.packet.info.size)
  let primary := picked.getD 0
  let utilityPrimary := (utilityOf utilVec primary).getD 0
  let utilityPrimaryRaw := (utilityOf utilRaw primary).getD utilityPrimary
  let rtt := ((s.paths[primary]?).map TransportPath.estimatedRtt).getD 0
  { scheduler :=
      { s with
        explorationSeed := seed
        lastPrimaryUtility := max utilityPrimaryRaw 0.000000001 }
    utilityMomentum := momentum
    primary := primary
    secondary := ((byUtility utilVec).map Prod.fst).find? fun i => i != primary
    utilityPrimary := utilityPrimary
    utilityPrimaryRaw := utilityPrimaryRaw
    packet := a.packet.stampedAt (a.clock.stamp + rtt + 200 * 1000000) }

/-- The queue model of a path takes a packet, and the error of its prediction is noted. -/
def charge (i bytes : Nat) : MultiPathScheduler R :=
  match s.queueModels[i]?, s.paths[i]? with
  | some qm, some path =>
    let bw := max path.estimatedBandwidth 1
    let err := (qm.predictedQueueDelay bw - (bytes : Fl R) / bw).abs
    let pacingDeficit := max (2.0 * 1500.0 - s.tokens) 0
    { s with
      queueModels := s.queueModels.set i (qm.onSend bytes bw pacingDeficit)
      optimizationKpi :=
        { s.optimizationKpi with
          queuePredErrorEwma := 0.9 * s.optimizationKpi.queuePredErrorEwma + 0.1 * err } }
  | _, _ => s

/-- The delay the queue model of a path predicts. -/
def queueDelay (i : Nat) : Fl R :=
  match s.queueModels[i]?, s.paths[i]? with
  | some qm, some path => qm.predictedQueueDelay path.estimatedBandwidth
  | _, _ => 0

/-- Charges the primary path and counts the packet. -/
def account (r : Routed R) : MultiPathScheduler R :=
  let s := r.scheduler.charge r.primary a.packet.info.size
  let est := estimateCompletion a.block s.pathStatesSnapshot a.inflight a.parityShards
    (s.queueDelay r.primary)
  { s with
    optimizationKpi :=
      { s.optimizationKpi with
        completionProbSamples := s.optimizationKpi.completionProbSamples + 1
        completionProbObserved := s.optimizationKpi.completionProbObserved + est.probability
        bytesSent := satAdd s.optimizationKpi.bytesSent a.packet.info.size
        utilitySum := s.optimizationKpi.utilitySum + r.utilityPrimaryRaw } }

def speculativeLimit : Nat :=
  let headroomBoost :=
    if 0 < a.targetSendRate then
      (s.estimateUnusedBandwidth a.targetSendRate / a.targetSendRate).clamp 0 1
    else 0
  let cq := max (1 - 0.45 * a.congestion.queuePressure.clamp 0 1) 0.55
  let limit := ((s.speculativeRatio + 0.15 * headroomBoost) * 100.0 * cq).toNat
  let limit := max 8 (min limit 24)
  let limit := (((limit : Fl R) * a.stab.speculativeScale * a.stab.budget.maxDuplicationRate *
    a.stab.oscillationDamp).clamp 2.0 64.0).toNat
  if 0.0035 < a.tailPenalty then min limit 12 else limit

def dynamicDupBudget : Nat :=
  if s.duplicateBudget = 0 then 0
  else
    let db := (s.duplicateBudget : Fl R)
    ((db * a.stab.budget.maxInflightGrowth).round.clamp 1 db).toNat

/-- `u_dup`. -/
def dupUtility (r : Routed R) : Fl R :=
  match r.secondary with
  | none => 0
  | some sec =>
    duplicateSendUtility r.primary sec s.pathStatesSnapshot s.queueModels s.pathCorrelation
      r.packet a.block a.inflight a.parityShards a.tailPenalty * a.stab.dupUtilityScale

def lossOf (i : Nat) : Fl R := ((s.paths[i]?).map fun p => (p.state : PathState R).loss).getD 0

def lowCostFast (r : Routed R) : Bool :=
  let rtt := ((s.paths[r.primary]?).map TransportPath.estimatedRtt).getD 0
  let bestExpected := rtt + (max (s.queueDelay r.primary) 0).fromSecs
  decide (s.lossOf r.primary < 0.02) && decide (bestExpected < 8 * 1000000) &&
    decide (128 * 1024 ≤ r.packet.info.size)

def fecSufficient (r : Routed R) : Bool :=
  decide (0.28 < a.fecParityRatio) &&
    (decide (r.packet.fecGroup ∈ s.knownReconstructable) ||
      decide (128 * 1024 ≤ r.packet.info.size))

def highFecLargePayload (r : Routed R) : Bool :=
  decide (0.24 < a.fecParityRatio) && decide (128 * 1024 ≤ r.packet.info.size)

def deadlineOnlyLarge (r : Routed R) : Bool :=
  decide (128 * 1024 ≤ r.packet.info.size) && !r.packet.nearingDeadline a.clock.deadlineOnly

/-- The first value of `should_duplicate`. -/
def wantsDuplicate (r : Routed R) : Bool :=
  let limit := s.speculativeLimit a
  let allowed := r.packet.isCritical || r.packet.nearingDeadline a.clock.suppression
  let dupSuppressed := a.stab.suppressSpeculativeDup && !allowed
  !dupSuppressed && !s.lowCostFast r && !highFecLargePayload a r && !deadlineOnlyLarge a r &&
    decide (r.utilityPrimary < s.dupUtility a r) && decide (s.inFlightDuplicates < limit) &&
    (r.packet.isCritical &&
        (decide (r.utilityPrimary < 0.12) || r.packet.nearingDeadline a.clock.critical) ||
      decide (r.utilityPrimary < 0.08) && decide (s.inFlightDuplicates < limit) ||
      r.packet.nearingDeadline a.clock.budget &&
        decide (s.inFlightDuplicates < s.dynamicDupBudget a / 3))

/-- Whether the second path may carry the packet at all. -/
def mayCarry (r : Routed R) (redundant : Nat) : Bool :=
  let datagram := decide ((s.paths[redundant]?).map TransportPath.kind = some .datagram)
  let isLarge := decide (128 * 1024 ≤ r.packet.info.size)
  let isMedium := decide (64 * 1024 ≤ r.packet.info.size ∧ r.packet.info.size < 128 * 1024)
  let tailRatioEstimate := (1 + a.tailPenalty * 80.0).clamp 1 10.0
  let mediumUnlock := decide (s.lossOf r.primary < 0.01) && decide (tailRatioEstimate < 1.25)
  !(datagram && isLarge ||
    datagram && isMedium && (!mediumUnlock || decide (r.utilityPrimary < 0.05)))

/-- The last value of `should_duplicate`: the second path, if the packet goes there too. -/
def shouldDuplicate (r : Routed R) : Option Nat :=
  if s.wantsDuplicate a r && !s.fecSufficient a r &&
      decide (s.inFlightDuplicates < s.dynamicDupBudget a) then
    r.secondary.filter fun redundant => s.mayCarry a r redundant
  else none

/-- Charges the second path and counts the copy. -/
def accountDuplicate (r : Routed R) (redundant : Nat) : MultiPathScheduler R :=
  let uDup := s.dupUtility a r
  let s := { s with inFlightDuplicates := s.inFlightDuplicates + 1 }
  let s := s.charge redundant a.packet.info.size
  { s with
    optimizationKpi :=
      { s.optimizationKpi with
        duplicateBytes := satAdd s.optimizationKpi.duplicateBytes a.packet.info.size
        duplicateUtilitySum := s.optimizationKpi.duplicateUtilitySum + uDup
        correlationPenaltyArea := s.optimizationKpi.correlationPenaltyArea +
          s.pathCorrelation.rho r.primary redundant * (a.packet.info.size : Fl R) } }

/-- The scheduler, the `utility_momentum` and which path was handed which packet. -/
structure Sent (R : FloatOps) where
  scheduler : MultiPathScheduler R
  utilityMomentum : Fl R
  handed : List (Nat × Packet)

def distributeAndSend (utilityMomentum : Fl R) : Sent R :=
  if s.paths.isEmpty then ⟨s, utilityMomentum, []⟩
  else
    let r := (s.pace a).route a utilityMomentum
    let s := account a r
    match s.shouldDuplicate a r with
    | none => ⟨s, r.utilityMomentum, [(r.primary, r.packet)]⟩
    | some redundant =>
      ⟨s.accountDuplicate a r redundant, r.utilityMomentum,
        [(r.primary, r.packet), (redundant, r.packet)]⟩

def markReconstructable (fecGroup : Nat) : MultiPathScheduler R :=
  { s with knownReconstructable := insert fecGroup s.knownReconstructable }

def applyNetworkSample (rtt : Nat) (bandwidthBps lossRate : Fl R) : MultiPathScheduler R :=
  { s with paths := s.paths.map fun p => p.updateStats rtt bandwidthBps lossRate }

def onFeedbackTick : MultiPathScheduler R :=
  let n := max s.queueModels.length 1
  let drain := max (1800 / n) 1
  { s with
    inFlightDuplicates := s.inFlightDuplicates - 1
    queueModels := s.queueModels.map fun q => q.onFeedbackTick drain }

end MultiPathScheduler

/-! ## The path of a packet -/

/-- Whether the next packet explores. -/
def explores (R : FloatOps) (seed : UInt64) (size : Nat) : Bool :=
  epsilonGreedyExplore (explorationEpsilon size : Fl R) (seedU01 (xorshift seed))

/-- The path the next packet goes to. -/
def primaryPath (R : FloatOps) (seed : UInt64) (size : Nat) : Nat :=
  if explores R seed size then 1 else 0

theorem primaryPath_le_one (seed : UInt64) (size : Nat) : primaryPath R seed size ≤ 1 := by
  unfold primaryPath
  split
  · exact le_rfl
  · exact Nat.zero_le 1

/-- The other one of the first two paths. -/
theorem find?_other {n i : Nat} (hn : 2 ≤ n) (hi : i ≤ 1) :
    (List.range n).find? (fun j => j != i) = some (1 - i) := by
  refine List.find?_range_eq_some.mpr ⟨?_, List.mem_range.mpr (by omega), fun j hj => ?_⟩
  · simp only [bne_iff_ne, ne_eq]
    omega
  · simp only [Bool.not_eq_true', bne_eq_false_iff_eq]
    omega

/-- `n` paths that are worth nothing. -/
def worthless (R : FloatOps) (n : Nat) : List (Nat × Fl R) := (List.range n).map fun i => (i, 0)

theorem byUtility_worthless (n : Nat) : byUtility (worthless R n) = worthless R n := by
  unfold byUtility worthless
  refine List.Pairwise.insertionSort_eq (List.pairwise_map.mpr ?_)
  exact List.pairwise_le_range.imp fun hle => Or.inr ⟨rfl, hle⟩

theorem worthless_getElem? {n i : Nat} (h : i < n) : (worthless R n)[i]? = some (i, 0) := by
  unfold worthless
  rw [List.getElem?_map, List.getElem?_range h]
  rfl

theorem pickByUtility_worthless {n : Nat} (hn : 2 ≤ n) (seed : UInt64) (epsilon : Fl R) :
    pickByUtility (worthless R n) seed epsilon =
      (some (if epsilonGreedyExplore epsilon (seedU01 (xorshift seed)) then 1 else 0),
        xorshift seed) := by
  have hlength : (worthless R n).length = n := by simp [worthless]
  have hne : (worthless R n).isEmpty = false := by
    cases hw : worthless R n with
    | nil => rw [hw] at hlength; simp at hlength; omega
    | cons _ _ => rfl
  unfold pickByUtility
  simp only [byUtility_worthless, hne, hlength, worthless_getElem? (show 0 < n by omega),
    worthless_getElem? (show 1 < n by omega), Option.map_some]
  rw [if_neg (by decide), if_neg (by omega)]
  split <;> rfl

theorem foldl_max_worthless (n : Nat) : ((worthless R n).map Prod.snd).foldl max 0 = 0 := by
  unfold worthless
  rw [List.map_map]
  induction List.range n with
  | nil => rfl
  | cons i rest ih => rw [List.map_cons, List.foldl_cons, Function.comp, max_self, ih]

namespace MultiPathScheduler

theorem utilityOf_worthless {n i : Nat} (h : i < n) : utilityOf (worthless R n) i = some 0 := by
  have hmem : (worthless R n).find? (fun r => decide (r.1 = i)) = some (i, 0) := by
    rw [worthless, List.find?_map, Function.comp_def]
    have hfind : (List.range n).find? (fun j => decide (j = i)) = some i :=
      List.find?_range_eq_some.mpr
        ⟨by simp, List.mem_range.mpr h, fun j hj => by simp [hj.ne]⟩
    rw [hfind]
    rfl
  rw [utilityOf, hmem]
  rfl

variable (s : MultiPathScheduler R) (a : SendArgs R)

theorem utilRaw_eq : s.utilRaw a = worthless R s.paths.length := by
  unfold utilRaw worthless
  simp only [pathSendUtility_eq_zero]

/-- The packet with the deadline of a path. -/
def stamped (primary : Nat) : Packet :=
  a.packet.stampedAt (a.clock.stamp +
    ((s.paths[primary]?).map TransportPath.estimatedRtt).getD 0 + 200 * 1000000)

/-- **The path of a packet.** It depends on the seed and on the size of the packet only. -/
theorem route_spec (hn : 2 ≤ s.paths.length) (utilityMomentum : Fl R) :
    s.route a utilityMomentum =
      { scheduler :=
          { s with
            explorationSeed := xorshift s.explorationSeed
            lastPrimaryUtility := 0.000000001 }
        utilityMomentum := smoothedUtility 0.26 0 utilityMomentum
        primary := primaryPath R s.explorationSeed a.packet.info.size
        secondary := some (1 - primaryPath R s.explorationSeed a.packet.info.size)
        utilityPrimary := 0
        utilityPrimaryRaw := 0
        packet := s.stamped a (primaryPath R s.explorationSeed a.packet.info.size) } := by
  obtain ⟨primary, hprimary⟩ : ∃ i, i = primaryPath R s.explorationSeed a.packet.info.size :=
    ⟨_, rfl⟩
  have hle : primary ≤ 1 := hprimary ▸ primaryPath_le_one _ _
  have hvec : ∀ m d : Fl R, (worthless R s.paths.length).map
      (fun r => (r.1, 0.88 * r.2 + 0.12 * m * (r.2 / d))) = worthless R s.paths.length := by
    intro m d
    unfold worthless
    rw [List.map_map]
    refine List.map_congr_left fun i _ => ?_
    simp only [Function.comp, Fl.zero_div', Fl.mul_zero', Fl.add_zero']
  have hsecondary : ((worthless R s.paths.length).map Prod.fst).find? (fun i => i != primary) =
      some (1 - primary) := by
    have hfst : (worthless R s.paths.length).map Prod.fst = List.range s.paths.length := by
      unfold worthless
      rw [List.map_map]
      exact List.map_id _
    rw [hfst, find?_other hn hle]
  unfold route
  simp only [utilRaw_eq, foldl_max_worthless, hvec, pickByUtility_worthless hn,
    Option.getD_some]
  rw [show (if epsilonGreedyExplore (explorationEpsilon a.packet.info.size : Fl R)
    (seedU01 (xorshift s.explorationSeed)) then 1 else 0) = primary from hprimary.symm, ← hprimary]
  have hpos : (0 : Fl R) ≤ 0.000000001 := (Fl.pos_literal (by norm_num)).le
  simp only [byUtility_worthless, hsecondary,
    utilityOf_worthless (show primary < s.paths.length by omega), Option.getD_some,
    max_eq_right hpos]
  rfl

/-! ## What a send leaves alone -/

/-- The tokens that a backlog stands for. -/
theorem val_burst : (2.0 * 1500.0 : Fl R).val = 3000 := by
  show R.rnd ((2.0 : Fl R).val * (1500.0 : Fl R).val) = 3000
  rw [Fl.val_literal (n := 2) (by norm_num) (by norm_num),
    Fl.val_literal (n := 1500) (by norm_num) (by norm_num)]
  have h := R.rnd_natCast (n := 3000) (by norm_num)
  norm_num at h ⊢
  exact h

theorem pacingBacklog_onSend (q : QueueModel R) (bytes : Nat) (bw deficit : Fl R) :
    (q.onSend bytes bw deficit).pacingBacklog ≤ 3000 := by
  show (deficit.clamp 0 (2.0 * 1500.0)).toNat ≤ 3000
  have hle : deficit.clamp 0 (2.0 * 1500.0) ≤ 2.0 * 1500.0 :=
    deficit.clamp_le (Fl.le_def.mpr (by rw [val_burst, Fl.val_zero]; norm_num))
  have hval := Fl.le_def.mp hle
  rw [val_burst] at hval
  exact Fl.toNat_le (by exact_mod_cast hval)

/-- A charge concerns the queue models and the error of their predictions. -/
theorem charge_eq (i bytes : Nat) : ∃ queueModels err, s.charge i bytes =
    { s with
      queueModels := queueModels
      optimizationKpi := { s.optimizationKpi with queuePredErrorEwma := err } } ∧
    ∀ q ∈ queueModels, q ∈ s.queueModels ∨ q.pacingBacklog ≤ 3000 := by
  unfold charge
  split
  · refine ⟨_, _, rfl, fun q hq => ?_⟩
    rcases List.mem_or_eq_of_mem_set hq with hq | rfl
    · exact Or.inl hq
    · exact Or.inr (pacingBacklog_onSend _ _ _ _)
  · exact ⟨_, _, rfl, fun q hq => Or.inl hq⟩

/-- Pacing concerns the tokens, the queue models and the correlations. -/
theorem pace_eq : ∃ tokens refill queueModels correlation, s.pace a =
    { s with
      tokens := tokens
      lastTokenRefill := refill
      queueModels := queueModels
      pathCorrelation := correlation } ∧
    ∀ q ∈ queueModels, q ∈ s.queueModels ∨ q.pacingBacklog ≤ 3000 := by
  have hmodels : ∀ q ∈ s.syncQueueModelsAndCorrelation.queueModels,
      q ∈ s.queueModels ∨ q.pacingBacklog ≤ 3000 := by
    intro q hq
    unfold syncQueueModelsAndCorrelation at hq
    dsimp only at hq
    split at hq
    · rcases List.mem_append.mp hq with hq | hq
      · exact Or.inl (List.mem_of_mem_take hq)
      · rw [List.eq_of_mem_replicate hq]
        exact Or.inr (Nat.zero_le _)
    · exact Or.inl hq
  unfold pace
  dsimp only
  split <;> exact ⟨_, _, _, _, rfl, hmodels⟩

variable (m : Fl R)

/-- The path of the packet, once it is paced. -/
def routed : Routed R := (s.pace a).route a m

/-- The scheduler that decides about the second copy. -/
def charged : MultiPathScheduler R := account a (s.routed a m)

theorem routed_eq (hn : 2 ≤ s.paths.length) :
    s.routed a m =
      { scheduler :=
          { s.pace a with
            explorationSeed := xorshift s.explorationSeed
            lastPrimaryUtility := 0.000000001 }
        utilityMomentum := smoothedUtility 0.26 0 m
        primary := primaryPath R s.explorationSeed a.packet.info.size
        secondary := some (1 - primaryPath R s.explorationSeed a.packet.info.size)
        utilityPrimary := 0
        utilityPrimaryRaw := 0
        packet := s.stamped a (primaryPath R s.explorationSeed a.packet.info.size) } := by
  obtain ⟨tokens, refill, queueModels, correlation, hpace, -⟩ := s.pace_eq a
  have hroute := route_spec (s.pace a) a (by rw [hpace]; exact hn) m
  unfold routed
  rw [hroute, hpace]
  rfl

/-- What is charged to the scheduler before the second copy. -/
theorem charged_eq (hn : 2 ≤ s.paths.length) :
    ∃ refill queueModels correlation kpi, s.charged a m =
      { s with
        tokens := (s.pace a).tokens
        lastTokenRefill := refill
        queueModels := queueModels
        pathCorrelation := correlation
        optimizationKpi := kpi
        explorationSeed := xorshift s.explorationSeed
        lastPrimaryUtility := 0.000000001 } ∧
      kpi.bytesSent = satAdd s.optimizationKpi.bytesSent a.packet.info.size ∧
      kpi.utilitySum = s.optimizationKpi.utilitySum ∧
      kpi.duplicateBytes = s.optimizationKpi.duplicateBytes ∧
      ∀ q ∈ queueModels, q ∈ s.queueModels ∨ q.pacingBacklog ≤ 3000 := by
  obtain ⟨tokens, refill, paced, correlation, hpace, hpaced⟩ := s.pace_eq a
  unfold charged account
  rw [routed_eq s a m hn, hpace]
  dsimp only
  obtain ⟨queueModels, err, hcharge, hmodels⟩ := charge_eq
    { s with
      tokens := tokens
      lastTokenRefill := refill
      queueModels := paced
      pathCorrelation := correlation
      explorationSeed := xorshift s.explorationSeed
      lastPrimaryUtility := 0.000000001 }
    (primaryPath R s.explorationSeed a.packet.info.size) a.packet.info.size
  rw [hcharge]
  refine ⟨_, _, _, _, rfl, rfl, Fl.add_zero' _, rfl, fun q hq => ?_⟩
  rcases hmodels q hq with hq | hq
  · exact hpaced q hq
  · exact Or.inr hq

/-! ## The second copy -/

/-- What is asked of a second copy, beyond what every packet meets. -/
structure Duplicates : Prop where
  limit : s.inFlightDuplicates < s.speculativeLimit a
  budget : s.inFlightDuplicates < s.dynamicDupBudget a
  pays : 0 < (s.charged a m).dupUtility a (s.routed a m)
  slow : (s.charged a m).lowCostFast (s.routed a m) = false
  fec : (s.charged a m).fecSufficient a (s.routed a m) = false
  noFec : highFecLargePayload a (s.routed a m) = false
  urgent : deadlineOnlyLarge a (s.routed a m) = false
  /-- A datagram path takes copies of small packets only. -/
  small : (s.paths[1 - (s.routed a m).primary]?).map TransportPath.kind = some .datagram →
    a.packet.info.size < 64 * 1024

/-- Every packet is critical, since those of low priority have just got a deadline. -/
theorem isCritical_stamped (i : Nat) : (s.stamped a i).isCritical = true := by
  unfold stamped Packet.stampedAt Packet.isCritical
  split
  · simp [Packet.withDeadline]
  · next h => simp [not_lt.mp h]

theorem size_stamped (i : Nat) : (s.stamped a i).info.size = a.packet.info.size := by
  unfold stamped Packet.stampedAt
  split <;> rfl

/-- A critical packet on a path that is worth nothing. -/
theorem wantsDuplicate_iff {r : Routed R} (hcritical : r.packet.isCritical = true)
    (hutility : r.utilityPrimary = 0) :
    s.wantsDuplicate a r = true ↔
      s.inFlightDuplicates < s.speculativeLimit a ∧ 0 < s.dupUtility a r ∧
        s.lowCostFast r = false ∧ highFecLargePayload a r = false ∧
        deadlineOnlyLarge a r = false := by
  have h12 : (0 : Fl R) < 0.12 := Fl.pos_literal (by norm_num)
  unfold wantsDuplicate
  simp only [hcritical, hutility, h12, Bool.true_or, Bool.not_true, Bool.and_false,
    Bool.not_false, Bool.true_and, decide_true, Bool.and_true, Bool.and_eq_true,
    Bool.not_eq_true', decide_eq_true_eq]
  tauto

theorem mayCarry_iff {r : Routed R} (hutility : r.utilityPrimary = 0) (redundant : Nat) :
    s.mayCarry a r redundant = true ↔
      ((s.paths[redundant]?).map TransportPath.kind = some .datagram →
        r.packet.info.size < 64 * 1024) := by
  have h05 : (0 : Fl R) < 0.05 := Fl.pos_literal (by norm_num)
  unfold mayCarry
  simp only [hutility, h05, decide_true, Bool.or_true, Bool.and_true, Bool.not_eq_true',
    Bool.or_eq_false_iff, Bool.and_eq_false_iff, decide_eq_false_iff_not, not_and_or]
  constructor
  · rintro ⟨hlarge, hmedium⟩ hkind
    have := hlarge.resolve_left (not_not.mpr hkind)
    rcases hmedium.resolve_left (not_not.mpr hkind) with h | h <;> omega
  · intro h
    by_cases hkind : (s.paths[redundant]?).map TransportPath.kind = some .datagram
    · have := h hkind
      exact ⟨Or.inr (by omega), Or.inr (Or.inl (by omega))⟩
    · exact ⟨Or.inl hkind, Or.inl hkind⟩

/-- **When a packet goes to a second path.** The suppression of the stabiliser has no say in it. -/
theorem shouldDuplicate_eq_some_iff (hn : 2 ≤ s.paths.length) {i : Nat} :
    (s.charged a m).shouldDuplicate a (s.routed a m) = some i ↔
      i = 1 - primaryPath R s.explorationSeed a.packet.info.size ∧ s.Duplicates a m := by
  obtain ⟨refill, queueModels, correlation, kpi, hcharged, -⟩ := s.charged_eq a m hn
  have hrouted := s.routed_eq a m hn
  have hcritical : (s.routed a m).packet.isCritical = true := by
    rw [hrouted]
    exact s.isCritical_stamped a _
  have hutility : (s.routed a m).utilityPrimary = 0 := by rw [hrouted]
  have hsecondary : (s.routed a m).secondary = some (1 - (s.routed a m).primary) := by rw [hrouted]
  have hsize : (s.routed a m).packet.info.size = a.packet.info.size := by
    rw [hrouted]
    exact s.size_stamped a _
  -- these three are not touched by the charge
  have hlimit : (s.charged a m).speculativeLimit a = s.speculativeLimit a := by
    rw [hcharged]
    rfl
  have hbudget : (s.charged a m).dynamicDupBudget a = s.dynamicDupBudget a := by
    rw [hcharged]
    rfl
  have hinflight : (s.charged a m).inFlightDuplicates = s.inFlightDuplicates := by rw [hcharged]
  have hpaths : (s.charged a m).paths = s.paths := by rw [hcharged]
  have hprimary : (s.routed a m).primary = primaryPath R s.explorationSeed a.packet.info.size := by
    rw [hrouted]
  unfold shouldDuplicate
  rw [← hprimary, hsecondary]
  constructor
  · intro h
    split at h
    · next hcond =>
      simp only [Bool.and_eq_true, Bool.not_eq_true', decide_eq_true_eq] at hcond
      obtain ⟨⟨hwants, hfec⟩, hbud⟩ := hcond
      obtain ⟨hlim, hpays, hslow, hhigh, hurgent⟩ :=
        ((s.charged a m).wantsDuplicate_iff a hcritical hutility).mp hwants
      obtain ⟨hi, hcarry⟩ := Option.filter_eq_some_iff.mp h
      obtain rfl := Option.some.inj hi
      have hsmall := ((s.charged a m).mayCarry_iff a hutility _).mp hcarry
      rw [hpaths, hsize] at hsmall
      rw [hinflight, hlimit] at hlim
      rw [hinflight, hbudget] at hbud
      exact ⟨rfl, hlim, hbud, hpays, hslow, hfec, hhigh, hurgent, hsmall⟩
    · cases h
  · rintro ⟨rfl, h⟩
    have hwants := ((s.charged a m).wantsDuplicate_iff a hcritical hutility).mpr
      ⟨by rw [hinflight, hlimit]; exact h.limit, h.pays, h.slow, h.noFec, h.urgent⟩
    have hcarry := ((s.charged a m).mayCarry_iff a hutility (1 - (s.routed a m).primary)).mpr
      (by rw [hpaths, hsize]; exact h.small)
    rw [hwants, h.fec, hinflight, hbudget, decide_eq_true h.budget, if_pos (by decide)]
    exact Option.filter_eq_some_iff.mpr ⟨rfl, hcarry⟩

/-! ## What a send does -/

/-- What a send does to the scheduler, and which paths it hands the packet to. -/
structure Sends (out : Sent R) : Prop where
  paths : out.scheduler.paths = s.paths
  duplicateBudget : out.scheduler.duplicateBudget = s.duplicateBudget
  knownReconstructable : out.scheduler.knownReconstructable = s.knownReconstructable
  explorationSeed : out.scheduler.explorationSeed = xorshift s.explorationSeed
  tokens : out.scheduler.tokens = (s.pace a).tokens
  bytesSent : out.scheduler.optimizationKpi.bytesSent =
    satAdd s.optimizationKpi.bytesSent a.packet.info.size
  utilitySum : out.scheduler.optimizationKpi.utilitySum = s.optimizationKpi.utilitySum
  queueModels : ∀ q ∈ out.scheduler.queueModels, q ∈ s.queueModels ∨ q.pacingBacklog ≤ 3000
  utilityMomentum : out.utilityMomentum = smoothedUtility 0.26 0 m
  copies : ∃ i pkt, i = primaryPath R s.explorationSeed a.packet.info.size ∧
    pkt = s.stamped a i ∧
    ((¬ s.Duplicates a m ∧ out.handed = [(i, pkt)] ∧
        out.scheduler.inFlightDuplicates = s.inFlightDuplicates ∧
        out.scheduler.optimizationKpi.duplicateBytes = s.optimizationKpi.duplicateBytes) ∨
      (s.Duplicates a m ∧ out.handed = [(i, pkt), (1 - i, pkt)] ∧
        out.scheduler.inFlightDuplicates = s.inFlightDuplicates + 1 ∧
        out.scheduler.optimizationKpi.duplicateBytes =
          satAdd s.optimizationKpi.duplicateBytes a.packet.info.size))

theorem distributeAndSend_cases (hn : 2 ≤ s.paths.length) {i : Nat} {pkt : Packet}
    (hi : i = primaryPath R s.explorationSeed a.packet.info.size) (hpkt : pkt = s.stamped a i) :
    (¬ s.Duplicates a m ∧
      s.distributeAndSend a m = ⟨s.charged a m, smoothedUtility 0.26 0 m, [(i, pkt)]⟩) ∨
    (s.Duplicates a m ∧
      s.distributeAndSend a m = ⟨(s.charged a m).accountDuplicate a (s.routed a m) (1 - i),
        smoothedUtility 0.26 0 m, [(i, pkt), (1 - i, pkt)]⟩) := by
  subst hpkt hi
  have hrouted := s.routed_eq a m hn
  have hprimary : (s.routed a m).primary = primaryPath R s.explorationSeed a.packet.info.size := by
    rw [hrouted]
  have hpacket : (s.routed a m).packet =
      s.stamped a (primaryPath R s.explorationSeed a.packet.info.size) := by rw [hrouted]
  have hmomentum : (s.routed a m).utilityMomentum = smoothedUtility 0.26 0 m := by rw [hrouted]
  have hne : s.paths.isEmpty = false := by
    cases hp : s.paths with
    | nil => rw [hp] at hn; cases hn
    | cons _ _ => rfl
  have hsend : s.distributeAndSend a m =
      match (s.charged a m).shouldDuplicate a (s.routed a m) with
      | none => ⟨s.charged a m, (s.routed a m).utilityMomentum,
          [((s.routed a m).primary, (s.routed a m).packet)]⟩
      | some redundant => ⟨(s.charged a m).accountDuplicate a (s.routed a m) redundant,
          (s.routed a m).utilityMomentum, [((s.routed a m).primary, (s.routed a m).packet),
            (redundant, (s.routed a m).packet)]⟩ := by
    unfold distributeAndSend
    rw [hne]
    rfl
  rw [hprimary, hpacket, hmomentum] at hsend
  have hiff := @shouldDuplicate_eq_some_iff R s a m hn
  cases hsecond : (s.charged a m).shouldDuplicate a (s.routed a m) with
  | none =>
    rw [hsecond] at hsend
    refine Or.inl ⟨fun hd => ?_, hsend⟩
    rw [hiff.mpr ⟨rfl, hd⟩] at hsecond
    cases hsecond
  | some redundant =>
    obtain ⟨rfl, hd⟩ := hiff.mp hsecond
    rw [hsecond] at hsend
    exact Or.inr ⟨hd, hsend⟩

/-- What the second copy is charged with. -/
theorem accountDuplicate_eq (r : Routed R) (redundant : Nat) :
    ∃ queueModels kpi, s.accountDuplicate a r redundant =
      { s with
        inFlightDuplicates := s.inFlightDuplicates + 1
        queueModels := queueModels
        optimizationKpi := kpi } ∧
      kpi.bytesSent = s.optimizationKpi.bytesSent ∧
      kpi.utilitySum = s.optimizationKpi.utilitySum ∧
      kpi.duplicateBytes = satAdd s.optimizationKpi.duplicateBytes a.packet.info.size ∧
      ∀ q ∈ queueModels, q ∈ s.queueModels ∨ q.pacingBacklog ≤ 3000 := by
  obtain ⟨queueModels, err, hcharge, hmodels⟩ := charge_eq
    { s with inFlightDuplicates := s.inFlightDuplicates + 1 } redundant a.packet.info.size
  unfold accountDuplicate
  dsimp only
  rw [hcharge]
  exact ⟨_, _, rfl, rfl, rfl, rfl, hmodels⟩

theorem distributeAndSend_sends (hn : 2 ≤ s.paths.length) :
    s.Sends a m (s.distributeAndSend a m) := by
  obtain ⟨refill, queueModels, correlation, kpi, hcharged, hbytes, hsum, hdup, hmodels⟩ :=
    s.charged_eq a m hn
  rcases s.distributeAndSend_cases a m hn rfl rfl with ⟨hnot, hsend⟩ | ⟨hd, hsend⟩
  · rw [hsend, hcharged]
    exact ⟨rfl, rfl, rfl, rfl, rfl, hbytes, hsum, hmodels, rfl, _, _, rfl, rfl,
      Or.inl ⟨hnot, rfl, rfl, hdup⟩⟩
  · obtain ⟨queueModels', kpi', hdouble, hbytes', hsum', hdup', hmodels'⟩ :=
      (s.charged a m).accountDuplicate_eq a (s.routed a m)
        (1 - primaryPath R s.explorationSeed a.packet.info.size)
    rw [hcharged] at hbytes' hsum' hdup' hmodels'
    rw [hsend, hdouble, hcharged]
    refine ⟨rfl, rfl, rfl, rfl, rfl, hbytes'.trans hbytes, hsum'.trans hsum, fun q hq => ?_, rfl,
      _, _, rfl, rfl, Or.inr ⟨hd, rfl, rfl, hdup'.trans (by rw [hdup])⟩⟩
    rcases hmodels' q hq with hq | hq
    · exact hmodels q hq
    · exact Or.inr hq

end MultiPathScheduler

end ScTransport
