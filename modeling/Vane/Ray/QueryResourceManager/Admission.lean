import Vane.Ray.QueryResourceManager.State

/-! This module contains task admission: whether, why not, and where a task is placed. -/

namespace Vane

inductive BlockReason where
  | queryCancelled
  | allocationPending
  | queryIdMismatch
  | stageNotRegistered
  | stageCompleted
  | stageNotRunnable
  | actorNotReady
  | invalidTaskIdentity
  | attemptTerminal
  | attemptAlreadyActive
  | stageConcurrency
  | actorSlot
  | invalidRetainedInputBytes
  | taskExceedsQueryAllocation
  | allocationDebt
  | continuationCapacity
  | hard (d : Dimension)
  | nodeNotAllocated
  | taskDoesNotFitAllocatedNode
  | continuationDoesNotFitAllocatedNode
  | nodeAllocationDebt
  | nodeCapacity
  | continuationNodeCapacity
  | stageSoftLimit
  | stageSoft (d : Dimension)
  | livenessTaskActive
  | livenessNotNeeded
  | normalCandidateAvailable
  | noLivenessCandidate
  | livenessCandidateNotSelected
  | taskDescriptorAlreadyRegistered
  | admissionTurn
  | taskNotAdmissible
  | taskWaiterNotRegistered
  | taskWaiterIdentityMismatch
  | fatalTaskAdmission
  | invalidBlockId
  | outputBlockTerminal
  | taskLeaseNotActive
  | taskStageMismatch
  | taskAttemptMismatch
  | outputBlockAlreadyLeased
  | invalidOutputBlockSize
  | outputBlockExceedsQueryLimit
  | livenessOutputActive
  | normalOutputCandidateAvailable
  | outputLivenessNotNeeded
  | livenessOutputCandidateNotSelected
  deriving DecidableEq

def BlockReason.isSoftTask : BlockReason → Bool
  | stageSoft _ => true
  | stageSoftLimit => true
  | _ => false

def BlockReason.isSoftOutput : BlockReason → Bool
  | stageSoft .objectStoreBytes => true
  | stageSoftLimit => true
  | _ => false

inductive Exit where
  | raise (e : PyError)
  | block (reason : BlockReason) (fatal : Bool)

namespace Exit

def blockIf (c : Prop) [Decidable c] (reason : BlockReason) (fatal : Bool) : Except Exit Unit :=
  Except.raiseIf c (.block reason fatal)

def raising {α : Type} (x : Except PyError α) : Except Exit α := x.mapError .raise

end Exit

structure NewContinuationCreditPlan where
  eligibleStageIds : List String
  reservationStageId : String
  nodeId : String
  resources : ResourceVector
  deriving DecidableEq

structure TaskAdmissionPlan where
  resources : ResourceVector := 0
  outputWindowBytes : ℕ := 0
  nodeId : String := ""
  actorIndex : Option ℕ := none
  newCredit : Option NewContinuationCreditPlan := none
  borrowedCreditId : Option String := none
  deriving DecidableEq

structure CreditTemplate where
  eligibleStageIds : List String
  reservationStageId : String
  resources : ResourceVector

structure DownstreamReservation where
  reservationId : String
  stageIds : List String
  resources : ResourceVector
  allowedNodeIds : List String

namespace QueryExecutionGraph

variable (g : QueryExecutionGraph)

/-- The stages that a worklist comes to. A stage is expanded at most once, which bounds the turns. -/
def reach (g : QueryExecutionGraph) : ℕ → List String → List String → List String
  | 0, _, reached => reached
  | turns + 1, pending, reached =>
    match pending.getLast? with
    | none => reached
    | some stageId =>
      if stageId ∈ reached then
        g.reach turns pending.dropLast reached
      else
        g.reach turns (pending.dropLast ++ g.downstream stageId) (reached ++ [stageId])

def reachableStageIds (source : String) : List String :=
  let count := g.stages.length
  let reached := g.reach (count * (count + 1) + 1) (g.downstream source) []
  g.topologicalStageIds.filter (· ∈ reached)

def specs (stageIds : List String) : List StageResourceSpec := stageIds.filterMap g.stage?

def reachableStages (source : String) : List StageResourceSpec :=
  g.specs (g.reachableStageIds source)

def reachableUdfStages (source : String) : List StageResourceSpec :=
  (g.reachableStages source).filter (·.stageKind = .udf)

/-- `_continuation_parent_stage_ids_by_ray_task`: the worker stages that run ahead of a nested task. -/
def continuationParentStageIds (stage : StageResourceSpec) : List String :=
  if stage.backend = .rayTask then
    ((g.specs g.topologicalStageIds).filter fun parent =>
      parent.backend = .rayWorker ∧
        stage.stageId ∈ (g.reachableUdfStages parent.stageId).map (·.stageId)).map (·.stageId)
  else
    []

end QueryExecutionGraph

namespace QueryResourceManager

variable (m : QueryResourceManager) (spec : StageResourceSpec) (parent : StageResourceSpec)
  (request : TaskRequest) (stage : StageResourceSpec) (d : Dimension)
  (reachable : List StageResourceSpec) (requestedNodeId : Option String)
  (resources : ResourceVector) (usages : List (NodeResourceAllocation × ResourceVector))
  (limits : ResourceVector) (outputWindowBytes : ℕ)

open Exit (blockIf raising)

def requestedNode (nodeId : Option String) : String := Text.strip (nodeId.getD "")

def actorSlotLeaseCount (slot : String × ℕ) : ℕ :=
  (if m.activeActorSlots.contains slot then 1 else 0) +
    (m.queuedActorSlotLeases.findD slot []).length

def continuationCreditTemplate : Option CreditTemplate :=
  if parent.backend = .rayWorker then
    let eligible := (m.graph.reachableUdfStages parent.stageId).filter fun stage =>
      stage.backend = .rayTask ∧ ¬(m.stages stage.stageId).completed
    let order := m.graph.topologicalStageIds
    -- The largest share comes first, then the stage that is first in topological order.
    let largest := eligible.minBy? fun stage =>
      toLex (OrderDual.toDual (stage.taskCommitment.dominantShare m.allocation.resources),
        order.idxOf stage.stageId)
    largest.map fun reservation =>
      { eligibleStageIds := eligible.map (·.stageId)
        reservationStageId := reservation.stageId
        resources := .componentMax (eligible.map (·.taskCommitment)) }
  else
    none

def borrowIncrement (credit : ContinuationCredit) : ResourceVector :=
  m.borrowedTaskUsage resources outputWindowBytes credit - m.idleContinuationOutputExcess credit

abbrev CreditRank : Type := ℕ ×ₗ ℕ ×ₗ WithTop ℚ≥0 ×ₗ ℚ≥0 ×ₗ ℚ≥0 ×ₗ ℕ ×ₗ ℕ ×ₗ String

def creditRank
    (usage : ResourceVector) (credit : ContinuationCredit) : Except PyError CreditRank := do
  let incremental := m.borrowIncrement resources outputWindowBytes credit
  let queryExceeded := (usage + incremental).exceededDimensions m.allocation.resources
  let nodeUsage ← m.nodeUsage credit.nodeId
  let nodeCapacity ← m.allocation.resourcesForNode credit.nodeId
  let nodeExceeded := (nodeUsage + incremental).exceededDimensions nodeCapacity
  let feasible := queryExceeded = [] ∧ nodeExceeded = []
  return toLex (if feasible then 0 else 1, toLex (queryExceeded.length + nodeExceeded.length,
    toLex (incremental.dominantShare m.allocation.resources, toLex (incremental.gpu,
      toLex (incremental.cpu, toLex (incremental.heapBytes, toLex (incremental.objectStoreBytes,
        credit.creditId)))))))

def isBorrowable (requested : String) (credit : ContinuationCredit) : Bool :=
  credit.parentActive ∧ credit.borrowedByTaskLeaseId = none ∧
    stage.stageId ∈ credit.eligibleStageIds ∧ stage.taskCommitment ≤ credit.resources ∧
    (requested = "" ∨ credit.nodeId = requested) ∧
    credit.nodeId ∈ m.allocation.nodeAllocations.map (·.nodeId)

def availableContinuationCredit
    (usage : ResourceVector) : Except PyError (Option ContinuationCredit) :=
  if stage.backend ≠ .rayTask ∨ m.graph.continuationParentStageIds stage = [] then
    return none
  else do
    let candidates := m.continuationCredits.values.filter
      (m.isBorrowable stage (requestedNode requestedNodeId))
    let ranked ← candidates.mapM fun credit => do
      let rank ← m.creditRank resources outputWindowBytes usage credit
      return (rank, credit)
    return (ranked.minBy? Prod.fst).map Prod.snd

def isAfterStreamingActor (stageId : String) : Bool :=
  parent.backend = .rayActor || reachable.any fun candidate =>
    candidate.backend = .rayActor ∧ stageId ∈ m.graph.reachableStageIds candidate.stageId

def actorInvocationNodeIds (stageId : String) : List String :=
  ((m.allocation.actorPlacements.filter fun p =>
    p.stageId = stageId ∧ ¬m.activeActorSlots.contains (stageId, p.actorIndex)).map
      (·.nodeId)).dedup.sortBy id

def fteReservation : List DownstreamReservation :=
  let inactive := (m.graph.specs (m.graph.separateSlotStageIds parent)).filter fun stage =>
    ¬(m.stages stage.stageId).completed ∧ m.activeTaskCountForStage stage.stageId = 0
  let resources := ResourceVector.componentMax (inactive.map (·.taskCommitment))
  if inactive = [] ∨ resources = 0 then
    []
  else
    [{ reservationId := s!"fte:{parent.stageId}"
       stageIds := inactive.map (·.stageId)
       resources
       allowedNodeIds := (m.allocation.nodeAllocations.map (·.nodeId)).sortBy id }]

def actorContinuationReservations : List DownstreamReservation :=
  let continuations := reachable.filter fun stage =>
    stage.backend = .rayTask ∧ m.isAfterStreamingActor parent reachable stage.stageId ∧
      m.activeTaskCountForStage stage.stageId = 0 ∧ stage.taskCommitment ≠ 0
  continuations.map fun stage =>
    { reservationId := s!"actor_continuation:{parent.stageId}:{stage.stageId}"
      stageIds := [stage.stageId]
      resources := stage.taskCommitment
      allowedNodeIds := (m.allocation.nodeAllocations.map (·.nodeId)).sortBy id }

def actorReservations : List DownstreamReservation :=
  let actors := reachable.filter fun stage =>
    stage.backend = .rayActor ∧ m.activeTaskCountForStage stage.stageId = 0 ∧
      stage.taskCommitment ≠ 0
  actors.map fun stage =>
    { reservationId := s!"actor:{stage.stageId}"
      stageIds := [stage.stageId]
      resources := stage.taskCommitment
      allowedNodeIds := m.actorInvocationNodeIds stage.stageId }

def downstreamReservations : List DownstreamReservation :=
  let reachable := (m.graph.reachableStages parent.stageId).filter fun stage =>
    ¬(m.stages stage.stageId).completed
  m.fteReservation parent ++ m.actorContinuationReservations parent reachable ++
    m.actorReservations reachable

def downstreamReservationTotal (reservations : List DownstreamReservation) : ResourceVector :=
  (reservations.map (·.resources)).sum

abbrev ReservationKey : Type := ℕ ×ₗ (WithTop ℚ≥0)ᵒᵈ ×ₗ String

def reservationKey (reservation : DownstreamReservation) : ReservationKey :=
  toLex (reservation.allowedNodeIds.length,
    toLex (OrderDual.toDual (reservation.resources.dominantShare limits),
      reservation.reservationId))

abbrev PositionKey : Type := WithTop ℚ≥0 ×ₗ ℚ≥0 ×ₗ ℚ≥0 ×ₗ ℕ ×ₗ ℕ ×ₗ String

def positionKey (nodeIds : List String) (candidate : ℕ × ResourceVector) : PositionKey :=
  let after := candidate.2
  toLex (after.dominantShare limits, toLex (after.gpu, toLex (after.cpu, toLex (after.heapBytes,
    toLex (after.objectStoreBytes, nodeIds.getD candidate.1 "")))))

abbrev FailedStates : Type := List (ℕ × List ResourceVector)

def tryPositions (place : List ResourceVector → FailedStates → Bool × FailedStates)
    (remaining : List ResourceVector) : List (ℕ × ResourceVector) → FailedStates →
      Bool × FailedStates
  | [], failed => (false, failed)
  | (position, capacityAfter) :: rest, failed =>
    match place (remaining.set position capacityAfter) failed with
    | (true, failed) => (true, failed)
    | (false, failed) => tryPositions place remaining rest failed

def positions (nodeIds : List String)
    (reservation : DownstreamReservation) (remaining : List ResourceVector) :
    List (ℕ × ResourceVector) :=
  (reservation.allowedNodeIds.filterMap fun nodeId =>
    let position := nodeIds.idxOf nodeId
    match remaining[position]? with
    | none => none
    | some capacity =>
      if reservation.resources ≤ capacity then
        some (position, capacity - reservation.resources)
      else
        none).sortBy (positionKey limits nodeIds)

def place (limits : ResourceVector) (nodeIds : List String) :
    List DownstreamReservation → ℕ → List ResourceVector → FailedStates → Bool × FailedStates
  | [] => fun _ _ failed => (true, failed)
  | reservation :: rest => fun index remaining failed =>
    if (index, remaining) ∈ failed then
      (false, failed)
    else
      let candidates := positions limits nodeIds reservation remaining
      match tryPositions (place limits nodeIds rest (index + 1)) remaining candidates failed with
      | (true, failed) => (true, failed)
      | (false, failed) => (false, failed ++ [(index, remaining)])

def remainingPreservesDownstream
    (remainingByNode : Dict String ResourceVector) (reservations : List DownstreamReservation) :
    Bool :=
  let nodes := remainingByNode.sortKeys
  (place limits nodes.keys (reservations.sortBy (reservationKey limits)) 0 nodes.values []).1

def nodeUsages (nodes : List NodeResourceAllocation) :
    Except PyError (List (NodeResourceAllocation × ResourceVector)) :=
  nodes.mapM fun node => do
    let usage ← m.nodeUsage node.nodeId
    return (node, usage)

def placementPreservesDownstream (parentNodeId : String)
    (parentCommitment : ResourceVector) (reservations : List DownstreamReservation) : Bool :=
  let remaining := usages.foldl
    (fun (remaining : Dict String ResourceVector) (node, usage) =>
      let usage := if node.nodeId = parentNodeId then usage + parentCommitment else usage
      if usage ≤ node.resources then
        remaining.insert node.nodeId (node.resources - usage)
      else
        remaining) ∅
  remainingPreservesDownstream m.allocation.resources remaining reservations

abbrev NodeKey : Type := ℚ≥0 ×ₗ ℚ≥0 ×ₗ ℕ ×ₗ ℕ ×ₗ String

def nodeKey (left : ResourceVector) (nodeId : String) : NodeKey :=
  toLex (left.gpu, toLex (left.cpu, toLex (left.heapBytes, toLex (left.objectStoreBytes, nodeId))))

def selectTaskNode (commitment : ResourceVector) (allowedNodeIds : Option (List String))
    (reservations : List DownstreamReservation) : Except Exit String := do
  let nodes := m.allocation.nodeAllocations
  let requested := requestedNode requestedNodeId
  blockIf (requested ≠ "" ∧ requested ∉ nodes.map (·.nodeId)) .nodeNotAllocated true
  let staticCandidates := nodes.filter fun node =>
    commitment ≤ node.resources ∧ (requested = "" ∨ node.nodeId = requested) ∧
      allowedNodeIds.all (node.nodeId ∈ ·)
  blockIf (staticCandidates = []) .taskDoesNotFitAllocatedNode true
  let usages ← raising (m.nodeUsages staticCandidates)
  let debtDetected := usages.any fun (node, usage) => ¬usage ≤ node.resources
  let available := usages.filter fun (node, usage) =>
    usage ≤ node.resources ∧ commitment ≤ node.resources - usage
  blockIf (available = []) (if debtDetected then .nodeAllocationDebt else .nodeCapacity) false
  let allUsages ← raising (if reservations = [] then .ok [] else m.nodeUsages nodes)
  let safe := available.filter fun (node, _) =>
    reservations = [] ∨ m.placementPreservesDownstream allUsages node.nodeId commitment reservations
  blockIf (safe = []) .continuationNodeCapacity false
  match safe.minBy? fun (node, usage) =>
      nodeKey (node.resources - usage - commitment) node.nodeId with
  | some (node, _) => return node.nodeId
  | none => throw (.raise (.valueError "min() iterable argument is empty"))

/--
What is left on each node when the proposed amounts are put on top of the usage. The error says
whether a node of the proposal is in debt.
-/
def leaveRemaining (proposed : Dict String ResourceVector) :
    List (NodeResourceAllocation × ResourceVector) → Dict String ResourceVector →
      Except Bool (Dict String ResourceVector)
  | [], remaining => .ok remaining
  | (node, usage) :: rest, remaining =>
    if usage ≤ node.resources then
      let usageAfter := usage + proposed.findD node.nodeId 0
      if usageAfter ≤ node.resources then
        leaveRemaining proposed rest (remaining.insert node.nodeId (node.resources - usageAfter))
      else
        .error false
    else if proposed.contains node.nodeId then
      .error true
    else
      leaveRemaining proposed rest remaining

structure TaskAndCreditNodes where
  taskNodeId : String
  creditNodeId : String
  remaining : Except Bool (Dict String ResourceVector)

def proposeNodes
    (taskCommitment creditResources : ResourceVector) (taskNode creditNode : NodeResourceAllocation)
    : TaskAndCreditNodes where
  taskNodeId := taskNode.nodeId
  creditNodeId := creditNode.nodeId
  remaining :=
    let proposed := (∅ : Dict String ResourceVector).insert taskNode.nodeId taskCommitment
    leaveRemaining (proposed.update creditNode.nodeId 0 (· + creditResources)) usages ∅

namespace TaskAndCreditNodes

variable (p : TaskAndCreditNodes)

def isFeasible (limits : ResourceVector) (reservations : List DownstreamReservation)
    (p : TaskAndCreditNodes) : Bool :=
  match p.remaining with
  | .error _ => false
  | .ok remaining =>
    reservations = [] ∨ remainingPreservesDownstream limits remaining reservations

def isInDebt : Bool :=
  match p.remaining with
  | .error debt => debt
  | .ok _ => false

def leftForTask : ResourceVector :=
  match p.remaining with
  | .error _ => 0
  | .ok remaining => remaining.findD p.taskNodeId 0

abbrev Key : Type := ℚ≥0 ×ₗ ℚ≥0 ×ₗ ℕ ×ₗ ℕ ×ₗ String ×ₗ String

def key : Key :=
  let left := p.leftForTask
  toLex (left.gpu, toLex (left.cpu, toLex (left.heapBytes, toLex (left.objectStoreBytes,
    toLex (p.taskNodeId, p.creditNodeId)))))

end TaskAndCreditNodes

def selectTaskAndCreditNodes
    (taskCommitment creditResources : ResourceVector) (reservations : List DownstreamReservation) :
    Except Exit (String × String) := do
  let nodes := m.allocation.nodeAllocations
  let requested := requestedNode requestedNodeId
  blockIf (requested ≠ "" ∧ requested ∉ nodes.map (·.nodeId)) .nodeNotAllocated true
  let taskNodes := nodes.filter fun node =>
    taskCommitment ≤ node.resources ∧ (requested = "" ∨ node.nodeId = requested)
  blockIf (taskNodes = []) .taskDoesNotFitAllocatedNode true
  let creditNodes := nodes.filter fun node => creditResources ≤ node.resources
  blockIf (creditNodes = []) .continuationDoesNotFitAllocatedNode true
  let usages ← raising (m.nodeUsages nodes)
  let proposals := taskNodes.flatMap fun taskNode => creditNodes.map fun creditNode =>
    proposeNodes usages taskCommitment creditResources taskNode creditNode
  let candidates := proposals.filter (·.isFeasible m.allocation.resources reservations)
  let debtDetected := proposals.any (·.isInDebt)
  blockIf (candidates = [])
    (if debtDetected then .nodeAllocationDebt else .continuationNodeCapacity) false
  match candidates.minBy? (·.key) with
  | some chosen => return (chosen.taskNodeId, chosen.creditNodeId)
  | none => throw (.raise (.valueError "min() iterable argument is empty"))

/-! Soft limits: what the stages reserve of each dimension and what they share. -/

def stageDimensionCommitment : ℚ≥0 := stage.taskCommitment.get d

def dimensionBound (limits commitment : ResourceVector) (d : Dimension) : Option ℕ :=
  let perTask := commitment.get d
  let limit := limits.get d
  if perTask ≤ 0 then
    none
  else
    match d with
    | .heapBytes | .objectStoreBytes => some ⌊limit / perTask⌋₊
    | .cpu | .gpu => some ⌊(limit + epsilon) / perTask⌋₊

def stageDimensionMaximum : ℚ≥0 :=
  let limits := m.allocation.resources
  let concurrency :=
    if stage.backend = .rayActor then some stage.actorMinSize else stage.maxConcurrency
  let bounds := (concurrency.map Int.toNat).toList ++
    Dimension.all.filterMap (dimensionBound limits stage.taskCommitment)
  match bounds.min? with
  | none => limits.get d
  | some bound => stageDimensionCommitment stage d * bound

def dimensionLiveDemandStages (requestedStageId : Option String) : List StageResourceSpec :=
  m.graph.stages.filter fun spec =>
    let stage := m.stages spec.stageId
    let taskDemand := requestedStageId = some spec.stageId ∨ 0 < stage.pendingTaskCount ∨
      0 < m.activeTaskCountForStage spec.stageId
    let outputDemand := 0 < stage.pendingOutputCount ∨ 0 < stage.queuedOutputBytes ∨
      m.outputLeases.values.any (·.producerStageId = spec.stageId)
    stage.runnable ∧ ¬stage.completed ∧ (taskDemand ∨ d = .objectStoreBytes ∧ outputDemand) ∧
      0 < stageDimensionCommitment spec d

def dimensionContinuationStages (live : List StageResourceSpec) : List StageResourceSpec :=
  let continuations := (live.filter (·.backend = .rayWorker)).flatMap fun source =>
    (m.graph.reachableUdfStages source.stageId).filter fun spec =>
      spec ∉ live ∧ ¬(m.stages spec.stageId).completed ∧ 0 < stageDimensionCommitment spec d
  (m.graph.specs m.graph.topologicalStageIds).filter (· ∈ continuations)

def dimensionReservationStages (requested : StageResourceSpec) : List StageResourceSpec :=
  let live := m.dimensionLiveDemandStages d (some requested.stageId)
  if requested.backend ≠ .rayWorker then
    -- A downstream UDF borrows the reserves of the continuations that have not started.
    live
  else
    let continuations := m.dimensionContinuationStages d live
    (m.graph.specs m.graph.topologicalStageIds).filter fun spec =>
      spec ∈ live ∨ spec ∈ continuations

def stageReservation (stages : List StageResourceSpec) (spec : StageResourceSpec) : ℚ≥0 :=
  let limit := m.allocation.resources.get d
  let minimum := stageDimensionCommitment spec d
  let minimumTotal := (stages.map (stageDimensionCommitment · d)).sum
  let reserved :=
    if minimumTotal ≤ limit + epsilon then
      minimum + (limit - minimumTotal) * m.reservationRatio / stages.length
    else
      limit * m.reservationRatio * minimum / minimumTotal
  let capped := min reserved (m.stageDimensionMaximum spec d)
  match d with
  | .heapBytes | .objectStoreBytes => ⌊capped⌋₊
  | .cpu | .gpu => capped

def softBlocks (amount : ℚ≥0)
    (stages : List StageResourceSpec) (usages : List (StageResourceSpec × ResourceVector))
    (spec : StageResourceSpec) (current : ResourceVector) : Bool :=
  let limit := m.allocation.resources.get d
  let reserved := m.stageReservation d stages spec
  let sharedPool := limit - (stages.map (m.stageReservation d stages)).sum
  let sharedUsed := ((usages.filter fun (key, _) => key ∈ stages).map fun (key, usage) =>
    usage.get d - m.stageReservation d stages key).sum
  let sharedNeed : ℚ := amount - (reserved - current.get d : ℚ≥0)
  ¬current.get d + amount ≤ reserved + epsilon ∧
    (sharedPool + epsilon : ℚ≥0) < (sharedUsed : ℚ) + sharedNeed

def stageSoftBlockReason (request : ResourceVector) : Except PyError (Option BlockReason) := do
  let usages ← m.graph.stages.mapM fun key => do
    let usage ← m.stageUsage key.stageId
    return (key, usage)
  let current ← m.stageUsage spec.stageId
  (Dimension.all.filter fun d => 0 < request.get d).findSomeM? fun d => do
    let stages := m.dimensionReservationStages d spec
    let (id, name) := (spec.stageId, d.name)
    Except.raiseIf (spec ∉ stages)
      (.runtimeError s!"stage {id} requested undeclared {name} capacity")
    return if m.softBlocks d (request.get d) stages usages spec current then
      some (.stageSoft d)
    else
      none

/-! Admission of one task. -/

def checkTaskRequest (hypothetical : Bool) : Except Exit StageResourceSpec := do
  blockIf m.cancelled .queryCancelled true
  blockIf (¬m.allocationAdmissionOpen) .allocationPending false
  blockIf (request.queryId ≠ m.graph.queryId) .queryIdMismatch true
  match m.graph.stage? request.stageId with
  | none => throw (.block .stageNotRegistered true)
  | some spec =>
    let stage := m.stages request.stageId
    blockIf stage.completed .stageCompleted true
    blockIf (¬stage.runnable) .stageNotRunnable false
    blockIf (spec.backend = .rayActor ∧ ¬stage.actorReady) .actorNotReady false
    let attempt := (Text.strip request.taskId, Text.strip request.attemptId)
    blockIf (attempt.1 = "" ∨ attempt.2 = "") .invalidTaskIdentity true
    blockIf (¬hypothetical ∧ attempt ∈ m.terminalAttempts) .attemptTerminal true
    blockIf (¬hypothetical ∧ m.activeAttemptLeases.contains attempt) .attemptAlreadyActive true
    blockIf (∃ cap ∈ spec.maxConcurrency, cap ≤ m.activeTaskCountForStage spec.stageId)
      .stageConcurrency false
    return spec

def freeActorIndicesByNode : Dict String (List ℕ) :=
  (m.allocation.actorPlacements.filter fun p =>
      p.stageId = spec.stageId ∧
        m.actorSlotLeaseCount (spec.stageId, p.actorIndex) < spec.actorPrefetchDepth).foldl
    (fun byNode p => byNode.update p.nodeId [] (· ++ [p.actorIndex])) ∅

def freeActors : Except Exit (Option (Dict String (List ℕ))) :=
  if spec.backend = .rayActor then do
    let free := m.freeActorIndicesByNode spec
    blockIf (free.keys = []) .actorSlot false
    return some free
  else
    return none

def chooseActor (free : Option (Dict String (List ℕ))) (nodeId : String) : Except Exit (Option ℕ) :=
  match free with
  | none => return none
  | some free =>
    match (free.findD nodeId []).minBy? fun index =>
        toLex (m.actorSlotLeaseCount (spec.stageId, index), index) with
    | some index => return some index
    | none =>
      throw (.raise (.runtimeError "selected actor node has no free concrete actor slot"))

structure Placement where
  spec : StageResourceSpec
  commitment : ResourceVector
  borrowed : Option ContinuationCredit
  plan : TaskAdmissionPlan

def placeTask (spec : StageResourceSpec)
    (commitment admissionCommitment : ResourceVector) (borrowed : Option ContinuationCredit)
    (free : Option (Dict String (List ℕ))) (reservations : List DownstreamReservation) :
    Except Exit (String × Option NewContinuationCreditPlan) :=
  match m.continuationCreditTemplate spec with
  | some template => do
    let (nodeId, creditNodeId) ←
      m.selectTaskAndCreditNodes request.nodeId commitment template.resources reservations
    return (nodeId, some {
      eligibleStageIds := template.eligibleStageIds
      reservationStageId := template.reservationStageId
      nodeId := creditNodeId
      resources := template.resources })
  | none => do
    let allowedNodeIds :=
      match borrowed with
      | some credit => some [credit.nodeId]
      | none => free.map (·.keys)
    let nodeId ← m.selectTaskNode request.nodeId admissionCommitment allowedNodeIds reservations
    return (nodeId, none)

def admissionCommitment (window : ℕ) (commitment : ResourceVector)
    (borrowed : Option ContinuationCredit) : ResourceVector :=
  match borrowed with
  | some credit => m.borrowIncrement resources window credit
  | none => commitment + (m.continuationCreditTemplate spec).elim 0 (·.resources)

def placeRequest (spec : StageResourceSpec) : Except Exit Placement := do
  let limits := m.allocation.resources
  let free ← m.freeActors spec
  let retained := request.retainedInputBytes.getD spec.perTask.objectStoreBytes
  blockIf (retained < 0) .invalidRetainedInputBytes true
  let resources := spec.perTask.withObjectStore retained.toNat
  let window := spec.outputWindowBytes
  let commitment := resources.withObjectStore (retained.toNat + window)
  blockIf (¬commitment ≤ limits) .taskExceedsQueryAllocation true
  let usage ← raising m.queryUsage
  blockIf (usage - limits ≠ 0) .allocationDebt false
  let borrowed ← raising (m.availableContinuationCredit spec request.nodeId resources window usage)
  let admissionCommitment := m.admissionCommitment spec resources window commitment borrowed
  match (usage + admissionCommitment).exceededDimensions limits with
  | d :: _ =>
    let hasTemplate := (m.continuationCreditTemplate spec).isSome
    throw (.block (if hasTemplate then .continuationCapacity else .hard d) false)
  | [] =>
    let reservations := m.downstreamReservations spec
    blockIf (reservations ≠ [] ∧
        ¬downstreamReservationTotal reservations ≤ limits - (usage + admissionCommitment))
      .continuationCapacity false
    let (nodeId, newCredit) ←
      m.placeTask request spec commitment admissionCommitment borrowed free reservations
    let actorIndex ← m.chooseActor spec free nodeId
    return {
      spec
      commitment
      borrowed
      plan := {
        resources
        outputWindowBytes := window
        nodeId
        actorIndex
        newCredit
        borrowedCreditId := borrowed.map (·.creditId) } }

def starvesConsumer : Bool :=
  0 < m.activeTaskCountForStage spec.stageId ∧
    (m.graph.downstream spec.stageId).any fun downstreamId =>
      downstreamId ∉ m.startedStageIds ∧ (m.stages downstreamId).runnable ∧
        ¬(m.stages downstreamId).completed

def softBlockReason (p : Placement) : Except PyError (Option BlockReason) :=
  if m.starvesConsumer p.spec then
    return some .stageSoftLimit
  else if p.borrowed = none then
    m.stageSoftBlockReason p.spec p.commitment
  else
    return none

def admitTask (hypothetical : Bool) : Except Exit (TaskAdmissionPlan × Option BlockReason) := do
  let spec ← m.checkTaskRequest request hypothetical
  let placement ← m.placeRequest request spec
  let soft ← raising (m.softBlockReason placement)
  return (placement.plan, soft)

structure TaskAdmission where
  reason : Option BlockReason
  fatal : Bool := false
  plan : TaskAdmissionPlan := {}

def normalTaskBlockReason (hypothetical : Bool := false) : Except PyError TaskAdmission :=
  match m.admitTask request hypothetical with
  | .error (.raise e) => .error e
  | .error (.block reason fatal) => .ok { reason := some reason, fatal }
  | .ok (plan, soft) => .ok { reason := soft, plan }

end QueryResourceManager

end Vane
