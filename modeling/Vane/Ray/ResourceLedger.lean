import Vane.Ray.QueryExecutionGraph

/-!
This module contains the leases that a query hands out. While a task borrows a continuation credit
only what it takes beyond the credit is charged.
-/

namespace Vane

structure TaskLease where
  leaseId : String
  queryId : String
  stageId : String
  taskId : String
  attemptId : String
  nodeId : String
  executionSlotId : String
  actorIndex : Option ℕ
  resources : ResourceVector
  outputWindowBytes : ℕ
  liveness : Bool
  allocationGeneration : ℕ
  deriving DecidableEq

structure ContinuationCredit where
  creditId : String
  parentTaskLeaseId : String
  parentStageId : String
  eligibleStageIds : List String
  reservationStageId : String
  nodeId : String
  resources : ResourceVector
  allocationGeneration : ℕ
  borrowedByTaskLeaseId : Option String := none
  parentActive : Bool := true
  deriving DecidableEq

inductive OutputState where
  | generatorPending
  | stageQueue
  | downstreamInput
  | externalConsumer
  deriving DecidableEq

namespace OutputState

def name : OutputState → String
  | generatorPending => "generator_pending"
  | stageQueue => "stage_queue"
  | downstreamInput => "downstream_input"
  | externalConsumer => "external_consumer"

def index : OutputState → ℕ
  | generatorPending => 0
  | stageQueue => 1
  | downstreamInput => 2
  | externalConsumer => 3

def ofName? (name : String) : Option OutputState :=
  [generatorPending, stageQueue, downstreamInput, externalConsumer].find? (·.name = name)

def isHandedOff : OutputState → Bool
  | downstreamInput => true
  | externalConsumer => true
  | _ => false

end OutputState

structure OutputBlockLease where
  leaseId : String
  queryId : String
  producerStageId : String
  taskLeaseId : String
  attemptId : String
  blockId : String
  nodeId : String
  sizeBytes : ℕ
  state : OutputState
  liveness : Bool
  allocationGeneration : ℕ
  continuationCreditId : Option String := none
  deriving DecidableEq

structure Ledger where
  graph : QueryExecutionGraph
  allocation : QueryAllocation
  taskLeases : Table TaskLease.leaseId := ∅
  continuationCredits : Table ContinuationCredit.creditId := ∅
  continuationCreditByParent : Dict String String := ∅
  continuationCreditByBorrower : Dict String String := ∅
  outputLeases : Table OutputBlockLease.leaseId := ∅

namespace Ledger

variable (l : Ledger)

def selects (filter : Option String) (id : String) : Bool := filter.all (· = id)

def activeTaskCountForStage (stageId : String) : ℕ :=
  (l.taskLeases.values.filter (·.stageId = stageId)).length

def liveOutputBytesForCredit (creditId : String) : ℕ :=
  ((l.outputLeases.values.filter (·.continuationCreditId = some creditId)).map (·.sizeBytes)).sum

def liveOutputBytesForTask (taskLeaseId : String) : ℕ :=
  match l.continuationCreditByBorrower.find? taskLeaseId with
  | some creditId => l.liveOutputBytesForCredit creditId
  | none => ((l.outputLeases.values.filter (·.taskLeaseId = taskLeaseId)).map (·.sizeBytes)).sum

def borrowedTaskUsage (resources : ResourceVector) (outputWindowBytes : ℕ)
    (credit : ContinuationCredit) : ResourceVector :=
  let liveOutput := l.liveOutputBytesForCredit credit.creditId
  let combined := resources.withObjectStore
    (resources.objectStoreBytes + max outputWindowBytes liveOutput)
  combined - credit.resources

def idleContinuationOutputExcess (credit : ContinuationCredit) : ResourceVector :=
  .ofObjectStore (l.liveOutputBytesForCredit credit.creditId - credit.resources.objectStoreBytes)

def taskUsage (lease : TaskLease) : Except PyError ResourceVector :=
  match l.continuationCreditByBorrower.find? lease.leaseId with
  | none =>
    let liveOutput := l.liveOutputBytesForTask lease.leaseId
    .ok (lease.resources.withObjectStore
      (lease.resources.objectStoreBytes + max lease.outputWindowBytes liveOutput))
  | some creditId =>
    match l.continuationCredits.find? creditId with
    | none => .error (.runtimeError "continuation credit accounting index is inconsistent")
    | some credit =>
      if credit.borrowedByTaskLeaseId = some lease.leaseId then
        .ok (l.borrowedTaskUsage lease.resources lease.outputWindowBytes credit)
      else
        .error (.runtimeError "continuation credit accounting index is inconsistent")

def creditOf? (output : OutputBlockLease) : Option ContinuationCredit :=
  output.continuationCreditId.bind fun creditId => l.continuationCredits.find? creditId

def isIdle (credit : ContinuationCredit) : Bool :=
  match credit.borrowedByTaskLeaseId with
  | none => true
  | some borrower => !l.taskLeases.contains borrower

def isUncovered (activeTaskIds : List String) (output : OutputBlockLease) : Bool :=
  l.creditOf? output = none ∧ output.taskLeaseId ∉ activeTaskIds

def idleCreditOf? (output : OutputBlockLease) : Option ContinuationCredit :=
  (l.creditOf? output).filter l.isIdle

def idleOutputs (outputs : List OutputBlockLease) : List (String × OutputBlockLease) :=
  outputs.filterMap fun output =>
    (l.idleCreditOf? output).map fun credit => (credit.creditId, output)

def outputsByIdleCredit (outputs : List OutputBlockLease) : Dict String ℕ :=
  (l.idleOutputs outputs).foldl (fun byCredit x => byCredit.update x.1 0 (· + x.2.sizeBytes)) ∅

def outputsByCreditAndStage : Dict String (Dict String ℕ) :=
  (l.idleOutputs l.outputLeases.values).foldl
    (fun byCredit x =>
      byCredit.update x.1 ∅ (·.update x.2.producerStageId 0 (· + x.2.sizeBytes))) ∅

def coverStages : ℕ → List (String × ℕ) → List (String × ℕ)
  | _, [] => []
  | remainingCovered, (stageId, outputBytes) :: rest =>
    let covered := min outputBytes remainingCovered
    (stageId, outputBytes - covered) :: coverStages (remainingCovered - covered) rest

def creditExcessByStage (creditId : String) (bytesByStage : Dict String ℕ) : List (String × ℕ) :=
  let order := l.graph.topologicalStageIds
  match l.continuationCredits.find? creditId with
  | none => []
  | some credit =>
    coverStages credit.resources.objectStoreBytes
      (bytesByStage.entries.sortBy fun e => toLex (order.idxOf e.1, e.1))

def continuationOutputExcessByStage : Dict String ℕ :=
  (l.outputsByCreditAndStage.entries.flatMap fun e => l.creditExcessByStage e.1 e.2).foldl
    (fun byStage x => if 0 < x.2 then byStage.update x.1 0 (· + x.2) else byStage) ∅

def creditExcess (creditId : String) (outputBytes : ℕ) : ℕ :=
  match l.continuationCredits.find? creditId with
  | none => outputBytes
  | some credit => outputBytes - credit.resources.objectStoreBytes

def uncoveredInactiveOutputBytes (activeTaskIds : List String)
    (nodeId stageId : Option String) : ℕ :=
  match stageId with
  | some stageId =>
    let outputs := l.outputLeases.values.filter (·.producerStageId = stageId)
    let uncovered := ((outputs.filter (l.isUncovered activeTaskIds)).map (·.sizeBytes)).sum
    uncovered + l.continuationOutputExcessByStage.findD stageId 0
  | none =>
    let outputs := l.outputLeases.values.filter (selects nodeId ·.nodeId)
    let uncovered := ((outputs.filter (l.isUncovered activeTaskIds)).map (·.sizeBytes)).sum
    uncovered + ((l.outputsByIdleCredit outputs).entries.map fun e => l.creditExcess e.1 e.2).sum

def residentOf (placement : ActorPlacement) : Except PyError ResourceVector :=
  match l.graph.stage? placement.stageId with
  | none => .error (.runtimeError "actor placement references an unknown query stage")
  | some stage => .ok stage.residentPerActor

def actorResidentUsage (nodeId stageId : Option String) : Except PyError ResourceVector := do
  let placements := l.allocation.actorPlacements.filter fun p =>
    selects nodeId p.nodeId && selects stageId p.stageId
  let residents ← placements.mapM l.residentOf
  return residents.sum

def queryUsage : Except PyError ResourceVector := do
  let resident ← l.actorResidentUsage none none
  let credits := l.continuationCredits.values.map (·.resources)
  let tasks ← l.taskLeases.values.mapM l.taskUsage
  let uncovered := l.uncoveredInactiveOutputBytes l.taskLeases.keys none none
  return resident + credits.sum + tasks.sum + .ofObjectStore uncovered

def nodeUsage (nodeId : String) : Except PyError ResourceVector := do
  let resident ← l.actorResidentUsage (some nodeId) none
  let credits := (l.continuationCredits.values.filter (·.nodeId = nodeId)).map (·.resources)
  let leases := l.taskLeases.values.filter (·.nodeId = nodeId)
  let tasks ← leases.mapM l.taskUsage
  let uncovered := l.uncoveredInactiveOutputBytes (leases.map (·.leaseId)) (some nodeId) none
  return resident + credits.sum + tasks.sum + .ofObjectStore uncovered

def stageUsage (stageId : String) : Except PyError ResourceVector := do
  let resident ← l.actorResidentUsage none (some stageId)
  let credits := (l.continuationCredits.values.filter (·.reservationStageId = stageId)).map
    (·.resources)
  let leases := l.taskLeases.values.filter (·.stageId = stageId)
  let tasks ← leases.mapM l.taskUsage
  let uncovered := l.uncoveredInactiveOutputBytes (leases.map (·.leaseId)) none (some stageId)
  return resident + credits.sum + tasks.sum + .ofObjectStore uncovered

end Ledger

end Vane
