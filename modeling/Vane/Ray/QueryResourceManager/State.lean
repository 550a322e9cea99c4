import Vane.Lib.BoundedSet
import Vane.Ray.ResourceLedger

/-! This module contains the state of a resource manager and what does not grant or release. -/

namespace Vane

/-- A source of identifiers that never repeats one, as `uuid.uuid4().hex`. -/
structure UuidSource where
  hex : ℕ → String
  hex_injective : Function.Injective hex

structure TaskRequest where
  queryId : String
  stageId : String
  taskId : String
  attemptId : String
  nodeId : Option String
  retainedInputBytes : Option ℤ := none
  deriving DecidableEq

structure OutputBlockRequest where
  queryId : String
  producerStageId : String
  taskLeaseId : String
  attemptId : String
  blockId : String
  sizeBytes : ℤ
  deriving DecidableEq

structure StageState where
  runnable : Bool := false
  actorReady : Bool := false
  queuedInputBytes : ℕ := 0
  pendingTaskCount : ℕ := 0
  queuedOutputBytes : ℤ := 0
  pendingOutputCount : ℕ := 0
  completed : Bool := false
  deriving DecidableEq

abbrev terminalIdentityReplayCapacity : ℕ := 65536

/--
The state of a manager. `stages` holds the mutable part of each registered stage; the stages that
are registered, their order and their specs are those of the graph.
-/
structure QueryResourceManager extends Ledger where
  allocationAdmissionOpen : Bool := true
  reservationRatio : ℚ≥0
  admissionEpoch : ℕ := 0
  stages : String → StageState
  startedStageIds : List String := []
  activeAttemptLeases : Dict (String × String) String := ∅
  activeActorSlots : Dict (String × ℕ) String := ∅
  queuedActorSlotLeases : Dict (String × ℕ) (List String) := ∅
  terminalAttempts : BoundedSet (String × String) terminalIdentityReplayCapacity := ∅
  waitingTaskInputs : Dict (String × String) (TaskRequest × ℕ) := ∅
  waitingOutputBlocks : Dict String OutputBlockRequest := ∅
  outputLeaseByBlock : Dict String String := ∅
  terminalOutputBlocks : BoundedSet String terminalIdentityReplayCapacity := ∅
  activeLivenessTaskLeaseId : Option String := none
  activeLivenessOutputLeaseId : Option String := none
  taskLivenessGrantsTotal : ℕ := 0
  outputLivenessGrantsTotal : ℕ := 0
  externalConsumerWaiting : Bool := false
  cancelled : Bool := false
  cancelReason : String := ""
  uuidsDrawn : ℕ := 0

namespace QueryResourceManager

variable (m : QueryResourceManager) (stageId : String)

open Except (raiseIf)

def new (graph : QueryExecutionGraph) (allocation : QueryAllocation) (reservationRatio : ℚ := 1 / 2)
    : Except PyError QueryResourceManager := do
  raiseIf (reservationRatio ≤ 0 ∨ 1 < reservationRatio)
    (.valueError "reservation_ratio must be in (0, 1]")
  graph.validateAllocation allocation
  return {
    graph
    allocation
    reservationRatio := reservationRatio.toNNRat
    stages := fun stageId => { actorReady := (graph.stage? stageId).any (·.backend ≠ .rayActor) } }

def updateStage (f : StageState → StageState) : QueryResourceManager :=
  { m with stages := Function.update m.stages stageId (f (m.stages stageId)) }

def publishChange : QueryResourceManager :=
  { m with admissionEpoch := m.admissionEpoch + 1 }

def recomputeStageQueuedInput : QueryResourceManager :=
  let waiting := (m.waitingTaskInputs.values.filter (·.1.stageId = stageId)).map Prod.snd
  m.updateStage stageId fun stage =>
    { stage with pendingTaskCount := waiting.length, queuedInputBytes := waiting.sum }

def recomputeStageQueuedOutput : QueryResourceManager :=
  let waiting := (m.waitingOutputBlocks.values.filter (·.producerStageId = stageId)).map
    (·.sizeBytes)
  let leasedQueueBytes := ((m.outputLeases.values.filter fun lease =>
    lease.producerStageId = stageId ∧ ¬lease.state.isHandedOff).map (·.sizeBytes)).sum
  m.updateStage stageId fun stage =>
    { stage with
      pendingOutputCount := waiting.length
      queuedOutputBytes := waiting.sum + leasedQueueBytes }

def requireStage : Py QueryResourceManager StageResourceSpec :=
  Py.read fun m =>
    match m.graph.stage? stageId with
    | some stage => .ok stage
    | none => .error (.keyError s!"stage is not registered: {stageId}")

def updateStageState (runnable : Bool) (actorReady : Option Bool)
    (completed : Bool) : Py QueryResourceManager Unit := do
  let _ ← requireStage stageId
  let m ← Py.get
  let updated := ((m.updateStage stageId fun stage =>
      { stage with
        runnable := runnable && !completed
        actorReady := actorReady.getD stage.actorReady }).recomputeStageQueuedInput
    stageId).recomputeStageQueuedOutput stageId
  let updated := updated.updateStage stageId fun stage => { stage with completed }
  if updated.stages stageId ≠ m.stages stageId then
    Py.set updated.publishChange
  else
    Py.set updated

def noteTaskWaiting (request : TaskRequest) : Py QueryResourceManager Unit := do
  let m ← Py.get
  Py.lift (raiseIf (request.queryId ≠ m.graph.queryId)
    (.valueError "queued task query_id does not match resource manager"))
  let stage ← requireStage request.stageId
  let key := (Text.strip request.taskId, Text.strip request.attemptId)
  Py.lift (raiseIf (key.1 = "" ∨ key.2 = "") (.valueError "queued task identity must be non-empty"))
  let declared : ℤ := stage.perTask.objectStoreBytes
  let retained := request.retainedInputBytes.getD declared
  Py.lift (raiseIf (retained < 0 ∨ declared < retained)
    (.valueError "queued task retained input is outside its stage resource spec"))
  let value := (request, max 1 retained.toNat)
  match m.waitingTaskInputs.find? key with
  | some existing =>
    Py.lift (raiseIf (existing ≠ value)
      (.valueError "queued task identity was reused with different work"))
  | none =>
    Py.modify fun m => { m with waitingTaskInputs := m.waitingTaskInputs.insert key value }
    Py.modify fun m =>
      m.updateStage request.stageId fun stage => { stage with runnable := !stage.completed }
    Py.modify fun m => (m.recomputeStageQueuedInput request.stageId).publishChange

def removeTaskWaiter (taskId attemptId : String) : Py QueryResourceManager Bool := do
  let m ← Py.get
  match m.waitingTaskInputs.find? (taskId, attemptId) with
  | none => return false
  | some (request, _) =>
    Py.modify fun m =>
      { m with waitingTaskInputs := m.waitingTaskInputs.erase (taskId, attemptId) }
    Py.modify fun m => (m.recomputeStageQueuedInput request.stageId).publishChange
    return true

def markTaskAttemptTerminal (taskId attemptId : String) : Py QueryResourceManager Unit := do
  let m ← Py.get
  let key := (taskId, attemptId)
  Py.lift (raiseIf (m.activeAttemptLeases.contains key ∨ m.waitingTaskInputs.contains key)
    (.runtimeError "cannot terminalize an active or waiting task attempt"))
  Py.modify fun m => { m with terminalAttempts := m.terminalAttempts.add key }
  Py.modify publishChange

def noteOutputWaiting (request : OutputBlockRequest) : Py QueryResourceManager Unit := do
  let m ← Py.get
  Py.lift (raiseIf (request.queryId ≠ m.graph.queryId)
    (.valueError "queued output query_id does not match resource manager"))
  let _ ← requireStage request.producerStageId
  let blockId := Text.strip request.blockId
  Py.lift (raiseIf (blockId = "" ∨ request.sizeBytes ≤ 0)
    (.valueError "queued output requires a non-empty block_id and positive size"))
  Py.lift (raiseIf (∃ existing ∈ m.waitingOutputBlocks.find? blockId, existing ≠ request)
    (.valueError "queued output block_id was reused with different work"))
  Py.modify fun m =>
    { m with waitingOutputBlocks := m.waitingOutputBlocks.insert blockId request }
  Py.modify fun m => (m.recomputeStageQueuedOutput request.producerStageId).publishChange

def removeOutputWaiter (blockId : String) : Py QueryResourceManager Bool := do
  let m ← Py.get
  match m.waitingOutputBlocks.find? blockId with
  | none => return false
  | some request =>
    Py.modify fun m => { m with waitingOutputBlocks := m.waitingOutputBlocks.erase blockId }
    Py.modify fun m => (m.recomputeStageQueuedOutput request.producerStageId).publishChange
    return true

def markOutputBlockTerminal (blockId : String) : Py QueryResourceManager Unit := do
  let m ← Py.get
  Py.lift (raiseIf (m.outputLeaseByBlock.contains blockId ∨ m.waitingOutputBlocks.contains blockId)
    (.runtimeError "cannot terminalize an active or waiting output block"))
  Py.modify fun m => { m with terminalOutputBlocks := m.terminalOutputBlocks.add blockId }
  Py.modify publishChange

def setExternalConsumerWaiting (waiting : Bool) : Py QueryResourceManager Unit := do
  let m ← Py.get
  if m.externalConsumerWaiting ≠ waiting then
    Py.modify fun m => { m with externalConsumerWaiting := waiting }
    Py.modify publishChange

def setStageActorReady (ready : Bool) : Py QueryResourceManager Unit := do
  let stage ← requireStage stageId
  Py.lift (raiseIf (stage.backend ≠ .rayActor)
    (.valueError s!"stage is not a Ray actor stage: {stageId}"))
  let m ← Py.get
  if (m.stages stageId).actorReady ≠ ready then
    Py.modify fun m => m.updateStage stageId fun stage => { stage with actorReady := ready }
    Py.modify publishChange

def updateAllocation (allocation : QueryAllocation) (admissionOpen : Bool) :
    Py QueryResourceManager Unit := do
  let m ← Py.get
  let (current, new) := (m.allocation.generation, allocation.generation)
  Py.lift (raiseIf (new ≤ current)
    (.valueError s!"allocation generation must increase: current={current} new={new}"))
  Py.lift (m.graph.validateAllocation allocation false)
  Py.modify fun m => { m with allocation, allocationAdmissionOpen := admissionOpen }
  Py.modify publishChange

def closeAdmission : Py QueryResourceManager Unit := do
  let m ← Py.get
  if m.allocationAdmissionOpen then
    Py.modify fun m => { m with allocationAdmissionOpen := false }
    Py.modify publishChange

end QueryResourceManager

end Vane
