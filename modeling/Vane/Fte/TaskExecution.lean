import Vane.Fte.TaskDescriptor

/-!
This module contains the execution of a task on a worker. A native split queue is a list of splits
that can be closed.
-/

namespace Vane

open Except (raiseIf)

inductive SplitKind where
  | scanTask
  | exchangeSourceTask
  deriving DecidableEq

def SplitKind.value : SplitKind → String
  | scanTask => "scan_task"
  | exchangeSourceTask => "exchange_source_task"

structure FteSplitQueue where
  splits : List FteSplit := []
  isClosed : Bool := false
  deriving DecidableEq

namespace FteSplitQueue

def noMoreSplits (queue : FteSplitQueue) : FteSplitQueue := { queue with isClosed := true }

end FteSplitQueue

structure TaskStatus where
  state : FteTaskState := .planned
  version : ℕ := 0
  duplicateSplitCount : ℕ := 0
  deriving DecidableEq

structure FteTaskExecution where
  taskId : FteTaskAttemptId
  initialSplits : Dict String (List FteSplit)
  noMoreSplitSources : Finset String
  outputBuffers : Option OutputBuffers
  dynamicFilterDomains : Dict String String
  descriptorVersion : ℕ
  context : Dict String String
  resourceRequest : Dict String String
  fragmentPlan : Option ℕ
  sourceNodeIds : Finset String
  dynamicScanSourceIds : Finset String
  dynamicExchangeSourceIds : Finset String
  dynamicScanSourceQueues : String → Option FteSplitQueue := fun _ => none
  dynamicExchangeSourceQueues : String → Option FteSplitQueue := fun _ => none
  seenSequences : Dict String (Finset ℕ)
  status : TaskStatus := {}
  memoryRequirementBytes : ℕ
  isStarted : Bool := false
  doneCallbacks : ℕ := 0
  executionStarted : Bool := false

namespace FteTaskExecution

variable (self : FteTaskExecution) (kind : SplitKind) (update : FteTaskUpdateRequest)
  (sourceNodeId : String)

def addSplitToDynamicQueue (queue : FteSplitQueue) (split : FteSplit) :
    Except PyError FteSplitQueue := do
  raiseIf (split.kind ≠ kind.value)
    (.valueError ("dynamic " ++ kind.value ++ " queues only accept " ++ kind.value ++ " splits"))
  return { queue with splits := queue.splits ++ [split] }

def fillQueue (noMoreSplitSources : Finset String)
    (queues : String → Option FteSplitQueue) (entry : String × List FteSplit) :
    Except PyError (String → Option FteSplitQueue) :=
  match queues entry.1 with
  | none => .ok queues
  | some queue => do
    let queue ← entry.2.foldlM (addSplitToDynamicQueue kind) queue
    let queue := if entry.1 ∈ noMoreSplitSources then queue.noMoreSplits else queue
    return Function.update queues entry.1 (some queue)

def createDynamicSourceQueues
    (sourceIds : Finset String) : Except PyError (String → Option FteSplitQueue) :=
  self.initialSplits.entries.foldlM (fillQueue kind self.noMoreSplitSources)
    fun source => if source ∈ sourceIds then some {} else none

def queues : SplitKind → String → Option FteSplitQueue
  | .scanTask => self.dynamicScanSourceQueues
  | .exchangeSourceTask => self.dynamicExchangeSourceQueues

def sourceIds : SplitKind → Finset String
  | .scanTask => self.dynamicScanSourceIds
  | .exchangeSourceTask => self.dynamicExchangeSourceIds

def putQueues (queues : String → Option FteSplitQueue) : FteTaskExecution :=
  match kind with
  | .scanTask => { self with dynamicScanSourceQueues := queues }
  | .exchangeSourceTask => { self with dynamicExchangeSourceQueues := queues }

def putSourceIds (sourceIds : Finset String) : FteTaskExecution :=
  match kind with
  | .scanTask => { self with dynamicScanSourceIds := sourceIds }
  | .exchangeSourceTask => { self with dynamicExchangeSourceIds := sourceIds }

/-- `__init__`; how the memory requirement is read from the request is left out. -/
def new (request : CreateTaskRequest) (memoryRequirementBytes : ℕ) :
    Except PyError FteTaskExecution := do
  let self : FteTaskExecution := {
    taskId := request.taskId
    initialSplits := request.initialSplits
    noMoreSplitSources := request.noMoreSplits
    outputBuffers := request.outputBuffers
    dynamicFilterDomains := request.dynamicFilterDomains
    descriptorVersion := request.descriptorVersion
    context := request.context
    resourceRequest := request.resourceRequest
    fragmentPlan := request.fragmentPlan
    sourceNodeIds := request.sourceNodeIds
    dynamicScanSourceIds := request.dynamicScanSourceNodeIds
    dynamicExchangeSourceIds := request.dynamicExchangeSourceNodeIds
    seenSequences := request.initialSplits.mapValues fun splits =>
      (splits.map FteSplit.sequenceId).toFinset
    memoryRequirementBytes }
  let scan ← self.createDynamicSourceQueues .scanTask self.dynamicScanSourceIds
  let exchange ← self.createDynamicSourceQueues .exchangeSourceTask self.dynamicExchangeSourceIds
  return { self with
    dynamicScanSourceQueues := scan
    dynamicExchangeSourceQueues := exchange }

def transition (state : FteTaskState) (self : FteTaskExecution) : FteTaskExecution :=
  if self.status.state.isTerminal then
    self
  else
    { self with status := { self.status with state, version := self.status.version + 1 } }

def start : FteTaskExecution :=
  if self.isStarted then self else { self.transition .running with isStarted := true }

def enqueue : FteTaskExecution :=
  if self.isStarted ∨ self.status.state.isTerminal then self else self.transition .queued

def addDoneCallback : FteTaskExecution :=
  if self.isStarted then { self with doneCallbacks := self.doneCallbacks + 1 } else self

def bumpVersion : FteTaskExecution :=
  { self with status := { self.status with version := self.status.version + 1 } }

def requireLive (message : String) : Py FteTaskExecution Unit := do
  let self ← Py.get
  Py.lift (raiseIf self.status.state.isTerminal
    (.runtimeError (message ++ " terminal task " ++ self.taskId.text)))

def offerSplit (split : FteSplit) : Py FteTaskExecution Unit := do
  let self ← Py.get
  match self.queues kind sourceNodeId with
  | none => return ⟨⟩
  | some queue =>
    let queue ← Py.lift (addSplitToDynamicQueue kind queue split)
    Py.modify fun self =>
      self.putQueues kind (Function.update (self.queues kind) sourceNodeId (some queue))

def recordSplit (split : FteSplit) (self : FteTaskExecution) : FteTaskExecution :=
  { self with
    seenSequences := self.seenSequences.update sourceNodeId ∅ (insert split.sequenceId)
    initialSplits := self.initialSplits.update sourceNodeId [] (· ++ [split]) }

def receiveEach (sourceNodeId : String) : List (Except PyError FteSplit) → Py FteTaskExecution Bool
  | [] => return false
  | split :: splits => do
    let split ← Py.lift split
    let self ← Py.get
    if split.sequenceId ∈ self.seenSequences.findD sourceNodeId ∅ then
      Py.modify fun self => { self with
        status := { self.status with
          duplicateSplitCount := self.status.duplicateSplitCount + 1 } }
      receiveEach sourceNodeId splits
    else
      Py.modify (recordSplit sourceNodeId split)
      offerSplit .scanTask sourceNodeId split
      offerSplit .exchangeSourceTask sourceNodeId split
      let _ ← receiveEach sourceNodeId splits
      return true

def touchSource (self : FteTaskExecution) : FteTaskExecution :=
  { self with
    seenSequences := self.seenSequences.update sourceNodeId ∅ id
    initialSplits := self.initialSplits.update sourceNodeId [] id }

def sealedError : PyError :=
  .runtimeError ("source " ++ sourceNodeId ++ " is already marked no_more_splits")

def addSplits (payloads : List SplitPayload) : Py FteTaskExecution Unit := do
  requireLive "cannot add splits to"
  let self ← Py.get
  Py.lift (raiseIf (sourceNodeId ∈ self.noMoreSplitSources) (sealedError sourceNodeId))
  Py.modify (touchSource sourceNodeId)
  let added ← receiveEach sourceNodeId (payloads.map (FteSplit.fromDict sourceNodeId))
  if added then
    Py.modify bumpVersion

def appendUpdateSplits (splits : List FteSplit) : Py FteTaskExecution Bool := do
  let self ← Py.get
  Py.lift (raiseIf (sourceNodeId ∈ self.noMoreSplitSources ∧ splits ≠ []) (sealedError sourceNodeId))
  Py.modify (touchSource sourceNodeId)
  receiveEach sourceNodeId (splits.map .ok)

def closeQueue (self : FteTaskExecution) : FteTaskExecution :=
  match self.queues kind sourceNodeId with
  | none => self
  | some queue =>
    self.putQueues kind (Function.update (self.queues kind) sourceNodeId (some queue.noMoreSplits))

def sealSource : Py FteTaskExecution Bool := do
  let self ← Py.get
  if sourceNodeId ∈ self.noMoreSplitSources then
    return false
  else
    Py.modify fun self => { self with
      noMoreSplitSources := insert sourceNodeId self.noMoreSplitSources }
    Py.modify (closeQueue .exchangeSourceTask sourceNodeId)
    Py.modify (closeQueue .scanTask sourceNodeId)
    return true

def noMoreSplits : Py FteTaskExecution Unit := do
  requireLive "cannot update"
  let changed ← sealSource sourceNodeId
  if changed then
    Py.modify bumpVersion

def hasDescriptorFields : Bool :=
  update.context.entries ≠ [] ∨ update.resourceRequest.entries ≠ [] ∨ update.fragmentPlan.isSome ∨
    update.sourceNodeIds ≠ ∅ ∨ update.dynamicScanSourceNodeIds ≠ ∅ ∨
    update.dynamicExchangeSourceNodeIds ≠ ∅

def storeFields (self : FteTaskExecution) : FteTaskExecution :=
  { self with
    context := self.context.updateAll update.context
    resourceRequest := self.resourceRequest.updateAll update.resourceRequest
    fragmentPlan := update.fragmentPlan.getD self.fragmentPlan
    sourceNodeIds := self.sourceNodeIds ∪ update.sourceNodeIds }

def addDynamicSources (sourceIds : Finset String) : Py FteTaskExecution Bool := do
  let self ← Py.get
  let merged := self.sourceIds kind ∪ sourceIds
  if merged = self.sourceIds kind then
    return false
  else
    Py.modify fun self => self.putSourceIds kind merged
    let missing := merged.filter fun source => (self.queues kind source).isNone
    let created ← Py.lift (self.createDynamicSourceQueues kind missing)
    Py.modify fun self => self.putQueues kind fun source => created source <|> self.queues kind source
    return true

def appendEachSource : List (String × List FteSplit) → Bool → Py FteTaskExecution Bool
  | [], changed => return changed
  | (sourceNodeId, splits) :: rest, changed => do
    let added ← appendUpdateSplits sourceNodeId splits
    appendEachSource rest (added || changed)

def sealEachSource : List String → Bool → Py FteTaskExecution Bool
  | [], changed => return changed
  | sourceNodeId :: rest, changed => do
    let marked ← sealSource sourceNodeId
    sealEachSource rest (marked || changed)

def mergeOutputBuffers : Py FteTaskExecution Bool := do
  match update.outputBuffers with
  | none => return false
  | some buffers =>
    let self ← Py.get
    match ← Py.lift (OutputBuffers.merge self.outputBuffers buffers) with
    | none => return false
    | some merged =>
      Py.modify fun self => { self with outputBuffers := some merged }
      return true

def mergeDynamicFilters : Py FteTaskExecution Bool := do
  let self ← Py.get
  let merged := self.dynamicFilterDomains.updateAll update.dynamicFilterDomains
  Py.modify fun self => { self with dynamicFilterDomains := merged }
  return !merged.isEqual self.dynamicFilterDomains

def updateTask : Py FteTaskExecution Unit := do
  requireLive "cannot update"
  let self ← Py.get
  Py.lift (raiseIf (self.executionStarted ∧ hasDescriptorFields update)
    (.runtimeError ("cannot update descriptor fields after task execution started: " ++
      self.taskId.text)))
  let stored := update.context.entries ≠ [] ∨ update.resourceRequest.entries ≠ [] ∨
    update.fragmentPlan.isSome ∨ ¬update.sourceNodeIds ⊆ self.sourceNodeIds
  Py.modify (storeFields update)
  let scan ← addDynamicSources .scanTask update.dynamicScanSourceNodeIds
  let exchange ← addDynamicSources .exchangeSourceTask update.dynamicExchangeSourceNodeIds
  let appended ← appendEachSource update.initialSplits.entries (stored || scan || exchange)
  let marked ← sealEachSource (update.noMoreSplits.sortBy id) appended
  let buffers ← mergeOutputBuffers update
  let filters ← mergeDynamicFilters update
  if marked || buffers || filters then
    Py.modify fun self => bumpVersion { self with descriptorVersion := self.descriptorVersion + 1 }

/-! The calls by which an execution changes. -/

inductive Call where
  | addSplits (sourceNodeId : String) (payloads : List SplitPayload)
  | noMoreSplits (sourceNodeId : String)
  | updateTask (update : FteTaskUpdateRequest)
  | transition (state : FteTaskState)
  | beginExecution

def Call.exec : Call → Py FteTaskExecution Unit
  | addSplits sourceNodeId payloads => FteTaskExecution.addSplits sourceNodeId payloads
  | noMoreSplits sourceNodeId => FteTaskExecution.noMoreSplits sourceNodeId
  | updateTask update => FteTaskExecution.updateTask update
  | transition state => Py.modify (FteTaskExecution.transition state)
  | beginExecution => Py.modify fun self => { self with executionStarted := true }

def Call.step (call : Call) (e : FteTaskExecution) : FteTaskExecution := (call.exec e).2

end FteTaskExecution

end Vane
