import Vane.Fte.Exchange

/-! This module contains the description of a task that the driver keeps. -/

namespace Vane

open Except (raiseIf)

structure FteTaskId where
  queryId : String
  fragmentExecutionId : ℕ
  partitionId : ℕ
  deriving DecidableEq

def FteTaskId.text (id : FteTaskId) : String :=
  id.queryId ++ "." ++ toString id.fragmentExecutionId ++ "." ++ toString id.partitionId

structure FteTaskAttemptId where
  taskId : FteTaskId
  attemptId : ℕ
  deriving DecidableEq

namespace FteTaskAttemptId

def text (id : FteTaskAttemptId) : String := id.taskId.text ++ "." ++ toString id.attemptId

end FteTaskAttemptId

inductive FteTaskState where
  | planned
  | queued
  | running
  | finished
  | failed
  | canceled
  | aborted
  deriving DecidableEq

def FteTaskState.isTerminal : FteTaskState → Bool
  | planned | queued | running => false
  | finished | failed | canceled | aborted => true

/-! The output buffers of a task. -/

inductive BufferIds where
  | mapping (values : Dict String String)
  | sequence (ids : List String)
  deriving DecidableEq

def BufferIds.isEqual : BufferIds → BufferIds → Bool
  | mapping d, mapping e => d.isEqual e
  | sequence l, sequence l' => l = l'
  | _, _ => false

structure OutputBuffers where
  version : ℕ
  type : Option String
  buffers : Option BufferIds
  noMoreBufferIds : Bool
  outputPartitionCount : Option ℕ
  exchangeSinkInstance : Option String
  others : Dict String String
  deriving DecidableEq

namespace OutputBuffers

def isEqual (b c : OutputBuffers) : Bool :=
  b.version = c.version ∧ b.type = c.type ∧
    b.buffers.isSome = c.buffers.isSome ∧
    (∀ ids ∈ b.buffers, ∀ ids' ∈ c.buffers, ids.isEqual ids') ∧
    b.noMoreBufferIds = c.noMoreBufferIds ∧ b.outputPartitionCount = c.outputPartitionCount ∧
    b.exchangeSinkInstance = c.exchangeSinkInstance ∧ b.others.isEqual c.others

def assignments (b : OutputBuffers) : Dict String (Option String) :=
  match b.buffers with
  | none => ∅
  | some (.mapping values) => values.mapValues some
  | some (.sequence ids) => Dict.ofKeys ids fun _ => none

/-- `repr` of a list of identifiers that need no escapes. -/
def listText (ids : List String) : String :=
  "[" ++ ", ".intercalate (ids.map fun id => "'" ++ id ++ "'") ++ "]"

def validateTransition (current update : OutputBuffers) : Except PyError Unit := do
  raiseIf (current.type.isSome ∧ update.type.isSome ∧ current.type ≠ update.type)
    (.valueError ("output_buffers type cannot change from '" ++ current.type.getD "" ++ "' to '" ++
      update.type.getD "" ++ "'"))
  raiseIf (current.noMoreBufferIds ∧ ¬current.isEqual update)
    (.valueError "output_buffers are sealed and cannot be changed")
  raiseIf (current.outputPartitionCount.isSome ∧ update.outputPartitionCount.isSome ∧
      current.outputPartitionCount ≠ update.outputPartitionCount)
    (.valueError ("output_buffers output_partition_count cannot change from " ++
      toString (current.outputPartitionCount.getD 0) ++ " to " ++
      toString (update.outputPartitionCount.getD 0)))
  let missing := (current.assignments.keys.filter (¬update.assignments.contains ·)).sortBy id
  raiseIf (missing ≠ []) (.valueError ("output_buffers cannot remove buffers: " ++ listText missing))
  let changed := (current.assignments.keys.filter fun id =>
    update.assignments.find? id ≠ current.assignments.find? id).sortBy id
  match changed with
  | [] => return ()
  | id :: _ => .error (.valueError ("output_buffers assignment cannot change for buffer " ++ id))

/-- `_merge_output_buffers` of an update that is not `None`: the new buffers, if they change. -/
def merge (current : Option OutputBuffers) (update : OutputBuffers) :
    Except PyError (Option OutputBuffers) :=
  match current with
  | none => .ok (some update)
  | some current =>
    if update.version < current.version then
      .ok none
    else if update.version = current.version then
      if update.isEqual current then
        .ok none
      else
        .error (.valueError ("output_buffers version " ++ toString update.version ++
          " contains conflicting content"))
    else do
      validateTransition current update
      return some update

end OutputBuffers

/-! The updates of a task, and its descriptor. -/

structure FteTaskUpdateRequest where
  initialSplits : Dict String (List FteSplit) := ∅
  noMoreSplits : List String := []
  outputBuffers : Option OutputBuffers := none
  dynamicFilterDomains : Dict String String := ∅
  context : Dict String String := ∅
  resourceRequest : Dict String String := ∅
  /-- `none` if the plan is not present; a plan is known by its identity. -/
  fragmentPlan : Option (Option ℕ) := none
  sourceNodeIds : Finset String := ∅
  dynamicScanSourceNodeIds : Finset String := ∅
  dynamicExchangeSourceNodeIds : Finset String := ∅
  deriving DecidableEq

inductive SinkInstance where
  | tracked (handle : ExchangeSinkInstanceHandle)
  | payload (text : String)
  | derived (text : String) (attemptId partitionId : ℕ)
  deriving DecidableEq

inductive FteTaskExecutionClass where
  | standard
  | speculative
  | eagerSpeculative
  deriving DecidableEq

namespace FteTaskExecutionClass

def value : FteTaskExecutionClass → String
  | standard => "STANDARD"
  | speculative => "SPECULATIVE"
  | eagerSpeculative => "EAGER_SPECULATIVE"

def isSpeculative : FteTaskExecutionClass → Bool
  | standard => false
  | speculative => true
  | eagerSpeculative => true

def canTransitionTo (c target : FteTaskExecutionClass) : Bool :=
  if c = standard then target = standard else target = c ∨ target = standard

end FteTaskExecutionClass

structure CreateTaskRequest where
  taskId : FteTaskAttemptId
  fragmentId : String
  context : Dict String String
  initialSplits : Dict String (List FteSplit)
  noMoreSplits : Finset String
  resourceRequest : Dict String String
  fragmentPlan : Option ℕ
  fragmentRegistrationResult : Option String
  descriptorVersion : ℕ
  outputBuffers : Option OutputBuffers
  dynamicFilterDomains : Dict String String
  sourceNodeIds : Finset String
  dynamicScanSourceNodeIds : Finset String
  dynamicExchangeSourceNodeIds : Finset String
  exchangeSinkInstance : Option SinkInstance
  memoryRequirementBytes : Option ℕ := none
  executionClass : FteTaskExecutionClass := .standard

structure TaskDescriptor where
  taskId : FteTaskId
  fragmentId : String
  context : Dict String String := ∅
  initialSplits : Dict String (List FteSplit) := ∅
  noMoreSplits : Finset String := ∅
  resourceRequest : Dict String String := ∅
  fragmentPlan : Option ℕ := none
  fragmentRegistrationResult : Option String := none
  exchangeSinkInstance : Option String := none
  outputBuffers : Option OutputBuffers := none
  dynamicFilterDomains : Dict String String := ∅
  descriptorVersion : ℕ := 0
  isSealed : Bool := false
  sourceNodeIds : Finset String := ∅
  dynamicScanSourceNodeIds : Finset String := ∅
  dynamicExchangeSourceNodeIds : Finset String := ∅
  seenSequences : Dict String (Finset ℕ) := ∅

namespace TaskDescriptor

variable (update : FteTaskUpdateRequest)

def appendEach (sourceNodeId : String) : List FteSplit → Py TaskDescriptor (List FteSplit)
  | [] => return []
  | split :: splits => do
    Py.lift (raiseIf (split.sourceNodeId ≠ sourceNodeId)
      (.valueError "split source_node_id does not match descriptor update source"))
    let d ← Py.get
    if split.sequenceId ∈ d.seenSequences.findD sourceNodeId ∅ then
      appendEach sourceNodeId splits
    else
      Py.modify fun d => { d with
        seenSequences := d.seenSequences.update sourceNodeId ∅ (insert split.sequenceId)
        initialSplits := d.initialSplits.update sourceNodeId [] (· ++ [split]) }
      let added ← appendEach sourceNodeId splits
      return split :: added

def appendSplits (sourceNodeId : String) (splits : List FteSplit) :
    Py TaskDescriptor (List FteSplit) := do
  let d ← Py.get
  Py.lift (raiseIf (sourceNodeId ∈ d.noMoreSplits ∧ splits ≠ [])
    (.runtimeError ("source " ++ sourceNodeId ++ " is already marked no_more_splits")))
  Py.modify fun d => { d with
    sourceNodeIds := if splits ≠ [] then insert sourceNodeId d.sourceNodeIds else d.sourceNodeIds
    initialSplits := d.initialSplits.update sourceNodeId [] id
    seenSequences := d.seenSequences.update sourceNodeId ∅ id }
  appendEach sourceNodeId splits

def markNoMoreSplits (sourceNodeId : String) : Py TaskDescriptor Bool := do
  let d ← Py.get
  Py.modify fun d => { d with sourceNodeIds := insert sourceNodeId d.sourceNodeIds }
  if sourceNodeId ∈ d.noMoreSplits then
    return false
  else
    Py.modify fun d => { d with noMoreSplits := insert sourceNodeId d.noMoreSplits }
    return true

def appendAll : List (String × List FteSplit) → Bool → Py TaskDescriptor Bool
  | [], changed => return changed
  | (sourceNodeId, splits) :: rest, changed => do
    let added ← appendSplits sourceNodeId splits
    appendAll rest (!added.isEmpty || changed)

def markAll : List String → Bool → Py TaskDescriptor Bool
  | [], changed => return changed
  | sourceNodeId :: rest, changed => do
    let marked ← markNoMoreSplits sourceNodeId
    markAll rest (marked || changed)

def mergeContext (d : TaskDescriptor) : TaskDescriptor :=
  { d with
    context := d.context.updateAll update.context
    resourceRequest := d.resourceRequest.updateAll update.resourceRequest
    fragmentPlan := update.fragmentPlan.getD d.fragmentPlan }

def mergeSources (d : TaskDescriptor) : TaskDescriptor :=
  { d with
    dynamicFilterDomains := d.dynamicFilterDomains.updateAll update.dynamicFilterDomains
    sourceNodeIds := d.sourceNodeIds ∪ update.sourceNodeIds
    dynamicScanSourceNodeIds := d.dynamicScanSourceNodeIds ∪ update.dynamicScanSourceNodeIds
    dynamicExchangeSourceNodeIds :=
      d.dynamicExchangeSourceNodeIds ∪ update.dynamicExchangeSourceNodeIds }

def mergeBuffers : Py TaskDescriptor Bool := do
  match update.outputBuffers with
  | none => return false
  | some buffers =>
    let d ← Py.get
    match ← Py.lift (OutputBuffers.merge d.outputBuffers buffers) with
    | none => return false
    | some merged =>
      Py.modify fun d => { d with outputBuffers := some merged }
      return true

def merging {α : Type} [DecidableEq α] (field : TaskDescriptor → α)
    (write : TaskDescriptor → TaskDescriptor) : Py TaskDescriptor Bool := do
  let d ← Py.get
  Py.modify write
  return field (write d) ≠ field d

def applyTaskUpdate : Py TaskDescriptor Bool := do
  let split ← appendAll update.initialSplits.entries false
  let marked ← markAll (update.noMoreSplits.sortBy id) split
  let context ← merging (fun d => (d.context, d.resourceRequest, d.fragmentPlan))
    (mergeContext update)
  let buffers ← mergeBuffers update
  let sources ← merging (fun d => (d.dynamicFilterDomains, d.sourceNodeIds,
    d.dynamicScanSourceNodeIds, d.dynamicExchangeSourceNodeIds)) (mergeSources update)
  let changed := marked || context || buffers || sources
  if changed then
    Py.modify fun d => { d with descriptorVersion := d.descriptorVersion + 1 }
  return changed

def toCreateTaskRequest (d : TaskDescriptor) (attemptId : ℕ)
    (exchangeSinkInstance : Option SinkInstance) : CreateTaskRequest where
  taskId := ⟨d.taskId, attemptId⟩
  fragmentId := d.fragmentId
  context := d.context
  initialSplits := d.initialSplits
  noMoreSplits := d.noMoreSplits
  resourceRequest := d.resourceRequest
  fragmentPlan := d.fragmentPlan
  fragmentRegistrationResult := d.fragmentRegistrationResult
  descriptorVersion := d.descriptorVersion
  outputBuffers := d.outputBuffers
  dynamicFilterDomains := d.dynamicFilterDomains
  sourceNodeIds := d.sourceNodeIds
  dynamicScanSourceNodeIds := d.dynamicScanSourceNodeIds
  dynamicExchangeSourceNodeIds := d.dynamicExchangeSourceNodeIds
  exchangeSinkInstance := exchangeSinkInstance <|> d.exchangeSinkInstance.map .payload

end TaskDescriptor

end Vane
