import Vane.Fte.SplitAssigner
import Vane.Lib.Dict
import Vane.Lib.Order

/-! This module contains the split assigner of hash distributed fragments. -/

namespace Vane

structure HashTaskPartition where
  subPartitionCount : ℕ := 1
  splitBySource : Option String := none
  taskPartitionIds : List ℕ := []
  nextSubPartition : ℕ := 0
  count_pos : 0 < subPartitionCount := by decide
  split_by : 1 < subPartitionCount → splitBySource ≠ none := by decide

namespace HashTaskPartition

/-- `__post_init__` of a partition that is made without task partition ids. -/
def make (subPartitionCount : ℤ) (splitBySource : Option String) :
    Except PyError HashTaskPartition :=
  if hpos : subPartitionCount ≤ 0 then
    .error (.valueError "sub_partition_count must be positive")
  else if hsplit : 1 < subPartitionCount ∧ splitBySource = none then
    .error (.valueError "split_by_source is required for split hash task partitions")
  else
    .ok {
      subPartitionCount := subPartitionCount.toNat
      splitBySource
      count_pos := by omega
      split_by := fun h hnone => hsplit ⟨by omega, hnone⟩ }

/-- The loop of `ensure_ids`, for the number of ids that are missing. -/
def appendIds : ℕ → List ℕ → ℕ → List ℕ × ℕ
  | 0, ids, next => (ids, next)
  | missing + 1, ids, next => appendIds missing (ids ++ [next]) (next + 1)

def ensureIds (self : HashTaskPartition) (nextTaskPartitionId : ℕ) : HashTaskPartition × ℕ :=
  let (ids, next) := appendIds (self.subPartitionCount - self.taskPartitionIds.length)
    self.taskPartitionIds nextTaskPartitionId
  ({ self with taskPartitionIds := ids }, next)

def idsForSource (self : HashTaskPartition) (sourceNodeId : String) :
    Except PyError (List ℕ × HashTaskPartition) :=
  if self.splitBySource = some sourceNodeId then
    match self.taskPartitionIds[self.nextSubPartition]? with
    | none => .error (.indexError "list index out of range")
    | some partitionId =>
      .ok ([partitionId], { self with
        nextSubPartition := (self.nextSubPartition + 1) % self.taskPartitionIds.length })
  else
    .ok (self.taskPartitionIds, self)

end HashTaskPartition

inductive TaskPartitionRef where
  | shared (n : ℕ)
  | own (sourcePartitionId : ℕ)
  deriving DecidableEq

inductive TaskPartitionValue where
  | object (n : ℕ)
  | count (subPartitionCount : ℤ)
  | fields (subPartitionCount subPartitions : Option ℤ) (splitBySource splitBy : Option String)

/-- The keyword arguments of `HashSplitAssigner`; `objects` are the caller's task partitions. -/
structure HashSplitAssigner.Config where
  sourcePartitionCount : ℤ
  partitionedSources : List String := []
  replicatedSources : List String := []
  sourcePartitionToTaskPartition : Option (Dict ℕ TaskPartitionValue) := none
  objects : ℕ → HashTaskPartition := fun _ => {}
  sourcePartitionNodeRequirements : ℕ → Option NodeRequirements := fun _ => none
  catalogRequirement : Option String := none

structure HashSplitAssigner where
  sourcePartitionCount : ℕ
  partitionedSources : List String
  replicatedSources : List String
  sourceSequences : Dict String ℕ := ∅
  sourcePartitionToTaskPartition : ℕ → TaskPartitionRef
  taskPartitions : TaskPartitionRef → HashTaskPartition
  sourcePartitionNodeRequirements : ℕ → NodeRequirements
  createdTaskPartitions : List ℕ := []
  completedSources : Finset String := ∅
  replicatedSplits : Dict String (List FteSplit) := ∅
  allTaskPartitionsCreated : Bool := false

namespace HashSplitAssigner

variable (sourcePartitionId : ℕ) (sourceNodeId : String)

/-- `_coerce_hash_task_partition`: an object is taken as it is, other values make a new one. -/
def coerceHashTaskPartition :
    TaskPartitionValue → Except PyError (TaskPartitionRef × Option HashTaskPartition)
  | .object n => .ok (.shared n, none)
  | .count n => do
    let object ← HashTaskPartition.make n none
    return (.own sourcePartitionId, some object)
  | .fields count subPartitions splitBySource splitBy => do
    let object ← HashTaskPartition.make (count.getD (subPartitions.getD 1))
      (if splitBySource.getD "" = "" then splitBy else splitBySource)
    return (.own sourcePartitionId, some object)

def buildSourcePartitionMapping (mapping : Option (Dict ℕ TaskPartitionValue)) (count : ℕ) :
    Except PyError (List (TaskPartitionRef × Option HashTaskPartition)) :=
  (List.range count).mapM fun sourcePartitionId =>
    match mapping with
    | none => .ok (.own sourcePartitionId, some {})
    | some mapping =>
      match mapping.find? sourcePartitionId with
      | none => .error (.valueError ("missing task partition mapping for source partition "
          ++ toString sourcePartitionId))
      | some value => coerceHashTaskPartition sourcePartitionId value

def new (config : Config) : Except PyError HashSplitAssigner := do
  Except.raiseIf (config.sourcePartitionCount ≤ 0)
    (PyError.valueError "source_partition_count must be positive")
  let count := config.sourcePartitionCount.toNat
  let entries ← buildSourcePartitionMapping config.sourcePartitionToTaskPartition count
  return {
    sourcePartitionCount := count
    partitionedSources := config.partitionedSources.dedup
    replicatedSources := config.replicatedSources.dedup
    sourcePartitionToTaskPartition := fun k => ((entries[k]?).map Prod.fst).getD (.own k)
    taskPartitions := fun
      | .shared n => config.objects n
      | .own k => ((entries[k]?).bind Prod.snd).getD {}
    sourcePartitionNodeRequirements := fun k =>
      (config.sourcePartitionNodeRequirements k).getD { catalog := config.catalogRequirement } }

variable (self : HashSplitAssigner)

def allSources : List String := self.partitionedSources ++ self.replicatedSources

def taskPartition : HashTaskPartition :=
  self.taskPartitions (self.sourcePartitionToTaskPartition sourcePartitionId)

def setTaskPartition (object : HashTaskPartition) : HashSplitAssigner :=
  { self with
    taskPartitions := Function.update self.taskPartitions
      (self.sourcePartitionToTaskPartition sourcePartitionId) object }

def ensureAllIds : List ℕ → ℕ → Dict ℕ NodeRequirements → HashSplitAssigner →
    HashSplitAssigner × Dict ℕ NodeRequirements
  | [], _, requirements, self => (self, requirements)
  | sourcePartitionId :: rest, next, requirements, self =>
    let (object, next) := (self.taskPartition sourcePartitionId).ensureIds next
    let requirements := object.taskPartitionIds.foldl
      (fun requirements id => requirements.update id
        (self.sourcePartitionNodeRequirements sourcePartitionId) fun r => r)
      requirements
    ensureAllIds rest next requirements (self.setTaskPartition sourcePartitionId object)

def createTaskPartitions (result : AssignmentResult) : HashSplitAssigner × AssignmentResult :=
  if self.allTaskPartitionsCreated then
    (self, result)
  else
    let (self, requirements) := ensureAllIds (List.range self.sourcePartitionCount) 0 ∅ self
    let ids := requirements.keys.sortBy id
    ({ self with createdTaskPartitions := ids, allTaskPartitionsCreated := true },
      { result with
        partitionsAdded := result.partitionsAdded ++ ids.map fun id => ⟨id, requirements.find? id⟩
        noMorePartitions := true })

def updateAll (splits : List FteSplit) (noMoreSplits emitEmpty : Bool)
    (result : AssignmentResult) : AssignmentResult :=
  (self.createdTaskPartitions.sortBy id).foldl
    (fun result id => result.appendUpdate id sourceNodeId splits noMoreSplits emitEmpty) result

def placeSplits (sourceNodeId : String) : List FteSplit → AssignmentResult →
    Py HashSplitAssigner AssignmentResult
  | [], result => pure result
  | split :: splits, result => do
    let self ← Py.get
    if split.sourcePartitionId ≥ self.sourcePartitionCount then
      Py.raise (.valueError ("unknown source partition id: " ++ toString split.sourcePartitionId))
    else
      let (ids, object) ← Py.lift
        ((self.taskPartition split.sourcePartitionId).idsForSource sourceNodeId)
      Py.set (self.setTaskPartition split.sourcePartitionId object)
      placeSplits sourceNodeId splits
        (ids.foldl (fun result id => result.appendSplit id sourceNodeId split) result)

def completeSource (result : AssignmentResult) : HashSplitAssigner × AssignmentResult :=
  let self := { self with completedSources := insert sourceNodeId self.completedSources }
  let result := self.updateAll sourceNodeId [] true false result
  if ∀ s ∈ self.allSources, s ∈ self.completedSources then
    ({ self with replicatedSplits := ∅ },
      (self.createdTaskPartitions.sortBy id).foldl AssignmentResult.appendSeal result)
  else
    (self, result)

def distributeSplits (splits : List FteSplit) (noMoreInputs : Bool)
    (result : AssignmentResult) : Py HashSplitAssigner AssignmentResult := do
  let self ← Py.get
  if sourceNodeId ∈ self.replicatedSources then
    Py.set { self with
      replicatedSplits := self.replicatedSplits.update sourceNodeId [] (· ++ splits) }
    return self.updateAll sourceNodeId splits noMoreInputs true result
  else
    placeSplits sourceNodeId splits result

def assign (inputs : List SplitPayload) (noMoreInputs : Bool) :
    Py HashSplitAssigner AssignmentResult := do
  let self ← Py.get
  let (splits, nextSequence) ← Py.lift
    (splitsFromInputs sourceNodeId inputs (self.sourceSequences.findD sourceNodeId 0))
  let self := { self with
    sourceSequences := self.sourceSequences.insert sourceNodeId nextSequence
    partitionedSources := if self.allSources = [] then [sourceNodeId] else self.partitionedSources }
  let (self, result) := self.createTaskPartitions {}
  Py.set self
  let result ← distributeSplits sourceNodeId splits noMoreInputs result
  if noMoreInputs then
    let self ← Py.get
    let (self, result) := self.completeSource sourceNodeId result
    Py.set self
    return result
  else
    return result

end HashSplitAssigner

end Vane
