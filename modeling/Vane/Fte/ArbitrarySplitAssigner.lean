import Vane.Fte.SplitAssigner
import Vane.Lib.Dict
import Vane.Lib.Order

/-! This module contains the split assigner of fragments without a hash distribution. -/

namespace Vane

/-- `round`: to the nearest integer, ties to the even one. -/
def roundHalfEven (q : ℚ) : ℤ :=
  let floor := ⌊q⌋
  if q - floor < 1 / 2 then floor
  else if q - floor > 1 / 2 then floor + 1
  else if floor % 2 = 0 then floor
  else floor + 1

structure PartitionAssignment where
  partitionId : ℕ
  assignedDataSizeBytes : ℤ := 0
  assignedSplitCount : ℤ := 0
  full : Bool := false
  deriving DecidableEq

namespace PartitionAssignment

def assignSplit (self : PartitionAssignment) (sizeBytes : ℤ) : PartitionAssignment :=
  { self with
    assignedDataSizeBytes := self.assignedDataSizeBytes + sizeBytes
    assignedSplitCount := self.assignedSplitCount + 1 }

end PartitionAssignment

/-- The keyword arguments of `ArbitrarySplitAssigner`; a set of sources is given in its order. -/
structure ArbitrarySplitAssigner.Config where
  maxSplitsPerPartition : Option ℤ := none
  catalogRequirement : Option String := none
  partitionedSources : List String := []
  replicatedSources : List String := []
  minTargetPartitionSizeBytes : Option ℤ := none
  maxTargetPartitionSizeBytes : Option ℤ := none
  adaptiveGrowthPeriod : ℤ := 64
  adaptiveGrowthFactor : ℚ := 126 / 100
  standardSplitSizeBytes : ℤ := 64 * 1024 * 1024
  maxTaskSplitCount : Option ℤ := none

/--
`openAssignments` holds the partition ids of the open assignments, which live in `allAssignments`.
The source's set of all sources is the union of the partitioned and the replicated ones.
-/
structure ArbitrarySplitAssigner where
  nextPartitionId : ℕ := 0
  sourceSequences : Dict String ℕ := ∅
  catalogRequirement : Option String
  partitionedSources : List String
  replicatedSources : List String
  completedSources : Finset String := ∅
  replicatedSplits : Dict String (List FteSplit) := ∅
  noMoreReplicatedSplits : Bool := false
  allAssignments : List PartitionAssignment := []
  openAssignments : Dict NodeRequirements ℕ := ∅
  adaptiveGrowthPeriod : ℤ
  adaptiveGrowthFactor : ℚ
  minTargetPartitionSizeBytes : ℤ
  maxTargetPartitionSizeBytes : ℤ
  targetPartitionSizeBytes : ℤ
  roundedTargetPartitionSizeBytes : ℤ
  adaptiveCounter : ℤ := 0
  standardSplitSizeBytes : ℤ
  maxTaskSplitCount : ℤ
  finished : Bool := false

namespace ArbitrarySplitAssigner

variable (requirements : NodeRequirements) (result : AssignmentResult)

def new (config : Config) : Except PyError ArbitrarySplitAssigner := do
  Except.raiseIf (∃ n ∈ config.maxSplitsPerPartition, n ≤ 0)
    (PyError.valueError "max_splits_per_partition must be positive")
  let maxTaskSplitCount := config.maxTaskSplitCount.getD (config.maxSplitsPerPartition.getD 2048)
  Except.raiseIf (maxTaskSplitCount ≤ 0)
    (PyError.valueError "max_task_split_count must be positive")
  Except.raiseIf (config.adaptiveGrowthPeriod ≤ 0)
    (PyError.valueError "adaptive_growth_period must be positive")
  Except.raiseIf (config.adaptiveGrowthFactor < 1)
    (PyError.valueError "adaptive_growth_factor must be >= 1")
  let minTarget :=
    config.minTargetPartitionSizeBytes.getD (maxTaskSplitCount * config.standardSplitSizeBytes)
  let maxTarget := config.maxTargetPartitionSizeBytes.getD minTarget
  Except.raiseIf (minTarget ≤ 0)
    (PyError.valueError "min_target_partition_size_bytes must be positive")
  Except.raiseIf (maxTarget < minTarget)
    (PyError.valueError
      "max_target_partition_size_bytes must be >= min_target_partition_size_bytes")
  return {
    catalogRequirement := config.catalogRequirement
    partitionedSources := config.partitionedSources.dedup
    replicatedSources := config.replicatedSources.dedup
    adaptiveGrowthPeriod := config.adaptiveGrowthPeriod
    adaptiveGrowthFactor := config.adaptiveGrowthFactor
    minTargetPartitionSizeBytes := minTarget
    maxTargetPartitionSizeBytes := maxTarget
    targetPartitionSizeBytes := minTarget
    roundedTargetPartitionSizeBytes := minTarget
    standardSplitSizeBytes := config.standardSplitSizeBytes
    maxTaskSplitCount }

variable (self : ArbitrarySplitAssigner)

def allSources : List String := self.partitionedSources ++ self.replicatedSources

def Completed (sources : List String) : Prop := ∀ s ∈ sources, s ∈ self.completedSources

instance (sources : List String) : Decidable (self.Completed sources) :=
  inferInstanceAs (Decidable (∀ s ∈ sources, s ∈ self.completedSources))

def findAssignment : Option PartitionAssignment :=
  (self.openAssignments.find? requirements).bind fun partitionId =>
    self.allAssignments.find? fun assignment => assignment.partitionId = partitionId

def modifyAssignment (partitionId : ℕ) (f : PartitionAssignment → PartitionAssignment) :
    ArbitrarySplitAssigner :=
  { self with
    allAssignments := self.allAssignments.map fun assignment =>
      if assignment.partitionId = partitionId then f assignment else assignment }

def rank (address : String) : ℤ :=
  let flex := self.findAssignment ⟨self.catalogRequirement, some address, true⟩
  let rigid := self.findAssignment ⟨self.catalogRequirement, some address, false⟩
  match flex, rigid with
  | none, none => -1
  | none, some rigid => rigid.assignedDataSizeBytes
  | some flex, none => flex.assignedDataSizeBytes
  | some flex, some rigid => flex.assignedDataSizeBytes + rigid.assignedDataSizeBytes

def nodeRequirements (split : FteSplit) : Except PyError NodeRequirements := do
  Except.raiseIf
    (self.catalogRequirement ≠ none ∧ split.catalog ≠ none ∧
      split.catalog ≠ self.catalogRequirement)
    (PyError.valueError ("unexpected split catalog requirement: " ++ split.catalog.getD "None"))
  let host := List.minBy? self.rank split.addresses
  Except.raiseIf (host = none ∧ split.remotelyAccessible = false)
    (PyError.valueError "split is not remotely accessible but has no host address")
  return ⟨self.catalogRequirement, host, split.remotelyAccessible⟩

def growTargetIfNeeded : ArbitrarySplitAssigner :=
  if self.adaptiveCounter + 1 < self.adaptiveGrowthPeriod then
    { self with adaptiveCounter := self.adaptiveCounter + 1 }
  else
    let target := min self.maxTargetPartitionSizeBytes
      ⌊(self.targetPartitionSizeBytes : ℚ) * self.adaptiveGrowthFactor + 999999 / 1000000⌋
    let rounded :=
      roundHalfEven ((target : ℚ) / self.minTargetPartitionSizeBytes)
        * self.minTargetPartitionSizeBytes
    { self with
      targetPartitionSizeBytes := target
      roundedTargetPartitionSizeBytes := max self.minTargetPartitionSizeBytes rounded
      adaptiveCounter := 0 }

def noMorePartitionedSplits (partitionId : ℕ) (result : AssignmentResult) : AssignmentResult :=
  self.partitionedSources.foldl
    (fun result s => result.appendUpdate partitionId s [] true false) result

def closeAssignment (partitionId : ℕ)
    (result : AssignmentResult) : ArbitrarySplitAssigner × AssignmentResult :=
  let result := self.noMorePartitionedSplits partitionId result
  let result :=
    if self.Completed self.replicatedSources then result.appendSeal partitionId else result
  let self := self.modifyAssignment partitionId fun assignment => { assignment with full := true }
  let self := { self with openAssignments := self.openAssignments.erase requirements }
  (self.growTargetIfNeeded, result)

def newAssignment : ArbitrarySplitAssigner × AssignmentResult :=
  let assignment : PartitionAssignment := { partitionId := self.nextPartitionId }
  ({ self with
      nextPartitionId := self.nextPartitionId + 1
      allAssignments := self.allAssignments ++ [assignment]
      openAssignments := self.openAssignments.insert requirements assignment.partitionId },
    { result with
      partitionsAdded := result.partitionsAdded ++ [⟨assignment.partitionId, some requirements⟩] })

def openAssignment : ArbitrarySplitAssigner × AssignmentResult :=
  let partitionId := self.nextPartitionId
  let (self, result) := self.newAssignment requirements result
  (self, self.replicatedSources.foldl
    (fun result r => result.appendUpdate partitionId r (self.replicatedSplits.findD r [])
      (decide (r ∈ self.completedSources)) true)
    result)

def overfills (assignment : PartitionAssignment) (splitSize : ℤ) : Bool :=
  assignment.assignedDataSizeBytes + splitSize > self.roundedTargetPartitionSizeBytes ∨
    assignment.assignedSplitCount + 1 > self.maxTaskSplitCount

def roomFor (splitSize : ℤ) (result : AssignmentResult) :
    ℕ × ArbitrarySplitAssigner × AssignmentResult :=
  match self.findAssignment requirements with
  | none => (self.nextPartitionId, self.openAssignment requirements result)
  | some assignment =>
    if self.overfills assignment splitSize then
      let (self, result) := self.closeAssignment requirements assignment.partitionId result
      (self.nextPartitionId, self.openAssignment requirements result)
    else
      (assignment.partitionId, self, result)

def placeSplit (sourceNodeId : String) (split : FteSplit) (requirements : NodeRequirements)
    (result : AssignmentResult) : ArbitrarySplitAssigner × AssignmentResult :=
  let splitSize := splitSizeBytes split self.standardSplitSizeBytes
  let (partitionId, self, result) := self.roomFor requirements splitSize result
  (self.modifyAssignment partitionId (·.assignSplit splitSize),
    result.appendSplit partitionId sourceNodeId split)

def finishIfAllSourcesCompleted : ArbitrarySplitAssigner × AssignmentResult :=
  if self.allSources = [] ∨ ¬self.Completed self.allSources then
    (self, {})
  else
    let (self, result) : ArbitrarySplitAssigner × AssignmentResult :=
      if self.allAssignments = [] then
        let result : AssignmentResult :=
          { partitionsAdded := [⟨0, some { catalog := self.catalogRequirement }⟩] }
        let result := self.replicatedSources.foldl
          (fun result r => result.appendUpdate 0 r (self.replicatedSplits.findD r []) true false)
          result
        let result := (self.noMorePartitionedSplits 0 result).appendSeal 0
        ({ self with
            nextPartitionId := max self.nextPartitionId 1
            allAssignments := [{ partitionId := 0 }] }, result)
      else
        let result := self.openAssignments.values.foldl
          (fun result partitionId =>
            (self.noMorePartitionedSplits partitionId result).appendSeal partitionId) {}
        ({ self with openAssignments := ∅ }, result)
    ({ self with replicatedSplits := ∅, finished := true },
      { result with noMorePartitions := true })

/-- The loop of `_assign_partitioned_splits`; only `_node_requirements` raises. -/
def placeSplits (sourceNodeId : String) : List FteSplit → AssignmentResult →
    Py ArbitrarySplitAssigner AssignmentResult
  | [], result => pure result
  | split :: splits, result => do
    let self ← Py.get
    let requirements ← Py.lift (self.nodeRequirements split)
    let (self, result) := self.placeSplit sourceNodeId split requirements result
    Py.set self
    placeSplits sourceNodeId splits result

def finishMerged : Py ArbitrarySplitAssigner AssignmentResult := do
  let self ← Py.get
  let (self, finish) := self.finishIfAllSourcesCompleted
  Py.set self
  return result.merge finish

def complete (sourceNodeId : String) : ArbitrarySplitAssigner :=
  { self with completedSources := insert sourceNodeId self.completedSources }

def assignPartitionedSplits (sourceNodeId : String) (splits : List FteSplit)
    (noMoreInputs : Bool) : Py ArbitrarySplitAssigner AssignmentResult := do
  let result ← placeSplits sourceNodeId splits {}
  if noMoreInputs then
    Py.modify (complete · sourceNodeId)
  finishMerged result

/-- What `_assign_replicated_splits` writes: the splits for later replay and the completion. -/
def recordReplicatedSplits (sourceNodeId : String) (splits : List FteSplit)
    (noMoreInputs : Bool) : ArbitrarySplitAssigner :=
  let completed :=
    if noMoreInputs then insert sourceNodeId self.completedSources else self.completedSources
  { self with
    replicatedSplits := self.replicatedSplits.update sourceNodeId [] (· ++ splits)
    completedSources := completed
    noMoreReplicatedSplits := self.noMoreReplicatedSplits ||
      (noMoreInputs && decide (∀ r ∈ self.replicatedSources, r ∈ completed)) }

/-- `_assign_replicated_splits` up to the merge with `_finish_if_all_sources_completed`. -/
def replicateSplits (sourceNodeId : String) (splits : List FteSplit) (noMoreInputs : Bool) :
    ArbitrarySplitAssigner × AssignmentResult :=
  let result := self.allAssignments.foldl
    (fun result assignment =>
      result.appendUpdate assignment.partitionId sourceNodeId splits noMoreInputs true) {}
  let self := self.recordReplicatedSplits sourceNodeId splits noMoreInputs
  let result :=
    if self.noMoreReplicatedSplits then
      self.allAssignments.foldl
        (fun result assignment =>
          if assignment.full then result.appendSeal assignment.partitionId else result) result
    else
      result
  (self, result)

def assignReplicatedSplits (sourceNodeId : String) (splits : List FteSplit)
    (noMoreInputs : Bool) : Py ArbitrarySplitAssigner AssignmentResult := do
  let self ← Py.get
  let (self, result) := self.replicateSplits sourceNodeId splits noMoreInputs
  Py.set self
  finishMerged result

def assign (sourceNodeId : String) (inputs : List SplitPayload) (noMoreInputs : Bool) :
    Py ArbitrarySplitAssigner AssignmentResult := do
  let self ← Py.get
  if self.finished then
    Py.raise (.runtimeError "cannot assign splits after finish")
  else
    let (splits, nextSequence) ← Py.lift
      (splitsFromInputs sourceNodeId inputs (self.sourceSequences.findD sourceNodeId 0))
    let self := { self with
      sourceSequences := self.sourceSequences.insert sourceNodeId nextSequence
      partitionedSources :=
        if self.allSources = [] then [sourceNodeId] else self.partitionedSources }
    Py.set self
    if sourceNodeId ∈ self.replicatedSources then
      assignReplicatedSplits sourceNodeId splits noMoreInputs
    else
      assignPartitionedSplits sourceNodeId splits noMoreInputs

end ArbitrarySplitAssigner

end Vane
