import Vane.Fte.Types

/-!
This module contains the assignment results of split assigners and the splits they make of inputs.
-/

namespace Vane

structure NodeRequirements where
  catalog : Option String := none
  host : Option String := none
  remotelyAccessible : Bool := true
  deriving DecidableEq

structure PartitionInfo where
  partitionId : ℕ
  nodeRequirements : Option NodeRequirements := none
  deriving DecidableEq

structure PartitionUpdate where
  partitionId : ℕ
  sourceNodeId : String
  splits : List FteSplit := []
  noMoreSplits : Bool := false
  readyForScheduling : Bool := false
  ready_splits : readyForScheduling = true → splits ≠ [] := by simp
  deriving DecidableEq

structure AssignmentResult where
  partitionsAdded : List PartitionInfo := []
  partitionUpdates : List PartitionUpdate := []
  sealedPartitions : List ℕ := []
  noMorePartitions : Bool := false
  deriving DecidableEq

namespace AssignmentResult

variable (result : AssignmentResult)

def appendUpdate (partitionId : ℕ) (sourceNodeId : String)
    (splits : List FteSplit) (noMoreSplits emitEmpty : Bool) : AssignmentResult :=
  if emitEmpty = false ∧ splits = [] ∧ noMoreSplits = false then
    result
  else
    { result with
      partitionUpdates := result.partitionUpdates ++
        [{ partitionId, sourceNodeId, splits, noMoreSplits }] }

def appendSplit (partitionId : ℕ) (sourceNodeId : String) (split : FteSplit) : AssignmentResult :=
  { result with
    partitionUpdates := result.partitionUpdates ++
      [{ partitionId, sourceNodeId, splits := [split], readyForScheduling := true }] }

def appendSeal (partitionId : ℕ) : AssignmentResult :=
  if partitionId ∈ result.sealedPartitions then
    result
  else
    { result with sealedPartitions := result.sealedPartitions ++ [partitionId] }

def mergeSeals (seals more : List ℕ) : List ℕ :=
  more.foldl (fun seals p => if p ∈ seals then seals else seals ++ [p]) seals

def merge (left right : AssignmentResult) : AssignmentResult where
  partitionsAdded := left.partitionsAdded ++ right.partitionsAdded
  partitionUpdates := left.partitionUpdates ++ right.partitionUpdates
  sealedPartitions := mergeSeals left.sealedPartitions right.sealedPartitions
  noMorePartitions := left.noMorePartitions || right.noMorePartitions

end AssignmentResult

/-- `_splits_from_inputs`: inputs without a sequence id are numbered on. -/
def splitsFromInputs (sourceNodeId : String) : List SplitPayload → ℕ →
    Except PyError (List FteSplit × ℕ)
  | [], nextSequence => .ok ([], nextSequence)
  | item :: inputs, nextSequence => do
    let payload := { item with sequenceId := some (item.sequenceId.getD nextSequence) }
    let split ← FteSplit.fromDict sourceNodeId payload
    let (splits, next) ← splitsFromInputs sourceNodeId inputs
      (max nextSequence (split.sequenceId + 1))
    return (split :: splits, next)

def splitSizeBytes (split : FteSplit) (standardSplitSizeBytes : ℤ) : ℤ :=
  match split.sizeBytes with
  | some size => size
  | none => standardSplitSizeBytes

structure AssignCall where
  sourceNodeId : String
  inputs : List SplitPayload
  noMoreInputs : Bool := false

def AssignCall.mergedResult (assign : AssignCall → Py σ AssignmentResult) :
    List AssignCall → σ → AssignmentResult → AssignmentResult
  | [], _, merged => merged
  | call :: calls, self, merged =>
    match assign call self with
    | (.ok result, self) => mergedResult assign calls self (merged.merge result)
    | (.error _, self) => mergedResult assign calls self merged

def AssignCall.inputsOf (s : String) (calls : List AssignCall) : List SplitPayload :=
  (calls.filter fun call => call.sourceNodeId = s).flatMap inputs

end Vane
