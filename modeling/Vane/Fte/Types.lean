import Vane.Lib.Py
import Vane.Lib.Text

/-!
This module contains the identifiers and the splits that the fault tolerant scheduler passes around.
-/

namespace Vane

def checkNonNegative (name : String) (value : ℤ) : Except PyError ℤ :=
  if value < 0 then .error (.valueError s!"{name} must be non-negative") else .ok value

theorem checkNonNegative_eq_ok {name : String} {value v : ℤ}
    (h : checkNonNegative name value = .ok v) : v = value ∧ 0 ≤ value := by
  unfold checkNonNegative at h
  split at h
  . cases h
  . next hneg =>
    cases h
    exact ⟨rfl, not_lt.mp hneg⟩

theorem checkNonNegative_natCast (name : String) (n : ℕ) : checkNonNegative name n = .ok n := by
  unfold checkNonNegative
  rw [if_neg (by simp)]

structure FteSplit where
  sourceNodeId : String
  sequenceId : ℕ
  kind : String
  data : Option String
  sourcePartitionId : ℕ
  sizeBytes : Option ℕ
  addresses : List String
  remotelyAccessible : Bool
  catalog : Option String
  sourceNodeId_nonempty : sourceNodeId ≠ ""
  kind_nonempty : kind ≠ ""
  deriving DecidableEq

/-- The mapping from which `FteSplit.from_dict` reads; `none` is an absent key. -/
structure SplitPayload where
  sourceNodeId : Option String := none
  sequenceId : Option ℤ := none
  kind : Option String := none
  data : Option String := none
  sourcePartitionId : Option ℤ := none
  sizeBytes : Option ℤ := none
  addresses : List String := []
  remotelyAccessible : Option Bool := none
  catalog : Option String := none
  deriving DecidableEq

namespace FteSplit

def make (sourceNodeId : String) (sequenceId : ℤ) (kind : String) (data : Option String)
    (sourcePartitionId : ℤ) (sizeBytes : Option ℤ) (addresses : List String)
    (remotelyAccessible : Bool) (catalog : Option String) : Except PyError FteSplit :=
  if hsource : Text.strip sourceNodeId = "" then
    .error (.valueError "source_node_id must be non-empty")
  else if hkind : Text.strip kind = "" then
    .error (.valueError "split kind must be non-empty")
  else do
    let sequenceId ← checkNonNegative "sequence_id" sequenceId
    let sourcePartitionId ← checkNonNegative "source_partition_id" sourcePartitionId
    let sizeBytes ← sizeBytes.mapM (checkNonNegative "size_bytes")
    return {
      sourceNodeId := Text.strip sourceNodeId
      sequenceId := sequenceId.toNat
      kind := Text.strip kind
      data
      sourcePartitionId := sourcePartitionId.toNat
      sizeBytes := sizeBytes.map Int.toNat
      addresses
      remotelyAccessible
      catalog
      sourceNodeId_nonempty := hsource
      kind_nonempty := hkind }

def fromDict (sourceNodeId : String) (payload : SplitPayload) : Except PyError FteSplit := do
  let some sequenceId := payload.sequenceId | .error (.keyError "sequence_id")
  let some kind := payload.kind | .error (.keyError "kind")
  make (payload.sourceNodeId.getD sourceNodeId) sequenceId kind payload.data
    (payload.sourcePartitionId.getD 0) payload.sizeBytes payload.addresses
    (payload.remotelyAccessible.getD true) payload.catalog

end FteSplit

end Vane
