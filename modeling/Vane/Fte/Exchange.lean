import Vane.Fte.Types
import Vane.Lib.Dict
import Vane.Lib.Order

/-!
This module contains the coordinator side of an exchange: its selector and the tracker that owns it.
-/

namespace Vane

structure ExchangeSinkHandle where
  queryId : String
  exchangeId : String
  partitionId : ℤ
  deriving DecidableEq, Repr

/-- The text of the generated `__repr__`, for identifiers that need no escapes. -/
def ExchangeSinkHandle.text (handle : ExchangeSinkHandle) : String :=
  "ExchangeSinkHandle(query_id='" ++ handle.queryId ++ "', exchange_id='" ++ handle.exchangeId
    ++ "', partition_id=" ++ toString handle.partitionId ++ ")"

structure ExchangeSinkInstanceHandle where
  sinkHandle : ExchangeSinkHandle
  attemptId : ℤ
  attemptPath : Option String := none
  deriving DecidableEq

structure ExchangeSourceHandle where
  sinkHandle : ExchangeSinkHandle
  attemptId : ℤ
  attemptPath : Option String := none
  files : List String := []
  deriving DecidableEq

/-- Attempts recorded per partition; `addAttempt` is `d.setdefault(partition, set()).add(attempt)`. -/
abbrev AttemptSets : Type := Dict ℤ (Finset ℤ)

namespace AttemptSets

variable (d : AttemptSets)

def addAttempt (partition attempt : ℤ) : AttemptSets := Dict.update d partition ∅ (insert attempt)

def setDefault (partition : ℤ) : AttemptSets := Dict.update d partition ∅ id

def Has (partition attempt : ℤ) : Prop := attempt ∈ Dict.findD d partition ∅

instance (partition attempt : ℤ) : Decidable (d.Has partition attempt) :=
  inferInstanceAs (Decidable (attempt ∈ Dict.findD d partition ∅))

@[simp]
theorem has_addAttempt {d : AttemptSets} {p a q b : ℤ} :
    (d.addAttempt p a).Has q b ↔ (q = p ∧ b = a) ∨ d.Has q b := by
  unfold Has addAttempt Dict.update Dict.findD
  rw [Dict.find?_insert]
  by_cases hq : q = p
  . subst hq
    simp
  . simp [hq]

@[simp]
theorem has_setDefault {d : AttemptSets} {p q b : ℤ} : (d.setDefault p).Has q b ↔ d.Has q b := by
  unfold Has setDefault Dict.update Dict.findD
  rw [Dict.find?_insert]
  by_cases hq : q = p
  . subst hq
    simp
  . simp [hq]

end AttemptSets

structure FteExchangeSourceOutputSelector where
  selectedAttempts : Dict ℤ ℤ := ∅
  finishedAttempts : AttemptSets := Dict.empty
  abortedAttempts : AttemptSets := Dict.empty
  final : Bool := false
  finalRequiredPartitionIds : Option (Finset ℤ) := none

namespace FteExchangeSourceOutputSelector

def recordFinished (partitionId attemptId : ℤ) : Py FteExchangeSourceOutputSelector Bool := do
  let partitionId ← Py.lift (checkNonNegative "partition_id" partitionId)
  let attemptId ← Py.lift (checkNonNegative "attempt_id" attemptId)
  let self ← Py.get
  if self.final then
    if self.finalRequiredPartitionIds.all (partitionId ∉ ·) then
      Py.raise (.runtimeError "cannot record a finished attempt after selector is final")
    else
      Py.set { self with
        finishedAttempts := self.finishedAttempts.addAttempt partitionId attemptId }
      return false
  else
    Py.set { self with finishedAttempts := self.finishedAttempts.addAttempt partitionId attemptId }
    if self.selectedAttempts.contains partitionId then
      return false
    else
      Py.modify fun self => { self with
        selectedAttempts := self.selectedAttempts.insert partitionId attemptId }
      return true

def recordAborted (partitionId attemptId : ℤ) : Py FteExchangeSourceOutputSelector PUnit := do
  let self ← Py.get
  if self.final then
    return ⟨⟩
  else
    let partitionId ← Py.lift (checkNonNegative "partition_id" partitionId)
    let attemptId ← Py.lift (checkNonNegative "attempt_id" attemptId)
    Py.set { self with abortedAttempts := self.abortedAttempts.addAttempt partitionId attemptId }

def isFinal (self : FteExchangeSourceOutputSelector) : Bool := self.final

def tryMarkFinal (requiredPartitionIds : List ℤ) : Py FteExchangeSourceOutputSelector Bool := do
  let ids ← Py.lift (requiredPartitionIds.mapM (checkNonNegative "partition_id"))
  let required := ids.toFinset
  let self ← Py.get
  if required = ∅ then
    if self.selectedAttempts.keys ≠ [] then
      Py.raise (.runtimeError "cannot mark selector final with unrequired selected partitions")
    else
      return false
  else if self.final then
    if self.finalRequiredPartitionIds ≠ some required then
      Py.raise (.runtimeError "cannot mark selector final with different required partitions")
    else
      return false
  else if ∃ p ∈ self.selectedAttempts.keys, p ∉ required then
    Py.raise (.runtimeError "cannot mark selector final with unrequired selected partitions")
  else if ∃ p ∈ required, p ∉ self.selectedAttempts.keys then
    return false
  else
    Py.set { self with final := true, finalRequiredPartitionIds := some required }
    return true

end FteExchangeSourceOutputSelector

structure FteExchangeTracker where
  queryId : String
  exchangeId : String
  sinks : Dict ℤ ExchangeSinkHandle := ∅
  finishedAttempts : AttemptSets := Dict.empty
  abortedAttempts : AttemptSets := Dict.empty
  selectedAttempts : Dict ℤ ℤ := ∅
  outputSelector : FteExchangeSourceOutputSelector := {}

namespace FteExchangeTracker

variable (self : FteExchangeTracker) (sinkHandle : ExchangeSinkHandle)

def onSelector (m : Py FteExchangeSourceOutputSelector α) : Py FteExchangeTracker α :=
  Py.zoom outputSelector (fun selector self => { self with outputSelector := selector }) m

def requireSink : Except PyError PUnit :=
  if self.sinks.find? sinkHandle.partitionId ≠ some sinkHandle then
    .error (.keyError ("unknown exchange sink: " ++ sinkHandle.text))
  else
    .ok ⟨⟩

def addSink (partitionId : ℤ) : Py FteExchangeTracker ExchangeSinkHandle := do
  let partitionId ← Py.lift (checkNonNegative "partition_id" partitionId)
  let self ← Py.get
  match self.sinks.find? partitionId with
  | some handle => return handle
  | none =>
    if self.outputSelector.isFinal then
      Py.raise (.runtimeError "cannot add exchange sink after selector is final")
    else
      let handle := ⟨self.queryId, self.exchangeId, partitionId⟩
      Py.set { self with sinks := self.sinks.insert partitionId handle }
      return handle

def instantiateSink (attemptId : ℤ) : Except PyError ExchangeSinkInstanceHandle := do
  self.requireSink sinkHandle
  let attemptId ← checkNonNegative "attempt_id" attemptId
  return { sinkHandle, attemptId }

def sinkFinished (attemptId : ℤ) : Py FteExchangeTracker PUnit := do
  Py.read (requireSink · sinkHandle)
  let attemptId ← Py.lift (checkNonNegative "attempt_id" attemptId)
  let partitionId := sinkHandle.partitionId
  let selected ← onSelector (FteExchangeSourceOutputSelector.recordFinished partitionId attemptId)
  Py.modify fun self => { self with
    finishedAttempts := self.finishedAttempts.addAttempt partitionId attemptId }
  if selected then
    Py.modify fun self => { self with
      selectedAttempts := self.selectedAttempts.insert partitionId attemptId }
  else
    return ⟨⟩

def sinkAborted (attemptId : ℤ) : Py FteExchangeTracker PUnit := do
  Py.read (requireSink · sinkHandle)
  -- `setdefault` runs before its argument is checked
  Py.modify fun self => { self with
    abortedAttempts := self.abortedAttempts.setDefault sinkHandle.partitionId }
  let checked ← Py.lift (checkNonNegative "attempt_id" attemptId)
  Py.modify fun self => { self with
    abortedAttempts := self.abortedAttempts.addAttempt sinkHandle.partitionId checked }
  onSelector (FteExchangeSourceOutputSelector.recordAborted sinkHandle.partitionId attemptId)

def finalize : Py FteExchangeTracker Bool := do
  let self ← Py.get
  onSelector (FteExchangeSourceOutputSelector.tryMarkFinal self.sinks.keys)

def isFinal : Bool := self.outputSelector.isFinal

def getSourceHandles : Except PyError (List ExchangeSourceHandle) :=
  (self.selectedAttempts.entries.sortBy toLex).mapM fun (partitionId, attemptId) =>
    match self.sinks.find? partitionId with
    | none => .error (.keyError (toString partitionId))
    | some sinkHandle => .ok { sinkHandle, attemptId }

end FteExchangeTracker

end Vane
