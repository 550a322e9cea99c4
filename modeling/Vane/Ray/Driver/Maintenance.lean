import Vane.Ray.CoordinatorSafety
import Vane.Ray.Driver.Admission

/-! This module contains how a driver keeps allocations in step with the coordinator. -/

namespace Vane

open QueryResourceManager (Call)

structure QueryDriver extends AdmissionState where
  coordinator : ClusterQueryResourceCoordinator
  nodeCapacities : List NodeCapacity := []
  graphs : Dict String QueryExecutionGraph := ∅
  allocations : Dict String QueryAllocation := ∅
  terminalErrors : Dict String String := ∅
  snapshot : Table QueryState.queryId := ∅
  detached : Dict String QueryResourceManager := ∅

namespace QueryDriver

section Rounds

variable (uuid : String → UuidSource)

def onAdmission {α : Type} (m : Py AdmissionState α) : Py QueryDriver α :=
  m.zoom QueryDriver.toAdmissionState fun s d => { d with toAdmissionState := s }

def onCoordinator {α : Type} (m : Py ClusterQueryResourceCoordinator α) : Py QueryDriver α :=
  m.zoom QueryDriver.coordinator fun coordinator d => { d with coordinator }

def readSnapshot : Py QueryDriver Unit :=
  Py.modify fun d => { d with snapshot := d.coordinator.queries }

def allocationOf (d : QueryDriver) (queryId : String) : Except PyError QueryAllocation :=
  match d.allocations.find? queryId with
  | some allocation => .ok allocation
  | none => .error (.keyError queryId)

def placementLost (current : QueryAllocation) (seen : QueryState) : Bool :=
  seen.state = .actorPlacementLost ∨
    current.actorPlacements ≠ [] ∧ current.actorPlacements ≠ seen.allocation.actorPlacements

def placementLostReason (queryId : String) : String :=
  "query " ++ queryId ++ " lost its fixed Ray actor placement; " ++
    "the running actor-backed execution cannot migrate in place"

def synchronizeQuery (queryId : String) : Py QueryDriver Unit := do
  let d ← Py.get
  match d.graphs.find? queryId, d.snapshot.find? queryId with
  | none, _ => return ⟨⟩
  | some _, none => Py.raise (.runtimeError ("coordinator lost registered query " ++ queryId))
  | some graph, some seen =>
    Py.lift (graph.validateAllocation seen.allocation false)
    let current ← Py.lift (d.allocationOf queryId)
    if current.generation < seen.allocation.generation then
      let lost := placementLost current seen
      let _ ← onAdmission (AdmissionState.callManager uuid queryId
        (.updateAllocation seen.allocation (seen.state = .running ∧ !lost)))
      Py.modify fun d => { d with allocations := d.allocations.insert queryId seen.allocation }
      if lost ∧ ¬d.terminalErrors.contains queryId then
        Py.modify fun d => { d with
          terminalErrors := d.terminalErrors.insert queryId (placementLostReason queryId) }
        let _ ← onAdmission (AdmissionState.callManager uuid queryId
          (.cancel "ray_actor_placement_lost"))
        -- Dropping the fragments of the query starts with its fence.
        onAdmission (AdmissionState.closeQueryResourceAdmission uuid queryId)

def synchronizeQueryAllocations : Py QueryDriver Unit := do
  readSnapshot
  let d ← Py.get
  Py.forEach d.graphs.keys (synchronizeQuery uuid)

def observedUsage (d : QueryDriver) : Except PyError (Dict String ResourceVector) :=
  (d.graphs.keys.sortBy id).foldlM (fun usage queryId => do
    let m ← d.getQueryResourceManager queryId
    return usage.insert queryId (← m.queryUsage)) ∅

def generations (d : QueryDriver) : Except PyError (Dict String ℤ) :=
  (d.graphs.keys.sortBy id).foldlM (fun generations queryId => do
    return generations.insert queryId (← d.allocationOf queryId).generation) ∅

def cacheCapacities (capacities : List NodeCapacity) : Py QueryDriver Unit := do
  onCoordinator (ClusterQueryResourceCoordinator.updateNodeCapacities capacities)
  Py.modify fun d => { d with nodeCapacities := capacities }

def maintainQueryResourcesOnce (reported : Option (List NodeCapacity)) (now : ℚ) :
    Py QueryDriver Unit := do
  let d ← Py.get
  let capacities := reported.getD d.nodeCapacities
  Py.lift (Except.raiseIf (capacities = [])
    (.runtimeError (if reported.isNone then
        "failed to refresh Ray capacity and no cached snapshot exists"
      else "Ray reports no alive nodes with schedulable query resources")))
  cacheCapacities capacities
  synchronizeQueryAllocations uuid
  let usage ← Py.read observedUsage
  let generations ← Py.read generations
  let _ ← onCoordinator (ClusterQueryResourceCoordinator.refreshQueries usage generations now)
  let expired ← onCoordinator (ClusterQueryResourceCoordinator.expireQueries now)
  Py.lift (Except.raiseIf (expired ≠ [])
    (.runtimeError ("active query resource heartbeats expired unexpectedly: " ++
      ", ".intercalate expired)))
  synchronizeQueryAllocations uuid

def releaseQueryResourceManager (queryId reason : String) : Py QueryDriver Unit := do
  let d ← Py.get
  let key := Text.strip queryId
  match d.managers.find? key with
  | none => return ⟨⟩
  | some m =>
    Py.set { d with
      managers := d.managers.erase key
      detached := d.detached.insert key ((Call.cancel reason).exec (uuid key) m).2 }

def forgetQuery (queryId : String) : Py QueryDriver Unit :=
  Py.modify fun d => { d with
    graphs := d.graphs.erase queryId
    allocations := d.allocations.erase queryId }

end Rounds

end QueryDriver

end Vane
