import Vane.Ray.QueryResourceManager.Errors
import Vane.Ray.QueryResourceManager.Invariant

/-! This module contains the calls that a manager takes and the effects that they can have. -/

namespace Vane

namespace StageState

def inputCounters (s : StageState) : ℕ × ℕ := (s.pendingTaskCount, s.queuedInputBytes)

def outputCounters (s : StageState) : ℕ × ℤ := (s.pendingOutputCount, s.queuedOutputBytes)

end StageState

namespace QueryResourceManager

variable {result : Except PyError Answer}

inductive Call where
  | updateStageState (stageId : String) (runnable : Bool) (actorReady : Option Bool)
      (completed : Bool)
  | noteTaskWaiting (request : TaskRequest)
  | removeTaskWaiter (taskId attemptId : String)
  | markTaskAttemptTerminal (taskId attemptId : String)
  | noteOutputWaiting (request : OutputBlockRequest)
  | removeOutputWaiter (blockId : String)
  | markOutputBlockTerminal (blockId : String)
  | setExternalConsumerWaiting (waiting : Bool)
  | setStageActorReady (stageId : String) (ready : Bool)
  | updateAllocation (allocation : QueryAllocation) (admissionOpen : Bool)
  | closeAdmission
  | tryAcquireTask (request : TaskRequest)
  | tryAcquireTaskDescriptor (request : TaskRequest)
  | tryAcquireQueuedTask (request : TaskRequest)
  | tryAcquireNextQueuedTask (candidateKeys : List (String × String))
  | releaseTaskLease (leaseId attemptId : String)
  | abandonTaskLease (leaseId attemptId : String)
  | finishTaskWithOutputs (taskLeaseId attemptId : String) (outputs : List OutputBlockRequest)
  | tryAcquireOutputBlock (request : OutputBlockRequest)
  | tryAcquireNextQueuedOutputBlock (candidateBlockIds : List String)
  | transitionOutputBlock (leaseId state : String)
  | releaseOutputBlock (leaseId : String)
  | cancel (reason : String)
  deriving DecidableEq

inductive Answer where
  | done
  | flag (value : Bool)
  | task (grant : TaskGrant)
  | nextTask (request : Option TaskRequest) (grant : Option TaskGrant)
  | finished (leases : List OutputBlockLease)
  | output (grant : OutputBlockGrant)
  | nextOutput (request : Option OutputBlockRequest) (grant : Option OutputBlockGrant)
  | dropped (tasks outputs : ℕ)
  deriving DecidableEq

def grantedLease? : Except PyError Answer → Option TaskLease
  | .ok (.task grant) => grant.lease
  | .ok (.nextTask _ grant) => grant.bind (·.lease)
  | _ => none

def grantedOutput? : Except PyError Answer → Option OutputBlockLease
  | .ok (.output grant) => grant.lease
  | .ok (.nextOutput _ grant) => grant.bind (·.lease)
  | _ => none

def leasedOutputs : Except PyError Answer → List OutputBlockLease
  | .ok (.finished leases) => leases
  | result => (grantedOutput? result).toList

theorem leasedOutputs_of_granted {o : OutputBlockLease}
    (h : grantedOutput? result = some o) : leasedOutputs result = [o] := by
  unfold leasedOutputs
  split
  . cases h
  . rw [h]
    rfl

theorem leasedOutputs_of_grantedLease {lease : TaskLease}
    (h : grantedLease? result = some lease) : leasedOutputs result = [] := by
  unfold grantedLease? at h
  split at h
  . rfl
  . rfl
  . cases h

section Exec

variable (uuid : UuidSource)

def Call.exec : Call → Py QueryResourceManager Answer
  | updateStageState stageId runnable actorReady completed => do
    QueryResourceManager.updateStageState stageId runnable actorReady completed
    return .done
  | noteTaskWaiting request => do
    QueryResourceManager.noteTaskWaiting request
    return .done
  | removeTaskWaiter taskId attemptId => do
    let removed ← QueryResourceManager.removeTaskWaiter taskId attemptId
    return .flag removed
  | markTaskAttemptTerminal taskId attemptId => do
    QueryResourceManager.markTaskAttemptTerminal taskId attemptId
    return .done
  | noteOutputWaiting request => do
    QueryResourceManager.noteOutputWaiting request
    return .done
  | removeOutputWaiter blockId => do
    let removed ← QueryResourceManager.removeOutputWaiter blockId
    return .flag removed
  | markOutputBlockTerminal blockId => do
    QueryResourceManager.markOutputBlockTerminal blockId
    return .done
  | setExternalConsumerWaiting waiting => do
    QueryResourceManager.setExternalConsumerWaiting waiting
    return .done
  | setStageActorReady stageId ready => do
    QueryResourceManager.setStageActorReady stageId ready
    return .done
  | updateAllocation allocation admissionOpen => do
    QueryResourceManager.updateAllocation allocation admissionOpen
    return .done
  | closeAdmission => do
    QueryResourceManager.closeAdmission
    return .done
  | tryAcquireTask request => do
    let grant ← QueryResourceManager.tryAcquireTask uuid request
    return .task grant
  | tryAcquireTaskDescriptor request => do
    let grant ← QueryResourceManager.tryAcquireTaskDescriptor uuid request
    return .task grant
  | tryAcquireQueuedTask request => do
    let grant ← QueryResourceManager.tryAcquireQueuedTask uuid request
    return .task grant
  | tryAcquireNextQueuedTask candidateKeys => do
    let (request, grant) ← QueryResourceManager.tryAcquireNextQueuedTask uuid candidateKeys
    return .nextTask request grant
  | releaseTaskLease leaseId attemptId => do
    let released ← QueryResourceManager.releaseTaskLease leaseId attemptId
    return .flag released
  | abandonTaskLease leaseId attemptId => do
    let released ← QueryResourceManager.abandonTaskLease leaseId attemptId
    return .flag released
  | finishTaskWithOutputs taskLeaseId attemptId outputs => do
    let leases ← QueryResourceManager.finishTaskWithOutputs uuid taskLeaseId attemptId outputs
    return .finished leases
  | tryAcquireOutputBlock request => do
    let grant ← QueryResourceManager.tryAcquireOutputBlock uuid request
    return .output grant
  | tryAcquireNextQueuedOutputBlock candidateBlockIds => do
    let (request, grant) ←
      QueryResourceManager.tryAcquireNextQueuedOutputBlock uuid candidateBlockIds
    return .nextOutput request grant
  | transitionOutputBlock leaseId state => do
    let moved ← QueryResourceManager.transitionOutputBlock leaseId state
    return .flag moved
  | releaseOutputBlock leaseId => do
    let released ← QueryResourceManager.releaseOutputBlock leaseId
    return .flag released
  | cancel reason => do
    let (tasks, outputs) ← QueryResourceManager.cancel reason
    return .dropped tasks outputs

def Call.step (call : Call) (m : QueryResourceManager) : QueryResourceManager :=
  (call.exec uuid m).2

def runCalls (calls : List Call) (m : QueryResourceManager) : QueryResourceManager :=
  Run.run (Call.step uuid) calls m

end Exec

def Call.terminalAttempts (m : QueryResourceManager) (result : Except PyError Answer) :
    Call → List (String × String)
  | markTaskAttemptTerminal taskId attemptId =>
    if result = .ok .done then [(taskId, attemptId)] else []
  | releaseTaskLease leaseId attemptId =>
    ((m.taskLeases.find? leaseId).toList.filter (·.attemptId = attemptId)).map fun lease =>
      (lease.taskId, lease.attemptId)
  | finishTaskWithOutputs taskLeaseId _ _ =>
    match result with
    | .ok _ => (m.taskLeases.find? taskLeaseId).toList.map fun lease =>
        (lease.taskId, lease.attemptId)
    | .error _ => []
  | cancel _ =>
    if m.cancelled then
      []
    else
      m.taskLeases.values.map fun lease => (lease.taskId, lease.attemptId)
  | _ => []

def Call.terminalBlocks (m : QueryResourceManager) (result : Except PyError Answer) :
    Call → List String
  | markOutputBlockTerminal blockId => if result = .ok .done then [blockId] else []
  | releaseOutputBlock leaseId => (m.outputLeases.find? leaseId).toList.map (·.blockId)
  | _ => []

/-! The effects of a call. -/

def inputCounters (m : QueryResourceManager) (stageId : String) : ℕ × ℕ :=
  ((m.recomputeStageQueuedInput stageId).stages stageId).inputCounters

def outputCounters (m : QueryResourceManager) (stageId : String) : ℕ × ℤ :=
  ((m.recomputeStageQueuedOutput stageId).stages stageId).outputCounters

def restage (m : QueryResourceManager) (stageId : String) (stage : StageState) :
    QueryResourceManager :=
  { m with
    stages := Function.update m.stages stageId stage
    admissionEpoch := m.admissionEpoch + 1 }

structure CountersKept (m : QueryResourceManager) (stageId : String) (stage : StageState) : Prop where
  input : stage.inputCounters = (m.stages stageId).inputCounters ∨
    stage.inputCounters = m.inputCounters stageId
  output : stage.outputCounters = (m.stages stageId).outputCounters ∨
    stage.outputCounters = m.outputCounters stageId

structure OutputAdmitted (m : QueryResourceManager) (request : OutputBlockRequest)
    (task : TaskLease) : Prop where
  notCancelled : m.cancelled = false
  stage : task.stageId = request.producerStageId
  live : m.taskLeases.find? request.taskLeaseId = some task
  notTerminal : Text.strip request.blockId ∉ m.terminalOutputBlocks
  notLeased : m.outputLeaseByBlock.contains (Text.strip request.blockId) = false
  room : m.outputDelta task request.sizeBytes.toNat = 0 ∨
    m.QueryRoom (.ofObjectStore (m.outputDelta task request.sizeBytes.toNat)) ∧
      m.NodeRoom task.nodeId (.ofObjectStore (m.outputDelta task request.sizeBytes.toNat))

structure Quiet (result : Except PyError Answer) : Prop where
  task : grantedLease? result = none
  output : leasedOutputs result = []
  error : ∀ e, result = .error e → isIndexError e = false

theorem Quiet.grantedOutput? (h : Quiet result) : grantedOutput? result = none := by
  rw [Option.eq_none_iff_forall_ne_some]
  intro o ho
  have hnone := h.output
  rw [leasedOutputs_of_granted ho] at hnone
  cases hnone

def finishedLeases (uuid : UuidSource) (allocationGeneration : ℕ) (task : TaskLease) :
    ℕ → List OutputBlockRequest → List OutputBlockLease
  | _, [] => []
  | drawn, request :: rest =>
    { leaseId := uuid.hex drawn
      queryId := task.queryId
      producerStageId := task.stageId
      taskLeaseId := task.leaseId
      attemptId := task.attemptId
      blockId := request.blockId
      nodeId := task.nodeId
      sizeBytes := request.sizeBytes.toNat
      state := .stageQueue
      liveness := false
      allocationGeneration
      continuationCreditId := none } ::
        finishedLeases uuid allocationGeneration task (drawn + 1) rest

def newOutput (uuid : UuidSource) (m : QueryResourceManager) (request : OutputBlockRequest)
    (task : TaskLease) (liveness : Bool) (state : OutputState) : OutputBlockLease :=
  m.outputLeaseFor request task liveness state (uuid.hex m.uuidsDrawn)

def grantedOutput (uuid : UuidSource) (m : QueryResourceManager) (request : OutputBlockRequest)
    (task : TaskLease) (liveness : Bool) (state : OutputState) : QueryResourceManager :=
  let lease := m.newOutput uuid request task liveness state
  ((QueryResourceManager.fileOutputLease { m with uuidsDrawn := m.uuidsDrawn + 1 }
    lease).noteOutputGranted lease).publishChange

theorem grantedOutput_eq (uuid : UuidSource) (m : QueryResourceManager)
    (request : OutputBlockRequest) (task : TaskLease) (liveness : Bool) (state : OutputState) :
    ∃ live total, m.grantedOutput uuid request task liveness state =
      ({ m with
        toLedger := m.toLedger.addOutput (m.newOutput uuid request task liveness state)
        uuidsDrawn := m.uuidsDrawn + 1
        outputLeaseByBlock := m.outputLeaseByBlock.insert request.blockId (uuid.hex m.uuidsDrawn)
        waitingOutputBlocks := m.waitingOutputBlocks.erase request.blockId
        activeLivenessOutputLeaseId := live
        outputLivenessGrantsTotal := total
        admissionEpoch := m.admissionEpoch + 1 } :
          QueryResourceManager).recomputeStageQueuedOutput request.producerStageId := by
  unfold grantedOutput noteOutputGranted
  dsimp only
  split
  . exact ⟨_, _, rfl⟩
  . exact ⟨_, _, rfl⟩

inductive Effect (uuid : UuidSource) (call : Call) :
    QueryResourceManager → Except PyError Answer → QueryResourceManager → Prop where
  | idle {m result} (drawn : ℕ) (hdrawn : m.uuidsDrawn ≤ drawn) (quiet : Quiet result) :
      Effect uuid call m result { m with uuidsDrawn := drawn }
  | restage {m result m'} (stageId : String) (stage : StageState) (spec : StageResourceSpec)
      (known : m.graph.stage? stageId = some spec) (kept : m.CountersKept stageId stage)
      (rest : Effect uuid call (m.restage stageId stage) result m') : Effect uuid call m result m'
  | taskWaits {m} (request : TaskRequest) (queued : ℕ) (spec : StageResourceSpec)
      (known : m.graph.stage? request.stageId = some spec)
      (new : m.waitingTaskInputs.find? request.attempt = none) :
      Effect uuid call m (.ok .done)
        ((({ m with
          waitingTaskInputs := m.waitingTaskInputs.insert request.attempt (request, queued) } :
            QueryResourceManager).updateStage request.stageId fun stage =>
              { stage with runnable := !stage.completed }).recomputeStageQueuedInput
          request.stageId).publishChange
  | taskGivesUp {m} (key : String × String) (waiter : TaskRequest × ℕ)
      (found : m.waitingTaskInputs.find? key = some waiter) :
      Effect uuid call m (.ok (.flag true))
        (({ m with waitingTaskInputs := m.waitingTaskInputs.erase key } :
          QueryResourceManager).recomputeStageQueuedInput waiter.1.stageId).publishChange
  | attemptTerminal {m} (key : String × String)
      (notActive : m.activeAttemptLeases.contains key = false)
      (notWaiting : m.waitingTaskInputs.contains key = false) :
      Effect uuid call m (.ok .done)
        { m with
          terminalAttempts := m.terminalAttempts.add key
          admissionEpoch := m.admissionEpoch + 1 }
  | outputWaits {m} (request : OutputBlockRequest) (spec : StageResourceSpec)
      (known : m.graph.stage? request.producerStageId = some spec)
      (same : ∀ existing, m.waitingOutputBlocks.find? (Text.strip request.blockId) = some existing →
        existing = request) :
      Effect uuid call m (.ok .done)
        (({ m with waitingOutputBlocks :=
            m.waitingOutputBlocks.insert (Text.strip request.blockId) request } :
          QueryResourceManager).recomputeStageQueuedOutput request.producerStageId).publishChange
  | outputGivesUp {m} (blockId : String) (request : OutputBlockRequest)
      (found : m.waitingOutputBlocks.find? blockId = some request) :
      Effect uuid call m (.ok (.flag true))
        (({ m with waitingOutputBlocks := m.waitingOutputBlocks.erase blockId } :
          QueryResourceManager).recomputeStageQueuedOutput request.producerStageId).publishChange
  | blockTerminal {m} (blockId : String)
      (notLeased : m.outputLeaseByBlock.contains blockId = false)
      (notWaiting : m.waitingOutputBlocks.contains blockId = false) :
      Effect uuid call m (.ok .done)
        { m with
          terminalOutputBlocks := m.terminalOutputBlocks.add blockId
          admissionEpoch := m.admissionEpoch + 1 }
  | external {m} (waiting : Bool) :
      Effect uuid call m (.ok .done)
        { m with
          externalConsumerWaiting := waiting
          admissionEpoch := m.admissionEpoch + 1 }
  | allocation {m} (allocation : QueryAllocation) (admissionOpen : Bool)
      (asked : call = .updateAllocation allocation admissionOpen)
      (newer : m.allocation.generation < allocation.generation)
      (valid : m.graph.validateAllocation allocation false = .ok ()) :
      Effect uuid call m (.ok .done)
        { m with
          allocation
          allocationAdmissionOpen := admissionOpen
          admissionEpoch := m.admissionEpoch + 1 }
  | close {m} :
      Effect uuid call m (.ok .done)
        { m with
          allocationAdmissionOpen := false
          admissionEpoch := m.admissionEpoch + 1 }
  | taskGranted {m result} (request : TaskRequest) (spec : StageResourceSpec)
      (plan : TaskAdmissionPlan) (liveness : Bool)
      (admitted : m.Admitted request spec plan)
      (task : grantedLease? result = some (m.newLease uuid request spec plan liveness))
      (output : grantedOutput? result = none)
      (single : liveness = true → m.activeLivenessTaskLeaseId = none) :
      Effect uuid call m result (m.grantedTask uuid request spec plan liveness)
  | taskReleased {m} (lease : TaskLease) (terminal : Bool) (ledger : Ledger)
      (active : Dict (String × ℕ) String) (queued : Dict (String × ℕ) (List String))
      (live : m.taskLeases.find? lease.leaseId = some lease)
      (credits : CreditsOnly (m.toLedger.removeTask lease.leaseId) ledger) :
      Effect uuid call m (.ok (.flag true))
        { m with
          toLedger := ledger
          activeActorSlots := active
          queuedActorSlotLeases := queued
          activeAttemptLeases := m.activeAttemptLeases.erase (lease.taskId, lease.attemptId)
          terminalAttempts :=
            if terminal then m.terminalAttempts.add (lease.taskId, lease.attemptId)
            else m.terminalAttempts
          activeLivenessTaskLeaseId :=
            if m.activeLivenessTaskLeaseId = some lease.leaseId then none
            else m.activeLivenessTaskLeaseId
          admissionEpoch := m.admissionEpoch + 1 }
  | taskFinished {m m'} (task : TaskLease) (outputs : List OutputBlockRequest)
      (seen : List String) (targetBytes : ℤ)
      (leases : List OutputBlockLease)
      (filed : leases = finishedLeases uuid m.allocation.generation task m.uuidsDrawn outputs)
      (live : m.taskLeases.find? task.leaseId = some task)
      (checked : outputs.foldlM (m.checkFinishedOutput task targetBytes) [] = .ok seen)
      (ledger : Ledger) (active : Dict (String × ℕ) String)
      (queued : Dict (String × ℕ) (List String))
      (credits : CreditsOnly ((leases.foldl Ledger.addOutput m.toLedger).removeTask task.leaseId)
        ledger)
      (final : m' = ({ m with
        toLedger := ledger
        uuidsDrawn := m.uuidsDrawn + outputs.length
        outputLeaseByBlock := leases.foldl
          (fun index lease => index.insert lease.blockId lease.leaseId) m.outputLeaseByBlock
        activeActorSlots := active
        queuedActorSlotLeases := queued
        activeAttemptLeases := m.activeAttemptLeases.erase (task.taskId, task.attemptId)
        terminalAttempts := m.terminalAttempts.add (task.taskId, task.attemptId)
        activeLivenessTaskLeaseId :=
          if m.activeLivenessTaskLeaseId = some task.leaseId then none
          else m.activeLivenessTaskLeaseId
        admissionEpoch := m.admissionEpoch + 1 } :
          QueryResourceManager).recomputeStageQueuedOutput task.stageId) :
      Effect uuid call m (.ok (.finished leases)) m'
  | outputGranted {m result} (request : OutputBlockRequest) (task : TaskLease) (liveness : Bool)
      (state : OutputState) (admitted : m.OutputAdmitted request task)
      (task? : grantedLease? result = none)
      (output : grantedOutput? result =
        some (m.newOutput uuid request task liveness state))
      (single : liveness = true → m.activeLivenessOutputLeaseId = none) :
      Effect uuid call m result (m.grantedOutput uuid request task liveness state)
  | outputMoved {m} (lease : OutputBlockLease) (state : OutputState) (ledger : Ledger)
      (live : Option String) (found : m.outputLeases.find? lease.leaseId = some lease)
      (credits : CreditsOnly (m.toLedger.addOutput { lease with state }) ledger)
      (next : state.index = lease.state.index + 1)
      (cleared : live = if state = .downstreamInput ∧
        m.activeLivenessOutputLeaseId = some lease.leaseId then none
          else m.activeLivenessOutputLeaseId) :
      Effect uuid call m (.ok (.flag true))
        (({ m with toLedger := ledger, activeLivenessOutputLeaseId := live } :
          QueryResourceManager).recomputeStageQueuedOutput lease.producerStageId).publishChange
  | outputReleased {m} (lease : OutputBlockLease) (ledger : Ledger) (live : Option String)
      (found : m.outputLeases.find? lease.leaseId = some lease)
      (credits : CreditsOnly (m.toLedger.removeOutput lease.leaseId) ledger)
      (cleared : live = if m.activeLivenessOutputLeaseId = some lease.leaseId then none
        else m.activeLivenessOutputLeaseId) :
      Effect uuid call m (.ok (.flag true))
        (({ m with
          toLedger := ledger
          outputLeaseByBlock := m.outputLeaseByBlock.erase lease.blockId
          terminalOutputBlocks := m.terminalOutputBlocks.add lease.blockId
          activeLivenessOutputLeaseId := live } :
          QueryResourceManager).recomputeStageQueuedOutput lease.producerStageId).publishChange
  | cancelled {m} (reason : String) (tasks outputs : ℕ) (stages : String → StageState)
      (attempts : BoundedSet (String × String) terminalIdentityReplayCapacity)
      (idle : ∀ stageId ∈ m.graph.stageIds, (stages stageId).inputCounters = (0, 0) ∧
        (stages stageId).outputCounters = (0, 0)) :
      Effect uuid call m (.ok (.dropped tasks outputs))
        { m with
          stages
          terminalAttempts := attempts
          taskLeases := ∅
          continuationCredits := ∅
          continuationCreditByParent := ∅
          continuationCreditByBorrower := ∅
          activeAttemptLeases := ∅
          activeActorSlots := ∅
          queuedActorSlotLeases := ∅
          waitingTaskInputs := ∅
          outputLeases := ∅
          outputLeaseByBlock := ∅
          waitingOutputBlocks := ∅
          activeLivenessTaskLeaseId := none
          activeLivenessOutputLeaseId := none
          allocationAdmissionOpen := false
          cancelled := true
          cancelReason := reason
          admissionEpoch := m.admissionEpoch + 1 }

end QueryResourceManager

end Vane
