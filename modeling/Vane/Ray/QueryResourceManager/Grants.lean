import Vane.Ray.QueryResourceManager.Admission

/-!
This module contains the methods that grant and give back task leases, output blocks and credits.
-/

namespace Vane

structure TaskGrant where
  granted : Bool
  lease : Option TaskLease := none
  blockedReason : Option BlockReason := none
  fatal : Bool := false
  liveness : Bool := false
  admissionEpoch : ℕ := 0
  deriving DecidableEq

structure OutputBlockGrant where
  granted : Bool
  lease : Option OutputBlockLease := none
  blockedReason : Option BlockReason := none
  fatal : Bool := false
  liveness : Bool := false
  deriving DecidableEq

namespace QueryResourceManager

variable (m : QueryResourceManager) (lease : TaskLease) (spec : StageResourceSpec)
  (slot : Option (String × ℕ))

open Except (raiseIf)

def taskDenied (reason : BlockReason) (fatal : Bool := false) : TaskGrant :=
  { granted := false, blockedReason := some reason, fatal }

def outputDenied (reason : BlockReason) (fatal : Bool := false) : OutputBlockGrant :=
  { granted := false, blockedReason := some reason, fatal }

/-! Granting a task. -/

variable (uuid : UuidSource)

def drawUuid : Py QueryResourceManager String := do
  let m ← Py.get
  Py.set { m with uuidsDrawn := m.uuidsDrawn + 1 }
  return uuid.hex m.uuidsDrawn

def actorSlotFor (plan : TaskAdmissionPlan) : Except PyError (Option (String × ℕ)) :=
  if spec.backend = .rayActor then
    match plan.actorIndex with
    | none => .error (.runtimeError "Ray actor task admission requires a concrete actor slot")
    | some index =>
      if m.actorSlotLeaseCount (spec.stageId, index) < spec.actorPrefetchDepth then
        .ok (some (spec.stageId, index))
      else
        .error (.runtimeError "Ray actor prefetch slot changed during atomic task admission")
  else
    .ok none

def executionSlotId (leaseId : String) : String :=
  match slot with
  | some (stageId, index) => s!"ray_actor:{stageId}:{index}"
  | none => s!"{spec.backend.name}:{spec.stageId}:{leaseId}"

def occupySlot (leaseId : String) : QueryResourceManager :=
  match slot with
  | none => m
  | some slot =>
    if m.activeActorSlots.contains slot then
      { m with queuedActorSlotLeases := m.queuedActorSlotLeases.update slot [] (· ++ [leaseId]) }
    else
      { m with activeActorSlots := m.activeActorSlots.insert slot leaseId }

def assignCredit (plan : TaskAdmissionPlan) (lease : TaskLease) : Py QueryResourceManager Unit :=
  match plan.newCredit, plan.borrowedCreditId with
  | some new, _ => do
    let creditId ← drawUuid uuid
    Py.modify fun m => { m with
      continuationCredits := m.continuationCredits.put {
        creditId
        parentTaskLeaseId := lease.leaseId
        parentStageId := lease.stageId
        eligibleStageIds := new.eligibleStageIds
        reservationStageId := new.reservationStageId
        nodeId := new.nodeId
        resources := new.resources
        allocationGeneration := m.allocation.generation }
      continuationCreditByParent := m.continuationCreditByParent.insert lease.leaseId creditId }
  | none, some creditId => do
    let m ← Py.get
    match m.continuationCredits.find? creditId with
    | none =>
      Py.raise (.runtimeError "continuation credit changed during atomic task admission")
    | some credit =>
      Py.lift (raiseIf (¬credit.parentActive ∨ credit.borrowedByTaskLeaseId ≠ none ∨
          lease.stageId ∉ credit.eligibleStageIds ∨ credit.nodeId ≠ lease.nodeId)
        (.runtimeError "continuation credit changed during atomic task admission"))
      Py.modify fun m => { m with
        continuationCredits :=
          m.continuationCredits.put { credit with borrowedByTaskLeaseId := some lease.leaseId }
        continuationCreditByBorrower :=
          m.continuationCreditByBorrower.insert lease.leaseId credit.creditId }
  | none, none => return ()

def leaseFor (request : TaskRequest) (plan : TaskAdmissionPlan)
    (slot : Option (String × ℕ)) (spec : StageResourceSpec) (liveness : Bool) (leaseId : String) :
    TaskLease where
  leaseId
  queryId := m.graph.queryId
  stageId := request.stageId
  taskId := request.taskId
  attemptId := request.attemptId
  nodeId := plan.nodeId
  executionSlotId := executionSlotId spec slot leaseId
  actorIndex := plan.actorIndex
  resources := plan.resources
  outputWindowBytes := plan.outputWindowBytes
  liveness
  allocationGeneration := m.allocation.generation

def fileTaskLease : QueryResourceManager :=
  occupySlot
    { m with
      taskLeases := m.taskLeases.put lease
      activeAttemptLeases :=
        m.activeAttemptLeases.insert (lease.taskId, lease.attemptId) lease.leaseId }
    slot lease.leaseId

def noteTaskGranted : QueryResourceManager :=
  let dequeued := { m with
    waitingTaskInputs := m.waitingTaskInputs.erase (lease.taskId, lease.attemptId) }
  let counted := dequeued.recomputeStageQueuedInput lease.stageId
  let started := { counted with startedStageIds := counted.startedStageIds.insert lease.stageId }
  if lease.liveness then
    { started with
      activeLivenessTaskLeaseId := some lease.leaseId
      taskLivenessGrantsTotal := started.taskLivenessGrantsTotal + 1 }
  else
    started

@[irreducible]
def grantTask (request : TaskRequest) (plan : TaskAdmissionPlan) (liveness : Bool) :
    Py QueryResourceManager TaskGrant := do
  Py.lift (raiseIf (Text.strip plan.nodeId = "")
    (.runtimeError "cannot grant a query task lease without a concrete Ray node"))
  Py.lift (raiseIf (plan.newCredit ≠ none ∧ plan.borrowedCreditId ≠ none)
    (.runtimeError "task admission cannot create and borrow a continuation credit"))
  let spec ← requireStage request.stageId
  let leaseId ← drawUuid uuid
  let slot ← Py.read (actorSlotFor · spec plan)
  let m ← Py.get
  let lease := m.leaseFor request plan slot spec liveness leaseId
  Py.modify fun m => m.fileTaskLease lease slot
  assignCredit uuid plan lease
  Py.modify fun m => (m.noteTaskGranted lease).publishChange
  return { granted := true, lease := some lease, liveness }

/-! Arbitration between the tasks that wait. -/

abbrev TaskRank : Type := ℕ ×ₗ ℕ ×ₗ ℕ

structure QueuedTaskEvaluation where
  rank : TaskRank
  request : TaskRequest
  admission : TaskAdmission

namespace QueuedTaskEvaluation

variable (e : QueuedTaskEvaluation)

def key : String × String := (e.request.taskId, e.request.attemptId)

def isNormal : Bool := ¬e.admission.fatal ∧ e.admission.reason = none

def isSoft : Bool := ¬e.admission.fatal ∧ e.admission.reason.any (·.isSoftTask)

end QueuedTaskEvaluation

def waitingTaskRank (request : TaskRequest) (registrationOrder : ℕ) : Except PyError TaskRank :=
  let order := m.graph.reverseTopologicalStageIds
  if request.stageId ∈ order then
    .ok (toLex (order.idxOf request.stageId,
      toLex (m.activeTaskCountForStage request.stageId, registrationOrder)))
  else
    .error (.keyError request.stageId)

def evaluateTask (request : TaskRequest) (order : ℕ) : Except PyError QueuedTaskEvaluation := do
  let admission ← m.normalTaskBlockReason request
  let rank ← m.waitingTaskRank request order
  return { rank, request, admission }

def evaluateWaitingTasks : Except PyError (List QueuedTaskEvaluation) :=
  m.waitingTaskInputs.values.zipIdx.mapM fun ((request, _), order) => m.evaluateTask request order

def isStarving (stageId : String) : Bool :=
  0 < (m.stages stageId).queuedInputBytes ∧ m.activeTaskCountForStage stageId = 0

def preferStarving (stageIds : List String) : Option String :=
  match stageIds.filter m.isStarving with
  | stageId :: _ => some stageId
  | [] => stageIds.head?

def selectWaitingTaskEvaluation
    (evaluations : List QueuedTaskEvaluation) : Except PyError (Option QueuedTaskEvaluation) :=
  match (evaluations.filter (·.isNormal)).minBy? (·.rank) with
  | some normal => .ok (some normal)
  | none =>
    let soft := evaluations.filter (·.isSoft)
    if soft = [] then
      .ok none
    else
      let softStageIds := soft.map (·.request.stageId)
      let ordered := m.graph.reverseTopologicalStageIds.filter (· ∈ softStageIds)
      match m.preferStarving ordered with
      | none => .error (.indexError "list index out of range")
      | some preferred =>
        .ok ((soft.filter (·.request.stageId = preferred)).minBy? (·.rank))

def livenessClosed : Option BlockReason :=
  if m.activeLivenessTaskLeaseId ≠ none then
    some .livenessTaskActive
  else if m.taskLeases.keys ≠ [] ∧ ¬m.externalConsumerWaiting then
    some .livenessNotNeeded
  else
    none

def queuedLivenessBlockReason (evaluations : List QueuedTaskEvaluation) : Option BlockReason :=
  match m.livenessClosed with
  | some reason => some reason
  | none => if evaluations.any (·.isNormal) then some .normalCandidateAvailable else none

def hypotheticalRequest : TaskRequest where
  queryId := m.graph.queryId
  stageId := spec.stageId
  taskId := s!"hypothetical:{spec.stageId}"
  attemptId := "hypothetical"
  nodeId := none
  retainedInputBytes := some spec.perTask.objectStoreBytes

def hypotheticalRequests (specs : List StageResourceSpec) : List TaskRequest :=
  (specs.filter fun spec =>
    (m.stages spec.stageId).runnable ∧ ¬(m.stages spec.stageId).completed).map m.hypotheticalRequest

def anyAdmitted (m : QueryResourceManager) : List TaskRequest → Except PyError Bool
  | [] => .ok false
  | request :: rest => do
    let admission ← m.normalTaskBlockReason request true
    if admission.reason = none then return true else m.anyAdmitted rest

def hasNormalTaskCandidate : Except PyError Bool :=
  if m.waitingTaskInputs.keys ≠ [] then
    m.anyAdmitted (m.waitingTaskInputs.values.map Prod.fst)
  else
    m.anyAdmitted (m.hypotheticalRequests m.graph.stages)

def anySoft (m : QueryResourceManager) : List TaskRequest → Except PyError Bool
  | [] => .ok false
  | request :: rest => do
    let admission ← m.normalTaskBlockReason request true
    if ¬admission.fatal ∧ admission.reason.any (·.isSoftTask) then
      return true
    else
      m.anySoft rest

def livenessRequests : List TaskRequest :=
  if m.waitingTaskInputs.keys ≠ [] then
    (m.waitingTaskInputs.values.map Prod.fst).filter (·.stageId = spec.stageId)
  else
    m.hypotheticalRequests [spec]

def preferredLivenessStage : Except PyError (Option String) := do
  let specs := m.graph.specs m.graph.reverseTopologicalStageIds
  let soft ← specs.mapM fun spec => m.anySoft (m.livenessRequests spec)
  return m.preferStarving (((specs.zip soft).filter Prod.snd).map (·.1.stageId))

def taskLivenessBlockReason (request : TaskRequest) : Except PyError (Option BlockReason) :=
  match m.livenessClosed with
  | some reason => .ok (some reason)
  | none => do
    if ← m.hasNormalTaskCandidate then
      return some .normalCandidateAvailable
    match ← m.preferredLivenessStage with
    | none => return some .noLivenessCandidate
    | some preferred =>
      return if preferred ≠ request.stageId then some .livenessCandidateNotSelected else none

/-! The four entry points of task acquisition. -/

def tryAcquireTask (request : TaskRequest) : Py QueryResourceManager TaskGrant := do
  let admission ← Py.read (·.normalTaskBlockReason request)
  match admission.reason with
  | none => grantTask uuid request admission.plan false
  | some reason =>
    if admission.fatal ∨ ¬reason.isSoftTask then
      return taskDenied reason admission.fatal
    else
      match ← Py.read (·.taskLivenessBlockReason request) with
      | some reason => return taskDenied reason
      | none => grantTask uuid request admission.plan true

def wakeStage (request : TaskRequest) : QueryResourceManager :=
  let stage := m.stages request.stageId
  if request.queryId = m.graph.queryId ∧ (m.graph.stage? request.stageId).isSome ∧
      ¬stage.completed ∧ ¬stage.runnable then
    ((m.updateStage request.stageId fun stage => { stage with runnable := true
      }).recomputeStageQueuedInput request.stageId).publishChange
  else
    m

def withEpoch (grant : TaskGrant) : Py QueryResourceManager TaskGrant := do
  let m ← Py.get
  return { grant with admissionEpoch := m.admissionEpoch }

def tryAcquireTaskDescriptor (request : TaskRequest) : Py QueryResourceManager TaskGrant := do
  Py.modify (·.wakeStage request)
  let m ← Py.get
  let key := (request.taskId, request.attemptId)
  if m.waitingTaskInputs.contains key then
    withEpoch (taskDenied .taskDescriptorAlreadyRegistered true)
  else
    let admission ← Py.lift (m.normalTaskBlockReason request)
    if admission.fatal then
      withEpoch (taskDenied (admission.reason.getD .fatalTaskAdmission) true)
    else
      let rank ← Py.lift (m.waitingTaskRank request m.waitingTaskInputs.keys.length)
      let waiting ← Py.lift m.evaluateWaitingTasks
      let evaluations := waiting ++ [⟨rank, request, admission⟩]
      match ← Py.lift (m.selectWaitingTaskEvaluation evaluations) with
      | none => withEpoch (taskDenied (admission.reason.getD .taskNotAdmissible))
      | some preferred =>
        if preferred.key ≠ key then
          withEpoch (taskDenied .admissionTurn)
        else
          match admission.reason with
          | none =>
            let grant ← grantTask uuid request admission.plan false
            withEpoch grant
          | some reason =>
            if ¬reason.isSoftTask then
              withEpoch (taskDenied reason)
            else
              match m.queuedLivenessBlockReason evaluations with
              | some reason => withEpoch (taskDenied reason)
              | none =>
                let grant ← grantTask uuid request admission.plan true
                withEpoch grant

def tryAcquireQueuedTask (request : TaskRequest) : Py QueryResourceManager TaskGrant := do
  let m ← Py.get
  let key := (request.taskId, request.attemptId)
  match m.waitingTaskInputs.find? key with
  | none => return taskDenied .taskWaiterNotRegistered true
  | some (waiting, _) =>
    if waiting ≠ request then
      return taskDenied .taskWaiterIdentityMismatch true
    else
      let evaluations ← Py.lift m.evaluateWaitingTasks
      match evaluations.find? (·.key = key) with
      | none => Py.raise .stopIteration
      | some current =>
        let admission := current.admission
        if admission.fatal then
          return taskDenied (admission.reason.getD .fatalTaskAdmission) true
        else
          match ← Py.lift (m.selectWaitingTaskEvaluation evaluations) with
          | none => return taskDenied (admission.reason.getD .taskNotAdmissible)
          | some preferred =>
            if preferred.key ≠ key then
              return taskDenied .admissionTurn
            else if admission.reason = none then
              grantTask uuid request admission.plan false
            else
              match m.queuedLivenessBlockReason evaluations with
              | some reason => return taskDenied reason
              | none => grantTask uuid request admission.plan true

def tryAcquireNextQueuedTask (candidateKeys : List (String × String)) :
    Py QueryResourceManager (Option TaskRequest × Option TaskGrant) := do
  let m ← Py.get
  let evaluations ← Py.lift m.evaluateWaitingTasks
  let ownedFatal := evaluations.filter fun e => e.admission.fatal ∧ e.key ∈ candidateKeys
  match ownedFatal.minBy? (·.rank) with
  | some selected =>
    let reason := selected.admission.reason.getD .fatalTaskAdmission
    return (some selected.request, some (taskDenied reason true))
  | none =>
    match ← Py.lift (m.selectWaitingTaskEvaluation evaluations) with
    | none => return (none, none)
    | some selected =>
      let request := selected.request
      if selected.key ∉ candidateKeys then
        return (some request, some (taskDenied .admissionTurn))
      else if selected.admission.reason = none then
        let grant ← grantTask uuid request selected.admission.plan false
        return (some request, some grant)
      else
        match m.livenessClosed with
        | some reason => return (some request, some (taskDenied reason))
        | none =>
          let grant ← grantTask uuid request selected.admission.plan true
          return (some request, some grant)

/-! Giving back a task. -/

def deleteContinuationCredit (creditId : String) : QueryResourceManager :=
  match m.continuationCredits.find? creditId with
  | none => m
  | some credit =>
    let parent := credit.parentTaskLeaseId
    { m with
      continuationCredits := m.continuationCredits.remove creditId
      continuationCreditByParent :=
        if m.continuationCreditByParent.find? parent = some credit.creditId then
          m.continuationCreditByParent.erase parent
        else
          m.continuationCreditByParent
      continuationCreditByBorrower :=
        match credit.borrowedByTaskLeaseId with
        | some borrower => m.continuationCreditByBorrower.erase borrower
        | none => m.continuationCreditByBorrower }

def holdsCredit (taskLeaseId : String) : Bool :=
  m.taskLeases.contains taskLeaseId || m.outputLeases.values.any fun output =>
    output.taskLeaseId = taskLeaseId ∧ ¬output.state.isHandedOff

/--
`_maybe_return_continuation_credit_locked`: handing off the last output is the boundary at which the
next child task may borrow the credit, although the outputs stay attached to it.
-/
def maybeReturnContinuationCredit (taskLeaseId : String) : Py QueryResourceManager Unit := do
  let m ← Py.get
  match m.continuationCreditByBorrower.find? taskLeaseId with
  | none => return ()
  | some creditId =>
    if m.holdsCredit taskLeaseId then
      return ()
    else
      Py.modify fun m => { m with
        continuationCreditByBorrower := m.continuationCreditByBorrower.erase taskLeaseId }
      match m.continuationCredits.find? creditId with
      | none => Py.raise (.runtimeError "continuation borrower index is inconsistent")
      | some credit =>
        Py.lift (raiseIf (credit.borrowedByTaskLeaseId ≠ some taskLeaseId)
          (.runtimeError "continuation borrower index is inconsistent"))
        Py.modify fun m => { m with
          continuationCredits :=
            m.continuationCredits.put { credit with borrowedByTaskLeaseId := none } }
        if ¬credit.parentActive then
          Py.modify (·.deleteContinuationCredit credit.creditId)

def vacateSlot : Except PyError QueryResourceManager :=
  match lease.actorIndex with
  | none => .ok m
  | some index =>
    let slot := (lease.stageId, index)
    let queued := m.queuedActorSlotLeases.findD slot []
    let keepQueue (queued : List String) : Dict (String × ℕ) (List String) :=
      if queued = [] then
        m.queuedActorSlotLeases.erase slot
      else
        m.queuedActorSlotLeases.insert slot queued
    if m.activeActorSlots.find? slot = some lease.leaseId then
      match queued with
      | next :: rest =>
        .ok { m with
          activeActorSlots := m.activeActorSlots.insert slot next
          queuedActorSlotLeases := keepQueue rest }
      | [] => .ok { m with activeActorSlots := m.activeActorSlots.erase slot }
    else if lease.leaseId ∈ queued then
      .ok { m with queuedActorSlotLeases := keepQueue (queued.erase lease.leaseId) }
    else
      .error (.runtimeError "Ray actor slot ownership index is inconsistent")

def retireParent : Py QueryResourceManager Unit := do
  let m ← Py.get
  match m.continuationCreditByParent.find? lease.leaseId with
  | none => return ()
  | some creditId =>
    Py.modify fun m => { m with
      continuationCreditByParent := m.continuationCreditByParent.erase lease.leaseId }
    match m.continuationCredits.find? creditId with
    | none => Py.raise (.runtimeError "continuation parent index is inconsistent")
    | some credit =>
      Py.lift (raiseIf (credit.parentTaskLeaseId ≠ lease.leaseId)
        (.runtimeError "continuation parent index is inconsistent"))
      Py.modify fun m => { m with
        continuationCredits := m.continuationCredits.put { credit with parentActive := false } }
      if credit.borrowedByTaskLeaseId = none then
        Py.modify (·.deleteContinuationCredit credit.creditId)

def onTaskLeaseRemoved : Py QueryResourceManager Unit := do
  let vacated ← Py.read (·.vacateSlot lease)
  Py.set vacated
  maybeReturnContinuationCredit lease.leaseId
  retireParent lease

def removeTaskLease (terminal : Bool) : Py QueryResourceManager Unit := do
  Py.modify fun m => { m with taskLeases := m.taskLeases.remove lease.leaseId }
  onTaskLeaseRemoved lease
  let attempt := (lease.taskId, lease.attemptId)
  Py.modify fun m => { m with activeAttemptLeases := m.activeAttemptLeases.erase attempt }
  if terminal then
    Py.modify fun m => { m with terminalAttempts := m.terminalAttempts.add attempt }
  Py.modify fun m =>
    if m.activeLivenessTaskLeaseId = some lease.leaseId then
      { m with activeLivenessTaskLeaseId := none }
    else
      m
  Py.modify publishChange

def releaseLease (leaseId attemptId : String) (terminal : Bool) : Py QueryResourceManager Bool := do
  let m ← Py.get
  match m.taskLeases.find? leaseId with
  | none => return false
  | some lease =>
    if lease.attemptId ≠ attemptId then
      return false
    else
      removeTaskLease lease terminal
      return true

def releaseTaskLease (leaseId attemptId : String) : Py QueryResourceManager Bool :=
  releaseLease leaseId attemptId true

def abandonTaskLease (leaseId attemptId : String) : Py QueryResourceManager Bool :=
  releaseLease leaseId attemptId false

def checkFinishedOutput (task : TaskLease) (targetBytes : ℤ)
    (seen : List String) (request : OutputBlockRequest) : Except PyError (List String) := do
  raiseIf (request.queryId ≠ task.queryId)
    (.runtimeError "FTE output query_id does not match its task lease")
  raiseIf (request.producerStageId ≠ task.stageId)
    (.runtimeError "FTE output stage_id does not match its task lease")
  raiseIf (request.taskLeaseId ≠ task.leaseId)
    (.runtimeError "FTE output task_lease_id does not match its task lease")
  raiseIf (request.attemptId ≠ task.attemptId)
    (.runtimeError "FTE output attempt_id does not match its task lease")
  let blockId := Text.strip request.blockId
  let size := request.sizeBytes
  raiseIf (blockId = "") (.runtimeError "FTE output block_id must be non-empty")
  raiseIf (blockId ∈ seen ∨ m.outputLeaseByBlock.contains blockId)
    (.runtimeError s!"FTE output block_id is not unique: {blockId}")
  raiseIf (size ≤ 0) (.runtimeError s!"FTE output block size must be positive: {blockId}")
  raiseIf (targetBytes ≤ 0 ∨ targetBytes < size)
    (.runtimeError s!"FTE output block {blockId} size {size} exceeds stage target {targetBytes}")
  return seen ++ [blockId]

def fileOutputLease (lease : OutputBlockLease) : QueryResourceManager :=
  { m with
    outputLeases := m.outputLeases.put lease
    outputLeaseByBlock := m.outputLeaseByBlock.insert lease.blockId lease.leaseId }

def finishedOutput (task : TaskLease) (request : OutputBlockRequest) :
    Py QueryResourceManager OutputBlockLease := do
  let leaseId ← drawUuid uuid
  let m ← Py.get
  return {
    leaseId
    queryId := task.queryId
    producerStageId := task.stageId
    taskLeaseId := task.leaseId
    attemptId := task.attemptId
    blockId := request.blockId
    nodeId := task.nodeId
    sizeBytes := request.sizeBytes.toNat
    state := .stageQueue
    liveness := false
    allocationGeneration := m.allocation.generation
    continuationCreditId := none }

def finishedOutputs (task : TaskLease) : List OutputBlockRequest →
    Py QueryResourceManager (List OutputBlockLease)
  | [] => return []
  | request :: rest => do
    let lease ← finishedOutput uuid task request
    let leases ← finishedOutputs task rest
    return lease :: leases

def finishTaskWithOutputs (taskLeaseId attemptId : String) (outputs : List OutputBlockRequest) :
    Py QueryResourceManager (List OutputBlockLease) := do
  let m ← Py.get
  match m.taskLeases.find? taskLeaseId with
  | none => Py.raise (.runtimeError s!"FTE task lease is not active: {taskLeaseId}")
  | some task =>
    let given := task.attemptId
    Py.lift (raiseIf (given ≠ attemptId)
      (.runtimeError s!"FTE task lease attempt mismatch: lease={given} result={attemptId}"))
    let spec ← requireStage task.stageId
    let total := (outputs.map (·.sizeBytes)).sum
    let window := task.outputWindowBytes
    Py.lift (raiseIf ((window : ℤ) < total)
      (.runtimeError (s!"FTE output bytes {total} exceed task window {window}: " ++
        s!"query={task.queryId} stage={task.stageId} task_lease={task.leaseId} " ++
        s!"attempt={task.attemptId}")))
    let _ ← Py.lift (outputs.foldlM (m.checkFinishedOutput task spec.targetOutputBlockBytes) [])
    let leases ← finishedOutputs uuid task outputs
    Py.modify fun m => leases.foldl fileOutputLease m
    Py.modify fun m => m.recomputeStageQueuedOutput task.stageId
    removeTaskLease task true
    return leases

/-! Output blocks. -/

/-- What admission says about an output block; `delta` is what its task is charged on top. -/
structure OutputAdmission where
  reason : Option BlockReason
  fatal : Bool := false
  delta : ℕ := 0

def checkOutputRequest (request : OutputBlockRequest) :
    Except BlockReason (StageResourceSpec × TaskLease) := do
  raiseIf m.cancelled .queryCancelled
  raiseIf (request.queryId ≠ m.graph.queryId) .queryIdMismatch
  match m.graph.stage? request.producerStageId with
  | none => throw .stageNotRegistered
  | some spec =>
    let blockId := Text.strip request.blockId
    raiseIf (blockId = "") .invalidBlockId
    raiseIf (blockId ∈ m.terminalOutputBlocks) .outputBlockTerminal
    match m.taskLeases.find? request.taskLeaseId with
    | none => throw .taskLeaseNotActive
    | some task =>
      raiseIf (task.stageId ≠ spec.stageId) .taskStageMismatch
      raiseIf (task.attemptId ≠ request.attemptId) .taskAttemptMismatch
      raiseIf (m.outputLeaseByBlock.contains blockId) .outputBlockAlreadyLeased
      raiseIf (request.sizeBytes ≤ 0) .invalidOutputBlockSize
      raiseIf ((m.allocation.resources.objectStoreBytes : ℤ) < request.sizeBytes)
        .outputBlockExceedsQueryLimit
      return (spec, task)

def outputDelta (task : TaskLease) (size : ℕ) : ℕ :=
  let live := m.liveOutputBytesForTask task.leaseId
  max task.outputWindowBytes (live + size) - max task.outputWindowBytes live

def normalOutputBlockReason (request : OutputBlockRequest) : Except PyError OutputAdmission :=
  match m.checkOutputRequest request with
  | .error reason => .ok { reason := some reason, fatal := true }
  | .ok (spec, task) =>
    let delta := m.outputDelta task request.sizeBytes.toNat
    if delta = 0 then
      .ok { reason := none }
    else do
      let usage ← m.queryUsage
      if ¬usage + .ofObjectStore delta ≤ m.allocation.resources then
        return { reason := some (.hard .objectStoreBytes), delta }
      else
        match m.allocation.resourcesForNode task.nodeId with
        | .error _ => return { reason := some .nodeNotAllocated, fatal := true, delta }
        | .ok nodeCapacity =>
          let nodeUsage ← m.nodeUsage task.nodeId
          if ¬nodeUsage + .ofObjectStore delta ≤ nodeCapacity then
            return { reason := some .nodeCapacity, delta }
          else
            let soft ← m.stageSoftBlockReason spec (.ofObjectStore delta)
            return { reason := soft, delta }

def outputLeaseFor (request : OutputBlockRequest) (task : TaskLease)
    (liveness : Bool) (state : OutputState) (leaseId : String) : OutputBlockLease where
  leaseId
  queryId := m.graph.queryId
  producerStageId := request.producerStageId
  taskLeaseId := request.taskLeaseId
  attemptId := request.attemptId
  blockId := request.blockId
  nodeId := task.nodeId
  sizeBytes := request.sizeBytes.toNat
  state
  liveness
  allocationGeneration := m.allocation.generation
  continuationCreditId := m.continuationCreditByBorrower.find? task.leaseId

def noteOutputGranted (lease : OutputBlockLease) : QueryResourceManager :=
  let dequeued := { m with waitingOutputBlocks := m.waitingOutputBlocks.erase lease.blockId }
  let counted := dequeued.recomputeStageQueuedOutput lease.producerStageId
  if lease.liveness then
    { counted with
      activeLivenessOutputLeaseId := some lease.leaseId
      outputLivenessGrantsTotal := counted.outputLivenessGrantsTotal + 1 }
  else
    counted

@[irreducible]
def grantOutputBlock (request : OutputBlockRequest) (liveness : Bool) (state : OutputState) :
    Py QueryResourceManager OutputBlockGrant := do
  let m ← Py.get
  match m.taskLeases.find? request.taskLeaseId with
  | none => Py.raise (.runtimeError "cannot grant an output block without an active task lease")
  | some task =>
    let leaseId ← drawUuid uuid
    let lease := m.outputLeaseFor request task liveness state leaseId
    Py.modify fun m => ((m.fileOutputLease lease).noteOutputGranted lease).publishChange
    return { granted := true, lease := some lease, liveness }

def hypotheticalOutput (label : String) (spec : StageResourceSpec) : Option OutputBlockRequest :=
  match m.taskLeases.values.find? (·.stageId = spec.stageId) with
  | none => none
  | some task =>
    let queued := (m.stages spec.stageId).queuedOutputBytes
    let target := spec.targetOutputBlockBytes
    let size := min queued (if 0 < target then target else queued)
    if size ≤ 0 then
      none
    else
      some {
        queryId := m.graph.queryId
        producerStageId := spec.stageId
        taskLeaseId := task.leaseId
        attemptId := task.attemptId
        blockId := s!"{label}:{spec.stageId}:{task.leaseId}"
        sizeBytes := size }

def anyOutputAdmitted (m : QueryResourceManager) : List OutputBlockRequest → Except PyError Bool
  | [] => .ok false
  | request :: rest => do
    let admission ← m.normalOutputBlockReason request
    if admission.reason = none then return true else m.anyOutputAdmitted rest

def hasNormalOutputCandidate : Except PyError Bool :=
  let specs := (m.graph.specs m.graph.reverseTopologicalStageIds).filter fun spec =>
    let stage := m.stages spec.stageId
    stage.runnable ∧ ¬stage.completed ∧ 0 < stage.queuedOutputBytes
  m.anyOutputAdmitted (specs.filterMap (m.hypotheticalOutput "hypothetical"))

def livenessOutput (current : OutputBlockRequest)
    (spec : StageResourceSpec) : Option OutputBlockRequest :=
  let stage := m.stages spec.stageId
  if ¬stage.runnable ∨ stage.completed then
    none
  else if spec.stageId = current.producerStageId then
    some current
  else if stage.queuedOutputBytes ≤ 0 then
    none
  else
    m.hypotheticalOutput "hypothetical-liveness" spec

def preferredOutputLivenessStage (current : OutputBlockRequest) :
    Except PyError (Option String) := do
  let requests := (m.graph.specs m.graph.reverseTopologicalStageIds).filterMap
    (m.livenessOutput current)
  let soft ← requests.mapM fun request => do
    let admission ← m.normalOutputBlockReason request
    return decide (¬admission.fatal ∧ admission.reason.any (·.isSoftOutput))
  return (((requests.zip soft).filter Prod.snd).map (·.1.producerStageId)).head?

def outputConsumerStarving (producerStageId : String) : Bool :=
  let downstream := m.graph.downstream producerStageId
  m.externalConsumerWaiting ||
    (downstream ≠ [] && downstream.all fun stageId => m.activeTaskCountForStage stageId = 0)

def tryAcquireOutputBlock (request : OutputBlockRequest) :
    Py QueryResourceManager OutputBlockGrant := do
  let m ← Py.get
  let admission ← Py.lift (m.normalOutputBlockReason request)
  match admission.reason with
  | none => grantOutputBlock uuid request false .generatorPending
  | some reason =>
    if admission.fatal ∨ ¬reason.isSoftOutput then
      return outputDenied reason admission.fatal
    else if m.activeLivenessOutputLeaseId ≠ none then
      return outputDenied .livenessOutputActive
    else if ← Py.lift m.hasNormalOutputCandidate then
      return outputDenied .normalOutputCandidateAvailable
    else if ¬m.outputConsumerStarving request.producerStageId then
      return outputDenied .outputLivenessNotNeeded
    else
      let preferred ← Py.lift (m.preferredOutputLivenessStage request)
      if preferred ≠ some request.producerStageId then
        return outputDenied .livenessOutputCandidateNotSelected
      else
        let usage ← Py.lift m.queryUsage
        if 0 < admission.delta ∧
            ¬usage + .ofObjectStore admission.delta ≤ m.allocation.resources then
          return outputDenied (.hard .objectStoreBytes)
        else
          grantOutputBlock uuid request true .generatorPending

structure RankedOutput where
  rank : ℕ ×ₗ ℕ
  request : OutputBlockRequest
  admission : OutputAdmission

def rankOutput (request : OutputBlockRequest) (order : ℕ) : Except PyError RankedOutput := do
  let admission ← m.normalOutputBlockReason request
  let stageRank := m.graph.reverseTopologicalStageIds.idxOf request.producerStageId
  return { rank := toLex (stageRank, order), request, admission }

def rankWaitingOutputs (candidateBlockIds : List String) : Except PyError (List RankedOutput) :=
  (m.waitingOutputBlocks.entries.zipIdx.filter (·.1.1 ∈ candidateBlockIds)).mapM
    fun ((_, request), order) => m.rankOutput request order

def tryAcquireNextQueuedOutputBlock (candidateBlockIds : List String) :
    Py QueryResourceManager (Option OutputBlockRequest × Option OutputBlockGrant) := do
  let m ← Py.get
  let ranked ← Py.lift (m.rankWaitingOutputs candidateBlockIds)
  let fatal := ranked.filter (·.admission.fatal)
  let normal := ranked.filter fun r => ¬r.admission.fatal ∧ r.admission.reason = none
  let soft := ranked.filter fun r => ¬r.admission.fatal ∧ r.admission.reason.any (·.isSoftOutput)
  match fatal.minBy? (·.rank) with
  | some r =>
    return (some r.request, some {
      granted := false
      blockedReason := r.admission.reason
      fatal := true })
  | none =>
    match normal.minBy? (·.rank) with
    | some r =>
      let grant ← grantOutputBlock uuid r.request false .stageQueue
      return (some r.request, some grant)
    | none =>
      match soft.minBy? (·.rank) with
      | none => return (none, none)
      | some r =>
        if m.activeLivenessOutputLeaseId ≠ none then
          return (some r.request, some (outputDenied .livenessOutputActive))
        else if ¬m.outputConsumerStarving r.request.producerStageId then
          return (some r.request, some (outputDenied .outputLivenessNotNeeded))
        else
          let grant ← grantOutputBlock uuid r.request true .stageQueue
          return (some r.request, some grant)

def transitionOutputBlock (leaseId state : String) : Py QueryResourceManager Bool := do
  match OutputState.ofName? state with
  | none => Py.raise (.valueError s!"invalid output lease transition target: {state}")
  | some target =>
    let m ← Py.get
    match m.outputLeases.find? leaseId with
    | none => return false
    | some lease =>
      let current := lease.state.name
      Py.lift (raiseIf (target.index ≠ lease.state.index + 1)
        (.valueError s!"invalid output lease transition: {current} -> {state}"))
      Py.modify fun m => { m with outputLeases := m.outputLeases.put { lease with state := target } }
      if target = .downstreamInput then
        Py.modify fun m =>
          if m.activeLivenessOutputLeaseId = some leaseId then
            { m with activeLivenessOutputLeaseId := none }
          else
            m
        maybeReturnContinuationCredit lease.taskLeaseId
      Py.modify fun m => (m.recomputeStageQueuedOutput lease.producerStageId).publishChange
      return true

def releaseOutputBlock (leaseId : String) : Py QueryResourceManager Bool := do
  let m ← Py.get
  match m.outputLeases.find? leaseId with
  | none => return false
  | some lease =>
    Py.modify fun m => { m with
      outputLeases := m.outputLeases.remove leaseId
      outputLeaseByBlock := m.outputLeaseByBlock.erase lease.blockId
      terminalOutputBlocks := m.terminalOutputBlocks.add lease.blockId
      activeLivenessOutputLeaseId :=
        if m.activeLivenessOutputLeaseId = some leaseId then
          none
        else
          m.activeLivenessOutputLeaseId }
    maybeReturnContinuationCredit lease.taskLeaseId
    Py.modify fun m => (m.recomputeStageQueuedOutput lease.producerStageId).publishChange
    return true

def cancel (reason : String) : Py QueryResourceManager (ℕ × ℕ) := do
  let m ← Py.get
  if m.cancelled then
    return (0, 0)
  else
    let attempts := m.taskLeases.values.map fun lease => (lease.taskId, lease.attemptId)
    let cleared := { m with
      terminalAttempts := attempts.foldl BoundedSet.add m.terminalAttempts
      taskLeases := ∅
      continuationCredits := ∅
      continuationCreditByParent := ∅
      continuationCreditByBorrower := ∅
      activeAttemptLeases := ∅
      activeActorSlots := ∅
      queuedActorSlotLeases := ∅
      waitingTaskInputs := ∅
      outputLeases := ∅
      outputLeaseByBlock := ∅
      waitingOutputBlocks := ∅
      activeLivenessTaskLeaseId := none
      activeLivenessOutputLeaseId := none
      allocationAdmissionOpen := false
      cancelled := true
      cancelReason := reason }
    let recount (m : QueryResourceManager) (stageId : String) : QueryResourceManager :=
      (m.recomputeStageQueuedInput stageId).recomputeStageQueuedOutput stageId
    Py.set (m.graph.stageIds.foldl recount cleared).publishChange
    return (m.taskLeases.keys.length, m.outputLeases.keys.length)

end QueryResourceManager

end Vane
