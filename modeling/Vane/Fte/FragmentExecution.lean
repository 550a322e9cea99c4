import Vane.Fte.TaskPartition

/-!
This module contains the execution of a fragment. What the fragment scheduler and the workers decide
is given by an environment.
-/

namespace Vane

open Except (raiseIf)

inductive WorkerCommand where
  | createTask (workerId : Option String) (attemptId : FteTaskAttemptId) (partitionId : ℕ)
      (request : CreateTaskRequest)
  | addSplits (workerId : Option String) (attemptId : FteTaskAttemptId) (sourceNodeId : String)
      (splits : List FteSplit)
  | noMoreSplits (workerId : Option String) (attemptId : FteTaskAttemptId) (sourceNodeId : String)
  | taskUpdate (workerId : Option String) (attemptId : FteTaskAttemptId)
      (update : FteTaskUpdateRequest)

inductive WorkerSelection where
  | unavailable
  | raises (error : PyError)
  | worker (workerId : Option String)

structure Environment where
  admitExecution : FteTaskPartition → Bool := fun _ => true
  admitAttempt : FteTaskPartition → Bool := fun _ => true
  reserves : Bool := false
  selectWorker : FteTaskPartition → WorkerSelection := fun _ => .worker none
  ensureFragmentRegistered : FteTaskPartition → Except PyError (Option String) := fun _ => .ok none
  emitTransition : FteTaskPartition → Except PyError Unit := fun _ => .ok ()
  cancelTask : RunningAttempt → Except PyError Unit := fun _ => .ok ()
  taskUpdateMaxSplits : ℕ := 256
  taskUpdateMaxPayloadBytes : ℕ := 8 * 1024 * 1024
  payloadBytes : FteSplit → ℕ := fun _ => 1

structure FteFragmentExecution where
  queryId : String
  fragmentExecutionId : ℕ
  fragmentId : String
  maxAttempts : ℕ := 4
  maxAttempts_pos : 0 < maxAttempts := by decide
  exchange : Option FteExchangeTracker := none
  context : Dict String String := ∅
  resourceRequest : Dict String String := ∅
  fragmentPlan : Option ℕ := none
  fragmentRegistrationResult : Option String := none
  exchangeSinkInstance : Option String := none
  executionClass : FteTaskExecutionClass := .standard
  sourceNodeIds : Finset String := ∅
  dynamicScanSourceNodeIds : Finset String := ∅
  dynamicExchangeSourceNodeIds : Finset String := ∅
  taskMemoryBytes : ℕ := 1
  partitions : Dict ℕ FteTaskPartition := ∅
  failed : Bool := false
  noMorePartitions : Bool := false
  currentWorkerCommands : Option (List WorkerCommand) := none
  workerCommandOutbox : List WorkerCommand := []

namespace FteFragmentExecution

variable (self : FteFragmentExecution)

def onPartition {α : Type} (partitionId : ℕ) (m : Py FteTaskPartition α) :
    Py FteFragmentExecution α := fun self =>
  match self.partitions.find? partitionId with
  | none => (.error (.keyError (toString partitionId)), self)
  | some p =>
    match m p with
    | (result, p) => (result, { self with partitions := self.partitions.insert partitionId p })

def onExchange {α : Type} (m : Py FteExchangeTracker α) : Py FteFragmentExecution (Option α) :=
  fun self =>
    match self.exchange with
    | none => (.ok none, self)
    | some tracker =>
      match m tracker with
      | (result, tracker) => (result.map some, { self with exchange := some tracker })

def partition? (partitionId : ℕ) : Except PyError FteTaskPartition :=
  match self.partitions.find? partitionId with
  | none => .error (.keyError (toString partitionId))
  | some p => .ok p

def taskIdOf (partitionId : ℕ) : FteTaskId := ⟨self.queryId, self.fragmentExecutionId, partitionId⟩

def newPartition (partitionId : ℕ)
    (sinkHandle : Option ExchangeSinkHandle) (nodeRequirements : Option NodeRequirements) :
    FteTaskPartition where
  taskId := self.taskIdOf partitionId
  descriptor := {
    taskId := self.taskIdOf partitionId
    fragmentId := self.fragmentId
    context := self.context
    resourceRequest := self.resourceRequest
    fragmentPlan := self.fragmentPlan
    fragmentRegistrationResult := self.fragmentRegistrationResult
    exchangeSinkInstance := if self.exchange.isSome then none else self.exchangeSinkInstance
    sourceNodeIds := self.sourceNodeIds
    dynamicScanSourceNodeIds := self.dynamicScanSourceNodeIds
    dynamicExchangeSourceNodeIds := self.dynamicExchangeSourceNodeIds }
  maxAttempts := self.maxAttempts
  remainingAttempts := self.maxAttempts
  sinkHandle
  nodeRequirements
  memoryRequirementBytes := some self.taskMemoryBytes
  executionClass := self.executionClass
  isSealed := false
  readyForScheduling := false

def addPartition (partitionId : ℕ) (nodeRequirements : Option NodeRequirements) :
    Py FteFragmentExecution Unit := do
  let self ← Py.get
  match self.partitions.find? partitionId with
  | some _ =>
    onPartition partitionId
      (Py.modify fun p => { p with nodeRequirements := p.nodeRequirements <|> nodeRequirements })
  | none =>
    let sinkHandle ← onExchange (FteExchangeTracker.addSink partitionId)
    Py.modify fun self => { self with
      partitions := self.partitions.insert partitionId
        (self.newPartition partitionId sinkHandle nodeRequirements) }

def recordWorkerCommand (command : WorkerCommand) (self : FteFragmentExecution) :
    FteFragmentExecution :=
  match self.currentWorkerCommands with
  | some commands => { self with currentWorkerCommands := some (commands ++ [command]) }
  | none => { self with workerCommandOutbox := self.workerCommandOutbox ++ [command] }

def coalescePartitionUpdates (updates : List PartitionUpdate) :
    Except PyError (List PartitionUpdate) := do
  let coalesced ← updates.foldlM merge (∅ : Dict (ℕ × String) PartitionUpdate)
  return coalesced.values
where
  merge (coalesced : Dict (ℕ × String) PartitionUpdate) (update : PartitionUpdate) :
      Except PyError (Dict (ℕ × String) PartitionUpdate) :=
    let key := (update.partitionId, update.sourceNodeId)
    match coalesced.find? key with
    | none => .ok (coalesced.insert key update)
    | some existing => do
      raiseIf (existing.noMoreSplits ∧ update.splits ≠ [])
        (.runtimeError ("source " ++ update.sourceNodeId ++ " for partition " ++
          toString update.partitionId ++ " received splits after no_more_splits"))
      return coalesced.insert key {
        partitionId := existing.partitionId
        sourceNodeId := existing.sourceNodeId
        splits := existing.splits ++ update.splits
        noMoreSplits := existing.noMoreSplits || update.noMoreSplits
        readyForScheduling := existing.readyForScheduling || update.readyForScheduling
        ready_splits := by
          have hexisting := existing.ready_splits
          have hupdate := update.ready_splits
          simp only [Bool.or_eq_true, ne_eq, List.append_eq_nil_iff]
          tauto }

section Scheduling

variable (env : Environment) (partitionId : ℕ) (p : FteTaskPartition) (attempt : FteTaskAttemptId)
  (update : PartitionUpdate) (executionClass : Option FteTaskExecutionClass)

def splitUpdateBatches : List FteSplit → List FteSplit → ℕ → List (List FteSplit)
  | [], [], _ => []
  | [], current, _ => [current]
  | split :: splits, current, currentBytes =>
    let splitBytes := max 1 (env.payloadBytes split)
    if current ≠ [] ∧ (env.taskUpdateMaxSplits ≤ current.length ∨
        env.taskUpdateMaxPayloadBytes < currentBytes + splitBytes) then
      current :: splitUpdateBatches splits [split] splitBytes
    else
      splitUpdateBatches splits (current ++ [split]) (currentBytes + splitBytes)

def readyToSchedule : Except PyError Bool :=
  if p.readyForScheduling then do
    let running ← p.runningAttempt
    return running.isNone && !p.finished && !p.failed
  else
    .ok false

def matchesExecutionClass : Bool := executionClass.all (p.executionClass = ·)

def markPartitionReady : Py FteFragmentExecution Bool :=
  onPartition partitionId do
    let p ← Py.get
    if env.admitExecution p then
      Py.modify FteTaskPartition.markReadyForExecution
      return true
    else
      Py.modify FteTaskPartition.deferReadyForExecution
      return false

def sinkHandleFor : Py FteFragmentExecution (Option ExchangeSinkHandle) := do
  match p.sinkHandle with
  | some handle => return some handle
  | none =>
    let handle ← onExchange (FteExchangeTracker.addSink p.taskId.partitionId)
    onPartition p.taskId.partitionId (Py.modify fun p => { p with sinkHandle := handle })
    return handle

def instantiateSink : Py FteFragmentExecution (Option SinkInstance) := do
  match ← sinkHandleFor p with
  | none => return none
  | some handle =>
    let attemptNumber ← Py.lift p.nextAttemptNumber
    let sink ← onExchange (Py.read (·.instantiateSink handle attemptNumber))
    return sink.map .tracked

def sinkInstanceFor : Py FteFragmentExecution (Option SinkInstance) := do
  let self ← Py.get
  match self.exchange, p.descriptor.exchangeSinkInstance with
  | some _, _ => instantiateSink p
  | none, none => return none
  | none, some text =>
    let attemptNumber ← Py.lift p.nextAttemptNumber
    return some (.derived text attemptNumber p.taskId.partitionId)

/-- `start_attempt_with_worker`; `none` stands for `FteWorkerReservationUnavailable`. -/
def startAttemptWithWorker :
    Py FteFragmentExecution (Option ScheduledAttempt) := do
  let p ← Py.read (·.partition? partitionId)
  match env.selectWorker p with
  | .unavailable => return none
  | .raises e => Py.raise e
  | .worker workerId =>
    let sinkInstance ← sinkInstanceFor p
    let scheduled ← onPartition partitionId (FteTaskPartition.startAttempt sinkInstance workerId)
    let registered ← Py.lift (env.ensureFragmentRegistered p)
    let result := registered <|> scheduled.request.fragmentRegistrationResult
    let request := { scheduled.request with
      fragmentRegistrationResult := result
      fragmentPlan := if result.isSome then none else scheduled.request.fragmentPlan }
    Py.modify (recordWorkerCommand (.createTask workerId scheduled.attemptId partitionId request))
    return some { scheduled with request }

/-- `_schedule_partition_if_ready` with `_create_attempt_after_admission`. -/
def schedulePartitionIfReady (executionClass : Option FteTaskExecutionClass := none) :
    Py FteFragmentExecution (Option ScheduledAttempt) := do
  let self ← Py.get
  match self.partitions.find? partitionId with
  | none => return none
  | some p =>
    let ready ← Py.lift (readyToSchedule p)
    if ready ∧ matchesExecutionClass p executionClass ∧ env.admitAttempt p ∧ ¬env.reserves then
      startAttemptWithWorker env partitionId
    else
      return none

def updateCommands (running : RunningAttempt) (update : PartitionUpdate) (added : List FteSplit)
    (markedNoMore : Bool) : List WorkerCommand :=
  (splitUpdateBatches env added [] 0).map
      (.addSplits running.workerId running.attemptId update.sourceNodeId) ++
    if markedNoMore then [.noMoreSplits running.workerId running.attemptId update.sourceNodeId]
    else []

def appendUpdate : Py FteTaskPartition (List FteSplit × Bool) := do
  let added ← Py.zoom FteTaskPartition.descriptor (fun descriptor p => { p with descriptor })
    (TaskDescriptor.appendSplits update.sourceNodeId update.splits)
  if update.noMoreSplits then
    let marked ← Py.zoom FteTaskPartition.descriptor (fun descriptor p => { p with descriptor })
      (TaskDescriptor.markNoMoreSplits update.sourceNodeId)
    return (added, marked)
  else
    return (added, false)

def updatePartitionLocked : Py FteFragmentExecution Bool := do
  addPartition update.partitionId none
  let p ← Py.read (·.partition? update.partitionId)
  let running ← Py.lift p.runningAttempt
  let (added, markedNoMore) ← onPartition update.partitionId (appendUpdate update)
  match running with
  | none =>
    if ¬p.finished ∧ ¬p.failed ∧
        (update.readyForScheduling ∨ update.noMoreSplits ∨ p.isSealed) then
      markPartitionReady env update.partitionId
    else
      return false
  | some running =>
    Py.modify fun self =>
      (updateCommands env running update added markedNoMore).foldl
        (fun self command => self.recordWorkerCommand command) self
    return false

def updatePartition : Py FteFragmentExecution (Option ScheduledAttempt) := do
  let shouldSchedule ← updatePartitionLocked env update
  if shouldSchedule then
    schedulePartitionIfReady env update.partitionId
  else
    return none

def sealPartitionLocked : Py FteFragmentExecution Bool := do
  addPartition partitionId none
  let oldClass ← onPartition partitionId FteTaskPartition.markSealed
  let p ← Py.read (·.partition? partitionId)
  if oldClass.isSome then
    Py.lift (env.emitTransition p)
  let running ← Py.lift p.runningAttempt
  if running.isNone ∧ ¬p.finished ∧ ¬p.failed then
    markPartitionReady env partitionId
  else
    return false

def sealPartition : Py FteFragmentExecution (Option ScheduledAttempt) := do
  let shouldSchedule ← sealPartitionLocked env partitionId
  if shouldSchedule then
    schedulePartitionIfReady env partitionId
  else
    return none

def collecting (body : Py FteFragmentExecution Unit) :
    Py FteFragmentExecution (List WorkerCommand) := do
  let self ← Py.get
  Py.modify fun self => { self with currentWorkerCommands := some [] }
  body.onError (Py.modify fun s => { s with currentWorkerCommands := self.currentWorkerCommands })
  let done ← Py.get
  Py.modify fun s => { s with currentWorkerCommands := self.currentWorkerCommands }
  return done.currentWorkerCommands.getD []

def applyAssignmentResult (result : AssignmentResult) :
    Py FteFragmentExecution (List WorkerCommand) :=
  collecting do
    Py.forEach result.partitionsAdded fun info =>
      addPartition info.partitionId info.nodeRequirements
    let updates ← Py.lift (coalescePartitionUpdates result.partitionUpdates)
    Py.forEach updates fun update => do
      let _ ← updatePartition env update
      return ⟨⟩
    Py.forEach result.sealedPartitions fun partitionId => do
      let _ ← sealPartition env partitionId
      return ⟨⟩
    Py.modify fun self => { self with
      noMorePartitions := self.noMorePartitions || result.noMorePartitions }

def updateTask (update : FteTaskUpdateRequest) : Py FteFragmentExecution Unit := do
  addPartition partitionId none
  let changed ← onPartition partitionId
    (Py.zoom FteTaskPartition.descriptor (fun descriptor p => { p with descriptor })
      (TaskDescriptor.applyTaskUpdate update))
  if changed then
    let p ← Py.read (·.partition? partitionId)
    let running ← Py.lift p.runningAttempt
    match running with
    | none => return ⟨⟩
    | some running =>
      Py.modify (recordWorkerCommand (.taskUpdate running.workerId running.attemptId update))

def applyTaskUpdate (update : FteTaskUpdateRequest) :
    Py FteFragmentExecution (List WorkerCommand) :=
  collecting (updateTask partitionId update)

def abortSink (attemptNumber : ℕ) : Py FteFragmentExecution Unit := do
  match p.sinkHandle with
  | none => return ⟨⟩
  | some handle =>
    let _ ← onExchange (FteExchangeTracker.sinkAborted handle attemptNumber)
    return ⟨⟩

def finishSink (attemptNumber : ℕ) : Py FteFragmentExecution Unit := do
  match p.sinkHandle with
  | none => return ⟨⟩
  | some handle =>
    let _ ← onExchange (FteExchangeTracker.sinkFinished handle attemptNumber)
    return ⟨⟩

/-- What `task_failed` does to the partition of a failed attempt: whether it is to be retried. -/
def settleFailure (error : Failure) (ready : Bool) : Py FteTaskPartition Bool := do
  let p ← Py.get
  if ready ∧ error.isMemoryFailure then
    Py.modify fun p => { p with
      failed := true
      readyForScheduling := false
      executionReadyDeferred := false
      runningAttempts := ∅ }
    return false
  else if ready then
    if ¬p.isSealed ∧ p.executionClass.isSpeculative then
      Py.modify fun p => { p with readyForScheduling := false, executionReadyDeferred := false }
      return false
    else
      Py.modify FteTaskPartition.markReadyForExecution
      return true
  else
    return false

def taskFailed (error : Failure) (retryable scheduleRetry : Bool) :
    Py FteFragmentExecution (Option ScheduledAttempt) := do
  let partitionId := attempt.taskId.partitionId
  let p ← Py.read (·.partition? partitionId)
  -- the exchange is told before the partition is asked
  abortSink p attempt.attemptId
  let ready ← onPartition partitionId
    (FteTaskPartition.markAttemptFailed attempt error (retryable && error.allowsRetry))
  let shouldSchedule ← onPartition partitionId (settleFailure error ready)
  Py.modify fun self => { self with
    failed := self.failed || (self.partitions.find? partitionId).any (·.failed) }
  if shouldSchedule ∧ scheduleRetry then
    schedulePartitionIfReady env partitionId
  else
    return none

def taskFinished (outputStats : Option Stats) : Py FteFragmentExecution Bool := do
  let partitionId := attempt.taskId.partitionId
  let p ← Py.read (·.partition? partitionId)
  let losers := p.runningAttempts.values.filter (·.attemptId.attemptId ≠ attempt.attemptId)
  let changed ← onPartition partitionId (FteTaskPartition.markAttemptFinished attempt outputStats)
  if changed then
    Py.forEach losers fun loser => abortSink p loser.attemptId.attemptId
    finishSink p attempt.attemptId
    Py.forEach losers fun loser => Py.lift (env.cancelTask loser)
  return changed

/-- A status that a worker reports; its state is `none` for `UNKNOWN`. -/
structure AttemptStatus where
  attemptId : FteTaskAttemptId
  state : Option FteTaskState
  progress : Dict String String := ∅
  taskStats : Option (Dict String String) := none
  outputStats : Option Stats := none
  failure : Failure := { text := "" }

def AttemptStatus.statsOfOutput (status : AttemptStatus) : Option Stats :=
  Stats.select status.taskStats status.outputStats

def AttemptStatus.runningStats (status : AttemptStatus) : Dict String String :=
  (status.taskStats.getD ∅).updateAll status.progress

def missingOutputStatsFailure : Failure where
  text := "MISSING_SPOOLING_OUTPUT_STATS Treating FINISHED task " ++ attempt.text ++
    " as FAILED because spooling output stats are missing"

def requiresFinishOutputStats (self : FteFragmentExecution) (p : FteTaskPartition) :
    Except PyError Bool :=
  if self.exchange.isSome ∨ p.sinkHandle.isSome ∨ p.descriptor.exchangeSinkInstance.isSome then
    .ok true
  else do
    let running ← p.runningAttempt
    return running.any (·.sinkInstance.isSome)

def statusFails (self : FteFragmentExecution) (status : AttemptStatus) : Except PyError Bool := do
  match status.state with
  | some .finished =>
    let p ← self.partition? status.attemptId.taskId.partitionId
    if status.statsOfOutput.isSome then
      return false
    else
      self.requiresFinishOutputStats p
  | some .failed => return true
  | some .canceled => return true
  | some .aborted => return true
  | _ => return false

def handleTaskStatus (status : AttemptStatus) (retryable scheduleRetry : Bool) :
    Py FteFragmentExecution (Option ScheduledAttempt) := do
  let attempt := status.attemptId
  let self ← Py.get
  if status.state.isSome ∧ status.runningStats.entries ≠ [] ∧
      self.partitions.contains attempt.taskId.partitionId then
    let _ ← onPartition attempt.taskId.partitionId
      (FteTaskPartition.updateRunningTaskStats attempt status.runningStats)
  let self ← Py.get
  let fails ← Py.lift (self.statusFails status)
  if fails then
    if status.state = some .finished then
      taskFailed env attempt (missingOutputStatsFailure attempt) retryable scheduleRetry
    else
      taskFailed env attempt status.failure (retryable && status.state = some .failed) scheduleRetry
  else if status.state = some .finished then
    let _ ← taskFinished env attempt status.statsOfOutput
    return none
  else
    return none

def revocable (workerId : Option String) (p : FteTaskPartition) : List RunningAttempt :=
  if p.finished ∨ p.failed ∨ ¬p.executionClass.isSpeculative then
    []
  else
    (p.runningAttempts.values.sortBy (·.attemptId.attemptId)).filter fun running =>
      workerId.all (running.workerId.getD "" = ·)

def revokeOne (running : RunningAttempt) (reason : Failure) : Py FteFragmentExecution Bool := do
  let p ← Py.read (·.partition? partitionId)
  Py.lift (env.cancelTask running)
  abortSink p running.attemptId.attemptId
  let revoked ← onPartition partitionId (FteTaskPartition.revokeAttempt running.attemptId reason)
  Py.modify fun self => { self with
    failed := self.failed || (self.partitions.find? partitionId).any (·.failed) }
  return revoked.isSome

def revokeEach (reason : Failure) :
    List (ℕ × RunningAttempt) → Option ℕ → Py FteFragmentExecution Unit
  | [], _ => return ⟨⟩
  | (partitionId, running) :: rest, limit =>
    if limit = some 0 then
      return ⟨⟩
    else do
      let revoked ← revokeOne env partitionId running reason
      revokeEach reason rest (if revoked then limit.map (· - 1) else limit)

def revokeSpeculativeAttempts (workerId : Option String) (maxCount : Option ℕ)
    (reason : Failure) : Py FteFragmentExecution Unit := do
  let self ← Py.get
  revokeEach env reason (self.partitions.entries.flatMap fun entry =>
    (revocable workerId entry.2).map (entry.1, ·)) maxCount

/-- `mark_worker_failed`; `retryable` is asked for each partition. -/
def markWorkerFailed (workerId : String) (error : Failure) (retryable : ℕ → Bool)
    (scheduleRetries : Bool) : Py FteFragmentExecution Unit := do
  let self ← Py.get
  let failedAttempts := self.partitions.values.flatMap fun p =>
    (p.runningAttempts.values.filter (·.workerId = some workerId)).map fun running =>
      (running.attemptId, p.taskId.partitionId)
  Py.forEach failedAttempts fun (attempt, partitionId) => do
    let _ ← taskFailed env attempt error (retryable partitionId) scheduleRetries
    return ⟨⟩

def scheduleFirst (executionClass : Option FteTaskExecutionClass) :
    List ℕ → Py FteFragmentExecution (Option ScheduledAttempt)
  | [] => return none
  | partitionId :: rest => do
    match ← schedulePartitionIfReady env partitionId executionClass with
    | some attempt => return some attempt
    | none => scheduleFirst executionClass rest

def scheduleNextPendingPartition : Py FteFragmentExecution (Option ScheduledAttempt) := do
  let self ← Py.get
  scheduleFirst env executionClass ((self.partitions.values.map (·.taskId.partitionId)).sortBy id)

def releaseDeferred (partitionId : ℕ) : Py FteFragmentExecution Unit := do
  let p ← Py.read (·.partition? partitionId)
  if p.executionReadyDeferred then
    let running ← Py.lift p.runningAttempt
    if running.isSome ∨ p.finished ∨ p.failed then
      onPartition partitionId (Py.modify fun p => { p with executionReadyDeferred := false })
    else if matchesExecutionClass p executionClass then
      let ready ← markPartitionReady env partitionId
      if ready then
        let _ ← Py.lift p.nextAttemptNumber
        return ⟨⟩

def releaseDeferredExecutionPartitions : Py FteFragmentExecution Unit := do
  let self ← Py.get
  Py.forEach ((self.partitions.values.map (·.taskId.partitionId)).sortBy id)
    (releaseDeferred env executionClass)

def setExecutionClass (new : FteTaskExecutionClass) : Py FteFragmentExecution Unit := do
  let self ← Py.get
  Py.lift (raiseIf (self.executionClass ≠ new ∧ ¬self.executionClass.canTransitionTo new)
    (.valueError ("cannot change fragment execution " ++ self.queryId ++ "/" ++ self.fragmentId ++
      " execution class from " ++ self.executionClass.value ++ " to " ++ new.value)))
  Py.modify fun self => { self with executionClass := new }
  Py.forEach self.partitions.entries fun (partitionId, p) =>
    if p.finished ∨ p.failed then
      return ⟨⟩
    else do
      let _ ← onPartition partitionId (FteTaskPartition.setExecutionClass new)
      return ⟨⟩

def popWorkerCommands : Py FteFragmentExecution (List WorkerCommand) := do
  let self ← Py.get
  Py.modify fun self => { self with workerCommandOutbox := [] }
  return self.workerCommandOutbox

end Scheduling

end FteFragmentExecution

end Vane
