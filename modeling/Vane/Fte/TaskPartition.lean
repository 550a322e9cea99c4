import Vane.Fte.SplitAssigner
import Vane.Fte.TaskDescriptor

/-! This module contains a task partition and the attempts that were made to run its task. -/

namespace Vane

open Except (raiseIf)

structure Failure where
  text : String
  allowsRetry : Bool := true
  deriving DecidableEq

namespace Failure

def isMemoryFailure (failure : Failure) : Bool :=
  ["out_of_memory", "out of memory", "oom", "memory limit", "exceeded_local_memory"].any fun token =>
    token.toList <:+: failure.text.toList.map Char.toLower

end Failure

inductive Stats where
  | mapping (values : Dict String String)
  | other (text : String)
  deriving DecidableEq

namespace Stats

def select (taskStats : Option (Dict String String)) (outputStats : Option Stats) : Option Stats :=
  match taskStats, outputStats with
  | some values, some (.mapping output) => some (.mapping (values.updateAll output))
  | _, some output => some output
  | taskStats, none => taskStats.map .mapping

end Stats

structure RunningAttempt where
  attemptId : FteTaskAttemptId
  workerId : Option String
  sinkInstance : Option SinkInstance
  deriving DecidableEq

structure ScheduledAttempt where
  attemptId : FteTaskAttemptId
  request : CreateTaskRequest
  workerId : Option String

structure RevokedAttempt where
  attemptId : FteTaskAttemptId
  workerId : Option String
  retryReady : Bool
  deriving DecidableEq

structure FinishedAttempt where
  attemptId : FteTaskAttemptId
  sinkInstance : Option SinkInstance
  outputStats : Option Stats
  deriving DecidableEq

structure FteTaskPartition where
  taskId : FteTaskId
  descriptor : TaskDescriptor
  maxAttempts : ℕ
  remainingAttempts : ℕ
  sinkHandle : Option ExchangeSinkHandle := none
  nodeRequirements : Option NodeRequirements := none
  memoryRequirementBytes : Option ℕ := none
  executionClass : FteTaskExecutionClass := .standard
  isSealed : Bool
  finished : Bool := false
  failed : Bool := false
  failureObserved : Bool := false
  runningAttempts : Dict ℕ RunningAttempt := ∅
  runningTaskStats : Dict ℕ (Dict String String) := ∅
  selectedAttempt : Option ℕ := none
  finishedAttempts : Dict ℕ FinishedAttempt := ∅
  selectedOutputStats : Option Stats := none
  failures : List Failure := []
  readyForScheduling : Bool
  executionReadyDeferred : Bool := false

namespace FteTaskPartition

variable (p : FteTaskPartition) (attempt : FteTaskAttemptId)

def new (taskId : FteTaskId) (descriptor : TaskDescriptor) (maxAttempts : ℤ := 4)
    (sinkHandle : Option ExchangeSinkHandle := none)
    (nodeRequirements : Option NodeRequirements := none) (memoryRequirementBytes : Option ℤ := none)
    (executionClass : FteTaskExecutionClass := .standard) : Except PyError FteTaskPartition := do
  raiseIf (maxAttempts ≤ 0) (.valueError "max_attempts must be positive")
  raiseIf (descriptor.taskId ≠ taskId) (.valueError "descriptor task_id does not match partition")
  return {
    taskId
    descriptor
    maxAttempts := maxAttempts.toNat
    remainingAttempts := maxAttempts.toNat
    sinkHandle
    nodeRequirements
    memoryRequirementBytes := memoryRequirementBytes.map Int.toNat
    executionClass
    isSealed := descriptor.isSealed
    readyForScheduling := descriptor.isSealed }

def runningAttempt : Except PyError (Option RunningAttempt) :=
  match p.runningAttempts.values with
  | [] => .ok none
  | [running] => .ok (some running)
  | _ => .error (.runtimeError ("partition " ++ p.taskId.text ++ " has multiple running attempts"))

def nextAttemptNumber : Except PyError ℕ := do
  raiseIf (p.remainingAttempts = 0)
    (.runtimeError ("partition " ++ p.taskId.text ++ " has no attempts remaining"))
  return p.maxAttempts - p.remainingAttempts

def startAttempt (sinkInstance : Option SinkInstance) (workerId : Option String) :
    Py FteTaskPartition ScheduledAttempt := do
  let p ← Py.get
  Py.lift (raiseIf (p.finished ∨ p.failed)
    (.runtimeError ("cannot schedule terminal partition " ++ p.taskId.text)))
  Py.lift (raiseIf (p.runningAttempts.entries ≠ [])
    (.runtimeError ("partition " ++ p.taskId.text ++ " already has a running attempt")))
  let attemptNumber ← Py.lift p.nextAttemptNumber
  let attemptId := ⟨p.taskId, attemptNumber⟩
  let request := { p.descriptor.toCreateTaskRequest attemptNumber sinkInstance with
    memoryRequirementBytes := p.memoryRequirementBytes
    executionClass := p.executionClass }
  Py.modify fun p => { p with
    executionReadyDeferred := false
    runningAttempts := p.runningAttempts.insert attemptNumber { attemptId, workerId, sinkInstance }
    runningTaskStats := p.runningTaskStats.erase attemptNumber }
  return { attemptId, request, workerId }

def markReadyForExecution : FteTaskPartition :=
  { p with readyForScheduling := true, executionReadyDeferred := false }

def deferReadyForExecution : FteTaskPartition :=
  if p.finished ∨ p.failed ∨ p.runningAttempts.entries ≠ [] then
    p
  else
    { p with readyForScheduling := false, executionReadyDeferred := true }

/-- `seal`. The answer is the class that a speculative partition leaves. -/
def markSealed : Py FteTaskPartition (Option FteTaskExecutionClass) := do
  let p ← Py.get
  Py.lift (raiseIf (p.finished ∨ p.failed)
    (.runtimeError ("cannot seal terminal partition " ++ p.taskId.text)))
  Py.modify fun p => { p with
    isSealed := true
    descriptor := { p.descriptor with isSealed := true } }
  if p.executionClass.isSpeculative then
    Py.modify fun p => markReadyForExecution { p with executionClass := .standard }
    return some p.executionClass
  else
    Py.modify markReadyForExecution
    return none

def setExecutionClass (new : FteTaskExecutionClass) : Py FteTaskPartition Bool := do
  let p ← Py.get
  if p.executionClass = new then
    return false
  else
    Py.lift (raiseIf (¬p.executionClass.canTransitionTo new)
      (.valueError ("cannot change partition " ++ p.taskId.text ++ " execution class from " ++
        p.executionClass.value ++ " to " ++ new.value)))
    Py.modify fun p => { p with executionClass := new }
    return true

def validateAttemptTask : Except PyError Unit :=
  raiseIf (attempt.taskId ≠ p.taskId) (.valueError "attempt task_id does not match partition")

def markAttemptFinished (outputStats : Option Stats) : Py FteTaskPartition Bool := do
  let p ← Py.get
  Py.lift (p.validateAttemptTask attempt)
  match p.runningAttempts.find? attempt.attemptId with
  | none => return false
  | some running =>
    let selected := Stats.select (p.runningTaskStats.find? attempt.attemptId) outputStats
    Py.modify fun p => { p with
      finished := true
      failed := false
      selectedAttempt := some attempt.attemptId
      selectedOutputStats := selected
      finishedAttempts := p.finishedAttempts.insert attempt.attemptId
        ⟨attempt, running.sinkInstance, selected⟩
      runningAttempts := ∅
      runningTaskStats := ∅ }
    return true

def loseAttempt (attemptNumber : ℕ) (error : Failure) : FteTaskPartition :=
  { p with
    runningAttempts := p.runningAttempts.erase attemptNumber
    failureObserved := true
    failures := p.failures ++ [error]
    remainingAttempts := p.remainingAttempts - 1 }

def markAttemptFailed (error : Failure) (retryable : Bool) : Py FteTaskPartition Bool := do
  let p ← Py.get
  Py.lift (p.validateAttemptTask attempt)
  if p.finished then
    return false
  else
    match p.runningAttempts.find? attempt.attemptId with
    | none => return false
    | some _ =>
      Py.modify fun p => { p.loseAttempt attempt.attemptId error with
        runningTaskStats := p.runningTaskStats.erase attempt.attemptId }
      if retryable ∧ 0 < p.remainingAttempts - 1 then
        return true
      else
        Py.modify fun p => { p with failed := true }
        return false

def updateRunningTaskStats (taskStats : Dict String String) : Py FteTaskPartition Bool := do
  let p ← Py.get
  Py.lift (p.validateAttemptTask attempt)
  if p.runningAttempts.contains attempt.attemptId then
    Py.modify fun p => { p with
      runningTaskStats := p.runningTaskStats.insert attempt.attemptId taskStats }
    return true
  else
    return false

def revokeAttempt (error : Failure) : Py FteTaskPartition (Option RevokedAttempt) := do
  let p ← Py.get
  Py.lift (p.validateAttemptTask attempt)
  if p.finished then
    return none
  else
    match p.runningAttempts.find? attempt.attemptId with
    | none => return none
    | some running =>
      Py.modify fun p => p.loseAttempt attempt.attemptId error
      if p.remainingAttempts - 1 = 0 then
        Py.modify fun p => { p with failed := true, readyForScheduling := false }
        return some ⟨attempt, running.workerId, false⟩
      else
        Py.modify fun p => { p with readyForScheduling := p.isSealed }
        return some ⟨attempt, running.workerId, p.isSealed⟩

end FteTaskPartition

end Vane
