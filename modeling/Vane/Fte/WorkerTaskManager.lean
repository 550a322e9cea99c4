import Vane.Fte.TaskExecution

/-!
This module contains the task manager of a worker. An execution is known by its position among all
that were created.
-/

namespace Vane

open Except (raiseIf)

structure FteWorkerAdmissionConfig where
  maxRunningTasks : ℕ
  memoryBudgetBytes : ℕ
  maxRunningTasks_pos : 0 < maxRunningTasks
  memoryBudgetBytes_pos : 0 < memoryBudgetBytes

structure FteWorkerTaskManager where
  admissionConfig : FteWorkerAdmissionConfig
  executions : List FteTaskExecution := []
  tasks : Dict FteTaskAttemptId ℕ := ∅
  queryTasks : Dict String (List FteTaskAttemptId) := ∅
  runningTasks : Finset FteTaskAttemptId := ∅
  queuedTasks : List FteTaskAttemptId := []
  droppedTaskStatuses : Dict FteTaskAttemptId TaskStatus := ∅
  droppedTaskOrder : List FteTaskAttemptId := []
  maxDroppedTaskStatuses : ℕ := 4096
  isShutdown : Bool := false

namespace FteWorkerTaskManager

variable (self : FteWorkerTaskManager) (key : FteTaskAttemptId)
  (cancelRaises : FteTaskAttemptId → Bool)

def execution? : Option FteTaskExecution := (self.tasks.find? key).bind fun i => self.executions[i]?

def modifyExecution (i : ℕ) (f : FteTaskExecution → FteTaskExecution) (self : FteWorkerTaskManager) :
    FteWorkerTaskManager :=
  { self with executions := self.executions.modify i f }

def memoryOf : ℕ := ((self.execution? key).map FteTaskExecution.memoryRequirementBytes).getD 0

def runningMemoryRequirementBytes : ℕ := ∑ key ∈ self.runningTasks, self.memoryOf key

def capacityBlockReason (execution : FteTaskExecution) : String :=
  if self.admissionConfig.maxRunningTasks ≤ self.runningTasks.card then
    "max_running_tasks"
  else if self.runningMemoryRequirementBytes + execution.memoryRequirementBytes ≤
      self.admissionConfig.memoryBudgetBytes then
    ""
  else
    "memory_budget"

def startExecution (i : ℕ) (execution : FteTaskExecution) (self : FteWorkerTaskManager) :
    FteWorkerTaskManager :=
  if execution.status.state.isTerminal then
    self
  else
    { self with runningTasks := insert execution.taskId self.runningTasks }.modifyExecution i
      fun execution => execution.start.addDoneCallback

def admitOrQueue (i : ℕ) (execution : FteTaskExecution) (self : FteWorkerTaskManager) :
    FteWorkerTaskManager :=
  let key := execution.taskId
  if key ∈ self.runningTasks ∨ execution.status.state.isTerminal then
    self
  else if self.capacityBlockReason execution = "" then
    self.startExecution i execution
  else
    { self with
      queuedTasks := if key ∈ self.queuedTasks then self.queuedTasks else self.queuedTasks ++ [key]
      }.modifyExecution i FteTaskExecution.enqueue

def drainEach : List FteTaskAttemptId → FteWorkerTaskManager → FteWorkerTaskManager
  | [], self => { self with queuedTasks := [] }
  | key :: rest, self =>
    match self.tasks.find? key, self.execution? key with
    | some i, some execution =>
      if execution.status.state.isTerminal then
        drainEach rest self
      else if self.capacityBlockReason execution ≠ "" then
        { self with queuedTasks := key :: rest }
      else
        drainEach rest (self.startExecution i execution)
    | _, _ => drainEach rest self

def drainQueue : FteWorkerTaskManager :=
  if self.isShutdown then { self with queuedTasks := [] } else drainEach self.queuedTasks self

def taskDone (self : FteWorkerTaskManager) : FteWorkerTaskManager :=
  { self with runningTasks := self.runningTasks.erase key }.drainQueue

def forgetDroppedStatus (self : FteWorkerTaskManager) : FteWorkerTaskManager :=
  { self with
    droppedTaskStatuses := self.droppedTaskStatuses.erase key
    droppedTaskOrder := self.droppedTaskOrder.erase key }

def createTask (request : CreateTaskRequest) (memoryRequirementBytes : ℕ) :
    Py FteWorkerTaskManager Unit := do
  let self ← Py.get
  Py.lift (raiseIf self.isShutdown (.runtimeError "FTE worker task manager is shut down"))
  let execution ← Py.lift (FteTaskExecution.new request memoryRequirementBytes)
  let key := execution.taskId
  if (self.execution? key).isSome then
    return ⟨⟩
  else
    Py.lift (raiseIf (self.admissionConfig.memoryBudgetBytes < execution.memoryRequirementBytes)
      (.runtimeError ("FTE task " ++ key.text ++ " heap " ++
        toString execution.memoryRequirementBytes ++ " exceeds worker task-heap capacity " ++
        toString self.admissionConfig.memoryBudgetBytes)))
    Py.modify (forgetDroppedStatus key)
    Py.modify fun self => { self with
      executions := self.executions ++ [execution]
      tasks := self.tasks.insert key self.executions.length
      queryTasks := self.queryTasks.update key.taskId.queryId []
        fun keys => if key ∈ keys then keys else keys ++ [key] }
    Py.modify (admitOrQueue self.executions.length execution)

def storeDroppedStatus (status : TaskStatus) (self : FteWorkerTaskManager) : FteWorkerTaskManager :=
  let order := if self.droppedTaskStatuses.contains key then self.droppedTaskOrder
    else self.droppedTaskOrder ++ [key]
  let stale := order.take (order.length - self.maxDroppedTaskStatuses)
  { self with
    droppedTaskStatuses := stale.foldl Dict.erase (self.droppedTaskStatuses.insert key status)
    droppedTaskOrder := order.drop (order.length - self.maxDroppedTaskStatuses) }

/-- `execution.cancel()`; the cancellation of a native queue may raise before anything else happens. -/
def cancelExecution (i : ℕ) (cancelRaises : Bool) : Py FteWorkerTaskManager Unit := do
  Py.lift (raiseIf cancelRaises (.runtimeError "native split queue"))
  Py.modify (modifyExecution i (FteTaskExecution.transition .canceled))

def cancelTask (cancelRaises : Bool) : Py FteWorkerTaskManager Unit := do
  let self ← Py.get
  match self.tasks.find? key with
  | none =>
    Py.lift (raiseIf (¬self.droppedTaskStatuses.contains key)
      (.keyError ("unknown FTE task attempt: " ++ key.text)))
  | some i =>
    Py.modify fun self => { self with queuedTasks := self.queuedTasks.erase key }
    cancelExecution i cancelRaises
    Py.modify fun self => { self with runningTasks := self.runningTasks.erase key }
    Py.modify drainQueue

def removeTask (self : FteWorkerTaskManager) : FteWorkerTaskManager :=
  { self with
    tasks := self.tasks.erase key
    runningTasks := self.runningTasks.erase key }

def dropTask (queryId : String) (cancelRaises : FteTaskAttemptId → Bool)
    (key : FteTaskAttemptId) (self : FteWorkerTaskManager) : FteWorkerTaskManager :=
  match self.tasks.find? key, self.execution? key with
  | some i, some execution =>
    let self := { self with queuedTasks := self.queuedTasks.erase key }
    if ¬execution.status.state.isTerminal ∧ cancelRaises key then
      self
    else
      let self := self.modifyExecution i (FteTaskExecution.transition .canceled)
      let self := self.storeDroppedStatus key (execution.transition .canceled).status
      { self.removeTask key with
        queryTasks := self.queryTasks.update queryId [] (·.erase key) }
  | _, _ => { self with queryTasks := self.queryTasks.update queryId [] (·.erase key) }

def failedCancellations (keys : List FteTaskAttemptId) : List String :=
  (keys.filter fun key => cancelRaises key ∧
    (self.execution? key).any fun execution => ¬execution.status.state.isTerminal).map fun key =>
      "task=" ++ key.text ++ ": RuntimeError: native split queue"

def forgetQuery (queryId : String) (self : FteWorkerTaskManager) : FteWorkerTaskManager :=
  if self.queryTasks.findD queryId [] = [] then
    { self with queryTasks := self.queryTasks.erase queryId }
  else
    self

def dropQuery (queryId : String) (cancelRaises : FteTaskAttemptId → Bool) :
    Py FteWorkerTaskManager Unit := do
  let self ← Py.get
  let keys := self.queryTasks.findD queryId []
  let failed := self.failedCancellations cancelRaises keys
  Py.modify fun self => keys.foldl (fun self key => dropTask queryId cancelRaises key self) self
  Py.modify (forgetQuery queryId)
  Py.modify drainQueue
  Py.lift (raiseIf (failed ≠ []) (.runtimeError ("failed to fully drop FTE query " ++ queryId ++
    "; retained failed task ownership: " ++ "; ".intercalate failed)))

def shutdownTask (key : FteTaskAttemptId) (self : FteWorkerTaskManager) : FteWorkerTaskManager :=
  match self.tasks.find? key, self.execution? key with
  | some i, some execution =>
    if ¬execution.status.state.isTerminal ∧ cancelRaises key then
      self
    else
      (self.modifyExecution i (FteTaskExecution.transition .canceled)).removeTask key
  | _, _ => self

def shutdown : Py FteWorkerTaskManager Unit := do
  let self ← Py.get
  let failed := self.failedCancellations cancelRaises self.tasks.keys
  Py.modify fun self => { self with isShutdown := true, queuedTasks := [] }
  Py.modify fun self => self.tasks.keys.foldl (fun self key => shutdownTask cancelRaises key self) self
  Py.modify fun self => { self with queryTasks := ∅ }
  Py.lift (raiseIf (failed ≠ [])
    (.runtimeError ("failed to cancel all FTE tasks during worker shutdown: " ++
      "; ".intercalate failed)))

end FteWorkerTaskManager

end Vane
