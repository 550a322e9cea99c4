import Vane.Fte.TaskExecution

/-! This module contains the long poll by which the driver watches the status of an attempt. -/

namespace Vane

def FteTaskExecution.shouldWait (self : FteTaskExecution) (minVersion : Option ℕ) : Bool :=
  let minVersion : ℤ := minVersion.elim (-1) fun version => version
  self.status.version ≤ minVersion ∧ ¬self.status.state.isTerminal

structure FteAttemptStatusWatcher where
  minVersion : Option ℕ := none
  delivered : List TaskStatus := []
  hasExited : Bool := false

namespace FteAttemptStatusWatcher

def deliver (status : TaskStatus) (self : FteAttemptStatusWatcher) : FteAttemptStatusWatcher where
  minVersion := some (status.version + 1)
  delivered := self.delivered ++ [status]
  hasExited := status.state.isTerminal

end FteAttemptStatusWatcher

structure WatchedAttempt where
  execution : FteTaskExecution
  droppedStatus : Option TaskStatus := none
  watcher : FteAttemptStatusWatcher := {}
  isWaiting : Bool := false

namespace WatchedAttempt

variable {s : WatchedAttempt}

def status (s : WatchedAttempt) : TaskStatus := s.droppedStatus.getD s.execution.status

def answer (status : TaskStatus) (s : WatchedAttempt) : WatchedAttempt :=
  { s with watcher := s.watcher.deliver status, isWaiting := false }

inductive Event where
  /-- Something happens to the execution; one that was dropped has ended and is not called any more. -/
  | execution (call : FteTaskExecution.Call)
  | dropQuery
  | wait
  | notify
  | waitTimeout
  | softTimeout

namespace Event

def waitTaskStatus (s : WatchedAttempt) : WatchedAttempt :=
  match s.droppedStatus with
  | some status => s.answer status
  | none =>
    if s.execution.shouldWait s.watcher.minVersion then
      { s with isWaiting := true }
    else
      s.answer s.execution.status

def drop (s : WatchedAttempt) : WatchedAttempt :=
  let execution := s.execution.transition .canceled
  { s with execution, droppedStatus := some execution.status }

def step : Event → WatchedAttempt → WatchedAttempt
  | execution call, s =>
    if s.droppedStatus.isSome then s else { s with execution := call.step s.execution }
  | dropQuery, s => if s.droppedStatus.isSome then s else drop s
  | wait, s => if s.watcher.hasExited ∨ s.isWaiting then s else waitTaskStatus s
  | notify, s =>
    if s.isWaiting ∧ ¬s.execution.shouldWait s.watcher.minVersion then
      s.answer s.execution.status
    else
      s
  | waitTimeout, s => if s.isWaiting then s.answer s.execution.status else s
  | softTimeout, s => { s with isWaiting := false }

end Event

structure Watched (s : WatchedAttempt) : Prop where
  minVersion : s.watcher.minVersion = s.watcher.delivered.getLast?.map fun status => status.version + 1
  dropped : ∀ status ∈ s.droppedStatus, status = s.execution.status ∧ status.state.isTerminal

theorem Watched.answer (h : s.Watched) (status : TaskStatus) : (s.answer status).Watched := by
  refine ⟨?_, h.dropped⟩
  show some (status.version + 1) = (s.watcher.delivered ++ [status]).getLast?.map _
  rw [List.getLast?_concat]
  rfl

theorem isTerminal_transition_canceled (e : FteTaskExecution) :
    (e.transition .canceled).status.state.isTerminal := by
  unfold FteTaskExecution.transition
  split
  . next h => exact h
  . rfl

theorem Watched.step (h : s.Watched) (event : Event) : (event.step s).Watched := by
  cases event with
  | execution call =>
    unfold Event.step
    dsimp only
    split
    . exact h
    . next hnone =>
      refine ⟨h.minVersion, ?_⟩
      intro status hstatus
      rw [Option.mem_def.mp hstatus] at hnone
      exact absurd rfl hnone
  | dropQuery =>
    unfold Event.step
    dsimp only
    split
    . exact h
    . refine ⟨h.minVersion, ?_⟩
      rintro status ⟨⟩
      exact ⟨rfl, isTerminal_transition_canceled s.execution⟩
  | wait =>
    unfold Event.step Event.waitTaskStatus
    dsimp only
    split
    . exact h
    . split
      . exact h.answer _
      . split
        . exact ⟨h.minVersion, h.dropped⟩
        . exact h.answer _
  | notify =>
    unfold Event.step
    dsimp only
    split
    . exact h.answer _
    . exact h
  | waitTimeout =>
    unfold Event.step
    dsimp only
    split
    . exact h.answer _
    . exact h
  | softTimeout => exact ⟨h.minVersion, h.dropped⟩

theorem watched_run (e : FteTaskExecution) (events : List Event) :
    (Run.run Event.step events { execution := e }).Watched :=
  Run.run_invariant Watched (fun event _ _ h => h.step event) ⟨rfl, fun _ h => by cases h⟩

def HasNews (s : WatchedAttempt) : Prop :=
  ∀ last ∈ s.watcher.delivered.getLast?, last.version < s.status.version

def IsIdle (s : WatchedAttempt) : Prop := s.watcher.hasExited = false ∧ s.isWaiting = false

/-- A version is told from the one that was asked for: the one right after the last is not enough. -/
def IsAnswered (s : WatchedAttempt) : Prop :=
  s.status.state.isTerminal ∨ ∀ last ∈ s.watcher.delivered.getLast?, last.version + 1 < s.status.version

section

variable (h : s.Watched)

include h

theorem Watched.status_eq : s.status = s.execution.status := by
  unfold status
  cases hdropped : s.droppedStatus with
  | none => rfl
  | some status => exact (h.dropped status hdropped).1

theorem Watched.shouldWait_iff :
    s.execution.shouldWait s.watcher.minVersion = true ↔ ¬s.IsAnswered := by
  unfold FteTaskExecution.shouldWait IsAnswered
  rw [h.minVersion, h.status_eq]
  rw [decide_eq_true_eq]
  cases s.watcher.delivered.getLast? with
  | none =>
    refine ⟨fun hwait => ?_, fun hanswered => ?_⟩
    . have hversion : (s.execution.status.version : ℤ) ≤ -1 := hwait.1
      omega
    . exact absurd (.inr fun _ hlast => by cases hlast) hanswered
  | some last =>
    have hle : (s.execution.status.version : ℤ) ≤ ((last.version + 1 : ℕ) : ℤ) ↔
        ¬∀ last' ∈ some last, last'.version + 1 < s.execution.status.version := by
      simp
      omega
    rw [not_or, ← hle, and_comm]
    rfl

theorem Watched.answered_of_dropped {status : TaskStatus}
    (hdropped : s.droppedStatus = some status) : s.IsAnswered := by
  left
  unfold WatchedAttempt.status
  rw [hdropped]
  exact (h.dropped status hdropped).2

theorem Watched.step_wait (hidle : s.IsIdle) :
    s.IsAnswered ∧ Event.wait.step s = s.answer s.status ∨
      ¬s.IsAnswered ∧ Event.wait.step s = { s with isWaiting := true } := by
  have hstep : Event.wait.step s = Event.waitTaskStatus s := by
    unfold Event.step
    dsimp only
    rw [if_neg]
    simp [hidle.1, hidle.2]
  rw [hstep]
  unfold Event.waitTaskStatus
  split
  . next status hdropped =>
    refine .inl ⟨h.answered_of_dropped hdropped, ?_⟩
    unfold WatchedAttempt.status
    rw [hdropped]
    rfl
  . split
    . next hwait => exact .inr ⟨h.shouldWait_iff.mp hwait, rfl⟩
    . next hwait =>
      refine .inl ⟨not_not.mp fun hanswered => hwait (h.shouldWait_iff.mpr hanswered), ?_⟩
      rw [h.status_eq]

theorem Watched.step_notify (hwaiting : s.isWaiting)
    (hterminal : s.status.state.isTerminal) : Event.notify.step s = s.answer s.status := by
  have hanswered : s.IsAnswered := .inl hterminal
  unfold Event.step
  dsimp only
  rw [if_pos ⟨hwaiting, fun hwait => h.shouldWait_iff.mp hwait hanswered⟩, h.status_eq]

end

def next (s : WatchedAttempt) : Event := if s.isWaiting then .notify else .wait

def Sample.execution : FteTaskExecution where
  taskId := ⟨⟨"q", 0, 0⟩, 0⟩
  initialSplits := ∅
  noMoreSplitSources := ∅
  outputBuffers := none
  dynamicFilterDomains := ∅
  descriptorVersion := 0
  context := ∅
  resourceRequest := ∅
  fragmentPlan := none
  sourceNodeIds := ∅
  dynamicScanSourceIds := ∅
  dynamicExchangeSourceIds := ∅
  seenSequences := ∅
  memoryRequirementBytes := 1

def Sample.events : List Event :=
  [.execution (.transition .queued), .wait, .execution (.transition .running)]

end WatchedAttempt

end Vane
