import Vane.Lib.Calls
import Vane.Lib.Dict
import Vane.Lib.Py

/-!
This module contains the event loop of a query, in critical sections that calls may come between.
-/

namespace Vane

inductive FteEventKind where
  | splitEventsSubmitted
  | sourceInputExhausted
  | taskStatusChanged
  | workerFailed
  | memoryPressureDetected
  | resourceAdmissionChanged (executionClass : Option String) (internal : Bool)
  | workerReservationCompleted
  | retryDelayExpired (generation : ℕ)
  | exchangeSelectorUpdated
  | queryAbort
  deriving DecidableEq

structure FteEvent where
  queryId : String
  kind : FteEventKind
  deriving DecidableEq

structure QueuedEvent where
  event : FteEvent
  isPriority : Bool
  ticket : ℕ
  deriving DecidableEq

def QueuedEvent.isAbort (queued : QueuedEvent) : Bool := queued.event.kind = .queryAbort

structure FteTaskSourceRegistration where
  hasPause : Bool
  hasResume : Bool
  highWatermark : ℕ
  lowWatermark : ℕ
  paused : Bool := false
  low_lt_high : lowWatermark < highWatermark

namespace FteTaskSourceRegistration

def ofWatermarks (hasPause hasResume : Bool) (highWatermark : ℤ) (lowWatermark : Option ℤ) :
    FteTaskSourceRegistration :=
  let high := max 1 highWatermark.toNat
  let low := (lowWatermark.map Int.toNat).getD (high / 2)
  { hasPause, hasResume
    highWatermark := high
    lowWatermark := min low (high - 1)
    low_lt_high := by omega }

end FteTaskSourceRegistration

inductive FteSchedulerState where
  | running
  | failed
  | aborted
  | closed
  deriving DecidableEq

structure FteQueryScheduler where
  queryId : String
  events : List QueuedEvent := []
  state : FteSchedulerState := .running
  failureReason : Option String := none
  retryDelayGeneration : ℕ := 0
  retryDelayTimer : Option ℕ := none
  draining : Bool := false
  queuedInternalAdmissionClasses : List (Option String) := []
  taskSources : Dict String FteTaskSourceRegistration := ∅
  accepted : ℕ := 0

namespace FteQueryScheduler

variable (event : FteEvent) (self : FteQueryScheduler)

/-! The critical sections, with the sources whose callbacks are run after the section. -/

def pauseTaskSources : List String × FteQueryScheduler :=
  let pauses (registration : FteTaskSourceRegistration) : Bool :=
    ¬registration.paused ∧ registration.highWatermark ≤ self.events.length
  ((self.taskSources.entries.filter fun entry => pauses entry.2 ∧ entry.2.hasPause).map Prod.fst,
    { self with taskSources := self.taskSources.mapValues fun registration =>
        if pauses registration then { registration with paused := true } else registration })

def resumeTaskSources : List String × FteQueryScheduler :=
  let resumes (registration : FteTaskSourceRegistration) : Bool :=
    registration.paused ∧ self.events.length ≤ registration.lowWatermark
  ((self.taskSources.entries.filter fun entry => resumes entry.2 ∧ entry.2.hasResume).map Prod.fst,
    { self with taskSources := self.taskSources.mapValues fun registration =>
        if resumes registration then { registration with paused := false } else registration })

def registerTaskSource (sourceId : String) (hasPause hasResume : Bool) (highWatermark : ℤ)
    (lowWatermark : Option ℤ) (self : FteQueryScheduler) : FteQueryScheduler :=
  let registration := .ofWatermarks hasPause hasResume highWatermark lowWatermark
  { self with taskSources := self.taskSources.insert sourceId registration }.pauseTaskSources.2

def unregisterTaskSource (sourceId : String) (self : FteQueryScheduler) : FteQueryScheduler :=
  { self with taskSources := self.taskSources.erase sourceId }

def push (priority : Bool) (self : FteQueryScheduler) : FteQueryScheduler :=
  let queued : QueuedEvent := ⟨event, priority, self.accepted⟩
  { self with
    events := if priority then queued :: self.events else self.events ++ [queued]
    accepted := self.accepted + 1 }.pauseTaskSources.2

def internalClass : Option (Option String) :=
  match event.kind with
  | .resourceAdmissionChanged executionClass true => some executionClass
  | _ => none

def Accepts : Prop :=
  event.queryId = self.queryId ∧ (self.state = .running ∨ event.kind = .queryAbort) ∧
    ∀ executionClass ∈ internalClass event, executionClass ∉ self.queuedInternalAdmissionClasses

instance : Decidable (self.Accepts event) := inferInstanceAs (Decidable (_ ∧ _ ∧ _))

def enqueue (priority : Bool) (self : FteQueryScheduler) : FteQueryScheduler :=
  if self.Accepts event then
    { self with queuedInternalAdmissionClasses :=
        (internalClass event).toList ++ self.queuedInternalAdmissionClasses }.push event priority
  else
    self

def release : List String × FteQueryScheduler :=
  { self with draining := false }.resumeTaskSources

def take (queued : QueuedEvent) (events : List QueuedEvent) (self : FteQueryScheduler) :
    FteQueryScheduler :=
  { self with
    events
    queuedInternalAdmissionClasses := self.queuedInternalAdmissionClasses.filter
      (some · ≠ internalClass queued.event) }

def prepare : Bool × FteQueryScheduler :=
  match event.kind with
  | .retryDelayExpired generation =>
    if generation = self.retryDelayGeneration then
      (true, { self with retryDelayTimer := none })
    else
      (false, self)
  | .queryAbort =>
    (true, { self with state := .aborted, events := [], queuedInternalAdmissionClasses := [] })
  | _ => (true, self)

def fail (reason : Option String) (self : FteQueryScheduler) : FteQueryScheduler :=
  if self.state = .closed ∨ self.state = .failed then
    self
  else
    { self with
      state := .failed
      failureReason := some (reason.getD "")
      events := []
      queuedInternalAdmissionClasses := []
      retryDelayTimer := none }.resumeTaskSources.2

def close : FteQueryScheduler :=
  { self with
    state := .closed
    failureReason := none
    events := []
    queuedInternalAdmissionClasses := []
    taskSources := ∅
    retryDelayTimer := none }

def armRetryDelay (hasDelay : Bool) (self : FteQueryScheduler) : FteQueryScheduler :=
  let generation := self.retryDelayGeneration + 1
  { self with
    retryDelayGeneration := generation
    retryDelayTimer := if hasDelay ∧ self.state = .running then some generation else none }

end FteQueryScheduler

/-! The calls of `drain`, which go on in any order. -/

/-- Where a call of `drain` is; a phase that runs callbacks has the sources that they belong to. -/
inductive DrainPhase where
  | looping
  | dequeued (queued : QueuedEvent)
  | handling (queued : QueuedEvent)
  | handled
  | resuming (callbacks : List String)
  | raised
  | unwinding (callbacks : List String)
  | finishing (callbacks : List String)
  | returned
  | failed
  deriving DecidableEq

abbrev SchedulerSystem := Calls FteQueryScheduler DrainPhase

namespace SchedulerSystem

inductive Action where
  | enqueue (event : FteEvent) (priority : Bool)
  | drain
  | advance (i : ℕ) (raises : Bool)
  | fail (reason : Option String)
  | close
  | registerTaskSource (sourceId : String) (hasPause hasResume : Bool) (highWatermark : ℤ)
    (lowWatermark : Option ℤ)
  | unregisterTaskSource (sourceId : String)
  | armRetryDelay (hasDelay : Bool)

inductive Entry where
  | accepted (queued : QueuedEvent)
  | handled (queued : QueuedEvent) (state : FteSchedulerState)
  | released (normally : Bool) (accepted : ℕ)
  deriving DecidableEq

def advance (raises : Bool) (scheduler : FteQueryScheduler) :
    DrainPhase → DrainPhase × FteQueryScheduler
  | .looping =>
    match scheduler.events with
    | [] =>
      let (callbacks, scheduler) := scheduler.release
      (.finishing callbacks, scheduler)
    | queued :: events => (.dequeued queued, scheduler.take queued events)
  | .dequeued queued =>
    let (hasHandler, scheduler) := scheduler.prepare queued.event
    (if hasHandler then .handling queued else .handled, scheduler)
  | .handling _ => (if raises then .raised else .handled, scheduler)
  | .handled =>
    let (callbacks, scheduler) := scheduler.resumeTaskSources
    (.resuming callbacks, scheduler)
  | .resuming callbacks => (if raises ∧ callbacks ≠ [] then .raised else .looping, scheduler)
  | .raised =>
    let (callbacks, scheduler) := scheduler.release
    (.unwinding callbacks, scheduler)
  | .unwinding _ => (.failed, scheduler)
  | .finishing callbacks => (if raises ∧ callbacks ≠ [] then .raised else .returned, scheduler)
  | .returned => (.returned, scheduler)
  | .failed => (.failed, scheduler)

def beginDrain (s : SchedulerSystem) : SchedulerSystem :=
  if s.shared.draining then
    { s with phases := s.phases ++ [.returned] }
  else
    { shared := { s.shared with draining := true }, phases := s.phases ++ [.looping] }

namespace Action

def step : Action → SchedulerSystem → SchedulerSystem
  | enqueue event priority, s => { s with shared := s.shared.enqueue event priority }
  | drain, s => beginDrain s
  | advance i raises, s => s.advanceAt (SchedulerSystem.advance raises) i
  | fail reason, s => { s with shared := s.shared.fail reason }
  | close, s => { s with shared := s.shared.close }
  | registerTaskSource sourceId hasPause hasResume high low, s =>
    { s with shared := s.shared.registerTaskSource sourceId hasPause hasResume high low }
  | unregisterTaskSource sourceId, s =>
    { s with shared := s.shared.unregisterTaskSource sourceId }
  | armRetryDelay hasDelay, s => { s with shared := s.shared.armRetryDelay hasDelay }

def emitPhase (scheduler : FteQueryScheduler) : DrainPhase → List Entry
  | .looping => if scheduler.events = [] then [.released true scheduler.accepted] else []
  | .dequeued queued => [.handled queued scheduler.state]
  | .raised => [.released false scheduler.accepted]
  | _ => []

def emit : Action → SchedulerSystem → List Entry
  | enqueue event priority, s =>
    if s.shared.Accepts event then [.accepted ⟨event, priority, s.shared.accepted⟩] else []
  | advance i _, s => s.emitAt emitPhase i
  | _, _ => []

end Action

end SchedulerSystem

end Vane
