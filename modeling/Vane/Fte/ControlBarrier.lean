import Vane.Fte.RegistryLifecycle
import Vane.Fte.TaskDescriptor

/-!
This module contains the control operations of a worker handle, and how a teardown waits for them.
-/

namespace Vane

variable (input : ControlInput)

open Except (raiseIf)

structure RawIdentity where
  repr : String
  attempt : Option FteTaskAttemptId

structure ControlStatus where
  taskId : Option RawIdentity := none
  taskIdString : Option RawIdentity := none
  operation : Option String := none
  applied : Bool := false

inductive RefOutcome where
  | raised (description : String)
  | value (status : Option ControlStatus)

structure ControlRef where
  task : FteTaskAttemptId
  operation : String
  previous : Option ℕ
  outcome : Option RefOutcome := none

structure ControlTail where
  ref : ℕ
  queryId : String
  operation : String

namespace ControlStatus

def validateIdentity (status : ControlStatus) (expected : FteTaskAttemptId) :
    Except PyError Unit := do
  let rawIdentities := [("task_id", status.taskId), ("task_id_string", status.taskIdString)].filterMap
    fun (field, raw) => raw.map fun raw => (field, raw)
  raiseIf rawIdentities.isEmpty
    (.valueError ("FTE status identity missing for expected attempt " ++ expected.text))
  for (field, raw) in rawIdentities do
    match raw.attempt with
    | none => throw (.valueError ("FTE status identity is malformed in " ++ field ++ ": " ++ raw.repr))
    | some actual =>
      raiseIf (actual ≠ expected) (.runtimeError ("FTE status identity mismatch: expected=" ++
        expected.text ++ " actual=" ++ actual.text ++ " field=" ++ field))

end ControlStatus

structure BarrierEntry where
  task : FteTaskAttemptId
  ref : ℕ
  operation : String

namespace BarrierEntry

variable (entry : BarrierEntry)

def validate (status : Option ControlStatus) : Except PyError Unit := do
  match status with
  | none => throw (.typeError "FTE result-control barrier status must be a mapping")
  | some status =>
    status.validateIdentity entry.task
    raiseIf (status.operation.getD "" ≠ entry.operation)
      (.runtimeError ("FTE control barrier operation mismatch: task=" ++ entry.task.text ++
        " expected='" ++ entry.operation ++ "' actual=" ++
        (status.operation.map fun name => "'" ++ name ++ "'").getD "None"))
    raiseIf (!status.applied)
      (.runtimeError ("FTE control barrier operation was not applied: task=" ++ entry.task.text ++
        " operation=" ++ entry.operation))

def failure (description : String) : String := "task=" ++ entry.task.text ++ ": " ++ description

end BarrierEntry

structure BarrierResult where
  waitError : Option String := none
  terminal : List BarrierEntry := []
  pending : List BarrierEntry := []
  errors : List String := []

structure TeardownError where
  type : String
  message : String

def TeardownError.describe (e : TeardownError) : String := e.type ++ ": " ++ e.message

def terminalMessage (queryId : String) (failures : List String) : String :=
  "FTE control barrier reached terminal failures for " ++ queryId ++ ": " ++ "; ".intercalate failures

def BarrierResult.error (queryId : String) (r : BarrierResult) : Option TeardownError :=
  if r.pending ≠ [] then
    let details := ("pending=" ++ ",".intercalate (r.pending.map fun entry => entry.task.text)) ::
      (r.waitError.toList.map fun wait => "wait=" ++ wait) ++ r.errors
    some ⟨"FteControlBarrierPendingError",
      "FTE control barrier still has non-terminal operations for " ++ queryId ++ ": " ++
        "; ".intercalate details⟩
  else if r.errors ≠ [] then
    some ⟨"FteControlBarrierTerminalError", terminalMessage queryId r.errors⟩
  else
    none

/-- What `ref.future()` gives. A future may learn late that its reference is done. -/
inductive FutureAccess where
  | given (notified : Bool)
  | missing
  | raises (description : String)

def FutureAccess.isGiven : FutureAccess → Bool
  | given _ => true
  | _ => false

structure BarrierReading where
  rest : List BarrierEntry
  result : BarrierResult
  resolved : List (BarrierEntry × Option ControlStatus) := []

def BarrierReading.read (future : FutureAccess) (outcome : Option RefOutcome) (entry : BarrierEntry)
    (rest : List BarrierEntry) (r : BarrierReading) : BarrierReading :=
  let ended (errors : List String) (resolved : List (BarrierEntry × Option ControlStatus)) :
      BarrierReading :=
    { rest
      result := { r.result with
        terminal := r.result.terminal ++ [entry]
        errors := r.result.errors ++ errors }
      resolved := r.resolved ++ resolved }
  match future, outcome with
  | .missing, _ => ended [entry.failure "control ref has no future()"] []
  | .raises description, _ => ended [entry.failure description] []
  | .given true, some (.raised description) => ended [entry.failure description] []
  | .given true, some (.value status) => ended [] [(entry, status)]
  | .given _, _ => { r with
      rest, result := { r.result with pending := r.result.pending ++ [entry] } }

def BarrierReading.finish (r : BarrierReading) : BarrierResult :=
  { r.result with
    errors := r.result.errors ++ r.resolved.filterMap fun (entry, status) =>
      match entry.validate status with
      | .error e => some (entry.failure e.describe)
      | .ok _ => none }

structure WorkerControls where
  registry : FteRegistry := {}
  refs : List ControlRef := []
  tails : Dict FteTaskAttemptId ControlTail := ∅
  dropIncompleteQueries : Finset String := ∅
  prepareTerminalErrors : Dict String (List String) := ∅
  observed : String → List String := fun _ => []

namespace WorkerControls

variable (s : WorkerControls) (queryId : String) (task : FteTaskAttemptId)

def outcome (ref : ℕ) : Option RefOutcome := (s.refs[ref]?).bind ControlRef.outcome

def Settled (ref : ℕ) : Prop := (s.outcome ref).isSome

def submit (operation : String) : WorkerControls :=
  { s with
    refs := s.refs ++ [⟨task, operation, (s.tails.find? task).map ControlTail.ref, none⟩]
    tails := s.tails.insert task ⟨s.refs.length, task.taskId.queryId, operation⟩ }

def release (ref : ℕ) : WorkerControls :=
  if (s.tails.find? task).map ControlTail.ref = some ref then
    { s with tails := s.tails.erase task }
  else
    s

def enqueueOrderedControl (operation : String) (remote : Option PyError) :
    Except PyError (Option ℕ) × WorkerControls :=
  if task.taskId.queryId ∈ s.registry.closingQueries then
    if operation = "fte_release_task_result" then
      (.ok none, s)
    else
      (.error (.runtimeError ("FTE control admission is closed for query " ++ task.taskId.queryId ++
        ": " ++ operation)), s)
  else
    match remote with
    | some e => (.error e, s)
    | none => (.ok (some s.refs.length), s.submit task operation)

def complete (ref : ℕ) (outcome : RefOutcome) : WorkerControls :=
  match s.refs[ref]? with
  | none => s
  | some r =>
    if r.outcome.isSome || r.previous.any fun previous => (s.outcome previous).isNone then
      s
    else
      { s with refs := s.refs.set ref { r with outcome := some outcome } }

def entriesOf : List BarrierEntry :=
  (s.tails.entries.filter fun (_, tail) => tail.queryId = queryId).map fun (task, tail) =>
    ⟨task, tail.ref, tail.operation⟩

def recordTerminal (failures : List String) : WorkerControls :=
  match s.prepareTerminalErrors.find? queryId with
  | some _ => s
  | none => { s with prepareTerminalErrors := s.prepareTerminalErrors.insert queryId failures }

def observe (failures : List String) : WorkerControls :=
  { s with observed := Function.update s.observed queryId (s.observed queryId ++ failures) }

def cleanupQuery (remote : Option String) : Except PyError Unit × WorkerControls :=
  let queryId := registryKey queryId
  if queryId = "" then
    (.ok (), s)
  else
    match remote with
    | some e => (.error (.runtimeError
        ("FTE query storage cleanup failed for " ++ queryId ++ ": " ++ e)), s)
    | none =>
      (match s.prepareTerminalErrors.find? queryId with
        | some failures => .error (.runtimeError
            ("FTE query teardown reached a terminal control failure for " ++ queryId ++ ": " ++
              terminalMessage queryId failures))
        | none => .ok (),
      { s with
        dropIncompleteQueries := s.dropIncompleteQueries.erase queryId
        prepareTerminalErrors := s.prepareTerminalErrors.erase queryId
        observed := Function.update s.observed queryId [] })

end WorkerControls

inductive CreatePhase where
  | begun
  | tracking (ref : ℕ)
  | submitted (ref : ℕ)
  | ending
  | ended

inductive PreparePhase where
  | closing
  | marking
  | taking
  | resolving (entries : List BarrierEntry)
  | reading (r : BarrierReading)
  | removing (r : BarrierResult)
  | recording (r : BarrierResult)
  | fencing (r : BarrierResult) (quiesce : QuiescePhase)
  | confirming (r : BarrierResult)
  | submitting (r : BarrierResult)
  | submitted (r : BarrierResult)
  | succeeded
  | failed (e : TeardownError)

structure ControlInput where
  remote : Option PyError := none
  future : FutureAccess := .given true
  wait : Option String := none
  quiesce : QuiesceInput := {}
  drop : Option String := none
  cleanup : Option String := none

def CreatePhase.advance (task : FteTaskAttemptId) (s : WorkerControls) :
    CreatePhase → CreatePhase × WorkerControls
  | begun =>
    match s.tails.find? task, input.remote with
    | none, none => (tracking s.refs.length, s.submit task "fte_create_task")
    | _, _ => (ending, s)
  | tracking ref =>
    match input.future with
    | .given _ => (submitted ref, s)
    | _ => (ending, s.release task ref)
  | submitted ref =>
    if (s.outcome ref).isSome then (ending, s.release task ref) else (submitted ref, s)
  | ending =>
    (ended, { s with registry := (FteRegistry.endOperation task.taskId.queryId s.registry).2 })
  | ended => (ended, s)

def PreparePhase.resolveAll (s : WorkerControls) (entries : List BarrierEntry) :
    Option (List (BarrierEntry × Option ControlStatus)) :=
  entries.mapM fun entry =>
    match s.outcome entry.ref with
    | some (.value status) => some (entry, status)
    | _ => none

def PreparePhase.advance (input : ControlInput) (queryId : String) (s : WorkerControls) :
    PreparePhase → PreparePhase × WorkerControls
  | closing => (marking, { s with registry := s.registry.closeForQuery queryId })
  | marking => (taking, { s with dropIncompleteQueries := insert queryId s.dropIncompleteQueries })
  | taking =>
    match s.entriesOf queryId with
    | [] => (fencing {} .stopping, s)
    | entries => (resolving entries, s)
  | resolving entries =>
    match input.wait, resolveAll s entries with
    | some e, _ => (reading ⟨entries, { waitError := some e }, []⟩, s)
    | none, some resolved =>
      (removing (BarrierReading.finish ⟨[], { terminal := entries }, resolved⟩), s)
    | none, none => (resolving entries, s)
  | reading r =>
    match r.rest with
    | [] => (removing r.finish, s)
    | entry :: rest => (reading (r.read input.future (s.outcome entry.ref) entry rest), s)
  | removing r =>
    (recording r, r.terminal.foldl (fun s entry => s.release entry.task entry.ref) s)
  | recording r =>
    (fencing r .stopping,
      if r.errors = [] then s else (s.recordTerminal queryId r.errors).observe queryId r.errors)
  | fencing r (.failed e) =>
    let details := ((r.error queryId).toList.map fun barrier => "barrier=" ++ barrier.describe) ++
      ["fence=" ++ e.describe]
    (failed ⟨"RuntimeError", "FTE query teardown did not reach the remote-drop fence for " ++
      queryId ++ ": " ++ "; ".intercalate details⟩, s)
  | fencing r .succeeded =>
    if r.pending ≠ [] then
      (failed ⟨"FteControlBarrierPendingError",
        "FTE query teardown retained pending control ownership for " ++ queryId ++ ": " ++
          ((r.error queryId).map TeardownError.message).getD ""⟩, s)
    else
      (confirming r, s)
  | fencing r quiesce =>
    let call : QuiesceCall := ⟨queryId, false, 0, quiesce⟩
    (fencing r (call.advance input.quiesce { registry := s.registry }).1.phase, s)
  | confirming r =>
    (submitting r, if r.errors = [] then s else s.recordTerminal queryId r.errors)
  | submitting r => (submitted r, s)
  | submitted r =>
    let details := ((r.error queryId).toList.map fun barrier => "barrier=" ++ barrier.describe) ++
      (input.drop.toList.map fun e => "drop=" ++ e) ++
      (if input.drop.isSome then [] else input.cleanup.toList.map fun e => "local=" ++ e)
    if input.drop.isSome ∨ input.cleanup.isSome then
      (failed ⟨"RuntimeError", "FTE query teardown failed for " ++ queryId ++ ": " ++
        "; ".intercalate details⟩, s)
    else
      (succeeded, s)
  | succeeded => (succeeded, s)
  | failed e => (failed e, s)

inductive ControlCall where
  | create (task : FteTaskAttemptId) (phase : CreatePhase)
  | prepare (queryId : String) (phase : PreparePhase)

def ControlCall.advance (s : WorkerControls) : ControlCall → ControlCall × WorkerControls
  | create task phase => (phase.advance input task s).map (create task) id
  | prepare queryId phase => (phase.advance input queryId s).map (prepare queryId) id

abbrev ControlBarrier := Calls WorkerControls ControlCall

def ControlBarrier.initial : ControlBarrier := { shared := {} }

inductive ControlEvent where
  | enqueue (task : FteTaskAttemptId) (operation : String) (remote : Option PyError)
  | create (task : FteTaskAttemptId)
  | complete (ref : ℕ) (outcome : RefOutcome)
  | prepareDrop (queryId : String)
  | advance (call : ℕ) (input : ControlInput)
  | cleanup (queryId : String) (remote : Option String)

def ControlEvent.step (event : ControlEvent) (s : ControlBarrier) : ControlBarrier :=
  match event with
  | enqueue task operation remote =>
    { s with shared := (s.shared.enqueueOrderedControl task operation remote).2 }
  | create task =>
    match FteRegistry.beginOperation task.taskId.queryId s.shared.registry with
    | (.ok true, registry) => ⟨{ s.shared with registry }, s.phases ++ [.create task .begun]⟩
    | (_, registry) => { s with shared := { s.shared with registry } }
  | complete ref outcome => { s with shared := s.shared.complete ref outcome }
  | prepareDrop queryId =>
    let queryId := registryKey queryId
    if queryId = "" then s else { s with phases := s.phases ++ [.prepare queryId .closing] }
  | advance i input => Calls.advanceAt (ControlCall.advance input) i s
  | cleanup queryId remote => { s with shared := (s.shared.cleanupQuery queryId remote).2 }

def ControlCall.Keeps (s : WorkerControls) : ControlCall → Prop
  | create _ (.tracking ref) => input.future.isGiven ∨ (s.outcome ref).isSome
  | prepare _ (.reading r) => ∀ entry ∈ r.rest.head?,
    input.future.isGiven ∨ (s.outcome entry.ref).isSome
  | prepare queryId (.recording r) => ∀ failures ∈ s.prepareTerminalErrors.find? queryId,
    ∀ failure ∈ r.errors, failure ∈ failures
  | _ => True

instance (s : WorkerControls) (call : ControlCall) : Decidable (call.Keeps input s) :=
  match call with
  | .create _ (.tracking _) => inferInstanceAs (Decidable (_ ∨ _))
  | .prepare _ (.reading r) => inferInstanceAs (Decidable (∀ entry ∈ r.rest.head?,
      input.future.isGiven ∨ (s.outcome entry.ref).isSome))
  | .prepare queryId (.recording r) => inferInstanceAs (Decidable
      (∀ failures ∈ s.prepareTerminalErrors.find? queryId, ∀ failure ∈ r.errors, failure ∈ failures))
  | .create _ .begun | .create _ (.submitted _) | .create _ .ending | .create _ .ended
  | .prepare _ .closing | .prepare _ .marking | .prepare _ .taking | .prepare _ (.resolving _)
  | .prepare _ (.removing _) | .prepare _ (.fencing _ _) | .prepare _ (.confirming _)
  | .prepare _ (.submitting _) | .prepare _ (.submitted _) | .prepare _ .succeeded
  | .prepare _ (.failed _) => inferInstanceAs (Decidable True)

def ControlEvent.Keeps (event : ControlEvent) (s : ControlBarrier) : Prop :=
  match event with
  | advance i input => ∀ call ∈ s.phases[i]?, call.Keeps input s.shared
  | _ => True

instance (event : ControlEvent) (s : ControlBarrier) : Decidable (event.Keeps s) :=
  match event with
  | .advance _ _ => inferInstanceAs (Decidable (∀ _ ∈ _, _))
  | .enqueue _ _ _ | .create _ | .complete _ _ | .prepareDrop _ | .cleanup _ _ =>
    inferInstanceAs (Decidable True)

end Vane
