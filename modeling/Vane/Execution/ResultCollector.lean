import Vane.Lib.Dict
import Vane.Lib.Py

/-!
This module contains the collector that merges the results of remote streams, as steps of its event
loop and of other threads.
-/

namespace Vane

open Except (raiseIf)

structure StreamKey where
  slotId : ℕ
  submitId : ℕ
  deriving DecidableEq

structure StreamIdentity where
  queryId : String
  stageId : String
  leaseId : String
  attemptId : String
  deriving DecidableEq

structure BlockMetadata where
  identity : StreamIdentity
  blockId : String
  numRows : ℕ
  sizeBytes : ℕ
  names : List String
  deriving DecidableEq

inductive StreamMetadata where
  | malformed (error : PyError)
  | error (identity : StreamIdentity) (exceptionType exceptionMessage : String)
  | block (metadata : BlockMetadata)

/-- A generator whose object `2 * i` is the block of the pair `i` and whose next object is its metadata. -/
structure RemoteStream where
  pairs : List StreamMetadata
  emitted : ℕ := 0
  ended : Option (Option String) := none

inductive StreamRead where
  | ref (index : ℕ)
  | terminal
  | stop
  | raised (error : String)

namespace RemoteStream

variable (stream : RemoteStream)

def emit : RemoteStream :=
  if stream.ended.isNone ∧ stream.emitted < 2 * stream.pairs.length then
    { stream with emitted := stream.emitted + 1 }
  else
    stream

def finish (error : Option String) : RemoteStream :=
  if stream.ended.isNone ∧ (error.isSome ∨ stream.emitted = 2 * stream.pairs.length) then
    { stream with ended := some error }
  else
    stream

def read? (next : ℕ) : Option StreamRead :=
  if next < stream.emitted then
    some (.ref next)
  else
    stream.ended.map fun error => if error.isSome then .terminal else .stop

def isFinished (next : ℕ) : Bool := stream.ended.isSome && stream.emitted ≤ next

def metadata? (ref : ℕ) : Option StreamMetadata := if ref % 2 = 1 then stream.pairs[ref / 2]? else none

end RemoteStream

inductive StreamPhase where
  | block
  | metadata
  | outputLease
  deriving DecidableEq

inductive RecordWait where
  | data (read : Option StreamRead)
  | metadata
  | outputLease
  | terminal
  | handled

inductive CompletionWait where
  | none
  | waiting
  | handled
  deriving DecidableEq

structure StreamRecord where
  key : StreamKey
  sequence : ℕ
  taskLease : StreamIdentity
  source : RemoteStream
  next : ℕ := 0
  drained : Bool := false
  phase : StreamPhase := .block
  blockRef : Option ℕ := none
  metadataRef : Option ℕ := none
  terminalRef : Bool := false
  metadata : Option BlockMetadata := none
  blockItemCapacityBytes : Option ℕ := none
  outputRequestId : String := ""
  outputLeaseRef : Bool := false
  producerCompleted : Bool := false
  wait : Option RecordWait := none
  completion : CompletionWait := .none

structure OutputLease where
  leaseId : String
  blockId : String

inductive OutputGrant where
  | invalid
  | denied (reason : String)
  | granted (lease : Option OutputLease)

structure DataPayload where
  block : ℕ
  metadata : BlockMetadata
  requestId : String
  leaseId : String
  deriving DecidableEq

inductive FutureResult where
  | data (read : StreamRead)
  | metadata (value : Except String StreamMetadata)
  | outputLease (value : Except String OutputGrant)
  | terminal (error : Option String)
  | producer (error : Option String)

def FutureResult.isProducer : FutureResult → Bool
  | producer _ => true
  | _ => false

inductive CallbackResult where
  | waits (r : StreamRecord)
  | finishes (r : StreamRecord)
  | pushes (payload : DataPayload)
  | fails (error : String)

namespace StreamRecord

variable (r : StreamRecord)

def streamFinished : Bool := r.source.isFinished r.next

def mayComplete : Bool :=
  r.producerCompleted && r.phase = .block && !r.outputLeaseRef && r.streamFinished

def acceptStreamRef (ref : ℕ) : Except PyError StreamRecord := do
  if r.phase = .block then
    return { r with blockRef := some ref, phase := .metadata }
  else
    raiseIf (r.phase ≠ .metadata ∨ r.blockRef.isNone)
      (.runtimeError "Ray UDF stream violated block/metadata pair ordering")
    return { r with metadataRef := some ref }

def finishStream : Except PyError StreamRecord := do
  raiseIf (r.phase = .metadata ∧ r.blockRef.isSome) (.runtimeError
    ("Ray UDF generator terminated after a block without its metadata; " ++
      "the remote task failed or violated the block/metadata protocol"))
  return { r with drained := true, producerCompleted := true }

def validateTaskIdentity (identity : StreamIdentity) : Except PyError Unit :=
  let expected := [
    ("query_id", identity.queryId, r.taskLease.queryId),
    ("producer_stage_id", identity.stageId, r.taskLease.stageId),
    ("task_lease_id", identity.leaseId, r.taskLease.leaseId),
    ("attempt_id", identity.attemptId, r.taskLease.attemptId)]
  let mismatched := expected.filterMap fun (name, actual, value) =>
    if actual ≠ value then some name else none
  raiseIf (mismatched ≠ [])
    (.runtimeError ("stale or cross-task Ray UDF stream metadata: " ++ ", ".intercalate mismatched))

def acceptMetadata (metadata : StreamMetadata) : Except PyError StreamRecord := do
  raiseIf (r.phase ≠ .metadata ∨ r.blockRef.isNone)
    (.runtimeError "Ray UDF stream metadata arrived without its block")
  match metadata with
  | .malformed error => throw error
  | .error identity exceptionType exceptionMessage =>
    r.validateTaskIdentity identity
    throw (.runtimeError ("remote Ray UDF failed: " ++ exceptionType ++ ": " ++ exceptionMessage))
  | .block validated =>
    r.validateTaskIdentity validated.identity
    for itemCapacityBytes in r.blockItemCapacityBytes.toList do
      raiseIf (validated.sizeBytes > itemCapacityBytes) (.runtimeError
        ("Ray UDF block exceeds downstream item capacity: query=" ++ validated.identity.queryId ++
          " stage=" ++ validated.identity.stageId ++ " task_lease=" ++ validated.identity.leaseId ++
          " block=" ++ validated.blockId ++ " size_bytes=" ++ toString validated.sizeBytes ++
          " item_capacity_bytes=" ++ toString itemCapacityBytes))
    return { r with
      metadata := some validated
      outputRequestId := "output-request:" ++ validated.blockId
      outputLeaseRef := true
      phase := .outputLease }

def outputPayload (grant : OutputGrant) : Except PyError DataPayload := do
  match grant with
  | .invalid => throw (.runtimeError "Ray UDF output block lease denied: invalid_grant")
  | .denied reason => throw (.runtimeError ("Ray UDF output block lease denied: " ++ reason))
  | .granted lease =>
    match lease with
    | none => throw (.runtimeError "Ray UDF output block lease grant is missing lease identity")
    | some lease =>
      raiseIf (lease.leaseId = "")
        (.runtimeError "Ray UDF output block lease grant is missing lease identity")
      match r.metadata, r.blockRef with
      | some metadata, some block =>
        raiseIf (lease.blockId ≠ metadata.blockId)
          (.runtimeError "Ray UDF output lease block identity mismatch")
        return ⟨block, metadata, r.outputRequestId, lease.leaseId⟩
      | _, _ => throw (.runtimeError "Ray UDF output lease completed without its block pair")

def handle : FutureResult → CallbackResult
  | .data (.ref ref) =>
    match r.acceptStreamRef ref with
    | .ok r => .waits r
    | .error e => .fails e.describe
  | .data .terminal => .waits { r with terminalRef := true }
  | .data .stop =>
    match r.finishStream with
    | .ok r => .finishes r
    | .error e => .fails e.describe
  | .data (.raised error) => .fails error
  | .metadata (.ok metadata) =>
    match { r with metadataRef := none }.acceptMetadata metadata with
    | .ok r => .waits r
    | .error e => .fails e.describe
  | .metadata (.error error) => .fails error
  | .outputLease (.ok grant) =>
    match r.outputPayload grant with
    | .ok payload => .pushes payload
    | .error e => .fails e.describe
  | .outputLease (.error error) => .fails error
  | .terminal none =>
    match { r with terminalRef := false }.finishStream with
    | .ok r => .finishes r
    | .error e => .fails e.describe
  | .terminal (some error) => .fails error
  | .producer none => .finishes { r with
      producerCompleted := true
      drained := r.drained || r.streamFinished }
  | .producer (some error) => .fails error

def pushed : StreamRecord :=
  { r with
    phase := .block
    blockRef := none
    metadata := none
    blockItemCapacityBytes := none
    outputRequestId := ""
    outputLeaseRef := false }

def clear (producer : Bool) : StreamRecord :=
  if producer then { r with completion := .none } else { r with wait := none }

end StreamRecord

inductive EventBody where
  | data (payload : DataPayload)
  | complete
  | error (text : String)
  deriving DecidableEq

structure ReadyEvent where
  key : StreamKey
  body : EventBody
  deriving DecidableEq

def ReadyEvent.isData (event : ReadyEvent) : Bool :=
  match event.body with
  | .data _ => true
  | _ => false

def ReadyEvent.sizeBytes (event : ReadyEvent) : ℕ :=
  match event.body with
  | .data payload => payload.metadata.sizeBytes
  | _ => 0

structure DrainCapacity where
  rows : ℕ
  bytes : Option ℕ := none
  itemBytes : Option ℕ := none

namespace DrainCapacity

variable (capacity : DrainCapacity)

def admits (rows bytes : ℕ) (event : ReadyEvent) : Bool :=
  !event.isData ||
    (rows < capacity.rows &&
      (capacity.bytes.all fun limit => bytes < limit && bytes + event.sizeBytes ≤ limit) &&
      capacity.itemBytes.all fun limit => 0 < limit && event.sizeBytes ≤ limit)

def take (rows bytes : ℕ) : List ReadyEvent → List ReadyEvent × List ReadyEvent
  | [] => ([], [])
  | event :: ready =>
    if capacity.admits rows bytes event then
      let taken := take (rows + if event.isData then 1 else 0) (bytes + event.sizeBytes) ready
      (event :: taken.1, taken.2)
    else
      ([], event :: ready)

def after (delivered : List ReadyEvent) : DrainCapacity :=
  { capacity with
    rows := capacity.rows - delivered.countP ReadyEvent.isData
    bytes := capacity.bytes.map fun limit => limit - (delivered.map ReadyEvent.sizeBytes).sum }

end DrainCapacity

inductive LoopPhase where
  | idle
  | handling (key : StreamKey) (sequence : ℕ) (ready : FutureResult)
  | pushing (key : StreamKey) (sequence : ℕ) (payload : DataPayload)
  | completing (key : StreamKey) (sequence : ℕ) (producer : Bool)
  | failing (key : StreamKey) (sequence : ℕ) (error : String) (producer : Bool)
  | clearing (key : StreamKey) (sequence : ℕ) (producer : Bool)

structure AsyncResultCollector where
  shutdown : Bool := false
  records : Dict StreamKey StreamRecord := ∅
  readyBySlot : Dict ℕ (List ReadyEvent) := ∅
  capacityBySlot : Dict ℕ DrainCapacity := ∅
  cancelledSlots : Finset ℕ := ∅
  nextSequence : ℕ := 0
  loop : LoopPhase := .idle
  delivered : List ReadyEvent := []
  advertised : ℕ → ℕ := fun _ => 0

namespace AsyncResultCollector

variable (c : AsyncResultCollector) (key : StreamKey) (slotId : ℕ) (r : StreamRecord)

def ready : List ReadyEvent := c.readyBySlot.findD slotId []

def record? (sequence : ℕ) : Option StreamRecord :=
  (c.records.find? key).filter fun r => r.sequence = sequence

def setRecord : AsyncResultCollector :=
  { c with records := c.records.insert r.key r }

def pushReady (event : ReadyEvent) : AsyncResultCollector :=
  { c with readyBySlot := c.readyBySlot.insert event.key.slotId (c.ready event.key.slotId ++ [event]) }

def trackGeneratorRef (taskLease : StreamIdentity) (pairs : List StreamMetadata) :
    Except PyError Unit × AsyncResultCollector :=
  if c.shutdown then
    (.error (.runtimeError "Ray UDF stream collector is shut down"), c)
  else if (c.records.find? key).isSome then
    (.error (.valueError ("duplicate Ray UDF stream identity slot=" ++ toString key.slotId ++
      " submit=" ++ toString key.submitId)), c)
  else if key.slotId ∈ c.cancelledSlots then
    (.error (.runtimeError ("Ray UDF slot " ++ toString key.slotId ++ " is cancelled")), c)
  else
    (.ok (), { c.setRecord { key, sequence := c.nextSequence, taskLease, source := { pairs } } with
      nextSequence := c.nextSequence + 1 })

def drainSlot (capacity : DrainCapacity) : AsyncResultCollector :=
  let taken := capacity.take 0 0 (c.ready slotId)
  { c with
    readyBySlot := if taken.2.isEmpty then c.readyBySlot.erase slotId
      else c.readyBySlot.insert slotId taken.2
    capacityBySlot := c.capacityBySlot.insert slotId (capacity.after taken.1)
    delivered := c.delivered ++ taken.1
    advertised := Function.update c.advertised slotId capacity.rows }

def drainResults (capacities : List (ℕ × DrainCapacity)) : AsyncResultCollector :=
  if c.shutdown then c
  else capacities.foldl (fun c (slotId, capacity) => c.drainSlot slotId capacity) c

def cancelSlot : AsyncResultCollector :=
  { c with
    records := (c.records.keys.filter fun key => key.slotId = slotId).foldl Dict.erase c.records
    readyBySlot := c.readyBySlot.erase slotId
    capacityBySlot := c.capacityBySlot.erase slotId
    cancelledSlots := insert slotId c.cancelledSlots }

def shutDown : AsyncResultCollector :=
  { c with shutdown := true, records := ∅, readyBySlot := ∅, capacityBySlot := ∅ }

def pendingDataCount : ℕ :=
  (c.ready slotId).countP ReadyEvent.isData +
    c.records.values.countP fun r => r.key.slotId = slotId && r.phase ≠ .block

def mayReadBlock : Bool :=
  match c.capacityBySlot.find? slotId with
  | none => false
  | some capacity => 0 < capacity.rows && capacity.bytes ≠ some 0 && capacity.itemBytes ≠ some 0 &&
    c.pendingDataCount slotId < capacity.rows

def scheduleCompletion : StreamRecord :=
  if r.producerCompleted || r.completion ≠ .none then r else { r with completion := .waiting }

def startsBlock : Bool :=
  r.wait.isNone && !r.terminalRef && !r.outputLeaseRef && r.metadataRef.isNone && r.phase = .block &&
    c.mayReadBlock r.key.slotId

def scheduleRecord : StreamRecord :=
  if r.wait.isSome then r
  else if r.terminalRef then { r with wait := some .terminal }
  else if r.outputLeaseRef then { r with wait := some .outputLease }
  else if r.metadataRef.isSome then { r with wait := some .metadata }
  else if r.phase = .metadata then { r with wait := some (.data none) }
  else if c.startsBlock r then
    { r with
      wait := some (.data none)
      blockItemCapacityBytes := (c.capacityBySlot.find? r.key.slotId).bind DrainCapacity.itemBytes }
  else
    r

def refreshRecord : AsyncResultCollector :=
  match c.records.find? key with
  | none => c
  | some r => c.setRecord (c.scheduleRecord (scheduleCompletion r))

def refreshWaiters : AsyncResultCollector :=
  if c.shutdown then c else c.records.keys.foldl refreshRecord c

def retire (body : EventBody) : AsyncResultCollector :=
  { c with records := c.records.erase key }.pushReady ⟨key, body⟩

def failRecord (error : String) : AsyncResultCollector :=
  let kept := (c.ready key.slotId).filter fun event => !(event.key = key && event.isData)
  { c with readyBySlot := c.readyBySlot.insert key.slotId kept }.retire key (.error error)

def proceed (sequence : ℕ) (producer : Bool) (r : StreamRecord) : AsyncResultCollector :=
  { c.setRecord r with
    loop := if r.mayComplete then .completing key sequence producer else .clearing key sequence producer }

def advanceLoop : AsyncResultCollector :=
  match c.loop with
  | .idle => c
  | .handling key sequence ready =>
    match c.record? key sequence with
    | none => { c with loop := .idle }
    | some r =>
      let producer := FutureResult.isProducer ready
      match r.handle ready with
      | .waits r => { c.setRecord r with loop := .clearing key sequence producer }
      | .finishes r => c.proceed key sequence producer r
      | .pushes payload => { c with loop := .pushing key sequence payload }
      | .fails error => { c with loop := .failing key sequence error producer }
  | .pushing key sequence payload =>
    match c.record? key sequence with
    | none => { c with loop := .idle }
    | some r => (c.pushReady ⟨key, .data payload⟩).proceed key sequence false r.pushed
  | .completing key sequence producer =>
    match c.record? key sequence with
    | none => { c with loop := .idle }
    | some _ => { c.retire key .complete with loop := .clearing key sequence producer }
  | .failing key sequence error producer =>
    match c.record? key sequence with
    | none => { c with loop := .idle }
    | some _ => { c.failRecord key error with loop := .clearing key sequence producer }
  | .clearing key sequence producer =>
    match c.record? key sequence with
    | none => { c with loop := .idle }
    | some r => { c.setRecord (r.clear producer) with loop := .idle }

structure CallbackInput where
  lost : Option String := none
  grant : OutputGrant := .invalid

def readyOf (input : CallbackInput) (r : StreamRecord) : Option FutureResult :=
  match r.wait with
  | some (.data (some read)) => some (.data read)
  | some .metadata =>
    match input.lost with
    | some error => some (.metadata (.error error))
    | none => (r.metadataRef.bind r.source.metadata?).map fun metadata => .metadata (.ok metadata)
  | some .outputLease =>
    match input.lost with
    | some error => some (.outputLease (.error error))
    | none => some (.outputLease (.ok input.grant))
  | some .terminal => r.source.ended.map .terminal
  | _ => none

def beginRecordWait (input : CallbackInput) : AsyncResultCollector :=
  match c.loop, c.records.find? key with
  | .idle, some r =>
    match readyOf input r with
    | some ready => { c.setRecord { r with wait := some .handled } with
        loop := .handling key r.sequence ready }
    | none => c
  | _, _ => c

def beginProducerWait : AsyncResultCollector :=
  match c.loop, c.records.find? key with
  | .idle, some r =>
    match r.completion, r.source.ended with
    | .waiting, some error => { c.setRecord { r with completion := .handled } with
        loop := .handling key r.sequence (.producer error) }
    | _, _ => c
  | _, _ => c

def endRead (error : Option String) : AsyncResultCollector :=
  match c.loop, c.records.find? key with
  | .idle, some r =>
    match r.wait, error, if r.drained then some .stop else r.source.read? r.next with
    | some (.data none), some error, _ => c.setRecord { r with wait := some (.data (some (.raised error))) }
    | some (.data none), none, some (.ref ref) => c.setRecord { r with
        wait := some (.data (some (.ref ref))), next := r.next + 1 }
    | some (.data none), none, some read => c.setRecord { r with wait := some (.data (some read)) }
    | _, _, _ => c
  | _, _ => c

def modifySource (f : RemoteStream → RemoteStream) : AsyncResultCollector :=
  match c.records.find? key with
  | none => c
  | some r => c.setRecord { r with source := f r.source }

end AsyncResultCollector

inductive CollectorEvent where
  | track (key : StreamKey) (taskLease : StreamIdentity)
  | drain (capacities : List (ℕ × DrainCapacity))
  | cancelSlot (slotId : ℕ)
  | shutdown
  | refresh
  | emit (key : StreamKey)
  | finish (key : StreamKey) (error : Option String)
  | endRead (key : StreamKey) (error : Option String)
  | recordReady (key : StreamKey) (input : AsyncResultCollector.CallbackInput)
  | producerReady (key : StreamKey)
  | advanceLoop

def CollectorEvent.step (streams : StreamKey → List StreamMetadata) (event : CollectorEvent)
    (c : AsyncResultCollector) : AsyncResultCollector :=
  match event with
  | track key taskLease => (c.trackGeneratorRef key taskLease (streams key)).2
  | drain capacities => c.drainResults capacities
  | cancelSlot slotId => c.cancelSlot slotId
  | shutdown => c.shutDown
  | refresh => c.refreshWaiters
  | emit key => c.modifySource key RemoteStream.emit
  | finish key error => c.modifySource key fun stream => stream.finish error
  | endRead key error => c.endRead key error
  | recordReady key input => c.beginRecordWait key input
  | producerReady key => c.beginProducerWait key
  | advanceLoop => c.advanceLoop

def CollectorEvent.trackedKey? : CollectorEvent → Option StreamKey
  | track key _ => some key
  | _ => none

end Vane
