import Vane.Fte.ExchangeSelector

/-! This module contains the events by which splits reach the split assigner of a fragment. -/

namespace Vane

inductive AssignOutcome where
  | completed
  | controlFailure
  | closing
  | assignRaises (error : PyError)
  | raises (error : PyError)
  deriving DecidableEq

structure PendingItem where
  splits : List FteSplit
  dynamicScanSources : List String := []
  dynamicExchangeSources : List String := []
  exchangeSourcePartitionIdsBySource : Dict String (List ℕ) := ∅

namespace FteFragmentState

variable (digest : String × ℕ × Option String → String)

def assign (call : AssignerCall) (outcome : AssignOutcome) : Py FteFragmentState PUnit := do
  Py.modify fun self => { self with assigner := self.assigner.map (· ++ [call]) }
  match outcome with
  | .assignRaises error => Py.raise error
  | _ => return

def exhaust (sourceNodeId : String) (self : FteFragmentState) : FteFragmentState :=
  { self with exhaustedSourceNodeIds := self.exhaustedSourceNodeIds.insert sourceNodeId }

def assignSelected (sourceNodeId : String) (snapshot : ExchangeSelectorSnapshot) (splits : List FteSplit)
    (outcome : AssignOutcome) : Py FteFragmentState PUnit := do
  assign { sourceNodeId, splits, noMoreInputs := snapshot.final } outcome
  match outcome with
  | .completed => if snapshot.final then Py.modify (exhaust sourceNodeId) else return
  | .raises error => Py.raise error
  | _ => return

def exchangeSelectorUpdated (sourceNodeId : String) (selector : SelectorPayload)
    (outcome : AssignOutcome) : Py FteFragmentState PUnit := do
  let self ← Py.get
  if self.assigner.isNone then
    return
  else
    match ← applyExchangeSelectorUpdate digest sourceNodeId selector with
    | none => return
    | some (snapshot, splits) => assignSelected sourceNodeId snapshot splits outcome

def sourceInputExhausted (outcome : AssignOutcome) (sourceNodeId : String) :
    Py FteFragmentState PUnit := do
  let self ← Py.get
  if sourceNodeId ∉ self.sourceNodeIds ∨ sourceNodeId ∈ self.exhaustedSourceNodeIds then
    return
  else do
    assign { sourceNodeId, noMoreInputs := true } outcome
    Py.modify (exhaust sourceNodeId)
    match outcome with
    | .raises error => Py.raise error
    | _ => return

def taskInputStreamExhausted (sourceNodeIds : List String) (outcome : String → AssignOutcome) :
    Py FteFragmentState PUnit := do
  let self ← Py.get
  if self.assigner.isNone then
    return
  else
    Py.forEach (sourceNodeIds.dedup.sortBy id) fun sourceNodeId =>
      sourceInputExhausted (outcome sourceNodeId) sourceNodeId

/-- `get_or_create_fte_fragment_state`; making the assigner may raise. -/
def getOrCreate (dynamicScanSources dynamicExchangeSources : List String)
    (exchangeSourcePartitionCount exchangeSourceTaskCount : ℤ) (makeAssignerError : Option PyError) :
    Py FteFragmentState PUnit := do
  let before ← Py.get
  Py.modify fun self => { self with
    sourceNodeIds := (self.sourceNodeIds ∪ dynamicScanSources) ∪ dynamicExchangeSources
    dynamicExchangeSourceNodeIds := self.dynamicExchangeSourceNodeIds ∪ dynamicExchangeSources
    exchangeSourcePartitionCount := max self.exchangeSourcePartitionCount exchangeSourcePartitionCount
    exchangeSourceTaskCount := max self.exchangeSourceTaskCount exchangeSourceTaskCount }
  let hadExchangeSources := before.dynamicExchangeSourceNodeIds ≠ []
  Py.lift <| Except.raiseIf
    (before.assigner.isSome ∧ dynamicExchangeSources ≠ [] ∧ ¬hadExchangeSources)
    (.runtimeError "FTE cannot switch an existing arbitrary split assigner to hash distribution")
  Py.lift <| Except.raiseIf
    (before.assigner.isSome ∧ hadExchangeSources ∧
      before.exchangeSourcePartitionCount < exchangeSourcePartitionCount)
    (.runtimeError "FTE hash split assigner cannot grow source partition count")
  Py.lift <| Except.raiseIf
    (before.assigner.isSome ∧ hadExchangeSources ∧
      before.exchangeSourceTaskCount < exchangeSourceTaskCount)
    (.runtimeError "FTE hash split assigner cannot grow source task count")
  if before.assigner.isNone then
    match makeAssignerError with
    | some error => Py.raise error
    | none => Py.modify fun self => { self with assigner := some [] }
  else
    return

def markExchangeSourcePartitionsSeen (partitionIdsBySource : Dict String (List ℕ))
    (self : FteFragmentState) : Except PyError (Dict String (List ℕ)) :=
  partitionIdsBySource.entries.foldlM
    (fun taken item => do
      if item.1 ∈ self.exhaustedSourceNodeIds then
        Except.raiseIf (item.2 ≠ [])
          (.runtimeError s!"exchange source {item.1} received splits after no_more_splits")
        return taken
      else
        return if item.2 = [] then taken else taken.insert item.1 item.2) ∅

def splitsBySource (partitionIdsBySource : Dict String (List ℕ)) :
    List FteSplit → Dict String (List FteSplit) → Py FteFragmentState (Dict String (List FteSplit))
  | [], bySource => return bySource
  | split :: splits, bySource => do
    let appended := bySource.update split.sourceNodeId [] (· ++ [split])
    if split.kind = "exchange_source_task" then
      if split.sourcePartitionId ∈ partitionIdsBySource.findD split.sourceNodeId [] then
        let taken ← takeSplits digest split.sourceNodeId [split]
        splitsBySource partitionIdsBySource splits (if taken = [] then bySource else appended)
      else
        splitsBySource partitionIdsBySource splits bySource
    else
      splitsBySource partitionIdsBySource splits appended

def submitPendingTask (item : PendingItem) (makeAssignerError : Option PyError)
    (outcome : String → AssignOutcome) : Py FteFragmentState PUnit := do
  getOrCreate item.dynamicScanSources item.dynamicExchangeSources 0 0 makeAssignerError
  let partitionIdsBySource ←
    Py.read (markExchangeSourcePartitionsSeen item.exchangeSourcePartitionIdsBySource)
  let bySource ← splitsBySource digest partitionIdsBySource item.splits ∅
  Py.forEach bySource.entries fun source => do
    assign { sourceNodeId := source.1, splits := source.2 } (outcome source.1)
    match outcome source.1 with
    | .raises error => Py.raise error
    | _ => return

end FteFragmentState

inductive FragmentEvent where
  | exchangeSelectorUpdated (sourceNodeId : String) (selector : SelectorPayload) (outcome : AssignOutcome)
  | taskInputStreamExhausted (sourceNodeIds : List String) (outcome : String → AssignOutcome)
  | getOrCreate (dynamicScanSources dynamicExchangeSources : List String)
    (exchangeSourcePartitionCount exchangeSourceTaskCount : ℤ) (makeAssignerError : Option PyError)
  | submitPendingTask (item : PendingItem) (makeAssignerError : Option PyError)
    (outcome : String → AssignOutcome)

namespace FragmentEvent

variable (digest : String × ℕ × Option String → String)

def exec : FragmentEvent → Py FteFragmentState PUnit
  | exchangeSelectorUpdated sourceNodeId selector outcome =>
    FteFragmentState.exchangeSelectorUpdated digest sourceNodeId selector outcome
  | taskInputStreamExhausted sourceNodeIds outcome =>
    FteFragmentState.taskInputStreamExhausted sourceNodeIds outcome
  | getOrCreate scan exchange partitionCount taskCount makeAssignerError =>
    FteFragmentState.getOrCreate scan exchange partitionCount taskCount makeAssignerError
  | submitPendingTask item makeAssignerError outcome =>
    FteFragmentState.submitPendingTask digest item makeAssignerError outcome

def step (event : FragmentEvent) (s : FteFragmentState) : FteFragmentState := (event.exec digest s).2

end FragmentEvent

end Vane
