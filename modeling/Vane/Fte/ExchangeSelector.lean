import Vane.Fte.Types
import Vane.Lib.Dict
import Vane.Lib.Order

/-!
This module contains the selector of an exchange source, and the snapshots its updates are merged
into.
-/

namespace Vane

structure SelectedEntry where
  attemptId : Option ℤ := none
  split : Option FteSplit := none
  splitKey : Option String := none
  deriving DecidableEq

structure ExchangeSelectorSnapshot where
  version : ℤ
  sourceNodeId : String
  final : Bool
  partitionCount : Option ℤ
  selected : Dict ℕ SelectedEntry
  deriving DecidableEq

structure AssignerCall where
  sourceNodeId : String
  splits : List FteSplit := []
  noMoreInputs : Bool := false
  deriving DecidableEq

structure FteFragmentState where
  assigner : Option (List AssignerCall) := none
  sourceNodeIds : List String := []
  dynamicExchangeSourceNodeIds : List String := []
  exchangeSourcePartitionCount : ℤ := 0
  exchangeSourceTaskCount : ℤ := 0
  exchangeSourceSplitKeysBySource : Dict String (List String) := ∅
  exchangeSourceSelectorsBySource : Dict String ExchangeSelectorSnapshot := ∅
  exchangeSourceSelectorNextVersionBySource : Dict String ℤ := ∅
  exhaustedSourceNodeIds : List String := []
  deriving DecidableEq

/-- A mapping that describes a split, and the attempt that it, its data or its source handles name. -/
structure SelectorSplit extends SplitPayload where
  attemptId : Option ℤ := none

structure SelectorEntry extends SelectorSplit where
  partitionId : Option ℤ := none
  ownAttemptId : Option ℤ := none
  split : Option SelectorSplit := none
  splitKey : Option String := none

inductive RawEntry where
  | none
  | attempt (attemptId : ℤ)
  | mapping (entry : SelectorEntry)

inductive SelectedPayload where
  | mapping (items : List (ℤ × RawEntry))
  | list (entries : List SelectorEntry)

structure SelectorPayload where
  sourceNodeId : Option String := none
  version : Option ℤ := none
  partitionCount : Option ℤ := none
  selected : SelectedPayload := .mapping []
  splits : List SelectorEntry := []
  final : Bool := false

namespace ExchangeSelectorSnapshot

structure SemanticKey where
  sourceNodeId : String
  final : Bool
  partitionCount : Option ℤ
  decisions : List (ℕ × Option ℤ × Option String)
  deriving DecidableEq

def semanticKey (self : ExchangeSelectorSnapshot) : SemanticKey where
  sourceNodeId := self.sourceNodeId
  final := self.final
  partitionCount := self.partitionCount
  decisions := (self.selected.entries.sortBy Prod.fst).map fun item =>
    (item.1, item.2.attemptId, item.2.splitKey)

def validate (self : ExchangeSelectorSnapshot) : Except PyError PUnit := do
  Except.raiseIf (self.version < 0) (.valueError "exchange selector version must be non-negative")
  if self.final then
    match self.partitionCount with
    | none => .error (.valueError "final exchange selector requires partition_count")
    | some count =>
      Except.raiseIf (count < 0) (.valueError "final exchange selector requires partition_count")
      let missing := (List.range count.toNat).filter fun id => !self.selected.contains id
      Except.raiseIf (missing ≠ []) (.valueError s!"final exchange selector is missing partitions: {missing}")

def Conflict {α : Type} (current new : Option α) : Prop :=
  current.isSome ∧ new.isSome ∧ current ≠ new

instance {α : Type} [DecidableEq α] (current new : Option α) : Decidable (Conflict current new) :=
  inferInstanceAs (Decidable (_ ∧ _ ∧ _))

def mergeEntry (partitionId : ℕ) (current new : SelectedEntry) : Except PyError SelectedEntry := do
  Except.raiseIf (Conflict current.attemptId new.attemptId)
    (.valueError <| s!"exchange selector cannot change selected attempt for partition {partitionId}: " ++
      s!"{current.attemptId.getD 0} -> {new.attemptId.getD 0}")
  Except.raiseIf (Conflict current.splitKey new.splitKey)
    (.valueError s!"exchange selector cannot change selected split for partition {partitionId}")
  return {
    attemptId := new.attemptId <|> current.attemptId
    split := if new.splitKey.isSome then new.split else current.split
    splitKey := new.splitKey <|> current.splitKey }

/-- The loop over what is selected so far: the new selection and the partitions that get a split. -/
def mergeStep (acc : Dict ℕ SelectedEntry × List ℕ) (item : ℕ × SelectedEntry) :
    Except PyError (Dict ℕ SelectedEntry × List ℕ) :=
  match acc.1.find? item.1 with
  | none => .ok (acc.1.insert item.1 item.2, acc.2)
  | some new => do
    let entry ← mergeEntry item.1 item.2 new
    let materialized := item.2.splitKey.isNone ∧ new.splitKey.isSome
    return (acc.1.insert item.1 entry, if materialized then acc.2 ++ [item.1] else acc.2)

def merge (current snapshot : ExchangeSelectorSnapshot) :
    Except PyError (ExchangeSelectorSnapshot × List ℕ) := do
  let (selected, materialized) ← current.selected.entries.foldlM mergeStep (snapshot.selected, [])
  let added := selected.entries.filter fun item =>
    !current.selected.contains item.1 && item.2.splitKey.isSome
  return ({ snapshot with selected }, materialized ++ added.map Prod.fst)

end ExchangeSelectorSnapshot

section Normalize

variable (digest : String × ℕ × Option String → String) (sourceNodeId : String)

def exchangeSourceSplitKey (split : FteSplit) : String :=
  digest (split.kind, split.sourcePartitionId, split.data)

def normalizeExchangeSelectorSplit (partitionId : ℕ) (payload : SelectorSplit) :
    Except PyError (FteSplit × Option ℤ × String) := do
  let split ← FteSplit.fromDict sourceNodeId
    { payload.toSplitPayload with
      sourceNodeId := some (payload.sourceNodeId.getD sourceNodeId)
      sourcePartitionId := some (payload.sourcePartitionId.getD partitionId) }
  Except.raiseIf (split.kind ≠ "exchange_source_task")
    (.valueError s!"exchange selector split must be exchange_source_task, got {split.kind}")
  Except.raiseIf (split.sourcePartitionId ≠ partitionId)
    (.valueError <| "exchange selector split source_partition_id " ++
      s!"{split.sourcePartitionId} does not match selected partition {partitionId}")
  return (split, payload.attemptId, exchangeSourceSplitKey digest split)

def SelectorEntry.splitPayload (entry : SelectorEntry) : Option SelectorSplit :=
  entry.split <|>
    if entry.kind = some "exchange_source_task" then some entry.toSelectorSplit else none

def normalizeSelectedEntry (partitionId : ℕ) : RawEntry → Except PyError SelectedEntry
  | .none => .ok {}
  | .attempt attemptId => .ok { attemptId := some attemptId }
  | .mapping entry =>
    match entry.splitPayload with
    | none => .ok { attemptId := entry.ownAttemptId, splitKey := entry.splitKey }
    | some payload => do
      let (split, splitAttemptId, splitKey) ←
        normalizeExchangeSelectorSplit digest sourceNodeId partitionId payload
      return {
        attemptId := entry.ownAttemptId <|> splitAttemptId
        split := some split
        splitKey := some splitKey }

def SelectedPayload.items : SelectedPayload → Except PyError (List (ℤ × RawEntry))
  | mapping items => .ok items
  | list entries => entries.mapM fun entry =>
    match entry.partitionId <|> entry.sourcePartitionId with
    | none => .error (.valueError "exchange selector selected entry is missing partition_id")
    | some partitionId => .ok (partitionId, .mapping entry)

def selectStep (selected : Dict ℕ SelectedEntry) (item : ℤ × RawEntry) :
    Except PyError (Dict ℕ SelectedEntry) := do
  Except.raiseIf (item.1 < 0) (.valueError "exchange selector partition id must be non-negative")
  let entry ← normalizeSelectedEntry digest sourceNodeId item.1.toNat item.2
  let conflicts := (selected.find? item.1.toNat).any fun existing =>
    (existing.attemptId, existing.splitKey) ≠ (entry.attemptId, entry.splitKey)
  Except.raiseIf conflicts
    (.valueError s!"conflicting exchange selector decision for partition {item.1}")
  return selected.insert item.1.toNat entry

def normalizeSelected (payload : SelectedPayload) : Except PyError (Dict ℕ SelectedEntry) := do
  let items ← payload.items
  items.foldlM (selectStep digest sourceNodeId) ∅

def selectSplit (acc : Option ℤ × Dict ℕ SelectedEntry) (payload : SelectorEntry) :
    Except PyError (Option ℤ × Dict ℕ SelectedEntry) := do
  let split ← FteSplit.fromDict sourceNodeId payload.toSplitPayload
  let partitionId := split.sourcePartitionId
  let entry ← normalizeSelectedEntry digest sourceNodeId partitionId (.mapping payload)
  return (some (max (acc.1.getD 0) (partitionId + 1)), acc.2.insert partitionId entry)

def normalizeSnapshot (state : FteFragmentState) (sourceNodeId : String) (selector : SelectorPayload) :
    Except PyError ExchangeSelectorSnapshot := do
  let sourceNodeId := (selector.sourceNodeId.filter (· ≠ "")).getD sourceNodeId
  let version := selector.version.getD
    (state.exchangeSourceSelectorNextVersionBySource.findD sourceNodeId 0)
  let selected ← normalizeSelected digest sourceNodeId selector.selected
  let (partitionCount, selected) ←
    selector.splits.foldlM (selectSplit digest sourceNodeId) (selector.partitionCount, selected)
  return { version, sourceNodeId, final := selector.final, partitionCount, selected }

end Normalize

namespace FteFragmentState

variable (digest : String × ℕ × Option String → String)

def advanceNextVersion (sourceNodeId : String) (version : ℤ) (self : FteFragmentState) :
    FteFragmentState :=
  { self with
    exchangeSourceSelectorNextVersionBySource :=
      self.exchangeSourceSelectorNextVersionBySource.insert sourceNodeId
        (max (self.exchangeSourceSelectorNextVersionBySource.findD sourceNodeId 0) (version + 1)) }

def storeSelector (snapshot : ExchangeSelectorSnapshot) (version : ℤ) (self : FteFragmentState) :
    FteFragmentState :=
  advanceNextVersion snapshot.sourceNodeId version
    { self with
      exchangeSourceSelectorsBySource :=
        self.exchangeSourceSelectorsBySource.insert snapshot.sourceNodeId snapshot }

def keyedPartitions (selected : Dict ℕ SelectedEntry) : List ℕ :=
  (selected.entries.filter fun item => item.2.splitKey.isSome).map Prod.fst

def repeatSnapshot (current snapshot : ExchangeSelectorSnapshot) : Except PyError PUnit :=
  let conflicting : PyError := .valueError <|
    s!"conflicting exchange selector update for source {snapshot.sourceNodeId} " ++
      s!"at version {snapshot.version}"
  match (do
    let (merged, _) ← current.merge snapshot
    merged.validate
    return merged) with
  | .error (.valueError _) => .error conflicting
  | .error e => .error e
  | .ok merged => Except.raiseIf (merged.semanticKey ≠ current.semanticKey) conflicting

/-- `_apply_exchange_selector_snapshot`: the partitions that get a split, if anything changes. -/
def applySnapshot (snapshot : ExchangeSelectorSnapshot) : Py FteFragmentState (Option (List ℕ)) := do
  let self ← Py.get
  match self.exchangeSourceSelectorsBySource.find? snapshot.sourceNodeId with
  | none => do
    Py.lift snapshot.validate
    Py.modify (storeSelector snapshot snapshot.version)
    return some (keyedPartitions snapshot.selected)
  | some current =>
    if snapshot.version < current.version then
      return none
    else if snapshot.version = current.version then do
      Py.lift (repeatSnapshot current snapshot)
      return none
    else do
      let (merged, newPartitionIds) ← Py.lift (current.merge snapshot)
      Py.lift merged.validate
      if current.final then
        if merged.semanticKey = current.semanticKey then
          return none
        else
          Py.raise (.valueError s!"cannot update final exchange selector for source {snapshot.sourceNodeId}")
      else do
        Py.modify (storeSelector merged snapshot.version)
        return some newPartitionIds

def takeNew (key : FteSplit → String) (seen : List String) : List FteSplit → List FteSplit × List String
  | [] => ([], seen)
  | split :: splits =>
    if key split ∈ seen then
      takeNew key seen splits
    else
      let (taken, seen) := takeNew key (seen ++ [key split]) splits
      (split :: taken, seen)

def takeSplits (sourceNodeId : String)
    (splits : List FteSplit) : Py FteFragmentState (List FteSplit) := fun self =>
  let (taken, seen) := takeNew (exchangeSourceSplitKey digest)
    (self.exchangeSourceSplitKeysBySource.findD sourceNodeId []) splits
  (.ok taken, { self with
    exchangeSourceSplitKeysBySource := self.exchangeSourceSplitKeysBySource.insert sourceNodeId seen })

/-- `apply_exchange_selector_update`: the snapshot of the update and the splits to assign. -/
def applyExchangeSelectorUpdate (sourceNodeId : String) (selector : SelectorPayload) :
    Py FteFragmentState (Option (ExchangeSelectorSnapshot × List FteSplit)) := do
  let snapshot ← Py.read fun self => normalizeSnapshot digest self sourceNodeId selector
  Py.lift <| Except.raiseIf (snapshot.sourceNodeId ≠ sourceNodeId)
    (.valueError <| "exchange selector source_node_id does not match event source_node_id: " ++
      s!"{snapshot.sourceNodeId} != {sourceNodeId}")
  let rawSplits := snapshot.selected.values.filterMap SelectedEntry.split
  match ← applySnapshot snapshot with
  | none => return none
  | some newSelectorPartitions => do
    let self ← Py.get
    Py.lift <| Except.raiseIf (sourceNodeId ∈ self.exhaustedSourceNodeIds ∧ rawSplits ≠ [])
      (.runtimeError s!"exchange source {sourceNodeId} received splits after no_more_splits")
    let splits ← takeSplits digest sourceNodeId
      (rawSplits.filter fun split => split.sourcePartitionId ∈ newSelectorPartitions)
    return some (snapshot, splits)

end FteFragmentState

end Vane
