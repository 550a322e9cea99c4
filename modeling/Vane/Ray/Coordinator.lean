import Vane.Ray.QueryAllocation

/-!
This module contains the cluster coordinator. Times are exact rationals that the caller passes in.
-/

namespace Vane

namespace QueryDemand

def make (queryId : String) (minimum desired : ResourceVector) (weight : ℚ := 1) (priority : ℤ := 0)
    (actorBundles : List ActorResourceBundle := []) (taskBundles : List ResourceVector := [])
    : Except PyError QueryDemand :=
  let exceeded := ", ".intercalate ((minimum.exceededDimensions desired).map Dimension.name)
  let actorTotal := (actorBundles.map ActorResourceBundle.resources).sum
  let bundleTotal := actorTotal + taskBundles.sum
  if hid : Text.strip queryId = "" then
    .error (.valueError "query_id must be non-empty")
  else if hminimum : ¬minimum ≤ desired then
    .error (.valueError s!"minimum query demand exceeds desired demand for {exceeded}")
  else if hweight : weight ≤ 0 then
    .error (.valueError "weight must be finite and > 0")
  else if hactors : ¬(actorBundles.map (·.key)).Nodup then
    .error (.valueError "actor resource bundles contain duplicate stage/index identities")
  else if hbundles : bundleTotal ≠ minimum then
    .error (.valueError "actor_bundles plus task_bundles must exactly equal minimum query resources")
  else if ¬bundleTotal ≤ desired then
    .error (.valueError "minimum placement bundles exceed desired query resources")
  else if desired.gpu + epsilon < actorTotal.gpu then
    .error (.valueError "actor bundles exceed desired GPU resources")
  else
    .ok {
      queryId := Text.strip queryId
      minimum
      desired
      weight := weight.toNNRat
      priority
      actorBundles
      taskBundles
      queryId_identifier := isIdentifier_strip hid
      minimum_le_desired := not_not.mp hminimum
      weight_pos := Rat.toNNRat_pos.mpr (not_le.mp hweight)
      nodup_actors := not_not.mp hactors
      bundles_eq_minimum := not_not.mp hbundles }

theorem make_eq_ok {queryId : String} {minimum desired : ResourceVector} {weight : ℚ}
    {priority : ℤ} {actorBundles : List ActorResourceBundle} {taskBundles : List ResourceVector}
    {d : QueryDemand}
    (h : make queryId minimum desired weight priority actorBundles taskBundles = .ok d) :
    d.actorBundles = actorBundles ∧ d.taskBundles = taskBundles := by
  unfold make at h
  simp only at h
  split_ifs at h
  cases h
  exact ⟨rfl, rfl⟩

def actorBundle? (d : QueryDemand) (key : String × ℕ) : Option ResourceVector :=
  (d.actorBundles.find? (·.key = key)).map (·.resources)

def headroom (d : QueryDemand) : ResourceVector := d.desired - d.minimum

end QueryDemand

inductive QueryStatus where
  | pendingResources
  | running
  | actorPlacementLost
  | allocationDebt
  deriving DecidableEq

structure QueryState where
  demand : QueryDemand
  sequence : ℕ
  observedUsage : ResourceVector := 0
  allocation : QueryAllocation := .empty
  nodeAllocations : Dict String ResourceVector := ∅
  allocationDebt : ResourceVector := 0
  state : QueryStatus := .pendingResources
  rejectionReason : String := ""
  actorPlacementLost : Bool := false
  expiresAt : ℚ
  deriving DecidableEq

namespace QueryState

def queryId (s : QueryState) : String := s.demand.queryId

def actorPlacements (s : QueryState) : List ActorPlacement := s.allocation.actorPlacements

end QueryState

abbrev Nodes := Table NodeCapacity.nodeId

structure Trial where
  remaining : Nodes
  allocations : Dict String ResourceVector

namespace Trial

def charge (t : Trial) (node : NodeCapacity) (vector : ResourceVector) : Trial where
  remaining := t.remaining.put { node with resources := node.resources - vector }
  allocations := t.allocations.update node.nodeId 0 (· + vector)

def pinActor (demand : QueryDemand) (t : Trial) (placement : ActorPlacement) : Option Trial :=
  match demand.actorBundle? placement.key, t.remaining.find? placement.nodeId with
  | some vector, some node => if vector ≤ node.resources then some (t.charge node vector) else none
  | _, _ => none

def placeBundle (t : Trial) (bundle : ResourceVector) : Option (NodeCapacity × Trial) := do
  let candidates := t.remaining.values.filter (bundle ≤ ·.resources)
  let node ← candidates.minBy? fun node =>
    toLex (node.resources.gpu - bundle.gpu, toLex (node.resources.cpu - bundle.cpu,
      toLex (node.resources.heapBytes - bundle.heapBytes, node.nodeId)))
  return (node, t.charge node bundle)

def placeActor (acc : Trial × List ActorPlacement) (bundle : ActorResourceBundle)
    : Option (Trial × List ActorPlacement) := do
  let (node, t) ← acc.1.placeBundle bundle.resources
  return (t, acc.2 ++ [{
    stageId := bundle.stageId
    actorIndex := bundle.actorIndex
    nodeId := node.nodeId
    stageId_identifier := bundle.stageId_identifier
    nodeId_identifier := node.nodeId_identifier }])

def placeActors (t : Trial) (bundles : List ActorResourceBundle)
    : Option (Trial × List ActorPlacement) :=
  bundles.foldlM placeActor (t, [])

def placeTask (t : Trial) (bundle : ResourceVector) : Option Trial :=
  (t.placeBundle bundle).map Prod.snd

def placeTasks (t : Trial) (bundles : List ResourceVector) : Option Trial :=
  bundles.foldlM placeTask t

end Trial

namespace Drf

section

variable (admitted : List QueryState) (total : ResourceVector) (extra : ResourceVector)
  (level : ℚ≥0)

def dominant? (s : QueryState) : Option ℚ≥0 :=
  match s.demand.headroom.dominantShare total with
  | ⊤ => none
  | (d : ℚ≥0) => if 0 < d then some d else none

def finiteLimits : List ℚ≥0 :=
  admitted.filterMap fun s => (dominant? total s).map (· / s.demand.weight)

def partAt (s : QueryState) : ResourceVector :=
  match dominant? total s with
  | none => 0
  | some d => s.demand.headroom.scale (min 1 (level * s.demand.weight / d))

def allocationAt : Dict String ResourceVector :=
  Dict.comprehension admitted (·.queryId) (partAt total level)

def feasible : Prop := (allocationAt admitted total level).values.sum ≤ extra

instance : Decidable (feasible admitted total extra level) := inferInstanceAs (Decidable (_ ≤ _))

/-- `for _ in range(fuel)`: halve the interval, keeping the lower end feasible. -/
def bisect (extra : ResourceVector) : ℕ → ℚ≥0 → ℚ≥0 → ℚ≥0
  | 0, low, _ => low
  | fuel + 1, low, high =>
    let middle := (low + high) / 2
    if feasible admitted total extra middle then
      bisect extra fuel middle high
    else
      bisect extra fuel low middle

def giveTail (field : Dimension)
    : List QueryState → ℕ → Dict String ResourceVector → Dict String ResourceVector
  | [], _, allocated => allocated
  | s :: candidates, tail, allocated =>
    let held := allocated.findD s.queryId 0
    let amount := min tail ⌊s.demand.headroom.get field - held.get field⌋₊
    if amount = 0 then
      giveTail field candidates tail allocated
    else
      let allocated := allocated.insert s.queryId (held.replace field (held.get field + amount))
      if tail - amount = 0 then
        allocated
      else
        giveTail field candidates (tail - amount) allocated

def tailOrder (allocated : Dict String ResourceVector) : List QueryState :=
  admitted.sortBy fun s =>
    let held := s.demand.minimum + allocated.findD s.queryId 0
    toLex ((held.dominantShare total).map (· / s.demand.weight), toLex (-s.demand.priority, s.sequence))

def assignTail (remaining : ResourceVector) (allocated : Dict String ResourceVector)
    (field : Dimension) : Dict String ResourceVector :=
  let tail := ⌊remaining.get field⌋₊
  if tail = 0 then
    allocated
  else
    giveTail field (tailOrder admitted total allocated) tail allocated

def weightedExtras : Dict String ResourceVector :=
  let limits := finiteLimits admitted total
  if admitted = [] ∨ extra = 0 ∨ limits = [] then
    ∅
  else
    let high := limits.foldl max 0
    let low := if feasible admitted total extra high then high else
      bisect admitted total extra 80 0 high
    let allocated := allocationAt admitted total low
    let remaining := extra - allocated.values.sum
    [.heapBytes, .objectStoreBytes].foldl (assignTail admitted total remaining) allocated

end

end Drf

structure Division where
  needed : ℚ≥0
  allocations : Dict String ResourceVector
  remaining : Nodes

namespace Division

def whole (field : Dimension) (amount : ℚ≥0) : ℚ≥0 :=
  match field with
  | .cpu => amount
  | _ => ⌊amount⌋₊

def take (field : Dimension) (node : NodeCapacity) (amount : ℚ≥0) (s : Division) : Division where
  needed := s.needed - amount
  allocations :=
    let held := s.allocations.findD node.nodeId 0
    s.allocations.insert node.nodeId (held.replace field (held.get field + amount))
  remaining := s.remaining.put
    { node with resources := node.resources.replace field (node.resources.get field - amount) }

def takeFrom (field : Dimension) : List NodeCapacity → Division → Division
  | [], s => s
  | node :: candidates, s =>
    let available := node.resources.get field
    let amount := whole field (min s.needed available)
    if available ≤ epsilon ∨ amount = 0 then
      takeFrom field candidates s
    else
      let s := s.take field node amount
      if s.needed ≤ epsilon then s else takeFrom field candidates s

end Division

def divide (request : ResourceVector) (acc : Dict String ResourceVector × Nodes)
    (field : Dimension) : Option (Dict String ResourceVector × Nodes) :=
  let needed := request.get field
  if needed ≤ epsilon then
    some acc
  else
    let candidates := acc.2.values.sortBy fun node =>
      toLex (OrderDual.toDual (node.resources.get field), node.nodeId)
    let s := Division.takeFrom field candidates ⟨needed, acc.1, acc.2⟩
    if epsilon < s.needed then none else some (s.allocations, s.remaining)

/-- `_place_divisible`: what is placed on each node, and what the nodes have left. -/
def placeDivisible (request : ResourceVector) (remaining : Nodes)
    : Option (Dict String ResourceVector × Nodes) :=
  if epsilon < request.gpu then
    none
  else do
    let allocations := Dict.ofKeys remaining.keys fun _ => 0
    let (allocations, remaining) ←
      [.cpu, .heapBytes, .objectStoreBytes].foldlM (divide request) (allocations, remaining)
    return (allocations.filterValues (· ≠ 0), remaining)

structure ClusterQueryResourceCoordinator where
  heartbeatTimeout : ℚ
  nodes : Nodes
  queries : Table QueryState.queryId
  nextSequence : ℕ
  generation : ℕ

structure Rebalance where
  remaining : Nodes
  nodeAllocations : Dict String (Dict String ResourceVector)
  actorPlacements : Dict String (List ActorPlacement)
  pinned : List String := []
  lost : List String := []
  admitted : List QueryState := []

namespace Rebalance

variable (r : Rebalance)

def initial (nodes : Nodes) (queryIds : List String) : Rebalance where
  remaining := nodes
  nodeAllocations := Dict.ofKeys queryIds fun _ => ∅
  actorPlacements := Dict.ofKeys queryIds fun _ => []

def pin (s : QueryState) : Rebalance :=
  if s.actorPlacementLost then
    { r with lost := r.lost ++ [s.queryId] }
  else if s.actorPlacements = [] then
    r
  else
    match s.actorPlacements.foldlM (Trial.pinActor s.demand) ⟨r.remaining, ∅⟩ with
    | none => { r with lost := r.lost ++ [s.queryId] }
    | some t => { r with
        remaining := t.remaining
        pinned := r.pinned ++ [s.queryId]
        actorPlacements := r.actorPlacements.insert s.queryId s.actorPlacements
        nodeAllocations := r.nodeAllocations.insert s.queryId t.allocations }

def admitTasks (s : QueryState) (t : Trial) : Rebalance :=
  match t.placeTasks s.demand.taskBundles with
  | none => r
  | some t => { r with
      remaining := t.remaining
      nodeAllocations := r.nodeAllocations.insert s.queryId t.allocations
      admitted := r.admitted ++ [s] }

def admitQuery (s : QueryState) : Rebalance :=
  let t : Trial := ⟨r.remaining, r.nodeAllocations.findD s.queryId ∅⟩
  if s.queryId ∈ r.lost then
    r
  else if s.queryId ∈ r.pinned then
    r.admitTasks s t
  else
    match t.placeActors s.demand.actorBundles with
    | none => r
    | some (t, placements) =>
      -- The placements are recorded before it is known whether the tasks fit.
      { r with actorPlacements := r.actorPlacements.insert s.queryId placements }.admitTasks s t

def placeExtra (extras : Dict String ResourceVector) (r : Rebalance) (s : QueryState)
    : Except PyError Rebalance :=
  match placeDivisible (extras.findD s.queryId 0) r.remaining with
  | none =>
    .error (.runtimeError s!"failed to place feasible DRF allocation for query {s.queryId}")
  | some (placed, remaining) =>
    .ok { r with
      remaining
      nodeAllocations := r.nodeAllocations.insert s.queryId
        (placed.entries.foldl (fun allocations e => allocations.update e.1 0 (· + e.2))
          (r.nodeAllocations.findD s.queryId ∅)) }

def extras (nodes : Nodes) : Dict String ResourceVector :=
  Drf.weightedExtras r.admitted (nodes.values.map NodeCapacity.resources).sum
    (r.remaining.values.map NodeCapacity.resources).sum

def placeExtras (nodes : Nodes) : Except PyError Rebalance :=
  r.admitted.foldlM (placeExtra (r.extras nodes)) r

def status (queryId : String) : QueryStatus × String :=
  if queryId ∈ r.admitted.map (·.queryId) then
    (.running, "")
  else if queryId ∈ r.lost then
    (.actorPlacementLost, "allocated Ray actor node is no longer available")
  else
    (.pendingResources, "minimum query resource bundles are not currently feasible")

def allocation (generation : ℕ) (queryId : String) : Except PyError QueryAllocation := do
  let held := r.nodeAllocations.findD queryId ∅
  let nodeAllocations ← (held.sortKeys.filterValues (· ≠ 0)).entries.mapM fun e =>
    NodeResourceAllocation.make e.1 e.2
  QueryAllocation.make held.values.sum nodeAllocations (r.actorPlacements.findD queryId []) generation

end Rebalance

namespace ClusterQueryResourceCoordinator

variable (c : ClusterQueryResourceCoordinator) (queryId : String) (capacities : List NodeCapacity)

def normalizeNodes : Except PyError Nodes := do
  let nodes ← capacities.foldlM (fun (nodes : Nodes) node =>
    if nodes.contains node.nodeId then
      .error (.valueError ("duplicate Ray node capacity: " ++ node.nodeId))
    else
      .ok (nodes.put node)) ∅
  return nodes.sorted

def new (heartbeatTimeout : ℚ := 30) : Except PyError ClusterQueryResourceCoordinator := do
  Except.raiseIf (heartbeatTimeout ≤ 0) (.valueError "heartbeat_timeout_s must be finite and > 0")
  let nodes ← normalizeNodes capacities
  return { heartbeatTimeout, nodes, queries := ∅, nextSequence := 0, generation := 0 }

def pinnedPass : Rebalance :=
  (c.queries.values.sortBy fun s => toLex (s.sequence, s.queryId)).foldl Rebalance.pin
    (.initial c.nodes c.queries.keys)

def admissionOrder : List QueryState :=
  c.queries.values.sortBy fun s => toLex (-s.demand.priority, toLex (s.sequence, s.queryId))

def admissionPass : Rebalance := c.admissionOrder.foldl Rebalance.admitQuery c.pinnedPass

def putQuery (s : QueryState) : ClusterQueryResourceCoordinator :=
  { c with queries := c.queries.put s }

def markLost (lost : List String) : ClusterQueryResourceCoordinator :=
  let mark (s : QueryState) : QueryState :=
    if s.queryId ∈ lost then { s with actorPlacementLost := true } else s
  { c with queries := c.queries.modifyAll mark (by intro s; unfold mark; split <;> rfl) }

def settle (r : Rebalance) (allocation : QueryAllocation) (s : QueryState) : QueryState :=
  let debt := s.observedUsage - allocation.resources
  let s := { s with
    allocation
    nodeAllocations := r.nodeAllocations.findD s.queryId ∅
    allocationDebt := debt }
  if debt ≠ 0 ∧ s.state ≠ .actorPlacementLost then
    { s with
      state := .allocationDebt
      rejectionReason := "live query leases exceed the current allocation" }
  else
    s

def publish (r : Rebalance) (generation : ℕ) (queryId : String)
    : Py ClusterQueryResourceCoordinator PUnit := do
  let c ← Py.get
  match c.queries.find? queryId with
  | none => Py.raise (.keyError queryId)
  | some s => do
    let s := { s with
      state := (r.status queryId).1
      rejectionReason := (r.status queryId).2 }
    Py.modify (·.putQuery s)
    let allocation ← Py.lift (r.allocation generation queryId)
    Py.modify (·.putQuery (settle r allocation s))

def rebalance : Py ClusterQueryResourceCoordinator PUnit := do
  Py.modify fun c => { c with generation := c.generation + 1 }
  let c ← Py.get
  let r := c.admissionPass
  Py.modify (·.markLost r.lost)
  let r ← Py.lift (r.placeExtras c.nodes)
  Py.forEach c.queries.keys (publish r c.generation)

def requireGeneration (s : QueryState) (generation : ℤ) : Except PyError Unit :=
  let current : ℤ := s.allocation.generation
  Except.raiseIf (generation ≠ current)
    (.valueError s!"stale allocation generation: got {generation}, current {current}")

def requireQuery : Except PyError QueryState :=
  match c.queries.find? queryId with
  | none => .error (.keyError s!"query is not registered: {queryId}")
  | some s => .ok s

def staged (demand : QueryDemand) (now : ℚ) : ClusterQueryResourceCoordinator :=
  { c with
    queries := c.queries.put
      { demand, sequence := c.nextSequence, expiresAt := now + c.heartbeatTimeout }
    nextSequence := c.nextSequence + 1 }

def registerQuery (demand : QueryDemand) (now : ℚ)
    : Py ClusterQueryResourceCoordinator QueryAllocation := do
  let c ← Py.get
  if c.queries.contains demand.queryId then
    Py.raise (.valueError ("query already registered: " ++ demand.queryId))
  else
    match rebalance (c.staged demand now) with
    | (.error e, _) => Py.raise e -- the previous queries and counters are restored
    | (.ok _, c) => do
      Py.set c
      return (← Py.lift (c.requireQuery demand.queryId)).allocation

def refreshQuery (observedUsage : ResourceVector) (generation : ℤ) (now : ℚ)
    (demand : Option QueryDemand) : Py ClusterQueryResourceCoordinator QueryAllocation := do
  let c ← Py.get
  let s ← Py.lift (c.requireQuery queryId)
  Py.lift (requireGeneration s generation)
  let demand := demand.getD s.demand
  Py.lift (Except.raiseIf (demand.queryId ≠ queryId)
    (.valueError "refresh demand query_id mismatch"))
  Py.modify (·.putQuery { s with demand, observedUsage, expiresAt := now + c.heartbeatTimeout })
  rebalance
  return (← Py.read (·.requireQuery queryId)).allocation

def observe (usage : Dict String ResourceVector) (now : ℚ) : ClusterQueryResourceCoordinator :=
  let refresh (s : QueryState) : QueryState :=
    { s with observedUsage := usage.findD s.queryId 0, expiresAt := now + c.heartbeatTimeout }
  { c with queries := c.queries.modifyAll refresh fun _ => rfl }

def refreshMismatch (expected usage : List String) : String :=
  let missing := (expected.filter (· ∉ usage)).sortBy id
  let unknown := (usage.filter (· ∉ expected)).sortBy id
  let details := (if missing = [] then [] else ["missing=" ++ ",".intercalate missing]) ++
    (if unknown = [] then [] else ["unknown=" ++ ",".intercalate unknown])
  "refresh query set mismatch: " ++ " ".intercalate details

def refreshQueries (usage : Dict String ResourceVector) (generations : Dict String ℤ) (now : ℚ)
    : Py ClusterQueryResourceCoordinator (Dict String QueryAllocation) := do
  Py.lift (Except.raiseIf (¬usage.SameKeys generations)
    (.valueError "refresh query usage and generation sets must match"))
  let c ← Py.get
  Py.lift (Except.raiseIf (¬usage.SameKeys c.queries.toDict)
    (.valueError (refreshMismatch c.queries.keys usage.keys)))
  Py.forEach c.queries.sorted.values fun s =>
    Py.lift (requireGeneration s (generations.findD s.queryId 0))
  Py.modify (·.observe usage now)
  if c.queries.keys ≠ [] then
    rebalance
  let c ← Py.get
  return c.queries.sorted.mapValues (·.allocation)

def heartbeat (generation : ℤ) (now : ℚ) : Py ClusterQueryResourceCoordinator QueryAllocation := do
  let c ← Py.get
  let s ← Py.lift (c.requireQuery queryId)
  Py.lift (requireGeneration s generation)
  Py.modify (·.putQuery { s with expiresAt := now + c.heartbeatTimeout })
  return s.allocation

def removeQuery : ClusterQueryResourceCoordinator :=
  { c with queries := c.queries.remove queryId }

def releaseQuery (generation : ℤ) : Py ClusterQueryResourceCoordinator Bool := do
  let c ← Py.get
  match c.queries.find? queryId with
  | none => return false
  | some s =>
    if generation ≠ s.allocation.generation then
      return false
    else
      Py.modify (·.removeQuery queryId)
      rebalance
      return true

def expired (now : ℚ) : List String :=
  ((c.queries.values.filter (·.expiresAt ≤ now)).map (·.queryId)).sortBy id

def expireQueries (now : ℚ) : Py ClusterQueryResourceCoordinator (List String) := do
  let c ← Py.get
  let expired := c.expired now
  Py.modify fun c => expired.foldl removeQuery c
  if expired ≠ [] then
    rebalance
  return expired

def updateNodeCapacities : Py ClusterQueryResourceCoordinator PUnit := do
  let nodes ← Py.lift (normalizeNodes capacities)
  Py.modify ({ · with nodes })
  rebalance

end ClusterQueryResourceCoordinator

end Vane
