import Vane.Ray.QueryAllocation

/-!
This module contains the graph of stages that a query executes, with the checks of its constructor.
-/

namespace Vane

open Except (bind_eq_ok_iff ok_of_bind raiseIf_eq_ok_iff)

inductive Backend where
  | rayTask
  | rayActor
  | rayWorker
  | other (name : String) (unlisted : name ∉ ["ray_task", "ray_actor", "ray_worker"])
  deriving DecidableEq

def Backend.name : Backend → String
  | rayTask => "ray_task"
  | rayActor => "ray_actor"
  | rayWorker => "ray_worker"
  | other name _ => name

inductive StageKind where
  | udf
  | other (name : String) (unlisted : name ≠ "udf")
  deriving DecidableEq

theorem fragment_ne_udf : "fragment" ≠ "udf" := by decide

def StageKind.name : StageKind → String
  | udf => "udf"
  | other name _ => name

inductive SpillMode where
  | streaming
  | barrier
  | invalid (name : String) (unlisted : name ∉ ["streaming", "barrier"])
  deriving DecidableEq

def SpillMode.name : SpillMode → String
  | streaming => "streaming"
  | barrier => "barrier"
  | invalid name _ => name

def ResourceVector.withObjectStore (a : ResourceVector) (bytes : ℕ) : ResourceVector :=
  { a with objectStoreBytes := bytes }

def ResourceVector.ofObjectStore (bytes : ℕ) : ResourceVector := { objectStoreBytes := bytes }

def ResourceVector.componentMax (l : List ResourceVector) : ResourceVector where
  cpu := (l.map (·.cpu)).foldl max 0
  gpu := (l.map (·.gpu)).foldl max 0
  heapBytes := (l.map (·.heapBytes)).foldl max 0
  objectStoreBytes := (l.map (·.objectStoreBytes)).foldl max 0

structure StageResourceSpec where
  queryId : String
  stageId : String
  physicalNodeId : String
  stageKind : StageKind
  backend : Backend
  inputStageIds : List String
  perTask : ResourceVector
  targetOutputBlockBytes : ℤ
  generatorBufferBlocks : ℤ
  maxConcurrency : Option ℤ
  residentPerActor : ResourceVector := 0
  actorMinSize : ℤ := 0
  actorMaxSize : ℤ := 0
  actorPrefetchDepth : ℤ := 1
  spillMode : SpillMode := .streaming
  deriving DecidableEq

namespace StageResourceSpec

variable (stage : StageResourceSpec)

def outputWindowBytes : ℕ := (stage.targetOutputBlockBytes * stage.generatorBufferBlocks).toNat

def isRayProcess : Bool :=
  stage.backend = .rayTask ∨ stage.backend = .rayActor ∨ stage.backend = .rayWorker

/-- `_task_commitment`: what one task with the declared retained input takes, its window included. -/
def taskCommitment : ResourceVector :=
  stage.perTask.withObjectStore (stage.perTask.objectStoreBytes + stage.outputWindowBytes)

end StageResourceSpec

namespace QueryExecutionGraph

structure Fields where
  queryId : String
  planDigest : String
  stages : List StageResourceSpec
  terminalStageIds : List String
  deriving DecidableEq

namespace Fields

variable (g : Fields)

open Except (raiseIf)

def validateStage (stage : StageResourceSpec) : Except PyError Unit := do
  let id := stage.stageId
  let shown := if id = "" then "<empty>" else id
  let (given, expected) := (stage.queryId, g.queryId)
  raiseIf (Text.strip given ≠ expected)
    (.valueError s!"stage {shown} query_id '{given}' does not match '{expected}'")
  raiseIf (Text.strip id = "") (.valueError "stage_id must be non-empty")
  raiseIf (¬id.startsWith "stage:")
    (.valueError s!"stage_id must use stable 'stage:' identity: {id}")
  raiseIf (Text.strip stage.physicalNodeId = "")
    (.valueError s!"stage {id} physical_node_id must be non-empty")
  raiseIf (Text.strip stage.stageKind.name = "")
    (.valueError s!"stage {id} stage_kind must be non-empty")
  raiseIf (Text.strip stage.backend.name = "") (.valueError s!"stage {id} backend must be non-empty")
  raiseIf (stage.targetOutputBlockBytes < 0)
    (.valueError s!"stage {id} target_output_block_bytes must be >= 0")
  raiseIf (stage.generatorBufferBlocks < 0)
    (.valueError s!"stage {id} generator_buffer_blocks must be >= 0")
  raiseIf (stage.targetOutputBlockBytes = 0 ∧ stage.generatorBufferBlocks ≠ 0)
    (.valueError
      s!"stage {id} target_output_block_bytes and generator_buffer_blocks must both be zero")
  raiseIf (0 < stage.targetOutputBlockBytes ∧ stage.generatorBufferBlocks ≤ 0)
    (.valueError
      s!"stage {id} target_output_block_bytes and generator_buffer_blocks must both be positive")
  raiseIf (∃ n ∈ stage.maxConcurrency, n ≤ 0)
    (.valueError s!"stage {id} max_concurrency must be > 0")
  raiseIf (stage.spillMode ≠ .streaming ∧ stage.spillMode ≠ .barrier)
    (.valueError s!"stage {id} has invalid spill_mode '{stage.spillMode.name}'")
  let processResources :=
    if stage.backend = .rayActor then stage.residentPerActor else stage.perTask
  raiseIf (stage.isRayProcess ∧ processResources.cpu ≤ 0 ∧ processResources.gpu ≤ 0)
    (.valueError s!"Ray stage {id} must request CPU or GPU resources")
  raiseIf (stage.isRayProcess ∧ processResources.heapBytes ≤ 0)
    (.valueError s!"Ray stage {id} must request non-zero heap_bytes")
  if stage.backend = .rayActor then
    raiseIf (stage.actorMinSize ≤ 0)
      (.valueError s!"ray_actor stage {id} actor_min_size must be > 0")
    raiseIf (stage.actorMaxSize < stage.actorMinSize)
      (.valueError s!"ray_actor stage {id} actor_max_size must be >= actor_min_size")
    raiseIf (stage.actorPrefetchDepth ≤ 0)
      (.valueError s!"ray_actor stage {id} actor_prefetch_depth must be > 0")
    raiseIf (stage.maxConcurrency ≠ none)
      (.valueError s!"ray_actor stage {id} concurrency is owned by concrete actor slots")
    raiseIf (stage.perTask.cpu ≠ 0 ∨ stage.perTask.gpu ≠ 0 ∨ stage.perTask.heapBytes ≠ 0)
      (.valueError
        s!"ray_actor stage {id} invocation resources may only contain object-store bytes")
  else
    raiseIf (stage.actorMinSize ≠ 0 ∨ stage.actorMaxSize ≠ 0)
      (.valueError s!"actor bounds are only valid for ray_actor stages: {id}")
    raiseIf (stage.actorPrefetchDepth ≠ 1)
      (.valueError s!"actor_prefetch_depth is only configurable for ray_actor stages: {id}")
    raiseIf (stage.residentPerActor ≠ 0)
      (.valueError s!"resident_per_actor is only valid for ray_actor stages: {id}")
  raiseIf (stage.backend = .rayTask ∧ stage.maxConcurrency ≠ none)
    (.valueError s!"ray_task stage {id} concurrency is owned by resource credit")

def downstream (stageId : String) : List String :=
  (g.stages.filter (stageId ∈ ·.inputStageIds)).map (·.stageId)

structure Kahn where
  indegree : Dict String ℤ
  ready : List String

def Kahn.visit (k : Kahn) (child : String) : Kahn :=
  let degree := k.indegree.findD child 0 - 1
  { indegree := k.indegree.insert child degree
    ready := if degree = 0 then k.ready ++ [child] else k.ready }

def topologicalOrder.go (g : Fields) : ℕ → Kahn → List String
  | 0, _ => []
  | turns + 1, k =>
    match k.ready.minBy? id with
    | none => []
    | some stageId =>
      let popped := { k with ready := k.ready.erase stageId }
      stageId :: go g turns (((g.downstream stageId).sortBy id).foldl Kahn.visit popped)

/-- `_topological_order`: among the stages that are ready the least id comes first. -/
def topologicalOrder (g : Fields) : List String :=
  let indegree : Dict String ℤ :=
    Dict.comprehension g.stages (·.stageId) fun stage => (stage.inputStageIds.length : ℤ)
  let ready := (indegree.entries.filter (·.2 = 0)).map Prod.fst
  topologicalOrder.go g g.stages.length ⟨indegree, ready⟩

structure Registry where
  byId : Dict String StageResourceSpec := ∅
  physicalNodes : Dict String String := ∅

def register (r : Registry) (stage : StageResourceSpec) : Except PyError Registry := do
  g.validateStage stage
  raiseIf (r.byId.contains stage.stageId) (.valueError s!"duplicate stage_id: {stage.stageId}")
  let user := r.physicalNodes.findD stage.physicalNodeId ""
  raiseIf (r.physicalNodes.contains stage.physicalNodeId)
    (.valueError
      s!"duplicate physical_node_id: {stage.physicalNodeId} used by {user} and {stage.stageId}")
  return {
    byId := r.byId.insert stage.stageId stage
    physicalNodes := r.physicalNodes.insert stage.physicalNodeId stage.stageId }

def validateInputs (r : Registry) (stage : StageResourceSpec) : Except PyError Unit := do
  raiseIf (¬stage.inputStageIds.Nodup)
    (.valueError s!"stage {stage.stageId} has duplicate input_stage_ids")
  stage.inputStageIds.forM fun input => do
    raiseIf (¬r.byId.contains input)
      (.valueError s!"stage {stage.stageId} references missing input stage {input}")
    raiseIf (input = stage.stageId)
      (.valueError s!"query graph contains a cycle at stage {stage.stageId}")

def reachesTerminal : List String :=
  g.topologicalOrder.reverse.foldl
    (fun reached stageId =>
      if (g.downstream stageId).any (· ∈ reached) then reached ++ [stageId] else reached)
    g.terminalStageIds

def validate : Except PyError Unit := do
  raiseIf (g.queryId = "") (.valueError "query_id must be non-empty")
  raiseIf (g.planDigest = "") (.valueError "plan_digest must be non-empty")
  raiseIf (g.stages = []) (.valueError "query graph must contain at least one stage")
  raiseIf (g.terminalStageIds = [])
    (.valueError "query graph must contain at least one terminal stage")
  let r ← g.stages.foldlM g.register {}
  raiseIf (¬g.terminalStageIds.Nodup) (.valueError "terminal_stage_ids must be unique")
  g.terminalStageIds.forM fun terminal =>
    raiseIf (¬r.byId.contains terminal)
      (.valueError s!"terminal stage is not registered: {terminal}")
  g.stages.forM (validateInputs r)
  raiseIf (g.topologicalOrder.length ≠ r.byId.keys.length)
    (.valueError "query graph contains a cycle")
  g.terminalStageIds.forM fun terminal =>
    let children := ", ".intercalate ((g.downstream terminal).sortBy id)
    raiseIf (g.downstream terminal ≠ [])
      (.valueError s!"terminal stage {terminal} has downstream stages: {children}")
  match (r.byId.keys.filter (· ∉ g.reachesTerminal)).minBy? id with
  | some missing => throw (.valueError s!"stage {missing} does not reach a terminal stage")
  | none => return

end Fields

end QueryExecutionGraph

structure QueryExecutionGraph extends QueryExecutionGraph.Fields where
  valid : toFields.validate = .ok ()
  deriving DecidableEq

namespace QueryExecutionGraph

variable {g : QueryExecutionGraph} {stage : StageResourceSpec} {stageId : String}

open Except (raiseIf)

def make (queryId planDigest : String) (stages : List StageResourceSpec)
    (terminalStageIds : List String) : Except PyError QueryExecutionGraph :=
  let fields : Fields :=
    { queryId := Text.strip queryId, planDigest := Text.strip planDigest, stages, terminalStageIds }
  match h : fields.validate with
  | .ok () => .ok ⟨fields, h⟩
  | .error e => .error e

def stage? (g : QueryExecutionGraph) (stageId : String) : Option StageResourceSpec :=
  g.stages.find? (·.stageId = stageId)

def stageById (g : QueryExecutionGraph) (stageId : String) : Except PyError StageResourceSpec :=
  match g.stage? stageId with
  | some stage => .ok stage
  | none => .error (.keyError ("unknown stage_id '" ++ stageId ++ "'"))

def stageIds (g : QueryExecutionGraph) : List String := g.stages.map (·.stageId)

theorem stageId_of_stage? (h : g.stage? stageId = some stage) : stage.stageId = stageId := by
  simpa using List.find?_some h

theorem mem_stageIds_iff : stageId ∈ g.stageIds ↔ ∃ stage, g.stage? stageId = some stage := by
  rw [← Option.isSome_iff_exists]
  unfold stageIds stage?
  simp

theorem keys_of_register {g : Fields} {stages : List StageResourceSpec} {r r' : Fields.Registry}
    (h : stages.foldlM g.register r = .ok r') :
    r'.byId.keys = r.byId.keys ++ stages.map (·.stageId) := by
  induction stages generalizing r with
  | nil =>
    cases h
    exact (List.append_nil _).symm
  | cons stage stages ih =>
    rw [List.foldlM_cons] at h
    obtain ⟨next, hnext, h⟩ := ok_of_bind h
    unfold Fields.register at hnext
    simp only [bind_eq_ok_iff, raiseIf_eq_ok_iff, exists_const] at hnext
    obtain ⟨_, -, hfree, -, hnext⟩ := hnext
    cases hnext
    have hkeys : (r.byId.insert stage.stageId stage).keys = r.byId.keys ++ [stage.stageId] := by
      unfold Dict.keys
      rw [Dict.entries_insert_of_not_mem (Option.not_isSome_iff_eq_none.mp hfree), List.map_append]
      rfl
    rw [ih h, hkeys, List.append_assoc]
    rfl

theorem validateStage_of_register {g : Fields} {stages : List StageResourceSpec}
    {r r' : Fields.Registry} (h : stages.foldlM g.register r = .ok r') :
    ∀ stage ∈ stages, g.validateStage stage = .ok () := by
  induction stages generalizing r with
  | nil => simp
  | cons stage stages ih =>
    rw [List.foldlM_cons] at h
    obtain ⟨next, hnext, h⟩ := ok_of_bind h
    obtain ⟨_, hvalid, -⟩ := ok_of_bind hnext
    exact List.forall_mem_cons.mpr ⟨hvalid, ih h⟩

theorem register_stages (g : QueryExecutionGraph) : ∃ r, g.stages.foldlM g.register {} = .ok r ∧
    g.topologicalOrder.length = r.byId.keys.length := by
  have hvalid := g.valid
  unfold Fields.validate at hvalid
  simp only [bind_eq_ok_iff, raiseIf_eq_ok_iff, exists_const] at hvalid
  obtain ⟨-, -, -, -, r, hr, -, _, -, _, -, hlength, -⟩ := hvalid
  exact ⟨r, hr, not_not.mp hlength⟩

theorem nodup_stageIds (g : QueryExecutionGraph) : g.stageIds.Nodup := by
  obtain ⟨r, hr, -⟩ := g.register_stages
  have hnodup := r.byId.nodup_keys
  rwa [keys_of_register hr] at hnodup

theorem stage?_of_mem (h : stage ∈ g.stages) : g.stage? stage.stageId = some stage := by
  unfold stage?
  cases hfind : g.stages.find? (·.stageId = stage.stageId) with
  | none => simpa using List.find?_eq_none.mp hfind stage h
  | some other =>
    have hid : other.stageId = stage.stageId := by simpa using List.find?_some hfind
    rw [List.inj_on_of_nodup_map g.nodup_stageIds (List.mem_of_find?_eq_some hfind) h hid]

theorem validateStage_of_stage? (h : g.stage? stageId = some stage) :
    g.validateStage stage = .ok () := by
  obtain ⟨r, hr, -⟩ := g.register_stages
  exact validateStage_of_register hr stage (List.mem_of_find?_eq_some h)

theorem actorPrefetchDepth_pos (h : g.stage? stageId = some stage) :
    0 < stage.actorPrefetchDepth := by
  have hvalid := validateStage_of_stage? h
  unfold Fields.validateStage at hvalid
  simp only [bind_eq_ok_iff, raiseIf_eq_ok_iff, exists_const] at hvalid
  obtain ⟨-, -, -, -, -, -, -, -, -, -, -, -, -, -, hvalid⟩ := hvalid
  split at hvalid
  . simp only [bind_eq_ok_iff, raiseIf_eq_ok_iff, exists_const] at hvalid
    obtain ⟨-, -, hdepth, -⟩ := hvalid
    exact not_le.mp hdepth
  . simp only [bind_eq_ok_iff, raiseIf_eq_ok_iff, exists_const] at hvalid
    obtain ⟨-, hdepth, -⟩ := hvalid
    rw [not_not.mp hdepth]
    exact Int.one_pos

namespace Fields

variable {k : Kahn} {ids done : List String}

/-- What was made ready has no open inputs, so that no stage is made ready twice. -/
structure Kahn.Distinct (k : Kahn) (ids done : List String) : Prop where
  nodup : (k.ready ++ done).Nodup
  spent : ∀ id ∈ k.ready ++ done, k.indegree.findD id 0 ≤ 0
  known : ∀ id ∈ k.ready ++ done, id ∈ ids

theorem Kahn.Distinct.visit (h : k.Distinct ids done) {child : String} (hchild : child ∈ ids) :
    (k.visit child).Distinct ids done := by
  have hspent : ∀ id ∈ k.ready ++ done,
      (k.indegree.insert child (k.indegree.findD child 0 - 1)).findD id 0 ≤ 0 := by
    intro id hid
    have hid := h.spent id hid
    rw [Dict.findD_insert]
    split
    . next heq =>
      subst heq
      omega
    . exact hid
  unfold Kahn.visit
  dsimp only
  split
  . next hzero =>
    have hnew : child ∉ k.ready ++ done := by
      intro hmem
      have hmem := h.spent child hmem
      omega
    have hready : ∀ id, id ∈ k.ready ++ [child] ++ done ↔ id = child ∨ id ∈ k.ready ++ done := by
      simp only [List.mem_append, List.mem_singleton]
      tauto
    refine ⟨?_, ?_, ?_⟩
    . rw [List.append_assoc]
      exact List.nodup_middle.mpr (List.nodup_cons.mpr ⟨hnew, h.nodup⟩)
    . intro id hid
      rcases (hready id).mp hid with rfl | hid
      . rw [Dict.findD_insert, if_pos rfl]
        omega
      . exact hspent id hid
    . intro id hid
      rcases (hready id).mp hid with rfl | hid
      . exact hchild
      . exact h.known id hid
  . exact ⟨h.nodup, hspent, h.known⟩

theorem topologicalOrder.go_distinct {g : Fields} (turns : ℕ)
    (h : k.Distinct (g.stages.map (·.stageId)) done) :
    (go g turns k ++ done).Nodup ∧ ∀ id ∈ go g turns k ++ done, id ∈ g.stages.map (·.stageId) := by
  induction turns generalizing k done with
  | zero => exact ⟨h.nodup.sublist (List.sublist_append_right _ _),
      fun id hid => h.known id (List.mem_append_right _ hid)⟩
  | succ turns ih =>
    unfold go
    split
    . exact ⟨h.nodup.sublist (List.sublist_append_right _ _),
        fun id hid => h.known id (List.mem_append_right _ hid)⟩
    . next stageId hmin =>
      have hperm : (k.ready ++ done).Perm (k.ready.erase stageId ++ stageId :: done) :=
        ((List.perm_cons_erase (List.minBy?_mem hmin)).append_right done).trans List.perm_middle.symm
      have hpopped : Kahn.Distinct { k with ready := k.ready.erase stageId }
          (g.stages.map (·.stageId)) (stageId :: done) :=
        ⟨hperm.nodup_iff.mp h.nodup, fun id hid => h.spent id (hperm.mem_iff.mpr hid),
          fun id hid => h.known id (hperm.mem_iff.mpr hid)⟩
      have hvisited : (((g.downstream stageId).sortBy id).foldl Kahn.visit
          { k with ready := k.ready.erase stageId }).Distinct
            (g.stages.map (·.stageId)) (stageId :: done) := by
        refine List.foldlRecOn (motive := fun k : Kahn => k.Distinct (g.stages.map (·.stageId))
          (stageId :: done)) _ _ hpopped ?_
        intro k hk child hchild
        obtain ⟨stage, hstage, rfl⟩ := List.mem_map.mp (List.mem_sortBy.mp hchild)
        exact hk.visit (List.mem_map_of_mem (List.mem_of_mem_filter hstage))
      obtain ⟨hnodup, hknown⟩ := ih hvisited
      exact ⟨List.perm_middle.nodup_iff.mp hnodup,
        fun id hid => hknown id (List.perm_middle.mem_iff.mpr hid)⟩

end Fields

theorem mem_topologicalOrder : stageId ∈ g.topologicalOrder ↔ stageId ∈ g.stageIds := by
  have hstart : ∀ d : Dict String ℤ, (∀ id ∈ d.keys, id ∈ g.stageIds) →
      Fields.Kahn.Distinct ⟨d, (d.entries.filter (·.2 = 0)).map Prod.fst⟩ g.stageIds [] := by
    intro d hd
    have hready : ∀ id ∈ (d.entries.filter (·.2 = 0)).map Prod.fst ++ [], d.find? id = some 0 := by
      simp [Dict.find?_eq_some_iff]
    refine ⟨?_, ?_, ?_⟩
    . rw [List.append_nil]
      exact d.nodup_keys.sublist (List.filter_sublist.map _)
    . intro id hid
      unfold Dict.findD
      rw [hready id hid]
      exact le_rfl
    . exact fun id hid => hd id (Dict.mem_keys_iff.mpr ⟨0, hready id hid⟩)
  obtain ⟨hnodup, hknown⟩ := Fields.topologicalOrder.go_distinct g.stages.length
    (hstart (.comprehension g.stages (·.stageId) fun stage => stage.inputStageIds.length)
      fun id hid => Dict.mem_keys_comprehension.mp hid)
  rw [List.append_nil] at hnodup hknown
  obtain ⟨r, hr, hlength⟩ := g.register_stages
  rw [keys_of_register hr] at hlength
  exact ((List.subperm_of_subset hnodup hknown).perm_of_length_le hlength.ge).mem_iff

def topologicalStageIds (g : QueryExecutionGraph) : List String := g.topologicalOrder

def reverseTopologicalStageIds (g : QueryExecutionGraph) : List String :=
  g.topologicalStageIds.reverse

def isBoundary (g : QueryExecutionGraph) (stageId : String) : Bool :=
  match g.stage? stageId with
  | some stage => stage.backend ≠ .rayWorker
  | none => false

/-- Which stages a path from the source reaches, and whether a boundary lies on one of the paths. -/
def crossedNonFte (g : QueryExecutionGraph) (source : StageResourceSpec) : Dict String Bool :=
  g.topologicalStageIds.foldl
    (fun crossed stageId =>
      match crossed.find? stageId with
      | none => crossed
      | some here =>
        (g.downstream stageId).foldl
          (fun crossed child => crossed.update child false (· || here || g.isBoundary child)) crossed)
    ((∅ : Dict String Bool).insert source.stageId (source.backend ≠ .rayWorker))

def separateSlotStageIds (g : QueryExecutionGraph) (source : StageResourceSpec) : List String :=
  let crossed := g.crossedNonFte source
  g.topologicalStageIds.filter fun stageId =>
    stageId ≠ source.stageId ∧ ¬g.isBoundary stageId ∧ crossed.findD stageId false

def downstreamFteStageIdsRequiringSeparateSlot (g : QueryExecutionGraph) (sourceStageId : String) :
    Except PyError (List String) := do
  let source ← g.stageById sourceStageId
  return g.separateSlotStageIds source

def validateStageAllocation (allocation : QueryAllocation) (requireFullMinimum : Bool)
    (stage : StageResourceSpec) : Except PyError Unit := do
  let capacity := allocation.resources
  let id := stage.stageId
  let window := stage.outputWindowBytes
  let owned := capacity.objectStoreBytes
  let commitment := stage.taskCommitment
  let resident := if stage.backend = .rayActor then stage.residentPerActor else 0
  let placement := resident + commitment
  let total := stage.perTask.objectStoreBytes + window
  raiseIf (requireFullMinimum ∧ 0 < owned ∧ owned < window)
    (.valueError
      s!"stage {id} output window {window} exceeds query object-store allocation {owned}")
  raiseIf (requireFullMinimum ∧ 0 < owned ∧ owned < total)
    (.valueError
      (s!"stage {id} retained input plus output window {total} exceeds " ++
        s!"query object-store allocation {owned}"))
  let exceeded := placement.exceededDimensions capacity
  let exceededNames := ", ".intercalate (exceeded.map Dimension.name)
  raiseIf (requireFullMinimum ∧ exceeded ≠ [])
    (.valueError s!"stage {id} maximum task exceeds query allocation for {exceededNames}")
  raiseIf (requireFullMinimum ∧ commitment ≠ 0 ∧
      ¬∃ node ∈ allocation.nodeAllocations, placement ≤ node.resources)
    (.valueError s!"stage {id} maximum task does not fit any allocated Ray node")
  if stage.backend = .rayActor then
    let size := stage.actorMinSize.toNat
    let exceededActor := (placement.scale size).exceededDimensions capacity
    let exceededActorNames := ", ".intercalate (exceededActor.map Dimension.name)
    raiseIf (requireFullMinimum ∧ exceededActor ≠ [])
      (.valueError s!"stage {id} actor minimum exceeds query allocation for {exceededActorNames}")
    let placements := allocation.actorPlacements.filter (·.stageId = id)
    let indices := placements.map (·.actorIndex)
    raiseIf (requireFullMinimum ∧ placements.length ≠ size)
      (.valueError s!"stage {id} requires exactly {size} actor placements")
    raiseIf (placements ≠ [] ∧ ¬((∀ i ∈ indices, i < size) ∧ ∀ i < size, i ∈ indices))
      (.valueError s!"stage {id} actor placement indices must be contiguous from zero")
    placements.forM fun p => do
      let available ← allocation.resourcesForNode p.nodeId
      raiseIf (¬placement ≤ available)
        (.valueError s!"stage {id} actor {p.actorIndex} does not fit allocated Ray node {p.nodeId}")

def addActorCommitment (g : QueryExecutionGraph) (byNode : Dict String ResourceVector)
    (p : ActorPlacement) : Except PyError (Dict String ResourceVector) := do
  let stage ← g.stageById p.stageId
  let invocation : ResourceVector :=
    .ofObjectStore (stage.perTask.objectStoreBytes + stage.outputWindowBytes)
  return byNode.update p.nodeId 0 (· + stage.residentPerActor + invocation)

def validateAllocation (g : QueryExecutionGraph) (allocation : QueryAllocation)
    (requireFullMinimum : Bool := true) : Except PyError Unit := do
  g.stages.forM (validateStageAllocation allocation requireFullMinimum)
  let knownStageIds := (g.stages.filter (·.backend = .rayActor)).map (·.stageId)
  let unknown := ((allocation.actorPlacements.map (·.stageId)).dedup.filter
    (· ∉ knownStageIds)).sortBy id
  raiseIf (unknown ≠ [])
    (.valueError ("actor placement references non-actor stage: " ++ ", ".intercalate unknown))
  if requireFullMinimum then
    let byNode ← allocation.actorPlacements.foldlM g.addActorCommitment ∅
    byNode.entries.forM fun (nodeId, commitment) => do
      let available ← allocation.resourcesForNode nodeId
      raiseIf (¬commitment ≤ available)
        (.valueError s!"cumulative actor placements do not fit allocated Ray node {nodeId}")

theorem stage?_of_validateAllocation {allocation : QueryAllocation}
    {requireFullMinimum : Bool} (h : g.validateAllocation allocation requireFullMinimum = .ok ())
    {p : ActorPlacement} (hp : p ∈ allocation.actorPlacements) :
    ∃ stage, g.stage? p.stageId = some stage := by
  obtain ⟨_, -, h⟩ := ok_of_bind h
  obtain ⟨_, hunknown, -⟩ := ok_of_bind h
  rw [raiseIf_eq_ok_iff, not_not] at hunknown
  rw [← mem_stageIds_iff]
  by_contra hnot
  have hmem : p.stageId ∈ ((allocation.actorPlacements.map (·.stageId)).dedup.filter
      (· ∉ (g.stages.filter (·.backend = .rayActor)).map (·.stageId))).sortBy id := by
    simp only [List.mem_sortBy, List.mem_filter, List.mem_dedup, decide_eq_true_eq]
    refine ⟨List.mem_map_of_mem hp, ?_⟩
    intro hknown
    obtain ⟨stage, hstage, hid⟩ := List.mem_map.mp hknown
    rw [← hid] at hnot
    exact hnot (List.mem_map_of_mem (List.mem_of_mem_filter hstage))
  rw [hunknown] at hmem
  cases hmem

end QueryExecutionGraph

end Vane
