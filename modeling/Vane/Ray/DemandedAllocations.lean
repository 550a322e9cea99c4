import Vane.Ray.QueryGraphBuilder
import Vane.Ray.ServedQueries

/-!
This module contains the contract between the demand of a graph and the allocation it gets back.
-/

namespace Vane

open Except (bind_eq_ok_iff bind_ok exists_mem_of_mapM_eq_ok forM_eq_ok_iff ok_of_bind raiseIf_eq_ok_iff)
open List (le_foldl_max length_map mem_append_left mem_filter mem_map mem_map_of_mem mem_range)

namespace ResourceVector

theorem le_componentMax {l : List ResourceVector} {a : ResourceVector} (h : a ∈ l) :
    a ≤ componentMax l :=
  ⟨List.le_foldl_max (.inl (mem_map_of_mem h)),
    le_foldl_max (.inl (mem_map_of_mem h)),
    le_foldl_max (.inl (mem_map_of_mem h)),
    le_foldl_max (.inl (mem_map_of_mem h))⟩

theorem scale_natCast (a : ResourceVector) (n : ℕ) : a.scale n = (List.replicate n a).sum := by
  apply eq_of_get_eq
  intro d
  rw [get_sum, List.map_replicate, List.sum_replicate, nsmul_eq_mul, mul_comm]
  cases d with
  | cpu => rfl
  | gpu => rfl
  | heapBytes =>
    simp only [get, scale]
    rw [← Nat.cast_mul, Nat.floor_natCast]
  | objectStoreBytes =>
    simp only [get, scale]
    rw [← Nat.cast_mul, Nat.floor_natCast]

end ResourceVector

namespace QueryExecutionGraph

variable {g : QueryExecutionGraph} {stage : StageResourceSpec} {a : QueryAllocation}
  {d : QueryDemand}

theorem mem_stagesOf {backend : Backend} :
    stage ∈ g.stagesOf backend ↔ stage ∈ g.stages ∧ stage.backend = backend := by
  simp [stagesOf]

theorem actor_stage (h : stage ∈ g.stagesOf .rayActor) :
    0 < stage.actorMinSize ∧ stage.perTask.cpu = 0 ∧ stage.perTask.gpu = 0 ∧
      stage.perTask.heapBytes = 0 := by
  obtain ⟨hmem, hbackend⟩ := mem_stagesOf.mp h
  have hvalid := validateStage_of_stage? (stage?_of_mem hmem)
  unfold Fields.validateStage at hvalid
  simp only [bind_eq_ok_iff, raiseIf_eq_ok_iff, exists_const] at hvalid
  obtain ⟨-, -, -, -, -, -, -, -, -, -, -, -, -, -, hvalid⟩ := hvalid
  rw [if_pos hbackend] at hvalid
  simp only [bind_eq_ok_iff, raiseIf_eq_ok_iff, exists_const, not_or, not_not] at hvalid
  obtain ⟨hsize, -, -, -, hresources, -⟩ := hvalid
  exact ⟨not_le.mp hsize, hresources⟩

def IsActor (g : QueryExecutionGraph) (key : String × ℕ) : Prop :=
  ∃ stage ∈ g.stagesOf .rayActor, stage.stageId = key.1 ∧ key.2 < stage.actorMinSize.toNat

def actorLoads (g : QueryExecutionGraph) (placements : List ActorPlacement) :
    List (String × ResourceVector) :=
  placements.map fun p => (p.nodeId, ((g.stage? p.stageId).map (·.actorBundle)).getD 0)

def Placed (g : QueryExecutionGraph) (placements : List ActorPlacement) : Prop :=
  ∀ key, key ∈ placements.map (·.key) ↔ g.IsActor key

structure Carries (g : QueryExecutionGraph) (a : QueryAllocation)
    (loads : List (String × ResourceVector)) : Prop where
  onNode : ∀ n, a.onNode n = loadOn n (g.actorLoads a.actorPlacements ++ loads)
  total : a.resources = ((g.actorLoads a.actorPlacements ++ loads).map Prod.snd).sum

section

variable {loads : List (String × ResourceVector)}

theorem mem_actorLoads (h : stage ∈ g.stages) {p : ActorPlacement} (hp : p ∈ a.actorPlacements)
    (hid : p.stageId = stage.stageId) :
    (p.nodeId, stage.actorBundle) ∈ g.actorLoads a.actorPlacements := by
  refine mem_map.mpr ⟨p, hp, ?_⟩
  rw [hid, stage?_of_mem h]
  rfl

theorem Carries.load_le (h : g.Carries a loads) {load : String × ResourceVector}
    (hload : load ∈ g.actorLoads a.actorPlacements ++ loads) : load.2 ≤ a.resources := by
  rw [h.total]
  exact List.single_le_sum (fun _ _ => zero_le) _ (mem_map_of_mem hload)

theorem Carries.exists_node (h : g.Carries a loads) {load : String × ResourceVector}
    (hload : load ∈ g.actorLoads a.actorPlacements ++ loads) {x : ResourceVector}
    (hx : x ≤ load.2) (hne : x ≠ 0) : ∃ node ∈ a.nodeAllocations, x ≤ node.resources := by
  have hle : x ≤ a.onNode load.1 := by
    rw [h.onNode]
    exact hx.trans (le_loadOn hload)
  have hnode : a.onNode load.1 ≠ 0 := by
    intro hzero
    rw [hzero] at hle
    exact hne (le_antisymm hle zero_le)
  obtain ⟨node, hmem, -, hresources⟩ := QueryAllocation.exists_node_of_onNode_ne_zero hnode
  exact ⟨node, hmem, hresources ▸ hle⟩

theorem resourcesForNode_of_placed {p : ActorPlacement} (hp : p ∈ a.actorPlacements) :
    a.resourcesForNode p.nodeId = .ok (a.onNode p.nodeId) := by
  obtain ⟨node, hnode, hid⟩ := mem_map.mp (a.placed_on_nodes p hp)
  rw [← hid, QueryAllocation.resourcesForNode_of_mem hnode, QueryAllocation.onNode_of_mem hnode]

theorem Placed.mem_indices (h : g.Placed a.actorPlacements) (hstage : stage ∈ g.stagesOf .rayActor)
    (i : ℕ) : i ∈ (a.actorPlacements.filter (·.stageId = stage.stageId)).map (·.actorIndex) ↔
      i < stage.actorMinSize.toNat := by
  have hkey : i ∈ (a.actorPlacements.filter (·.stageId = stage.stageId)).map (·.actorIndex) ↔
      (stage.stageId, i) ∈ a.actorPlacements.map (·.key) := by
    simp only [mem_map, mem_filter, decide_eq_true_eq, ActorPlacement.key, Prod.mk.injEq]
    constructor
    . rintro ⟨p, ⟨hp, hid⟩, rfl⟩
      exact ⟨p, hp, hid, rfl⟩
    . rintro ⟨p, hp, hid, rfl⟩
      exact ⟨p, ⟨hp, hid⟩, rfl⟩
  rw [hkey, h]
  constructor
  . rintro ⟨other, hother, hid, hlt⟩
    have hsame := List.inj_on_of_nodup_map g.nodup_stageIds (mem_stagesOf.mp hother).1
      (mem_stagesOf.mp hstage).1 hid
    rwa [hsame] at hlt
  . exact fun hlt => ⟨stage, hstage, rfl, hlt⟩

theorem Placed.length_placements (h : g.Placed a.actorPlacements)
    (hstage : stage ∈ g.stagesOf .rayActor) :
    (a.actorPlacements.filter (·.stageId = stage.stageId)).length = stage.actorMinSize.toNat := by
  have hnodup : ((a.actorPlacements.filter (·.stageId = stage.stageId)).map (·.actorIndex)).Nodup := by
    have hkeys : ((a.actorPlacements.filter (·.stageId = stage.stageId)).map (·.key)).Nodup :=
      a.nodup_actors.sublist (List.filter_sublist.map _)
    apply List.Nodup.of_map (fun i => (stage.stageId, i))
    rw [List.map_map]
    convert hkeys using 1
    apply List.map_congr_left
    intro p hp
    have hid : p.stageId = stage.stageId := by simpa using (mem_filter.mp hp).2
    simp [ActorPlacement.key, hid]
  have hperm := (List.perm_ext_iff_of_nodup hnodup List.nodup_range).mpr fun i => by
    rw [h.mem_indices hstage, mem_range]
  rw [← length_map (f := (·.actorIndex)), hperm.length_eq, List.length_range]

theorem Carries.scale_le (h : g.Carries a loads) (hplaced : g.Placed a.actorPlacements)
    (hstage : stage ∈ g.stagesOf .rayActor) :
    stage.actorBundle.scale stage.actorMinSize.toNat ≤ a.resources := by
  have hbundles : ((g.actorLoads (a.actorPlacements.filter (·.stageId = stage.stageId))).map
      Prod.snd) = List.replicate stage.actorMinSize.toNat stage.actorBundle := by
    rw [List.eq_replicate_iff]
    constructor
    . rw [length_map, actorLoads, length_map, hplaced.length_placements hstage]
    . intro bundle hbundle
      obtain ⟨load, hload, rfl⟩ := mem_map.mp hbundle
      obtain ⟨p, hp, rfl⟩ := mem_map.mp hload
      have hid : p.stageId = stage.stageId := by simpa using (mem_filter.mp hp).2
      rw [hid, stage?_of_mem (mem_stagesOf.mp hstage).1]
      rfl
  rw [ResourceVector.scale_natCast, ← hbundles, h.total, List.map_append, List.sum_append]
  apply le_trans _ le_self_add
  apply List.Sublist.sum_le_sum _ fun _ _ => zero_le
  exact ((List.filter_sublist).map _).map _

end

/-! The checks of the graph. -/

structure ActorsFit (a : QueryAllocation) (stage : StageResourceSpec) : Prop where
  indices : a.actorPlacements.filter (·.stageId = stage.stageId) ≠ [] → ∀ i,
    i ∈ (a.actorPlacements.filter (·.stageId = stage.stageId)).map (·.actorIndex) ↔
      i < stage.actorMinSize.toNat
  room : ∀ p ∈ a.actorPlacements, p.stageId = stage.stageId → stage.actorBundle ≤ a.onNode p.nodeId

structure StageFits (a : QueryAllocation) (stage : StageResourceSpec) : Prop where
  total : (if stage.backend = .rayActor then stage.residentPerActor else 0) + stage.taskCommitment ≤
    a.resources
  node : stage.taskCommitment ≠ 0 → ∃ node ∈ a.nodeAllocations,
    (if stage.backend = .rayActor then stage.residentPerActor else 0) + stage.taskCommitment ≤
      node.resources
  actors : stage.backend = .rayActor →
    stage.actorBundle.scale stage.actorMinSize.toNat ≤ a.resources ∧
    (a.actorPlacements.filter (·.stageId = stage.stageId)).length = stage.actorMinSize.toNat

theorem validateStageAllocation_isOk {full : Bool} (hfull : full = true → StageFits a stage)
    (hactors : stage.backend = .rayActor → ActorsFit a stage) :
    validateStageAllocation a full stage = .ok () := by
  have hstore : full = true →
      stage.perTask.objectStoreBytes + stage.outputWindowBytes ≤ a.resources.objectStoreBytes :=
    fun h => le_trans (Nat.le_add_left _ _) (hfull h).total.2.2.2
  unfold validateStageAllocation
  simp only [bind_eq_ok_iff, raiseIf_eq_ok_iff, exists_const,
    ne_eq, ResourceVector.exceededDimensions_eq_nil_iff]
  refine ⟨?_, ?_, ?_, ?_, ?_⟩
  . rintro ⟨h, -, hlt⟩
    have := hstore h
    omega
  . rintro ⟨h, -, hlt⟩
    have := hstore h
    omega
  . rintro ⟨h, hnot⟩
    exact hnot (hfull h).total
  . rintro ⟨h, hne, hnot⟩
    exact hnot ((hfull h).node hne)
  . split
    . next hbackend =>
      simp only [bind_eq_ok_iff, raiseIf_eq_ok_iff, exists_const, forM_eq_ok_iff]
      obtain ⟨hindices, hroom⟩ := hactors hbackend
      refine ⟨?_, ?_, ?_, ?_⟩
      . rintro ⟨h, hnot⟩
        exact hnot ((hfull h).actors hbackend).1
      . rintro ⟨h, hnot⟩
        exact hnot ((hfull h).actors hbackend).2
      . rintro ⟨hne, hnot⟩
        exact hnot ⟨fun i hi => (hindices hne i).mp hi, fun i hi => (hindices hne i).mpr hi⟩
      . intro p hp
        obtain ⟨hmem, hid⟩ := mem_filter.mp hp
        refine ⟨_, resourcesForNode_of_placed hmem, ?_⟩
        rw [not_not]
        exact hroom p hmem (of_decide_eq_true hid)
    . rfl

theorem invocation_eq (h : stage ∈ g.stagesOf .rayActor) :
    stage.residentPerActor +
      .ofObjectStore (stage.perTask.objectStoreBytes + stage.outputWindowBytes) =
        stage.actorBundle := by
  obtain ⟨-, hcpu, hgpu, hheap⟩ := actor_stage h
  unfold StageResourceSpec.actorBundle StageResourceSpec.taskCommitment
  congr 1
  ext <;> simp [ResourceVector.ofObjectStore, ResourceVector.withObjectStore, hcpu, hgpu, hheap]

theorem foldlM_addActorCommitment {placements : List ActorPlacement}
    (h : ∀ p ∈ placements, g.IsActor p.key) :
    placements.foldlM g.addActorCommitment ∅ =
      .ok ((g.actorLoads placements).foldl (fun d load => d.update load.1 0 (· + load.2)) ∅) := by
  unfold actorLoads
  rw [List.foldl_map]
  refine Except.foldlM_eq_ok (fun _ => True) ?_ (fun _ _ _ _ => trivial) trivial
  intro byNode p hp _
  obtain ⟨stage, hstage, hid, -⟩ := h p hp
  have hfind : g.stage? p.stageId = some stage := by
    rw [show p.stageId = stage.stageId from hid.symm]
    exact stage?_of_mem (mem_stagesOf.mp hstage).1
  unfold addActorCommitment stageById
  rw [hfind]
  simp only [bind_ok, Option.map_some, Option.getD_some, add_assoc, invocation_eq hstage]
  rfl

theorem validateAllocation_isOk {full : Bool} (loads : List (String × ResourceVector))
    (hknown : ∀ p ∈ a.actorPlacements, g.IsActor p.key)
    (hactors : ∀ stage ∈ g.stagesOf .rayActor, ActorsFit a stage)
    (hfull : full = true → (∀ stage ∈ g.stages, StageFits a stage) ∧ g.Carries a loads) :
    g.validateAllocation a full = .ok () := by
  have hunknown : (a.actorPlacements.map (·.stageId)).dedup.filter
      (· ∉ (g.stages.filter (·.backend = .rayActor)).map (·.stageId)) = [] := by
    rw [List.filter_eq_nil_iff]
    intro stageId hmem hnot
    obtain ⟨p, hp, rfl⟩ := mem_map.mp (List.mem_dedup.mp hmem)
    obtain ⟨stage, hstage, hid, -⟩ := hknown p hp
    exact of_decide_eq_true hnot (mem_map.mpr ⟨stage, hstage, hid⟩)
  unfold validateAllocation
  rw [bind_eq_ok_iff]
  refine ⟨(), forM_eq_ok_iff.mpr fun stage hstage => ?_, ?_⟩
  . exact validateStageAllocation_isOk (fun h => (hfull h).1 stage hstage)
      fun hbackend => hactors stage (mem_stagesOf.mpr ⟨hstage, hbackend⟩)
  . simp only [hunknown, List.sortBy, List.insertionSort_nil, ne_eq, not_true_eq_false]
    rw [Except.raiseIf_of_not not_false, bind_ok]
    cases full with
    | false => rfl
    | true =>
      rw [if_pos rfl, foldlM_addActorCommitment hknown, bind_ok, forM_eq_ok_iff]
      rintro ⟨n, commitment⟩ hentry
      have hfind := Dict.find?_eq_some_iff.mpr hentry
      have hamount := amount_foldl_update n (g.actorLoads a.actorPlacements) ∅
      rw [Dict.amount_of_find? hfind, Dict.amount_empty, zero_add, id] at hamount
      rcases mem_keys_foldl_update (Dict.mem_keys_iff.mpr ⟨_, hfind⟩) with hkey | hkey
      . cases hkey
      . obtain ⟨load, hload, rfl⟩ := mem_map.mp hkey
        obtain ⟨p, hp, rfl⟩ := mem_map.mp hload
        simp only [bind_eq_ok_iff, raiseIf_eq_ok_iff, not_not]
        refine ⟨_, resourcesForNode_of_placed hp, ?_⟩
        rw [hamount, (hfull rfl).2.onNode, loadOn_append]
        exact le_self_add

theorem accepted_of_placed (hplaced : a.actorPlacements = [] ∨ g.Placed a.actorPlacements)
    (hroom : ∀ load ∈ g.actorLoads a.actorPlacements, load.2 ≤ a.onNode load.1) :
    g.validateAllocation a false = .ok () := by
  refine validateAllocation_isOk [] ?_ ?_ (fun h => by cases h)
  . intro p hp
    rcases hplaced with hnone | hplaced
    . rw [hnone] at hp
      cases hp
    . exact (hplaced _).mp (mem_map_of_mem hp)
  . intro stage hstage
    refine ⟨fun hne => ?_, fun p hp hid => ?_⟩
    . rcases hplaced with hnone | hplaced
      . simp [hnone] at hne
      . exact hplaced.mem_indices hstage
    . exact hroom (p.nodeId, stage.actorBundle) (mem_actorLoads (mem_stagesOf.mp hstage).1 hp hid)

/-! The demand. -/

structure DemandOf (g : QueryExecutionGraph) (d : QueryDemand) : Prop where
  actors : ∀ key bundle, d.actorBundle? key = some bundle ↔
    ∃ stage ∈ g.stagesOf .rayActor, stage.stageId = key.1 ∧
      key.2 < stage.actorMinSize.toNat ∧ stage.actorBundle = bundle
  tasks : d.taskBundles = g.taskBundles

theorem mem_actorBundles {bundles : List ActorResourceBundle} (h : g.actorBundles = .ok bundles)
    {b : ActorResourceBundle} : b ∈ bundles ↔ ∃ stage ∈ g.stagesOf .rayActor,
      ∃ i < stage.actorMinSize.toNat,
        ActorResourceBundle.make stage.stageId i stage.actorBundle = .ok b := by
  obtain ⟨lists, hlists, h⟩ := ok_of_bind h
  cases h
  rw [List.mem_flatten]
  constructor
  . rintro ⟨l, hl, hb⟩
    obtain ⟨stage, hstage, hbundles⟩ := Except.mem_of_mapM_eq_ok hlists hl
    obtain ⟨i, hi, hmake⟩ := Except.mem_of_mapM_eq_ok hbundles hb
    exact ⟨stage, hstage, i, mem_range.mp hi, hmake⟩
  . rintro ⟨stage, hstage, i, hi, hmake⟩
    obtain ⟨l, hl, hbundles⟩ := exists_mem_of_mapM_eq_ok hlists hstage
    obtain ⟨b', hb', hmake'⟩ := exists_mem_of_mapM_eq_ok hbundles (mem_range.mpr hi)
    rw [hmake] at hmake'
    cases hmake'
    exact ⟨l, hl, hb'⟩

theorem demandOf_of_build {clusterCapacity : ResourceVector} {weight : ℚ} {priority : ℤ}
    (hstripped : ∀ stage ∈ g.stagesOf .rayActor, Text.strip stage.stageId = stage.stageId)
    (h : g.buildQueryDemand clusterCapacity weight priority = .ok d) : g.DemandOf d := by
  obtain ⟨bundles, hbundles, h⟩ := ok_of_bind h
  obtain ⟨hactors, htasks⟩ := QueryDemand.make_eq_ok h
  refine ⟨fun key bundle => ?_, htasks⟩
  constructor
  . intro hfound
    obtain ⟨b, hb, rfl⟩ := Option.map_eq_some_iff.mp hfound
    have hmem := List.mem_of_find?_eq_some hb
    rw [hactors, mem_actorBundles hbundles] at hmem
    obtain ⟨stage, hstage, i, hi, hmake⟩ := hmem
    obtain ⟨hid, hindex, hresources⟩ := ActorResourceBundle.make_eq_ok hmake
    have hkey : b.key = key := by simpa using List.find?_some hb
    subst hkey
    refine ⟨stage, hstage, ?_, ?_, hresources.symm⟩
    . exact (hid.trans (hstripped stage hstage)).symm
    . exact hindex.trans_lt hi
  . rintro ⟨stage, hstage, hid, hlt, rfl⟩
    obtain ⟨lists, hlists, hbundles⟩ := ok_of_bind hbundles
    cases hbundles
    obtain ⟨l, hl, hl'⟩ := exists_mem_of_mapM_eq_ok hlists hstage
    obtain ⟨b, hb, hmake⟩ := exists_mem_of_mapM_eq_ok hl' (mem_range.mpr hlt)
    obtain ⟨hstage', hindex, hresources⟩ := ActorResourceBundle.make_eq_ok hmake
    have hmem : b ∈ d.actorBundles := by
      rw [hactors]
      exact List.mem_flatten.mpr ⟨l, hl, hb⟩
    have hkey : b.key = key := by
      unfold ActorResourceBundle.key
      rw [hstage', hindex, hstripped stage hstage, hid]
    rw [← hkey, QueryDemand.actorBundle?_key hmem, hresources]

theorem DemandOf.mem_keys_iff (h : g.DemandOf d) (key : String × ℕ) :
    key ∈ d.actorBundles.map (·.key) ↔ g.IsActor key := by
  constructor
  . intro hkey
    obtain ⟨b, hb, rfl⟩ := mem_map.mp hkey
    obtain ⟨stage, hstage, hid, hlt, -⟩ := (h.actors _ _).mp (QueryDemand.actorBundle?_key hb)
    exact ⟨stage, hstage, hid, hlt⟩
  . rintro ⟨stage, hstage, hid, hlt⟩
    have hfound := (h.actors key _).mpr ⟨stage, hstage, hid, hlt, rfl⟩
    obtain ⟨b, hb, -⟩ := Option.map_eq_some_iff.mp hfound
    have hkey : b.key = key := by simpa using List.find?_some hb
    exact mem_map.mpr ⟨b, List.mem_of_find?_eq_some hb, hkey⟩

theorem DemandOf.loadsOf_eq (h : g.DemandOf d) {placements : List ActorPlacement}
    (hplacements : ∀ p ∈ placements, g.IsActor p.key) :
    d.loadsOf placements = g.actorLoads placements := by
  apply List.map_congr_left
  intro p hp
  obtain ⟨stage, hstage, hid, hlt⟩ := hplacements p hp
  rw [(h.actors _ _).mpr ⟨stage, hstage, hid, hlt, rfl⟩,
    show p.stageId = stage.stageId from hid.symm, stage?_of_mem (mem_stagesOf.mp hstage).1]
  rfl

/-- The bundles of the demand make room for every stage: the actors keep their ids, and a stage that
no Ray process runs commits nothing beyond some bundle. -/
structure Reserved (g : QueryExecutionGraph) : Prop where
  stripped : ∀ stage ∈ g.stagesOf .rayActor, Text.strip stage.stageId = stage.stageId
  covered : ∀ stage ∈ g.stages, stage.isRayProcess ∨ stage.taskCommitment = 0 ∨
    (∃ bundle ∈ g.taskBundles, stage.taskCommitment ≤ bundle) ∨
    ∃ actor ∈ g.stagesOf .rayActor, stage.taskCommitment ≤ actor.actorBundle

theorem mem_taskBundles {l : List ResourceVector} {x : ResourceVector}
    (hl : ResourceVector.componentMax l ∈ [ResourceVector.componentMax
      ((g.stagesOf .rayTask).map (·.taskCommitment)), .componentMax
      ((g.stagesOf .rayWorker).map (·.taskCommitment)), .componentMax g.downstreamFteTasks])
    (hx : x ∈ l) (hne : x ≠ 0) : ∃ bundle ∈ g.taskBundles, x ≤ bundle := by
  refine ⟨.componentMax l, mem_filter.mpr ⟨hl, ?_⟩, ResourceVector.le_componentMax hx⟩
  simp only [decide_eq_true_eq]
  intro hzero
  have hle := ResourceVector.le_componentMax hx
  rw [hzero] at hle
  exact hne (le_antisymm hle zero_le)

section

variable {loads : List (String × ResourceVector)} (hcarries : g.Carries a loads)
  (hplaced : g.Placed a.actorPlacements)

include hplaced in
theorem exists_actorLoad (hstage : stage ∈ g.stagesOf .rayActor) :
    ∃ load ∈ g.actorLoads a.actorPlacements, load.2 = stage.actorBundle := by
  have hpos : 0 < stage.actorMinSize.toNat := by
    have := (actor_stage hstage).1
    omega
  have hkey := (hplaced (stage.stageId, 0)).mpr ⟨stage, hstage, rfl, hpos⟩
  obtain ⟨p, hp, hkey⟩ := mem_map.mp hkey
  exact ⟨_, mem_actorLoads (mem_stagesOf.mp hstage).1 hp (congrArg Prod.fst hkey), rfl⟩

include hcarries hplaced in
theorem stageFits (hreserved : g.Reserved)
    (htasks : ∀ bundle ∈ g.taskBundles, ∃ load ∈ loads, load.2 = bundle) (hstage : stage ∈ g.stages) :
    StageFits a stage := by
  by_cases hbackend : stage.backend = .rayActor
  . have hactor := mem_stagesOf.mpr ⟨hstage, hbackend⟩
    obtain ⟨load, hload, hbundle⟩ := exists_actorLoad hplaced hactor
    have hmem : load ∈ g.actorLoads a.actorPlacements ++ loads := mem_append_left _ hload
    refine ⟨?_, fun hne => ?_, fun _ => ?_⟩
    . rw [if_pos hbackend]
      exact hbundle.symm.trans_le (hcarries.load_le hmem)
    . rw [if_pos hbackend]
      refine hcarries.exists_node hmem hbundle.ge fun hzero => hne ?_
      exact le_antisymm (hzero ▸ le_add_self) zero_le
    . exact ⟨hcarries.scale_le hplaced hactor, hplaced.length_placements hactor⟩
  . have hroom : stage.taskCommitment ≠ 0 →
        ∃ load ∈ g.actorLoads a.actorPlacements ++ loads, stage.taskCommitment ≤ load.2 := by
      intro hne
      have hbundle : (∃ bundle ∈ g.taskBundles, stage.taskCommitment ≤ bundle) ∨
          ∃ actor ∈ g.stagesOf .rayActor, stage.taskCommitment ≤ actor.actorBundle := by
        rcases hreserved.covered stage hstage with hprocess | hzero | hbundle
        . left
          rcases of_decide_eq_true hprocess with htask | hactor | hworker
          . exact mem_taskBundles (by simp) (mem_map_of_mem (mem_stagesOf.mpr ⟨hstage, htask⟩))
              hne
          . exact absurd hactor hbackend
          . exact mem_taskBundles (by simp)
              (mem_map_of_mem (mem_stagesOf.mpr ⟨hstage, hworker⟩)) hne
        . exact absurd hzero hne
        . exact hbundle
      rcases hbundle with ⟨bundle, hbundle, hle⟩ | ⟨actor, hactor, hle⟩
      . obtain ⟨load, hload, rfl⟩ := htasks bundle hbundle
        exact ⟨load, List.mem_append_right _ hload, hle⟩
      . obtain ⟨load, hload, hbundle⟩ := exists_actorLoad hplaced hactor
        exact ⟨load, mem_append_left _ hload, hbundle ▸ hle⟩
    refine ⟨?_, fun hne => ?_, fun h => absurd h hbackend⟩
    . rw [if_neg hbackend, zero_add]
      by_cases hzero : stage.taskCommitment = 0
      . rw [hzero]
        exact zero_le
      . obtain ⟨load, hload, hle⟩ := hroom hzero
        exact hle.trans (hcarries.load_le hload)
    . rw [if_neg hbackend, zero_add]
      obtain ⟨load, hload, hle⟩ := hroom hne
      exact hcarries.exists_node hload hle hne

include hcarries hplaced in
theorem accepted_of_carries (hreserved : g.Reserved)
    (htasks : ∀ bundle ∈ g.taskBundles, ∃ load ∈ loads, load.2 = bundle) :
    g.validateAllocation a = .ok () := by
  refine validateAllocation_isOk loads (fun p hp => (hplaced _).mp (mem_map_of_mem hp)) ?_ ?_
  . intro stage hstage
    refine ⟨fun _ => hplaced.mem_indices hstage, fun p hp hid => ?_⟩
    have hload := mem_actorLoads (mem_stagesOf.mp hstage).1 hp hid
    rw [hcarries.onNode]
    exact le_loadOn (mem_append_left _ hload)
  . exact fun _ => ⟨fun stage hstage => stageFits hcarries hplaced hreserved htasks hstage, hcarries⟩

end

end QueryExecutionGraph

/-! What the coordinator publishes. -/

namespace ClusterQueryResourceCoordinator

open Rebalance

variable {g : QueryExecutionGraph} {c c' : ClusterQueryResourceCoordinator} {r : Rebalance}
  {generation : ℕ} {s s₀ s' : QueryState} {a : QueryAllocation}

theorem allocation_of_holds (hgrows : Grows c.admissionPass r) {placements : List ActorPlacement}
    {loads : List (String × ResourceVector)} (hholds : Holds r s placements loads)
    (ha : r.allocation generation s.queryId = .ok a) :
    a.actorPlacements = placements ∧ (∀ n, a.onNode n = loadOn n loads) ∧
      a.resources = (loads.map Prod.snd).sum := by
  obtain ⟨held, hheld, hamount⟩ := hholds.allocations
  have hnamed := (hgrows.balanced c.admissionPass_balanced).named _ held hheld
  have hshows := allocation_shows hheld hholds.placements
    (fun n hn => c.identifier_of_mem_keys (hnamed n hn)) ha
  refine ⟨hshows.actors, fun n => (hshows.onNode n).trans (hamount n), ?_⟩
  rw [hshows.resources, hholds.total hheld]

structure Honoured (g : QueryExecutionGraph) (s : QueryState) : Prop where
  demand : g.DemandOf s.demand
  placed : s.actorPlacements = [] ∨ g.Placed s.actorPlacements
  accepted : g.validateAllocation s.allocation false = .ok ()
  running : s.state = .running → g.validateAllocation s.allocation = .ok ()

theorem Shown.admitted_of_running (h : Shown r generation s₀ s') (hrunning : s'.state = .running) :
    s₀.queryId ∈ r.admitted.map (·.queryId) := by
  have hstate := h.state
  rw [hrunning] at hstate
  rcases hstate with hstatus | ⟨hdebt, -⟩
  . unfold Rebalance.status at hstatus
    split at hstatus
    . next hmem => exact hmem
    . split at hstatus <;> cases hstatus
  . cases hdebt

theorem settled_honoured (hreserved : g.Reserved) (hs : s ∈ c.queries.values) (h : Honoured g s)
    (hr : c.admissionPass.placeExtras c.nodes = .ok r) (hstranded : ¬c.Stranded s)
    (ha : r.allocation generation s.queryId = .ok a) :
    (a.actorPlacements = [] ∨ g.Placed a.actorPlacements) ∧
      g.validateAllocation a false = .ok () ∧
      (s.queryId ∈ r.admitted.map (·.queryId) → g.validateAllocation a = .ok ()) := by
  obtain ⟨hgrows, -, hother⟩ := foldlM_placeExtra_spec (fun _ hq => admitted_mem_keys hq) hr
  rw [hgrows.admitted]
  -- A query that is not admitted gets none of the extras.
  have hkept : ∀ {placements loads}, Holds c.admissionPass s placements loads →
      s.queryId ∉ c.admissionPass.admitted.map (·.queryId) → Holds r s placements loads := by
    intro placements loads hholds hadmitted
    refine ⟨hgrows.placements ▸ hholds.placements, ?_⟩
    rw [hother _ hadmitted]
    exact hholds.allocations
  cases settled_of_not_stranded hs hstranded with
  | idle hadmitted hholds =>
    obtain ⟨hactors, -, -⟩ := allocation_of_holds hgrows (hkept hholds hadmitted) ha
    refine ⟨.inl hactors, ?_, fun h => absurd h hadmitted⟩
    apply QueryExecutionGraph.accepted_of_placed (.inl hactors)
    rw [hactors]
    nofun
  | waiting hadmitted hbundles hholds =>
    obtain ⟨hactors, honNode, -⟩ := allocation_of_holds hgrows (hkept hholds hadmitted) ha
    have hplaced : a.actorPlacements = [] ∨ g.Placed a.actorPlacements := by
      rw [hactors]
      exact h.placed
    refine ⟨hplaced, ?_, fun h => absurd h hadmitted⟩
    apply QueryExecutionGraph.accepted_of_placed hplaced
    intro load hload
    have hloads : s.demand.loadsOf s.actorPlacements = g.actorLoads s.actorPlacements := by
      apply h.demand.loadsOf_eq
      intro p hp
      obtain ⟨b, hb⟩ := hbundles p hp
      obtain ⟨stage, hstage, hid, hlt, -⟩ := (h.demand.actors _ _).mp hb
      exact ⟨stage, hstage, hid, hlt⟩
    rw [honNode, hloads, ← hactors]
    exact le_loadOn hload
  | running placements hosts hadmitted hbundles hplaced hhosts hholds =>
    obtain ⟨more, hmore⟩ := hgrows.holds hholds
    obtain ⟨hactors, honNode, htotal⟩ := allocation_of_holds hgrows hmore ha
    have hall : g.Placed a.actorPlacements := by
      rw [hactors]
      rcases hplaced with ⟨rfl, hne⟩ | hkeys
      . exact h.placed.resolve_left hne
      . intro key
        rw [hkeys]
        exact h.demand.mem_keys_iff key
    have hloads : s.demand.loadsOf placements = g.actorLoads a.actorPlacements := by
      rw [hactors]
      exact h.demand.loadsOf_eq fun p hp => (hall _).mp (hactors ▸ mem_map_of_mem hp)
    have hcarries : g.Carries a (hosts.zip s.demand.taskBundles ++ more) := by
      rw [hloads, List.append_assoc] at honNode htotal
      exact ⟨honNode, htotal⟩
    refine ⟨.inr hall, ?_, fun _ => ?_⟩
    . apply QueryExecutionGraph.accepted_of_placed (.inr hall)
      intro load hload
      rw [hcarries.onNode]
      exact le_loadOn (mem_append_left _ hload)
    . apply QueryExecutionGraph.accepted_of_carries hcarries hall hreserved
      intro bundle hbundle
      rw [← h.demand.tasks, ← List.map_snd_zip hhosts.ge] at hbundle
      obtain ⟨load, hload, hbundle⟩ := mem_map.mp hbundle
      exact ⟨load, mem_append_left _ hload, hbundle⟩

theorem Honoured.of_same (h : Honoured g s) (hdemand : s'.demand = s.demand)
    (hallocation : s'.allocation = s.allocation) (hstate : s'.state = .running → s.state = .running) :
    Honoured g s' where
  demand := hdemand ▸ h.demand
  placed := by
    unfold QueryState.actorPlacements
    rw [hallocation]
    exact h.placed
  accepted := hallocation ▸ h.accepted
  running hrunning := hallocation ▸ h.running (hstate hrunning)

def AllHonoured (g : QueryExecutionGraph) (c : ClusterQueryResourceCoordinator) : Prop :=
  ∀ s ∈ c.queries.values, s.queryId = g.queryId → Honoured g s

theorem rebalance_honoured (hreserved : g.Reserved) (hc : AllHonoured g c) :
    AllHonoured g (rebalance c).2 := by
  intro s' hs' hid'
  have hmarked : ∀ s₀ ∈ ({ c with generation := c.generation + 1 }.markLost
      c.admissionPass.lost).queries.values, s₀.queryId = g.queryId → Honoured g s₀ := by
    intro s₀ hs₀ hid
    obtain ⟨s, hs, hdemand, -, hallocation, hstate, -⟩ := mem_markLost hs₀
    have hsame := congrArg QueryDemand.queryId hdemand
    exact (hc s hs (hsame.symm.trans hid)).of_same hdemand hallocation fun h => hstate ▸ h
  rcases rebalance_turned c with heq | ⟨r, hr, hturned⟩
  . rw [heq] at hs'
    exact hmarked s' hs' hid'
  . obtain ⟨s₀, hs₀, rfl | hshown⟩ := hturned.queries s' hs'
    . exact hmarked s' hs₀ hid'
    . have h₀ := hmarked s₀ hs₀ (hshown.queryId.symm.trans hid')
      obtain ⟨s, hs, hdemand, -, hallocation, -, -⟩ := mem_markLost hs₀
      have hsame : s₀.queryId = s.queryId := congrArg QueryDemand.queryId hdemand
      have h := hc s hs (hsame.symm.trans (hshown.queryId.symm.trans hid'))
      obtain ⟨hgrows, -, -⟩ := foldlM_placeExtra_spec (fun _ hq => admitted_mem_keys hq) hr
      by_cases hstranded : c.Stranded s
      . obtain ⟨e, he⟩ := allocation_of_stranded hstranded (c.generation + 1) hr
        have hold : s'.allocation = s₀.allocation := by
          rcases hshown.allocation with hok | ⟨-, hold⟩
          . rw [hsame, he] at hok
            cases hok
          . exact hold
        refine h₀.of_same hshown.demand hold fun hrunning => ?_
        have hadmitted := hshown.admitted_of_running hrunning
        obtain ⟨-, -, -, hnot⟩ := hstranded.holds
        rw [hsame, hgrows.admitted] at hadmitted
        exact absurd hadmitted hnot
      . obtain ⟨a, ha⟩ := allocation_of_settled hs hstranded hgrows (Nat.succ_pos c.generation)
        obtain ⟨hplaced, haccepted, hadmitted⟩ := settled_honoured hreserved hs h hr hstranded ha
        have hshows : s'.allocation = a := by
          rcases hshown.allocation with hok | ⟨⟨e, he⟩, -⟩
          . rw [hsame, ha] at hok
            exact (Except.ok.inj hok).symm
          . rw [hsame, ha] at he
            cases he
        refine ⟨hshown.demand ▸ h₀.demand, ?_, hshows ▸ haccepted, fun hrunning => ?_⟩
        . unfold QueryState.actorPlacements
          rw [hshows]
          exact hplaced
        . rw [hshows]
          exact hadmitted (hsame ▸ hshown.admitted_of_running hrunning)

def Call.Follows (g : QueryExecutionGraph) : Call → Prop
  | registerQuery demand _ | refreshQuery _ _ _ _ (some demand) =>
    demand.queryId = g.queryId → ∃ clusterCapacity weight priority,
      g.buildQueryDemand clusterCapacity weight priority = .ok demand
  | _ => True

theorem staged_honoured (hreserved : g.Reserved) {call : Call} (hcall : call.Follows g)
    (hc : AllHonoured g c) (hstages : Stages call c c') : AllHonoured g c' := by
  intro s' hs' hid
  rcases hstages.queries s' hs' with ⟨s, hs, hsame, hdemand⟩ | ⟨hnew, -, now, rfl⟩
  . have h := hc s hs (hsame.queryId.symm.trans hid)
    rcases hdemand with hdemand | ⟨observedUsage, generation, now, rfl⟩
    . exact h.of_same hdemand hsame.allocation fun hrunning => hsame.state ▸ hrunning
    . obtain ⟨clusterCapacity, weight, priority, hbuild⟩ := hcall hid
      refine ⟨QueryExecutionGraph.demandOf_of_build hreserved.stripped hbuild, ?_,
        hsame.allocation ▸ h.accepted, fun hrunning => ?_⟩
      . unfold QueryState.actorPlacements
        rw [hsame.allocation]
        exact h.placed
      . exact hsame.allocation ▸ h.running (hsame.state ▸ hrunning)
  . obtain ⟨clusterCapacity, weight, priority, hbuild⟩ := hcall hid
    have hnone : s'.allocation.actorPlacements = [] := by
      rw [hnew.allocation]
      rfl
    refine ⟨QueryExecutionGraph.demandOf_of_build hreserved.stripped hbuild, .inl hnone, ?_,
      fun hrunning => ?_⟩
    . apply QueryExecutionGraph.accepted_of_placed (.inl hnone)
      rw [hnone]
      nofun
    . rw [hnew.state] at hrunning
      cases hrunning

theorem step_honoured (hreserved : g.Reserved) {call : Call} (hcall : call.Follows g)
    (hc : AllHonoured g c) : AllHonoured g (call.step c) := by
  refine Call.step_invariant (P := AllHonoured g) hc ?_ ?_
  . exact fun c' hc' => staged_honoured hreserved hcall hc (hc'.stages call)
  . intro c₁ hstaged _
    exact rebalance_honoured hreserved
      (staged_honoured hreserved hcall hc (stages_of_staged hstaged))

def scanStage : StageResourceSpec where
  queryId := "q"
  stageId := "stage:scan"
  physicalNodeId := "1"
  stageKind := .other "fragment" fragment_ne_udf
  backend := .rayWorker
  inputStageIds := []
  perTask := { cpu := 1, heapBytes := 1 }
  targetOutputBlockBytes := 4
  generatorBufferBlocks := 2
  maxConcurrency := none

def actorStage (stageId : String) : StageResourceSpec where
  queryId := "q"
  stageId
  physicalNodeId := "2"
  stageKind := .udf
  backend := .rayActor
  inputStageIds := ["stage:scan"]
  perTask := { objectStoreBytes := 2 }
  targetOutputBlockBytes := 4
  generatorBufferBlocks := 1
  maxConcurrency := none
  residentPerActor := { cpu := 1, heapBytes := 1 }
  actorMinSize := 2
  actorMaxSize := 2

def actorGraph : QueryExecutionGraph where
  queryId := "q"
  planDigest := "d"
  stages := [scanStage, actorStage "stage:udf"]
  terminalStageIds := ["stage:udf"]
  valid := by decide +kernel

def actorNode : NodeCapacity :=
  ⟨"n", { cpu := 3, heapBytes := 3, objectStoreBytes := 20 }, isIdentifier_n⟩

def actorDemand : QueryDemand where
  queryId := "q"
  minimum := { cpu := 3, heapBytes := 3, objectStoreBytes := 20 }
  desired := { cpu := 3, heapBytes := 3, objectStoreBytes := 20 }
  weight := 1
  priority := 0
  actorBundles :=
    [⟨"stage:udf", 0, { cpu := 1, heapBytes := 1, objectStoreBytes := 6 }, by decide, by decide +kernel⟩,
      ⟨"stage:udf", 1, { cpu := 1, heapBytes := 1, objectStoreBytes := 6 }, by decide,
        by decide +kernel⟩]
  taskBundles := [{ cpu := 1, heapBytes := 1, objectStoreBytes := 8 }]
  queryId_identifier := isIdentifier_q
  minimum_le_desired := le_refl _
  weight_pos := weight_one_pos
  nodup_actors := by decide
  bundles_eq_minimum := by decide +kernel

def localGraph : QueryExecutionGraph where
  queryId := "q"
  planDigest := "d"
  stages := [scanStage, {
    queryId := "q"
    stageId := "stage:local"
    physicalNodeId := "2"
    stageKind := .udf
    backend := .other "local" (by decide)
    inputStageIds := ["stage:scan"]
    perTask := { cpu := 8 }
    targetOutputBlockBytes := 0
    generatorBufferBlocks := 0
    maxConcurrency := none }]
  terminalStageIds := ["stage:local"]
  valid := by decide +kernel

def localDemand : QueryDemand where
  queryId := "q"
  minimum := { cpu := 1, heapBytes := 1, objectStoreBytes := 8 }
  desired := { cpu := 3, heapBytes := 3, objectStoreBytes := 20 }
  weight := 1
  priority := 0
  actorBundles := []
  taskBundles := [{ cpu := 1, heapBytes := 1, objectStoreBytes := 8 }]
  queryId_identifier := isIdentifier_q
  minimum_le_desired := by decide +kernel
  weight_pos := weight_one_pos
  nodup_actors := nodup_no_actors
  bundles_eq_minimum := by decide +kernel

def paddedGraph : QueryExecutionGraph where
  queryId := "q"
  planDigest := "d"
  stages := [scanStage, actorStage "stage:udf "]
  terminalStageIds := ["stage:udf "]
  valid := by decide +kernel

end ClusterQueryResourceCoordinator

end Vane
