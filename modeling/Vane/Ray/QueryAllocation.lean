import Vane.Lib.Load
import Vane.Lib.Text
import Vane.Ray.ResourceVector

/-! This module contains what a query asks of the cluster coordinator and what it is given. -/

namespace Vane

def IsIdentifier (s : String) : Prop := Text.strip s = s ∧ s ≠ ""

instance (s : String) : Decidable (IsIdentifier s) := inferInstanceAs (Decidable (_ ∧ _))

theorem isIdentifier_strip {s : String} (h : Text.strip s ≠ "") : IsIdentifier (Text.strip s) :=
  ⟨Text.strip_strip s, h⟩

theorem isIdentifier_q : IsIdentifier "q" := by decide

theorem isIdentifier_n : IsIdentifier "n" := by decide

theorem toNat_pos {n : ℤ} (h : ¬n ≤ 0) : 0 < n.toNat := by omega

structure NodeResourceAllocation where
  nodeId : String
  resources : ResourceVector
  nodeId_identifier : IsIdentifier nodeId
  resources_ne_zero : resources ≠ 0
  deriving DecidableEq

def NodeResourceAllocation.make (nodeId : String) (resources : ResourceVector)
    : Except PyError NodeResourceAllocation :=
  let stripped := Text.strip nodeId
  if hid : stripped = "" then
    .error (.valueError "node allocation node_id must be non-empty")
  else if hzero : resources = 0 then
    .error (.valueError s!"node allocation {stripped} must own non-zero resources")
  else
    .ok ⟨stripped, resources, isIdentifier_strip hid, hzero⟩

structure ActorPlacement where
  stageId : String
  actorIndex : ℕ
  nodeId : String
  stageId_identifier : IsIdentifier stageId
  nodeId_identifier : IsIdentifier nodeId
  deriving DecidableEq

namespace ActorPlacement

def make (stageId : String) (actorIndex : ℤ) (nodeId : String) : Except PyError ActorPlacement :=
  if hstage : Text.strip stageId = "" then
    .error (.valueError "actor placement stage_id must be non-empty")
  else if actorIndex < 0 then
    .error (.valueError "actor placement actor_index must be >= 0")
  else if hnode : Text.strip nodeId = "" then
    .error (.valueError "actor placement node_id must be non-empty")
  else
    .ok ⟨Text.strip stageId, actorIndex.toNat, Text.strip nodeId, isIdentifier_strip hstage,
      isIdentifier_strip hnode⟩

def key (p : ActorPlacement) : String × ℕ := (p.stageId, p.actorIndex)

end ActorPlacement

structure NodeCapacity where
  nodeId : String
  resources : ResourceVector
  nodeId_identifier : IsIdentifier nodeId
  deriving DecidableEq

def NodeCapacity.make (nodeId : String) (resources : ResourceVector) : Except PyError NodeCapacity :=
  if hid : Text.strip nodeId = "" then
    .error (.valueError "node_id must be non-empty")
  else
    .ok ⟨Text.strip nodeId, resources, isIdentifier_strip hid⟩

structure ActorResourceBundle where
  stageId : String
  actorIndex : ℕ
  resources : ResourceVector
  stageId_identifier : IsIdentifier stageId
  resources_ne_zero : resources ≠ 0
  deriving DecidableEq

namespace ActorResourceBundle

def make (stageId : String) (actorIndex : ℤ) (resources : ResourceVector)
    : Except PyError ActorResourceBundle :=
  if hstage : Text.strip stageId = "" then
    .error (.valueError "actor resource bundle stage_id must be non-empty")
  else if actorIndex < 0 then
    .error (.valueError "actor resource bundle actor_index must be >= 0")
  else if hzero : resources = 0 then
    .error (.valueError "actor resource bundle must own non-zero resources")
  else
    .ok ⟨Text.strip stageId, actorIndex.toNat, resources, isIdentifier_strip hstage, hzero⟩

def key (b : ActorResourceBundle) : String × ℕ := (b.stageId, b.actorIndex)

theorem make_eq_ok {stageId : String} {actorIndex : ℕ} {resources : ResourceVector}
    {b : ActorResourceBundle} (h : make stageId actorIndex resources = .ok b) :
    b.stageId = Text.strip stageId ∧ b.actorIndex = actorIndex ∧ b.resources = resources := by
  unfold make at h
  split at h
  . cases h
  . split at h
    . cases h
    . split at h
      . cases h
      . cases h
        exact ⟨rfl, Int.toNat_natCast actorIndex, rfl⟩

end ActorResourceBundle

structure QueryDemand where
  queryId : String
  minimum : ResourceVector
  desired : ResourceVector
  weight : ℚ≥0
  priority : ℤ
  actorBundles : List ActorResourceBundle
  taskBundles : List ResourceVector
  queryId_identifier : IsIdentifier queryId
  minimum_le_desired : minimum ≤ desired
  weight_pos : 0 < weight
  nodup_actors : (actorBundles.map (·.key)).Nodup
  bundles_eq_minimum : (actorBundles.map ActorResourceBundle.resources).sum + taskBundles.sum = minimum
  deriving DecidableEq

theorem weight_one_pos : (0 : ℚ≥0) < 1 := one_pos

theorem nodup_no_actors : (([] : List ActorResourceBundle).map (·.key)).Nodup := .nil

def isClose (a b : ℚ≥0) : Prop := a ≤ b + epsilon ∧ b ≤ a + epsilon

def ResourceVector.Equivalent (a b : ResourceVector) : Prop :=
  isClose a.cpu b.cpu ∧ isClose a.gpu b.gpu ∧ a.heapBytes = b.heapBytes ∧
    a.objectStoreBytes = b.objectStoreBytes

instance (a b : ResourceVector) : Decidable (a.Equivalent b) :=
  inferInstanceAs (Decidable ((_ ∧ _) ∧ (_ ∧ _) ∧ _ ∧ _))

@[simp]
theorem ResourceVector.Equivalent.refl (a : ResourceVector) : a.Equivalent a :=
  ⟨⟨le_self_add, le_self_add⟩, ⟨le_self_add, le_self_add⟩, rfl, rfl⟩

structure QueryAllocation where
  resources : ResourceVector
  nodeAllocations : List NodeResourceAllocation
  actorPlacements : List ActorPlacement
  generation : ℕ
  generation_pos : 0 < generation
  nodup_nodes : (nodeAllocations.map (·.nodeId)).Nodup
  resources_equivalent : (nodeAllocations.map NodeResourceAllocation.resources).sum.Equivalent resources
  nodup_actors : (actorPlacements.map (·.key)).Nodup
  placed_on_nodes : ∀ p ∈ actorPlacements, p.nodeId ∈ nodeAllocations.map (·.nodeId)
  deriving DecidableEq

namespace QueryAllocation

variable {a : QueryAllocation}

def make (resources : ResourceVector) (nodeAllocations : List NodeResourceAllocation)
    (actorPlacements : List ActorPlacement) (generation : ℤ) : Except PyError QueryAllocation :=
  let nodeIds := nodeAllocations.map (·.nodeId)
  let unknownNodes := ((actorPlacements.map (·.nodeId)).dedup.filter (· ∉ nodeIds)).sortBy id
  if hgeneration : generation ≤ 0 then
    .error (.valueError "generation must be > 0")
  else if hnodes : ¬nodeIds.Nodup then
    .error (.valueError "query allocation contains duplicate node_id entries")
  else if hresources : ¬(nodeAllocations.map NodeResourceAllocation.resources).sum.Equivalent resources then
    .error (.valueError "query allocation resources must equal the sum of node_allocations")
  else if hactors : ¬(actorPlacements.map (·.key)).Nodup then
    .error (.valueError "query allocation contains duplicate actor placements")
  else if hunknown : unknownNodes ≠ [] then
    .error (.valueError
      ("actor placement references unallocated node_id: " ++ ", ".intercalate unknownNodes))
  else
    .ok {
      resources
      nodeAllocations
      actorPlacements
      generation := generation.toNat
      generation_pos := toNat_pos hgeneration
      nodup_nodes := not_not.mp hnodes
      resources_equivalent := not_not.mp hresources
      nodup_actors := not_not.mp hactors
      placed_on_nodes := by
        intro p hp
        by_contra h
        have hmem : p.nodeId ∈ unknownNodes := by
          simp only [unknownNodes, List.mem_sortBy, List.mem_filter, List.mem_dedup,
            decide_eq_true_eq]
          exact ⟨List.mem_map_of_mem hp, h⟩
        rw [not_not.mp hunknown] at hmem
        cases hmem }

section Make

variable {resources : ResourceVector} {nodeAllocations : List NodeResourceAllocation}
  {actorPlacements : List ActorPlacement} {generation : ℤ}

theorem make_eq_ok {a : QueryAllocation}
    (h : make resources nodeAllocations actorPlacements generation = .ok a) :
    a.resources = resources ∧ a.nodeAllocations = nodeAllocations ∧
      a.actorPlacements = actorPlacements ∧ a.generation = generation := by
  unfold make at h
  simp only at h
  split at h
  . cases h
  . split at h
    . cases h
    . split at h
      . cases h
      . split at h
        . cases h
        . split at h
          . cases h
          . cases h
            refine ⟨rfl, rfl, rfl, ?_⟩
            simp only
            omega

theorem make_isOk (hgeneration : 0 < generation) (hnodes : (nodeAllocations.map (·.nodeId)).Nodup)
    (hresources : (nodeAllocations.map NodeResourceAllocation.resources).sum = resources)
    (hactors : (actorPlacements.map (·.key)).Nodup)
    (hplaced : ∀ p ∈ actorPlacements, p.nodeId ∈ nodeAllocations.map (·.nodeId)) :
    ∃ a, make resources nodeAllocations actorPlacements generation = .ok a := by
  have hunknown : ((actorPlacements.map (·.nodeId)).dedup.filter
      (· ∉ nodeAllocations.map (·.nodeId))).sortBy id = [] := by
    apply List.eq_nil_iff_forall_not_mem.mpr
    intro n hn
    simp only [List.mem_sortBy, List.mem_filter, List.mem_dedup, decide_eq_true_eq] at hn
    obtain ⟨p, hp, rfl⟩ := List.mem_map.mp hn.1
    exact hn.2 (hplaced p hp)
  unfold make
  simp only
  rw [dif_neg (not_le.mpr hgeneration), dif_neg (not_not.mpr hnodes),
    dif_neg (not_not.mpr (hresources ▸ .refl _)), dif_neg (not_not.mpr hactors),
    dif_neg (not_not.mpr hunknown)]
  exact ⟨_, rfl⟩

end Make

def empty : QueryAllocation where
  resources := 0
  nodeAllocations := []
  actorPlacements := []
  generation := 1
  generation_pos := Nat.one_pos
  nodup_nodes := List.nodup_nil
  resources_equivalent := .refl 0
  nodup_actors := List.nodup_nil
  placed_on_nodes := by simp

def nodeIds (a : QueryAllocation) : List String := a.nodeAllocations.map (·.nodeId)

def resourcesForNode (a : QueryAllocation) (nodeId : String) : Except PyError ResourceVector :=
  match a.nodeAllocations.find? (·.nodeId = nodeId) with
  | some allocation => .ok allocation.resources
  | none => .error (.keyError ("query has no allocation on Ray node '" ++ nodeId ++ "'"))

theorem resourcesForNode_of_mem {node : NodeResourceAllocation}
    (h : node ∈ a.nodeAllocations) : a.resourcesForNode node.nodeId = .ok node.resources := by
  unfold resourcesForNode
  cases hfind : a.nodeAllocations.find? (·.nodeId = node.nodeId) with
  | none => simpa using List.find?_eq_none.mp hfind node h
  | some other =>
    have hid : other.nodeId = node.nodeId := by simpa using List.find?_some hfind
    have hsame := List.inj_on_of_nodup_map a.nodup_nodes (List.mem_of_find?_eq_some hfind) h hid
    rw [hsame]

def onNode (a : QueryAllocation) (n : String) : ResourceVector :=
  loadOn n (a.nodeAllocations.map fun x => (x.nodeId, x.resources))

theorem onNode_of_mem {node : NodeResourceAllocation}
    (h : node ∈ a.nodeAllocations) : a.onNode node.nodeId = node.resources := by
  have hsplit : a.nodeAllocations.filter (·.nodeId = node.nodeId) = [node] := by
    have hnodup := (List.Nodup.of_map _ a.nodup_nodes).filter (·.nodeId = node.nodeId)
    apply List.perm_singleton.mp
    apply (List.perm_ext_iff_of_nodup hnodup (List.nodup_singleton node)).mpr
    intro other
    simp only [List.mem_filter, decide_eq_true_eq, List.mem_singleton]
    constructor
    . rintro ⟨hother, hid⟩
      exact List.inj_on_of_nodup_map a.nodup_nodes hother h hid
    . rintro rfl
      exact ⟨h, rfl⟩
  unfold onNode
  rw [loadOn_map, hsplit]
  simp

theorem exists_node_of_onNode_ne_zero {n : String} (h : a.onNode n ≠ 0) :
    ∃ node ∈ a.nodeAllocations, node.nodeId = n ∧ node.resources = a.onNode n := by
  have hmem : n ∈ (a.nodeAllocations.map fun x => (x.nodeId, x.resources)).map Prod.fst := by
    by_contra hnot
    exact h (loadOn_of_not_mem hnot)
  obtain ⟨x, hx, hid⟩ := List.mem_map.mp hmem
  obtain ⟨node, hnode, rfl⟩ := List.mem_map.mp hx
  simp only at hid
  subst hid
  exact ⟨node, hnode, rfl, (onNode_of_mem hnode).symm⟩

end QueryAllocation

end Vane
