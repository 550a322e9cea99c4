import Vane.Ray.QueryResourceManager.CallLemmas

/-! This module contains the safety of grants and the conservation of the usage of a manager. -/

namespace Vane

namespace Ledger

variable {l l' : Ledger} {amount : ResourceVector}

def WithinQuery (l : Ledger) : Prop :=
  ∃ usage, l.queryUsage = .ok usage ∧ usage ≤ l.allocation.resources

def WithinNode (l : Ledger) (nodeId : String) : Prop :=
  ∃ node ∈ l.allocation.nodeAllocations, node.nodeId = nodeId ∧
    ∃ usage, l.nodeUsage nodeId = .ok usage ∧ usage ≤ node.resources

theorem QueryRoom.within (h : l.QueryRoom amount) (hl : l.Consistent) (hl' : l'.Consistent)
    (hallocation : l'.allocation = l.allocation)
    (hview : l'.viewOfNodes none ≤ l.viewOfNodes none + amount) : l'.WithinQuery := by
  obtain ⟨usage, husage, hroom⟩ := h
  rw [queryUsage_eq hl] at husage
  cases husage
  refine ⟨_, queryUsage_eq hl', ?_⟩
  rw [hallocation]
  exact hview.trans hroom

theorem NodeRoom.within {nodeId : String} (h : l.NodeRoom nodeId amount) (hl : l.Consistent)
    (hl' : l'.Consistent) (hallocation : l'.allocation = l.allocation)
    (hview : l'.viewOfNodes (some nodeId) ≤ l.viewOfNodes (some nodeId) + amount) :
    l'.WithinNode nodeId := by
  obtain ⟨node, hnode, hid, usage, husage, hroom⟩ := h
  rw [nodeUsage_eq hl] at husage
  cases husage
  refine ⟨node, ?_, hid, _, nodeUsage_eq hl' nodeId, hview.trans hroom⟩
  rw [hallocation]
  exact hnode

end Ledger

namespace QueryResourceManager

open Ledger

variable {uuid : UuidSource} {N : Set String} {m m' : QueryResourceManager} {call : Call}
  {result : Except PyError Answer}

/-! Grants. -/

/-- What a task grant leaves within its limits: the query, the node of the task, and the nodes of the
credits that were not there before or not borrowed. -/
structure TaskWithin (l l' : Ledger) (nodeId : String) : Prop where
  query : l'.WithinQuery
  node : l'.WithinNode nodeId
  credit : ∀ credit ∈ l'.continuationCredits.values,
    credit ∈ l.continuationCredits.values ∨ l'.WithinNode credit.nodeId

section

variable {request : TaskRequest} {spec : StageResourceSpec} {plan : TaskAdmissionPlan}

theorem toLedger_grantedTask (uuid : UuidSource) (m : QueryResourceManager) (request : TaskRequest)
    (spec : StageResourceSpec) (plan : TaskAdmissionPlan) (liveness : Bool) :
    ∃ filed : QueryResourceManager,
      filed.toLedger = m.toLedger.addTask (m.newLease uuid request spec plan liveness) ∧
      filed.uuidsDrawn = m.uuidsDrawn + 1 ∧
      (m.grantedTask uuid request spec plan liveness).toLedger =
        (filed.withCredit uuid plan (m.newLease uuid request spec plan liveness)).toLedger := by
  refine ⟨_, toLedger_fileTaskLease { m with uuidsDrawn := m.uuidsDrawn + 1 }
    (m.newLease uuid request spec plan liveness)
    (m.newLease uuid request spec plan liveness).slot?, ?_, ?_⟩
  . unfold fileTaskLease occupySlot
    split
    . rfl
    . simp only
      split <;> rfl
  . unfold grantedTask noteTaskGranted
    simp only
    split <;> rfl

theorem Admitted.taskWithin (h : m.Admitted request spec plan) (hm : m.Indexed uuid N)
    (liveness : Bool) :
    TaskWithin m.toLedger (m.grantedTask uuid request spec plan liveness).toLedger plan.nodeId := by
  have hl := hm.ledger.consistent
  have hl' := (hm.grantedTask h liveness).ledger.consistent
  have hfresh := hm.ledger.fresh
  obtain ⟨filed, hfiled, hdrawn, hledger⟩ := m.toLedger_grantedTask uuid request spec plan liveness
  generalize m.grantedTask uuid request spec plan liveness = granted at *
  have hstage : (m.newLease uuid request spec plan liveness).stageId ∈ m.graph.stageIds :=
    QueryExecutionGraph.mem_stageIds_iff.mpr ⟨spec, h.stage⟩
  have hnode : (m.newLease uuid request spec plan liveness).nodeId = plan.nodeId := rfl
  have hid : (m.newLease uuid request spec plan liveness).leaseId = uuid.hex m.uuidsDrawn := rfl
  have hresources : (m.newLease uuid request spec plan liveness).resources = plan.resources := rfl
  have hwindow : (m.newLease uuid request spec plan liveness).outputWindowBytes =
    plan.outputWindowBytes := rfl
  generalize m.newLease uuid request spec plan liveness = lease at *
  rw [← hid] at hfresh
  have hcharge : m.taskCharge lease = plan.commitment := by
    rw [taskCharge_of_unused hfresh.unused, hresources, hwindow]
    rfl
  cases h.fits with
  | plain noCredit noBorrow query node =>
    have hgranted : granted.toLedger = m.toLedger.addTask lease := by
      rw [hledger, withCredit, noCredit, noBorrow]
      exact hfiled
    rw [hgranted] at hl' ⊢
    refine ⟨query.within hl hl' rfl ?_, node.within hl hl' rfl ?_, fun _ => .inl⟩
    . rw [view_addTask hl hfresh.unused, hcharge]
      exact le_rfl
    . rw [view_addTask hl hfresh.unused, hcharge, hnode, if_pos (by simp [selects_some])]
  | credit new newCredit noBorrow stage query node creditNode =>
    have hgranted : granted.toLedger = (m.toLedger.addTask lease).addCredit
        (filed.newCredit lease new (uuid.hex (m.uuidsDrawn + 1))) := by
      rw [hledger, withCredit, newCredit, ← hfiled, ← hdrawn]
    have hview : ∀ nodeId, ((m.toLedger.addTask lease).addCredit
        (filed.newCredit lease new (uuid.hex (m.uuidsDrawn + 1)))).viewOfNodes nodeId =
          m.viewOfNodes nodeId + (if selects nodeId lease.nodeId then m.taskCharge lease else 0) +
            if selects nodeId new.nodeId then new.resources else 0 := fun _ =>
      view_grant_credit hl hfresh.unused (hm.ledger.unused _ (Nat.le_succ _))
        (hfresh.drawn _ le_rfl) hstage
    rw [hcharge, hnode] at hview
    rw [hgranted] at hl' ⊢
    refine ⟨query.within hl hl' rfl ?_, node.within hl hl' rfl ?_, ?_⟩
    . simp [hview, selects_none, add_assoc]
    . simp [hview, selects_some, add_assoc]
    . intro other hother
      rcases Table.mem_values_put hother with rfl | hother
      . right
        refine creditNode.within hl hl' rfl ?_
        simp [hview, selects_some, add_assoc, add_comm new.resources, eq_comm]
      . exact .inl hother
  | borrow credit noCredit borrowed known parentActive free eligible sameNode query node =>
    have hgranted : granted.toLedger = (m.toLedger.addTask lease).borrow credit lease.leaseId := by
      have hknown : filed.continuationCredits.find? credit.creditId = some credit := by
        rw [hfiled]
        exact known
      rw [hledger, withCredit, noCredit, borrowed]
      simp only [hknown]
      rw [hfiled]
    have hview : ∀ nodeId, ((m.toLedger.addTask lease).borrow credit lease.leaseId).viewOfNodes
        nodeId = m.viewOfNodes nodeId + if selects nodeId lease.nodeId then
          m.borrowIncrement lease.resources lease.outputWindowBytes credit else 0 := fun _ =>
      view_grant_borrow hl hfresh.unused hstage known free (hnode.trans sameNode.symm)
    rw [hnode, hresources, hwindow] at hview
    rw [hgranted] at hl' ⊢
    have hwithin := node.within hl hl' rfl (by rw [hview, if_pos (by simp [selects_some])])
    refine ⟨query.within hl hl' rfl (by rw [hview]; exact le_rfl), hwithin, ?_⟩
    intro other hother
    rcases Table.mem_values_put hother with rfl | hother
    . right
      rw [sameNode]
      exact hwithin
    . exact .inl hother

theorem OutputAdmitted.outputWithin {request : OutputBlockRequest} {task : TaskLease}
    (h : m.OutputAdmitted request task) (hm : m.Indexed uuid N) {o : OutputBlockLease}
    (ho : m.toLedger.OutputOf task o) (hid : o.leaseId = uuid.hex m.uuidsDrawn)
    (hsize : o.sizeBytes = request.sizeBytes.toNat) :
    ((m.toLedger.addOutput o).queryUsage = m.queryUsage ∧
        ∀ nodeId, (m.toLedger.addOutput o).nodeUsage nodeId = m.nodeUsage nodeId) ∨
      (m.toLedger.addOutput o).WithinQuery ∧ (m.toLedger.addOutput o).WithinNode o.nodeId := by
  have hl := hm.ledger.consistent
  have hl' := hl.addOutputOf ho
  have hfree : m.outputLeases.find? o.leaseId = none := by
    rw [hid]
    exact hm.ledger.fresh.unused.output
  have hdelta : m.outputDelta task request.sizeBytes.toNat = m.windowGrowth task o.sizeBytes := by
    rw [hsize]
    rfl
  rcases h.room with hzero | ⟨query, node⟩
  . left
    rw [hdelta] at hzero
    refine ⟨?_, fun nodeId => ?_⟩
    . rw [queryUsage_eq hl', queryUsage_eq hl, view_addOutput_of_no_growth hl ho hfree hzero]
    . rw [nodeUsage_eq hl', nodeUsage_eq hl, view_addOutput_of_no_growth hl ho hfree hzero]
  . right
    rw [hdelta] at query node
    rw [ho.nodeId]
    exact ⟨query.within hl hl' rfl (view_addOutput_le hl ho hfree none),
      node.within hl hl' rfl (view_addOutput_le hl ho hfree (some task.nodeId))⟩

end

structure GrantsWithin (m : QueryResourceManager) (result : Except PyError Answer)
    (m' : QueryResourceManager) : Prop where
  task : ∀ lease, grantedLease? result = some lease →
    TaskWithin m.toLedger m'.toLedger lease.nodeId
  output : ∀ lease, grantedOutput? result = some lease →
    (m'.queryUsage = m.queryUsage ∧ ∀ nodeId, m'.nodeUsage nodeId = m.nodeUsage nodeId) ∨
      m'.WithinQuery ∧ m'.WithinNode lease.nodeId

theorem Effect.grantsWithin (h : Effect uuid call m result m') (hm : m.Indexed uuid N) :
    GrantsWithin m result m' := by
  induction h with
  | idle drawn hdrawn quiet =>
    exact ⟨fun lease hlease => absurd (quiet.task.symm.trans hlease) (by simp),
      fun lease hlease => absurd (quiet.grantedOutput?.symm.trans hlease) (by simp)⟩
  | restage stageId stage spec known kept rest ih =>
    have hrest := ih (hm.restage stageId stage)
    exact ⟨hrest.task, hrest.output⟩
  | taskGranted request spec plan liveness admitted task output =>
    refine ⟨?_, fun lease hlease => absurd (output.symm.trans hlease) (by simp)⟩
    intro lease hlease
    rw [task] at hlease
    cases hlease
    exact admitted.taskWithin hm liveness
  | @outputGranted m result request task liveness state admitted task? output =>
    refine ⟨fun lease hlease => absurd (task?.symm.trans hlease) (by simp), ?_⟩
    intro lease hlease
    rw [output] at hlease
    cases hlease
    obtain ⟨_, _, heq⟩ := m.grantedOutput_eq uuid request task liveness state
    rw [heq]
    exact admitted.outputWithin hm (admitted.outputOf liveness state _) rfl rfl
  | _ => exact ⟨fun _ hlease => (by cases hlease), fun _ hlease => (by cases hlease)⟩

end QueryResourceManager

/-! A query of two stages on one node, at which results about managers are evaluated. -/

def unaryUuid : UuidSource where
  hex := fun n => String.ofList (List.replicate (n + 1) 'a')
  hex_injective := by
    intro a b h
    simpa using congrArg List.length (String.ofList_injective h)

namespace TwoStages

def scan : StageResourceSpec where
  queryId := "q"
  stageId := "stage:scan"
  physicalNodeId := "1"
  stageKind := .other "fragment" fragment_ne_udf
  backend := .rayWorker
  inputStageIds := []
  perTask := { cpu := 1, heapBytes := 1 }
  targetOutputBlockBytes := 4
  generatorBufferBlocks := 2
  maxConcurrency := none

def udf : StageResourceSpec where
  queryId := "q"
  stageId := "stage:udf"
  physicalNodeId := "2"
  stageKind := .udf
  backend := .rayTask
  inputStageIds := ["stage:scan"]
  perTask := { cpu := 1, heapBytes := 1 }
  targetOutputBlockBytes := 4
  generatorBufferBlocks := 1
  maxConcurrency := none

def graph : QueryExecutionGraph where
  queryId := "q"
  planDigest := "d"
  stages := [scan, udf]
  terminalStageIds := ["stage:udf"]
  valid := by decide +kernel

def node : NodeResourceAllocation where
  nodeId := "n"
  resources := { cpu := 8, heapBytes := 16, objectStoreBytes := 128 }
  nodeId_identifier := isIdentifier_n
  resources_ne_zero := by decide

def allocation : QueryAllocation where
  resources := node.resources
  nodeAllocations := [node]
  actorPlacements := []
  generation := 1
  generation_pos := Nat.one_pos
  nodup_nodes := by decide
  resources_equivalent := by decide +kernel
  nodup_actors := by decide
  placed_on_nodes := by simp

def manager : QueryResourceManager where
  graph := graph
  allocation := allocation
  reservationRatio := (1 / 2 : ℚ).toNNRat
  stages := fun stageId => { actorReady := (graph.stage? stageId).any (·.backend ≠ .rayActor) }

theorem new_manager : QueryResourceManager.new graph allocation = .ok manager := by
  have hvalid : graph.validateAllocation allocation = .ok () := by decide +kernel
  unfold QueryResourceManager.new
  rw [Except.raiseIf_of_not (by norm_num), hvalid]
  rfl

def request (stageId taskId attemptId : String) : TaskRequest where
  queryId := "q"
  stageId
  taskId
  attemptId
  nodeId := none

def block (taskLeaseId attemptId blockId : String) : OutputBlockRequest where
  queryId := "q"
  producerStageId := "stage:scan"
  taskLeaseId
  attemptId
  blockId
  sizeBytes := 4

def started : List QueryResourceManager.Call := [.updateStageState "stage:scan" true none false]

end TwoStages

namespace QueryResourceManager

open Ledger

variable {uuid : UuidSource} {N : Set String} {m m' : QueryResourceManager} {call : Call}
  {result : Except PyError Answer}

def KeepsNodes (uuid : UuidSource) (call : Call) (m : QueryResourceManager) : Prop :=
  ∀ n ∈ m.allocation.nodeIds, n ∈ (call.step uuid m).allocation.nodeIds

instance (uuid : UuidSource) (call : Call) (m : QueryResourceManager) :
    Decidable (KeepsNodes uuid call m) := inferInstanceAs (Decidable (∀ n ∈ _, _))

/-- The three views of usage, as views of one list of charges in which every credit, every live task
and every output that is nobody else's occurs once. -/
structure Conserved (l : Ledger) : Prop where
  query : l.queryUsage = .ok (l.charges.map (·.resources)).sum
  node : ∀ nodeId, l.nodeUsage nodeId = .ok (loadOn nodeId (l.charges.map Charge.onNode))
  stage : ∀ stageId, l.stageUsage stageId = .ok (loadOn stageId (l.charges.map Charge.onStage))
  nodes : ∃ usages, l.allocation.nodeIds.mapM l.nodeUsage = .ok usages ∧
    l.queryUsage = .ok usages.sum
  stages : ∃ usages, l.graph.stageIds.mapM l.stageUsage = .ok usages ∧
    l.queryUsage = .ok usages.sum

theorem Indexed.conserved (hm : m.Indexed uuid {n | n ∈ m.allocation.nodeIds}) :
    Conserved m.toLedger := by
  have hl := hm.ledger.consistent
  have hquery : m.queryUsage = .ok (m.charges.map (·.resources)).sum := by
    rw [queryUsage_eq hl, sum_charges_eq]
  have hnode : ∀ nodeId, m.nodeUsage nodeId =
      .ok (loadOn nodeId (m.charges.map Charge.onNode)) := by
    intro nodeId
    rw [nodeUsage_eq hl, viewOfNodes, show selects (some nodeId) = fun id => decide (id = nodeId) from
      funext (selects_some nodeId), loadIn_eq_loadOn]
  refine ⟨hquery, hnode, stageUsage_eq hl, ⟨_, Except.mapM_eq_ok fun n _ => hnode n, ?_⟩,
    ⟨_, Except.mapM_eq_ok fun s _ => stageUsage_eq hl s, ?_⟩⟩
  . rw [hquery, sum_loadOn (show m.allocation.nodeIds.Nodup from m.allocation.nodup_nodes),
      List.map_map]
    . rfl
    . intro load hload
      obtain ⟨charge, hcharge, rfl⟩ := List.mem_map.mp hload
      exact hm.ledger.located.charge_node hcharge
  . rw [hquery, sum_loadOn m.graph.nodup_stageIds, List.map_map]
    . rfl
    . intro load hload
      obtain ⟨charge, hcharge, rfl⟩ := List.mem_map.mp hload
      exact hl.charge_stage hcharge

end QueryResourceManager

end Vane
