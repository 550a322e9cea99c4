import Vane.Ray.QueryResourceManager.Admission

/-!
This module contains what admission guarantees about a plan: the query and the nodes have room.
-/

namespace Vane

namespace Exit

variable {α : Type} {c : Prop} [Decidable c] {reason : BlockReason} {fatal : Bool}

@[simp]
theorem blockIf_eq_ok_iff {u : Unit} : blockIf c reason fatal = .ok u ↔ ¬c :=
  Except.raiseIf_eq_ok_iff

theorem raising_eq_ok_iff {x : Except PyError α} {a : α} : raising x = .ok a ↔ x = .ok a := by
  cases x with
  | error e => simp [raising, Except.mapError]
  | ok b => simp [raising, Except.mapError]

end Exit

def Ledger.QueryRoom (l : Ledger) (amount : ResourceVector) : Prop :=
  ∃ usage, l.queryUsage = .ok usage ∧ usage + amount ≤ l.allocation.resources

def Ledger.NodeRoom (l : Ledger) (nodeId : String) (amount : ResourceVector) : Prop :=
  ∃ node ∈ l.allocation.nodeAllocations, node.nodeId = nodeId ∧
    ∃ usage, l.nodeUsage nodeId = .ok usage ∧ usage + amount ≤ node.resources

def TaskAdmissionPlan.commitment (plan : TaskAdmissionPlan) : ResourceVector :=
  plan.resources.withObjectStore (plan.resources.objectStoreBytes + plan.outputWindowBytes)

def TaskRequest.attempt (request : TaskRequest) : String × String :=
  (Text.strip request.taskId, Text.strip request.attemptId)

namespace QueryResourceManager

variable {usages : List (NodeResourceAllocation × ResourceVector)} {requested : Option String}
  {nodeId : String} {spec : StageResourceSpec} {request : TaskRequest}
  {reservations : List DownstreamReservation}

open Exit (blockIf_eq_ok_iff raising_eq_ok_iff)
open Except (bind_eq_ok_iff ok_of_bind)

variable {m : QueryResourceManager}

inductive Fits (m : QueryResourceManager) (stageId : String) (plan : TaskAdmissionPlan) : Prop where
  | plain (noCredit : plan.newCredit = none) (noBorrow : plan.borrowedCreditId = none)
      (query : m.QueryRoom plan.commitment) (node : m.NodeRoom plan.nodeId plan.commitment)
  | credit (new : NewContinuationCreditPlan) (newCredit : plan.newCredit = some new)
      (noBorrow : plan.borrowedCreditId = none)
      (stage : new.reservationStageId ∈ m.graph.stageIds)
      (query : m.QueryRoom (plan.commitment + new.resources))
      (node : m.NodeRoom plan.nodeId
        (plan.commitment + if new.nodeId = plan.nodeId then new.resources else 0))
      (creditNode : m.NodeRoom new.nodeId
        (new.resources + if new.nodeId = plan.nodeId then plan.commitment else 0))
  | borrow (credit : ContinuationCredit) (noCredit : plan.newCredit = none)
      (borrowed : plan.borrowedCreditId = some credit.creditId)
      (known : m.continuationCredits.find? credit.creditId = some credit)
      (parentActive : credit.parentActive = true) (free : credit.borrowedByTaskLeaseId = none)
      (eligible : stageId ∈ credit.eligibleStageIds) (sameNode : credit.nodeId = plan.nodeId)
      (query : m.QueryRoom (m.borrowIncrement plan.resources plan.outputWindowBytes credit))
      (node : m.NodeRoom plan.nodeId
        (m.borrowIncrement plan.resources plan.outputWindowBytes credit))

theorem mem_nodeUsages {nodes : List NodeResourceAllocation}
    (h : m.nodeUsages nodes = .ok usages) {x : NodeResourceAllocation × ResourceVector}
    (hx : x ∈ usages) : x.1 ∈ nodes ∧ m.nodeUsage x.1.nodeId = .ok x.2 := by
  obtain ⟨node, hnode, hx⟩ := Except.mem_of_mapM_eq_ok h hx
  obtain ⟨usage, husage, hx⟩ := ok_of_bind hx
  cases hx
  exact ⟨hnode, husage⟩

theorem exists_mem_nodeUsages {nodes : List NodeResourceAllocation}
    (h : m.nodeUsages nodes = .ok usages) {node : NodeResourceAllocation} (hnode : node ∈ nodes) :
    ∃ usage, (node, usage) ∈ usages ∧ m.nodeUsage node.nodeId = .ok usage := by
  obtain ⟨x, hx, hbody⟩ := Except.exists_mem_of_mapM_eq_ok h hnode
  obtain ⟨usage, husage, hbody⟩ := ok_of_bind hbody
  cases hbody
  exact ⟨usage, hx, husage⟩

theorem selectTaskNode_room {commitment : ResourceVector} {allowed : Option (List String)}
    (h : m.selectTaskNode requested commitment allowed reservations = .ok nodeId) :
    m.NodeRoom nodeId commitment ∧ allowed.all (nodeId ∈ ·) := by
  obtain ⟨_, -, h⟩ := ok_of_bind h
  obtain ⟨_, -, h⟩ := ok_of_bind h
  obtain ⟨usages, husages, h⟩ := ok_of_bind h
  obtain ⟨_, -, h⟩ := ok_of_bind h
  obtain ⟨_, -, h⟩ := ok_of_bind h
  obtain ⟨_, -, h⟩ := ok_of_bind h
  split at h
  . next node usage hmin =>
    cases h
    have havailable := List.mem_of_mem_filter (List.minBy?_mem hmin)
    obtain ⟨hmem, hfits⟩ := List.mem_filter.mp havailable
    simp only [decide_eq_true_eq] at hfits
    obtain ⟨hstatic, husage⟩ := mem_nodeUsages (raising_eq_ok_iff.mp husages) hmem
    obtain ⟨hnode, hallowed⟩ := List.mem_filter.mp hstatic
    simp only [decide_eq_true_eq] at hallowed
    refine ⟨⟨node, hnode, rfl, usage, husage, ?_⟩, hallowed.2.2⟩
    rw [add_comm]
    exact (le_tsub_iff_right hfits.1).mp hfits.2
  . cases h

theorem leaveRemaining_fits {proposed : Dict String ResourceVector}
    {before remaining : Dict String ResourceVector}
    (h : leaveRemaining proposed usages before = .ok remaining)
    {x : NodeResourceAllocation × ResourceVector} (hx : x ∈ usages)
    (hproposed : proposed.contains x.1.nodeId = true) :
    x.2 + proposed.findD x.1.nodeId 0 ≤ x.1.resources := by
  induction usages generalizing before with
  | nil => cases hx
  | cons y usages ih =>
    unfold leaveRemaining at h
    simp only at h
    split at h
    . split at h
      . next hafter =>
        rcases List.mem_cons.mp hx with rfl | hx
        . exact hafter
        . exact ih h hx
      . cases h
    . split at h
      . cases h
      . next hnot =>
        rcases List.mem_cons.mp hx with rfl | hx
        . exact absurd hproposed hnot
        . exact ih h hx

theorem findD_proposed (taskNodeId creditNodeId : String)
    (taskCommitment creditResources : ResourceVector) {d : Dict String ResourceVector}
    (hd : d = ((∅ : Dict String ResourceVector).insert taskNodeId taskCommitment).update
      creditNodeId 0 (· + creditResources)) :
    (d.contains taskNodeId = true ∧ d.findD taskNodeId 0 =
      taskCommitment + if creditNodeId = taskNodeId then creditResources else 0) ∧
    (d.contains creditNodeId = true ∧ d.findD creditNodeId 0 =
      creditResources + if creditNodeId = taskNodeId then taskCommitment else 0) := by
  subst hd
  by_cases h : creditNodeId = taskNodeId
  . subst h
    simp [Dict.contains, Dict.findD, Dict.update, add_comm]
  . simp [Dict.contains, Dict.findD, Dict.update, Dict.find?_insert, h, Ne.symm h]

theorem selectTaskAndCreditNodes_room {taskCommitment creditResources : ResourceVector}
    {nodeId creditNodeId : String}
    (h : m.selectTaskAndCreditNodes requested taskCommitment creditResources reservations =
      .ok (nodeId, creditNodeId)) :
    m.NodeRoom nodeId
        (taskCommitment + if creditNodeId = nodeId then creditResources else 0) ∧
      m.NodeRoom creditNodeId
        (creditResources + if creditNodeId = nodeId then taskCommitment else 0) := by
  obtain ⟨_, -, h⟩ := ok_of_bind h
  obtain ⟨_, -, h⟩ := ok_of_bind h
  obtain ⟨_, -, h⟩ := ok_of_bind h
  obtain ⟨usages, husages, h⟩ := ok_of_bind h
  obtain ⟨_, -, h⟩ := ok_of_bind h
  rw [raising_eq_ok_iff] at husages
  split at h
  . next chosen hmin =>
    cases h
    obtain ⟨hmem, hfeasible⟩ := List.mem_filter.mp (List.minBy?_mem hmin)
    obtain ⟨taskNode, htaskNode, hmem⟩ := List.mem_flatMap.mp hmem
    obtain ⟨creditNode, hcreditNode, rfl⟩ := List.mem_map.mp hmem
    have htask := List.mem_of_mem_filter htaskNode
    have hcredit := List.mem_of_mem_filter hcreditNode
    unfold TaskAndCreditNodes.isFeasible at hfeasible
    split at hfeasible
    . cases hfeasible
    . next remaining hremaining =>
      simp only [proposeNodes] at hremaining ⊢
      obtain ⟨taskUsage, htaskMem, htaskUsage⟩ := exists_mem_nodeUsages husages htask
      obtain ⟨creditUsage, hcreditMem, hcreditUsage⟩ := exists_mem_nodeUsages husages hcredit
      obtain ⟨⟨htaskIn, htaskSum⟩, ⟨hcreditIn, hcreditSum⟩⟩ :=
        findD_proposed taskNode.nodeId creditNode.nodeId taskCommitment creditResources rfl
      have htaskFits := leaveRemaining_fits hremaining htaskMem htaskIn
      have hcreditFits := leaveRemaining_fits hremaining hcreditMem hcreditIn
      rw [htaskSum] at htaskFits
      rw [hcreditSum] at hcreditFits
      exact ⟨⟨taskNode, htask, rfl, taskUsage, htaskUsage, htaskFits⟩,
        ⟨creditNode, hcredit, rfl, creditUsage, hcreditUsage, hcreditFits⟩⟩
  . cases h

theorem availableContinuationCredit_spec
    {resources : ResourceVector} {window : ℕ} {usage : ResourceVector} {credit : ContinuationCredit}
    (h : m.availableContinuationCredit spec requested resources window usage = .ok (some credit)) :
    spec.backend = .rayTask ∧ m.continuationCredits.find? credit.creditId = some credit ∧
      m.isBorrowable spec (requestedNode requested) credit := by
  unfold availableContinuationCredit at h
  split at h
  . cases h
  . next hstage =>
    obtain ⟨ranked, hranked, h⟩ := ok_of_bind h
    simp only [Except.pure_eq_ok, Except.ok.injEq] at h
    obtain ⟨x, hx, rfl⟩ := Option.map_eq_some_iff.mp h
    obtain ⟨c, hc, hbody⟩ := Except.mem_of_mapM_eq_ok hranked (List.minBy?_mem hx)
    obtain ⟨rank, -, hbody⟩ := ok_of_bind hbody
    cases hbody
    obtain ⟨hmem, hborrowable⟩ := List.mem_filter.mp hc
    refine ⟨?_, Table.find?_key_of_mem hmem, hborrowable⟩
    by_contra hbackend
    exact hstage (.inl hbackend)

theorem continuationCreditTemplate_spec {template : CreditTemplate}
    (h : m.continuationCreditTemplate spec = some template) :
    spec.backend = .rayWorker ∧ template.reservationStageId ∈ m.graph.stageIds := by
  unfold continuationCreditTemplate at h
  split at h
  . next hbackend =>
    obtain ⟨stage, hstage, rfl⟩ := Option.map_eq_some_iff.mp h
    refine ⟨hbackend, ?_⟩
    have hreach := List.mem_of_mem_filter (List.mem_of_mem_filter (List.minBy?_mem hstage))
    obtain ⟨id, -, hfind⟩ := List.mem_filterMap.mp hreach
    exact List.mem_map_of_mem (List.mem_of_find?_eq_some hfind)
  . cases h

theorem mem_freeActorIndicesByNode {index : ℕ}
    (h : index ∈ (m.freeActorIndicesByNode spec).findD nodeId []) :
    m.actorSlotLeaseCount (spec.stageId, index) < spec.actorPrefetchDepth := by
  unfold freeActorIndicesByNode at h
  rw [Dict.findD_foldl_update (fun p : ActorPlacement => p.nodeId) []
    (fun p indices => indices ++ [p.actorIndex])] at h
  have hfold : ∀ (ps : List ActorPlacement) (indices : List ℕ),
      index ∈ ps.foldl (fun indices p => indices ++ [p.actorIndex]) indices →
        index ∈ indices ∨ ∃ p ∈ ps, p.actorIndex = index := by
    intro ps
    induction ps with
    | nil => exact fun _ h => .inl h
    | cons p ps ih =>
      intro indices h
      rcases ih _ h with h | ⟨q, hq, rfl⟩
      . rcases List.mem_append.mp h with h | h
        . exact .inl h
        . exact .inr ⟨p, by simp, (List.mem_singleton.mp h).symm⟩
      . exact .inr ⟨q, by simp [hq], rfl⟩
  rcases hfold _ _ h with h | ⟨p, hp, rfl⟩
  . cases h
  . have hfree := (List.mem_filter.mp (List.mem_of_mem_filter hp)).2
    simp only [decide_eq_true_eq] at hfree
    exact hfree.2

structure ActorChoice (m : QueryResourceManager) (spec : StageResourceSpec)
    (actorIndex : Option ℕ) : Prop where
  backend : actorIndex.isSome ↔ spec.backend = .rayActor
  slot : ∀ index ∈ actorIndex,
    m.actorSlotLeaseCount (spec.stageId, index) < spec.actorPrefetchDepth

theorem freeActorIndicesByNode_ne_nil (h : nodeId ∈ (m.freeActorIndicesByNode spec).keys) :
    (m.freeActorIndicesByNode spec).findD nodeId [] ≠ [] := by
  refine List.foldlRecOn (motive := fun d : Dict String (List ℕ) =>
    ∀ nodeId ∈ d.keys, d.findD nodeId [] ≠ []) _ _ (by simp [Dict.keys]) ?_ nodeId h
  intro d hd p _ nodeId hmem
  unfold Dict.update at *
  rw [Dict.findD_insert]
  split
  . simp
  . next hother => exact hd nodeId ((Dict.mem_keys_insert.mp hmem).resolve_left hother)

theorem chooseActor_spec {free : Option (Dict String (List ℕ))}
    {actorIndex : Option ℕ} (hfree : m.freeActors spec = .ok free)
    (h : m.chooseActor spec free nodeId = .ok actorIndex) : m.ActorChoice spec actorIndex := by
  unfold freeActors at hfree
  split at hfree
  . next hbackend =>
    obtain ⟨_, -, hfree⟩ := ok_of_bind hfree
    cases hfree
    unfold chooseActor at h
    simp only at h
    split at h
    . next index hmin =>
      cases h
      refine ⟨by simp [hbackend], ?_⟩
      intro index hindex
      cases hindex
      exact mem_freeActorIndicesByNode (List.minBy?_mem hmin)
    . cases h
  . next hbackend =>
    cases hfree
    cases h
    exact ⟨by simp [hbackend], by simp⟩

theorem chooseActor_eq_ok {free : Option (Dict String (List ℕ))} {borrowed : Option ContinuationCredit}
    {commitment admission : ResourceVector}
    {newCredit : Option NewContinuationCreditPlan} (hfree : m.freeActors spec = .ok free)
    (hborrowed : borrowed = none ∨ spec.backend = .rayTask)
    (hplace : m.placeTask request spec commitment admission borrowed free reservations =
      .ok (nodeId, newCredit)) :
    ∃ actorIndex, m.chooseActor spec free nodeId = .ok actorIndex := by
  unfold freeActors at hfree
  split at hfree
  . next hactor =>
    obtain ⟨_, -, hfree⟩ := ok_of_bind hfree
    cases hfree
    obtain rfl : borrowed = none := hborrowed.resolve_right (by simp [hactor])
    unfold placeTask at hplace
    split at hplace
    . next htemplate =>
      have hworker := (continuationCreditTemplate_spec htemplate).1
      rw [hactor] at hworker
      cases hworker
    . obtain ⟨selected, hselect, hplace⟩ := ok_of_bind hplace
      cases hplace
      have hallowed : nodeId ∈ (m.freeActorIndicesByNode spec).keys := by
        simpa using (selectTaskNode_room hselect).2
      obtain ⟨index, hindex⟩ := List.minBy?_isSome (fun index =>
        toLex (m.actorSlotLeaseCount (spec.stageId, index), index))
        (freeActorIndicesByNode_ne_nil hallowed)
      unfold chooseActor
      simp only [hindex]
      exact ⟨_, rfl⟩
  . cases hfree
    exact ⟨none, rfl⟩

theorem placeRequest_spec {p : Placement} (h : m.placeRequest request spec = .ok p) :
    m.Fits spec.stageId p.plan ∧ m.ActorChoice spec p.plan.actorIndex := by
  obtain ⟨free, hfree, h⟩ := ok_of_bind h
  obtain ⟨_, -, h⟩ := ok_of_bind h
  obtain ⟨_, -, h⟩ := ok_of_bind h
  obtain ⟨usage, husage, h⟩ := ok_of_bind h
  obtain ⟨_, -, h⟩ := ok_of_bind h
  obtain ⟨borrowed, hborrowed, h⟩ := ok_of_bind h
  rw [raising_eq_ok_iff] at husage hborrowed
  dsimp only at h
  split at h
  . cases h
  . next hexceeded =>
    rw [ResourceVector.exceededDimensions_eq_nil_iff] at hexceeded
    obtain ⟨_, -, h⟩ := ok_of_bind h
    obtain ⟨⟨nodeId, newCredit⟩, hplace, h⟩ := ok_of_bind h
    obtain ⟨actorIndex, hactor, h⟩ := ok_of_bind h
    cases h
    refine ⟨?_, chooseActor_spec hfree hactor⟩
    unfold placeTask at hplace
    cases htemplate : m.continuationCreditTemplate spec with
    | some template =>
      obtain ⟨hworker, hstage⟩ := continuationCreditTemplate_spec htemplate
      have hnone : borrowed = none := by
        cases borrowed with
        | none => rfl
        | some credit =>
          have := (availableContinuationCredit_spec hborrowed).1
          rw [hworker] at this
          cases this
      subst hnone
      simp only [htemplate] at hplace
      simp only [admissionCommitment, htemplate, Option.elim_some] at hexceeded
      obtain ⟨⟨taskNodeId, creditNodeId⟩, hnodes, hplace⟩ := ok_of_bind hplace
      cases hplace
      obtain ⟨hnode, hcreditNode⟩ := selectTaskAndCreditNodes_room hnodes
      exact .credit _ rfl rfl hstage ⟨usage, husage, hexceeded⟩ hnode hcreditNode
    | none =>
      simp only [htemplate] at hplace
      obtain ⟨selected, hselect, hplace⟩ := ok_of_bind hplace
      cases hplace
      obtain ⟨hnode, hallowed⟩ := selectTaskNode_room hselect
      cases borrowed with
      | some credit =>
        obtain ⟨-, hknown, hborrowable⟩ := availableContinuationCredit_spec hborrowed
        simp only [isBorrowable, decide_eq_true_eq] at hborrowable
        simp only [Option.all_some, List.mem_singleton, decide_eq_true_eq] at hallowed
        exact .borrow credit rfl rfl hknown hborrowable.1 hborrowable.2.1 hborrowable.2.2.1
          hallowed.symm ⟨usage, husage, hexceeded⟩ hnode
      | none =>
        simp only [admissionCommitment, htemplate, Option.elim_none, add_zero] at hnode hexceeded
        exact .plain rfl rfl ⟨usage, husage, hexceeded⟩ hnode

structure Checked (m : QueryResourceManager) (request : TaskRequest) (spec : StageResourceSpec) :
    Prop where
  notCancelled : m.cancelled = false
  admissionOpen : m.allocationAdmissionOpen = true
  stage : m.graph.stage? request.stageId = some spec
  notTerminal : request.attempt ∉ m.terminalAttempts
  notActive : m.activeAttemptLeases.contains request.attempt = false

theorem checkTaskRequest_open {hypothetical : Bool}
    (h : m.checkTaskRequest request hypothetical = .ok spec) :
    m.graph.stage? request.stageId = some spec ∧ (m.stages request.stageId).runnable = true ∧
      (m.stages request.stageId).completed = false := by
  unfold checkTaskRequest at h
  simp only [bind_eq_ok_iff, blockIf_eq_ok_iff, exists_const] at h
  obtain ⟨-, -, -, h⟩ := h
  split at h
  . cases h
  . next stage hstage =>
    simp only [bind_eq_ok_iff, blockIf_eq_ok_iff, exists_const] at h
    obtain ⟨hcompleted, hrunnable, -, -, -, -, -, h⟩ := h
    cases h
    exact ⟨hstage, by simpa using hrunnable, by simpa using hcompleted⟩

theorem checkTaskRequest_spec
    (h : m.checkTaskRequest request false = .ok spec) : m.Checked request spec := by
  have hstage := (checkTaskRequest_open h).1
  unfold checkTaskRequest at h
  rw [hstage] at h
  simp only [bind_eq_ok_iff, blockIf_eq_ok_iff, exists_const] at h
  obtain ⟨hcancelled, hopen, -, -, -, -, -, hterminal, hactive, -⟩ := h
  exact {
    notCancelled := by simpa using hcancelled
    admissionOpen := by simpa using hopen
    stage := hstage
    notTerminal := by simpa [TaskRequest.attempt] using hterminal
    notActive := by simpa [TaskRequest.attempt] using hactive }

structure Admitted (m : QueryResourceManager) (request : TaskRequest) (spec : StageResourceSpec)
    (plan : TaskAdmissionPlan) : Prop extends Checked m request spec where
  fits : m.Fits request.stageId plan
  actor : m.ActorChoice spec plan.actorIndex

theorem admitTask_admitted {plan : TaskAdmissionPlan} {soft : Option BlockReason}
    (h : m.admitTask request false = .ok (plan, soft)) : ∃ spec, m.Admitted request spec plan := by
  obtain ⟨spec, hspec, h⟩ := ok_of_bind h
  obtain ⟨placement, hplacement, h⟩ := ok_of_bind h
  obtain ⟨_, -, h⟩ := ok_of_bind h
  cases h
  have hchecked := checkTaskRequest_spec hspec
  obtain ⟨hfits, hactor⟩ := placeRequest_spec hplacement
  rw [QueryExecutionGraph.stageId_of_stage? hchecked.stage] at hfits
  exact ⟨spec, { hchecked with fits := hfits, actor := hactor }⟩

end QueryResourceManager

end Vane
