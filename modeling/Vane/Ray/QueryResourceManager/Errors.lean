import Vane.Ray.QueryResourceManager.AdmissionLemmas
import Vane.Ray.QueryResourceManager.Grants
import Vane.Ray.ResourceLedgerLemmas

/-! This module contains what can be raised while a request is judged. -/

namespace Vane

def isIndexError : PyError → Bool
  | .runtimeError message => message ∈ [
      "continuation credit accounting index is inconsistent",
      "continuation borrower index is inconsistent",
      "continuation parent index is inconsistent",
      "Ray actor slot ownership index is inconsistent"]
  | _ => false

theorem isIndexError_of_head {message : String} {c : Char} (h : message.toList.head? = some c)
    (hc : c ≠ 'c' ∧ c ≠ 'R') : isIndexError (.runtimeError message) = false := by
  unfold isIndexError
  rw [decide_eq_false_iff_not]
  intro hmem
  simp only [List.mem_cons, List.not_mem_nil, or_false] at hmem
  have hhead : message.toList.head? = some 'c' ∨ message.toList.head? = some 'R' := by
    rcases hmem with rfl | rfl | rfl | rfl <;> decide
  rw [h, Option.some.injEq, Option.some.injEq] at hhead
  tauto

theorem head?_append {a b : String} {c : Char} (h : a.toList.head? = some c) :
    (a ++ b).toList.head? = some c := by
  rw [String.toList_append, List.head?_append, h]
  rfl

theorem isIndexError_undeclared (stageId : String) (d : Dimension) :
    isIndexError (.runtimeError s!"stage {stageId} requested undeclared {d.name} capacity") =
      false := by
  apply isIndexError_of_head (c := 's')
  . repeat apply head?_append
    decide
  . decide

namespace Exit

variable {P : PyError → Prop}

def IsTame (P : PyError → Prop) : Exit → Prop
  | raise e => P e
  | block reason _ => reason.isSoftTask = false

theorem raises_blockIf {c : Prop} [Decidable c] {reason : BlockReason} {fatal : Bool}
    (h : reason.isSoftTask = false) : (blockIf c reason fatal).Raises (IsTame P) :=
  Except.raises_raiseIf h

theorem raises_raising {α : Type} {x : Except PyError α} (h : x.Raises P) :
    (raising x).Raises (IsTame P) := by
  intro e he
  cases x with
  | ok a => cases he
  | error e' =>
    cases he
    exact h e' rfl

end Exit

namespace QueryResourceManager

open Except (raises_ok raises_error raises_bind raises_mapM raises_raiseIf raises_findSomeM?
  raises_forM raises_foldlM)
open Exit (raises_blockIf raises_raising IsTame blockIf_eq_ok_iff raising_eq_ok_iff)

theorem validateAllocation_tame (graph : QueryExecutionGraph) (allocation : QueryAllocation)
    (requireFullMinimum : Bool) :
    (graph.validateAllocation allocation requireFullMinimum).Raises (isIndexError · = false) := by
  have hnode : ∀ nodeId, (allocation.resourcesForNode nodeId).Raises (isIndexError · = false) := by
    intro nodeId
    unfold QueryAllocation.resourcesForNode
    split
    . exact raises_ok _
    . exact raises_error rfl
  apply raises_bind
  . apply raises_forM
    intro stage _
    unfold QueryExecutionGraph.validateStageAllocation
    iterate 4
      refine raises_bind (raises_raiseIf (by rfl)) ?_
      intro _ _
    split
    . iterate 3
        refine raises_bind (raises_raiseIf (by rfl)) ?_
        intro _ _
      apply raises_forM
      intro p _
      apply raises_bind (hnode _)
      exact fun _ _ => raises_raiseIf (by rfl)
    . exact raises_ok _
  . intro _ _
    refine raises_bind (raises_raiseIf (by rfl)) ?_
    intro _ _
    split
    . apply raises_bind
      . apply raises_foldlM
        intro byNode p _
        unfold QueryExecutionGraph.addActorCommitment QueryExecutionGraph.stageById
        apply raises_bind
        . split
          . exact raises_ok _
          . exact raises_error rfl
        . exact fun _ _ => raises_ok _
      . intro byNode _
        apply raises_forM
        intro entry _
        apply raises_bind (hnode _)
        exact fun _ _ => raises_raiseIf (by rfl)
    . exact raises_ok _

variable {m : QueryResourceManager} {P : PyError → Prop} (hl : m.toLedger.Consistent)
include hl

/-! The views of a consistent ledger. -/

theorem queryUsage_tame : m.queryUsage.Raises P := by
  rw [Ledger.queryUsage_eq hl]
  exact raises_ok _

theorem nodeUsage_tame (nodeId : String) : (m.nodeUsage nodeId).Raises P := by
  rw [Ledger.nodeUsage_eq hl]
  exact raises_ok _

theorem stageUsage_tame (stageId : String) : (m.stageUsage stageId).Raises P := by
  rw [Ledger.stageUsage_eq hl]
  exact raises_ok _

theorem nodeUsages_tame (nodes : List NodeResourceAllocation) : (m.nodeUsages nodes).Raises P := by
  apply raises_mapM
  intro node _
  exact raises_bind (nodeUsage_tame hl _) fun _ _ => raises_ok _

theorem stageSoftBlockReason_tame {spec : StageResourceSpec} {request : ResourceVector}
    (h : ∀ d, 0 < request.get d → spec ∉ m.dimensionReservationStages d spec →
      P (.runtimeError s!"stage {spec.stageId} requested undeclared {d.name} capacity")) :
    (m.stageSoftBlockReason spec request).Raises P := by
  apply raises_bind
  . apply raises_mapM
    intro key _
    exact raises_bind (stageUsage_tame hl _) fun _ _ => raises_ok _
  . intro _ _
    refine raises_bind (stageUsage_tame hl _) ?_
    intro _ _
    apply raises_findSomeM?
    intro d hd
    have hpos : 0 < request.get d := by simpa using (List.mem_filter.mp hd).2
    apply raises_bind
    . intro e he
      obtain ⟨hmem, rfl⟩ := Except.raiseIf_eq_error_iff.mp he
      exact h d hpos hmem
    . exact fun _ _ => raises_ok _

/-! The placement of a task. -/

theorem selectTaskNode_tame (requested : Option String) (commitment : ResourceVector)
    (allowed : Option (List String)) (reservations : List DownstreamReservation) :
    (m.selectTaskNode requested commitment allowed reservations).Raises (IsTame P) := by
  apply raises_bind (raises_blockIf rfl)
  intro _ _
  apply raises_bind (raises_blockIf rfl)
  intro _ _
  apply raises_bind (raises_raising (nodeUsages_tame hl _))
  intro _ _
  apply raises_bind (raises_blockIf (by split <;> rfl))
  intro _ _
  apply raises_bind
  . apply raises_raising
    split
    . exact raises_ok _
    . exact nodeUsages_tame hl _
  . intro _ _
    apply raises_bind (raises_blockIf rfl)
    intro _ hsafe
    split
    . exact raises_ok _
    . next hnone =>
      exact absurd (List.minBy?_eq_none_iff.mp hnone) (blockIf_eq_ok_iff.mp hsafe)

theorem selectTaskAndCreditNodes_tame (requested : Option String)
    (taskCommitment creditResources : ResourceVector) (reservations : List DownstreamReservation) :
    (m.selectTaskAndCreditNodes requested taskCommitment creditResources reservations).Raises
      (IsTame P) := by
  apply raises_bind (raises_blockIf rfl)
  intro _ _
  apply raises_bind (raises_blockIf rfl)
  intro _ _
  apply raises_bind (raises_blockIf rfl)
  intro _ _
  apply raises_bind (raises_raising (nodeUsages_tame hl _))
  intro _ _
  apply raises_bind (raises_blockIf (by split <;> rfl))
  intro _ hfeasible
  split
  . exact raises_ok _
  . next hnone =>
    exact absurd (List.minBy?_eq_none_iff.mp hnone) (blockIf_eq_ok_iff.mp hfeasible)

theorem availableContinuationCredit_tame (stage : StageResourceSpec) (requested : Option String)
    (resources : ResourceVector) (window : ℕ) (usage : ResourceVector) :
    (m.availableContinuationCredit stage requested resources window usage).Raises
      P := by
  unfold availableContinuationCredit
  split
  . exact raises_ok _
  . refine raises_bind ?_ fun _ _ => raises_ok _
    apply raises_mapM
    intro credit hcredit
    have hnode : credit.nodeId ∈ m.allocation.nodeAllocations.map (·.nodeId) := by
      have hborrowable := (List.mem_filter.mp hcredit).2
      simp only [isBorrowable, decide_eq_true_eq] at hborrowable
      exact hborrowable.2.2.2.2.2
    refine raises_bind ?_ fun _ _ => raises_ok _
    refine raises_bind (nodeUsage_tame hl _) ?_
    intro _ _
    refine raises_bind ?_ fun _ _ => raises_ok _
    unfold QueryAllocation.resourcesForNode
    split
    . exact raises_ok _
    . next hnone =>
      obtain ⟨node, hmem, hid⟩ := List.mem_map.mp hnode
      exact absurd hid (by simpa using List.find?_eq_none.mp hnone node hmem)

theorem placeRequest_tame (request : TaskRequest) (spec : StageResourceSpec) :
    (m.placeRequest request spec).Raises (IsTame P) := by
  apply raises_bind
  . unfold freeActors
    split
    . exact raises_bind (raises_blockIf rfl) fun _ _ => raises_ok _
    . exact raises_ok _
  . intro free hfree
    apply raises_bind (raises_blockIf rfl)
    intro _ _
    apply raises_bind (raises_blockIf rfl)
    intro _ _
    apply raises_bind (raises_raising (queryUsage_tame hl))
    intro _ _
    apply raises_bind (raises_blockIf rfl)
    intro _ _
    apply raises_bind (raises_raising (availableContinuationCredit_tame hl _ _ _ _ _))
    intro borrowed hborrowed
    dsimp only
    split
    . exact raises_error (by
        split <;> rfl)
    . apply raises_bind (raises_blockIf rfl)
      intro _ _
      apply raises_bind
      . unfold placeTask
        split
        . exact raises_bind (selectTaskAndCreditNodes_tame hl _ _ _ _) fun _ _ => raises_ok _
        . exact raises_bind (selectTaskNode_tame hl _ _ _ _) fun _ _ => raises_ok _
      . intro placed hplaced
        have hnested : borrowed = none ∨ spec.backend = .rayTask := by
          cases borrowed with
          | none => exact .inl rfl
          | some credit =>
            exact .inr (availableContinuationCredit_spec (raising_eq_ok_iff.mp hborrowed)).1
        obtain ⟨index, hindex⟩ := chooseActor_eq_ok hfree hnested hplaced
        rw [hindex]
        exact raises_bind (raises_ok _) fun _ _ => raises_ok _

/-! Admission. -/

theorem admitTask_tame {request : TaskRequest} {hypothetical : Bool}
    (hsoft : ∀ spec p, m.checkTaskRequest request hypothetical = .ok spec →
      m.placeRequest request spec = .ok p → (m.stageSoftBlockReason p.spec p.commitment).Raises P) :
    (m.admitTask request hypothetical).Raises (IsTame P) := by
  apply raises_bind
  . iterate 3
      apply raises_bind (raises_blockIf rfl)
      intro _ _
    split
    . exact raises_error rfl
    . iterate 7
        apply raises_bind (raises_blockIf rfl)
        intro _ _
      exact raises_ok _
  . intro spec hspec
    apply raises_bind (placeRequest_tame hl request spec)
    intro placement hplacement
    refine raises_bind ?_ fun _ _ => raises_ok _
    apply raises_raising
    unfold softBlockReason
    split
    . exact raises_ok _
    . split
      . exact hsoft spec placement hspec hplacement
      . exact raises_ok _

theorem normalTaskBlockReason_tame {request : TaskRequest} {hypothetical : Bool}
    (hsoft : ∀ spec p, m.checkTaskRequest request hypothetical = .ok spec →
      m.placeRequest request spec = .ok p → (m.stageSoftBlockReason p.spec p.commitment).Raises P) :
    (m.normalTaskBlockReason request hypothetical).Raises P := by
  intro e he
  unfold normalTaskBlockReason at he
  split at he
  . next e' herror =>
    cases he
    exact admitTask_tame hl hsoft _ herror
  . cases he
  . cases he

theorem normalTaskBlockReason_admitted {request : TaskRequest} {admission : TaskAdmission}
    (h : m.normalTaskBlockReason request = .ok admission)
    (hreason : admission.reason = none ∨ admission.reason.any (·.isSoftTask) = true) :
    ∃ spec, m.Admitted request spec admission.plan := by
  unfold normalTaskBlockReason at h
  split at h
  . cases h
  . next reason fatal herror =>
    cases h
    have hhard : reason.isSoftTask = false :=
      admitTask_tame (P := fun _ => True) hl (fun _ _ _ _ _ _ => trivial) _ herror
    simp [hhard] at hreason
  . next plan soft hadmit =>
    cases h
    exact admitTask_admitted hadmit

theorem mem_stageIds_of_isSoft {e : QueuedTaskEvaluation}
    (h : m.normalTaskBlockReason e.request = .ok e.admission) (hsoft : e.isSoft = true) :
    e.request.stageId ∈ m.graph.stageIds := by
  simp only [QueuedTaskEvaluation.isSoft, decide_eq_true_eq] at hsoft
  obtain ⟨spec, hadmitted⟩ := normalTaskBlockReason_admitted hl h (.inr hsoft.2)
  exact QueryExecutionGraph.mem_stageIds_iff.mpr ⟨spec, hadmitted.stage⟩

omit hl in
theorem mem_reverseTopologicalStageIds {stageId : String} :
    stageId ∈ m.graph.reverseTopologicalStageIds ↔ stageId ∈ m.graph.stageIds := by
  unfold QueryExecutionGraph.reverseTopologicalStageIds QueryExecutionGraph.topologicalStageIds
  rw [List.mem_reverse, QueryExecutionGraph.mem_topologicalOrder]

omit hl in
theorem waitingTaskRank_tame {request : TaskRequest}
    (h : request.stageId ∈ m.graph.stageIds ∨ P (.keyError request.stageId)) (order : ℕ) :
    (m.waitingTaskRank request order).Raises P := by
  unfold waitingTaskRank
  dsimp only
  split
  . exact raises_ok _
  . next hunknown =>
    rw [mem_reverseTopologicalStageIds] at hunknown
    exact raises_error (h.resolve_left hunknown)

theorem selectWaitingTaskEvaluation_tame {evaluations : List QueuedTaskEvaluation}
    (h : ∀ e ∈ evaluations, m.normalTaskBlockReason e.request = .ok e.admission) :
    (m.selectWaitingTaskEvaluation evaluations).Raises P := by
  unfold selectWaitingTaskEvaluation
  split
  . exact raises_ok _
  . dsimp only
    split
    . exact raises_ok _
    . next hsoft =>
      split
      . next hnone =>
        obtain ⟨e, he⟩ := List.exists_mem_of_ne_nil _ hsoft
        obtain ⟨hmem, hsoft⟩ := List.mem_filter.mp he
        have hordered : e.request.stageId ∈ m.graph.reverseTopologicalStageIds.filter
            (· ∈ (evaluations.filter (·.isSoft)).map (·.request.stageId)) :=
          List.mem_filter.mpr
            ⟨mem_reverseTopologicalStageIds.mpr (mem_stageIds_of_isSoft hl (h e hmem) hsoft),
              decide_eq_true (List.mem_map.mpr ⟨e, he, rfl⟩)⟩
        unfold preferStarving at hnone
        split at hnone
        . cases hnone
        . rw [List.head?_eq_none_iff.mp hnone] at hordered
          exact absurd hordered List.not_mem_nil
      . exact raises_ok _

/-- The judgements of the requests in `S` raise nothing but `P`. They include all the requests that
the manager judges of its own accord. -/
structure JudgesTasks (m : QueryResourceManager) (S : TaskRequest → Prop) (P : PyError → Prop) :
    Prop where
  judged : ∀ request hypothetical, S request →
    (m.normalTaskBlockReason request hypothetical).Raises P
  waiting : ∀ waiter ∈ m.waitingTaskInputs.values, S waiter.1
  hypothetical : ∀ spec ∈ m.graph.stages, S (m.hypotheticalRequest spec)
  ranked : ∀ waiter ∈ m.waitingTaskInputs.values,
    waiter.1.stageId ∈ m.graph.stageIds ∨ P (.keyError waiter.1.stageId)

theorem judgesTasks_isIndexError : m.JudgesTasks (fun _ => True) (isIndexError · = false) where
  judged := fun _ _ _ => normalTaskBlockReason_tame hl fun _ _ _ _ =>
    stageSoftBlockReason_tame hl fun _ _ _ => isIndexError_undeclared _ _
  waiting := fun _ _ => trivial
  hypothetical := fun _ _ => trivial
  ranked := fun _ _ => .inr rfl

omit hl

section

variable {S : TaskRequest → Prop} (hj : m.JudgesTasks S P)
include hj

theorem evaluateWaitingTasks_tame : m.evaluateWaitingTasks.Raises P := by
  apply raises_mapM
  rintro ⟨⟨request, queued⟩, order⟩ hmem
  have hwaiter := List.mem_of_getElem? (List.mem_zipIdx_iff_getElem?.mp hmem)
  apply raises_bind (hj.judged request false (hj.waiting _ hwaiter))
  intro _ _
  exact raises_bind (waitingTaskRank_tame (hj.ranked _ hwaiter) _) fun _ _ => raises_ok _

theorem anyAdmitted_tame {requests : List TaskRequest} (h : ∀ request ∈ requests, S request) :
    (m.anyAdmitted requests).Raises P := by
  induction requests with
  | nil => exact raises_ok _
  | cons request rest ih =>
    apply raises_bind (hj.judged request true (h _ List.mem_cons_self))
    intro _ _
    split
    . exact raises_ok _
    . exact ih fun _ hmem => h _ (List.mem_cons_of_mem _ hmem)

theorem anySoft_tame {requests : List TaskRequest} (h : ∀ request ∈ requests, S request) :
    (m.anySoft requests).Raises P := by
  induction requests with
  | nil => exact raises_ok _
  | cons request rest ih =>
    apply raises_bind (hj.judged request true (h _ List.mem_cons_self))
    intro _ _
    split
    . exact raises_ok _
    . exact ih fun _ hmem => h _ (List.mem_cons_of_mem _ hmem)

theorem taskLivenessBlockReason_tame (request : TaskRequest) :
    (m.taskLivenessBlockReason request).Raises P := by
  have hwaiting : ∀ request ∈ m.waitingTaskInputs.values.map Prod.fst, S request :=
    List.forall_mem_map.mpr hj.waiting
  have hidle : ∀ specs, (∀ spec ∈ specs, spec ∈ m.graph.stages) →
      ∀ request ∈ m.hypotheticalRequests specs, S request := fun specs h =>
    List.forall_mem_map.mpr fun spec hmem => hj.hypothetical spec (h _ (List.mem_of_mem_filter hmem))
  unfold taskLivenessBlockReason
  split
  . exact raises_ok _
  . apply raises_bind
    . unfold hasNormalTaskCandidate
      split
      . exact anyAdmitted_tame hj hwaiting
      . exact anyAdmitted_tame hj (hidle _ fun _ => id)
    . intro candidate _
      split
      . exact raises_ok _
      . apply raises_bind
        . refine raises_bind (raises_mapM fun spec hspec => anySoft_tame hj ?_) fun _ _ => raises_ok _
          unfold livenessRequests
          split
          . exact fun request hmem => hwaiting _ (List.mem_of_mem_filter hmem)
          . refine hidle _ (List.forall_mem_singleton.mpr ?_)
            obtain ⟨id, -, hfound⟩ := List.mem_filterMap.mp hspec
            exact List.mem_of_find?_eq_some hfound
        . intro preferred _
          split <;> exact raises_ok _

end

/-! Output blocks. -/

include hl in
theorem normalOutputBlockReason_tame {request : OutputBlockRequest}
    (hsoft : ∀ spec task, m.checkOutputRequest request = .ok (spec, task) →
      ∀ delta, (m.stageSoftBlockReason spec (.ofObjectStore delta)).Raises P) :
    (m.normalOutputBlockReason request).Raises P := by
  unfold normalOutputBlockReason
  split
  . exact raises_ok _
  . next spec task hcheck =>
    dsimp only
    split
    . exact raises_ok _
    . refine raises_bind (queryUsage_tame hl) ?_
      intro _ _
      split
      . exact raises_ok _
      . split
        . exact raises_ok _
        . refine raises_bind (nodeUsage_tame hl _) ?_
          intro _ _
          split
          . exact raises_ok _
          . exact raises_bind (hsoft spec task hcheck _) fun _ _ => raises_ok _

include hl in
theorem outputs_isIndexError (request : OutputBlockRequest) :
    (m.normalOutputBlockReason request).Raises (isIndexError · = false) :=
  normalOutputBlockReason_tame hl fun _ _ _ _ =>
    stageSoftBlockReason_tame hl fun _ _ _ => isIndexError_undeclared _ _

variable (hj : ∀ request, (m.normalOutputBlockReason request).Raises P)
include hj

theorem hasNormalOutputCandidate_tame : m.hasNormalOutputCandidate.Raises P := by
  unfold hasNormalOutputCandidate
  dsimp only
  generalize List.filterMap _ _ = requests
  induction requests with
  | nil => exact raises_ok _
  | cons request rest ih =>
    apply raises_bind (hj request)
    intro _ _
    split
    . exact raises_ok _
    . exact ih

theorem preferredOutputLivenessStage_tame (current : OutputBlockRequest) :
    (m.preferredOutputLivenessStage current).Raises P := by
  apply raises_bind
  . apply raises_mapM
    intro request _
    exact raises_bind (hj request) fun _ _ => raises_ok _
  . exact fun _ _ => raises_ok _

theorem rankWaitingOutputs_tame (candidateBlockIds : List String) :
    (m.rankWaitingOutputs candidateBlockIds).Raises P := by
  apply raises_mapM
  intro _ _
  exact raises_bind (hj _) fun _ _ => raises_ok _

end QueryResourceManager

end Vane
