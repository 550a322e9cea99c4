import Vane.Ray.QueryResourceManager.Safety

/-! This module contains when an acquisition answers. -/

namespace Vane

namespace QueryResourceManager

variable {uuid : UuidSource} {N : Set String} {m : QueryResourceManager} {request : TaskRequest}
  {spec : StageResourceSpec} {stageId : String}

theorem mem_dimensionReservationStages {d : Dimension} (hspec : m.graph.stage? stageId = some spec)
    (hrunnable : (m.stages stageId).runnable = true)
    (hcompleted : (m.stages stageId).completed = false)
    (hpos : 0 < stageDimensionCommitment spec d) : spec ∈ m.dimensionReservationStages d spec := by
  obtain rfl := QueryExecutionGraph.stageId_of_stage? hspec
  have hmem := List.mem_of_find?_eq_some hspec
  have hlive : spec ∈ m.dimensionLiveDemandStages d (some spec.stageId) := by
    simp [dimensionLiveDemandStages, hmem, hrunnable, hcompleted, hpos]
  unfold dimensionReservationStages
  split
  . exact hlive
  . exact List.mem_filter.mpr ⟨List.mem_filterMap.mpr ⟨spec.stageId,
      QueryExecutionGraph.mem_topologicalOrder.mpr (List.mem_map_of_mem hmem), hspec⟩, by simp [hlive]⟩

/-- The stage has object store bytes for the input that the task retains. -/
def Affords (spec : StageResourceSpec) (request : TaskRequest) : Prop :=
  (∀ bytes ∈ request.retainedInputBytes, bytes ≤ 0) ∨ 0 < spec.taskCommitment.objectStoreBytes

def WaitersDeclare (m : QueryResourceManager) : Prop :=
  ∀ waiter ∈ m.waitingTaskInputs.values,
    ∃ spec ∈ m.graph.stage? waiter.1.stageId, Affords spec waiter.1

def OutputsDeclare (m : QueryResourceManager) : Prop :=
  ∀ task ∈ m.taskLeases.values, (m.stages task.stageId).runnable = true ∧
    (m.stages task.stageId).completed = false ∧
      ∀ spec ∈ m.graph.stage? task.stageId, 0 < spec.taskCommitment.objectStoreBytes

/-- `call` is an acquisition, and what it judges asks for no capacity that a stage has not declared. -/
def Declares (m : QueryResourceManager) : Call → Prop
  | .tryAcquireTask request =>
    (∀ spec ∈ m.graph.stage? request.stageId, Affords spec request) ∧ m.WaitersDeclare
  | .tryAcquireTaskDescriptor request =>
    (∃ spec ∈ m.graph.stage? request.stageId, Affords spec request) ∧ m.WaitersDeclare
  | .tryAcquireQueuedTask _ | .tryAcquireNextQueuedTask _ => m.WaitersDeclare
  | .tryAcquireOutputBlock _ | .tryAcquireNextQueuedOutputBlock _ => m.OutputsDeclare
  | _ => False

theorem Affords.commitment_pos (h : Affords spec request) {p : Placement}
    (hplace : m.placeRequest request spec = .ok p) {d : Dimension} (hpos : 0 < p.commitment.get d) :
    p.spec = spec ∧ 0 < stageDimensionCommitment spec d := by
  unfold placeRequest at hplace
  simp only [Except.bind_eq_ok_iff] at hplace
  obtain ⟨_, -, _, -, _, -, _, -, _, -, _, -, hplace⟩ := hplace
  split at hplace
  . cases hplace
  . simp only [Except.bind_eq_ok_iff] at hplace
    obtain ⟨_, -, _, -, _, -, hplace⟩ := hplace
    cases hplace
    refine ⟨rfl, ?_⟩
    cases d with
    | objectStoreBytes =>
      simp only [stageDimensionCommitment, ResourceVector.get, Nat.cast_pos] at hpos ⊢
      rcases h with h | h
      . cases hretained : request.retainedInputBytes with
        | none => simpa [hretained, StageResourceSpec.taskCommitment,
            ResourceVector.withObjectStore] using hpos
        | some bytes =>
          have hzero := Int.toNat_of_nonpos (h bytes hretained)
          simp [hretained, hzero, StageResourceSpec.taskCommitment,
            ResourceVector.withObjectStore] at hpos ⊢
          omega
      . exact h
    | _ => exact hpos

theorem judgesTasks_of_waitersDeclare (hl : m.toLedger.Consistent) (h : m.WaitersDeclare) :
    m.JudgesTasks (fun request => ∀ spec ∈ m.graph.stage? request.stageId, Affords spec request)
      (fun _ => False) where
  judged := by
    intro request hypothetical hrequest
    refine normalTaskBlockReason_tame hl ?_
    intro spec p hcheck hplace
    obtain ⟨hspec, hrunnable, hcompleted⟩ := checkTaskRequest_open hcheck
    refine stageSoftBlockReason_tame hl ?_
    intro d hpos hmissing
    obtain ⟨hsame, hdeclared⟩ := (hrequest spec hspec).commitment_pos hplace hpos
    rw [hsame] at hmissing
    exact hmissing (mem_dimensionReservationStages hspec hrunnable hcompleted hdeclared)
  waiting := by
    intro waiter hwaiter spec hspec
    obtain ⟨spec', hspec', haffords⟩ := h waiter hwaiter
    rwa [Option.some.inj (hspec.symm.trans hspec')]
  hypothetical := by
    intro spec hmem spec' hspec'
    rw [show m.graph.stage? (m.hypotheticalRequest spec).stageId = some spec from
      QueryExecutionGraph.stage?_of_mem hmem] at hspec'
    cases hspec'
    unfold Affords hypotheticalRequest StageResourceSpec.taskCommitment
    simp only [Option.mem_def, Option.some.injEq, forall_eq', ResourceVector.withObjectStore]
    omega
  ranked := by
    intro waiter hwaiter
    obtain ⟨spec, hspec, -⟩ := h waiter hwaiter
    exact .inl (QueryExecutionGraph.mem_stageIds_iff.mpr ⟨spec, hspec⟩)

theorem OutputsDeclare.answers (hl : m.toLedger.Consistent) (h : m.OutputsDeclare)
    (request : OutputBlockRequest) : (m.normalOutputBlockReason request).Raises fun _ => False := by
  refine normalOutputBlockReason_tame hl ?_
  intro spec task hcheck delta
  refine stageSoftBlockReason_tame hl ?_
  intro d hpos hmissing
  obtain ⟨-, hspec, -, hlive, hsame, -⟩ := checkOutputRequest_spec hcheck
  obtain ⟨hrunnable, hcompleted, hdeclared⟩ := h task (Dict.mem_values_of_find? hlive)
  rw [hsame, QueryExecutionGraph.stageId_of_stage? hspec] at hrunnable hcompleted hdeclared
  refine hmissing (mem_dimensionReservationStages hspec hrunnable hcompleted ?_)
  cases d with
  | objectStoreBytes => exact Nat.cast_pos.mpr (hdeclared spec hspec)
  | _ => exact absurd hpos (by simp [ResourceVector.ofObjectStore, ResourceVector.get])

def scanTask : Call := .tryAcquireTask (TwoStages.request "stage:scan" "t" "0")

def largeBlock : Call := .tryAcquireOutputBlock { TwoStages.block "a" "0" "b" with sizeBytes := 100 }

end QueryResourceManager

end Vane
