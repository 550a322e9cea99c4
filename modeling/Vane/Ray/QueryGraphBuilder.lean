import Vane.Ray.Coordinator
import Vane.Ray.QueryExecutionGraph

/-! This module contains the demand that a query registers with the coordinator. -/

namespace Vane

namespace StageResourceSpec

def actorBundle (stage : StageResourceSpec) : ResourceVector :=
  stage.residentPerActor + stage.taskCommitment

def actorBundles (stage : StageResourceSpec) : Except PyError (List ActorResourceBundle) :=
  (List.range stage.actorMinSize.toNat).mapM fun (index : ℕ) =>
    ActorResourceBundle.make stage.stageId index stage.actorBundle

end StageResourceSpec

namespace QueryExecutionGraph

variable (g : QueryExecutionGraph)

def stagesOf (backend : Backend) : List StageResourceSpec := g.stages.filter (·.backend = backend)

def actorBundles : Except PyError (List ActorResourceBundle) := do
  let bundles ← (g.stagesOf .rayActor).mapM (·.actorBundles)
  return bundles.flatten

def downstreamFteStageIds : List String :=
  (g.stages.filter (·.backend ≠ .rayWorker)).flatMap g.separateSlotStageIds

def downstreamFteTasks : List ResourceVector :=
  ((g.topologicalStageIds.filter (· ∈ g.downstreamFteStageIds)).filterMap g.stage?).map
    (·.taskCommitment)

def taskBundles : List ResourceVector :=
  [.componentMax ((g.stagesOf .rayTask).map (·.taskCommitment)),
    .componentMax ((g.stagesOf .rayWorker).map (·.taskCommitment)),
    .componentMax g.downstreamFteTasks].filter (· ≠ 0)

def desiredGpu : ℚ≥0 :=
  ((g.stagesOf .rayActor).map fun stage =>
    stage.residentPerActor.gpu * (stage.actorMaxSize.toNat : ℚ≥0)).sum

def buildQueryDemand (clusterCapacity : ResourceVector) (weight : ℚ := 1)
    (priority : ℤ := 0) : Except PyError QueryDemand := do
  let actorBundles ← g.actorBundles
  let minimum := (actorBundles.map ActorResourceBundle.resources).sum + g.taskBundles.sum
  let desired := { clusterCapacity with
    gpu := min clusterCapacity.gpu (max g.desiredGpu minimum.gpu) }
  QueryDemand.make g.queryId minimum desired weight priority actorBundles g.taskBundles

end QueryExecutionGraph

end Vane
