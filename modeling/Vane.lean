import Vane.Ai.TextEmbedder
import Vane.Execution.BackPressure
import Vane.Execution.StreamProtocol
import Vane.Fte.Agreement
import Vane.Fte.AttemptOutcome
import Vane.Fte.ControlBarrierLemmas
import Vane.Fte.FailedStart
import Vane.Fte.HashTaskMapping
import Vane.Fte.InternalAdmissions
import Vane.Fte.OutputBufferEvolution
import Vane.Fte.PartitionSizes
import Vane.Fte.PendingDrain
import Vane.Fte.SchedulerStates
import Vane.Fte.SelectedSplits
import Vane.Fte.SourceCompletion
import Vane.Fte.StatusVersions
import Vane.Fte.StatusWatch
import Vane.Fte.WorkerCapacity
import Vane.Ray.DemandedAllocations
import Vane.Ray.Driver.Fence
import Vane.Ray.Driver.LoopFence
import Vane.Ray.QueryResourceManager.Answers
import Vane.Ray.QueryResourceManager.Arbitration
import Vane.Ray.QueryResourceManager.LeaseIndex
import Vane.Ray.QueryResourceManager.Liveness
