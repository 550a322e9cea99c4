import Vane.Ray.QueryResourceManager.Fencing

/-! This module contains the result that the secondary tables of a manager agree with its leases. -/

namespace Vane

namespace QueryResourceManager

variable {stageId : String}

open Table (IsIndex)

variable {uuid : UuidSource} {N : Set String} {m m' : QueryResourceManager} {call : Call}
  {result : Except PyError Answer}

/-! The counters of the inputs. -/

def waitingInputs (m : QueryResourceManager) (stageId : String) : List ℕ :=
  (m.waitingTaskInputs.values.filter (·.1.stageId = stageId)).map Prod.snd

theorem inputCounters_eq (m : QueryResourceManager) (stageId : String) :
    m.inputCounters stageId = ((m.waitingInputs stageId).length, (m.waitingInputs stageId).sum) := by
  simp [inputCounters, recomputeStageQueuedInput, updateStage, StageState.inputCounters,
    waitingInputs]

theorem stages_recomputeStageQueuedInput (m : QueryResourceManager) (stageId other : String) :
    ((m.recomputeStageQueuedInput stageId).stages other).inputCounters =
        (if other = stageId then m.inputCounters stageId else (m.stages other).inputCounters) ∧
      ((m.recomputeStageQueuedInput stageId).stages other).outputCounters =
        (m.stages other).outputCounters := by
  unfold recomputeStageQueuedInput updateStage
  by_cases h : other = stageId
  . subst h
    simp [inputCounters_eq, waitingInputs, StageState.inputCounters, StageState.outputCounters]
  . simp [h]

def CountsInputs (m : QueryResourceManager) : Prop :=
  ∀ stageId ∈ m.graph.stageIds, (m.stages stageId).inputCounters = m.inputCounters stageId

theorem CountsInputs.congr (h : m.CountsInputs) (hgraph : m'.graph = m.graph)
    (hwaiting : m'.waitingTaskInputs = m.waitingTaskInputs)
    (hstages : ∀ stageId, (m'.stages stageId).inputCounters = (m.stages stageId).inputCounters) :
    m'.CountsInputs := by
  intro stageId hstage
  rw [hgraph] at hstage
  rw [hstages, h stageId hstage, inputCounters_eq, inputCounters_eq]
  unfold waitingInputs
  rw [hwaiting]

theorem CountsInputs.recount (h : m.CountsInputs) (m' : QueryResourceManager) (stageId : String)
    (hgraph : m'.graph = m.graph)
    (hwaiting : ∀ other, other ≠ stageId → m'.waitingInputs other = m.waitingInputs other)
    (hstages : ∀ other, other ≠ stageId →
      (m'.stages other).inputCounters = (m.stages other).inputCounters) :
    (m'.recomputeStageQueuedInput stageId).CountsInputs := by
  intro other hother
  have hcount : (m'.recomputeStageQueuedInput stageId).inputCounters other =
      m'.inputCounters other := by
    rw [inputCounters_eq, inputCounters_eq]
    rfl
  rw [(m'.stages_recomputeStageQueuedInput stageId other).1, hcount]
  split
  . next hsame => rw [hsame]
  . next hne =>
    rw [hstages other hne, h other (by rw [← hgraph]; exact hother), inputCounters_eq,
      ← hwaiting other hne, ← inputCounters_eq]

/-! The counters of the outputs. -/

def waitingOutputs (m : QueryResourceManager) (stageId : String) : List ℤ :=
  (m.waitingOutputBlocks.values.filter (·.producerStageId = stageId)).map (·.sizeBytes)

def queuedOutputs (m : QueryResourceManager) (stageId : String) : List ℤ :=
  (m.outputLeases.values.filter fun lease =>
    lease.producerStageId = stageId ∧ ¬lease.state.isHandedOff).map (·.sizeBytes)

theorem outputCounters_eq (m : QueryResourceManager) (stageId : String) :
    m.outputCounters stageId = ((m.waitingOutputs stageId).length,
      (m.waitingOutputs stageId).sum + (m.queuedOutputs stageId).sum) := by
  simp [outputCounters, recomputeStageQueuedOutput, updateStage, StageState.outputCounters,
    waitingOutputs, queuedOutputs]

theorem stages_recomputeStageQueuedOutput (m : QueryResourceManager) (stageId other : String) :
    ((m.recomputeStageQueuedOutput stageId).stages other).outputCounters =
        (if other = stageId then m.outputCounters stageId else (m.stages other).outputCounters) ∧
      ((m.recomputeStageQueuedOutput stageId).stages other).inputCounters =
        (m.stages other).inputCounters := by
  unfold recomputeStageQueuedOutput updateStage
  by_cases h : other = stageId
  . subst h
    simp [outputCounters_eq, waitingOutputs, queuedOutputs, StageState.inputCounters,
      StageState.outputCounters]
  . simp [h]

def CountsOutputs (m : QueryResourceManager) : Prop :=
  ∀ stageId ∈ m.graph.stageIds, (m.stages stageId).outputCounters = m.outputCounters stageId

theorem CountsOutputs.congr (h : m.CountsOutputs) (hgraph : m'.graph = m.graph)
    (hwaiting : m'.waitingOutputBlocks = m.waitingOutputBlocks)
    (houtputs : m'.outputLeases = m.outputLeases)
    (hstages : ∀ stageId, (m'.stages stageId).outputCounters = (m.stages stageId).outputCounters) :
    m'.CountsOutputs := by
  intro stageId hstage
  rw [hgraph] at hstage
  rw [hstages, h stageId hstage, outputCounters_eq, outputCounters_eq]
  unfold waitingOutputs queuedOutputs
  rw [hwaiting, houtputs]

theorem CountsOutputs.recount (h : m.CountsOutputs) (m' : QueryResourceManager) (stageId : String)
    (hgraph : m'.graph = m.graph)
    (hwaiting : ∀ other, other ≠ stageId → m'.waitingOutputs other = m.waitingOutputs other)
    (houtputs : ∀ other, other ≠ stageId → m'.queuedOutputs other = m.queuedOutputs other)
    (hstages : ∀ other, other ≠ stageId →
      (m'.stages other).outputCounters = (m.stages other).outputCounters) :
    (m'.recomputeStageQueuedOutput stageId).CountsOutputs := by
  intro other hother
  have hcount : (m'.recomputeStageQueuedOutput stageId).outputCounters other =
      m'.outputCounters other := by
    rw [outputCounters_eq, outputCounters_eq]
    rfl
  rw [(m'.stages_recomputeStageQueuedOutput stageId other).1, hcount]
  split
  . next hsame => rw [hsame]
  . next hne =>
    rw [hstages other hne, h other (by rw [← hgraph]; exact hother), outputCounters_eq,
      ← hwaiting other hne, ← houtputs other hne, ← outputCounters_eq]

/-! The counters along a call. -/

theorem CountsInputs.restage (h : m.CountsInputs) {stage : StageState}
    (hkept : m.CountersKept stageId stage) : (m.restage stageId stage).CountsInputs := by
  intro other hother
  have hcount : (m.restage stageId stage).inputCounters other = m.inputCounters other := by
    rw [inputCounters_eq, inputCounters_eq]
    rfl
  rw [hcount]
  show (Function.update m.stages stageId stage other).inputCounters = _
  by_cases hsame : other = stageId
  . subst hsame
    rw [Function.update_self]
    rcases hkept.input with hold | hnew
    . rw [hold, h other hother]
    . exact hnew
  . rw [Function.update_of_ne hsame]
    exact h other hother

theorem waitingInputs_erase {key : String × String}
    (h : ∀ waiter ∈ m.waitingTaskInputs.find? key, waiter.1.stageId ≠ stageId) :
    ((m.waitingTaskInputs.erase key).values.filter (·.1.stageId = stageId)).map Prod.snd =
      m.waitingInputs stageId := by
  rw [Dict.filter_values_erase]
  . rfl
  . intro waiter hwaiter
    exact decide_eq_false (h waiter hwaiter)

theorem Effect.countsInputs (h : Effect uuid call m result m') (hm : m.Indexed uuid N)
    (hcounts : m.CountsInputs) (hwaiter : ∀ lease ∈ grantedLease? result,
      ∀ waiter ∈ m.waitingTaskInputs.find? lease.filedAs, waiter.1.stageId = lease.stageId) :
    m'.CountsInputs := by
  induction h with
  | restage stageId stage spec known kept rest ih =>
    exact ih (hm.restage stageId stage) (hcounts.restage kept) hwaiter
  | @taskWaits m request queued spec known new =>
    have hrecount := hcounts.recount (({ m with
      waitingTaskInputs := m.waitingTaskInputs.insert request.attempt (request, queued) } :
        QueryResourceManager).updateStage request.stageId fun stage =>
          { stage with runnable := !stage.completed }) request.stageId rfl
      (fun other hother => ?_) (fun other hother => ?_)
    . exact hrecount.congr rfl rfl fun _ => rfl
    . refine congrArg (List.map Prod.snd) (Dict.filter_values_insert ?_ ?_)
      . exact decide_eq_false (Ne.symm hother)
      . rw [new]
        simp
    . simp [updateStage, hother]
  | @taskGivesUp m key waiter found =>
    have hrecount := hcounts.recount { m with
      waitingTaskInputs := m.waitingTaskInputs.erase key } waiter.1.stageId rfl
      (fun other hother => waitingInputs_erase (by
        rw [found]
        rintro _ ⟨⟩
        exact Ne.symm hother)) (fun _ _ => rfl)
    exact hrecount.congr rfl rfl fun _ => rfl
  | @taskGranted m result request spec plan liveness admitted task output =>
    obtain ⟨ledger, drawn, active, queued, live, total, heq, -, -, -, hgraph, -⟩ :=
      admitted.grantedTask_eq hm liveness
    rw [heq]
    refine hcounts.recount _ _ hgraph (fun other hother => waitingInputs_erase ?_) fun _ _ => rfl
    intro waiter hfound
    rw [hwaiter _ task waiter hfound]
    exact Ne.symm hother
  | taskReleased lease terminal ledger active queued live credits =>
    exact hcounts.congr credits.graph rfl fun _ => rfl
  | taskFinished task outputs seen targetBytes leases filed live checked ledger active queued
      credits final =>
    rw [final]
    refine hcounts.congr ?_ rfl fun other => (stages_recomputeStageQueuedOutput _ _ other).2
    exact credits.graph.trans (taskLeases_foldl_addOutput _ _).2
  | @outputGranted m result request task liveness state =>
    obtain ⟨_, _, heq⟩ := m.grantedOutput_eq uuid request task liveness state
    rw [heq]
    exact hcounts.congr rfl rfl fun other => (stages_recomputeStageQueuedOutput _ _ other).2
  | outputMoved lease state ledger live found credits =>
    exact hcounts.congr credits.graph rfl fun other =>
      (stages_recomputeStageQueuedOutput _ _ other).2
  | outputReleased lease ledger live found credits =>
    exact hcounts.congr credits.graph rfl fun other =>
      (stages_recomputeStageQueuedOutput _ _ other).2
  | outputWaits request spec known same =>
    exact hcounts.congr rfl rfl fun other => (stages_recomputeStageQueuedOutput _ _ other).2
  | outputGivesUp blockId request found =>
    exact hcounts.congr rfl rfl fun other => (stages_recomputeStageQueuedOutput _ _ other).2
  | cancelled reason tasks outputs stages attempts idle =>
    intro stageId hstage
    rw [inputCounters_eq]
    exact (idle stageId hstage).1
  | _ => exact hcounts.congr rfl rfl fun _ => rfl

theorem CountsOutputs.restage (h : m.CountsOutputs) {stage : StageState}
    (hkept : m.CountersKept stageId stage) : (m.restage stageId stage).CountsOutputs := by
  intro other hother
  have hcount : (m.restage stageId stage).outputCounters other = m.outputCounters other := by
    rw [outputCounters_eq, outputCounters_eq]
    rfl
  rw [hcount]
  show (Function.update m.stages stageId stage other).outputCounters = _
  by_cases hsame : other = stageId
  . subst hsame
    rw [Function.update_self]
    rcases hkept.output with hold | hnew
    . rw [hold, h other hother]
    . exact hnew
  . rw [Function.update_of_ne hsame]
    exact h other hother

theorem waitingOutputs_erase {blockId : String}
    (h : ∀ request ∈ m.waitingOutputBlocks.find? blockId, request.producerStageId ≠ stageId) :
    ((m.waitingOutputBlocks.erase blockId).values.filter (·.producerStageId = stageId)).map
      (·.sizeBytes) = m.waitingOutputs stageId := by
  rw [Dict.filter_values_erase]
  . rfl
  . intro request hrequest
    exact decide_eq_false (h request hrequest)

theorem queued_put {l : Ledger} {lease : OutputBlockLease}
    (hlease : lease.producerStageId ≠ stageId)
    (hold : ∀ old ∈ l.outputLeases.find? lease.leaseId, old.producerStageId ≠ stageId) :
    (l.addOutput lease).outputLeases.values.filter (fun lease =>
        lease.producerStageId = stageId ∧ ¬lease.state.isHandedOff) =
      l.outputLeases.values.filter fun lease =>
        lease.producerStageId = stageId ∧ ¬lease.state.isHandedOff := by
  refine Dict.filter_values_insert ?_ ?_
  . simp [hlease]
  . intro old hfound
    simp [hold old hfound]

theorem queued_foldl_finished {l : Ledger} {task : TaskLease} {generation drawn : ℕ}
    {outputs : List OutputBlockRequest}
    (hunused : ∀ i, drawn ≤ i → l.outputLeases.find? (uuid.hex i) = none)
    (htask : task.stageId ≠ stageId) :
    ((finishedLeases uuid generation task drawn outputs).foldl
        Ledger.addOutput l).outputLeases.values.filter (fun lease =>
          lease.producerStageId = stageId ∧ ¬lease.state.isHandedOff) =
      l.outputLeases.values.filter fun lease =>
        lease.producerStageId = stageId ∧ ¬lease.state.isHandedOff := by
  induction outputs generalizing l drawn with
  | nil => rfl
  | cons request rest ih =>
    unfold finishedLeases
    rw [List.foldl_cons, ih]
    . apply queued_put htask
      rw [hunused drawn le_rfl]
      simp
    . intro i hi
      simp only [Ledger.addOutput]
      rw [Table.find?_put, if_neg, hunused i (by omega)]
      intro heq
      have := uuid.hex_injective heq
      omega

theorem Effect.countsOutputs (h : Effect uuid call m result m') (hm : m.Indexed uuid N)
    (hcounts : m.CountsOutputs) (hwaiter : ∀ o ∈ grantedOutput? result,
      ∀ request ∈ m.waitingOutputBlocks.find? o.blockId,
        request.producerStageId = o.producerStageId) :
    m'.CountsOutputs := by
  induction h with
  | restage stageId stage spec known kept rest ih =>
    exact ih (hm.restage stageId stage) (hcounts.restage kept) hwaiter
  | taskWaits request queued spec known new =>
    refine hcounts.congr rfl rfl rfl fun other =>
      (stages_recomputeStageQueuedInput _ _ other).2.trans ?_
    by_cases hsame : other = request.stageId
    . subst hsame
      simp [updateStage, StageState.outputCounters]
    . simp [updateStage, hsame]
  | taskGivesUp key waiter found =>
    exact hcounts.congr rfl rfl rfl fun other => (stages_recomputeStageQueuedInput _ _ other).2
  | taskGranted request spec plan liveness admitted task output =>
    obtain ⟨ledger, drawn, active, queued, live, total, heq, -, -, houtputs, hgraph, -⟩ :=
      admitted.grantedTask_eq hm liveness
    rw [heq]
    exact hcounts.congr hgraph rfl houtputs fun other =>
      (stages_recomputeStageQueuedInput _ _ other).2
  | taskReleased lease terminal ledger active queued live credits =>
    exact hcounts.congr credits.graph rfl credits.outputLeases fun _ => rfl
  | @taskFinished m m' task outputs seen targetBytes leases filed live checked ledger active queued
      credits final =>
    rw [final]
    refine hcounts.recount _ _ (credits.graph.trans (taskLeases_foldl_addOutput _ _).2)
      (fun _ _ => rfl) (fun other hother => ?_) fun _ _ => rfl
    subst filed
    unfold queuedOutputs
    rw [credits.outputLeases]
    exact congrArg (List.map _) (queued_foldl_finished
      (fun i hi => (hm.ledger.unused i hi).output) (Ne.symm hother))
  | @outputGranted m result request task liveness state admitted task? output =>
    obtain ⟨_, _, heq⟩ := m.grantedOutput_eq uuid request task liveness state
    rw [heq]
    refine hcounts.recount _ _ rfl (fun other hother => waitingOutputs_erase ?_)
      (fun other hother => ?_) fun _ _ => rfl
    . intro waiting hfound
      rw [hwaiter _ output waiting hfound]
      exact Ne.symm hother
    . exact congrArg (List.map _) (queued_put (Ne.symm hother) (by
        rw [show m.outputLeases.find? (m.newOutput uuid request task liveness state).leaseId = none
          from hm.ledger.fresh.unused.output]
        simp))
  | @outputMoved m lease state ledger live found credits =>
    have hrecount := hcounts.recount { m with
      toLedger := ledger
      activeLivenessOutputLeaseId := live } lease.producerStageId credits.graph
      (fun _ _ => rfl) (fun other hother => ?_) fun _ _ => rfl
    . exact hrecount.congr rfl rfl rfl fun _ => rfl
    . unfold queuedOutputs
      rw [credits.outputLeases]
      refine congrArg (List.map _) (queued_put (Ne.symm hother) ?_)
      rw [show m.outputLeases.find? _ = _ from found]
      rintro _ ⟨⟩
      exact Ne.symm hother
  | @outputReleased m lease ledger live found credits =>
    have hrecount := hcounts.recount { m with
      toLedger := ledger
      outputLeaseByBlock := m.outputLeaseByBlock.erase lease.blockId
      terminalOutputBlocks := m.terminalOutputBlocks.add lease.blockId
      activeLivenessOutputLeaseId := live } lease.producerStageId credits.graph
      (fun _ _ => rfl) (fun other hother => ?_) fun _ _ => rfl
    . exact hrecount.congr rfl rfl rfl fun _ => rfl
    . unfold queuedOutputs
      rw [credits.outputLeases]
      refine congrArg (List.map _) (Dict.filter_values_erase ?_)
      intro removed hremoved
      rw [found] at hremoved
      cases hremoved
      simp [Ne.symm hother]
  | @outputWaits m request spec known same =>
    have hrecount := hcounts.recount { m with
      waitingOutputBlocks := m.waitingOutputBlocks.insert (Text.strip request.blockId) request }
      request.producerStageId rfl (fun other hother => ?_) (fun _ _ => rfl)
      fun _ _ => rfl
    . exact hrecount.congr rfl rfl rfl fun _ => rfl
    . refine congrArg (List.map _) (Dict.filter_values_insert ?_ ?_)
      . exact decide_eq_false (Ne.symm hother)
      . intro existing hexisting
        rw [same existing hexisting]
        exact decide_eq_false (Ne.symm hother)
  | @outputGivesUp m blockId request found =>
    have hrecount := hcounts.recount { m with
      waitingOutputBlocks := m.waitingOutputBlocks.erase blockId }
      request.producerStageId rfl (fun other hother => waitingOutputs_erase (by
        rw [found]
        rintro _ ⟨⟩
        exact Ne.symm hother)) (fun _ _ => rfl) fun _ _ => rfl
    exact hrecount.congr rfl rfl rfl fun _ => rfl
  | cancelled reason tasks outputs stages attempts idle =>
    intro stageId hstage
    rw [outputCounters_eq]
    exact (idle stageId hstage).2
  | _ => exact hcounts.congr rfl rfl rfl fun _ => rfl

/-! All tables together. -/

theorem Effect.not_indexError (h : Effect uuid call m result m') {e : PyError}
    (he : result = .error e) : isIndexError e = false := by
  induction h with
  | idle drawn hdrawn quiet => exact quiet.error e he
  | restage stageId stage spec known kept rest ih => exact ih he
  | taskGranted request spec plan liveness admitted task output =>
    rw [he] at task
    cases task
  | outputGranted request task liveness state admitted task? output =>
    rw [he] at output
    cases output
  | _ => cases he

/-- The secondary tables say what the leases, the credits and the waiters say, and no call finds them
inconsistent. -/
structure LeaseIndices (uuid : UuidSource) (m : QueryResourceManager) : Prop where
  attempts : IsIndex m.activeAttemptLeases m.taskLeases TaskLease.filedAs
  slots : m.SlotsIndexed
  parents : m.toLedger.ParentIndexed
  borrowers : ∀ taskLeaseId creditId,
    m.continuationCreditByBorrower.find? taskLeaseId = some creditId ↔
      ∃ credit, m.continuationCredits.find? creditId = some credit ∧
        credit.borrowedByTaskLeaseId = some taskLeaseId
  blocks : IsIndex m.outputLeaseByBlock m.outputLeases (·.blockId)
  inputs : m.CountsInputs
  outputs : m.CountsOutputs
  consistent : ∀ (call : Call) (e : PyError), (call.exec uuid m).1 = .error e →
    isIndexError e = false

/-- The call files nothing over a live lease, and what waits under the identifier of a lease that it
grants waits for the stage of the lease. -/
structure Untangled (uuid : UuidSource) (call : Call) (m : QueryResourceManager) : Prop where
  attempt : ∀ lease ∈ grantedLease? (call.exec uuid m).1,
    m.activeAttemptLeases.find? lease.filedAs = none
  task : ∀ lease ∈ grantedLease? (call.exec uuid m).1,
    ∀ waiter ∈ m.waitingTaskInputs.find? lease.filedAs, waiter.1.stageId = lease.stageId
  block : ∀ o ∈ leasedOutputs (call.exec uuid m).1, m.outputLeaseByBlock.find? o.blockId = none
  output : ∀ o ∈ grantedOutput? (call.exec uuid m).1,
    ∀ request ∈ m.waitingOutputBlocks.find? o.blockId, request.producerStageId = o.producerStageId

instance (uuid : UuidSource) (call : Call) (m : QueryResourceManager) :
    Decidable (Untangled uuid call m) :=
  decidable_of_iff (_ ∧ _ ∧ _ ∧ _)
    ⟨fun h => ⟨h.1, h.2.1, h.2.2.1, h.2.2.2⟩, fun h => ⟨h.attempt, h.task, h.block, h.output⟩⟩

structure FiledIndices (uuid : UuidSource) (m : QueryResourceManager) : Prop where
  indexed : m.Indexed uuid Set.univ
  attempts : IsIndex m.activeAttemptLeases m.taskLeases TaskLease.filedAs
  blocks : IsIndex m.outputLeaseByBlock m.outputLeases (·.blockId)
  inputs : m.CountsInputs
  outputs : m.CountsOutputs

theorem FiledIndices.leaseIndices (h : FiledIndices uuid m) : LeaseIndices uuid m where
  __ := h
  slots := h.indexed.slots
  parents := h.indexed.ledger.parents
  borrowers := h.indexed.ledger.consistent.borrower
  consistent call _ he := (h.indexed.exec_acts call fun _ _ => trivial).effect.not_indexError he

theorem FiledIndices.step (h : FiledIndices uuid m) (hcall : Untangled uuid call m) :
    FiledIndices uuid (call.step uuid m) := by
  have hacts := h.indexed.exec_acts call fun _ _ => trivial
  exact ⟨hacts.indexed,
    (hacts.effect.tasksMove h.indexed).attemptIndex h.attempts hcall.attempt,
    (hacts.effect.outputsMove h.indexed).blockIndex h.indexed h.blocks hcall.block,
    hacts.effect.countsInputs h.indexed h.inputs hcall.task,
    hacts.effect.countsOutputs h.indexed h.outputs hcall.output⟩

theorem new_filedIndices {graph : QueryExecutionGraph} {allocation : QueryAllocation} {ratio : ℚ}
    (hnew : QueryResourceManager.new graph allocation ratio = .ok m) : FiledIndices uuid m := by
  have hm : m.Indexed uuid Set.univ := new_indexed hnew fun _ _ => trivial
  rw [eq_of_new hnew] at hm ⊢
  constructor
  . exact hm
  . exact Table.isIndex_empty
  . exact Table.isIndex_empty
  . intro stageId _
    rw [inputCounters_eq]
    rfl
  . intro stageId _
    rw [outputCounters_eq]
    rfl

end QueryResourceManager

end Vane
