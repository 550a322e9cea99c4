import Vane.Ray.QueryResourceManager.Calls

/-!
This module contains the proof that the calls of a manager have no other effects than `Effect`.
-/

namespace Vane

open Except (bind_eq_ok_iff ok_of_bind raiseIf_eq_ok_iff raises_bind)
open Py (ensures_bind ensures_get ensures_get_bind ensures_lift_bind ensures_modify ensures_pure)
open QueryResourceManager (new restage)
open Ledger (addOutput)

namespace QueryResourceManager

open Py (ensures_lift ensures_read ensures_raiseIf)

variable {uuid : UuidSource} {N : Set String} {m : QueryResourceManager} {call : Call}

structure Acts (uuid : UuidSource) (N : Set String) (call : Call) (m : QueryResourceManager)
    (result : Except PyError Answer) (m' : QueryResourceManager) : Prop where
  effect : Effect uuid call m result m'
  indexed : m'.Indexed uuid N
  attempts : m'.terminalAttempts =
    (call.terminalAttempts m result).foldl BoundedSet.add m.terminalAttempts
  blocks : m'.terminalOutputBlocks =
    (call.terminalBlocks m result).foldl BoundedSet.add m.terminalOutputBlocks

def Performs (uuid : UuidSource) (N : Set String) (call : Call) (m : QueryResourceManager) : Prop :=
  (call.exec uuid).Ensures m (fun answer m' => Acts uuid N call m (.ok answer) m')
    (fun e m' => Acts uuid N call m (.error e) m')

/-- An acquisition that raises no error but `P`. -/
def Acquires (uuid : UuidSource) (N : Set String) (P : PyError → Prop) (call : Call)
    (m : QueryResourceManager) : Prop :=
  (call.exec uuid).Ensures m (fun answer m' => Acts uuid N call m (.ok answer) m')
    (fun e m' => P e ∧ (isIndexError e = false → Acts uuid N call m (.error e) m'))

theorem Acquires.performs (h : Acquires uuid N (isIndexError · = false) call m) :
    Performs uuid N call m :=
  h.mono (fun _ _ hacts => hacts) fun _ _ hacts => hacts.2 hacts.1

theorem Acquires.answers (h : Acquires uuid N (fun _ => False) call m) :
    ∃ answer, (call.exec uuid m).1 = .ok answer := by
  unfold Acquires Py.Ensures at h
  split at h
  . next hok => exact ⟨_, congrArg Prod.fst hok⟩
  . exact absurd h.1 not_false

theorem Acts.idle (hm : m.Indexed uuid N) {result : Except PyError Answer} (quiet : Quiet result)
    (hattempts : call.terminalAttempts m result = []) (hblocks : call.terminalBlocks m result = []) :
    Acts uuid N call m result m where
  effect := .idle m.uuidsDrawn le_rfl quiet
  indexed := hm
  attempts := by rw [hattempts]; rfl
  blocks := by rw [hblocks]; rfl

theorem Acts.raised (hm : m.Indexed uuid N) {e : PyError} (h : isIndexError e = false)
    (hattempts : call.terminalAttempts m (.error e) = [])
    (hblocks : call.terminalBlocks m (.error e) = []) : Acts uuid N call m (.error e) m :=
  .idle hm ⟨rfl, rfl, fun _ he => Except.error.inj he ▸ h⟩ hattempts hblocks

theorem raised_of {P : PyError → Prop} (hm : m.Indexed uuid N) {e : PyError} (h : P e)
    (hattempts : call.terminalAttempts m (.error e) = [])
    (hblocks : call.terminalBlocks m (.error e) = []) :
    P e ∧ (isIndexError e = false → Acts uuid N call m (.error e) m) :=
  ⟨h, fun htame => .raised hm htame hattempts hblocks⟩

theorem quiet_ok {answer : Answer} (htask : grantedLease? (.ok answer) = none)
    (houtput : leasedOutputs (.ok answer) = []) : Quiet (.ok answer) := ⟨htask, houtput, nofun⟩

section

variable (hm : m.Indexed uuid N)

include hm

theorem Acts.denied {answer : Answer}
    (htask : grantedLease? (.ok answer) = none) (houtput : leasedOutputs (.ok answer) = [])
    (hattempts : call.terminalAttempts m (.ok answer) = [])
    (hblocks : call.terminalBlocks m (.ok answer) = []) : Acts uuid N call m (.ok answer) m :=
  .idle hm (quiet_ok htask houtput) hattempts hblocks

theorem Indexed.congr {m' : QueryResourceManager}
    (hledger : m'.toLedger = m.toLedger) (hdrawn : m'.uuidsDrawn = m.uuidsDrawn)
    (hactive : m'.activeActorSlots = m.activeActorSlots)
    (hqueued : m'.queuedActorSlotLeases = m.queuedActorSlotLeases)
    (hwaiting : ∀ key waiter, m'.waitingTaskInputs.find? key = some waiter →
      m.waitingTaskInputs.find? key = some waiter ∨ key = waiter.1.attempt) :
    m'.Indexed uuid N where
  ledger := by rw [hledger, hdrawn]; exact hm.ledger
  slots := hm.slots.congr (by rw [hledger]) (by rw [hledger]) hactive hqueued
  waiting := by
    intro key waiter hfind
    rcases hwaiting key waiter hfind with h | h
    . exact hm.waiting key waiter h
    . exact h

theorem Indexed.restage (stageId : String) (stage : StageState) :
    (m.restage stageId stage).Indexed uuid N :=
  hm.congr rfl rfl rfl rfl fun _ _ => .inl

theorem Acts.restage {stageId : String} {stage : StageState}
    {spec : StageResourceSpec} (hspec : m.graph.stage? stageId = some spec)
    (hkept : m.CountersKept stageId stage) (hattempts : call.terminalAttempts m (.ok .done) = [])
    (hblocks : call.terminalBlocks m (.ok .done) = []) :
    Acts uuid N call m (.ok .done) (m.restage stageId stage) where
  effect := .restage stageId stage spec hspec hkept (.idle m.uuidsDrawn le_rfl (quiet_ok rfl rfl))
  indexed := hm.restage stageId stage
  attempts := by rw [hattempts]; rfl
  blocks := by rw [hblocks]; rfl

end

theorem ensures_requireStage {stageId : String} {Q : StageResourceSpec → QueryResourceManager → Prop}
    {E : PyError → QueryResourceManager → Prop} :
    (requireStage stageId).Ensures m Q E ↔
      (∀ spec, m.graph.stage? stageId = some spec → Q spec m) ∧
        (m.graph.stage? stageId = none →
          E (.keyError s!"stage is not registered: {stageId}") m) := by
  unfold requireStage
  rw [ensures_read]
  cases m.graph.stage? stageId with
  | none => simp
  | some spec => simp

/-! The calls that keep books. -/

section Books

variable (hm : m.Indexed uuid N)
include hm

theorem performs_updateStageState (stageId : String) (runnable : Bool) (actorReady : Option Bool)
    (completed : Bool) :
    Performs uuid N (.updateStageState stageId runnable actorReady completed) m := by
  unfold Performs Call.exec updateStageState
  simp only [ensures_bind, ensures_requireStage, ensures_get, ensures_pure]
  refine ⟨?_, fun _ => .raised hm rfl rfl rfl⟩
  intro spec hspec
  generalize hupdated : updateStage _ stageId _ = updated
  have hstages : updated =
      { m with stages := Function.update m.stages stageId (updated.stages stageId) } := by
    subst hupdated
    simp [updateStage, recomputeStageQueuedInput, recomputeStageQueuedOutput, Function.update_idem]
  have hkept : m.CountersKept stageId (updated.stages stageId) := by
    subst hupdated
    constructor
    . right
      simp [updateStage, recomputeStageQueuedInput, recomputeStageQueuedOutput, inputCounters,
        StageState.inputCounters]
    . right
      simp [updateStage, recomputeStageQueuedInput, recomputeStageQueuedOutput, outputCounters,
        StageState.outputCounters]
  split
  . rw [Py.ensures_set, hstages]
    exact .restage hm hspec hkept rfl rfl
  . next hsame =>
    rw [Py.ensures_set, hstages, not_not.mp hsame, Function.update_eq_self]
    exact .denied hm rfl rfl rfl rfl

theorem performs_setStageActorReady (stageId : String) (ready : Bool) :
    Performs uuid N (.setStageActorReady stageId ready) m := by
  unfold Performs Call.exec setStageActorReady
  simp only [ensures_bind, ensures_requireStage, ensures_raiseIf, ensures_get, ensures_pure]
  refine ⟨?_, fun _ => .raised hm rfl rfl rfl⟩
  intro spec hspec
  refine ⟨fun _ => .raised hm rfl rfl rfl, fun _ => ?_⟩
  split
  . simp only [ensures_bind, ensures_modify]
    exact .restage hm hspec ⟨.inl rfl, .inl rfl⟩ rfl rfl
  . exact .denied hm rfl rfl rfl rfl

theorem performs_noteTaskWaiting (request : TaskRequest) :
    Performs uuid N (.noteTaskWaiting request) m := by
  unfold Performs Call.exec noteTaskWaiting
  simp only [ensures_bind, ensures_requireStage, ensures_raiseIf, ensures_get, ensures_pure]
  refine ⟨fun _ => .raised hm rfl rfl rfl, fun _ => ⟨?_, fun _ => .raised hm rfl rfl rfl⟩⟩
  intro spec hspec
  refine ⟨fun _ => .raised hm rfl rfl rfl, fun _ => ?_⟩
  refine ⟨fun _ => .raised hm rfl rfl rfl, fun _ => ?_⟩
  split
  . next existing hexisting =>
    rw [ensures_raiseIf]
    exact ⟨fun _ => .raised hm rfl rfl rfl, fun _ => .denied hm rfl rfl rfl rfl⟩
  . next hnew =>
    simp only [ensures_bind, ensures_modify]
    refine ⟨.taskWaits request _ spec hspec hnew, hm.congr rfl rfl rfl rfl ?_, rfl, rfl⟩
    intro key waiter hfind
    have hfind : (m.waitingTaskInputs.insert _ _).find? key = some waiter := hfind
    rw [Dict.find?_insert] at hfind
    split at hfind
    . next hkey =>
      cases hfind
      exact .inr hkey
    . exact .inl hfind

theorem performs_removeTaskWaiter (taskId attemptId : String) :
    Performs uuid N (.removeTaskWaiter taskId attemptId) m := by
  unfold Performs Call.exec removeTaskWaiter
  simp only [ensures_bind, ensures_get]
  split
  . exact .denied hm rfl rfl rfl rfl
  . next request queued hfound =>
    simp only [ensures_bind, ensures_modify, ensures_pure]
    refine ⟨.taskGivesUp (taskId, attemptId) (request, queued) hfound,
      hm.congr rfl rfl rfl rfl ?_, rfl, rfl⟩
    intro key waiter hfind
    have hfind : (m.waitingTaskInputs.erase _).find? key = some waiter := hfind
    rw [Dict.find?_erase] at hfind
    split at hfind
    . cases hfind
    . exact .inl hfind

theorem performs_markTaskAttemptTerminal (taskId attemptId : String) :
    Performs uuid N (.markTaskAttemptTerminal taskId attemptId) m := by
  unfold Performs Call.exec markTaskAttemptTerminal
  simp only [ensures_bind, ensures_get, ensures_raiseIf, ensures_modify, ensures_pure]
  refine ⟨fun _ => .raised hm (by decide) rfl rfl, fun hfree => ?_⟩
  simp only [not_or, Bool.not_eq_true] at hfree
  exact ⟨.attemptTerminal (taskId, attemptId) hfree.1 hfree.2,
    hm.congr rfl rfl rfl rfl fun _ _ => .inl, rfl, rfl⟩

theorem performs_noteOutputWaiting (request : OutputBlockRequest) :
    Performs uuid N (.noteOutputWaiting request) m := by
  unfold Performs Call.exec noteOutputWaiting
  simp only [ensures_bind, ensures_requireStage, ensures_raiseIf, ensures_get,
    ensures_modify, ensures_pure]
  refine ⟨fun _ => .raised hm rfl rfl rfl, fun _ => ⟨?_, fun _ => .raised hm rfl rfl rfl⟩⟩
  intro spec hspec
  refine ⟨fun _ => .raised hm rfl rfl rfl, fun _ => ?_⟩
  refine ⟨fun _ => .raised hm rfl rfl rfl, fun hsame => ?_⟩
  refine ⟨.outputWaits request spec hspec ?_, hm.congr rfl rfl rfl rfl fun _ _ => .inl, rfl, rfl⟩
  intro existing hexisting
  by_contra hne
  exact hsame ⟨existing, hexisting, hne⟩

theorem performs_removeOutputWaiter (blockId : String) :
    Performs uuid N (.removeOutputWaiter blockId) m := by
  unfold Performs Call.exec removeOutputWaiter
  simp only [ensures_bind, ensures_get]
  split
  . exact .denied hm rfl rfl rfl rfl
  . next request hfound =>
    simp only [ensures_bind, ensures_modify, ensures_pure]
    exact ⟨.outputGivesUp blockId request hfound, hm.congr rfl rfl rfl rfl fun _ _ => .inl,
      rfl, rfl⟩

theorem performs_markOutputBlockTerminal (blockId : String) :
    Performs uuid N (.markOutputBlockTerminal blockId) m := by
  unfold Performs Call.exec markOutputBlockTerminal
  simp only [ensures_bind, ensures_get, ensures_raiseIf, ensures_modify, ensures_pure]
  refine ⟨fun _ => .raised hm (by decide) rfl rfl, fun hfree => ?_⟩
  simp only [not_or, Bool.not_eq_true] at hfree
  exact ⟨.blockTerminal blockId hfree.1 hfree.2, hm.congr rfl rfl rfl rfl fun _ _ => .inl,
    rfl, rfl⟩

theorem performs_setExternalConsumerWaiting (waiting : Bool) :
    Performs uuid N (.setExternalConsumerWaiting waiting) m := by
  unfold Performs Call.exec setExternalConsumerWaiting
  simp only [ensures_bind, ensures_get, ensures_pure]
  split
  . simp only [ensures_bind, ensures_modify]
    exact ⟨.external waiting, hm.congr rfl rfl rfl rfl fun _ _ => .inl, rfl, rfl⟩
  . exact .denied hm rfl rfl rfl rfl

theorem performs_closeAdmission : Performs uuid N .closeAdmission m := by
  unfold Performs Call.exec closeAdmission
  simp only [ensures_bind, ensures_get, ensures_pure]
  split
  . simp only [ensures_bind, ensures_modify]
    exact ⟨.close, hm.congr rfl rfl rfl rfl fun _ _ => .inl, rfl, rfl⟩
  . exact .denied hm rfl rfl rfl rfl

theorem performs_updateAllocation (allocation : QueryAllocation) (admissionOpen : Bool)
    (hnodes : ∀ n ∈ (Call.step uuid (.updateAllocation allocation admissionOpen) m).allocation.nodeIds,
      n ∈ N) :
    Performs uuid N (.updateAllocation allocation admissionOpen) m := by
  unfold Performs Call.exec updateAllocation
  simp only [ensures_bind, ensures_get, ensures_raiseIf, ensures_modify, ensures_pure]
  refine ⟨fun _ => .raised hm rfl rfl rfl, fun hnewer => ?_⟩
  rw [ensures_lift]
  constructor
  . intro _ hvalid
    have hstep : (Call.step uuid (.updateAllocation allocation admissionOpen) m).allocation =
        allocation := by
      simp [Call.step, Call.exec, updateAllocation, Py.bind_apply, Except.raiseIf_of_not hnewer,
        hvalid, publishChange]
    rw [hstep] at hnodes
    refine ⟨.allocation allocation admissionOpen rfl (by omega) hvalid, ?_, rfl, rfl⟩
    exact {
      ledger := hm.ledger.setAllocation
        (fun p hp => QueryExecutionGraph.stage?_of_validateAllocation hvalid hp) hnodes
      slots := hm.slots.congr rfl rfl rfl rfl
      waiting := hm.waiting }
  . intro e herror
    exact .raised hm (validateAllocation_tame _ _ _ _ herror) rfl rfl

end Books

/-! Task acquisition. -/

section Tasks

variable {evaluations : List QueuedTaskEvaluation} {S : TaskRequest → Prop} {P : PyError → Prop}
  {request : TaskRequest} {liveness : Bool} {e : QueuedTaskEvaluation}

theorem Acts.granted (hm : m.Indexed uuid N) {spec : StageResourceSpec}
    {plan : TaskAdmissionPlan} {answer : Answer} (h : m.Admitted request spec plan)
    (htask : grantedLease? (.ok answer) = some (m.newLease uuid request spec plan liveness))
    (houtput : grantedOutput? (.ok answer) = none)
    (hattempts : call.terminalAttempts m (.ok answer) = [])
    (hblocks : call.terminalBlocks m (.ok answer) = [])
    (hsingle : liveness = true → m.activeLivenessTaskLeaseId = none) :
    Acts uuid N call m (.ok answer) (m.grantedTask uuid request spec plan liveness) where
  effect := .taskGranted request spec plan liveness h htask houtput hsingle
  indexed := hm.grantedTask h liveness
  attempts := by
    obtain ⟨_, _, _, _, _, _, heq, -⟩ := h.grantedTask_eq hm liveness
    rw [heq, hattempts]
    rfl
  blocks := by
    obtain ⟨_, _, _, _, _, _, heq, -⟩ := h.grantedTask_eq hm liveness
    rw [heq, hblocks]
    rfl

theorem ensures_grantTask (hl : m.toLedger.Consistent)
    {admission : TaskAdmission} {Q : TaskGrant → QueryResourceManager → Prop}
    {E : PyError → QueryResourceManager → Prop}
    (hadmission : m.normalTaskBlockReason request = .ok admission)
    (hreason : admission.reason = none ∨ admission.reason.any (·.isSoftTask) = true)
    (hgranted : ∀ spec, m.Admitted request spec admission.plan →
      Q { granted := true
          lease := some (m.newLease uuid request spec admission.plan liveness)
          liveness }
        (m.grantedTask uuid request spec admission.plan liveness)) :
    (grantTask uuid request admission.plan liveness).Ensures m Q E := by
  obtain ⟨spec, hadmitted⟩ := normalTaskBlockReason_admitted hl hadmission hreason
  unfold Py.Ensures
  rw [hadmitted.grantTask_eq liveness]
  exact hgranted spec hadmitted

theorem active_of_livenessClosed (h : m.livenessClosed = none) : m.activeLivenessTaskLeaseId = none := by
  by_contra hactive
  unfold livenessClosed at h
  rw [if_pos hactive] at h
  cases h

theorem active_of_queuedLiveness (h : m.queuedLivenessBlockReason evaluations = none) :
    m.activeLivenessTaskLeaseId = none := by
  unfold queuedLivenessBlockReason at h
  split at h
  . cases h
  . next hclosed => exact active_of_livenessClosed hclosed

variable (hm : m.Indexed uuid N)
include hm

theorem ensures_taskGranted {admission : TaskAdmission}
    {wrap : TaskGrant → Answer} {E : PyError → QueryResourceManager → Prop}
    (hadmission : m.normalTaskBlockReason request = .ok admission)
    (hreason : admission.reason = none ∨ admission.reason.any (·.isSoftTask) = true)
    (htask : ∀ grant, grantedLease? (.ok (wrap grant)) = grant.lease)
    (houtput : ∀ grant, grantedOutput? (.ok (wrap grant)) = none)
    (hattempts : ∀ result, call.terminalAttempts m result = [])
    (hblocks : ∀ result, call.terminalBlocks m result = [])
    (hsingle : liveness = true → m.activeLivenessTaskLeaseId = none) :
    (grantTask uuid request admission.plan liveness).Ensures m
      (fun grant m' => Acts uuid N call m (.ok (wrap grant)) m') E := by
  apply ensures_grantTask hm.ledger.consistent hadmission hreason
  intro spec hadmitted
  exact .granted hm hadmitted (htask _) (houtput _) (hattempts _) (hblocks _) hsingle

theorem acquires_tryAcquireTask (hj : m.JudgesTasks S P) (hS : S request) :
    Acquires uuid N P (.tryAcquireTask request) m := by
  unfold Acquires Call.exec tryAcquireTask
  simp only [ensures_bind, ensures_read, ensures_pure]
  refine ⟨?_, fun e he => raised_of hm (hj.judged _ _ hS _ he) rfl rfl⟩
  intro admission hadmission
  split
  . next hreason =>
    exact ensures_taskGranted hm hadmission (.inl hreason) (fun _ => rfl) (fun _ => rfl)
      (fun _ => rfl) (fun _ => rfl) (by simp)
  . next reason hreason =>
    split
    . exact .denied hm rfl rfl rfl rfl
    . next hsoft =>
      have hsoft : admission.reason.any (·.isSoftTask) = true := by
        rw [hreason]
        simpa using (not_or.mp hsoft).2
      simp only [ensures_bind, ensures_read]
      refine ⟨?_, fun e he => raised_of hm (taskLivenessBlockReason_tame hj _ _ he) rfl rfl⟩
      intro reason hreason
      split
      . exact .denied hm rfl rfl rfl rfl
      . have hclosed : m.livenessClosed = none := by
          unfold taskLivenessBlockReason at hreason
          split at hreason
          . cases hreason
          . assumption
        exact ensures_taskGranted hm hadmission (.inr hsoft) (fun _ => rfl) (fun _ => rfl)
          (fun _ => rfl) (fun _ => rfl) fun _ => active_of_livenessClosed hclosed

omit hm in
theorem wakeStage_cases (request : TaskRequest) :
    m.wakeStage request = m ∨ ∃ spec stage, m.graph.stage? request.stageId = some spec ∧
      m.CountersKept request.stageId stage ∧
        m.wakeStage request = m.restage request.stageId stage := by
  unfold wakeStage
  dsimp only
  split
  . next h =>
    obtain ⟨spec, hspec⟩ := Option.isSome_iff_exists.mp h.2.1
    refine .inr ⟨spec, ((m.updateStage request.stageId fun stage =>
        { stage with runnable := true }).recomputeStageQueuedInput request.stageId).stages
          request.stageId, hspec, ⟨.inr ?_, .inl ?_⟩, ?_⟩
    . simp [recomputeStageQueuedInput, updateStage, inputCounters, StageState.inputCounters]
    . simp [recomputeStageQueuedInput, updateStage, StageState.outputCounters]
    . simp [updateStage, recomputeStageQueuedInput, publishChange, restage]
  . exact .inl rfl

omit hm in
theorem wakeStage_kept (request : TaskRequest) : (m.wakeStage request).graph = m.graph ∧
    (m.wakeStage request).waitingTaskInputs = m.waitingTaskInputs := by
  rcases wakeStage_cases request with heq | ⟨spec, stage, -, -, heq⟩
  . rw [heq]
    exact ⟨rfl, rfl⟩
  . rw [heq]
    exact ⟨rfl, rfl⟩

theorem Indexed.wakeStage (request : TaskRequest) : (m.wakeStage request).Indexed uuid N := by
  rcases wakeStage_cases request with heq | ⟨spec, stage, -, -, heq⟩
  . rw [heq]
    exact hm
  . rw [heq]
    exact hm.restage _ _

theorem Acts.wake (request : TaskRequest) {result : Except PyError Answer}
    {m' : QueryResourceManager} (h : (m.wakeStage request).Indexed uuid N →
      Acts uuid N (.tryAcquireTaskDescriptor request) (m.wakeStage request) result m') :
    Acts uuid N (.tryAcquireTaskDescriptor request) m result m' := by
  rcases wakeStage_cases request with heq | ⟨spec, stage, hspec, hkept, heq⟩
  . rw [heq] at h
    exact h hm
  . rw [heq] at h
    obtain ⟨heffect, hindexed, hattempts, hblocks⟩ := h (hm.restage _ _)
    exact ⟨.restage _ stage spec hspec hkept heffect, hindexed, hattempts, hblocks⟩

omit hm in
theorem mem_evaluateWaitingTasks (h : m.evaluateWaitingTasks = .ok evaluations)
    (he : e ∈ evaluations) :
    (∃ waiter ∈ m.waitingTaskInputs.values, waiter.1 = e.request) ∧
      m.normalTaskBlockReason e.request = .ok e.admission := by
  obtain ⟨⟨⟨request, queued⟩, order⟩, hmem, heval⟩ := Except.mem_of_mapM_eq_ok h he
  obtain ⟨admission, hadmission, heval⟩ := ok_of_bind heval
  obtain ⟨rank, -, heval⟩ := ok_of_bind heval
  cases heval
  exact ⟨⟨(request, queued), List.mem_of_getElem? (List.mem_zipIdx_iff_getElem?.mp hmem), rfl⟩,
    hadmission⟩

theorem acquires_tryAcquireTaskDescriptor
    (hj : (m.wakeStage request).JudgesTasks S P) (hS : S request)
    (hranked : request.stageId ∈ m.graph.stageIds ∨ P (.keyError request.stageId)) :
    Acquires uuid N P (.tryAcquireTaskDescriptor request) m := by
  unfold Acquires Call.exec tryAcquireTaskDescriptor withEpoch
  simp only [ensures_bind, ensures_modify, ensures_get, ensures_pure]
  have hwoken := hm.wakeStage request
  have hdenied : ∀ {grant : TaskGrant}, grant.lease = none →
      Acts uuid N (.tryAcquireTaskDescriptor request) m (.ok (.task grant))
        (m.wakeStage request) := by
    intro grant hgrant
    exact .wake hm request fun hwoken => .denied hwoken hgrant rfl rfl rfl
  have hraised : ∀ {e : PyError}, P e → P e ∧ (isIndexError e = false →
      Acts uuid N (.tryAcquireTaskDescriptor request) m (.error e) (m.wakeStage request)) :=
    fun he => ⟨he, fun htame => .wake hm request fun hwoken => .raised hwoken htame rfl rfl⟩
  rw [← (wakeStage_kept request).1] at hranked
  generalize hw : m.wakeStage request = w at hwoken hdenied hraised hj hranked ⊢
  have hl := hwoken.ledger.consistent
  split
  . exact hdenied rfl
  . simp only [ensures_bind]
    rw [ensures_lift]
    refine ⟨?_, fun e he => hraised (hj.judged _ _ hS _ he)⟩
    intro admission hadmission
    have hgrant : ∀ {E} liveness,
        admission.reason = none ∨ admission.reason.any (·.isSoftTask) = true →
        (liveness = true → w.activeLivenessTaskLeaseId = none) →
        (grantTask uuid request admission.plan liveness).Ensures w
          (fun grant m' => Acts uuid N (.tryAcquireTaskDescriptor request) m
            (.ok (.task { grant with admissionEpoch := m'.admissionEpoch })) m') E := by
      intro E liveness hreason hsingle
      apply ensures_grantTask hl hadmission hreason
      intro spec hadmitted
      apply Acts.wake hm request
      rw [hw]
      exact fun _ => .granted hwoken hadmitted rfl rfl rfl rfl hsingle
    split
    . exact hdenied rfl
    . simp only [ensures_bind]
      rw [ensures_lift]
      refine ⟨?_, fun e he => hraised (waitingTaskRank_tame hranked _ _ he)⟩
      intro rank _
      rw [ensures_lift]
      refine ⟨?_, fun e he => hraised (evaluateWaitingTasks_tame hj _ he)⟩
      intro waiting hwaiting
      rw [ensures_lift]
      refine ⟨?_, fun e he => hraised (selectWaitingTaskEvaluation_tame hl ?_ _ he)⟩
      rotate_left
      . intro e he
        rcases List.mem_append.mp he with he | he
        . exact (mem_evaluateWaitingTasks hwaiting he).2
        . cases List.mem_singleton.mp he
          exact hadmission
      intro preferred _
      split
      . exact hdenied rfl
      . split
        . exact hdenied rfl
        . split
          . next hreason =>
            rw [ensures_bind]
            exact hgrant false (.inl hreason) (by simp)
          . next reason hreason =>
            split
            . exact hdenied rfl
            . next hsoft =>
              split
              . exact hdenied rfl
              . next hclosed =>
                rw [ensures_bind]
                refine hgrant true (.inr ?_) fun _ => active_of_queuedLiveness hclosed
                rw [hreason]
                simpa using hsoft

omit hm in
theorem exists_evaluation (hevaluations : m.evaluateWaitingTasks = .ok evaluations)
    {waiter : TaskRequest × ℕ} (hwaiter : waiter ∈ m.waitingTaskInputs.values) :
    ∃ e ∈ evaluations, e.request = waiter.1 := by
  obtain ⟨order, hlt, horder⟩ := List.getElem_of_mem hwaiter
  have hmem : (waiter, order) ∈ m.waitingTaskInputs.values.zipIdx := by
    rw [List.mem_zipIdx_iff_getElem?, List.getElem?_eq_getElem hlt, horder]
  obtain ⟨e, he, heval⟩ := Except.exists_mem_of_mapM_eq_ok hevaluations hmem
  obtain ⟨admission, -, heval⟩ := ok_of_bind heval
  obtain ⟨rank, -, heval⟩ := ok_of_bind heval
  cases heval
  exact ⟨_, he, rfl⟩

omit hm in
theorem attempt_eq_of_key_eq {e' : QueuedTaskEvaluation} (h : e'.key = e.key) :
    e'.request.attempt = e.request.attempt := by
  unfold TaskRequest.attempt
  rw [(Prod.mk.inj h).1, (Prod.mk.inj h).2]

theorem Indexed.find?_attempt
    (hevaluations : m.evaluateWaitingTasks = .ok evaluations) (he : e ∈ evaluations) :
    ∃ queued, m.waitingTaskInputs.find? e.request.attempt = some (e.request, queued) := by
  obtain ⟨⟨⟨request, queued⟩, hwaiter, rfl⟩, -⟩ := mem_evaluateWaitingTasks hevaluations he
  obtain ⟨key, hkey⟩ := Dict.mem_values_iff.mp hwaiter
  have hfiled := hm.waiting key _ hkey
  rw [hfiled] at hkey
  exact ⟨queued, hkey⟩

omit hm in
theorem mem_of_selectWaitingTaskEvaluation {selected : QueuedTaskEvaluation}
    (h : m.selectWaitingTaskEvaluation evaluations = .ok (some selected)) :
    selected ∈ evaluations ∧ (selected.admission.reason = none ∨
      selected.admission.reason.any (·.isSoftTask) = true) := by
  unfold selectWaitingTaskEvaluation at h
  split at h
  . next normal hnormal =>
    cases h
    obtain ⟨hmem, hnormal⟩ := List.mem_filter.mp (List.minBy?_mem hnormal)
    simp only [QueuedTaskEvaluation.isNormal, decide_eq_true_eq] at hnormal
    exact ⟨hmem, .inl hnormal.2⟩
  . dsimp only at h
    split at h
    . cases h
    . split at h
      . cases h
      . simp only [Except.ok.injEq] at h
        obtain ⟨hmem, hsoft⟩ := List.mem_filter.mp (List.mem_of_mem_filter (List.minBy?_mem h))
        simp only [QueuedTaskEvaluation.isSoft, decide_eq_true_eq] at hsoft
        exact ⟨hmem, .inr hsoft.2⟩

theorem acquires_tryAcquireQueuedTask (hj : m.JudgesTasks S P) (request : TaskRequest) :
    Acquires uuid N P (.tryAcquireQueuedTask request) m := by
  have hl := hm.ledger.consistent
  unfold Acquires Call.exec tryAcquireQueuedTask
  simp only [ensures_bind, ensures_get, ensures_pure]
  split
  . exact .denied hm rfl rfl rfl rfl
  . next waiting queued hwaiting =>
    split
    . exact .denied hm rfl rfl rfl rfl
    . next hsame =>
      rw [not_not] at hsame
      subst hsame
      rw [ensures_lift_bind]
      refine ⟨?_, fun e he => raised_of hm (evaluateWaitingTasks_tame hj _ he) rfl rfl⟩
      intro evaluations hevaluations
      have hadmissions : ∀ e ∈ evaluations, m.normalTaskBlockReason e.request = .ok e.admission :=
        fun _ he => (mem_evaluateWaitingTasks hevaluations he).2
      -- Waiters are filed under their stripped identity, so the evaluation is that of the request.
      have hrequest : ∀ e ∈ evaluations, e.key = (waiting.taskId, waiting.attemptId) →
          e.request = waiting := by
        intro e he hraw
        obtain ⟨_, hfiled⟩ := hm.find?_attempt hevaluations he
        have hattempt : e.request.attempt = waiting.attempt :=
          attempt_eq_of_key_eq (e := ⟨e.rank, waiting, e.admission⟩) hraw
        rw [hattempt, ← hm.waiting _ _ hwaiting, hwaiting] at hfiled
        cases hfiled
        rfl
      split
      . next hnone =>
        obtain ⟨e, he, hsame⟩ := exists_evaluation hevaluations (Dict.mem_values_iff.mpr ⟨_, hwaiting⟩)
        have hkey := List.find?_eq_none.mp hnone e he
        simp [QueuedTaskEvaluation.key, hsame] at hkey
      . next current hcurrent =>
        have hmem := List.mem_of_find?_eq_some hcurrent
        have hraw : current.key = (waiting.taskId, waiting.attemptId) := by
          simpa using List.find?_some hcurrent
        have hadmission := hadmissions current hmem
        rw [hrequest current hmem hraw] at hadmission
        split
        . exact .denied hm rfl rfl rfl rfl
        . rw [ensures_lift_bind]
          refine ⟨?_, fun e he => raised_of hm (selectWaitingTaskEvaluation_tame hl hadmissions _ he) rfl rfl⟩
          intro preferred hpreferred
          split
          . exact .denied hm rfl rfl rfl rfl
          . next preferred =>
            split
            . exact .denied hm rfl rfl rfl rfl
            . next hkey =>
              obtain ⟨hmem', hreason⟩ := mem_of_selectWaitingTaskEvaluation hpreferred
              have hsame := hadmissions preferred hmem'
              rw [hrequest preferred hmem' (not_not.mp hkey), hadmission] at hsame
              rw [← Except.ok.inj hsame] at hreason
              split
              . exact ensures_taskGranted hm hadmission hreason (fun _ => rfl) (fun _ => rfl)
                  (fun _ => rfl) (fun _ => rfl) (by simp)
              . split
                . exact .denied hm rfl rfl rfl rfl
                . next hclosed =>
                  exact ensures_taskGranted hm hadmission hreason (fun _ => rfl) (fun _ => rfl)
                    (fun _ => rfl) (fun _ => rfl) fun _ => active_of_queuedLiveness hclosed

theorem acquires_tryAcquireNextQueuedTask (hj : m.JudgesTasks S P)
    (candidateKeys : List (String × String)) :
    Acquires uuid N P (.tryAcquireNextQueuedTask candidateKeys) m := by
  have hl := hm.ledger.consistent
  unfold Acquires Call.exec tryAcquireNextQueuedTask
  simp only [ensures_bind, ensures_get, ensures_pure]
  rw [ensures_lift]
  refine ⟨?_, fun e he => raised_of hm (evaluateWaitingTasks_tame hj _ he) rfl rfl⟩
  intro evaluations hevaluations
  have hadmissions : ∀ e ∈ evaluations, m.normalTaskBlockReason e.request = .ok e.admission :=
    fun _ he => (mem_evaluateWaitingTasks hevaluations he).2
  split
  . exact .denied hm rfl rfl rfl rfl
  . rw [ensures_lift_bind]
    refine ⟨?_, fun e he => raised_of hm (selectWaitingTaskEvaluation_tame hl hadmissions _ he) rfl rfl⟩
    intro selected hselected
    split
    . exact .denied hm rfl rfl rfl rfl
    . next selected =>
      obtain ⟨hmem, hreason⟩ := mem_of_selectWaitingTaskEvaluation hselected
      have hadmission := hadmissions selected hmem
      split
      . exact .denied hm rfl rfl rfl rfl
      . split
        . rw [ensures_bind]
          exact ensures_taskGranted hm hadmission hreason (fun _ => rfl) (fun _ => rfl)
            (fun _ => rfl) (fun _ => rfl) (by simp)
        . split
          . exact .denied hm rfl rfl rfl rfl
          . next hclosed =>
            rw [ensures_bind]
            exact ensures_taskGranted hm hadmission hreason (fun _ => rfl) (fun _ => rfl)
              (fun _ => rfl) (fun _ => rfl) fun _ => active_of_livenessClosed hclosed

end Tasks

/-! Giving back a task. -/

section Release

variable (hm : m.Indexed uuid N)
include hm

theorem ensures_releaseLease {leaseId attemptId : String} {terminal : Bool}
    (hattempts : ∀ result, call.terminalAttempts m result = if terminal then
      ((m.taskLeases.find? leaseId).toList.filter (·.attemptId = attemptId)).map fun lease =>
        (lease.taskId, lease.attemptId) else [])
    (hblocks : ∀ result, call.terminalBlocks m result = []) :
    (releaseLease leaseId attemptId terminal).Ensures m
      (fun released m' => Acts uuid N call m (.ok (.flag released)) m')
      (fun e m' => Acts uuid N call m (.error e) m') := by
  unfold releaseLease
  rw [ensures_get_bind]
  cases hfind : m.taskLeases.find? leaseId with
  | none =>
    simp only
    exact .idle hm (quiet_ok rfl rfl) (by rw [hattempts, hfind]; simp) (hblocks _)
  | some lease =>
    simp only
    split
    . next hattempt =>
      exact .idle hm (quiet_ok rfl rfl) (by rw [hattempts, hfind]; simp [hattempt]) (hblocks _)
    . next hattempt =>
      rw [not_not] at hattempt
      have hid : lease.leaseId = leaseId := m.taskLeases.keyed _ _ hfind
      subst hid
      obtain ⟨ledger, active, queued, -, hexec, hsound, hcredits, hslots⟩ :=
        removeTaskLease_eq hm.slots hfind (hm.ledger.removeTask lease.leaseId) terminal
      rw [ensures_bind]
      unfold Py.Ensures
      rw [hexec]
      refine ⟨.taskReleased lease terminal ledger active queued hfind hcredits,
        ⟨hsound, hslots.congr rfl rfl rfl rfl, hm.waiting⟩, ?_, by rw [hblocks]; rfl⟩
      rw [hattempts, hfind]
      cases terminal with
      | true => simp [hattempt]
      | false => rfl

theorem performs_releaseTaskLease (leaseId attemptId : String) :
    Performs uuid N (.releaseTaskLease leaseId attemptId) m := by
  unfold Performs Call.exec releaseTaskLease
  rw [ensures_bind]
  exact ensures_releaseLease hm (fun _ => rfl) fun _ => rfl

theorem performs_abandonTaskLease (leaseId attemptId : String) :
    Performs uuid N (.abandonTaskLease leaseId attemptId) m := by
  unfold Performs Call.exec abandonTaskLease
  rw [ensures_bind]
  exact ensures_releaseLease hm (fun _ => rfl) fun _ => rfl

end Release

/-! A task that finishes with outputs. -/

section Finish

variable {task : TaskLease} (leases : List OutputBlockLease)

theorem finishedOutputs_eq (task : TaskLease) (outputs : List OutputBlockRequest)
    (m : QueryResourceManager) :
    finishedOutputs uuid task outputs m =
      (.ok (finishedLeases uuid m.allocation.generation task m.uuidsDrawn outputs),
        { m with uuidsDrawn := m.uuidsDrawn + outputs.length }) := by
  induction outputs generalizing m with
  | nil => rfl
  | cons request rest ih =>
    unfold finishedOutputs finishedOutput drawUuid
    simp only [Py.bind_apply, Py.get_apply, Py.set_apply, Py.pure_apply]
    rw [ih, List.length_cons, Nat.add_comm rest.length 1, ← Nat.add_assoc]
    rfl

theorem foldl_fileOutputLease (m : QueryResourceManager) :
    leases.foldl fileOutputLease m =
      { m with
        toLedger := leases.foldl addOutput m.toLedger
        outputLeaseByBlock := leases.foldl
          (fun index lease => index.insert lease.blockId lease.leaseId) m.outputLeaseByBlock } := by
  induction leases generalizing m with
  | nil => rfl
  | cons lease leases ih =>
    rw [List.foldl_cons, ih]
    rfl

theorem removeTask_foldl_addOutput (l : Ledger) (leaseId : String) :
    (leases.foldl addOutput l).removeTask leaseId =
      leases.foldl addOutput (l.removeTask leaseId) := by
  induction leases generalizing l with
  | nil => rfl
  | cons lease leases ih => exact ih (l.addOutput lease)

theorem taskLeases_foldl_addOutput (l : Ledger) :
    (leases.foldl addOutput l).taskLeases = l.taskLeases ∧
      (leases.foldl addOutput l).graph = l.graph := by
  induction leases generalizing l with
  | nil => exact ⟨rfl, rfl⟩
  | cons lease leases ih => exact ih (l.addOutput lease)

theorem sound_finishedLeases {l : Ledger} {drawn : ℕ} (h : l.Sound uuid N drawn)
    (hgone : l.taskLeases.find? task.leaseId = none)
    (hdrawn : ∀ i, drawn ≤ i → task.leaseId ≠ uuid.hex i) (hnode : task.nodeId ∈ N)
    (hstage : task.stageId ∈ l.graph.stageIds) (generation : ℕ)
    (outputs : List OutputBlockRequest) :
    ((finishedLeases uuid generation task drawn outputs).foldl addOutput l).Sound uuid N
      (drawn + outputs.length) := by
  induction outputs generalizing l drawn with
  | nil => exact h
  | cons request rest ih =>
    rw [List.length_cons, Nat.add_comm rest.length 1, ← Nat.add_assoc]
    unfold finishedLeases
    rw [List.foldl_cons]
    apply ih
    . exact h.draw.leaveOutput h.fresh hgone rfl (fun i hi => hdrawn i (by omega)) hnode hstage
    . exact hgone
    . exact fun i hi => hdrawn i (by omega)
    . exact hstage

theorem checkFinishedOutput_tame (task : TaskLease) (targetBytes : ℤ) (seen : List String)
    (request : OutputBlockRequest) :
    (m.checkFinishedOutput task targetBytes seen request).Raises (isIndexError · = false) := by
  have hhead : ∀ {message : String}, message.toList.head? = some 'F' →
      isIndexError (.runtimeError message) = false :=
    fun h => isIndexError_of_head h (by decide)
  unfold checkFinishedOutput
  iterate 5
    refine raises_bind (Except.raises_raiseIf (by decide)) ?_
    intro _ _
  iterate 3
    refine raises_bind (Except.raises_raiseIf (hhead (by
      repeat apply head?_append
      decide))) ?_
    intro _ _
  exact Except.raises_ok _

theorem performs_finishTaskWithOutputs (hm : m.Indexed uuid N) (taskLeaseId attemptId : String)
    (outputs : List OutputBlockRequest) :
    Performs uuid N (.finishTaskWithOutputs taskLeaseId attemptId outputs) m := by
  have hhead : ∀ {message : String}, message.toList.head? = some 'F' →
      isIndexError (.runtimeError message) = false :=
    fun h => isIndexError_of_head h (by decide)
  unfold Performs Call.exec finishTaskWithOutputs
  simp only [ensures_bind, ensures_get, ensures_pure]
  cases hfind : m.taskLeases.find? taskLeaseId with
  | none =>
    exact .raised hm (hhead (by
      repeat apply head?_append
      decide)) rfl rfl
  | some task =>
    have hid : task.leaseId = taskLeaseId := m.taskLeases.keyed _ _ hfind
    subst hid
    simp only [ensures_bind, ensures_raiseIf, ensures_requireStage]
    refine ⟨fun _ => .raised hm (hhead (by
      repeat apply head?_append
      decide)) rfl rfl, fun _ => ⟨?_, fun _ => .raised hm rfl rfl rfl⟩⟩
    intro spec hspec
    refine ⟨fun _ => .raised hm (hhead (by
      repeat apply head?_append
      decide)) rfl rfl, fun _ => ?_⟩
    rw [ensures_lift]
    refine ⟨?_, fun e he => .raised hm (Except.raises_foldlM
      (fun seen request _ => checkFinishedOutput_tame task _ seen request) _ _ he) rfl rfl⟩
    intro seen hseen
    rw [Py.ensures_iff_of_ok (finishedOutputs_eq task outputs m)]
    simp only [ensures_modify]
    generalize hleases : finishedLeases uuid m.allocation.generation task m.uuidsDrawn outputs = leases
    rw [foldl_fileOutputLease]
    have htables := taskLeases_foldl_addOutput leases m.toLedger
    have hgone : (m.toLedger.removeTask task.leaseId).Sound uuid N m.uuidsDrawn :=
      hm.ledger.removeTask task.leaseId
    have hfiled := sound_finishedLeases hgone
      (by simp [Ledger.removeTask, Table.find?_remove])
      (by
        intro i hi heq
        have := (hm.ledger.unused i hi).task
        rw [← heq, hfind] at this
        cases this)
      (hm.ledger.located.task task (Dict.mem_values_of_find? hfind))
      (hm.ledger.consistent.task_stage task (Dict.mem_values_of_find? hfind))
      m.allocation.generation outputs
    rw [hleases, ← removeTask_foldl_addOutput] at hfiled
    obtain ⟨ledger, active, queued, -, hexec, hsound, hcredits, hslots⟩ := removeTaskLease_eq
      (m := QueryResourceManager.recomputeStageQueuedOutput
        { m with
          toLedger := leases.foldl addOutput m.toLedger
          uuidsDrawn := m.uuidsDrawn + outputs.length
          outputLeaseByBlock := leases.foldl
            (fun index lease => index.insert lease.blockId lease.leaseId) m.outputLeaseByBlock }
        task.stageId)
      (hm.slots.congr htables.2 htables.1 rfl rfl) (by
        show (leases.foldl addOutput m.toLedger).taskLeases.find? task.leaseId = some task
        rw [htables.1]
        exact hfind) hfiled true
    rw [Py.ensures_iff_of_ok hexec]
    have hfinal := hcredits.outputLeases
    refine ⟨.taskFinished task outputs seen spec.targetOutputBlockBytes leases hleases.symm hfind
      hseen ledger active queued hcredits ?_, ⟨hsound, hslots.congr rfl rfl rfl rfl, hm.waiting⟩,
      ?_, rfl⟩
    . simp only [recomputeStageQueuedOutput, updateStage, hfinal]
      rfl
    . simp only [Call.terminalAttempts, hfind]
      rfl

end Finish

/-! Output blocks. -/

section Outputs

variable {request : OutputBlockRequest} {P : PyError → Prop}

theorem checkOutputRequest_spec {spec : StageResourceSpec} {task : TaskLease}
    (h : m.checkOutputRequest request = .ok (spec, task)) :
    m.cancelled = false ∧ m.graph.stage? request.producerStageId = some spec ∧
      Text.strip request.blockId ∉ m.terminalOutputBlocks ∧
      m.taskLeases.find? request.taskLeaseId = some task ∧ task.stageId = spec.stageId ∧
      m.outputLeaseByBlock.contains (Text.strip request.blockId) = false := by
  unfold checkOutputRequest at h
  simp only [bind_eq_ok_iff, raiseIf_eq_ok_iff, exists_const] at h
  obtain ⟨hcancelled, -, h⟩ := h
  split at h
  . cases h
  . next stage hstage =>
    simp only [bind_eq_ok_iff, raiseIf_eq_ok_iff, exists_const] at h
    obtain ⟨-, hterminal, h⟩ := h
    split at h
    . cases h
    . next lease hlease =>
      simp only [bind_eq_ok_iff, raiseIf_eq_ok_iff, exists_const] at h
      obtain ⟨hsame, -, hleased, -, -, h⟩ := h
      cases h
      exact ⟨by simpa using hcancelled, hstage, hterminal, hlease, not_not.mp hsame,
        by simpa using hleased⟩

theorem normalOutputBlockReason_admitted {admission : OutputAdmission}
    (h : m.normalOutputBlockReason request = .ok admission) (hreason : admission.reason = none ∨
      admission.fatal = false ∧ admission.reason.any (·.isSoftOutput) = true) :
    ∃ task, m.OutputAdmitted request task := by
  unfold normalOutputBlockReason at h
  split at h
  . cases h
    simp at hreason
  . next spec task hcheck =>
    obtain ⟨hcancelled, hstage, hterminal, hlive, hsame, hleased⟩ := checkOutputRequest_spec hcheck
    have hadmitted : (m.outputDelta task request.sizeBytes.toNat = 0 ∨
        m.QueryRoom (.ofObjectStore (m.outputDelta task request.sizeBytes.toNat)) ∧
          m.NodeRoom task.nodeId (.ofObjectStore (m.outputDelta task request.sizeBytes.toNat))) →
        ∃ task, m.OutputAdmitted request task := fun hroom =>
      ⟨task, hcancelled, by rw [hsame, QueryExecutionGraph.stageId_of_stage? hstage], hlive,
        hterminal, hleased, hroom⟩
    dsimp only at h
    split at h
    . next hdelta => exact hadmitted (.inl hdelta)
    . obtain ⟨usage, husage, h⟩ := ok_of_bind h
      split at h
      . cases h
        simp [BlockReason.isSoftOutput] at hreason
      . next hquery =>
        split at h
        . cases h
          simp at hreason
        . next capacity hcapacity =>
          obtain ⟨nodeUsage, hnodeUsage, h⟩ := ok_of_bind h
          split at h
          . cases h
            simp [BlockReason.isSoftOutput] at hreason
          . next hnode =>
            apply hadmitted
            right
            refine ⟨⟨usage, husage, not_not.mp hquery⟩, ?_⟩
            unfold QueryAllocation.resourcesForNode at hcapacity
            split at hcapacity
            . next node hfound =>
              cases hcapacity
              exact ⟨node, List.mem_of_find?_eq_some hfound, by simpa using List.find?_some hfound,
                nodeUsage, hnodeUsage, not_not.mp hnode⟩
            . cases hcapacity

theorem OutputAdmitted.outputOf {task : TaskLease}
    (h : m.OutputAdmitted request task) (liveness : Bool) (state : OutputState) (leaseId : String) :
    m.toLedger.OutputOf task (m.outputLeaseFor request task liveness state leaseId) where
  live := by
    rw [m.taskLeases.keyed _ _ h.live]
    exact h.live
  taskLeaseId := (m.taskLeases.keyed _ _ h.live).symm
  nodeId := rfl
  producerStageId := h.stage.symm
  continuationCreditId := rfl

variable (hm : m.Indexed uuid N)
include hm

theorem ensures_grantOutputBlock {admission : OutputAdmission}
    {E : PyError → QueryResourceManager → Prop}
    {liveness : Bool} {state : OutputState} {wrap : OutputBlockGrant → Answer}
    (hadmission : m.normalOutputBlockReason request = .ok admission)
    (hreason : admission.reason = none ∨
      admission.fatal = false ∧ admission.reason.any (·.isSoftOutput) = true)
    (hlease : ∀ grant, grantedLease? (.ok (wrap grant)) = none)
    (houtput : ∀ grant, grantedOutput? (.ok (wrap grant)) = grant.lease)
    (hattempts : ∀ result, call.terminalAttempts m result = [])
    (hblocks : ∀ result, call.terminalBlocks m result = [])
    (hsingle : liveness = true → m.activeLivenessOutputLeaseId = none) :
    (grantOutputBlock uuid request liveness state).Ensures m
      (fun grant m' => Acts uuid N call m (.ok (wrap grant)) m') E := by
  obtain ⟨task, hadmitted⟩ := normalOutputBlockReason_admitted hadmission hreason
  unfold grantOutputBlock drawUuid
  simp only [ensures_bind, ensures_get]
  rw [hadmitted.live]
  simp only [ensures_bind, ensures_get, Py.ensures_set, ensures_pure, ensures_modify]
  show Acts uuid N call m _ (m.grantedOutput uuid request task liveness state)
  refine ⟨.outputGranted request task liveness state hadmitted (hlease _) (houtput _) hsingle, ?_, ?_,
    ?_⟩
  . obtain ⟨_, _, heq⟩ := m.grantedOutput_eq uuid request task liveness state
    rw [heq]
    exact {
      ledger := hm.ledger.draw.addOutputOf
        (hadmitted.outputOf liveness state (uuid.hex m.uuidsDrawn)) hm.ledger.fresh
      slots := hm.slots.congr rfl rfl rfl rfl
      waiting := hm.waiting }
  . obtain ⟨_, _, heq⟩ := m.grantedOutput_eq uuid request task liveness state
    rw [heq, hattempts]
    rfl
  . obtain ⟨_, _, heq⟩ := m.grantedOutput_eq uuid request task liveness state
    rw [heq, hblocks]
    rfl

theorem acquires_tryAcquireOutputBlock
    (hj : ∀ request, (m.normalOutputBlockReason request).Raises P) (request : OutputBlockRequest) :
    Acquires uuid N P (.tryAcquireOutputBlock request) m := by
  unfold Acquires Call.exec tryAcquireOutputBlock
  simp only [ensures_bind, ensures_get, ensures_pure]
  rw [ensures_lift]
  refine ⟨?_, fun e he => raised_of hm (hj _ _ he) rfl rfl⟩
  intro admission hadmission
  have hgrant : ∀ {E} liveness, (admission.reason = none ∨
        admission.fatal = false ∧ admission.reason.any (·.isSoftOutput) = true) →
      (liveness = true → m.activeLivenessOutputLeaseId = none) →
      (grantOutputBlock uuid request liveness .generatorPending).Ensures m
        (fun grant m' => Acts uuid N (.tryAcquireOutputBlock request) m (.ok (.output grant)) m')
        E :=
    fun liveness hreason => ensures_grantOutputBlock hm hadmission hreason
      (fun _ => rfl) (fun _ => rfl) (fun _ => rfl) fun _ => rfl
  split
  . next hreason => exact hgrant false (.inl hreason) (by simp)
  . next reason hreason =>
    split
    . exact .denied hm rfl rfl rfl rfl
    . next hsoft =>
      simp only [not_or, Bool.not_eq_true] at hsoft
      split
      . exact .denied hm rfl rfl rfl rfl
      . next hactive =>
        rw [ensures_lift_bind]
        refine ⟨?_, fun e he => raised_of hm (hasNormalOutputCandidate_tame hj _ he) rfl rfl⟩
        intro candidate _
        split
        . exact .denied hm rfl rfl rfl rfl
        . split
          . exact .denied hm rfl rfl rfl rfl
          . rw [ensures_lift_bind]
            refine ⟨?_, fun e he => raised_of hm (preferredOutputLivenessStage_tame hj _ _ he) rfl rfl⟩
            intro preferred _
            split
            . exact .denied hm rfl rfl rfl rfl
            . rw [ensures_lift_bind]
              refine ⟨?_, fun e he => raised_of hm (queryUsage_tame hm.ledger.consistent _ he) rfl rfl⟩
              intro usage _
              split
              . exact .denied hm rfl rfl rfl rfl
              . refine hgrant true ?_ fun _ => not_not.mp hactive
                rw [hreason]
                exact .inr ⟨hsoft.1, by simpa using hsoft.2⟩

omit hm in
theorem admission_of_mem_rankWaitingOutputs {candidateBlockIds : List String}
    {ranked : List RankedOutput} (h : m.rankWaitingOutputs candidateBlockIds = .ok ranked)
    {r : RankedOutput} (hr : r ∈ ranked) :
    m.normalOutputBlockReason r.request = .ok r.admission := by
  obtain ⟨⟨⟨blockId, request⟩, order⟩, -, heval⟩ := Except.mem_of_mapM_eq_ok h hr
  obtain ⟨admission, hadmission, heval⟩ := ok_of_bind heval
  cases heval
  exact hadmission

theorem acquires_tryAcquireNextQueuedOutputBlock
    (hj : ∀ request, (m.normalOutputBlockReason request).Raises P)
    (candidateBlockIds : List String) :
    Acquires uuid N P (.tryAcquireNextQueuedOutputBlock candidateBlockIds) m := by
  unfold Acquires Call.exec tryAcquireNextQueuedOutputBlock
  simp only [ensures_bind, ensures_get, ensures_pure]
  rw [ensures_lift]
  refine ⟨?_, fun e he => raised_of hm (rankWaitingOutputs_tame hj _ _ he) rfl rfl⟩
  intro ranked hranked
  have hgrant : ∀ {E}, ∀ r ∈ ranked, ∀ liveness, (r.admission.reason = none ∨
        r.admission.fatal = false ∧ r.admission.reason.any (·.isSoftOutput) = true) →
      (liveness = true → m.activeLivenessOutputLeaseId = none) →
      (grantOutputBlock uuid r.request liveness .stageQueue).Ensures m
        (fun grant m' => Acts uuid N (.tryAcquireNextQueuedOutputBlock candidateBlockIds) m
          (.ok (.nextOutput (some r.request) (some grant))) m') E := by
    intro E r hr liveness hreason
    exact ensures_grantOutputBlock hm (admission_of_mem_rankWaitingOutputs hranked hr) hreason
      (fun _ => rfl) (fun _ => rfl) (fun _ => rfl) fun _ => rfl
  split
  . exact .denied hm rfl rfl rfl rfl
  . split
    . next r hr =>
      have hr := List.mem_filter.mp (List.minBy?_mem hr)
      simp only [ensures_bind, ensures_pure]
      exact hgrant r hr.1 false (.inl (by simpa using (of_decide_eq_true hr.2).2)) (by simp)
    . split
      . exact .denied hm rfl rfl rfl rfl
      . next r hr =>
        have hr := List.mem_filter.mp (List.minBy?_mem hr)
        split
        . exact .denied hm rfl rfl rfl rfl
        . next hactive =>
          split
          . exact .denied hm rfl rfl rfl rfl
          . simp only [ensures_bind, ensures_pure]
            have hsoft := of_decide_eq_true hr.2
            exact hgrant r hr.1 true (.inr (by simpa using hsoft)) fun _ => not_not.mp hactive

theorem performs_transitionOutputBlock (leaseId state : String) :
    Performs uuid N (.transitionOutputBlock leaseId state) m := by
  unfold Performs Call.exec transitionOutputBlock
  rw [ensures_bind]
  split
  . exact .raised hm rfl rfl rfl
  . next target htarget =>
    rw [ensures_get_bind]
    split
    . exact .denied hm rfl rfl rfl rfl
    . next lease hlease =>
      have hid : lease.leaseId = leaseId := m.outputLeases.keyed _ _ hlease
      subst hid
      have hsound := hm.ledger.moveOutput hlease target
      have hmoved : ∀ ledger, ledger.Sound uuid N m.uuidsDrawn →
          CreditsOnly (m.toLedger.addOutput { lease with state := target }) ledger →
          target.index = lease.state.index + 1 →
          Acts uuid N (.transitionOutputBlock lease.leaseId state) m (.ok (.flag true))
            (({ m with
              toLedger := ledger
              activeLivenessOutputLeaseId := if target = .downstreamInput ∧
                m.activeLivenessOutputLeaseId = some lease.leaseId then none
                  else m.activeLivenessOutputLeaseId } :
              QueryResourceManager).recomputeStageQueuedOutput
                lease.producerStageId).publishChange :=
        fun ledger hledger hcredits hnext =>
          ⟨.outputMoved lease target ledger _ hlease hcredits hnext rfl,
            ⟨hledger, hm.slots.congr hcredits.graph hcredits.taskLeases rfl rfl,
              hm.waiting⟩, rfl, rfl⟩
      simp only [ensures_bind, ensures_raiseIf, ensures_modify, ensures_pure]
      refine ⟨fun _ => .raised hm rfl rfl rfl, fun hnext => ?_⟩
      split
      . next hdownstream =>
        simp only [ensures_bind, ensures_modify]
        generalize hmarked : (if m.activeLivenessOutputLeaseId = some lease.leaseId then _ else _) =
          marked
        obtain rfl : marked =
            ({ m with
              toLedger := m.toLedger.addOutput { lease with state := target }
              activeLivenessOutputLeaseId := if target = .downstreamInput ∧
                m.activeLivenessOutputLeaseId = some lease.leaseId then none
                  else m.activeLivenessOutputLeaseId } : QueryResourceManager) := by
          subst hmarked
          simp only [hdownstream, true_and]
          split <;> rfl
        obtain ⟨hexec, hcredits⟩ :=
          maybeReturnContinuationCredit_eq (m := { m with
            toLedger := m.toLedger.addOutput { lease with state := target }
            activeLivenessOutputLeaseId := _ }) hsound lease.taskLeaseId
        rw [Py.ensures_iff_of_ok hexec]
        exact hmoved _ (hsound.returnCredit lease.taskLeaseId) hcredits (not_not.mp hnext)
      . next hdownstream =>
        have hstays := hmoved _ hsound (.refl _) (not_not.mp hnext)
        simp only [hdownstream, false_and, if_false] at hstays
        exact hstays

theorem performs_releaseOutputBlock (leaseId : String) :
    Performs uuid N (.releaseOutputBlock leaseId) m := by
  unfold Performs Call.exec releaseOutputBlock
  simp only [ensures_bind, ensures_get]
  cases hfind : m.outputLeases.find? leaseId with
  | none => exact .idle hm (quiet_ok rfl rfl) rfl (by simp [Call.terminalBlocks, hfind])
  | some lease =>
    have hid : lease.leaseId = leaseId := m.outputLeases.keyed _ _ hfind
    subst hid
    simp only [ensures_bind, ensures_modify, ensures_pure]
    have hledger := (hm.ledger.removeOutput lease.leaseId).returnCredit lease.taskLeaseId
    obtain ⟨hexec, hcredits⟩ :=
      maybeReturnContinuationCredit_eq (m := { m with
        toLedger := m.toLedger.removeOutput lease.leaseId
        outputLeaseByBlock := m.outputLeaseByBlock.erase lease.blockId
        terminalOutputBlocks := m.terminalOutputBlocks.add lease.blockId
        activeLivenessOutputLeaseId :=
          if m.activeLivenessOutputLeaseId = some lease.leaseId then none
          else m.activeLivenessOutputLeaseId }) (hm.ledger.removeOutput lease.leaseId)
        lease.taskLeaseId
    refine (Py.ensures_iff_of_ok hexec).mpr ?_
    refine ⟨.outputReleased lease _ _ hfind hcredits rfl,
      ⟨hledger, hm.slots.congr hcredits.graph hcredits.taskLeases rfl rfl, hm.waiting⟩,
      rfl, ?_⟩
    simp only [Call.terminalBlocks, hfind]
    rfl

/-! Cancellation. -/

omit hm in
theorem foldl_recount {stageIds : List String} {m : QueryResourceManager}
    (hwaiting : m.waitingTaskInputs = ∅) (hblocks : m.waitingOutputBlocks = ∅)
    (houtputs : m.outputLeases = ∅) :
    ∃ stages, stageIds.foldl (fun m stageId =>
        (m.recomputeStageQueuedInput stageId).recomputeStageQueuedOutput stageId) m =
          { m with stages } ∧
      ∀ stageId, (stageId ∈ stageIds ∨ (m.stages stageId).inputCounters = (0, 0) ∧
          (m.stages stageId).outputCounters = (0, 0)) →
        (stages stageId).inputCounters = (0, 0) ∧ (stages stageId).outputCounters = (0, 0) := by
  induction stageIds generalizing m with
  | nil => exact ⟨m.stages, rfl, fun stageId h => by simpa using h⟩
  | cons first rest ih =>
    obtain ⟨stages, hfold, hcounted⟩ := ih (m :=
      (m.recomputeStageQueuedInput first).recomputeStageQueuedOutput first) hwaiting hblocks houtputs
    refine ⟨stages, hfold, ?_⟩
    intro stageId hstage
    apply hcounted
    by_cases hfirst : stageId = first
    . right
      subst hfirst
      simp [recomputeStageQueuedInput, recomputeStageQueuedOutput, updateStage, hwaiting, hblocks,
        houtputs, StageState.inputCounters, StageState.outputCounters]
    . have hsame : ((m.recomputeStageQueuedInput first).recomputeStageQueuedOutput first).stages
          stageId = m.stages stageId := by
        simp [recomputeStageQueuedInput, recomputeStageQueuedOutput, updateStage, hfirst]
      rw [hsame]
      simpa [hfirst] using hstage

theorem performs_cancel (reason : String) : Performs uuid N (.cancel reason) m := by
  unfold Performs Call.exec cancel
  simp only [ensures_bind, ensures_get]
  split
  . next hcancelled =>
    exact .idle hm (quiet_ok rfl rfl) (by simp [Call.terminalAttempts, hcancelled]) rfl
  . next hcancelled =>
    simp only [ensures_bind, Py.ensures_set, ensures_pure]
    generalize hcleared : List.foldl _ _ m.graph.stageIds = counted
    obtain ⟨stages, hfold, hzero⟩ := hcleared ▸ foldl_recount rfl rfl rfl
    subst hfold
    refine ⟨.cancelled reason _ _ stages _ fun stageId hstage => hzero stageId (.inl hstage),
      ⟨?_, ?_, ?_⟩, ?_, rfl⟩
    . exact .of_new hm.ledger.consistent.placed fun n hn => hm.ledger.located.node n hn
    . exact .of_empty rfl rfl rfl
    . intro key waiter hfind
      cases hfind
    . simp only [Call.terminalAttempts, hcancelled]
      rfl

end Outputs

theorem Indexed.exec_acts (hm : m.Indexed uuid N) (call : Call)
    (hnodes : ∀ n ∈ (call.step uuid m).allocation.nodeIds, n ∈ N) :
    Acts uuid N call m (call.exec uuid m).1 (call.step uuid m) := by
  have hl := hm.ledger.consistent
  have hperforms : Performs uuid N call m := by
    cases call with
    | updateStageState stageId runnable actorReady completed =>
      exact performs_updateStageState hm stageId runnable actorReady completed
    | noteTaskWaiting request => exact performs_noteTaskWaiting hm request
    | removeTaskWaiter taskId attemptId => exact performs_removeTaskWaiter hm taskId attemptId
    | markTaskAttemptTerminal taskId attemptId =>
      exact performs_markTaskAttemptTerminal hm taskId attemptId
    | noteOutputWaiting request => exact performs_noteOutputWaiting hm request
    | removeOutputWaiter blockId => exact performs_removeOutputWaiter hm blockId
    | markOutputBlockTerminal blockId => exact performs_markOutputBlockTerminal hm blockId
    | setExternalConsumerWaiting waiting => exact performs_setExternalConsumerWaiting hm waiting
    | setStageActorReady stageId ready => exact performs_setStageActorReady hm stageId ready
    | updateAllocation allocation admissionOpen =>
      exact performs_updateAllocation hm allocation admissionOpen hnodes
    | closeAdmission => exact performs_closeAdmission hm
    | tryAcquireTask request => exact (acquires_tryAcquireTask hm (judgesTasks_isIndexError hl) trivial).performs
    | tryAcquireTaskDescriptor request =>
      exact (acquires_tryAcquireTaskDescriptor hm
        (judgesTasks_isIndexError (hm.wakeStage request).ledger.consistent) trivial
          (.inr rfl)).performs
    | tryAcquireQueuedTask request =>
      exact (acquires_tryAcquireQueuedTask hm (judgesTasks_isIndexError hl) request).performs
    | tryAcquireNextQueuedTask candidateKeys =>
      exact (acquires_tryAcquireNextQueuedTask hm (judgesTasks_isIndexError hl) candidateKeys).performs
    | releaseTaskLease leaseId attemptId => exact performs_releaseTaskLease hm leaseId attemptId
    | abandonTaskLease leaseId attemptId => exact performs_abandonTaskLease hm leaseId attemptId
    | finishTaskWithOutputs taskLeaseId attemptId outputs =>
      exact performs_finishTaskWithOutputs hm taskLeaseId attemptId outputs
    | tryAcquireOutputBlock request =>
      exact (acquires_tryAcquireOutputBlock hm (outputs_isIndexError hl) request).performs
    | tryAcquireNextQueuedOutputBlock candidateBlockIds =>
      exact (acquires_tryAcquireNextQueuedOutputBlock hm (outputs_isIndexError hl)
        candidateBlockIds).performs
    | transitionOutputBlock leaseId state => exact performs_transitionOutputBlock hm leaseId state
    | releaseOutputBlock leaseId => exact performs_releaseOutputBlock hm leaseId
    | cancel reason => exact performs_cancel hm reason
  unfold Performs Py.Ensures at hperforms
  unfold Call.step
  split at hperforms
  . next answer m' hexec =>
    rw [hexec]
    exact hperforms
  . next e m' hexec =>
    rw [hexec]
    exact hperforms

theorem eq_of_new {graph : QueryExecutionGraph} {allocation : QueryAllocation} {ratio : ℚ}
    (h : new graph allocation ratio = .ok m) :
    m = { graph
          allocation
          reservationRatio := ratio.toNNRat
          stages := fun stageId =>
            { actorReady := (graph.stage? stageId).any (·.backend ≠ .rayActor) } } := by
  unfold new at h
  obtain ⟨_, -, h⟩ := ok_of_bind h
  obtain ⟨_, -, h⟩ := ok_of_bind h
  cases h
  rfl

theorem new_indexed {graph : QueryExecutionGraph} {allocation : QueryAllocation} {ratio : ℚ}
    (h : new graph allocation ratio = .ok m)
    (hnodes : ∀ n ∈ allocation.nodeIds, n ∈ N) : m.Indexed uuid N := by
  obtain ⟨_, -, h⟩ := ok_of_bind h
  obtain ⟨_, hvalid, h⟩ := ok_of_bind h
  cases h
  refine ⟨.of_new (fun p hp => QueryExecutionGraph.stage?_of_validateAllocation hvalid hp) hnodes,
    .of_empty rfl rfl rfl, ?_⟩
  intro key waiter hfind
  cases hfind

theorem runCalls_indexed (hm : m.Indexed uuid Set.univ) (calls : List Call) :
    (runCalls uuid calls m).Indexed uuid Set.univ := by
  refine Run.run_invariant (QueryResourceManager.Indexed uuid Set.univ) ?_ hm
  intro call _ m' hm'
  exact (hm'.exec_acts call fun _ _ => trivial).indexed

end QueryResourceManager

end Vane
