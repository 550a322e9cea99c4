import Vane.Ray.QueryResourceManager.Safety

/-!
This module contains the result about the admission epoch: a denied descriptor stays denied until it
increases.
-/

namespace Vane

namespace QueryResourceManager

variable {uuid : UuidSource} {N : Set String} {m m' : QueryResourceManager} {call : Call}
  {result : Except PyError Answer} {request : TaskRequest}

theorem Effect.epoch (h : Effect uuid call m result m') (hm : m.Indexed uuid N) :
    (∃ drawn, m' = { m with uuidsDrawn := drawn }) ∨ m.admissionEpoch < m'.admissionEpoch := by
  induction h with
  | idle drawn => exact .inl ⟨drawn, rfl⟩
  | @restage m result m' stageId stage spec known kept rest ih =>
    right
    have hnext : (m.restage stageId stage).admissionEpoch = m.admissionEpoch + 1 := rfl
    rcases ih (hm.restage stageId stage) with ⟨drawn, rfl⟩ | hlt
    . exact Nat.lt_succ_self _
    . omega
  | taskGranted request spec plan liveness admitted =>
    obtain ⟨_, _, _, _, _, _, heq, -⟩ := admitted.grantedTask_eq hm liveness
    rw [heq]
    exact .inr (Nat.lt_succ_self _)
  | taskFinished task outputs seen targetBytes leases filed live checked ledger active queued
      credits final =>
    rw [final]
    exact .inr (Nat.lt_succ_self _)
  | @outputGranted m result request task liveness state =>
    obtain ⟨_, _, heq⟩ := m.grantedOutput_eq uuid request task liveness state
    rw [heq]
    exact .inr (Nat.lt_succ_self _)
  | _ => exact .inr (Nat.lt_succ_self _)

/-! What happens to a descriptor. -/

def descriptorDecision (m : QueryResourceManager) (request : TaskRequest) :
    Except PyError (TaskGrant ⊕ TaskAdmissionPlan × Bool) := do
  let key := (request.taskId, request.attemptId)
  if m.waitingTaskInputs.contains key then
    return .inl (taskDenied .taskDescriptorAlreadyRegistered true)
  else
    let admission ← m.normalTaskBlockReason request
    if admission.fatal then
      return .inl (taskDenied (admission.reason.getD .fatalTaskAdmission) true)
    else
      let rank ← m.waitingTaskRank request m.waitingTaskInputs.keys.length
      let waiting ← m.evaluateWaitingTasks
      let evaluations := waiting ++ [⟨rank, request, admission⟩]
      match ← m.selectWaitingTaskEvaluation evaluations with
      | none => return .inl (taskDenied (admission.reason.getD .taskNotAdmissible))
      | some preferred =>
        if preferred.key ≠ key then
          return .inl (taskDenied .admissionTurn)
        else
          match admission.reason with
          | none => return .inr (admission.plan, false)
          | some reason =>
            if ¬reason.isSoftTask then
              return .inl (taskDenied reason)
            else
              match m.queuedLivenessBlockReason evaluations with
              | some reason => return .inl (taskDenied reason)
              | none => return .inr (admission.plan, true)

def carryOut (uuid : UuidSource) (request : TaskRequest) :
    TaskGrant ⊕ TaskAdmissionPlan × Bool → Py QueryResourceManager TaskGrant
  | .inl denied => withEpoch denied
  | .inr (plan, liveness) => do
    let grant ← grantTask uuid request plan liveness
    withEpoch grant

theorem tryAcquireTaskDescriptor_eq (request : TaskRequest) (m : QueryResourceManager) :
    tryAcquireTaskDescriptor uuid request m =
      match (m.wakeStage request).descriptorDecision request with
      | .error e => (.error e, m.wakeStage request)
      | .ok decision => carryOut uuid request decision (m.wakeStage request) := by
  unfold tryAcquireTaskDescriptor descriptorDecision
  simp only [Py.bind_apply, Py.modify_apply, Py.get_apply]
  generalize m.wakeStage request = m
  split
  . rfl
  . cases m.normalTaskBlockReason request with
    | error e => rfl
    | ok admission =>
      simp only [Py.bind_apply, Py.lift_apply, Except.bind_ok]
      split
      . rfl
      . cases m.waitingTaskRank request m.waitingTaskInputs.keys.length with
        | error e => rfl
        | ok rank =>
          cases m.evaluateWaitingTasks with
          | error e => rfl
          | ok waiting =>
            simp only [Py.bind_apply, Py.lift_apply, Except.bind_ok]
            cases m.selectWaitingTaskEvaluation (waiting ++ [⟨rank, request, admission⟩]) with
            | error e => rfl
            | ok preferred =>
              cases preferred with
              | none => rfl
              | some preferred =>
                simp only [Except.bind_ok]
                split
                . rfl
                . cases admission.reason with
                  | none => rfl
                  | some reason =>
                    simp only
                    split
                    . rfl
                    . cases m.queuedLivenessBlockReason
                          (waiting ++ [⟨rank, request, admission⟩]) with
                      | none => rfl
                      | some reason => rfl

theorem descriptorDecision_draw (m : QueryResourceManager) (request : TaskRequest) (drawn : ℕ) :
    ({ m with uuidsDrawn := drawn } : QueryResourceManager).descriptorDecision request =
      m.descriptorDecision request := rfl

theorem wakeStage_wakeStage (m : QueryResourceManager) (request : TaskRequest) :
    (m.wakeStage request).wakeStage request = m.wakeStage request := by
  by_cases h : request.queryId = m.graph.queryId ∧ (m.graph.stage? request.stageId).isSome ∧
      ¬(m.stages request.stageId).completed ∧ ¬(m.stages request.stageId).runnable
  . have hwoken : m.wakeStage request = ((m.updateStage request.stageId fun stage =>
        { stage with runnable := true }).recomputeStageQueuedInput request.stageId).publishChange :=
      if_pos h
    have hrunnable : ((m.wakeStage request).stages request.stageId).runnable = true := by
      rw [hwoken]
      simp [updateStage, recomputeStageQueuedInput, publishChange]
    exact if_neg fun hagain => hagain.2.2.2 hrunnable
  . have hsame : m.wakeStage request = m := if_neg h
    rw [hsame, hsame]

theorem wakeStage_draw (m : QueryResourceManager) (request : TaskRequest) (drawn : ℕ) :
    ({ m with uuidsDrawn := drawn } : QueryResourceManager).wakeStage request =
      { m.wakeStage request with uuidsDrawn := drawn } := by
  unfold wakeStage
  dsimp only
  split <;> rfl

theorem grantTask_granted (uuid : UuidSource) (request : TaskRequest) (plan : TaskAdmissionPlan) (liveness : Bool) :
    (grantTask uuid request plan liveness).Returns (·.granted = true) := by
  unfold grantTask
  iterate 9 refine Py.returns_bind fun _ => ?_
  exact Py.returns_pure rfl

theorem carryOut_inr_granted (uuid : UuidSource) (request : TaskRequest)
    (planned : TaskAdmissionPlan × Bool) :
    (carryOut uuid request (.inr planned)).Returns (·.granted = true) := by
  obtain ⟨plan, liveness⟩ := planned
  intro s
  simp only [carryOut, withEpoch, Py.ensures_bind, Py.ensures_get, Py.ensures_pure]
  exact grantTask_granted uuid request plan liveness s

theorem exec_eq_denied_iff {grant : TaskGrant} (hgrant : grant.granted = false) :
    ((Call.tryAcquireTaskDescriptor request).exec uuid m).1 = .ok (.task grant) ↔
      ∃ denied, (m.wakeStage request).descriptorDecision request = .ok (.inl denied) ∧
        grant = { denied with admissionEpoch := (m.wakeStage request).admissionEpoch } := by
  simp only [Call.exec]
  rw [Py.bind_apply, tryAcquireTaskDescriptor_eq]
  cases hdecision : (m.wakeStage request).descriptorDecision request with
  | error e => simp
  | ok decision =>
    cases decision with
    | inl denied => simp [carryOut, withEpoch, Py.bind_apply, eq_comm]
    | inr planned =>
      have hgranted := carryOut_inr_granted uuid request planned (m.wakeStage request)
      unfold Py.Ensures at hgranted
      simp only
      split at hgranted
      . simp only [Py.pure_apply, Except.ok.injEq, Answer.task.injEq]
        constructor
        . rintro rfl
          exact absurd (hgrant.symm.trans hgranted) (by simp)
        . rintro ⟨_, h, -⟩
          cases h
      . simp

theorem step_of_denied {denied : TaskGrant}
    (h : (m.wakeStage request).descriptorDecision request = .ok (.inl denied)) :
    (Call.tryAcquireTaskDescriptor request).step uuid m = m.wakeStage request := by
  simp only [Call.step, Call.exec]
  rw [Py.bind_apply, tryAcquireTaskDescriptor_eq, h]
  rfl

theorem Indexed.runCalls_epoch (hm : m.Indexed uuid Set.univ) (calls : List Call) :
    m.admissionEpoch < (runCalls uuid calls m).admissionEpoch ∨
      ∃ drawn, runCalls uuid calls m = { m with uuidsDrawn := drawn } := by
  induction calls generalizing m with
  | nil => exact .inr ⟨m.uuidsDrawn, rfl⟩
  | cons call calls ih =>
    have hacts := hm.exec_acts call fun _ _ => trivial
    have hrest := ih hacts.indexed
    have hrun : runCalls uuid (call :: calls) m = runCalls uuid calls (call.step uuid m) := rfl
    rw [hrun]
    rcases hacts.effect.epoch hm with ⟨drawn, hstep⟩ | hlt
    . rw [hstep] at hrest ⊢
      exact hrest
    . left
      rcases hrest with hlt' | ⟨drawn, heq⟩
      . omega
      . rw [heq]
        exact hlt

theorem Indexed.denied_again (hm : m.Indexed uuid Set.univ)
    {grant : TaskGrant} (hgrant : grant.granted = false)
    (hdenied : ((Call.tryAcquireTaskDescriptor request).exec uuid m).1 = .ok (.task grant))
    {after : List Call} (hepoch : (runCalls uuid after
      ((Call.tryAcquireTaskDescriptor request).step uuid m)).admissionEpoch = grant.admissionEpoch) :
    ((Call.tryAcquireTaskDescriptor request).exec uuid (runCalls uuid after
      ((Call.tryAcquireTaskDescriptor request).step uuid m))).1 = .ok (.task grant) := by
  have hindexed := (hm.exec_acts (.tryAcquireTaskDescriptor request) fun _ _ => trivial).indexed
  rw [exec_eq_denied_iff hgrant] at hdenied ⊢
  obtain ⟨denied, hdecision, hreported⟩ := hdenied
  rw [step_of_denied hdecision] at hepoch hindexed ⊢
  have hnow : (m.wakeStage request).admissionEpoch = grant.admissionEpoch := by rw [hreported]
  rcases hindexed.runCalls_epoch after with hlt | ⟨drawn, heq⟩
  . rw [hepoch, hnow] at hlt
    exact absurd hlt (lt_irrefl _)
  . refine ⟨denied, ?_, ?_⟩
    . rw [heq, wakeStage_draw, wakeStage_wakeStage, descriptorDecision_draw, hdecision]
    . rw [heq, wakeStage_draw, wakeStage_wakeStage, hreported]

end QueryResourceManager

end Vane
