import Vane.Ray.QueryResourceManager.Safety

/-!
This module contains the result that at most one task and one output block hold a liveness grant.
-/

namespace Vane

namespace QueryResourceManager

open Table (OneMarked)

variable {uuid : UuidSource} {N : Set String} {m m' : QueryResourceManager} {call : Call}
  {result : Except PyError Answer}

def Escapes (o : OutputBlockLease) : Prop := o.liveness = true ∧ o.state.isHandedOff = false

structure LivenessTracked (m : QueryResourceManager) : Prop where
  task : m.taskLeases.OneMarked (·.liveness = true) m.activeLivenessTaskLeaseId
  output : m.outputLeases.OneMarked Escapes m.activeLivenessOutputLeaseId

theorem activeTask_grantedTask (uuid : UuidSource) (m : QueryResourceManager) (request : TaskRequest)
    (spec : StageResourceSpec) (plan : TaskAdmissionPlan) (liveness : Bool) :
    (m.grantedTask uuid request spec plan liveness).activeLivenessTaskLeaseId =
      if liveness then some (uuid.hex m.uuidsDrawn) else m.activeLivenessTaskLeaseId := by
  cases liveness with
  | true => rfl
  | false =>
    show (withCredit uuid _ plan _).activeLivenessTaskLeaseId = _
    have hfiled : ∀ lease slot, (QueryResourceManager.fileTaskLease
        { m with uuidsDrawn := m.uuidsDrawn + 1 } lease slot).activeLivenessTaskLeaseId =
          m.activeLivenessTaskLeaseId := by
      intro lease slot
      unfold fileTaskLease occupySlot
      split
      . rfl
      . simp only
        split <;> rfl
    unfold withCredit
    split
    . exact hfiled _ _
    . split <;> exact hfiled _ _
    . exact hfiled _ _

theorem activeOutput_grantedOutput (uuid : UuidSource) (m : QueryResourceManager)
    (request : OutputBlockRequest) (task : TaskLease) (liveness : Bool) (state : OutputState) :
    (m.grantedOutput uuid request task liveness state).activeLivenessOutputLeaseId =
      if liveness then some (uuid.hex m.uuidsDrawn) else m.activeLivenessOutputLeaseId := by
  cases liveness with
  | true => rfl
  | false => rfl

theorem OneMarked.foldl_finished {l : Ledger} {active : Option String}
    (h : l.outputLeases.OneMarked Escapes active) (generation : ℕ) (task : TaskLease) (drawn : ℕ)
    (outputs : List OutputBlockRequest) :
    ((finishedLeases uuid generation task drawn outputs).foldl Ledger.addOutput
      l).outputLeases.OneMarked Escapes active := by
  induction outputs generalizing l drawn with
  | nil => exact h
  | cons request rest ih => exact ih (h.put fun hescapes => absurd hescapes.1 (by simp)) _

theorem OneMarked.moved {t : Table OutputBlockLease.leaseId} {active : Option String}
    (h : t.OneMarked Escapes active) {lease : OutputBlockLease} {state : OutputState}
    (hfound : t.find? lease.leaseId = some lease) (hnext : state.index = lease.state.index + 1) :
    (t.put { lease with state }).OneMarked Escapes
      (if state = .downstreamInput ∧ active = some lease.leaseId then none else active) := by
  by_cases hdownstream : state = .downstreamInput
  . subst hdownstream
    simp only [true_and]
    refine h.clear (fun k hk => by rw [Table.find?_put, if_neg hk]) fun v hv hescapes => ?_
    rw [Table.find?_put, if_pos rfl] at hv
    cases hv
    exact nomatch hescapes.2
  . rw [if_neg fun hand => hdownstream hand.1]
    -- a block that stays with its producer was with it before
    refine h.put fun hescapes => h.recorded _ _ hfound ⟨hescapes.1, ?_⟩
    have hstays := hescapes.2
    cases hstate : lease.state <;> cases state <;> simp_all [OutputState.index, OutputState.isHandedOff]

theorem Effect.livenessTracked (h : Effect uuid call m result m') (hm : m.Indexed uuid N)
    (hlive : m.LivenessTracked) : m'.LivenessTracked := by
  induction h with
  | restage stageId stage spec known kept rest ih =>
    exact ih (hm.restage stageId stage) ⟨hlive.task, hlive.output⟩
  | @taskGranted m result request spec plan liveness admitted task output single =>
    have hactive := activeTask_grantedTask uuid m request spec plan liveness
    obtain ⟨ledger, _, _, _, _, _, heq, -, htasks, houtputs, -⟩ :=
      admitted.grantedTask_eq hm liveness
    rw [heq] at hactive ⊢
    refine ⟨?_, ?_⟩
    . rw [hactive]
      show ledger.taskLeases.OneMarked _ _
      rw [htasks]
      exact hlive.task.put_if single id
    . show ledger.outputLeases.OneMarked _ _
      rw [houtputs]
      exact hlive.output
  | taskReleased lease terminal ledger active queued live credits =>
    refine ⟨?_, ?_⟩
    . rw [credits.taskLeases]
      exact hlive.task.remove lease.leaseId
    . rw [credits.outputLeases]
      exact hlive.output
  | taskFinished task outputs seen targetBytes leases filed live checked ledger active queued
      credits final =>
    subst final filed
    refine ⟨?_, ?_⟩
    . show ledger.taskLeases.OneMarked _ _
      rw [credits.taskLeases, removeTask_foldl_addOutput, (taskLeases_foldl_addOutput _ _).1]
      exact hlive.task.remove task.leaseId
    . show ledger.outputLeases.OneMarked _ _
      rw [credits.outputLeases]
      exact OneMarked.foldl_finished hlive.output _ _ _ _
  | @outputGranted m result request task liveness state admitted task? output single =>
    have hactive := activeOutput_grantedOutput uuid m request task liveness state
    obtain ⟨_, _, heq⟩ := m.grantedOutput_eq uuid request task liveness state
    rw [heq] at hactive ⊢
    refine ⟨hlive.task, ?_⟩
    rw [hactive]
    exact hlive.output.put_if single And.left
  | outputMoved lease state ledger live found credits next cleared =>
    subst cleared
    refine ⟨?_, ?_⟩
    . show ledger.taskLeases.OneMarked _ _
      rw [credits.taskLeases]
      exact hlive.task
    . show ledger.outputLeases.OneMarked _ _
      rw [credits.outputLeases]
      exact OneMarked.moved hlive.output found next
  | outputReleased lease ledger live found credits cleared =>
    subst cleared
    refine ⟨?_, ?_⟩
    . show ledger.taskLeases.OneMarked _ _
      rw [credits.taskLeases]
      exact hlive.task
    . show ledger.outputLeases.OneMarked _ _
      rw [credits.outputLeases]
      exact hlive.output.remove lease.leaseId
  | cancelled => exact ⟨Table.oneMarked_empty, Table.oneMarked_empty⟩
  | _ => exact ⟨hlive.task, hlive.output⟩

structure LivenessSingle (m : QueryResourceManager) : Prop where
  task : ∀ a ∈ m.taskLeases.values, ∀ b ∈ m.taskLeases.values,
    a.liveness = true → b.liveness = true → a = b
  activeTask : ∀ leaseId, m.activeLivenessTaskLeaseId = some leaseId →
    ∃ lease, m.taskLeases.find? leaseId = some lease
  activeOutput : ∀ leaseId, m.activeLivenessOutputLeaseId = some leaseId →
    ∃ lease, m.outputLeases.find? leaseId = some lease
  output : ∀ a ∈ m.outputLeases.values, ∀ b ∈ m.outputLeases.values,
    Escapes a → Escapes b → a = b

theorem LivenessTracked.single (h : m.LivenessTracked) : m.LivenessSingle where
  task := fun _ ha _ hb => h.task.eq ha hb
  activeTask := h.task.live
  activeOutput := h.output.live
  output := fun _ ha _ hb => h.output.eq ha hb

end QueryResourceManager

end Vane
