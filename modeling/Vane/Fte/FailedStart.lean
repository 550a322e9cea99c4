import Vane.Fte.FragmentMoves

/-! This module contains what a start of an attempt that raises leaves of its partition. -/

namespace Vane

namespace FteFragmentExecution

open FteTaskPartition (SameAttempts)

variable {s : FteFragmentExecution} {p : FteTaskPartition}

/-- A worker is selected and the partition takes another attempt. -/
def Starts (env : Environment) (p : FteTaskPartition) : Prop :=
  (∃ workerId, env.selectWorker p = .worker workerId) ∧ ¬(p.finished ∨ p.failed) ∧
    p.runningAttempts = ∅ ∧ p.remainingAttempts ≠ 0

def Unstarted (p : FteTaskPartition) (s : FteFragmentExecution) : Prop :=
  ∃ p', s.partitions.find? p.taskId.partitionId = some p' ∧ SameAttempts p p'

theorem keeps_onExchange {α : Type} (m : Py FteExchangeTracker α) :
    (onExchange m).Keeps (Unstarted p) := by
  apply Py.Keeps.of_state
  intro s h
  unfold onExchange
  split <;> exact h

theorem keeps_sinkInstanceFor : (sinkInstanceFor p).Keeps (Unstarted p) := by
  apply Py.keeps_bind Py.keeps_get
  intro self
  split
  . apply Py.keeps_bind
    . unfold sinkHandleFor
      split
      . exact Py.keeps_pure _
      . apply Py.keeps_bind (keeps_onExchange _)
        intro handle
        refine Py.keeps_bind (Py.Keeps.of_state ?_) fun _ => Py.keeps_pure _
        rintro s ⟨p', hp', hsame⟩
        unfold onPartition
        rw [hp']
        exact ⟨_, Dict.find?_insert_self _ _ _, { hsame with }⟩
    . intro handle
      split
      . exact Py.keeps_pure _
      . apply Py.keeps_bind (Py.keeps_lift _)
        intro n
        exact Py.keeps_bind (keeps_onExchange _) fun _ => Py.keeps_pure _
  . exact Py.keeps_pure _
  . exact Py.keeps_bind (Py.keeps_lift _) fun _ => Py.keeps_pure _

theorem ensures_startAttemptWithWorker (env : Environment)
    (hp : s.partitions.find? p.taskId.partitionId = some p) :
    (startAttemptWithWorker env p.taskId.partitionId).Ensures s (fun _ _ => True)
      fun e s' => Unstarted p s' ∨ Starts env p ∧ env.ensureFragmentRegistered p = .error e := by
  have hs : Unstarted p s := ⟨p, hp, SameAttempts.refl p⟩
  unfold startAttemptWithWorker
  rw [Py.ensures_bind, Py.ensures_read]
  refine ⟨?_, fun _ _ => .inl hs⟩
  unfold partition?
  rw [hp]
  rintro _ ⟨⟩
  split
  . trivial
  . exact .inl hs
  . next workerId hworker =>
    refine (keeps_sinkInstanceFor s hs).bind ?_ fun _ _ h => .inl h
    rintro sinkInstance s' ⟨p', hp', hsame⟩
    rw [Py.ensures_bind]
    apply ensures_onPartition_of hp'
    apply (FteTaskPartition.ensures_startAttempt sinkInstance workerId).mono
    . rintro scheduled p'' ⟨-, -, -, hopen, hidle, hleft, -⟩
      rw [Py.ensures_lift_bind]
      refine ⟨fun _ _ => trivial, fun e he => .inr ⟨⟨⟨workerId, hworker⟩, ?_, ?_, ?_⟩, he⟩⟩
      . rwa [← hsame.finished, ← hsame.failed]
      . rwa [← hsame.runningAttempts]
      . rwa [← hsame.remainingAttempts]
    . rintro _ _ rfl
      exact .inl ⟨_, Dict.find?_insert_self _ _ _, hsame⟩

theorem maxAttempts_default_pos : 0 < 4 := by decide

def holding (p : FteTaskPartition) : FteFragmentExecution where
  queryId := p.taskId.queryId
  fragmentExecutionId := p.taskId.fragmentExecutionId
  fragmentId := p.descriptor.fragmentId
  partitions := Dict.insert ∅ p.taskId.partitionId p
  maxAttempts_pos := maxAttempts_default_pos

theorem startAttemptWithWorker_holding {env : Environment} {e : PyError} (h : Starts env p)
    (he : env.ensureFragmentRegistered p = .error e) :
    ∃ s', startAttemptWithWorker env p.taskId.partitionId (holding p) = (.error e, s') ∧
      ¬Unstarted p s' := by
  obtain ⟨⟨workerId, hworker⟩, hopen, hidle, hleft⟩ := h
  have hp : (holding p).partitions.find? p.taskId.partitionId = some p := Dict.find?_insert_self _ _ _
  have hnext : p.nextAttemptNumber = .ok (p.maxAttempts - p.remainingAttempts) := by
    simp [FteTaskPartition.nextAttemptNumber, Except.raiseIf_of_not hleft]
  obtain ⟨sinkInstance, hsink⟩ :
      ∃ sinkInstance, sinkInstanceFor p (holding p) = (.ok sinkInstance, holding p) := by
    unfold sinkInstanceFor
    cases hinstance : p.descriptor.exchangeSinkInstance <;>
      simp [Py.bind_apply, holding, hnext]
  obtain ⟨scheduled, p', hstart⟩ : ∃ scheduled p',
      FteTaskPartition.startAttempt sinkInstance workerId p = (.ok scheduled, p') := by
    unfold FteTaskPartition.startAttempt
    simp [Py.bind_apply, Except.raiseIf, if_neg hopen, hidle, hnext]
  refine ⟨{ holding p with
    partitions := (holding p).partitions.insert p.taskId.partitionId p' }, ?_, ?_⟩
  . unfold startAttemptWithWorker
    simp [Py.bind_apply, partition?, hp, hworker, hsink, onPartition, hstart, he]
  . obtain ⟨-, -, -, -, -, -, rfl⟩ :=
      (FteTaskPartition.ensures_startAttempt sinkInstance workerId).of_ok hstart
    rintro ⟨_, hfound, hsame⟩
    cases (Dict.find?_insert_self _ _ _).symm.trans hfound
    have hrunning := congrArg (Dict.find? · (p.maxAttempts - p.remainingAttempts)) hsame.runningAttempts
    simp only [Dict.find?_insert_self, hidle, Dict.find?_empty] at hrunning
    cases hrunning

/-- The start of an attempt that raises leaves the attempts of the partition as they were, from every
state, exactly if the worker does not refuse the fragment of a partition that takes the attempt. -/
theorem failed_start_leaves_partition_iff (env : Environment) (p : FteTaskPartition) :
    (∀ s e s', s.partitions.find? p.taskId.partitionId = some p →
      startAttemptWithWorker env p.taskId.partitionId s = (.error e, s') → Unstarted p s') ↔
      (Starts env p → ∃ result, env.ensureFragmentRegistered p = .ok result) := by
  constructor
  . intro h hstarts
    cases he : env.ensureFragmentRegistered p with
    | ok result => exact ⟨result, rfl⟩
    | error e =>
      obtain ⟨s', hrun, hs'⟩ := startAttemptWithWorker_holding hstarts he
      exact absurd (h _ e s' (Dict.find?_insert_self _ _ _) hrun) hs'
  . intro h s e s' hp hrun
    have hensures := ensures_startAttemptWithWorker env hp
    unfold Py.Ensures at hensures
    rw [hrun] at hensures
    rcases hensures with hs' | ⟨hstarts, he⟩
    . exact hs'
    . obtain ⟨result, hresult⟩ := h hstarts
      cases he.symm.trans hresult

def refusing : Environment where
  ensureFragmentRegistered _ := .error (.runtimeError "FTE query registry is closing: q")

def openPartition : FteTaskPartition :=
  newPartition {
    queryId := "q"
    fragmentExecutionId := 0
    fragmentId := "f"
    maxAttempts_pos := maxAttempts_default_pos } 0 none none

theorem refused_start_keeps_running :
    (startAttemptWithWorker refusing 0 (holding openPartition)).1.isOk = false ∧
      ((startAttemptWithWorker refusing 0 (holding openPartition)).2.partitions.find? 0).map
        (·.runningAttempts.keys) = some [0] ∧
      (startAttemptWithWorker {} 0
        (startAttemptWithWorker refusing 0 (holding openPartition)).2).1.isOk = false := by
  decide +kernel

end FteFragmentExecution

end Vane
