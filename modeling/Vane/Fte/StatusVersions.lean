import Vane.Fte.SourceQueues

/-!
This module contains the status that a task execution reports from its creation on.
-/

namespace Vane

open Py (keeps_bind keeps_get keeps_ite keeps_lift keeps_modify keeps_pure)

namespace FteTaskExecution

variable {e e' : FteTaskExecution} {source : String} {kind : SplitKind}

def Steady (e e' : FteTaskExecution) : Prop :=
  e'.status.state = e.status.state ∧ e.status.version ≤ e'.status.version

theorem steady_putQueues {queues : String → Option FteSplitQueue} (h : Steady e e') :
    Steady e (e'.putQueues kind queues) := by
  cases kind <;> exact h

theorem steady_closeQueue (h : Steady e e') : Steady e (closeQueue kind source e') := by
  unfold closeQueue
  split
  . exact h
  . exact steady_putQueues h

theorem keeps_write {α : Type} {f : FteTaskExecution → FteTaskExecution}
    {m : Py FteTaskExecution α} (hf : ∀ e', Steady e e' → Steady e (f e')) (hm : m.Keeps (Steady e)) :
    (do Py.modify f; m).Keeps (Steady e) :=
  keeps_bind (keeps_modify hf) fun _ => hm

theorem keeps_bumpIf {c : Prop} [Decidable c] {f : FteTaskExecution → FteTaskExecution}
    (hf : ∀ e, (f e).status = e.status) :
    (if c then Py.modify fun self => bumpVersion (f self) else pure ⟨⟩).Keeps (Steady e) := by
  refine keeps_ite (fun _ => keeps_modify fun e' h => ?_) fun _ => keeps_pure _
  unfold Steady bumpVersion
  rw [hf e']
  exact ⟨h.1, Nat.le_succ_of_le h.2⟩

theorem keeps_requireLive (message : String) : (requireLive message).Keeps (Steady e) :=
  keeps_bind keeps_get fun _ => keeps_lift _

theorem keeps_offerSplit {split : FteSplit} : (offerSplit kind source split).Keeps (Steady e) := by
  apply keeps_bind keeps_get
  intro self
  split
  . exact keeps_pure _
  . exact keeps_bind (keeps_lift _) fun queue => keeps_modify fun _ => steady_putQueues

theorem keeps_receiveEach (splits : List (Except PyError FteSplit)) :
    (receiveEach source splits).Keeps (Steady e) := by
  induction splits with
  | nil => exact keeps_pure _
  | cons split splits ih =>
    refine keeps_bind (keeps_lift _) fun split => keeps_bind keeps_get fun self => ?_
    apply keeps_ite
    . exact fun _ => keeps_write (fun _ h => h) ih
    . refine fun _ => keeps_write (fun _ h => h) (keeps_bind keeps_offerSplit fun _ => ?_)
      exact keeps_bind keeps_offerSplit fun _ => keeps_bind ih fun _ => keeps_pure _

theorem keeps_addSplits (payloads : List SplitPayload) :
    (addSplits source payloads).Keeps (Steady e) := by
  apply keeps_bind (keeps_requireLive _)
  refine fun _ => keeps_bind keeps_get fun self => keeps_bind (keeps_lift _) fun _ => ?_
  refine keeps_write (fun _ h => h) (keeps_bind (keeps_receiveEach _) fun added => ?_)
  exact keeps_bumpIf fun _ => rfl

theorem keeps_sealSource : (sealSource source).Keeps (Steady e) := by
  refine keeps_bind keeps_get fun self => keeps_ite (fun _ => keeps_pure _) fun _ => ?_
  refine keeps_write (fun _ h => h) (keeps_write (fun _ => steady_closeQueue) ?_)
  exact keeps_write (fun _ => steady_closeQueue) (keeps_pure _)

theorem keeps_noMoreSplits : (noMoreSplits source).Keeps (Steady e) := by
  apply keeps_bind (keeps_requireLive _)
  exact fun _ => keeps_bind keeps_sealSource fun changed => keeps_bumpIf fun _ => rfl

theorem keeps_addDynamicSources (sourceIds : Finset String) :
    (addDynamicSources kind sourceIds).Keeps (Steady e) := by
  refine keeps_bind keeps_get fun self => keeps_ite (fun _ => keeps_pure _) fun _ => ?_
  apply keeps_write
  . intro _ h
    cases kind <;> exact h
  . refine keeps_bind (keeps_lift _) fun created => ?_
    exact keeps_write (fun _ => steady_putQueues) (keeps_pure _)

theorem keeps_appendEachSource (entries : List (String × List FteSplit)) (changed : Bool) :
    (appendEachSource entries changed).Keeps (Steady e) := by
  induction entries generalizing changed with
  | nil => exact keeps_pure _
  | cons entry entries ih =>
    refine keeps_bind (keeps_bind keeps_get fun self => keeps_bind (keeps_lift _) fun _ => ?_)
      fun added => ih _
    exact keeps_write (fun _ h => h) (keeps_receiveEach _)

theorem keeps_sealEachSource (sources : List String) (changed : Bool) :
    (sealEachSource sources changed).Keeps (Steady e) := by
  induction sources generalizing changed with
  | nil => exact keeps_pure _
  | cons source sources ih => exact keeps_bind keeps_sealSource fun marked => ih _

theorem keeps_updateTask (update : FteTaskUpdateRequest) : (updateTask update).Keeps (Steady e) := by
  apply keeps_bind (keeps_requireLive _)
  refine fun _ => keeps_bind keeps_get fun self => keeps_bind (keeps_lift _) fun _ => ?_
  refine keeps_write (fun _ h => h) (keeps_bind (keeps_addDynamicSources _) fun scan => ?_)
  refine keeps_bind (keeps_addDynamicSources _) fun exchange => ?_
  refine keeps_bind (keeps_appendEachSource _ _) fun appended => ?_
  refine keeps_bind (keeps_sealEachSource _ _) fun marked => keeps_bind ?_ fun buffers => ?_
  . unfold mergeOutputBuffers
    split
    . exact keeps_pure _
    . refine keeps_bind keeps_get fun self => keeps_bind (keeps_lift _) fun merged => ?_
      split
      . exact keeps_pure _
      . exact keeps_write (fun _ h => h) (keeps_pure _)
  . refine keeps_bind (keeps_bind keeps_get fun self => ?_) fun filters => ?_
    . exact keeps_write (fun _ h => h) (keeps_pure _)
    . exact keeps_bumpIf fun _ => rfl

end FteTaskExecution

structure WorkerTask (α : Type) where
  execution : FteTaskExecution
  failure : Option (Dict String String) := none
  outputStats : Option α := none
  isRunning : Bool := false

namespace WorkerTask

variable {α : Type} {s s' : WorkerTask α} {state : FteTaskState}
  {failure : Option (Dict String String)} {stats : Option (Option α)}

abbrev status (s : WorkerTask α) : TaskStatus := s.execution.status

def transition (state : FteTaskState) (failure : Option (Dict String String)) (s : WorkerTask α) :
    WorkerTask α :=
  if s.status.state.isTerminal then s
  else { s with execution := s.execution.transition state, failure }

def launch (s : WorkerTask α) : WorkerTask α :=
  { s with execution := { s.execution with isStarted := true }, isRunning := true }

/-- The end of `_run`, which may come before or after the statistics of the output are stored. -/
def endRun (stored : Option (Option α)) (state : FteTaskState)
    (failure : Option (Dict String String)) (s : WorkerTask α) : WorkerTask α :=
  if s.isRunning then
    transition state failure { s with outputStats := stored.getD s.outputStats, isRunning := false }
  else
    s

inductive Call (α : Type) where
  | addSplits (sourceNodeId : String) (payloads : List SplitPayload)
  | noMoreSplits (sourceNodeId : String)
  | updateTask (update : FteTaskUpdateRequest)
  | queue
  | start
  | cancel
  | beginExecution
  | runReturns (outputStats : Option α)
  | runCancelled
  | runRaises (stored : Option (Option α)) (failure : Dict String String)

namespace Call

def step : Call α → WorkerTask α → WorkerTask α
  | addSplits source payloads, s =>
    { s with execution := (FteTaskExecution.addSplits source payloads s.execution).2 }
  | noMoreSplits source, s =>
    { s with execution := (FteTaskExecution.noMoreSplits source s.execution).2 }
  | updateTask update, s => { s with execution := (FteTaskExecution.updateTask update s.execution).2 }
  | queue, s =>
    if s.execution.isStarted ∨ s.status.state.isTerminal then s else s.transition .queued none
  | start, s => if s.execution.isStarted then s else (s.transition .running none).launch
  | cancel, s => s.transition .canceled none
  | beginExecution, s => { s with execution := { s.execution with
      executionStarted := s.execution.executionStarted || s.isRunning } }
  | runReturns outputStats, s => s.endRun (some outputStats) .finished none
  | runCancelled, s => s.endRun none .canceled none
  | runRaises stored failure, s => s.endRun stored .failed (some failure)

def stored : Call α → Option (Option α)
  | runReturns outputStats => some outputStats
  | runRaises stored _ => stored
  | _ => none

/-- The run does not store other statistics when the task has ended. -/
def Timely (call : Call α) (s : WorkerTask α) : Prop :=
  s.isRunning → s.status.state.isTerminal → ∀ outputStats ∈ call.stored, s.outputStats = outputStats

end Call

structure Reports (s s' : WorkerTask α) : Prop where
  version_le : s.status.version ≤ s'.status.version
  version_lt : s'.status.state ≠ s.status.state → s.status.version < s'.status.version
  terminal : s.status.state.isTerminal → s'.status.state = s.status.state ∧
    s'.failure = s.failure ∧ s'.outputStats = s.outputStats

theorem reports_of_steady (h : s.execution.Steady s'.execution) (hfailure : s'.failure = s.failure)
    (hstats : s'.outputStats = s.outputStats) : Reports s s' :=
  ⟨h.2, fun hne => absurd h.1 hne, fun _ => ⟨h.1, hfailure, hstats⟩⟩

theorem Reports.refl (s : WorkerTask α) : Reports s s := reports_of_steady ⟨rfl, le_rfl⟩ rfl rfl

theorem reports_of_live (hlive : ¬s.status.state.isTerminal)
    (h : s'.status = (s.execution.transition state).status) : Reports s s' := by
  unfold FteTaskExecution.transition at h
  rw [if_neg hlive] at h
  have hlt : s.status.version < s'.status.version := by
    rw [h]
    exact Nat.lt_succ_self _
  exact ⟨hlt.le, fun _ => hlt, fun hterminal => absurd hterminal hlive⟩

theorem reports_transition : Reports s (s.transition state failure) := by
  unfold transition
  split
  . exact .refl s
  . next hlive => exact reports_of_live hlive rfl

theorem reports_endRun_iff : Reports s (s.endRun stats state failure) ↔
    (s.isRunning → s.status.state.isTerminal → ∀ outputStats ∈ stats, s.outputStats = outputStats) := by
  unfold endRun
  split
  . next hrunning =>
    unfold transition
    split
    . next hterminal =>
      refine ⟨?_, fun h => reports_of_steady ⟨rfl, le_rfl⟩ rfl ?_⟩
      . rintro h _ _ outputStats rfl
        exact (h.terminal hterminal).2.2.symm
      . cases stats with
        | none => rfl
        | some outputStats => exact (h hrunning hterminal _ rfl).symm
    . next hlive => exact iff_of_true (reports_of_live hlive rfl) fun _ h => absurd h hlive
  . next hidle => exact iff_of_true (.refl s) fun h => absurd h hidle

theorem Call.reports_step_iff (call : Call α) : Reports s (call.step s) ↔ call.Timely s := by
  have hquiet : ∀ {call : Call α}, call.stored = none → Reports s (call.step s) →
      (Reports s (call.step s) ↔ call.Timely s) := fun hnone h =>
    iff_of_true h fun _ _ _ hstored => absurd (hnone.symm.trans hstored) nofun
  cases call with
  | addSplits source payloads =>
    exact hquiet rfl (reports_of_steady ((FteTaskExecution.keeps_addSplits payloads).state
      ⟨rfl, le_rfl⟩) rfl rfl)
  | noMoreSplits source =>
    exact hquiet rfl (reports_of_steady (FteTaskExecution.keeps_noMoreSplits.state
      ⟨rfl, le_rfl⟩) rfl rfl)
  | updateTask update =>
    exact hquiet rfl (reports_of_steady ((FteTaskExecution.keeps_updateTask update).state
      ⟨rfl, le_rfl⟩) rfl rfl)
  | queue =>
    apply hquiet rfl
    dsimp only [step]
    split
    . exact .refl s
    . exact reports_transition
  | start =>
    apply hquiet rfl
    dsimp only [step]
    split
    . exact .refl s
    . exact { (reports_transition : Reports s (s.transition .running none)) with }
  | cancel => exact hquiet rfl reports_transition
  | beginExecution => exact hquiet rfl (reports_of_steady ⟨rfl, le_rfl⟩ rfl rfl)
  | runReturns outputStats => exact reports_endRun_iff
  | runCancelled => exact reports_endRun_iff
  | runRaises stored failure => exact reports_endRun_iff

theorem status_versions_iff (calls : List (Call α)) (s : WorkerTask α) :
    Run.Always Call.step (fun call s => Reports s (call.step s)) calls s ↔
      Run.Always Call.step Call.Timely calls s := by
  have hstep : (fun call s => Reports s (call.step s)) = Call.Timely (α := α) := by
    funext call s
    exact propext call.reports_step_iff
  rw [hstep]

theorem started_after_cancel_changes_statistics :
    ∃ e, FteTaskExecution.new (FteTaskExecution.Sample.created ∅) 1 = .ok e ∧
      ¬Run.Always Call.step (fun call s => Reports s (call.step s))
        [.cancel, .start, .beginExecution, .runReturns (some 1)] { execution := e } := by
  refine ⟨_, rfl, ?_⟩
  rintro ⟨-, -, -, h, -⟩
  cases (h.terminal rfl).2.2

end WorkerTask

end Vane
