import Vane.Fte.TaskExecutionLemmas

/-! This module contains the verification that the driver and the worker agree about a task. -/

namespace Vane

open Except (ok_of_bind)
open FteTaskExecution (Content Accepted Attempted)

inductive TaskMessage where
  | addSplits (sourceNodeId : String) (payloads : List SplitPayload)
  | noMoreSplits (sourceNodeId : String)
  | taskUpdate (update : FteTaskUpdateRequest)
  deriving DecidableEq

namespace TaskMessage

def toDescriptor : TaskMessage → Py TaskDescriptor Unit
  | addSplits sourceNodeId payloads => do
    let splits ← Py.lift (payloads.mapM (FteSplit.fromDict sourceNodeId))
    let _ ← TaskDescriptor.appendSplits sourceNodeId splits
    return ⟨⟩
  | noMoreSplits sourceNodeId => do
    let _ ← TaskDescriptor.markNoMoreSplits sourceNodeId
    return ⟨⟩
  | taskUpdate update => do
    let _ ← TaskDescriptor.applyTaskUpdate update
    return ⟨⟩

def toExecution : TaskMessage → Py FteTaskExecution Unit
  | addSplits sourceNodeId payloads => FteTaskExecution.addSplits sourceNodeId payloads
  | noMoreSplits sourceNodeId => FteTaskExecution.noMoreSplits sourceNodeId
  | taskUpdate update => FteTaskExecution.updateTask update

def content : TaskMessage → Content
  | addSplits sourceNodeId payloads =>
    FteTaskExecution.splitsContent sourceNodeId (FteTaskExecution.decoded sourceNodeId payloads)
  | noMoreSplits sourceNodeId => ⟨fun _ => [], {sourceNodeId}, none⟩
  | taskUpdate update => FteTaskExecution.updateContent update

end TaskMessage

namespace TaskDescriptor

variable {d d' : TaskDescriptor}

structure Takes (content : Content) (d d' : TaskDescriptor) : Prop where
  tidy : d'.Tidy
  splitsOf : ∀ s, d'.splitsOf s =
    (d.splitsOf s).appendNew FteSplit.sequenceId (content.splits s)
  noMoreSplits : d'.noMoreSplits = d.noMoreSplits ∪ content.complete
  outputBuffers : OutputBuffers.after d.outputBuffers content.outputBuffers = .ok d'.outputBuffers

theorem decoded_of_mapM {source : String} {payloads : List SplitPayload} {splits : List FteSplit}
    (h : payloads.mapM (FteSplit.fromDict source) = .ok splits) :
    FteTaskExecution.decoded source payloads = splits := by
  unfold FteTaskExecution.decoded
  induction payloads generalizing splits with
  | nil =>
    cases h
    rfl
  | cons payload payloads ih =>
    rw [List.mapM_cons] at h
    obtain ⟨split, hsplit, h⟩ := ok_of_bind h
    obtain ⟨rest, hrest, h⟩ := ok_of_bind h
    cases h
    rw [List.map_cons, hsplit, List.filterMap_cons]
    simp only [Except.toOption]
    rw [ih hrest]

theorem ensures_toDescriptor (h : d.Tidy) (message : TaskMessage) :
    message.toDescriptor.Ensures d (fun _ d' => Takes message.content d d') fun _ _ => True := by
  cases message with
  | addSplits source payloads =>
    unfold TaskMessage.toDescriptor
    rw [Py.ensures_lift_bind]
    refine ⟨fun splits hsplits => ?_, fun _ _ => trivial⟩
    refine (ensures_appendSplits h source splits).bind ?_ fun _ _ _ => trivial
    rintro added d' ⟨happended, -, hnew⟩
    refine ⟨happended.tidy, ?_, ?_, ?_⟩
    . intro s
      dsimp only [TaskMessage.content, FteTaskExecution.splitsContent, FteTaskExecution.single]
      rw [decoded_of_mapM hsplits, happended.splitsOf]
      split
      . next hs => rw [hs, hnew]
      . rw [List.append_nil]
        rfl
    . rw [happended.noMoreSplits]
      exact (Finset.union_empty _).symm
    . rw [happended.outputBuffers]
      rfl
  | noMoreSplits source =>
    refine (ensures_markNoMoreSplits source).bind ?_ fun _ _ _ => trivial
    rintro marked d' ⟨hmarked, -, hinitial, hseen, hbuffers⟩
    refine ⟨?_, ?_, ?_, ?_⟩
    . unfold Tidy
      rw [hseen, hinitial]
      exact h
    . intro s
      unfold splitsOf
      rw [hinitial]
      rfl
    . rw [hmarked, Finset.insert_eq, Finset.union_comm]
      rfl
    . rw [hbuffers]
      rfl
  | taskUpdate update =>
    refine (ensures_applyTaskUpdate h update).bind ?_ fun _ _ _ => trivial
    rintro changed d' ⟨hupdated, -⟩
    exact ⟨hupdated.tidy, hupdated.splitsOf, hupdated.noMoreSplits, hupdated.outputBuffers⟩

end TaskDescriptor

namespace FteTaskExecution

variable {e e' : FteTaskExecution} {content content' : Content}

theorem ensures_toExecution (h : e.Tidy) (message : TaskMessage) :
    message.toExecution.Ensures e (fun _ e' => Accepted message.content e e')
      fun _ e' => Attempted message.content e e' := by
  cases message with
  | addSplits source payloads => exact ensures_addSplits h source payloads
  | noMoreSplits source => exact ensures_noMoreSplits h source
  | taskUpdate update => exact ensures_updateTask h update

structure Known (content : Content) (e : FteTaskExecution) : Prop where
  splits : ∀ s, ∀ split ∈ content.splits s,
    split.sequenceId ∈ (e.splitsOf s).map FteSplit.sequenceId
  complete : content.complete ⊆ e.noMoreSplitSources
  outputBuffers : OutputBuffers.after e.outputBuffers content.outputBuffers = .ok e.outputBuffers

structure Unchanged (e e' : FteTaskExecution) : Prop where
  tidy : e'.Tidy
  splitsOf : ∀ s, e'.splitsOf s = e.splitsOf s
  noMoreSplitSources : e'.noMoreSplitSources = e.noMoreSplitSources
  outputBuffers : e'.outputBuffers = e.outputBuffers

theorem Accepted.known (h : Accepted content e e') : Known content e' := by
  refine ⟨?_, ?_, OutputBuffers.after_self h.outputBuffers⟩
  . intro s split hsplit
    rw [h.splitsOf, List.mem_map_appendNew]
    exact .inr (List.mem_map_of_mem hsplit)
  . rw [h.noMoreSplitSources]
    exact Finset.subset_union_right

theorem Known.later (h : Known content e) (haccepted : Accepted content' e e') :
    Known content e' := by
  refine ⟨?_, ?_, OutputBuffers.after_of_after haccepted.outputBuffers h.outputBuffers⟩
  . intro s split hsplit
    rw [haccepted.splitsOf, List.mem_map_appendNew]
    exact .inl (h.splits s split hsplit)
  . rw [haccepted.noMoreSplitSources]
    exact h.complete.trans Finset.subset_union_left

theorem Known.unchanged (h : Known content e) (hunchanged : Unchanged e e') : Known content e' := by
  refine ⟨?_, ?_, ?_⟩
  . intro s split hsplit
    rw [hunchanged.splitsOf]
    exact h.splits s split hsplit
  . rw [hunchanged.noMoreSplitSources]
    exact h.complete
  . rw [hunchanged.outputBuffers]
    exact h.outputBuffers

theorem Accepted.unchanged (h : Accepted content e e') (hknown : Known content e) :
    Unchanged e e' := by
  refine ⟨h.tidy, ?_, ?_, ?_⟩
  . intro s
    rw [h.splitsOf, List.appendNew_of_known (hknown.splits s)]
  . rw [h.noMoreSplitSources, Finset.union_eq_left.mpr hknown.complete]
  . exact Except.ok.inj (h.outputBuffers.symm.trans hknown.outputBuffers)

theorem Attempted.unchanged (h : Attempted content e e') (hknown : Known content e) :
    Unchanged e e' := by
  refine ⟨h.tidy, ?_, ?_, h.outputBuffers⟩
  . intro s
    obtain ⟨splits, hsub, hsplits⟩ := h.splitsOf s
    rw [hsplits, List.appendNew_of_known fun split hsplit => hknown.splits s split (hsub split hsplit)]
  . apply Finset.Subset.antisymm _ h.subset
    exact h.complete.trans (Finset.union_subset (Finset.Subset.refl _) hknown.complete)

end FteTaskExecution

structure TaskPair where
  descriptor : TaskDescriptor
  execution : FteTaskExecution
  sent : List TaskMessage

namespace TaskPair

variable {pair : TaskPair}

inductive Event where
  | send (message : TaskMessage)
  | resend (message : TaskMessage)
  | transition (state : FteTaskState)
  | beginExecution

namespace Event

def step : Event → TaskPair → TaskPair
  | send message, pair => {
      descriptor := (message.toDescriptor pair.descriptor).2
      execution := (message.toExecution pair.execution).2
      sent := pair.sent ++ [message] }
  | resend message, pair => { pair with execution := (message.toExecution pair.execution).2 }
  | transition state, pair => { pair with execution := pair.execution.transition state }
  | beginExecution, pair => { pair with execution := { pair.execution with executionStarted := true } }

def Fair : Event → TaskPair → Prop
  | send message, pair => (message.toDescriptor pair.descriptor).1.isOk ∧
      (message.toExecution pair.execution).1.isOk
  | resend message, pair => message ∈ pair.sent
  | transition _, _ => True
  | beginExecution, _ => True

end Event

structure Agree (d : TaskDescriptor) (e : FteTaskExecution) : Prop where
  splitsOf : ∀ s, e.splitsOf s = d.splitsOf s
  noMoreSplits : e.noMoreSplitSources = d.noMoreSplits
  outputBuffers : e.outputBuffers = d.outputBuffers

structure Agreed (pair : TaskPair) : Prop where
  agree : Agree pair.descriptor pair.execution
  descriptor : pair.descriptor.Tidy
  execution : pair.execution.Tidy
  known : ∀ message ∈ pair.sent, FteTaskExecution.Known message.content pair.execution

theorem Agreed.unchanged {e' : FteTaskExecution} (h : pair.Agreed)
    (hunchanged : FteTaskExecution.Unchanged pair.execution e') :
    Agreed { pair with execution := e' } := by
  refine ⟨⟨?_, ?_, ?_⟩, h.descriptor, hunchanged.tidy, ?_⟩
  . intro s
    rw [← h.agree.splitsOf]
    exact hunchanged.splitsOf s
  . exact hunchanged.noMoreSplitSources.trans h.agree.noMoreSplits
  . exact hunchanged.outputBuffers.trans h.agree.outputBuffers
  . exact fun message hmessage => (h.known message hmessage).unchanged hunchanged

theorem Agreed.send (h : pair.Agreed) {message : TaskMessage}
    (hfair : (Event.send message).Fair pair) : ((Event.send message).step pair).Agreed := by
  obtain ⟨_, htakes⟩ := (TaskDescriptor.ensures_toDescriptor h.descriptor message).of_isOk hfair.1
  obtain ⟨_, haccepted⟩ := (FteTaskExecution.ensures_toExecution h.execution message).of_isOk
    hfair.2
  refine ⟨⟨?_, ?_, ?_⟩, htakes.tidy, haccepted.tidy, ?_⟩
  . intro s
    refine (haccepted.splitsOf s).trans (Eq.trans ?_ (htakes.splitsOf s).symm)
    rw [h.agree.splitsOf]
  . refine haccepted.noMoreSplitSources.trans (Eq.trans ?_ htakes.noMoreSplits.symm)
    rw [h.agree.noMoreSplits]
  . have hboth := htakes.outputBuffers
    rw [← h.agree.outputBuffers, haccepted.outputBuffers] at hboth
    injection hboth
  . intro message' hmessage'
    rcases List.mem_append.mp hmessage' with hmessage' | hmessage'
    . exact (h.known message' hmessage').later haccepted
    . rw [List.mem_singleton.mp hmessage']
      exact haccepted.known

theorem Agreed.step (h : pair.Agreed) (event : Event) (hfair : event.Fair pair) :
    (event.step pair).Agreed := by
  cases event with
  | send message => exact h.send hfair
  | resend message =>
    have hknown := h.known message hfair
    apply h.unchanged
    exact ((FteTaskExecution.ensures_toExecution h.execution message).mono
      (fun _ _ haccepted => haccepted.unchanged hknown)
      fun _ _ hattempted => hattempted.unchanged hknown).state
  | transition state =>
    apply h.unchanged
    unfold FteTaskExecution.transition
    split
    . exact ⟨h.execution, fun _ => rfl, rfl, rfl⟩
    . exact ⟨h.execution, fun _ => rfl, rfl, rfl⟩
  | beginExecution => exact h.unchanged ⟨h.execution, fun _ => rfl, rfl, rfl⟩

theorem agreed_new {d : TaskDescriptor} (h : d.Tidy) {attemptNumber memoryRequirementBytes : ℕ}
    {sink : Option SinkInstance} {e : FteTaskExecution}
    (hnew : FteTaskExecution.new (d.toCreateTaskRequest attemptNumber sink)
      memoryRequirementBytes = .ok e) : Agreed ⟨d, e, []⟩ := by
  obtain ⟨scan, -, hnew⟩ := ok_of_bind hnew
  obtain ⟨exchange, -, hnew⟩ := ok_of_bind hnew
  cases hnew
  refine ⟨⟨fun _ => rfl, rfl, rfl⟩, h, ⟨?_, h.nodup⟩, by simp⟩
  intro s n
  dsimp only [TaskDescriptor.toCreateTaskRequest]
  unfold Dict.findD
  rw [Dict.find?_mapValues]
  cases d.initialSplits.find? s with
  | none => simp
  | some splits => simp

end TaskPair

structure TaskDescriptor.New (d : TaskDescriptor) : Prop where
  initialSplits : d.initialSplits = ∅
  seenSequences : d.seenSequences = ∅

namespace TaskMessage

def history (message : TaskMessage) (d : TaskDescriptor) : TaskDescriptor :=
  (message.toDescriptor d).2

def Fits (message : TaskMessage) (d : TaskDescriptor) : Prop := (message.toDescriptor d).1.isOk

end TaskMessage

theorem TaskDescriptor.New.tidy_run {d : TaskDescriptor} (hnew : d.New) {messages : List TaskMessage}
    (hfits : Run.Always TaskMessage.history TaskMessage.Fits messages d) :
    (Run.run TaskMessage.history messages d).Tidy := by
  apply Run.run_invariant_of_always TaskDescriptor.Tidy _ hfits
  . refine ⟨?_, ?_⟩
    . intro s n
      rw [hnew.initialSplits, hnew.seenSequences]
      rfl
    . intro s
      rw [hnew.initialSplits]
      exact List.nodup_nil
  . intro message d hfits htidy
    obtain ⟨_, htakes⟩ := (ensures_toDescriptor htidy message).of_isOk hfits
    exact htakes.tidy

namespace TaskPair

theorem driver_and_worker_agree (d : TaskDescriptor) (hnew : d.New) (earlier : List TaskMessage)
    (hearlier : Run.Always TaskMessage.history TaskMessage.Fits earlier d)
    (attemptNumber memoryRequirementBytes : ℕ) (sink : Option SinkInstance) (e : FteTaskExecution)
    (hcreated : FteTaskExecution.new
      ((Run.run TaskMessage.history earlier d).toCreateTaskRequest attemptNumber sink)
      memoryRequirementBytes = .ok e) (events : List Event)
    (hfair : Run.Always Event.step Event.Fair events
      ⟨Run.run TaskMessage.history earlier d, e, []⟩) :
    Agree (Run.run Event.step events ⟨Run.run TaskMessage.history earlier d, e, []⟩).descriptor
      (Run.run Event.step events ⟨Run.run TaskMessage.history earlier d, e, []⟩).execution := by
  have hbegin := agreed_new (hnew.tidy_run hearlier) hcreated
  exact (Run.run_invariant_of_always Agreed
    (fun event pair hfair h => Agreed.step h event hfair) hfair hbegin).agree

instance : (event : Event) → (pair : TaskPair) → Decidable (event.Fair pair)
  | .send _, _ => inferInstanceAs (Decidable (_ ∧ _))
  | .resend message, pair => inferInstanceAs (Decidable (message ∈ pair.sent))
  | .transition _, _ => inferInstanceAs (Decidable True)
  | .beginExecution, _ => inferInstanceAs (Decidable True)

instance (message : TaskMessage) (d : TaskDescriptor) : Decidable (message.Fits d) :=
  inferInstanceAs (Decidable (_ = true))

namespace Sample

def descriptor : TaskDescriptor where
  taskId := ⟨"q", 0, 0⟩
  fragmentId := "f"

def message (sequenceId : ℤ) : TaskMessage :=
  .addSplits "s" [{ sequenceId := some sequenceId, kind := some "scan_task" }]

def created : Except PyError FteTaskExecution :=
  FteTaskExecution.new ((Run.run TaskMessage.history [message 0] descriptor).toCreateTaskRequest 0 none) 1

def events : List Event :=
  [.send (message 1), .transition .running, .beginExecution, .resend (message 1),
    .send (.noMoreSplits "s"), .resend (message 1)]

end Sample

theorem driver_and_worker_agree_resent :
    ∃ e, Sample.created = .ok e ∧
      Run.Always Event.step Event.Fair Sample.events
        ⟨Run.run TaskMessage.history [Sample.message 0] Sample.descriptor, e, []⟩ ∧
      ((Run.run Event.step Sample.events
        ⟨Run.run TaskMessage.history [Sample.message 0] Sample.descriptor, e, []⟩).descriptor.splitsOf
          "s").length = 2 ∧
      Agree
        (Run.run Event.step Sample.events
          ⟨Run.run TaskMessage.history [Sample.message 0] Sample.descriptor, e, []⟩).descriptor
        (Run.run Event.step Sample.events
          ⟨Run.run TaskMessage.history [Sample.message 0] Sample.descriptor, e, []⟩).execution := by
  have hcreated : Sample.created.toOption.any (fun e =>
      Run.Always Event.step Event.Fair Sample.events
        ⟨Run.run TaskMessage.history [Sample.message 0] Sample.descriptor, e, []⟩ ∧
      ((Run.run Event.step Sample.events
        ⟨Run.run TaskMessage.history [Sample.message 0] Sample.descriptor, e, []⟩).descriptor.splitsOf
          "s").length = 2) = true := by
    decide +kernel
  rw [Option.any_eq_true] at hcreated
  obtain ⟨e, he, hfair⟩ := hcreated
  obtain ⟨hfair, hlength⟩ := of_decide_eq_true hfair
  have hnew := FteTaskExecution.eq_ok_of_toOption he
  exact ⟨e, hnew, hfair, hlength, driver_and_worker_agree Sample.descriptor ⟨rfl, rfl⟩ [Sample.message 0]
    (by decide +kernel) 0 1 none e hnew Sample.events hfair⟩

end TaskPair

end Vane
