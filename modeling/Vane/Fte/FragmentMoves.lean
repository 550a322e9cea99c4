import Vane.Fte.ExchangeLemmas
import Vane.Fte.FragmentExecution
import Vane.Fte.TaskDescriptorLemmas
import Vane.Fte.TaskPartitionLemmas
import Vane.Lib.Path

/-! This module contains the moves that the methods of a fragment execution are paths of. -/

namespace Vane

open FteExchangeSourceOutputSelector (recordAborted recordFinished)
open Py (ensures_bind ensures_get_bind ensures_ite ensures_lift_bind ensures_modify_bind)

namespace WorkerCommand

def attemptId : WorkerCommand → FteTaskAttemptId
  | createTask _ attemptId _ _ => attemptId
  | addSplits _ attemptId _ _ => attemptId
  | noMoreSplits _ attemptId _ => attemptId
  | taskUpdate _ attemptId _ => attemptId

def creates : WorkerCommand → Bool
  | createTask _ _ _ _ => true
  | _ => false

def splits (source : String) : WorkerCommand → List FteSplit
  | createTask _ _ _ request => request.initialSplits.findD source []
  | addSplits _ _ sourceNodeId splits => if sourceNodeId = source then splits else []
  | noMoreSplits _ _ _ => []
  | taskUpdate _ _ update => update.initialSplits.findD source []

def complete : WorkerCommand → Finset String
  | createTask _ _ _ request => request.noMoreSplits
  | addSplits _ _ _ _ => ∅
  | noMoreSplits _ _ sourceNodeId => {sourceNodeId}
  | taskUpdate _ _ update => update.noMoreSplits.toFinset

end WorkerCommand

namespace FteExchangeTracker

variable {t : FteExchangeTracker}

def Won (t : FteExchangeTracker) (k a : ℤ) : Prop :=
  t.finishedAttempts.Has k a ∨ t.selectedAttempts.find? k = some a ∨
    t.outputSelector.finishedAttempts.Has k a ∨ t.outputSelector.selectedAttempts.find? k = some a

def Lost (t : FteExchangeTracker) (k a : ℤ) : Prop :=
  t.abortedAttempts.Has k a ∨ t.outputSelector.abortedAttempts.Has k a

instance (t : FteExchangeTracker) (k a : ℤ) : Decidable (t.Lost k a) :=
  inferInstanceAs (Decidable (_ ∨ _))

theorem ensures_addSink (k : ℤ) :
    (addSink k).Ensures t
      (fun handle t' => t'.sinks.find? k = some handle ∧
        (t' = t ∨ handle.partitionId = k ∧ t' = { t with sinks := t.sinks.insert k handle }))
      fun _ t' => t' = t := by
  unfold addSink
  rw [ensures_lift_bind]
  refine ⟨fun k' hk => ?_, fun _ _ => rfl⟩
  obtain ⟨rfl, -⟩ := checkNonNegative_eq_ok hk
  rw [ensures_get_bind]
  split
  . next handle hfound => exact ⟨hfound, .inl rfl⟩
  . rw [ensures_ite]
    refine ⟨fun _ => rfl, fun _ => ?_⟩
    rw [ensures_bind, Py.ensures_set, Py.ensures_pure]
    exact ⟨Dict.find?_insert_self _ _ _, .inr ⟨rfl, rfl⟩⟩

theorem ensures_recordAborted (s : FteExchangeSourceOutputSelector) (k a : ℕ) :
    (recordAborted k a).Ensures s
      (fun _ s' => s' = s ∨ s' = { s with
        abortedAttempts := s.abortedAttempts.addAttempt k a })
      fun _ _ => False := by
  unfold recordAborted
  rw [ensures_get_bind, ensures_ite]
  refine ⟨fun _ => .inl rfl, fun _ => ?_⟩
  rw [checkNonNegative_natCast, checkNonNegative_natCast]
  exact .inr rfl

theorem ensures_sinkAborted {handle : ExchangeSinkHandle} {k : ℕ} (hk : handle.partitionId = k)
    (a : ℕ) :
    (sinkAborted handle a).Ensures t
      (fun _ t' => t'.sinks = t.sinks ∧ (∀ k' a', t'.Won k' a' ↔ t.Won k' a') ∧
        ∀ k' a', t'.Lost k' a' → t.Lost k' a' ∨ k' = k ∧ a' = a)
      fun _ t' => t' = t := by
  unfold sinkAborted onSelector
  rw [ensures_bind, Py.ensures_read]
  refine ⟨fun _ _ => ?_, fun _ _ => rfl⟩
  rw [ensures_modify_bind, checkNonNegative_natCast, ensures_bind,
    Py.ensures_lift_ok, ensures_modify_bind, Py.ensures_zoom, hk]
  apply (ensures_recordAborted _ k a).mono
  . rintro _ s (rfl | rfl)
    . refine ⟨rfl, fun _ _ => Iff.rfl, ?_⟩
      simp only [Lost, AttemptSets.has_addAttempt, AttemptSets.has_setDefault]
      tauto
    . refine ⟨rfl, fun _ _ => Iff.rfl, ?_⟩
      simp only [Lost, AttemptSets.has_addAttempt, AttemptSets.has_setDefault]
      tauto
  . exact fun _ _ h => h.elim

theorem ensures_recordFinished (s : FteExchangeSourceOutputSelector) (k a : ℕ) :
    (recordFinished k a).Ensures s
      (fun _ s' => s'.abortedAttempts = s.abortedAttempts ∧
        s'.finishedAttempts = s.finishedAttempts.addAttempt k a ∧
        (s'.selectedAttempts = s.selectedAttempts ∨
          s'.selectedAttempts = s.selectedAttempts.insert k a))
      fun _ s' => s' = s := by
  unfold recordFinished
  rw [checkNonNegative_natCast, checkNonNegative_natCast, ensures_bind, Py.ensures_lift_ok,
    ensures_bind, Py.ensures_lift_ok, ensures_get_bind, ensures_ite]
  refine ⟨fun _ => ?_, fun _ => ?_⟩
  . rw [ensures_ite]
    exact ⟨fun _ => rfl, fun _ => ⟨rfl, rfl, .inl rfl⟩⟩
  . rw [ensures_bind, Py.ensures_set, ensures_ite]
    exact ⟨fun _ => ⟨rfl, rfl, .inl rfl⟩, fun _ => ⟨rfl, rfl, .inr rfl⟩⟩

theorem eq_of_find?_insert {d : Dict ℤ ℤ} {k a k' a' : ℤ}
    (h : (d.insert k a).find? k' = some a') : d.find? k' = some a' ∨ k' = k ∧ a' = a := by
  rw [Dict.find?_insert] at h
  split at h
  . next hk =>
    cases h
    exact .inr ⟨hk, rfl⟩
  . exact .inl h

theorem ensures_sinkFinished {handle : ExchangeSinkHandle} {k : ℕ} (hk : handle.partitionId = k)
    (a : ℕ) :
    (sinkFinished handle a).Ensures t
      (fun _ t' => t'.sinks = t.sinks ∧ (∀ k' a', t'.Lost k' a' ↔ t.Lost k' a') ∧
        ∀ k' a', t'.Won k' a' → t.Won k' a' ∨ k' = k ∧ a' = a)
      fun _ t' => t' = t := by
  unfold sinkFinished onSelector
  rw [ensures_bind, Py.ensures_read]
  refine ⟨fun _ _ => ?_, fun _ _ => rfl⟩
  rw [checkNonNegative_natCast, ensures_bind, Py.ensures_lift_ok, ensures_bind, Py.ensures_zoom, hk]
  apply (ensures_recordFinished _ k a).mono
  . rintro selected s ⟨haborted, hfinished, hselected⟩
    rw [ensures_modify_bind, ensures_ite]
    have hselector : ∀ k' a', s.selectedAttempts.find? k' = some a' →
        t.outputSelector.selectedAttempts.find? k' = some a' ∨ k' = k ∧ a' = a := by
      intro k' a' h
      rcases hselected with heq | heq
      . rw [heq] at h
        exact .inl h
      . rw [heq] at h
        exact eq_of_find?_insert h
    refine ⟨fun _ => ⟨rfl, ?_, ?_⟩, fun _ => ⟨rfl, ?_, ?_⟩⟩
    . intro k' a'
      simp only [Lost, haborted]
    . intro k' a'
      simp only [Won, hfinished, AttemptSets.has_addAttempt]
      rintro ((h | h) | h | (h | h) | h)
      . exact .inr h
      . exact .inl (.inl h)
      . rcases eq_of_find?_insert h with h | h
        . exact .inl (.inr (.inl h))
        . exact .inr h
      . exact .inr h
      . exact .inl (.inr (.inr (.inl h)))
      . rcases hselector k' a' h with h | h
        . exact .inl (.inr (.inr (.inr h)))
        . exact .inr h
    . intro k' a'
      simp only [Lost, haborted]
    . intro k' a'
      simp only [Won, hfinished, AttemptSets.has_addAttempt]
      rintro ((h | h) | h | (h | h) | h)
      . exact .inr h
      . exact .inl (.inl h)
      . exact .inl (.inr (.inl h))
      . exact .inr h
      . exact .inl (.inr (.inr (.inl h)))
      . rcases hselector k' a' h with h | h
        . exact .inl (.inr (.inr (.inr h)))
        . exact .inr h
  . rintro _ s rfl
    rfl

end FteExchangeTracker

namespace FteTaskPartition

variable {p p' : FteTaskPartition}

structure Carries (commands : List WorkerCommand) (p p' : FteTaskPartition) : Prop where
  addressed : ∀ command ∈ commands, command.creates = false ∧
    ∃ a running, p.runningAttempts.find? a = some running ∧ command.attemptId = running.attemptId
  tidy : p.descriptor.Tidy → p'.descriptor.Tidy
  splits : p.descriptor.Tidy → ∀ a running, p.runningAttempts.find? a = some running → ∀ source,
    p'.descriptor.splitsOf source = (p.descriptor.splitsOf source).appendNew FteSplit.sequenceId
      (commands.flatMap (·.splits source))
  complete : p.descriptor.Tidy → ∀ a running, p.runningAttempts.find? a = some running → ∀ source,
    source ∈ p'.descriptor.noMoreSplits ↔
      source ∈ p.descriptor.noMoreSplits ∨ ∃ command ∈ commands, source ∈ command.complete

theorem carries_nil (hsplits : p'.descriptor.initialSplits = p.descriptor.initialSplits)
    (hseen : p'.descriptor.seenSequences = p.descriptor.seenSequences)
    (hmarked : p'.descriptor.noMoreSplits = p.descriptor.noMoreSplits) : Carries [] p p' := by
  refine ⟨by simp, fun h => ?_, fun _ _ _ _ s => ?_, fun _ _ _ _ s => ?_⟩
  . unfold TaskDescriptor.Tidy
    rw [hsplits, hseen]
    exact h
  . unfold TaskDescriptor.splitsOf
    rw [hsplits]
    rfl
  . simp [hmarked]

structure Touched (p p' : FteTaskPartition) : Prop where
  same : SameAttempts p p'
  sinkHandle : p'.sinkHandle = p.sinkHandle
  initialSplits : p'.descriptor.initialSplits = p.descriptor.initialSplits
  seenSequences : p'.descriptor.seenSequences = p.descriptor.seenSequences
  noMoreSplits : p'.descriptor.noMoreSplits = p.descriptor.noMoreSplits

theorem Touched.refl (p : FteTaskPartition) : Touched p p :=
  ⟨SameAttempts.refl p, rfl, rfl, rfl, rfl⟩

theorem Touched.carries (h : Touched p p') : Carries [] p p' :=
  carries_nil h.initialSplits h.seenSequences h.noMoreSplits

theorem Orderly.erase_running {p : FteTaskPartition} (h : p.Orderly) {a : ℕ}
    {running : RunningAttempt} (ha : p.runningAttempts.find? a = some running) :
    p.runningAttempts.erase a = ∅ := by
  have hnone : ∀ k, (p.runningAttempts.erase a).find? k = none := by
    intro k
    rw [Dict.find?_erase]
    split
    . rfl
    . next hne =>
      cases hk : p.runningAttempts.find? k with
      | none => rfl
      | some r => exact absurd ((h.running k r hk).1.trans (h.running a running ha).1.symm) hne
  apply Dict.ext
  rw [Dict.entries_empty, List.eq_nil_iff_forall_not_mem]
  intro e he
  have hfound := Dict.find?_eq_some_iff.mpr he
  rw [hnone] at hfound
  cases hfound

def Loses (attempt : FteTaskAttemptId) (p p' : FteTaskPartition) : Prop :=
  p' = p ∧ (attempt.taskId ≠ p.taskId ∨ p.finished ∨
    p.runningAttempts.find? attempt.attemptId = none) ∨
  p'.descriptor = p.descriptor ∧ p'.sinkHandle = p.sinkHandle ∧
    ∃ running error retries, p.runningAttempts.find? attempt.attemptId = some running ∧
      ¬p.finished ∧ (p.remainingAttempts - 1 = 0 → retries = false) ∧
      SameAttempts { p.loseAttempt attempt.attemptId error with failed := p.failed || !retries } p'

theorem Loses.effect {attempt : FteTaskAttemptId} (h : Loses attempt p p') :
    Effect p [] p' ∧ p'.taskId = p.taskId ∧ p'.sinkHandle = p.sinkHandle ∧
      p'.descriptor = p.descriptor ∧ p'.selectedAttempt = p.selectedAttempt := by
  rcases h with ⟨rfl, -⟩ | ⟨hdescriptor, hhandle, running, error, retries, hfound, hnot, hzero, hsame⟩
  . exact ⟨.quiet (SameAttempts.refl _), rfl, rfl, rfl, rfl⟩
  . exact ⟨.lost _ running error retries hfound hnot hzero hsame, hsame.taskId, hhandle, hdescriptor,
      hsame.selectedAttempt⟩

end FteTaskPartition

namespace FteFragmentExecution

variable {won lost : ℤ → ℤ → Prop} {p : FteTaskPartition} {id : ℕ} (command : WorkerCommand)

open FteTaskPartition (SameAttempts Effect Carries Loses)

variable {s s' s'' : FteFragmentExecution}

def Won (s : FteFragmentExecution) (k a : ℤ) : Prop := ∃ t, s.exchange = some t ∧ t.Won k a

def Lost (s : FteFragmentExecution) (k a : ℤ) : Prop := ∃ t, s.exchange = some t ∧ t.Lost k a

def Keyed (s : FteFragmentExecution) : Prop :=
  ∀ t k handle, s.exchange = some t → t.sinks.find? k = some handle → handle.partitionId = k

structure Exchanged (won lost : ℤ → ℤ → Prop) (s s' : FteFragmentExecution) : Prop where
  won : ∀ k a, s'.Won k a → s.Won k a ∨ won k a
  lost : ∀ k a, s'.Lost k a → s.Lost k a ∨ lost k a
  keyed : s.Keyed → s'.Keyed

def never (_ _ : ℤ) : Prop := False

def only (partitionId attemptNumber : ℕ) (k a : ℤ) : Prop := k = partitionId ∧ a = attemptNumber

theorem Exchanged.of_eq (h : s'.exchange = s.exchange) : Exchanged won lost s s' := by
  refine ⟨?_, ?_, ?_⟩
  . intro k a
    unfold Won
    rw [h]
    exact .inl
  . intro k a
    unfold Lost
    rw [h]
    exact .inl
  . unfold Keyed
    rw [h]
    exact id

theorem Exchanged.congr (h : Exchanged won lost s s')
    (heq : s''.exchange = s'.exchange) : Exchanged won lost s s'' := by
  refine ⟨?_, ?_, ?_⟩
  . intro k a hwon
    apply h.won
    unfold Won at *
    rw [← heq]
    exact hwon
  . intro k a hlost
    apply h.lost
    unfold Lost at *
    rw [← heq]
    exact hlost
  . intro hkeyed t k handle ht
    rw [heq] at ht
    exact h.keyed hkeyed t k handle ht

structure Leaves (s s' : FteFragmentExecution) : Prop where
  queryId : s'.queryId = s.queryId
  fragmentExecutionId : s'.fragmentExecutionId = s.fragmentExecutionId
  partitions : s'.partitions.find? = s.partitions.find?

structure Puts (partitionId : ℕ) (p : FteTaskPartition) (s s' : FteFragmentExecution) : Prop where
  queryId : s'.queryId = s.queryId
  fragmentExecutionId : s'.fragmentExecutionId = s.fragmentExecutionId
  partitions : s'.partitions.find? = Function.update s.partitions.find? partitionId (some p)

inductive Move (G : FteTaskPartition → FteTaskAttemptId → Prop) (s : FteFragmentExecution) :
    List WorkerCommand → FteFragmentExecution → Prop where
  | quiet {s' : FteFragmentExecution} (leaves : Leaves s s') (exchange : Exchanged never never s s') :
      Move G s [] s'
  | added {s' : FteFragmentExecution} (partitionId : ℕ) (handle : Option ExchangeSinkHandle)
      (nodeRequirements : Option NodeRequirements)
      (free : s.partitions.find? partitionId = none)
      (keyed : ∀ h, handle = some h → h.partitionId = partitionId)
      (puts : Puts partitionId (s.newPartition partitionId handle nodeRequirements) s s')
      (exchange : Exchanged never never s s') : Move G s [] s'
  | updated {s' : FteFragmentExecution} {commands : List WorkerCommand} (partitionId : ℕ)
      (p p' : FteTaskPartition) (found : s.partitions.find? partitionId = some p)
      (same : SameAttempts p p')
      (handle : p'.sinkHandle = p.sinkHandle ∨
        ∀ h, p'.sinkHandle = some h → h.partitionId = partitionId)
      (carries : Carries commands p p') (puts : Puts partitionId p' s s')
      (exchange : Exchanged never never s s') : Move G s commands s'
  | started {s' : FteFragmentExecution} (partitionId : ℕ) (p p' : FteTaskPartition)
      (running : RunningAttempt) (command : WorkerCommand)
      (found : s.partitions.find? partitionId = some p)
      (this : running.attemptId = ⟨p.taskId, p.maxAttempts - p.remainingAttempts⟩)
      (isOpen : ¬(p.finished ∨ p.failed)) (isIdle : p.runningAttempts = ∅)
      (left : p.remainingAttempts ≠ 0)
      (same : SameAttempts { p with
        runningAttempts := p.runningAttempts.insert (p.maxAttempts - p.remainingAttempts) running }
        p')
      (handle : p'.sinkHandle = p.sinkHandle) (descriptor : p'.descriptor = p.descriptor)
      (creates : command.creates) (addressed : command.attemptId = running.attemptId)
      (splits : ∀ source, command.splits source = p.descriptor.splitsOf source)
      (complete : command.complete = p.descriptor.noMoreSplits) (puts : Puts partitionId p' s s')
      (exchange : Exchanged never never s s') : Move G s [command] s'
  | failed {s' : FteFragmentExecution} (partitionId : ℕ) (attempt : FteTaskAttemptId)
      (p p' : FteTaskPartition) (guarded : G p attempt)
      (found : s.partitions.find? partitionId = some p) (loses : Loses attempt p p')
      (puts : Puts partitionId p' s s')
      (exchange : Exchanged never (only partitionId attempt.attemptId) s s') : Move G s [] s'

inductive Stray (s s' : FteFragmentExecution) : Prop where
  | quiet (leaves : Leaves s s') (exchange : Exchanged never never s s')
  | effect (partitionId : ℕ) (p p' : FteTaskPartition) (numbers : List ℕ)
      (found : s.partitions.find? partitionId = some p) (effect : Effect p numbers p')
      (selected : p'.selectedAttempt = p.selectedAttempt) (handle : p'.sinkHandle = p.sinkHandle)
      (puts : Puts partitionId p' s s') (exchange : Exchanged never never s s')

inductive Finished (s s' : FteFragmentExecution) : Prop where
  | finished (partitionId a : ℕ) (p p' : FteTaskPartition) (running : RunningAttempt)
      (found : s.partitions.find? partitionId = some p)
      (runs : p.runningAttempts.find? a = some running)
      (same : SameAttempts { p with
        finished := true
        failed := false
        selectedAttempt := some a
        runningAttempts := ∅ } p')
      (handle : p'.sinkHandle = p.sinkHandle) (descriptor : p'.descriptor = p.descriptor)
      (puts : Puts partitionId p' s s') (exchange : Exchanged (only partitionId a) never s s')

/-! The invariant that the moves are made under. -/

structure Sound (s : FteFragmentExecution) : Prop where
  taskId : ∀ id p, s.partitions.find? id = some p → p.taskId = s.taskIdOf id
  orderly : ∀ id p, s.partitions.find? id = some p → p.Orderly
  sinkHandle : ∀ id p handle, s.partitions.find? id = some p → p.sinkHandle = some handle →
    handle.partitionId = id
  keyed : s.Keyed

theorem Leaves.taskIdOf (h : Leaves s s') (id : ℕ) : s'.taskIdOf id = s.taskIdOf id := by
  unfold FteFragmentExecution.taskIdOf
  rw [h.queryId, h.fragmentExecutionId]

theorem Puts.taskIdOf (h : Puts id p s s') (id' : ℕ) : s'.taskIdOf id' = s.taskIdOf id' := by
  unfold FteFragmentExecution.taskIdOf
  rw [h.queryId, h.fragmentExecutionId]

theorem Puts.leaves (h : Puts id p s s') (h' : Leaves s' s'') : Puts id p s s'' :=
  ⟨h'.queryId.trans h.queryId, h'.fragmentExecutionId.trans h.fragmentExecutionId,
    h'.partitions.trans h.partitions⟩

theorem Puts.find? (h : Puts id p s s') (id' : ℕ) :
    s'.partitions.find? id' = if id' = id then some p else s.partitions.find? id' := by
  rw [h.partitions, Function.update_apply]

theorem Sound.leaves (h : s.Sound) (hleaves : Leaves s s')
    (hexchange : Exchanged won lost s s') : s'.Sound where
  taskId := by
    intro id p hp
    rw [hleaves.partitions] at hp
    rw [hleaves.taskIdOf]
    exact h.taskId id p hp
  orderly := by
    rw [hleaves.partitions]
    exact h.orderly
  sinkHandle := by
    rw [hleaves.partitions]
    exact h.sinkHandle
  keyed := hexchange.keyed h.keyed

theorem Sound.puts (h : s.Sound) (hputs : Puts id p s s') (hexchange : Exchanged won lost s s')
    (htaskId : p.taskId = s.taskIdOf id) (horderly : p.Orderly)
    (hhandle : ∀ handle, p.sinkHandle = some handle → handle.partitionId = id) : s'.Sound := by
  refine ⟨?_, ?_, ?_, hexchange.keyed h.keyed⟩
  . intro id' p' hp'
    rw [hputs.find?] at hp'
    rw [hputs.taskIdOf]
    split at hp'
    . next hid =>
      cases hp'
      rw [hid]
      exact htaskId
    . exact h.taskId id' p' hp'
  . intro id' p' hp'
    rw [hputs.find?] at hp'
    split at hp'
    . cases hp'
      exact horderly
    . exact h.orderly id' p' hp'
  . intro id' p' handle hp' hp
    rw [hputs.find?] at hp'
    split at hp'
    . next hid =>
      cases hp'
      rw [hid]
      exact hhandle handle hp
    . exact h.sinkHandle id' p' handle hp' hp

theorem orderly_newPartition (id : ℕ) (handle : Option ExchangeSinkHandle)
    (nodeRequirements : Option NodeRequirements) :
    (s.newPartition id handle nodeRequirements).Orderly :=
  ⟨by simp [newPartition], by simp [newPartition], fun _ _ h => by simp [newPartition] at h, rfl⟩

theorem Move.sound {G : FteTaskPartition → FteTaskAttemptId → Prop} {commands : List WorkerCommand}
    (h : Move G s commands s') (hs : s.Sound) : s'.Sound := by
  cases h with
  | quiet leaves exchange => exact hs.leaves leaves exchange
  | added id handle nodeRequirements free keyed puts exchange =>
    exact hs.puts puts exchange rfl (orderly_newPartition _ _ _) keyed
  | updated id p p' found same handle carries puts exchange =>
    refine hs.puts puts exchange ?_ ((hs.orderly id p found).congr same) ?_
    . rw [same.taskId]
      exact hs.taskId id p found
    . intro h hh
      rcases handle with heq | hkeyed
      . rw [heq] at hh
        exact hs.sinkHandle id p h found hh
      . exact hkeyed h hh
  | started id p p' running command found this isOpen isIdle left same handle descriptor =>
    next puts exchange =>
    refine hs.puts puts exchange ?_
      ((hs.orderly id p found).effect (.started running this isOpen isIdle left same)) ?_
    . rw [same.taskId]
      exact hs.taskId id p found
    . rw [handle]
      exact fun h => hs.sinkHandle id p h found
  | failed id attempt p p' guarded found loses puts exchange =>
    obtain ⟨heffect, htaskId, hhandle, -⟩ := loses.effect
    refine hs.puts puts exchange ?_ ((hs.orderly id p found).effect heffect) ?_
    . rw [htaskId]
      exact hs.taskId id p found
    . rw [hhandle]
      exact fun h => hs.sinkHandle id p h found

theorem Stray.sound (h : Stray s s') (hs : s.Sound) : s'.Sound := by
  cases h with
  | quiet leaves exchange => exact hs.leaves leaves exchange
  | effect id p p' numbers found effect selected handle puts exchange =>
    refine hs.puts puts exchange ?_ ((hs.orderly id p found).effect effect) ?_
    . rw [effect.taskId]
      exact hs.taskId id p found
    . rw [handle]
      exact fun h => hs.sinkHandle id p h found

theorem Stray.congr (h : Stray s s') (hleaves : Leaves s' s'') (hexchange : s''.exchange = s'.exchange) :
    Stray s s'' := by
  cases h with
  | quiet leaves exchange =>
    exact .quiet ⟨hleaves.queryId.trans leaves.queryId,
      hleaves.fragmentExecutionId.trans leaves.fragmentExecutionId,
      hleaves.partitions.trans leaves.partitions⟩ (exchange.congr hexchange)
  | effect id p p' numbers found effect selected handle puts exchange =>
    exact .effect id p p' numbers found effect selected handle (puts.leaves hleaves)
      (exchange.congr hexchange)

theorem Finished.sound (h : Finished s s') (hs : s.Sound) : s'.Sound := by
  cases h with
  | finished id a p p' running found runs same handle descriptor puts exchange =>
    refine hs.puts puts exchange ?_
      ((hs.orderly id p found).effect (.finished a running runs same)) ?_
    . rw [same.taskId]
      exact hs.taskId id p found
    . rw [handle]
      exact fun h => hs.sinkHandle id p h found

/-! Methods as paths of moves. -/

def Recorded (commands : List WorkerCommand) (s s' : FteFragmentExecution) : Prop :=
  s'.currentWorkerCommands = s.currentWorkerCommands.map (· ++ commands) ∧
    s'.workerCommandOutbox =
      s.workerCommandOutbox ++ if s.currentWorkerCommands.isSome then [] else commands

theorem recorded_nil (hcurrent : s'.currentWorkerCommands = s.currentWorkerCommands)
    (houtbox : s'.workerCommandOutbox = s.workerCommandOutbox) : Recorded [] s s' := by
  unfold Recorded
  simp [hcurrent, houtbox]

theorem Recorded.trans {commands commands' : List WorkerCommand} (h : Recorded commands s s')
    (h' : Recorded commands' s' s'') : Recorded (commands ++ commands') s s'' := by
  unfold Recorded at *
  rw [h'.1, h'.2, h.1, h.2]
  cases s.currentWorkerCommands <;> simp

theorem recorded_recordWorkerCommand (s : FteFragmentExecution) :
    Recorded [command] s (s.recordWorkerCommand command) := by
  unfold Recorded recordWorkerCommand
  cases s.currentWorkerCommands <;> simp

theorem leaves_recordWorkerCommand (s : FteFragmentExecution) :
    Leaves s (s.recordWorkerCommand command) := by
  unfold recordWorkerCommand
  cases s.currentWorkerCommands <;> exact ⟨rfl, rfl, rfl⟩

theorem exchange_recordWorkerCommand (s : FteFragmentExecution) :
    (s.recordWorkerCommand command).exchange = s.exchange := by
  unfold recordWorkerCommand
  cases s.currentWorkerCommands <;> rfl

section Traces

variable (G : FteTaskPartition → FteTaskAttemptId → Prop)

def Trace (s s' : FteFragmentExecution) : Prop :=
  ∃ commands, LogPath (Move G) s commands s' ∧ Recorded commands s s'

def Broken (s s' : FteFragmentExecution) : Prop :=
  ∃ commands s₁, LogPath (Move G) s commands s₁ ∧ Stray s₁ s'

def Traces {α : Type} (s : FteFragmentExecution) (m : Py FteFragmentExecution α)
    (Q : α → FteFragmentExecution → Prop) : Prop :=
  m.Ensures s (fun a s' => Trace G s s' ∧ Q a s') fun _ s' => Broken G s s'

variable {G} {α β : Type}

theorem Trace.of_move {commands : List WorkerCommand} (h : Move G s commands s')
    (hrecorded : Recorded commands s s') : Trace G s s' :=
  ⟨commands, .single h, hrecorded⟩

theorem Trace.refl (s : FteFragmentExecution) : Trace G s s := ⟨[], .refl, recorded_nil rfl rfl⟩

theorem Trace.trans (h : Trace G s s') (h' : Trace G s' s'') : Trace G s s'' := by
  obtain ⟨commands, hpath, hrecorded⟩ := h
  obtain ⟨commands', hpath', hrecorded'⟩ := h'
  exact ⟨commands ++ commands', hpath.trans hpath', hrecorded.trans hrecorded'⟩

theorem Trace.sound (h : Trace G s s') (hs : s.Sound) : s'.Sound := by
  obtain ⟨commands, hpath, -⟩ := h
  exact hpath.keeps Sound (fun _ _ _ hs hmove => hmove.sound hs) hs

theorem Stray.refl (s : FteFragmentExecution) : Stray s s := .quiet ⟨rfl, rfl, rfl⟩ (.of_eq rfl)

theorem Trace.broken (h : Trace G s s') (h' : Broken G s' s'') : Broken G s s'' := by
  obtain ⟨commands, hpath, -⟩ := h
  obtain ⟨commands', s₁, hpath', hstray⟩ := h'
  exact ⟨commands ++ commands', s₁, hpath.trans hpath', hstray⟩

theorem Trace.toBroken (h : Trace G s s') : Broken G s s' := by
  obtain ⟨commands, hpath, -⟩ := h
  exact ⟨commands, s', hpath, .refl s'⟩

theorem Stray.broken (h : Stray s s') : Broken G s s' := ⟨[], s, .refl, h⟩

theorem Broken.refl (s : FteFragmentExecution) : Broken G s s := (Stray.refl s).broken

variable {m : Py FteFragmentExecution α} {f : α → Py FteFragmentExecution β}
  {Q : α → FteFragmentExecution → Prop} {E : PyError → FteFragmentExecution → Prop}

theorem Traces.after (h : Traces G s' m Q) (htrace : Trace G s s') :
    m.Ensures s' (fun a s'' => Trace G s s'' ∧ Q a s'') fun _ s'' => Broken G s s'' :=
  Py.Ensures.mono h (fun _ _ h => ⟨htrace.trans h.1, h.2⟩) fun _ _ h => htrace.broken h

theorem traces_bind {Q' : β → FteFragmentExecution → Prop}
    (hm : Traces G s m Q) (hf : ∀ a s', Trace G s s' → Q a s' → Traces G s' (f a) Q') :
    Traces G s (m >>= f) Q' := by
  unfold Traces
  rw [ensures_bind]
  refine Py.Ensures.mono hm ?_ fun _ _ h => h
  rintro a s' ⟨htrace, hQ⟩
  exact (hf a s' htrace hQ).after htrace

theorem traces_seq
    {Q : β → FteFragmentExecution → Prop} (hs : s.Sound) (hm : Traces G s m fun _ _ => True)
    (hf : ∀ a s', s'.Sound → Traces G s' (f a) Q) : Traces G s (m >>= f) Q :=
  traces_bind hm fun a s' htrace _ => hf a s' (htrace.sound hs)

theorem traces_pure {a : α} (h : Q a s) : Traces G s (pure a) Q := ⟨.refl s, h⟩

theorem traces_lift {x : Except PyError α}
    (h : ∀ a, x = .ok a → Q a s) : Traces G s (Py.lift x) Q := by
  unfold Traces
  rw [Py.ensures_lift]
  exact ⟨fun a ha => ⟨.refl s, h a ha⟩, fun _ _ => .refl s⟩

theorem traces_read {f : FteFragmentExecution → Except PyError α} (h : ∀ a, f s = .ok a → Q a s) :
    Traces G s (Py.read f) Q := by
  unfold Traces
  rw [Py.ensures_read]
  exact ⟨fun a ha => ⟨.refl s, h a ha⟩, fun _ _ => .refl s⟩

theorem traces_get {m : FteFragmentExecution → Py FteFragmentExecution β}
    {Q : β → FteFragmentExecution → Prop} (h : Traces G s (m s) Q) :
    Traces G s (Py.get >>= m) Q := by
  unfold Traces
  rw [ensures_get_bind]
  exact h

theorem traces_ite {c : Prop} [Decidable c] {m n : Py FteFragmentExecution α} (hm : c → Traces G s m Q) (hn : ¬c → Traces G s n Q) :
    Traces G s (if c then m else n) Q := by
  split
  . next h => exact hm h
  . next h => exact hn h

theorem traces_quiet {f : FteFragmentExecution → FteFragmentExecution}
    {Q : PUnit → FteFragmentExecution → Prop} (hleaves : Leaves s (f s))
    (hexchange : (f s).exchange = s.exchange)
    (hcurrent : (f s).currentWorkerCommands = s.currentWorkerCommands)
    (houtbox : (f s).workerCommandOutbox = s.workerCommandOutbox) (h : Q ⟨⟩ (f s)) :
    Traces G s (Py.modify f) Q :=
  ⟨.of_move (.quiet hleaves (.of_eq hexchange)) (recorded_nil hcurrent houtbox), h⟩

theorem traces_forEach {γ : Type} {l : List γ} {body : γ → Py FteFragmentExecution PUnit}
    (I : FteFragmentExecution → Prop)
    (h : ∀ x ∈ l, ∀ s, s.Sound → I s → Traces G s (body x) fun _ => I) (hs : s.Sound) (hI : I s) :
    Traces G s (Py.forEach l body) fun _ => I := by
  induction l generalizing s with
  | nil => exact traces_pure hI
  | cons x l ih =>
    apply traces_bind (h x (by simp) s hs hI)
    intro _ s' htrace hI'
    exact ih (fun y hy => h y (by simp [hy])) (htrace.sound hs) hI'

/-! Methods of a partition and of the exchange. -/

theorem find?_insert_eq_update {κ ν : Type} [DecidableEq κ] (d : Dict κ ν) (k : κ) (v : ν) :
    (d.insert k v).find? = Function.update d.find? k (some v) := by
  funext k'
  rw [Dict.find?_insert, Function.update_apply]

theorem ensures_onPartition {id : ℕ} {m : Py FteTaskPartition α}
    (hnone : s.partitions.find? id = none → E (.keyError (toString id)) s)
    (hsome : ∀ p, s.partitions.find? id = some p → m.Ensures p
      (fun a p' => Q a { s with partitions := s.partitions.insert id p' })
      fun e p' => E e { s with partitions := s.partitions.insert id p' }) :
    (onPartition id m).Ensures s Q E := by
  unfold Py.Ensures onPartition
  cases hp : s.partitions.find? id with
  | none => exact hnone hp
  | some p =>
    have h := hsome p hp
    unfold Py.Ensures at h
    cases hm : m p with
    | mk result p' =>
      rw [hm] at h
      cases result with
      | error e => simpa [hm] using h
      | ok a => simpa [hm] using h

theorem ensures_onPartition_of {id : ℕ} {p : FteTaskPartition} {m : Py FteTaskPartition α}
    (hp : s.partitions.find? id = some p)
    (h : m.Ensures p (fun a p' => Q a { s with partitions := s.partitions.insert id p' })
      fun e p' => E e { s with partitions := s.partitions.insert id p' }) :
    (onPartition id m).Ensures s Q E := by
  apply ensures_onPartition
  . exact fun hnone => absurd (hp.symm.trans hnone) (by simp)
  . intro p₀ hp₀
    cases hp.symm.trans hp₀
    exact h

theorem puts_insert (id : ℕ) (p : FteTaskPartition) :
    Puts id p s { s with partitions := s.partitions.insert id p } :=
  ⟨rfl, rfl, find?_insert_eq_update _ _ _⟩

theorem ensures_onExchange {m : Py FteExchangeTracker α}
    {Q : Option α → FteFragmentExecution → Prop}
    (hnone : s.exchange = none → Q none s) (hsome : ∀ t, s.exchange = some t → m.Ensures t
      (fun a t' => Q (some a) { s with exchange := some t' })
      fun e t' => E e { s with exchange := some t' }) :
    (onExchange m).Ensures s Q E := by
  unfold Py.Ensures onExchange
  cases ht : s.exchange with
  | none => exact hnone ht
  | some t =>
    have h := hsome t ht
    unfold Py.Ensures at h
    cases hm : m t with
    | mk result t' =>
      rw [hm] at h
      cases result with
      | error e =>
        simp only [hm]
        exact h
      | ok a =>
        simp only [hm]
        exact h

end Traces

end FteFragmentExecution

end Vane
