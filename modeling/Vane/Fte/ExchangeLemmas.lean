import Vane.Fte.Exchange

/-! This module contains the verification of the exchange tracker and its selector. -/

namespace Vane

namespace FteExchangeTracker

inductive Call where
  | addSink (partitionId : ℤ)
  | sinkFinished (sinkHandle : ExchangeSinkHandle) (attemptId : ℤ)
  | sinkAborted (sinkHandle : ExchangeSinkHandle) (attemptId : ℤ)
  | finalize
  | recordFinished (partitionId attemptId : ℤ)
  | recordAborted (partitionId attemptId : ℤ)
  | tryMarkFinal (requiredPartitionIds : List ℤ)

def Call.onTracker : Call → Bool
  | .addSink _ | .sinkFinished _ _ | .sinkAborted _ _ | .finalize => true
  | .recordFinished _ _ | .recordAborted _ _ | .tryMarkFinal _ => false

def Call.step : Call → FteExchangeTracker → FteExchangeTracker
  | .addSink partitionId, self => (FteExchangeTracker.addSink partitionId self).2
  | .sinkFinished sinkHandle attemptId, self =>
    (FteExchangeTracker.sinkFinished sinkHandle attemptId self).2
  | .sinkAborted sinkHandle attemptId, self =>
    (FteExchangeTracker.sinkAborted sinkHandle attemptId self).2
  | .finalize, self => (FteExchangeTracker.finalize self).2
  | .recordFinished partitionId attemptId, self =>
    (onSelector (FteExchangeSourceOutputSelector.recordFinished partitionId attemptId) self).2
  | .recordAborted partitionId attemptId, self =>
    (onSelector (FteExchangeSourceOutputSelector.recordAborted partitionId attemptId) self).2
  | .tryMarkFinal requiredPartitionIds, self =>
    (onSelector (FteExchangeSourceOutputSelector.tryMarkFinal requiredPartitionIds) self).2

end FteExchangeTracker

namespace FteExchangeSourceOutputSelector

variable (s : FteExchangeSourceOutputSelector)

theorem recordAborted_step (p a : ℤ) : (recordAborted p a).Ensures s
        (fun _ t => ∃ aborted, t = { s with abortedAttempts := aborted }) (fun _ t => t = s) := by
  unfold recordAborted
  simp only [Py.ensures_bind, Py.ensures_get, Py.ensures_ite, Py.ensures_lift, Py.ensures_set,
    Py.ensures_pure]
  refine ⟨fun _ => ⟨_, rfl⟩, fun _ => ⟨fun q hq => ⟨fun b hb => ⟨_, rfl⟩, ?_⟩, ?_⟩⟩
  . simp
  . simp

theorem recordFinished_step (p a : ℤ) : (recordFinished p a).Ensures s
        (fun selected t => ∃ finished,
          (selected = false ∧ t = { s with finishedAttempts := finished }) ∨
          (selected = true ∧ s.final = false ∧ s.selectedAttempts.find? p = none ∧
            t = { s with
              finishedAttempts := finished
              selectedAttempts := s.selectedAttempts.insert p a }))
        (fun _ t => t = s) := by
  unfold recordFinished
  simp only [Py.ensures_bind, Py.ensures_lift]
  refine ⟨fun q hq => ⟨fun b hb => ?_, by simp⟩, by simp⟩
  obtain ⟨rfl, -⟩ := checkNonNegative_eq_ok hq
  obtain ⟨rfl, -⟩ := checkNonNegative_eq_ok hb
  simp only [Py.ensures_get, Py.ensures_ite, Py.ensures_raise, Py.ensures_bind, Py.ensures_set,
    Py.ensures_pure, Py.ensures_modify]
  refine ⟨fun _ => ⟨by simp, fun _ => ⟨_, .inl ⟨trivial, rfl⟩⟩⟩, fun hfinal => ⟨fun _ => ?_, ?_⟩⟩
  . exact ⟨_, .inl ⟨trivial, rfl⟩⟩
  . intro hfree
    refine ⟨_, .inr ⟨trivial, by simpa using hfinal, ?_, rfl⟩⟩
    simpa [Dict.contains] using hfree

theorem mapM_checkNonNegative {name : String} {ids : List ℤ} {vs : List ℤ}
    (h : ids.mapM (checkNonNegative name) = .ok vs) : vs = ids := by
  induction ids generalizing vs with
  | nil =>
    cases h
    rfl
  | cons i ids ih =>
    rw [List.mapM_cons] at h
    obtain ⟨v, hv, h⟩ := Except.ok_of_bind h
    obtain ⟨ws, hws, h⟩ := Except.ok_of_bind h
    cases h
    rw [(checkNonNegative_eq_ok hv).1, ih hws]

theorem tryMarkFinal_step (ids : List ℤ) : (tryMarkFinal ids).Ensures s
        (fun _ t => t = s ∨
          (s.final = false ∧ (∀ p, p ∈ ids ↔ p ∈ s.selectedAttempts.keys) ∧
            t = { s with final := true, finalRequiredPartitionIds := some ids.toFinset }))
        (fun _ t => t = s) := by
  unfold tryMarkFinal
  simp only [Py.ensures_bind, Py.ensures_lift]
  refine ⟨fun vs hvs => ?_, by simp⟩
  obtain rfl := mapM_checkNonNegative hvs
  simp only [Py.ensures_get, Py.ensures_ite, Py.ensures_raise, Py.ensures_bind, Py.ensures_set,
    Py.ensures_pure]
  refine ⟨fun _ => by simp, fun _ => ⟨fun _ => by simp, fun hfinal => ⟨by simp, fun hsub => ?_⟩⟩⟩
  refine ⟨fun _ => .inl trivial, fun hsup => .inr ⟨by simpa using hfinal, fun p => ?_, trivial⟩⟩
  push Not at hsub hsup
  constructor
  . intro hp
    exact hsup p (List.mem_toFinset.mpr hp)
  . intro hp
    exact List.mem_toFinset.mp (hsub p hp)

end FteExchangeSourceOutputSelector

namespace FteExchangeTracker

variable {t' : FteExchangeTracker}

open FteExchangeSourceOutputSelector (recordFinished_step recordAborted_step tryMarkFinal_step)

/--
What a call can do to a tracker and its selector. The two select together in `sink_finished`; a
call that is made on the selector itself leaves the tracker behind.
-/
inductive Step (t : FteExchangeTracker) : Bool → FteExchangeTracker → Prop where
  | record (onTracker : Bool) (finished aborted selectorFinished selectorAborted : AttemptSets) :
      Step t onTracker { t with
        finishedAttempts := finished
        abortedAttempts := aborted
        outputSelector := { t.outputSelector with
          finishedAttempts := selectorFinished
          abortedAttempts := selectorAborted } }
  | addSink (p : ℤ) (handle : ExchangeSinkHandle) (hfinal : t.outputSelector.final = false)
      (hfree : t.sinks.find? p = none) (hhandle : handle.partitionId = p) :
      Step t true { t with sinks := t.sinks.insert p handle }
  | select (p a : ℤ) (handle : ExchangeSinkHandle) (finished selectorFinished : AttemptSets)
      (hfinal : t.outputSelector.final = false) (hsink : t.sinks.find? p = some handle)
      (hfree : t.outputSelector.selectedAttempts.find? p = none) :
      Step t true { t with
        finishedAttempts := finished
        selectedAttempts := t.selectedAttempts.insert p a
        outputSelector := { t.outputSelector with
          finishedAttempts := selectorFinished
          selectedAttempts := t.outputSelector.selectedAttempts.insert p a } }
  | markFinal (hfinal : t.outputSelector.final = false)
      (hrequired : ∀ p, p ∈ t.sinks.keys ↔ p ∈ t.outputSelector.selectedAttempts.keys) :
      Step t true { t with
        outputSelector := { t.outputSelector with
          final := true
          finalRequiredPartitionIds := some t.sinks.keys.toFinset } }
  | selectorSelect (p a : ℤ) (selectorFinished : AttemptSets)
      (hfinal : t.outputSelector.final = false)
      (hfree : t.outputSelector.selectedAttempts.find? p = none) :
      Step t false { t with
        outputSelector := { t.outputSelector with
          finishedAttempts := selectorFinished
          selectedAttempts := t.outputSelector.selectedAttempts.insert p a } }
  | selectorMarkFinal (ids : List ℤ) (hfinal : t.outputSelector.final = false)
      (hrequired : ∀ p, p ∈ ids ↔ p ∈ t.outputSelector.selectedAttempts.keys) :
      Step t false { t with
        outputSelector := { t.outputSelector with
          final := true
          finalRequiredPartitionIds := some ids.toFinset } }

variable {t : FteExchangeTracker}

theorem Step.refl (onTracker : Bool) : Step t onTracker t := Step.record onTracker _ _ _ _

theorem requireSink_eq_ok {handle : ExchangeSinkHandle} {u : PUnit}
    (h : t.requireSink handle = .ok u) : t.sinks.find? handle.partitionId = some handle := by
  unfold requireSink at h
  split at h
  . cases h
  . next hsink => exact not_not.mp hsink

theorem addSink_step (p : ℤ)
    : (addSink p).Ensures t (fun _ t' => Step t true t') (fun _ t' => Step t true t') := by
  unfold addSink
  simp only [Py.ensures_bind, Py.ensures_lift, Py.ensures_get]
  refine ⟨fun q hq => ?_, fun _ _ => Step.refl _⟩
  split
  . exact Step.refl _
  . next hfree =>
    simp only [Py.ensures_ite, Py.ensures_raise, Py.ensures_bind, Py.ensures_set, Py.ensures_pure]
    refine ⟨fun _ => Step.refl _, fun hfinal => ?_⟩
    exact Step.addSink q _ (Bool.eq_false_iff.mpr hfinal) hfree rfl

theorem sinkFinished_step (handle : ExchangeSinkHandle) (a : ℤ)
    : (sinkFinished handle a).Ensures t (fun _ t' => Step t true t')
        (fun _ t' => Step t true t') := by
  unfold sinkFinished onSelector
  simp only [Py.ensures_bind, Py.ensures_lift, Py.ensures_read, Py.ensures_zoom]
  refine ⟨fun _ hsink => ⟨fun b hb => ?_, fun _ _ => Step.refl _⟩, fun _ _ => Step.refl _⟩
  apply (recordFinished_step _ _ _).mono
  . rintro selected s ⟨finished, ⟨rfl, rfl⟩ | ⟨rfl, hfinal, hfree, rfl⟩⟩
    . exact Step.record _ _ _ _ _
    . exact Step.select _ _ _ _ _ hfinal (requireSink_eq_ok hsink) hfree
  . rintro _ s rfl
    exact Step.refl _

theorem sinkAborted_step (handle : ExchangeSinkHandle) (a : ℤ)
    : (sinkAborted handle a).Ensures t (fun _ t' => Step t true t')
        (fun _ t' => Step t true t') := by
  unfold sinkAborted onSelector
  simp only [Py.ensures_bind, Py.ensures_lift, Py.ensures_read, Py.ensures_zoom, Py.ensures_modify]
  refine ⟨fun _ _ => ⟨fun b _ => ?_, fun _ _ => Step.record _ _ _ _ _⟩, fun _ _ => Step.refl _⟩
  apply (recordAborted_step _ _ _).mono
  . rintro _ s ⟨aborted, rfl⟩
    exact Step.record _ _ _ _ _
  . rintro _ s rfl
    exact Step.record _ _ _ _ _

theorem finalize_step
    : finalize.Ensures t (fun _ t' => Step t true t') (fun _ t' => Step t true t') := by
  unfold finalize onSelector
  simp only [Py.ensures_bind, Py.ensures_get, Py.ensures_zoom]
  apply (tryMarkFinal_step _ _).mono
  . rintro _ s (rfl | ⟨hfinal, hrequired, rfl⟩)
    . exact Step.refl _
    . exact Step.markFinal hfinal hrequired
  . rintro _ s rfl
    exact Step.refl _

theorem step_cases (call : Call) (t : FteExchangeTracker) :
    Step t call.onTracker (call.step t) := by
  cases call with
  | addSink p => exact (addSink_step p).state
  | sinkFinished handle a => exact (sinkFinished_step handle a).state
  | sinkAborted handle a => exact (sinkAborted_step handle a).state
  | finalize => exact finalize_step.state
  | recordFinished p a =>
    apply Py.Ensures.state
    unfold onSelector
    rw [Py.ensures_zoom]
    apply (recordFinished_step _ _ _).mono
    . rintro selected s ⟨finished, ⟨rfl, rfl⟩ | ⟨rfl, hfinal, hfree, rfl⟩⟩
      . exact Step.record _ _ _ _ _
      . exact Step.selectorSelect _ _ _ hfinal hfree
    . rintro _ s rfl
      exact Step.refl _
  | recordAborted p a =>
    apply Py.Ensures.state
    unfold onSelector
    rw [Py.ensures_zoom]
    apply (recordAborted_step _ _ _).mono
    . rintro _ s ⟨aborted, rfl⟩
      exact Step.record _ _ _ _ _
    . rintro _ s rfl
      exact Step.refl _
  | tryMarkFinal ids =>
    apply Py.Ensures.state
    unfold onSelector
    rw [Py.ensures_zoom]
    apply (tryMarkFinal_step _ _).mono
    . rintro _ s (rfl | ⟨hfinal, hrequired, rfl⟩)
      . exact Step.refl _
      . exact Step.selectorMarkFinal _ hfinal hrequired
    . rintro _ s rfl
      exact Step.refl _

def new (queryId exchangeId : String) : FteExchangeTracker := { queryId, exchangeId }

structure Inv (t : FteExchangeTracker) : Prop where
  selector_selected : ∀ p a, t.selectedAttempts.find? p = some a →
    t.outputSelector.selectedAttempts.find? p = some a
  sink_selected : ∀ p ∈ t.selectedAttempts.keys, ∃ handle, t.sinks.find? p = some handle
  sink_partition : ∀ p handle, t.sinks.find? p = some handle → handle.partitionId = p
  final_required : t.isFinal = true → ∃ required,
    t.outputSelector.finalRequiredPartitionIds = some required ∧
    ∀ p, p ∈ required ↔ p ∈ t.outputSelector.selectedAttempts.keys

structure Together (t : FteExchangeTracker) : Prop where
  selected : t.outputSelector.selectedAttempts = t.selectedAttempts
  required : t.isFinal = true →
    t.outputSelector.finalRequiredPartitionIds = some t.sinks.keys.toFinset

structure Later (t t' : FteExchangeTracker) : Prop where
  tracker_selected : ∀ p a, t.selectedAttempts.find? p = some a →
    t'.selectedAttempts.find? p = some a
  selector_selected : ∀ p a, t.outputSelector.selectedAttempts.find? p = some a →
    t'.outputSelector.selectedAttempts.find? p = some a
  final : t.isFinal = true → t'.isFinal = true ∧
    t'.sinks = t.sinks ∧ t'.selectedAttempts = t.selectedAttempts ∧
    t'.outputSelector.selectedAttempts = t.outputSelector.selectedAttempts ∧
    t'.outputSelector.finalRequiredPartitionIds = t.outputSelector.finalRequiredPartitionIds

theorem Later.refl (t : FteExchangeTracker) : Later t t :=
  ⟨fun _ _ h => h, fun _ _ h => h, fun h => ⟨h, rfl, rfl, rfl, rfl⟩⟩

theorem Later.trans {t₁ t₂ t₃ : FteExchangeTracker} (h₁ : Later t₁ t₂) (h₂ : Later t₂ t₃) :
    Later t₁ t₃ := by
  refine ⟨fun p a h => ?_, fun p a h => ?_, fun h => ?_⟩
  . exact h₂.tracker_selected p a (h₁.tracker_selected p a h)
  . exact h₂.selector_selected p a (h₁.selector_selected p a h)
  . obtain ⟨hf, hsinks, htracker, hselector, hrequired⟩ := h₁.final h
    obtain ⟨hf', hsinks', htracker', hselector', hrequired'⟩ := h₂.final hf
    exact ⟨hf', hsinks'.trans hsinks, htracker'.trans htracker, hselector'.trans hselector,
      hrequired'.trans hrequired⟩

theorem inv_new (queryId exchangeId : String) : Inv (new queryId exchangeId) := by
  constructor <;> simp [new, isFinal, FteExchangeSourceOutputSelector.isFinal, Dict.keys]

theorem together_new (queryId exchangeId : String) : Together (new queryId exchangeId) := by
  constructor
  . rfl
  . simp [new, isFinal, FteExchangeSourceOutputSelector.isFinal]

theorem Step.later {onTracker : Bool} (h : Step t onTracker t') (hinv : Inv t) : Later t t' := by
  cases h with
  | record onTracker finished aborted selectorFinished selectorAborted =>
    exact ⟨fun _ _ h => h, fun _ _ h => h, fun h => ⟨h, rfl, rfl, rfl, rfl⟩⟩
  | addSink p handle hfinal hfree hhandle =>
    refine ⟨fun _ _ h => h, fun _ _ h => h, fun h => ?_⟩
    exact absurd (hfinal.symm.trans h) (by simp)
  | select p a handle finished selectorFinished hfinal hsink hfree =>
    have hfree' : t.selectedAttempts.find? p = none := by
      cases hp : t.selectedAttempts.find? p with
      | none => rfl
      | some b => exact absurd (hfree.symm.trans (hinv.selector_selected p b hp)) (by simp)
    refine ⟨fun q b h => ?_, fun q b h => ?_, fun h => ?_⟩
    . exact Dict.find?_insert_of_free hfree' h
    . exact Dict.find?_insert_of_free hfree h
    . exact absurd (hfinal.symm.trans h) (by simp)
  | markFinal hfinal hrequired =>
    refine ⟨fun _ _ h => h, fun _ _ h => h, fun h => ?_⟩
    exact absurd (hfinal.symm.trans h) (by simp)
  | selectorSelect p a selectorFinished hfinal hfree =>
    refine ⟨fun _ _ h => h, fun q b h => Dict.find?_insert_of_free hfree h, fun h => ?_⟩
    exact absurd (hfinal.symm.trans h) (by simp)
  | selectorMarkFinal ids hfinal hrequired =>
    refine ⟨fun _ _ h => h, fun _ _ h => h, fun h => ?_⟩
    exact absurd (hfinal.symm.trans h) (by simp)

theorem Step.inv {onTracker : Bool} (h : Step t onTracker t') (hinv : Inv t) : Inv t' := by
  obtain ⟨hselector, hsink, hpartition, hfin⟩ := hinv
  cases h with
  | record onTracker finished aborted selectorFinished selectorAborted =>
    exact ⟨hselector, hsink, hpartition, hfin⟩
  | addSink p handle hfinal hfree hhandle =>
    refine ⟨hselector, fun q hq => ?_, fun q handle' hq => ?_, hfin⟩
    . obtain ⟨handle', hq⟩ := hsink q hq
      exact ⟨handle', Dict.find?_insert_of_free hfree hq⟩
    . rw [Dict.find?_insert] at hq
      split at hq
      . next heq =>
        cases hq
        rw [heq, hhandle]
      . exact hpartition q handle' hq
  | select p a handle finished selectorFinished hfinal hsink' hfree =>
    refine ⟨fun q b hq => ?_, fun q hq => ?_, hpartition, fun h => ?_⟩
    . simp only [Dict.find?_insert] at hq ⊢
      split
      . next heq =>
        rw [if_pos heq] at hq
        exact hq
      . next hne =>
        rw [if_neg hne] at hq
        exact hselector q b hq
    . rcases Dict.mem_keys_insert.mp hq with rfl | hq
      . exact ⟨handle, hsink'⟩
      . exact hsink q hq
    . exact absurd (hfinal.symm.trans h) (by simp)
  | markFinal hfinal hrequired =>
    refine ⟨hselector, hsink, hpartition, fun _ => ⟨_, rfl, fun p => ?_⟩⟩
    rw [List.mem_toFinset]
    exact hrequired p
  | selectorSelect p a selectorFinished hfinal hfree =>
    refine ⟨fun q b hq => ?_, hsink, hpartition, fun h => ?_⟩
    . exact Dict.find?_insert_of_free hfree (hselector q b hq)
    . exact absurd (hfinal.symm.trans h) (by simp)
  | selectorMarkFinal ids hfinal hrequired =>
    refine ⟨hselector, hsink, hpartition, fun _ => ⟨_, rfl, fun p => ?_⟩⟩
    rw [List.mem_toFinset]
    exact hrequired p

theorem Step.together (h : Step t true t') (htogether : Together t) : Together t' := by
  obtain ⟨hselected, hrequired⟩ := htogether
  cases h with
  | record onTracker finished aborted selectorFinished selectorAborted =>
    exact ⟨hselected, hrequired⟩
  | addSink p handle hfinal hfree hhandle =>
    exact ⟨hselected, fun h => absurd (hfinal.symm.trans h) (by simp)⟩
  | select p a handle finished selectorFinished hfinal hsink hfree =>
    refine ⟨?_, fun h => absurd (hfinal.symm.trans h) (by simp)⟩
    simp only [hselected]
  | markFinal hfinal hrequired' => exact ⟨hselected, fun _ => rfl⟩

theorem run_inv (calls : List Call) (hinv : Inv t) : Inv (Run.run Call.step calls t) :=
  Run.run_invariant Inv (fun call _ t h => (step_cases call t).inv h) hinv

theorem run_later (calls : List Call) (hinv : Inv t) : Later t (Run.run Call.step calls t) := by
  have h : Inv (Run.run Call.step calls t) ∧ Later t (Run.run Call.step calls t) := by
    apply Run.run_invariant (fun t' => Inv t' ∧ Later t t')
    . rintro call - t' ⟨hinv', hlater⟩
      have hstep := step_cases call t'
      exact ⟨hstep.inv hinv', hlater.trans (hstep.later hinv')⟩
    . exact ⟨hinv, Later.refl t⟩
  exact h.2

theorem run_together {calls : List Call} (hcalls : ∀ call ∈ calls, call.onTracker = true)
    (h : Together t) : Together (Run.run Call.step calls t) := by
  apply Run.run_invariant Together _ h
  intro call hcall t ht
  have hstep := step_cases call t
  rw [hcalls call hcall] at hstep
  exact hstep.together ht

theorem getSourceHandles_eq_ok (hinv : Inv t)
    : ∃ handles, t.getSourceHandles = .ok handles ∧
        (handles.map fun handle => handle.sinkHandle.partitionId).Perm t.selectedAttempts.keys := by
  let handleOf : ℤ × ℤ → ExchangeSourceHandle := fun e =>
    { sinkHandle := t.sinks.findD e.1 ⟨"", "", e.1⟩, attemptId := e.2 }
  have hsinks : ∀ e ∈ t.selectedAttempts.entries,
      ∃ handle, t.sinks.find? e.1 = some handle ∧ handle.partitionId = e.1 := by
    intro e he
    obtain ⟨handle, hhandle⟩ := hinv.sink_selected e.1 (List.mem_map.mpr ⟨e, he, rfl⟩)
    exact ⟨handle, hhandle, hinv.sink_partition _ _ hhandle⟩
  refine ⟨(t.selectedAttempts.entries.sortBy toLex).map handleOf, ?_, ?_⟩
  . apply Except.mapM_eq_ok
    intro e he
    obtain ⟨handle, hhandle, -⟩ := hsinks e (List.mem_sortBy.mp he)
    simp [handleOf, Dict.findD, hhandle]
  . rw [List.map_map]
    have hfst : ∀ e ∈ t.selectedAttempts.entries.sortBy toLex,
        ((fun handle => handle.sinkHandle.partitionId) ∘ handleOf) e = e.1 := by
      intro e he
      obtain ⟨handle, hhandle, hp⟩ := hsinks e (List.mem_sortBy.mp he)
      simp [handleOf, Dict.findD, hhandle, hp]
    rw [List.map_congr_left hfst]
    exact (List.sortBy_perm _ _).map _

theorem getSourceHandles_congr (hsinks : t'.sinks = t.sinks)
    (hselected : t'.selectedAttempts = t.selectedAttempts) :
    t'.getSourceHandles = t.getSourceHandles := by
  unfold getSourceHandles
  rw [hsinks, hselected]

theorem selected_output_is_final (queryId exchangeId : String) (calls later : List Call)
    : let t := Run.run Call.step calls (new queryId exchangeId)
      let t' := Run.run Call.step later t
      (∀ p a, t.selectedAttempts.find? p = some a →
        t.outputSelector.selectedAttempts.find? p = some a) ∧
      (∀ p a, t.selectedAttempts.find? p = some a → t'.selectedAttempts.find? p = some a) ∧
      (∀ p a, t.outputSelector.selectedAttempts.find? p = some a →
        t'.outputSelector.selectedAttempts.find? p = some a) ∧
      (t.isFinal = true →
        t'.isFinal = true ∧
        (∃ required, t.outputSelector.finalRequiredPartitionIds = some required ∧
          t'.outputSelector.finalRequiredPartitionIds = some required ∧
          (∀ p, p ∈ required ↔ ∃ a, t.outputSelector.selectedAttempts.find? p = some a)) ∧
        t'.outputSelector.selectedAttempts = t.outputSelector.selectedAttempts ∧
        (∃ handles, t.getSourceHandles = .ok handles ∧ t'.getSourceHandles = .ok handles ∧
          ((∀ call ∈ calls, call.onTracker = true) →
            (handles.map fun handle => handle.sinkHandle.partitionId).Perm t.sinks.keys ∧
            t.outputSelector.finalRequiredPartitionIds = some t.sinks.keys.toFinset))) := by
  intro t t'
  have hinv : Inv t := run_inv calls (inv_new queryId exchangeId)
  have hlater : Later t t' := run_later later hinv
  refine ⟨hinv.selector_selected, hlater.tracker_selected, hlater.selector_selected, ?_⟩
  intro hfinal
  obtain ⟨hfinal', hsinks, hselected, hselector, hrequired'⟩ := hlater.final hfinal
  obtain ⟨required, hrequired, hkeys⟩ := hinv.final_required hfinal
  obtain ⟨handles, hhandles, hperm⟩ := getSourceHandles_eq_ok hinv
  refine ⟨hfinal', ⟨required, hrequired, hrequired'.trans hrequired, fun p => ?_⟩, hselector,
    handles, hhandles, ?_, fun hcalls => ?_⟩
  . rw [hkeys, Dict.mem_keys_iff]
  . rw [getSourceHandles_congr hsinks hselected]
    exact hhandles
  . have htogether : Together t := run_together hcalls (together_new queryId exchangeId)
    have hrequired_sinks := htogether.required hfinal
    refine ⟨?_, hrequired_sinks⟩
    apply hperm.trans
    apply (List.perm_ext_iff_of_nodup (Dict.nodup_keys _) (Dict.nodup_keys _)).mpr
    intro p
    rw [hrequired] at hrequired_sinks
    cases hrequired_sinks
    rw [← htogether.selected, ← hkeys, List.mem_toFinset]

-- a late finish, a late abort and a late sink leave a final selection as it is
example :
    let sink : ExchangeSinkHandle := ⟨"q", "e", 0⟩
    let t := Run.run Call.step
      [.addSink 0, .sinkFinished sink 1, .finalize, .sinkFinished sink 0, .sinkAborted sink 1,
        .addSink 1] (new "q" "e")
    t.isFinal = true ∧ t.getSourceHandles = .ok [{ sinkHandle := sink, attemptId := 1 }] := by
  decide

end FteExchangeTracker

end Vane
