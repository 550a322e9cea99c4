import Vane.Fte.QueryScheduler

/-!
This module contains the verification that one drain at a time handles events, in their order.
-/

namespace Vane

open List (append_nil filterMap_append mem_append mem_append_left mem_append_right mem_cons
  mem_singleton)
open FteQueryScheduler (close enqueue fail pauseTaskSources push)

namespace FteQueryScheduler

variable {scheduler : FteQueryScheduler}

def HasPaused (scheduler : FteQueryScheduler) : Prop :=
  ∃ registration ∈ scheduler.taskSources.values, registration.paused

theorem mem_values_mapValues {κ α β : Type} {f : α → β} {d : Dict κ α} {b : β} :
    b ∈ (d.mapValues f).values ↔ ∃ a ∈ d.values, f a = b := by
  unfold Dict.values Dict.mapValues
  simp only [List.mem_map, exists_exists_and_eq_and]

theorem not_hasPaused_resume (h : scheduler.events = []) :
    ¬scheduler.resumeTaskSources.2.HasPaused := by
  rintro ⟨registration, hmem, hpaused⟩
  obtain ⟨before, -, rfl⟩ := mem_values_mapValues.mp hmem
  rw [h] at hpaused
  split at hpaused
  . cases hpaused
  . next hresumes =>
    apply hresumes
    simp [hpaused]

theorem resume_callbacks_eq_nil (h : ¬scheduler.HasPaused) : scheduler.resumeTaskSources.1 = [] := by
  unfold resumeTaskSources
  rw [List.map_eq_nil_iff, List.filter_eq_nil_iff]
  intro entry hentry hresumes
  apply h
  refine ⟨entry.2, List.mem_map_of_mem hentry, ?_⟩
  simp at hresumes
  exact hresumes.1.1

theorem hasPaused_of_pause (hevents : scheduler.events = [])
    (h : scheduler.pauseTaskSources.2.HasPaused) : scheduler.HasPaused := by
  obtain ⟨registration, hmem, hpaused⟩ := h
  obtain ⟨before, hbefore, rfl⟩ := mem_values_mapValues.mp hmem
  split at hpaused
  . next hpauses =>
    have hlow := before.low_lt_high
    rw [hevents] at hpauses
    simp at hpauses
    omega
  . exact ⟨before, hbefore, hpaused⟩

theorem hasPaused_of_register {sourceId : String} {hasPause hasResume : Bool} {high : ℤ}
    {low : Option ℤ} (hevents : scheduler.events = [])
    (h : (scheduler.registerTaskSource sourceId hasPause hasResume high low).HasPaused) :
    scheduler.HasPaused := by
  obtain ⟨registration, hmem, hpaused⟩ := hasPaused_of_pause (by exact hevents) h
  obtain ⟨id, hid⟩ := Dict.mem_values_iff.mp hmem
  rw [Dict.find?_insert] at hid
  split at hid
  . cases hid
    cases hpaused
  . exact ⟨registration, Dict.mem_values_of_find? hid, hpaused⟩

theorem hasPaused_of_unregister {sourceId : String}
    (h : (scheduler.unregisterTaskSource sourceId).HasPaused) : scheduler.HasPaused := by
  obtain ⟨registration, hmem, hpaused⟩ := h
  obtain ⟨id, hid⟩ := Dict.mem_values_iff.mp hmem
  dsimp only [unregisterTaskSource] at hid
  rw [Dict.find?_erase] at hid
  split at hid
  . cases hid
  . exact ⟨registration, Dict.mem_values_of_find? hid, hpaused⟩

end FteQueryScheduler

namespace DrainPhase

def holds : DrainPhase → Bool
  | looping | dequeued _ | handling _ | handled | resuming _ | raised => true
  | unwinding _ | finishing _ | returned | failed => false

def isBusy : DrainPhase → Bool
  | dequeued _ | handling _ | handled | raised => true
  | looping | resuming _ | unwinding _ | finishing _ | returned | failed => false

def inHand : DrainPhase → List QueuedEvent
  | dequeued queued => [queued]
  | _ => []

theorem holds_of_isBusy {phase : DrainPhase} (h : phase.isBusy) : phase.holds := by
  cases phase <;> first | rfl | cases h

theorem inHand_of_not_holds {phase : DrainPhase} (h : phase.holds = false) : phase.inHand = [] := by
  cases phase <;> first | rfl | cases h

end DrainPhase

namespace SchedulerSystem

variable {s : SchedulerSystem} {drains : List DrainPhase} {l₁ l₂ : List DrainPhase}
  {phase : DrainPhase}

section

variable {scheduler : FteQueryScheduler} (raises : Bool)

theorem advance_looping_nil (h : scheduler.events = []) :
    advance raises scheduler .looping = (.finishing scheduler.release.1, scheduler.release.2) := by
  unfold advance
  rw [h]

theorem advance_looping_cons {queued : QueuedEvent} {events : List QueuedEvent}
    (h : scheduler.events = queued :: events) :
    advance raises scheduler .looping = (.dequeued queued, scheduler.take queued events) := by
  unfold advance
  rw [h]

end

/-! One drain at a time. -/

structure Settled (s : SchedulerSystem) : Prop where
  exclusive : s.Exclusive DrainPhase.holds FteQueryScheduler.draining
  resumes : s.shared.events = [] → s.shared.HasPaused → ∃ phase ∈ s.phases, phase.isBusy
  finishing : ∀ callbacks, .finishing callbacks ∈ s.phases → callbacks = []

theorem handover_advance (raises : Bool) (scheduler : FteQueryScheduler) (phase : DrainPhase)
    (hfinishing : ∀ callbacks, phase = .finishing callbacks → callbacks = []) :
    Calls.Handover DrainPhase.holds FteQueryScheduler.draining scheduler phase
      (advance raises scheduler phase) := by
  cases phase with
  | looping =>
    cases hevents : scheduler.events with
    | nil =>
      have hstep := advance_looping_nil raises hevents
      exact .gives rfl (by rw [hstep]; rfl) (by rw [hstep]; rfl)
    | cons queued events =>
      have hstep := advance_looping_cons raises hevents
      exact .keeps (by rw [hstep]; rfl) (by rw [hstep]; rfl)
  | dequeued queued =>
    have hdraining : (scheduler.prepare queued.event).2.draining = scheduler.draining := by
      unfold FteQueryScheduler.prepare
      split
      . split <;> rfl
      . rfl
      . rfl
    exact .keeps (by unfold advance; dsimp only; split <;> rfl) hdraining
  | handling queued => exact .keeps (by cases raises <;> rfl) rfl
  | handled => exact .keeps rfl rfl
  | resuming callbacks => exact .keeps (by unfold advance; dsimp only; split <;> rfl) rfl
  | raised => exact .gives rfl rfl rfl
  | unwinding callbacks => exact .keeps rfl rfl
  | finishing callbacks =>
    rw [hfinishing callbacks rfl]
    exact .keeps (by simp [advance, DrainPhase.holds]) rfl
  | returned => exact .keeps rfl rfl
  | failed => exact .keeps rfl rfl

theorem resumes_advance (raises : Bool) (scheduler : FteQueryScheduler) (phase : DrainPhase) :
    (advance raises scheduler phase).1.isBusy ∨
      ((advance raises scheduler phase).2.events = [] →
        ¬(advance raises scheduler phase).2.HasPaused) ∨
      (advance raises scheduler phase).2 = scheduler ∧ phase.isBusy = false := by
  cases phase with
  | looping =>
    cases hevents : scheduler.events with
    | nil =>
      rw [advance_looping_nil raises hevents]
      exact .inr (.inl fun _ => FteQueryScheduler.not_hasPaused_resume hevents)
    | cons queued events =>
      rw [advance_looping_cons raises hevents]
      exact .inl rfl
  | dequeued queued =>
    left
    unfold advance
    dsimp only
    split <;> rfl
  | handling queued =>
    left
    cases raises <;> rfl
  | handled => exact .inr (.inl fun hevents => FteQueryScheduler.not_hasPaused_resume hevents)
  | resuming callbacks => exact .inr (.inr ⟨rfl, rfl⟩)
  | raised => exact .inr (.inl fun hevents => FteQueryScheduler.not_hasPaused_resume hevents)
  | unwinding callbacks => exact .inr (.inr ⟨rfl, rfl⟩)
  | finishing callbacks => exact .inr (.inr ⟨rfl, rfl⟩)
  | returned => exact .inr (.inr ⟨rfl, rfl⟩)
  | failed => exact .inr (.inr ⟨rfl, rfl⟩)

theorem Settled.finishing_advance (h : s.Settled) {raises : Bool}
    (hdrains : s.phases = l₁ ++ phase :: l₂) {callbacks : List String}
    (hphase : (advance raises s.shared phase).1 = .finishing callbacks) : callbacks = [] := by
  cases phase with
  | looping =>
    cases hevents : s.shared.events with
    | nil =>
      rw [advance_looping_nil raises hevents] at hphase
      cases hphase
      apply FteQueryScheduler.resume_callbacks_eq_nil
      intro hpaused
      -- the only drain that has the queue is at the head of the loop
      obtain ⟨busy, hmem, hbusy⟩ := h.resumes hevents hpaused
      have hidle := (h.exclusive.others_idle hdrains rfl).2
      rw [hdrains] at hmem
      have hholds := DrainPhase.holds_of_isBusy hbusy
      rcases mem_append.mp hmem with hmem | hmem
      . rw [hidle busy (mem_append_left _ hmem)] at hholds
        cases hholds
      . rcases mem_cons.mp hmem with rfl | hmem
        . cases hbusy
        . rw [hidle busy (mem_append_right _ hmem)] at hholds
          cases hholds
    | cons queued events =>
      rw [advance_looping_cons raises hevents] at hphase
      cases hphase
  | dequeued queued =>
    unfold advance at hphase
    dsimp only at hphase
    split at hphase <;> cases hphase
  | handling queued => cases raises <;> cases hphase
  | handled => cases hphase
  | resuming callbacks =>
    unfold advance at hphase
    dsimp only at hphase
    split at hphase <;> cases hphase
  | raised => cases hphase
  | unwinding callbacks => cases hphase
  | finishing callbacks =>
    unfold advance at hphase
    dsimp only at hphase
    split at hphase <;> cases hphase
  | returned => cases hphase
  | failed => cases hphase

theorem Settled.advanceAt (h : s.Settled) (i : ℕ) (raises : Bool) :
    Settled (s.advanceAt (advance raises) i) := by
  rcases s.advanceAt_cases (advance raises) Action.emitPhase i with
    ⟨hsame, -⟩ | ⟨l₁, phase, l₂, hdrains, hstep, -⟩
  . rw [hsame]
    exact h
  rw [hstep]
  have hfinishing : ∀ callbacks, phase = .finishing callbacks → callbacks = [] := by
    rintro callbacks rfl
    exact h.finishing callbacks (by rw [hdrains]; simp)
  refine ⟨h.exclusive.advance hdrains (handover_advance raises s.shared phase hfinishing), ?_, ?_⟩
  . intro hevents hpaused
    rcases resumes_advance raises s.shared phase with hbusy | hnone | ⟨hsame, hidle⟩
    . exact ⟨_, mem_append_right _ List.mem_cons_self, hbusy⟩
    . exact absurd hpaused (hnone hevents)
    . rw [hsame] at hevents hpaused
      obtain ⟨busy, hmem, hbusy⟩ := h.resumes hevents hpaused
      refine ⟨busy, ?_, hbusy⟩
      rw [hdrains] at hmem
      rcases mem_append.mp hmem with hmem | hmem
      . exact mem_append_left _ hmem
      . rcases mem_cons.mp hmem with rfl | hmem
        . rw [hidle] at hbusy
          cases hbusy
        . exact mem_append_right _ (List.mem_cons_of_mem _ hmem)
  . intro callbacks hmem
    rcases mem_append.mp hmem with hmem | hmem
    . exact h.finishing callbacks (by rw [hdrains]; exact mem_append_left _ hmem)
    . rcases mem_cons.mp hmem with hphase | hmem
      . exact h.finishing_advance hdrains hphase.symm
      . exact h.finishing callbacks
          (by rw [hdrains]; exact mem_append_right _ (List.mem_cons_of_mem _ hmem))

theorem Settled.section_ (h : s.Settled) {scheduler : FteQueryScheduler}
    (hdraining : scheduler.draining = s.shared.draining)
    (hpaused : scheduler.events = [] → scheduler.HasPaused →
      s.shared.events = [] ∧ s.shared.HasPaused) :
    Settled { s with shared := scheduler } := by
  refine ⟨h.exclusive.shared hdraining, ?_, h.finishing⟩
  intro hevents hpausedAfter
  obtain ⟨hbefore, hpausedBefore⟩ := hpaused hevents hpausedAfter
  exact h.resumes hbefore hpausedBefore

theorem Settled.step (h : s.Settled) (action : Action) : (action.step s).Settled := by
  cases action with
  | enqueue event priority =>
    apply h.section_
    . unfold enqueue
      split <;> rfl
    . unfold enqueue
      split
      . intro hevents
        unfold push at hevents
        cases priority <;> simp [pauseTaskSources] at hevents
      . exact fun hevents hpaused => ⟨hevents, hpaused⟩
  | drain =>
    show (beginDrain s).Settled
    have hresumes : ∀ phase, s.shared.events = [] → s.shared.HasPaused →
        ∃ busy ∈ s.phases ++ [phase], busy.isBusy := by
      intro phase hevents hpaused
      obtain ⟨busy, hmem, hbusy⟩ := h.resumes hevents hpaused
      exact ⟨busy, mem_append_left _ hmem, hbusy⟩
    unfold beginDrain
    split
    . refine ⟨h.exclusive.add (.inl ⟨rfl, rfl⟩), hresumes _, ?_⟩
      exact fun callbacks hmem => h.finishing callbacks (by simpa using hmem)
    . next hdraining =>
      refine ⟨h.exclusive.add (.inr ⟨rfl, rfl, Bool.not_eq_true _ ▸ hdraining⟩), hresumes _, ?_⟩
      exact fun callbacks hmem => h.finishing callbacks (by simpa using hmem)
  | advance i raises => exact h.advanceAt i raises
  | fail reason =>
    apply h.section_
    . unfold fail
      split <;> rfl
    . unfold fail
      split
      . exact fun hevents hpaused => ⟨hevents, hpaused⟩
      . exact fun _ hpaused => absurd hpaused (FteQueryScheduler.not_hasPaused_resume rfl)
  | close =>
    apply h.section_
    . rfl
    . rintro - ⟨registration, hmem, -⟩
      cases hmem
  | registerTaskSource sourceId hasPause hasResume high low =>
    apply h.section_
    . rfl
    . exact fun hevents hpaused => ⟨hevents, FteQueryScheduler.hasPaused_of_register hevents hpaused⟩
  | unregisterTaskSource sourceId =>
    apply h.section_
    . rfl
    . exact fun hevents hpaused => ⟨hevents, FteQueryScheduler.hasPaused_of_unregister hpaused⟩
  | armRetryDelay hasDelay =>
    apply h.section_
    . rfl
    . exact fun hevents hpaused => ⟨hevents, hpaused⟩

/-! The order of the events. -/

def others (events : List QueuedEvent) : List QueuedEvent := events.filter fun queued => !queued.isPriority

theorem others_append (events events' : List QueuedEvent) :
    others (events ++ events') = others events ++ others events' := List.filter_append _ _

def Entry.accepted? : Entry → Option QueuedEvent
  | .accepted queued => some queued
  | _ => none

def Entry.handled? : Entry → Option QueuedEvent
  | .handled queued _ => some queued
  | _ => none

def Entry.released? : Entry → Option (Bool × ℕ)
  | .released normally n => some (normally, n)
  | _ => none

def acceptedIn (log : List Entry) : List QueuedEvent := log.filterMap Entry.accepted?

def handledIn (log : List Entry) : List QueuedEvent := log.filterMap Entry.handled?

def lastReleased (log : List Entry) : Option (Bool × ℕ) := (log.filterMap Entry.released?).getLast?

def inHand (s : SchedulerSystem) : List QueuedEvent := s.phases.flatMap DrainPhase.inHand

structure Served (log : List Entry) (s : SchedulerSystem) : Prop where
  order : s.shared.state = .running →
    others (acceptedIn log) = others (handledIn log ++ s.inHand ++ s.shared.events)
  priority : s.shared.events.Pairwise fun queued later => later.isPriority → queued.isPriority
  bound : ∀ ended ∈ log.filterMap Entry.released?, ended.2 ≤ s.shared.accepted
  released : s.shared.draining = false → ∀ n, lastReleased log = some (true, n) →
    ∀ queued ∈ s.shared.events, n ≤ queued.ticket

theorem inHand_append_cons (l₁ l₂ : List DrainPhase) (phase : DrainPhase) :
    (l₁ ++ phase :: l₂).flatMap DrainPhase.inHand =
      l₁.flatMap DrainPhase.inHand ++ phase.inHand ++ l₂.flatMap DrainPhase.inHand := by
  rw [List.flatMap_append, List.flatMap_cons, List.append_assoc]

theorem inHand_replace {phase' : DrainPhase}
    (hdrains : s.phases = l₁ ++ phase :: l₂) (hphase : phase'.inHand = phase.inHand) :
    (l₁ ++ phase' :: l₂).flatMap DrainPhase.inHand = s.inHand := by
  unfold inHand
  rw [hdrains, inHand_append_cons, inHand_append_cons, hphase]

theorem inHand_eq (h : s.Exclusive DrainPhase.holds FteQueryScheduler.draining)
    (hdrains : s.phases = l₁ ++ phase :: l₂) (hholds : phase.holds) (phase' : DrainPhase) :
    (l₁ ++ phase' :: l₂).flatMap DrainPhase.inHand = phase'.inHand := by
  have hidle := (h.others_idle hdrains hholds).2
  rw [inHand_append_cons, List.flatMap_eq_nil_iff.mpr, List.flatMap_eq_nil_iff.mpr, append_nil,
    List.nil_append]
  . exact fun other hother => DrainPhase.inHand_of_not_holds (hidle other (mem_append_right _ hother))
  . exact fun other hother => DrainPhase.inHand_of_not_holds (hidle other (mem_append_left _ hother))

variable {log : List Entry}

theorem Served.section_ {s' : SchedulerSystem} (h : Served log s)
    (haccepted : s'.shared.accepted = s.shared.accepted)
    (hdraining : s'.shared.draining = true ∨ s'.shared.draining = s.shared.draining)
    (hinHand : s'.inHand = s.inHand)
    (hevents : s'.shared.state = s.shared.state ∧ s'.shared.events = s.shared.events ∨
      s'.shared.state ≠ .running ∧ s'.shared.events = []) : Served log s' := by
  rcases hevents with ⟨hstate, hevents⟩ | ⟨hstate, hevents⟩
  . refine ⟨?_, ?_, ?_, ?_⟩
    . intro hrunning
      rw [hstate] at hrunning
      rw [hevents, hinHand]
      exact h.order hrunning
    . rw [hevents]
      exact h.priority
    . rw [haccepted]
      exact h.bound
    . rw [hevents]
      intro hidle
      rcases hdraining with hdraining | hdraining
      . rw [hdraining] at hidle
        cases hidle
      . rw [hdraining] at hidle
        exact h.released hidle
  . refine ⟨fun hrunning => absurd hrunning hstate, ?_, ?_, ?_⟩
    . rw [hevents]
      exact List.Pairwise.nil
    . rw [haccepted]
      exact h.bound
    . intro _ n _ queued hmem
      rw [hevents] at hmem
      cases hmem

section

variable (h : Served log s)

include h

theorem Served.release (normally : Bool) (hnormally : normally → s.shared.events = [])
    (hinHand : drains.flatMap DrainPhase.inHand = s.inHand) :
    Served (log ++ [.released normally s.shared.accepted]) ⟨s.shared.release.2, drains⟩ := by
  have haccepted : acceptedIn (log ++ [.released normally s.shared.accepted]) = acceptedIn log := by
    unfold acceptedIn
    rw [filterMap_append]
    exact append_nil _
  have hhandled : handledIn (log ++ [.released normally s.shared.accepted]) = handledIn log := by
    unfold handledIn
    rw [filterMap_append]
    exact append_nil _
  refine ⟨?_, h.priority, ?_, ?_⟩
  . intro hrunning
    rw [haccepted, hhandled, inHand, hinHand]
    exact h.order hrunning
  . intro ended hended
    rw [filterMap_append] at hended
    rcases mem_append.mp hended with hended | hended
    . exact h.bound ended hended
    . rw [mem_singleton.mp hended]
      exact Nat.le_refl s.shared.accepted
  . intro _ n hlast queued hmem
    unfold lastReleased at hlast
    rw [filterMap_append] at hlast
    change (_ ++ [(normally, s.shared.accepted)]).getLast? = _ at hlast
    rw [List.getLast?_concat] at hlast
    cases hlast
    rw [show s.shared.release.2.events = s.shared.events from rfl, hnormally rfl] at hmem
    cases hmem

theorem Served.take {queued : QueuedEvent} {events : List QueuedEvent}
    (hevents : s.shared.events = queued :: events)
    (hdraining : s.shared.draining) (hbefore : s.inHand = [])
    (hafter : drains.flatMap DrainPhase.inHand = [queued]) :
    Served log ⟨s.shared.take queued events, drains⟩ := by
  have hpriority := h.priority
  rw [hevents] at hpriority
  refine ⟨?_, hpriority.of_cons, h.bound, ?_⟩
  . intro hrunning
    rw [h.order hrunning, hbefore, hevents, inHand, hafter, append_nil, List.append_assoc]
    rfl
  . intro hidle
    rw [show (s.shared.take queued events).draining = s.shared.draining from rfl, hdraining] at hidle
    cases hidle

theorem Served.handle {queued : QueuedEvent}
    (hdraining : s.shared.draining) (hbefore : s.inHand = [queued])
    (hafter : drains.flatMap DrainPhase.inHand = []) :
    Served (log ++ [.handled queued s.shared.state])
      ⟨(s.shared.prepare queued.event).2, drains⟩ := by
  have hsame : (s.shared.prepare queued.event).2.accepted = s.shared.accepted ∧
      (s.shared.prepare queued.event).2.draining = s.shared.draining ∧
      ((s.shared.prepare queued.event).2.state = s.shared.state ∧
        (s.shared.prepare queued.event).2.events = s.shared.events ∨
      (s.shared.prepare queued.event).2.state ≠ .running ∧
        (s.shared.prepare queued.event).2.events = []) := by
    unfold FteQueryScheduler.prepare
    split
    . split
      . exact ⟨rfl, rfl, .inl ⟨rfl, rfl⟩⟩
      . exact ⟨rfl, rfl, .inl ⟨rfl, rfl⟩⟩
    . exact ⟨rfl, rfl, .inr ⟨by simp, rfl⟩⟩
    . exact ⟨rfl, rfl, .inl ⟨rfl, rfl⟩⟩
  obtain ⟨haccepted, hdraining', hevents⟩ := hsame
  have hbound : ∀ ended ∈ (log ++ [Entry.handled queued s.shared.state]).filterMap Entry.released?,
      ended.2 ≤ (s.shared.prepare queued.event).2.accepted := by
    intro ended hended
    rw [filterMap_append] at hended
    rw [haccepted]
    exact h.bound ended (by simpa [Entry.released?] using hended)
  have hreleased : (s.shared.prepare queued.event).2.draining = false → False := by
    rw [hdraining', hdraining]
    intro hidle
    cases hidle
  rcases hevents with ⟨hstate, hevents⟩ | ⟨hstate, hevents⟩
  . refine ⟨?_, ?_, hbound, fun hidle => (hreleased hidle).elim⟩
    . intro hrunning
      rw [hstate] at hrunning
      have horder := h.order hrunning
      rw [hbefore] at horder
      have haccepted : acceptedIn (log ++ [.handled queued s.shared.state]) = acceptedIn log := by
        unfold acceptedIn
        rw [filterMap_append]
        exact append_nil _
      have hhandled : handledIn (log ++ [.handled queued s.shared.state]) =
          handledIn log ++ [queued] := filterMap_append
      rw [haccepted, hhandled, inHand, hafter, append_nil, hevents, horder]
    . rw [hevents]
      exact h.priority
  . refine ⟨fun hrunning => absurd hrunning hstate, ?_, hbound, fun hidle => (hreleased hidle).elim⟩
    rw [hevents]
    exact List.Pairwise.nil

theorem Served.advanceAt
    (hexclusive : s.Exclusive DrainPhase.holds FteQueryScheduler.draining) (i : ℕ) (raises : Bool) :
    Served (log ++ s.emitAt Action.emitPhase i) (s.advanceAt (advance raises) i) := by
  rcases s.advanceAt_cases (advance raises) Action.emitPhase i with
    ⟨hsame, hemit⟩ | ⟨l₁, phase, l₂, hdrains, hstep, hemit⟩
  . rw [hsame, hemit, append_nil]
    exact h
  rw [hstep, hemit]
  -- a step that leaves the scheduler as it is to those who wait for it
  have hquiet : ∀ (phase' : DrainPhase) (scheduler : FteQueryScheduler),
      phase'.inHand = phase.inHand → scheduler.accepted = s.shared.accepted →
      scheduler.draining = s.shared.draining → scheduler.state = s.shared.state →
      scheduler.events = s.shared.events → Served (log ++ []) ⟨scheduler, l₁ ++ phase' :: l₂⟩ := by
    intro phase' scheduler hphase haccepted hdraining hstate hevents
    rw [append_nil]
    exact h.section_ haccepted (.inr hdraining) (inHand_replace hdrains hphase)
      (.inl ⟨hstate, hevents⟩)
  cases phase with
  | looping =>
    cases hevents : s.shared.events with
    | nil =>
      rw [advance_looping_nil raises hevents, Action.emitPhase, if_pos hevents]
      exact h.release true (fun _ => hevents) (inHand_replace hdrains rfl)
    | cons queued events =>
      rw [advance_looping_cons raises hevents, Action.emitPhase, hevents, if_neg (by simp),
        append_nil]
      refine h.take hevents (hexclusive.others_idle hdrains rfl).1 ?_
        (inHand_eq hexclusive hdrains rfl _)
      unfold inHand
      rw [hdrains]
      exact inHand_eq hexclusive hdrains rfl _
  | dequeued queued =>
    refine h.handle (hexclusive.others_idle hdrains rfl).1 ?_ ?_
    . unfold inHand
      rw [hdrains]
      exact inHand_eq hexclusive hdrains rfl _
    . rw [inHand_eq hexclusive hdrains rfl]
      unfold advance
      dsimp only
      split <;> rfl
  | handling queued => exact hquiet _ _ (by cases raises <;> rfl) rfl rfl rfl rfl
  | handled => exact hquiet _ _ rfl rfl rfl rfl rfl
  | resuming callbacks =>
    exact hquiet _ _ (by unfold advance; dsimp only; split <;> rfl) rfl rfl rfl rfl
  | raised =>
    exact h.release false (fun hnormally => by cases hnormally) (inHand_replace hdrains rfl)
  | unwinding callbacks => exact hquiet _ _ rfl rfl rfl rfl rfl
  | finishing callbacks =>
    exact hquiet _ _ (by unfold advance; dsimp only; split <;> rfl) rfl rfl rfl rfl
  | returned => exact hquiet _ _ rfl rfl rfl rfl rfl
  | failed => exact hquiet _ _ rfl rfl rfl rfl rfl

theorem Served.push (event : FteEvent) (priority : Bool)
    {scheduler : FteQueryScheduler} (haccepted : scheduler.accepted = s.shared.accepted)
    (hdraining : scheduler.draining = s.shared.draining)
    (hstate : scheduler.state = s.shared.state) (hevents : scheduler.events = s.shared.events) :
    Served (log ++ [.accepted ⟨event, priority, s.shared.accepted⟩])
      { s with shared := scheduler.push event priority } := by
  have hlog : acceptedIn (log ++ [.accepted ⟨event, priority, s.shared.accepted⟩]) =
      acceptedIn log ++ [⟨event, priority, s.shared.accepted⟩] := filterMap_append
  have hhandled : handledIn (log ++ [.accepted ⟨event, priority, s.shared.accepted⟩]) =
      handledIn log := by
    unfold handledIn
    rw [filterMap_append]
    exact append_nil _
  have hended : (log ++ [Entry.accepted ⟨event, priority, s.shared.accepted⟩]).filterMap
      Entry.released? = log.filterMap Entry.released? := by
    rw [filterMap_append]
    exact append_nil _
  have hpush : (scheduler.push event priority).events =
      if priority then ⟨event, priority, s.shared.accepted⟩ :: s.shared.events
      else s.shared.events ++ [⟨event, priority, s.shared.accepted⟩] := by
    rw [← hevents, ← haccepted]
    rfl
  have hcount : (scheduler.push event priority).accepted = s.shared.accepted + 1 := by
    rw [← haccepted]
    rfl
  refine ⟨?_, ?_, ?_, ?_⟩
  . intro hrunning
    have horder := h.order (hstate.symm.trans hrunning)
    rw [hlog, hhandled, hpush]
    show _ = others (handledIn log ++ s.inHand ++ _)
    cases priority with
    | true => simpa [others] using horder
    | false =>
      rw [others_append, horder]
      simp [others]
  . rw [hpush]
    cases priority with
    | true => exact List.Pairwise.cons (fun _ _ _ => rfl) h.priority
    | false =>
      refine List.pairwise_append.mpr ⟨h.priority, List.pairwise_singleton _ _, ?_⟩
      intro queued _ later hlater hpriority
      rw [mem_singleton.mp hlater] at hpriority
      cases hpriority
  . rw [hended]
    intro ended hmem
    have hbound := h.bound ended hmem
    show _ ≤ (scheduler.push event priority).accepted
    omega
  . unfold lastReleased
    rw [hended, hpush]
    intro hidle n hlast queued hmem
    have hold : queued ∈ s.shared.events → n ≤ queued.ticket :=
      h.released (hdraining.symm.trans hidle) n hlast queued
    have hbound := h.bound (true, n) (List.mem_of_getLast? hlast)
    cases priority with
    | true =>
      rcases mem_cons.mp hmem with rfl | hmem
      . exact hbound
      . exact hold hmem
    | false =>
      rcases mem_append.mp hmem with hmem | hmem
      . exact hold hmem
      . rw [mem_singleton.mp hmem]
        exact hbound

theorem Served.step
    (hexclusive : s.Exclusive DrainPhase.holds FteQueryScheduler.draining) (action : Action) :
    Served (log ++ action.emit s) (action.step s) := by
  cases action with
  | enqueue event priority =>
    unfold Action.emit Action.step enqueue
    dsimp only
    split
    . exact h.push event priority rfl rfl rfl rfl
    . rw [append_nil]
      exact h
  | drain =>
    show Served (log ++ []) (beginDrain s)
    rw [append_nil]
    unfold beginDrain
    split
    . exact h.section_ rfl (.inr rfl) (by simp [inHand, DrainPhase.inHand]) (.inl ⟨rfl, rfl⟩)
    . exact h.section_ rfl (.inl rfl) (by simp [inHand, DrainPhase.inHand]) (.inl ⟨rfl, rfl⟩)
  | advance i raises => exact h.advanceAt hexclusive i raises
  | fail reason =>
    show Served (log ++ []) _
    rw [append_nil]
    unfold Action.step fail
    dsimp only
    split
    . exact h
    . exact h.section_ rfl (.inr rfl) rfl
        (.inr ⟨by simp [FteQueryScheduler.resumeTaskSources], rfl⟩)
  | close =>
    show Served (log ++ []) _
    rw [append_nil]
    exact h.section_ rfl (.inr rfl) rfl (.inr ⟨by simp [Action.step, close], rfl⟩)
  | registerTaskSource sourceId hasPause hasResume high low =>
    show Served (log ++ []) _
    rw [append_nil]
    exact h.section_ rfl (.inr rfl) rfl (.inl ⟨rfl, rfl⟩)
  | unregisterTaskSource sourceId =>
    show Served (log ++ []) _
    rw [append_nil]
    exact h.section_ rfl (.inr rfl) rfl (.inl ⟨rfl, rfl⟩)
  | armRetryDelay hasDelay =>
    show Served (log ++ []) _
    rw [append_nil]
    exact h.section_ rfl (.inr rfl) rfl (.inl ⟨rfl, rfl⟩)

end

def new (queryId : String) : SchedulerSystem where
  shared := { queryId }

theorem settled_new (queryId : String) : (new queryId).Settled := by
  refine ⟨rfl, ?_, fun _ hmem => by cases hmem⟩
  rintro - ⟨_, hmem, -⟩
  cases hmem

theorem settled_served_run (queryId : String) (actions : List Action) :
    (Run.run Action.step actions (new queryId)).Settled ∧
      Served (Run.log Action.step Action.emit actions (new queryId))
        (Run.run Action.step actions (new queryId)) := by
  have hserved : Served [] (new queryId) :=
    ⟨fun _ => rfl, List.Pairwise.nil, fun _ hmem => (by cases hmem), fun _ _ hlast => (by cases hlast)⟩
  exact Run.run_log_invariant (fun log s => s.Settled ∧ Served log s) (P := fun _ _ => True)
    (fun action s log _ h => ⟨h.1.step action, h.2.step h.1.exclusive action⟩)
    (Run.always_of_forall (fun _ _ _ => trivial) (new queryId)) ⟨settled_new queryId, hserved⟩

theorem empty_queue_resumes_sources (queryId : String) (actions : List Action) :
    let s := Run.run Action.step actions (new queryId)
    (s.shared.events = [] → (∀ phase ∈ s.phases, phase.isBusy = false) →
        ∀ registration ∈ s.shared.taskSources.values, registration.paused = false) ∧
      ∀ callbacks, .finishing callbacks ∈ s.phases → callbacks = [] := by
  intro s
  obtain ⟨hsettled, -⟩ := settled_served_run queryId actions
  refine ⟨fun hevents hidle registration hmem => ?_, hsettled.finishing⟩
  by_contra hpaused
  obtain ⟨phase, hphase, hbusy⟩ :=
    hsettled.resumes hevents ⟨registration, hmem, Bool.of_not_eq_false hpaused⟩
  rw [hidle phase hphase] at hbusy
  cases hbusy

end SchedulerSystem

end Vane
