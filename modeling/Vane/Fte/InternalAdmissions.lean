import Vane.Fte.SingleDrainer

/-!
This module contains the verification that internal admission events are queued once for each class.
-/

namespace Vane

namespace FteQueryScheduler

variable {scheduler scheduler' : FteQueryScheduler}

def internalAdmissions (self : FteQueryScheduler) : List (Option String) :=
  self.events.filterMap fun queued => internalClass queued.event

structure Deduplicated (scheduler : FteQueryScheduler) : Prop where
  nodup : scheduler.internalAdmissions.Nodup
  mem_iff : ∀ executionClass, executionClass ∈ scheduler.queuedInternalAdmissionClasses ↔
    executionClass ∈ scheduler.internalAdmissions

theorem Deduplicated.same (h : scheduler.Deduplicated) (hevents : scheduler'.events = scheduler.events)
    (hclasses : scheduler'.queuedInternalAdmissionClasses = scheduler.queuedInternalAdmissionClasses) :
    scheduler'.Deduplicated := by
  constructor
  . rw [internalAdmissions, hevents]
    exact h.nodup
  . rw [internalAdmissions, hevents, hclasses]
    exact h.mem_iff

theorem deduplicated_of_empty (hevents : scheduler.events = [])
    (hclasses : scheduler.queuedInternalAdmissionClasses = []) : scheduler.Deduplicated := by
  constructor
  . rw [internalAdmissions, hevents]
    exact List.nodup_nil
  . rw [internalAdmissions, hevents, hclasses]
    exact fun _ => Iff.rfl

theorem internalAdmissions_enqueue {event : FteEvent} (priority : Bool) (h : scheduler.Accepts event) :
    (scheduler.enqueue event priority).internalAdmissions.Perm
      ((internalClass event).toList ++ scheduler.internalAdmissions) := by
  have hclass : [(⟨event, priority, scheduler.accepted⟩ : QueuedEvent)].filterMap
      (fun queued => internalClass queued.event) = (internalClass event).toList := by
    cases hclass : internalClass event <;> simp [hclass]
  unfold enqueue push internalAdmissions
  rw [if_pos h, ← hclass, ← List.filterMap_append]
  cases priority with
  | true => exact .rfl
  | false => exact List.perm_append_comm.filterMap _

section

variable (h : scheduler.Deduplicated)

include h

theorem Deduplicated.enqueue (event : FteEvent) (priority : Bool) :
    (scheduler.enqueue event priority).Deduplicated := by
  by_cases haccepts : scheduler.Accepts event
  . have hperm := internalAdmissions_enqueue priority haccepts
    have hclasses : (scheduler.enqueue event priority).queuedInternalAdmissionClasses =
        (internalClass event).toList ++ scheduler.queuedInternalAdmissionClasses := by
      rw [FteQueryScheduler.enqueue, if_pos haccepts]
      rfl
    constructor
    . rw [hperm.nodup_iff]
      refine List.Nodup.append (by cases internalClass event <;> simp) h.nodup ?_
      intro executionClass hmem hqueued
      exact haccepts.2.2 executionClass (Option.mem_toList.mp hmem) ((h.mem_iff _).mpr hqueued)
    . intro executionClass
      rw [hperm.mem_iff, hclasses, List.mem_append, List.mem_append, h.mem_iff]
  . rw [FteQueryScheduler.enqueue, if_neg haccepts]
    exact h

theorem Deduplicated.take {queued : QueuedEvent}
    {events : List QueuedEvent} (hevents : scheduler.events = queued :: events) :
    (scheduler.take queued events).Deduplicated := by
  have hnodup := h.nodup
  have hmem := h.mem_iff
  unfold internalAdmissions at hnodup hmem
  rw [hevents] at hnodup hmem
  unfold FteQueryScheduler.take
  cases hclass : internalClass queued.event with
  | none =>
    simp only [List.filterMap_cons, hclass] at hnodup hmem
    exact ⟨hnodup, by simpa [internalAdmissions] using hmem⟩
  | some executionClass =>
    simp only [List.filterMap_cons, hclass, List.nodup_cons] at hnodup hmem
    refine ⟨hnodup.2, ?_⟩
    intro other
    rw [List.mem_filter, hmem, List.mem_cons, decide_eq_true_iff, ne_eq, Option.some_inj]
    constructor
    . exact fun ⟨hor, hne⟩ => hor.resolve_left hne
    . exact fun hother => ⟨.inr hother, fun heq => hnodup.1 (heq ▸ hother)⟩

theorem Deduplicated.prepare (event : FteEvent) : (scheduler.prepare event).2.Deduplicated := by
  unfold FteQueryScheduler.prepare
  split
  . split
    . exact h.same rfl rfl
    . exact h
  . exact deduplicated_of_empty rfl rfl
  . exact h

end

end FteQueryScheduler

namespace SchedulerSystem

variable {s : SchedulerSystem}

open FteQueryScheduler (deduplicated_of_empty)

theorem deduplicated_advance {scheduler : FteQueryScheduler} (h : scheduler.Deduplicated)
    (raises : Bool) (phase : DrainPhase) : (advance raises scheduler phase).2.Deduplicated := by
  cases phase with
  | looping =>
    cases hevents : scheduler.events with
    | nil =>
      rw [advance_looping_nil raises hevents]
      exact h.same rfl rfl
    | cons queued events =>
      rw [advance_looping_cons raises hevents]
      exact h.take hevents
  | dequeued queued => exact h.prepare queued.event
  | handled => exact h.same rfl rfl
  | raised => exact h.same rfl rfl
  | _ => exact h

theorem deduplicated_step (h : s.shared.Deduplicated) (action : Action) :
    (action.step s).shared.Deduplicated := by
  cases action with
  | enqueue event priority => exact h.enqueue event priority
  | drain =>
    unfold Action.step beginDrain
    dsimp only
    split <;> exact h.same rfl rfl
  | advance i raises =>
    rcases s.advanceAt_cases (advance raises) Action.emitPhase i with
      ⟨hsame, -⟩ | ⟨l₁, phase, l₂, -, hstep, -⟩
    . rw [Action.step, hsame]
      exact h
    . rw [Action.step, hstep]
      exact deduplicated_advance h raises phase
  | fail reason =>
    unfold Action.step FteQueryScheduler.fail
    dsimp only
    split
    . exact h
    . exact deduplicated_of_empty rfl rfl
  | close => exact deduplicated_of_empty rfl rfl
  | _ => exact h.same rfl rfl

theorem internal_admissions_deduplicated (queryId : String) (actions : List Action) :
    (Run.run Action.step actions (new queryId)).shared.Deduplicated ∧
      ∀ executionClass priority,
        (Run.run Action.step actions (new queryId)).shared.state = .running →
        ((Run.run Action.step actions (new queryId)).shared.enqueue
          ⟨(Run.run Action.step actions (new queryId)).shared.queryId,
            .resourceAdmissionChanged executionClass true⟩ priority).internalAdmissions.count
              executionClass = 1 := by
  have h : (Run.run Action.step actions (new queryId)).shared.Deduplicated :=
    Run.run_invariant (fun s : SchedulerSystem => s.shared.Deduplicated)
      (fun action _ _ h => deduplicated_step h action) (deduplicated_of_empty rfl rfl)
  refine ⟨h, fun executionClass priority hrunning => ?_⟩
  generalize (Run.run Action.step actions (new queryId)).shared = scheduler at h hrunning
  set event : FteEvent := ⟨scheduler.queryId, .resourceAdmissionChanged executionClass true⟩
  rw [List.count_eq_one_of_mem (h.enqueue event priority).nodup]
  by_cases hqueued : executionClass ∈ scheduler.queuedInternalAdmissionClasses
  . have hrejects : ¬scheduler.Accepts event := fun h => h.2.2 executionClass rfl hqueued
    rw [FteQueryScheduler.enqueue, if_neg hrejects]
    exact (h.mem_iff _).mp hqueued
  . have haccepts : scheduler.Accepts event :=
      ⟨rfl, .inl hrunning, fun _ hclass => Option.some_inj.mp hclass ▸ hqueued⟩
    rw [(FteQueryScheduler.internalAdmissions_enqueue priority haccepts).mem_iff]
    exact List.mem_cons_self

theorem internal_admissions_deduplicated_empty :
    ((new "q").shared.enqueue ⟨"q", .resourceAdmissionChanged none true⟩ false).internalAdmissions.count
      none = 1 :=
  (internal_admissions_deduplicated "q" []).2 none false rfl

end SchedulerSystem

end Vane
