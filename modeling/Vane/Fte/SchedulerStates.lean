import Vane.Fte.SingleDrainer

/-! This module contains the verification of the states in which a scheduler ends. -/

namespace Vane


namespace SchedulerSystem

variable {s s' : SchedulerSystem}

/--
A query is not aborted after its scheduler has failed or was closed, and the scheduler is not failed or
closed between the time at which an event is taken and the time at which it is handled.
-/
def Action.Clean : Action → SchedulerSystem → Prop
  | enqueue event _, s =>
    event.kind = .queryAbort → s.shared.state = .running ∨ s.shared.state = .aborted
  | fail _, s => s.shared.state = .running ∨ s.shared.state = .aborted → s.inHand = []
  | close, s => s.inHand = []
  | _, _ => True

instance : (action : Action) → (s : SchedulerSystem) → Decidable (action.Clean s)
  | .enqueue .., _ | .fail _, _ => inferInstanceAs (Decidable (_ → _))
  | .close, s => inferInstanceAs (Decidable (s.inHand = []))
  | .drain, _ | .advance .., _ | .registerTaskSource .., _ | .unregisterTaskSource _, _
  | .armRetryDelay _, _ => inferInstanceAs (Decidable True)

structure Guarded (s : SchedulerSystem) : Prop where
  settled : s.Settled
  aborts : s.shared.state ≠ .running → ∀ queued ∈ s.inHand ++ s.shared.events, queued.isAbort
  ended : s.shared.state = .failed ∨ s.shared.state = .closed →
    s.inHand = [] ∧ s.shared.events = []

structure Orderly (s s' : SchedulerSystem) (entries : List Entry) : Prop where
  closed : s.shared.state = .closed → s'.shared.state = .closed
  failed : s.shared.state = .failed → s'.shared.state = .closed ∨
    s'.shared.state = .failed ∧ s'.shared.failureReason = s.shared.failureReason
  running : s.shared.state ≠ .running → s'.shared.state ≠ .running
  handled : ∀ queued state, .handled queued state ∈ entries → s.shared.state ≠ .running →
    queued.isAbort ∧ s.shared.state ≠ .closed

theorem orderly_of_state {entries : List Entry} (hstate : s'.shared.state = s.shared.state)
    (hreason : s'.shared.failureReason = s.shared.failureReason)
    (hentries : ∀ queued state, .handled queued state ∉ entries) : Orderly s s' entries := by
  refine ⟨?_, ?_, ?_, ?_⟩
  . exact fun h => hstate.trans h
  . exact fun h => .inr ⟨hstate.trans h, hreason⟩
  . rw [hstate]
    exact id
  . exact fun queued state hmem => absurd hmem (hentries queued state)

theorem Guarded.same (h : s.Guarded) (hsettled : s'.Settled)
    (hstate : s'.shared.state = s.shared.state)
    (hevents : s'.shared.events = s.shared.events) (hinHand : s'.inHand = s.inHand) :
    s'.Guarded := by
  refine ⟨hsettled, ?_, ?_⟩
  . rw [hstate, hinHand, hevents]
    exact h.aborts
  . rw [hstate, hinHand, hevents]
    exact h.ended

theorem guarded_of_empty (hsettled : s'.Settled)
    (hinHand : s'.inHand = []) (hevents : s'.shared.events = []) : s'.Guarded := by
  refine ⟨hsettled, ?_, fun _ => ⟨hinHand, hevents⟩⟩
  rw [hinHand, hevents]
  simp

theorem prepare_cases (event : FteEvent) (scheduler : FteQueryScheduler) :
    (event.kind = .queryAbort ∧ (scheduler.prepare event).2.state = .aborted ∧
        (scheduler.prepare event).2.events = []) ∨
      (scheduler.prepare event).2.state = scheduler.state ∧
        (scheduler.prepare event).2.events = scheduler.events := by
  unfold FteQueryScheduler.prepare
  split
  . split
    . exact .inr ⟨rfl, rfl⟩
    . exact .inr ⟨rfl, rfl⟩
  . next hkind => exact .inl ⟨hkind, rfl, rfl⟩
  . exact .inr ⟨rfl, rfl⟩

theorem Guarded.handle {queued : QueuedEvent} (h : s.Guarded)
    (hsettled : s'.Settled) (hbefore : s.inHand = [queued]) (hafter : s'.inHand = [])
    (hscheduler : s'.shared = (s.shared.prepare queued.event).2) :
    s'.Guarded ∧ Orderly s s' [.handled queued s.shared.state] := by
  have hlive : ¬(s.shared.state = .failed ∨ s.shared.state = .closed) := by
    intro hended
    have hempty := (h.ended hended).1
    rw [hbefore] at hempty
    cases hempty
  have hcases := prepare_cases queued.event s.shared
  rw [← hscheduler] at hcases
  refine ⟨?_, ?_, ?_, ?_, ?_⟩
  . rcases hcases with ⟨-, -, hevents⟩ | ⟨hstate, hevents⟩
    . exact guarded_of_empty hsettled hafter hevents
    . refine ⟨hsettled, ?_, ?_⟩
      . intro hne
        rw [hstate] at hne
        intro other hother
        rw [hafter, List.nil_append, hevents] at hother
        exact h.aborts hne other (List.mem_append_right _ hother)
      . intro hended
        rw [hstate] at hended
        exact absurd hended hlive
  . exact fun hclosed => absurd (.inr hclosed) hlive
  . exact fun hfailed => absurd (.inl hfailed) hlive
  . intro hne
    rcases hcases with ⟨-, hstate, -⟩ | ⟨hstate, -⟩
    . rw [hstate]
      simp
    . rw [hstate]
      exact hne
  . intro other state hmem hne
    cases List.mem_singleton.mp hmem
    exact ⟨h.aborts hne queued (by rw [hbefore]; simp), fun hclosed => hlive (.inr hclosed)⟩

theorem Guarded.advanceAt (h : s.Guarded) (i : ℕ) (raises : Bool) :
    Guarded (s.advanceAt (advance raises) i) ∧
      Orderly s (s.advanceAt (advance raises) i) (s.emitAt Action.emitPhase i) := by
  have hsettled := h.settled.advanceAt i raises
  rcases s.advanceAt_cases (advance raises) Action.emitPhase i with
    ⟨hsame, hemit⟩ | ⟨l₁, phase, l₂, hdrains, hstep, hemit⟩
  . rw [hsame, hemit]
    exact ⟨h, orderly_of_state rfl rfl (by simp)⟩
  rw [hstep] at hsettled ⊢
  rw [hemit]
  have hquiet : ∀ (phase' : DrainPhase) (scheduler : FteQueryScheduler) (entries : List Entry),
      Settled ⟨scheduler, l₁ ++ phase' :: l₂⟩ → phase'.inHand = phase.inHand →
      scheduler.state = s.shared.state → scheduler.failureReason = s.shared.failureReason →
      scheduler.events = s.shared.events → (∀ queued state, .handled queued state ∉ entries) →
      Guarded ⟨scheduler, l₁ ++ phase' :: l₂⟩ ∧
        Orderly s ⟨scheduler, l₁ ++ phase' :: l₂⟩ entries := by
    intro phase' scheduler entries hsettled hphase hstate hreason hevents hentries
    exact ⟨h.same hsettled hstate hevents (inHand_replace hdrains hphase),
      orderly_of_state hstate hreason hentries⟩
  cases phase with
  | looping =>
    cases hevents : s.shared.events with
    | nil =>
      rw [advance_looping_nil raises hevents] at hsettled ⊢
      rw [Action.emitPhase, if_pos hevents]
      exact hquiet _ _ _ hsettled rfl rfl rfl rfl (by simp)
    | cons queued events =>
      rw [advance_looping_cons raises hevents] at hsettled ⊢
      rw [Action.emitPhase, hevents, if_neg (by simp)]
      have hinHand := inHand_eq h.settled.exclusive hdrains rfl (.dequeued queued)
      refine ⟨⟨hsettled, ?_, ?_⟩, orderly_of_state rfl rfl (by simp)⟩
      . intro hne other hother
        apply h.aborts hne other
        rw [hevents]
        apply List.mem_append_right
        rw [inHand, hinHand] at hother
        exact hother
      . intro hended
        have hempty := (h.ended hended).2
        rw [hevents] at hempty
        cases hempty
  | dequeued queued =>
    refine h.handle hsettled ?_ ?_ rfl
    . unfold inHand
      rw [hdrains]
      exact inHand_eq h.settled.exclusive hdrains rfl _
    . unfold inHand
      rw [inHand_eq h.settled.exclusive hdrains rfl]
      unfold advance
      dsimp only
      split <;> rfl
  | handling queued =>
    exact hquiet _ _ _ hsettled (by cases raises <;> rfl) rfl rfl rfl (by simp [Action.emitPhase])
  | handled => exact hquiet _ _ _ hsettled rfl rfl rfl rfl (by simp [Action.emitPhase])
  | resuming callbacks =>
    exact hquiet _ _ _ hsettled (by unfold advance; dsimp only; split <;> rfl) rfl rfl rfl
      (by simp [Action.emitPhase])
  | raised => exact hquiet _ _ _ hsettled rfl rfl rfl rfl (by simp [Action.emitPhase])
  | unwinding callbacks => exact hquiet _ _ _ hsettled rfl rfl rfl rfl (by simp [Action.emitPhase])
  | finishing callbacks =>
    exact hquiet _ _ _ hsettled (by unfold advance; dsimp only; split <;> rfl) rfl rfl rfl
      (by simp [Action.emitPhase])
  | returned => exact hquiet _ _ _ hsettled rfl rfl rfl rfl (by simp [Action.emitPhase])
  | failed => exact hquiet _ _ _ hsettled rfl rfl rfl rfl (by simp [Action.emitPhase])

theorem Guarded.enqueue (h : s.Guarded) (event : FteEvent) (priority : Bool)
    (hclean : (Action.enqueue event priority).Clean s) :
    ((Action.enqueue event priority).step s).Guarded ∧
      Orderly s ((Action.enqueue event priority).step s) ((Action.enqueue event priority).emit s) := by
  have hsettled := h.settled.step (.enqueue event priority)
  unfold Action.step Action.emit FteQueryScheduler.enqueue at *
  dsimp only at *
  split
  . next haccepts =>
    rw [if_pos haccepts] at hsettled
    have hlive : ¬(s.shared.state = .failed ∨ s.shared.state = .closed) := by
      rintro hended
      rcases haccepts.2.1 with hrunning | habort
      . rw [hrunning] at hended
        simp at hended
      . rcases hclean habort with hstate | hstate
        . rw [hstate] at hended
          simp at hended
        . rw [hstate] at hended
          simp at hended
    refine ⟨⟨hsettled, ?_, fun hended => absurd hended hlive⟩, orderly_of_state rfl rfl (by simp)⟩
    intro hne queued hmem
    have habort : event.kind = .queryAbort := haccepts.2.1.resolve_left hne
    have hold : queued ∈ s.inHand ++ s.shared.events → queued.isAbort := h.aborts hne queued
    have hnew : queued = ⟨event, priority, s.shared.accepted⟩ → queued.isAbort := by
      rintro rfl
      exact decide_eq_true habort
    rcases List.mem_append.mp hmem with hmem | hmem
    . exact hold (List.mem_append_left _ hmem)
    . cases priority with
      | true =>
        rcases List.mem_cons.mp hmem with hmem | hmem
        . exact hnew hmem
        . exact hold (List.mem_append_right _ hmem)
      | false =>
        rcases List.mem_append.mp hmem with hmem | hmem
        . exact hold (List.mem_append_right _ hmem)
        . exact hnew (List.mem_singleton.mp hmem)
  . exact ⟨h, orderly_of_state rfl rfl (by simp)⟩

theorem Guarded.step (h : s.Guarded) (action : Action) (hclean : action.Clean s) :
    (action.step s).Guarded ∧ Orderly s (action.step s) (action.emit s) := by
  have hsettled := h.settled.step action
  cases action with
  | enqueue event priority => exact h.enqueue event priority hclean
  | drain =>
    have hscheduler : (Action.drain.step s).shared.state = s.shared.state ∧
        (Action.drain.step s).shared.events = s.shared.events ∧
        (Action.drain.step s).shared.failureReason = s.shared.failureReason ∧
        (Action.drain.step s).inHand = s.inHand := by
      show (beginDrain s).shared.state = _ ∧ (beginDrain s).shared.events = _ ∧
        (beginDrain s).shared.failureReason = _ ∧ inHand (beginDrain s) = _
      unfold beginDrain
      split
      . exact ⟨rfl, rfl, rfl, by simp [inHand, DrainPhase.inHand]⟩
      . exact ⟨rfl, rfl, rfl, by simp [inHand, DrainPhase.inHand]⟩
    obtain ⟨hstate, hevents, hreason, hinHand⟩ := hscheduler
    exact ⟨h.same hsettled hstate hevents hinHand,
      orderly_of_state hstate hreason (by simp [Action.emit])⟩
  | advance i raises => exact h.advanceAt i raises
  | fail reason =>
    unfold Action.step FteQueryScheduler.fail at *
    dsimp only at *
    split
    . exact ⟨h, orderly_of_state rfl rfl (by simp [Action.emit])⟩
    . next hlive =>
      rw [if_neg hlive] at hsettled
      have hstate : s.shared.state = .running ∨ s.shared.state = .aborted := by
        cases hcase : s.shared.state with
        | running => exact .inl rfl
        | aborted => exact .inr rfl
        | failed => exact absurd (.inr hcase) hlive
        | closed => exact absurd (.inl hcase) hlive
      refine ⟨guarded_of_empty hsettled (hclean hstate) rfl, ?_, ?_, ?_, by simp [Action.emit]⟩
      . exact fun hclosed => absurd (.inl hclosed) hlive
      . exact fun hfailed => absurd (.inr hfailed) hlive
      . simp [FteQueryScheduler.resumeTaskSources]
  | close =>
    refine ⟨guarded_of_empty hsettled hclean rfl, fun _ => rfl, fun _ => .inl rfl, ?_,
      by simp [Action.emit]⟩
    simp [Action.step, FteQueryScheduler.close]
  | registerTaskSource sourceId hasPause hasResume high low =>
    exact ⟨h.same hsettled rfl rfl rfl, orderly_of_state rfl rfl (by simp [Action.emit])⟩
  | unregisterTaskSource sourceId =>
    exact ⟨h.same hsettled rfl rfl rfl, orderly_of_state rfl rfl (by simp [Action.emit])⟩
  | armRetryDelay hasDelay =>
    exact ⟨h.same hsettled rfl rfl rfl, orderly_of_state rfl rfl (by simp [Action.emit])⟩

structure Lasts (s : SchedulerSystem) (log : List Entry) (s' : SchedulerSystem) : Prop where
  guarded : s'.Guarded
  closed : s.shared.state = .closed → s'.shared.state = .closed ∧ handledIn log = []
  failed : s.shared.state = .failed → s'.shared.state = .closed ∨
    s'.shared.state = .failed ∧ s'.shared.failureReason = s.shared.failureReason
  running : s.shared.state ≠ .running → s'.shared.state ≠ .running ∧
    ∀ queued ∈ handledIn log, queued.isAbort

theorem mem_handledIn {log : List Entry} {queued : QueuedEvent} :
    queued ∈ handledIn log ↔ ∃ state, .handled queued state ∈ log := by
  unfold handledIn
  rw [List.mem_filterMap]
  constructor
  . rintro ⟨entry, hmem, hentry⟩
    cases entry with
    | handled other state =>
      cases hentry
      exact ⟨state, hmem⟩
    | accepted other => cases hentry
    | released normally n => cases hentry
  . rintro ⟨state, hmem⟩
    exact ⟨_, hmem, rfl⟩

theorem Lasts.step {log : List Entry} (h : Lasts s log s') (action : Action)
    (hclean : action.Clean s') : Lasts s (log ++ action.emit s') (action.step s') := by
  obtain ⟨hguarded, horderly⟩ := h.guarded.step action hclean
  have hhandled : handledIn (log ++ action.emit s') = handledIn log ++ handledIn (action.emit s') :=
    List.filterMap_append
  refine ⟨hguarded, ?_, ?_, ?_⟩
  . intro hclosed
    obtain ⟨hstate, hnone⟩ := h.closed hclosed
    refine ⟨horderly.closed hstate, ?_⟩
    rw [hhandled, hnone, List.nil_append, List.eq_nil_iff_forall_not_mem]
    intro queued hmem
    obtain ⟨state, hmem⟩ := mem_handledIn.mp hmem
    exact (horderly.handled queued state hmem (by rw [hstate]; simp)).2 hstate
  . intro hfailed
    rcases h.failed hfailed with hstate | ⟨hstate, hreason⟩
    . exact .inl (horderly.closed hstate)
    . rcases horderly.failed hstate with hstate | ⟨hstate, hsame⟩
      . exact .inl hstate
      . exact .inr ⟨hstate, hsame.trans hreason⟩
  . intro hne
    obtain ⟨hstate, haborts⟩ := h.running hne
    refine ⟨horderly.running hstate, ?_⟩
    intro queued hmem
    rw [hhandled] at hmem
    rcases List.mem_append.mp hmem with hmem | hmem
    . exact haborts queued hmem
    . obtain ⟨state, hmem⟩ := mem_handledIn.mp hmem
      exact (horderly.handled queued state hmem hstate).1

theorem terminal_states_hold (queryId : String) (before after : List Action)
    (hclean : Run.Always Action.step Action.Clean (before ++ after) (new queryId)) :
    ((Run.run Action.step before (new queryId)).shared.state = .closed →
      (Run.run Action.step after (Run.run Action.step before (new queryId))).shared.state = .closed ∧
      handledIn (Run.log Action.step Action.emit after
        (Run.run Action.step before (new queryId))) = []) ∧
    ((Run.run Action.step before (new queryId)).shared.state = .failed →
      (Run.run Action.step after (Run.run Action.step before (new queryId))).shared.state = .closed ∨
      (Run.run Action.step after (Run.run Action.step before (new queryId))).shared.state = .failed ∧
      (Run.run Action.step after
          (Run.run Action.step before (new queryId))).shared.failureReason =
        (Run.run Action.step before (new queryId)).shared.failureReason) ∧
    ((Run.run Action.step before (new queryId)).shared.state ≠ .running →
      (Run.run Action.step after (Run.run Action.step before (new queryId))).shared.state ≠
        .running ∧
      ∀ queued ∈ handledIn (Run.log Action.step Action.emit after
        (Run.run Action.step before (new queryId))), queued.isAbort) := by
  rw [Run.always_append] at hclean
  have hbegin : (new queryId).Guarded := guarded_of_empty (settled_new queryId) rfl rfl
  have hbefore := Run.run_invariant_of_always Guarded
    (fun action s hclean h => (Guarded.step h action hclean).1) hclean.1 hbegin
  have hstart : Lasts (Run.run Action.step before (new queryId)) []
      (Run.run Action.step before (new queryId)) :=
    ⟨hbefore, fun hclosed => ⟨hclosed, rfl⟩, fun hfailed => .inr ⟨hfailed, rfl⟩,
      fun hne => ⟨hne, fun _ hmem => by cases hmem⟩⟩
  have hafter := Run.run_log_invariant (Lasts (Run.run Action.step before (new queryId)))
    (fun action s log hclean h => Lasts.step h action hclean) hclean.2 hstart
  rw [List.nil_append] at hafter
  exact ⟨hafter.closed, hafter.failed, hafter.running⟩

namespace Sample

def status : FteEvent := ⟨"q", .taskStatusChanged⟩

def abort : FteEvent := ⟨"q", .queryAbort⟩

def failing : List Action :=
  [.enqueue status false, .enqueue status false, .drain, .advance 0 false, .advance 0 false,
    .fail (some "lost")]

def draining : List Action :=
  [.advance 0 true, .advance 0 false, .enqueue status false, .drain, .advance 1 false, .fail none]

def aborting : List Action := [.enqueue abort false, .drain, .advance 0 false, .advance 0 false]

end Sample

theorem terminal_states_hold_failing :
    Run.Always Action.step Action.Clean (Sample.failing ++ Sample.draining) (new "q") ∧
      (Run.run Action.step Sample.draining
        (Run.run Action.step Sample.failing (new "q"))).shared.failureReason = some "lost" ∧
      (∀ queued ∈ handledIn (Run.log Action.step Action.emit Sample.draining
        (Run.run Action.step Sample.failing (new "q"))), queued.isAbort) := by
  have hclean : Run.Always Action.step Action.Clean (Sample.failing ++ Sample.draining) (new "q") := by
    decide +kernel
  refine ⟨hclean, by decide +kernel, ?_⟩
  exact ((terminal_states_hold "q" Sample.failing Sample.draining hclean).2.2 (by decide +kernel)).2

theorem closed_scheduler_is_aborted :
    (Run.run Action.step [.close] (new "q")).shared.state = .closed ∧
      (Run.run Action.step Sample.aborting
        (Run.run Action.step [.close] (new "q"))).shared.state = .aborted ∧
      handledIn (Run.log Action.step Action.emit Sample.aborting
        (Run.run Action.step [.close] (new "q"))) ≠ [] ∧
      Run.log Action.step Action.emit [.enqueue Sample.status false, .drain, .advance 0 false,
        .fail (some "lost"), .advance 0 false] (new "q") =
          [.accepted ⟨Sample.status, false, 0⟩, .handled ⟨Sample.status, false, 0⟩ .failed] := by
  decide +kernel

end SchedulerSystem

end Vane
