import Vane.Fte.TaskPartition

/-! This module contains the verification of the attempts of a task partition. -/

namespace Vane

open Py (ensures_bind ensures_get_bind ensures_ite ensures_lift_bind ensures_modify_bind
  ensures_raiseIf ensures_raiseIf_bind)

namespace FteTaskPartition

variable {p p' : FteTaskPartition} {numbers : List ℕ} (attempt : FteTaskAttemptId)

structure SameAttempts (p p' : FteTaskPartition) : Prop where
  taskId : p'.taskId = p.taskId
  maxAttempts : p'.maxAttempts = p.maxAttempts
  remainingAttempts : p'.remainingAttempts = p.remainingAttempts
  finished : p'.finished = p.finished
  failed : p'.failed = p.failed
  runningAttempts : p'.runningAttempts = p.runningAttempts
  selectedAttempt : p'.selectedAttempt = p.selectedAttempt
  failures : p'.failures = p.failures

inductive Effect (p : FteTaskPartition) : List ℕ → FteTaskPartition → Prop where
  | quiet {p' : FteTaskPartition} (same : SameAttempts p p') : Effect p [] p'
  | started {p' : FteTaskPartition} (running : RunningAttempt)
      (this : running.attemptId = ⟨p.taskId, p.maxAttempts - p.remainingAttempts⟩)
      (isOpen : ¬(p.finished ∨ p.failed)) (isIdle : p.runningAttempts = ∅)
      (left : p.remainingAttempts ≠ 0)
      (same : SameAttempts { p with
        runningAttempts := p.runningAttempts.insert (p.maxAttempts - p.remainingAttempts) running }
        p') : Effect p [p.maxAttempts - p.remainingAttempts] p'
  | finished {p' : FteTaskPartition} (a : ℕ) (running : RunningAttempt)
      (found : p.runningAttempts.find? a = some running)
      (same : SameAttempts { p with
        finished := true
        failed := false
        selectedAttempt := some a
        runningAttempts := ∅ } p') : Effect p [] p'
  | lost {p' : FteTaskPartition} (a : ℕ) (running : RunningAttempt) (error : Failure) (retries : Bool)
      (found : p.runningAttempts.find? a = some running) (notFinished : ¬p.finished)
      (exhausted : p.remainingAttempts - 1 = 0 → retries = false)
      (same : SameAttempts { p.loseAttempt a error with failed := p.failed || !retries } p') :
      Effect p [] p'

theorem SameAttempts.refl (p : FteTaskPartition) : SameAttempts p p :=
  ⟨rfl, rfl, rfl, rfl, rfl, rfl, rfl, rfl⟩

theorem SameAttempts.trans {p'' : FteTaskPartition} (h : SameAttempts p p')
    (h' : SameAttempts p' p'') : SameAttempts p p'' where
  taskId := h'.taskId.trans h.taskId
  maxAttempts := h'.maxAttempts.trans h.maxAttempts
  remainingAttempts := h'.remainingAttempts.trans h.remainingAttempts
  finished := h'.finished.trans h.finished
  failed := h'.failed.trans h.failed
  runningAttempts := h'.runningAttempts.trans h.runningAttempts
  selectedAttempt := h'.selectedAttempt.trans h.selectedAttempt
  failures := h'.failures.trans h.failures

theorem entries_eq_nil {κ ν : Type} {d : Dict κ ν} (h : ¬d.entries ≠ []) : d = ∅ := by
  apply Dict.ext
  rw [Dict.entries_empty]
  exact not_ne_iff.mp h

theorem nextAttemptNumber_eq_ok {n : ℕ} (h : p.nextAttemptNumber = .ok n) :
    p.remainingAttempts ≠ 0 ∧ n = p.maxAttempts - p.remainingAttempts := by
  obtain ⟨_, hleft, hn⟩ := Except.ok_of_bind h
  rw [Except.raiseIf_eq_ok_iff] at hleft
  cases hn
  exact ⟨hleft, rfl⟩

theorem ensures_startAttempt (sinkInstance : Option SinkInstance) (workerId : Option String) :
    (startAttempt sinkInstance workerId).Ensures p
      (fun scheduled p' =>
        scheduled.attemptId = ⟨p.taskId, p.maxAttempts - p.remainingAttempts⟩ ∧
        scheduled.request.initialSplits = p.descriptor.initialSplits ∧
        scheduled.request.noMoreSplits = p.descriptor.noMoreSplits ∧
        ¬(p.finished ∨ p.failed) ∧ p.runningAttempts = ∅ ∧ p.remainingAttempts ≠ 0 ∧
        p' = { p with
          executionReadyDeferred := false
          runningAttempts := p.runningAttempts.insert (p.maxAttempts - p.remainingAttempts)
            ⟨scheduled.attemptId, workerId, sinkInstance⟩
          runningTaskStats := p.runningTaskStats.erase (p.maxAttempts - p.remainingAttempts) })
      fun _ p' => p' = p := by
  unfold startAttempt
  rw [ensures_get_bind, ensures_raiseIf_bind]
  refine ⟨fun _ => rfl, fun hopen => ?_⟩
  rw [ensures_raiseIf_bind]
  refine ⟨fun _ => rfl, fun hidle => ?_⟩
  rw [ensures_lift_bind]
  refine ⟨fun n hn => ?_, fun _ _ => rfl⟩
  obtain ⟨hleft, rfl⟩ := nextAttemptNumber_eq_ok hn
  rw [ensures_modify_bind, Py.ensures_pure]
  exact ⟨rfl, rfl, rfl, hopen, entries_eq_nil hidle, hleft, rfl⟩

theorem ensures_markAttemptFinished (outputStats : Option Stats) :
    (markAttemptFinished attempt outputStats).Ensures p
      (fun changed p' => attempt.taskId = p.taskId ∧
        (changed = false ∧ p.runningAttempts.find? attempt.attemptId = none ∧ p' = p ∨
        changed = true ∧ p'.descriptor = p.descriptor ∧ p'.sinkHandle = p.sinkHandle ∧
          ∃ running, p.runningAttempts.find? attempt.attemptId = some running ∧
            SameAttempts { p with
              finished := true
              failed := false
              selectedAttempt := some attempt.attemptId
              runningAttempts := ∅ } p'))
      fun _ p' => p' = p := by
  unfold markAttemptFinished
  rw [ensures_get_bind, ensures_bind]
  unfold validateAttemptTask
  rw [ensures_raiseIf]
  refine ⟨fun _ => rfl, fun htask => ?_⟩
  split
  . next hnone => exact ⟨not_ne_iff.mp htask, .inl ⟨rfl, hnone, rfl⟩⟩
  . next running hsome =>
    exact ⟨not_ne_iff.mp htask, .inr ⟨rfl, rfl, rfl, running, hsome,
      ⟨rfl, rfl, rfl, rfl, rfl, rfl, rfl, rfl⟩⟩⟩

theorem ensures_markAttemptFailed (error : Failure) (retryable : Bool) :
    (markAttemptFailed attempt error retryable).Ensures p
      (fun ready p' => attempt.taskId = p.taskId ∧
        (ready = false ∧ (p.finished ∨ p.runningAttempts.find? attempt.attemptId = none) ∧ p' = p ∨
        p'.descriptor = p.descriptor ∧ p'.sinkHandle = p.sinkHandle ∧
          ¬p.finished ∧ (p.remainingAttempts - 1 = 0 → ready = false) ∧
          ∃ running, p.runningAttempts.find? attempt.attemptId = some running ∧
            SameAttempts { p.loseAttempt attempt.attemptId error with
              failed := p.failed || !ready } p'))
      fun _ p' => p' = p ∧ attempt.taskId ≠ p.taskId := by
  unfold markAttemptFailed
  rw [ensures_get_bind, ensures_bind]
  unfold validateAttemptTask
  rw [ensures_raiseIf]
  refine ⟨fun htask => ⟨rfl, htask⟩, fun htask => ?_⟩
  rw [ensures_ite]
  refine ⟨fun hfinished => ⟨not_ne_iff.mp htask, .inl ⟨rfl, .inl hfinished, rfl⟩⟩, ?_⟩
  intro hnot
  split
  . next hnone => exact ⟨not_ne_iff.mp htask, .inl ⟨rfl, .inr hnone, rfl⟩⟩
  . next running hsome =>
    rw [ensures_modify_bind, ensures_ite]
    refine ⟨fun hretry => ⟨not_ne_iff.mp htask, .inr ⟨rfl, rfl, hnot, ?_, running, hsome, ?_⟩⟩,
      fun _ => ⟨not_ne_iff.mp htask, .inr ⟨rfl, rfl, hnot, fun _ => rfl, running, hsome, ?_⟩⟩⟩
    . intro hzero
      have := hretry.2
      omega
    . exact ⟨rfl, rfl, rfl, rfl, (Bool.or_false _).symm, rfl, rfl, rfl⟩
    . exact ⟨rfl, rfl, rfl, rfl, (Bool.or_true _).symm, rfl, rfl, rfl⟩

theorem ensures_revokeAttempt (error : Failure) : (revokeAttempt attempt error).Ensures p
      (fun _ p' => attempt.taskId = p.taskId ∧
        ((p.finished ∨ p.runningAttempts.find? attempt.attemptId = none) ∧ p' = p ∨
        p'.descriptor = p.descriptor ∧ p'.sinkHandle = p.sinkHandle ∧ ¬p.finished ∧
          ∃ retries running, (p.remainingAttempts - 1 = 0 → retries = false) ∧
            p.runningAttempts.find? attempt.attemptId = some running ∧
            SameAttempts { p.loseAttempt attempt.attemptId error with
              failed := p.failed || !retries } p'))
      fun _ p' => p' = p ∧ attempt.taskId ≠ p.taskId := by
  unfold revokeAttempt
  rw [ensures_get_bind, ensures_bind]
  unfold validateAttemptTask
  rw [ensures_raiseIf]
  refine ⟨fun htask => ⟨rfl, htask⟩, fun htask => ?_⟩
  rw [ensures_ite]
  refine ⟨fun hfinished => ⟨not_ne_iff.mp htask, .inl ⟨.inl hfinished, rfl⟩⟩, ?_⟩
  intro hnot
  split
  . next hnone => exact ⟨not_ne_iff.mp htask, .inl ⟨.inr hnone, rfl⟩⟩
  . next running hsome =>
    rw [ensures_modify_bind, ensures_ite]
    refine ⟨fun _ => ⟨not_ne_iff.mp htask, .inr ⟨rfl, rfl, hnot, false, running, fun _ => rfl,
      hsome, ?_⟩⟩, fun hleft => ⟨not_ne_iff.mp htask, .inr ⟨rfl, rfl, hnot, true, running,
      fun hzero => absurd hzero hleft, hsome, ?_⟩⟩⟩
    . exact ⟨rfl, rfl, rfl, rfl, (Bool.or_true _).symm, rfl, rfl, rfl⟩
    . exact ⟨rfl, rfl, rfl, rfl, (Bool.or_false _).symm, rfl, rfl, rfl⟩

theorem sameAttempts_markSealed : SameAttempts p (markSealed p).2 := by
  apply Py.Ensures.state (P := SameAttempts p)
  unfold markSealed
  rw [ensures_get_bind, ensures_raiseIf_bind]
  refine ⟨fun _ => SameAttempts.refl p, fun _ => ?_⟩
  rw [ensures_modify_bind, ensures_ite]
  exact ⟨fun _ => ⟨rfl, rfl, rfl, rfl, rfl, rfl, rfl, rfl⟩,
    fun _ => ⟨rfl, rfl, rfl, rfl, rfl, rfl, rfl, rfl⟩⟩

/-! The calls on a partition. -/

inductive Call where
  | start (sinkInstance : Option SinkInstance) (workerId : Option String)
  | finish (attempt : FteTaskAttemptId) (outputStats : Option Stats)
  | fail (attempt : FteTaskAttemptId) (error : Failure) (retryable : Bool)
  | revoke (attempt : FteTaskAttemptId) (error : Failure)
  | markSealed

namespace Call

def step : Call → FteTaskPartition → FteTaskPartition
  | start sinkInstance workerId, p => (startAttempt sinkInstance workerId p).2
  | finish attempt outputStats, p => (markAttemptFinished attempt outputStats p).2
  | fail attempt error retryable, p => (markAttemptFailed attempt error retryable p).2
  | revoke attempt error, p => (revokeAttempt attempt error p).2
  | markSealed, p => (FteTaskPartition.markSealed p).2

def started : Call → FteTaskPartition → List ℕ
  | start sinkInstance workerId, p =>
    match (startAttempt sinkInstance workerId p).1 with
    | .ok scheduled => [scheduled.attemptId.attemptId]
    | .error _ => []
  | _, _ => []

theorem effect_start (sinkInstance : Option SinkInstance) (workerId : Option String) :
    Effect p ((start sinkInstance workerId).started p) ((start sinkInstance workerId).step p) := by
  have h := ensures_startAttempt (p := p) sinkInstance workerId
  unfold Py.Ensures at h
  simp only [step, started]
  cases hrun : startAttempt sinkInstance workerId p with
  | mk result p' =>
    rw [hrun] at h
    cases result with
    | error e =>
      simp only at h ⊢
      rw [h]
      exact .quiet (SameAttempts.refl p)
    | ok scheduled =>
      obtain ⟨hid, -, -, hopen, hidle, hleft, rfl⟩ := h
      simp only [hid]
      exact .started _ rfl hopen hidle hleft ⟨rfl, rfl, rfl, rfl, rfl, rfl, rfl, rfl⟩

theorem step_effect (call : Call) (p : FteTaskPartition) :
    Effect p (call.started p) (call.step p) := by
  cases call with
  | start sinkInstance workerId => exact effect_start sinkInstance workerId
  | finish attempt outputStats =>
    refine ((ensures_markAttemptFinished attempt outputStats).mono ?_ ?_).state
    . rintro _ p' ⟨-, ⟨-, -, rfl⟩ | ⟨-, -, -, running, hfound, hsame⟩⟩
      . exact .quiet (SameAttempts.refl _)
      . exact .finished _ running hfound hsame
    . rintro _ p' rfl
      exact .quiet (SameAttempts.refl _)
  | fail attempt error retryable =>
    refine ((ensures_markAttemptFailed attempt error retryable).mono ?_ ?_).state
    . rintro ready p' ⟨-, ⟨-, -, rfl⟩ | ⟨-, -, hnot, hzero, running, hfound, hsame⟩⟩
      . exact .quiet (SameAttempts.refl _)
      . exact .lost _ running error ready hfound hnot hzero hsame
    . rintro _ p' ⟨rfl, -⟩
      exact .quiet (SameAttempts.refl _)
  | revoke attempt error =>
    refine ((ensures_revokeAttempt attempt error).mono ?_ ?_).state
    . rintro _ p' ⟨-, ⟨-, rfl⟩ | ⟨-, -, hnot, retries, running, hzero, hfound, hsame⟩⟩
      . exact .quiet (SameAttempts.refl _)
      . exact .lost _ running error retries hfound hnot hzero hsame
    . rintro _ p' ⟨rfl, -⟩
      exact .quiet (SameAttempts.refl _)
  | markSealed => exact .quiet sameAttempts_markSealed

end Call

/-! The invariant. -/

structure Orderly (p : FteTaskPartition) : Prop where
  budget : p.failures.length + p.remainingAttempts = p.maxAttempts
  exclusive : ¬(p.finished ∧ p.failed)
  running : ∀ a r, p.runningAttempts.find? a = some r →
    a = p.maxAttempts - p.remainingAttempts ∧ r.attemptId = ⟨p.taskId, a⟩ ∧
      ¬(p.finished ∨ p.failed) ∧ p.remainingAttempts ≠ 0
  selected : p.selectedAttempt.isSome = p.finished

theorem Orderly.congr (h : p.Orderly) (same : SameAttempts p p') : p'.Orderly where
  budget := by rw [same.failures, same.remainingAttempts, same.maxAttempts]; exact h.budget
  exclusive := by rw [same.finished, same.failed]; exact h.exclusive
  running := by
    rw [same.runningAttempts, same.maxAttempts, same.remainingAttempts, same.taskId, same.finished,
      same.failed]
    exact h.running
  selected := by rw [same.selectedAttempt, same.finished]; exact h.selected

theorem Orderly.effect (h : p.Orderly) (heffect : Effect p numbers p') : p'.Orderly := by
  cases heffect with
  | quiet same => exact h.congr same
  | started running this isOpen isIdle left same =>
    refine Orderly.congr ?_ same
    refine ⟨h.budget, h.exclusive, ?_, h.selected⟩
    intro a r hr
    rw [Dict.find?_insert] at hr
    split at hr
    . next ha =>
      cases hr
      exact ⟨ha, by rw [this, ha], isOpen, left⟩
    . rw [isIdle] at hr
      cases hr
  | finished a running found same =>
    refine Orderly.congr ?_ same
    refine ⟨h.budget, by simp, ?_, rfl⟩
    intro b r hr
    cases hr
  | lost a running error retries found notFinished exhausted same =>
    obtain ⟨ha, -, hopen, hleft⟩ := h.running a running found
    refine Orderly.congr ?_ same
    refine ⟨?_, ?_, ?_, h.selected⟩
    . have hbudget := h.budget
      simp only [loseAttempt, List.length_append, List.length_singleton]
      omega
    . rintro ⟨hfinished, -⟩
      exact notFinished hfinished
    . intro b r hr
      simp only [loseAttempt, Dict.find?_erase] at hr
      split at hr
      . cases hr
      . next hne => exact absurd ((h.running b r hr).1.trans ha.symm) hne

structure Absorbed (p p' : FteTaskPartition) : Prop where
  finished : p.finished → p'.finished
  failed : p.failed → p'.failed
  selected : ∀ a, p.selectedAttempt = some a → p'.selectedAttempt = some a

theorem Orderly.absorbed (h : p.Orderly) (heffect : Effect p numbers p') : Absorbed p p' := by
  cases heffect with
  | quiet same =>
    exact ⟨fun hp => by rw [same.finished]; exact hp, fun hp => by rw [same.failed]; exact hp,
      fun a ha => by rw [same.selectedAttempt]; exact ha⟩
  | started running this isOpen isIdle left same =>
    exact ⟨fun hp => by rw [same.finished]; exact hp, fun hp => by rw [same.failed]; exact hp,
      fun a ha => by rw [same.selectedAttempt]; exact ha⟩
  | finished a running found same =>
    obtain ⟨-, -, hopen, -⟩ := h.running a running found
    have hselected : p.selectedAttempt = none := by
      rw [← Option.not_isSome_iff_eq_none, h.selected]
      exact fun hp => hopen (.inl hp)
    refine ⟨fun _ => same.finished, fun hp => absurd (.inr hp) hopen, fun b hb => ?_⟩
    rw [hselected] at hb
    cases hb
  | lost a running error retries found notFinished exhausted same =>
    refine ⟨fun hp => absurd hp notFinished, fun hp => ?_, fun b hb => ?_⟩
    . rw [same.failed]
      simp [hp]
    . rw [same.selectedAttempt]
      exact hb

theorem Absorbed.refl (p : FteTaskPartition) : Absorbed p p := ⟨id, id, fun _ => id⟩

theorem Absorbed.trans {p'' : FteTaskPartition} (h : Absorbed p p') (h' : Absorbed p' p'') :
    Absorbed p p'' :=
  ⟨fun hp => h'.finished (h.finished hp), fun hp => h'.failed (h.failed hp),
    fun a ha => h'.selected a (h.selected a ha)⟩

theorem Orderly.run (h : p.Orderly) (calls : List Call) : (Run.run Call.step calls p).Orderly := by
  apply Run.run_invariant Orderly _ h
  intro call _ q hq
  exact hq.effect (call.step_effect q)

theorem Orderly.run_absorbed (h : p.Orderly) (calls : List Call) :
    Absorbed p (Run.run Call.step calls p) := by
  induction calls generalizing p with
  | nil => exact Absorbed.refl p
  | cons call calls ih =>
    have heffect := call.step_effect p
    exact (h.absorbed heffect).trans (ih (h.effect heffect))

theorem Effect.maxAttempts (heffect : Effect p numbers p') : p'.maxAttempts = p.maxAttempts := by
  cases heffect with
  | quiet same => exact same.maxAttempts
  | started _ _ _ _ _ same => exact same.maxAttempts
  | finished _ _ _ same => exact same.maxAttempts
  | lost _ _ _ _ _ _ _ same => exact same.maxAttempts

theorem Effect.taskId (heffect : Effect p numbers p') : p'.taskId = p.taskId := by
  cases heffect with
  | quiet same => exact same.taskId
  | started _ _ _ _ _ same => exact same.taskId
  | finished _ _ _ same => exact same.taskId
  | lost _ _ _ _ _ _ _ same => exact same.taskId

theorem run_maxAttempts (calls : List Call) :
    (Run.run Call.step calls p).maxAttempts = p.maxAttempts := by
  apply Run.run_invariant (fun q : FteTaskPartition => q.maxAttempts = p.maxAttempts) _ rfl
  intro call _ q hq
  rw [(call.step_effect q).maxAttempts, hq]

theorem Orderly.length_keys_le (h : p.Orderly) : p.runningAttempts.keys.length ≤ 1 := by
  have hall : ∀ a ∈ p.runningAttempts.keys, a = p.maxAttempts - p.remainingAttempts := by
    intro a ha
    obtain ⟨r, hr⟩ := Dict.mem_keys_iff.mp ha
    exact (h.running a r hr).1
  have hnodup := p.runningAttempts.nodup_keys
  match hkeys : p.runningAttempts.keys with
  | [] => simp
  | [_] => simp
  | a :: b :: rest =>
    rw [hkeys] at hall hnodup
    have hab : a = b := by rw [hall a (by simp), hall b (by simp)]
    simp [hab] at hnodup

structure Numbered (started : List ℕ) (p : FteTaskPartition) : Prop where
  orderly : p.Orderly
  increasing : started.Pairwise (· < ·)
  reached : ∀ n ∈ started, n ≤ p.maxAttempts - p.remainingAttempts
  passed : ¬(p.finished ∨ p.failed) → p.runningAttempts = ∅ →
    ∀ n ∈ started, n < p.maxAttempts - p.remainingAttempts

theorem Numbered.effect {before : List ℕ} (h : Numbered before p) (heffect : Effect p numbers p') :
    Numbered (before ++ numbers) p' := by
  have horderly := h.orderly.effect heffect
  cases heffect with
  | quiet same =>
    rw [List.append_nil]
    refine ⟨horderly, h.increasing, ?_, ?_⟩
    . rw [same.maxAttempts, same.remainingAttempts]
      exact h.reached
    . rw [same.maxAttempts, same.remainingAttempts, same.finished, same.failed,
        same.runningAttempts]
      exact h.passed
  | started running this isOpen isIdle left same =>
    have hpassed := h.passed isOpen isIdle
    refine ⟨horderly, ?_, ?_, ?_⟩
    . rw [List.pairwise_append]
      refine ⟨h.increasing, by simp, ?_⟩
      intro n hn n' hn'
      rw [List.mem_singleton.mp hn']
      exact hpassed n hn
    . rw [same.maxAttempts, same.remainingAttempts]
      intro n hn
      rcases List.mem_append.mp hn with hn | hn
      . exact h.reached n hn
      . rw [List.mem_singleton.mp hn]
    . intro _ hempty
      rw [same.runningAttempts] at hempty
      have hfind := Dict.find?_insert_self p.runningAttempts
        (p.maxAttempts - p.remainingAttempts) running
      simp only at hempty
      rw [hempty] at hfind
      cases hfind
  | finished a running found same =>
    rw [List.append_nil]
    refine ⟨horderly, h.increasing, ?_, ?_⟩
    . rw [same.maxAttempts, same.remainingAttempts]
      exact h.reached
    . intro hopen
      exact absurd (.inl same.finished) hopen
  | lost a running error retries found notFinished exhausted same =>
    -- the number of a lost attempt is passed, because one attempt less remains
    obtain ⟨-, -, -, hleft⟩ := h.orderly.running a running found
    have hbudget := h.orderly.budget
    have hnext : p'.maxAttempts - p'.remainingAttempts =
        p.maxAttempts - p.remainingAttempts + 1 := by
      rw [same.maxAttempts, same.remainingAttempts]
      simp only [loseAttempt]
      omega
    rw [List.append_nil]
    refine ⟨horderly, h.increasing, ?_, ?_⟩
    . intro n hn
      have := h.reached n hn
      omega
    . intro _ _ n hn
      have := h.reached n hn
      omega

theorem Orderly.numbered (h : p.Orderly) : Numbered [] p := ⟨h, by simp, by simp, by simp⟩

theorem Orderly.pairwise_started (h : p.Orderly) (calls : List Call) :
    (Run.log Call.step Call.started calls p).Pairwise (· < ·) := by
  have halways : Run.Always Call.step (fun _ _ => True) calls p :=
    Run.always_of_forall (fun _ _ _ => trivial) p
  have hrun := Run.run_log_invariant Numbered
    (fun call q before _ hq => hq.effect (call.step_effect q)) halways h.numbered
  exact hrun.increasing

theorem orderly_of_new {taskId : FteTaskId} {descriptor : TaskDescriptor} {maxAttempts : ℤ}
    {sinkHandle : Option ExchangeSinkHandle} {nodeRequirements : Option NodeRequirements}
    {memoryRequirementBytes : Option ℤ} {executionClass : FteTaskExecutionClass}
    (h : new taskId descriptor maxAttempts sinkHandle nodeRequirements memoryRequirementBytes
      executionClass = .ok p) : p.Orderly := by
  obtain ⟨_, hmax, h⟩ := Except.ok_of_bind h
  obtain ⟨_, htask, h⟩ := Except.ok_of_bind h
  cases h
  exact ⟨by simp, by simp, by simp, rfl⟩

theorem attempt_lifecycle {taskId : FteTaskId} {descriptor : TaskDescriptor} {maxAttempts : ℤ}
    {sinkHandle : Option ExchangeSinkHandle} {nodeRequirements : Option NodeRequirements}
    {memoryRequirementBytes : Option ℤ} {executionClass : FteTaskExecutionClass}
    (hnew : new taskId descriptor maxAttempts sinkHandle nodeRequirements memoryRequirementBytes
      executionClass = .ok p) (calls : List Call) :
    let q := Run.run Call.step calls p
    q.runningAttempts.keys.length ≤ 1 ∧
      (Run.log Call.step Call.started calls p).Pairwise (· < ·) ∧
      q.failures.length + q.remainingAttempts = p.maxAttempts ∧
      ¬(q.finished ∧ q.failed) ∧
      ∀ later, Absorbed q (Run.run Call.step later q) := by
  have horderly := orderly_of_new hnew
  have hq := horderly.run calls
  refine ⟨hq.length_keys_le, horderly.pairwise_started calls, ?_, hq.exclusive, ?_⟩
  . rw [hq.budget, run_maxAttempts]
  . exact fun later => hq.run_absorbed later

namespace Sample

def task : FteTaskId := ⟨"q", 0, 0⟩

def fresh : FteTaskPartition where
  taskId := task
  descriptor := { taskId := task, fragmentId := "f" }
  maxAttempts := 2
  remainingAttempts := 2
  isSealed := false
  readyForScheduling := false

def calls : List Call :=
  [.start none none, .start none none, .fail ⟨task, 0⟩ ⟨"worker lost", true⟩ true,
    .start none none, .finish ⟨task, 1⟩ none, .revoke ⟨task, 1⟩ ⟨"late", true⟩, .start none none]

end Sample

theorem attempt_lifecycle_retry :
    new Sample.task Sample.fresh.descriptor 2 = .ok Sample.fresh ∧
      Run.log Call.step Call.started Sample.calls Sample.fresh = [0, 1] ∧
      (Run.log Call.step Call.started Sample.calls Sample.fresh).Pairwise (· < ·) ∧
      (Run.run Call.step Sample.calls Sample.fresh).failures.length +
        (Run.run Call.step Sample.calls Sample.fresh).remainingAttempts = 2 := by
  have hnew : new Sample.task Sample.fresh.descriptor 2 = .ok Sample.fresh := rfl
  have h := attempt_lifecycle hnew Sample.calls
  exact ⟨hnew, by decide +kernel, h.2.1, h.2.2.1⟩

end FteTaskPartition

end Vane
