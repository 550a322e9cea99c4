import Vane.Fte.Delivery

/-!
This module contains the verification that no attempt is both selected and recorded as aborted.
-/

namespace Vane

namespace FteTaskPartition

variable {p p' : FteTaskPartition} {numbers : List ℕ} {a : ℕ} {attempt : FteTaskAttemptId}

def Dead (p : FteTaskPartition) (a : ℕ) : Prop :=
  p.selectedAttempt ≠ some a ∧ (p.finished ∨ p.failed ∨ a < p.maxAttempts - p.remainingAttempts)

instance (p : FteTaskPartition) (a : ℕ) : Decidable (p.Dead a) :=
  inferInstanceAs (Decidable (_ ∧ _))

def Expendable (p : FteTaskPartition) (attempt : FteTaskAttemptId) : Prop :=
  p.Dead attempt.attemptId ∨
    attempt.taskId = p.taskId ∧ p.runningAttempts.contains attempt.attemptId

instance (p : FteTaskPartition) (attempt : FteTaskAttemptId) : Decidable (p.Expendable attempt) :=
  inferInstanceAs (Decidable (_ ∨ _))

theorem Dead.effect (h : p.Dead a) (horderly : p.Orderly) (heffect : Effect p numbers p') :
    p'.Dead a := by
  obtain ⟨hselected, hdead⟩ := h
  cases heffect with
  | quiet same =>
    unfold Dead
    rw [same.selectedAttempt, same.finished, same.failed, same.maxAttempts, same.remainingAttempts]
    exact ⟨hselected, hdead⟩
  | started running this isOpen isIdle left same =>
    unfold Dead
    rw [same.selectedAttempt, same.finished, same.failed, same.maxAttempts, same.remainingAttempts]
    exact ⟨hselected, hdead⟩
  | finished b running found same =>
    obtain ⟨hb, -, hopen, -⟩ := horderly.running b running found
    refine ⟨?_, .inl same.finished⟩
    rw [same.selectedAttempt]
    rintro ⟨⟩
    rcases hdead with hdead | hdead | hdead
    . exact hopen (.inl hdead)
    . exact hopen (.inr hdead)
    . omega
  | lost b running error retries found notFinished exhausted same =>
    obtain ⟨hb, -, hopen, hleft⟩ := horderly.running b running found
    refine ⟨?_, .inr (.inr ?_)⟩
    . rw [same.selectedAttempt]
      exact hselected
    . rw [same.maxAttempts, same.remainingAttempts]
      dsimp only [loseAttempt]
      have hlt : a < p.maxAttempts - p.remainingAttempts := by tauto
      omega

theorem Orderly.dead_of_lost {running : RunningAttempt} {error : Failure} {retries : Bool}
    (h : p.Orderly) (found : p.runningAttempts.find? a = some running) (notFinished : ¬p.finished)
    (same : SameAttempts { p.loseAttempt a error with failed := p.failed || !retries } p') :
    p'.Dead a := by
  obtain ⟨ha, -, -, hleft⟩ := h.running a running found
  have hbudget := h.budget
  have hselected : p.selectedAttempt = none := by
    rw [← Option.not_isSome_iff_eq_none, h.selected]
    exact notFinished
  refine ⟨?_, .inr (.inr ?_)⟩
  . rw [same.selectedAttempt]
    dsimp only [loseAttempt]
    rw [hselected]
    simp
  . rw [same.maxAttempts, same.remainingAttempts]
    dsimp only [loseAttempt]
    omega

theorem Orderly.dead_of_loses (h : p.Orderly) (hexpendable : p.Expendable attempt)
    (hloses : Loses attempt p p') : p'.Dead attempt.attemptId := by
  rcases hexpendable with hdead | ⟨htask, hruns⟩
  . exact hdead.effect h hloses.effect.1
  obtain ⟨running, hfound⟩ := Option.isSome_iff_exists.mp hruns
  obtain ⟨-, -, hopen, -⟩ := h.running _ running hfound
  rcases hloses with ⟨-, hreject | hfinished | hnone⟩ | ⟨-, -, r, error, retries, hr, hnot, -, hsame⟩
  . exact absurd htask hreject
  . exact absurd (.inl hfinished) hopen
  . exact absurd (hfound.symm.trans hnone) (by simp)
  . exact h.dead_of_lost hr hnot hsame

end FteTaskPartition

namespace FteFragmentExecution

variable {numbers : List ℕ} {id a : ℕ}

open FteTaskPartition (Effect)

variable {s s' : FteFragmentExecution} {commands : List WorkerCommand}

def Safe (p : FteTaskPartition) (attempt : FteTaskAttemptId) : Prop :=
  p.Orderly ∧ p.Expendable attempt

theorem stable_safe : Stable Safe := by
  rintro p numbers p' attempt ⟨horderly, hexpendable⟩ heffect hselected
  refine ⟨horderly.effect heffect, ?_⟩
  rcases hexpendable with hdead | ⟨htask, hruns⟩
  . exact .inl (hdead.effect horderly heffect)
  obtain ⟨running, hfound⟩ := Option.isSome_iff_exists.mp hruns
  obtain ⟨ha, -, hopen, -⟩ := horderly.running _ running hfound
  cases heffect with
  | quiet same =>
    refine .inr ⟨htask.trans same.taskId.symm, ?_⟩
    rw [same.runningAttempts]
    exact hruns
  | started r this isOpen isIdle left same =>
    rw [isIdle] at hfound
    cases hfound
  | finished b r found same =>
    have hnone : p.selectedAttempt = none := by
      rw [← Option.not_isSome_iff_eq_none, horderly.selected]
      exact fun h => hopen (.inl h)
    rw [same.selectedAttempt, hnone] at hselected
    cases hselected
  | lost b r error retries found notFinished exhausted same =>
    left
    rw [ha, ← (horderly.running b r found).1]
    exact horderly.dead_of_lost found notFinished same

def Selected (s : FteFragmentExecution) (id a : ℕ) : Prop :=
  ∃ p, s.partitions.find? id = some p ∧ p.selectedAttempt = some a

def Dismissed (s : FteFragmentExecution) (id a : ℕ) : Prop :=
  ∃ p, s.partitions.find? id = some p ∧ p.Dead a

structure Agreed (s : FteFragmentExecution) : Prop where
  sound : s.Sound
  won : ∀ k a, s.Won k a → ∃ id n : ℕ, k = id ∧ a = n ∧ s.Selected id n
  lost : ∀ k a, s.Lost k a → ∃ id n : ℕ, k = id ∧ a = n ∧ s.Dismissed id n

theorem Selected.puts {id' : ℕ} {p p' : FteTaskPartition}
    (h : s.Selected id a) (hs : s.Sound) (found : s.partitions.find? id' = some p)
    (effect : Effect p numbers p') (puts : Puts id' p' s s') : s'.Selected id a := by
  obtain ⟨q, hq, hselected⟩ := h
  unfold Selected
  rw [puts.find?]
  split
  . next hid =>
    rw [hid] at hq
    cases found.symm.trans hq
    exact ⟨p', rfl, ((hs.orderly id' p found).absorbed effect).selected a hselected⟩
  . exact ⟨q, hq, hselected⟩

theorem Dismissed.puts {id' : ℕ} {p p' : FteTaskPartition}
    (h : s.Dismissed id a) (hs : s.Sound) (found : s.partitions.find? id' = some p)
    (effect : Effect p numbers p') (puts : Puts id' p' s s') : s'.Dismissed id a := by
  obtain ⟨q, hq, hdead⟩ := h
  unfold Dismissed
  rw [puts.find?]
  split
  . next hid =>
    rw [hid] at hq
    cases found.symm.trans hq
    exact ⟨p', rfl, hdead.effect (hs.orderly id' p found) effect⟩
  . exact ⟨q, hq, hdead⟩

structure Lasts (s s' : FteFragmentExecution) : Prop where
  selected : ∀ id a, s.Selected id a → s'.Selected id a
  dismissed : ∀ id a, s.Dismissed id a → s'.Dismissed id a

theorem Lasts.refl (s : FteFragmentExecution) : Lasts s s := ⟨fun _ _ h => h, fun _ _ h => h⟩

theorem Lasts.trans {s'' : FteFragmentExecution} (h : Lasts s s') (h' : Lasts s' s'') : Lasts s s'' :=
  ⟨fun id a hs => h'.selected id a (h.selected id a hs),
    fun id a hs => h'.dismissed id a (h.dismissed id a hs)⟩

theorem lasts_of_leaves (leaves : Leaves s s') : Lasts s s' := by
  refine ⟨?_, ?_⟩
  . intro id a h
    unfold Selected
    rw [leaves.partitions]
    exact h
  . intro id a h
    unfold Dismissed
    rw [leaves.partitions]
    exact h

theorem lasts_of_puts {p p' : FteTaskPartition} (hs : s.Sound)
    (found : s.partitions.find? id = some p) (effect : Effect p numbers p')
    (puts : Puts id p' s s') : Lasts s s' :=
  ⟨fun _ _ h => h.puts hs found effect puts, fun _ _ h => h.puts hs found effect puts⟩

theorem lasts_of_added {p : FteTaskPartition} (free : s.partitions.find? id = none)
    (puts : Puts id p s s') : Lasts s s' := by
  have hfound : ∀ id' q, s.partitions.find? id' = some q → s'.partitions.find? id' = some q := by
    intro id' q hq
    rw [puts.find?]
    split
    . next hid =>
      rw [hid, free] at hq
      cases hq
    . exact hq
  exact ⟨fun id' a ⟨q, hq, h⟩ => ⟨q, hfound id' q hq, h⟩, fun id' a ⟨q, hq, h⟩ => ⟨q, hfound id' q hq, h⟩⟩

theorem Turn.lasts {G : FteTaskPartition → FteTaskAttemptId → Prop} (h : Turn G s commands s')
    (hs : s.Sound) : Lasts s s' := by
  rcases h with hmove | ⟨-, hfinished⟩
  . cases hmove with
    | quiet leaves exchange => exact lasts_of_leaves leaves
    | added id handle nodeRequirements free keyed puts exchange => exact lasts_of_added free puts
    | updated id p p' found same handle carries puts exchange =>
      exact lasts_of_puts hs found (.quiet same) puts
    | started id p p' running command found this isOpen isIdle left same handle descriptor creates
        addressed splits complete puts exchange =>
      exact lasts_of_puts hs found (.started running this isOpen isIdle left same) puts
    | failed id attempt p p' guarded found loses puts exchange =>
      exact lasts_of_puts hs found loses.effect.1 puts
  . cases hfinished with
    | finished id a p p' running found runs same handle descriptor puts exchange =>
      exact lasts_of_puts hs found (.finished a running runs same) puts

theorem Stray.lasts (h : Stray s s') (hs : s.Sound) : Lasts s s' := by
  cases h with
  | quiet leaves exchange => exact lasts_of_leaves leaves
  | effect id p p' numbers found effect selected handle puts exchange =>
    exact lasts_of_puts hs found effect puts

theorem Agreed.exchanged {won lost : ℤ → ℤ → Prop} (h : s.Agreed) (hsound : s'.Sound)
    (hlasts : Lasts s s') (hexchange : Exchanged won lost s s')
    (hwon : ∀ k a, won k a → ∃ id n : ℕ, k = id ∧ a = n ∧ s'.Selected id n)
    (hlost : ∀ k a, lost k a → ∃ id n : ℕ, k = id ∧ a = n ∧ s'.Dismissed id n) : s'.Agreed := by
  refine ⟨hsound, ?_, ?_⟩
  . intro k a hk
    rcases hexchange.won k a hk with hk | hk
    . obtain ⟨id, n, hid, hn, hselected⟩ := h.won k a hk
      exact ⟨id, n, hid, hn, hlasts.selected id n hselected⟩
    . exact hwon k a hk
  . intro k a hk
    rcases hexchange.lost k a hk with hk | hk
    . obtain ⟨id, n, hid, hn, hdismissed⟩ := h.lost k a hk
      exact ⟨id, n, hid, hn, hlasts.dismissed id n hdismissed⟩
    . exact hlost k a hk

section

variable (h : s.Agreed)

include h

theorem Agreed.quiet (hsound : s'.Sound) (hlasts : Lasts s s')
    (hexchange : Exchanged never never s s') : s'.Agreed :=
  h.exchanged hsound hlasts hexchange (fun _ _ h => h.elim) fun _ _ h => h.elim

theorem Agreed.turn (hturn : Turn Safe s commands s') : s'.Agreed := by
  have hlasts := hturn.lasts h.sound
  rcases hturn with hmove | ⟨-, hfinished⟩
  . have hsound := hmove.sound h.sound
    cases hmove with
    | quiet leaves exchange => exact h.quiet hsound hlasts exchange
    | added id handle nodeRequirements free keyed puts exchange =>
      exact h.quiet hsound hlasts exchange
    | updated id p p' found same handle carries puts exchange =>
      exact h.quiet hsound hlasts exchange
    | started id p p' running command found this isOpen isIdle left same handle descriptor creates
        addressed splits complete puts exchange =>
      exact h.quiet hsound hlasts exchange
    | failed id attempt p p' guarded found loses puts exchange =>
      apply h.exchanged hsound hlasts exchange (fun _ _ h => h.elim)
      rintro k a ⟨hk, ha⟩
      refine ⟨id, attempt.attemptId, hk, ha, p', ?_, guarded.1.dead_of_loses guarded.2 loses⟩
      rw [puts.find?, if_pos rfl]
  . have hsound := hfinished.sound h.sound
    cases hfinished with
    | finished id a p p' running found runs same handle descriptor puts exchange =>
      apply h.exchanged hsound hlasts exchange _ fun _ _ h => h.elim
      rintro k b ⟨hk, hb⟩
      refine ⟨id, a, hk, hb, p', ?_, same.selectedAttempt⟩
      rw [puts.find?, if_pos rfl]

theorem Agreed.stray (hstray : Stray s s') : s'.Agreed := by
  have hsound := hstray.sound h.sound
  have hlasts := hstray.lasts h.sound
  cases hstray with
  | quiet leaves exchange => exact h.quiet hsound hlasts exchange
  | effect id p p' numbers found effect selected handle puts exchange =>
    exact h.quiet hsound hlasts exchange

theorem Agreed.path (hpath : LogPath (Turn Safe) s commands s') : s'.Agreed ∧ Lasts s s' :=
  hpath.keeps (fun t => t.Agreed ∧ Lasts s t)
    (fun _ _ _ ht hturn => ⟨ht.1.turn hturn, ht.2.trans (hturn.lasts ht.1.sound)⟩) ⟨h, Lasts.refl s⟩

theorem Agreed.guardsRunning : GuardsRunning Safe s := by
  intro id p a running hp ha
  have horderly := h.sound.orderly id p hp
  obtain ⟨-, hid, -, -⟩ := horderly.running a running ha
  refine ⟨horderly, .inr ?_⟩
  rw [hid]
  exact ⟨rfl, Option.isSome_iff_exists.mpr ⟨running, ha⟩⟩

end

def Call.Sensible : Call → FteFragmentExecution → Prop := Call.Admitted FteTaskPartition.Expendable

theorem Agreed.step (h : s.Agreed) (call : Call) (hsensible : call.Sensible s) :
    (call.step s).Agreed ∧ Lasts s (call.step s) := by
  have hadmitted : call.Admitted Safe s := by
    have hsafe : ∀ attempt, AdmitsFailure FteTaskPartition.Expendable attempt s →
        AdmitsFailure Safe attempt s :=
      fun attempt hadmits p hp => ⟨h.sound.orderly _ p hp, hadmits p hp⟩
    cases call with
    | handleTaskStatus env status retryable scheduleRetry =>
      exact fun hreports => hsafe _ (hsensible hreports)
    | taskFailed env attempt error retryable scheduleRetry => exact hsafe _ hsensible
    | _ => trivial
  refine Py.Ensures.state (P := fun s' => s'.Agreed ∧ Lasts s s') (Py.Ensures.mono
    (call.ensures_exec h.sound stable_safe h.guardsRunning hadmitted) ?_ ?_)
  . rintro _ s' ⟨commands, hpath, -⟩
    exact h.path hpath
  . rintro _ s' ⟨commands, s₁, hpath, hstray⟩
    obtain ⟨h₁, hlasts⟩ := h.path hpath
    exact ⟨h₁.stray hstray, hlasts.trans (hstray.lasts h₁.sound)⟩

theorem Agreed.run (h : s.Agreed) {calls : List Call}
    (hsensible : Run.Always Call.step Call.Sensible calls s) :
    (Run.run Call.step calls s).Agreed ∧ Lasts s (Run.run Call.step calls s) := by
  induction calls generalizing s with
  | nil => exact ⟨h, Lasts.refl s⟩
  | cons call calls ih =>
    obtain ⟨hcall, hcalls⟩ := hsensible
    obtain ⟨hstep, hlasts⟩ := h.step call hcall
    obtain ⟨hrun, hlasts'⟩ := ih hstep hcalls
    exact ⟨hrun, hlasts.trans hlasts'⟩

theorem New.agreed (h : s.New) : s.Agreed := by
  refine ⟨h.sound, ?_, ?_⟩
  . rintro k a ⟨t, ht, hwon⟩
    rw [h.exchange t ht] at hwon
    simp [FteExchangeTracker.Won, FteExchangeTracker.new, AttemptSets.Has, Dict.findD, Dict.find?,
      Dict.empty] at hwon
  . rintro k a ⟨t, ht, hlost⟩
    rw [h.exchange t ht] at hlost
    simp [FteExchangeTracker.Lost, FteExchangeTracker.new, AttemptSets.Has, Dict.findD, Dict.find?,
      Dict.empty] at hlost

def Wins (s : FteFragmentExecution) (id a : ℕ) : Prop := s.Selected id a ∨ s.Won id a

theorem Agreed.selected_of_wins (h : s.Agreed) (hwins : s.Wins id a) : s.Selected id a := by
  rcases hwins with hselected | hwon
  . exact hselected
  . obtain ⟨id', a', hid, ha, hselected⟩ := h.won id a hwon
    rw [show id = id' by omega, show a = a' by omega]
    exact hselected

theorem Agreed.dismissed_of_lost (h : s.Agreed) (hlost : s.Lost id a) : s.Dismissed id a := by
  obtain ⟨id', a', hid, ha, hdismissed⟩ := h.lost id a hlost
  rw [show id = id' by omega, show a = a' by omega]
  exact hdismissed

theorem not_selected_of_dismissed (h : s.Dismissed id a) : ¬s.Selected id a := by
  rintro ⟨q, hq, hselected⟩
  obtain ⟨p, hp, hdead⟩ := h
  cases hp.symm.trans hq
  exact hdead.1 hselected

theorem winner_is_never_aborted (self : FteFragmentExecution) (hnew : self.New)
    (calls later : List Call)
    (hsensible : Run.Always Call.step Call.Sensible (calls ++ later) self) (id a : ℕ) :
    ((Run.run Call.step calls self).Wins id a →
      ¬(Run.run Call.step (calls ++ later) self).Lost id a) ∧
    ((Run.run Call.step calls self).Lost id a →
      ¬(Run.run Call.step (calls ++ later) self).Wins id a) := by
  rw [Run.always_append] at hsensible
  obtain ⟨hagreed, -⟩ := hnew.agreed.run hsensible.1
  obtain ⟨hagreed', hlasts⟩ := hagreed.run hsensible.2
  rw [Run.run_append]
  refine ⟨fun hwins hlost => ?_, fun hlost hwins => ?_⟩
  . exact not_selected_of_dismissed (hagreed'.dismissed_of_lost hlost)
      (hlasts.selected id a (hagreed.selected_of_wins hwins))
  . exact not_selected_of_dismissed (hlasts.dismissed id a (hagreed.dismissed_of_lost hlost))
      (hagreed'.selected_of_wins hwins)

instance (s : FteFragmentExecution) (k a : ℤ) : Decidable (s.Lost k a) :=
  decidable_of_iff ((s.exchange.any fun t => t.Lost k a) = true) (by simp [Option.any_eq_true, Lost])

instance (s : FteFragmentExecution) (id a : ℕ) : Decidable (s.Selected id a) :=
  decidable_of_iff (((s.partitions.find? id).any fun p => p.selectedAttempt = some a) = true)
    (by simp [Option.any_eq_true, Selected])

instance (attempt : FteTaskAttemptId) (s : FteFragmentExecution) :
    Decidable (AdmitsFailure FteTaskPartition.Expendable attempt s) :=
  decidable_of_iff
    (((s.partitions.find? attempt.taskId.partitionId).all fun p => p.Expendable attempt) = true)
    (by simp [Option.all_eq_true, AdmitsFailure])

instance (call : Call) (s : FteFragmentExecution) : Decidable (call.Sensible s) := by
  unfold Call.Sensible
  cases call <;> unfold Call.Admitted <;> infer_instance

namespace Sample

def exchanging : FteFragmentExecution := { self with exchange := some (.new "q" "x") }

def finished (attemptId : ℕ) (outputStats : Option Stats) : Call :=
  .handleTaskStatus {} { attemptId := ⟨⟨"q", 0, 0⟩, attemptId⟩, state := some .finished, outputStats }
    true true

def second : List Call :=
  [.applyAssignmentResult {} { partitionUpdates := [assigned 0 0] },
    .taskFailed {} ⟨⟨"q", 0, 0⟩, 0⟩ ⟨"worker lost", true⟩ true true, finished 1 (some (.other "rows")),
    .taskFailed {} ⟨⟨"q", 0, 0⟩, 0⟩ ⟨"worker lost", true⟩ true true]

def repeated : List Call :=
  [.applyAssignmentResult {} { partitionUpdates := [assigned 0 0] },
    finished 0 (some (.other "rows"))]

end Sample

theorem winner_is_never_aborted_second :
    Run.Always Call.step Call.Sensible (Sample.second ++ []) Sample.exchanging ∧
      (Run.run Call.step Sample.second Sample.exchanging).Selected 0 1 ∧
      ¬(Run.run Call.step (Sample.second ++ []) Sample.exchanging).Lost (0 : ℕ) (1 : ℕ) := by
  have hsensible : Run.Always Call.step Call.Sensible (Sample.second ++ []) Sample.exchanging := by
    decide +kernel
  have hselected : (Run.run Call.step Sample.second Sample.exchanging).Selected 0 1 := by
    decide +kernel
  refine ⟨hsensible, hselected, ?_⟩
  exact (winner_is_never_aborted Sample.exchanging
    ⟨rfl, rfl, rfl, fun t h => by cases h; rfl⟩ Sample.second [] hsensible 0 1).1 (.inl hselected)

theorem winner_is_aborted_by_repeated_status :
    (Run.run Call.step Sample.repeated Sample.exchanging).Selected 0 0 ∧
      (Run.run Call.step (Sample.repeated ++ [Sample.finished 0 none]) Sample.exchanging).Lost 0 0 := by
  decide +kernel

theorem exchange_has_one_winner (self : FteFragmentExecution) (hnew : self.New)
    (calls later : List Call)
    (hsensible : Run.Always Call.step Call.Sensible (calls ++ later) self) (id a b : ℕ)
    (hwins : (Run.run Call.step calls self).Wins id a) :
    (Run.run Call.step (calls ++ later) self).Selected id a ∧
      ((Run.run Call.step (calls ++ later) self).Wins id b → b = a) := by
  rw [Run.always_append] at hsensible
  obtain ⟨hagreed, -⟩ := hnew.agreed.run hsensible.1
  obtain ⟨hagreed', hlasts⟩ := hagreed.run hsensible.2
  rw [Run.run_append]
  have hselected := hlasts.selected id a (hagreed.selected_of_wins hwins)
  refine ⟨hselected, fun hb => ?_⟩
  obtain ⟨p, hp, ha⟩ := hselected
  obtain ⟨q, hq, hb⟩ := hagreed'.selected_of_wins hb
  cases hp.symm.trans hq
  cases ha.symm.trans hb
  rfl

theorem exchange_has_one_winner_second :
    ¬(Run.run Call.step (Sample.second ++ []) Sample.exchanging).Wins 0 0 := by
  intro hwins
  cases (exchange_has_one_winner Sample.exchanging ⟨rfl, rfl, rfl, fun t h => by cases h; rfl⟩
    Sample.second [] (by decide +kernel) 0 1 0 (.inl (by decide +kernel))).2 hwins

end FteFragmentExecution

end Vane
