import Mathlib

/-!
This module contains steps that leave entries in a log, and the paths that such steps make.
-/

/-- The steps of `R`, one after the other, with what they leave in the log. -/
inductive LogPath {σ : Type u} {γ : Type v} (R : σ → List γ → σ → Prop) (s : σ) : List γ → σ → Prop where
  | refl : LogPath R s [] s
  | tail {entries entries' : List γ} {s' s'' : σ} (init : LogPath R s entries s')
      (step : R s' entries' s'') : LogPath R s (entries ++ entries') s''

namespace LogPath

variable {σ : Type u} {γ : Type v} {R R' : σ → List γ → σ → Prop} {s s' s'' : σ}
  {entries entries' : List γ}

theorem single (h : R s entries s') : LogPath R s entries s' := refl.tail h

section

variable (h : LogPath R s entries s')

include h

theorem trans (h' : LogPath R s' entries' s'') : LogPath R s (entries ++ entries') s'' := by
  induction h' with
  | refl =>
    rw [List.append_nil]
    exact h
  | tail _ step ih =>
    rw [← List.append_assoc]
    exact ih.tail step

theorem mono (hR : ∀ s entries s', R s entries s' → R' s entries s') : LogPath R' s entries s' := by
  induction h with
  | refl => exact refl
  | tail _ step ih => exact ih.tail (hR _ _ _ step)

theorem invariant (I : List γ → σ → Prop)
    (hstep : ∀ log s entries s', I log s → R s entries s' → I (log ++ entries) s')
    {log : List γ} (hs : I log s) : I (log ++ entries) s' := by
  induction h with
  | refl =>
    rw [List.append_nil]
    exact hs
  | tail _ step ih =>
    rw [← List.append_assoc]
    exact hstep _ _ _ _ ih step

theorem keeps (I : σ → Prop)
    (hstep : ∀ s entries s', I s → R s entries s' → I s') (hs : I s) : I s' := by
  induction h with
  | refl => exact hs
  | tail _ step ih => exact hstep _ _ _ ih step

end

end LogPath
