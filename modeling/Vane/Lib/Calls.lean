import Mathlib

/-!
This module contains calls that share a state and go on in any order, and flags that exclude calls.
-/

universe u v w

structure Calls (σ : Type u) (π : Type v) where
  shared : σ
  phases : List π := []

namespace Calls

variable {σ : Type u} {π : Type v} {s : Calls σ π} {phase : π}

def advanceAt (step : σ → π → π × σ) (i : ℕ) (s : Calls σ π) : Calls σ π :=
  match s.phases[i]? with
  | none => s
  | some phase => ⟨(step s.shared phase).2, s.phases.set i (step s.shared phase).1⟩

def emitAt {β : Type w} (emit : σ → π → List β) (i : ℕ) (s : Calls σ π) : List β :=
  (s.phases[i]?).toList.flatMap (emit s.shared)

theorem advanceAt_cases {β : Type w} (step : σ → π → π × σ) (emit : σ → π → List β) (i : ℕ)
    (s : Calls σ π) :
    s.advanceAt step i = s ∧ s.emitAt emit i = [] ∨
      ∃ l₁ phase l₂, s.phases = l₁ ++ phase :: l₂ ∧
        s.advanceAt step i = ⟨(step s.shared phase).2, l₁ ++ (step s.shared phase).1 :: l₂⟩ ∧
        s.emitAt emit i = emit s.shared phase := by
  unfold advanceAt emitAt
  cases hphase : s.phases[i]? with
  | none => exact .inl ⟨rfl, rfl⟩
  | some phase =>
    right
    obtain ⟨hlt, hget⟩ := List.getElem?_eq_some_iff.mp hphase
    refine ⟨s.phases.take i, phase, s.phases.drop (i + 1), ?_, ?_, ?_⟩
    . rw [← hget, List.getElem_cons_drop, List.take_append_drop]
    . dsimp only
      rw [List.set_eq_take_append_cons_drop, if_pos hlt]
    . simp

variable {holds : π → Bool} {flag : σ → Bool}

def Exclusive (holds : π → Bool) (flag : σ → Bool) (s : Calls σ π) : Prop :=
  s.phases.countP holds = if flag s.shared then 1 else 0

section

variable (h : s.Exclusive holds flag)

include h

theorem Exclusive.countP_le_one : s.phases.countP holds ≤ 1 := by
  rw [h]
  split <;> omega

theorem Exclusive.flag_eq_false
    (hidle : ∀ phase ∈ s.phases, holds phase = false) : flag s.shared = false := by
  have hzero : s.phases.countP holds = 0 := by
    rw [List.countP_eq_zero]
    intro phase hphase
    rw [hidle phase hphase]
    exact Bool.false_ne_true
  rw [h] at hzero
  split at hzero
  . cases hzero
  . next hflag => exact Bool.not_eq_true _ ▸ hflag

theorem Exclusive.others_idle {l₁ l₂ : List π}
    (hphases : s.phases = l₁ ++ phase :: l₂) (hholds : holds phase) :
    flag s.shared = true ∧ ∀ other ∈ l₁ ++ l₂, holds other = false := by
  have hcount : s.phases.countP holds = _ := h
  rw [hphases, List.countP_append, List.countP_cons_of_pos hholds] at hcount
  split at hcount
  . next hflag =>
    refine ⟨hflag, ?_⟩
    have hzero : (l₁ ++ l₂).countP holds = 0 := by
      rw [List.countP_append]
      omega
    intro other hother
    exact Bool.not_eq_true _ ▸ List.countP_eq_zero.mp hzero other hother
  . omega

end

inductive Handover (holds : π → Bool) (flag : σ → Bool) (shared : σ) (phase : π)
    (next : π × σ) : Prop where
  | keeps (hholds : holds next.1 = holds phase) (hflag : flag next.2 = flag shared)
  | gives (hholds : holds phase = true) (hreleased : holds next.1 = false) (hflag : flag next.2 = false)

section

variable (h : s.Exclusive holds flag)

include h

theorem Exclusive.advance {l₁ l₂ : List π} {next : π × σ}
    (hphases : s.phases = l₁ ++ phase :: l₂) (hstep : Handover holds flag s.shared phase next) :
    Exclusive holds flag ⟨next.2, l₁ ++ next.1 :: l₂⟩ := by
  have hcount : s.phases.countP holds = _ := h
  rw [hphases, List.countP_append, List.countP_cons] at hcount
  unfold Exclusive
  rw [List.countP_append, List.countP_cons]
  cases hstep with
  | keeps hholds hflag =>
    rw [hholds, hflag]
    exact hcount
  | gives hholds hreleased hflag =>
    have hidle := h.others_idle hphases hholds
    rw [hidle.1, if_pos hholds, if_pos rfl] at hcount
    rw [hreleased, hflag]
    simp only [Bool.false_eq_true, if_false]
    omega

theorem Exclusive.shared {shared : σ}
    (hflag : flag shared = flag s.shared) : Exclusive holds flag { s with shared } := by
  unfold Exclusive
  rw [hflag]
  exact h

theorem Exclusive.add {shared : σ} (hadd : holds phase = false ∧ flag shared = flag s.shared ∨
      holds phase = true ∧ flag shared = true ∧ flag s.shared = false) :
    Exclusive holds flag ⟨shared, s.phases ++ [phase]⟩ := by
  have hcount : s.phases.countP holds = _ := h
  unfold Exclusive
  rw [List.countP_append, hcount]
  rcases hadd with ⟨hholds, hflag⟩ | ⟨hholds, hflag, hbefore⟩
  . rw [hflag]
    simp [hholds]
  . rw [hflag, hbefore]
    simp [hholds]

end

end Calls
