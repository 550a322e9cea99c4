import Mathlib

/-! This module contains `sorted`, `min` and `max` with a key function, all of them stable. -/

namespace List

variable {α : Type u} {κ : Type v} [LinearOrder κ] (key : α → κ) {l : List α}

def sortBy (l : List α) : List α := l.insertionSort fun a b => key a ≤ key b

theorem sortBy_perm (l : List α) : (l.sortBy key).Perm l := l.perm_insertionSort _

@[simp]
theorem mem_sortBy {key : α → κ} {a : α} : a ∈ l.sortBy key ↔ a ∈ l := (l.sortBy_perm key).mem_iff

theorem sortBy_pairwise (l : List α) : (l.sortBy key).Pairwise fun a b => key a ≤ key b := by
  have htrans : IsTrans α fun a b => key a ≤ key b := ⟨fun _ _ _ hab hbc => le_trans hab hbc⟩
  have htotal : Std.Total fun a b : α => key a ≤ key b := ⟨fun a b => le_total (key a) (key b)⟩
  exact l.pairwise_insertionSort _

theorem le_foldl_max {l : List κ} {a b : κ} (h : a ∈ l ∨ a ≤ b) : a ≤ l.foldl max b := by
  induction l generalizing b with
  | nil => exact h.resolve_left not_mem_nil
  | cons c l ih =>
    apply ih
    rcases h with h | h
    . rcases mem_cons.mp h with rfl | h
      . exact .inr (le_max_right _ _)
      . exact .inl h
    . exact .inr (h.trans (le_max_left _ _))

theorem foldl_max_mem (l : List κ) (b : κ) : l.foldl max b ∈ b :: l := by
  induction l generalizing b with
  | nil => simp
  | cons c l ih =>
    rcases mem_cons.mp (ih (max b c)) with h | h
    . rw [foldl_cons, h]
      rcases le_total b c with h | h
      . simp [max_eq_right h]
      . simp [max_eq_left h]
    . simp [h]

def minBy? (key : α → κ) : List α → Option α
  | [] => none
  | a :: l =>
    match minBy? key l with
    | none => some a
    | some b => if key a ≤ key b then some a else some b

theorem minBy?_mem {key : α → κ} {a : α} (h : minBy? key l = some a) : a ∈ l := by
  induction l generalizing a with
  | nil => simp [minBy?] at h
  | cons b l ih =>
    unfold minBy? at h
    split at h
    . cases h
      simp
    . next c hc =>
      split at h
      . cases h
        simp
      . cases h
        simp [ih hc]

theorem minBy?_isSome (h : l ≠ []) : ∃ a, minBy? key l = some a := by
  cases l with
  | nil => contradiction
  | cons a l =>
    unfold minBy?
    split
    . exact ⟨a, rfl⟩
    . split
      . exact ⟨a, rfl⟩
      . next b _ _ => exact ⟨b, rfl⟩

theorem minBy?_eq_none_iff {key : α → κ} : minBy? key l = none ↔ l = [] := by
  constructor
  . intro hnone
    by_contra h
    obtain ⟨a, ha⟩ := minBy?_isSome key h
    rw [hnone] at ha
    cases ha
  . rintro rfl
    rfl

end List
