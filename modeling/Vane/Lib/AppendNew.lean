import Mathlib

/-!
This module contains logs whose entries carry a number: an entry is appended if its number is new.
-/

namespace List

variable {α : Type u} {κ : Type v} [DecidableEq κ] (key : α → κ)

def appendNew (log : List α) : List α → List α
  | [] => log
  | a :: as => if key a ∈ log.map key then appendNew log as else appendNew (log ++ [a]) as

variable {key} {log as bs : List α}

@[simp]
theorem appendNew_nil : appendNew key log [] = log := rfl

theorem appendNew_append : appendNew key log (as ++ bs) = appendNew key (appendNew key log as) bs := by
  induction as generalizing log with
  | nil => rfl
  | cons a as ih =>
    rw [cons_append, appendNew, appendNew]
    split
    . exact ih
    . exact ih

theorem mem_map_appendNew {k : κ} :
    k ∈ (appendNew key log as).map key ↔ k ∈ log.map key ∨ k ∈ as.map key := by
  induction as generalizing log with
  | nil => simp
  | cons a as ih =>
    rw [appendNew, map_cons, mem_cons]
    split
    . next hmem =>
      rw [ih]
      constructor
      . tauto
      . rintro (hk | rfl | hk)
        . exact .inl hk
        . exact .inl hmem
        . exact .inr hk
    . rw [ih, map_append, mem_append, map_singleton, mem_singleton]
      tauto

theorem appendNew_of_known (h : ∀ a ∈ as, key a ∈ log.map key) : appendNew key log as = log := by
  induction as with
  | nil => rfl
  | cons a as ih =>
    rw [appendNew, if_pos (h a (by simp))]
    exact ih fun b hb => h b (by simp [hb])

theorem appendNew_of_nodup (h : ((log ++ as).map key).Nodup) : appendNew key log as = log ++ as := by
  induction as generalizing log with
  | nil => simp
  | cons a as ih =>
    have hnew : key a ∉ log.map key := by
      intro hmem
      rw [map_append, nodup_append] at h
      exact h.2.2 (key a) hmem (key a) (by simp) rfl
    rw [appendNew, if_neg hnew, ih (by simpa using h)]
    simp

theorem appendNew_self (h : (as.map key).Nodup) : appendNew key [] as = as := appendNew_of_nodup h

end List
