import Mathlib

/-!
This module contains insertion ordered sets with a fixed capacity, which drop the oldest value.
-/

structure BoundedSet (α : Type u) (capacity : ℕ) where
  values : List α := []
  nodup : values.Nodup := by simp
  length_le : values.length ≤ capacity := by simp
  deriving DecidableEq

namespace BoundedSet

variable {α : Type u} [DecidableEq α] {capacity : ℕ} {s : BoundedSet α capacity} {history : List α}

instance : EmptyCollection (BoundedSet α capacity) := ⟨{}⟩

instance : Membership α (BoundedSet α capacity) := ⟨fun s a => a ∈ s.values⟩

instance (a : α) (s : BoundedSet α capacity) : Decidable (a ∈ s) :=
  inferInstanceAs (Decidable (a ∈ s.values))

def add (s : BoundedSet α capacity) (a : α) : BoundedSet α capacity :=
  if h : a ∈ s.values then
    { values := s.values.erase a ++ [a]
      nodup := by
        rw [List.nodup_append]
        refine ⟨s.nodup.erase a, List.nodup_singleton a, ?_⟩
        intro b hb c hc
        rw [List.mem_singleton.mp hc]
        rintro rfl
        exact s.nodup.not_mem_erase hb
      length_le := by
        have := s.length_le
        have := List.length_pos_of_mem h
        rw [List.length_append, List.length_erase_of_mem h, List.length_singleton]
        omega }
  else
    have hnodup : (s.values ++ [a]).Nodup := by
      rw [List.nodup_append]
      refine ⟨s.nodup, List.nodup_singleton a, ?_⟩
      intro b hb c hc
      rw [List.mem_singleton.mp hc]
      rintro rfl
      exact h hb
    if hfull : (s.values ++ [a]).length ≤ capacity then
      ⟨s.values ++ [a], hnodup, hfull⟩
    else
      ⟨(s.values ++ [a]).tail, hnodup.tail, by
        have := s.length_le
        simp only [List.length_tail, List.length_append, List.length_singleton]
        omega⟩

/-! What a bounded set remembers of the values that were added to it. -/

/-- The last `n` distinct values of a history, in the order in which they were last seen. -/
def lastDistinct (n : ℕ) (history : List α) : List α := history.dedup.rtake n

def Remembers (s : BoundedSet α capacity) (history : List α) : Prop :=
  ∃ dropped, history.dedup = dropped ++ s.values ∧ (dropped = [] ∨ s.values.length = capacity)

theorem Remembers.values_eq
    (h : s.Remembers history) : s.values = lastDistinct capacity history := by
  obtain ⟨dropped, hdedup, hdropped⟩ := h
  unfold lastDistinct List.rtake
  rw [hdedup, List.length_append]
  rcases hdropped with rfl | hfull
  . rw [List.nil_append, List.length_nil, Nat.zero_add, Nat.sub_eq_zero_of_le s.length_le,
      List.drop_zero]
  . rw [hfull, Nat.add_sub_cancel, List.drop_left]

theorem dedup_append_singleton (history : List α) (a : α) :
    (history ++ [a]).dedup = history.dedup.erase a ++ [a] := by
  induction history with
  | nil => rfl
  | cons b history ih =>
    rw [List.cons_append, List.dedup_cons, List.dedup_cons, ih]
    by_cases hb : b ∈ history
    . simp [hb]
    . by_cases hab : b = a
      . subst hab
        rw [if_pos (by simp), if_neg hb, List.erase_cons_head,
          List.erase_of_not_mem (by rwa [List.mem_dedup])]
      . rw [if_neg (by simp [hb, hab]), if_neg hb, List.erase_cons_tail (by simpa using hab),
          List.cons_append]

theorem Remembers.add (h : s.Remembers history) (a : α) : (s.add a).Remembers (history ++ [a]) := by
  obtain ⟨dropped, hdedup, hdropped⟩ := h
  have hnodup := history.nodup_dedup
  rw [hdedup, List.nodup_append] at hnodup
  unfold Remembers BoundedSet.add
  rw [dedup_append_singleton, hdedup]
  split
  . next hmem =>
    have hnot : a ∉ dropped := fun hd => hnodup.2.2 a hd a hmem rfl
    refine ⟨dropped, ?_, ?_⟩
    . rw [List.erase_append_right _ hnot, List.append_assoc]
    . rcases hdropped with hd | hfull
      . exact .inl hd
      . right
        have := List.length_pos_of_mem hmem
        simp only [List.length_append, List.length_erase_of_mem hmem, List.length_singleton]
        omega
  . next hmem =>
    have herase : (dropped ++ s.values).erase a = dropped.erase a ++ s.values := by
      rw [List.erase_append]
      split
      . rfl
      . next hnot => rw [List.erase_of_not_mem hmem, List.erase_of_not_mem hnot]
    rw [herase, List.append_assoc]
    simp only
    split
    . next hroom =>
      have hdropped : dropped = [] := by
        apply hdropped.resolve_right
        rw [List.length_append, List.length_singleton] at hroom
        omega
      exact ⟨[], by rw [hdropped]; rfl, .inl rfl⟩
    . next hfull =>
      obtain ⟨oldest, rest, hcons⟩ := List.exists_cons_of_ne_nil (List.concat_ne_nil a s.values)
      have hlength := congrArg List.length hcons
      rw [List.length_append, List.length_singleton] at hfull
      rw [List.length_append, List.length_singleton, List.length_cons] at hlength
      have htail : (s.values ++ [a]).tail = rest := by rw [hcons, List.tail_cons]
      have hbound := s.length_le
      refine ⟨dropped.erase a ++ [oldest], ?_, .inr ?_⟩
      . simp only [htail]
        rw [hcons, List.append_assoc, List.singleton_append]
      . simp only [htail]
        omega

theorem remembers_foldl_add (h : s.Remembers history) (added : List α) :
    (added.foldl BoundedSet.add s).Remembers (history ++ added) := by
  induction added generalizing s history with
  | nil => rwa [List.append_nil]
  | cons a added ih =>
    have hrest := ih (h.add a)
    rwa [List.append_assoc, List.singleton_append] at hrest

theorem remembers_empty : (∅ : BoundedSet α capacity).Remembers [] := ⟨[], rfl, .inl rfl⟩

theorem Remembers.mem_iff (h : s.Remembers history)
    {a : α} : a ∈ s ↔ a ∈ lastDistinct capacity history := by
  rw [← h.values_eq]
  rfl

end BoundedSet
