import Vane.Lib.Order

/-! This module contains lists that take turns. -/

namespace List

variable {α : Type u}

def roundRobin (groups : List (List α)) : List α :=
  (range ((groups.map length).foldl max 0)).flatMap fun i => groups.flatMap fun group => (group[i]?).toList

theorem flatMap_comm_perm {β : Type v} {γ : Type w} (l : List α) (l' : List β) (f : α → β → List γ) :
    (l.flatMap fun a => l'.flatMap (f a)).Perm (l'.flatMap fun b => l.flatMap fun a => f a b) := by
  rw [← Multiset.coe_eq_coe]
  have hswap := Multiset.bind_bind (l : Multiset α) (l' : Multiset β)
    (f := fun a b => (f a b : Multiset γ))
  simpa only [Multiset.coe_bind] using hswap

theorem range_flatMap_getElem? {l : List α} {n : ℕ} (h : l.length ≤ n) :
    ((range n).flatMap fun i => (l[i]?).toList) = l := by
  induction l generalizing n with
  | nil => simp
  | cons a l ih =>
    cases n with
    | zero => simp at h
    | succ n =>
      rw [range_succ_eq_map, flatMap_cons, flatMap_map]
      simp only [getElem?_cons_zero, Option.toList_some, getElem?_cons_succ]
      rw [ih (by simpa using h)]
      rfl

theorem roundRobin_perm (groups : List (List α)) : groups.roundRobin.Perm groups.flatten := by
  refine (flatMap_comm_perm _ _ _).trans (Perm.of_eq ?_)
  rw [← flatMap_id]
  apply flatMap_congr
  intro group hgroup
  exact range_flatMap_getElem? (le_foldl_max (.inl (mem_map_of_mem hgroup)))

end List
