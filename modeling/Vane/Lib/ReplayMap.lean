import Vane.Lib.Table

/-!
This module contains insertion ordered dictionaries with a fixed capacity, which drop the oldest
key.
-/

structure ReplayMap (κ : Type u) (ν : Type v) (capacity : ℕ) where
  toDict : Dict κ ν := ∅
  length_le : toDict.entries.length ≤ capacity := by simp
  deriving DecidableEq

namespace ReplayMap

variable {κ : Type u} {ν : Type v} {capacity : ℕ} [DecidableEq κ] (s : ReplayMap κ ν capacity)

def find? (k : κ) : Option ν := s.toDict.find? k

def set (k : κ) (v : ν) : ReplayMap κ ν capacity :=
  let written := (s.toDict.erase k).insert k v
  have hwritten : written.entries.length ≤ capacity + 1 := by
    have hlength := s.length_le
    have herase := List.length_filter_le (fun e : κ × ν => decide (e.1 ≠ k)) s.toDict.entries
    rw [Dict.entries_insert_of_not_mem (Dict.find?_erase_self _ k), List.length_append]
    exact Nat.add_le_add (herase.trans hlength) le_rfl
  if hfull : written.entries.length ≤ capacity then
    ⟨written, hfull⟩
  else
    { toDict := ⟨written.entries.tail, by
        rw [List.map_tail]
        exact written.nodupKeys.tail⟩
      length_le := by
        rw [List.length_tail]
        omega }

def discardWhere (p : ν → Bool) : ReplayMap κ ν capacity where
  toDict := s.toDict.filterValues fun v => !p v
  length_le := (List.length_filter_le _ _).trans s.length_le

end ReplayMap
