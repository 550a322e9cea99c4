import Vane.Lib.Table

/-! This module contains loads: lists of amounts that are each put on a place. -/

def loadOn {κ : Type u} {M : Type v} [DecidableEq κ] [AddCommMonoid M] (k : κ)
    (loads : List (κ × M)) : M :=
  ((loads.filter (·.1 = k)).map Prod.snd).sum

section

variable {κ : Type u} {M : Type v} [DecidableEq κ] [AddCommMonoid M] {loads : List (κ × M)}

@[simp]
theorem loadOn_nil (k : κ) : loadOn k ([] : List (κ × M)) = 0 := rfl

theorem loadOn_cons (k : κ) (load : κ × M) (loads : List (κ × M)) :
    loadOn k (load :: loads) = (if k = load.1 then load.2 else 0) + loadOn k loads := by
  unfold loadOn
  by_cases h : load.1 = k
  . simp [h]
  . simp [h, Ne.symm h]

@[simp]
theorem loadOn_append (k : κ) (loads loads' : List (κ × M)) :
    loadOn k (loads ++ loads') = loadOn k loads + loadOn k loads' := by
  unfold loadOn
  simp

@[simp]
theorem loadOn_singleton (k k' : κ) (a : M) : loadOn k [(k', a)] = if k = k' then a else 0 := by
  rw [loadOn_cons, loadOn_nil, add_zero]

theorem loadOn_of_not_mem {k : κ} (h : k ∉ loads.map Prod.fst) : loadOn k loads = 0 := by
  induction loads with
  | nil => rfl
  | cons load loads ih =>
    simp only [List.map_cons, List.mem_cons, not_or] at h
    rw [loadOn_cons, if_neg h.1, zero_add, ih h.2]

theorem loadOn_map {α : Type w} (k : κ) (xs : List α) (key : α → κ) (a : α → M) :
    loadOn k (xs.map fun x => (key x, a x)) = ((xs.filter (key · = k)).map a).sum := by
  unfold loadOn
  rw [List.filter_map, List.map_map]
  rfl

theorem loadOn_flatMap {α : Type w} (k : κ) (xs : List α) (f : α → List (κ × M)) :
    loadOn k (xs.flatMap f) = (xs.map fun x => loadOn k (f x)).sum := by
  induction xs with
  | nil => rfl
  | cons x xs ih => rw [List.flatMap_cons, loadOn_append, ih, List.map_cons, List.sum_cons]

theorem loadOn_filter {q : κ × M → Bool} (h : ∀ load ∈ loads, q load = false → load.2 = 0) (k : κ) :
    loadOn k (loads.filter q) = loadOn k loads := by
  induction loads with
  | nil => rfl
  | cons load loads ih =>
    have hrest := ih fun load hload => h load (by simp [hload])
    cases hq : q load with
    | true => rw [List.filter_cons_of_pos hq, loadOn_cons, loadOn_cons, hrest]
    | false =>
      rw [List.filter_cons_of_neg (by simp [hq]), loadOn_cons, hrest, h load (by simp) hq]
      simp

theorem le_loadOn [PartialOrder M] [CanonicallyOrderedAdd M] {k : κ} {a : M}
    (h : (k, a) ∈ loads) : a ≤ loadOn k loads := by
  induction loads with
  | nil => simp at h
  | cons load loads ih =>
    rw [loadOn_cons]
    rcases List.mem_cons.mp h with rfl | h
    . rw [if_pos rfl]
      exact le_self_add
    . exact le_trans (ih h) le_add_self

theorem sum_loadOn {ks : List κ} (hks : ks.Nodup) (h : ∀ load ∈ loads, load.1 ∈ ks) :
    (ks.map fun k => loadOn k loads).sum = (loads.map Prod.snd).sum := by
  induction loads with
  | nil => simp
  | cons load loads ih =>
    have hmem := h load (by simp)
    simp only [loadOn_cons, List.sum_map_add, List.map_cons, List.sum_cons]
    rw [ih fun l hl => h l (by simp [hl])]
    congr 1
    rw [List.sum_map_eq_nsmul_single load.1 _ fun k hk _ => if_neg hk,
      List.count_eq_one_of_mem hks hmem, one_nsmul, if_pos rfl]

theorem loadOn_entries (k : κ) (d : Dict κ M) : loadOn k d.entries = d.amount id k := by
  cases h : d.find? k with
  | none =>
    rw [Dict.amount_of_not_mem (Dict.find?_eq_none_iff.mp h)]
    exact loadOn_of_not_mem (Dict.find?_eq_none_iff.mp h)
  | some a =>
    have hsum := Dict.sum_erase (fun e => if e.1 = k then e.2 else 0) h
    have herase : ((d.erase k).entries.map fun e => if e.1 = k then e.2 else 0).sum = 0 := by
      apply List.sum_eq_zero
      intro b hb
      obtain ⟨e, he, rfl⟩ := List.mem_map.mp hb
      have hne : e.1 ≠ k := by simpa using (List.mem_filter.mp he).2
      exact if_neg hne
    rw [herase, add_zero, if_pos rfl] at hsum
    rw [Dict.amount_of_find? h]
    unfold loadOn
    rw [List.sum_map_ite] at hsum
    simpa using hsum

theorem amount_foldl_update (k : κ) (loads : List (κ × M)) (d : Dict κ M) :
    (loads.foldl (fun d load => d.update load.1 0 (· + load.2)) d).amount id k =
      d.amount id k + loadOn k loads := by
  induction loads generalizing d with
  | nil => simp
  | cons load loads ih =>
    rw [List.foldl_cons, ih, Dict.amount_update, loadOn_cons, add_assoc]

theorem mem_keys_foldl_update {k : κ} {d : Dict κ M}
    (h : k ∈ (loads.foldl (fun d load => d.update load.1 0 (· + load.2)) d).keys) :
    k ∈ d.keys ∨ k ∈ loads.map Prod.fst := by
  induction loads generalizing d with
  | nil => exact .inl h
  | cons load loads ih =>
    rw [List.foldl_cons] at h
    rcases ih h with h | h
    . rw [Dict.update, Dict.mem_keys_insert] at h
      rcases h with rfl | h
      . exact .inr (by simp)
      . exact .inl h
    . exact .inr (by simp [h])

theorem Dict.findD_foldl_update {α : Type x} {ν : Type w} (key : α → κ) (e : ν) (f : α → ν → ν)
    (xs : List α) (d : Dict κ ν) (k : κ) :
    (xs.foldl (fun d x => d.update (key x) e (f x)) d).findD k e =
      (xs.filter (key · = k)).foldl (fun v x => f x v) (d.findD k e) := by
  induction xs generalizing d with
  | nil => rfl
  | cons x xs ih =>
    rw [List.foldl_cons, ih]
    have hupdate : (d.update (key x) e (f x)).findD k e =
        if k = key x then f x (d.findD k e) else d.findD k e := by
      unfold Dict.update
      conv_lhs => rw [Dict.findD, Dict.find?_insert]
      split
      . next h => rw [h, Option.getD_some]
      . rfl
    rw [hupdate]
    by_cases h : key x = k
    . rw [if_pos h.symm, List.filter_cons_of_pos (by simp [h]), List.foldl_cons]
    . rw [if_neg (Ne.symm h), List.filter_cons_of_neg (by simp [h])]

theorem sum_values_foldl_update (loads : List (κ × M)) (d : Dict κ M) :
    (loads.foldl (fun d load => d.update load.1 0 (· + load.2)) d).values.sum =
      d.values.sum + (loads.map Prod.snd).sum := by
  induction loads generalizing d with
  | nil => simp
  | cons load loads ih =>
    have hupdate : (d.update load.1 0 (· + load.2)).values.sum = d.values.sum + load.2 := by
      unfold Dict.update Dict.values
      rw [Dict.sum_insert Prod.snd]
      cases h : d.find? load.1 with
      | none =>
        rw [Dict.findD, h, Dict.erase_of_find?_eq_none h]
        simp [add_comm]
      | some a =>
        rw [Dict.findD, h, Dict.sum_erase Prod.snd h]
        simp [add_right_comm]
    rw [List.foldl_cons, ih, hupdate, List.map_cons, List.sum_cons, add_assoc]

theorem Dict.sum_entries_eq_sum_keys {ν : Type w} (d : Dict κ ν) (e : ν) (f : κ → ν → M) :
    (d.entries.map fun x => f x.1 x.2).sum = (d.keys.map fun k => f k (d.findD k e)).sum := by
  unfold Dict.keys
  rw [List.map_map]
  congr 1
  apply List.map_congr_left
  intro x hx
  simp only [Function.comp_apply]
  rw [Dict.findD, Dict.find?_eq_some_iff.mpr hx, Option.getD_some]

theorem sum_map_of_subset {g : κ → M} {ks ks' : List κ} (hks : ks.Nodup) (hks' : ks'.Nodup)
    (hsub : ks ⊆ ks') (hzero : ∀ k ∈ ks', k ∉ ks → g k = 0) : (ks.map g).sum = (ks'.map g).sum := by
  rw [← List.sum_toFinset g hks, ← List.sum_toFinset g hks']
  apply Finset.sum_subset
  . intro k hk
    exact List.mem_toFinset.mpr (hsub (List.mem_toFinset.mp hk))
  . intro k hk hne
    exact hzero k (List.mem_toFinset.mp hk) fun h => hne (List.mem_toFinset.mpr h)

end

def loadIn {κ : Type u} {M : Type v} [AddCommMonoid M] (p : κ → Bool) (loads : List (κ × M)) : M :=
  (loads.map fun load => if p load.1 then load.2 else 0).sum

section

variable {κ : Type u} {M : Type v} [AddCommMonoid M] {α : Type w}

@[simp]
theorem loadIn_append (p : κ → Bool) (loads loads' : List (κ × M)) :
    loadIn p (loads ++ loads') = loadIn p loads + loadIn p loads' := by
  unfold loadIn
  rw [List.map_append, List.sum_append]

theorem loadIn_map (p : κ → Bool) (xs : List α) (k : α → κ) (a : α → M) :
    loadIn p (xs.map fun x => (k x, a x)) = (xs.map fun x => if p (k x) then a x else 0).sum := by
  unfold loadIn
  rw [List.map_map]
  rfl

theorem sum_map_ite_zero (p : α → Bool) (a : α → M) (xs : List α) :
    (xs.map fun x => if p x then a x else 0).sum = ((xs.filter p).map a).sum := by
  induction xs with
  | nil => rfl
  | cons x xs ih =>
    rw [List.map_cons, List.sum_cons, ih, List.filter_cons]
    split
    . rw [List.map_cons, List.sum_cons]
    . rw [zero_add]

theorem loadIn_true (loads : List (κ × M)) :
    loadIn (fun _ => true) loads = (loads.map Prod.snd).sum := by
  unfold loadIn
  simp

theorem loadIn_eq_loadOn [DecidableEq κ] (k : κ) (loads : List (κ × M)) :
    loadIn (fun k' => decide (k' = k)) loads = loadOn k loads :=
  sum_map_ite_zero (fun load : κ × M => decide (load.1 = k)) Prod.snd loads

end
