import Vane.Lib.Dict
import Vane.Lib.Order

/-!
This module contains tables: dictionaries of objects that carry their own key, and amounts by key.
-/

namespace Dict

variable {κ : Type u} {ν : Type v} {μ : Type w} [DecidableEq κ] {α : Type x} {l : List α}
  {k : α → κ} {v : α → ν}

def sortKeys [LinearOrder κ] (d : Dict κ ν) : Dict κ ν :=
  ⟨d.entries.sortBy Prod.fst, by
    apply (List.Perm.nodup_iff _).mpr d.nodupKeys
    exact (d.entries.sortBy_perm Prod.fst).map _⟩

def filterValues (p : ν → Bool) (d : Dict κ ν) : Dict κ ν :=
  ⟨d.entries.filter fun e => p e.2, by
    apply List.Nodup.sublist _ d.nodupKeys
    exact List.filter_sublist.map _⟩

def filterKeys (p : κ → Bool) (d : Dict κ ν) : Dict κ ν :=
  ⟨d.entries.filter fun e => p e.1, by
    apply List.Nodup.sublist _ d.nodupKeys
    exact List.filter_sublist.map _⟩

def comprehension {α : Type x} (l : List α) (k : α → κ) (v : α → ν) : Dict κ ν :=
  l.foldl (fun d a => d.insert (k a) (v a)) ∅

def SameKeys (d : Dict κ ν) (e : Dict κ μ) : Prop :=
  (∀ k ∈ d.keys, k ∈ e.keys) ∧ ∀ k ∈ e.keys, k ∈ d.keys

instance (d : Dict κ ν) (e : Dict κ μ) : Decidable (d.SameKeys e) :=
  inferInstanceAs (Decidable (_ ∧ _))

theorem find?_sortKeys [LinearOrder κ] (d : Dict κ ν) (k : κ) : d.sortKeys.find? k = d.find? k := by
  apply Option.ext
  intro v
  rw [find?_eq_some_iff, find?_eq_some_iff]
  exact List.mem_sortBy

theorem find?_filterValues (p : ν → Bool) (d : Dict κ ν) (k : κ) :
    (d.filterValues p).find? k = (d.find? k).filter p := by
  apply Option.ext
  intro v
  rw [find?_eq_some_iff, Option.filter_eq_some_iff, find?_eq_some_iff]
  exact List.mem_filter

theorem find?_foldl_insert_of_not_mem {d : Dict κ ν} {i : κ} (h : i ∉ l.map k) :
    (l.foldl (fun d a => d.insert (k a) (v a)) d).find? i = d.find? i := by
  induction l generalizing d with
  | nil => rfl
  | cons a l ih =>
    simp only [List.map_cons, List.mem_cons, not_or] at h
    rw [List.foldl_cons, ih h.2, find?_insert_of_ne _ _ h.1]

theorem find?_comprehension
    (h : (l.map k).Nodup) {a : α} (ha : a ∈ l) : (comprehension l k v).find? (k a) = some (v a) := by
  unfold comprehension
  generalize (∅ : Dict κ ν) = d
  induction l generalizing d with
  | nil => simp at ha
  | cons b l ih =>
    simp only [List.map_cons, List.nodup_cons] at h
    rw [List.foldl_cons]
    rcases List.mem_cons.mp ha with rfl | ha
    . rw [find?_foldl_insert_of_not_mem h.1, find?_insert_self]
    . exact ih h.2 ha _

theorem mem_keys_comprehension {i : κ} : i ∈ (comprehension l k v).keys ↔ i ∈ l.map k := by
  have hfold : ∀ d : Dict κ ν,
      i ∈ (l.foldl (fun d a => d.insert (k a) (v a)) d).keys ↔ i ∈ d.keys ∨ i ∈ l.map k := by
    induction l with
    | nil => simp
    | cons a l ih =>
      intro d
      rw [List.foldl_cons, ih, mem_keys_insert, List.map_cons, List.mem_cons]
      tauto
  rw [comprehension, hfold]
  simp [keys]

section Amount

variable {M : Type x} [AddCommMonoid M] {f : ν → M} {d : Dict κ ν}

def amount (f : ν → M) (d : Dict κ ν) (k : κ) : M := ((d.find? k).map f).getD 0

@[simp]
theorem amount_empty (f : ν → M) (k : κ) : (∅ : Dict κ ν).amount f k = 0 := rfl

theorem amount_of_find? {k : κ} {v : ν} (h : d.find? k = some v) : d.amount f k = f v := by
  unfold amount
  rw [h]
  rfl

theorem amount_of_not_mem {k : κ} (h : k ∉ d.keys) : d.amount f k = 0 := by
  unfold amount
  rw [find?_eq_none_iff.mpr h]
  rfl

theorem amount_insert (f : ν → M) (d : Dict κ ν) (k k' : κ) (v : ν) :
    (d.insert k v).amount f k' = if k' = k then f v else d.amount f k' := by
  unfold amount
  rw [find?_insert]
  split
  . rfl
  . rfl

theorem amount_update (d : Dict κ M) (k k' : κ) (a : M) :
    (d.update k 0 (· + a)).amount id k' = d.amount id k' + if k' = k then a else 0 := by
  unfold update
  rw [amount_insert]
  split
  . next h =>
    rw [h]
    unfold amount findD
    simp
  . simp

theorem findD_zero (d : Dict κ M) (k : κ) : d.findD k 0 = d.amount id k := by
  unfold findD amount
  simp

theorem sum_values_eq_sum_amount (f : ν → M) (d : Dict κ ν) :
    (d.values.map f).sum = (d.keys.map (d.amount f)).sum := by
  rw [sum_values_eq]
  unfold keys
  rw [List.map_map]
  congr 1
  apply List.map_congr_left
  intro e he
  exact (amount_of_find? (find?_eq_some_iff.mpr he)).symm

theorem amount_filterValues {p : ν → Bool}
    (h : ∀ v, p v = false → f v = 0) (k : κ) : (d.filterValues p).amount f k = d.amount f k := by
  unfold amount
  rw [find?_filterValues]
  cases d.find? k with
  | none => rfl
  | some v =>
    cases hp : p v with
    | false => simp [Option.filter, hp, h v hp]
    | true => simp [Option.filter, hp]

theorem amount_sortKeys [LinearOrder κ] (f : ν → M) (d : Dict κ ν) (k : κ) :
    d.sortKeys.amount f k = d.amount f k := by
  unfold amount
  rw [find?_sortKeys]

theorem mem_keys_of_amount_ne_zero {k : κ} (h : d.amount f k ≠ 0) : k ∈ d.keys := by
  by_contra hk
  exact h (amount_of_not_mem hk)

theorem mem_keys_filterValues_iff [DecidableEq M] {d : Dict κ M} {k : κ} :
    k ∈ (d.filterValues (· ≠ 0)).keys ↔ d.amount id k ≠ 0 := by
  rw [mem_keys_iff, find?_filterValues]
  unfold amount
  cases d.find? k with
  | none => simp
  | some a => simp [Option.filter_eq_some_iff]

omit [DecidableEq κ] in
theorem sum_values_filterValues [DecidableEq M] (d : Dict κ M) :
    (d.filterValues (· ≠ 0)).values.sum = d.values.sum := by
  unfold values filterValues
  simp only
  induction d.entries with
  | nil => rfl
  | cons e es ih =>
    by_cases he : e.2 = 0
    . rw [List.filter_cons_of_neg (by simp [he]), ih, List.map_cons, List.sum_cons, he, zero_add]
    . rw [List.filter_cons_of_pos (by simp [he]), List.map_cons, List.map_cons, List.sum_cons,
        List.sum_cons, ih]

omit [DecidableEq κ] in
theorem sum_values_sortKeys [LinearOrder κ] (d : Dict κ M) : d.sortKeys.values.sum = d.values.sum :=
  ((d.entries.sortBy_perm Prod.fst).map Prod.snd).sum_eq

end Amount

end Dict

structure Table {κ : Type u} {ν : Type v} [DecidableEq κ] (key : ν → κ) extends Dict κ ν where
  keyed : ∀ k v, toDict.find? k = some v → key v = k

namespace Table

variable {κ : Type u} {ν : Type v} [DecidableEq κ] {key : ν → κ} {t : Table key} {v : ν}

def empty : Table key := ⟨∅, by simp⟩

instance : EmptyCollection (Table key) := ⟨empty⟩

@[simp]
theorem find?_empty (k : κ) : (∅ : Table key).find? k = none := rfl

@[simp]
theorem values_empty : (∅ : Table key).values = [] := rfl

def put (t : Table key) (v : ν) : Table key :=
  ⟨t.insert (key v) v, by
    intro k w h
    rw [Dict.find?_insert] at h
    split at h
    . next hk =>
      cases h
      exact hk.symm
    . exact t.keyed k w h⟩

def remove (t : Table key) (k : κ) : Table key :=
  ⟨t.erase k, by
    intro k' v h
    rw [Dict.find?_erase] at h
    split at h
    . cases h
    . exact t.keyed k' v h⟩

def modifyAll (t : Table key) (f : ν → ν) (hf : ∀ v, key (f v) = key v) : Table key :=
  ⟨t.mapValues f, by
    intro k v h
    rw [Dict.find?_mapValues] at h
    obtain ⟨w, hw, rfl⟩ := Option.map_eq_some_iff.mp h
    rw [hf]
    exact t.keyed k w hw⟩

def filter (t : Table key) (p : ν → Bool) : Table key :=
  ⟨t.filterValues p, by
    intro k v h
    rw [Dict.find?_filterValues, Option.filter_eq_some_iff] at h
    exact t.keyed k v h.1⟩

def sorted [LinearOrder κ] (t : Table key) : Table key :=
  ⟨t.sortKeys, by
    intro k v h
    rw [Dict.find?_sortKeys] at h
    exact t.keyed k v h⟩

theorem find?_put (t : Table key) (v : ν) (k : κ) :
    (t.put v).find? k = if k = key v then some v else t.find? k :=
  t.find?_insert (key v) k v

theorem find?_remove (t : Table key) (k k' : κ) :
    (t.remove k).find? k' = if k' = k then none else t.find? k' :=
  t.find?_erase k k'

theorem find?_key_of_mem (h : v ∈ t.values) : t.find? (key v) = some v := by
  obtain ⟨k, hk⟩ := Dict.mem_values_iff.mp h
  rw [t.keyed k v hk]
  exact hk

theorem find?_of_remove {k k' : κ} (h : (t.remove k).find? k' = some v) : t.find? k' = some v := by
  rw [find?_remove] at h
  split at h
  . cases h
  . exact h

theorem mem_values_of_remove {k : κ} (h : v ∈ (t.remove k).values) : v ∈ t.values :=
  Dict.mem_values_of_find? (find?_of_remove (find?_key_of_mem h))

theorem mem_values_put {v w : ν} (h : w ∈ (t.put v).values) : w = v ∨ w ∈ t.values := by
  have hfind := find?_key_of_mem h
  rw [find?_put] at hfind
  split at hfind
  . cases hfind
    exact .inl rfl
  . exact .inr (Dict.mem_values_of_find? hfind)

theorem values_put_of_free (h : t.find? (key v) = none) : (t.put v).values = t.values ++ [v] := by
  unfold Dict.values
  rw [show (t.put v).entries = (t.insert (key v) v).entries from rfl,
    Dict.entries_insert_of_not_mem h, List.map_append]
  rfl

theorem mem_values_put_of_free {v w : ν} (h : t.find? (key v) = none) :
    w ∈ (t.put v).values ↔ w ∈ t.values ∨ w = v := by
  rw [values_put_of_free h]
  simp

theorem sum_values_put {M : Type w} [AddCommMonoid M] {v w : ν} (f : ν → M)
    (h : t.find? (key v) = some w) :
    ((t.put v).values.map f).sum + f w = (t.values.map f).sum + f v := by
  rw [Dict.sum_values_eq, Dict.sum_values_eq, Dict.sum_erase (fun e => f e.2) h,
    show (t.put v).entries = (t.insert (key v) v).entries from rfl,
    Dict.sum_insert fun e => f e.2]
  simp only
  rw [add_comm (f v), add_comm (f w), add_right_comm]

theorem sum_values_of_differ {M : Type w} [AddCommMonoid M] {f g : ν → M}
    (hv : t.find? (key v) = some v) (h : ∀ w ∈ t.values, key w ≠ key v → f w = g w) :
    (t.values.map f).sum + g v = (t.values.map g).sum + f v := by
  have hrest : ((t.erase (key v)).entries.map fun e => f e.2).sum =
      ((t.erase (key v)).entries.map fun e => g e.2).sum := by
    congr 1
    apply List.map_congr_left
    intro e he
    obtain ⟨hmem, hne⟩ := List.mem_filter.mp he
    have hfind := Dict.find?_eq_some_iff.mpr hmem
    apply h e.2 (Dict.mem_values_of_find? hfind)
    rw [t.keyed _ _ hfind]
    simpa using hne
  rw [Dict.sum_values_eq, Dict.sum_values_eq, Dict.sum_erase (fun e => f e.2) hv,
    Dict.sum_erase (fun e => g e.2) hv, hrest]
  simp only
  rw [add_comm (f v), add_comm (g v), add_right_comm]

theorem map_key_values (t : Table key) : t.values.map key = t.keys := by
  unfold Dict.values Dict.keys
  rw [List.map_map]
  apply List.map_congr_left
  intro e he
  exact t.keyed e.1 e.2 (Dict.find?_eq_some_iff.mpr he)

theorem mem_keys_iff_exists {k : κ} : k ∈ t.keys ↔ ∃ v ∈ t.values, key v = k := by
  rw [← map_key_values, List.mem_map]

/-! A second dictionary that finds the rows of a table by another field. -/

section Index

variable {ι : Type w} [DecidableEq ι] {index : Dict ι κ} {t : Table key} {f : ν → ι}

def IsIndex (index : Dict ι κ) (t : Table key) (f : ν → ι) : Prop :=
  ∀ i k, index.find? i = some k ↔ ∃ v, t.find? k = some v ∧ f v = i

theorem isIndex_empty : IsIndex (∅ : Dict ι κ) (∅ : Table key) f := by
  intro i k
  simp

section

variable (h : IsIndex index t f)

include h

theorem IsIndex.inj {v w : ν} (hv : v ∈ t.values) (hw : w ∈ t.values)
    (heq : f v = f w) : v = w := by
  have hfind := (h (f w) (key v)).mpr ⟨v, find?_key_of_mem hv, heq⟩
  rw [(h (f w) (key w)).mpr ⟨w, find?_key_of_mem hw, rfl⟩, Option.some_inj] at hfind
  have hrow := find?_key_of_mem hw
  rw [hfind, find?_key_of_mem hv] at hrow
  exact Option.some_inj.mp hrow

theorem IsIndex.put {v : ν} (hfree : t.find? (key v) = none)
    (hname : index.find? (f v) = none) : IsIndex (index.insert (f v) (key v)) (t.put v) f := by
  intro i k
  rw [Dict.find?_insert, find?_put]
  by_cases hk : k = key v
  . subst hk
    rw [if_pos rfl]
    by_cases hi : i = f v
    . simp [hi]
    . rw [if_neg hi, h i (key v), hfree]
      simp [Ne.symm hi]
  . rw [if_neg hk, ← h i k]
    by_cases hi : i = f v
    . rw [if_pos hi, hi, hname]
      simp [Ne.symm hk]
    . rw [if_neg hi]

theorem IsIndex.remove {k : κ} {v : ν} (hv : t.find? k = some v) :
    IsIndex (index.erase (f v)) (t.remove k) f := by
  intro i k'
  rw [Dict.find?_erase, find?_remove]
  by_cases hk : k' = k
  . subst hk
    rw [if_pos rfl]
    by_cases hi : i = f v
    . simp [hi]
    . rw [if_neg hi, h i k', hv]
      simp [Ne.symm hi]
  . rw [if_neg hk, ← h i k']
    by_cases hi : i = f v
    . rw [if_pos hi, hi, (h (f v) k).mpr ⟨v, hv, rfl⟩]
      simp [Ne.symm hk]
    . rw [if_neg hi]

theorem IsIndex.replace {v w : ν} (hw : t.find? (key v) = some w)
    (hname : f v = f w) : IsIndex index (t.put v) f := by
  intro i k
  rw [h i k, find?_put]
  by_cases hk : k = key v
  . subst hk
    simp [hw, hname]
  . rw [if_neg hk]

end

end Index

/-! At most one row is marked, and its key is on record. -/

section Marked

variable {marked : ν → Prop} {active : Option κ} {t' : Table key}

structure OneMarked (t : Table key) (marked : ν → Prop) (active : Option κ) : Prop where
  recorded : ∀ k v, t.find? k = some v → marked v → active = some k
  live : ∀ k, active = some k → ∃ v, t.find? k = some v

theorem oneMarked_empty : (∅ : Table key).OneMarked marked none := ⟨nofun, nofun⟩

theorem OneMarked.eq (h : t.OneMarked marked active) {w : ν} (hv : v ∈ t.values)
    (hw : w ∈ t.values) (hmarked : marked v) (hmarked' : marked w) : v = w := by
  have hfind := find?_key_of_mem hv
  have hfind' := find?_key_of_mem hw
  have hkey := h.recorded _ _ hfind hmarked
  rw [h.recorded _ _ hfind' hmarked', Option.some_inj] at hkey
  rw [hkey, hfind, Option.some_inj] at hfind'
  exact hfind'

theorem OneMarked.put (h : t.OneMarked marked active) (hv : marked v → active = some (key v)) :
    (t.put v).OneMarked marked active := by
  constructor
  . intro k w hw hmarked
    rw [find?_put] at hw
    split at hw
    . next hk =>
      cases hw
      rw [hk]
      exact hv hmarked
    . exact h.recorded k w hw hmarked
  . intro k hk
    rw [find?_put]
    split
    . exact ⟨v, rfl⟩
    . exact h.live k hk

theorem OneMarked.mark (h : t.OneMarked marked none) (v : ν) :
    (t.put v).OneMarked marked (some (key v)) := by
  constructor
  . intro k w hw hmarked
    rw [find?_put] at hw
    split at hw
    . next hk => rw [hk]
    . cases h.recorded k w hw hmarked
  . intro k hk
    cases hk
    exact ⟨v, by rw [find?_put, if_pos rfl]⟩

section

variable (h : t.OneMarked marked active)

include h

theorem OneMarked.put_if {b : Bool} (hnone : b = true → active = none)
    (hv : marked v → b = true) : (t.put v).OneMarked marked (if b then some (key v) else active) := by
  cases b with
  | true =>
    rw [hnone rfl] at h
    exact h.mark v
  | false => exact h.put fun hmarked => nomatch hv hmarked

theorem OneMarked.clear {k : κ}
    (hrest : ∀ k', k' ≠ k → t'.find? k' = t.find? k') (hk : ∀ v, t'.find? k = some v → ¬marked v) :
    t'.OneMarked marked (if active = some k then none else active) := by
  constructor
  . intro k' v hv hmarked
    have hne : k' ≠ k := by
      rintro rfl
      exact hk v hv hmarked
    rw [hrest k' hne] at hv
    rw [h.recorded k' v hv hmarked, if_neg (by simpa using hne)]
  . intro k' hactive
    split at hactive
    . cases hactive
    . next hne =>
      rw [hrest k' (by rintro rfl; exact hne hactive)]
      exact h.live k' hactive

theorem OneMarked.remove (k : κ) :
    (t.remove k).OneMarked marked (if active = some k then none else active) :=
  h.clear (fun k' hk' => by rw [find?_remove, if_neg hk']) fun v hv => by simp [find?_remove] at hv

end

end Marked

end Table
