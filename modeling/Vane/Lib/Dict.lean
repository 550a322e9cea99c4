import Mathlib

/-!
This module contains insertion ordered dictionaries: association lists without duplicate keys, in the
iteration order of a `dict`.
-/

structure Dict (κ : Type u) (ν : Type v) where
  entries : List (κ × ν)
  nodupKeys : (entries.map Prod.fst).Nodup
  deriving DecidableEq

namespace Dict

variable {κ : Type u} {ν : Type v} {μ : Type w} {d : Dict κ ν} {k : κ} {v : ν}

def empty : Dict κ ν := ⟨[], by simp⟩

instance : EmptyCollection (Dict κ ν) := ⟨empty⟩

def keys (d : Dict κ ν) : List κ := d.entries.map Prod.fst

def values (d : Dict κ ν) : List ν := d.entries.map Prod.snd

def mapValues (f : ν → μ) (d : Dict κ ν) : Dict κ μ :=
  ⟨d.entries.map fun e => (e.1, f e.2), by
    rw [List.map_map]
    exact d.nodupKeys⟩

@[simp]
theorem entries_empty : (∅ : Dict κ ν).entries = [] := rfl

@[simp]
theorem values_empty : (∅ : Dict κ ν).values = [] := rfl

theorem ext {d e : Dict κ ν} (h : d.entries = e.entries) : d = e := by
  cases d
  cases e
  cases h
  rfl

theorem nodup_keys (d : Dict κ ν) : d.keys.Nodup := d.nodupKeys

theorem sum_values_eq {M : Type w} [AddCommMonoid M] (d : Dict κ ν) (f : ν → M) :
    (d.values.map f).sum = (d.entries.map fun e => f e.2).sum := by
  unfold values
  rw [List.map_map]
  rfl

variable [DecidableEq κ]

def find? (d : Dict κ ν) (k : κ) : Option ν := (d.entries.find? fun e => e.1 = k).map Prod.snd

def contains (d : Dict κ ν) (k : κ) : Bool := (d.find? k).isSome

def findD (d : Dict κ ν) (k : κ) (fallback : ν) : ν := (d.find? k).getD fallback

def replaceEntries (k : κ) (v : ν) (es : List (κ × ν)) : List (κ × ν) :=
  es.map fun e => if e.1 = k then (k, v) else e

theorem map_fst_replaceEntries (k : κ) (v : ν) (es : List (κ × ν)) :
    (replaceEntries k v es).map Prod.fst = es.map Prod.fst := by
  unfold replaceEntries
  rw [List.map_map]
  apply List.map_congr_left
  intro e _
  simp only [Function.comp_apply]
  split
  . next h => exact h.symm
  . rfl

def insert (d : Dict κ ν) (k : κ) (v : ν) : Dict κ ν :=
  if h : k ∈ d.entries.map Prod.fst then
    ⟨replaceEntries k v d.entries, by
      rw [map_fst_replaceEntries]
      exact d.nodupKeys⟩
  else
    ⟨d.entries ++ [(k, v)], by
      rw [List.map_append, List.nodup_append]
      refine ⟨d.nodupKeys, by simp, ?_⟩
      intro a ha b hb hab
      simp only [List.map_cons, List.map_nil, List.mem_singleton] at hb
      subst hb
      subst hab
      exact h ha⟩

def erase (d : Dict κ ν) (k : κ) : Dict κ ν :=
  ⟨d.entries.filter fun e => e.1 ≠ k, by
    apply List.Nodup.sublist _ d.nodupKeys
    exact List.filter_sublist.map _⟩

def update (d : Dict κ ν) (k : κ) (fallback : ν) (f : ν → ν) : Dict κ ν :=
  d.insert k (f (d.findD k fallback))

def updateAll (d e : Dict κ ν) : Dict κ ν :=
  e.entries.foldl (fun d entry => d.insert entry.1 entry.2) d

def isEqual [DecidableEq ν] (d e : Dict κ ν) : Bool :=
  d.entries.length = e.entries.length ∧ ∀ entry ∈ d.entries, e.find? entry.1 = some entry.2

def ofKeys (ks : List κ) (f : κ → ν) : Dict κ ν :=
  ⟨ks.dedup.map fun k => (k, f k), by
    rw [List.map_map]
    simp only [Function.comp_def, List.map_id']
    exact ks.nodup_dedup⟩

@[simp]
theorem find?_empty (k : κ) : (∅ : Dict κ ν).find? k = none := rfl

theorem find?_eq_some_iff : d.find? k = some v ↔ (k, v) ∈ d.entries := by
  unfold find?
  rcases d with ⟨es, hes⟩
  simp only
  induction es with
  | nil => simp
  | cons e es ih =>
    simp only [List.map_cons, List.nodup_cons] at hes
    rw [List.find?_cons]
    by_cases he : e.1 = k
    . simp only [he, decide_true, Option.map_some, Option.some.injEq, List.mem_cons]
      constructor
      . intro h
        left
        rw [← h, ← he]
      . intro h
        rcases h with h | h
        . rw [← h]
        . exfalso
          apply hes.1
          rw [he]
          exact List.mem_map.mpr ⟨_, h, rfl⟩
    . simp only [he, decide_false, List.mem_cons]
      rw [ih hes.2]
      constructor
      . intro h
        exact .inr h
      . intro h
        rcases h with h | h
        . exact absurd (by rw [← h]) he
        . exact h

theorem isEqual_refl [DecidableEq ν] (d : Dict κ ν) : d.isEqual d := by
  unfold isEqual
  simp only [decide_eq_true_eq, true_and]
  exact fun _ hentry => find?_eq_some_iff.mpr hentry

theorem find?_eq_none_iff : d.find? k = none ↔ k ∉ d.keys := by
  constructor
  . intro h hk
    obtain ⟨e, he, rfl⟩ := List.mem_map.mp hk
    rw [find?_eq_some_iff.mpr he] at h
    contradiction
  . intro h
    cases hf : d.find? k with
    | none => rfl
    | some v =>
      exfalso
      apply h
      exact List.mem_map.mpr ⟨_, find?_eq_some_iff.mp hf, rfl⟩

theorem mem_keys_iff : k ∈ d.keys ↔ ∃ v, d.find? k = some v := by
  rw [← Option.ne_none_iff_exists', ne_eq, find?_eq_none_iff, not_not]

theorem mem_values_iff : v ∈ d.values ↔ ∃ k, d.find? k = some v := by
  unfold values
  rw [List.mem_map]
  constructor
  . rintro ⟨e, he, rfl⟩
    exact ⟨e.1, find?_eq_some_iff.mpr he⟩
  . rintro ⟨k, hk⟩
    exact ⟨_, find?_eq_some_iff.mp hk, rfl⟩

theorem mem_values_of_find? (h : d.find? k = some v) : v ∈ d.values := mem_values_iff.mpr ⟨k, h⟩

theorem entries_insert_of_not_mem (h : d.find? k = none) :
    (d.insert k v).entries = d.entries ++ [(k, v)] := by
  have hk : k ∉ d.entries.map Prod.fst := find?_eq_none_iff.mp h
  unfold insert
  rw [dif_neg hk]

theorem entries_insert_of_mem {v w : ν} (h : d.find? k = some w) :
    (d.insert k v).entries = replaceEntries k v d.entries := by
  have hk : k ∈ d.entries.map Prod.fst := mem_keys_iff.mpr ⟨w, h⟩
  unfold insert
  rw [dif_pos hk]

@[simp]
theorem find?_insert_self (d : Dict κ ν) (k : κ) (v : ν) : (d.insert k v).find? k = some v := by
  rw [find?_eq_some_iff]
  cases h : d.find? k with
  | none =>
    rw [entries_insert_of_not_mem h]
    simp
  | some w =>
    rw [entries_insert_of_mem h]
    apply List.mem_map.mpr
    exact ⟨_, find?_eq_some_iff.mp h, by simp⟩

theorem find?_insert_of_ne (d : Dict κ ν) {k k' : κ} (v : ν) (hne : k' ≠ k) :
    (d.insert k v).find? k' = d.find? k' := by
  apply Option.ext
  intro w
  rw [find?_eq_some_iff, find?_eq_some_iff]
  cases h : d.find? k with
  | none =>
    rw [entries_insert_of_not_mem h]
    simp [hne]
  | some u =>
    rw [entries_insert_of_mem h]
    unfold replaceEntries
    rw [List.mem_map]
    constructor
    . rintro ⟨e, he, heq⟩
      split at heq
      . exact absurd (congrArg Prod.fst heq).symm hne
      . rw [← heq]
        exact he
    . intro he
      exact ⟨_, he, by simp [hne]⟩

theorem find?_insert (d : Dict κ ν) (k k' : κ) (v : ν) :
    (d.insert k v).find? k' = if k' = k then some v else d.find? k' := by
  split
  . next h =>
    rw [h, find?_insert_self]
  . next h => exact find?_insert_of_ne d v h

theorem find?_foldl_insert (ks : List κ) (v : ν) (d : Dict κ ν) (k : κ) :
    (ks.foldl (fun d k => d.insert k v) d).find? k = if k ∈ ks then some v else d.find? k := by
  induction ks generalizing d with
  | nil => rfl
  | cons k' ks ih =>
    rw [List.foldl_cons, ih, find?_insert]
    simp only [List.mem_cons]
    split
    . next h => rw [if_pos (.inr h)]
    . next h => simp only [h, or_false]

theorem find?_foldl_setDefault {ks : List κ} {v : κ → ν}
    (h : ∀ k ∈ ks, (d.find? k).isSome) (k : κ) :
    (ks.foldl (fun d k => d.update k (v k) fun value => value) d).find? k = d.find? k := by
  induction ks generalizing d with
  | nil => rfl
  | cons k' ks ih =>
    have hsame : ∀ k, (d.update k' (v k') fun value => value).find? k = d.find? k := by
      intro k
      obtain ⟨w, hw⟩ := Option.isSome_iff_exists.mp (h k' (by simp))
      unfold update findD
      rw [find?_insert, hw]
      split
      . next heq => rw [heq, hw, Option.getD_some]
      . rfl
    rw [List.foldl_cons, ih, hsame]
    intro k hk
    rw [hsame]
    exact h k (by simp [hk])

theorem find?_insert_of_free {k k' : κ} {v w : ν} (hfree : d.find? k = none)
    (h : d.find? k' = some w) : (d.insert k v).find? k' = some w := by
  rw [find?_insert_of_ne _ _ _, h]
  intro hk
  rw [hk, hfree] at h
  cases h

@[simp]
theorem mem_keys_insert {k k' : κ} : k' ∈ (d.insert k v).keys ↔ k' = k ∨ k' ∈ d.keys := by
  rw [mem_keys_iff, mem_keys_iff, find?_insert]
  split
  . next h => simp [h]
  . next h => simp [h]

@[simp]
theorem find?_erase_self (d : Dict κ ν) (k : κ) : (d.erase k).find? k = none := by
  rw [find?_eq_none_iff]
  unfold keys erase
  simp

theorem find?_erase_of_ne (d : Dict κ ν) {k k' : κ} (hne : k' ≠ k) :
    (d.erase k).find? k' = d.find? k' := by
  apply Option.ext
  intro w
  rw [find?_eq_some_iff, find?_eq_some_iff]
  unfold erase
  simp [hne]

theorem find?_erase (d : Dict κ ν) (k k' : κ) :
    (d.erase k).find? k' = if k' = k then none else d.find? k' := by
  split
  . next h =>
    rw [h, find?_erase_self]
  . next h => exact find?_erase_of_ne d h

theorem findD_insert (d : Dict κ ν) (k k' : κ) (v fallback : ν) :
    (d.insert k v).findD k' fallback = if k' = k then v else d.findD k' fallback := by
  unfold findD
  rw [find?_insert]
  split
  . rfl
  . rfl

theorem findD_erase (d : Dict κ ν) (k k' : κ) (fallback : ν) :
    (d.erase k).findD k' fallback = if k' = k then fallback else d.findD k' fallback := by
  unfold findD
  rw [find?_erase]
  split
  . rfl
  . rfl

theorem erase_insert (d : Dict κ ν) (k : κ) (v : ν) : (d.insert k v).erase k = d.erase k := by
  apply ext
  unfold erase
  simp only
  cases h : d.find? k with
  | none =>
    rw [entries_insert_of_not_mem h, List.filter_append]
    simp
  | some w =>
    rw [entries_insert_of_mem h]
    unfold replaceEntries
    induction d.entries with
    | nil => rfl
    | cons e es ih =>
      rw [List.map_cons]
      by_cases he : e.1 = k
      . rw [if_pos he, List.filter_cons_of_neg (by simp), List.filter_cons_of_neg (by simp [he])]
        exact ih
      . rw [if_neg he, List.filter_cons_of_pos (by simp [he]),
          List.filter_cons_of_pos (by simp [he]), ih]

theorem filter_values_erase {p : ν → Bool} (h : ∀ v, d.find? k = some v → p v = false) :
    (d.erase k).values.filter p = d.values.filter p := by
  unfold values erase
  rw [List.filter_map, List.filter_map, List.filter_filter]
  congr 1
  apply List.filter_congr
  intro e he
  by_cases hk : e.1 = k
  . have hp := h e.2 (find?_eq_some_iff.mpr (hk ▸ he))
    simp [hp]
  . simp [hk]

theorem filter_values_insert {p : ν → Bool} (hv : p v = false)
    (h : ∀ w, d.find? k = some w → p w = false) :
    (d.insert k v).values.filter p = d.values.filter p := by
  have hself : ∀ w, (d.insert k v).find? k = some w → p w = false := by
    intro w hw
    rw [find?_insert_self] at hw
    cases hw
    exact hv
  rw [← filter_values_erase h, ← filter_values_erase hself, erase_insert]

theorem erase_of_find?_eq_none (h : d.find? k = none) : d.erase k = d := by
  apply ext
  apply List.filter_eq_self.mpr
  intro e he
  simp only [ne_eq, decide_not, Bool.not_eq_eq_eq_not, Bool.not_true, decide_eq_false_iff_not]
  intro hek
  subst hek
  exact find?_eq_none_iff.mp h (List.mem_map.mpr ⟨e, he, rfl⟩)

theorem find?_ofKeys (ks : List κ) (f : κ → ν) (k : κ) :
    (ofKeys ks f).find? k = if k ∈ ks then some (f k) else none := by
  split
  . next h =>
    rw [find?_eq_some_iff]
    unfold ofKeys
    simp [h]
  . next h =>
    rw [find?_eq_none_iff]
    unfold keys ofKeys
    simpa using h

theorem find?_mapValues (f : ν → μ) (d : Dict κ ν) (k : κ) :
    (d.mapValues f).find? k = (d.find? k).map f := by
  unfold find? mapValues
  rw [List.find?_map]
  simp [Function.comp_def]

section Sum

variable {M : Type w} [AddCommMonoid M]

theorem sum_erase {d : Dict κ ν} {k : κ} {v : ν} (f : κ × ν → M) (h : d.find? k = some v) :
    (d.entries.map f).sum = f (k, v) + ((d.erase k).entries.map f).sum := by
  have hmem := find?_eq_some_iff.mp h
  unfold erase
  rcases d with ⟨es, hes⟩
  simp only at hmem ⊢
  clear h
  induction es with
  | nil => simp at hmem
  | cons e es ih =>
    simp only [List.map_cons, List.nodup_cons] at hes
    by_cases he : e.1 = k
    . have hk : e = (k, v) := by
        rcases List.mem_cons.mp hmem with hm | hm
        . exact hm.symm
        . exfalso
          apply hes.1
          rw [he]
          exact List.mem_map.mpr ⟨_, hm, rfl⟩
      have hrest : es.filter (fun e => decide (e.1 ≠ k)) = es := by
        apply List.filter_eq_self.mpr
        intro a ha
        simp only [ne_eq, decide_not, Bool.not_eq_eq_eq_not, Bool.not_true, decide_eq_false_iff_not]
        intro hak
        apply hes.1
        rw [he, ← hak]
        exact List.mem_map.mpr ⟨a, ha, rfl⟩
      rw [List.filter_cons_of_neg (by simp [he]), hrest, List.map_cons, List.sum_cons, hk]
    . have hm : (k, v) ∈ es := by
        rcases List.mem_cons.mp hmem with hm | hm
        . exact absurd (by rw [← hm]) he
        . exact hm
      rw [List.filter_cons_of_pos (by simp [he])]
      simp only [List.map_cons, List.sum_cons]
      rw [ih hes.2 hm, add_left_comm]

theorem sum_insert {d : Dict κ ν} {k : κ} {v : ν} (f : κ × ν → M) :
    ((d.insert k v).entries.map f).sum = f (k, v) + ((d.erase k).entries.map f).sum := by
  rw [sum_erase f (find?_insert_self d k v)]
  rw [erase_insert]

end Sum

end Dict
