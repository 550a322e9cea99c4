import Vane.Fte.ExchangeSelector

/-!
This module contains what an update of an exchange selector does, read one partition at a time.
-/

namespace Vane

open Except (bind_eq_ok_iff bind_ok ok_of_bind raiseIf_eq_ok_iff)
open Dict (contains find?_eq_some_iff)

namespace ExchangeSelectorSnapshot

def combine (current new : SelectedEntry) : SelectedEntry where
  attemptId := new.attemptId <|> current.attemptId
  split := if new.splitKey.isSome then new.split else current.split
  splitKey := new.splitKey <|> current.splitKey

theorem orElse_of_not_conflict {α : Type} {current new : Option α} {a : α}
    (h : ¬Conflict current new) (hcurrent : current = some a) : (new <|> current) = some a := by
  subst hcurrent
  cases new with
  | none => rfl
  | some b =>
    by_contra hne
    exact h ⟨rfl, rfl, fun heq => hne heq.symm⟩

structure Compatible (current new : SelectedEntry) : Prop where
  attemptId : ¬Conflict current.attemptId new.attemptId
  splitKey : ¬Conflict current.splitKey new.splitKey

theorem mergeEntry_eq_ok {id : ℕ} {current new entry : SelectedEntry}
    (h : mergeEntry id current new = .ok entry) :
    Compatible current new ∧ entry = combine current new := by
  obtain ⟨_, hattempt, h⟩ := ok_of_bind h
  obtain ⟨_, hkey, h⟩ := ok_of_bind h
  rw [raiseIf_eq_ok_iff] at hattempt hkey
  exact ⟨⟨hattempt, hkey⟩, (Except.ok.inj h).symm⟩

theorem mergeEntry_of_compatible {current new : SelectedEntry} (h : Compatible current new) (id : ℕ) :
    mergeEntry id current new = .ok (combine current new) := by
  unfold mergeEntry
  rw [Except.raiseIf_of_not h.attemptId, bind_ok, Except.raiseIf_of_not h.splitKey, bind_ok]
  rfl

def combine? : Option SelectedEntry → Option SelectedEntry → Option SelectedEntry
  | none, new => new
  | some current, none => some current
  | some current, some new => some (combine current new)

def keyOf (entry : Option SelectedEntry) : Option String := entry.bind SelectedEntry.splitKey

structure Looped (items : List (ℕ × SelectedEntry)) (acc result : Dict ℕ SelectedEntry × List ℕ) :
    Prop where
  found : ∀ item ∈ items, result.1.find? item.1 = combine? (some item.2) (acc.1.find? item.1)
  compatible : ∀ item ∈ items, ∀ new, acc.1.find? item.1 = some new → Compatible item.2 new
  others : ∀ id, id ∉ items.map Prod.fst → result.1.find? id = acc.1.find? id
  materialized : ∀ id, id ∈ result.2 ↔ id ∈ acc.2 ∨ ∃ item ∈ items, item.1 = id ∧
    item.2.splitKey = none ∧ (keyOf (acc.1.find? id)).isSome

theorem mergeStep_eq_ok {acc next : Dict ℕ SelectedEntry × List ℕ} {item : ℕ × SelectedEntry}
    (h : mergeStep acc item = .ok next) :
    (∀ id, next.1.find? id =
      if id = item.1 then combine? (some item.2) (acc.1.find? item.1) else acc.1.find? id) ∧
    (∀ new, acc.1.find? item.1 = some new → Compatible item.2 new) ∧
    ∀ id, id ∈ next.2 ↔ id ∈ acc.2 ∨ id = item.1 ∧ item.2.splitKey = none ∧
      (keyOf (acc.1.find? id)).isSome := by
  unfold mergeStep at h
  split at h
  . next hnone =>
    cases h
    refine ⟨?_, ?_, ?_⟩
    . intro id
      rw [Dict.find?_insert, hnone]
      rfl
    . intro new hnew
      rw [hnone] at hnew
      cases hnew
    . intro id
      refine ⟨.inl, ?_⟩
      rintro (hmem | ⟨rfl, -, hkey⟩)
      . exact hmem
      . rw [hnone] at hkey
        cases hkey
  . next new hnew =>
    obtain ⟨entry, hentry, h⟩ := ok_of_bind h
    obtain ⟨hcompatible, rfl⟩ := mergeEntry_eq_ok hentry
    cases h
    refine ⟨?_, ?_, ?_⟩
    . intro id
      rw [Dict.find?_insert, hnew]
      rfl
    . intro other hother
      rw [hnew] at hother
      cases hother
      exact hcompatible
    . intro id
      split
      . next hkeys =>
        rw [List.mem_append, List.mem_singleton]
        apply or_congr_right
        constructor
        . rintro rfl
          refine ⟨rfl, Option.isNone_iff_eq_none.mp hkeys.1, ?_⟩
          rw [hnew]
          exact hkeys.2
        . exact And.left
      . next hkeys =>
        refine ⟨.inl, ?_⟩
        rintro (hmem | ⟨rfl, hnone, hkey⟩)
        . exact hmem
        . rw [hnew] at hkey
          exact absurd ⟨Option.isNone_iff_eq_none.mpr hnone, hkey⟩ hkeys

theorem looped_of_foldlM {items : List (ℕ × SelectedEntry)} (hnodup : (items.map Prod.fst).Nodup)
    {acc result : Dict ℕ SelectedEntry × List ℕ} (h : items.foldlM mergeStep acc = .ok result) :
    Looped items acc result := by
  induction items generalizing acc with
  | nil =>
    rw [List.foldlM_nil] at h
    cases h
    exact ⟨fun _ hmem => (by cases hmem), fun _ hmem => (by cases hmem), fun _ _ => rfl, fun _ => by simp⟩
  | cons item items ih =>
    rw [List.map_cons, List.nodup_cons] at hnodup
    rw [List.foldlM_cons] at h
    obtain ⟨next, hnext, h⟩ := ok_of_bind h
    obtain ⟨hfound, hcompatible, hmaterialized⟩ := mergeStep_eq_ok hnext
    have hloop := ih hnodup.2 h
    -- The other entries are not those of the first partition, which leaves them as they were.
    have hrest : ∀ other ∈ items, next.1.find? other.1 = acc.1.find? other.1 := by
      intro other hother
      rw [hfound, if_neg]
      rintro heq
      exact hnodup.1 (heq ▸ List.mem_map_of_mem hother)
    refine ⟨?_, ?_, ?_, ?_⟩
    . intro other hother
      rcases List.mem_cons.mp hother with rfl | hother
      . rw [hloop.others _ hnodup.1, hfound, if_pos rfl]
      . rw [hloop.found other hother, hrest other hother]
    . intro other hother
      rcases List.mem_cons.mp hother with rfl | hother
      . exact hcompatible
      . rw [← hrest other hother]
        exact hloop.compatible other hother
    . intro id hid
      rw [List.map_cons, List.mem_cons, not_or] at hid
      rw [hloop.others id hid.2, hfound, if_neg hid.1]
    . intro id
      rw [hloop.materialized, hmaterialized, or_assoc, List.exists_mem_cons_iff]
      apply or_congr_right
      apply or_congr
      . rw [eq_comm]
      . apply exists_congr
        intro other
        apply and_congr_right
        intro hother
        apply and_congr_right
        rintro rfl
        rw [hrest other hother]

structure Merged (current snapshot merged : ExchangeSelectorSnapshot) (new : List ℕ) : Prop where
  fields : merged = { snapshot with selected := merged.selected }
  found : ∀ id, merged.selected.find? id =
    combine? (current.selected.find? id) (snapshot.selected.find? id)
  compatible : ∀ id entry entry', current.selected.find? id = some entry →
    snapshot.selected.find? id = some entry' → Compatible entry entry'
  new_iff : ∀ id, id ∈ new ↔ (keyOf (merged.selected.find? id)).isSome ∧
    keyOf (current.selected.find? id) = none

theorem keyOf_combine? (current new : Option SelectedEntry) :
    keyOf (combine? current new) = (keyOf new <|> keyOf current) := by
  cases current with
  | none => cases new <;> simp [combine?, keyOf]
  | some current =>
    cases new with
    | none => rfl
    | some new => rfl

theorem mem_added {current selected : Dict ℕ SelectedEntry} {id : ℕ} :
    id ∈ (selected.entries.filter fun item =>
        !current.contains item.1 && item.2.splitKey.isSome).map Prod.fst ↔
      current.find? id = none ∧ (keyOf (selected.find? id)).isSome := by
  simp only [List.mem_map, List.mem_filter, Bool.and_eq_true, Bool.not_eq_true', Prod.exists,
    exists_and_right, exists_eq_right, contains, Option.isSome_eq_false_iff,
    Option.isNone_iff_eq_none]
  constructor
  . rintro ⟨entry, hmem, hnone, hkey⟩
    rw [find?_eq_some_iff.mpr hmem]
    exact ⟨hnone, hkey⟩
  . rintro ⟨hnone, hkey⟩
    cases hfound : selected.find? id with
    | none =>
      rw [hfound] at hkey
      cases hkey
    | some entry =>
      rw [hfound] at hkey
      exact ⟨entry, find?_eq_some_iff.mp hfound, hnone, hkey⟩

theorem merged_of_merge {current snapshot merged : ExchangeSelectorSnapshot} {new : List ℕ}
    (h : current.merge snapshot = .ok (merged, new)) : Merged current snapshot merged new := by
  obtain ⟨⟨selected, materialized⟩, hfold, h⟩ := ok_of_bind h
  cases h
  have hloop := looped_of_foldlM current.selected.nodupKeys hfold
  have hfound : ∀ id, selected.find? id =
      combine? (current.selected.find? id) (snapshot.selected.find? id) := by
    intro id
    cases hcurrent : current.selected.find? id with
    | some entry => exact hloop.found (id, entry) (find?_eq_some_iff.mp hcurrent)
    | none => exact hloop.others id (Dict.find?_eq_none_iff.mp hcurrent)
  refine ⟨rfl, hfound, ?_, ?_⟩
  . intro id entry entry' hentry hentry'
    exact hloop.compatible (id, entry) (find?_eq_some_iff.mp hentry) entry' hentry'
  . intro id
    have hmaterialized : id ∈ materialized ↔ ∃ entry, current.selected.find? id = some entry ∧
        entry.splitKey = none ∧ (keyOf (snapshot.selected.find? id)).isSome := by
      rw [hloop.materialized]
      constructor
      . rintro (hmem | ⟨item, hmem, rfl, hkeys⟩)
        . cases hmem
        . exact ⟨item.2, find?_eq_some_iff.mpr hmem, hkeys⟩
      . rintro ⟨entry, hentry, hkeys⟩
        exact .inr ⟨(id, entry), find?_eq_some_iff.mp hentry, rfl, hkeys⟩
    rw [List.mem_append, hmaterialized, mem_added, hfound, keyOf_combine?]
    cases current.selected.find? id with
    | none => simp [keyOf]
    | some entry =>
      cases hkey : entry.splitKey with
      | none => simp [keyOf, hkey]
      | some key => simp [keyOf, hkey]

theorem exists_foldlM_mergeStep {items : List (ℕ × SelectedEntry)}
    (hnodup : (items.map Prod.fst).Nodup) (acc : Dict ℕ SelectedEntry × List ℕ)
    (h : ∀ item ∈ items, ∀ new, acc.1.find? item.1 = some new → Compatible item.2 new) :
    ∃ result, items.foldlM mergeStep acc = .ok result := by
  induction items generalizing acc with
  | nil => exact ⟨acc, rfl⟩
  | cons item items ih =>
    rw [List.map_cons, List.nodup_cons] at hnodup
    rw [List.forall_mem_cons] at h
    have hstep : ∃ next, mergeStep acc item = .ok next := by
      unfold mergeStep
      split
      . exact ⟨_, rfl⟩
      . next new hnew =>
        rw [mergeEntry_of_compatible (h.1 new hnew)]
        exact ⟨_, rfl⟩
    obtain ⟨next, hnext⟩ := hstep
    rw [List.foldlM_cons, hnext, bind_ok]
    apply ih hnodup.2
    intro other hother new hnew
    rw [(mergeStep_eq_ok hnext).1, if_neg] at hnew
    . exact h.2 other hother new hnew
    . rintro heq
      exact hnodup.1 (heq ▸ List.mem_map_of_mem hother)

theorem exists_merge {current snapshot : ExchangeSelectorSnapshot}
    (h : ∀ id entry entry', current.selected.find? id = some entry →
      snapshot.selected.find? id = some entry' → Compatible entry entry') :
    ∃ merged new, current.merge snapshot = .ok (merged, new) := by
  have hcompatible : ∀ item ∈ current.selected.entries, ∀ new,
      snapshot.selected.find? item.1 = some new → Compatible item.2 new :=
    fun item hitem new => h item.1 item.2 new (find?_eq_some_iff.mpr hitem)
  obtain ⟨result, hresult⟩ := exists_foldlM_mergeStep current.selected.nodupKeys
    (snapshot.selected, []) hcompatible
  unfold merge
  rw [hresult, bind_ok]
  exact ⟨_, _, rfl⟩

/-! A snapshot that is stored was validated. -/

structure Valid (snapshot : ExchangeSelectorSnapshot) : Prop where
  version : 0 ≤ snapshot.version
  complete : snapshot.final = true → ∃ count : ℕ, snapshot.partitionCount = some (count : ℤ) ∧
    ∀ id < count, ∃ entry, snapshot.selected.find? id = some entry

theorem valid_iff {self : ExchangeSelectorSnapshot} : self.validate = .ok ⟨⟩ ↔ self.Valid := by
  have hversion : self.validate = .ok ⟨⟩ ↔ 0 ≤ self.version ∧
      (self.final = true → ∃ count, self.partitionCount = some count ∧ 0 ≤ count ∧
        (List.range count.toNat).filter (fun id => !self.selected.contains id) = []) := by
    unfold validate
    rw [bind_eq_ok_iff]
    simp only [raiseIf_eq_ok_iff, not_lt, exists_const]
    apply and_congr_right
    intro _
    cases self.final with
    | false => simp
    | true =>
      cases self.partitionCount with
      | none => simp
      | some count =>
        simp only [if_true, bind_eq_ok_iff, raiseIf_eq_ok_iff, not_lt, not_not,
          Option.some.injEq, exists_eq_left', forall_const, exists_const]
  rw [hversion]
  constructor
  . rintro ⟨hnonneg, hcomplete⟩
    refine ⟨hnonneg, fun hfinal => ?_⟩
    obtain ⟨count, hcount, hcount0, hmissing⟩ := hcomplete hfinal
    refine ⟨count.toNat, ?_, ?_⟩
    . rw [hcount, Int.toNat_of_nonneg hcount0]
    . intro id hid
      rw [List.filter_eq_nil_iff] at hmissing
      have hcontains := hmissing id (List.mem_range.mpr hid)
      exact Option.ne_none_iff_exists'.mp (by simpa [contains] using hcontains)
  . rintro ⟨hnonneg, hcomplete⟩
    refine ⟨hnonneg, fun hfinal => ?_⟩
    obtain ⟨count, hcount, hselected⟩ := hcomplete hfinal
    refine ⟨count, hcount, by omega, ?_⟩
    rw [List.filter_eq_nil_iff]
    intro id hid
    obtain ⟨entry, hentry⟩ := hselected id (by simpa using hid)
    simp [contains, hentry]

structure Repeats (current snapshot : ExchangeSelectorSnapshot) : Prop where
  final : snapshot.final = current.final
  partitionCount : snapshot.partitionCount = current.partitionCount
  decided : ∀ id entry, snapshot.selected.find? id = some entry →
    ∃ entry', current.selected.find? id = some entry' ∧
      (entry.attemptId = none ∨ entry.attemptId = entry'.attemptId) ∧
      (entry.splitKey = none ∨ entry.splitKey = entry'.splitKey)

def decision (item : ℕ × SelectedEntry) : ℕ × Option ℤ × Option String :=
  (item.1, item.2.attemptId, item.2.splitKey)

theorem mem_map_decision {selected : Dict ℕ SelectedEntry} {x : ℕ × Option ℤ × Option String} :
    x ∈ selected.entries.map decision ↔
      (selected.find? x.1).map (fun entry => decision (x.1, entry)) = some x := by
  rw [List.mem_map, Option.map_eq_some_iff]
  constructor
  . rintro ⟨item, hitem, rfl⟩
    exact ⟨item.2, find?_eq_some_iff.mpr hitem, rfl⟩
  . rintro ⟨entry, hentry, hdecision⟩
    exact ⟨(x.1, entry), find?_eq_some_iff.mp hentry, hdecision⟩

theorem nodup_map_decision (selected : Dict ℕ SelectedEntry) :
    (selected.entries.map decision).Nodup := by
  apply List.Nodup.of_map Prod.fst
  rw [List.map_map]
  exact selected.nodupKeys

theorem decisions_eq {selected selected' : Dict ℕ SelectedEntry}
    (h : ∀ id, (selected.find? id).map (fun entry => decision (id, entry)) =
      (selected'.find? id).map fun entry => decision (id, entry)) :
    (selected.entries.sortBy Prod.fst).map decision =
      (selected'.entries.sortBy Prod.fst).map decision := by
  have hsorted : ∀ d : Dict ℕ SelectedEntry, ((d.entries.sortBy Prod.fst).map decision).Pairwise
      fun a b => a.1 ≤ b.1 := by
    intro d
    rw [List.pairwise_map]
    exact d.entries.sortBy_pairwise Prod.fst
  have hperm : ∀ d : Dict ℕ SelectedEntry,
      ((d.entries.sortBy Prod.fst).map decision).Perm (d.entries.map decision) :=
    fun d => (d.entries.sortBy_perm Prod.fst).map decision
  have hsame : (selected.entries.map decision).Perm (selected'.entries.map decision) := by
    rw [List.perm_ext_iff_of_nodup (nodup_map_decision _) (nodup_map_decision _)]
    intro x
    rw [mem_map_decision, mem_map_decision, h]
  have hall := (hperm selected).trans (hsame.trans (hperm selected').symm)
  refine hall.eq_of_pairwise ?_ (hsorted selected) (hsorted selected')
  -- Two decisions for one partition are the same.
  intro a b ha hb hab hba
  have hid : a.1 = b.1 := Nat.le_antisymm hab hba
  rw [(hperm selected).mem_iff, mem_map_decision, h, hid] at ha
  rw [(hperm selected').mem_iff, mem_map_decision, ha] at hb
  exact Option.some.inj hb

theorem semanticKey_of_repeats {current snapshot merged : ExchangeSelectorSnapshot} {new : List ℕ}
    (h : Merged current snapshot merged new) (hrepeats : Repeats current snapshot)
    (hsource : snapshot.sourceNodeId = current.sourceNodeId) :
    merged.semanticKey = current.semanticKey := by
  have hdecisions : (merged.selected.entries.sortBy Prod.fst).map decision =
      (current.selected.entries.sortBy Prod.fst).map decision := by
    apply decisions_eq
    intro id
    rw [h.found]
    cases hsnapshot : snapshot.selected.find? id with
    | none => cases current.selected.find? id <;> rfl
    | some entry =>
      obtain ⟨entry', hentry', hattempt, hkey⟩ := hrepeats.decided id entry hsnapshot
      rw [hentry']
      have hattempt' : (entry.attemptId <|> entry'.attemptId) = entry'.attemptId := by
        rcases hattempt with hattempt | hattempt
        . rw [hattempt]
          rfl
        . rw [hattempt]
          cases entry'.attemptId <;> rfl
      have hkey' : (entry.splitKey <|> entry'.splitKey) = entry'.splitKey := by
        rcases hkey with hkey | hkey
        . rw [hkey]
          rfl
        . rw [hkey]
          cases entry'.splitKey <;> rfl
      simp only [combine?, Option.map_some, decision, combine, hattempt', hkey']
  rw [h.fields]
  rw [hsource, hrepeats.final, hrepeats.partitionCount]
  exact congrArg (SemanticKey.mk _ _ _) hdecisions

theorem Valid.merged {current snapshot merged : ExchangeSelectorSnapshot} {new : List ℕ}
    (hvalid : current.Valid) (h : Merged current snapshot merged new)
    (hrepeats : Repeats current snapshot) (hversion : snapshot.version = current.version) :
    merged.Valid := by
  have hfound := h.found
  rw [h.fields]
  refine ⟨hversion ▸ hvalid.version, fun hfinal => ?_⟩
  obtain ⟨count, hcount, hselected⟩ := hvalid.complete (hrepeats.final.symm.trans hfinal)
  refine ⟨count, hrepeats.partitionCount.trans hcount, ?_⟩
  intro id hid
  obtain ⟨entry, hentry⟩ := hselected id hid
  rw [hfound, hentry]
  cases snapshot.selected.find? id with
  | none => exact ⟨_, rfl⟩
  | some entry' => exact ⟨_, rfl⟩

theorem Repeats.compatible {current snapshot : ExchangeSelectorSnapshot}
    (h : Repeats current snapshot) {id : ℕ} {entry entry' : SelectedEntry}
    (hcurrent : current.selected.find? id = some entry)
    (hsnapshot : snapshot.selected.find? id = some entry') : Compatible entry entry' := by
  obtain ⟨other, hother, hattempt, hkey⟩ := h.decided id entry' hsnapshot
  rw [hcurrent] at hother
  cases hother
  refine ⟨?_, ?_⟩
  . rintro ⟨-, hsome, hne⟩
    rcases hattempt with hattempt | hattempt
    . rw [hattempt] at hsome
      cases hsome
    . exact hne hattempt.symm
  . rintro ⟨-, hsome, hne⟩
    rcases hkey with hkey | hkey
    . rw [hkey] at hsome
      cases hsome
    . exact hne hkey.symm

end ExchangeSelectorSnapshot

namespace FteFragmentState

open ExchangeSelectorSnapshot

variable {s s' : FteFragmentState} {source : String} {snapshot : ExchangeSelectorSnapshot}

def entryAt (s : FteFragmentState) (source : String) (id : ℕ) : Option SelectedEntry :=
  (s.exchangeSourceSelectorsBySource.find? source).bind fun current => current.selected.find? id

def Stored (s : FteFragmentState) : Prop :=
  ∀ source current, s.exchangeSourceSelectorsBySource.find? source = some current →
    current.sourceNodeId = source ∧ current.Valid

structure Applied (s : FteFragmentState) (snapshot merged : ExchangeSelectorSnapshot) (new : List ℕ) :
    Prop where
  fields : merged = { snapshot with selected := merged.selected }
  notFinal : ∀ current, s.exchangeSourceSelectorsBySource.find? snapshot.sourceNodeId = some current →
    current.final = false
  valid : merged.Valid
  found : ∀ id, merged.selected.find? id =
    combine? (s.entryAt snapshot.sourceNodeId id) (snapshot.selected.find? id)
  compatible : ∀ id entry entry', s.entryAt snapshot.sourceNodeId id = some entry →
    snapshot.selected.find? id = some entry' → Compatible entry entry'
  new_iff : ∀ id, id ∈ new ↔ (keyOf (merged.selected.find? id)).isSome ∧
    keyOf (s.entryAt snapshot.sourceNodeId id) = none

theorem Applied.sourceNodeId {merged : ExchangeSelectorSnapshot} {new : List ℕ}
    (h : Applied s snapshot merged new) : merged.sourceNodeId = snapshot.sourceNodeId := by
  rw [h.fields]

inductive SelectorStep (s : FteFragmentState) (snapshot : ExchangeSelectorSnapshot) :
    Option (List ℕ) → FteFragmentState → Prop where
  | kept : SelectorStep s snapshot none s
  | stored (merged : ExchangeSelectorSnapshot) (new : List ℕ) (applied : Applied s snapshot merged new) :
    SelectorStep s snapshot (some new) (s.storeSelector merged snapshot.version)

theorem mem_keyedPartitions {selected : Dict ℕ SelectedEntry} {id : ℕ} :
    id ∈ keyedPartitions selected ↔ (keyOf (selected.find? id)).isSome := by
  unfold keyedPartitions
  simp only [List.mem_map, List.mem_filter, Prod.exists, exists_and_right, exists_eq_right]
  constructor
  . rintro ⟨entry, hmem, hkey⟩
    rw [find?_eq_some_iff.mpr hmem]
    exact hkey
  . intro hkey
    cases hfound : selected.find? id with
    | none =>
      rw [hfound] at hkey
      cases hkey
    | some entry =>
      rw [hfound] at hkey
      exact ⟨entry, find?_eq_some_iff.mp hfound, hkey⟩

theorem applied_first (hnone : s.exchangeSourceSelectorsBySource.find? snapshot.sourceNodeId = none)
    (hvalid : snapshot.Valid) : Applied s snapshot snapshot (keyedPartitions snapshot.selected) := by
  have hentry : ∀ id, s.entryAt snapshot.sourceNodeId id = none := by
    intro id
    unfold entryAt
    rw [hnone]
    rfl
  refine ⟨rfl, ?_, hvalid, ?_, ?_, ?_⟩
  . intro current hcurrent
    rw [hnone] at hcurrent
    cases hcurrent
  . intro id
    rw [hentry]
    rfl
  . intro id entry entry' hsome
    rw [hentry] at hsome
    cases hsome
  . intro id
    rw [mem_keyedPartitions, hentry]
    exact ⟨fun hkey => ⟨hkey, rfl⟩, And.left⟩

theorem applied_merged {current merged : ExchangeSelectorSnapshot} {new : List ℕ}
    (hcurrent : s.exchangeSourceSelectorsBySource.find? snapshot.sourceNodeId = some current)
    (hfinal : current.final = false) (h : Merged current snapshot merged new) (hvalid : merged.Valid) :
    Applied s snapshot merged new := by
  have hentry : ∀ id, s.entryAt snapshot.sourceNodeId id = current.selected.find? id := by
    intro id
    unfold entryAt
    rw [hcurrent]
    rfl
  refine ⟨h.fields, ?_, hvalid, ?_, ?_, ?_⟩
  . intro other hother
    rw [hcurrent] at hother
    cases hother
    exact hfinal
  . intro id
    rw [hentry, h.found]
  . intro id entry entry'
    rw [hentry]
    exact h.compatible id entry entry'
  . intro id
    rw [hentry, h.new_iff]

theorem ensures_applySnapshot (s : FteFragmentState) (snapshot : ExchangeSelectorSnapshot) :
    (applySnapshot snapshot).Ensures s (SelectorStep s snapshot) fun _ s' => s' = s := by
  unfold applySnapshot
  rw [Py.ensures_get_bind]
  split
  . next hnone =>
    rw [Py.ensures_lift_bind]
    refine ⟨fun _ hvalid => ?_, fun _ _ => rfl⟩
    rw [Py.ensures_modify_bind, Py.ensures_pure]
    exact .stored _ _ (applied_first hnone (valid_iff.mp hvalid))
  . next current hcurrent =>
    rw [Py.ensures_ite]
    refine ⟨fun _ => .kept, fun _ => ?_⟩
    rw [Py.ensures_ite]
    refine ⟨fun _ => ?_, fun _ => ?_⟩
    . rw [Py.ensures_lift_bind]
      exact ⟨fun _ _ => .kept, fun _ _ => rfl⟩
    . rw [Py.ensures_lift_bind]
      refine ⟨?_, fun _ _ => rfl⟩
      rintro ⟨merged, new⟩ hmerge
      rw [Py.ensures_lift_bind]
      refine ⟨fun _ hvalid => ?_, fun _ _ => rfl⟩
      rw [Py.ensures_ite]
      refine ⟨fun _ => ?_, fun hfinal => ?_⟩
      . rw [Py.ensures_ite]
        exact ⟨fun _ => .kept, fun _ => rfl⟩
      . rw [Py.ensures_modify_bind, Py.ensures_pure]
        exact .stored _ _ (applied_merged hcurrent (Bool.not_eq_true _ ▸ hfinal)
          (merged_of_merge hmerge) (valid_iff.mp hvalid))

def rawSplits (snapshot : ExchangeSelectorSnapshot) : List FteSplit :=
  snapshot.selected.values.filterMap SelectedEntry.split

section

variable (digest : String × ℕ × Option String → String)

def handedOn (s : FteFragmentState) (snapshot : ExchangeSelectorSnapshot) (new : List ℕ) :
    List FteSplit × List String :=
  takeNew (exchangeSourceSplitKey digest)
    (s.exchangeSourceSplitKeysBySource.findD snapshot.sourceNodeId [])
    ((rawSplits snapshot).filter fun split => split.sourcePartitionId ∈ new)

inductive Updated (s : FteFragmentState) (selector : SelectorPayload) (source : String) :
    Option (ExchangeSelectorSnapshot × List FteSplit) → FteFragmentState → Prop where
  | kept : Updated s selector source none s
  | taken (snapshot merged : ExchangeSelectorSnapshot) (new : List ℕ)
    (normalized : normalizeSnapshot digest s source selector = .ok snapshot)
    (hsource : snapshot.sourceNodeId = source) (applied : Applied s snapshot merged new)
    (hopen : source ∈ s.exhaustedSourceNodeIds → rawSplits snapshot = []) :
    Updated s selector source (some (snapshot, (handedOn digest s snapshot new).1))
      { s.storeSelector merged snapshot.version with
        exchangeSourceSplitKeysBySource := s.exchangeSourceSplitKeysBySource.insert source
          (handedOn digest s snapshot new).2 }

inductive Refused (s : FteFragmentState) (source : String) : FteFragmentState → Prop where
  | kept : Refused s source s
  | stored (snapshot merged : ExchangeSelectorSnapshot) (new : List ℕ)
    (hsource : snapshot.sourceNodeId = source) (applied : Applied s snapshot merged new) :
    Refused s source (s.storeSelector merged snapshot.version)

theorem ensures_applyExchangeSelectorUpdate (s : FteFragmentState) (source : String)
    (selector : SelectorPayload) :
    (applyExchangeSelectorUpdate digest source selector).Ensures s (Updated digest s selector source)
      fun _ s' => Refused s source s' := by
  unfold applyExchangeSelectorUpdate
  rw [Py.ensures_bind, Py.ensures_read]
  refine ⟨fun snapshot hnormalized => ?_, fun _ _ => .kept⟩
  rw [Py.ensures_raiseIf_bind]
  refine ⟨fun _ => .kept, fun hsource => ?_⟩
  rw [not_not] at hsource
  rw [Py.ensures_bind]
  apply (ensures_applySnapshot s snapshot).mono
  . intro result s' hstep
    cases hstep with
    | kept => exact .kept
    | stored merged new applied =>
      rw [Py.ensures_get_bind, Py.ensures_raiseIf_bind]
      refine ⟨fun _ => .stored snapshot merged new hsource applied, fun hopen => ?_⟩
      have hexhausted : source ∈ s.exhaustedSourceNodeIds → rawSplits snapshot = [] := by
        intro hmem
        by_contra hne
        exact hopen ⟨hmem, hne⟩
      subst hsource
      exact .taken snapshot merged new hnormalized rfl applied hexhausted
  . rintro _ s' rfl
    exact .kept

end

end FteFragmentState

end Vane
