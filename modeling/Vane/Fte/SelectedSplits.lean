import Vane.Fte.SelectorStability

/-! This module contains the verification of which splits a selector hands to the split assigner. -/

namespace Vane

open Except (ok_of_bind)

section

variable {digest : String × ℕ × Option String → String} {sourceNodeId : String}

def WellFormed (digest : String × ℕ × Option String → String) (id : ℕ) (entry : SelectedEntry) : Prop :=
  ∀ split, entry.split = some split →
    entry.splitKey = some (exchangeSourceSplitKey digest split) ∧ split.sourcePartitionId = id

theorem wellFormed_of_normalize {id : ℕ} {raw : RawEntry} {entry : SelectedEntry}
    (h : normalizeSelectedEntry digest sourceNodeId id raw = .ok entry) : WellFormed digest id entry := by
  intro split hsplit
  cases raw with
  | none =>
    cases h
    cases hsplit
  | attempt attemptId =>
    cases h
    cases hsplit
  | mapping payload =>
    rw [normalizeSelectedEntry] at h
    split at h
    . cases h
      cases hsplit
    . next splitPayload _ =>
      obtain ⟨⟨normalized, attemptId, key⟩, hnormalized, h⟩ := ok_of_bind h
      cases h
      cases hsplit
      obtain ⟨made, -, hnormalized⟩ := ok_of_bind hnormalized
      obtain ⟨_, -, hnormalized⟩ := ok_of_bind hnormalized
      obtain ⟨_, hpartition, hnormalized⟩ := ok_of_bind hnormalized
      cases hnormalized
      rw [Except.raiseIf_eq_ok_iff, not_not] at hpartition
      exact ⟨rfl, hpartition⟩

def WellFormedAll (digest : String × ℕ × Option String → String) (selected : Dict ℕ SelectedEntry) :
    Prop :=
  ∀ id entry, selected.find? id = some entry → WellFormed digest id entry

theorem WellFormedAll.insert {selected : Dict ℕ SelectedEntry} (h : WellFormedAll digest selected)
    {id : ℕ} {entry : SelectedEntry} (hentry : WellFormed digest id entry) :
    WellFormedAll digest (selected.insert id entry) := by
  intro other found hfound
  rw [Dict.find?_insert] at hfound
  split at hfound
  . next heq =>
    cases hfound
    exact heq ▸ hentry
  . exact h other found hfound

theorem wellFormedAll_of_normalizeSnapshot {s : FteFragmentState} {selector : SelectorPayload}
    {snapshot : ExchangeSelectorSnapshot}
    (h : normalizeSnapshot digest s sourceNodeId selector = .ok snapshot) :
    WellFormedAll digest snapshot.selected := by
  obtain ⟨selected, hselected, h⟩ := ok_of_bind h
  obtain ⟨⟨partitionCount, all⟩, hall, h⟩ := ok_of_bind h
  cases h
  have hstart : WellFormedAll digest selected := by
    obtain ⟨items, -, hselected⟩ := ok_of_bind hselected
    refine Except.foldlM_invariant (WellFormedAll digest) ?_ (fun _ _ hfound => (by cases hfound))
      hselected
    intro selected item selected' _ hbefore hstep
    obtain ⟨_, -, hstep⟩ := ok_of_bind hstep
    obtain ⟨entry, hentry, hstep⟩ := ok_of_bind hstep
    obtain ⟨_, -, hstep⟩ := ok_of_bind hstep
    cases hstep
    exact hbefore.insert (wellFormed_of_normalize hentry)
  refine Except.foldlM_invariant
    (fun acc : Option ℤ × Dict ℕ SelectedEntry => WellFormedAll digest acc.2) ?_ hstart hall
  intro acc payload acc' _ hbefore hstep
  obtain ⟨split, -, hstep⟩ := ok_of_bind hstep
  obtain ⟨entry, hentry, hstep⟩ := ok_of_bind hstep
  cases hstep
  exact hbefore.insert (wellFormed_of_normalize hentry)

end

namespace FteFragmentState

variable {snapshot merged : ExchangeSelectorSnapshot} {new : List ℕ}

open ExchangeSelectorSnapshot

variable {digest : String × ℕ × Option String → String} {s s' : FteFragmentState} {source : String}

theorem takeNew_of_new {key : FteSplit → String} {seen : List String} {splits : List FteSplit}
    (hnodup : (splits.map key).Nodup) (hnew : ∀ split ∈ splits, key split ∉ seen) :
    takeNew key seen splits = (splits, seen ++ splits.map key) := by
  induction splits generalizing seen with
  | nil => simp [takeNew]
  | cons split splits ih =>
    rw [List.map_cons, List.nodup_cons] at hnodup
    rw [List.forall_mem_cons] at hnew
    have hrest : ∀ other ∈ splits, key other ∉ seen ++ [key split] := by
      intro other hother hmem
      rcases List.mem_append.mp hmem with hmem | hmem
      . exact hnew.2 other hother hmem
      . exact hnodup.1 (List.mem_singleton.mp hmem ▸ List.mem_map_of_mem hother)
    unfold takeNew
    rw [if_neg hnew.1, ih hnodup.2 hrest]
    simp

def delivered (s : FteFragmentState) : List FteSplit := (s.assigner.getD []).flatMap AssignerCall.splits

def partitionsOf (splits : List FteSplit) : List ℕ := splits.map FteSplit.sourcePartitionId

def keyAt (s : FteFragmentState) (source : String) (id : ℕ) : Option String := keyOf (s.entryAt source id)

structure Handed (digest : String × ℕ × Option String → String) (source : String)
    (s : FteFragmentState) : Prop where
  assigner : s.assigner.isSome
  known : s.exchangeSourceSplitKeysBySource.findD source [] =
    s.delivered.map (exchangeSourceSplitKey digest)
  keyed : ∀ split ∈ s.delivered,
    s.keyAt source split.sourcePartitionId = some (exchangeSourceSplitKey digest split)
  nodup : (partitionsOf s.delivered).Nodup

def Distinguishes (digest : String × ℕ × Option String → String) : Prop :=
  ∀ payload payload', digest payload = digest payload' → payload.2.1 = payload'.2.1

theorem partitionsOf_rawSplits_sublist {items : List (ℕ × SelectedEntry)}
    (h : ∀ item ∈ items, WellFormed digest item.1 item.2) :
    (partitionsOf ((items.map Prod.snd).filterMap SelectedEntry.split)).Sublist (items.map Prod.fst) := by
  induction items with
  | nil => exact List.Sublist.slnil
  | cons item items ih =>
    rw [List.forall_mem_cons] at h
    rw [List.map_cons, List.map_cons, List.filterMap_cons]
    cases hsplit : item.2.split with
    | none => exact (ih h.2).cons _
    | some split =>
      have hpartition := (h.1 split hsplit).2
      rw [← hpartition]
      exact (ih h.2).cons_cons _

def fresh (snapshot : ExchangeSelectorSnapshot) (new : List ℕ) : List FteSplit :=
  (rawSplits snapshot).filter fun split => split.sourcePartitionId ∈ new

theorem nodup_partitionsOf_fresh {snapshot : ExchangeSelectorSnapshot}
    (h : WellFormedAll digest snapshot.selected) (new : List ℕ) :
    (partitionsOf (fresh snapshot new)).Nodup := by
  have hitems : ∀ item ∈ snapshot.selected.entries, WellFormed digest item.1 item.2 :=
    fun item hitem => h item.1 item.2 (Dict.find?_eq_some_iff.mpr hitem)
  exact ((partitionsOf_rawSplits_sublist hitems).nodup snapshot.selected.nodupKeys).sublist (List.filter_sublist.map _)

theorem mem_fresh {snapshot : ExchangeSelectorSnapshot} (h : WellFormedAll digest snapshot.selected)
    {split : FteSplit} :
    split ∈ fresh snapshot new ↔ split.sourcePartitionId ∈ new ∧
      ∃ entry, snapshot.selected.find? split.sourcePartitionId = some entry ∧
        entry.split = some split := by
  unfold fresh rawSplits
  rw [List.mem_filter, List.mem_filterMap, and_comm]
  refine and_congr decide_eq_true_iff ?_
  constructor
  . rintro ⟨entry, hentry, hsplit⟩
    obtain ⟨id, hid⟩ := Dict.mem_values_iff.mp hentry
    have hpartition := (h id entry hid split hsplit).2
    exact ⟨entry, hpartition ▸ hid, hsplit⟩
  . rintro ⟨entry, hentry, hsplit⟩
    exact ⟨entry, Dict.mem_values_of_find? hentry, hsplit⟩

theorem key_ne_of_partition_ne (hdigest : Distinguishes digest) {split split' : FteSplit}
    (h : split.sourcePartitionId ≠ split'.sourcePartitionId) :
    exchangeSourceSplitKey digest split ≠ exchangeSourceSplitKey digest split' :=
  fun heq => h (hdigest _ _ heq)

theorem Handed.handedOn (h : Handed digest source s) (hdigest : Distinguishes digest)
    (hwell : WellFormedAll digest snapshot.selected) (hsource : snapshot.sourceNodeId = source)
    (happlied : Applied s snapshot merged new) :
    handedOn digest s snapshot new = (fresh snapshot new,
      (s.delivered ++ fresh snapshot new).map (exchangeSourceSplitKey digest)) := by
  unfold FteFragmentState.handedOn
  rw [hsource, h.known, List.map_append]
  apply takeNew_of_new
  . have hnodup := nodup_partitionsOf_fresh hwell new
    refine List.pairwise_map.mpr ((List.pairwise_map.mp hnodup).imp ?_)
    exact fun hne => key_ne_of_partition_ne hdigest hne
  . intro split hsplit hknown
    obtain ⟨earlier, hearlier, heq⟩ := List.mem_map.mp hknown
    have hpartition : earlier.sourcePartitionId = split.sourcePartitionId := hdigest _ _ heq
    have hnone := ((happlied.new_iff _).mp ((mem_fresh hwell).mp hsplit).1).2
    have hkeyed := h.keyed earlier hearlier
    rw [hpartition] at hkeyed
    rw [hsource] at hnone
    exact Option.some_ne_none _ (hkeyed.symm.trans hnone)

structure Grown (source : String) (snapshot : ExchangeSelectorSnapshot) (new : List ℕ)
    (s s' : FteFragmentState) : Prop where
  delivered : s'.delivered = s.delivered ++ fresh snapshot new
  fresh_iff : ∀ id, id ∈ partitionsOf (fresh snapshot new) ↔ s.keyAt source id = none ∧
    ∃ entry, snapshot.selected.find? id = some entry ∧ entry.split.isSome
  keyed_iff : ∀ id, (s'.keyAt source id).isSome ↔ (s.keyAt source id).isSome ∨
    ∃ entry, snapshot.selected.find? id = some entry ∧ entry.splitKey.isSome

theorem assignSelected_state (source : String) (snapshot : ExchangeSelectorSnapshot)
    (splits : List FteSplit) (outcome : AssignOutcome) (s : FteFragmentState) :
    ∃ exhausted, (assignSelected source snapshot splits outcome s).2 =
      { s with
        assigner := s.assigner.map (· ++ [⟨source, splits, snapshot.final⟩])
        exhaustedSourceNodeIds := exhausted } := by
  unfold assignSelected
  cases outcome with
  | completed =>
    cases snapshot.final with
    | true => exact ⟨_, rfl⟩
    | false => exact ⟨_, rfl⟩
  | controlFailure => exact ⟨_, rfl⟩
  | closing => exact ⟨_, rfl⟩
  | assignRaises error => exact ⟨_, rfl⟩
  | raises error => exact ⟨_, rfl⟩

theorem Applied.keyAt_stays
    (happlied : Applied s snapshot merged new) (hsource : snapshot.sourceNodeId = source) {id : ℕ}
    {key : String} (hkey : s.keyAt source id = some key) :
    (keyOf (snapshot.selected.find? id) <|> s.keyAt source id) = some key := by
  cases hentry : snapshot.selected.find? id with
  | none => exact hkey
  | some entry =>
    unfold keyAt at hkey
    cases hcurrent : s.entryAt source id with
    | none =>
      rw [hcurrent] at hkey
      cases hkey
    | some current =>
      subst hsource
      have hcompatible := happlied.compatible id current entry hcurrent hentry
      rw [hcurrent] at hkey
      unfold keyAt
      rw [hcurrent]
      exact orElse_of_not_conflict hcompatible.splitKey hkey

theorem Handed.taken (h : Handed digest source s)
    (hwell : WellFormedAll digest snapshot.selected) (hsource : snapshot.sourceNodeId = source)
    (happlied : Applied s snapshot merged new)
    (hassigner : s'.assigner = s.assigner.map (· ++ [⟨source, fresh snapshot new, snapshot.final⟩]))
    (hselectors : s'.exchangeSourceSelectorsBySource =
      s.exchangeSourceSelectorsBySource.insert source merged)
    (hkeys : s'.exchangeSourceSplitKeysBySource.findD source [] =
      (s.delivered ++ fresh snapshot new).map (exchangeSourceSplitKey digest)) :
    Handed digest source s' ∧ Grown source snapshot new s s' := by
  have hdelivered : s'.delivered = s.delivered ++ fresh snapshot new := by
    obtain ⟨calls, hcalls⟩ := Option.isSome_iff_exists.mp h.assigner
    unfold delivered
    rw [hassigner, hcalls]
    simp
  have hkeyAt : ∀ id, s'.keyAt source id =
      (keyOf (snapshot.selected.find? id) <|> s.keyAt source id) := by
    intro id
    unfold keyAt
    rw [entryAt, hselectors, Dict.find?_insert_self]
    show keyOf (merged.selected.find? id) = _
    rw [happlied.found, keyOf_combine?, hsource]
  have hnew : ∀ id, id ∈ new ↔ (keyOf (snapshot.selected.find? id)).isSome ∧ s.keyAt source id = none := by
    intro id
    have hmerged : keyOf (merged.selected.find? id) = s'.keyAt source id := by
      unfold keyAt
      rw [entryAt, hselectors, Dict.find?_insert_self]
      rfl
    rw [happlied.new_iff, hmerged, hkeyAt, hsource]
    apply and_congr_left
    intro hnone
    rw [show s.keyAt source id = none from hnone]
    cases keyOf (snapshot.selected.find? id) <;> simp
  refine ⟨⟨?_, ?_, ?_, ?_⟩, ⟨hdelivered, ?_, ?_⟩⟩
  . rw [hassigner, Option.isSome_map]
    exact h.assigner
  . rw [hkeys, hdelivered]
  . intro split hsplit
    rw [hdelivered, List.mem_append] at hsplit
    rw [hkeyAt]
    rcases hsplit with hsplit | hsplit
    . exact happlied.keyAt_stays hsource (h.keyed split hsplit)
    . obtain ⟨-, entry, hentry, hcarried⟩ := (mem_fresh hwell).mp hsplit
      rw [hentry]
      show (entry.splitKey <|> _) = _
      rw [(hwell _ entry hentry split hcarried).1]
      rfl
  . unfold partitionsOf
    rw [hdelivered, List.map_append, List.nodup_append]
    refine ⟨h.nodup, nodup_partitionsOf_fresh hwell new, ?_⟩
    intro id hid id' hid' heq
    subst heq
    obtain ⟨earlier, hearlier, rfl⟩ := List.mem_map.mp hid
    obtain ⟨split, hsplit, hpartition⟩ := List.mem_map.mp hid'
    have hnone := ((hnew _).mp ((mem_fresh hwell).mp hsplit).1).2
    rw [hpartition, h.keyed earlier hearlier] at hnone
    cases hnone
  . intro id
    constructor
    . intro hid
      obtain ⟨split, hsplit, rfl⟩ := List.mem_map.mp hid
      obtain ⟨hmem, entry, hentry, hcarried⟩ := (mem_fresh hwell).mp hsplit
      exact ⟨((hnew _).mp hmem).2, entry, hentry, by rw [hcarried]; rfl⟩
    . rintro ⟨hnone, entry, hentry, hcarried⟩
      obtain ⟨split, hsplit⟩ := Option.isSome_iff_exists.mp hcarried
      obtain ⟨hkey, hpartition⟩ := hwell id entry hentry split hsplit
      refine List.mem_map.mpr ⟨split, (mem_fresh hwell).mpr ⟨?_, entry, ?_, hsplit⟩, hpartition⟩
      . rw [hpartition, hnew, hentry]
        refine ⟨?_, hnone⟩
        show entry.splitKey.isSome = true
        rw [hkey]
        rfl
      . rw [hpartition]
        exact hentry
  . intro id
    rw [hkeyAt]
    cases hentry : snapshot.selected.find? id with
    | none => simp [keyOf]
    | some entry => simp [keyOf, or_comm]

def Good (source : String) (n : ℕ) (s : FteFragmentState) : Prop :=
  ∀ id, (s.keyAt source id).isSome → (id ∈ partitionsOf s.delivered ↔ id < n)

/-- An update carries the splits of those partitions below `n`, and of no others, that get a key by it. -/
def Carries (source : String) (n : ℕ) (s : FteFragmentState) :
    Except PyError (Option (ExchangeSelectorSnapshot × List FteSplit)) → Prop
  | .ok (some (snapshot, _)) => ∀ item ∈ snapshot.selected.entries, item.2.splitKey.isSome →
    s.keyAt source item.1 = none → (item.2.split.isSome ↔ item.1 < n)
  | _ => True

instance (source : String) (n : ℕ) (s : FteFragmentState)
    (result : Except PyError (Option (ExchangeSelectorSnapshot × List FteSplit))) :
    Decidable (Carries source n s result) :=
  match result with
  | .ok (some _) => inferInstanceAs (Decidable (∀ item ∈ _, _ → _ → _))
  | .ok none => inferInstanceAs (Decidable True)
  | .error _ => inferInstanceAs (Decidable True)

theorem Handed.mem_keyed (h : Handed digest source s) {id : ℕ} (hid : id ∈ partitionsOf s.delivered) :
    (s.keyAt source id).isSome := by
  obtain ⟨split, hsplit, rfl⟩ := List.mem_map.mp hid
  rw [h.keyed split hsplit]
  rfl

theorem Grown.good_iff {snapshot : ExchangeSelectorSnapshot} {n : ℕ}
    (hgrown : Grown source snapshot new s s') (h : Handed digest source s) (splits : List FteSplit) :
    Good source n s' ↔ Good source n s ∧ Carries source n s (.ok (some (snapshot, splits))) := by
  have hmem : ∀ id, id ∈ partitionsOf s'.delivered ↔
      id ∈ partitionsOf s.delivered ∨ id ∈ partitionsOf (fresh snapshot new) := by
    intro id
    unfold partitionsOf
    rw [hgrown.delivered, List.map_append, List.mem_append]
  have hold : ∀ id, (s.keyAt source id).isSome →
      (id ∈ partitionsOf s'.delivered ↔ id ∈ partitionsOf s.delivered) := by
    intro id hkeyed
    rw [hmem, or_iff_left]
    intro hfresh
    rw [((hgrown.fresh_iff id).mp hfresh).1] at hkeyed
    cases hkeyed
  have hfresh : ∀ id entry, snapshot.selected.find? id = some entry → s.keyAt source id = none →
      (id ∈ partitionsOf s'.delivered ↔ entry.split.isSome) := by
    intro id entry hentry hnone
    rw [hmem, or_iff_right, hgrown.fresh_iff]
    . constructor
      . rintro ⟨-, other, hother, hsplit⟩
        rw [hentry] at hother
        cases hother
        exact hsplit
      . exact fun hsplit => ⟨hnone, entry, hentry, hsplit⟩
    . intro hdelivered
      have hkeyed := h.mem_keyed hdelivered
      rw [hnone] at hkeyed
      cases hkeyed
  constructor
  . intro hgood
    refine ⟨?_, ?_⟩
    . intro id hkeyed
      rw [← hold id hkeyed]
      exact hgood id ((hgrown.keyed_iff id).mpr (.inl hkeyed))
    . intro item hitem hkey hnone
      have hentry := Dict.find?_eq_some_iff.mpr hitem
      rw [← hfresh item.1 item.2 hentry hnone]
      exact hgood item.1 ((hgrown.keyed_iff item.1).mpr (.inr ⟨item.2, hentry, hkey⟩))
  . rintro ⟨hgood, hcarries⟩ id hkeyed
    cases hkey : s.keyAt source id with
    | some key =>
      have hsome : (s.keyAt source id).isSome := by
        rw [hkey]
        rfl
      rw [hold id hsome]
      exact hgood id hsome
    | none =>
      rcases (hgrown.keyed_iff id).mp hkeyed with hsome | ⟨entry, hentry, hsome⟩
      . rw [hkey] at hsome
        cases hsome
      . rw [hfresh id entry hentry hkey]
        exact hcarries (id, entry) (Dict.find?_eq_some_iff.mp hentry) hsome hkey

end FteFragmentState

structure SelectorUpdate where
  selector : SelectorPayload
  outcome : AssignOutcome := .completed

namespace SelectorUpdate

variable {update : SelectorUpdate}

open FteFragmentState

variable (digest : String × ℕ × Option String → String) (source : String)

def step (update : SelectorUpdate) : FteFragmentState → FteFragmentState :=
  FragmentEvent.step digest (.exchangeSelectorUpdated source update.selector update.outcome)

def result (update : SelectorUpdate) (s : FteFragmentState) :
    Except PyError (Option (ExchangeSelectorSnapshot × List FteSplit)) :=
  (applyExchangeSelectorUpdate digest source update.selector s).1

def taken (update : SelectorUpdate) (s : FteFragmentState) : List ExchangeSelectorSnapshot :=
  match update.result digest source s with
  | .ok (some (snapshot, _)) => [snapshot]
  | _ => []

variable {digest source} {s : FteFragmentState}

section

variable (hdigest : Distinguishes digest) (h : Handed digest source s)

include hdigest h

section

variable (haccepted : (update.result digest source s).isOk)

include haccepted

theorem step_cases :
    update.result digest source s = .ok none ∧ update.step digest source s = s ∨
      ∃ snapshot splits new, update.result digest source s = .ok (some (snapshot, splits)) ∧
        WellFormedAll digest snapshot.selected ∧ Handed digest source (update.step digest source s) ∧
        Grown source snapshot new s (update.step digest source s) := by
  have hstep : update.step digest source s =
      (exchangeSelectorUpdated digest source update.selector update.outcome s).2 := rfl
  have hassigner : ¬s.assigner.isNone = true := by
    have := h.assigner
    cases hs : s.assigner <;> simp_all
  unfold exchangeSelectorUpdated at hstep
  rw [Py.bind_apply, Py.get_apply] at hstep
  dsimp only at hstep
  rw [if_neg hassigner, Py.bind_apply] at hstep
  unfold result at haccepted ⊢
  have hensures := ensures_applyExchangeSelectorUpdate digest s source update.selector
  cases hupdate : applyExchangeSelectorUpdate digest source update.selector s with
  | mk result s₁ =>
    rw [hupdate] at hstep haccepted
    cases result with
    | error e => cases haccepted
    | ok result =>
      cases hensures.of_ok hupdate with
      | kept => exact .inl ⟨rfl, hstep⟩
      | taken snapshot merged new normalized hsource applied hopen =>
        right
        have hwell := wellFormedAll_of_normalizeSnapshot normalized
        refine ⟨snapshot, _, new, rfl, hwell, ?_⟩
        obtain ⟨exhausted, hassigned⟩ := assignSelected_state source snapshot
          (handedOn digest s snapshot new).1 update.outcome _
        have hhanded := h.handedOn hdigest hwell hsource applied
        rw [hstep.trans hassigned]
        apply h.taken hwell hsource applied
        . rw [hhanded]
          rfl
        . show s.exchangeSourceSelectorsBySource.insert merged.sourceNodeId merged = _
          rw [applied.sourceNodeId, hsource]
        . rw [Dict.findD, Dict.find?_insert_self, hhanded]
          rfl

theorem handed_step : Handed digest source (update.step digest source s) := by
  rcases step_cases hdigest h haccepted with ⟨-, hstep⟩ | ⟨snapshot, splits, new, -, -, hhanded, -⟩
  . rw [hstep]
    exact h
  . exact hhanded

theorem good_step_iff (n : ℕ) :
    Good source n (update.step digest source s) ↔
      Good source n s ∧ Carries source n s (update.result digest source s) := by
  rcases step_cases hdigest h haccepted with ⟨hresult, hstep⟩ |
    ⟨snapshot, splits, new, hresult, -, -, hgrown⟩
  . rw [hresult, hstep]
    exact (and_iff_left trivial).symm
  . rw [hresult]
    exact hgrown.good_iff h splits

end

theorem good_run_iff {updates : List SelectorUpdate} (haccepted : Run.Always (step digest source)
      (fun update s => (update.result digest source s).isOk) updates s) (n : ℕ) :
    Good source n (Run.run (step digest source) updates s) ↔
      Good source n s ∧ Run.Always (step digest source)
        (fun update s => Carries source n s (update.result digest source s)) updates s := by
  induction updates generalizing s with
  | nil => exact (and_iff_left trivial).symm
  | cons update updates ih =>
    rw [Run.run_cons, ih (handed_step hdigest h haccepted.1) haccepted.2,
      good_step_iff hdigest h haccepted.1, and_assoc]
    rfl

end

def Named (source : String) (log : List ExchangeSelectorSnapshot) (s : FteFragmentState) : Prop :=
  ∀ snapshot ∈ log, ∀ id entry, snapshot.selected.find? id = some entry → entry.split.isSome →
    (s.keyAt source id).isSome

theorem named_step (hdigest : Distinguishes digest) (h : Handed digest source s)
    {log : List ExchangeSelectorSnapshot} (hnamed : Named source log s)
    (haccepted : (update.result digest source s).isOk) :
    Named source (log ++ update.taken digest source s) (update.step digest source s) := by
  unfold taken
  rcases step_cases hdigest h haccepted with ⟨hresult, hstep⟩ |
    ⟨snapshot, splits, new, hresult, hwell, -, hgrown⟩
  . rw [hresult, hstep, List.append_nil]
    exact hnamed
  . rw [hresult]
    intro other hother id entry hentry hsplit
    rw [hgrown.keyed_iff]
    rcases List.mem_append.mp hother with hother | hother
    . exact .inl (hnamed other hother id entry hentry hsplit)
    . cases List.mem_singleton.mp hother
      obtain ⟨split, hsplit⟩ := Option.isSome_iff_exists.mp hsplit
      refine .inr ⟨entry, hentry, ?_⟩
      rw [(hwell id entry hentry split hsplit).1]
      rfl

def start : FteFragmentState := { assigner := some [] }

theorem handed_start (digest : String × ℕ × Option String → String) (source : String) :
    Handed digest source start :=
  ⟨rfl, rfl, fun _ hmem => (by cases hmem), List.nodup_nil⟩

theorem handed_named_run (hdigest : Distinguishes digest) {updates : List SelectorUpdate}
    (haccepted : Run.Always (step digest source)
      (fun update s => (update.result digest source s).isOk) updates start) :
    Handed digest source (Run.run (step digest source) updates start) ∧
      Named source (Run.log (step digest source) (taken digest source) updates start)
        (Run.run (step digest source) updates start) := by
  have hnamed : Named source [] start := fun _ hmem => (by cases hmem)
  exact Run.run_log_invariant (fun log s => Handed digest source s ∧ Named source log s)
    (fun update s log haccepted h =>
      ⟨handed_step hdigest h.1 haccepted, named_step hdigest h.1 h.2 haccepted⟩)
    haccepted ⟨handed_start digest source, hnamed⟩

theorem stored_run (digest : String × ℕ × Option String → String) (source : String)
    (updates : List SelectorUpdate) : (Run.run (step digest source) updates start).Stored := by
  have hstart : start.Stored := fun _ _ hfound => (by cases hfound)
  exact Run.run_invariant Stored (fun update _ s hs => (follows_step digest hs _).1) hstart

theorem good_start (source : String) (n : ℕ) : Good source n start := fun _ hkeyed => (by cases hkeyed)

def unaryDigest (payload : String × ℕ × Option String) : String :=
  String.ofList (List.replicate payload.2.1 'x')

theorem distinguishes_unaryDigest : Distinguishes unaryDigest := by
  intro payload payload' h
  have hlists := congrArg String.toList h
  unfold unaryDigest at hlists
  rw [String.toList_ofList, String.toList_ofList] at hlists
  simpa using congrArg List.length hlists

def firstSplit : SelectorEntry := { sequenceId := some 0, kind := some "exchange_source_task" }

def splitComesLater : List SelectorUpdate :=
  [{ selector := { selected := .mapping [(0, .attempt 3)] } },
    { selector := { splits := [firstSplit], final := true } }]

def keyComesFirst : List SelectorUpdate :=
  [{ selector := { selected := .mapping [(0, .mapping { splitKey := some "" })] } },
    { selector := { splits := [firstSplit], final := true } }]

end SelectorUpdate

end Vane
