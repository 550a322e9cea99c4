import Vane.Fte.TaskDescriptor
import Vane.Lib.AppendNew

/-! This module contains the verification of task descriptors: the splits of a source are a log. -/

namespace Dict

variable {κ : Type u} {α : Type v} [DecidableEq κ]

theorem findD_update (d : Dict κ α) (k k' : κ) (fallback : α) (f : α → α) :
    (d.update k fallback f).findD k' fallback =
      if k' = k then f (d.findD k fallback) else d.findD k' fallback :=
  d.findD_insert k k' _ fallback

theorem flatMap_filter_entries (d : Dict κ (List α)) (k : κ) :
    (d.entries.filter (·.1 = k)).flatMap Prod.snd = d.findD k [] := by
  have hmem : ∀ v, d.find? k = some v ↔ (k, v) ∈ d.entries := fun _ => find?_eq_some_iff
  have hnodup := d.nodupKeys
  unfold findD
  revert hmem hnodup
  generalize d.find? k = found
  generalize d.entries = es
  intro hmem hnodup
  induction es generalizing found with
  | nil =>
    have hnone : found = none := by
      rw [Option.eq_none_iff_forall_ne_some]
      intro v hv
      exact absurd ((hmem v).mp hv) (by simp)
    rw [hnone]
    rfl
  | cons e es ih =>
    simp only [List.map_cons, List.nodup_cons] at hnodup
    by_cases hk : e.1 = k
    . have hnone : es.filter (·.1 = k) = [] := by
        rw [List.filter_eq_nil_iff]
        intro e' he' hk'
        apply hnodup.1
        rw [hk, ← of_decide_eq_true hk']
        exact List.mem_map_of_mem he'
      have hfound : found = some e.2 := (hmem e.2).mpr (by simp [← hk])
      rw [List.filter_cons_of_pos (by simpa using hk), hnone, hfound]
      simp
    . rw [List.filter_cons_of_neg (by simpa using hk)]
      apply ih found _ hnodup.2
      intro v
      rw [hmem v, List.mem_cons]
      constructor
      . rintro (rfl | hv)
        . exact absurd rfl hk
        . exact hv
      . exact .inr

end Dict

namespace Vane

open Py (ensures_bind ensures_get_bind ensures_lift_bind ensures_modify_bind ensures_raiseIf_bind)

theorem OutputBuffers.isEqual_refl (b : OutputBuffers) : b.isEqual b := by
  have hids : ∀ ids : BufferIds, ids.isEqual ids := by
    intro ids
    cases ids with
    | mapping values => exact Dict.isEqual_refl values
    | sequence ids => simp [BufferIds.isEqual]
  unfold isEqual
  simp only [decide_eq_true_eq, true_and]
  refine ⟨?_, Dict.isEqual_refl b.others⟩
  intro ids hids₁ ids' hids₂
  cases hids₁.symm.trans hids₂
  exact hids ids

/-! Splits by source, next to the sequence numbers that were seen. -/

structure TidySplits (seen : Dict String (Finset ℕ)) (splits : Dict String (List FteSplit)) :
    Prop where
  seen : ∀ source n,
    n ∈ seen.findD source ∅ ↔ n ∈ (splits.findD source []).map FteSplit.sequenceId
  nodup : ∀ source, ((splits.findD source []).map FteSplit.sequenceId).Nodup

section TidySplits

variable {seen : Dict String (Finset ℕ)} {splits : Dict String (List FteSplit)}

theorem findD_update_id {κ : Type u} {α : Type v} [DecidableEq κ] (d : Dict κ α) (k k' : κ)
    (fallback : α) : (d.update k fallback id).findD k' fallback = d.findD k' fallback := by
  rw [Dict.findD_update]
  split
  . next hk =>
    rw [hk]
    rfl
  . rfl

theorem TidySplits.touch (h : TidySplits seen splits) (source : String) :
    TidySplits (seen.update source ∅ id) (splits.update source [] id) := by
  refine ⟨?_, ?_⟩
  . intro s n
    rw [findD_update_id, findD_update_id]
    exact h.seen s n
  . intro s
    rw [findD_update_id]
    exact h.nodup s

theorem findD_push (splits : Dict String (List FteSplit)) (source : String) (split : FteSplit)
    (s : String) : (splits.update source [] (· ++ [split])).findD s [] =
      splits.findD s [] ++ if s = source then [split] else [] := by
  rw [Dict.findD_update]
  split
  . next hs => rw [hs]
  . rw [List.append_nil]

theorem TidySplits.push (h : TidySplits seen splits) (source : String) (split : FteSplit)
    (hnew : split.sequenceId ∉ seen.findD source ∅) :
    TidySplits (seen.update source ∅ (insert split.sequenceId))
      (splits.update source [] (· ++ [split])) := by
  refine ⟨?_, ?_⟩
  . intro s n
    rw [findD_push, Dict.findD_update]
    split
    . next hs =>
      rw [Finset.mem_insert, h.seen source n, List.map_append, List.mem_append, hs]
      simp [or_comm]
    . rw [List.append_nil]
      exact h.seen s n
  . intro s
    rw [findD_push]
    split
    . next hs =>
      rw [h.seen] at hnew
      rw [List.map_append, List.nodup_append, hs]
      refine ⟨h.nodup source, by simp, ?_⟩
      rintro n hn n' hn' rfl
      rw [List.map_singleton, List.mem_singleton] at hn'
      exact hnew (hn' ▸ hn)
    . rw [List.append_nil]
      exact h.nodup s

end TidySplits

namespace TaskDescriptor

variable {d d' : TaskDescriptor} {source : String}

abbrev splitsOf (d : TaskDescriptor) (source : String) : List FteSplit :=
  d.initialSplits.findD source []

abbrev Tidy (d : TaskDescriptor) : Prop := TidySplits d.seenSequences d.initialSplits

structure Appended (source : String) (added : List FteSplit) (d d' : TaskDescriptor) : Prop where
  tidy : d'.Tidy
  splitsOf : ∀ s, d'.splitsOf s = d.splitsOf s ++ if s = source then added else []
  noMoreSplits : d'.noMoreSplits = d.noMoreSplits
  outputBuffers : d'.outputBuffers = d.outputBuffers

theorem appended_touch (h : d.Tidy) (source : String) (sourceNodeIds : Finset String) :
    Appended source [] d { d with
      sourceNodeIds
      initialSplits := d.initialSplits.update source [] id
      seenSequences := d.seenSequences.update source ∅ id } := by
  refine ⟨TidySplits.touch h source, ?_, rfl, rfl⟩
  intro s
  simp only [TaskDescriptor.splitsOf, ite_self, List.append_nil]
  exact findD_update_id _ _ _ _

theorem appended_push (h : d.Tidy) (source : String) (split : FteSplit)
    (hnew : split.sequenceId ∉ d.seenSequences.findD source ∅) :
    Appended source [split] d { d with
      seenSequences := d.seenSequences.update source ∅ (insert split.sequenceId)
      initialSplits := d.initialSplits.update source [] (· ++ [split]) } :=
  ⟨TidySplits.push h source split hnew, findD_push _ _ _, rfl, rfl⟩

theorem Appended.trans {added added' : List FteSplit} {d'' : TaskDescriptor}
    (h : Appended source added d d') (h' : Appended source added' d' d'') :
    Appended source (added ++ added') d d'' where
  tidy := h'.tidy
  splitsOf := by
    intro s
    rw [h'.splitsOf, h.splitsOf]
    split
    . rw [List.append_assoc]
    . simp
  noMoreSplits := h'.noMoreSplits.trans h.noMoreSplits
  outputBuffers := h'.outputBuffers.trans h.outputBuffers

theorem ensures_appendEach (h : d.Tidy) (source : String) (splits : List FteSplit) :
    (appendEach source splits).Ensures d
      (fun added d' => Appended source added d d' ∧
        (d.splitsOf source).appendNew FteSplit.sequenceId splits = d.splitsOf source ++ added)
      fun _ _ => True := by
  induction splits generalizing d with
  | nil =>
    refine ⟨⟨h, ?_, rfl, rfl⟩, by simp⟩
    intro s
    simp
  | cons split splits ih =>
    rw [appendEach, ensures_raiseIf_bind]
    refine ⟨fun _ => trivial, fun _ => ?_⟩
    rw [ensures_get_bind, Py.ensures_ite]
    refine ⟨fun hseen => ?_, fun hnew => ?_⟩
    . rw [List.appendNew, if_pos ((h.seen source _).mp hseen)]
      exact ih h
    . have hpush := appended_push h source split hnew
      rw [ensures_modify_bind]
      refine (ih hpush.tidy).bind ?_ fun _ _ _ => trivial
      rintro added d' ⟨happended, hnewSplits⟩
      rw [Py.ensures_pure]
      refine ⟨hpush.trans happended, ?_⟩
      rw [hpush.splitsOf, if_pos rfl] at hnewSplits
      rw [List.appendNew, if_neg (mt (h.seen source _).mpr hnew), hnewSplits]
      simp

theorem ensures_appendSplits (h : d.Tidy) (source : String) (splits : List FteSplit) :
    (appendSplits source splits).Ensures d
      (fun added d' => Appended source added d d' ∧ (source ∈ d.noMoreSplits → splits = []) ∧
        (d.splitsOf source).appendNew FteSplit.sequenceId splits = d.splitsOf source ++ added)
      fun _ _ => True := by
  unfold appendSplits
  rw [ensures_get_bind, ensures_raiseIf_bind]
  refine ⟨fun _ => trivial, fun hopen => ?_⟩
  rw [ensures_modify_bind]
  have htouch := appended_touch h source
    (if splits ≠ [] then insert source d.sourceNodeIds else d.sourceNodeIds)
  refine (ensures_appendEach htouch.tidy source splits).mono ?_ fun _ _ _ => trivial
  rintro added d' ⟨happended, hnew⟩
  rw [htouch.splitsOf, if_pos rfl, List.append_nil] at hnew
  refine ⟨htouch.trans happended, ?_, hnew⟩
  intro hmarked
  by_contra hsplits
  exact hopen ⟨hmarked, hsplits⟩

theorem ensures_markNoMoreSplits (source : String) :
    (markNoMoreSplits source).Ensures d
      (fun marked d' => d'.noMoreSplits = insert source d.noMoreSplits ∧
        (marked = false → source ∈ d.noMoreSplits) ∧ d'.initialSplits = d.initialSplits ∧
        d'.seenSequences = d.seenSequences ∧ d'.outputBuffers = d.outputBuffers)
      fun _ _ => True := by
  unfold markNoMoreSplits
  rw [ensures_get_bind, ensures_modify_bind, Py.ensures_ite]
  refine ⟨fun hmarked => ?_, fun _ => ?_⟩
  . exact ⟨(Finset.insert_eq_of_mem hmarked).symm, fun _ => hmarked, rfl, rfl, rfl⟩
  . rw [ensures_modify_bind, Py.ensures_pure]
    exact ⟨rfl, by simp, rfl, rfl, rfl⟩

def splitsIn (entries : List (String × List FteSplit)) (source : String) : List FteSplit :=
  (entries.filter (·.1 = source)).flatMap Prod.snd

theorem ensures_appendAll (h : d.Tidy) (entries : List (String × List FteSplit)) (changed : Bool) :
    (appendAll entries changed).Ensures d
      (fun changed' d' => d'.Tidy ∧
        (∀ s, d'.splitsOf s = (d.splitsOf s).appendNew FteSplit.sequenceId (splitsIn entries s)) ∧
        (changed' = false → changed = false ∧ ∀ s, d'.splitsOf s = d.splitsOf s) ∧
        d'.noMoreSplits = d.noMoreSplits ∧ d'.outputBuffers = d.outputBuffers)
      fun _ _ => True := by
  induction entries generalizing d changed with
  | nil => exact ⟨h, fun s => rfl, fun hc => ⟨hc, fun s => rfl⟩, rfl, rfl⟩
  | cons entry entries ih =>
    rw [appendAll]
    refine (ensures_appendSplits h entry.1 entry.2).bind ?_ fun _ _ _ => trivial
    rintro added d₁ ⟨happended, -, hnew⟩
    refine (ih happended.tidy (!added.isEmpty || changed)).mono ?_ fun _ _ _ => trivial
    rintro changed' d' ⟨htidy, hsplits, hunchanged, hmarked, hbuffers⟩
    refine ⟨htidy, ?_, ?_, hmarked.trans happended.noMoreSplits,
      hbuffers.trans happended.outputBuffers⟩
    . intro s
      rw [hsplits, happended.splitsOf]
      unfold splitsIn
      by_cases hs : s = entry.1
      . rw [List.filter_cons_of_pos (by simp [hs]), if_pos hs, List.flatMap_cons,
          List.appendNew_append, hs, hnew]
      . rw [List.filter_cons_of_neg (by simpa using Ne.symm hs), if_neg hs, List.append_nil]
    . intro hc
      obtain ⟨hadded, hsame⟩ := hunchanged hc
      rw [Bool.or_eq_false_iff, Bool.not_eq_false'] at hadded
      refine ⟨hadded.2, ?_⟩
      intro s
      rw [hsame, happended.splitsOf, List.isEmpty_iff.mp hadded.1]
      simp

theorem ensures_markAll (sources : List String) (changed : Bool) :
    (markAll sources changed).Ensures d
      (fun changed' d' => d'.noMoreSplits = d.noMoreSplits ∪ sources.toFinset ∧
        (changed' = false → changed = false ∧ d'.noMoreSplits = d.noMoreSplits) ∧
        d'.initialSplits = d.initialSplits ∧ d'.seenSequences = d.seenSequences ∧
        d'.outputBuffers = d.outputBuffers)
      fun _ _ => True := by
  induction sources generalizing d changed with
  | nil => exact ⟨by simp, fun hc => ⟨hc, rfl⟩, rfl, rfl, rfl⟩
  | cons source sources ih =>
    rw [markAll]
    refine (ensures_markNoMoreSplits source).bind ?_ fun _ _ _ => trivial
    rintro marked d₁ ⟨hmarked, hold, hinitial, hseen, hbuffers⟩
    refine (ih (marked || changed)).mono ?_ fun _ _ _ => trivial
    rintro changed' d' ⟨hmarked', hunchanged, hinitial', hseen', hbuffers'⟩
    refine ⟨?_, ?_, hinitial'.trans hinitial, hseen'.trans hseen, hbuffers'.trans hbuffers⟩
    . rw [hmarked', hmarked, List.toFinset_cons, Finset.insert_union, Finset.union_insert]
    . intro hc
      obtain ⟨hold', hsame⟩ := hunchanged hc
      rw [Bool.or_eq_false_iff] at hold'
      refine ⟨hold'.2, ?_⟩
      rw [hsame, hmarked, Finset.insert_eq_of_mem (hold hold'.1)]

end TaskDescriptor

def OutputBuffers.after (current update : Option OutputBuffers) :
    Except PyError (Option OutputBuffers) :=
  match update with
  | none => .ok current
  | some update => (merge current update).map (· <|> current)

namespace TaskDescriptor

variable {d : TaskDescriptor}

theorem ensures_mergeBuffers (update : FteTaskUpdateRequest) :
    (mergeBuffers update).Ensures d
      (fun _ d' => OutputBuffers.after d.outputBuffers update.outputBuffers = .ok d'.outputBuffers ∧
        d' = { d with outputBuffers := d'.outputBuffers })
      fun _ _ => True := by
  unfold mergeBuffers
  cases update.outputBuffers with
  | none => exact ⟨rfl, rfl⟩
  | some buffers =>
    dsimp only [OutputBuffers.after]
    rw [ensures_get_bind, ensures_lift_bind]
    refine ⟨?_, fun _ _ => trivial⟩
    intro merged hmerged
    rw [hmerged]
    cases merged with
    | none => exact ⟨rfl, rfl⟩
    | some merged => exact ⟨rfl, rfl⟩

structure Updated (update : FteTaskUpdateRequest) (d d' : TaskDescriptor) : Prop where
  tidy : d'.Tidy
  splitsOf : ∀ s, d'.splitsOf s =
    (d.splitsOf s).appendNew FteSplit.sequenceId (update.initialSplits.findD s [])
  noMoreSplits : d'.noMoreSplits = d.noMoreSplits ∪ update.noMoreSplits.toFinset
  outputBuffers : OutputBuffers.after d.outputBuffers update.outputBuffers = .ok d'.outputBuffers

theorem ensures_merging {α : Type} [DecidableEq α] (field : TaskDescriptor → α)
    (write : TaskDescriptor → TaskDescriptor) {Q : Bool → TaskDescriptor → Prop}
    {E : PyError → TaskDescriptor → Prop} (h : ∀ changed, Q changed (write d)) :
    (merging field write).Ensures d Q E := by
  unfold merging
  rw [ensures_get_bind, ensures_modify_bind, Py.ensures_pure]
  exact h _

theorem ensures_applyTaskUpdate (h : d.Tidy) (update : FteTaskUpdateRequest) :
    (applyTaskUpdate update).Ensures d
      (fun changed d' => Updated update d d' ∧
        (changed = false → (∀ s, d'.splitsOf s = d.splitsOf s) ∧ d'.noMoreSplits = d.noMoreSplits))
      fun _ _ => True := by
  refine (ensures_appendAll h update.initialSplits.entries false).bind ?_ fun _ _ _ => trivial
  rintro split d₁ ⟨htidy, hsplits, hsame, hmarked, hbuffers⟩
  refine (ensures_markAll (update.noMoreSplits.sortBy id) split).bind ?_ fun _ _ _ => trivial
  rintro marked d₂ ⟨hmarked₂, hsame₂, hinitial, hseen, hbuffers₂⟩
  rw [ensures_bind]
  apply ensures_merging
  intro context
  refine (ensures_mergeBuffers update).bind ?_ fun _ _ _ => trivial
  rintro buffers d₃ ⟨hafter, heq⟩
  rw [ensures_bind]
  apply ensures_merging
  intro sources
  have hinitial₃ : d₃.initialSplits = d₁.initialSplits := by
    rw [heq]
    exact hinitial
  have hseen₃ : d₃.seenSequences = d₁.seenSequences := by
    rw [heq]
    exact hseen
  have hmarked₃ : d₃.noMoreSplits = d₂.noMoreSplits := by rw [heq]; rfl
  have hupdated : ∀ d' : TaskDescriptor, d'.initialSplits = d₃.initialSplits →
      d'.seenSequences = d₃.seenSequences → d'.noMoreSplits = d₃.noMoreSplits →
      d'.outputBuffers = d₃.outputBuffers → Updated update d d' ∧
        ((marked || context || buffers || sources) = false →
          (∀ s, d'.splitsOf s = d.splitsOf s) ∧ d'.noMoreSplits = d.noMoreSplits) := by
    intro d' h₁ h₂ h₃ h₄
    have hsplits' : ∀ s, d'.splitsOf s = d₁.splitsOf s := by
      intro s
      unfold splitsOf
      rw [h₁, hinitial₃]
    refine ⟨⟨?_, ?_, ?_, ?_⟩, ?_⟩
    . unfold Tidy
      rw [h₁, h₂, hinitial₃, hseen₃]
      exact htidy
    . intro s
      rw [hsplits', hsplits, splitsIn, Dict.flatMap_filter_entries]
    . rw [h₃, hmarked₃, hmarked₂, hmarked]
      congr 1
      ext s
      simp [List.mem_sortBy]
    . rw [h₄, ← hafter]
      congr 1
      exact (hbuffers₂.trans hbuffers).symm
    . intro hc
      simp only [Bool.or_eq_false_iff] at hc
      obtain ⟨hsplit, hold⟩ := hsame₂ hc.1.1.1
      refine ⟨?_, ?_⟩
      . intro s
        rw [hsplits', (hsame hsplit).2]
      . rw [h₃, hmarked₃, hold, hmarked]
  rw [Py.ensures_ite]
  exact ⟨fun _ => hupdated _ rfl rfl rfl rfl, fun _ => hupdated _ rfl rfl rfl rfl⟩

end TaskDescriptor

end Vane
