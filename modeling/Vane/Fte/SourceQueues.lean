import Vane.Fte.TaskExecutionLemmas

/-! This module contains the verification that the queues of the dynamic sources mirror the task. -/

namespace Vane

open Py (ensures_bind ensures_get ensures_get_bind ensures_ite ensures_lift_bind ensures_modify
  ensures_modify_bind ensures_raiseIf_bind)
open Except (ok_of_bind toOption)
open FteTaskExecution (transition)

namespace FteTaskExecution

variable {e e' : FteTaskExecution} {source : String} {kind : SplitKind}
  {entries : List (String × List FteSplit)} {splits : List FteSplit}

/-! New queues. -/

theorem foldlM_addSplitToDynamicQueue {q q' : FteSplitQueue}
    (h : splits.foldlM (addSplitToDynamicQueue kind) q = .ok q') :
    q' = { q with splits := q.splits ++ splits } := by
  induction splits generalizing q with
  | nil =>
    cases h
    rw [List.append_nil]
  | cons split splits ih =>
    rw [List.foldlM_cons] at h
    obtain ⟨q₁, hfirst, h⟩ := ok_of_bind h
    obtain ⟨_, -, hfirst⟩ := ok_of_bind hfirst
    cases hfirst
    rw [ih h]
    simp

def FteSplitQueue.filled (complete : Finset String) (entries : List (String × List FteSplit))
    (source : String) (q : FteSplitQueue) : FteSplitQueue where
  splits := q.splits ++ TaskDescriptor.splitsIn entries source
  isClosed := q.isClosed || decide (source ∈ complete ∧ source ∈ entries.map Prod.fst)

theorem filled_cons_of_ne {complete : Finset String} {entry : String × List FteSplit}
    {s : String} (hne : s ≠ entry.1) :
    FteSplitQueue.filled complete (entry :: entries) s = FteSplitQueue.filled complete entries s := by
  funext q
  unfold FteSplitQueue.filled
  simp only [splitsIn_cons, single, hne, if_false, List.nil_append, List.map_cons, List.mem_cons,
    false_or]

theorem foldlM_fillQueue {complete : Finset String} {table table' : String → Option FteSplitQueue}
    (h : entries.foldlM (fillQueue kind complete) table = .ok table') (s : String) :
    table' s = (table s).map (FteSplitQueue.filled complete entries s) := by
  induction entries generalizing table with
  | nil =>
    cases h
    cases table' s with
    | none => rfl
    | some q => simp [FteSplitQueue.filled, TaskDescriptor.splitsIn]
  | cons entry entries ih =>
    rw [List.foldlM_cons] at h
    obtain ⟨table₁, hfirst, h⟩ := ok_of_bind h
    rw [ih h]
    unfold fillQueue at hfirst
    split at hfirst
    . next hnone =>
      cases hfirst
      by_cases hs : s = entry.1
      . rw [hs, hnone]
        rfl
      . rw [filled_cons_of_ne hs]
    . next q hq =>
      obtain ⟨q₁, hadded, hfirst⟩ := ok_of_bind hfirst
      cases hfirst
      rw [foldlM_addSplitToDynamicQueue hadded]
      by_cases hs : s = entry.1
      . rw [hs, Function.update_self, hq, Option.map_some, Option.map_some, Option.some_inj]
        unfold FteSplitQueue.filled
        rw [splitsIn_cons]
        split
        . next hcomplete => simp [FteSplitQueue.noMoreSplits, single, hcomplete]
        . next hopen => simp [single, hopen]
      . rw [Function.update_of_ne hs, filled_cons_of_ne hs]

structure Mirror (e : FteTaskExecution) (source : String) (q : FteSplitQueue) : Prop where
  splits : q.splits = e.splitsOf source
  isClosed : q.isClosed = decide (source ∈ e.noMoreSplitSources)

def Mirrors (e : FteTaskExecution) : Prop := ∀ kind s q, e.queues kind s = some q → Mirror e s q

def Opens (e : FteTaskExecution) (sourceIds : Finset String) : Prop :=
  ∀ s ∈ sourceIds, s ∈ e.noMoreSplitSources → s ∈ e.initialSplits.keys

theorem mirror_of_created {sourceIds : Finset String} {created : String → Option FteSplitQueue}
    (hopens : Opens e sourceIds) (h : e.createDynamicSourceQueues kind sourceIds = .ok created)
    {s : String} {q : FteSplitQueue} (hq : created s = some q) : s ∈ sourceIds ∧ Mirror e s q := by
  rw [foldlM_fillQueue h s] at hq
  split at hq
  . next hs =>
    cases hq
    refine ⟨hs, ?_, ?_⟩
    . exact (List.nil_append _).trans (Dict.flatMap_filter_entries e.initialSplits s)
    . dsimp only [FteSplitQueue.filled]
      rw [Bool.false_or, decide_eq_decide]
      exact ⟨And.left, fun hcomplete => ⟨hcomplete, hopens s hs hcomplete⟩⟩
  . cases hq

/-! One split after the other. -/

theorem queues_putQueues (kind kind' : SplitKind) (queues : String → Option FteSplitQueue) :
    (e.putQueues kind queues).queues kind' = if kind' = kind then queues else e.queues kind' := by
  cases kind <;> cases kind' <;> rfl

theorem queues_of_none {f : FteSplitQueue → FteSplitQueue} (hnone : e.queues kind source = none)
    (kind' : SplitKind) (s : String) : e.queues kind' s =
      if kind' = kind ∧ s = source then (e.queues kind' s).map f else e.queues kind' s := by
  split
  . next h =>
    rw [h.1, h.2, hnone]
    rfl
  . rfl

theorem queues_update {f : FteSplitQueue → FteSplitQueue} {q : FteSplitQueue}
    (hq : e.queues kind source = some q) (kind' : SplitKind) (s : String) :
    (e.putQueues kind (Function.update (e.queues kind) source (some (f q)))).queues kind' s =
      if kind' = kind ∧ s = source then (e.queues kind' s).map f else e.queues kind' s := by
  rw [queues_putQueues]
  by_cases hk : kind' = kind
  . rw [if_pos hk, hk]
    by_cases hs : s = source
    . rw [hs, Function.update_self, if_pos ⟨rfl, rfl⟩, hq]
      rfl
    . rw [Function.update_of_ne hs, if_neg fun h => hs h.2]
  . rw [if_neg hk, if_neg fun h => hk h.1]

def FteSplitQueue.push (split : FteSplit) (q : FteSplitQueue) : FteSplitQueue :=
  { q with splits := q.splits ++ [split] }

theorem ensures_offerSplit_queues (kind : SplitKind) {split : FteSplit}
    (hkind : (e.queues kind source).isSome → split.kind = kind.value) :
    (offerSplit kind source split).Ensures e
      (fun _ e' => SameTask e e' ∧ ∀ kind' s, e'.queues kind' s =
        if kind' = kind ∧ s = source then (e.queues kind' s).map (FteSplitQueue.push split)
        else e.queues kind' s)
      fun _ _ => False := by
  unfold offerSplit
  rw [ensures_bind, ensures_get]
  split
  . next hnone => exact ⟨SameTask.refl e, queues_of_none hnone⟩
  . next q hq =>
    have hadded : addSplitToDynamicQueue kind q split = .ok (FteSplitQueue.push split q) := by
      unfold addSplitToDynamicQueue
      rw [Except.raiseIf_of_not (not_not.mpr (hkind (by rw [hq]; rfl)))]
      rfl
    rw [ensures_bind, hadded, Py.ensures_lift_ok, ensures_modify]
    exact ⟨sameTask_putQueues _ _, queues_update hq⟩

structure Extends (e e' : FteTaskExecution) : Prop where
  queues : ∀ kind s, (e'.queues kind s).isSome = (e.queues kind s).isSome
  seen : ∀ s, e.seenSequences.findD s ∅ ⊆ e'.seenSequences.findD s ∅

theorem Extends.refl (e : FteTaskExecution) : Extends e e :=
  ⟨fun _ _ => rfl, fun _ => Finset.Subset.refl _⟩

theorem Extends.trans {e'' : FteTaskExecution} (h : Extends e e') (h' : Extends e' e'') :
    Extends e e'' :=
  ⟨fun kind s => (h'.queues kind s).trans (h.queues kind s), fun s => (h.seen s).trans (h'.seen s)⟩

def Fits (source : String) (splits : List FteSplit) (e : FteTaskExecution) : Prop :=
  ∀ kind, (e.queues kind source).isSome → ∀ split ∈ splits,
    split.sequenceId ∉ e.seenSequences.findD source ∅ → split.kind = kind.value

theorem Fits.later {splits' : List FteSplit} (h : Fits source splits e) (hext : Extends e e')
    (hsub : ∀ split ∈ splits', split ∈ splits) : Fits source splits' e' := by
  intro kind hsome split hsplit hnew
  rw [hext.queues] at hsome
  exact h kind hsome split (hsub split hsplit) fun hseen => hnew (hext.seen source hseen)

structure Follows (e e' : FteTaskExecution) : Prop where
  mirrors : e'.Mirrors
  extends_ : Extends e e'

theorem Follows.trans {e'' : FteTaskExecution} (h : Follows e e') (h' : Follows e' e'') :
    Follows e e'' := ⟨h'.mirrors, h.extends_.trans h'.extends_⟩

section

variable (h : e.Mirrors)

include h

theorem Mirrors.refl : Follows e e := ⟨h, Extends.refl e⟩

theorem Mirrors.same (hsame : SameTask e e') (hqueues : e'.queues = e.queues) : Follows e e' := by
  refine ⟨?_, ?_, ?_⟩
  . intro kind s q hq
    rw [hqueues] at hq
    obtain ⟨hsplits, hclosed⟩ := h kind s q hq
    refine ⟨?_, ?_⟩
    . rw [hsplits, hsame.splitsOf]
    . rw [hclosed, hsame.noMoreSplitSources]
  . intro kind s
    rw [hqueues]
  . intro s
    rw [hsame.seenSequences]

theorem Mirrors.recorded {split : FteSplit} (hsame : SameTask (recordSplit source split e) e')
    (hqueues : ∀ kind s, e'.queues kind s =
      if s = source then (e.queues kind s).map (FteSplitQueue.push split) else e.queues kind s) :
    Follows e e' := by
  refine ⟨?_, ?_, ?_⟩
  . intro kind s q hq
    have hsplits : e'.splitsOf s = e.splitsOf s ++ if s = source then [split] else [] :=
      (hsame.splitsOf s).trans (findD_push _ _ _ _)
    rw [hqueues] at hq
    split at hq
    . next hs =>
      obtain ⟨q₀, hq₀, rfl⟩ := Option.map_eq_some_iff.mp hq
      obtain ⟨hsplits₀, hclosed⟩ := h kind s q₀ hq₀
      refine ⟨?_, ?_⟩
      . rw [hsplits, if_pos hs, ← hsplits₀]
        rfl
      . rw [hsame.noMoreSplitSources]
        exact hclosed
    . next hs =>
      obtain ⟨hsplits₀, hclosed⟩ := h kind s q hq
      refine ⟨?_, ?_⟩
      . rw [hsplits, if_neg hs, List.append_nil, hsplits₀]
      . rw [hsame.noMoreSplitSources]
        exact hclosed
  . intro kind s
    rw [hqueues]
    split
    . rw [Option.isSome_map]
    . rfl
  . intro s
    rw [hsame.seenSequences]
    dsimp only [recordSplit]
    rw [Dict.findD_update]
    split
    . next hs =>
      rw [hs]
      exact Finset.subset_insert _ _
    . exact Finset.Subset.refl _

theorem follows_receiveEach {xs : List (Except PyError FteSplit)}
    (hfits : Fits source (xs.filterMap toOption) e) :
    (receiveEach source xs).Ensures e (fun _ e' => Follows e e') fun _ e' => Follows e e' := by
  induction xs generalizing e with
  | nil => exact h.refl
  | cons x xs ih =>
    rw [receiveEach, ensures_lift_bind]
    refine ⟨?_, fun _ _ => h.refl⟩
    rintro split rfl
    have hrest : ∀ e₁, Follows e e₁ →
        (receiveEach source xs).Ensures e₁ (fun _ e' => Follows e e') fun _ e' => Follows e e' := by
      intro e₁ hfollows
      have hfits₁ := hfits.later hfollows.extends_ fun split hsplit =>
        (List.mem_cons_of_mem _ hsplit : split ∈ _ :: xs.filterMap toOption)
      apply (ih hfollows.mirrors hfits₁).mono
      . exact fun _ _ => hfollows.trans
      . exact fun _ _ => hfollows.trans
    rw [ensures_get_bind, ensures_ite]
    refine ⟨fun _ => ?_, fun hnew => ?_⟩
    . rw [ensures_modify_bind]
      exact hrest _ (h.same ⟨rfl, rfl, rfl, rfl⟩ (by funext kind; cases kind <;> rfl))
    . have hkinds : ∀ kind, (e.queues kind source).isSome → split.kind = kind.value :=
        fun kind hsome => hfits kind hsome split List.mem_cons_self hnew
      have hrecord : ∀ kind, (recordSplit source split e).queues kind = e.queues kind := by
        intro kind
        cases kind <;> rfl
      rw [ensures_modify_bind, ensures_bind]
      apply (ensures_offerSplit_queues .scanTask fun hsome => hkinds _ ?_).mono
      . rintro _ e₁ ⟨hsame₁, hqueues₁⟩
        rw [ensures_bind]
        apply (ensures_offerSplit_queues .exchangeSourceTask fun hsome => hkinds _ ?_).mono
        . rintro _ e₂ ⟨hsame₂, hqueues₂⟩
          have hfollows : Follows e e₂ := by
            apply h.recorded (hsame₁.trans hsame₂)
            intro kind s
            rw [hqueues₂, hqueues₁, hrecord]
            cases kind <;> simp
          rw [ensures_bind]
          exact (hrest e₂ hfollows).mono (fun _ _ h => h) fun _ _ h => h
        . exact fun _ _ h => h.elim
        . rw [hqueues₁, hrecord] at hsome
          simpa using hsome
      . exact fun _ _ h => h.elim
      . rwa [hrecord] at hsome

theorem Mirrors.touched (source : String) : Follows e (touchSource source e) := by
  have hqueues : ∀ kind, (touchSource source e).queues kind = e.queues kind := by
    intro kind
    cases kind <;> rfl
  refine ⟨?_, ?_, ?_⟩
  . intro kind s q hq
    rw [hqueues] at hq
    obtain ⟨hsplits, hclosed⟩ := h kind s q hq
    exact ⟨hsplits.trans (findD_update_id _ _ _ _).symm, hclosed⟩
  . intro kind s
    rw [hqueues]
  . intro s
    dsimp only [touchSource]
    rw [findD_update_id]

theorem mirrors_addSplits {payloads : List SplitPayload}
    (hfits : Fits source (decoded source payloads) e) :
    (addSplits source payloads).Ensures e (fun _ e' => e'.Mirrors) fun _ e' => e'.Mirrors := by
  refine ensures_requireLive ?_ fun _ => h
  rw [ensures_get_bind, ensures_raiseIf_bind]
  refine ⟨fun _ => h, fun _ => ?_⟩
  have htouched := h.touched source
  rw [ensures_modify_bind]
  refine (follows_receiveEach htouched.mirrors
    (hfits.later htouched.extends_ fun _ hsplit => hsplit)).bind ?_
    fun _ _ hfollows => hfollows.mirrors
  intro added e₁ hfollows
  rw [ensures_ite]
  refine ⟨fun _ => ?_, fun _ => hfollows.mirrors⟩
  have hsame : SameTask e₁ (bumpVersion e₁) := ⟨rfl, rfl, rfl, rfl⟩
  exact (hfollows.mirrors.same hsame (by funext kind; cases kind <;> rfl)).mirrors

end

/-! Complete sources. -/

theorem queues_closeQueue (kind kind' : SplitKind) (source s : String) :
    (closeQueue kind source e).queues kind' s =
      if kind' = kind ∧ s = source then (e.queues kind' s).map FteSplitQueue.noMoreSplits
      else e.queues kind' s := by
  unfold closeQueue
  split
  . next hnone => exact queues_of_none hnone kind' s
  . next q hq => exact queues_update hq kind' s

theorem mirrors_sealSource (h : e.Mirrors) {E : PyError → FteTaskExecution → Prop} :
    (sealSource source).Ensures e (fun _ e' => e'.Mirrors) E := by
  unfold sealSource
  rw [ensures_get_bind, ensures_ite]
  refine ⟨fun _ => h, fun _ => ?_⟩
  rw [ensures_modify_bind, ensures_modify_bind, ensures_modify_bind, Py.ensures_pure]
  have hsame := (sameTask_closeQueue (e := { e with
    noMoreSplitSources := insert source e.noMoreSplitSources }) .exchangeSourceTask source).trans
    (sameTask_closeQueue .scanTask source)
  intro kind s q hq
  have hq' : (if s = source then (e.queues kind s).map FteSplitQueue.noMoreSplits
      else e.queues kind s) = some q := by
    rw [← hq, queues_closeQueue, queues_closeQueue]
    cases kind
    . simp
      rfl
    . simp
      rfl
  split at hq'
  . next hs =>
    obtain ⟨q₀, hq₀, rfl⟩ := Option.map_eq_some_iff.mp hq'
    obtain ⟨hsplits, -⟩ := h kind s q₀ hq₀
    refine ⟨hsplits.trans (hsame.splitsOf s).symm, ?_⟩
    rw [hsame.noMoreSplitSources, hs]
    simp [FteSplitQueue.noMoreSplits]
  . next hs =>
    obtain ⟨hsplits, hclosed⟩ := h kind s q hq'
    refine ⟨hsplits.trans (hsame.splitsOf s).symm, ?_⟩
    rw [hsame.noMoreSplitSources, hclosed, decide_eq_decide, Finset.mem_insert, or_iff_right hs]

theorem mirrors_noMoreSplits (h : e.Mirrors) :
    (noMoreSplits source).Ensures e (fun _ e' => e'.Mirrors) fun _ e' => e'.Mirrors := by
  refine ensures_requireLive ?_ fun _ => h
  refine (mirrors_sealSource h).bind ?_ fun _ _ h => h
  intro changed e₁ hmirrors
  rw [ensures_ite]
  refine ⟨fun _ => ?_, fun _ => hmirrors⟩
  have hsame : SameTask e₁ (bumpVersion e₁) := ⟨rfl, rfl, rfl, rfl⟩
  exact (hmirrors.same hsame (by funext kind; cases kind <;> rfl)).mirrors

/-! Updates. -/

def newSources (e : FteTaskExecution) (kind : SplitKind) (sourceIds : Finset String) :
    Finset String :=
  if e.sourceIds kind ∪ sourceIds = e.sourceIds kind then ∅
  else (e.sourceIds kind ∪ sourceIds).filter fun source => (e.queues kind source).isNone

structure Grown (kind : SplitKind) (sourceIds : Finset String) (e e' : FteTaskExecution) :
    Prop where
  same : SameTask e e'
  mirrors : e'.Mirrors
  queues : ∀ kind' s, (e'.queues kind' s).isSome →
    (e.queues kind' s).isSome ∨ kind' = kind ∧ s ∈ e.newSources kind sourceIds
  others : ∀ kind', kind' ≠ kind → ∀ sourceIds',
    e'.newSources kind' sourceIds' = e.newSources kind' sourceIds'

theorem grown_addDynamicSources (h : e.Mirrors) {sourceIds : Finset String}
    (hopens : Opens e (e.newSources kind sourceIds)) :
    (addDynamicSources kind sourceIds).Ensures e (fun _ e' => Grown kind sourceIds e e')
      fun _ e' => e'.Mirrors := by
  unfold addDynamicSources
  rw [ensures_get_bind]
  rw [ensures_ite]
  refine ⟨fun _ => ⟨SameTask.refl e, h, fun _ _ => .inl, fun _ _ _ => rfl⟩, fun hnew => ?_⟩
  have hids : ∀ ids, SameTask e (e.putSourceIds kind ids) := by
    intro ids
    cases kind <;> exact ⟨rfl, rfl, rfl, rfl⟩
  have hqueues : ∀ ids, (e.putSourceIds kind ids).queues = e.queues := by
    intro ids
    funext kind'
    cases kind <;> cases kind' <;> rfl
  rw [ensures_modify_bind, ensures_lift_bind]
  refine ⟨?_, fun _ _ => (h.same (hids _) (hqueues _)).mirrors⟩
  intro created hcreated
  have hfilter : (e.sourceIds kind ∪ sourceIds).filter (fun source => (e.queues kind source).isNone) =
      e.newSources kind sourceIds := (if_neg hnew).symm
  rw [hfilter] at hcreated
  rw [ensures_modify_bind, Py.ensures_pure]
  have hsame := (hids (e.sourceIds kind ∪ sourceIds)).trans (sameTask_putQueues kind fun source =>
    created source <|> (e.putSourceIds kind (e.sourceIds kind ∪ sourceIds)).queues kind source)
  refine ⟨hsame, ?_, ?_, ?_⟩
  . intro kind' s q hq
    have hmirror : Mirror e s q := by
      rw [queues_putQueues, hqueues] at hq
      split at hq
      . next hk =>
        dsimp only at hq
        rcases hc : created s with _ | q₀
        . rw [hc] at hq
          exact h kind s q hq
        . rw [hc] at hq
          cases hq
          exact (mirror_of_created hopens hcreated hc).2
      . exact h kind' s q hq
    exact ⟨hmirror.splits.trans (hsame.splitsOf s).symm,
      hmirror.isClosed.trans (by rw [hsame.noMoreSplitSources])⟩
  . intro kind' s hsome
    rw [queues_putQueues, hqueues] at hsome
    split at hsome
    . next hk =>
      dsimp only at hsome
      rcases hc : created s with _ | q₀
      . rw [hc] at hsome
        rw [hk]
        exact .inl hsome
      . exact .inr ⟨hk, (mirror_of_created hopens hcreated hc).1⟩
    . exact .inl hsome
  . intro kind' hne ids
    have hq := queues_putQueues (e := e.putSourceIds kind (e.sourceIds kind ∪ sourceIds)) kind kind'
      (fun source => created source <|>
        (e.putSourceIds kind (e.sourceIds kind ∪ sourceIds)).queues kind source)
    rw [if_neg hne] at hq
    unfold newSources
    rw [hq, hqueues]
    cases kind <;> cases kind' <;> first | rfl | exact absurd rfl hne

theorem follows_appendUpdateSplits (h : e.Mirrors) (hfits : Fits source splits e) :
    (appendUpdateSplits source splits).Ensures e (fun _ e' => Follows e e')
      fun _ e' => Follows e e' := by
  unfold appendUpdateSplits
  rw [ensures_get_bind, ensures_raiseIf_bind]
  refine ⟨fun _ => h.refl, fun _ => ?_⟩
  have htouched := h.touched source
  rw [ensures_modify_bind]
  apply (follows_receiveEach htouched.mirrors ?_).mono
  . exact fun _ _ => htouched.trans
  . exact fun _ _ => htouched.trans
  . rw [filterMap_toOption_map_ok]
    exact hfits.later htouched.extends_ fun _ hsplit => hsplit

theorem mirrors_appendEachSource (h : e.Mirrors)
    (hfits : ∀ entry ∈ entries, Fits entry.1 entry.2 e) (changed : Bool) :
    (appendEachSource entries changed).Ensures e (fun _ e' => e'.Mirrors) fun _ e' => e'.Mirrors := by
  induction entries generalizing e changed with
  | nil => exact h
  | cons entry entries ih =>
    rw [appendEachSource]
    refine (follows_appendUpdateSplits h (hfits entry List.mem_cons_self)).bind ?_
      fun _ _ hfollows => hfollows.mirrors
    intro added e₁ hfollows
    apply ih hfollows.mirrors
    exact fun entry' hentry' => (hfits entry' (List.mem_cons_of_mem _ hentry')).later
      hfollows.extends_ fun _ hsplit => hsplit

theorem mirrors_sealEachSource (h : e.Mirrors) (sources : List String) (changed : Bool)
    {E : PyError → FteTaskExecution → Prop} :
    (sealEachSource sources changed).Ensures e (fun _ e' => e'.Mirrors) E := by
  induction sources generalizing e changed with
  | nil => exact h
  | cons source sources ih =>
    rw [sealEachSource, ensures_bind]
    exact (mirrors_sealSource h).mono (fun _ _ hmirrors => ih hmirrors _) fun _ _ h => h

end FteTaskExecution

def FteTaskUpdateRequest.sourceIds (update : FteTaskUpdateRequest) : SplitKind → Finset String
  | .scanTask => update.dynamicScanSourceNodeIds
  | .exchangeSourceTask => update.dynamicExchangeSourceNodeIds

namespace FteTaskExecution

variable {e e' : FteTaskExecution}

/--
An update makes no queue for a source that was completed without splits, and its splits are of the kind
that the queues of their source take, among them the queues that the update makes.
-/
structure Suits (update : FteTaskUpdateRequest) (e : FteTaskExecution) : Prop where
  opens : ∀ kind, Opens e (e.newSources kind (update.sourceIds kind))
  fits : ∀ entry ∈ update.initialSplits.entries, ∀ kind,
    ((e.queues kind entry.1).isSome ∨ entry.1 ∈ e.newSources kind (update.sourceIds kind)) →
    ∀ split ∈ entry.2, split.sequenceId ∉ e.seenSequences.findD entry.1 ∅ → split.kind = kind.value

theorem mirrors_updateTask (h : e.Mirrors) {update : FteTaskUpdateRequest}
    (hsuits : Suits update e) :
    (updateTask update).Ensures e (fun _ e' => e'.Mirrors) fun _ e' => e'.Mirrors := by
  refine ensures_requireLive ?_ fun _ => h
  rw [ensures_get_bind, ensures_raiseIf_bind]
  refine ⟨fun _ => h, fun _ => ?_⟩
  rw [ensures_modify_bind]
  have hqueues : (storeFields update e).queues = e.queues := by
    funext kind
    cases kind <;> rfl
  have hsame : SameTask e (storeFields update e) := ⟨rfl, rfl, rfl, rfl⟩
  have hstored := h.same hsame hqueues
  have hnew : ∀ kind ids, (storeFields update e).newSources kind ids = e.newSources kind ids := by
    intro kind ids
    unfold newSources
    rw [hqueues]
    cases kind <;> rfl
  have hscan : Opens (storeFields update e)
      ((storeFields update e).newSources .scanTask update.dynamicScanSourceNodeIds) := by
    rw [hnew]
    exact hsuits.opens .scanTask
  refine (grown_addDynamicSources hstored.mirrors hscan).bind ?_ fun _ _ h => h
  intro scan e₁ hgrown₁
  have hexchange : Opens e₁
      (e₁.newSources .exchangeSourceTask update.dynamicExchangeSourceNodeIds) := by
    rw [hgrown₁.others _ (by simp), hnew]
    intro s hs hcomplete
    rw [hgrown₁.same.noMoreSplitSources] at hcomplete
    rw [hgrown₁.same.initialSplits]
    exact hsuits.opens .exchangeSourceTask s hs hcomplete
  refine (grown_addDynamicSources hgrown₁.mirrors hexchange).bind ?_ fun _ _ h => h
  intro exchange e₂ hgrown₂
  have hfits : ∀ entry ∈ update.initialSplits.entries, Fits entry.1 entry.2 e₂ := by
    intro entry hentry kind hsome split hsplit hunseen
    rw [hgrown₂.same.seenSequences, hgrown₁.same.seenSequences] at hunseen
    refine hsuits.fits entry hentry kind ?_ split hsplit hunseen
    rcases hgrown₂.queues kind _ hsome with hsome | ⟨rfl, hmem⟩
    . rcases hgrown₁.queues kind _ hsome with hsome | ⟨rfl, hmem⟩
      . rw [hqueues] at hsome
        exact .inl hsome
      . rw [hnew] at hmem
        exact .inr hmem
    . rw [hgrown₁.others _ (by simp), hnew] at hmem
      exact .inr hmem
  refine (mirrors_appendEachSource hgrown₂.mirrors hfits _).bind ?_ fun _ _ h => h
  intro appended e₃ h₃
  refine (mirrors_sealEachSource h₃ (update.noMoreSplits.sortBy id) appended).bind ?_ fun _ _ h => h
  intro marked e₄ h₄
  rw [ensures_bind]
  apply (ensures_mergeOutputBuffers update).mono
  . rintro buffers e₅ ⟨-, heq⟩
    have hlast : ∀ e' : FteTaskExecution, e'.initialSplits = e₅.initialSplits →
        e'.noMoreSplitSources = e₅.noMoreSplitSources →
        e'.queues = e₅.queues → e'.Mirrors := by
      intro e' hsplits hcomplete hq kind s q hmem
      have hmem₄ : e₄.queues kind s = some q := by
        rw [← hmem, hq, heq]
        cases kind <;> rfl
      have hmirror := h₄ kind s q hmem₄
      refine ⟨?_, ?_⟩
      . rw [hmirror.splits]
        unfold splitsOf
        rw [hsplits, heq]
      . rw [hmirror.isClosed, hcomplete, heq]
    rw [ensures_bind]
    unfold mergeDynamicFilters
    rw [ensures_get_bind, ensures_modify_bind, Py.ensures_pure, ensures_ite]
    exact ⟨fun _ => hlast _ rfl rfl (by funext kind; cases kind <;> rfl),
      fun _ => hlast _ rfl rfl (by funext kind; cases kind <;> rfl)⟩
  . rintro _ e₅ rfl
    exact h₄

/-! Whole runs. -/

def Call.Suits : Call → FteTaskExecution → Prop
  | addSplits sourceNodeId payloads, e => Fits sourceNodeId (decoded sourceNodeId payloads) e
  | noMoreSplits _, _ => True
  | updateTask update, e => FteTaskExecution.Suits update e
  | transition _, _ => True
  | beginExecution, _ => True

theorem Mirrors.step (h : e.Mirrors) (call : Call) (hsuits : call.Suits e) :
    (call.step e).Mirrors := by
  cases call with
  | addSplits source payloads => exact (mirrors_addSplits h hsuits).state
  | noMoreSplits source => exact (mirrors_noMoreSplits h).state
  | updateTask update => exact (mirrors_updateTask h hsuits).state
  | transition state =>
    show (transition state e).Mirrors
    refine (h.same ?_ ?_).mirrors
    . unfold transition
      split
      . exact SameTask.refl e
      . exact ⟨rfl, rfl, rfl, rfl⟩
    . funext kind
      unfold transition
      split
      . rfl
      . cases kind <;> rfl
  | beginExecution =>
    have hqueues : (Call.beginExecution.step e).queues = e.queues := by
      funext kind
      cases kind <;> rfl
    have hsame : SameTask e (Call.beginExecution.step e) := ⟨rfl, rfl, rfl, rfl⟩
    exact (h.same hsame hqueues).mirrors

theorem tidy_step (h : e.Tidy) (call : Call) : (call.step e).Tidy := by
  cases call with
  | addSplits source payloads =>
    exact ((ensures_addSplits h source payloads).mono (fun _ _ h => h.tidy) fun _ _ h => h.tidy).state
  | noMoreSplits source =>
    exact ((ensures_noMoreSplits h source).mono (fun _ _ h => h.tidy) fun _ _ h => h.tidy).state
  | updateTask update =>
    exact ((ensures_updateTask h update).mono (fun _ _ h => h.tidy) fun _ _ h => h.tidy).state
  | transition state =>
    show (transition state e).Tidy
    unfold transition
    split
    . exact h
    . exact h
  | beginExecution => exact h

end FteTaskExecution

def CreateTaskRequest.Opens (request : CreateTaskRequest) : Prop :=
  ∀ s ∈ request.dynamicScanSourceNodeIds ∪ request.dynamicExchangeSourceNodeIds,
    s ∈ request.noMoreSplits → s ∈ request.initialSplits.keys

namespace FteTaskExecution

variable {e : FteTaskExecution} {request : CreateTaskRequest} {memoryRequirementBytes : ℕ}

theorem mirrors_new (hopens : request.Opens) (h : new request memoryRequirementBytes = .ok e) :
    e.Mirrors := by
  obtain ⟨scan, hscan, h⟩ := ok_of_bind h
  obtain ⟨exchange, hexchange, h⟩ := ok_of_bind h
  cases h
  intro kind s q hq
  cases kind with
  | scanTask =>
    have hmirror := (mirror_of_created (fun s hs => hopens s (Finset.mem_union_left _ hs)) hscan hq).2
    exact ⟨hmirror.splits, hmirror.isClosed⟩
  | exchangeSourceTask =>
    have hmirror :=
      (mirror_of_created (fun s hs => hopens s (Finset.mem_union_right _ hs)) hexchange hq).2
    exact ⟨hmirror.splits, hmirror.isClosed⟩

theorem tidy_new (hnodup : ∀ s, ((request.initialSplits.findD s []).map FteSplit.sequenceId).Nodup)
    (h : new request memoryRequirementBytes = .ok e) : e.Tidy := by
  obtain ⟨scan, -, h⟩ := ok_of_bind h
  obtain ⟨exchange, -, h⟩ := ok_of_bind h
  cases h
  refine ⟨?_, hnodup⟩
  intro s n
  unfold Dict.findD
  rw [Dict.find?_mapValues]
  cases request.initialSplits.find? s with
  | none => simp
  | some splits => simp

theorem source_queues_mirror_task (request : CreateTaskRequest) (memoryRequirementBytes : ℕ)
    (e : FteTaskExecution) (hcreated : new request memoryRequirementBytes = .ok e)
    (hopens : request.Opens) (calls : List Call)
    (hsuits : Run.Always Call.step Call.Suits calls e) :
    (Run.run Call.step calls e).Mirrors ∧
      ((∀ s, ((request.initialSplits.findD s []).map FteSplit.sequenceId).Nodup) →
        ∀ kind s q, (Run.run Call.step calls e).queues kind s = some q →
          (q.splits.map FteSplit.sequenceId).Nodup) := by
  have hmirrors := Run.run_invariant_of_always Mirrors
    (fun call _ hsuits h => Mirrors.step h call hsuits) hsuits (mirrors_new hopens hcreated)
  refine ⟨hmirrors, ?_⟩
  intro hnodup kind s q hq
  have htidy : (Run.run Call.step calls e).Tidy :=
    Run.run_invariant Tidy (fun call _ _ h => tidy_step h call) (tidy_new hnodup hcreated)
  rw [(hmirrors kind s q hq).splits]
  exact htidy.nodup s

instance : Fintype SplitKind where
  elems := {.scanTask, .exchangeSourceTask}
  complete kind := by cases kind <;> decide

instance (sourceIds : Finset String) : Decidable (Opens e sourceIds) :=
  inferInstanceAs (Decidable (∀ s ∈ sourceIds, _))

instance (source : String) (splits : List FteSplit) : Decidable (Fits source splits e) :=
  inferInstanceAs (Decidable (∀ _, _ → ∀ split ∈ splits, _ → _))

instance (update : FteTaskUpdateRequest) : Decidable (Suits update e) :=
  decidable_of_iff ((∀ kind, Opens e (e.newSources kind (update.sourceIds kind))) ∧ _)
    ⟨fun h => ⟨h.1, h.2⟩, fun h => ⟨h.opens, h.fits⟩⟩

instance : (call : Call) → (e : FteTaskExecution) → Decidable (call.Suits e)
  | .addSplits source payloads, e =>
    inferInstanceAs (Decidable (Fits source (decoded source payloads) e))
  | .noMoreSplits _, _ => inferInstanceAs (Decidable True)
  | .updateTask update, e => inferInstanceAs (Decidable (Suits update e))
  | .transition _, _ => inferInstanceAs (Decidable True)
  | .beginExecution, _ => inferInstanceAs (Decidable True)

def Sample.created (noMoreSplits : Finset String) : CreateTaskRequest where
  taskId := ⟨⟨"q", 0, 0⟩, 0⟩
  fragmentId := "f"
  context := ∅
  initialSplits := ∅
  noMoreSplits
  resourceRequest := ∅
  fragmentPlan := none
  fragmentRegistrationResult := none
  descriptorVersion := 0
  outputBuffers := none
  dynamicFilterDomains := ∅
  sourceNodeIds := {"s"}
  dynamicScanSourceNodeIds := {"s"}
  dynamicExchangeSourceNodeIds := ∅
  exchangeSinkInstance := none

def Sample.calls : List Call :=
  [.addSplits "s" [{ sequenceId := some 0, kind := some "scan_task" }],
    .updateTask { dynamicExchangeSourceNodeIds := {"x"}, noMoreSplits := ["x"] }, .noMoreSplits "s"]

theorem source_queues_mirror_task_sealed :
    ∃ e, new (Sample.created ∅) 1 = .ok e ∧ Run.Always Call.step Call.Suits Sample.calls e ∧
      ((Run.run Call.step Sample.calls e).queues .exchangeSourceTask "x").any (·.isClosed) ∧
      (Run.run Call.step Sample.calls e).Mirrors := by
  have hcreated : (new (Sample.created ∅) 1).toOption.any (fun e =>
      Run.Always Call.step Call.Suits Sample.calls e ∧
      ((Run.run Call.step Sample.calls e).queues .exchangeSourceTask "x").any (·.isClosed)) =
        true := by
    decide +kernel
  rw [Option.any_eq_true] at hcreated
  obtain ⟨e, he, hsuits⟩ := hcreated
  obtain ⟨hsuits, hclosed⟩ := of_decide_eq_true hsuits
  have hnew := eq_ok_of_toOption he
  refine ⟨e, hnew, hsuits, hclosed, ?_⟩
  have hopens : (Sample.created ∅).Opens := fun _ _ hcomplete => absurd hcomplete (Finset.notMem_empty _)
  exact (source_queues_mirror_task (Sample.created ∅) 1 e hnew hopens Sample.calls hsuits).1

theorem source_queue_stays_open :
    ∃ e, new (Sample.created {"s"}) 1 = .ok e ∧ ¬e.Mirrors ∧
      ¬(Run.run Call.step [.noMoreSplits "s"] e).Mirrors := by
  have hcreated : (new (Sample.created {"s"}) 1).toOption.any (fun e =>
      (e.queues .scanTask "s").any (fun q => !q.isClosed) ∧ "s" ∈ e.noMoreSplitSources ∧
      ((Run.run Call.step [.noMoreSplits "s"] e).queues .scanTask "s").any (fun q => !q.isClosed) ∧
      "s" ∈ (Run.run Call.step [.noMoreSplits "s"] e).noMoreSplitSources) = true := by
    decide +kernel
  have hopen : ∀ e : FteTaskExecution, (e.queues .scanTask "s").any (fun q => !q.isClosed) = true →
      "s" ∈ e.noMoreSplitSources → ¬e.Mirrors := by
    intro e hany hcomplete hmirrors
    rw [Option.any_eq_true] at hany
    obtain ⟨q, hq, hqopen⟩ := hany
    rw [(hmirrors .scanTask "s" q hq).isClosed, decide_eq_true hcomplete] at hqopen
    cases hqopen
  rw [Option.any_eq_true] at hcreated
  obtain ⟨e, he, hall⟩ := hcreated
  obtain ⟨hany, hcomplete, hany', hcomplete'⟩ := of_decide_eq_true hall
  exact ⟨e, eq_ok_of_toOption he, hopen e hany hcomplete, hopen _ hany' hcomplete'⟩

end FteTaskExecution

end Vane
