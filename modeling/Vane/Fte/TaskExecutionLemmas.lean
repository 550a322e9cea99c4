import Vane.Fte.TaskDescriptorLemmas
import Vane.Fte.TaskExecution

/-!
This module contains what the messages to a task execution do, whether they are accepted or not.
-/

namespace Vane

open Py (ensures_bind ensures_get_bind ensures_ite ensures_lift_bind ensures_modify_bind
  ensures_raiseIf_bind)
open TaskDescriptor (splitsIn)

namespace OutputBuffers

variable {current current' : Option OutputBuffers}

def Settled (c b : OutputBuffers) : Prop := b.version < c.version ∨ b.version = c.version ∧ b.isEqual c

theorem after_eq_ok {b : OutputBuffers} (h : after current (some b) = .ok current') :
    current' = current ∧ (∃ c, current = some c ∧ Settled c b) ∨
      current' = some b ∧ ∀ c, current = some c → c.version < b.version := by
  unfold after at h
  cases current with
  | none =>
    cases h
    exact .inr ⟨rfl, by simp⟩
  | some c =>
    unfold merge at h
    dsimp only at h
    split at h
    . next hlt =>
      cases h
      exact .inl ⟨rfl, c, rfl, .inl hlt⟩
    . next hge =>
      split at h
      . next heq =>
        split at h
        . next hequal =>
          cases h
          exact .inl ⟨rfl, c, rfl, .inr ⟨heq, hequal⟩⟩
        . cases h
      . next hne =>
        cases hvalid : validateTransition c b with
        | error e =>
          rw [hvalid] at h
          cases h
        | ok _ =>
          rw [hvalid] at h
          cases h
          refine .inr ⟨rfl, ?_⟩
          rintro _ ⟨⟩
          omega

theorem after_of_settled {c b : OutputBuffers} (h : Settled c b) :
    after (some c) (some b) = .ok (some c) := by
  unfold after merge
  dsimp only
  rcases h with hlt | ⟨heq, hequal⟩
  . rw [if_pos hlt]
    rfl
  . rw [if_neg (by omega), if_pos heq, if_pos hequal]
    rfl

theorem after_self {update : Option OutputBuffers} (h : after current update = .ok current') :
    after current' update = .ok current' := by
  cases update with
  | none => rfl
  | some b =>
    rcases after_eq_ok h with ⟨rfl, c, rfl, hsettled⟩ | ⟨rfl, -⟩
    . exact after_of_settled hsettled
    . exact after_of_settled (.inr ⟨rfl, isEqual_refl b⟩)

theorem after_of_after {update earlier : Option OutputBuffers}
    (h : after current update = .ok current') (hearlier : after current earlier = .ok current) :
    after current' earlier = .ok current' := by
  cases earlier with
  | none => rfl
  | some b =>
    have hsettled : ∃ c, current = some c ∧ Settled c b := by
      rcases after_eq_ok hearlier with ⟨-, hc⟩ | ⟨rfl, hnewer⟩
      . exact hc
      . exact absurd (hnewer b rfl) (lt_irrefl _)
    obtain ⟨c, rfl, hc⟩ := hsettled
    cases update with
    | none =>
      cases h
      exact after_of_settled hc
    | some b' =>
      rcases after_eq_ok h with ⟨rfl, -⟩ | ⟨rfl, hnewer⟩
      . exact after_of_settled hc
      . have hlt := hnewer c rfl
        apply after_of_settled
        left
        rcases hc with hc | hc
        . omega
        . omega

end OutputBuffers

namespace FteTaskExecution

variable {e e' : FteTaskExecution} {source : String}
  {E : PyError → FteTaskExecution → Prop} {e'' : FteTaskExecution} (kind : SplitKind)

abbrev splitsOf (e : FteTaskExecution) (source : String) : List FteSplit :=
  e.initialSplits.findD source []

abbrev Tidy (e : FteTaskExecution) : Prop := TidySplits e.seenSequences e.initialSplits

structure SameTask (e e' : FteTaskExecution) : Prop where
  initialSplits : e'.initialSplits = e.initialSplits
  seenSequences : e'.seenSequences = e.seenSequences
  noMoreSplitSources : e'.noMoreSplitSources = e.noMoreSplitSources
  outputBuffers : e'.outputBuffers = e.outputBuffers

theorem SameTask.refl (e : FteTaskExecution) : SameTask e e := ⟨rfl, rfl, rfl, rfl⟩

theorem SameTask.trans (h : SameTask e e') (h' : SameTask e' e'') : SameTask e e'' where
  initialSplits := h'.initialSplits.trans h.initialSplits
  seenSequences := h'.seenSequences.trans h.seenSequences
  noMoreSplitSources := h'.noMoreSplitSources.trans h.noMoreSplitSources
  outputBuffers := h'.outputBuffers.trans h.outputBuffers

theorem SameTask.tidy (h : SameTask e e') (htidy : e.Tidy) : e'.Tidy := by
  unfold Tidy
  rw [h.initialSplits, h.seenSequences]
  exact htidy

theorem SameTask.splitsOf (h : SameTask e e') (s : String) : e'.splitsOf s = e.splitsOf s := by
  unfold FteTaskExecution.splitsOf
  rw [h.initialSplits]

structure Received (splits : String → List FteSplit) (e e' : FteTaskExecution) : Prop where
  tidy : e'.Tidy
  splitsOf : ∀ s, e'.splitsOf s = (e.splitsOf s).appendNew FteSplit.sequenceId (splits s)
  noMoreSplitSources : e'.noMoreSplitSources = e.noMoreSplitSources
  outputBuffers : e'.outputBuffers = e.outputBuffers

def single (source : String) (splits : List FteSplit) (s : String) : List FteSplit :=
  if s = source then splits else []

theorem Received.trans {splits splits' : String → List FteSplit}
    (h : Received splits e e') (h' : Received splits' e' e'') :
    Received (fun s => splits s ++ splits' s) e e'' where
  tidy := h'.tidy
  splitsOf := by
    intro s
    rw [h'.splitsOf, h.splitsOf, List.appendNew_append]
  noMoreSplitSources := h'.noMoreSplitSources.trans h.noMoreSplitSources
  outputBuffers := h'.outputBuffers.trans h.outputBuffers

theorem SameTask.received (h : SameTask e e') (htidy : e.Tidy) : Received (fun _ => []) e e' where
  tidy := h.tidy htidy
  splitsOf := h.splitsOf
  noMoreSplitSources := h.noMoreSplitSources
  outputBuffers := h.outputBuffers

theorem sameTask_putQueues (queues : String → Option FteSplitQueue) :
    SameTask e (e.putQueues kind queues) := by
  cases kind <;> exact ⟨rfl, rfl, rfl, rfl⟩

theorem ensures_offerSplit (source : String) (split : FteSplit) :
    (offerSplit kind source split).Ensures e (fun _ e' => SameTask e e')
      fun _ e' => SameTask e e' := by
  unfold offerSplit
  rw [ensures_get_bind]
  split
  . exact SameTask.refl e
  . rw [ensures_lift_bind]
    exact ⟨fun _ _ => sameTask_putQueues _ _, fun _ _ => SameTask.refl e⟩

theorem received_recordSplit (h : e.Tidy) (source : String) (split : FteSplit)
    (hnew : split.sequenceId ∉ e.seenSequences.findD source ∅) :
    Received (single source [split]) e (recordSplit source split e) := by
  refine ⟨TidySplits.push h source split hnew, ?_, rfl, rfl⟩
  intro s
  rw [h.seen] at hnew
  unfold single
  dsimp only [recordSplit, FteTaskExecution.splitsOf]
  rw [findD_push]
  split
  . next hs =>
    rw [hs, List.appendNew, if_neg hnew]
    rfl
  . rw [List.append_nil]
    rfl

theorem single_append (source : String) (splits splits' : List FteSplit) :
    (fun s => single source splits s ++ single source splits' s) =
      single source (splits ++ splits') := by
  funext s
  unfold single
  split <;> simp

theorem single_nil (source : String) : single source [] = fun _ => [] := by
  funext s
  unfold single
  split <;> rfl

theorem Received.same {splits : String → List FteSplit}
    (h : Received splits e e') (h' : SameTask e' e'') : Received splits e e'' := by
  have hall := h.trans (h'.received h.tidy)
  simp only [List.append_nil] at hall
  exact hall

theorem received_duplicate (h : e.Tidy) (hsame : SameTask e e') {split : FteSplit}
    (hseen : split.sequenceId ∈ e.seenSequences.findD source ∅) :
    Received (single source [split]) e e' := by
  refine ⟨hsame.tidy h, ?_, hsame.noMoreSplitSources, hsame.outputBuffers⟩
  intro s
  rw [hsame.splitsOf]
  unfold single
  split
  . next hs =>
    rw [hs, List.appendNew_of_known]
    intro x hx
    rw [List.mem_singleton.mp hx]
    exact (h.seen source _).mp hseen
  . rfl

theorem ensures_receiveEach (h : e.Tidy) (source : String) (xs : List (Except PyError FteSplit)) :
    (receiveEach source xs).Ensures e
      (fun _ e' => ∃ splits : List FteSplit, xs = splits.map .ok ∧
        Received (single source splits) e e')
      fun _ e' => ∃ splits : List FteSplit, splits.map .ok <+: xs ∧
        Received (single source splits) e e' := by
  induction xs generalizing e with
  | nil =>
    refine ⟨[], rfl, ?_⟩
    rw [single_nil]
    exact (SameTask.refl e).received h
  | cons x xs ih =>
    rw [receiveEach, ensures_lift_bind]
    constructor
    . rintro split rfl
      have hok : ∀ e₁ e', Received (single source [split]) e e₁ →
          (∃ splits : List FteSplit, xs = splits.map .ok ∧ Received (single source splits) e₁ e') →
          ∃ splits : List FteSplit, .ok split :: xs = splits.map .ok ∧
            Received (single source splits) e e' := by
        rintro e₁ e' hfirst ⟨splits, rfl, hrest⟩
        refine ⟨split :: splits, rfl, ?_⟩
        have hall := hfirst.trans hrest
        rw [single_append] at hall
        exact hall
      have herror : ∀ e₁ e', Received (single source [split]) e e₁ →
          (∃ splits : List FteSplit, splits.map .ok <+: xs ∧
            Received (single source splits) e₁ e') →
          ∃ splits : List FteSplit, splits.map .ok <+: .ok split :: xs ∧
            Received (single source splits) e e' := by
        rintro e₁ e' hfirst ⟨splits, hsplits, hrest⟩
        refine ⟨split :: splits, ?_, ?_⟩
        . rw [List.map_cons, List.cons_prefix_cons]
          exact ⟨rfl, hsplits⟩
        . have hall := hfirst.trans hrest
          rw [single_append] at hall
          exact hall
      rw [ensures_get_bind, ensures_ite]
      refine ⟨fun hseen => ?_, fun hnew => ?_⟩
      . rw [ensures_modify_bind]
        have hsame : SameTask e { e with status := { e.status with
            duplicateSplitCount := e.status.duplicateSplitCount + 1 } } := ⟨rfl, rfl, rfl, rfl⟩
        apply (ih (hsame.tidy h)).mono
        . exact fun _ e' => hok _ e' (received_duplicate h hsame hseen)
        . exact fun _ e' => herror _ e' (received_duplicate h hsame hseen)
      . have hrecord := received_recordSplit h source split hnew
        have hstop : ∀ e', SameTask (recordSplit source split e) e' →
            ∃ splits : List FteSplit, splits.map .ok <+: .ok split :: xs ∧
              Received (single source splits) e e' := by
          intro e' hsame
          exact ⟨[split], by simp, hrecord.same hsame⟩
        rw [ensures_modify_bind]
        refine (ensures_offerSplit .scanTask source split).bind ?_
          fun _ e₁ hsame₁ => hstop e₁ hsame₁
        intro _ e₁ hsame₁
        refine (ensures_offerSplit .exchangeSourceTask source split).bind ?_
          fun _ e₂ hsame₂ => hstop e₂ (hsame₁.trans hsame₂)
        intro _ e₂ hsame₂
        have hfirst := hrecord.same (hsame₁.trans hsame₂)
        exact (ih hfirst.tidy).bind (fun _ e' => hok _ e' hfirst) fun _ e' => herror _ e' hfirst
    . intro error _
      refine ⟨[], by simp, ?_⟩
      rw [single_nil]
      exact (SameTask.refl e).received h

/-! The messages, accepted or not. -/

structure Content where
  splits : String → List FteSplit
  complete : Finset String
  outputBuffers : Option OutputBuffers

structure Accepted (content : Content) (e e' : FteTaskExecution) : Prop where
  tidy : e'.Tidy
  splitsOf : ∀ s, e'.splitsOf s =
    (e.splitsOf s).appendNew FteSplit.sequenceId (content.splits s)
  noMoreSplitSources : e'.noMoreSplitSources = e.noMoreSplitSources ∪ content.complete
  outputBuffers : OutputBuffers.after e.outputBuffers content.outputBuffers = .ok e'.outputBuffers

structure Attempted (content : Content) (e e' : FteTaskExecution) : Prop where
  tidy : e'.Tidy
  splitsOf : ∀ s, ∃ splits, (∀ split ∈ splits, split ∈ content.splits s) ∧
    e'.splitsOf s = (e.splitsOf s).appendNew FteSplit.sequenceId splits
  subset : e.noMoreSplitSources ⊆ e'.noMoreSplitSources
  complete : e'.noMoreSplitSources ⊆ e.noMoreSplitSources ∪ content.complete
  outputBuffers : e'.outputBuffers = e.outputBuffers

theorem received_touchSource (h : e.Tidy) (source : String) :
    Received (fun _ => []) e (touchSource source e) :=
  ⟨TidySplits.touch h source, fun _ => findD_update_id _ _ _ _, rfl, rfl⟩

def splitsContent (source : String) (splits : List FteSplit) : Content where
  splits := single source splits
  complete := ∅
  outputBuffers := none

theorem Received.accepted {splits : List FteSplit} (h : Received (single source splits) e e') :
    Accepted (splitsContent source splits) e e' :=
  ⟨h.tidy, h.splitsOf, h.noMoreSplitSources.trans (Finset.union_empty _).symm,
    congrArg _ h.outputBuffers.symm⟩

theorem Received.attempted {splits splits' : List FteSplit} (h : Received (single source splits) e e')
    (hsub : ∀ split ∈ splits, split ∈ splits') : Attempted (splitsContent source splits') e e' := by
  refine ⟨h.tidy, fun s => ⟨single source splits s, ?_, h.splitsOf s⟩, ?_, ?_, h.outputBuffers⟩
  . intro split hsplit
    unfold single at hsplit
    show split ∈ if s = source then splits' else []
    split
    . next hs =>
      rw [if_pos hs] at hsplit
      exact hsub split hsplit
    . next hs =>
      rw [if_neg hs] at hsplit
      cases hsplit
  . rw [h.noMoreSplitSources]
  . rw [h.noMoreSplitSources]
    exact Finset.subset_union_left

def decoded (source : String) (payloads : List SplitPayload) : List FteSplit :=
  (payloads.map (FteSplit.fromDict source)).filterMap Except.toOption

theorem filterMap_toOption_map_ok {ε α : Type} (l : List α) :
    (l.map (.ok : α → Except ε α)).filterMap Except.toOption = l := by
  rw [List.filterMap_map]
  exact List.filterMap_some

theorem eq_ok_of_toOption {ε α : Type} {x : Except ε α} {a : α} (h : x.toOption = some a) :
    x = .ok a := by
  cases x with
  | error _ => cases h
  | ok _ =>
    cases h
    rfl

theorem ensures_requireLive {message : String} {m : Py FteTaskExecution Unit}
    {Q : Unit → FteTaskExecution → Prop} (hm : m.Ensures e Q E) (hE : ∀ error, E error e) :
    (requireLive message >>= fun _ => m).Ensures e Q E := by
  unfold requireLive
  rw [ensures_bind, ensures_get_bind, Py.ensures_raiseIf]
  exact ⟨fun _ => hE _, fun _ => hm⟩

theorem attempted_same {content : Content} (h : e.Tidy) (hsame : SameTask e e') :
    Attempted content e e' :=
  ⟨hsame.tidy h, fun s => ⟨[], by simp, hsame.splitsOf s⟩, by rw [hsame.noMoreSplitSources],
    by rw [hsame.noMoreSplitSources]; exact Finset.subset_union_left, hsame.outputBuffers⟩

theorem ensures_addSplits (h : e.Tidy) (source : String) (payloads : List SplitPayload) :
    (addSplits source payloads).Ensures e
      (fun _ e' => Accepted (splitsContent source (decoded source payloads)) e e')
      fun _ e' => Attempted (splitsContent source (decoded source payloads)) e e' := by
  refine ensures_requireLive ?_ fun _ => attempted_same h (SameTask.refl e)
  rw [ensures_get_bind, ensures_raiseIf_bind]
  refine ⟨fun _ => attempted_same h (SameTask.refl e), fun _ => ?_⟩
  have htouch := received_touchSource h source
  rw [ensures_modify_bind, ensures_bind]
  apply (ensures_receiveEach htouch.tidy source _).mono
  . rintro added e₁ ⟨splits, hsplits, hreceived⟩
    have hdecoded : decoded source payloads = splits := by
      unfold decoded
      rw [hsplits, filterMap_toOption_map_ok]
    have hall := htouch.trans hreceived
    simp only [List.nil_append] at hall
    have hbump : SameTask e₁ (bumpVersion e₁) := ⟨rfl, rfl, rfl, rfl⟩
    rw [hdecoded, ensures_ite]
    exact ⟨fun _ => (hall.same hbump).accepted, fun _ => hall.accepted⟩
  . rintro _ e₁ ⟨splits, hsplits, hreceived⟩
    have hall := htouch.trans hreceived
    simp only [List.nil_append] at hall
    apply hall.attempted
    intro split hsplit
    unfold decoded
    obtain ⟨rest, hrest⟩ := hsplits
    rw [← hrest, List.filterMap_append, filterMap_toOption_map_ok]
    exact List.mem_append_left _ hsplit

structure Sealed (sources : Finset String) (e e' : FteTaskExecution) : Prop where
  initialSplits : e'.initialSplits = e.initialSplits
  seenSequences : e'.seenSequences = e.seenSequences
  noMoreSplitSources : e'.noMoreSplitSources = e.noMoreSplitSources ∪ sources
  outputBuffers : e'.outputBuffers = e.outputBuffers

theorem sameTask_closeQueue (source : String) : SameTask e (closeQueue kind source e) := by
  unfold closeQueue
  split
  . exact SameTask.refl e
  . exact sameTask_putQueues _ _

theorem ensures_sealSource (source : String) :
    (sealSource source).Ensures e (fun _ e' => Sealed {source} e e') E := by
  unfold sealSource
  rw [ensures_get_bind, ensures_ite]
  refine ⟨fun hmem => ?_, fun _ => ?_⟩
  . refine ⟨rfl, rfl, ?_, rfl⟩
    rw [Finset.union_comm, ← Finset.insert_eq, Finset.insert_eq_of_mem hmem]
  . rw [ensures_modify_bind, ensures_modify_bind, ensures_modify_bind, Py.ensures_pure]
    have hclosed := (sameTask_closeQueue (e := { e with
      noMoreSplitSources := insert source e.noMoreSplitSources }) .exchangeSourceTask source).trans
      (sameTask_closeQueue .scanTask source)
    refine ⟨hclosed.initialSplits, hclosed.seenSequences, ?_, hclosed.outputBuffers⟩
    rw [hclosed.noMoreSplitSources, Finset.union_comm, ← Finset.insert_eq]

theorem ensures_noMoreSplits (h : e.Tidy) (source : String) :
    (noMoreSplits source).Ensures e
      (fun _ e' => Accepted ⟨fun _ => [], {source}, none⟩ e e')
      fun _ e' => Attempted ⟨fun _ => [], {source}, none⟩ e e' := by
  refine ensures_requireLive ?_ fun _ => attempted_same h (SameTask.refl e)
  refine (ensures_sealSource source).bind ?_ fun _ _ h => h
  intro changed e₁ hsealed
  have haccepted : ∀ e', SameTask e₁ e' → Accepted ⟨fun _ => [], {source}, none⟩ e e' := by
    intro e' hsame
    refine ⟨?_, ?_, ?_, ?_⟩
    . unfold Tidy
      rw [hsame.seenSequences, hsame.initialSplits, hsealed.seenSequences, hsealed.initialSplits]
      exact h
    . intro s
      unfold FteTaskExecution.splitsOf
      rw [hsame.initialSplits, hsealed.initialSplits]
      rfl
    . rw [hsame.noMoreSplitSources, hsealed.noMoreSplitSources]
    . rw [hsame.outputBuffers, hsealed.outputBuffers]
      rfl
  have hbump : SameTask e₁ (bumpVersion e₁) := ⟨rfl, rfl, rfl, rfl⟩
  rw [ensures_ite]
  exact ⟨fun _ => haccepted _ hbump, fun _ => haccepted _ (SameTask.refl e₁)⟩

/-! Updates. -/

theorem ensures_addDynamicSources (sourceIds : Finset String) :
    (addDynamicSources kind sourceIds).Ensures e (fun _ e' => SameTask e e')
      fun _ e' => SameTask e e' := by
  have hids : ∀ ids, SameTask e (e.putSourceIds kind ids) := by
    intro ids
    cases kind <;> exact ⟨rfl, rfl, rfl, rfl⟩
  unfold addDynamicSources
  rw [ensures_get_bind]
  rw [ensures_ite]
  refine ⟨fun _ => SameTask.refl e, fun _ => ?_⟩
  rw [ensures_modify_bind, ensures_lift_bind]
  exact ⟨fun _ _ => (hids _).trans (sameTask_putQueues _ _), fun _ _ => hids _⟩

theorem ensures_appendUpdateSplits (h : e.Tidy) (source : String) (splits : List FteSplit) :
    (appendUpdateSplits source splits).Ensures e
      (fun _ e' => Received (single source splits) e e')
      fun _ e' => ∃ done : List FteSplit, (∀ split ∈ done, split ∈ splits) ∧
        Received (single source done) e e' := by
  unfold appendUpdateSplits
  rw [ensures_get_bind, ensures_raiseIf_bind]
  refine ⟨fun _ => ⟨[], by simp, ?_⟩, fun _ => ?_⟩
  . rw [single_nil]
    exact (SameTask.refl e).received h
  have htouch := received_touchSource h source
  rw [ensures_modify_bind]
  apply (ensures_receiveEach htouch.tidy source _).mono
  . rintro _ e' ⟨splits', hsplits, hreceived⟩
    have heq : splits = splits' := by
      rw [← filterMap_toOption_map_ok (ε := PyError) splits, hsplits, filterMap_toOption_map_ok]
    have hall := htouch.trans hreceived
    simp only [List.nil_append] at hall
    rw [heq]
    exact hall
  . rintro _ e' ⟨done, ⟨rest, hrest⟩, hreceived⟩
    refine ⟨done, ?_, ?_⟩
    . intro split hsplit
      rw [← filterMap_toOption_map_ok (ε := PyError) splits, ← hrest, List.filterMap_append,
        filterMap_toOption_map_ok]
      exact List.mem_append_left _ hsplit
    . have hall := htouch.trans hreceived
      simp only [List.nil_append] at hall
      exact hall

theorem splitsIn_cons (entry : String × List FteSplit) (entries : List (String × List FteSplit)) :
    splitsIn (entry :: entries) = fun s => single entry.1 entry.2 s ++ splitsIn entries s := by
  funext s
  unfold splitsIn single
  by_cases hs : s = entry.1
  . rw [List.filter_cons_of_pos (by simp [hs]), if_pos hs, List.flatMap_cons]
  . rw [List.filter_cons_of_neg (by simpa using Ne.symm hs), if_neg hs, List.nil_append]

theorem ensures_appendEachSource (h : e.Tidy) (entries : List (String × List FteSplit))
    (changed : Bool) :
    (appendEachSource entries changed).Ensures e
      (fun _ e' => Received (splitsIn entries) e e')
      fun _ e' => ∃ done : String → List FteSplit,
        (∀ s, ∀ split ∈ done s, split ∈ splitsIn entries s) ∧ Received done e e' := by
  induction entries generalizing e changed with
  | nil => exact (SameTask.refl e).received h
  | cons entry entries ih =>
    rw [appendEachSource, ensures_bind, splitsIn_cons]
    apply (ensures_appendUpdateSplits h entry.1 entry.2).mono
    . intro added e₁ hfirst
      refine (ih hfirst.tidy (added || changed)).mono (fun _ e' hrest => hfirst.trans hrest) ?_
      rintro _ e' ⟨done, hdone, hrest⟩
      refine ⟨_, ?_, hfirst.trans hrest⟩
      intro s split hsplit
      rcases List.mem_append.mp hsplit with hsplit | hsplit
      . exact List.mem_append_left _ hsplit
      . exact List.mem_append_right _ (hdone s split hsplit)
    . rintro _ e' ⟨done, hdone, hfirst⟩
      refine ⟨_, ?_, hfirst⟩
      intro s split hsplit
      apply List.mem_append_left
      unfold single at *
      split
      . next hs =>
        rw [if_pos hs] at hsplit
        exact hdone split hsplit
      . next hs =>
        rw [if_neg hs] at hsplit
        cases hsplit

theorem ensures_sealEachSource (sources : List String) (changed : Bool)
    :
    (sealEachSource sources changed).Ensures e (fun _ e' => Sealed sources.toFinset e e') E := by
  induction sources generalizing e changed with
  | nil => exact ⟨rfl, rfl, by simp, rfl⟩
  | cons source sources ih =>
    rw [sealEachSource]
    refine (ensures_sealSource source).bind ?_ fun _ _ h => h
    intro marked e₁ hfirst
    refine (ih (marked || changed)).mono ?_ fun _ _ h => h
    intro _ e' hrest
    refine ⟨hrest.initialSplits.trans hfirst.initialSplits,
      hrest.seenSequences.trans hfirst.seenSequences, ?_,
      hrest.outputBuffers.trans hfirst.outputBuffers⟩
    rw [hrest.noMoreSplitSources, hfirst.noMoreSplitSources, List.toFinset_cons,
      Finset.insert_eq, Finset.union_assoc]

theorem ensures_mergeOutputBuffers (update : FteTaskUpdateRequest) :
    (mergeOutputBuffers update).Ensures e
      (fun _ e' =>
        OutputBuffers.after e.outputBuffers update.outputBuffers = .ok e'.outputBuffers ∧
        e' = { e with outputBuffers := e'.outputBuffers })
      fun _ e' => e' = e := by
  unfold mergeOutputBuffers
  cases update.outputBuffers with
  | none => exact ⟨rfl, rfl⟩
  | some buffers =>
    dsimp only [OutputBuffers.after]
    rw [ensures_get_bind, ensures_lift_bind]
    refine ⟨?_, fun _ _ => rfl⟩
    intro merged hmerged
    rw [hmerged]
    cases merged with
    | none => exact ⟨rfl, rfl⟩
    | some merged => exact ⟨rfl, rfl⟩

def updateContent (update : FteTaskUpdateRequest) : Content where
  splits := fun source => update.initialSplits.findD source []
  complete := update.noMoreSplits.toFinset
  outputBuffers := update.outputBuffers

theorem ensures_updateTask (h : e.Tidy) (update : FteTaskUpdateRequest) :
    (updateTask update).Ensures e (fun _ e' => Accepted (updateContent update) e e')
      fun _ e' => Attempted (updateContent update) e e' := by
  refine ensures_requireLive ?_ fun _ => attempted_same h (SameTask.refl e)
  rw [ensures_get_bind, ensures_raiseIf_bind]
  refine ⟨fun _ => attempted_same h (SameTask.refl e), fun _ => ?_⟩
  rw [ensures_modify_bind]
  have hstored : SameTask e (storeFields update e) := ⟨rfl, rfl, rfl, rfl⟩
  refine (ensures_addDynamicSources .scanTask update.dynamicScanSourceNodeIds).bind ?_
    fun _ e' hsame => attempted_same h (hstored.trans hsame)
  intro scan e₁ hscan
  refine (ensures_addDynamicSources .exchangeSourceTask update.dynamicExchangeSourceNodeIds).bind ?_
    fun _ e' hsame => attempted_same h ((hstored.trans hscan).trans hsame)
  intro exchange e₂ hexchange
  have hsame := (hstored.trans hscan).trans hexchange
  rw [ensures_bind]
  apply (ensures_appendEachSource (hsame.tidy h) update.initialSplits.entries _).mono
  . intro appended e₃ happended
    refine (ensures_sealEachSource (update.noMoreSplits.sortBy id) appended).bind ?_ fun _ _ h => h
    intro marked e₄ hsealed
    have htidy : e₄.Tidy := by
      unfold Tidy
      rw [hsealed.seenSequences, hsealed.initialSplits]
      exact happended.tidy
    have hsplits : ∀ s, e₄.splitsOf s = (e.splitsOf s).appendNew FteSplit.sequenceId
        ((updateContent update).splits s) := by
      intro s
      have hentries := Dict.flatMap_filter_entries update.initialSplits s
      unfold FteTaskExecution.splitsOf
      rw [hsealed.initialSplits]
      refine (happended.splitsOf s).trans ?_
      rw [hsame.splitsOf, splitsIn, hentries]
      rfl
    have hmarked : e₄.noMoreSplitSources =
        e.noMoreSplitSources ∪ (updateContent update).complete := by
      rw [hsealed.noMoreSplitSources, happended.noMoreSplitSources, hsame.noMoreSplitSources]
      congr 1
      ext s
      simp [updateContent, List.mem_sortBy]
    have hbuffers : e₄.outputBuffers = e.outputBuffers :=
      (hsealed.outputBuffers.trans happended.outputBuffers).trans hsame.outputBuffers
    rw [ensures_bind]
    apply (ensures_mergeOutputBuffers update).mono
    . rintro buffers e₅ ⟨hafter, heq⟩
      have haccepted : ∀ e', SameTask e₅ e' → Accepted (updateContent update) e e' := by
        intro e' hlast
        have hsplits₅ : e₅.initialSplits = e₄.initialSplits := by rw [heq]
        have hseen₅ : e₅.seenSequences = e₄.seenSequences := by rw [heq]
        have hmarked₅ : e₅.noMoreSplitSources = e₄.noMoreSplitSources := by rw [heq]
        refine ⟨?_, ?_, ?_, ?_⟩
        . unfold Tidy
          rw [hlast.seenSequences, hlast.initialSplits, hseen₅, hsplits₅]
          exact htidy
        . intro s
          rw [← hsplits s, hlast.splitsOf]
          unfold FteTaskExecution.splitsOf
          rw [hsplits₅]
        . rw [hlast.noMoreSplitSources, hmarked₅, hmarked]
        . rw [hlast.outputBuffers, ← hafter, hbuffers]
          rfl
      rw [ensures_bind]
      unfold mergeDynamicFilters
      rw [ensures_get_bind, ensures_modify_bind, Py.ensures_pure, ensures_ite]
      exact ⟨fun _ => haccepted _ ⟨rfl, rfl, rfl, rfl⟩, fun _ => haccepted _ ⟨rfl, rfl, rfl, rfl⟩⟩
    . rintro _ e' rfl
      refine ⟨htidy, fun s => ⟨_, fun _ h => h, hsplits s⟩, ?_, ?_, hbuffers⟩
      . rw [hmarked]
        exact Finset.subset_union_left
      . rw [hmarked]
  . rintro _ e' ⟨done, hdone, hreceived⟩
    refine ⟨hreceived.tidy, fun s => ⟨done s, ?_, ?_⟩, ?_, ?_, ?_⟩
    . intro split hsplit
      have hmem := hdone s split hsplit
      rw [splitsIn, Dict.flatMap_filter_entries] at hmem
      exact hmem
    . rw [hreceived.splitsOf, hsame.splitsOf]
    . rw [hreceived.noMoreSplitSources, hsame.noMoreSplitSources]
    . rw [hreceived.noMoreSplitSources, hsame.noMoreSplitSources]
      exact Finset.subset_union_left
    . rw [hreceived.outputBuffers, hsame.outputBuffers]

end FteTaskExecution

end Vane
