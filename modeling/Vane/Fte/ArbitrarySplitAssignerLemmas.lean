import Vane.Fte.ArbitrarySplitAssigner
import Vane.Fte.AssignmentBoard

/-!
This module contains the verification that the arbitrary split assigner assigns every split exactly
once.
-/

namespace Vane

open Except (ok_of_bind)
open PartitionUpdate AssignmentResult
open Function (update update_of_ne update_self)
open AssignCall (inputsOf inputsOf_cons_self mergedResult)

namespace ArbitrarySplitAssigner

open Board (closing)

variable {a : ArbitrarySplitAssigner} {m m' r : AssignmentResult} {ins : String → List FteSplit}

def Full (a : ArbitrarySplitAssigner) (p : ℕ) : Prop :=
  ∃ assignment ∈ a.allAssignments, assignment.partitionId = p ∧ assignment.full = true

def board (a : ArbitrarySplitAssigner) : Board where
  next := a.nextPartitionId
  full := a.Full
  slot := a.openAssignments.find?
  partitioned := a.partitionedSources
  replicated := a.replicatedSources
  completed := a.completedSources
  replay := fun r => a.replicatedSplits.findD r []

structure Inv (a : ArbitrarySplitAssigner) (m : AssignmentResult)
    (ins : String → List FteSplit) : Prop where
  ids : a.allAssignments.map (·.partitionId) = List.range a.nextPartitionId
  no_more_replicated : a.noMoreReplicatedSplits = true → a.Completed a.replicatedSources
  board : a.board.Inv m ins

section

variable {p q : ℕ} {req : NodeRequirements}

@[simp]
theorem board_growTargetIfNeeded : a.growTargetIfNeeded.board = a.board := by
  unfold growTargetIfNeeded
  split <;> rfl

theorem map_partitionId_modify {f : PartitionAssignment → PartitionAssignment}
    (hf : ∀ x, (f x).partitionId = x.partitionId)
    : (a.modifyAssignment p f).allAssignments.map (·.partitionId) =
        a.allAssignments.map (·.partitionId) := by
  unfold modifyAssignment
  rw [List.map_map]
  apply List.map_congr_left
  intro x _
  simp only [Function.comp_apply]
  split
  . exact hf x
  . rfl

theorem full_modify_full (hp : p ∈ a.allAssignments.map (·.partitionId))
    : (a.modifyAssignment p fun x => { x with full := true }).Full q ↔ q = p ∨ a.Full q := by
  unfold Full modifyAssignment
  simp only [List.mem_map, exists_exists_and_eq_and]
  constructor
  . rintro ⟨x, hx, hq, hfull⟩
    split at hq
    . next h =>
      rw [← hq, h]
      exact .inl rfl
    . next h =>
      rw [if_neg h] at hfull
      exact .inr ⟨x, hx, hq, hfull⟩
  . rintro (rfl | ⟨x, hx, hq, hfull⟩)
    . obtain ⟨x, hx, hxq⟩ := List.mem_map.mp hp
      exact ⟨x, hx, by simp [hxq], by simp [hxq]⟩
    . refine ⟨x, hx, ?_, ?_⟩
      . split
        . exact hq
        . exact hq
      . split
        . rfl
        . exact hfull

theorem full_modify_assignSplit {size : ℤ} :
    (a.modifyAssignment p (·.assignSplit size)).Full q ↔ a.Full q := by
  unfold Full modifyAssignment PartitionAssignment.assignSplit
  simp only [List.mem_map, exists_exists_and_eq_and]
  constructor
  . rintro ⟨x, hx, hq, hfull⟩
    refine ⟨x, hx, ?_, ?_⟩
    . split at hq <;> exact hq
    . split at hfull <;> exact hfull
  . rintro ⟨x, hx, hq, hfull⟩
    refine ⟨x, hx, ?_, ?_⟩
    . split <;> exact hq
    . split <;> exact hfull

theorem full_openAssignment : (a.openAssignment req r).1.Full q ↔ a.Full q := by
  simp [Full, openAssignment, newAssignment, or_and_right, exists_or]

theorem Inv.mem_ids (h : Inv a m ins) :
    p ∈ a.allAssignments.map (·.partitionId) ↔ p < a.nextPartitionId := by
  rw [h.ids, List.mem_range]

theorem Inv.slot_eq_none (h : Inv a m ins)
    (hfind : a.findAssignment req = none) : a.board.slot req = none := by
  cases hreq : a.openAssignments.find? req with
  | none => exact hreq
  | some p =>
    exfalso
    obtain ⟨x, hx, hxp⟩ := List.mem_map.mp (h.mem_ids.mpr ((h.board.slot_iff p).mp ⟨req, hreq⟩).1)
    unfold findAssignment at hfind
    rw [hreq, Option.bind_some, List.find?_eq_none] at hfind
    exact hfind x hx (by simpa using hxp)

theorem slot_eq_some {x : PartitionAssignment}
    (hfind : a.findAssignment req = some x) : a.board.slot req = some x.partitionId := by
  obtain ⟨p, hp, hx⟩ := Option.bind_eq_some_iff.mp hfind
  have := List.find?_some hx
  simp only [decide_eq_true_eq] at this
  rw [this]
  exact hp

end

section

variable (a) (p : ℕ) (req : NodeRequirements) (r : AssignmentResult)

theorem emits_noMorePartitionedSplits :
    Emits r (a.noMorePartitionedSplits p r) [] (closing p a.partitionedSources) [] :=
  emits_foldl_map _ (fun r s _ => emits_appendUpdate r p s [] true false (.inl rfl)) r

theorem emits_closeAssignment
    : Emits r (a.closeAssignment req p r).2 [] (closing p a.partitionedSources)
        (if a.Completed a.replicatedSources then [p] else []) := by
  have h := emits_noMorePartitionedSplits a p r
  unfold closeAssignment
  simp only
  split
  . simpa using h.trans (emits_appendSeal _ p)
  . exact h

theorem emits_openAssignment
    : Emits r (a.openAssignment req r).2 [⟨a.nextPartitionId, some req⟩]
        (a.board.replaying a.nextPartitionId) [] := by
  have hnew : Emits r (a.newAssignment req r).2 [⟨a.nextPartitionId, some req⟩] [] [] := by
    constructor <;> simp [newAssignment]
  have h := emits_foldl_map a.replicatedSources
    (fun r s _ => emits_appendUpdate r a.nextPartitionId s (a.replicatedSplits.findD s [])
      (decide (s ∈ a.completedSources)) true (.inr rfl)) (a.newAssignment req r).2
  exact hnew.trans h

end

structure SameSources (a a' : ArbitrarySplitAssigner) : Prop where
  partitioned : a'.partitionedSources = a.partitionedSources
  replicated : a'.replicatedSources = a.replicatedSources
  completed : a'.completedSources = a.completedSources
  catalog : a'.catalogRequirement = a.catalogRequirement
  sequences : a'.sourceSequences = a.sourceSequences
  finished : a'.finished = a.finished

theorem SameSources.refl (a : ArbitrarySplitAssigner) : SameSources a a :=
  ⟨rfl, rfl, rfl, rfl, rfl, rfl⟩

theorem SameSources.trans {a a' a'' : ArbitrarySplitAssigner} (h : SameSources a a')
    (h' : SameSources a' a'') : SameSources a a'' :=
  ⟨h'.partitioned.trans h.partitioned, h'.replicated.trans h.replicated,
    h'.completed.trans h.completed, h'.catalog.trans h.catalog, h'.sequences.trans h.sequences,
    h'.finished.trans h.finished⟩

theorem sameSources_growTargetIfNeeded (a : ArbitrarySplitAssigner) :
    SameSources a a.growTargetIfNeeded := by
  unfold growTargetIfNeeded
  split <;> exact ⟨rfl, rfl, rfl, rfl, rfl, rfl⟩

theorem Inv.growTargetIfNeeded (h : Inv a m ins) : Inv a.growTargetIfNeeded m ins := by
  constructor
  . unfold ArbitrarySplitAssigner.growTargetIfNeeded
    split <;> exact h.ids
  . unfold ArbitrarySplitAssigner.growTargetIfNeeded
    split <;> exact h.no_more_replicated
  . rw [board_growTargetIfNeeded]
    exact h.board

section

variable {p : ℕ} {req : NodeRequirements}

section

variable (h : Inv a (m.merge r) ins)

include h

theorem Inv.closeAssignment (hopen : a.board.slot req = some p)
    : Inv (a.closeAssignment req p r).1 (m.merge (a.closeAssignment req p r).2) ins ∧
        SameSources a (a.closeAssignment req p r).1 ∧
        (a.closeAssignment req p r).1.board.slot req = none := by
  have hids := h.mem_ids.mpr ((h.board.slot_iff p).mp ⟨req, hopen⟩).1
  let a' := { a.modifyAssignment p fun x => { x with full := true } with
    openAssignments := a.openAssignments.erase req }
  have hboard : a'.board = a.board.close req p := by
    apply Board.ext
    case full =>
      funext q
      exact propext (full_modify_full hids)
    case slot =>
      funext req'
      exact Dict.find?_erase _ _ _
    all_goals rfl
  have hinv : Inv a' (m.merge (a.closeAssignment req p r).2) ins := by
    constructor
    . exact (map_partitionId_modify (f := fun x => { x with full := true }) fun _ => rfl).trans h.ids
    . exact h.no_more_replicated
    . rw [hboard]
      apply h.board.close hopen _ ((emits_closeAssignment a p req r).merge m)
      intro q
      show _ ↔ q = p ∧ a.Completed a.replicatedSources
      split
      . next hc => simp [hc]
      . next hc => simp [hc]
  refine ⟨hinv.growTargetIfNeeded, ?_, ?_⟩
  . have hsame : SameSources a a' := ⟨rfl, rfl, rfl, rfl, rfl, rfl⟩
    exact hsame.trans (sameSources_growTargetIfNeeded a')
  . show a'.growTargetIfNeeded.board.slot req = none
    rw [board_growTargetIfNeeded, hboard]
    exact if_pos rfl

theorem Inv.openAssignment (hfree : a.board.slot req = none)
    : Inv (a.openAssignment req r).1 (m.merge (a.openAssignment req r).2) ins ∧
        SameSources a (a.openAssignment req r).1 ∧
        (a.openAssignment req r).1.board.slot req = some a.nextPartitionId := by
  have hboard : (a.openAssignment req r).1.board = a.board.openNext req := by
    apply Board.ext
    case full =>
      funext q
      exact propext full_openAssignment
    case slot =>
      funext req'
      exact Dict.find?_insert _ _ _ _
    all_goals rfl
  refine ⟨⟨?_, h.no_more_replicated, ?_⟩, ⟨rfl, rfl, rfl, rfl, rfl, rfl⟩, ?_⟩
  . simp only [ArbitrarySplitAssigner.openAssignment, newAssignment, List.map_append, h.ids,
      List.map_singleton]
    exact List.range_succ.symm
  . rw [hboard]
    exact h.board.openNext hfree rfl ((emits_openAssignment a req r).merge m)
  . rw [hboard]
    exact if_pos rfl

theorem Inv.roomFor (req : NodeRequirements) (size : ℤ)
    : Inv (a.roomFor req size r).2.1 (m.merge (a.roomFor req size r).2.2) ins ∧
        SameSources a (a.roomFor req size r).2.1 ∧
        (a.roomFor req size r).2.1.board.slot req = some (a.roomFor req size r).1 := by
  unfold ArbitrarySplitAssigner.roomFor
  split
  . next hnone => exact h.openAssignment (h.slot_eq_none hnone)
  . next x hsome =>
    split
    . obtain ⟨hclosed, hsame, hfree⟩ := h.closeAssignment (slot_eq_some hsome)
      obtain ⟨hopened, hsame', hslot⟩ := hclosed.openAssignment hfree
      exact ⟨hopened, hsame.trans hsame', hslot⟩
    . exact ⟨h, SameSources.refl a, slot_eq_some hsome⟩

end

theorem board_modify_assignSplit {size : ℤ} :
    (a.modifyAssignment p (·.assignSplit size)).board = a.board := by
  apply Board.ext
  case full =>
    funext q
    exact propext full_modify_assignSplit
  all_goals rfl

variable {s : String}

theorem Inv.placeSplit (h : Inv a (m.merge r) ins) (hs : s ∈ a.partitionedSources)
    (split : FteSplit) (req : NodeRequirements)
    : Inv (a.placeSplit s split req r).1 (m.merge (a.placeSplit s split req r).2)
          (update ins s (ins s ++ [split])) ∧
        SameSources a (a.placeSplit s split req r).1 := by
  obtain ⟨hroom, hsame, hslot⟩ := h.roomFor req (splitSizeBytes split a.standardSplitSizeBytes)
  constructor
  . constructor
    . exact (map_partitionId_modify (f := (·.assignSplit _)) fun _ => rfl).trans hroom.ids
    . exact hroom.no_more_replicated
    . have hboard : (a.placeSplit s split req r).1.board =
          (a.roomFor req (splitSizeBytes split a.standardSplitSizeBytes) r).2.1.board :=
        board_modify_assignSplit
      rw [hboard]
      rw [← hsame.partitioned] at hs
      exact hroom.board.place hs hslot rfl rfl rfl rfl ((emits_appendSplit _ _ s split).merge m)
  . exact hsame.trans ⟨rfl, rfl, rfl, rfl, rfl, rfl⟩

def Accepts (catalogRequirement : Option String) (split : FteSplit) : Prop :=
  (catalogRequirement = none ∨ split.catalog = none ∨ split.catalog = catalogRequirement) ∧
    (split.addresses ≠ [] ∨ split.remotelyAccessible = true)

instance (catalogRequirement : Option String) (split : FteSplit) :
    Decidable (Accepts catalogRequirement split) :=
  inferInstanceAs (Decidable (_ ∧ _))

theorem nodeRequirements_eq_ok {split : FteSplit} (h : Accepts a.catalogRequirement split) :
    ∃ req, a.nodeRequirements split = .ok req := by
  obtain ⟨hcatalog, hhost⟩ := h
  unfold nodeRequirements
  rw [Except.raiseIf_of_not, Except.bind_ok]
  dsimp only
  rw [Except.raiseIf_of_not, Except.bind_ok]
  . exact ⟨_, rfl⟩
  . rintro ⟨hnone, hremote⟩
    rcases hhost with haddr | hremote'
    . obtain ⟨x, hx⟩ := List.minBy?_isSome a.rank haddr
      rw [hx] at hnone
      cases hnone
    . rw [hremote'] at hremote
      cases hremote
  . rintro ⟨h₁, h₂, h₃⟩
    rcases hcatalog with h | h | h
    . exact h₁ h
    . exact h₂ h
    . exact h₃ h

theorem Inv.placeSplits {splits : List FteSplit} (h : Inv a (m.merge r) ins)
    (hs : s ∈ a.partitionedSources)
    (haccepts : ∀ split ∈ splits, Accepts a.catalogRequirement split)
    : ∃ r' a', placeSplits s splits r a = (.ok r', a') ∧
        Inv a' (m.merge r') (update ins s (ins s ++ splits)) ∧ SameSources a a' := by
  induction splits generalizing a r ins with
  | nil =>
    refine ⟨r, a, rfl, ?_, SameSources.refl a⟩
    rw [List.append_nil, Function.update_eq_self]
    exact h
  | cons split splits ih =>
    obtain ⟨req, hreq⟩ := nodeRequirements_eq_ok (haccepts split (by simp))
    obtain ⟨hplaced, hsame⟩ := h.placeSplit hs split req
    obtain ⟨r', a', hrun, hinv, hsame'⟩ := ih hplaced
      (by rw [hsame.partitioned]; exact hs)
      (by rw [hsame.catalog]; exact fun x hx => haccepts x (by simp [hx]))
    refine ⟨r', a', ?_, ?_, hsame.trans hsame'⟩
    . simp only [ArbitrarySplitAssigner.placeSplits, Py.bind_apply, Py.get_apply, Py.lift_apply,
        hreq, Py.set_apply]
      exact hrun
    . simpa using hinv

section

variable (splits : List FteSplit) (noMore : Bool)

theorem board_recordReplicatedSplits (s : String)
    : (a.recordReplicatedSplits s splits noMore).board = { a.board with
        completed := if noMore = true then insert s a.completedSources else a.completedSources
        replay := update a.board.replay s (a.board.replay s ++ splits) } := by
  have hreplay : (fun r => (a.replicatedSplits.update s [] (· ++ splits)).findD r []) =
      update a.board.replay s (a.board.replay s ++ splits) := by
    funext r
    unfold Dict.update
    by_cases hr : r = s
    . subst hr
      simp [Dict.findD, board]
    . rw [update_of_ne hr]
      simp [Dict.findD, Dict.find?_insert_of_ne _ _ hr, board]
  apply Board.ext
  case replay => exact hreplay
  all_goals rfl

theorem recordReplicatedSplits_flag (s : String)
    (h : a.noMoreReplicatedSplits = true → a.Completed a.replicatedSources)
    : let a' := a.recordReplicatedSplits s splits noMore
      (a'.noMoreReplicatedSplits = true → a'.Completed a'.replicatedSources) ∧
      (a'.Completed a'.replicatedSources →
        a'.noMoreReplicatedSplits = true ∨ a.Completed a.replicatedSources) := by
  unfold recordReplicatedSplits Completed
  cases noMore with
  | false =>
    simp only [Bool.false_and, Bool.or_false, Bool.false_eq_true, if_false]
    exact ⟨h, fun hc => .inr hc⟩
  | true =>
    simp only [Bool.true_and, Bool.or_eq_true, decide_eq_true_eq, if_true]
    refine ⟨?_, fun hc => .inl (.inr hc)⟩
    rintro (hflag | hc)
    . intro r hr
      exact Finset.mem_insert_of_mem (h hflag r hr)
    . exact hc

theorem emits_replicateSplits (s : String) {n : ℕ}
    (hids : a.allAssignments.map (·.partitionId) = List.range n)
    : ∃ seals, Emits {} (a.replicateSplits s splits noMore).2 []
          (sending s splits noMore (List.range n)) seals ∧
        ∀ p, p ∈ seals ↔
          (a.recordReplicatedSplits s splits noMore).noMoreReplicatedSplits = true ∧ a.Full p := by
  have hsend := emits_foldl_map a.allAssignments
    (fun r x _ => emits_appendUpdate r x.partitionId s splits noMore true (.inr rfl)) {}
  have hmap : (a.allAssignments.map fun x => ({
      partitionId := x.partitionId
      sourceNodeId := s
      splits
      noMoreSplits := noMore } : PartitionUpdate)) = sending s splits noMore (List.range n) := by
    unfold sending
    rw [← hids, List.map_map]
    rfl
  rw [hmap] at hsend
  unfold replicateSplits
  dsimp only
  split
  . next hflag =>
    have hseal : ∀ (r : AssignmentResult), ∀ x ∈ a.allAssignments,
        Emits r (if x.full then r.appendSeal x.partitionId else r) [] []
          (if x.full then [x.partitionId] else []) := by
      intro r x _
      split
      . exact emits_appendSeal r _
      . exact Emits.refl r
    have hboth := hsend.trans (emits_foldl_seals a.allAssignments hseal _)
    rw [List.append_nil, List.append_nil, List.nil_append] at hboth
    refine ⟨_, hboth, fun p => ?_⟩
    simp only [List.mem_flatMap, true_and, Full, hflag]
    constructor
    . rintro ⟨x, hx, hp⟩
      split at hp
      . next hfull => exact ⟨x, hx, (List.mem_singleton.mp hp).symm, hfull⟩
      . cases hp
    . rintro ⟨x, hx, rfl, hfull⟩
      exact ⟨x, hx, by simp [hfull]⟩
  . next hflag =>
    refine ⟨[], hsend, fun p => ?_⟩
    simp [hflag]

theorem Inv.replicateSplits (h : Inv a m ins) (hs : s ∈ a.replicatedSources)
    (hdone : s ∈ a.completedSources → splits = [])
    : Inv (a.replicateSplits s splits noMore).1 (m.merge (a.replicateSplits s splits noMore).2)
        (update ins s (ins s ++ splits)) := by
  obtain ⟨seals, hemits, hseals⟩ := emits_replicateSplits splits noMore s h.ids
  obtain ⟨hflag, hflag'⟩ := recordReplicatedSplits_flag splits noMore s h.no_more_replicated
  have hm := hemits.merge m
  rw [merge_empty] at hm
  refine ⟨h.ids, hflag, ?_⟩
  apply h.board.replicate hs hdone (board_recordReplicatedSplits splits noMore s) hm
  intro p
  rw [hm.seals, h.board.seals, hseals]
  constructor
  . rintro (⟨hfull, hd⟩ | ⟨hf, hfull⟩)
    . refine ⟨hfull, fun r hr => ?_⟩
      rw [board_recordReplicatedSplits]
      split
      . exact Finset.mem_insert_of_mem (hd r hr)
      . exact hd r hr
    . exact ⟨hfull, hflag hf⟩
  . rintro ⟨hfull, hd⟩
    rcases hflag' hd with hf | hd'
    . exact .inr ⟨hf, hfull⟩
    . exact .inl ⟨hfull, hd'⟩

end

theorem emits_closing_opens (a : ArbitrarySplitAssigner) (opens : List ℕ) (r : AssignmentResult)
    : Emits r
        (opens.foldl (fun r p => (a.noMorePartitionedSplits p r).appendSeal p) r) []
        (opens.flatMap fun p => closing p a.partitionedSources) opens := by
  have hbody : ∀ (r : AssignmentResult), ∀ p ∈ opens,
      Emits r ((a.noMorePartitionedSplits p r).appendSeal p) []
        (closing p a.partitionedSources) [p] := by
    intro r p _
    simpa using (emits_noMorePartitionedSplits a p r).trans (emits_appendSeal _ p)
  simpa using emits_foldl opens hbody r

theorem finish_of_not_completed (h : ¬a.Completed a.allSources) :
    a.finishIfAllSourcesCompleted = (a, {}) := by
  unfold finishIfAllSourcesCompleted
  rw [if_pos (.inr h)]

theorem Inv.finish_of_assignments (h : Inv a m ins) (hsome : a.allAssignments ≠ [])
    (hne : a.allSources ≠ []) (hall : a.Completed a.allSources)
    : Board.Done a.partitionedSources a.replicatedSources
          (m.merge a.finishIfAllSourcesCompleted.2) ins a.nextPartitionId ∧
        a.finishIfAllSourcesCompleted.1.finished = true := by
  unfold finishIfAllSourcesCompleted
  rw [if_neg (by simp [hne, hall]), if_neg hsome]
  refine ⟨?_, rfl⟩
  have hm := (emits_closing_opens a a.openAssignments.values {}).merge m
  rw [merge_empty] at hm
  refine h.board.finish ?_ ?_ ⟨hm.added, hm.updates, hm.seals⟩
  . intro r hr
    exact hall r (List.mem_append_right _ hr)
  . intro p
    exact Dict.mem_values_iff.trans (h.board.slot_iff p)

theorem Inv.finish_of_none (h : Inv a m ins) (hnone : a.allAssignments = [])
    (hne : a.allSources ≠ []) (hall : a.Completed a.allSources)
    : Board.Done a.partitionedSources a.replicatedSources
          (m.merge a.finishIfAllSourcesCompleted.2) ins 1 ∧
        a.finishIfAllSourcesCompleted.1.finished = true := by
  have hnext : a.nextPartitionId = 0 := by
    have hids := h.ids
    rw [hnone] at hids
    exact List.range_eq_nil.mp hids.symm
  let req : NodeRequirements := { catalog := a.catalogRequirement }
  have hdone : ∀ r ∈ a.replicatedSources, r ∈ a.completedSources :=
    fun r hr => hall r (List.mem_append_right _ hr)
  have hfree : a.board.slot req = none := by
    cases hslot : a.board.slot req with
    | none => rfl
    | some p =>
      have hp : p < a.nextPartitionId := ((h.board.slot_iff p).mp ⟨req, hslot⟩).1
      omega
  let first : AssignmentResult := { partitionsAdded := [⟨0, some req⟩] }
  let replayed := a.replicatedSources.foldl
    (fun r s => r.appendUpdate 0 s (a.replicatedSplits.findD s []) true false) first
  -- the partition is opened with a replay and closed at once
  have hreplay : Emits {} replayed [⟨0, some req⟩] (a.board.replaying a.board.next) [] := by
    have hfirst : Emits {} first [⟨0, some req⟩] [] [] := by
      constructor <;> simp [first]
    have hrest := emits_foldl_map a.replicatedSources
      (fun r s _ => emits_appendUpdate r 0 s (a.replicatedSplits.findD s []) true false
        (.inl rfl)) first
    have hmap : a.board.replaying a.board.next = a.replicatedSources.map fun r => {
        partitionId := 0
        sourceNodeId := r
        splits := a.replicatedSplits.findD r []
        noMoreSplits := true } := by
      apply List.map_congr_left
      intro r hr
      simp only [PartitionUpdate.mk.injEq]
      exact ⟨hnext, trivial, rfl, decide_eq_true (hdone r hr), trivial⟩
    rw [hmap]
    exact hfirst.trans hrest
  have hreplay' := hreplay.merge m
  rw [merge_empty] at hreplay'
  have hopened := h.board.openNext hfree hnext.symm hreplay'
  have hclose := (emits_closing_opens a [0] replayed).merge m
  have hdone' : Board.Done a.partitionedSources a.replicatedSources
      (m.merge ((a.noMorePartitionedSplits 0 replayed).appendSeal 0)) ins (a.nextPartitionId + 1) := by
    refine hopened.finish hdone ?_ hclose
    intro p
    have hfull : ¬a.board.full p := fun hf => by
      have hp : p < a.nextPartitionId := h.board.full_lt p hf
      omega
    show p ∈ [0] ↔ p < a.nextPartitionId + 1 ∧ ¬a.board.full p
    simp only [hnext, hfull, not_false_iff, and_true, List.mem_singleton]
    omega
  rw [hnext] at hdone'
  unfold finishIfAllSourcesCompleted
  rw [if_neg (by simp [hne, hall]), if_pos hnone]
  refine ⟨?_, rfl⟩
  exact ⟨hdone'.added, hdone'.updates_lt, hdone'.placed, hdone'.sent, hdone'.told, hdone'.ordered,
    hdone'.seals⟩

end

section

variable {s : String} {splits : List FteSplit}

def After (a : ArbitrarySplitAssigner) (m : AssignmentResult) (ins : String → List FteSplit) :
    Prop :=
  (¬a.Completed a.allSources ∧ a.finished = false ∧ Inv a m ins) ∨
  (a.Completed a.allSources ∧ a.finished = true ∧
    ∃ n, Board.Done a.partitionedSources a.replicatedSources m ins n)

theorem finish_sources (a : ArbitrarySplitAssigner)
    : let a' := a.finishIfAllSourcesCompleted.1
      a'.partitionedSources = a.partitionedSources ∧ a'.replicatedSources = a.replicatedSources ∧
      a'.completedSources = a.completedSources ∧ a'.catalogRequirement = a.catalogRequirement ∧
      a'.sourceSequences = a.sourceSequences := by
  unfold finishIfAllSourcesCompleted
  split
  . exact ⟨rfl, rfl, rfl, rfl, rfl⟩
  . dsimp only
    split <;> exact ⟨rfl, rfl, rfl, rfl, rfl⟩

theorem Inv.after_finishMerged (h : Inv a (m.merge r) ins) (hfinished : a.finished = false)
    (hne : a.allSources ≠ [])
    : ∃ r' a', finishMerged r a = (.ok r', a') ∧ After a' (m.merge r') ins ∧
        a'.partitionedSources = a.partitionedSources ∧
        a'.replicatedSources = a.replicatedSources ∧
        a'.completedSources = a.completedSources ∧ a'.catalogRequirement = a.catalogRequirement ∧
        a'.sourceSequences = a.sourceSequences := by
  have hframe := finish_sources a
  refine ⟨r.merge a.finishIfAllSourcesCompleted.2, a.finishIfAllSourcesCompleted.1, rfl, ?_, hframe⟩
  rw [← merge_assoc]
  by_cases hall : a.Completed a.allSources
  . right
    have hall' : a.finishIfAllSourcesCompleted.1.Completed
        a.finishIfAllSourcesCompleted.1.allSources := by
      unfold Completed allSources
      rw [hframe.1, hframe.2.1, hframe.2.2.1]
      exact hall
    rw [hframe.1, hframe.2.1]
    by_cases hnone : a.allAssignments = []
    . obtain ⟨hdone, hfin⟩ := h.finish_of_none hnone hne hall
      exact ⟨hall', hfin, _, hdone⟩
    . obtain ⟨hdone, hfin⟩ := h.finish_of_assignments hnone hne hall
      exact ⟨hall', hfin, _, hdone⟩
  . left
    rw [finish_of_not_completed hall, merge_empty]
    exact ⟨hall, hfinished, h⟩

theorem assign_eq {inputs : List SplitPayload} {noMore : Bool} {next : ℕ}
    (hfinished : a.finished = false)
    (hsplits : splitsFromInputs s inputs (a.sourceSequences.findD s 0) = .ok (splits, next))
    : assign s inputs noMore a =
        (if s ∈ a.replicatedSources then assignReplicatedSplits s splits noMore
          else assignPartitionedSplits s splits noMore)
          { a with
            sourceSequences := a.sourceSequences.insert s next
            partitionedSources :=
              if a.allSources = [] then [s] else a.partitionedSources } := by
  unfold assign
  rw [Py.bind_apply, Py.get_apply]
  dsimp only
  rw [if_neg (by rw [hfinished]; simp), Py.bind_apply, Py.lift_apply, hsplits]
  dsimp only
  rw [Py.bind_apply, Py.set_apply]

theorem assign_spec {inputs : List SplitPayload} (noMore : Bool) {next : ℕ} (h : Inv a m ins)
    (hfinished : a.finished = false) (hs : s ∈ a.allSources)
    (hsplits : splitsFromInputs s inputs (a.sourceSequences.findD s 0) = .ok (splits, next))
    (haccepts : s ∈ a.partitionedSources → ∀ x ∈ splits, Accepts a.catalogRequirement x)
    (hdone : s ∈ a.completedSources → splits = [])
    : ∃ r a', assign s inputs noMore a = (.ok r, a') ∧
        After a' (m.merge r) (update ins s (ins s ++ splits)) ∧
        a'.partitionedSources = a.partitionedSources ∧
        a'.replicatedSources = a.replicatedSources ∧
        a'.completedSources =
          (if noMore = true then insert s a.completedSources else a.completedSources) ∧
        a'.catalogRequirement = a.catalogRequirement ∧
        a'.sourceSequences = a.sourceSequences.insert s next := by
  have hne : a.allSources ≠ [] := List.ne_nil_of_mem hs
  let a₁ := { a with sourceSequences := a.sourceSequences.insert s next }
  have h₁ : Inv a₁ m ins := ⟨h.ids, h.no_more_replicated, h.board⟩
  by_cases hr : s ∈ a.replicatedSources
  . have h₂ := h₁.replicateSplits splits noMore hr hdone
    obtain ⟨r, a', hrun, hafter, hp, hr', hc, hcat, hseq⟩ := h₂.after_finishMerged hfinished hne
    refine ⟨r, a', ?_, hafter, hp, hr', hc, hcat, hseq⟩
    rw [← hrun, assign_eq hfinished hsplits, if_pos hr, if_neg hne]
    rfl
  . have hs' : s ∈ a₁.partitionedSources := (List.mem_append.mp hs).resolve_right hr
    have h₁' : Inv a₁ (m.merge {}) ins := by
      rw [merge_empty]
      exact h₁
    obtain ⟨r, a₂, hplace, h₂, hsame⟩ := h₁'.placeSplits hs' (haccepts hs')
    let a₃ := if noMore = true then a₂.complete s else a₂
    have h₃ : Inv a₃ (m.merge r) (update ins s (ins s ++ splits)) := by
      unfold a₃
      split
      . rw [← hsame.partitioned] at hs'
        refine ⟨h₂.ids, fun hflag q hq => ?_, h₂.board.complete hs'⟩
        exact Finset.mem_insert_of_mem (h₂.no_more_replicated hflag q hq)
      . exact h₂
    have hsame' : a₃.partitionedSources = a.partitionedSources ∧
        a₃.replicatedSources = a.replicatedSources ∧
        a₃.completedSources =
          (if noMore = true then insert s a.completedSources else a.completedSources) ∧
        a₃.catalogRequirement = a.catalogRequirement ∧
        a₃.sourceSequences = a.sourceSequences.insert s next ∧ a₃.finished = a.finished := by
      unfold a₃
      split
      . refine ⟨hsame.partitioned, hsame.replicated, ?_, hsame.catalog, hsame.sequences,
          hsame.finished⟩
        exact congrArg (insert s) hsame.completed
      . exact ⟨hsame.partitioned, hsame.replicated, hsame.completed, hsame.catalog,
          hsame.sequences, hsame.finished⟩
    have hne₃ : a₃.allSources ≠ [] := by
      unfold allSources
      rw [hsame'.1, hsame'.2.1]
      exact hne
    obtain ⟨r', a', hrun, hafter, hp, hr', hc, hcat, hseq⟩ :=
      h₃.after_finishMerged (hsame'.2.2.2.2.2.trans hfinished) hne₃
    refine ⟨r', a', ?_, hafter, hp.trans hsame'.1, hr'.trans hsame'.2.1, hc.trans hsame'.2.2.1,
      hcat.trans hsame'.2.2.2.1, hseq.trans hsame'.2.2.2.2.1⟩
    rw [← hrun, assign_eq hfinished hsplits, if_neg hr, if_neg hne]
    unfold assignPartitionedSplits
    rw [Py.bind_apply, hplace]
    cases noMore <;> rfl

end

section

variable {calls : List AssignCall} {rest : String → List FteSplit}

def assignCall (call : AssignCall) : Py ArbitrarySplitAssigner AssignmentResult :=
  assign call.sourceNodeId call.inputs call.noMoreInputs

structure Remaining (a : ArbitrarySplitAssigner) (calls : List AssignCall)
    (rest : String → List FteSplit) : Prop where
  declared : ∀ call ∈ calls, call.sourceNodeId ∈ a.allSources
  inputs : ∀ s ∈ a.allSources, ∃ next,
    splitsFromInputs s (AssignCall.inputsOf s calls) (a.sourceSequences.findD s 0) =
      .ok (rest s, next)
  accepts : ∀ s ∈ a.partitionedSources, ∀ x ∈ rest s, Accepts a.catalogRequirement x
  started : ∀ call ∈ calls, call.sourceNodeId ∈ a.completedSources → call.inputs = []
  ordered : calls.Pairwise fun call later =>
    call.noMoreInputs = true → later.sourceNodeId = call.sourceNodeId → later.inputs = []
  complete : ∀ s ∈ a.allSources, s ∈ a.completedSources ∨
    ∃ call ∈ calls, call.sourceNodeId = s ∧ call.noMoreInputs = true

theorem Remaining.tail {call : AssignCall} {a' : ArbitrarySplitAssigner}
    (h : Remaining a (call :: calls) rest) (hp : a'.partitionedSources = a.partitionedSources)
    (hr : a'.replicatedSources = a.replicatedSources)
    (hc : a'.completedSources = if call.noMoreInputs = true
      then insert call.sourceNodeId a.completedSources else a.completedSources)
    (hcat : a'.catalogRequirement = a.catalogRequirement) {rest' : String → List FteSplit}
    (hinputs : ∀ s ∈ a.allSources, ∃ next,
      splitsFromInputs s (inputsOf s calls) (a'.sourceSequences.findD s 0) = .ok (rest' s, next))
    (hsub : ∀ s, ∀ x ∈ rest' s, x ∈ rest s) : Remaining a' calls rest' := by
  have hall : a'.allSources = a.allSources := by
    unfold allSources
    rw [hp, hr]
  have hordered := List.pairwise_cons.mp h.ordered
  constructor
  case declared =>
    intro c hc
    rw [hall]
    exact h.declared c (by simp [hc])
  case inputs =>
    rw [hall]
    exact hinputs
  case accepts =>
    rw [hp, hcat]
    intro s hs x hx
    exact h.accepts s hs x (hsub s x hx)
  case started =>
    intro c hcmem hcomp
    rw [hc] at hcomp
    split at hcomp
    . next hmore =>
      rcases Finset.mem_insert.mp hcomp with heq | hcomp
      . exact hordered.1 c hcmem hmore heq
      . exact h.started c (by simp [hcmem]) hcomp
    . exact h.started c (by simp [hcmem]) hcomp
  case ordered => exact hordered.2
  case complete =>
    rw [hall, hc]
    intro s hs
    rcases h.complete s hs with hcomp | ⟨c, hcmem, hcs, hmore⟩
    . left
      split
      . exact Finset.mem_insert_of_mem hcomp
      . exact hcomp
    . rcases List.mem_cons.mp hcmem with rfl | hcmem
      . left
        rw [if_pos hmore, hcs]
        exact Finset.mem_insert_self _ _
      . exact .inr ⟨c, hcmem, hcs, hmore⟩

theorem Done.congr {partitioned replicated : List String} {ins' : String → List FteSplit} {n : ℕ}
    (h : Board.Done partitioned replicated m ins n)
    (hins : ∀ s ∈ partitioned ++ replicated, ins s = ins' s) :
    Board.Done partitioned replicated m ins' n := by
  refine { h with placed := fun s hs => ?_, sent := fun r hr p hp => ?_ }
  . rw [h.placed s hs, hins s (by simp [hs])]
  . rw [h.sent r hr p hp, hins r (by simp [hr])]

theorem After.done (hafter : After a m ins) (h : Remaining a calls rest) (hne : a.allSources ≠ [])
    : ∃ n, Board.Done a.partitionedSources a.replicatedSources
        (mergedResult assignCall calls a m) (fun s => ins s ++ rest s) n := by
  induction calls generalizing a m ins rest with
  | nil =>
    rcases hafter with ⟨hnot, -⟩ | ⟨-, -, n, hdone⟩
    . exfalso
      apply hnot
      intro s hs
      simpa using h.complete s hs
    . refine ⟨n, Done.congr hdone fun s hs => ?_⟩
      obtain ⟨next, hrest⟩ := h.inputs s hs
      have hnil : rest s = [] := by
        rw [inputsOf] at hrest
        exact (congrArg Prod.fst (Except.ok.inj hrest)).symm
      rw [hnil, List.append_nil]
  | cons call calls ih =>
    rcases hafter with ⟨-, hrunning, hinv⟩ | ⟨hcomplete, hfinished, n, hdone⟩
    . -- the call takes its share of the splits of its source
      obtain ⟨last, hinputs⟩ := h.inputs call.sourceNodeId (h.declared call (by simp))
      rw [inputsOf_cons_self] at hinputs
      obtain ⟨splits, mid, splits', hsplits, hsplits', hrest⟩ :=
        splitsFromInputs_append_eq_ok hinputs
      obtain ⟨r, a', hrun, hafter, hp, hr, hc, hcat, hseq⟩ :=
        assign_spec call.noMoreInputs hinv hrunning (h.declared call (by simp)) hsplits
          (fun hs x hx => h.accepts _ hs x (by rw [hrest]; exact List.mem_append_left _ hx))
          (fun hcomp => by
            rw [h.started call (by simp) hcomp] at hsplits
            cases hsplits
            rfl)
      have hremaining : Remaining a' calls (update rest call.sourceNodeId splits') := by
        apply h.tail hp hr hc hcat
        . intro s hs
          rw [hseq]
          by_cases hcs : s = call.sourceNodeId
          . subst hcs
            rw [update_self, Dict.findD, Dict.find?_insert_self]
            exact ⟨last, hsplits'⟩
          . rw [update_of_ne hcs, Dict.findD, Dict.find?_insert_of_ne _ _ hcs]
            obtain ⟨next, hs'⟩ := h.inputs s hs
            rw [AssignCall.inputsOf_cons_of_ne (Ne.symm hcs)] at hs'
            exact ⟨next, hs'⟩
        . intro s x hx
          by_cases hcs : s = call.sourceNodeId
          . subst hcs
            rw [update_self] at hx
            rw [hrest]
            exact List.mem_append_right _ hx
          . rw [update_of_ne hcs] at hx
            exact hx
      have hne' : a'.allSources ≠ [] := by
        unfold allSources
        rw [hp, hr]
        exact hne
      obtain ⟨n, hdone⟩ := ih hafter hremaining hne'
      rw [hp, hr] at hdone
      refine ⟨n, ?_⟩
      have hmerged : mergedResult assignCall (call :: calls) a m =
          mergedResult assignCall calls a' (m.merge r) := by
        rw [mergedResult, assignCall, hrun]
      rw [hmerged]
      apply Done.congr hdone
      intro s _
      by_cases hcs : s = call.sourceNodeId
      . subst hcs
        rw [update_self, update_self, hrest, List.append_assoc]
      . rw [update_of_ne hcs, update_of_ne hcs]
    . -- everything is complete: the call has no splits, and it raises
      have hnil : call.inputs = [] :=
        h.started call (by simp) (hcomplete _ (h.declared call (by simp)))
      have hmerged : mergedResult assignCall (call :: calls) a m =
          mergedResult assignCall calls a m := by
        have hraise : assignCall call a =
            (.error (.runtimeError "cannot assign splits after finish"), a) := by
          unfold assignCall assign
          rw [Py.bind_apply, Py.get_apply]
          dsimp only
          rw [if_pos hfinished, Py.raise_apply]
        rw [mergedResult, hraise]
      rw [hmerged]
      apply ih (.inr ⟨hcomplete, hfinished, n, hdone⟩) _ hne
      constructor
      case declared => exact fun c hc => h.declared c (by simp [hc])
      case inputs =>
        intro s hs
        obtain ⟨next, hs'⟩ := h.inputs s hs
        refine ⟨next, ?_⟩
        rw [← hs']
        congr 1
        simp only [inputsOf, List.filter_cons]
        split
        . rw [List.flatMap_cons, hnil, List.nil_append]
        . rfl
      case accepts => exact h.accepts
      case started => exact fun c hc => h.started c (by simp [hc])
      case ordered => exact (List.pairwise_cons.mp h.ordered).2
      case complete => exact fun s hs => .inl (hcomplete s hs)

structure Fresh (a : ArbitrarySplitAssigner) (partitioned replicated : List String)
    (catalogRequirement : Option String) : Prop where
  partitioned : ∀ s, s ∈ a.partitionedSources ↔ s ∈ partitioned
  replicated : ∀ s, s ∈ a.replicatedSources ↔ s ∈ replicated
  nodup : a.replicatedSources.Nodup
  catalog : a.catalogRequirement = catalogRequirement
  sequences : a.sourceSequences = ∅
  completed : a.completedSources = ∅
  assignments : a.allAssignments = []
  opens : a.openAssignments = ∅
  next : a.nextPartitionId = 0
  replay : a.replicatedSplits = ∅
  flag : a.noMoreReplicatedSplits = false
  finished : a.finished = false

theorem new_eq_ok {config : Config} (h : new config = .ok a)
    : Fresh a config.partitionedSources config.replicatedSources config.catalogRequirement := by
  obtain ⟨_, -, h⟩ := ok_of_bind h
  obtain ⟨_, -, h⟩ := ok_of_bind h
  obtain ⟨_, -, h⟩ := ok_of_bind h
  obtain ⟨_, -, h⟩ := ok_of_bind h
  obtain ⟨_, -, h⟩ := ok_of_bind h
  obtain ⟨_, -, h⟩ := ok_of_bind h
  cases h
  constructor <;> first | rfl | simp [List.nodup_dedup]

variable {partitioned replicated : List String} {catalogRequirement : Option String}

section

variable (h : Fresh a partitioned replicated catalogRequirement)

include h

theorem Fresh.mem_allSources {s : String} : s ∈ a.allSources ↔ s ∈ partitioned ++ replicated := by
  unfold allSources
  rw [List.mem_append, List.mem_append, h.partitioned, h.replicated]

theorem Fresh.inv (hdisjoint : ∀ s ∈ partitioned, s ∉ replicated) : Inv a {} fun _ => [] := by
  have hfull : ∀ p, ¬a.Full p := by
    rintro p ⟨x, hx, -⟩
    rw [h.assignments] at hx
    cases hx
  refine ⟨by rw [h.assignments, h.next]; rfl, by simp [h.flag], ?_⟩
  constructor <;> simp [ArbitrarySplitAssigner.board, h.next, h.opens, h.replay, hfull, h.nodup,
    Dict.findD, h.partitioned, h.replicated]
  exact hdisjoint

theorem Fresh.done (hdisjoint : ∀ s ∈ partitioned, s ∉ replicated) {splits : String → List FteSplit}
    (hdeclared : ∀ call ∈ calls, call.sourceNodeId ∈ partitioned ++ replicated)
    (hinputs : ∀ s ∈ partitioned ++ replicated, ∃ next,
      splitsFromInputs s (inputsOf s calls) 0 = .ok (splits s, next))
    (haccepts : ∀ s ∈ partitioned, ∀ x ∈ splits s, Accepts catalogRequirement x)
    (hproper : calls.Pairwise fun call later =>
      call.noMoreInputs = true → later.sourceNodeId = call.sourceNodeId → later.inputs = [])
    (hcomplete : ∀ s ∈ partitioned ++ replicated,
      ∃ call ∈ calls, call.sourceNodeId = s ∧ call.noMoreInputs = true)
    (hne : partitioned ++ replicated ≠ [])
    : ∃ n, Board.Done partitioned replicated (mergedResult assignCall calls a {}) splits n := by
  obtain ⟨s, hs⟩ := List.exists_mem_of_ne_nil _ hne
  have hne' : a.allSources ≠ [] := List.ne_nil_of_mem (h.mem_allSources.mpr hs)
  have hafter : After a {} fun _ => [] := by
    refine .inl ⟨?_, h.finished, h.inv hdisjoint⟩
    intro hall
    have := hall s (h.mem_allSources.mpr hs)
    simp [h.completed] at this
  have hremaining : Remaining a calls splits := by
    constructor
    case declared => exact fun call hc => h.mem_allSources.mpr (hdeclared call hc)
    case inputs =>
      intro s hs
      rw [h.sequences]
      exact hinputs s (h.mem_allSources.mp hs)
    case accepts =>
      rw [h.catalog]
      exact fun s hs => haccepts s ((h.partitioned s).mp hs)
    case started => simp [h.completed]
    case ordered => exact hproper
    case complete => exact fun s hs => .inr (hcomplete s (h.mem_allSources.mp hs))
  obtain ⟨n, hdone⟩ := hafter.done hremaining hne'
  refine ⟨n, { hdone with placed := ?_, sent := ?_, told := ?_ }⟩
  . exact fun s hs => hdone.placed s ((h.partitioned s).mpr hs)
  . exact fun r hr => hdone.sent r ((h.replicated r).mpr hr)
  . exact fun s hs => hdone.told s (h.mem_allSources.mpr hs)

end

def Config.partitionedIn (config : Config) (calls : List AssignCall) : List String :=
  if config.partitionedSources = [] ∧ config.replicatedSources = [] then
    (calls.head?.map AssignCall.sourceNodeId).toList
  else
    config.partitionedSources

theorem assign_undeclared {s : String} {inputs : List SplitPayload} {noMore : Bool}
    {splits : List FteSplit} {next : ℕ} (hfinished : a.finished = false) (hall : a.allSources = [])
    (hsplits : splitsFromInputs s inputs (a.sourceSequences.findD s 0) = .ok (splits, next)) :
    assign s inputs noMore a = assign s inputs noMore { a with partitionedSources := [s] } := by
  let a' := { a with partitionedSources := [s] }
  have hne : ¬a'.allSources = [] := by simp [a', allSources]
  rw [assign_eq hfinished hsplits, if_pos hall]
  rw [assign_eq (a := a') hfinished hsplits, if_neg hne]

end

end ArbitrarySplitAssigner

end Vane
