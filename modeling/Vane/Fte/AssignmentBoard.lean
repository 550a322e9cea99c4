import Vane.Fte.SplitAssignerLemmas

/-!
This module contains the abstract arbitrary split assigner, without the sizes of its partitions.
-/

namespace Vane

open List (append_nil mem_append mem_flatMap mem_map mem_range mem_singleton nodup_range)
open Function (update update_of_ne)

open PartitionUpdate AssignmentResult

@[ext]
structure Board where
  next : ℕ
  full : ℕ → Prop
  slot : NodeRequirements → Option ℕ
  partitioned : List String
  replicated : List String
  completed : Finset String
  replay : String → List FteSplit

namespace Board

variable {b : Board} {m m' : AssignmentResult} {ins : String → List FteSplit}

def ReplicatedDone (b : Board) : Prop := ∀ r ∈ b.replicated, r ∈ b.completed

def closing (p : ℕ) (sources : List String) : List PartitionUpdate :=
  sources.map fun s => { partitionId := p, sourceNodeId := s, noMoreSplits := true }

def replaying (b : Board) (p : ℕ) : List PartitionUpdate :=
  b.replicated.map fun r => {
    partitionId := p
    sourceNodeId := r
    splits := b.replay r
    noMoreSplits := decide (r ∈ b.completed) }

section Emission

variable {p q : ℕ} {s r : String} {sources : List String}

@[simp]
theorem splitsOf_closing : splitsOf s (closing p sources) = [] :=
  splitsOf_map_eq_nil fun _ _ _ => rfl

@[simp]
theorem splitsTo_closing : splitsTo q s (closing p sources) = [] :=
  splitsTo_map_eq_nil fun _ _ _ _ => rfl

@[simp]
theorem told_closing : Told q s (closing p sources) ↔ q = p ∧ s ∈ sources := by
  unfold closing
  rw [told_map]
  constructor
  . rintro ⟨x, hx, rfl, rfl, -⟩
    exact ⟨rfl, hx⟩
  . rintro ⟨rfl, hs⟩
    exact ⟨s, hs, rfl, rfl, rfl⟩

theorem partitionId_of_mem_closing {u : PartitionUpdate} (hu : u ∈ closing p sources) :
    u.partitionId = p := by
  obtain ⟨_, _, rfl⟩ := mem_map.mp hu
  rfl

theorem partitionId_of_mem_replaying {u : PartitionUpdate} (hu : u ∈ b.replaying p) :
    u.partitionId = p := by
  obtain ⟨_, _, rfl⟩ := mem_map.mp hu
  rfl

theorem splitsOf_replaying (hs : s ∉ b.replicated) : splitsOf s (b.replaying p) = [] := by
  apply splitsOf_map_eq_nil
  rintro r hr rfl
  exact absurd hr hs

theorem splitsTo_replaying_of_ne (hq : q ≠ p) : splitsTo q s (b.replaying p) = [] := by
  apply splitsTo_map_eq_nil
  rintro r - rfl
  exact absurd rfl hq

theorem splitsTo_replaying (hr : r ∈ b.replicated) (hnodup : b.replicated.Nodup) :
    splitsTo p r (b.replaying p) = b.replay r := by
  refine splitsTo_map_of_mem hr ?_ ?_ hnodup ?_
  . rfl
  . rfl
  . intro s _ _ hs
    exact hs

theorem told_replaying : Told q s (b.replaying p) ↔ q = p ∧ s ∈ b.replicated ∧ s ∈ b.completed := by
  unfold replaying
  rw [told_map]
  constructor
  . rintro ⟨r, hr, rfl, rfl, hc⟩
    exact ⟨rfl, hr, of_decide_eq_true hc⟩
  . rintro ⟨rfl, hr, hc⟩
    exact ⟨s, hr, rfl, rfl, decide_eq_true hc⟩

theorem ordered_replaying (hnodup : b.replicated.Nodup) : Ordered q s (b.replaying p) := by
  apply ordered_map_of_only (x := s) hnodup
  intro r _ _ hs
  exact hs

end Emission

/--
What the results `m` say so far: a partition has been closed for the partitioned sources exactly
if it is full, it has seen all that the replicated sources have sent, and it is sealed once it is
full and the replicated sources are complete.
-/
structure Inv (b : Board) (m : AssignmentResult) (ins : String → List FteSplit) : Prop where
  added : m.partitionsAdded.map (·.partitionId) = List.range b.next
  updates_lt : ∀ u ∈ m.partitionUpdates, u.partitionId < b.next
  full_lt : ∀ p, b.full p → p < b.next
  slot_iff : ∀ p, (∃ req, b.slot req = some p) ↔ p < b.next ∧ ¬b.full p
  slot_inj : ∀ req req' p, b.slot req = some p → b.slot req' = some p → req = req'
  partitioned : ∀ s ∈ b.partitioned, splitsOf s m.partitionUpdates = ins s
  replay : ∀ r ∈ b.replicated, b.replay r = ins r
  replicated : ∀ r ∈ b.replicated, ∀ p < b.next, splitsTo p r m.partitionUpdates = ins r
  told_partitioned : ∀ s ∈ b.partitioned, ∀ p < b.next,
    (Told p s m.partitionUpdates ↔ b.full p)
  told_replicated : ∀ r ∈ b.replicated, ∀ p < b.next,
    (Told p r m.partitionUpdates ↔ r ∈ b.completed)
  ordered : ∀ p s, Ordered p s m.partitionUpdates
  seals : ∀ p, p ∈ m.sealedPartitions ↔ b.full p ∧ b.ReplicatedDone
  disjoint : ∀ s ∈ b.partitioned, s ∉ b.replicated
  nodup : b.replicated.Nodup

section Steps

variable {req : NodeRequirements} {p : ℕ} {s : String}

def close (b : Board) (req : NodeRequirements) (p : ℕ) : Board :=
  { b with
    full := fun q => q = p ∨ b.full q
    slot := fun req' => if req' = req then none else b.slot req' }

theorem Inv.close (h : Inv b m ins) (hopen : b.slot req = some p) {seals : List ℕ}
    (hseals : ∀ q, q ∈ seals ↔ q = p ∧ b.ReplicatedDone)
    (hm : Emits m m' [] (closing p b.partitioned) seals) : Inv (b.close req p) m' ins := by
  obtain ⟨hlt, hfull⟩ := (h.slot_iff p).mp ⟨req, hopen⟩
  constructor
  case added =>
    rw [hm.added, append_nil]
    exact h.added
  case updates_lt =>
    intro u hu
    rw [hm.updates] at hu
    rcases mem_append.mp hu with hu | hu
    . exact h.updates_lt u hu
    . rw [partitionId_of_mem_closing hu]
      exact hlt
  case full_lt =>
    rintro q (rfl | hq)
    . exact hlt
    . exact h.full_lt q hq
  case slot_iff =>
    intro q
    constructor
    . rintro ⟨req', hq⟩
      simp only [Board.close] at hq
      split at hq
      . cases hq
      . next hne =>
        obtain ⟨hqlt, hq'⟩ := (h.slot_iff q).mp ⟨req', hq⟩
        refine ⟨hqlt, ?_⟩
        rintro (rfl | hqf)
        . exact hne (h.slot_inj _ _ _ hq hopen)
        . exact hq' hqf
    . rintro ⟨hqlt, hq⟩
      obtain ⟨req', hq'⟩ := (h.slot_iff q).mpr ⟨hqlt, fun hqf => hq (.inr hqf)⟩
      refine ⟨req', ?_⟩
      simp only [Board.close]
      rw [if_neg]
      . exact hq'
      . rintro rfl
        rw [hopen] at hq'
        cases hq'
        exact hq (.inl rfl)
  case slot_inj =>
    intro req' req'' q h' h''
    simp only [Board.close] at h' h''
    split at h'
    . cases h'
    . split at h''
      . cases h''
      . exact h.slot_inj _ _ _ h' h''
  case partitioned =>
    intro s hs
    simp [hm.updates, h.partitioned s hs]
  case replay => exact h.replay
  case replicated =>
    intro r hr q hq
    simp [hm.updates, h.replicated r hr q hq]
  case told_partitioned =>
    intro s hs q hq
    have hs : s ∈ b.partitioned := hs
    rw [hm.updates, told_append, h.told_partitioned s hs q hq, told_closing, and_iff_left hs]
    exact or_comm
  case told_replicated =>
    intro r hr q hq
    have hr' : r ∉ b.partitioned := fun hp => h.disjoint r hp hr
    rw [hm.updates, told_append, h.told_replicated r hr q hq, told_closing]
    simp [hr', Board.close]
  case ordered =>
    intro q s
    rw [hm.updates]
    exact ordered_append (h.ordered q s) (ordered_of_splitsTo_eq_nil splitsTo_closing)
      fun _ => splitsTo_closing
  case seals =>
    intro q
    rw [hm.seals, h.seals, hseals, ← or_and_right, or_comm]
    rfl
  case disjoint => exact h.disjoint
  case nodup => exact h.nodup

def openNext (b : Board) (req : NodeRequirements) : Board :=
  { b with
    next := b.next + 1
    slot := fun req' => if req' = req then some b.next else b.slot req' }

section

variable (h : Inv b m ins)

include h

theorem Inv.splitsTo_next : splitsTo b.next s m.partitionUpdates = [] := by
  apply splitsTo_of_forall_ne
  intro u hu hp
  have := h.updates_lt u hu
  omega

theorem Inv.not_told_next : ¬Told b.next s m.partitionUpdates := by
  rintro ⟨u, hu, hp, -⟩
  have := h.updates_lt u hu
  omega

theorem Inv.openNext (hfree : b.slot req = none) {info : PartitionInfo}
    (hinfo : info.partitionId = b.next)
    (hm : Emits m m' [info] (b.replaying b.next) []) : Inv (b.openNext req) m' ins := by
  have hnotfull : ¬b.full b.next := fun hf => absurd (h.full_lt _ hf) (lt_irrefl _)
  constructor
  case added =>
    rw [hm.added, List.map_append, h.added, List.map_singleton, hinfo]
    exact List.range_succ.symm
  case updates_lt =>
    intro u hu
    rw [hm.updates] at hu
    rcases mem_append.mp hu with hu | hu
    . exact Nat.lt_succ_of_lt (h.updates_lt u hu)
    . rw [partitionId_of_mem_replaying hu]
      exact Nat.lt_succ_self _
  case full_lt =>
    intro q hq
    exact Nat.lt_succ_of_lt (h.full_lt q hq)
  case slot_iff =>
    intro q
    constructor
    . rintro ⟨req', hq⟩
      simp only [Board.openNext] at hq
      split at hq
      . cases hq
        exact ⟨Nat.lt_succ_self _, hnotfull⟩
      . obtain ⟨hlt, hf⟩ := (h.slot_iff q).mp ⟨req', hq⟩
        exact ⟨Nat.lt_succ_of_lt hlt, hf⟩
    . rintro ⟨hlt, hf⟩
      rcases Nat.lt_succ_iff_lt_or_eq.mp hlt with hlt | rfl
      . obtain ⟨req', hq⟩ := (h.slot_iff q).mpr ⟨hlt, hf⟩
        refine ⟨req', ?_⟩
        simp only [Board.openNext]
        rw [if_neg]
        . exact hq
        . rintro rfl
          rw [hfree] at hq
          cases hq
      . exact ⟨req, if_pos rfl⟩
  case slot_inj =>
    have hnew : ∀ req', b.slot req' ≠ some b.next :=
      fun req' hreq' => absurd ((h.slot_iff _).mp ⟨req', hreq'⟩).1 (lt_irrefl _)
    intro req' req'' q h' h''
    simp only [Board.openNext] at h' h''
    split at h'
    . next heq =>
      split at h''
      . next heq' => rw [heq, heq']
      . cases h'
        exact absurd h'' (hnew _)
    . split at h''
      . cases h''
        exact absurd h' (hnew _)
      . exact h.slot_inj _ _ _ h' h''
  case partitioned =>
    intro s hs
    rw [hm.updates, splitsOf_append, h.partitioned s hs, splitsOf_replaying (h.disjoint s hs),
      append_nil]
  case replay => exact h.replay
  case replicated =>
    intro r hr q hq
    have hr : r ∈ b.replicated := hr
    rw [hm.updates, splitsTo_append]
    rcases Nat.lt_succ_iff_lt_or_eq.mp hq with hq | rfl
    . rw [h.replicated r hr q hq, splitsTo_replaying_of_ne (by omega), append_nil]
    . rw [h.splitsTo_next, splitsTo_replaying hr h.nodup, h.replay r hr, List.nil_append]
  case told_partitioned =>
    intro s hs q hq
    have hs' : s ∉ b.replicated := h.disjoint s hs
    rw [hm.updates, told_append, told_replaying]
    simp only [hs', false_and, and_false, or_false]
    rcases Nat.lt_succ_iff_lt_or_eq.mp hq with hq | rfl
    . exact h.told_partitioned s hs q hq
    . exact iff_of_false h.not_told_next hnotfull
  case told_replicated =>
    intro r hr q hq
    have hr : r ∈ b.replicated := hr
    rw [hm.updates, told_append, told_replaying]
    rcases Nat.lt_succ_iff_lt_or_eq.mp hq with hq | rfl
    . have hne : q ≠ b.next := by omega
      rw [h.told_replicated r hr q hq]
      simp [hne, Board.openNext]
    . simp [h.not_told_next, hr, Board.openNext]
  case ordered =>
    intro q s
    rw [hm.updates]
    apply ordered_append (h.ordered q s) (ordered_replaying h.nodup)
    rintro ⟨u, hu, rfl, -⟩
    exact splitsTo_replaying_of_ne (by have := h.updates_lt u hu; omega)
  case seals =>
    intro q
    rw [hm.seals, h.seals]
    simp only [List.not_mem_nil, or_false]
    rfl
  case disjoint => exact h.disjoint
  case nodup => exact h.nodup

theorem Inv.place (hs : s ∈ b.partitioned) (hopen : b.slot req = some p)
    {split : FteSplit} {u : PartitionUpdate} (hup : u.partitionId = p)
    (hus : u.sourceNodeId = s) (husplits : u.splits = [split]) (humore : u.noMoreSplits = false)
    (hm : Emits m m' [] [u] []) : Inv b m' (update ins s (ins s ++ [split])) := by
  obtain ⟨hlt, hfull⟩ := (h.slot_iff p).mp ⟨req, hopen⟩
  have hrs : ∀ r ∈ b.replicated, r ≠ s := by
    rintro r hr rfl
    exact h.disjoint r hs hr
  have htold : ∀ q t, ¬Told q t [u] := by
    rintro q t ⟨v, hv, -, -, hmore⟩
    rw [mem_singleton] at hv
    subst hv
    rw [humore] at hmore
    cases hmore
  have hother : ∀ q t, t ≠ s → splitsTo q t [u] = [] := by
    intro q t ht
    apply splitsTo_of_forall_ne
    intro v hv _ hvt
    rw [mem_singleton] at hv
    subst hv
    exact ht (hvt.symm.trans hus)
  constructor
  case added =>
    rw [hm.added, append_nil]
    exact h.added
  case updates_lt =>
    intro v hv
    rw [hm.updates] at hv
    rcases mem_append.mp hv with hv | hv
    . exact h.updates_lt v hv
    . rw [mem_singleton] at hv
      subst hv
      rw [hup]
      exact hlt
  case full_lt => exact h.full_lt
  case slot_iff => exact h.slot_iff
  case slot_inj => exact h.slot_inj
  case partitioned =>
    intro t ht
    rw [hm.updates, splitsOf_append, h.partitioned t ht]
    by_cases hts : t = s
    . subst hts
      simp [splitsOf, hus, husplits]
    . have : s ≠ t := fun hst => hts hst.symm
      simp [splitsOf, hus, hts, this]
  case replay =>
    intro r hr
    rw [update_of_ne (hrs r hr)]
    exact h.replay r hr
  case replicated =>
    intro r hr q hq
    rw [hm.updates, splitsTo_append, h.replicated r hr q hq, hother q r (hrs r hr),
      append_nil, update_of_ne (hrs r hr)]
  case told_partitioned =>
    intro t ht q hq
    rw [hm.updates, told_append, h.told_partitioned t ht q hq, or_iff_left (htold q t)]
  case told_replicated =>
    intro r hr q hq
    rw [hm.updates, told_append, h.told_replicated r hr q hq, or_iff_left (htold q r)]
  case ordered =>
    intro q t
    rw [hm.updates]
    apply ordered_append (h.ordered q t)
    . exact ordered_singleton
    . intro htold'
      by_cases hts : t = s
      . -- the receiver is open, so it has not been closed for the source
        subst hts
        apply splitsTo_of_forall_ne
        intro v hv hvq
        rw [mem_singleton] at hv
        subst hv
        rw [← hvq, hup] at htold'
        exact absurd ((h.told_partitioned t hs p hlt).mp htold') hfull
      . exact hother q t hts
  case seals =>
    intro q
    rw [hm.seals, h.seals]
    simp
  case disjoint => exact h.disjoint
  case nodup => exact h.nodup

theorem Inv.complete (hs : s ∈ b.partitioned) :
    Inv { b with completed := insert s b.completed } m ins := by
  have hne : ∀ r ∈ b.replicated, r ≠ s := by
    rintro r hr rfl
    exact h.disjoint r hs hr
  have hmem : ∀ r ∈ b.replicated, (r ∈ insert s b.completed ↔ r ∈ b.completed) := by
    intro r hr
    simp [hne r hr]
  have hdone : ReplicatedDone { b with completed := insert s b.completed } ↔ b.ReplicatedDone :=
    forall₂_congr hmem
  refine { h with told_replicated := ?_, seals := ?_ }
  . intro r hr q hq
    rw [h.told_replicated r hr q hq]
    exact (hmem r hr).symm
  . intro q
    rw [h.seals, hdone]

end

theorem Inv.replicate {r : String} (h : Inv b m ins) (hr : r ∈ b.replicated)
    {splits : List FteSplit} {noMore : Bool} (hdone : r ∈ b.completed → splits = [])
    {b' : Board} (hb : b' = { b with
      completed := if noMore = true then insert r b.completed else b.completed
      replay := update b.replay r (b.replay r ++ splits) })
    {seals : List ℕ} (hm : Emits m m' [] (sending r splits noMore (List.range b.next)) seals)
    (hseals : ∀ p, p ∈ m'.sealedPartitions ↔ b.full p ∧ b'.ReplicatedDone) :
    Inv b' m' (update ins r (ins r ++ splits)) := by
  subst hb
  have hne : ∀ s ∈ b.partitioned, s ≠ r := by
    rintro s hs rfl
    exact h.disjoint s hs hr
  constructor
  case added =>
    rw [hm.added, append_nil]
    exact h.added
  case updates_lt =>
    intro u hu
    rw [hm.updates] at hu
    rcases mem_append.mp hu with hu | hu
    . exact h.updates_lt u hu
    . obtain ⟨p, hp, rfl⟩ := mem_map.mp hu
      exact mem_range.mp hp
  case full_lt => exact h.full_lt
  case slot_iff => exact h.slot_iff
  case slot_inj => exact h.slot_inj
  case partitioned =>
    intro s hs
    rw [hm.updates, splitsOf_append, h.partitioned s hs, splitsOf_sending (hne s hs),
      append_nil, update_of_ne (hne s hs)]
  case replay =>
    intro q hq
    by_cases hqr : q = r
    . subst hqr
      simp [h.replay q hq]
    . simp only [update_of_ne hqr]
      exact h.replay q hq
  case replicated =>
    intro q hq p hp
    rw [hm.updates, splitsTo_append, h.replicated q hq p hp]
    by_cases hqr : q = r
    . subst hqr
      rw [splitsTo_sending (mem_range.mpr hp) nodup_range, Function.update_self]
    . rw [splitsTo_sending_of_ne hqr, update_of_ne hqr, append_nil]
  case told_partitioned =>
    intro s hs p hp
    rw [hm.updates, told_append, h.told_partitioned s hs p hp, told_sending]
    simp [hne s hs]
  case told_replicated =>
    intro q hq p hp
    rw [hm.updates, told_append, h.told_replicated q hq p hp, told_sending]
    have hp : p ∈ List.range b.next := mem_range.mpr hp
    by_cases hqr : q = r
    . subst hqr
      cases noMore <;> simp [hp]
    . cases noMore <;> simp [hqr]
  case ordered =>
    intro p s
    rw [hm.updates]
    apply ordered_append (h.ordered p s) (ordered_sending nodup_range)
    intro htold
    by_cases hsr : s = r
    . subst hsr
      obtain ⟨u, hu, hup, -⟩ := id htold
      have hp : p < b.next := by
        rw [← hup]
        exact h.updates_lt u hu
      rw [splitsTo_sending (mem_range.mpr hp) nodup_range]
      exact hdone ((h.told_replicated s hr p hp).mp htold)
    . exact splitsTo_sending_of_ne hsr
  case seals => exact hseals
  case disjoint => exact h.disjoint
  case nodup => exact h.nodup

end Steps

structure Done (partitioned replicated : List String) (m : AssignmentResult)
    (ins : String → List FteSplit) (n : ℕ) : Prop where
  added : m.partitionsAdded.map (·.partitionId) = List.range n
  updates_lt : ∀ u ∈ m.partitionUpdates, u.partitionId < n
  placed : ∀ s ∈ partitioned, splitsOf s m.partitionUpdates = ins s
  sent : ∀ r ∈ replicated, ∀ p < n, splitsTo p r m.partitionUpdates = ins r
  told : ∀ s ∈ partitioned ++ replicated, ∀ p < n, Told p s m.partitionUpdates
  ordered : ∀ p s, Ordered p s m.partitionUpdates
  seals : ∀ p, p ∈ m.sealedPartitions ↔ p < n

theorem splitsTo_flatMap_closing {opens : List ℕ} {sources : List String} {p : ℕ} {s : String} :
    splitsTo p s (opens.flatMap fun q => closing q sources) = [] := by
  rw [splitsTo_eq_nil_iff]
  intro u hu _ _
  obtain ⟨q, _, hu⟩ := mem_flatMap.mp hu
  obtain ⟨_, _, rfl⟩ := mem_map.mp hu
  rfl

theorem Inv.finish (h : Inv b m ins) (hall : ∀ s ∈ b.replicated, s ∈ b.completed)
    {opens : List ℕ} (hopens : ∀ p, p ∈ opens ↔ p < b.next ∧ ¬b.full p)
    (hm : Emits m m' [] (opens.flatMap fun p => closing p b.partitioned) opens) :
    Done b.partitioned b.replicated m' ins b.next := by
  have hsplitsOf : ∀ s, splitsOf s (opens.flatMap fun p => closing p b.partitioned) = [] := by
    intro s
    unfold splitsOf
    rw [List.flatMap_eq_nil_iff]
    intro u hu
    obtain ⟨q, _, hu⟩ := mem_flatMap.mp (List.mem_of_mem_filter hu)
    obtain ⟨_, _, rfl⟩ := mem_map.mp hu
    rfl
  constructor
  case added =>
    rw [hm.added, append_nil]
    exact h.added
  case updates_lt =>
    intro u hu
    rw [hm.updates] at hu
    rcases mem_append.mp hu with hu | hu
    . exact h.updates_lt u hu
    . obtain ⟨q, hq, hu⟩ := mem_flatMap.mp hu
      rw [partitionId_of_mem_closing hu]
      exact ((hopens q).mp hq).1
  case placed =>
    intro s hs
    rw [hm.updates, splitsOf_append, h.partitioned s hs, hsplitsOf, append_nil]
  case sent =>
    intro r hr p hp
    rw [hm.updates, splitsTo_append, h.replicated r hr p hp, splitsTo_flatMap_closing, append_nil]
  case told =>
    intro s hs p hp
    rw [hm.updates, told_append]
    rcases mem_append.mp hs with hs | hs
    . by_cases hfull : b.full p
      . exact .inl ((h.told_partitioned s hs p hp).mpr hfull)
      . right
        obtain ⟨u, hu, htold⟩ := told_closing.mpr ⟨rfl, hs⟩
        exact ⟨u, mem_flatMap.mpr ⟨p, (hopens p).mpr ⟨hp, hfull⟩, hu⟩, htold⟩
    . exact .inl ((h.told_replicated s hs p hp).mpr (hall s hs))
  case ordered =>
    intro p s
    rw [hm.updates]
    exact ordered_append (h.ordered p s) (ordered_of_splitsTo_eq_nil splitsTo_flatMap_closing)
      fun _ => splitsTo_flatMap_closing
  case seals =>
    intro p
    rw [hm.seals, h.seals, hopens]
    constructor
    . rintro (⟨hfull, -⟩ | ⟨hp, -⟩)
      . exact h.full_lt p hfull
      . exact hp
    . intro hp
      by_cases hfull : b.full p
      . exact .inl ⟨hfull, hall⟩
      . exact .inr ⟨hp, hfull⟩

end Board

end Vane
