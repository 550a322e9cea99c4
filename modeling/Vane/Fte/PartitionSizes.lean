import Vane.Fte.ArbitrarySplitAssignerLemmas

/-! This module contains the sizes to which the arbitrary split assigner fills its partitions. -/

namespace Vane

theorem floor_le_roundHalfEven (q : ℚ) : ⌊q⌋ ≤ roundHalfEven q := by
  unfold roundHalfEven
  dsimp only
  split_ifs <;> omega

theorem roundHalfEven_le_floor_add_one (q : ℚ) : roundHalfEven q ≤ ⌊q⌋ + 1 := by
  unfold roundHalfEven
  dsimp only
  split_ifs <;> omega

theorem roundHalfEven_mono {p q : ℚ} (h : p ≤ q) : roundHalfEven p ≤ roundHalfEven q := by
  rcases (Int.floor_le_floor h).lt_or_eq with hlt | heq
  . have hp := roundHalfEven_le_floor_add_one p
    have hq := floor_le_roundHalfEven q
    omega
  . unfold roundHalfEven
    dsimp only
    rw [heq]
    have hfract : p - (⌊q⌋ : ℚ) ≤ q - ⌊q⌋ := sub_le_sub_right h _
    split_ifs <;> first | omega | linarith

structure Filling where
  low : ℤ
  high : ℤ
  factor : ℚ
  target : ℤ
  rounded : ℤ
  next : ℕ
  assignments : List PartitionAssignment

structure Filling.Bounded (low high : ℤ) (f : Filling) : Prop where
  low_eq : f.low = low
  high_eq : f.high = high
  low_pos : 0 < low
  factor : 1 ≤ f.factor
  low_le : low ≤ f.target
  le_high : f.target ≤ high
  low_le_rounded : low ≤ f.rounded
  rounded_le : f.rounded ≤ high
  nodup : (f.assignments.map (·.partitionId)).Nodup
  lt_next : ∀ x ∈ f.assignments, x.partitionId < f.next
  sizes : ∀ x ∈ f.assignments, 1 < x.assignedSplitCount → x.assignedDataSizeBytes ≤ high

namespace ArbitrarySplitAssigner

open Filling (Bounded)

variable {a : ArbitrarySplitAssigner} {low high : ℤ} {p : ℕ} {size : ℤ} {r : AssignmentResult}

def filling (a : ArbitrarySplitAssigner) : Filling where
  low := a.minTargetPartitionSizeBytes
  high := a.maxTargetPartitionSizeBytes
  factor := a.adaptiveGrowthFactor
  target := a.targetPartitionSizeBytes
  rounded := a.roundedTargetPartitionSizeBytes
  next := a.nextPartitionId
  assignments := a.allAssignments

def Fits (high : ℤ) (a : ArbitrarySplitAssigner) (p : ℕ) (size : ℤ) : Prop :=
  ∀ x ∈ a.allAssignments, x.partitionId = p →
    x.assignedSplitCount = 0 ∨ x.assignedDataSizeBytes + size ≤ high

theorem bounded_growTargetIfNeeded (h : Bounded low high a.filling)
    (hround : roundHalfEven ((high : ℚ) / low) * low ≤ high) :
    Bounded low high a.growTargetIfNeeded.filling := by
  unfold growTargetIfNeeded
  split
  . exact h
  . have hlow := h.low_eq
    have hhigh := h.high_eq
    have hfactor := h.factor
    dsimp only [filling] at hlow hhigh hfactor
    have hle := h.low_le.trans h.le_high
    have hgrown : a.targetPartitionSizeBytes ≤
        ⌊(a.targetPartitionSizeBytes : ℚ) * a.adaptiveGrowthFactor + 999999 / 1000000⌋ := by
      have hpos : (0 : ℚ) ≤ a.targetPartitionSizeBytes := by
        exact_mod_cast h.low_pos.le.trans h.low_le
      rw [Int.le_floor]
      nlinarith
    refine { h with low_le := ?_, le_high := ?_, low_le_rounded := ?_, rounded_le := ?_ }
    . exact le_min (hhigh ▸ hle) (h.low_le.trans hgrown)
    . exact (min_le_left _ _).trans hhigh.le
    . exact hlow ▸ le_max_left _ _
    . rw [hlow, hhigh]
      apply max_le hle
      refine le_trans (mul_le_mul_of_nonneg_right (roundHalfEven_mono ?_) h.low_pos.le) hround
      apply div_le_div_of_nonneg_right (Int.cast_le.mpr (min_le_left _ _))
      exact_mod_cast h.low_pos.le

theorem bounded_modify (f : PartitionAssignment → PartitionAssignment)
    (hf : ∀ x, (f x).partitionId = x.partitionId) (h : Bounded low high a.filling)
    (hsizes : ∀ x ∈ a.allAssignments, x.partitionId = p → 1 < (f x).assignedSplitCount →
      (f x).assignedDataSizeBytes ≤ high) :
    Bounded low high (a.modifyAssignment p f).filling := by
  refine { h with nodup := ?_, lt_next := ?_, sizes := ?_ }
  . exact (map_partitionId_modify hf).symm ▸ h.nodup
  . intro x hx
    obtain ⟨y, hy, rfl⟩ := List.mem_map.mp hx
    have hlt := h.lt_next y hy
    split
    . rw [hf]
      exact hlt
    . exact hlt
  . intro x hx
    obtain ⟨y, hy, rfl⟩ := List.mem_map.mp hx
    split
    . next hp => exact hsizes y hy hp
    . exact h.sizes y hy

section

variable (h : Bounded low high a.filling)

include h

theorem bounded_openAssignment (req : NodeRequirements) :
    Bounded low high (a.openAssignment req r).1.filling ∧
      Fits high (a.openAssignment req r).1 a.nextPartitionId size := by
  have hnew : ∀ x ∈ a.allAssignments, x.partitionId ≠ a.nextPartitionId :=
    fun x hx => (h.lt_next x hx).ne
  constructor
  . refine { h with nodup := ?_, lt_next := ?_, sizes := ?_ }
    . show ((a.allAssignments ++ [({ partitionId := a.nextPartitionId } : PartitionAssignment)]).map
        (·.partitionId)).Nodup
      rw [List.map_append, List.map_singleton, List.nodup_append_comm, List.singleton_append,
        List.nodup_cons]
      exact ⟨by simpa using hnew, h.nodup⟩
    . refine List.forall_mem_append.mpr ⟨fun x hx => Nat.lt_succ_of_lt (h.lt_next x hx), ?_⟩
      exact List.forall_mem_singleton.mpr (Nat.lt_succ_self _)
    . exact List.forall_mem_append.mpr ⟨h.sizes, List.forall_mem_singleton.mpr (by simp)⟩
  . intro x hx hp
    rcases List.mem_append.mp hx with hx | hx
    . exact absurd hp (hnew x hx)
    . rw [List.mem_singleton.mp hx]
      exact .inl rfl

theorem bounded_roomFor
    (hround : roundHalfEven ((high : ℚ) / low) * low ≤ high) (req : NodeRequirements) (size : ℤ) :
    Bounded low high (a.roomFor req size r).2.1.filling ∧
      Fits high (a.roomFor req size r).2.1 (a.roomFor req size r).1 size := by
  unfold roomFor
  split
  . exact bounded_openAssignment h req
  . next x hfind =>
    split
    . apply bounded_openAssignment
      apply bounded_growTargetIfNeeded _ hround
      exact bounded_modify (fun x => { x with full := true }) (fun _ => rfl) h
        fun y hy _ => h.sizes y hy
    . next hroom =>
      refine ⟨h, fun y hy hp => .inr ?_⟩
      obtain ⟨q, -, hx⟩ := Option.bind_eq_some_iff.mp hfind
      rw [List.inj_on_of_nodup_map h.nodup hy (List.mem_of_find?_eq_some hx) hp]
      unfold overfills at hroom
      have hrounded := h.rounded_le
      dsimp only [filling] at hrounded
      simp only [gt_iff_lt, Bool.decide_or, Bool.or_eq_true, decide_eq_true_eq, not_or] at hroom
      omega

theorem bounded_placeSplit
    (hround : roundHalfEven ((high : ℚ) / low) * low ≤ high) (s : String) (split : FteSplit)
    (req : NodeRequirements) : Bounded low high (a.placeSplit s split req r).1.filling := by
  obtain ⟨hroom, hfits⟩ := bounded_roomFor (r := r) h hround req
    (splitSizeBytes split a.standardSplitSizeBytes)
  apply bounded_modify (·.assignSplit _) (fun _ => rfl) hroom
  intro x hx hp hcount
  unfold PartitionAssignment.assignSplit at hcount ⊢
  have := hfits x hx hp
  dsimp only at hcount ⊢
  omega

theorem bounded_finishIfAllSourcesCompleted :
    Bounded low high a.finishIfAllSourcesCompleted.1.filling := by
  unfold finishIfAllSourcesCompleted
  split
  . exact h
  . split
    . next heq =>
      split at heq
      . next hnil =>
        cases heq
        refine { h with nodup := ?_, lt_next := ?_, sizes := ?_ }
        . exact List.nodup_singleton _
        . exact List.forall_mem_singleton.mpr (lt_max_of_lt_right Nat.one_pos)
        . exact List.forall_mem_singleton.mpr (by simp)
      . cases heq
        exact h

end

section

open Py

variable (hround : roundHalfEven ((high : ℚ) / low) * low ≤ high)

theorem keeps_finishMerged (r : AssignmentResult) :
    (finishMerged r).Keeps fun a => Bounded low high a.filling :=
  fun _ h => bounded_finishIfAllSourcesCompleted h

theorem keeps_assignReplicatedSplits (s : String) (splits : List FteSplit) (noMore : Bool) :
    (assignReplicatedSplits s splits noMore).Keeps fun a => Bounded low high a.filling :=
  fun _ h => bounded_finishIfAllSourcesCompleted h

include hround

theorem keeps_placeSplits (s : String) (splits : List FteSplit) (r : AssignmentResult) :
    (placeSplits s splits r).Keeps fun a => Bounded low high a.filling := by
  induction splits generalizing r with
  | nil => exact keeps_pure r
  | cons split splits ih =>
    intro a h
    unfold placeSplits
    rw [Py.ensures_get_bind, Py.ensures_lift_bind]
    exact ⟨fun req _ => ih _ _ (bounded_placeSplit h hround s split req), fun _ _ => h⟩

theorem keeps_assignPartitionedSplits (s : String) (splits : List FteSplit) (noMore : Bool) :
    (assignPartitionedSplits s splits noMore).Keeps fun a => Bounded low high a.filling := by
  apply keeps_bind (keeps_placeSplits hround s splits {})
  intro r
  cases noMore with
  | false => exact keeps_finishMerged r
  | true => exact keeps_bind (keeps_modify fun _ h => h) fun _ => keeps_finishMerged r

theorem keeps_assignCall (call : AssignCall) :
    (assignCall call).Keeps fun a => Bounded low high a.filling := by
  intro a h
  unfold assignCall assign
  rw [Py.ensures_get_bind, ensures_ite]
  refine ⟨fun _ => h, fun _ => ?_⟩
  rw [Py.ensures_lift_bind]
  refine ⟨fun ⟨splits, next⟩ _ => ?_, fun _ _ => h⟩
  rw [ensures_bind, ensures_set, ensures_ite]
  constructor
  . exact fun _ => keeps_assignReplicatedSplits _ _ _ _ h
  . exact fun _ => keeps_assignPartitionedSplits hround _ _ _ _ h

end

theorem bounded_of_new {config : Config} (h : new config = .ok a) :
    Bounded a.minTargetPartitionSizeBytes a.maxTargetPartitionSizeBytes a.filling := by
  unfold new at h
  simp only [Except.bind_eq_ok_iff, Except.raiseIf_eq_ok_iff, exists_const, not_le, not_lt] at h
  obtain ⟨-, -, -, hfactor, hpos, hle, h⟩ := h
  cases h
  constructor <;> simp_all [filling]

theorem partition_sizes_are_bounded (config : Config) (a : ArbitrarySplitAssigner)
    (hnew : new config = .ok a)
    (hround : roundHalfEven ((a.maxTargetPartitionSizeBytes : ℚ) / a.minTargetPartitionSizeBytes) *
      a.minTargetPartitionSizeBytes ≤ a.maxTargetPartitionSizeBytes)
    (calls : List AssignCall) :
    let a' := Run.run (fun call a => (assignCall call a).2) calls a
    a.minTargetPartitionSizeBytes ≤ a'.targetPartitionSizeBytes ∧
      a'.targetPartitionSizeBytes ≤ a.maxTargetPartitionSizeBytes ∧
      a.minTargetPartitionSizeBytes ≤ a'.roundedTargetPartitionSizeBytes ∧
      a'.roundedTargetPartitionSizeBytes ≤ a.maxTargetPartitionSizeBytes ∧
      ∀ x ∈ a'.allAssignments, 1 < x.assignedSplitCount →
        x.assignedDataSizeBytes ≤ a.maxTargetPartitionSizeBytes := by
  have h : Bounded a.minTargetPartitionSizeBytes a.maxTargetPartitionSizeBytes
      (Run.run (fun call a => (assignCall call a).2) calls a).filling :=
    Run.run_invariant (fun a' => Bounded _ _ (filling a'))
      (fun call _ _ h => (keeps_assignCall hround call).state h) (bounded_of_new hnew)
  exact ⟨h.low_le, h.le_high, h.low_le_rounded, h.rounded_le, h.sizes⟩

def smallConfig (maxTarget : ℤ) : Config where
  partitionedSources := ["scan"]
  minTargetPartitionSizeBytes := some 10
  maxTargetPartitionSizeBytes := some maxTarget
  adaptiveGrowthPeriod := 1
  adaptiveGrowthFactor := 2

def tenBytes : SplitPayload := { kind := some "scan_task", sizeBytes := some 10 }

theorem partition_size_can_be_exceeded :
    ∃ a, new (smallConfig 16) = .ok a ∧
      ∃ x ∈ (assignCall ⟨"scan", [tenBytes, tenBytes, tenBytes], false⟩ a).2.allAssignments,
        1 < x.assignedSplitCount ∧ a.maxTargetPartitionSizeBytes < x.assignedDataSizeBytes := by
  refine ⟨_, rfl, ⟨1, 20, 2, false⟩, ?_⟩
  decide +kernel

theorem partition_sizes_are_bounded_of_multiple :
    ∃ a, new (smallConfig 20) = .ok a ∧
      ∀ x ∈ (Run.run (fun call a => (assignCall call a).2)
        [⟨"scan", [tenBytes, tenBytes, tenBytes], false⟩] a).allAssignments,
        1 < x.assignedSplitCount → x.assignedDataSizeBytes ≤ 20 :=
  ⟨_, rfl, (partition_sizes_are_bounded (smallConfig 20) _ rfl (by decide +kernel) _).2.2.2.2⟩

end ArbitrarySplitAssigner

end Vane
