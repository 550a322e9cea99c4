import Vane.Fte.HashSplitAssignerLemmas

/-!
This module contains the mapping by which neighbouring source partitions share a hash task
partition.
-/

namespace Vane

open List (mem_range range range')

def partStart (partitions tasks taskIdx : ℕ) : ℕ := taskIdx * partitions / tasks

def assignTask (partitions tasks : ℕ) (mapping : Dict ℕ TaskPartitionValue) (taskIdx : ℕ) :
    Dict ℕ TaskPartitionValue :=
  let start := partStart partitions tasks taskIdx
  (List.range' start (partStart partitions tasks (taskIdx + 1) - start)).foldl
    (fun mapping p => mapping.insert p (.object taskIdx)) mapping

def makeHashTaskPartitionMapping (sourcePartitionCount sourceTaskCount : ℤ) :
    Except PyError (Dict ℕ TaskPartitionValue) := do
  Except.raiseIf (sourcePartitionCount ≤ 0)
    (PyError.valueError "source_partition_count must be positive")
  let partitions := sourcePartitionCount.toNat
  let tasks := if sourceTaskCount ≤ 0 then partitions else min sourceTaskCount.toNat partitions
  let mapping := (List.range tasks).foldl (assignTask partitions tasks) ∅
  -- a source partition that is left gets an object of its own
  return (List.range partitions).foldl
    (fun mapping p => mapping.update p (.object (tasks + p)) fun value => value) mapping

section

variable {n t k p : ℕ}

def taskOf (n t p : ℕ) : ℕ := ((p + 1) * t - 1) / n

theorem partStart_le_iff (hn : 0 < n) (ht : 0 < t) : partStart n t k ≤ p ↔ k ≤ taskOf n t p := by
  unfold partStart taskOf
  have hpos : 0 < (p + 1) * t := Nat.mul_pos p.succ_pos ht
  rw [← Nat.lt_succ_iff, Nat.div_lt_iff_lt_mul ht, Nat.le_div_iff_mul_le hn, Nat.succ_eq_add_one]
  omega

theorem lt_partStart_iff (hn : 0 < n) (ht : 0 < t) : p < partStart n t k ↔ taskOf n t p < k := by
  rw [← not_le, partStart_le_iff hn ht, not_le]

theorem partStart_self (ht : 0 < t) : partStart n t t = n := Nat.mul_div_cancel_left n ht

theorem taskOf_lt_iff (hn : 0 < n) (ht : 0 < t) : taskOf n t p < t ↔ p < n := by
  rw [← lt_partStart_iff hn ht, partStart_self ht]

theorem partStart_succ (ht : 0 < t) : partStart n t k + n / t ≤ partStart n t (k + 1) ∧
    partStart n t (k + 1) ≤ partStart n t k + n / t + 1 := by
  unfold partStart
  rw [Nat.succ_mul, Nat.add_div ht]
  split
  . omega
  . omega

theorem partStart_strictMono (ht : 0 < t) (hle : t ≤ n) : StrictMono (partStart n t) := by
  apply strictMono_nat_of_lt_succ
  intro k
  have hpos : 0 < n / t := Nat.div_pos hle ht
  have hsucc := (partStart_succ (n := n) (k := k) ht).1
  omega

end

section

variable {n t : ℕ} (hn : 0 < n) (ht : 0 < t)

include hn ht

theorem find?_assignTask (mapping : Dict ℕ TaskPartitionValue) (taskIdx p : ℕ) :
    (assignTask n t mapping taskIdx).find? p =
      if taskOf n t p = taskIdx then some (.object taskIdx) else mapping.find? p := by
  have hmem : taskOf n t p = taskIdx ↔ p ∈ range' (partStart n t taskIdx)
      (partStart n t (taskIdx + 1) - partStart n t taskIdx) := by
    have hlow := partStart_le_iff hn ht (k := taskIdx) (p := p)
    have hhigh := lt_partStart_iff hn ht (k := taskIdx + 1) (p := p)
    rw [List.mem_range'_1]
    omega
  unfold assignTask
  rw [Dict.find?_foldl_insert]
  exact if_congr hmem.symm rfl rfl

theorem find?_assignTasks (tasks p : ℕ) :
    ((range tasks).foldl (assignTask n t) ∅).find? p =
      if taskOf n t p < tasks then some (.object (taskOf n t p)) else none := by
  induction tasks with
  | zero => rfl
  | succ tasks ih =>
    rw [List.range_succ, List.foldl_append, List.foldl_cons, List.foldl_nil,
      find?_assignTask hn ht, ih]
    split
    . next h => rw [if_pos (by omega), h]
    . next h =>
      split
      . rw [if_pos (by omega)]
      . rw [if_neg (by omega)]

theorem makeHashTaskPartitionMapping_spec {partitions tasks : ℤ} (hpartitions : 0 < partitions)
    (htasks : 0 < tasks) (hn' : partitions.toNat = n) (ht' : (min partitions tasks).toNat = t) :
    ∃ mapping, makeHashTaskPartitionMapping partitions tasks = .ok mapping ∧
      ∀ p, mapping.find? p = if p < n then some (.object (taskOf n t p)) else none := by
  have hfirst : ∀ p, ((range t).foldl (assignTask n t) ∅).find? p =
      if p < n then some (.object (taskOf n t p)) else none := by
    intro p
    rw [find?_assignTasks hn ht]
    exact if_congr (taskOf_lt_iff hn ht) rfl rfl
  have hcount : (if tasks ≤ 0 then n else min tasks.toNat n) = t := by
    rw [if_neg (not_le.mpr htasks)]
    omega
  have hok : makeHashTaskPartitionMapping partitions tasks = .ok ((range n).foldl
      (fun mapping p => mapping.update p (.object (t + p)) fun value => value)
      ((range t).foldl (assignTask n t) ∅)) := by
    unfold makeHashTaskPartitionMapping
    rw [Except.raiseIf_of_not (not_le.mpr hpartitions), hn']
    dsimp only
    rw [hcount]
    rfl
  refine ⟨_, hok, fun p => (Dict.find?_foldl_setDefault ?_ p).trans (hfirst p)⟩
  intro p hp
  rw [hfirst, if_pos (mem_range.mp hp)]
  rfl

end

namespace HashSplitAssigner

variable {n t : ℕ} {a : HashSplitAssigner} {next : ℕ} {requirements : Dict ℕ NodeRequirements}

structure Numbered (n t : ℕ) (a : HashSplitAssigner) (next : ℕ)
    (requirements : Dict ℕ NodeRequirements) : Prop where
  mapping : ∀ p < n, a.sourcePartitionToTaskPartition p = .shared (taskOf n t p)
  objects : ∀ k < t, a.taskPartitions (.shared k) =
    { taskPartitionIds := if k < next then [k] else [] }
  keys : ∀ id, id ∈ requirements.keys ↔ id < next

theorem ensureIds_own (k next : ℕ) (h : next ≤ k → next = k) :
    HashTaskPartition.ensureIds { taskPartitionIds := if k < next then [k] else [] } next =
      ({ taskPartitionIds := [k] }, max next (k + 1)) := by
  unfold HashTaskPartition.ensureIds
  by_cases hlt : k < next
  . simp [hlt, HashTaskPartition.appendIds]
  . simp [HashTaskPartition.appendIds, h (not_lt.mp hlt)]

theorem numbered_ensureAllIds (hn : 0 < n) (ht : 0 < t) (hle : t ≤ n) {p count : ℕ}
    (hp : p + count = n) (hnext : ∀ k, k < next ↔ partStart n t k < p)
    (h : Numbered n t a next requirements) :
    let result := ensureAllIds (range' p count) next requirements a
    Numbered n t result.1 t result.2 := by
  have hmono := partStart_strictMono ht hle
  induction count generalizing p next requirements a with
  | zero =>
    have hall : next = t := eq_of_forall_lt_iff fun k => by
      rw [hnext, show p = partStart n t t by rw [partStart_self ht]; exact hp, hmono.lt_iff_lt]
    rw [hall] at h
    exact h
  | succ count ih =>
    have hstart : ∀ j, partStart n t j ≤ p ↔ j ≤ taskOf n t p := fun j => partStart_le_iff hn ht
    have hk : taskOf n t p < t := (taskOf_lt_iff hn ht).mpr (by omega)
    have hmapped := h.mapping p (by omega)
    generalize taskOf n t p = k at hstart hk hmapped
    -- the task of `p` is the last one that has its number, or the first that has none
    have hfirst : next ≤ k → next = k := by
      intro hge
      have hlow := mt (hnext k).mpr (not_lt.mpr hge)
      have hp : partStart n t k = p := by
        have := (hstart k).mpr le_rfl
        omega
      exact eq_of_forall_lt_iff fun j => by rw [hnext, ← hp, hmono.lt_iff_lt]
    have hlt : ∀ j < k, j < next := fun j hj =>
      (hnext j).mpr ((hmono hj).trans_le ((hstart k).mpr le_rfl))
    have hobject : (a.taskPartition p).ensureIds next =
        ({ taskPartitionIds := [k] }, max next (k + 1)) := by
      unfold taskPartition
      rw [hmapped, h.objects k hk]
      exact ensureIds_own k next hfirst
    rw [List.range'_succ]
    unfold ensureAllIds
    rw [hobject]
    apply ih (by omega)
    . intro j
      rw [Nat.lt_succ_iff, hstart, lt_max_iff, Nat.lt_succ_iff]
      refine ⟨fun hj => hj.elim (fun hj => (hstart j).mp ((hnext j).mp hj).le) id, .inr⟩
    . refine ⟨h.mapping, fun j hj => ?_, fun id => ?_⟩
      . unfold setTaskPartition
        dsimp only
        rw [hmapped, Function.update_apply]
        split
        . next heq =>
          cases heq
          rw [if_pos (lt_max_of_lt_right (Nat.lt_succ_self _))]
        . next hne =>
          have hjk : j ≠ k := fun heq => hne (by rw [heq])
          rw [h.objects j hj]
          have hsame : j < max next (k + 1) ↔ j < next := by
            have := hlt j
            omega
          simp only [hsame]
      . rw [mem_keys_recordIds, h.keys, List.mem_singleton]
        have := hlt id
        omega

theorem createTaskPartitions_of_mapping (hn : 0 < n) (ht : 0 < t) (hle : t ≤ n)
    {mapping : Dict ℕ TaskPartitionValue}
    (hmapping : ∀ p, mapping.find? p = if p < n then some (.object (taskOf n t p)) else none)
    {config : Config} (hcount : config.sourcePartitionCount = n)
    (hconfig : config.sourcePartitionToTaskPartition = some mapping)
    (hobjects : ∀ k < t, config.objects k = {}) :
    ∃ a, new config = .ok a ∧ ∀ result,
      (a.createTaskPartitions result).1.createdTaskPartitions = range t ∧
        ((a.createTaskPartitions result).2.partitionsAdded.map (·.partitionId) =
          result.partitionsAdded.map (·.partitionId) ++ range t) := by
  have hentries : buildSourcePartitionMapping config.sourcePartitionToTaskPartition n =
      .ok ((range n).map fun p => (.shared (taskOf n t p), none)) := by
    apply Except.mapM_eq_ok
    intro p hp
    rw [hconfig]
    dsimp only
    rw [hmapping, if_pos (mem_range.mp hp)]
    rfl
  have hnew : ∃ a, new config = .ok a ∧ a.sourcePartitionCount = n ∧
      a.allTaskPartitionsCreated = false ∧ Numbered n t a 0 ∅ := by
    unfold new
    rw [Except.raiseIf_of_not (by omega), hcount, Int.toNat_natCast]
    dsimp only
    rw [hentries]
    refine ⟨_, rfl, rfl, rfl, fun p hp => ?_, hobjects, fun id => ?_⟩
    . simp [hp]
    . simp [Dict.keys]
  obtain ⟨a, hnew, hpartitions, hflag, hnumbered⟩ := hnew
  refine ⟨a, hnew, fun result => ?_⟩
  have hkeys := (numbered_ensureAllIds hn ht hle (Nat.zero_add n) (by simp) hnumbered).keys
  have hids : ∀ keys : List ℕ, keys.Nodup → (∀ id, id ∈ keys ↔ id < t) →
      keys.sortBy id = range t := by
    intro keys hnodup hmem
    have hperm : (keys.sortBy id).Perm (range t) :=
      (List.sortBy_perm id keys).trans ((List.perm_ext_iff_of_nodup hnodup List.nodup_range).mpr
        fun id => by rw [hmem, mem_range])
    exact hperm.eq_of_pairwise (fun _ _ _ _ => le_antisymm) (List.sortBy_pairwise id keys)
      List.pairwise_le_range
  unfold createTaskPartitions
  rw [if_neg (by rw [hflag]; decide), hpartitions, List.range_eq_range']
  dsimp only
  rw [hids _ (Dict.nodup_keys _) hkeys]
  refine ⟨rfl, ?_⟩
  rw [List.map_append, List.map_map]
  simp [Function.comp_def]

theorem hash_task_mapping_is_balanced (partitions tasks : ℤ) (hpartitions : 0 < partitions)
    (htasks : 0 < tasks) {n t : ℕ} (hn : partitions.toNat = n) (ht : (min partitions tasks).toNat = t) :
    ∃ mapping, makeHashTaskPartitionMapping partitions tasks = .ok mapping ∧
      (∀ p, p ∈ mapping.keys ↔ p < n) ∧
      (∀ p < n, ∃ k < t, mapping.find? p = some (.object k)) ∧
      (∀ k < t, ∃ start stop, start < stop ∧ (∀ p, mapping.find? p = some (.object k) ↔
        start ≤ p ∧ p < stop) ∧ n / t ≤ stop - start ∧ stop - start ≤ n / t + 1) ∧
      ∀ config : Config, config.sourcePartitionCount = partitions →
        config.sourcePartitionToTaskPartition = some mapping → (∀ k < t, config.objects k = {}) →
        ∃ a, new config = .ok a ∧ ∀ result,
          (a.createTaskPartitions result).1.createdTaskPartitions = List.range t ∧
            (a.createTaskPartitions result).2.partitionsAdded.map (·.partitionId) =
              result.partitionsAdded.map (·.partitionId) ++ List.range t := by
  have hle : t ≤ n := by omega
  have hpos : 0 < t := by omega
  have hpos' : 0 < n := by omega
  obtain ⟨mapping, hok, hfind⟩ :=
    makeHashTaskPartitionMapping_spec hpos' hpos hpartitions htasks hn ht
  refine ⟨mapping, hok, fun p => ?_, fun p hp => ?_, fun k hk => ?_, fun config hcount => ?_⟩
  . rw [Dict.mem_keys_iff, hfind]
    split
    . next hp => exact iff_of_true ⟨_, rfl⟩ hp
    . next hp => exact iff_of_false (by rintro ⟨value, hvalue⟩; cases hvalue) hp
  . exact ⟨_, (taskOf_lt_iff hpos' hpos).mpr hp, by rw [hfind, if_pos hp]⟩
  . have hsucc := partStart_succ (n := n) (k := k) hpos
    refine ⟨partStart n t k, partStart n t (k + 1),
      partStart_strictMono hpos hle (Nat.lt_succ_self k), fun p => ?_,
      Nat.le_sub_of_add_le' hsucc.1, Nat.sub_le_iff_le_add'.mpr hsucc.2⟩
    have htask := taskOf_lt_iff (p := p) hpos' hpos
    rw [hfind, partStart_le_iff hpos' hpos, lt_partStart_iff hpos' hpos]
    split
    . rw [Option.some.injEq, TaskPartitionValue.object.injEq]
      omega
    . simp only [reduceCtorEq, false_iff]
      omega
  . exact createTaskPartitions_of_mapping hpos' hpos hle hfind (by omega)

theorem hash_task_mapping_is_balanced_seven :
    ∃ mapping, makeHashTaskPartitionMapping 7 3 = .ok mapping ∧ ∀ k < 3, ∃ start stop, start < stop ∧
      (∀ p, mapping.find? p = some (.object k) ↔ start ≤ p ∧ p < stop) ∧
        2 ≤ stop - start ∧ stop - start ≤ 3 := by
  obtain ⟨mapping, hok, -, -, hranges, -⟩ :=
    hash_task_mapping_is_balanced 7 3 (by decide) (by decide) rfl rfl
  exact ⟨mapping, hok, hranges⟩

end HashSplitAssigner

end Vane
