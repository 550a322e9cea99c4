import Vane.Ray.PlacementLemmas

/-! This module contains the bounds on the extras of the dominant resource fairness. -/

namespace Vane


namespace Drf

open ResourceVector Division

variable {admitted : List QueryState} {total extra : ResourceVector}

def given (admitted : List QueryState) (allocated : Dict String ResourceVector) : ResourceVector :=
  (admitted.map fun s => allocated.amount id s.queryId).sum

theorem partAt_zero (s : QueryState) : partAt total 0 s = 0 := by
  unfold partAt
  split
  . rfl
  . simp

theorem bisect_feasible {fuel : ℕ} {low high : ℚ≥0} (h : feasible admitted total extra low) :
    feasible admitted total extra (bisect admitted total extra fuel low high) := by
  induction fuel generalizing low high with
  | zero => exact h
  | succ fuel ih =>
    unfold bisect
    simp only
    split
    . next hmiddle => exact ih hmiddle
    . exact ih h

theorem partAt_le_headroom (level : ℚ≥0) (s : QueryState) : partAt total level s ≤ s.demand.headroom := by
  unfold partAt
  split
  . exact zero_le
  . exact scale_le (min_le_left _ _) _

def Modest (admitted : List QueryState) (allocated : Dict String ResourceVector) : Prop :=
  ∀ s ∈ admitted, allocated.amount id s.queryId ≤ s.demand.headroom

section

variable (hnodup : (admitted.map (·.queryId)).Nodup)

include hnodup

theorem given_allocationAt (total : ResourceVector) (level : ℚ≥0) :
    given admitted (allocationAt admitted total level) =
      (allocationAt admitted total level).values.sum := by
  have hperm : (allocationAt admitted total level).keys.Perm (admitted.map (·.queryId)) :=
    (List.perm_ext_iff_of_nodup (Dict.nodup_keys _) hnodup).mpr fun _ =>
      Dict.mem_keys_comprehension
  have hsum := Dict.sum_values_eq_sum_amount id (allocationAt admitted total level)
  rw [List.map_id] at hsum
  rw [hsum, (hperm.map _).sum_eq, List.map_map]
  rfl

theorem feasible_zero : feasible admitted total extra 0 := by
  unfold feasible
  rw [← given_allocationAt hnodup total]
  have hzero : ∀ s ∈ admitted, (allocationAt admitted total 0).amount id s.queryId = 0 := by
    intro s hs
    unfold allocationAt
    rw [Dict.amount_of_find? (Dict.find?_comprehension hnodup hs)]
    exact partAt_zero s
  unfold given
  rw [List.map_congr_left hzero, List.map_const', List.sum_replicate, nsmul_zero]
  exact zero_le

theorem given_insert {s : QueryState}
    (hs : s ∈ admitted) (allocated : Dict String ResourceVector) (v : ResourceVector) :
    given admitted (allocated.insert s.queryId (allocated.amount id s.queryId + v)) =
      given admitted allocated + v := by
  unfold given
  have hsplit : ∀ q : QueryState,
      (allocated.insert s.queryId (allocated.amount id s.queryId + v)).amount id q.queryId =
        allocated.amount id q.queryId + if q.queryId = s.queryId then v else 0 := by
    intro q
    rw [Dict.amount_insert]
    split
    . next h => rw [h, id]
    . rw [add_zero]
  simp only [hsplit, List.sum_map_add]
  congr 1
  have hmem : s.queryId ∈ admitted.map (·.queryId) := List.mem_map_of_mem hs
  have hsum := List.sum_map_eq_nsmul_single (l := admitted.map (·.queryId)) s.queryId
    (fun i => if i = s.queryId then v else 0) fun i hi _ => if_neg hi
  rw [List.count_eq_one_of_mem hnodup hmem, one_nsmul, if_pos rfl, List.map_map] at hsum
  exact hsum

theorem modest_allocationAt (level : ℚ≥0) :
    Modest admitted (allocationAt admitted total level) := by
  intro s hs
  unfold allocationAt
  rw [Dict.amount_of_find? (Dict.find?_comprehension hnodup hs)]
  exact partAt_le_headroom level s

theorem modest_insert {s : QueryState}
    (hs : s ∈ admitted) {allocated : Dict String ResourceVector} (h : Modest admitted allocated)
    {v : ResourceVector} (hv : v ≤ s.demand.headroom) :
    Modest admitted (allocated.insert s.queryId v) := by
  intro t ht
  rw [Dict.amount_insert]
  split
  . next hid =>
    rw [List.inj_on_of_nodup_map hnodup ht hs hid]
    exact hv
  . exact h t ht

end

section

variable {field : Dimension} {allocated allocated' : Dict String ResourceVector} {s : QueryState}

/-- The candidates take up to `tail` units of `field`, and leave some only when they want no more. -/
structure HandedOut (admitted : List QueryState) (field : Dimension) (candidates : List QueryState)
    (tail : ℕ) (allocated allocated' : Dict String ResourceVector) : Prop where
  modest : Modest admitted allocated'
  grows : ∀ q, allocated.amount id q ≤ allocated'.amount id q
  given : ∃ n ≤ tail, given admitted allocated' = given admitted allocated + single field (n : ℕ) ∧
    (n = tail ∨ ∀ s ∈ candidates,
      s.demand.headroom.get field ≤ (allocated'.amount id s.queryId).get field)

variable (hfield : field ≠ .gpu)

include hfield

theorem single_zero : single field 0 = 0 := by
  apply eq_of_get_eq
  intro d
  rw [← Nat.cast_zero, get_single (isWhole_natCast hfield 0)]
  simp

theorem modest_give (hnodup : (admitted.map (·.queryId)).Nodup) (hs : s ∈ admitted)
    (h : Modest admitted allocated) {n : ℕ}
    (hn : (n : ℚ≥0) ≤ s.demand.headroom.get field - (allocated.amount id s.queryId).get field) :
    Modest admitted
      (allocated.insert s.queryId (allocated.amount id s.queryId + single field (n : ℕ))) := by
  apply modest_insert hnodup hs h
  have hheld := le_iff_get_le.mp (h s hs)
  rw [le_iff_get_le]
  intro d
  rw [get_add, get_single (isWhole_natCast hfield n)]
  split
  . next hd =>
    rw [hd]
    calc _ ≤ (allocated.amount id s.queryId).get field + (s.demand.headroom.get field -
          (allocated.amount id s.queryId).get field) := add_le_add_right hn _
      _ = s.demand.headroom.get field := add_tsub_cancel_of_le (hheld field)
  . rw [add_zero]
    exact hheld d

end

theorem amount_le_insert_add (allocated : Dict String ResourceVector) (k q : String)
    (v : ResourceVector) :
    allocated.amount id q ≤ (allocated.insert k (allocated.amount id k + v)).amount id q := by
  rw [Dict.amount_insert]
  split
  . next hq =>
    rw [hq]
    exact le_self_add
  . exact le_rfl

theorem ne_gpu_of_bytes {field : Dimension}
    (hfield : field = .heapBytes ∨ field = .objectStoreBytes) : field ≠ .gpu := by
  rcases hfield with rfl | rfl
  . decide
  . decide

theorem given_empty (admitted : List QueryState) : given admitted ∅ = 0 := by
  unfold given
  simp

structure Divided (admitted : List QueryState) (extra : ResourceVector)
    (allocated : Dict String ResourceVector) : Prop where
  modest : Modest admitted allocated
  given_le : given admitted allocated ≤ extra
  bytes : ∀ d, d = .heapBytes ∨ d = .objectStoreBytes →
    (given admitted allocated).get d = extra.get d ∨
      ∀ s ∈ admitted, s.demand.headroom.get d ≤ (allocated.amount id s.queryId).get d

section

variable (hnodup : (admitted.map (·.queryId)).Nodup)

include hnodup

section

variable {field : Dimension} (hfield : field = .heapBytes ∨ field = .objectStoreBytes)

include hfield

theorem handedOut_giveTail {candidates : List QueryState}
    (hcandidates : ∀ s ∈ candidates, s ∈ admitted) {tail : ℕ} (htail : tail ≠ 0)
    {allocated : Dict String ResourceVector} (h : Modest admitted allocated) :
    HandedOut admitted field candidates tail allocated
      (giveTail field candidates tail allocated) := by
  have hgpu := ne_gpu_of_bytes hfield
  induction candidates generalizing tail allocated with
  | nil =>
    refine ⟨h, fun _ => le_rfl, 0, Nat.zero_le _, ?_, .inr (by simp)⟩
    rw [Nat.cast_zero, single_zero hgpu, add_zero]
    rfl
  | cons s candidates ih =>
    have hs := hcandidates s (by simp)
    have ih := @ih fun q hq => hcandidates q (by simp [hq])
    obtain ⟨held, hheld⟩ := exists_get_eq_natCast hfield (allocated.amount id s.queryId)
    obtain ⟨wanted, hwanted⟩ := exists_get_eq_natCast hfield s.demand.headroom
    have hopen : s.demand.headroom.get field - (allocated.amount id s.queryId).get field =
        (wanted - held : ℕ) := by rw [hheld, hwanted, Nat.cast_tsub]
    unfold giveTail
    simp only [Dict.findD_zero]
    rw [hopen, Nat.floor_natCast]
    generalize hn : min tail (wanted - held) = n
    rw [replace_get_add (isWhole_natCast hgpu n)]
    split
    . -- The query wants nothing, as there is something to give.
      obtain ⟨hmodest, hgrows, m, hm, hgiven, hrest⟩ := ih htail h
      refine ⟨hmodest, hgrows, m, hm, hgiven, hrest.imp_right ?_⟩
      refine fun hrest => List.forall_mem_cons.mpr ⟨le_trans ?_ (le_iff_get_le.mp (hgrows _) field), hrest⟩
      rw [hheld, hwanted, Nat.cast_le]
      omega
    . have hle : (n : ℚ≥0) ≤ s.demand.headroom.get field -
          (allocated.amount id s.queryId).get field := by
        rw [hopen, Nat.cast_le]
        omega
      have hmodest := modest_give hgpu hnodup hs h hle
      have hgrows := fun q => amount_le_insert_add allocated s.queryId q (single field (n : ℕ))
      have hgiven := given_insert hnodup hs allocated (single field (n : ℕ))
      split
      . exact ⟨hmodest, hgrows, n, by omega, hgiven, .inl (by omega)⟩
      . next hleft =>
        obtain ⟨hmodest', hgrows', m, hm, hgiven', hrest⟩ := ih hleft hmodest
        refine ⟨hmodest', fun q => (hgrows q).trans (hgrows' q), n + m, by omega, ?_, ?_⟩
        . rw [hgiven', hgiven, add_assoc, single_add (isWhole_natCast hgpu n)
            (isWhole_natCast hgpu m), Nat.cast_add]
        . refine hrest.imp (by omega) fun hrest => List.forall_mem_cons.mpr ⟨?_, hrest⟩
          refine le_trans ?_ (le_iff_get_le.mp (hgrows' _) field)
          rw [Dict.amount_insert, if_pos rfl, id, get_add, get_single (isWhole_natCast hgpu n),
            if_pos rfl, hheld, hwanted, ← Nat.cast_add, Nat.cast_le]
          omega

theorem handedOut_assignTail (total : ResourceVector) {remaining : ResourceVector} {n : ℕ}
    (hremaining : remaining.get field = n) {allocated : Dict String ResourceVector}
    (h : Modest admitted allocated) :
    HandedOut admitted field admitted n allocated
      (assignTail admitted total remaining allocated field) := by
  unfold assignTail
  simp only
  rw [hremaining, Nat.floor_natCast]
  split
  . next hzero =>
    refine ⟨h, fun _ => le_rfl, 0, Nat.zero_le _, ?_, .inl hzero.symm⟩
    rw [Nat.cast_zero, single_zero (ne_gpu_of_bytes hfield), add_zero]
  . next htail =>
    obtain ⟨hmodest, hgrows, m, hm, hgiven, hrest⟩ := handedOut_giveTail hnodup hfield
      (fun s (hs : s ∈ tailOrder admitted total allocated) => List.mem_sortBy.mp hs) htail h
    exact ⟨hmodest, hgrows, m, hm, hgiven, hrest.imp_right fun hrest s hs =>
      hrest s (List.mem_sortBy.mpr hs)⟩

end

theorem divided_assignTails {allocated : Dict String ResourceVector} (h : Modest admitted allocated)
    (hle : given admitted allocated ≤ extra) :
    Divided admitted extra ([.heapBytes, .objectStoreBytes].foldl
      (assignTail admitted total (extra - given admitted allocated)) allocated) := by
  rw [List.foldl_cons, List.foldl_cons, List.foldl_nil]
  obtain ⟨heap, hheap⟩ := exists_get_eq_natCast (.inl rfl) (extra - given admitted allocated)
  obtain ⟨store, hstore⟩ := exists_get_eq_natCast (.inr rfl) (extra - given admitted allocated)
  obtain ⟨hmodest, -, n, hn, hgiven, hheaped⟩ :=
    handedOut_assignTail hnodup (.inl rfl) total hheap h
  obtain ⟨hmodest, hgrows, m, hm, hgiven', hstored⟩ :=
    handedOut_assignTail hnodup (.inr rfl) total hstore hmodest
  generalize assignTail admitted total _ (assignTail admitted total _ allocated _) _ = allocated'
    at hmodest hgrows hgiven' hstored ⊢
  have hget : ∀ d, (given admitted allocated').get d = (given admitted allocated).get d +
      ((if d = .heapBytes then (n : ℚ≥0) else 0) + if d = .objectStoreBytes then (m : ℚ≥0) else 0) := by
    intro d
    rw [hgiven', hgiven, get_add, get_add, get_single (isWhole_natCast (by decide) n),
      get_single (isWhole_natCast (by decide) m), add_assoc]
  have hrest : ∀ d, (given admitted allocated).get d + (extra - given admitted allocated).get d =
      extra.get d := by
    intro d
    rw [← get_add, add_tsub_cancel_of_le hle]
  refine ⟨hmodest, ?_, ?_⟩
  . rw [le_iff_get_le]
    intro d
    rw [hget, ← hrest]
    apply add_le_add_right
    cases d with
    | cpu => simp
    | gpu => simp
    | heapBytes => simpa [hheap] using hn
    | objectStoreBytes => simpa [hstore] using hm
  . rintro d (rfl | rfl)
    . rcases hheaped with rfl | hheaped
      . exact .inl (by rw [hget, ← hrest, hheap]; simp)
      . exact .inr fun s hs => (hheaped s hs).trans (le_iff_get_le.mp (hgrows _) _)
    . rcases hstored with rfl | hstored
      . exact .inl (by rw [hget, ← hrest, hstore]; simp)
      . exact .inr hstored

theorem divided_weightedExtras
    (h : ¬(admitted = [] ∨ extra = 0 ∨ finiteLimits admitted total = [])) :
    Divided admitted extra (weightedExtras admitted total extra) := by
  unfold weightedExtras
  simp only
  rw [if_neg h]
  generalize hlow : (if feasible admitted total extra ((finiteLimits admitted total).foldl max 0)
    then (finiteLimits admitted total).foldl max 0
    else bisect admitted total extra 80 0 ((finiteLimits admitted total).foldl max 0)) = low
  have hfeasible : feasible admitted total extra low := by
    rw [← hlow]
    split
    . next h => exact h
    . exact bisect_feasible (feasible_zero hnodup)
  have hsum := given_allocationAt hnodup total low
  unfold feasible at hfeasible
  rw [← hsum] at hfeasible ⊢
  exact divided_assignTails hnodup (modest_allocationAt hnodup low) hfeasible

theorem weightedExtras_cases (total extra : ResourceVector) :
    (admitted = [] ∨ extra = 0 ∨ finiteLimits admitted total = []) ∧
        weightedExtras admitted total extra = ∅ ∨
      finiteLimits admitted total ≠ [] ∧
        Divided admitted extra (weightedExtras admitted total extra) := by
  by_cases h : admitted = [] ∨ extra = 0 ∨ finiteLimits admitted total = []
  . refine .inl ⟨h, ?_⟩
    unfold weightedExtras
    rw [if_pos h]
  . exact .inr ⟨fun hnil => h (.inr (.inr hnil)), divided_weightedExtras hnodup h⟩

theorem weightedExtras_given_le : given admitted (weightedExtras admitted total extra) ≤ extra := by
  rcases weightedExtras_cases hnodup total extra with ⟨-, h⟩ | ⟨-, h⟩
  . rw [h, given_empty]
    exact zero_le
  . exact h.given_le

theorem modest_weightedExtras : Modest admitted (weightedExtras admitted total extra) := by
  rcases weightedExtras_cases hnodup total extra with ⟨-, h⟩ | ⟨-, h⟩
  . intro s _
    rw [h, Dict.amount_empty]
    exact zero_le
  . exact h.modest

end

def Scalable (total : ResourceVector) (s : QueryState) : Prop :=
  s.demand.headroom ≠ 0 ∧ ∀ d, total.get d = 0 → s.demand.headroom.get d = 0

theorem share_eq_top_iff {x y : ℚ≥0} : share x y = ⊤ ↔ x ≠ 0 ∧ y = 0 := by
  unfold share
  split
  . simp_all
  . simp_all

theorem share_eq_zero_iff {x y : ℚ≥0} : share x y = 0 ↔ x = 0 := by
  unfold share
  split
  . simp_all
  . split
    . simp_all
    . simp_all

theorem share_le_dominantShare (a capacity : ResourceVector) (d : Dimension) :
    share (a.get d) (capacity.get d) ≤ a.dominantShare capacity := by
  apply List.le_foldl_max
  refine .inl (List.mem_map_of_mem ?_)
  cases d <;> simp [Dimension.all]

theorem dominantShare_mem (a capacity : ResourceVector) : a.dominantShare capacity = 0 ∨
    ∃ d, a.dominantShare capacity = share (a.get d) (capacity.get d) := by
  rcases List.mem_cons.mp (List.foldl_max_mem
      (Dimension.all.map fun d => share (a.get d) (capacity.get d)) 0) with h | h
  . exact .inl h
  . obtain ⟨d, -, hd⟩ := List.mem_map.mp h
    exact .inr ⟨d, hd.symm⟩

theorem dominant?_eq_none_iff {s : QueryState} : dominant? total s = none ↔ ¬Scalable total s := by
  have hle := share_le_dominantShare s.demand.headroom total
  have hmem := dominantShare_mem s.demand.headroom total
  unfold dominant? Scalable
  split
  . next htop =>
    rw [htop, WithTop.none_eq_top] at hmem
    obtain ⟨d, hd⟩ := hmem.resolve_left (by simp)
    obtain ⟨hwant, hnone⟩ := share_eq_top_iff.mp hd.symm
    simpa using fun _ => ⟨d, hnone, hwant⟩
  . next x hx =>
    rw [hx, WithTop.some_eq_coe] at hle hmem
    have hfinite : ∀ d, total.get d = 0 → s.demand.headroom.get d = 0 := by
      intro d hnone
      by_contra hwant
      have htop := hle d
      rw [share_eq_top_iff.mpr ⟨hwant, hnone⟩] at htop
      exact absurd (top_le_iff.mp htop) (by simp)
    have hzero : s.demand.headroom = 0 ↔ x = 0 := by
      constructor
      . intro h
        rcases hmem with hmem | ⟨d, hmem⟩
        . simpa using hmem
        . rw [h, get_zero, share_eq_zero_iff.mpr rfl] at hmem
          simpa using hmem
      . rintro rfl
        apply eq_of_get_eq
        intro d
        rw [get_zero, ← share_eq_zero_iff (y := total.get d)]
        exact le_antisymm (by simpa using hle d) zero_le
    rw [and_iff_left hfinite, ne_eq, hzero]
    simp [pos_iff_ne_zero]

theorem finiteLimits_eq_nil_iff :
    finiteLimits admitted total = [] ↔ ¬∃ s ∈ admitted, Scalable total s := by
  unfold finiteLimits
  simp [dominant?_eq_none_iff]

def Conserves (admitted : List QueryState) (extra : ResourceVector)
    (allocated : Dict String ResourceVector) (d : Dimension) : Prop :=
  (given admitted allocated).get d = extra.get d ∨ ∀ s ∈ admitted,
    (s.demand.minimum + allocated.amount id s.queryId).get d = s.demand.desired.get d

theorem desired_eq (s : QueryState) : s.demand.desired = s.demand.minimum + s.demand.headroom :=
  (add_tsub_cancel_of_le s.demand.minimum_le_desired).symm

theorem conserves_empty_iff {d : Dimension} : Conserves admitted extra ∅ d ↔
    extra.get d = 0 ∨ ∀ s ∈ admitted, s.demand.headroom.get d = 0 := by
  unfold Conserves
  simp [given_empty, desired_eq, Dict.amount_empty, eq_comm]

theorem Divided.conserves {allocated : Dict String ResourceVector}
    (h : Divided admitted extra allocated) {d : Dimension}
    (hd : d = .heapBytes ∨ d = .objectStoreBytes) : Conserves admitted extra allocated d := by
  refine (h.bytes d hd).imp_right fun hreached s hs => ?_
  rw [desired_eq, get_add, get_add]
  exact congrArg _ (le_antisymm (le_iff_get_le.mp (h.modest s hs) d) (hreached s hs))

def gpuQuery : QueryState where
  demand := {
    queryId := "q"
    minimum := 0
    desired := { gpu := 1, heapBytes := 10 }
    weight := 1
    priority := 0
    actorBundles := []
    taskBundles := []
    queryId_identifier := isIdentifier_q
    minimum_le_desired := by decide +kernel
    weight_pos := weight_one_pos
    nodup_actors := nodup_no_actors
    bundles_eq_minimum := by decide +kernel }
  sequence := 0
  expiresAt := 0

end Drf

end Vane
