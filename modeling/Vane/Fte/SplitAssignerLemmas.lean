import Vane.Fte.SplitAssigner

/-! This module contains what the receivers of assignment results see. -/

namespace Vane

namespace PartitionUpdate

variable {us vs : List PartitionUpdate} {p : ℕ} {s : String}

def splitsOf (s : String) (us : List PartitionUpdate) : List FteSplit :=
  (us.filter fun u => u.sourceNodeId = s).flatMap splits

def splitsTo (p : ℕ) (s : String) (us : List PartitionUpdate) : List FteSplit :=
  (us.filter fun u => u.partitionId = p ∧ u.sourceNodeId = s).flatMap splits

def Told (p : ℕ) (s : String) (us : List PartitionUpdate) : Prop :=
  ∃ u ∈ us, u.partitionId = p ∧ u.sourceNodeId = s ∧ u.noMoreSplits = true

def Ordered (p : ℕ) (s : String) (us : List PartitionUpdate) : Prop :=
  (us.filter fun u => u.partitionId = p ∧ u.sourceNodeId = s).Pairwise
    fun u v => u.noMoreSplits = true → v.splits = []

@[simp]
theorem splitsOf_nil : splitsOf s [] = [] := rfl

@[simp]
theorem splitsTo_nil : splitsTo p s [] = [] := rfl

@[simp]
theorem told_nil : ¬Told p s [] := by
  simp [Told]

@[simp]
theorem ordered_nil : Ordered p s [] := List.Pairwise.nil

@[simp]
theorem ordered_singleton {u : PartitionUpdate} : Ordered p s [u] := by
  unfold Ordered
  rw [List.filter_singleton]
  cases decide (u.partitionId = p ∧ u.sourceNodeId = s) with
  | false => exact List.Pairwise.nil
  | true => exact List.pairwise_singleton _ _

@[simp]
theorem splitsOf_append : splitsOf s (us ++ vs) = splitsOf s us ++ splitsOf s vs := by
  simp [splitsOf]

@[simp]
theorem splitsTo_append : splitsTo p s (us ++ vs) = splitsTo p s us ++ splitsTo p s vs := by
  simp [splitsTo]

@[simp]
theorem told_append : Told p s (us ++ vs) ↔ Told p s us ∨ Told p s vs := by
  constructor
  . rintro ⟨u, hu, h⟩
    rcases List.mem_append.mp hu with hu | hu
    . exact .inl ⟨u, hu, h⟩
    . exact .inr ⟨u, hu, h⟩
  . rintro (⟨u, hu, h⟩ | ⟨u, hu, h⟩)
    . exact ⟨u, List.mem_append_left _ hu, h⟩
    . exact ⟨u, List.mem_append_right _ hu, h⟩

theorem splitsTo_eq_nil_iff
    : splitsTo p s us = [] ↔ ∀ u ∈ us, u.partitionId = p → u.sourceNodeId = s → u.splits = [] := by
  unfold splitsTo
  simp only [List.flatMap_eq_nil_iff, List.mem_filter, decide_eq_true_eq]
  constructor
  . intro h u hu hp hs
    exact h u ⟨hu, hp, hs⟩
  . rintro h u ⟨hu, hp, hs⟩
    exact h u hu hp hs

theorem ordered_append (hus : Ordered p s us) (hvs : Ordered p s vs)
    (h : Told p s us → splitsTo p s vs = []) : Ordered p s (us ++ vs) := by
  unfold Ordered at *
  rw [List.filter_append, List.pairwise_append]
  refine ⟨hus, hvs, ?_⟩
  intro u hu v hv hmore
  simp only [List.mem_filter, decide_eq_true_eq] at hu hv
  exact splitsTo_eq_nil_iff.mp (h ⟨u, hu.1, hu.2.1, hu.2.2, hmore⟩) v hv.1 hv.2.1 hv.2.2

theorem ordered_of_splitsTo_eq_nil (h : splitsTo p s us = []) : Ordered p s us := by
  unfold Ordered
  rw [List.pairwise_iff_getElem]
  intro i j _ hj _ _
  have hv := List.getElem_mem hj
  simp only [List.mem_filter, decide_eq_true_eq] at hv
  exact splitsTo_eq_nil_iff.mp h _ hv.1 hv.2.1 hv.2.2

theorem splitsTo_of_forall_ne (h : ∀ u ∈ us, u.partitionId = p → u.sourceNodeId ≠ s) :
    splitsTo p s us = [] := by
  rw [splitsTo_eq_nil_iff]
  intro u hu hp hs
  exact absurd hs (h u hu hp)

section Map

variable {α : Type} {xs : List α} {f : α → PartitionUpdate}

theorem told_map
    : Told p s (xs.map f) ↔
        ∃ x ∈ xs, (f x).partitionId = p ∧ (f x).sourceNodeId = s ∧ (f x).noMoreSplits = true := by
  simp [Told]

theorem splitsOf_map_eq_nil (h : ∀ x ∈ xs, (f x).sourceNodeId = s → (f x).splits = []) :
    splitsOf s (xs.map f) = [] := by
  unfold splitsOf
  simp only [List.flatMap_eq_nil_iff, List.mem_filter, decide_eq_true_eq, List.mem_map]
  rintro u ⟨⟨x, hx, rfl⟩, hs⟩
  exact h x hx hs

theorem splitsTo_map_eq_nil
    (h : ∀ x ∈ xs, (f x).partitionId = p → (f x).sourceNodeId = s → (f x).splits = []) :
    splitsTo p s (xs.map f) = [] := by
  rw [splitsTo_eq_nil_iff]
  intro u hu
  obtain ⟨x, hx, rfl⟩ := List.mem_map.mp hu
  exact h x hx

theorem splitsTo_map_of_mem {x : α} (hx : x ∈ xs) (hp : (f x).partitionId = p)
    (hs : (f x).sourceNodeId = s) (hnodup : xs.Nodup)
    (honly : ∀ y ∈ xs, (f y).partitionId = p → (f y).sourceNodeId = s → y = x) :
    splitsTo p s (xs.map f) = (f x).splits := by
  induction xs with
  | nil => simp at hx
  | cons y ys ih =>
    rw [List.nodup_cons] at hnodup
    rw [List.map_cons, ← List.singleton_append, splitsTo_append]
    by_cases hyx : y = x
    . subst hyx
      have htail : splitsTo p s (ys.map f) = [] := by
        apply splitsTo_map_eq_nil
        intro z hz hzp hzs
        have := honly z (by simp [hz]) hzp hzs
        subst this
        exact absurd hz hnodup.1
      rw [htail]
      simp [splitsTo, hp, hs]
    . have hhead : splitsTo p s [f y] = [] := by
        apply splitsTo_of_forall_ne
        intro u hu hup hus
        rw [List.mem_singleton] at hu
        subst hu
        exact hyx (honly y (by simp) hup hus)
      rw [hhead, List.nil_append]
      apply ih _ hnodup.2
      . intro z hz
        exact honly z (by simp [hz])
      . rcases List.mem_cons.mp hx with h | h
        . exact absurd h.symm hyx
        . exact h

theorem ordered_map_of_only {x : α} (hnodup : xs.Nodup)
    (honly : ∀ y ∈ xs, (f y).partitionId = p → (f y).sourceNodeId = s → y = x) :
    Ordered p s (xs.map f) := by
  unfold Ordered
  rw [List.filter_map, List.pairwise_map]
  have hne := hnodup.filter ((fun u => decide (partitionId u = p ∧ u.sourceNodeId = s)) ∘ f)
  apply hne.imp_of_mem
  intro a b ha hb hab
  simp only [Function.comp_apply, List.mem_filter, decide_eq_true_eq] at ha hb
  have hax := honly a ha.1 ha.2.1 ha.2.2
  have hbx := honly b hb.1 hb.2.1 hb.2.2
  exact absurd (hax.trans hbx.symm) hab

end Map

section Sending

theorem not_ready (splits : List FteSplit) : false = true → splits ≠ [] := by simp

def sending (r : String) (splits : List FteSplit) (noMoreSplits : Bool) (ps : List ℕ) :
    List PartitionUpdate :=
  ps.map fun p => { partitionId := p, sourceNodeId := r, splits, noMoreSplits, ready_splits := not_ready splits }

variable {q : ℕ} {r : String} {ps : List ℕ} {splits : List FteSplit} {noMore : Bool}

theorem splitsOf_sending (hs : s ≠ r) : splitsOf s (sending r splits noMore ps) = [] := by
  apply splitsOf_map_eq_nil
  rintro _ - rfl
  exact absurd rfl hs

theorem splitsTo_sending_of_ne (hs : s ≠ r) : splitsTo q s (sending r splits noMore ps) = [] := by
  apply splitsTo_map_eq_nil
  rintro _ - - rfl
  exact absurd rfl hs

theorem splitsTo_sending (hp : p ∈ ps) (hnodup : ps.Nodup) :
    splitsTo p r (sending r splits noMore ps) = splits := by
  refine splitsTo_map_of_mem hp ?_ ?_ hnodup ?_
  . rfl
  . rfl
  . intro q _ hq _
    exact hq

theorem told_sending : Told q s (sending r splits noMore ps) ↔ q ∈ ps ∧ s = r ∧ noMore = true := by
  unfold sending
  rw [told_map]
  constructor
  . rintro ⟨p, hp, rfl, rfl, h⟩
    exact ⟨hp, rfl, h⟩
  . rintro ⟨hq, rfl, h⟩
    exact ⟨q, hq, rfl, rfl, h⟩

theorem ordered_sending (hnodup : ps.Nodup) : Ordered q s (sending r splits noMore ps) := by
  apply ordered_map_of_only (x := q) hnodup
  intro p _ hp _
  exact hp

end Sending

end PartitionUpdate

namespace AssignmentResult

variable {m m' m'' r r' : AssignmentResult}

structure Emits (r r' : AssignmentResult) (added : List PartitionInfo)
    (updates : List PartitionUpdate) (seals : List ℕ) : Prop where
  added : r'.partitionsAdded = r.partitionsAdded ++ added
  updates : r'.partitionUpdates = r.partitionUpdates ++ updates
  seals : ∀ p, p ∈ r'.sealedPartitions ↔ p ∈ r.sealedPartitions ∨ p ∈ seals

theorem Emits.refl (r : AssignmentResult) : Emits r r [] [] [] := by
  constructor <;> simp

theorem Emits.trans {added added' : List PartitionInfo} {us us' : List PartitionUpdate}
    {seals seals' : List ℕ} (h : Emits m m' added us seals) (h' : Emits m' m'' added' us' seals') :
    Emits m m'' (added ++ added') (us ++ us') (seals ++ seals') := by
  constructor
  . rw [h'.added, h.added, List.append_assoc]
  . rw [h'.updates, h.updates, List.append_assoc]
  . intro p
    rw [h'.seals, h.seals, List.mem_append, or_assoc]

@[simp]
theorem mem_mergeSeals {seals more : List ℕ} {p : ℕ} :
    p ∈ mergeSeals seals more ↔ p ∈ seals ∨ p ∈ more := by
  unfold mergeSeals
  induction more generalizing seals with
  | nil => simp
  | cons q qs ih =>
    rw [List.foldl_cons, ih]
    split
    . next hq =>
      constructor
      . rintro (h | h)
        . exact .inl h
        . exact .inr (List.mem_cons_of_mem _ h)
      . rintro (h | h)
        . exact .inl h
        . rcases List.mem_cons.mp h with rfl | h
          . exact .inl hq
          . exact .inr h
    . simp [or_assoc]

theorem nodup_mergeSeals {seals more : List ℕ} (h : seals.Nodup) :
    (mergeSeals seals more).Nodup := by
  unfold mergeSeals
  induction more generalizing seals with
  | nil => exact h
  | cons q qs ih =>
    rw [List.foldl_cons]
    apply ih
    split
    . exact h
    . next hq =>
      rw [List.nodup_append]
      refine ⟨h, by simp, ?_⟩
      intro a ha b hb hab
      rw [List.mem_singleton] at hb
      rw [hab, hb] at ha
      exact hq ha

theorem mergeSeals_append_singleton {seals more : List ℕ} {p : ℕ}
    : mergeSeals seals (more ++ [p]) =
        if p ∈ mergeSeals seals more then mergeSeals seals more
        else mergeSeals seals more ++ [p] := by
  unfold mergeSeals
  rw [List.foldl_append]
  rfl

theorem mergeSeals_assoc (as bs cs : List ℕ) :
    mergeSeals (mergeSeals as bs) cs = mergeSeals as (mergeSeals bs cs) := by
  induction cs using List.reverseRecOn with
  | nil => rfl
  | append_singleton cs c ih =>
    rw [mergeSeals_append_singleton, mergeSeals_append_singleton, ih]
    by_cases hc : c ∈ mergeSeals bs cs
    . rw [if_pos hc, if_pos (by simp [mem_mergeSeals.mp hc])]
    . rw [if_neg hc, mergeSeals_append_singleton]

theorem merge_assoc (l m r : AssignmentResult) : (l.merge m).merge r = l.merge (m.merge r) := by
  simp [merge, mergeSeals_assoc, Bool.or_assoc]

@[simp]
theorem merge_empty (m : AssignmentResult) : m.merge {} = m := by
  cases m
  simp [merge, mergeSeals]

theorem Emits.merge {added : List PartitionInfo} {us : List PartitionUpdate} {seals : List ℕ}
    (h : Emits r r' added us seals) (m : AssignmentResult) :
    Emits (m.merge r) (m.merge r') added us seals := by
  constructor
  . simp only [AssignmentResult.merge, h.added, List.append_assoc]
  . simp only [AssignmentResult.merge, h.updates, List.append_assoc]
  . intro p
    simp only [AssignmentResult.merge, mem_mergeSeals, h.seals, or_assoc]

theorem emits_appendUpdate (r : AssignmentResult) (p : ℕ) (s : String) (splits : List FteSplit)
    (noMoreSplits emitEmpty : Bool) (h : noMoreSplits = true ∨ emitEmpty = true) :
    Emits r (r.appendUpdate p s splits noMoreSplits emitEmpty) []
      [{ partitionId := p, sourceNodeId := s, splits, noMoreSplits }] [] := by
  unfold appendUpdate
  rw [if_neg]
  . constructor <;> simp
  . rintro ⟨hemit, -, hmore⟩
    simp_all

theorem emits_appendSplit (r : AssignmentResult) (p : ℕ) (s : String) (split : FteSplit) :
    Emits r (r.appendSplit p s split) []
      [{ partitionId := p, sourceNodeId := s, splits := [split], readyForScheduling := true }]
      [] := by
  constructor <;> simp [appendSplit]

theorem emits_appendSeal (r : AssignmentResult) (p : ℕ) : Emits r (r.appendSeal p) [] [] [p] := by
  unfold appendSeal
  split
  . next hp =>
    constructor
    . simp
    . simp
    . intro q
      simp only [List.mem_singleton, iff_self_or]
      rintro rfl
      exact hp
  . constructor <;> simp

theorem emits_foldl {α : Type} {body : AssignmentResult → α → AssignmentResult}
    {us : α → List PartitionUpdate} {seals : α → List ℕ} (xs : List α)
    (h : ∀ r, ∀ x ∈ xs, Emits r (body r x) [] (us x) (seals x)) (r : AssignmentResult) :
    Emits r (xs.foldl body r) [] (xs.flatMap us) (xs.flatMap seals) := by
  induction xs generalizing r with
  | nil => exact Emits.refl r
  | cons x xs ih =>
    rw [List.foldl_cons, List.flatMap_cons, List.flatMap_cons]
    exact (h r x (by simp)).trans (ih (fun r y hy => h r y (by simp [hy])) _)

theorem emits_foldl_map {α : Type} {body : AssignmentResult → α → AssignmentResult}
    {u : α → PartitionUpdate} (xs : List α)
    (h : ∀ r, ∀ x ∈ xs, Emits r (body r x) [] [u x] []) (r : AssignmentResult) :
    Emits r (xs.foldl body r) [] (xs.map u) [] := by
  have hfold := emits_foldl xs h r
  rw [← List.map_eq_flatMap, List.flatMap_eq_nil_iff.mpr fun _ _ => rfl] at hfold
  exact hfold

theorem emits_foldl_seals {α : Type} {body : AssignmentResult → α → AssignmentResult}
    {seals : α → List ℕ} (xs : List α)
    (h : ∀ r, ∀ x ∈ xs, Emits r (body r x) [] [] (seals x)) (r : AssignmentResult) :
    Emits r (xs.foldl body r) [] [] (xs.flatMap seals) := by
  have hfold := emits_foldl xs h r
  rw [List.flatMap_eq_nil_iff.mpr fun _ _ => rfl] at hfold
  exact hfold

end AssignmentResult

section SplitsFromInputs

variable {s : String}

def readSplits (s : String) (inputs : List SplitPayload) : List FteSplit :=
  (splitsFromInputs s inputs 0).toOption.elim [] Prod.fst

theorem splitsFromInputs_of_isOk {inputs : List SplitPayload}
    (h : (splitsFromInputs s inputs 0).isOk = true) :
    ∃ next, splitsFromInputs s inputs 0 = .ok (readSplits s inputs, next) := by
  unfold readSplits
  cases hr : splitsFromInputs s inputs 0 with
  | ok r => exact ⟨r.2, rfl⟩
  | error e =>
    rw [hr] at h
    cases h

theorem splitsFromInputs_append {xs ys : List SplitPayload} {next : ℕ}
    : splitsFromInputs s (xs ++ ys) next =
        splitsFromInputs s xs next >>= fun (splits, next) =>
          splitsFromInputs s ys next >>= fun (splits', next) => .ok (splits ++ splits', next) := by
  induction xs generalizing next with
  | nil =>
    simp only [List.nil_append, splitsFromInputs, Except.bind_ok]
    cases splitsFromInputs s ys next <;> rfl
  | cons x xs ih =>
    simp only [List.cons_append, splitsFromInputs]
    cases hx : FteSplit.fromDict s { x with sequenceId := some (x.sequenceId.getD next) } with
    | error e => rfl
    | ok split =>
      simp only [Except.bind_ok, ih]
      cases splitsFromInputs s xs (max next (split.sequenceId + 1)) with
      | error e => rfl
      | ok r =>
        simp only [Except.bind_ok, Except.pure_eq_ok]
        cases splitsFromInputs s ys r.2 with
        | error e => rfl
        | ok r' => rfl

theorem splitsFromInputs_append_eq_ok {xs ys : List SplitPayload} {next last : ℕ}
    {all : List FteSplit} (h : splitsFromInputs s (xs ++ ys) next = .ok (all, last))
    : ∃ splits mid rest, splitsFromInputs s xs next = .ok (splits, mid) ∧
        splitsFromInputs s ys mid = .ok (rest, last) ∧ all = splits ++ rest := by
  rw [splitsFromInputs_append] at h
  obtain ⟨⟨splits, mid⟩, hxs, h⟩ := Except.ok_of_bind h
  obtain ⟨⟨rest, last'⟩, hys, h⟩ := Except.ok_of_bind h
  cases h
  exact ⟨splits, mid, rest, hxs, hys, rfl⟩

end SplitsFromInputs

namespace AssignCall

variable {s : String} {call : AssignCall} {calls : List AssignCall}

theorem inputsOf_cons_self :
    inputsOf call.sourceNodeId (call :: calls) = call.inputs ++ inputsOf call.sourceNodeId calls := by
  simp [inputsOf]

theorem inputsOf_cons_of_ne (h : call.sourceNodeId ≠ s) :
    inputsOf s (call :: calls) = inputsOf s calls := by
  simp [inputsOf, h]

theorem nodup_sealedPartitions_mergedResult {assign : AssignCall → Py σ AssignmentResult}
    {self : σ} {m : AssignmentResult} (h : m.sealedPartitions.Nodup) :
    (mergedResult assign calls self m).sealedPartitions.Nodup := by
  induction calls generalizing self m with
  | nil => exact h
  | cons call calls ih =>
    unfold mergedResult
    split
    . exact ih (AssignmentResult.nodup_mergeSeals h)
    . exact ih h

end AssignCall

end Vane
