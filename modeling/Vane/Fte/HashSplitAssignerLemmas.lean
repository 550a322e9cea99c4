import Vane.Fte.HashSplitAssigner
import Vane.Fte.SplitAssignerLemmas

/-!
This module contains the verification that splits that are to be joined meet in one task partition.
-/

namespace Vane

open List (append_nil mem_cons mem_map mem_range mem_singleton)
open AssignCall (inputsOf mergedResult)
open Function (update update_apply update_of_ne update_self)

open PartitionUpdate AssignmentResult

namespace HashTaskPartition

variable {o : HashTaskPartition}

def Valid (o : HashTaskPartition) : Prop :=
  o.taskPartitionIds.length ≤ o.subPartitionCount ∧ o.nextSubPartition < o.subPartitionCount

instance (o : HashTaskPartition) : Decidable o.Valid := inferInstanceAs (Decidable (_ ∧ _))

def Ready (o : HashTaskPartition) : Prop :=
  o.taskPartitionIds.length = o.subPartitionCount ∧ o.nextSubPartition < o.subPartitionCount

structure Same (o o' : HashTaskPartition) : Prop where
  ids : o'.taskPartitionIds = o.taskPartitionIds
  count : o'.subPartitionCount = o.subPartitionCount
  splitBy : o'.splitBySource = o.splitBySource

theorem Same.refl (o : HashTaskPartition) : Same o o := ⟨rfl, rfl, rfl⟩

theorem Same.trans {o₁ o₂ o₃ : HashTaskPartition} (h : Same o₁ o₂) (h' : Same o₂ o₃) : Same o₁ o₃ :=
  ⟨h'.ids.trans h.ids, h'.count.trans h.count, h'.splitBy.trans h.splitBy⟩

theorem length_appendIds (missing : ℕ) (ids : List ℕ) (next : ℕ) :
    (appendIds missing ids next).1.length = ids.length + missing := by
  induction missing generalizing ids next with
  | zero => rfl
  | succ missing ih =>
    unfold appendIds
    rw [ih, List.length_append, List.length_singleton]
    omega

theorem ensureIds_ready (h : o.Valid) (next : ℕ) : (o.ensureIds next).1.Ready := by
  obtain ⟨hlen, hnext⟩ := h
  refine ⟨?_, hnext⟩
  show (appendIds (o.subPartitionCount - o.taskPartitionIds.length) _ _).1.length =
    o.subPartitionCount
  rw [length_appendIds]
  omega

theorem ensureIds_of_ready (h : o.Ready) (next : ℕ) : o.ensureIds next = (o, next) := by
  unfold ensureIds
  rw [h.1, Nat.sub_self]
  rfl

def Routes (o : HashTaskPartition) (s : String) (ids : List ℕ) : Prop :=
  (o.splitBySource = some s ∧ ∃ p ∈ o.taskPartitionIds, ids = [p]) ∨
  (o.splitBySource ≠ some s ∧ ids = o.taskPartitionIds)

theorem Routes.of_same {o' : HashTaskPartition} {s : String} {ids : List ℕ} (hsame : Same o o')
    (h : o.Routes s ids) : o'.Routes s ids := by
  unfold Routes at *
  rw [hsame.ids, hsame.splitBy]
  exact h

theorem Routes.subset {s : String} {ids : List ℕ} (h : o.Routes s ids) {p : ℕ} (hp : p ∈ ids) :
    p ∈ o.taskPartitionIds := by
  rcases h with ⟨-, q, hq, rfl⟩ | ⟨-, rfl⟩
  . rw [mem_singleton] at hp
    rw [hp]
    exact hq
  . exact hp

theorem idsForSource_spec (h : o.Ready) (s : String)
    : ∃ ids o', o.idsForSource s = .ok (ids, o') ∧ o.Routes s ids ∧ o'.Ready ∧ Same o o' := by
  obtain ⟨hlen, hnext⟩ := h
  unfold idsForSource
  split
  . next hsplit =>
    rw [← hlen] at hnext
    rw [List.getElem?_eq_getElem hnext]
    refine ⟨_, _, rfl, .inl ⟨hsplit, _, List.getElem_mem hnext, rfl⟩, ⟨hlen, ?_⟩, ⟨rfl, rfl, rfl⟩⟩
    rw [hlen]
    exact Nat.mod_lt _ o.count_pos
  . next hsplit => exact ⟨_, _, rfl, .inr ⟨hsplit, rfl⟩, ⟨hlen, hnext⟩, Same.refl o⟩

theorem Routes.existsUnique (h : o.Ready) {sources : List String} (hne : sources ≠ [])
    (hsplit : o.subPartitionCount = 1 ∨ ∃ s ∈ sources, o.splitBySource = some s)
    {dest : String → List ℕ} (hroutes : ∀ s ∈ sources, o.Routes s (dest s)) :
    ∃! p, ∀ s ∈ sources, p ∈ dest s := by
  rcases hsplit with hone | ⟨t, ht, hby⟩
  . -- a single task partition receives everything
    obtain ⟨p, hp⟩ := List.length_eq_one_iff.mp (h.1.trans hone)
    have hdest : ∀ s ∈ sources, dest s = [p] := by
      intro s hs
      rcases hroutes s hs with ⟨-, q, hq, hd⟩ | ⟨-, hd⟩
      . rw [hp, mem_singleton] at hq
        rw [hd, hq]
      . rw [hd, hp]
    obtain ⟨s, hs⟩ := List.exists_mem_of_ne_nil _ hne
    refine ⟨p, fun s hs => by simp [hdest s hs], fun q hq => ?_⟩
    simpa [hdest s hs] using hq s hs
  . -- the split source chooses the receiver, and the others reach all receivers
    obtain ⟨p, hp, hd⟩ : ∃ p ∈ o.taskPartitionIds, dest t = [p] := by
      rcases hroutes t ht with ⟨-, h⟩ | ⟨hnot, -⟩
      . exact h
      . exact absurd hby hnot
    refine ⟨p, fun s hs => ?_, fun q hq => ?_⟩
    . by_cases hst : s = t
      . rw [hst, hd]
        simp
      . rcases hroutes s hs with ⟨hby', -⟩ | ⟨-, hd'⟩
        . rw [hby] at hby'
          cases hby'
          exact absurd rfl hst
        . rw [hd']
          exact hp
    . have := hq t ht
      rw [hd, mem_singleton] at this
      exact this

end HashTaskPartition

namespace HashSplitAssigner

open HashTaskPartition (Same Routes)

variable {a : HashSplitAssigner}

theorem taskPartition_setTaskPartition {k j : ℕ} {o : HashTaskPartition}
    : (a.setTaskPartition k o).taskPartition j =
        if a.sourcePartitionToTaskPartition j = a.sourcePartitionToTaskPartition k then o
        else a.taskPartition j := by
  unfold setTaskPartition taskPartition
  simp only [update_apply]

structure SameRouting (a a' : HashSplitAssigner) : Prop where
  count : a'.sourcePartitionCount = a.sourcePartitionCount
  replicated : a'.replicatedSources = a.replicatedSources
  created : a'.createdTaskPartitions = a.createdTaskPartitions
  task : ∀ k, Same (a.taskPartition k) (a'.taskPartition k)

theorem SameRouting.trans {a a' a'' : HashSplitAssigner} (h : SameRouting a a')
    (h' : SameRouting a' a'') : SameRouting a a'' :=
  ⟨h'.count.trans h.count, h'.replicated.trans h.replicated, h'.created.trans h.created,
    fun k => (h.task k).trans (h'.task k)⟩

structure AllCreated (a : HashSplitAssigner) : Prop where
  flag : a.allTaskPartitionsCreated = true
  ready : ∀ k < a.sourcePartitionCount, (a.taskPartition k).Ready
  nodup : a.createdTaskPartitions.Nodup
  mem : ∀ p, p ∈ a.createdTaskPartitions ↔
    ∃ k < a.sourcePartitionCount, p ∈ (a.taskPartition k).taskPartitionIds

theorem AllCreated.of_same {a' : HashSplitAssigner} (h : AllCreated a) (hsame : SameRouting a a')
    (hflag : a'.allTaskPartitionsCreated = true)
    (hready : ∀ k < a.sourcePartitionCount, (a'.taskPartition k).Ready) : AllCreated a' := by
  refine ⟨hflag, ?_, ?_, ?_⟩
  . rw [hsame.count]
    exact hready
  . rw [hsame.created]
    exact h.nodup
  . intro p
    rw [hsame.created, hsame.count, h.mem]
    simp only [(hsame.task _).ids]

section

theorem ensureAllIds_frame (ks : List ℕ) (next : ℕ) (requirements : Dict ℕ NodeRequirements)
    (a : HashSplitAssigner)
    : let a' := (ensureAllIds ks next requirements a).1
      a' = { a with taskPartitions := a'.taskPartitions } := by
  induction ks generalizing next requirements a with
  | nil => rfl
  | cons k ks ih =>
    have h := ih ((a.taskPartition k).ensureIds next).2
      (((a.taskPartition k).ensureIds next).1.taskPartitionIds.foldl
        (fun requirements id => requirements.update id
          (a.sourcePartitionNodeRequirements k) fun r => r) requirements)
      (a.setTaskPartition k ((a.taskPartition k).ensureIds next).1)
    exact h

theorem ensureAllIds_of_ready {ref : TaskPartitionRef} (ks : List ℕ) (next : ℕ)
    (requirements : Dict ℕ NodeRequirements) (a : HashSplitAssigner)
    (h : (a.taskPartitions ref).Ready)
    : (ensureAllIds ks next requirements a).1.taskPartitions ref = a.taskPartitions ref := by
  induction ks generalizing next requirements a with
  | nil => rfl
  | cons k ks ih =>
    have hset : (a.setTaskPartition k ((a.taskPartition k).ensureIds next).1).taskPartitions ref =
        a.taskPartitions ref := by
      unfold setTaskPartition
      simp only [update_apply]
      split
      . next heq =>
        unfold taskPartition
        rw [← heq, HashTaskPartition.ensureIds_of_ready h]
      . rfl
    rw [← hset] at h
    exact (ih _ _ _ h).trans hset

theorem mem_keys_recordIds {ids : List ℕ} {r : NodeRequirements} {d : Dict ℕ NodeRequirements}
    {p : ℕ}
    : p ∈ (ids.foldl (fun d id => d.update id r fun r => r) d).keys ↔ p ∈ d.keys ∨ p ∈ ids := by
  induction ids generalizing d with
  | nil => simp
  | cons q ids ih =>
    rw [List.foldl_cons, ih]
    unfold Dict.update
    rw [Dict.mem_keys_insert, mem_cons]
    tauto

theorem ensureAllIds_spec (ks : List ℕ) (next : ℕ) (requirements : Dict ℕ NodeRequirements)
    (a : HashSplitAssigner) (hvalid : ∀ k ∈ ks, (a.taskPartition k).Valid)
    : let result := ensureAllIds ks next requirements a
      (∀ k ∈ ks, (result.1.taskPartition k).Ready) ∧
      (∀ k, (result.1.taskPartition k).subPartitionCount = (a.taskPartition k).subPartitionCount ∧
        (result.1.taskPartition k).splitBySource = (a.taskPartition k).splitBySource) ∧
      (∀ p, p ∈ result.2.keys ↔
        p ∈ requirements.keys ∨ ∃ k ∈ ks, p ∈ (result.1.taskPartition k).taskPartitionIds) := by
  induction ks generalizing next requirements a with
  | nil => simp [ensureAllIds]
  | cons k ks ih =>
    let o := ((a.taskPartition k).ensureIds next).1
    let a₁ := a.setTaskPartition k o
    have hready : o.Ready := HashTaskPartition.ensureIds_ready (hvalid k (by simp)) next
    have htask : ∀ j, a₁.taskPartition j =
        if a.sourcePartitionToTaskPartition j = a.sourcePartitionToTaskPartition k then o
        else a.taskPartition j := fun j => taskPartition_setTaskPartition
    have hvalid₁ : ∀ j ∈ ks, (a₁.taskPartition j).Valid := by
      intro j hj
      rw [htask]
      split
      . exact ⟨hready.1.le, hready.2⟩
      . exact hvalid j (by simp [hj])
    obtain ⟨hr, hstatic, hkeys⟩ := ih ((a.taskPartition k).ensureIds next).2
      (o.taskPartitionIds.foldl (fun d id => d.update id
        (a.sourcePartitionNodeRequirements k) fun r => r) requirements) a₁ hvalid₁
    -- the ids given to `k` are final
    have hk : (ensureAllIds (k :: ks) next requirements a).1.taskPartition k = o := by
      have hframe := ensureAllIds_frame (k :: ks) next requirements a
      have hself : a₁.taskPartitions (a.sourcePartitionToTaskPartition k) = o := by
        simp [a₁, setTaskPartition]
      unfold taskPartition
      rw [hframe]
      have := ensureAllIds_of_ready ks ((a.taskPartition k).ensureIds next).2
        (o.taskPartitionIds.foldl (fun d id => d.update id
          (a.sourcePartitionNodeRequirements k) fun r => r) requirements) a₁ (hself ▸ hready)
      exact this.trans hself
    refine ⟨?_, ?_, ?_⟩
    . intro j hj
      rcases mem_cons.mp hj with rfl | hj
      . rw [hk]
        exact hready
      . exact hr j hj
    . intro j
      refine ⟨(hstatic j).1.trans ?_, (hstatic j).2.trans ?_⟩
      . rw [htask]
        split
        . next heq =>
          unfold taskPartition
          rw [heq]
          rfl
        . rfl
      . rw [htask]
        split
        . next heq =>
          unfold taskPartition
          rw [heq]
          rfl
        . rfl
    . intro p
      refine (hkeys p).trans ?_
      rw [mem_keys_recordIds]
      simp only [mem_cons, exists_eq_or_imp, or_assoc]
      rw [hk]
      rfl

theorem createTaskPartitions_of_created (h : a.allTaskPartitionsCreated = true)
    (r : AssignmentResult) : a.createTaskPartitions r = (a, r) := by
  unfold createTaskPartitions
  rw [if_pos h]

theorem createTaskPartitions_spec (hflag : a.allTaskPartitionsCreated = false)
    (hvalid : ∀ k < a.sourcePartitionCount, (a.taskPartition k).Valid)
    : let result := a.createTaskPartitions {}
      AllCreated result.1 ∧
      result.1.sourcePartitionCount = a.sourcePartitionCount ∧
      result.1.replicatedSources = a.replicatedSources ∧
      result.1.sourceSequences = a.sourceSequences ∧
      (∀ k, (result.1.taskPartition k).subPartitionCount = (a.taskPartition k).subPartitionCount ∧
        (result.1.taskPartition k).splitBySource = (a.taskPartition k).splitBySource) ∧
      Emits {} result.2 result.2.partitionsAdded [] [] ∧
      result.2.partitionsAdded.map (·.partitionId) = result.1.createdTaskPartitions := by
  have hspec := ensureAllIds_spec (List.range a.sourcePartitionCount) 0 ∅ a
    (fun k hk => hvalid k (mem_range.mp hk))
  have hframe := ensureAllIds_frame (List.range a.sourcePartitionCount) 0 ∅ a
  unfold createTaskPartitions
  rw [if_neg (by rw [hflag]; simp)]
  generalize hresult : ensureAllIds (List.range a.sourcePartitionCount) 0 ∅ a = result at *
  obtain ⟨a', requirements⟩ := result
  dsimp only at hspec hframe ⊢
  obtain ⟨hready, hstatic, hkeys⟩ := hspec
  have hcount : a'.sourcePartitionCount = a.sourcePartitionCount := by rw [hframe]
  refine ⟨⟨rfl, ?_, ?_, ?_⟩, hcount, by rw [hframe], by rw [hframe], hstatic, ?_, ?_⟩
  . intro k hk
    exact hready k (mem_range.mpr (by rw [← hcount]; exact hk))
  . exact (List.sortBy_perm _ _).nodup_iff.mpr requirements.nodup_keys
  . intro p
    rw [List.mem_sortBy, hkeys]
    simp only [Dict.keys, Dict.entries_empty, List.map_nil, List.not_mem_nil, false_or,
      mem_range, hcount]
    rfl
  . constructor <;> simp
  . simp [List.map_map, Function.comp_def]

theorem ensureAllIds_setSources (ks : List ℕ) (next : ℕ) (requirements : Dict ℕ NodeRequirements)
    (a : HashSplitAssigner) (sequences : Dict String ℕ) (partitioned : List String)
    : ensureAllIds ks next requirements
          { a with sourceSequences := sequences, partitionedSources := partitioned } =
        ({ (ensureAllIds ks next requirements a).1 with
            sourceSequences := sequences
            partitionedSources := partitioned },
          (ensureAllIds ks next requirements a).2) := by
  induction ks generalizing next requirements a with
  | nil => rfl
  | cons k ks ih => exact ih _ _ (a.setTaskPartition k ((a.taskPartition k).ensureIds next).1)

theorem createTaskPartitions_setSources (a : HashSplitAssigner) (sequences : Dict String ℕ)
    (partitioned : List String) (r : AssignmentResult)
    : createTaskPartitions
          { a with sourceSequences := sequences, partitionedSources := partitioned } r =
        ({ (a.createTaskPartitions r).1 with
            sourceSequences := sequences
            partitionedSources := partitioned },
          (a.createTaskPartitions r).2) := by
  unfold createTaskPartitions
  dsimp only
  split
  . rfl
  . rw [ensureAllIds_setSources]

end

section

variable {p q : ℕ} {s t : String} {es : List (FteSplit × List ℕ)}

def routing (s : String) (es : List (FteSplit × List ℕ)) : List PartitionUpdate :=
  es.flatMap fun e => e.2.map fun p =>
    { partitionId := p, sourceNodeId := s, splits := [e.1], readyForScheduling := true }

def delivered (p : ℕ) (es : List (FteSplit × List ℕ)) : List FteSplit :=
  es.flatMap fun e => List.replicate (e.2.count p) e.1

theorem splitsTo_routing : splitsTo p s (routing s es) = delivered p es := by
  induction es with
  | nil => rfl
  | cons e es ih =>
    have hhead : splitsTo p s (e.2.map fun p =>
        ({ partitionId := p, sourceNodeId := s, splits := [e.1], readyForScheduling := true } :
          PartitionUpdate)) = List.replicate (e.2.count p) e.1 := by
      induction e.2 with
      | nil => rfl
      | cons q ids ih =>
        rw [List.map_cons, ← List.singleton_append, splitsTo_append, ih]
        by_cases hq : q = p
        . subst hq
          simp [splitsTo, List.replicate_succ]
        . simp [splitsTo, hq]
    unfold routing delivered at *
    rw [List.flatMap_cons, List.flatMap_cons, splitsTo_append, ih, hhead]

theorem splitsTo_routing_of_ne (hts : t ≠ s) : splitsTo p t (routing s es) = [] := by
  apply splitsTo_of_forall_ne
  intro u hu _
  obtain ⟨e, _, hu⟩ := List.mem_flatMap.mp hu
  obtain ⟨_, _, rfl⟩ := mem_map.mp hu
  exact fun hst => hts hst.symm

theorem emits_updateAll (a : HashSplitAssigner) (s : String) (splits : List FteSplit)
    {noMore emitEmpty : Bool} (h : noMore = true ∨ emitEmpty = true) (r : AssignmentResult)
    : Emits r (a.updateAll s splits noMore emitEmpty r) []
        (sending s splits noMore (a.createdTaskPartitions.sortBy id)) [] :=
  emits_foldl_map _ (fun r p _ => emits_appendUpdate r p s splits noMore emitEmpty h) r

end

section

variable {m r : AssignmentResult} {routes : String → List (FteSplit × List ℕ)}
  {ins : String → List FteSplit} {s : String} {splits : List FteSplit}

/--
What the results `m` say so far: `routes` lists the splits of a partitioned source with the task
partitions that they went to, and every task partition has all splits of the replicated sources.
-/
structure Inv (a : HashSplitAssigner) (m : AssignmentResult)
    (routes : String → List (FteSplit × List ℕ)) (ins : String → List FteSplit) : Prop where
  created : AllCreated a
  added : m.partitionsAdded.map (·.partitionId) = a.createdTaskPartitions
  splits : ∀ s, s ∉ a.replicatedSources → (routes s).map Prod.fst = ins s
  routed : ∀ s, s ∉ a.replicatedSources → ∀ p,
    splitsTo p s m.partitionUpdates = delivered p (routes s)
  routes : ∀ s, s ∉ a.replicatedSources → ∀ e ∈ routes s,
    e.1.sourcePartitionId < a.sourcePartitionCount ∧
    (a.taskPartition e.1.sourcePartitionId).Routes s e.2
  sent : ∀ r ∈ a.replicatedSources, ∀ p ∈ a.createdTaskPartitions,
    splitsTo p r m.partitionUpdates = ins r

theorem placeSplits_spec (h : AllCreated a)
    (hknown : ∀ x ∈ splits, x.sourcePartitionId < a.sourcePartitionCount) (r : AssignmentResult)
    : ∃ r' a' es, placeSplits s splits r a = (.ok r', a') ∧ AllCreated a' ∧ SameRouting a a' ∧
        a'.sourceSequences = a.sourceSequences ∧ es.map Prod.fst = splits ∧
        (∀ e ∈ es, (a.taskPartition e.1.sourcePartitionId).Routes s e.2) ∧
        Emits r r' [] (routing s es) [] := by
  induction splits generalizing a r with
  | nil =>
    exact ⟨r, a, [], rfl, h, ⟨rfl, rfl, rfl, fun _ => Same.refl _⟩, rfl, rfl, by simp, Emits.refl r⟩
  | cons x splits ih =>
    have hx := hknown x (by simp)
    obtain ⟨ids, o, hids, hroutes, hready, hsame⟩ :=
      HashTaskPartition.idsForSource_spec (h.ready x.sourcePartitionId hx) s
    let a₁ := a.setTaskPartition x.sourcePartitionId o
    have htask : ∀ j, a₁.taskPartition j =
        if a.sourcePartitionToTaskPartition j =
          a.sourcePartitionToTaskPartition x.sourcePartitionId then o
        else a.taskPartition j := fun j => taskPartition_setTaskPartition
    have hrouting : SameRouting a a₁ := by
      refine ⟨rfl, rfl, rfl, fun k => ?_⟩
      rw [htask]
      split
      . next heq =>
        unfold taskPartition at hsame ⊢
        rw [heq]
        exact hsame
      . exact Same.refl _
    have h₁ : AllCreated a₁ := by
      apply h.of_same hrouting h.flag
      intro k hk
      rw [htask]
      split
      . exact hready
      . exact h.ready k hk
    let r₁ := ids.foldl (fun result id => result.appendSplit id s x) r
    have hemits : Emits r r₁ [] (ids.map fun p =>
        { partitionId := p, sourceNodeId := s, splits := [x], readyForScheduling := true }) [] :=
      emits_foldl_map ids (fun r p _ => emits_appendSplit r p s x) r
    obtain ⟨r', a', es, hrun, h', hrouting', hseq, hfst, hes, hemits'⟩ :=
      ih h₁ (fun y hy => hknown y (by simp [hy])) r₁
    refine ⟨r', a', (x, ids) :: es, ?_, h', hrouting.trans hrouting', hseq, by simp [hfst], ?_, ?_⟩
    . rw [← hrun, placeSplits, Py.bind_apply, Py.get_apply]
      dsimp only
      rw [if_neg (not_le.mpr hx), Py.bind_apply, Py.lift_apply, hids]
      rfl
    . intro e he
      rcases mem_cons.mp he with rfl | he
      . exact hroutes
      . have hback := hrouting.task e.1.sourcePartitionId
        exact (hes e he).of_same ⟨hback.ids.symm, hback.count.symm, hback.splitBy.symm⟩
    . exact hemits.trans hemits'

theorem Inv.of_same {a' : HashSplitAssigner} (h : Inv a m routes ins) (hsame : SameRouting a a')
    (hcreated : AllCreated a') : Inv a' m routes ins := by
  constructor
  case created => exact hcreated
  case added => rw [h.added, hsame.created]
  case splits =>
    rw [hsame.replicated]
    exact h.splits
  case routed =>
    rw [hsame.replicated]
    exact h.routed
  case routes =>
    rw [hsame.replicated, hsame.count]
    intro s hs e he
    obtain ⟨hlt, hroutes⟩ := h.routes s hs e he
    exact ⟨hlt, hroutes.of_same (hsame.task _)⟩
  case sent =>
    rw [hsame.replicated, hsame.created]
    exact h.sent

theorem Inv.emits {m' : AssignmentResult} {us : List PartitionUpdate} {seals : List ℕ}
    (h : Inv a m routes ins) (hm : Emits m m' [] us seals)
    (hus : ∀ p s, splitsTo p s us = []) : Inv a m' routes ins := by
  refine { h with added := ?_, routed := ?_, sent := ?_ }
  . rw [hm.added, append_nil]
    exact h.added
  . intro s hs p
    rw [hm.updates, splitsTo_append, hus, append_nil]
    exact h.routed s hs p
  . intro r hr p hp
    rw [hm.updates, splitsTo_append, hus, append_nil]
    exact h.sent r hr p hp

theorem Inv.distributeSplits (h : Inv a (m.merge r) routes ins) (noMore : Bool)
    (hknown : s ∉ a.replicatedSources → ∀ x ∈ splits, x.sourcePartitionId < a.sourcePartitionCount)
    : ∃ r' a' routes', distributeSplits s splits noMore r a = (.ok r', a') ∧
        SameRouting a a' ∧ a'.sourceSequences = a.sourceSequences ∧
        Inv a' (m.merge r') routes' (update ins s (ins s ++ splits)) := by
  by_cases hs : s ∈ a.replicatedSources
  . let a' := { a with replicatedSplits := a.replicatedSplits.update s [] (· ++ splits) }
    have hsame : SameRouting a a' := ⟨rfl, rfl, rfl, fun _ => Same.refl _⟩
    have hcreated : AllCreated a' := h.created.of_same hsame h.created.flag h.created.ready
    have h' := h.of_same hsame hcreated
    have hupdate : noMore = true ∨ true = true := .inr rfl
    have hm := (emits_updateAll a s splits hupdate r).merge m
    refine ⟨a.updateAll s splits noMore true r, a', routes, ?_, hsame, rfl, ?_⟩
    . rw [HashSplitAssigner.distributeSplits, Py.bind_apply, Py.get_apply]
      dsimp only
      rw [if_pos hs]
      rfl
    have hne : ∀ t, t ∉ a.replicatedSources → t ≠ s := by
      rintro t ht rfl
      exact ht hs
    constructor
    case created => exact hcreated
    case added =>
      rw [hm.added, append_nil]
      exact h.added
    case splits =>
      intro t ht
      rw [update_of_ne (hne t ht)]
      exact h.splits t ht
    case routed =>
      intro t ht p
      rw [hm.updates, splitsTo_append, splitsTo_sending_of_ne (hne t ht), append_nil]
      exact h.routed t ht p
    case routes => exact h'.routes
    case sent =>
      intro t ht p hp
      rw [hm.updates, splitsTo_append, h.sent t ht p hp]
      by_cases hts : t = s
      . subst hts
        rw [update_self, splitsTo_sending (List.mem_sortBy.mpr hp)]
        exact (List.sortBy_perm _ _).nodup_iff.mpr h.created.nodup
      . rw [update_of_ne hts, splitsTo_sending_of_ne hts, append_nil]
  . obtain ⟨r', a', es, hrun, hcreated, hsame, hseq, hfst, hes, hemits⟩ :=
      placeSplits_spec (s := s) h.created (hknown hs) r
    have h' := h.of_same hsame hcreated
    have hm := hemits.merge m
    refine ⟨r', a', update routes s (routes s ++ es), ?_, hsame, hseq, ?_⟩
    . rw [← hrun, HashSplitAssigner.distributeSplits, Py.bind_apply, Py.get_apply]
      dsimp only
      rw [if_neg hs]
    constructor
    case created => exact hcreated
    case added =>
      rw [hm.added, append_nil]
      exact h'.added
    case splits =>
      intro t ht
      by_cases hts : t = s
      . subst hts
        rw [update_self, update_self, List.map_append, h'.splits t ht, hfst]
      . rw [update_of_ne hts, update_of_ne hts]
        exact h'.splits t ht
    case routed =>
      intro t ht p
      rw [hm.updates, splitsTo_append, h'.routed t ht p]
      by_cases hts : t = s
      . subst hts
        rw [update_self, splitsTo_routing]
        exact List.flatMap_append.symm
      . rw [update_of_ne hts, splitsTo_routing_of_ne hts, append_nil]
    case routes =>
      intro t ht e he
      by_cases hts : t = s
      . subst hts
        rw [update_self] at he
        rcases List.mem_append.mp he with he | he
        . exact h'.routes t ht e he
        . have hmem : e.1 ∈ splits := by
            rw [← hfst]
            exact mem_map.mpr ⟨e, he, rfl⟩
          refine ⟨?_, (hes e he).of_same (hsame.task _)⟩
          rw [hsame.count]
          exact hknown hs e.1 hmem
      . rw [update_of_ne hts] at he
        exact h'.routes t ht e he
    case sent =>
      intro t ht p hp
      have hts : t ≠ s := by
        rintro rfl
        rw [hsame.replicated] at ht
        exact hs ht
      rw [hm.updates, splitsTo_append, h'.sent t ht p hp, splitsTo_routing_of_ne hts,
        append_nil, update_of_ne hts]

theorem Inv.completeSource (h : Inv a (m.merge r) routes ins) (s : String)
    : Inv (a.completeSource s r).1 (m.merge (a.completeSource s r).2) routes ins ∧
        SameRouting a (a.completeSource s r).1 ∧
        (a.completeSource s r).1.sourceSequences = a.sourceSequences := by
  let a₁ := { a with completedSources := insert s a.completedSources }
  have hmore : true = true ∨ false = true := .inl rfl
  have hupdate := emits_updateAll a₁ s [] hmore r
  have hnil : ∀ p t, splitsTo p t (sending s [] true (a₁.createdTaskPartitions.sortBy id)) = [] :=
    fun p t => splitsTo_map_eq_nil fun _ _ _ _ => rfl
  have hseal := emits_foldl_seals (a₁.createdTaskPartitions.sortBy id)
    (fun r p _ => emits_appendSeal r p) (a₁.updateAll s [] true false r)
  unfold HashSplitAssigner.completeSource
  dsimp only
  split
  . have hsame : SameRouting a { a₁ with replicatedSplits := ∅ } :=
      ⟨rfl, rfl, rfl, fun _ => Same.refl _⟩
    have hcreated := h.created.of_same hsame h.created.flag h.created.ready
    have hboth := hupdate.trans hseal
    exact ⟨(h.of_same hsame hcreated).emits (hboth.merge m) (by simpa using hnil), hsame, rfl⟩
  . have hsame : SameRouting a a₁ := ⟨rfl, rfl, rfl, fun _ => Same.refl _⟩
    have hcreated := h.created.of_same hsame h.created.flag h.created.ready
    exact ⟨(h.of_same hsame hcreated).emits (hupdate.merge m) hnil, hsame, rfl⟩

theorem assign_spec {inputs : List SplitPayload} {next : ℕ} (noMore : Bool)
    (h : Inv (a.createTaskPartitions {}).1 (m.merge (a.createTaskPartitions {}).2) routes ins)
    (hsplits : splitsFromInputs s inputs (a.sourceSequences.findD s 0) = .ok (splits, next))
    (hknown : s ∉ (a.createTaskPartitions {}).1.replicatedSources → ∀ x ∈ splits,
      x.sourcePartitionId < (a.createTaskPartitions {}).1.sourcePartitionCount)
    : ∃ r a' routes', assign s inputs noMore a = (.ok r, a') ∧
        SameRouting (a.createTaskPartitions {}).1 a' ∧
        a'.sourceSequences = a.sourceSequences.insert s next ∧
        Inv a' (m.merge r) routes' (update ins s (ins s ++ splits)) := by
  let a₀ := { a with
    sourceSequences := a.sourceSequences.insert s next
    partitionedSources := if a.allSources = [] then [s] else a.partitionedSources }
  have hcreate := createTaskPartitions_setSources a (a.sourceSequences.insert s next)
    (if a.allSources = [] then [s] else a.partitionedSources) {}
  have hsame₀ : SameRouting (a.createTaskPartitions {}).1 (a₀.createTaskPartitions {}).1 := by
    rw [hcreate]
    exact ⟨rfl, rfl, rfl, fun _ => Same.refl _⟩
  have h₀ : Inv (a₀.createTaskPartitions {}).1 (m.merge (a₀.createTaskPartitions {}).2) routes
      ins := by
    have hcreated : AllCreated (a₀.createTaskPartitions {}).1 := by
      apply h.created.of_same hsame₀
      . rw [hcreate]
        exact h.created.flag
      . rw [hcreate]
        exact h.created.ready
    have hr : (a₀.createTaskPartitions {}).2 = (a.createTaskPartitions {}).2 := by rw [hcreate]
    rw [hr]
    exact h.of_same hsame₀ hcreated
  have hseq₀ : (a₀.createTaskPartitions {}).1.sourceSequences = a.sourceSequences.insert s next := by
    rw [hcreate]
  rw [← hsame₀.replicated, ← hsame₀.count] at hknown
  obtain ⟨r₁, a₁, routes₁, hrun₁, hsame₁, hseq₁, h₁⟩ := h₀.distributeSplits noMore hknown
  have hassign : assign s inputs noMore a =
      (do
        let result ← distributeSplits s splits noMore (a₀.createTaskPartitions {}).2
        if noMore then
          let self ← Py.get
          Py.set (self.completeSource s result).1
          return (self.completeSource s result).2
        else
          return result : Py HashSplitAssigner AssignmentResult)
        (a₀.createTaskPartitions {}).1 := by
    rw [assign, Py.bind_apply, Py.get_apply]
    dsimp only
    rw [Py.bind_apply, Py.lift_apply, hsplits]
    rfl
  rw [Py.bind_apply, hrun₁] at hassign
  cases noMore with
  | false =>
    exact ⟨r₁, a₁, routes₁, hassign, hsame₀.trans hsame₁, hseq₁.trans hseq₀, h₁⟩
  | true =>
    obtain ⟨h₂, hsame₂, hseq₂⟩ := h₁.completeSource s
    exact ⟨_, _, routes₁, hassign, (hsame₀.trans hsame₁).trans hsame₂,
      (hseq₂.trans hseq₁).trans hseq₀, h₂⟩

end

section

variable {m : AssignmentResult} {routes : String → List (FteSplit × List ℕ)}
  {ins rest : String → List FteSplit} {calls : List AssignCall}

def assignCall (call : AssignCall) : Py HashSplitAssigner AssignmentResult :=
  assign call.sourceNodeId call.inputs call.noMoreInputs

theorem assignCall_spec {call : AssignCall}
    (h : Inv (a.createTaskPartitions {}).1 (m.merge (a.createTaskPartitions {}).2) routes ins)
    (hrest : ∀ s, ∃ next, splitsFromInputs s (inputsOf s (call :: calls))
      (a.sourceSequences.findD s 0) = .ok (rest s, next))
    (hknown : ∀ s, s ∉ (a.createTaskPartitions {}).1.replicatedSources → ∀ x ∈ rest s,
      x.sourcePartitionId < (a.createTaskPartitions {}).1.sourcePartitionCount)
    : ∃ r a' routes', ∃ ins' rest' : String → List FteSplit, assignCall call a = (.ok r, a') ∧
        SameRouting (a.createTaskPartitions {}).1 a' ∧ Inv a' (m.merge r) routes' ins' ∧
        (∀ s, ins' s ++ rest' s = ins s ++ rest s) ∧
        (∀ s, ∃ next, splitsFromInputs s (inputsOf s calls)
          (a'.sourceSequences.findD s 0) = .ok (rest' s, next)) ∧
        (∀ s, ∀ x ∈ rest' s, x ∈ rest s) := by
  obtain ⟨last, hcall⟩ := hrest call.sourceNodeId
  rw [AssignCall.inputsOf_cons_self] at hcall
  obtain ⟨splits, mid, splits', hsplits, hsplits', hsum⟩ := splitsFromInputs_append_eq_ok hcall
  obtain ⟨r, a', routes', hrun, hsame, hseq, h'⟩ := assign_spec call.noMoreInputs h hsplits
    (fun hs x hx => hknown _ hs x (by rw [hsum]; exact List.mem_append_left _ hx))
  refine ⟨r, a', routes', _, update rest call.sourceNodeId splits', hrun, hsame, h', ?_, ?_, ?_⟩
  . intro s
    by_cases hs : s = call.sourceNodeId
    . subst hs
      rw [update_self, update_self, hsum, List.append_assoc]
    . rw [update_of_ne hs, update_of_ne hs]
  . intro s
    rw [hseq]
    by_cases hs : s = call.sourceNodeId
    . subst hs
      rw [update_self, Dict.findD, Dict.find?_insert_self]
      exact ⟨last, hsplits'⟩
    . rw [update_of_ne hs, Dict.findD, Dict.find?_insert_of_ne _ _ hs]
      obtain ⟨next, hs'⟩ := hrest s
      rw [AssignCall.inputsOf_cons_of_ne (Ne.symm hs)] at hs'
      exact ⟨next, hs'⟩
  . intro s x hx
    by_cases hs : s = call.sourceNodeId
    . subst hs
      rw [update_self] at hx
      rw [hsum]
      exact List.mem_append_right _ hx
    . rw [update_of_ne hs] at hx
      exact hx

theorem Inv.run (h : Inv a m routes ins) (hrest : ∀ s, ∃ next, splitsFromInputs s (inputsOf s calls)
      (a.sourceSequences.findD s 0) = .ok (rest s, next))
    (hknown : ∀ s, s ∉ a.replicatedSources → ∀ x ∈ rest s,
      x.sourcePartitionId < a.sourcePartitionCount)
    : ∃ a' routes', SameRouting a a' ∧
        Inv a' (mergedResult assignCall calls a m) routes' (fun s => ins s ++ rest s) := by
  induction calls generalizing a m routes ins rest with
  | nil =>
    have hnil : ∀ s, rest s = [] := by
      intro s
      obtain ⟨next, hs⟩ := hrest s
      exact (congrArg Prod.fst (Except.ok.inj hs)).symm
    refine ⟨a, routes, ⟨rfl, rfl, rfl, fun _ => Same.refl _⟩, ?_⟩
    simp only [hnil, append_nil]
    exact h
  | cons call calls ih =>
    have hcreate := createTaskPartitions_of_created h.created.flag {}
    obtain ⟨r, a', routes', ins', rest', hrun, hsame, h', hsum, hrest', hsub⟩ :=
      assignCall_spec (by rw [hcreate, merge_empty]; exact h) hrest (by rw [hcreate]; exact hknown)
    rw [hcreate] at hsame
    obtain ⟨a'', routes'', hsame', h''⟩ := ih h' hrest' (by
      rw [hsame.replicated, hsame.count]
      exact fun s hs x hx => hknown s hs x (hsub s x hx))
    refine ⟨a'', routes'', hsame.trans hsame', ?_⟩
    rw [mergedResult, hrun]
    simp only [hsum] at h''
    exact h''

def destOf (es : List (FteSplit × List ℕ)) (i : ℕ) : List ℕ := ((es[i]?).map Prod.snd).getD []

theorem delivered_eq (es : List (FteSplit × List ℕ)) (p : ℕ)
    : delivered p es =
        (es.map Prod.fst).zipIdx.flatMap fun x => List.replicate ((destOf es x.2).count p) x.1 := by
  have hfst : es = es.zipIdx.map Prod.fst := (List.zipIdx_map_fst 0 es).symm
  unfold delivered
  conv_lhs => rw [hfst]
  rw [List.flatMap_map, List.zipIdx_map, List.flatMap_map]
  apply List.flatMap_congr
  intro x hx
  have hget : es[x.2]? = some x.1 := List.mk_mem_zipIdx_iff_getElem?.mp hx
  simp [destOf, hget]

theorem Inv.mem_tasks (h : Inv a m routes ins) {s : String} (hs : s ∉ a.replicatedSources) {p : ℕ}
    {x : FteSplit} (hx : x ∈ splitsTo p s m.partitionUpdates) :
    p ∈ (a.taskPartition x.sourcePartitionId).taskPartitionIds := by
  rw [h.routed s hs p] at hx
  obtain ⟨e, he, hx⟩ := List.mem_flatMap.mp hx
  obtain ⟨hcount, rfl⟩ := List.mem_replicate.mp hx
  exact (h.routes s hs e he).2.subset (List.count_pos_iff.mp (Nat.pos_of_ne_zero hcount))

theorem Inv.existsUnique (h : Inv a m routes ins) {sources : List String} (hne : sources ≠ [])
    (hsources : ∀ s ∈ sources, s ∉ a.replicatedSources) {k : ℕ} (hk : k < a.sourcePartitionCount)
    (hsplit : (a.taskPartition k).subPartitionCount = 1 ∨
      ∃ s ∈ sources, (a.taskPartition k).splitBySource = some s)
    {choice : String → ℕ}
    (hchoice : ∀ s ∈ sources, ∃ x, (ins s)[choice s]? = some x ∧ x.sourcePartitionId = k) :
    ∃! p, ∀ s ∈ sources, p ∈ destOf (routes s) (choice s) := by
  apply Routes.existsUnique (h.created.ready k hk) hne hsplit
  intro s hs
  obtain ⟨x, hx, rfl⟩ := hchoice s hs
  rw [← h.splits s (hsources s hs), List.getElem?_map, Option.map_eq_some_iff] at hx
  obtain ⟨e, he, rfl⟩ := hx
  have hroutes := (h.routes s (hsources s hs) e (List.mem_of_getElem? he)).2
  simpa [destOf, he] using hroutes

theorem new_eq_ok {config : Config} (h : new config = .ok a)
    : (∀ s, s ∈ a.replicatedSources ↔ s ∈ config.replicatedSources) ∧ a.sourceSequences = ∅ ∧
        a.allTaskPartitionsCreated = false := by
  obtain ⟨_, -, h⟩ := Except.ok_of_bind h
  obtain ⟨entries, -, h⟩ := Except.ok_of_bind h
  cases h
  simp

theorem hash_assignment_colocates (config : Config) (a : HashSplitAssigner)
    (hnew : new config = .ok a) (hvalid : ∀ k < a.sourcePartitionCount, (a.taskPartition k).Valid)
    (calls : List AssignCall) (splits : String → List FteSplit) (hinputs : ∀ s, ∃ next,
      splitsFromInputs s (AssignCall.inputsOf s calls) 0 = .ok (splits s, next))
    (hknown : ∀ s, s ∉ config.replicatedSources → ∀ x ∈ splits s,
      x.sourcePartitionId < a.sourcePartitionCount)
    : let merged := AssignCall.mergedResult assignCall calls a {}
      let created := merged.partitionsAdded.map (·.partitionId)
      let tasksOf k := ((a.createTaskPartitions {}).1.taskPartition k).taskPartitionIds
      created.Nodup ∧
      (calls ≠ [] → ∀ p, p ∈ created ↔ ∃ k < a.sourcePartitionCount, p ∈ tasksOf k) ∧
      (∃ dest : String → ℕ → List ℕ,
        (∀ s, s ∉ config.replicatedSources → ∀ p, splitsTo p s merged.partitionUpdates =
          (splits s).zipIdx.flatMap fun x => List.replicate ((dest s x.2).count p) x.1) ∧
        (∀ sources : List String, sources ≠ [] → (∀ s ∈ sources, s ∉ config.replicatedSources) →
          ∀ k < a.sourcePartitionCount, ((a.taskPartition k).subPartitionCount = 1 ∨
            ∃ s ∈ sources, (a.taskPartition k).splitBySource = some s) →
          ∀ choice : String → ℕ, (∀ s ∈ sources, ∃ x, (splits s)[choice s]? = some x ∧
            x.sourcePartitionId = k) →
          ∃! p, ∀ s ∈ sources, p ∈ dest s (choice s))) ∧
      (∀ k k', (tasksOf k).Disjoint (tasksOf k') → ∀ p s s' x y,
        s ∉ config.replicatedSources → s' ∉ config.replicatedSources →
        x.sourcePartitionId = k → y.sourcePartitionId = k' →
        ¬(x ∈ splitsTo p s merged.partitionUpdates ∧ y ∈ splitsTo p s' merged.partitionUpdates)) ∧
      (∀ r ∈ config.replicatedSources, ∀ p ∈ created,
        splitsTo p r merged.partitionUpdates = splits r) := by
  obtain ⟨hreplicated, hsequences, hflag⟩ := new_eq_ok hnew
  intro merged created tasksOf
  cases calls with
  | nil =>
    have hnil : ∀ s, splits s = [] := by
      intro s
      obtain ⟨next, hs⟩ := hinputs s
      exact (congrArg Prod.fst (Except.ok.inj hs)).symm
    have hmerged : merged = {} := rfl
    refine ⟨by simp [created, hmerged], by simp, ⟨fun _ _ => [], ?_, ?_⟩, ?_, ?_⟩
    . simp [hmerged, hnil]
    . intro sources hne _ k _ _ choice hchoice
      obtain ⟨s, hs⟩ := List.exists_mem_of_ne_nil _ hne
      obtain ⟨x, hx, -⟩ := hchoice s hs
      simp [hnil] at hx
    . simp [hmerged]
    . simp [created, hmerged]
  | cons call calls =>
    obtain ⟨hcreated, hcount, hrep, -, hstatic, hemits, hadded⟩ :=
      createTaskPartitions_spec hflag hvalid
    have hinit : Inv (a.createTaskPartitions {}).1
        (merge {} (a.createTaskPartitions {}).2) (fun _ => []) fun _ => [] := by
      have hupdates : (merge {} (a.createTaskPartitions {}).2).partitionUpdates = [] := by
        rw [(hemits.merge {}).updates]
        rfl
      constructor
      case created => exact hcreated
      case added => exact hadded
      case splits => simp
      case routed => simp [hupdates, delivered]
      case routes => simp
      case sent => simp [hupdates]
    obtain ⟨r, a', routes', ins', rest', hrun, hsame, h', hsum, hrest', hsub⟩ :=
      assignCall_spec hinit (by rw [hsequences]; exact hinputs)
        (by rw [hrep, hcount]; exact fun s hs => hknown s (by rw [← hreplicated]; exact hs))
    obtain ⟨a'', routes, hsame', h⟩ := h'.run hrest' (by
      rw [hsame.replicated, hsame.count, hrep, hcount]
      exact fun s hs x hx => hknown s (by rw [← hreplicated]; exact hs) x (hsub s x hx))
    have hrouting := hsame.trans hsame'
    have hmerged : merged = mergedResult assignCall calls a' (merge {} r) := by
      unfold merged
      rw [mergedResult, hrun]
    simp only [hsum, List.nil_append] at h
    rw [← hmerged] at h
    have hnot : ∀ s, s ∉ config.replicatedSources → s ∉ a''.replicatedSources := by
      intro s hs
      rw [hrouting.replicated, hrep, hreplicated]
      exact hs
    have htasks : ∀ k, (a''.taskPartition k).taskPartitionIds = tasksOf k :=
      fun k => (hrouting.task k).ids
    have hcreated' : created = (a.createTaskPartitions {}).1.createdTaskPartitions := by
      unfold created
      rw [h.added, hrouting.created]
    refine ⟨?_, fun _ p => ?_, ⟨fun s => destOf (routes s), ?_, ?_⟩, ?_, ?_⟩
    . rw [hcreated']
      exact hcreated.nodup
    . rw [hcreated', hcreated.mem, hcount]
    . intro s hs p
      rw [h.routed s (hnot s hs) p, delivered_eq, h.splits s (hnot s hs)]
    . intro sources hne hsources k hk hsplit choice hchoice
      apply h.existsUnique hne (fun s hs => hnot s (hsources s hs)) _ _ hchoice
      . rw [hrouting.count, hcount]
        exact hk
      . rw [(hrouting.task k).count, (hrouting.task k).splitBy, (hstatic k).1, (hstatic k).2]
        exact hsplit
    . rintro k k' hdisjoint p s s' x y hs hs' rfl rfl ⟨hx, hy⟩
      have hpx := h.mem_tasks (hnot s hs) hx
      have hpy := h.mem_tasks (hnot s' hs') hy
      rw [htasks] at hpx hpy
      exact hdisjoint hpx hpy
    . intro r hr p hp
      apply h.sent r _ p
      . rw [hrouting.created, ← hcreated']
        exact hp
      . rw [hrouting.replicated, hrep, hreplicated]
        exact hr

theorem hash_assignment_colocates_split_partition
    : let config : Config := {
        sourcePartitionCount := 1
        partitionedSources := ["large", "small"]
        replicatedSources := ["r"]
        sourcePartitionToTaskPartition :=
          some (Dict.ofKeys [0] fun _ => .fields (some 2) none (some "large") none) }
      let split : SplitPayload := { kind := some "exchange" }
      let calls : List AssignCall :=
        [⟨"large", [split, split], true⟩, ⟨"small", [split], true⟩, ⟨"r", [split], true⟩]
      ∃ (a : HashSplitAssigner) (splits : String → List FteSplit), new config = .ok a ∧
        (splits "large").length = 2 ∧ (splits "small").length = 1 ∧
        ∃ dest : String → ℕ → List ℕ,
          (∃! p, ∀ s ∈ ["large", "small"], p ∈ dest s (if s = "large" then 1 else 0)) ∧
          ∀ p, splitsTo p "large" (AssignCall.mergedResult assignCall calls a {}).partitionUpdates =
            (splits "large").zipIdx.flatMap fun x =>
              List.replicate ((dest "large" x.2).count p) x.1 := by
  intro config split calls
  let splits : String → List FteSplit := fun s => readSplits s (inputsOf s calls)
  have hother : ∀ s ∉ ["large", "small", "r"], inputsOf s calls = [] := by
    intro s hs
    simp only [mem_cons, List.not_mem_nil, or_false, not_or] at hs
    simp [inputsOf, calls, Ne.symm hs.1, Ne.symm hs.2.1, Ne.symm hs.2.2]
  have hok : ∀ s ∈ ["large", "small", "r"],
      (splitsFromInputs s (inputsOf s calls) 0).isOk = true := by
    decide +kernel
  have hinputs : ∀ s, ∃ next,
      splitsFromInputs s (inputsOf s calls) 0 = .ok (splits s, next) := by
    intro s
    apply splitsFromInputs_of_isOk
    by_cases hs : s ∈ ["large", "small", "r"]
    . exact hok s hs
    . rw [hother s hs]
      rfl
  have hknown : ∀ s, s ∉ config.replicatedSources → ∀ x ∈ splits s, x.sourcePartitionId < 1 := by
    intro s _
    by_cases hs : s ∈ ["large", "small", "r"]
    . have hall : ∀ s ∈ ["large", "small", "r"], ∀ x ∈ splits s, x.sourcePartitionId < 1 := by
        decide +kernel
      exact hall s hs
    . simp [splits, hother s hs, readSplits, splitsFromInputs, Except.toOption]
  obtain ⟨a, hnew, hcount, hsplit, hvalid⟩ : ∃ a, new config = .ok a ∧ a.sourcePartitionCount = 1 ∧
      (a.taskPartition 0).splitBySource = some "large" ∧ (a.taskPartition 0).Valid :=
    ⟨_, rfl, rfl, rfl, by decide⟩
  have hchoice : ∀ s ∈ ["large", "small"],
      ((splits s)[if s = "large" then 1 else 0]?).map (·.sourcePartitionId) = some 0 := by
    decide +kernel
  obtain ⟨-, -, ⟨dest, hdest, hunique⟩, -, -⟩ := hash_assignment_colocates config a hnew
    (by rw [hcount]; intro k hk; obtain rfl := Nat.lt_one_iff.mp hk; exact hvalid)
    calls splits hinputs (by rw [hcount]; exact hknown)
  refine ⟨a, splits, hnew, by decide +kernel, by decide +kernel, dest, ?_,
    hdest "large" (by decide)⟩
  have hsources : ∀ s ∈ ["large", "small"], s ∉ config.replicatedSources := by decide
  refine hunique ["large", "small"] (by decide) hsources 0 (by rw [hcount]; decide)
    (.inr ⟨"large", by decide, hsplit⟩) (fun s => if s = "large" then 1 else 0) ?_
  exact fun s hs => Option.map_eq_some_iff.mp (hchoice s hs)

end

end HashSplitAssigner

end Vane
