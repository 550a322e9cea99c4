import Vane.Ray.ResourceLedger

/-! This module contains the abstract ledger: one list of charges, each on a node and on a stage. -/

namespace Vane

open List (filter_congr filter_filter foldl_map map_congr_left map_cons map_flatMap map_map
  mem_filter mem_map mem_of_mem_filter sum_cons)
open Prod (fst snd)

namespace ResourceVector

@[simp]
theorem ofObjectStore_zero : ofObjectStore 0 = 0 := rfl

theorem ofObjectStore_add (a b : ℕ) :
    ofObjectStore (a + b) = ofObjectStore a + ofObjectStore b := by
  ext <;> simp [ofObjectStore]

theorem ofObjectStore_sum (l : List ℕ) : ofObjectStore l.sum = (l.map ofObjectStore).sum := by
  induction l with
  | nil => rfl
  | cons a l ih => rw [sum_cons, ofObjectStore_add, ih, map_cons, sum_cons]

end ResourceVector

structure Charge where
  nodeId : String
  stageId : String
  resources : ResourceVector

def Charge.onNode (c : Charge) : String × ResourceVector := (c.nodeId, c.resources)

def Charge.onStage (c : Charge) : String × ResourceVector := (c.stageId, c.resources)

namespace Ledger

variable {l : Ledger}
  {o : OutputBlockLease} {credit : ContinuationCredit} {outputs : List OutputBlockLease} {k : String}

def resident (l : Ledger) (p : ActorPlacement) : ResourceVector :=
  match l.graph.stage? p.stageId with
  | none => 0
  | some stage => stage.residentPerActor

def taskCharge (l : Ledger) (lease : TaskLease) : ResourceVector :=
  match (l.continuationCreditByBorrower.find? lease.leaseId).bind
      fun creditId => l.continuationCredits.find? creditId with
  | none => lease.resources.withObjectStore
      (lease.resources.objectStoreBytes +
        max lease.outputWindowBytes (l.liveOutputBytesForTask lease.leaseId))
  | some credit => l.borrowedTaskUsage lease.resources lease.outputWindowBytes credit

def isOrphan (l : Ledger) (output : OutputBlockLease) : Bool :=
  l.creditOf? output = none ∧ l.taskLeases.find? output.taskLeaseId = none

def overflow (l : Ledger) (credit : ContinuationCredit) : List (String × ℕ) :=
  l.creditExcessByStage credit.creditId (l.outputsByCreditAndStage.findD credit.creditId ∅)

/--
All charges of a ledger. A placement, a credit and a live task are charged once, an output without
a live task and without a credit is charged for itself, and an idle credit is charged once for what
its outputs take beyond it.
-/
def charges (l : Ledger) : List Charge :=
  l.allocation.actorPlacements.map (fun p => ⟨p.nodeId, p.stageId, l.resident p⟩) ++
  l.continuationCredits.values.map (fun c => ⟨c.nodeId, c.reservationStageId, c.resources⟩) ++
  l.taskLeases.values.map (fun t => ⟨t.nodeId, t.stageId, l.taskCharge t⟩) ++
  (l.outputLeases.values.filter l.isOrphan).map
    (fun o => ⟨o.nodeId, o.producerStageId, .ofObjectStore o.sizeBytes⟩) ++
  (l.continuationCredits.values.filter l.isIdle).flatMap fun c =>
    (l.overflow c).map fun excess => ⟨c.nodeId, excess.1, .ofObjectStore excess.2⟩

structure Consistent (l : Ledger) : Prop where
  placed : ∀ p ∈ l.allocation.actorPlacements, ∃ stage, l.graph.stage? p.stageId = some stage
  borrower : ∀ t c, l.continuationCreditByBorrower.find? t = some c ↔
    ∃ credit, l.continuationCredits.find? c = some credit ∧ credit.borrowedByTaskLeaseId = some t
  borrower_node : ∀ credit ∈ l.continuationCredits.values, ∀ task,
    credit.borrowedByTaskLeaseId.bind (fun t => l.taskLeases.find? t) = some task →
      task.nodeId = credit.nodeId
  output_credit : ∀ o ∈ l.outputLeases.values, ∀ credit, l.creditOf? o = some credit →
    o.nodeId = credit.nodeId
  output_task : ∀ o ∈ l.outputLeases.values, ∀ task,
    l.taskLeases.find? o.taskLeaseId = some task →
      o.nodeId = task.nodeId ∧ o.producerStageId = task.stageId ∧
        o.continuationCreditId = l.continuationCreditByBorrower.find? o.taskLeaseId
  task_stage : ∀ task ∈ l.taskLeases.values, task.stageId ∈ l.graph.stageIds
  credit_stage : ∀ credit ∈ l.continuationCredits.values,
    credit.reservationStageId ∈ l.graph.stageIds
  output_stage : ∀ o ∈ l.outputLeases.values, o.producerStageId ∈ l.graph.stageIds

/-! The charges seen through a predicate on nodes. -/

theorem sum_coverStages (window : ℕ) (loads : List (String × ℕ)) :
    ((coverStages window loads).map snd).sum = (loads.map snd).sum - window := by
  induction loads generalizing window with
  | nil => simp [coverStages]
  | cons load loads ih =>
    simp only [coverStages, map_cons, sum_cons, ih]
    omega

theorem map_fst_coverStages (window : ℕ) (loads : List (String × ℕ)) :
    (coverStages window loads).map fst = loads.map fst := by
  induction loads generalizing window with
  | nil => rfl
  | cons load loads ih => simp only [coverStages, map_cons, ih]

theorem creditOf?_eq_some (h : l.creditOf? o = some credit) :
    o.continuationCreditId = some credit.creditId ∧
      l.continuationCredits.find? credit.creditId = some credit := by
  obtain ⟨creditId, hid, hcredit⟩ := Option.bind_eq_some_iff.mp h
  have hkey := l.continuationCredits.keyed creditId credit hcredit
  rw [hkey]
  exact ⟨hid, hcredit⟩

theorem idleCreditOf?_eq_some_iff :
    l.idleCreditOf? o = some credit ↔ l.creditOf? o = some credit ∧ l.isIdle credit := by
  unfold idleCreditOf?
  rw [Option.filter_eq_some_iff]

theorem mem_idleOutputs {x : String × OutputBlockLease} (h : x ∈ l.idleOutputs outputs) :
    x.2 ∈ outputs ∧ ∃ credit ∈ l.continuationCredits.values,
      l.isIdle credit ∧ credit.creditId = x.1 ∧ l.idleCreditOf? x.2 = some credit := by
  obtain ⟨o, ho, hx⟩ := List.mem_filterMap.mp h
  obtain ⟨credit, hcredit, rfl⟩ := Option.map_eq_some_iff.mp hx
  have hidle := idleCreditOf?_eq_some_iff.mp hcredit
  refine ⟨ho, credit, ?_, hidle.2, rfl, hcredit⟩
  exact Dict.mem_values_of_find? (creditOf?_eq_some hidle.1).2

theorem not_mem_keys_of_not_idle {β : Type} {d : Dict String β}
    (hmem : credit ∈ l.continuationCredits.values)
    (hidle : ¬l.isIdle credit) (hkeys : ∀ k ∈ d.keys, k ∈ (l.idleOutputs outputs).map fst) :
    credit.creditId ∉ d.keys := by
  intro hk
  obtain ⟨x, hx, hxid⟩ := mem_map.mp (hkeys _ hk)
  obtain ⟨-, other, hother, hotherIdle, hid, -⟩ := mem_idleOutputs hx
  have hsame : other = credit := by
    have h := Table.find?_key_of_mem hother
    rw [hid, hxid, Table.find?_key_of_mem hmem] at h
    exact (Option.some.inj h).symm
  rw [hsame] at hotherIdle
  exact hidle hotherIdle

theorem mem_keys_foldl_update_of {α β : Type} {xs : List (String × α)} {e : β} {f : α → β → β}
    {d : Dict String β} (h : k ∈ (xs.foldl (fun d x => d.update x.1 e (f x.2)) d).keys) :
    k ∈ d.keys ∨ k ∈ xs.map fst := by
  induction xs generalizing d with
  | nil => exact .inl h
  | cons x xs ih =>
    rw [List.foldl_cons] at h
    rcases ih h with h | h
    . rw [Dict.update, Dict.mem_keys_insert] at h
      rcases h with rfl | h
      . exact .inr (by simp)
      . exact .inl h
    . exact .inr (by simp [h])

theorem mem_keys_outputsByIdleCredit
    (h : k ∈ (l.outputsByIdleCredit outputs).keys) : k ∈ (l.idleOutputs outputs).map fst := by
  rcases mem_keys_foldl_update_of (f := fun (o : OutputBlockLease) n => n + o.sizeBytes) h with h | h
  . simp [Dict.keys] at h
  . exact h

theorem mem_keys_outputsByCreditAndStage (h : k ∈ l.outputsByCreditAndStage.keys) :
    k ∈ (l.idleOutputs l.outputLeases.values).map fst := by
  rcases mem_keys_foldl_update_of
    (f := fun (o : OutputBlockLease) (d : Dict String ℕ) =>
      d.update o.producerStageId 0 (· + o.sizeBytes)) h with h | h
  . simp [Dict.keys] at h
  . exact h

theorem overflow_of_not_mem
    (h : credit.creditId ∉ l.outputsByCreditAndStage.keys) : l.overflow credit = [] := by
  unfold overflow creditExcessByStage
  rw [Dict.findD, Dict.find?_eq_none_iff.mpr h]
  cases l.continuationCredits.find? credit.creditId with
  | none => rfl
  | some other => rfl

section

variable (hmem : credit ∈ l.continuationCredits.values) (hidle : l.isIdle credit = true)

include hmem hidle

theorem idleCreditOf?_of_name :
    o.continuationCreditId = some credit.creditId ↔ l.idleCreditOf? o = some credit := by
  rw [idleCreditOf?_eq_some_iff]
  constructor
  . intro h
    refine ⟨?_, hidle⟩
    unfold creditOf?
    rw [h]
    exact Table.find?_key_of_mem hmem
  . rintro ⟨h, -⟩
    exact (creditOf?_eq_some h).1

theorem filter_idleOutputs (outputs : List OutputBlockLease) :
    (l.idleOutputs outputs).filter (·.1 = credit.creditId) =
      (outputs.filter (·.continuationCreditId = some credit.creditId)).map
        fun o => (credit.creditId, o) := by
  unfold idleOutputs
  induction outputs with
  | nil => rfl
  | cons o outputs ih =>
    rw [List.filterMap_cons, List.filter_cons]
    by_cases h : o.continuationCreditId = some credit.creditId
    . rw [if_pos (by simpa using h), (idleCreditOf?_of_name hmem hidle).mp h]
      simp only [Option.map_some, map_cons]
      rw [List.filter_cons_of_pos (by simp), ih]
    . rw [if_neg (by simpa using h), ← ih]
      cases hidleOf : l.idleCreditOf? o with
      | none => rfl
      | some other =>
        have hother := creditOf?_eq_some (idleCreditOf?_eq_some_iff.mp hidleOf).1
        simp only [Option.map_some]
        rw [List.filter_cons_of_neg]
        intro heq
        simp only [decide_eq_true_eq] at heq
        rw [← heq] at h
        exact h hother.1

theorem findD_outputsByIdleCredit (outputs : List OutputBlockLease) :
    (l.outputsByIdleCredit outputs).findD credit.creditId 0 =
      ((outputs.filter (·.continuationCreditId = some credit.creditId)).map (·.sizeBytes)).sum := by
  unfold outputsByIdleCredit
  rw [Dict.findD_foldl_update fst 0
      (fun (x : String × OutputBlockLease) n => n + x.2.sizeBytes),
    filter_idleOutputs hmem hidle, foldl_map, List.sum_eq_foldl, foldl_map]
  rfl

theorem findD_outputsByCreditAndStage :
    l.outputsByCreditAndStage.findD credit.creditId ∅ =
      ((l.outputLeases.values.filter (·.continuationCreditId = some credit.creditId)).map
        fun o => (o.producerStageId, o.sizeBytes)).foldl
          (fun d load => d.update load.1 0 (· + load.2)) ∅ := by
  unfold outputsByCreditAndStage
  rw [Dict.findD_foldl_update fst ∅
      (fun (x : String × OutputBlockLease) (d : Dict String ℕ) =>
        d.update x.2.producerStageId 0 (· + x.2.sizeBytes)),
    filter_idleOutputs hmem hidle, foldl_map, foldl_map]
  rfl

theorem stage_of_mem_overflow {excess : String × ℕ} (h : excess ∈ l.overflow credit) :
    ∃ o ∈ l.outputLeases.values, o.producerStageId = excess.1 := by
  unfold overflow creditExcessByStage at h
  rw [Table.find?_key_of_mem hmem, findD_outputsByCreditAndStage hmem hidle] at h
  have hfst := List.mem_map_of_mem (f := fst) h
  rw [map_fst_coverStages] at hfst
  obtain ⟨entry, hentry, hstage⟩ := mem_map.mp hfst
  rw [List.mem_sortBy] at hentry
  have hkey := mem_keys_foldl_update (List.mem_map_of_mem (f := fst) hentry)
  rw [hstage] at hkey
  rcases hkey with hkey | hkey
  . simp [Dict.keys] at hkey
  . rw [map_map] at hkey
    obtain ⟨o, ho, hproducer⟩ := mem_map.mp hkey
    exact ⟨o, mem_of_mem_filter ho, hproducer⟩

theorem sum_overflow :
    ((l.overflow credit).map snd).sum =
      l.liveOutputBytesForCredit credit.creditId - credit.resources.objectStoreBytes := by
  unfold overflow creditExcessByStage
  rw [Table.find?_key_of_mem hmem]
  simp only
  rw [sum_coverStages, ((List.sortBy_perm _ _).map snd).sum_eq,
    findD_outputsByCreditAndStage hmem hidle]
  change (Dict.values _).sum - _ = _
  rw [sum_values_foldl_update, map_map]
  simp [liveOutputBytesForCredit, Function.comp_def]

end

theorem sum_outputsByIdleCredit (hl : l.Consistent) (nodeId : Option String) :
    ((l.outputsByIdleCredit (l.outputLeases.values.filter (selects nodeId ·.nodeId))).entries.map
        fun e => l.creditExcess e.1 e.2).sum =
      ((l.continuationCredits.values.filter l.isIdle).map fun c =>
        if selects nodeId c.nodeId then
          l.liveOutputBytesForCredit c.creditId - c.resources.objectStoreBytes
        else
          0).sum := by
  rw [Dict.sum_entries_eq_sum_keys _ 0, ← sum_map_ite_zero]
  have hsub : (l.outputsByIdleCredit
      (l.outputLeases.values.filter (selects nodeId ·.nodeId))).keys ⊆
        l.continuationCredits.keys := by
    intro k hk
    obtain ⟨x, hx, rfl⟩ := mem_map.mp (mem_keys_outputsByIdleCredit hk)
    obtain ⟨-, credit, hcredit, -, hid, -⟩ := mem_idleOutputs hx
    exact Table.mem_keys_iff_exists.mpr ⟨credit, hcredit, hid⟩
  have hexcess : ∀ credit ∈ l.continuationCredits.values, ∀ bytes,
      l.creditExcess credit.creditId bytes = bytes - credit.resources.objectStoreBytes := by
    intro credit hcredit bytes
    unfold creditExcess
    rw [Table.find?_key_of_mem hcredit]
  rw [sum_map_of_subset (Dict.nodup_keys _) (Dict.nodup_keys _) hsub, ← Table.map_key_values,
    map_map]
  . congr 1
    apply map_congr_left
    intro credit hcredit
    simp only [Function.comp_apply]
    rw [hexcess credit hcredit]
    by_cases hidle : l.isIdle credit = true
    . rw [if_pos hidle, findD_outputsByIdleCredit hcredit hidle, filter_filter]
      -- The outputs of a credit are all on its node.
      have hnode : ∀ o ∈ l.outputLeases.values, o.continuationCreditId = some credit.creditId →
          o.nodeId = credit.nodeId := by
        intro o ho hname
        exact hl.output_credit o ho credit
          (idleCreditOf?_eq_some_iff.mp ((idleCreditOf?_of_name hcredit hidle).mp hname)).1
      by_cases hsel : selects nodeId credit.nodeId = true
      . rw [if_pos hsel, liveOutputBytesForCredit]
        congr 3
        apply filter_congr
        intro o ho
        by_cases hname : o.continuationCreditId = some credit.creditId
        . rw [hnode o ho hname, hsel, Bool.and_true]
        . simp [hname]
      . rw [if_neg hsel, List.filter_eq_nil_iff.mpr]
        . simp
        . intro o ho hboth
          rw [Bool.and_eq_true, decide_eq_true_eq] at hboth
          rw [hnode o ho hboth.1] at hboth
          exact hsel hboth.2
    . rw [if_neg hidle, Dict.findD, Dict.find?_eq_none_iff.mpr
        (not_mem_keys_of_not_idle hcredit hidle fun k hk => mem_keys_outputsByIdleCredit hk)]
      simp
  . intro k hk hne
    obtain ⟨credit, hcredit, rfl⟩ := Table.mem_keys_iff_exists.mp hk
    rw [hexcess credit hcredit, Dict.findD, Dict.find?_eq_none_iff.mpr hne]
    simp

/-! The three views. -/

@[simp]
theorem selects_none (id : String) : selects none id = true := rfl

theorem selects_some (n id : String) : selects (some n) id = decide (id = n) := by
  unfold selects
  rw [Option.all_some]
  exact decide_eq_decide.mpr eq_comm

theorem taskUsage_eq (hl : l.Consistent) (lease : TaskLease) :
    l.taskUsage lease = .ok (l.taskCharge lease) := by
  unfold taskUsage taskCharge
  cases hborrower : l.continuationCreditByBorrower.find? lease.leaseId with
  | none => rfl
  | some creditId =>
    obtain ⟨credit, hcredit, hby⟩ := (hl.borrower _ _).mp hborrower
    simp only [Option.bind_some, hcredit]
    rw [if_pos hby]

theorem residentOf_eq (hl : l.Consistent) {p : ActorPlacement}
    (hp : p ∈ l.allocation.actorPlacements) : l.residentOf p = .ok (l.resident p) := by
  obtain ⟨stage, hstage⟩ := hl.placed p hp
  unfold residentOf resident
  rw [hstage]

theorem actorResidentUsage_eq (hl : l.Consistent) (nodeId stageId : Option String) :
    l.actorResidentUsage nodeId stageId =
      .ok ((l.allocation.actorPlacements.filter fun p =>
        selects nodeId p.nodeId && selects stageId p.stageId).map l.resident).sum := by
  unfold actorResidentUsage
  simp only
  rw [Except.mapM_eq_ok fun p hp => residentOf_eq hl (mem_of_mem_filter hp)]
  rfl

def viewOfNodes (l : Ledger) (nodeId : Option String) : ResourceVector :=
  loadIn (selects nodeId) (l.charges.map Charge.onNode)

/-! The parts that a view on the nodes consists of. -/

def residentPart (l : Ledger) (nodeId : Option String) : ResourceVector :=
  (l.allocation.actorPlacements.map fun p =>
    if selects nodeId p.nodeId then l.resident p else 0).sum

def creditPart (l : Ledger) (nodeId : Option String) : ResourceVector :=
  (l.continuationCredits.values.map fun c => if selects nodeId c.nodeId then c.resources else 0).sum

def taskPart (l : Ledger) (nodeId : Option String) : ResourceVector :=
  (l.taskLeases.values.map fun t => if selects nodeId t.nodeId then l.taskCharge t else 0).sum

def orphanPart (l : Ledger) (nodeId : Option String) : ResourceVector :=
  ((l.outputLeases.values.filter l.isOrphan).map fun o =>
    if selects nodeId o.nodeId then .ofObjectStore o.sizeBytes else 0).sum

def excessPart (l : Ledger) (nodeId : Option String) : ResourceVector :=
  ((l.continuationCredits.values.filter l.isIdle).map fun c =>
    if selects nodeId c.nodeId then l.idleContinuationOutputExcess c else 0).sum

theorem viewOfNodes_eq (l : Ledger) (nodeId : Option String) :
    l.viewOfNodes nodeId = l.residentPart nodeId + l.creditPart nodeId + l.taskPart nodeId +
      l.orphanPart nodeId + l.excessPart nodeId := by
  unfold residentPart creditPart taskPart orphanPart excessPart
  unfold viewOfNodes charges
  simp only [List.map_append, loadIn_append, map_map]
  congr 1
  . simp only [← loadIn_map]
    rfl
  . rw [map_flatMap]
    unfold loadIn
    rw [map_flatMap, List.flatMap, List.sum_flatten, map_map]
    congr 1
    apply map_congr_left
    intro c hc
    obtain ⟨hmem, hidle⟩ := mem_filter.mp hc
    simp only [map_map, Charge.onNode, Function.comp_def]
    split
    . rw [idleContinuationOutputExcess, ← sum_overflow hmem hidle,
        ResourceVector.ofObjectStore_sum, map_map]
      rfl
    . simp

theorem isUncovered_eq_isOrphan {p : TaskLease → Bool}
    (hp : ∀ task, l.taskLeases.find? o.taskLeaseId = some task → p task = true) :
    l.isUncovered ((l.taskLeases.values.filter p).map (·.leaseId)) o = l.isOrphan o := by
  apply decide_eq_decide.mpr
  apply and_congr_right
  intro _
  rw [← not_iff_not, not_not]
  constructor
  . intro h hnone
    obtain ⟨task, htask, hid⟩ := mem_map.mp h
    rw [← hid, Table.find?_key_of_mem (mem_of_mem_filter htask)] at hnone
    cases hnone
  . intro h
    obtain ⟨task, htask⟩ := Option.ne_none_iff_exists'.mp h
    refine mem_map.mpr ⟨task, mem_filter.mpr ⟨?_, hp task htask⟩, ?_⟩
    . exact Dict.mem_values_of_find? htask
    . exact l.taskLeases.keyed _ _ htask

section

variable (hl : l.Consistent)

include hl

theorem uncovered_node_eq (nodeId : Option String) :
    .ofObjectStore (l.uncoveredInactiveOutputBytes
        ((l.taskLeases.values.filter (selects nodeId ·.nodeId)).map (·.leaseId)) nodeId none) =
      l.orphanPart nodeId + l.excessPart nodeId := by
  unfold orphanPart excessPart
  unfold uncoveredInactiveOutputBytes
  simp only
  rw [ResourceVector.ofObjectStore_add, sum_outputsByIdleCredit hl]
  congr 1
  . rw [sum_map_ite_zero, ResourceVector.ofObjectStore_sum, map_map, filter_filter, filter_filter]
    congr 2
    apply filter_congr
    intro o ho
    rw [Bool.and_comm]
    by_cases hsel : selects nodeId o.nodeId = true
    . rw [isUncovered_eq_isOrphan]
      intro task htask
      rw [← (hl.output_task o ho task htask).1]
      exact hsel
    . simp [hsel]
  . rw [ResourceVector.ofObjectStore_sum, map_map]
    congr 1
    apply map_congr_left
    intro c _
    simp only [Function.comp_apply]
    split
    . rfl
    . rfl

theorem view_eq (nodeId : Option String) :
    (do
      let resident ← l.actorResidentUsage nodeId none
      let tasks ← (l.taskLeases.values.filter (selects nodeId ·.nodeId)).mapM l.taskUsage
      return resident +
        ((l.continuationCredits.values.filter (selects nodeId ·.nodeId)).map (·.resources)).sum +
        tasks.sum +
        ResourceVector.ofObjectStore (l.uncoveredInactiveOutputBytes
          ((l.taskLeases.values.filter (selects nodeId ·.nodeId)).map (·.leaseId)) nodeId none)) =
      (.ok (l.viewOfNodes nodeId) : Except PyError ResourceVector) := by
  rw [actorResidentUsage_eq hl, Except.mapM_eq_ok fun t _ => taskUsage_eq hl t]
  simp only [Except.bind_ok, Except.pure_eq_ok]
  rw [uncovered_node_eq hl, viewOfNodes_eq]
  unfold residentPart creditPart taskPart
  congr 1
  simp only [selects_none, Bool.and_true, sum_map_ite_zero, add_assoc]

theorem queryUsage_eq : l.queryUsage = .ok (l.viewOfNodes none) := by
  rw [← view_eq hl none]
  unfold queryUsage
  simp only [selects_none, List.filter_true, Table.map_key_values]

theorem nodeUsage_eq (n : String) : l.nodeUsage n = .ok (l.viewOfNodes (some n)) := by
  rw [← view_eq hl (some n)]
  unfold nodeUsage
  simp only [selects_some]

end

theorem findD_continuationOutputExcessByStage (l : Ledger) (s : String) :
    l.continuationOutputExcessByStage.findD s 0 =
      ((l.continuationCredits.values.filter l.isIdle).map fun c => loadOn s (l.overflow c)).sum := by
  have hfold : ∀ (loads : List (String × ℕ)) (d : Dict String ℕ),
      (loads.foldl (fun d x => if 0 < x.2 then d.update x.1 0 (· + x.2) else d) d).findD s 0 =
        d.findD s 0 + loadOn s loads := by
    intro loads d
    have hfilter := amount_foldl_update s (loads.filter fun x => 0 < x.2) d
    rw [List.foldl_filter, loadOn_filter] at hfilter
    . rw [Dict.findD_zero, Dict.findD_zero, ← hfilter]
      simp only [decide_eq_true_eq]
    . intro load _ hload
      simpa using hload
  unfold continuationOutputExcessByStage
  rw [hfold, loadOn_flatMap]
  have hempty : (∅ : Dict String ℕ).findD s 0 = 0 := rfl
  rw [hempty, zero_add, Dict.sum_entries_eq_sum_keys _ ∅
    fun creditId byStage => loadOn s (l.creditExcessByStage creditId byStage), ← sum_map_ite_zero]
  have hsub : l.outputsByCreditAndStage.keys ⊆ l.continuationCredits.keys := by
    intro k hk
    obtain ⟨x, hx, rfl⟩ := mem_map.mp (mem_keys_outputsByCreditAndStage hk)
    obtain ⟨-, credit, hcredit, -, hid, -⟩ := mem_idleOutputs hx
    exact Table.mem_keys_iff_exists.mpr ⟨credit, hcredit, hid⟩
  have hzero : ∀ credit : ContinuationCredit, credit.creditId ∉ l.outputsByCreditAndStage.keys →
      loadOn s (l.creditExcessByStage credit.creditId
        (l.outputsByCreditAndStage.findD credit.creditId ∅)) = 0 := by
    intro credit h
    show loadOn s (l.overflow credit) = 0
    rw [overflow_of_not_mem h, loadOn_nil]
  rw [sum_map_of_subset (Dict.nodup_keys _) (Dict.nodup_keys _) hsub, ← Table.map_key_values,
    map_map]
  . congr 1
    apply map_congr_left
    intro credit hcredit
    simp only [Function.comp_apply]
    split
    . rfl
    . next hidle =>
      exact hzero credit (not_mem_keys_of_not_idle hcredit hidle fun k hk =>
        mem_keys_outputsByCreditAndStage hk)
  . intro k hk hne
    obtain ⟨credit, -, rfl⟩ := Table.mem_keys_iff_exists.mp hk
    exact hzero credit hne

theorem stageUsage_eq (hl : l.Consistent) (s : String) :
    l.stageUsage s = .ok (loadOn s (l.charges.map Charge.onStage)) := by
  unfold stageUsage
  simp only
  rw [actorResidentUsage_eq hl, Except.mapM_eq_ok fun t _ => taskUsage_eq hl t]
  simp only [Except.bind_ok, Except.pure_eq_ok, selects_none, Bool.true_and, selects_some]
  unfold charges uncoveredInactiveOutputBytes
  simp only [List.map_append, loadOn_append, map_map]
  rw [ResourceVector.ofObjectStore_add, findD_continuationOutputExcessByStage]
  congr 1
  simp only [add_assoc]
  congr 1
  . exact (loadOn_map s _ _ _).symm
  . congr 1
    . exact (loadOn_map s _ _ _).symm
    . congr 1
      . exact (loadOn_map s _ _ _).symm
      . congr 1
        . rw [ResourceVector.ofObjectStore_sum, map_map]
          refine Eq.trans ?_ (loadOn_map s _ _ _).symm
          rw [filter_filter, filter_filter]
          congr 2
          apply filter_congr
          intro o ho
          by_cases hs : o.producerStageId = s
          . rw [isUncovered_eq_isOrphan, Bool.and_comm]
            intro task htask
            rw [← (hl.output_task o ho task htask).2.1]
            simpa using hs
          . simp [hs]
        . rw [ResourceVector.ofObjectStore_sum, map_map, map_flatMap, loadOn_flatMap]
          congr 1
          apply map_congr_left
          intro c _
          simp only [Function.comp_apply, map_map]
          rw [loadOn, ResourceVector.ofObjectStore_sum, map_map]
          exact (loadOn_map s (l.overflow c) fst fun e =>
            ResourceVector.ofObjectStore e.2).symm

theorem Consistent.charge_stage (hl : l.Consistent) {c : Charge} (hc : c ∈ l.charges) :
    c.stageId ∈ l.graph.stageIds := by
  unfold charges at hc
  simp only [List.mem_append, mem_map, List.mem_flatMap] at hc
  rcases hc with (((⟨p, hp, rfl⟩ | ⟨credit, hcredit, rfl⟩) | ⟨task, htask, rfl⟩) | ⟨o, ho, rfl⟩) |
    ⟨credit, hcredit, excess, hexcess, rfl⟩
  . exact QueryExecutionGraph.mem_stageIds_iff.mpr (hl.placed p hp)
  . exact hl.credit_stage credit hcredit
  . exact hl.task_stage task htask
  . exact hl.output_stage o (mem_of_mem_filter ho)
  . obtain ⟨hmem, hidle⟩ := mem_filter.mp hcredit
    obtain ⟨o, ho, hstage⟩ := stage_of_mem_overflow hmem hidle hexcess
    rw [← hstage]
    exact hl.output_stage o ho

theorem sum_charges_eq (l : Ledger) : l.viewOfNodes none = (l.charges.map (·.resources)).sum := by
  unfold viewOfNodes
  rw [show selects none = fun _ => true from rfl, loadIn_true, map_map]
  rfl

end Ledger

end Vane
