import Vane.Ray.QueryResourceManager.Grants

/-! This module contains the invariant of the actor slots. -/

namespace Vane

def TaskLease.slot? (lease : TaskLease) : Option (String × ℕ) :=
  lease.actorIndex.map fun index => (lease.stageId, index)

def slotHolders (active : Dict (String × ℕ) String) (queued : Dict (String × ℕ) (List String))
    (slot : String × ℕ) : List String :=
  (active.find? slot).toList ++ queued.findD slot []

def Promoted (active : Dict (String × ℕ) String) (queued : Dict (String × ℕ) (List String)) :
    Prop :=
  ∀ slot, active.find? slot = none → queued.findD slot [] = []

section

variable {queued : Dict (String × ℕ) (List String)} {slot other : String × ℕ} {id : String}

theorem findD_enqueue : (queued.update slot [] (· ++ [id])).findD other [] =
    if other = slot then queued.findD other [] ++ [id] else queued.findD other [] := by
  unfold Dict.update Dict.findD
  rw [Dict.find?_insert]
  split
  . next h => rw [h]; rfl
  . rfl

theorem findD_keepQueue (ids : List String) :
    (if ids = [] then queued.erase slot else queued.insert slot ids).findD other [] =
      if other = slot then ids else queued.findD other [] := by
  unfold Dict.findD
  split
  . next hids =>
    rw [Dict.find?_erase, hids]
    split <;> rfl
  . rw [Dict.find?_insert]
    split <;> rfl

end

namespace QueryResourceManager

variable {m : QueryResourceManager}

def holders (m : QueryResourceManager) (slot : String × ℕ) : List String :=
  slotHolders m.activeActorSlots m.queuedActorSlotLeases slot

theorem length_holders (m : QueryResourceManager) (slot : String × ℕ) :
    (m.holders slot).length = m.actorSlotLeaseCount slot := by
  unfold holders slotHolders actorSlotLeaseCount Dict.contains
  rw [List.length_append, Option.length_toList]

theorem occupySlot_eq (hm : Promoted m.activeActorSlots m.queuedActorSlotLeases)
    (slot : String × ℕ) (leaseId : String) :
    ∃ active queued,
      m.occupySlot (some slot) leaseId =
        { m with activeActorSlots := active, queuedActorSlotLeases := queued } ∧
      Promoted active queued ∧
      ∀ other, slotHolders active queued other =
        if other = slot then m.holders other ++ [leaseId] else m.holders other := by
  unfold occupySlot Dict.contains
  simp only
  cases hactive : m.activeActorSlots.find? slot with
  | some owner =>
    refine ⟨m.activeActorSlots, m.queuedActorSlotLeases.update slot [] (· ++ [leaseId]), rfl, ?_, ?_⟩
    . intro other hother
      rw [findD_enqueue, if_neg, hm other hother]
      rintro rfl
      rw [hactive] at hother
      cases hother
    . intro other
      unfold holders slotHolders
      rw [findD_enqueue]
      split
      . rw [List.append_assoc]
      . rfl
  | none =>
    refine ⟨m.activeActorSlots.insert slot leaseId, m.queuedActorSlotLeases, rfl, ?_, ?_⟩
    . intro other hother
      rw [Dict.find?_insert] at hother
      split at hother
      . cases hother
      . exact hm other hother
    . intro other
      unfold holders slotHolders
      rw [Dict.find?_insert]
      split
      . next h =>
        rw [h, hactive, hm slot hactive]
        rfl
      . rfl

theorem vacateSlot_eq (hm : Promoted m.activeActorSlots m.queuedActorSlotLeases)
    (lease : TaskLease) (hmem : ∀ slot ∈ lease.slot?, lease.leaseId ∈ m.holders slot) :
    ∃ active queued,
      m.vacateSlot lease =
        .ok { m with activeActorSlots := active, queuedActorSlotLeases := queued } ∧
      Promoted active queued ∧
      ∀ slot, slotHolders active queued slot =
        if lease.slot? = some slot then (m.holders slot).erase lease.leaseId
        else m.holders slot := by
  unfold vacateSlot
  unfold TaskLease.slot? at hmem ⊢
  cases hindex : lease.actorIndex with
  | none => exact ⟨_, _, rfl, hm, fun _ => rfl⟩
  | some index =>
    simp only [Option.map_some, Option.some.injEq]
    have hholder := hmem (lease.stageId, index) (by rw [hindex]; rfl)
    generalize (lease.stageId, index) = slot at hholder ⊢
    unfold holders slotHolders at hholder ⊢
    by_cases hactive : m.activeActorSlots.find? slot = some lease.leaseId
    . rw [if_pos hactive]
      cases hqueued : m.queuedActorSlotLeases.findD slot [] with
      | nil =>
        refine ⟨m.activeActorSlots.erase slot, m.queuedActorSlotLeases, rfl, ?_, ?_⟩
        . intro other hother
          rw [Dict.find?_erase] at hother
          split at hother
          . next h => rw [h, hqueued]
          . exact hm other hother
        . intro other
          rw [Dict.find?_erase]
          by_cases h : other = slot
          . rw [if_pos h, if_pos h.symm, h, hactive, hqueued]
            simp
          . rw [if_neg h, if_neg (Ne.symm h)]
      | cons next rest =>
        refine ⟨m.activeActorSlots.insert slot next, _, rfl, ?_, ?_⟩
        . intro other hother
          rw [Dict.find?_insert] at hother
          split at hother
          . cases hother
          . next h =>
            rw [findD_keepQueue, if_neg h]
            exact hm other hother
        . intro other
          rw [Dict.find?_insert, findD_keepQueue]
          by_cases h : other = slot
          . rw [if_pos h, if_pos h, if_pos h.symm, h, hactive, hqueued]
            simp
          . rw [if_neg h, if_neg h, if_neg (Ne.symm h)]
    . have hqueued : lease.leaseId ∈ m.queuedActorSlotLeases.findD slot [] := by
        rcases List.mem_append.mp hholder with h | h
        . exact absurd (Option.mem_toList.mp h) hactive
        . exact h
      rw [if_neg hactive, if_pos hqueued]
      refine ⟨m.activeActorSlots, _, rfl, ?_, ?_⟩
      . intro other hother
        rw [findD_keepQueue, if_neg]
        . exact hm other hother
        . rintro rfl
          rw [hm other hother] at hqueued
          cases hqueued
      . intro other
        rw [findD_keepQueue]
        by_cases h : other = slot
        . rw [if_pos h, if_pos h.symm, h, List.erase_append_right]
          exact fun hmem => hactive (Option.mem_toList.mp hmem)
        . rw [if_neg h, if_neg (Ne.symm h)]

structure SlotsIndexed (m : QueryResourceManager) : Prop where
  mem_holders : ∀ slot id, id ∈ m.holders slot ↔
    ∃ lease, m.taskLeases.find? id = some lease ∧ lease.slot? = some slot
  nodup : ∀ slot, (m.holders slot).Nodup
  depth : ∀ slot spec, m.graph.stage? slot.1 = some spec →
    ((m.holders slot).length : ℤ) ≤ spec.actorPrefetchDepth
  promoted : Promoted m.activeActorSlots m.queuedActorSlotLeases

theorem SlotsIndexed.of_empty (htasks : m.taskLeases = ∅) (hactive : m.activeActorSlots = ∅)
    (hqueued : m.queuedActorSlotLeases = ∅) : m.SlotsIndexed := by
  have hholders : ∀ slot, m.holders slot = [] := by
    intro slot
    unfold holders slotHolders
    rw [hactive, hqueued]
    rfl
  constructor
  . intro slot id
    rw [hholders, htasks]
    simp
  . intro slot
    rw [hholders]
    exact List.nodup_nil
  . intro slot spec hspec
    rw [hholders]
    exact (QueryExecutionGraph.actorPrefetchDepth_pos hspec).le
  . intro slot _
    rw [hqueued]
    rfl

theorem SlotsIndexed.congr (h : m.SlotsIndexed) {m' : QueryResourceManager}
    (hgraph : m'.graph = m.graph) (htasks : m'.taskLeases = m.taskLeases)
    (hactive : m'.activeActorSlots = m.activeActorSlots)
    (hqueued : m'.queuedActorSlotLeases = m.queuedActorSlotLeases) : m'.SlotsIndexed := by
  have hholders : ∀ slot, m'.holders slot = m.holders slot := by
    intro slot
    unfold holders
    rw [hactive, hqueued]
  constructor
  . intro slot id
    rw [hholders, htasks]
    exact h.mem_holders slot id
  . intro slot
    rw [hholders]
    exact h.nodup slot
  . intro slot spec
    rw [hholders, hgraph]
    exact h.depth slot spec
  . rw [hactive, hqueued]
    exact h.promoted

theorem SlotsIndexed.fileTaskLease (hm : m.SlotsIndexed) (lease : TaskLease)
    (hnew : m.taskLeases.find? lease.leaseId = none)
    (hfree : ∀ slot spec, lease.slot? = some slot → m.graph.stage? slot.1 = some spec →
      (m.actorSlotLeaseCount slot : ℤ) < spec.actorPrefetchDepth) :
    ∃ active queued,
      m.fileTaskLease lease lease.slot? =
        { m with
          taskLeases := m.taskLeases.put lease
          activeAttemptLeases :=
            m.activeAttemptLeases.insert (lease.taskId, lease.attemptId) lease.leaseId
          activeActorSlots := active
          queuedActorSlotLeases := queued } ∧
      (m.fileTaskLease lease lease.slot?).SlotsIndexed := by
  have hholders : ∃ active queued,
      m.fileTaskLease lease lease.slot? =
        { m with
          taskLeases := m.taskLeases.put lease
          activeAttemptLeases :=
            m.activeAttemptLeases.insert (lease.taskId, lease.attemptId) lease.leaseId
          activeActorSlots := active
          queuedActorSlotLeases := queued } ∧
      Promoted active queued ∧
      ∀ other, slotHolders active queued other =
        if lease.slot? = some other then m.holders other ++ [lease.leaseId]
        else m.holders other := by
    unfold QueryResourceManager.fileTaskLease
    cases hslot : lease.slot? with
    | none => exact ⟨_, _, rfl, hm.promoted, fun _ => rfl⟩
    | some slot =>
      obtain ⟨active, queued, heq, hpromoted, hholders⟩ := occupySlot_eq
        (m := { m with
          taskLeases := m.taskLeases.put lease
          activeAttemptLeases :=
            m.activeAttemptLeases.insert (lease.taskId, lease.attemptId) lease.leaseId })
        hm.promoted slot lease.leaseId
      refine ⟨active, queued, heq, hpromoted, ?_⟩
      intro other
      rw [hholders]
      simp only [Option.some.injEq, eq_comm]
      rfl
  obtain ⟨active, queued, heq, hpromoted, hholders⟩ := hholders
  refine ⟨active, queued, heq, ?_⟩
  rw [heq]
  have hfresh : ∀ slot, lease.leaseId ∉ m.holders slot := by
    intro slot hmem
    obtain ⟨other, hother, -⟩ := (hm.mem_holders slot _).mp hmem
    rw [hnew] at hother
    cases hother
  constructor
  . intro slot id
    show id ∈ slotHolders active queued slot ↔ ∃ other, (m.taskLeases.put lease).find? id = _ ∧ _
    rw [hholders, Table.find?_put]
    by_cases hid : id = lease.leaseId
    . rw [if_pos hid, hid]
      split
      . next h => simp [h]
      . next h => simp [h, hfresh]
    . rw [if_neg hid, ← hm.mem_holders]
      split
      . simp [hid]
      . rfl
  . intro slot
    show (slotHolders active queued slot).Nodup
    rw [hholders]
    split
    . rw [List.nodup_append]
      refine ⟨hm.nodup slot, List.nodup_singleton _, ?_⟩
      intro a ha b hb
      rw [List.mem_singleton.mp hb]
      rintro rfl
      exact hfresh slot ha
    . exact hm.nodup slot
  . intro slot spec hspec
    show ((slotHolders active queued slot).length : ℤ) ≤ _
    rw [hholders]
    split
    . next h =>
      have := hfree slot spec h hspec
      rw [List.length_append, length_holders, List.length_singleton]
      omega
    . exact hm.depth slot spec hspec
  . exact hpromoted

theorem SlotsIndexed.removeTask (hm : m.SlotsIndexed) {lease : TaskLease}
    (hlive : m.taskLeases.find? lease.leaseId = some lease) :
    ∃ active queued,
      ({ m with taskLeases := m.taskLeases.remove lease.leaseId } :
        QueryResourceManager).vacateSlot lease =
        .ok { m with
          taskLeases := m.taskLeases.remove lease.leaseId
          activeActorSlots := active
          queuedActorSlotLeases := queued } ∧
      ({ m with
        taskLeases := m.taskLeases.remove lease.leaseId
        activeActorSlots := active
        queuedActorSlotLeases := queued } : QueryResourceManager).SlotsIndexed := by
  obtain ⟨active, queued, heq, hpromoted, hholders⟩ := vacateSlot_eq
    (m := { m with taskLeases := m.taskLeases.remove lease.leaseId }) hm.promoted
    lease fun slot hslot => (hm.mem_holders slot _).mpr ⟨lease, hlive, hslot⟩
  refine ⟨active, queued, heq, ?_⟩
  have hheld : ∀ slot, slotHolders active queued slot =
      if lease.slot? = some slot then (m.holders slot).erase lease.leaseId
      else m.holders slot := hholders
  constructor
  . intro slot id
    show id ∈ slotHolders active queued slot ↔
      ∃ other, (m.taskLeases.remove lease.leaseId).find? id = _ ∧ _
    rw [hheld, Table.find?_remove]
    by_cases hid : id = lease.leaseId
    . rw [if_pos hid, hid]
      split
      . simp [(hm.nodup slot).not_mem_erase]
      . next h =>
        rw [hm.mem_holders, hlive]
        simp [h]
    . rw [if_neg hid, ← hm.mem_holders]
      split
      . exact List.mem_erase_of_ne hid
      . rfl
  . intro slot
    show (slotHolders active queued slot).Nodup
    rw [hheld]
    split
    . exact (hm.nodup slot).erase _
    . exact hm.nodup slot
  . intro slot spec hspec
    show ((slotHolders active queued slot).length : ℤ) ≤ _
    have := hm.depth slot spec hspec
    rw [hheld]
    split
    . have := List.length_erase_le (a := lease.leaseId) (l := m.holders slot)
      omega
    . exact this
  . exact hpromoted

end QueryResourceManager

end Vane
