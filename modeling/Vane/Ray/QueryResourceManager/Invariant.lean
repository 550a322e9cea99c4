import Vane.Ray.LedgerSteps
import Vane.Ray.QueryResourceManager.ActorSlots
import Vane.Ray.QueryResourceManager.AdmissionLemmas

/-! This module contains the invariant of a resource manager. -/

namespace Vane

open Table (find?_put find?_remove mem_values_of_remove mem_values_put)
open Py (bind_apply get_apply lift_apply modify_apply)

namespace Ledger

variable {l : Ledger} {uuid : UuidSource} {N : Set String} {drawn : ℕ}

def retire (l : Ledger) (credit : ContinuationCredit) : Ledger :=
  { l with
    continuationCredits := l.continuationCredits.put { credit with parentActive := false }
    continuationCreditByParent := l.continuationCreditByParent.erase credit.parentTaskLeaseId }

def dropCredit (l : Ledger) (credit : ContinuationCredit) : Ledger :=
  { l with
    continuationCredits := l.continuationCredits.remove credit.creditId
    continuationCreditByParent :=
      if l.continuationCreditByParent.find? credit.parentTaskLeaseId = some credit.creditId then
        l.continuationCreditByParent.erase credit.parentTaskLeaseId
      else
        l.continuationCreditByParent }

def isHolding (l : Ledger) (taskLeaseId : String) : Bool :=
  l.taskLeases.contains taskLeaseId || l.outputLeases.values.any fun output =>
    output.taskLeaseId = taskLeaseId ∧ ¬output.state.isHandedOff

theorem gone_of_not_isHolding {taskLeaseId : String} (h : ¬l.isHolding taskLeaseId = true) :
    l.taskLeases.find? taskLeaseId = none := by
  unfold isHolding Dict.contains at h
  cases htask : l.taskLeases.find? taskLeaseId with
  | none => rfl
  | some task =>
    rw [htask] at h
    exact absurd rfl h

def returnCredit (l : Ledger) (taskLeaseId : String) : Ledger :=
  match (l.continuationCreditByBorrower.find? taskLeaseId).bind l.continuationCredits.find? with
  | none => l
  | some credit =>
    if l.isHolding taskLeaseId then
      l
    else if credit.parentActive then
      l.giveBack credit taskLeaseId
    else
      (l.giveBack credit taskLeaseId).dropCredit { credit with borrowedByTaskLeaseId := none }

def retireOwned (l : Ledger) (taskLeaseId : String) : Ledger :=
  match (l.continuationCreditByParent.find? taskLeaseId).bind l.continuationCredits.find? with
  | none => l
  | some credit =>
    if credit.borrowedByTaskLeaseId = none then
      (l.retire credit).dropCredit { credit with parentActive := false }
    else
      l.retire credit

def settle (l : Ledger) (taskLeaseId : String) : Ledger :=
  ((l.removeTask taskLeaseId).returnCredit taskLeaseId).retireOwned taskLeaseId

structure Located (N : Set String) (l : Ledger) : Prop where
  node : ∀ n ∈ l.allocation.nodeIds, n ∈ N
  task : ∀ t ∈ l.taskLeases.values, t.nodeId ∈ N
  credit : ∀ c ∈ l.continuationCredits.values, c.nodeId ∈ N
  output : ∀ o ∈ l.outputLeases.values, o.nodeId ∈ N

theorem Located.mono {M : Set String} (h : l.Located N) (hN : N ⊆ M) : l.Located M where
  node := fun n hn => hN (h.node n hn)
  task := fun t ht => hN (h.task t ht)
  credit := fun c hc => hN (h.credit c hc)
  output := fun o ho => hN (h.output o ho)

theorem Located.charge_node (h : l.Located N) {c : Charge} (hc : c ∈ l.charges) : c.nodeId ∈ N := by
  unfold charges at hc
  simp only [List.mem_append, List.mem_map, List.mem_flatMap] at hc
  rcases hc with (((⟨p, hp, rfl⟩ | ⟨credit, hcredit, rfl⟩) | ⟨task, htask, rfl⟩) | ⟨o, ho, rfl⟩) |
    ⟨credit, hcredit, excess, -, rfl⟩
  . exact h.node _ (l.allocation.placed_on_nodes p hp)
  . exact h.credit credit hcredit
  . exact h.task task htask
  . exact h.output o (List.mem_of_mem_filter ho)
  . exact h.credit credit (List.mem_of_mem_filter hcredit)

def ParentIndexed (l : Ledger) : Prop :=
  ∀ t c, l.continuationCreditByParent.find? t = some c ↔
    ∃ credit, l.continuationCredits.find? c = some credit ∧ credit.parentTaskLeaseId = t ∧
      credit.parentActive = true

structure Sound (uuid : UuidSource) (N : Set String) (drawn : ℕ) (l : Ledger) : Prop where
  consistent : l.Consistent
  parents : l.ParentIndexed
  located : l.Located N
  unused : ∀ i, drawn ≤ i → l.Unused (uuid.hex i)
  unused_parent : ∀ i, drawn ≤ i → l.continuationCreditByParent.find? (uuid.hex i) = none

structure Fresh (uuid : UuidSource) (drawn : ℕ) (l : Ledger) (id : String) : Prop where
  unused : l.Unused id
  unused_parent : l.continuationCreditByParent.find? id = none
  drawn : ∀ i, drawn ≤ i → uuid.hex i ≠ id

namespace Sound

section

variable (h : l.Sound uuid N drawn)

include h

theorem draw : l.Sound uuid N (drawn + 1) :=
  { h with
    unused := fun i hi => h.unused i (by omega)
    unused_parent := fun i hi => h.unused_parent i (by omega) }

theorem fresh : l.Fresh uuid (drawn + 1) (uuid.hex drawn) where
  unused := h.unused drawn le_rfl
  unused_parent := h.unused_parent drawn le_rfl
  drawn := by
    intro i hi heq
    have := uuid.hex_injective heq
    omega

theorem setAllocation {allocation : QueryAllocation}
    (hplaced : ∀ p ∈ allocation.actorPlacements, ∃ stage, l.graph.stage? p.stageId = some stage)
    (hnodes : ∀ n ∈ allocation.nodeIds, n ∈ N) :
    ({ l with allocation } : Ledger).Sound uuid N drawn where
  consistent := { h.consistent with placed := hplaced }
  __ := h
  located := { h.located with node := hnodes }
  unused := fun i hi => { h.unused i hi with }

end

theorem of_new {graph : QueryExecutionGraph} {allocation : QueryAllocation}
    (hplaced : ∀ p ∈ allocation.actorPlacements, ∃ stage, graph.stage? p.stageId = some stage)
    (hnodes : ∀ n ∈ allocation.nodeIds, n ∈ N) :
    ({ graph, allocation } : Ledger).Sound uuid N drawn where
  consistent := by
    constructor
    . exact hplaced
    all_goals simp
  parents := by
    intro t c
    simp
  located := ⟨hnodes, by simp, by simp, by simp⟩
  unused := fun i _ => by constructor <;> simp
  unused_parent := by simp

section

variable (h : l.Sound uuid N drawn)

include h

theorem addTask {lease : TaskLease}
    (hid : l.Fresh uuid drawn lease.leaseId) (hstage : lease.stageId ∈ l.graph.stageIds)
    (hnode : lease.nodeId ∈ N) : (l.addTask lease).Sound uuid N drawn where
  consistent := h.consistent.addTask hid.unused hstage
  __ := h
  located := { h.located with
    task := by
      intro t ht
      rcases mem_values_put ht with rfl | ht
      . exact hnode
      . exact h.located.task t ht }
  unused := fun i hi => (h.unused i hi).addTask (hid.drawn i hi)

theorem removeTask (leaseId : String) : (l.removeTask leaseId).Sound uuid N drawn where
  consistent := h.consistent.removeTask leaseId
  __ := h
  located := { h.located with
    task := fun t ht => h.located.task t (mem_values_of_remove ht) }
  unused := fun i hi => { h.unused i hi with
    task := by
      simp only [Ledger.removeTask]
      rw [find?_remove, (h.unused i hi).task, ite_self] }

theorem addCredit {credit : ContinuationCredit}
    (hid : l.Fresh uuid drawn credit.creditId) (hfree : credit.borrowedByTaskLeaseId = none)
    (hactive : credit.parentActive = true)
    (hparent : l.continuationCreditByParent.find? credit.parentTaskLeaseId = none)
    (hdrawn : ∀ i, drawn ≤ i → uuid.hex i ≠ credit.parentTaskLeaseId)
    (hstage : credit.reservationStageId ∈ l.graph.stageIds) (hnode : credit.nodeId ∈ N) :
    (l.addCredit credit).Sound uuid N drawn where
  consistent := h.consistent.addCredit hid.unused hfree hstage
  parents := by
    intro t c
    simp only [Ledger.addCredit]
    rw [Dict.find?_insert, find?_put]
    by_cases ht : t = credit.parentTaskLeaseId
    . rw [if_pos ht]
      by_cases hc : c = credit.creditId
      . simp [ht, hc, hactive]
      . rw [if_neg hc]
        have hnone : ¬∃ other, l.continuationCredits.find? c = some other ∧
            other.parentTaskLeaseId = t ∧ other.parentActive = true := by
          rw [← h.parents, ht, hparent]
          simp
        simp only [hnone, iff_false]
        rintro heq
        cases heq
        exact hc rfl
    . rw [if_neg ht]
      by_cases hc : c = credit.creditId
      . rw [if_pos hc, h.parents, hc, hid.unused.credit]
        simp [Ne.symm ht]
      . rw [if_neg hc, h.parents]
  located := { h.located with
    credit := by
      intro c hc
      rcases mem_values_put hc with rfl | hc
      . exact hnode
      . exact h.located.credit c hc }
  unused := fun i hi => (h.unused i hi).addCredit (hid.drawn i hi)
  unused_parent := by
    intro i hi
    simp only [Ledger.addCredit]
    rw [Dict.find?_insert, if_neg (hdrawn i hi)]
    exact h.unused_parent i hi

end

section Credit

variable {credit : ContinuationCredit}

section

variable (h : l.Sound uuid N drawn)
  (hfind : l.continuationCredits.find? credit.creditId = some credit)

include h hfind

theorem unused_ne {i : ℕ} (hi : drawn ≤ i) : uuid.hex i ≠ credit.creditId := by
  intro heq
  rw [← heq, (h.unused i hi).credit] at hfind
  cases hfind

theorem putCredit {credit' : ContinuationCredit} {byBorrower : Dict String String}
    (hid : credit'.creditId = credit.creditId) (hnode : credit'.nodeId = credit.nodeId)
    (hparent : credit'.parentTaskLeaseId = credit.parentTaskLeaseId)
    (hactive : credit'.parentActive = credit.parentActive)
    (hconsistent : (l.putCredit credit' byBorrower).Consistent)
    (hindex : ∀ i, drawn ≤ i → byBorrower.find? (uuid.hex i) = none) :
    (l.putCredit credit' byBorrower).Sound uuid N drawn where
  consistent := hconsistent
  parents := by
    intro t c
    simp only [Ledger.putCredit]
    rw [h.parents, find?_put, hid]
    split
    . next hc =>
      rw [hc, hfind]
      simp [hparent, hactive]
    . rfl
  located := { h.located with
    credit := by
      intro c hc
      rcases mem_values_put hc with rfl | hc
      . rw [hnode]
        exact h.located.credit credit (Dict.mem_values_of_find? hfind)
      . exact h.located.credit c hc }
  unused := by
    intro i hi
    refine (h.unused i hi).putCredit ?_ (hindex i hi)
    rw [hid]
    exact h.unused_ne hfind hi
  unused_parent := h.unused_parent

theorem borrow {lease : TaskLease} (hfree : credit.borrowedByTaskLeaseId = none)
    (htask : l.taskLeases.find? lease.leaseId = some lease) (hnode : lease.nodeId = credit.nodeId)
    (hnew : l.continuationCreditByBorrower.find? lease.leaseId = none)
    (houtputs : ∀ o ∈ l.outputLeases.values, o.taskLeaseId ≠ lease.leaseId) :
    (l.borrow credit lease.leaseId).Sound uuid N drawn := by
  have hconsistent := h.consistent.borrow hfind hfree htask hnode hnew houtputs
  rw [borrow_eq_putCredit] at hconsistent ⊢
  refine h.putCredit hfind (by rfl) (by rfl) (by rfl) (by rfl) hconsistent ?_
  intro i hi
  rw [Dict.find?_insert, if_neg]
  . exact (h.unused i hi).borrower
  . intro heq
    rw [← heq, (h.unused i hi).task] at htask
    cases htask

theorem giveBack {leaseId : String} (hborrowed : credit.borrowedByTaskLeaseId = some leaseId)
    (hgone : l.taskLeases.find? leaseId = none) :
    (l.giveBack credit leaseId).Sound uuid N drawn := by
  have hconsistent := h.consistent.giveBack hfind hborrowed hgone
  rw [giveBack_eq_putCredit] at hconsistent ⊢
  refine h.putCredit hfind (by rfl) (by rfl) (by rfl) (by rfl) hconsistent ?_
  intro i hi
  rw [Dict.find?_erase, (h.unused i hi).borrower, ite_self]

theorem retire
    (hindex : l.continuationCreditByParent.find? credit.parentTaskLeaseId = some credit.creditId) :
    (l.retire credit).Sound uuid N drawn where
  consistent := { h.consistent.orphan hfind with }
  parents := by
    intro t c
    simp only [Ledger.retire]
    rw [Dict.find?_erase, find?_put]
    by_cases hc : c = credit.creditId
    . rw [if_pos hc]
      constructor
      . intro hfound
        split at hfound
        . cases hfound
        . next ht =>
          obtain ⟨other, hother, hparent, -⟩ := (h.parents t c).mp hfound
          rw [hc, hfind] at hother
          cases hother
          exact absurd hparent.symm ht
      . rintro ⟨other, hother, -, hactive⟩
        cases hother
        cases hactive
    . rw [if_neg hc, ← h.parents]
      split
      . next ht =>
        rw [ht, hindex]
        simp [Ne.symm hc]
      . rfl
  located := { h.located with
    credit := by
      intro c hc
      rcases mem_values_put hc with rfl | hc
      . exact h.located.credit credit (Dict.mem_values_of_find? hfind)
      . exact h.located.credit c hc }
  unused := by
    intro i hi
    have hput : (l.putCredit { credit with parentActive := false }
        l.continuationCreditByBorrower).Unused (uuid.hex i) :=
      (h.unused i hi).putCredit (h.unused_ne hfind hi) (h.unused i hi).borrower
    exact { hput with }
  unused_parent := by
    intro i hi
    simp only [Ledger.retire]
    rw [Dict.find?_erase, h.unused_parent i hi, ite_self]

end

section

variable (h : l.Sound uuid N drawn)

include h

theorem dropCredit (credit : ContinuationCredit)
    (hfind : l.continuationCredits.find? credit.creditId = some credit)
    (hfree : credit.borrowedByTaskLeaseId = none) :
    (l.dropCredit credit).Sound uuid N drawn where
  consistent := { h.consistent.removeCredit hfind hfree with }
  parents := by
    intro t c
    simp only [Ledger.dropCredit]
    have hparent : (if l.continuationCreditByParent.find? credit.parentTaskLeaseId =
        some credit.creditId then
          l.continuationCreditByParent.erase credit.parentTaskLeaseId
        else l.continuationCreditByParent).find? t = some c ↔
          l.continuationCreditByParent.find? t = some c ∧ c ≠ credit.creditId := by
      have hname : l.continuationCreditByParent.find? t = some credit.creditId →
          t = credit.parentTaskLeaseId := by
        intro hfound
        obtain ⟨other, hother, hparent, -⟩ := (h.parents t _).mp hfound
        rw [hfind] at hother
        cases hother
        exact hparent.symm
      split
      . next hindex =>
        rw [Dict.find?_erase]
        split
        . next ht =>
          rw [ht, hindex]
          simp [eq_comm]
        . next ht =>
          refine ⟨fun hfound => ⟨hfound, ?_⟩, And.left⟩
          rintro rfl
          exact ht (hname hfound)
      . next hindex =>
        refine ⟨fun hfound => ⟨hfound, ?_⟩, And.left⟩
        rintro rfl
        rw [← hname hfound] at hindex
        exact hindex hfound
    rw [hparent, h.parents, find?_remove]
    split
    . next hc => simp [hc]
    . next hc => simp [hc]
  located := { h.located with
    credit := fun c hc => h.located.credit c (mem_values_of_remove hc) }
  unused := fun i hi => { h.unused i hi with
    credit := by
      simp only [Ledger.dropCredit]
      rw [find?_remove, (h.unused i hi).credit, ite_self] }
  unused_parent := by
    intro i hi
    simp only [Ledger.dropCredit]
    split
    . rw [Dict.find?_erase, h.unused_parent i hi, ite_self]
    . exact h.unused_parent i hi

theorem returnCredit (taskLeaseId : String) : (l.returnCredit taskLeaseId).Sound uuid N drawn := by
  unfold Ledger.returnCredit
  cases hcredit : (l.continuationCreditByBorrower.find? taskLeaseId).bind
      l.continuationCredits.find? with
  | none => exact h
  | some credit =>
    obtain ⟨creditId, hborrower, hfind⟩ := Option.bind_eq_some_iff.mp hcredit
    have hid : credit.creditId = creditId := l.continuationCredits.keyed _ _ hfind
    subst hid
    obtain ⟨other, hother, hborrowed⟩ := (h.consistent.borrower _ _).mp hborrower
    rw [hfind] at hother
    cases hother
    dsimp only
    split
    . exact h
    . next hholds =>
      have hback := h.giveBack hfind hborrowed (gone_of_not_isHolding hholds)
      split
      . exact hback
      . refine hback.dropCredit { credit with borrowedByTaskLeaseId := none } ?_ rfl
        simp [Ledger.giveBack, find?_put]

theorem retireOwned (taskLeaseId : String) : (l.retireOwned taskLeaseId).Sound uuid N drawn := by
  unfold Ledger.retireOwned
  cases hcredit : (l.continuationCreditByParent.find? taskLeaseId).bind
      l.continuationCredits.find? with
  | none => exact h
  | some credit =>
    obtain ⟨creditId, hparent, hfind⟩ := Option.bind_eq_some_iff.mp hcredit
    have hid : credit.creditId = creditId := l.continuationCredits.keyed _ _ hfind
    subst hid
    obtain ⟨other, hother, hlease, -⟩ := (h.parents _ _).mp hparent
    rw [hfind] at hother
    cases hother
    have hretired := h.retire hfind (by rw [hlease]; exact hparent)
    dsimp only
    split
    . next hfree =>
      refine hretired.dropCredit { credit with parentActive := false } ?_ hfree
      simp [Ledger.retire, find?_put]
    . exact hretired

end

end Credit

section Output

variable {o : OutputBlockLease}

section

variable (h : l.Sound uuid N drawn)

include h

theorem removeOutput (leaseId : String) : (l.removeOutput leaseId).Sound uuid N drawn where
  consistent := h.consistent.removeOutput leaseId
  __ := h
  located := { h.located with
    output := fun o ho => h.located.output o (mem_values_of_remove ho) }
  unused := fun i hi => { h.unused i hi with
    output := by
      simp only [Ledger.removeOutput]
      rw [find?_remove, (h.unused i hi).output, ite_self]
    output_task := fun o ho => (h.unused i hi).output_task o (mem_values_of_remove ho)
    output_credit := fun o ho => (h.unused i hi).output_credit o (mem_values_of_remove ho) }

theorem putOutput (hconsistent : (l.addOutput o).Consistent) (hnode : o.nodeId ∈ N)
    (hnames : ∀ i, drawn ≤ i → uuid.hex i ≠ o.leaseId ∧ o.taskLeaseId ≠ uuid.hex i ∧
      o.continuationCreditId ≠ some (uuid.hex i)) : (l.addOutput o).Sound uuid N drawn where
  consistent := hconsistent
  __ := h
  located := { h.located with
    output := by
      intro o' ho'
      rcases mem_values_put ho' with rfl | ho'
      . exact hnode
      . exact h.located.output o' ho' }
  unused := fun i hi =>
    (h.unused i hi).addOutput (hnames i hi).1 (hnames i hi).2.1 (hnames i hi).2.2

theorem addOutputOf {task : TaskLease} (ho : l.OutputOf task o)
    (hid : l.Fresh uuid drawn o.leaseId) : (l.addOutput o).Sound uuid N drawn := by
  apply h.putOutput (h.consistent.addOutputOf ho)
  . rw [ho.nodeId]
    exact h.located.task task (Dict.mem_values_of_find? ho.live)
  . intro i hi
    refine ⟨hid.drawn i hi, ?_, ?_⟩
    . intro heq
      have hlive := ho.live
      rw [← ho.taskLeaseId, heq, (h.unused i hi).task] at hlive
      cases hlive
    . intro heq
      have hborrower := ho.continuationCreditId
      rw [heq] at hborrower
      obtain ⟨credit, hcredit, -⟩ := (h.consistent.borrower _ _).mp hborrower.symm
      rw [(h.unused i hi).credit] at hcredit
      cases hcredit

theorem moveOutput (hfind : l.outputLeases.find? o.leaseId = some o) (state : OutputState) :
    (l.addOutput { o with state }).Sound uuid N drawn := by
  have hmem := Dict.mem_values_of_find? hfind
  refine h.putOutput ?_ (h.located.output o hmem) ?_
  . exact h.consistent.addOutput (h.consistent.output_credit o hmem)
      (h.consistent.output_task o hmem) (h.consistent.output_stage o hmem)
  . intro i hi
    refine ⟨?_, (h.unused i hi).output_task o hmem, (h.unused i hi).output_credit o hmem⟩
    intro heq
    rw [← heq, (h.unused i hi).output] at hfind
    cases hfind

theorem leaveOutput (hid : l.Fresh uuid drawn o.leaseId)
    (hgone : l.taskLeases.find? o.taskLeaseId = none) (hcredit : o.continuationCreditId = none)
    (htask : ∀ i, drawn ≤ i → o.taskLeaseId ≠ uuid.hex i) (hnode : o.nodeId ∈ N)
    (hstage : o.producerStageId ∈ l.graph.stageIds) : (l.addOutput o).Sound uuid N drawn := by
  refine h.putOutput ?_ hnode ?_
  . apply h.consistent.addOutput _ _ hstage
    . intro credit hfound
      unfold creditOf? at hfound
      rw [hcredit] at hfound
      cases hfound
    . intro task hfound
      rw [hgone] at hfound
      cases hfound
  . intro i hi
    refine ⟨hid.drawn i hi, htask i hi, ?_⟩
    rw [hcredit]
    exact (Option.some_ne_none _).symm

end

end Output

end Sound

end Ledger

namespace QueryResourceManager

variable {plan : TaskAdmissionPlan} {stageId : String}

variable {uuid : UuidSource} {N : Set String} {m : QueryResourceManager}

structure Indexed (uuid : UuidSource) (N : Set String) (m : QueryResourceManager) : Prop where
  ledger : m.toLedger.Sound uuid N m.uuidsDrawn
  slots : m.SlotsIndexed
  waiting : ∀ key waiter, m.waitingTaskInputs.find? key = some waiter → key = waiter.1.attempt

theorem Indexed.mono {m : QueryResourceManager} {M : Set String} (h : m.Indexed uuid N)
    (hN : N ⊆ M) : m.Indexed uuid M :=
  { h with ledger := { h.ledger with located := h.ledger.located.mono hN } }

/-! A grant. -/

variable (uuid)

def newLease (m : QueryResourceManager) (request : TaskRequest) (spec : StageResourceSpec)
    (plan : TaskAdmissionPlan) (liveness : Bool) : TaskLease :=
  m.leaseFor request plan (plan.actorIndex.map fun index => (request.stageId, index)) spec liveness
    (uuid.hex m.uuidsDrawn)

def newCredit (m : QueryResourceManager) (lease : TaskLease) (new : NewContinuationCreditPlan)
    (creditId : String) : ContinuationCredit where
  creditId
  parentTaskLeaseId := lease.leaseId
  parentStageId := lease.stageId
  eligibleStageIds := new.eligibleStageIds
  reservationStageId := new.reservationStageId
  nodeId := new.nodeId
  resources := new.resources
  allocationGeneration := m.allocation.generation

def withCredit (m : QueryResourceManager) (plan : TaskAdmissionPlan) (lease : TaskLease) :
    QueryResourceManager :=
  match plan.newCredit, plan.borrowedCreditId with
  | some new, _ =>
    { m with
      toLedger := m.toLedger.addCredit (m.newCredit lease new (uuid.hex m.uuidsDrawn))
      uuidsDrawn := m.uuidsDrawn + 1 }
  | none, some creditId =>
    match m.continuationCredits.find? creditId with
    | none => m
    | some credit => { m with toLedger := m.toLedger.borrow credit lease.leaseId }
  | none, none => m

def grantedTask (m : QueryResourceManager) (request : TaskRequest) (spec : StageResourceSpec)
    (plan : TaskAdmissionPlan) (liveness : Bool) : QueryResourceManager :=
  let lease := m.newLease uuid request spec plan liveness
  let filed := QueryResourceManager.fileTaskLease { m with uuidsDrawn := m.uuidsDrawn + 1 } lease
    lease.slot?
  ((filed.withCredit uuid plan lease).noteTaskGranted lease).publishChange

variable {uuid}

theorem Fits.nodeRoom (h : m.Fits stageId plan) : ∃ amount, m.NodeRoom plan.nodeId amount := by
  cases h with
  | plain _ _ _ node => exact ⟨_, node⟩
  | credit _ _ _ _ _ node => exact ⟨_, node⟩
  | borrow _ _ _ _ _ _ _ _ _ node => exact ⟨_, node⟩

theorem Fits.node_mem (h : m.Fits stageId plan) : plan.nodeId ∈ m.allocation.nodeIds := by
  obtain ⟨_, node, hnode, hid, -⟩ := h.nodeRoom
  rw [← hid]
  exact List.mem_map_of_mem hnode

theorem Fits.strip_nodeId (h : m.Fits stageId plan) : Text.strip plan.nodeId ≠ "" := by
  obtain ⟨_, node, hnode, hid, -⟩ := h.nodeRoom
  rw [← hid, node.nodeId_identifier.1]
  exact node.nodeId_identifier.2

variable {request : TaskRequest} {spec : StageResourceSpec} {plan : TaskAdmissionPlan}

theorem ActorChoice.actorSlotFor_eq (h : m.ActorChoice spec plan.actorIndex) :
    m.actorSlotFor spec plan = .ok (plan.actorIndex.map fun index => (spec.stageId, index)) := by
  unfold actorSlotFor
  cases hindex : plan.actorIndex with
  | none =>
    rw [if_neg]
    . rfl
    . intro hbackend
      have := h.backend.mpr hbackend
      rw [hindex] at this
      cases this
  | some index =>
    rw [if_pos (h.backend.mp (by rw [hindex]; rfl))]
    exact if_pos (h.slot index hindex)

theorem assignCredit_eq (h : m.Fits request.stageId plan) {m' : QueryResourceManager}
    {lease : TaskLease} (hcredits : m'.continuationCredits = m.continuationCredits)
    (hstage : lease.stageId = request.stageId) (hnode : lease.nodeId = plan.nodeId) :
    assignCredit uuid plan lease m' = (.ok (), m'.withCredit uuid plan lease) := by
  unfold assignCredit withCredit
  cases h with
  | plain hnew hborrow =>
    rw [hnew, hborrow]
    rfl
  | credit new hnew hborrow =>
    rw [hnew]
    rfl
  | borrow credit hnew hborrow hknown hactive hfree heligible hsame =>
    rw [hnew, hborrow]
    simp only [bind_apply, get_apply]
    rw [hcredits, hknown]
    simp only
    rw [bind_apply, lift_apply, Except.raiseIf_of_not]
    . rfl
    . rw [hstage, hnode]
      simp [hactive, hfree, heligible, hsame]

theorem toLedger_fileTaskLease (m : QueryResourceManager) (lease : TaskLease)
    (slot : Option (String × ℕ)) :
    (m.fileTaskLease lease slot).toLedger = m.toLedger.addTask lease := by
  unfold fileTaskLease occupySlot
  cases slot with
  | none => rfl
  | some slot =>
    simp only
    split <;> rfl

theorem Admitted.grantTask_eq (h : m.Admitted request spec plan) (liveness : Bool) :
    grantTask uuid request plan liveness m =
      (.ok { granted := true
             lease := some (m.newLease uuid request spec plan liveness)
             liveness },
        m.grantedTask uuid request spec plan liveness) := by
  have hcredit : plan.newCredit = none ∨ plan.borrowedCreditId = none := by
    cases h.fits with
    | plain hnew => exact .inl hnew
    | credit _ _ hborrow => exact .inr hborrow
    | borrow _ hnew => exact .inl hnew
  have hslot := h.actor.actorSlotFor_eq
  rw [QueryExecutionGraph.stageId_of_stage? h.stage] at hslot
  unfold grantTask requireStage
  rw [bind_apply, lift_apply, Except.raiseIf_of_not h.fits.strip_nodeId]
  simp only
  rw [bind_apply, lift_apply, Except.raiseIf_of_not (by tauto)]
  simp only
  rw [bind_apply, Py.read_apply, h.stage]
  simp only
  rw [bind_apply]
  simp only [drawUuid, bind_apply, get_apply, Py.set_apply, Py.pure_apply, Py.read_apply]
  rw [show actorSlotFor { m with uuidsDrawn := m.uuidsDrawn + 1 } spec plan = _ from hslot]
  simp only [modify_apply]
  rw [assignCredit_eq h.fits (by rw [toLedger_fileTaskLease]; rfl) rfl rfl]
  rfl

section Grant

variable (hm : m.Indexed uuid N) (h : m.Admitted request spec plan) (liveness : Bool)
include hm h

theorem Admitted.addTask_sound : (m.toLedger.addTask
    (m.newLease uuid request spec plan liveness)).Sound uuid N (m.uuidsDrawn + 1) := by
  apply hm.ledger.draw.addTask hm.ledger.fresh
  . exact QueryExecutionGraph.mem_stageIds_iff.mpr ⟨spec, h.stage⟩
  . exact hm.ledger.located.node _ h.fits.node_mem

theorem Admitted.withCredit_sound (filed : QueryResourceManager) {lease : TaskLease}
    (hlease : lease = m.newLease uuid request spec plan liveness)
    (hledger : filed.toLedger = m.toLedger.addTask lease)
    (hdrawn : filed.uuidsDrawn = m.uuidsDrawn + 1) :
    ∃ ledger drawn, filed.withCredit uuid plan lease =
      { filed with toLedger := ledger, uuidsDrawn := drawn } ∧ ledger.Sound uuid N drawn ∧
        ledger.taskLeases = m.taskLeases.put lease ∧ ledger.outputLeases = m.outputLeases ∧
        ledger.graph = m.graph ∧ ledger.allocation = m.allocation := by
  have hsound := h.addTask_sound hm liveness
  have hfresh := hm.ledger.fresh
  have hid : lease.leaseId = uuid.hex m.uuidsDrawn := by rw [hlease]; rfl
  rw [← hlease, ← hledger, ← hdrawn] at hsound
  have htasks : filed.taskLeases = m.taskLeases.put lease := by rw [hledger]; rfl
  have houtputs : filed.outputLeases = m.outputLeases := by rw [hledger]; rfl
  have hgraph : filed.graph = m.graph := by rw [hledger]; rfl
  have hallocation : filed.allocation = m.allocation := by rw [hledger]; rfl
  unfold withCredit
  cases h.fits with
  | plain hnew hborrow =>
    rw [hnew, hborrow]
    exact ⟨filed.toLedger, filed.uuidsDrawn, rfl, hsound, htasks, houtputs, hgraph, hallocation⟩
  | credit new hnew hborrow hstage _ _ hnode =>
    rw [hnew]
    refine ⟨_, _, rfl, ?_, htasks, houtputs, hgraph, hallocation⟩
    apply hsound.draw.addCredit hsound.fresh rfl rfl
    . show filed.continuationCreditByParent.find? lease.leaseId = none
      rw [hledger, hid]
      exact hfresh.unused_parent
    . intro i hi
      show uuid.hex i ≠ lease.leaseId
      rw [hid]
      exact hfresh.drawn i (by omega)
    . rw [hgraph]
      exact hstage
    . obtain ⟨node, hnode, hnodeId, -⟩ := hnode
      apply hm.ledger.located.node
      show new.nodeId ∈ _
      rw [← hnodeId]
      exact List.mem_map_of_mem hnode
  | borrow credit hnew hborrow hknown hactive hfree heligible hsame =>
    rw [hnew, hborrow]
    simp only
    have hcredits : filed.continuationCredits = m.continuationCredits := by rw [hledger]; rfl
    rw [hcredits, hknown]
    refine ⟨_, _, rfl, ?_, htasks, houtputs, hgraph, hallocation⟩
    apply hsound.borrow _ hfree
    . rw [htasks, find?_put, if_pos rfl]
    . rw [hsame, hlease]
      rfl
    . rw [hledger, hid]
      exact hfresh.unused.borrower
    . rw [houtputs, hid]
      exact hfresh.unused.output_task
    . rw [hcredits]
      exact hknown

theorem Admitted.grantedTask_eq :
    ∃ ledger drawn active queued live total,
      m.grantedTask uuid request spec plan liveness =
        ({ m with
          toLedger := ledger
          uuidsDrawn := drawn
          activeAttemptLeases := m.activeAttemptLeases.insert
            (request.taskId, request.attemptId) (uuid.hex m.uuidsDrawn)
          activeActorSlots := active
          queuedActorSlotLeases := queued
          waitingTaskInputs := m.waitingTaskInputs.erase (request.taskId, request.attemptId)
          startedStageIds := m.startedStageIds.insert request.stageId
          activeLivenessTaskLeaseId := live
          taskLivenessGrantsTotal := total
          admissionEpoch := m.admissionEpoch + 1 } :
            QueryResourceManager).recomputeStageQueuedInput request.stageId ∧
      ledger.Sound uuid N drawn ∧
      ledger.taskLeases = m.taskLeases.put (m.newLease uuid request spec plan liveness) ∧
      ledger.outputLeases = m.outputLeases ∧ ledger.graph = m.graph ∧
      ledger.allocation = m.allocation ∧
      ({ m with
        toLedger := ledger
        activeActorSlots := active
        queuedActorSlotLeases := queued } : QueryResourceManager).SlotsIndexed := by
  obtain ⟨active, queued, hfiled, hslots⟩ := SlotsIndexed.fileTaskLease
    (m := { m with uuidsDrawn := m.uuidsDrawn + 1 }) (hm.slots.congr rfl rfl rfl rfl)
    (m.newLease uuid request spec plan liveness) hm.ledger.fresh.unused.task (by
      intro slot other hslot hstage
      obtain ⟨index, hindex, rfl⟩ := Option.map_eq_some_iff.mp hslot
      have hstage : m.graph.stage? request.stageId = some other := hstage
      rw [h.stage] at hstage
      cases hstage
      have hfree := h.actor.slot index hindex
      rw [QueryExecutionGraph.stageId_of_stage? h.stage] at hfree
      exact hfree)
  obtain ⟨ledger, drawn, hcredit, hsound, htasks, houtputs, hgraph, hallocation⟩ :=
    h.withCredit_sound hm liveness
      (QueryResourceManager.fileTaskLease { m with uuidsDrawn := m.uuidsDrawn + 1 }
        (m.newLease uuid request spec plan liveness)
        (m.newLease uuid request spec plan liveness).slot?) rfl
      (toLedger_fileTaskLease _ _ _) (by rw [hfiled])
  rw [hfiled] at hslots
  have hindexed : ({ m with
      toLedger := ledger
      activeActorSlots := active
      queuedActorSlotLeases := queued } : QueryResourceManager).SlotsIndexed :=
    hslots.congr hgraph htasks rfl rfl
  unfold grantedTask
  simp only
  rw [hcredit, hfiled]
  unfold noteTaskGranted
  simp only
  split
  . refine ⟨ledger, drawn, active, queued, _, _, rfl, hsound, htasks, houtputs, hgraph,
      hallocation, hindexed⟩
  . refine ⟨ledger, drawn, active, queued, _, _, rfl, hsound, htasks, houtputs, hgraph,
      hallocation, hindexed⟩

theorem Indexed.grantedTask : (m.grantedTask uuid request spec plan liveness).Indexed uuid N := by
  obtain ⟨ledger, drawn, active, queued, live, total, heq, hsound, -, -, -, -, hslots⟩ :=
    h.grantedTask_eq hm liveness
  rw [heq]
  refine ⟨hsound, hslots.congr rfl rfl rfl rfl, ?_⟩
  intro key waiter hwaiter
  apply hm.waiting key waiter
  have hfind : (m.waitingTaskInputs.erase (request.taskId, request.attemptId)).find? key =
    some waiter := hwaiter
  rw [Dict.find?_erase] at hfind
  split at hfind
  . cases hfind
  . exact hfind

end Grant

/-! Giving back a lease. -/

structure CreditsOnly (l l' : Ledger) : Prop where
  graph : l'.graph = l.graph
  allocation : l'.allocation = l.allocation
  taskLeases : l'.taskLeases = l.taskLeases
  outputLeases : l'.outputLeases = l.outputLeases

theorem CreditsOnly.refl (l : Ledger) : CreditsOnly l l := ⟨rfl, rfl, rfl, rfl⟩

theorem CreditsOnly.trans {l l' l'' : Ledger} (h : CreditsOnly l l') (h' : CreditsOnly l' l'') :
    CreditsOnly l l'' :=
  ⟨h'.graph.trans h.graph, h'.allocation.trans h.allocation, h'.taskLeases.trans h.taskLeases,
    h'.outputLeases.trans h.outputLeases⟩

variable {drawn : ℕ}

theorem deleteContinuationCredit_eq (credit : ContinuationCredit)
    (hfind : m.continuationCredits.find? credit.creditId = some credit)
    (hfree : credit.borrowedByTaskLeaseId = none) :
    m.deleteContinuationCredit credit.creditId =
      { m with toLedger := m.toLedger.dropCredit credit } := by
  unfold deleteContinuationCredit
  rw [hfind]
  simp only [hfree]
  rfl

theorem maybeReturnContinuationCredit_eq (h : m.toLedger.Sound uuid N drawn) (taskLeaseId : String) :
    maybeReturnContinuationCredit taskLeaseId m =
        (.ok (), { m with toLedger := m.toLedger.returnCredit taskLeaseId }) ∧
      CreditsOnly m.toLedger (m.toLedger.returnCredit taskLeaseId) := by
  unfold maybeReturnContinuationCredit Ledger.returnCredit
  simp only [bind_apply, get_apply]
  cases hborrower : m.continuationCreditByBorrower.find? taskLeaseId with
  | none => exact ⟨rfl, .refl _⟩
  | some creditId =>
    obtain ⟨credit, hfind, hborrowed⟩ := (h.consistent.borrower _ _).mp hborrower
    have hid : credit.creditId = creditId := m.continuationCredits.keyed _ _ hfind
    subst hid
    simp only [Option.bind_some, hfind]
    rw [show m.holdsCredit taskLeaseId = m.toLedger.isHolding taskLeaseId from rfl]
    split
    . exact ⟨rfl, .refl _⟩
    . simp only [bind_apply, modify_apply]
      rw [lift_apply, Except.raiseIf_of_not (not_not.mpr hborrowed)]
      by_cases hactive : credit.parentActive = true
      . rw [if_neg (not_not.mpr hactive), if_pos hactive]
        exact ⟨rfl, ⟨rfl, rfl, rfl, rfl⟩⟩
      . rw [if_pos hactive, if_neg hactive]
        refine ⟨?_, ⟨rfl, rfl, rfl, rfl⟩⟩
        dsimp only
        rw [modify_apply]
        congr 1
        exact deleteContinuationCredit_eq
          (m := { m with toLedger := m.toLedger.giveBack credit taskLeaseId })
          { credit with borrowedByTaskLeaseId := none }
          (by simp [Ledger.giveBack, find?_put]) rfl

theorem retireParent_eq (h : m.toLedger.Sound uuid N drawn) (lease : TaskLease) :
    retireParent lease m = (.ok (), { m with toLedger := m.toLedger.retireOwned lease.leaseId }) ∧
      CreditsOnly m.toLedger (m.toLedger.retireOwned lease.leaseId) := by
  unfold retireParent Ledger.retireOwned
  simp only [bind_apply, get_apply]
  cases hparent : m.continuationCreditByParent.find? lease.leaseId with
  | none => exact ⟨rfl, .refl _⟩
  | some creditId =>
    obtain ⟨credit, hfind, hlease, -⟩ := (h.parents _ _).mp hparent
    have hid : credit.creditId = creditId := m.continuationCredits.keyed _ _ hfind
    subst hid
    simp only [Option.bind_some, bind_apply, modify_apply, hfind]
    rw [lift_apply, Except.raiseIf_of_not (not_not.mpr hlease), ← hlease]
    by_cases hfree : credit.borrowedByTaskLeaseId = none
    . rw [if_pos hfree, if_pos hfree]
      refine ⟨?_, ⟨rfl, rfl, rfl, rfl⟩⟩
      dsimp only
      rw [modify_apply]
      congr 1
      exact deleteContinuationCredit_eq (m := { m with toLedger := m.toLedger.retire credit })
        { credit with parentActive := false }
        (by simp [Ledger.retire, find?_put]) hfree
    . rw [if_neg hfree, if_neg hfree]
      exact ⟨rfl, ⟨rfl, rfl, rfl, rfl⟩⟩

theorem removeTaskLease_eq {lease : TaskLease} (hslots : m.SlotsIndexed)
    (hlive : m.taskLeases.find? lease.leaseId = some lease)
    (h : (m.toLedger.removeTask lease.leaseId).Sound uuid N drawn) (terminal : Bool) :
    ∃ ledger active queued, ledger = m.toLedger.settle lease.leaseId ∧
      removeTaskLease lease terminal m = (.ok (),
        { m with
          toLedger := ledger
          activeActorSlots := active
          queuedActorSlotLeases := queued
          activeAttemptLeases := m.activeAttemptLeases.erase (lease.taskId, lease.attemptId)
          terminalAttempts :=
            if terminal then m.terminalAttempts.add (lease.taskId, lease.attemptId)
            else m.terminalAttempts
          activeLivenessTaskLeaseId :=
            if m.activeLivenessTaskLeaseId = some lease.leaseId then none
            else m.activeLivenessTaskLeaseId
          admissionEpoch := m.admissionEpoch + 1 }) ∧
      ledger.Sound uuid N drawn ∧ CreditsOnly (m.toLedger.removeTask lease.leaseId) ledger ∧
      ({ m with
        toLedger := ledger
        activeActorSlots := active
        queuedActorSlotLeases := queued } : QueryResourceManager).SlotsIndexed := by
  obtain ⟨active, queued, hvacate, hindexed⟩ := hslots.removeTask hlive
  have hreturned := h.returnCredit lease.leaseId
  obtain ⟨hreturn, honly⟩ := maybeReturnContinuationCredit_eq
    (m := { m with
      taskLeases := m.taskLeases.remove lease.leaseId
      activeActorSlots := active
      queuedActorSlotLeases := queued }) h lease.leaseId
  obtain ⟨hretire, honly'⟩ := retireParent_eq
    (m := { m with
      toLedger := (m.toLedger.removeTask lease.leaseId).returnCredit lease.leaseId
      activeActorSlots := active
      queuedActorSlotLeases := queued }) hreturned lease
  have htables := honly.trans honly'
  refine ⟨_, active, queued, rfl, ?_, hreturned.retireOwned lease.leaseId, htables,
    hindexed.congr htables.graph htables.taskLeases rfl rfl⟩
  unfold removeTaskLease onTaskLeaseRemoved
  simp only [bind_apply, modify_apply, Py.read_apply]
  rw [hvacate]
  simp only [Py.set_apply]
  rw [hreturn]
  simp only [Ledger.removeTask] at hretire ⊢
  rw [hretire]
  cases terminal with
  | true =>
    simp only [if_true, modify_apply, bind_apply]
    split <;> rfl
  | false =>
    simp only [Bool.false_eq_true, if_false, modify_apply, bind_apply]
    split <;> rfl

end QueryResourceManager

end Vane
