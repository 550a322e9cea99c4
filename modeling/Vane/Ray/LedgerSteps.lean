import Vane.Ray.ResourceLedgerLemmas

/-! This module contains the steps of a ledger: what they do to the tables and to the charges. -/

namespace Vane

open Option (bind_eq_some_iff bind_some map_some)
open Table (find?_key_of_mem find?_put mem_values_put values_put_of_free)
open ResourceVector (cpu_sub gpu_sub heapBytes_sub le_def ofObjectStore withObjectStore)

namespace Ledger

variable {l : Ledger} {credit : ContinuationCredit} {lease : TaskLease} {o : OutputBlockLease}

structure Unused (l : Ledger) (id : String) : Prop where
  task : l.taskLeases.find? id = none
  credit : l.continuationCredits.find? id = none
  output : l.outputLeases.find? id = none
  borrower : l.continuationCreditByBorrower.find? id = none
  output_task : ∀ o ∈ l.outputLeases.values, o.taskLeaseId ≠ id
  output_credit : ∀ o ∈ l.outputLeases.values, o.continuationCreditId ≠ some id

def addTask (l : Ledger) (lease : TaskLease) : Ledger :=
  { l with taskLeases := l.taskLeases.put lease }

def removeTask (l : Ledger) (leaseId : String) : Ledger :=
  { l with taskLeases := l.taskLeases.remove leaseId }

def addCredit (l : Ledger) (credit : ContinuationCredit) : Ledger :=
  { l with
    continuationCredits := l.continuationCredits.put credit
    continuationCreditByParent :=
      l.continuationCreditByParent.insert credit.parentTaskLeaseId credit.creditId }

def borrow (l : Ledger) (credit : ContinuationCredit) (leaseId : String) : Ledger :=
  { l with
    continuationCredits :=
      l.continuationCredits.put { credit with borrowedByTaskLeaseId := some leaseId }
    continuationCreditByBorrower := l.continuationCreditByBorrower.insert leaseId credit.creditId }

def giveBack (l : Ledger) (credit : ContinuationCredit) (leaseId : String) : Ledger :=
  { l with
    continuationCredits := l.continuationCredits.put { credit with borrowedByTaskLeaseId := none }
    continuationCreditByBorrower := l.continuationCreditByBorrower.erase leaseId }

def addOutput (l : Ledger) (o : OutputBlockLease) : Ledger :=
  { l with outputLeases := l.outputLeases.put o }

def removeOutput (l : Ledger) (leaseId : String) : Ledger :=
  { l with outputLeases := l.outputLeases.remove leaseId }

theorem Consistent.not_borrowed (hl : l.Consistent) {id : String}
    (hid : l.continuationCreditByBorrower.find? id = none)
    (hcredit : credit ∈ l.continuationCredits.values) : credit.borrowedByTaskLeaseId ≠ some id := by
  intro h
  have := (hl.borrower id credit.creditId).mpr ⟨credit, find?_key_of_mem hcredit, h⟩
  rw [hid] at this
  cases this

theorem add_exchange {M : Type} [AddCommMonoid M] {r c t t' o x a b e : M} (h : t' + a = t + b) :
    r + c + t' + o + x + a + e = r + c + t + o + (x + e) + b := by
  calc
    r + c + t' + o + x + a + e = r + c + o + x + e + (t' + a) := by abel
    _ = r + c + o + x + e + (t + b) := by rw [h]
    _ = r + c + t + o + (x + e) + b := by abel

/-! A new task. -/

theorem isIdle_addTask (hl : l.Consistent) (hid : l.Unused lease.leaseId)
    (hcredit : credit ∈ l.continuationCredits.values) :
    (l.addTask lease).isIdle credit = l.isIdle credit := by
  unfold isIdle
  cases hb : credit.borrowedByTaskLeaseId with
  | none => rfl
  | some borrower =>
    have hne : borrower ≠ lease.leaseId := by
      rintro rfl
      exact hl.not_borrowed hid.borrower hcredit hb
    simp only [addTask, Dict.contains, find?_put, if_neg hne]

theorem isOrphan_addTask (hid : l.Unused lease.leaseId) (ho : o ∈ l.outputLeases.values) :
    (l.addTask lease).isOrphan o = l.isOrphan o := by
  have hfind : (l.addTask lease).taskLeases.find? o.taskLeaseId =
      l.taskLeases.find? o.taskLeaseId := by
    simp only [addTask]
    rw [find?_put, if_neg (hid.output_task o ho)]
  unfold isOrphan
  rw [hfind]
  rfl

theorem view_addTask (hl : l.Consistent) (hid : l.Unused lease.leaseId) (nodeId : Option String) :
    (l.addTask lease).viewOfNodes nodeId =
      l.viewOfNodes nodeId + if selects nodeId lease.nodeId then l.taskCharge lease else 0 := by
  have horphans : (l.addTask lease).orphanPart nodeId = l.orphanPart nodeId := by
    unfold orphanPart
    rw [show (l.addTask lease).outputLeases.values.filter (l.addTask lease).isOrphan =
      l.outputLeases.values.filter l.isOrphan from
        List.filter_congr fun o ho => isOrphan_addTask hid ho]
  have hexcess : (l.addTask lease).excessPart nodeId = l.excessPart nodeId := by
    unfold excessPart
    rw [show (l.addTask lease).continuationCredits.values.filter (l.addTask lease).isIdle =
      l.continuationCredits.values.filter l.isIdle from
        List.filter_congr fun c hc => isIdle_addTask hl hid hc]
    rfl
  have htasks : (l.addTask lease).taskPart nodeId =
      l.taskPart nodeId + if selects nodeId lease.nodeId then l.taskCharge lease else 0 := by
    unfold taskPart
    rw [show (l.addTask lease).taskLeases.values = l.taskLeases.values ++ [lease] from
      values_put_of_free hid.task, List.map_append, List.sum_append, List.map_singleton,
      List.sum_singleton]
    rfl
  rw [viewOfNodes_eq, viewOfNodes_eq, horphans, hexcess, htasks,
    show (l.addTask lease).residentPart nodeId = l.residentPart nodeId from rfl,
    show (l.addTask lease).creditPart nodeId = l.creditPart nodeId from rfl]
  abel

theorem taskCharge_of_unused (hid : l.Unused lease.leaseId) :
    l.taskCharge lease = lease.resources.withObjectStore
      (lease.resources.objectStoreBytes + lease.outputWindowBytes) := by
  have hlive : l.liveOutputBytesForTask lease.leaseId = 0 := by
    unfold liveOutputBytesForTask
    rw [hid.borrower]
    rw [List.filter_eq_nil_iff.mpr]
    . rfl
    . intro o ho
      simpa using hid.output_task o ho
  unfold taskCharge
  rw [hid.borrower, hlive]
  simp

theorem Consistent.addTask (hl : l.Consistent) (hid : l.Unused lease.leaseId)
    (hstage : lease.stageId ∈ l.graph.stageIds) : (l.addTask lease).Consistent where
  __ := hl
  borrower_node := by
    intro credit hcredit task htask
    obtain ⟨borrower, hb, hfind⟩ := bind_eq_some_iff.mp htask
    simp only [Ledger.addTask] at hfind
    rw [find?_put] at hfind
    split at hfind
    . next h =>
      rw [h] at hb
      exact absurd hb (hl.not_borrowed hid.borrower hcredit)
    . exact hl.borrower_node credit hcredit task (bind_eq_some_iff.mpr ⟨borrower, hb, hfind⟩)
  output_task := by
    intro o ho task htask
    simp only [Ledger.addTask] at htask
    rw [find?_put, if_neg (hid.output_task o ho)] at htask
    exact hl.output_task o ho task htask
  task_stage := by
    intro task htask
    rcases (Table.mem_values_put_of_free hid.task).mp htask with h | rfl
    . exact hl.task_stage task h
    . exact hstage

theorem Consistent.removeTask (hl : l.Consistent) (leaseId : String) :
    (l.removeTask leaseId).Consistent := by
  have hfind : ∀ id task, (l.removeTask leaseId).taskLeases.find? id = some task →
      l.taskLeases.find? id = some task := fun _ _ => Table.find?_of_remove
  exact {
    __ := hl
    borrower_node := by
      intro credit hcredit task htask
      obtain ⟨borrower, hb, h⟩ := bind_eq_some_iff.mp htask
      exact hl.borrower_node credit hcredit task (bind_eq_some_iff.mpr ⟨borrower, hb, hfind _ _ h⟩)
    output_task := fun o ho task htask => hl.output_task o ho task (hfind _ _ htask)
    task_stage := fun task htask => hl.task_stage task
      (Dict.mem_values_of_find? (hfind _ _ (find?_key_of_mem htask))) }

/-! A new credit. -/

theorem creditOf?_addCredit (hid : l.Unused credit.creditId) (ho : o ∈ l.outputLeases.values) :
    (l.addCredit credit).creditOf? o = l.creditOf? o := by
  unfold creditOf?
  cases hname : o.continuationCreditId with
  | none => rfl
  | some creditId =>
    have hne : creditId ≠ credit.creditId := by
      rintro rfl
      exact hid.output_credit o ho hname
    simp only [bind_some, Ledger.addCredit]
    rw [find?_put, if_neg hne]

theorem Consistent.addCredit (hl : l.Consistent)
    (hid : l.Unused credit.creditId) (hfree : credit.borrowedByTaskLeaseId = none)
    (hstage : credit.reservationStageId ∈ l.graph.stageIds) : (l.addCredit credit).Consistent where
  __ := hl
  borrower := by
    intro t c
    rw [show (l.addCredit credit).continuationCreditByBorrower = l.continuationCreditByBorrower
      from rfl, hl.borrower t c]
    simp only [Ledger.addCredit]
    rw [find?_put]
    split
    . next h =>
      rw [h, hid.credit]
      constructor
      . rintro ⟨_, h, -⟩
        cases h
      . rintro ⟨_, h, hb⟩
        cases h
        rw [hfree] at hb
        cases hb
    . rfl
  borrower_node := by
    intro c hc task htask
    rcases (Table.mem_values_put_of_free hid.credit).mp hc with h | rfl
    . exact hl.borrower_node c h task htask
    . rw [hfree] at htask
      cases htask
  output_credit := by
    intro o ho c hc
    rw [creditOf?_addCredit hid ho] at hc
    exact hl.output_credit o ho c hc
  credit_stage := by
    intro c hc
    rcases (Table.mem_values_put_of_free hid.credit).mp hc with h | rfl
    . exact hl.credit_stage c h
    . exact hstage

theorem taskCharge_addCredit (hl : l.Consistent)
    (hid : l.Unused credit.creditId) (lease : TaskLease) :
    (l.addCredit credit).taskCharge lease = l.taskCharge lease := by
  unfold taskCharge
  cases hb : l.continuationCreditByBorrower.find? lease.leaseId with
  | none =>
    rw [show (l.addCredit credit).continuationCreditByBorrower = l.continuationCreditByBorrower
      from rfl, hb]
    rfl
  | some creditId =>
    obtain ⟨other, hother, -⟩ := (hl.borrower _ _).mp hb
    have hne : creditId ≠ credit.creditId := by
      rintro rfl
      rw [hid.credit] at hother
      cases hother
    simp only [Ledger.addCredit]
    rw [hb, bind_some, bind_some, find?_put, if_neg hne, hother]
    rfl

theorem view_addCredit (hl : l.Consistent)
    (hid : l.Unused credit.creditId) (nodeId : Option String) :
    (l.addCredit credit).viewOfNodes nodeId =
      l.viewOfNodes nodeId + if selects nodeId credit.nodeId then credit.resources else 0 := by
  have hvalues : (l.addCredit credit).continuationCredits.values =
      l.continuationCredits.values ++ [credit] := values_put_of_free hid.credit
  have hcredits : (l.addCredit credit).creditPart nodeId =
      l.creditPart nodeId + if selects nodeId credit.nodeId then credit.resources else 0 := by
    unfold creditPart
    rw [hvalues, List.map_append, List.sum_append, List.map_singleton, List.sum_singleton]
  have htasks : (l.addCredit credit).taskPart nodeId = l.taskPart nodeId := by
    unfold taskPart
    rw [funext fun lease => taskCharge_addCredit hl hid lease]
    rfl
  have horphans : (l.addCredit credit).orphanPart nodeId = l.orphanPart nodeId := by
    unfold orphanPart
    congr 2
    apply List.filter_congr
    intro o ho
    unfold isOrphan
    rw [creditOf?_addCredit hid ho]
    rfl
  -- No output names the new credit, so that it has no excess.
  have hnone : (l.addCredit credit).idleContinuationOutputExcess credit = 0 := by
    unfold idleContinuationOutputExcess liveOutputBytesForCredit
    rw [List.filter_eq_nil_iff.mpr]
    . simp
    . intro o ho
      simpa using hid.output_credit o ho
  have hexcess : (l.addCredit credit).excessPart nodeId = l.excessPart nodeId := by
    unfold excessPart
    rw [hvalues, List.filter_append, List.map_append, List.sum_append]
    have hlast : (([credit].filter (l.addCredit credit).isIdle).map fun c => if selects nodeId c.nodeId
        then (l.addCredit credit).idleContinuationOutputExcess c else 0).sum = 0 := by
      apply List.sum_eq_zero
      intro x hx
      obtain ⟨c, hc, rfl⟩ := List.mem_map.mp hx
      rw [List.mem_singleton.mp (List.mem_of_mem_filter hc), hnone, ite_self]
    rw [hlast, add_zero]
    rfl
  rw [viewOfNodes_eq, viewOfNodes_eq, hcredits, htasks, horphans, hexcess,
    show (l.addCredit credit).residentPart nodeId = l.residentPart nodeId from rfl]
  abel

/-! Changing hands: a credit is replaced by one with another borrower or without its parent. -/

def putCredit (l : Ledger) (credit : ContinuationCredit) (byBorrower : Dict String String) :
    Ledger :=
  { l with
    continuationCredits := l.continuationCredits.put credit
    continuationCreditByBorrower := byBorrower }

section PutCredit

variable {credit credit' : ContinuationCredit} {byBorrower : Dict String String}

theorem creditOf?_putCredit (hfind : l.continuationCredits.find? credit.creditId = some credit)
    (hid : credit'.creditId = credit.creditId) (o : OutputBlockLease) :
    (l.putCredit credit' byBorrower).creditOf? o =
      (l.creditOf? o).map fun c => if c.creditId = credit.creditId then credit' else c := by
  unfold creditOf? putCredit
  cases o.continuationCreditId with
  | none => rfl
  | some creditId =>
    simp only [bind_some]
    rw [find?_put, hid]
    split
    . next h =>
      rw [h, hfind]
      simp
    . next h =>
      cases hother : l.continuationCredits.find? creditId with
      | none => rfl
      | some other =>
        have hkey := l.continuationCredits.keyed _ _ hother
        rw [map_some, if_neg (by rw [hkey]; exact h)]

theorem Consistent.putCredit (hl : l.Consistent)
    (hfind : l.continuationCredits.find? credit.creditId = some credit)
    (hid : credit'.creditId = credit.creditId) (hnode : credit'.nodeId = credit.nodeId)
    (hstage : credit'.reservationStageId = credit.reservationStageId)
    (hindex : ∀ t c, byBorrower.find? t = some c ↔
      if c = credit.creditId then credit'.borrowedByTaskLeaseId = some t
      else l.continuationCreditByBorrower.find? t = some c)
    (hborrower : ∀ task,
      credit'.borrowedByTaskLeaseId.bind (fun t => l.taskLeases.find? t) = some task →
        task.nodeId = credit.nodeId)
    (houtputs : ∀ o ∈ l.outputLeases.values, ∀ task,
      l.taskLeases.find? o.taskLeaseId = some task →
        byBorrower.find? o.taskLeaseId = l.continuationCreditByBorrower.find? o.taskLeaseId) :
    (l.putCredit credit' byBorrower).Consistent where
  __ := hl
  borrower := by
    intro t c
    simp only [Ledger.putCredit]
    rw [hindex, find?_put, hid]
    split
    . constructor
      . intro h
        exact ⟨credit', rfl, h⟩
      . rintro ⟨_, h, hb⟩
        cases h
        exact hb
    . exact hl.borrower t c
  borrower_node := by
    intro c hc task htask
    rcases mem_values_put hc with rfl | hc
    . rw [hnode]
      exact hborrower task htask
    . exact hl.borrower_node c hc task htask
  output_credit := by
    intro o ho c hc
    rw [creditOf?_putCredit hfind hid] at hc
    obtain ⟨before, hbefore, rfl⟩ := Option.map_eq_some_iff.mp hc
    have := hl.output_credit o ho before hbefore
    split
    . next h =>
      have hsame := (creditOf?_eq_some hbefore).2
      rw [h, hfind] at hsame
      cases hsame
      rw [hnode]
      exact this
    . exact this
  output_task := by
    intro o ho task htask
    obtain ⟨h₁, h₂, h₃⟩ := hl.output_task o ho task htask
    exact ⟨h₁, h₂, h₃.trans (houtputs o ho task htask).symm⟩
  credit_stage := by
    intro c hc
    rcases mem_values_put hc with rfl | hc
    . rw [hstage]
      exact hl.credit_stage credit (Dict.mem_values_of_find? hfind)
    . exact hl.credit_stage c hc

end PutCredit

section Borrow

variable {credit : ContinuationCredit} {lease : TaskLease}

theorem borrow_eq_putCredit (l : Ledger) (credit : ContinuationCredit) (leaseId : String) :
    l.borrow credit leaseId =
      l.putCredit { credit with borrowedByTaskLeaseId := some leaseId }
        (l.continuationCreditByBorrower.insert leaseId credit.creditId) := rfl

theorem giveBack_eq_putCredit (l : Ledger) (credit : ContinuationCredit) (leaseId : String) :
    l.giveBack credit leaseId =
      l.putCredit { credit with borrowedByTaskLeaseId := none }
        (l.continuationCreditByBorrower.erase leaseId) := rfl

section

variable (hl : l.Consistent)
  (hfind : l.continuationCredits.find? credit.creditId = some credit)

include hl hfind

theorem Consistent.index_ne {t : String} (hfree : credit.borrowedByTaskLeaseId ≠ some t) :
    l.continuationCreditByBorrower.find? t ≠ some credit.creditId := by
  intro h
  obtain ⟨other, hother, hb⟩ := (hl.borrower _ _).mp h
  rw [hfind] at hother
  cases hother
  exact hfree hb

theorem Consistent.borrow (hfree : credit.borrowedByTaskLeaseId = none)
    (htask : l.taskLeases.find? lease.leaseId = some lease) (hnode : lease.nodeId = credit.nodeId)
    (hnew : l.continuationCreditByBorrower.find? lease.leaseId = none)
    (houtputs : ∀ o ∈ l.outputLeases.values, o.taskLeaseId ≠ lease.leaseId) :
    (l.borrow credit lease.leaseId).Consistent := by
  refine hl.putCredit hfind (by rfl) (by rfl) (by rfl) ?_ ?_ ?_
  . intro t c
    rw [Dict.find?_insert]
    split
    . next h =>
      subst h
      split
      . next h => simp [h]
      . next h =>
        rw [hnew]
        simp [Ne.symm h]
    . next ht =>
      split
      . next h =>
        rw [h]
        simp only [Option.some.injEq]
        constructor
        . intro hindex
          exact absurd hindex (hl.index_ne hfind (by rw [hfree]; simp))
        . intro h
          exact absurd h.symm ht
      . rfl
  . intro task h
    simp only [bind_some] at h
    rw [htask] at h
    cases h
    exact hnode
  . intro o ho task _
    rw [Dict.find?_insert, if_neg (houtputs o ho)]

theorem Consistent.giveBack {leaseId : String}
    (hborrowed : credit.borrowedByTaskLeaseId = some leaseId)
    (hgone : l.taskLeases.find? leaseId = none) : (l.giveBack credit leaseId).Consistent := by
  have hindex := (hl.borrower leaseId credit.creditId).mpr ⟨credit, hfind, hborrowed⟩
  refine hl.putCredit hfind (by rfl) (by rfl) (by rfl) ?_ ?_ ?_
  . intro t c
    rw [Dict.find?_erase]
    split
    . next h =>
      subst h
      split
      . simp
      . next h =>
        rw [hindex]
        simp [Ne.symm h]
    . next ht =>
      split
      . next h =>
        rw [h]
        simp only [reduceCtorEq, iff_false]
        apply hl.index_ne hfind
        rw [hborrowed]
        simp [Ne.symm ht]
      . rfl
  . intro task h
    cases h
  . intro o ho task htask
    rw [Dict.find?_erase, if_neg]
    intro h
    rw [h, hgone] at htask
    cases htask

theorem Consistent.orphan :
    (l.putCredit { credit with parentActive := false }
      l.continuationCreditByBorrower).Consistent := by
  refine hl.putCredit hfind (by rfl) (by rfl) (by rfl) ?_ ?_ ?_
  . intro t c
    split
    . next h =>
      rw [h, hl.borrower]
      constructor
      . rintro ⟨other, hother, hb⟩
        rw [hfind] at hother
        cases hother
        exact hb
      . intro hb
        exact ⟨credit, hfind, hb⟩
    . rfl
  . exact hl.borrower_node credit (Dict.mem_values_of_find? hfind)
  . intro _ _ _ _
    rfl

theorem taskCharge_borrow_of_ne (hfree : credit.borrowedByTaskLeaseId = none) {other : TaskLease}
    (hne : other.leaseId ≠ lease.leaseId) :
    (l.borrow credit lease.leaseId).taskCharge other = l.taskCharge other := by
  have hindex : (l.borrow credit lease.leaseId).continuationCreditByBorrower.find? other.leaseId =
      l.continuationCreditByBorrower.find? other.leaseId :=
    Dict.find?_insert_of_ne _ _ hne
  have hlive : (l.borrow credit lease.leaseId).liveOutputBytesForTask other.leaseId =
      l.liveOutputBytesForTask other.leaseId := by
    unfold liveOutputBytesForTask
    rw [hindex]
    rfl
  unfold taskCharge
  rw [hindex, hlive]
  cases hb : l.continuationCreditByBorrower.find? other.leaseId with
  | none => rfl
  | some creditId =>
    have hid : creditId ≠ credit.creditId := by
      rintro rfl
      exact hl.index_ne hfind (by rw [hfree]; simp) hb
    have hother : (l.borrow credit lease.leaseId).continuationCredits.find? creditId =
        l.continuationCredits.find? creditId := by
      simp only [Ledger.borrow]
      rw [find?_put, if_neg hid]
    rw [bind_some, bind_some, hother]
    rfl

end

theorem taskCharge_borrow :
    (l.borrow credit lease.leaseId).taskCharge lease =
      l.borrowedTaskUsage lease.resources lease.outputWindowBytes credit := by
  have hindex : (l.borrow credit lease.leaseId).continuationCreditByBorrower.find? lease.leaseId =
      some credit.creditId := Dict.find?_insert_self _ _ _
  have hcredit : (l.borrow credit lease.leaseId).continuationCredits.find? credit.creditId =
      some { credit with borrowedByTaskLeaseId := some lease.leaseId } := by
    simp only [Ledger.borrow]
    rw [find?_put, if_pos rfl]
  unfold taskCharge
  rw [hindex, bind_some, hcredit]
  rfl

theorem view_borrow (hl : l.Consistent)
    (hfind : l.continuationCredits.find? credit.creditId = some credit)
    (hfree : credit.borrowedByTaskLeaseId = none)
    (htask : l.taskLeases.find? lease.leaseId = some lease) (nodeId : Option String) :
    (l.borrow credit lease.leaseId).viewOfNodes nodeId +
        (if selects nodeId lease.nodeId then l.taskCharge lease else 0) +
        (if selects nodeId credit.nodeId then l.idleContinuationOutputExcess credit else 0) =
      l.viewOfNodes nodeId +
        if selects nodeId lease.nodeId then
          l.borrowedTaskUsage lease.resources lease.outputWindowBytes credit
        else
          0 := by
  -- The reserved resources stay.
  have hcredits : (l.borrow credit lease.leaseId).creditPart nodeId = l.creditPart nodeId := by
    have h := Table.sum_values_put
      (v := { credit with borrowedByTaskLeaseId := some lease.leaseId })
      (fun c : ContinuationCredit => if selects nodeId c.nodeId then c.resources else 0) hfind
    exact add_right_cancel h
  -- The task is charged differently, the others are not.
  have htasks : (l.borrow credit lease.leaseId).taskPart nodeId +
        (if selects nodeId lease.nodeId then l.taskCharge lease else 0) =
      l.taskPart nodeId +
        if selects nodeId lease.nodeId then
          l.borrowedTaskUsage lease.resources lease.outputWindowBytes credit else 0 := by
    rw [← taskCharge_borrow]
    apply Table.sum_values_of_differ htask
    intro other _ hne
    rw [taskCharge_borrow_of_ne hl hfind hfree hne]
  have horphans : (l.borrow credit lease.leaseId).orphanPart nodeId = l.orphanPart nodeId := by
    unfold orphanPart
    congr 2
    apply List.filter_congr
    intro o _
    apply decide_eq_decide.mpr
    rw [borrow_eq_putCredit, creditOf?_putCredit hfind (by rfl), Option.map_eq_none_iff]
    rfl
  -- The credit is no longer idle.
  have hexcess : (l.borrow credit lease.leaseId).excessPart nodeId +
        (if selects nodeId credit.nodeId then l.idleContinuationOutputExcess credit else 0) =
      l.excessPart nodeId := by
    have h := Table.sum_values_put
      (v := { credit with borrowedByTaskLeaseId := some lease.leaseId })
      (fun c : ContinuationCredit => if l.isIdle c = true then
        if selects nodeId c.nodeId then l.idleContinuationOutputExcess c else 0 else 0) hfind
    have hbefore : l.isIdle credit = true := by
      unfold isIdle
      rw [hfree]
    have hafter :
        ¬l.isIdle { credit with borrowedByTaskLeaseId := some lease.leaseId } = true := by
      simp [isIdle, Dict.contains, htask]
    rw [if_pos hbefore, if_neg hafter, add_zero,
      sum_map_ite_zero l.isIdle fun c : ContinuationCredit =>
        if selects nodeId c.nodeId then l.idleContinuationOutputExcess c else 0,
      sum_map_ite_zero l.isIdle fun c : ContinuationCredit =>
        if selects nodeId c.nodeId then l.idleContinuationOutputExcess c else 0] at h
    exact h
  rw [viewOfNodes_eq, viewOfNodes_eq, hcredits, horphans, ← hexcess,
    show (l.borrow credit lease.leaseId).residentPart nodeId = l.residentPart nodeId from rfl]
  exact add_exchange htasks

end Borrow

theorem Consistent.removeCredit (hl : l.Consistent)
    (hfind : l.continuationCredits.find? credit.creditId = some credit)
    (hfree : credit.borrowedByTaskLeaseId = none) :
    ({ l with continuationCredits := l.continuationCredits.remove credit.creditId } :
      Ledger).Consistent := by
  have hsub : ∀ c ∈ (l.continuationCredits.remove credit.creditId).values,
      c ∈ l.continuationCredits.values := fun _ => Table.mem_values_of_remove
  exact {
    __ := hl
    borrower := by
      intro t c
      simp only
      rw [hl.borrower, Table.find?_remove]
      split
      . next h =>
        rw [h, hfind]
        constructor
        . rintro ⟨_, hother, hb⟩
          cases hother
          rw [hfree] at hb
          cases hb
        . rintro ⟨_, hother, -⟩
          cases hother
      . rfl
    borrower_node := fun c hc => hl.borrower_node c (hsub c hc)
    output_credit := by
      intro o ho c hc
      apply hl.output_credit o ho c
      unfold creditOf? at hc ⊢
      obtain ⟨creditId, hid, h⟩ := bind_eq_some_iff.mp hc
      exact bind_eq_some_iff.mpr ⟨creditId, hid, Table.find?_of_remove h⟩
    credit_stage := fun c hc => hl.credit_stage c (hsub c hc) }

/-! Outputs. -/

theorem Consistent.removeOutput (hl : l.Consistent) (leaseId : String) :
    (l.removeOutput leaseId).Consistent := by
  have hsub : ∀ o ∈ (l.removeOutput leaseId).outputLeases.values, o ∈ l.outputLeases.values :=
    fun _ => Table.mem_values_of_remove
  exact {
    __ := hl
    output_credit := fun o ho => hl.output_credit o (hsub o ho)
    output_task := fun o ho => hl.output_task o (hsub o ho)
    output_stage := fun o ho => hl.output_stage o (hsub o ho) }

theorem Consistent.addOutput (hl : l.Consistent)
    (hcredit : ∀ credit, l.creditOf? o = some credit → o.nodeId = credit.nodeId)
    (htask : ∀ task, l.taskLeases.find? o.taskLeaseId = some task →
      o.nodeId = task.nodeId ∧ o.producerStageId = task.stageId ∧
        o.continuationCreditId = l.continuationCreditByBorrower.find? o.taskLeaseId)
    (hstage : o.producerStageId ∈ l.graph.stageIds) : (l.addOutput o).Consistent where
  __ := hl
  output_credit := by
    intro o' ho' credit h
    rcases mem_values_put ho' with rfl | ho'
    . exact hcredit credit h
    . exact hl.output_credit o' ho' credit h
  output_task := by
    intro o' ho' task h
    rcases mem_values_put ho' with rfl | ho'
    . exact htask task h
    . exact hl.output_task o' ho' task h
  output_stage := by
    intro o' ho'
    rcases mem_values_put ho' with rfl | ho'
    . exact hstage
    . exact hl.output_stage o' ho'

structure OutputOf (l : Ledger) (task : TaskLease) (o : OutputBlockLease) : Prop where
  live : l.taskLeases.find? task.leaseId = some task
  taskLeaseId : o.taskLeaseId = task.leaseId
  nodeId : o.nodeId = task.nodeId
  producerStageId : o.producerStageId = task.stageId
  continuationCreditId :
    o.continuationCreditId = l.continuationCreditByBorrower.find? task.leaseId

section AddOutput

variable {task : TaskLease} {o : OutputBlockLease}

theorem Consistent.addOutputOf (hl : l.Consistent) (ho : l.OutputOf task o) :
    (l.addOutput o).Consistent := by
  apply hl.addOutput
  . intro credit hcredit
    have hname := (creditOf?_eq_some hcredit)
    rw [ho.continuationCreditId] at hname
    obtain ⟨other, hother, hb⟩ := (hl.borrower _ _).mp hname.1
    rw [hname.2] at hother
    cases hother
    rw [ho.nodeId]
    apply hl.borrower_node credit (Dict.mem_values_of_find? hname.2)
    rw [hb]
    exact ho.live
  . intro other hother
    rw [ho.taskLeaseId, ho.live] at hother
    cases hother
    rw [ho.taskLeaseId]
    exact ⟨ho.nodeId, ho.producerStageId, ho.continuationCreditId⟩
  . rw [ho.producerStageId]
    exact hl.task_stage task (Dict.mem_values_of_find? ho.live)

theorem sum_filter_put_of_free {p : OutputBlockLease → Bool}
    (hid : l.outputLeases.find? o.leaseId = none) :
    (((l.addOutput o).outputLeases.values.filter p).map (·.sizeBytes)).sum =
      ((l.outputLeases.values.filter p).map (·.sizeBytes)).sum + if p o then o.sizeBytes else 0 := by
  rw [show (l.addOutput o).outputLeases.values = l.outputLeases.values ++ [o] from
    values_put_of_free hid, List.filter_append, List.map_append, List.sum_append]
  congr 1
  by_cases h : p o = true
  . simp [h]
  . simp [h]

theorem liveOutputBytesForCredit_addOutput (hid : l.outputLeases.find? o.leaseId = none)
    (creditId : String) :
    (l.addOutput o).liveOutputBytesForCredit creditId =
      l.liveOutputBytesForCredit creditId +
        if o.continuationCreditId = some creditId then o.sizeBytes else 0 := by
  unfold liveOutputBytesForCredit
  rw [sum_filter_put_of_free hid]
  simp only [decide_eq_true_eq]

theorem taskCharge_eq (hl : l.Consistent) (lease : TaskLease) :
    l.taskCharge lease = lease.resources.withObjectStore (lease.resources.objectStoreBytes +
        max lease.outputWindowBytes (l.liveOutputBytesForTask lease.leaseId)) -
      (((l.continuationCreditByBorrower.find? lease.leaseId).bind fun creditId =>
        l.continuationCredits.find? creditId).map (·.resources)).getD 0 := by
  unfold taskCharge
  cases hb : l.continuationCreditByBorrower.find? lease.leaseId with
  | none => simp
  | some creditId =>
    obtain ⟨credit, hcredit, -⟩ := (hl.borrower _ _).mp hb
    have hkey := l.continuationCredits.keyed _ _ hcredit
    simp only [bind_some, hcredit, map_some, Option.getD_some]
    unfold borrowedTaskUsage liveOutputBytesForTask
    rw [hb, hkey]

def windowGrowth (l : Ledger) (task : TaskLease) (size : ℕ) : ℕ :=
  let live := l.liveOutputBytesForTask task.leaseId
  max task.outputWindowBytes (live + size) - max task.outputWindowBytes live

section

variable (hl : l.Consistent) (ho : l.OutputOf task o) (hid : l.outputLeases.find? o.leaseId = none)

include hl ho hid

theorem liveOutputBytesForTask_addOutput (leaseId : String) :
    (l.addOutput o).liveOutputBytesForTask leaseId =
      l.liveOutputBytesForTask leaseId + if leaseId = task.leaseId then o.sizeBytes else 0 := by
  unfold liveOutputBytesForTask
  simp only [show (l.addOutput o).continuationCreditByBorrower = l.continuationCreditByBorrower
    from rfl]
  cases hb : l.continuationCreditByBorrower.find? leaseId with
  | none =>
    rw [sum_filter_put_of_free hid, ho.taskLeaseId]
    by_cases h : leaseId = task.leaseId
    . simp [h]
    . simp [h, Ne.symm h]
  | some creditId =>
    simp only
    rw [liveOutputBytesForCredit_addOutput hid, ho.continuationCreditId]
    congr 1
    -- A credit has one borrower, so that another task does not see the output.
    by_cases h : leaseId = task.leaseId
    . rw [if_pos h, if_pos (h ▸ hb)]
    . rw [if_neg h, if_neg]
      intro hsame
      obtain ⟨credit, hcredit, hborrowed⟩ := (hl.borrower _ _).mp hb
      obtain ⟨other, hother, hborrowed'⟩ := (hl.borrower _ _).mp hsame
      rw [hcredit] at hother
      cases hother
      rw [hborrowed] at hborrowed'
      exact h (Option.some.inj hborrowed')

theorem taskCharge_addOutput_of_ne {other : TaskLease} (hne : other.leaseId ≠ task.leaseId) :
    (l.addOutput o).taskCharge other = l.taskCharge other := by
  rw [taskCharge_eq (hl.addOutputOf ho), taskCharge_eq hl,
    liveOutputBytesForTask_addOutput hl ho hid, if_neg hne, add_zero]
  rfl

theorem view_addOutput (nodeId : Option String) :
    (l.addOutput o).viewOfNodes nodeId +
        (if selects nodeId task.nodeId then l.taskCharge task else 0) =
      l.viewOfNodes nodeId +
        if selects nodeId task.nodeId then (l.addOutput o).taskCharge task else 0 := by
  have htasks : (l.addOutput o).taskPart nodeId +
        (if selects nodeId task.nodeId then l.taskCharge task else 0) =
      l.taskPart nodeId +
        if selects nodeId task.nodeId then (l.addOutput o).taskCharge task else 0 := by
    apply Table.sum_values_of_differ ho.live
    intro other _ hne
    rw [taskCharge_addOutput_of_ne hl ho hid hne]
  have horphans : (l.addOutput o).orphanPart nodeId = l.orphanPart nodeId := by
    have hlive : ¬l.isOrphan o = true := by
      simp [isOrphan, ho.taskLeaseId, ho.live]
    unfold orphanPart
    rw [show (l.addOutput o).outputLeases.values = l.outputLeases.values ++ [o] from
      values_put_of_free hid, List.filter_append,
      show [o].filter (l.addOutput o).isOrphan = [] from List.filter_cons_of_neg hlive,
      List.append_nil]
    rfl
  have hexcess : (l.addOutput o).excessPart nodeId = l.excessPart nodeId := by
    unfold excessPart
    rw [show (l.addOutput o).isIdle = l.isIdle from rfl,
      show (l.addOutput o).continuationCredits = l.continuationCredits from rfl]
    congr 1
    apply List.map_congr_left
    intro c hc
    obtain ⟨hmem, hidle⟩ := List.mem_filter.mp hc
    -- The credit of a live borrower is not idle.
    have hname : o.continuationCreditId ≠ some c.creditId := by
      rw [ho.continuationCreditId]
      intro h
      obtain ⟨credit, hcredit, hb⟩ := (hl.borrower _ _).mp h
      rw [find?_key_of_mem hmem] at hcredit
      cases hcredit
      simp [isIdle, hb, Dict.contains, ho.live] at hidle
    have hsame : (l.addOutput o).idleContinuationOutputExcess c =
        l.idleContinuationOutputExcess c := by
      unfold idleContinuationOutputExcess
      rw [liveOutputBytesForCredit_addOutput hid, if_neg hname, add_zero]
    rw [hsame]
  rw [viewOfNodes_eq, viewOfNodes_eq, horphans, hexcess,
    show (l.addOutput o).residentPart nodeId = l.residentPart nodeId from rfl,
    show (l.addOutput o).creditPart nodeId = l.creditPart nodeId from rfl]
  have h := add_exchange (r := l.residentPart nodeId) (c := l.creditPart nodeId)
    (o := l.orphanPart nodeId) (x := l.excessPart nodeId) (e := 0) htasks
  simpa only [add_zero] using h

theorem taskCharge_addOutput_le :
    (l.addOutput o).taskCharge task ≤
      l.taskCharge task + .ofObjectStore (l.windowGrowth task o.sizeBytes) := by
  rw [taskCharge_eq (hl.addOutputOf ho), taskCharge_eq hl,
    liveOutputBytesForTask_addOutput hl ho hid, if_pos rfl]
  have hgrowth : ∀ live : ℕ, task.resources.withObjectStore (task.resources.objectStoreBytes +
        max task.outputWindowBytes (live + o.sizeBytes)) =
      task.resources.withObjectStore (task.resources.objectStoreBytes +
        max task.outputWindowBytes live) +
      .ofObjectStore (max task.outputWindowBytes (live + o.sizeBytes) -
        max task.outputWindowBytes live) := by
    intro live
    ext
    . simp [withObjectStore, ofObjectStore]
    . simp [withObjectStore, ofObjectStore]
    . simp [withObjectStore, ofObjectStore]
    . simp only [withObjectStore, ofObjectStore, ResourceVector.objectStoreBytes_add]
      omega
  rw [hgrowth, windowGrowth]
  exact add_tsub_le_tsub_add

theorem taskCharge_addOutput_of_no_growth (hgrowth : l.windowGrowth task o.sizeBytes = 0) :
    (l.addOutput o).taskCharge task = l.taskCharge task := by
  rw [taskCharge_eq (hl.addOutputOf ho), taskCharge_eq hl,
    liveOutputBytesForTask_addOutput hl ho hid, if_pos rfl]
  unfold windowGrowth at hgrowth
  simp only at hgrowth
  have hsame : max task.outputWindowBytes (l.liveOutputBytesForTask task.leaseId + o.sizeBytes) =
      max task.outputWindowBytes (l.liveOutputBytesForTask task.leaseId) := by
    omega
  rw [hsame]
  rfl

theorem view_addOutput_le (nodeId : Option String) :
    (l.addOutput o).viewOfNodes nodeId ≤
      l.viewOfNodes nodeId + .ofObjectStore (l.windowGrowth task o.sizeBytes) := by
  have hview := view_addOutput hl ho hid nodeId
  by_cases hsel : selects nodeId task.nodeId = true
  . rw [if_pos hsel, if_pos hsel] at hview
    apply le_of_add_le_add_right (a := l.taskCharge task)
    rw [hview, add_assoc, add_comm (ofObjectStore _)]
    exact add_le_add_right (taskCharge_addOutput_le hl ho hid) _
  . rw [if_neg hsel, if_neg hsel, add_zero, add_zero] at hview
    rw [hview]
    exact le_self_add

theorem view_addOutput_of_no_growth (hgrowth : l.windowGrowth task o.sizeBytes = 0)
    (nodeId : Option String) : (l.addOutput o).viewOfNodes nodeId = l.viewOfNodes nodeId := by
  have hview := view_addOutput hl ho hid nodeId
  rw [taskCharge_addOutput_of_no_growth hl ho hid hgrowth] at hview
  exact add_right_cancel hview

end

end AddOutput

/-! What a grant adds to the views. -/

section Unused

variable {id : String}

section

variable (h : l.Unused id)

include h

theorem Unused.addTask {lease : TaskLease} (hne : id ≠ lease.leaseId) :
    (l.addTask lease).Unused id :=
  { h with
    task := by
      simp only [Ledger.addTask]
      rw [find?_put, if_neg hne]
      exact h.task }

theorem Unused.addCredit {credit : ContinuationCredit}
    (hne : id ≠ credit.creditId) : (l.addCredit credit).Unused id :=
  { h with
    credit := by
      simp only [Ledger.addCredit]
      rw [find?_put, if_neg hne]
      exact h.credit }

theorem Unused.putCredit {credit : ContinuationCredit}
    {byBorrower : Dict String String} (hne : id ≠ credit.creditId)
    (hindex : byBorrower.find? id = none) : (l.putCredit credit byBorrower).Unused id :=
  { h with
    credit := by
      simp only [Ledger.putCredit]
      rw [find?_put, if_neg hne]
      exact h.credit
    borrower := hindex }

theorem Unused.addOutput {o : OutputBlockLease} (hne : id ≠ o.leaseId)
    (htask : o.taskLeaseId ≠ id) (hcredit : o.continuationCreditId ≠ some id) :
    (l.addOutput o).Unused id :=
  { h with
    output := by
      simp only [Ledger.addOutput]
      rw [find?_put, if_neg hne]
      exact h.output
    output_task := by
      intro o' ho'
      rcases mem_values_put ho' with rfl | ho'
      . exact htask
      . exact h.output_task o' ho'
    output_credit := by
      intro o' ho'
      rcases mem_values_put ho' with rfl | ho'
      . exact hcredit
      . exact h.output_credit o' ho' }

end

end Unused

section Grant

variable {lease : TaskLease} {credit : ContinuationCredit} {nodeId : Option String}

theorem view_grant_credit (hl : l.Consistent) (hid : l.Unused lease.leaseId)
    (hcredit : l.Unused credit.creditId) (hne : credit.creditId ≠ lease.leaseId)
    (hstage : lease.stageId ∈ l.graph.stageIds) :
    ((l.addTask lease).addCredit credit).viewOfNodes nodeId =
      l.viewOfNodes nodeId + (if selects nodeId lease.nodeId then l.taskCharge lease else 0) +
        if selects nodeId credit.nodeId then credit.resources else 0 := by
  rw [view_addCredit (hl.addTask hid hstage) (hcredit.addTask hne), view_addTask hl hid]

theorem idleExcess_le_borrowedTaskUsage (l : Ledger) (resources : ResourceVector) (window : ℕ)
    (credit : ContinuationCredit) :
    l.idleContinuationOutputExcess credit ≤ l.borrowedTaskUsage resources window credit := by
  unfold idleContinuationOutputExcess borrowedTaskUsage
  rw [le_def]
  simp only [ofObjectStore, withObjectStore,
    cpu_sub, gpu_sub, heapBytes_sub,
    ResourceVector.objectStoreBytes_sub]
  exact ⟨zero_le, zero_le, zero_le, by omega⟩

theorem view_grant_borrow (hl : l.Consistent) (hid : l.Unused lease.leaseId)
    (hstage : lease.stageId ∈ l.graph.stageIds)
    (hfind : l.continuationCredits.find? credit.creditId = some credit)
    (hfree : credit.borrowedByTaskLeaseId = none) (hnode : lease.nodeId = credit.nodeId) :
    ((l.addTask lease).borrow credit lease.leaseId).viewOfNodes nodeId =
      l.viewOfNodes nodeId + if selects nodeId lease.nodeId then
        l.borrowedTaskUsage lease.resources lease.outputWindowBytes credit -
          l.idleContinuationOutputExcess credit
      else
        0 := by
  have hview := view_borrow (hl.addTask hid hstage) hfind hfree
    (show (l.addTask lease).taskLeases.find? lease.leaseId = some lease by
      simp only [Ledger.addTask]
      rw [find?_put, if_pos rfl]) nodeId
  rw [view_addTask hl hid, ← hnode] at hview
  by_cases hsel : selects nodeId lease.nodeId = true
  . simp only [if_pos hsel] at hview ⊢
    have hcancel : ((l.addTask lease).borrow credit lease.leaseId).viewOfNodes nodeId +
        l.idleContinuationOutputExcess credit = l.viewOfNodes nodeId +
          l.borrowedTaskUsage lease.resources lease.outputWindowBytes credit := by
      apply add_right_cancel (b := l.taskCharge lease)
      rw [add_right_comm, add_right_comm (l.viewOfNodes nodeId)]
      exact hview
    apply add_right_cancel (b := l.idleContinuationOutputExcess credit)
    rw [hcancel, add_assoc, tsub_add_cancel_of_le (idleExcess_le_borrowedTaskUsage l _ _ _)]
  . simpa only [if_neg hsel, add_zero] using hview

end Grant

end Ledger

end Vane
