import Vane.Ray.QueryResourceManager.Epoch

/-!
This module contains that attempts and output blocks have at most one live lease, and none later.
-/

namespace Vane

open List (map_cons map_id map_map mem_map mem_singleton)
open Text (strip)

def attemptIdentity (p : String × String) : String × String := (Text.strip p.1, Text.strip p.2)

def TaskLease.filedAs (lease : TaskLease) : String × String := (lease.taskId, lease.attemptId)

def TaskLease.attempt (lease : TaskLease) : String × String := attemptIdentity lease.filedAs

namespace QueryResourceManager

variable {task : TaskLease} {outputs : List OutputBlockRequest} {o : OutputBlockLease}
  {graph : QueryExecutionGraph} {allocation : QueryAllocation} {ratio : ℚ}

open Table (IsIndex)
open BoundedSet (lastDistinct)

variable {uuid : UuidSource} {N : Set String} {m m' : QueryResourceManager} {call : Call}
  {result : Except PyError Answer}

/-! The tables of the leases. -/

inductive TasksMove (result : Except PyError Answer) (m m' : QueryResourceManager) : Prop where
  | same (tasks : m'.taskLeases = m.taskLeases)
      (index : m'.activeAttemptLeases = m.activeAttemptLeases)
  | granted (lease : TaskLease) (task : grantedLease? result = some lease)
      (fresh : m.taskLeases.find? lease.leaseId = none)
      (tasks : m'.taskLeases = m.taskLeases.put lease)
      (index : m'.activeAttemptLeases =
        m.activeAttemptLeases.insert lease.filedAs lease.leaseId)
  | removed (lease : TaskLease) (live : m.taskLeases.find? lease.leaseId = some lease)
      (tasks : m'.taskLeases = m.taskLeases.remove lease.leaseId)
      (index : m'.activeAttemptLeases = m.activeAttemptLeases.erase lease.filedAs)
  | cleared (tasks : m'.taskLeases = ∅) (index : m'.activeAttemptLeases = ∅)

theorem Effect.tasksMove (h : Effect uuid call m result m') (hm : m.Indexed uuid N) :
    TasksMove result m m' := by
  induction h with
  | restage stageId stage spec known kept rest ih =>
    cases ih (hm.restage stageId stage) with
    | same tasks index => exact .same tasks index
    | granted lease task fresh tasks index => exact .granted lease task fresh tasks index
    | removed lease live tasks index => exact .removed lease live tasks index
    | cleared tasks index => exact .cleared tasks index
  | taskGranted request spec plan liveness admitted task output =>
    obtain ⟨ledger, _, _, _, _, _, heq, -, htasks, -⟩ := admitted.grantedTask_eq hm liveness
    rw [heq]
    exact .granted _ task hm.ledger.fresh.unused.task htasks rfl
  | taskReleased lease terminal ledger active queued live credits =>
    exact .removed lease live credits.taskLeases rfl
  | taskFinished task outputs seen targetBytes leases filed live checked ledger active queued
      credits final =>
    rw [final]
    refine .removed task live ?_ rfl
    show ledger.taskLeases = _
    rw [credits.taskLeases, removeTask_foldl_addOutput, (taskLeases_foldl_addOutput _ _).1]
    rfl
  | @outputGranted m result request task liveness state =>
    obtain ⟨_, _, heq⟩ := m.grantedOutput_eq uuid request task liveness state
    rw [heq]
    exact .same rfl rfl
  | outputMoved lease state ledger live found credits => exact .same credits.taskLeases rfl
  | outputReleased lease ledger live found credits => exact .same credits.taskLeases rfl
  | cancelled => exact .cleared rfl rfl
  | _ => exact .same rfl rfl

theorem TasksMove.attemptIndex (h : TasksMove result m m')
    (hindex : IsIndex m.activeAttemptLeases m.taskLeases TaskLease.filedAs)
    (hnew : ∀ lease ∈ grantedLease? result, m.activeAttemptLeases.find? lease.filedAs = none) :
    IsIndex m'.activeAttemptLeases m'.taskLeases TaskLease.filedAs := by
  cases h with
  | same tasks index =>
    rw [tasks, index]
    exact hindex
  | granted lease task fresh tasks index =>
    rw [tasks, index]
    exact hindex.put fresh (hnew lease task)
  | removed lease live tasks index =>
    rw [tasks, index]
    exact hindex.remove live
  | cleared tasks index =>
    rw [tasks, index]
    exact Table.isIndex_empty

theorem TasksMove.mem (h : TasksMove result m m') {lease : TaskLease}
    (hlease : lease ∈ m'.taskLeases.values) :
    lease ∈ m.taskLeases.values ∨ lease ∈ grantedLease? result := by
  cases h with
  | same tasks index =>
    rw [tasks] at hlease
    exact .inl hlease
  | granted granted task fresh tasks index =>
    rw [tasks] at hlease
    rcases Table.mem_values_put hlease with rfl | hlease
    . exact .inr task
    . exact .inl hlease
  | removed removed live tasks index =>
    rw [tasks] at hlease
    exact .inl (Table.mem_values_of_remove hlease)
  | cleared tasks index =>
    rw [tasks] at hlease
    cases hlease

theorem map_blockId_finishedLeases (uuid : UuidSource) (generation : ℕ) (task : TaskLease) (drawn : ℕ)
    (outputs : List OutputBlockRequest) :
    (finishedLeases uuid generation task drawn outputs).map (·.blockId) =
      outputs.map (·.blockId) := by
  induction outputs generalizing drawn with
  | nil => rfl
  | cons request rest ih => rw [finishedLeases, map_cons, ih, map_cons]

theorem nodup_of_checkFinishedOutput {targetBytes : ℤ} {seen seen' : List String}
    (h : outputs.foldlM (m.checkFinishedOutput task targetBytes) seen = .ok seen') :
    (outputs.map (strip ·.blockId)).Nodup ∧
      ∀ request ∈ outputs, strip request.blockId ∉ seen ∧
        m.outputLeaseByBlock.contains (strip request.blockId) = false := by
  induction outputs generalizing seen with
  | nil => simp
  | cons request rest ih =>
    rw [List.foldlM_cons] at h
    obtain ⟨next, hnext, h⟩ := Except.ok_of_bind h
    obtain ⟨hnodup, hrest⟩ := ih h
    unfold checkFinishedOutput at hnext
    simp only [Except.bind_eq_ok_iff, Except.raiseIf_eq_ok_iff, exists_const] at hnext
    obtain ⟨-, -, -, -, -, hunique, -, -, hnext⟩ := hnext
    cases hnext
    simp only [not_or, Bool.not_eq_true] at hunique
    refine ⟨List.nodup_cons.mpr ⟨?_, hnodup⟩, ?_⟩
    . intro hmem
      obtain ⟨other, hother, heq⟩ := mem_map.mp hmem
      exact (hrest other hother).1 (by simp [heq])
    . intro other hother
      rcases List.mem_cons.mp hother with rfl | hother
      . exact hunique
      . obtain ⟨hseen, hfree⟩ := hrest other hother
        exact ⟨fun hmem => hseen (List.mem_append_left _ hmem), hfree⟩

theorem finishedLeases_checked {targetBytes : ℤ} {seen : List String} {generation drawn : ℕ}
    (h : outputs.foldlM (m.checkFinishedOutput task targetBytes) [] = .ok seen) :
    ((finishedLeases uuid generation task drawn outputs).map (strip ·.blockId)).Nodup ∧
      ∀ lease ∈ finishedLeases uuid generation task drawn outputs,
        m.outputLeaseByBlock.find? (strip lease.blockId) = none := by
  have hblocks := map_blockId_finishedLeases uuid generation task drawn outputs
  obtain ⟨hnodup, hunleased⟩ := nodup_of_checkFinishedOutput h
  constructor
  . rw [show (fun lease : OutputBlockLease => strip lease.blockId) =
      strip ∘ (·.blockId) from rfl, ← map_map, hblocks, map_map]
    exact hnodup
  . intro lease hlease
    have hmem := List.mem_map_of_mem (f := (·.blockId)) hlease
    rw [hblocks] at hmem
    obtain ⟨request, hrequest, heq⟩ := mem_map.mp hmem
    rw [← heq]
    simpa [Dict.contains] using (hunleased request hrequest).2

theorem IsIndex.foldl_finished {l : Ledger} {index : Dict String String} {generation drawn : ℕ}
    (hindex : IsIndex index l.outputLeases (·.blockId))
    (hunused : ∀ i, drawn ≤ i → l.outputLeases.find? (uuid.hex i) = none)
    (hnodup : (outputs.map (·.blockId)).Nodup)
    (hfree : ∀ request ∈ outputs, index.find? request.blockId = none) :
    IsIndex ((finishedLeases uuid generation task drawn outputs).foldl
        (fun index lease => index.insert lease.blockId lease.leaseId) index)
      ((finishedLeases uuid generation task drawn outputs).foldl Ledger.addOutput l).outputLeases
      (·.blockId) := by
  induction outputs generalizing l index drawn with
  | nil => exact hindex
  | cons request rest ih =>
    rw [map_cons, List.nodup_cons] at hnodup
    unfold finishedLeases
    rw [List.foldl_cons, List.foldl_cons]
    apply ih
    . exact hindex.put (hunused drawn le_rfl) (hfree request (by simp))
    . intro i hi
      simp only [Ledger.addOutput]
      rw [Table.find?_put, if_neg, hunused i (by omega)]
      intro heq
      have := uuid.hex_injective heq
      omega
    . exact hnodup.2
    . intro other hother
      rw [Dict.find?_insert_of_ne]
      . exact hfree other (by simp [hother])
      . intro heq
        exact hnodup.1 (mem_map.mpr ⟨other, hother, heq⟩)

inductive OutputsMove (uuid : UuidSource) (result : Except PyError Answer)
    (m m' : QueryResourceManager) : Prop where
  | same (outputs : m'.outputLeases = m.outputLeases)
      (index : m'.outputLeaseByBlock = m.outputLeaseByBlock)
  | granted (lease : OutputBlockLease) (output : leasedOutputs result = [lease])
      (fresh : m.outputLeases.find? lease.leaseId = none)
      (outputs : m'.outputLeases = m.outputLeases.put lease)
      (index : m'.outputLeaseByBlock = m.outputLeaseByBlock.insert lease.blockId lease.leaseId)
  | finished (task : TaskLease) (requests : List OutputBlockRequest) (leases : List OutputBlockLease)
      (filed : leases = finishedLeases uuid m.allocation.generation task m.uuidsDrawn requests)
      (output : leasedOutputs result = leases)
      (nodup : (leases.map (Text.strip ·.blockId)).Nodup)
      (outputs : m'.outputLeases = (leases.foldl Ledger.addOutput m.toLedger).outputLeases)
      (index : m'.outputLeaseByBlock = leases.foldl
        (fun index lease => index.insert lease.blockId lease.leaseId) m.outputLeaseByBlock)
  | moved (lease old : OutputBlockLease) (found : m.outputLeases.find? lease.leaseId = some old)
      (block : lease.blockId = old.blockId)
      (outputs : m'.outputLeases = m.outputLeases.put lease)
      (index : m'.outputLeaseByBlock = m.outputLeaseByBlock)
  | removed (lease : OutputBlockLease)
      (found : m.outputLeases.find? lease.leaseId = some lease)
      (outputs : m'.outputLeases = m.outputLeases.remove lease.leaseId)
      (index : m'.outputLeaseByBlock = m.outputLeaseByBlock.erase lease.blockId)
  | cleared (outputs : m'.outputLeases = ∅) (index : m'.outputLeaseByBlock = ∅)

theorem Effect.outputsMove (h : Effect uuid call m result m') (hm : m.Indexed uuid N) :
    OutputsMove uuid result m m' := by
  induction h with
  | restage stageId stage spec known kept rest ih =>
    cases ih (hm.restage stageId stage) with
    | same outputs index => exact .same outputs index
    | granted lease output fresh outputs index => exact .granted lease output fresh outputs index
    | finished task requests leases filed output nodup outputs index =>
      exact .finished task requests leases filed output nodup outputs index
    | moved lease old found block outputs index => exact .moved lease old found block outputs index
    | removed lease found outputs index => exact .removed lease found outputs index
    | cleared outputs index => exact .cleared outputs index
  | taskGranted request spec plan liveness admitted task output =>
    obtain ⟨ledger, _, _, _, _, _, heq, -, -, houtputs, -⟩ := admitted.grantedTask_eq hm liveness
    rw [heq]
    exact .same houtputs rfl
  | taskReleased lease terminal ledger active queued live credits =>
    exact .same credits.outputLeases rfl
  | @taskFinished m m' task outputs seen targetBytes leases filed live checked ledger active queued
      credits final =>
    rw [final]
    refine .finished task outputs leases filed rfl ?_ credits.outputLeases rfl
    rw [filed]
    exact (finishedLeases_checked checked).1
  | @outputGranted m result request task liveness state admitted task? output =>
    obtain ⟨_, _, heq⟩ := m.grantedOutput_eq uuid request task liveness state
    rw [heq]
    exact .granted _ (leasedOutputs_of_granted output) hm.ledger.fresh.unused.output rfl rfl
  | outputMoved lease state ledger live found credits =>
    exact .moved { lease with state } lease found rfl credits.outputLeases rfl
  | outputReleased lease ledger live found credits =>
    exact .removed lease found credits.outputLeases rfl
  | cancelled => exact .cleared rfl rfl
  | _ => exact .same rfl rfl

theorem OutputsMove.blockIndex (h : OutputsMove uuid result m m') (hm : m.Indexed uuid N)
    (hindex : IsIndex m.outputLeaseByBlock m.outputLeases (·.blockId))
    (hnew : ∀ o ∈ leasedOutputs result, m.outputLeaseByBlock.find? o.blockId = none) :
    IsIndex m'.outputLeaseByBlock m'.outputLeases (·.blockId) := by
  cases h with
  | same outputs index =>
    rw [outputs, index]
    exact hindex
  | granted lease output fresh outputs index =>
    rw [outputs, index]
    exact hindex.put fresh (hnew lease (by simp [output]))
  | finished task requests leases filed output nodup outputs index =>
    rw [outputs, index]
    rw [output] at hnew
    have hnodup : (leases.map (·.blockId)).Nodup := by
      apply List.Nodup.of_map strip
      rw [map_map]
      exact nodup
    subst filed
    rw [map_blockId_finishedLeases] at hnodup
    refine IsIndex.foldl_finished hindex (fun i hi => (hm.ledger.unused i hi).output) hnodup ?_
    intro request hrequest
    have hmem := List.mem_map_of_mem (f := (·.blockId)) hrequest
    rw [← map_blockId_finishedLeases uuid m.allocation.generation task m.uuidsDrawn] at hmem
    obtain ⟨lease, hlease, heq⟩ := mem_map.mp hmem
    rw [← heq]
    exact hnew lease hlease
  | moved lease old found block outputs index =>
    rw [outputs, index]
    exact hindex.replace found block
  | removed lease found outputs index =>
    rw [outputs, index]
    exact hindex.remove found
  | cleared outputs index =>
    rw [outputs, index]
    exact Table.isIndex_empty

theorem mem_foldl_addOutput {leases : List OutputBlockLease} {l : Ledger}
    (h : o ∈ (leases.foldl Ledger.addOutput l).outputLeases.values) :
    o ∈ leases ∨ o ∈ l.outputLeases.values := by
  induction leases generalizing l with
  | nil => exact .inr h
  | cons lease leases ih =>
    rcases ih h with h | h
    . exact .inl (List.mem_cons_of_mem _ h)
    . rcases Table.mem_values_put h with rfl | h
      . exact .inl List.mem_cons_self
      . exact .inr h

theorem OutputsMove.mem (h : OutputsMove uuid result m m') (ho : o ∈ m'.outputLeases.values) :
    (∃ old ∈ m.outputLeases.values, o.blockId = old.blockId) ∨ o ∈ leasedOutputs result := by
  cases h with
  | same outputs index =>
    rw [outputs] at ho
    exact .inl ⟨o, ho, rfl⟩
  | granted lease output fresh outputs index =>
    rw [outputs] at ho
    rcases Table.mem_values_put ho with rfl | ho
    . exact .inr (by simp [output])
    . exact .inl ⟨o, ho, rfl⟩
  | finished task requests leases filed output nodup outputs index =>
    rw [outputs] at ho
    rcases mem_foldl_addOutput ho with ho | ho
    . exact .inr (by rwa [output])
    . exact .inl ⟨o, ho, rfl⟩
  | moved lease old found block outputs index =>
    rw [outputs] at ho
    rcases Table.mem_values_put ho with rfl | ho
    . exact .inl ⟨old, Dict.mem_values_of_find? found, block⟩
    . exact .inl ⟨o, ho, rfl⟩
  | removed lease found outputs index =>
    rw [outputs] at ho
    exact .inl ⟨o, Table.mem_values_of_remove ho, rfl⟩
  | cleared outputs index =>
    rw [outputs] at ho
    cases ho

/-! Attempts. -/

def terminalAttemptLog (uuid : UuidSource) (calls : List Call) (m : QueryResourceManager) :
    List (String × String) :=
  Run.log (Call.step uuid) (fun call m => call.terminalAttempts m (call.exec uuid m).1) calls m

def Call.markedAttempt? : Call → Option (String × String)
  | markTaskAttemptTerminal taskId attemptId => some (taskId, attemptId)
  | _ => none

structure StripsAttempts (uuid : UuidSource) (call : Call) (m : QueryResourceManager) : Prop where
  granted : ∀ lease ∈ grantedLease? (call.exec uuid m).1, lease.attempt = lease.filedAs
  marked : ∀ p ∈ call.markedAttempt?, attemptIdentity p = p

instance (uuid : UuidSource) (call : Call) (m : QueryResourceManager) :
    Decidable (StripsAttempts uuid call m) :=
  decidable_of_iff (_ ∧ _) ⟨fun h => ⟨h.1, h.2⟩, fun h => ⟨h.granted, h.marked⟩⟩

/-- After the calls and one more call: no two live leases are for one attempt, and what the last call
granted was not among the last attempts that became terminal before it. -/
structure AttemptsFenced (uuid : UuidSource) (calls : List Call) (call : Call)
    (m : QueryResourceManager) : Prop where
  unique : ∀ a ∈ (runCalls uuid (calls ++ [call]) m).taskLeases.values,
    ∀ b ∈ (runCalls uuid (calls ++ [call]) m).taskLeases.values, a.attempt = b.attempt → a = b
  fenced : ∀ lease ∈ grantedLease? (call.exec uuid (runCalls uuid calls m)).1,
    lease.attempt ∉ lastDistinct terminalIdentityReplayCapacity
      ((terminalAttemptLog uuid calls m).map attemptIdentity)

structure AttemptBooks (uuid : UuidSource) (history : List (String × String))
    (m : QueryResourceManager) : Prop where
  indexed : m.Indexed uuid Set.univ
  index : IsIndex m.activeAttemptLeases m.taskLeases TaskLease.filedAs
  stripped : ∀ lease ∈ m.taskLeases.values, lease.attempt = lease.filedAs
  terminal : m.terminalAttempts.Remembers history
  terminal_stripped : ∀ p ∈ history, attemptIdentity p = p

theorem Effect.granted_checked (h : Effect uuid call m result m') {lease : TaskLease}
    (hlease : lease ∈ grantedLease? result) :
    lease.attempt ∉ m.terminalAttempts ∧ m.activeAttemptLeases.find? lease.attempt = none := by
  induction h with
  | idle drawn hdrawn quiet => exact absurd (quiet.task.symm.trans hlease) (by simp)
  | restage stageId stage spec known kept rest ih => exact ih hlease
  | @taskGranted m result request spec plan liveness admitted task output =>
    rw [task] at hlease
    cases hlease
    have hactive : m.activeAttemptLeases.find? request.attempt = none := by
      simpa [Dict.contains] using admitted.notActive
    exact ⟨admitted.notTerminal, hactive⟩
  | outputGranted request task liveness state admitted task? output =>
    exact absurd (task?.symm.trans hlease) (by simp)
  | _ => cases hlease

theorem mem_terminalAttempts {p : String × String} (h : p ∈ call.terminalAttempts m result) :
    p ∈ call.markedAttempt? ∨ ∃ lease ∈ m.taskLeases.values, lease.filedAs = p := by
  cases call with
  | markTaskAttemptTerminal taskId attemptId =>
    simp only [Call.terminalAttempts] at h
    split at h
    . rw [mem_singleton.mp h]
      exact .inl rfl
    . cases h
  | releaseTaskLease leaseId attemptId =>
    obtain ⟨lease, hlease, rfl⟩ := mem_map.mp h
    exact .inr ⟨lease, Dict.mem_values_of_find?
      (Option.mem_toList.mp (List.mem_of_mem_filter hlease)), rfl⟩
  | finishTaskWithOutputs taskLeaseId attemptId outputs =>
    simp only [Call.terminalAttempts] at h
    split at h
    . obtain ⟨lease, hlease, rfl⟩ := mem_map.mp h
      exact .inr ⟨lease, Dict.mem_values_of_find? (Option.mem_toList.mp hlease), rfl⟩
    . cases h
  | cancel reason =>
    simp only [Call.terminalAttempts] at h
    split at h
    . cases h
    . obtain ⟨lease, hlease, rfl⟩ := mem_map.mp h
      exact .inr ⟨lease, hlease, rfl⟩
  | _ => cases h

theorem AttemptBooks.step {history : List (String × String)} (h : AttemptBooks uuid history m)
    (hstrips : StripsAttempts uuid call m) :
    AttemptBooks uuid (history ++ call.terminalAttempts m (call.exec uuid m).1)
      (call.step uuid m) := by
  have hacts := h.indexed.exec_acts call fun _ _ => trivial
  have hmove := hacts.effect.tasksMove h.indexed
  refine ⟨hacts.indexed, hmove.attemptIndex h.index ?_, ?_, ?_, ?_⟩
  . intro lease hlease
    rw [← hstrips.granted lease hlease]
    exact (hacts.effect.granted_checked hlease).2
  . intro lease hlease
    rcases hmove.mem hlease with hlease | hlease
    . exact h.stripped lease hlease
    . exact hstrips.granted lease hlease
  . rw [hacts.attempts]
    exact BoundedSet.remembers_foldl_add h.terminal _
  . intro p hp
    rcases List.mem_append.mp hp with hp | hp
    . exact h.terminal_stripped p hp
    . rcases mem_terminalAttempts hp with hp | ⟨lease, hlease, rfl⟩
      . exact hstrips.marked p hp
      . exact h.stripped lease hlease

theorem new_attemptBooks
    (hnew : QueryResourceManager.new graph allocation ratio = .ok m) : AttemptBooks uuid [] m := by
  have hm : m.Indexed uuid Set.univ := new_indexed hnew fun _ _ => trivial
  rw [eq_of_new hnew] at hm ⊢
  constructor
  . exact hm
  . exact Table.isIndex_empty
  . intro lease hlease
    cases hlease
  . exact BoundedSet.remembers_empty
  . intro p hp
    cases hp

def leftBehind : Except PyError Answer → List OutputBlockLease
  | .ok (.finished leases) => leases
  | _ => []

def terminalBlockLog (uuid : UuidSource) (calls : List Call) (m : QueryResourceManager) :
    List String :=
  Run.log (Call.step uuid) (fun call m => call.terminalBlocks m (call.exec uuid m).1) calls m

def Call.markedBlock? : Call → Option String
  | markOutputBlockTerminal blockId => some blockId
  | _ => none

/-- The call leases and marks blocks under the identities by which admission knows them, and a task
that it finishes leaves no terminal block behind. -/
structure StripsBlocks (uuid : UuidSource) (call : Call) (m : QueryResourceManager) : Prop where
  leased : ∀ o ∈ leasedOutputs (call.exec uuid m).1, Text.strip o.blockId = o.blockId
  finished : ∀ o ∈ leftBehind (call.exec uuid m).1, o.blockId ∉ m.terminalOutputBlocks
  marked : ∀ blockId ∈ call.markedBlock?, Text.strip blockId = blockId

instance (uuid : UuidSource) (call : Call) (m : QueryResourceManager) :
    Decidable (StripsBlocks uuid call m) :=
  decidable_of_iff (_ ∧ _ ∧ _)
    ⟨fun h => ⟨h.1, h.2.1, h.2.2⟩, fun h => ⟨h.leased, h.finished, h.marked⟩⟩

/-- After the calls and one more call: no two live output leases are for one block, and what the last
call leased was not among the last blocks that became terminal before it. -/
structure BlocksFenced (uuid : UuidSource) (calls : List Call) (call : Call)
    (m : QueryResourceManager) : Prop where
  unique : ∀ a ∈ (runCalls uuid (calls ++ [call]) m).outputLeases.values,
    ∀ b ∈ (runCalls uuid (calls ++ [call]) m).outputLeases.values,
      Text.strip a.blockId = Text.strip b.blockId → a = b
  fenced : ∀ o ∈ leasedOutputs (call.exec uuid (runCalls uuid calls m)).1,
    Text.strip o.blockId ∉ lastDistinct terminalIdentityReplayCapacity
      ((terminalBlockLog uuid calls m).map Text.strip)

structure BlockBooks (uuid : UuidSource) (history : List String) (m : QueryResourceManager) :
    Prop where
  indexed : m.Indexed uuid Set.univ
  index : IsIndex m.outputLeaseByBlock m.outputLeases (·.blockId)
  stripped : ∀ o ∈ m.outputLeases.values, Text.strip o.blockId = o.blockId
  terminal : m.terminalOutputBlocks.Remembers history
  terminal_stripped : ∀ blockId ∈ history, Text.strip blockId = blockId

theorem Effect.leased_checked (h : Effect uuid call m result m') (ho : o ∈ leasedOutputs result) :
    (o ∈ leftBehind result ∨ strip o.blockId ∉ m.terminalOutputBlocks) ∧
      m.outputLeaseByBlock.find? (strip o.blockId) = none := by
  induction h with
  | idle drawn hdrawn quiet =>
    rw [quiet.output] at ho
    cases ho
  | restage stageId stage spec known kept rest ih => exact ih ho
  | taskGranted request spec plan liveness admitted task output =>
    rw [leasedOutputs_of_grantedLease task] at ho
    cases ho
  | taskFinished task outputs seen targetBytes leases filed live checked =>
    refine ⟨.inl ho, ?_⟩
    subst filed
    exact (finishedLeases_checked checked).2 o ho
  | @outputGranted m result request task liveness state admitted task? output =>
    rw [leasedOutputs_of_granted output] at ho
    rw [mem_singleton.mp ho]
    have hfree : m.outputLeaseByBlock.find? (strip request.blockId) = none := by
      simpa [Dict.contains] using admitted.notLeased
    exact ⟨.inr admitted.notTerminal, hfree⟩
  | _ => cases ho

theorem mem_terminalBlocks {blockId : String} (h : blockId ∈ call.terminalBlocks m result) :
    blockId ∈ call.markedBlock? ∨ ∃ o ∈ m.outputLeases.values, o.blockId = blockId := by
  cases call with
  | markOutputBlockTerminal marked =>
    simp only [Call.terminalBlocks] at h
    split at h
    . rw [mem_singleton.mp h]
      exact .inl rfl
    . cases h
  | releaseOutputBlock leaseId =>
    obtain ⟨lease, hlease, rfl⟩ := mem_map.mp h
    exact .inr ⟨lease, Dict.mem_values_of_find? (Option.mem_toList.mp hlease), rfl⟩
  | _ => cases h

theorem BlockBooks.step {history : List String} (h : BlockBooks uuid history m)
    (hstrips : StripsBlocks uuid call m) :
    BlockBooks uuid (history ++ call.terminalBlocks m (call.exec uuid m).1) (call.step uuid m) := by
  have hacts := h.indexed.exec_acts call fun _ _ => trivial
  have hmove := hacts.effect.outputsMove h.indexed
  refine ⟨hacts.indexed, hmove.blockIndex h.indexed h.index ?_, ?_, ?_, ?_⟩
  . intro o ho
    rw [← hstrips.leased o ho]
    exact (hacts.effect.leased_checked ho).2
  . intro o ho
    rcases hmove.mem ho with ⟨old, hold, heq⟩ | ho
    . rw [heq]
      exact h.stripped old hold
    . exact hstrips.leased o ho
  . rw [hacts.blocks]
    exact BoundedSet.remembers_foldl_add h.terminal _
  . intro blockId hblock
    rcases List.mem_append.mp hblock with hblock | hblock
    . exact h.terminal_stripped blockId hblock
    . rcases mem_terminalBlocks hblock with hblock | ⟨o, ho, rfl⟩
      . exact hstrips.marked blockId hblock
      . exact h.stripped o ho

theorem new_blockBooks
    (hnew : QueryResourceManager.new graph allocation ratio = .ok m) : BlockBooks uuid [] m := by
  have hm : m.Indexed uuid Set.univ := new_indexed hnew fun _ _ => trivial
  rw [eq_of_new hnew] at hm ⊢
  constructor
  . exact hm
  . exact Table.isIndex_empty
  . intro o ho
    cases ho
  . exact BoundedSet.remembers_empty
  . intro blockId hblock
    cases hblock

end QueryResourceManager

end Vane
