import Vane.Fte.WorkerTaskManager

/-!
This module contains the verification that running executions stay within the capacity of a worker.
-/

namespace Vane

open Option (bind_some getD_some map_some some_inj)
open Py (ensures_bind ensures_get_bind ensures_lift_bind ensures_modify ensures_modify_bind
  ensures_raiseIf ensures_raiseIf_bind)
open FteTaskExecution (addDoneCallback enqueue new start)

def FteTaskExecution.isLive (e : FteTaskExecution) : Bool :=
  e.isStarted ∧ ¬e.status.state.isTerminal

namespace FteWorkerTaskManager

variable {m : FteWorkerTaskManager} {i : ℕ} {e : FteTaskExecution} {key : FteTaskAttemptId}

def live (m : FteWorkerTaskManager) : Finset ℕ :=
  (Finset.range m.executions.length).filter fun i => (m.executions[i]?).any FteTaskExecution.isLive

def memoryAt (m : FteWorkerTaskManager) (i : ℕ) : ℕ :=
  ((m.executions[i]?).map FteTaskExecution.memoryRequirementBytes).getD 0

structure WithinCapacity (m : FteWorkerTaskManager) : Prop where
  tasks : m.live.card ≤ m.admissionConfig.maxRunningTasks
  memory : ∑ i ∈ m.live, m.memoryAt i ≤ m.admissionConfig.memoryBudgetBytes

instance : Decidable m.WithinCapacity :=
  decidable_of_iff (_ ∧ _) ⟨fun h => ⟨h.1, h.2⟩, fun h => ⟨h.tasks, h.memory⟩⟩

def HoldsCapacity (m : FteWorkerTaskManager) : Prop :=
  ∀ i e, m.executions[i]? = some e → e.isLive → m.tasks.find? e.taskId = some i ∧
    e.taskId ∈ m.runningTasks

structure Sound (m : FteWorkerTaskManager) : Prop where
  known : ∀ key i, m.tasks.find? key = some i → ∃ e, m.executions[i]? = some e ∧ e.taskId = key
  running : ∀ key ∈ m.runningTasks, ∃ i, m.tasks.find? key = some i
  held : m.HoldsCapacity
  tasks : m.runningTasks.card ≤ m.admissionConfig.maxRunningTasks
  memory : m.runningMemoryRequirementBytes ≤ m.admissionConfig.memoryBudgetBytes

theorem Sound.withinCapacity (h : m.Sound) : m.WithinCapacity := by
  have hlive : ∀ i ∈ m.live, ∃ e, m.executions[i]? = some e ∧ m.tasks.find? e.taskId = some i ∧
      e.taskId ∈ m.runningTasks := by
    intro i hi
    have hany := (Finset.mem_filter.mp hi).2
    rw [Option.any_eq_true] at hany
    obtain ⟨e, he, hlive⟩ := hany
    exact ⟨e, he, h.held i e he hlive⟩
  -- the attempt of an execution, where there is one
  let keyAt : ℕ → Option FteTaskAttemptId := fun i => (m.executions[i]?).map FteTaskExecution.taskId
  have hkeyAt : ∀ {i e}, m.executions[i]? = some e → keyAt i = some e.taskId := by
    intro i e he
    show Option.map _ _ = _
    rw [he]
    rfl
  have hinj : Set.InjOn keyAt m.live := by
    intro i hi j hj hij
    obtain ⟨e, he, hfind, -⟩ := hlive i hi
    obtain ⟨e', he', hfind', -⟩ := hlive j hj
    rw [hkeyAt he, hkeyAt he', some_inj] at hij
    rw [hij, hfind'] at hfind
    exact (some_inj.mp hfind).symm
  have hmaps : ∀ i ∈ m.live, keyAt i ∈ m.runningTasks.image some := by
    intro i hi
    obtain ⟨e, he, -, hmem⟩ := hlive i hi
    rw [hkeyAt he]
    exact Finset.mem_image_of_mem _ hmem
  have hcard : (m.runningTasks.image some).card = m.runningTasks.card :=
    Finset.card_image_of_injective _ (Option.some_injective _)
  refine ⟨?_, ?_⟩
  . calc m.live.card
      _ ≤ (m.runningTasks.image some).card := Finset.card_le_card_of_injOn keyAt hmaps hinj
      _ = m.runningTasks.card := hcard
      _ ≤ m.admissionConfig.maxRunningTasks := h.tasks
  . calc ∑ i ∈ m.live, m.memoryAt i
      _ = ∑ i ∈ m.live, ((keyAt i).map m.memoryOf).getD 0 := by
        apply Finset.sum_congr rfl
        intro i hi
        obtain ⟨e, he, hfind, -⟩ := hlive i hi
        rw [hkeyAt he, memoryAt, he, map_some, getD_some, map_some,
          getD_some, memoryOf, execution?, hfind, bind_some, he]
        rfl
      _ = ∑ k ∈ m.live.image keyAt, (k.map m.memoryOf).getD 0 :=
        (Finset.sum_image (f := fun k => (k.map m.memoryOf).getD 0) hinj).symm
      _ ≤ ∑ k ∈ m.runningTasks.image some, (k.map m.memoryOf).getD 0 :=
        Finset.sum_le_sum_of_subset (Finset.image_subset_iff.mpr hmaps)
      _ = m.runningMemoryRequirementBytes := Finset.sum_image fun _ _ _ _ hij => some_inj.mp hij
      _ ≤ m.admissionConfig.memoryBudgetBytes := h.memory

/-! The primitive changes. -/

theorem getElem?_modifyExecution (i j : ℕ) (f : FteTaskExecution → FteTaskExecution) :
    (m.modifyExecution i f).executions[j]? =
      (m.executions[j]?).map fun e => if i = j then f e else e := by
  unfold modifyExecution
  rw [List.getElem?_modify]
  rfl

theorem Sound.modify (h : m.Sound) (i : ℕ) {f : FteTaskExecution → FteTaskExecution}
    (hkey : ∀ e, (f e).taskId = e.taskId)
    (hmemory : ∀ e, (f e).memoryRequirementBytes = e.memoryRequirementBytes)
    (hlive : ∀ e, m.executions[i]? = some e → (f e).isLive →
      m.tasks.find? e.taskId = some i ∧ e.taskId ∈ m.runningTasks) :
    (m.modifyExecution i f).Sound := by
  refine ⟨?_, h.running, ?_, h.tasks, ?_⟩
  . intro key j hj
    obtain ⟨e, he, rfl⟩ := h.known key j hj
    refine ⟨_, by rw [getElem?_modifyExecution, he]; rfl, ?_⟩
    split
    . exact hkey e
    . rfl
  . intro j e' he' hlive'
    rw [getElem?_modifyExecution] at he'
    obtain ⟨e, he, rfl⟩ := Option.map_eq_some_iff.mp he'
    split at hlive'
    . next hij =>
      rw [← hij] at he
      rw [if_pos hij, hkey, ← hij]
      exact hlive e he hlive'
    . next hij =>
      rw [if_neg hij]
      exact h.held j e he hlive'
  . have hmemoryOf : ∀ key, (m.modifyExecution i f).memoryOf key = m.memoryOf key := by
      intro key
      unfold memoryOf execution?
      show (Option.map _ ((m.tasks.find? key).bind fun j =>
        (m.modifyExecution i f).executions[j]?)).getD 0 = _
      cases m.tasks.find? key with
      | none => rfl
      | some j =>
        rw [bind_some, bind_some, getElem?_modifyExecution, Option.map_map]
        congr 2
        funext e
        split
        . exact hmemory e
        . rfl
    unfold runningMemoryRequirementBytes
    rw [Finset.sum_congr rfl fun key _ => hmemoryOf key]
    exact h.memory

def Free (m : FteWorkerTaskManager) (key : FteTaskAttemptId) : Prop :=
  ∀ (i : ℕ) (e : FteTaskExecution), m.executions[i]? = some e → e.isLive → e.taskId ≠ key

theorem Sound.release (h : m.Sound) (hfree : m.Free key) :
    Sound { m with runningTasks := m.runningTasks.erase key } := by
  refine ⟨h.known, ?_, ?_, ?_, ?_⟩
  . exact fun key' hkey' => h.running key' (Finset.mem_of_mem_erase hkey')
  . intro i e he hlive
    obtain ⟨hfind, hmem⟩ := h.held i e he hlive
    exact ⟨hfind, Finset.mem_erase.mpr ⟨hfree i e he hlive, hmem⟩⟩
  . exact (Finset.card_le_card (Finset.erase_subset _ _)).trans h.tasks
  . exact (Finset.sum_le_sum_of_subset (Finset.erase_subset _ _)).trans h.memory

theorem Sound.remove (h : m.Sound) (hfree : m.Free key) : (m.removeTask key).Sound := by
  have hrelease := h.release hfree
  unfold removeTask
  refine ⟨?_, ?_, ?_, hrelease.tasks, ?_⟩
  . intro key' i hi
    rw [Dict.find?_erase] at hi
    split at hi
    . cases hi
    . exact h.known key' i hi
  . intro key' hkey'
    obtain ⟨i, hi⟩ := hrelease.running key' hkey'
    refine ⟨i, ?_⟩
    rw [Dict.find?_erase, if_neg (Finset.ne_of_mem_erase hkey')]
    exact hi
  . intro i e he hlive
    obtain ⟨hfind, hmem⟩ := hrelease.held i e he hlive
    refine ⟨?_, hmem⟩
    rw [Dict.find?_erase, if_neg (hfree i e he hlive)]
    exact hfind
  . refine le_trans (le_of_eq ?_) hrelease.memory
    apply Finset.sum_congr rfl
    intro key' hkey'
    unfold memoryOf execution?
    rw [Dict.find?_erase, if_neg (Finset.ne_of_mem_erase hkey')]

theorem free_of_not_live (h : m.Sound) (hfind : m.tasks.find? key = some i)
    (he : m.executions[i]? = some e) (hlive : ¬e.isLive) : m.Free key := by
  rintro j e' he' hlive' rfl
  have hheld := (h.held j e' he' hlive').1
  rw [hfind] at hheld
  cases hheld
  rw [he] at he'
  cases he'
  exact hlive hlive'

theorem transition_keeps (state : FteTaskState) (e : FteTaskExecution) :
    (e.transition state).taskId = e.taskId ∧
      (e.transition state).memoryRequirementBytes = e.memoryRequirementBytes ∧
      (e.transition state).isStarted = e.isStarted := by
  unfold FteTaskExecution.transition
  split <;> exact ⟨rfl, rfl, rfl⟩

theorem isLive_of_transition {state : FteTaskState} (h : (e.transition state).isLive) : e.isLive := by
  unfold FteTaskExecution.isLive at *
  rw [(transition_keeps state e).2.2] at h
  unfold FteTaskExecution.transition at h
  split at h
  . exact h
  . next hterminal => simp_all

theorem not_isLive_transition {state : FteTaskState} (hstate : state.isTerminal) :
    ¬(e.transition state).isLive := by
  unfold FteTaskExecution.isLive FteTaskExecution.transition
  split <;> simp_all

theorem Sound.transition (h : m.Sound) (i : ℕ) (state : FteTaskState) :
    (m.modifyExecution i (FteTaskExecution.transition state)).Sound :=
  h.modify i (fun e => (transition_keeps state e).1) (fun e => (transition_keeps state e).2.1)
    fun e he hlive => h.held i e he (isLive_of_transition hlive)

theorem Sound.free_canceled (h : m.Sound) (hfind : m.tasks.find? key = some i) :
    (m.modifyExecution i (FteTaskExecution.transition .canceled)).Free key := by
  obtain ⟨e, he, -⟩ := h.known key i hfind
  refine free_of_not_live (h.transition i .canceled) hfind
    (e := e.transition .canceled) ?_ (not_isLive_transition rfl)
  rw [getElem?_modifyExecution, he, map_some, if_pos rfl]

/-! Starting executions. -/

theorem capacityBlockReason_eq_empty (h : m.capacityBlockReason e = "") :
    m.runningTasks.card < m.admissionConfig.maxRunningTasks ∧
      m.runningMemoryRequirementBytes + e.memoryRequirementBytes ≤
        m.admissionConfig.memoryBudgetBytes := by
  unfold capacityBlockReason at h
  split at h
  . exact absurd h (by decide)
  . next hcard =>
    split at h
    . next hmemory => exact ⟨not_le.mp hcard, hmemory⟩
    . exact absurd h (by decide)

theorem Sound.reserve (h : m.Sound) (hfind : m.tasks.find? e.taskId = some i)
    (he : m.executions[i]? = some e) (hblock : m.capacityBlockReason e = "") :
    Sound { m with runningTasks := insert e.taskId m.runningTasks } := by
  obtain ⟨hcard, hmemory⟩ := capacityBlockReason_eq_empty hblock
  refine ⟨h.known, ?_, ?_, ?_, ?_⟩
  . intro key hkey
    rcases Finset.mem_insert.mp hkey with rfl | hkey
    . exact ⟨i, hfind⟩
    . exact h.running key hkey
  . intro j e' he' hlive
    obtain ⟨hfind', hmem⟩ := h.held j e' he' hlive
    exact ⟨hfind', Finset.mem_insert_of_mem hmem⟩
  . exact (Finset.card_insert_le _ _).trans hcard
  . by_cases hmem : e.taskId ∈ m.runningTasks
    . rw [Finset.insert_eq_of_mem hmem]
      exact h.memory
    . have hself : m.memoryOf e.taskId = e.memoryRequirementBytes := by
        unfold memoryOf execution?
        rw [hfind, bind_some, he]
        rfl
      calc ∑ key ∈ insert e.taskId m.runningTasks, m.memoryOf key
        _ = m.memoryOf e.taskId + m.runningMemoryRequirementBytes := Finset.sum_insert hmem
        _ ≤ m.admissionConfig.memoryBudgetBytes := by
          rw [hself, add_comm]
          exact hmemory

theorem start_keeps (e : FteTaskExecution) :
    e.start.addDoneCallback.taskId = e.taskId ∧
      e.start.addDoneCallback.memoryRequirementBytes = e.memoryRequirementBytes := by
  have hstart : e.start.taskId = e.taskId ∧
      e.start.memoryRequirementBytes = e.memoryRequirementBytes := by
    unfold start
    split
    . exact ⟨rfl, rfl⟩
    . exact ⟨(transition_keeps .running e).1, (transition_keeps .running e).2.1⟩
  unfold addDoneCallback
  split <;> exact hstart

section

variable (h : m.Sound)

include h

theorem Sound.startExecution (hfind : m.tasks.find? e.taskId = some i)
    (he : m.executions[i]? = some e) (hblock : m.capacityBlockReason e = "") :
    (m.startExecution i e).Sound := by
  unfold FteWorkerTaskManager.startExecution
  split
  . exact h
  apply (h.reserve hfind he hblock).modify i (fun e => (start_keeps e).1) fun e => (start_keeps e).2
  intro e' he' _
  cases he.symm.trans he'
  exact ⟨hfind, Finset.mem_insert_self _ _⟩

theorem Sound.drainEach (keys : List FteTaskAttemptId) : (drainEach keys m).Sound := by
  induction keys generalizing m with
  | nil => exact ⟨h.known, h.running, h.held, h.tasks, h.memory⟩
  | cons key keys ih =>
    unfold FteWorkerTaskManager.drainEach
    split
    . next i e hfind hexecution =>
      have he : m.executions[i]? = some e := by
        unfold execution? at hexecution
        rwa [hfind, bind_some] at hexecution
      obtain ⟨e', he', hkey⟩ := h.known key i hfind
      cases he.symm.trans he'
      rw [← hkey] at hfind
      split
      . exact ih h
      . split
        . exact ⟨h.known, h.running, h.held, h.tasks, h.memory⟩
        . next hblock => exact ih (h.startExecution hfind he (not_not.mp hblock))
    . exact ih h

theorem Sound.drainQueue : m.drainQueue.Sound := by
  unfold FteWorkerTaskManager.drainQueue
  split
  . exact ⟨h.known, h.running, h.held, h.tasks, h.memory⟩
  . exact h.drainEach m.queuedTasks

theorem Sound.insert (hlive : ¬e.isLive) (hkey : m.tasks.find? e.taskId = none) :
    Sound { m with
      executions := m.executions ++ [e]
      tasks := m.tasks.insert e.taskId m.executions.length } := by
  have hold : ∀ {i : ℕ} {e'}, m.executions[i]? = some e' → (m.executions ++ [e])[i]? = some e' := by
    intro i e' he'
    rw [List.getElem?_append_left (List.getElem?_eq_some_iff.mp he').1, he']
  have hother : ∀ {key i}, m.tasks.find? key = some i → key ≠ e.taskId := by
    rintro key i hi rfl
    rw [hkey] at hi
    cases hi
  refine ⟨?_, ?_, ?_, h.tasks, ?_⟩
  . intro key i hi
    rw [Dict.find?_insert] at hi
    split at hi
    . next hkey =>
      cases hi
      exact ⟨e, by simp, hkey.symm⟩
    . obtain ⟨e', he', hkey'⟩ := h.known key i hi
      exact ⟨e', hold he', hkey'⟩
  . intro key hmem
    obtain ⟨i, hi⟩ := h.running key hmem
    refine ⟨i, ?_⟩
    rw [Dict.find?_insert_of_ne _ _ (hother hi)]
    exact hi
  . intro i e' he' hlive'
    have hold' : m.executions[i]? = some e' := by
      rw [List.getElem?_append] at he'
      split at he'
      . exact he'
      . rw [List.getElem?_singleton] at he'
        split at he'
        . cases he'
          exact absurd hlive' hlive
        . cases he'
    obtain ⟨hfind, hmem⟩ := h.held i e' hold' hlive'
    refine ⟨?_, hmem⟩
    rw [Dict.find?_insert_of_ne _ _ (hother hfind)]
    exact hfind
  . refine le_trans (le_of_eq ?_) h.memory
    apply Finset.sum_congr rfl
    intro key hmem
    obtain ⟨i, hi⟩ := h.running key hmem
    obtain ⟨e', he', -⟩ := h.known key i hi
    unfold memoryOf execution?
    rw [Dict.find?_insert_of_ne _ _ (hother hi), hi, bind_some, bind_some, hold he', he']

theorem Sound.admitOrQueue (hfind : m.tasks.find? e.taskId = some i)
    (he : m.executions[i]? = some e) : (m.admitOrQueue i e).Sound := by
  unfold FteWorkerTaskManager.admitOrQueue
  dsimp only
  split
  . exact h
  . split
    . next hblock => exact h.startExecution hfind he hblock
    . have hqueued : Sound { m with queuedTasks :=
          if e.taskId ∈ m.queuedTasks then m.queuedTasks else m.queuedTasks ++ [e.taskId] } :=
        ⟨h.known, h.running, h.held, h.tasks, h.memory⟩
      have henqueue : ∀ e : FteTaskExecution, e.enqueue.taskId = e.taskId ∧
          e.enqueue.memoryRequirementBytes = e.memoryRequirementBytes ∧
          (e.enqueue.isLive → e.isLive) := by
        intro e
        unfold enqueue
        split
        . exact ⟨rfl, rfl, id⟩
        . exact ⟨(transition_keeps _ e).1, (transition_keeps _ e).2.1, isLive_of_transition⟩
      exact hqueued.modify i (fun e => (henqueue e).1) (fun e => (henqueue e).2.1)
        fun e he hlive => h.held i e he ((henqueue e).2.2 hlive)

end

theorem not_isLive_new {request : CreateTaskRequest} {memoryRequirementBytes : ℕ}
    (h : new request memoryRequirementBytes = .ok e) : ¬e.isLive := by
  obtain ⟨scan, -, h⟩ := Except.ok_of_bind h
  obtain ⟨exchange, -, h⟩ := Except.ok_of_bind h
  cases h
  simp [FteTaskExecution.isLive]

theorem keeps_createTask (request : CreateTaskRequest) (memoryRequirementBytes : ℕ) :
    (createTask request memoryRequirementBytes).Keeps Sound := by
  intro m h
  unfold createTask
  rw [ensures_get_bind, ensures_raiseIf_bind]
  refine ⟨fun _ => h, fun _ => ?_⟩
  rw [ensures_lift_bind]
  refine ⟨?_, fun _ _ => h⟩
  intro e hnew
  rw [Py.ensures_ite]
  refine ⟨fun _ => h, fun hunknown => ?_⟩
  have hkey : m.tasks.find? e.taskId = none := by
    rw [Option.eq_none_iff_forall_ne_some]
    intro i hi
    obtain ⟨e', he', -⟩ := h.known _ i hi
    apply hunknown
    unfold execution?
    rw [hi, bind_some, he']
    rfl
  rw [ensures_raiseIf_bind]
  refine ⟨fun _ => h, fun _ => ?_⟩
  rw [ensures_modify_bind, ensures_modify_bind, ensures_modify]
  have hinsert := h.insert (not_isLive_new hnew) hkey
  apply Sound.admitOrQueue
  . exact ⟨hinsert.known, hinsert.running, hinsert.held, hinsert.tasks, hinsert.memory⟩
  . exact Dict.find?_insert_self _ _ _
  . simp [forgetDroppedStatus]

/-! The other calls. -/

theorem keeps_cancelTask (key : FteTaskAttemptId) (cancelRaises : Bool) :
    (cancelTask key cancelRaises).Keeps Sound := by
  intro m h
  unfold cancelTask
  rw [ensures_get_bind]
  split
  . exact ensures_raiseIf.mpr ⟨fun _ => h, fun _ => h⟩
  . next i hfind =>
    have hqueued : Sound { m with queuedTasks := m.queuedTasks.erase key } :=
      ⟨h.known, h.running, h.held, h.tasks, h.memory⟩
    rw [ensures_modify_bind, ensures_bind, cancelExecution, ensures_raiseIf_bind]
    refine ⟨fun _ => hqueued, fun _ => ?_⟩
    rw [ensures_modify, ensures_modify_bind, ensures_modify]
    exact ((hqueued.transition i .canceled).release (hqueued.free_canceled hfind)).drainQueue

theorem Sound.dropTask (h : m.Sound) (queryId : String) (cancelRaises : FteTaskAttemptId → Bool)
    (key : FteTaskAttemptId) : (dropTask queryId cancelRaises key m).Sound := by
  unfold FteWorkerTaskManager.dropTask
  split
  . next i e hfind hexecution =>
    split
    . exact ⟨h.known, h.running, h.held, h.tasks, h.memory⟩
    . have hremove := (h.transition i .canceled).remove (h.free_canceled hfind)
      exact ⟨hremove.known, hremove.running, hremove.held, hremove.tasks, hremove.memory⟩
  . exact ⟨h.known, h.running, h.held, h.tasks, h.memory⟩

theorem Sound.shutdownTask (h : m.Sound) (cancelRaises : FteTaskAttemptId → Bool)
    (key : FteTaskAttemptId) : (shutdownTask cancelRaises key m).Sound := by
  unfold FteWorkerTaskManager.shutdownTask
  split
  . next i e hfind hexecution =>
    split
    . exact h
    . exact (h.transition i .canceled).remove (h.free_canceled hfind)
  . exact h

theorem Sound.foldl {f : FteTaskAttemptId → FteWorkerTaskManager → FteWorkerTaskManager}
    (hf : ∀ key m, Sound m → (f key m).Sound) (h : m.Sound) (keys : List FteTaskAttemptId) :
    (keys.foldl (fun m key => f key m) m).Sound := by
  induction keys generalizing m with
  | nil => exact h
  | cons key keys ih => exact ih (hf key m h)

theorem Sound.forgetQuery (h : m.Sound) (queryId : String) : (m.forgetQuery queryId).Sound := by
  unfold FteWorkerTaskManager.forgetQuery
  split
  . exact ⟨h.known, h.running, h.held, h.tasks, h.memory⟩
  . exact h

theorem keeps_dropQuery (queryId : String) (cancelRaises : FteTaskAttemptId → Bool) :
    (dropQuery queryId cancelRaises).Keeps Sound := by
  intro m h
  unfold dropQuery
  rw [ensures_get_bind]
  rw [ensures_modify_bind, ensures_modify_bind, ensures_modify_bind, ensures_raiseIf]
  have hdropped := h.foldl (fun key _ h => h.dropTask queryId cancelRaises key)
    (m.queryTasks.findD queryId [])
  have hdrained := (hdropped.forgetQuery queryId).drainQueue
  exact ⟨fun _ => hdrained, fun _ => hdrained⟩

theorem keeps_shutdown (cancelRaises : FteTaskAttemptId → Bool) :
    (shutdown cancelRaises).Keeps Sound := by
  intro m h
  unfold shutdown
  rw [ensures_get_bind]
  rw [ensures_modify_bind, ensures_modify_bind, ensures_modify_bind, ensures_raiseIf]
  have hbegin : Sound { m with isShutdown := true, queuedTasks := [] } :=
    ⟨h.known, h.running, h.held, h.tasks, h.memory⟩
  have hended := hbegin.foldl (fun key _ h => h.shutdownTask cancelRaises key) m.tasks.keys
  exact ⟨fun _ => ⟨hended.known, hended.running, hended.held, hended.tasks, hended.memory⟩,
    fun _ => ⟨hended.known, hended.running, hended.held, hended.tasks, hended.memory⟩⟩

/-! Whole runs. -/

inductive Event where
  | createTask (request : CreateTaskRequest) (memoryRequirementBytes : ℕ)
  | complete (i : ℕ) (state : FteTaskState)
  | taskDone (i : ℕ)
  | cancelTask (key : FteTaskAttemptId) (cancelRaises : Bool)
  | dropQuery (queryId : String) (cancelRaises : FteTaskAttemptId → Bool)
  | shutdown (cancelRaises : FteTaskAttemptId → Bool)

namespace Event

def isDue (e : FteTaskExecution) : Bool := e.doneCallbacks ≠ 0 ∧ e.status.state.isTerminal

def runCallback (i : ℕ) (m : FteWorkerTaskManager) : FteWorkerTaskManager :=
  match m.executions[i]? with
  | none => m
  | some e =>
    if isDue e then
      (m.modifyExecution i fun e => { e with doneCallbacks := e.doneCallbacks - 1 }).taskDone e.taskId
    else
      m

def step : Event → FteWorkerTaskManager → FteWorkerTaskManager
  | createTask request memoryRequirementBytes, m =>
    (FteWorkerTaskManager.createTask request memoryRequirementBytes m).2
  | complete i state, m => m.modifyExecution i fun e =>
    if e.isStarted ∧ state.isTerminal then e.transition state else e
  | taskDone i, m => runCallback i m
  | cancelTask key cancelRaises, m => (FteWorkerTaskManager.cancelTask key cancelRaises m).2
  | dropQuery queryId cancelRaises, m => (FteWorkerTaskManager.dropQuery queryId cancelRaises m).2
  | shutdown cancelRaises, m => (FteWorkerTaskManager.shutdown cancelRaises m).2

def Timely : Event → FteWorkerTaskManager → Prop
  | taskDone i, m => ∀ e ∈ m.executions[i]?, isDue e →
    ¬(m.tasks.find? e.taskId).any fun j => j ≠ i ∧ (m.executions[j]?).any FteTaskExecution.isLive
  | _, _ => True

end Event

theorem Sound.step (h : m.Sound) (event : Event) (htimely : event.Timely m) :
    (event.step m).Sound := by
  cases event with
  | createTask request memoryRequirementBytes =>
    exact (keeps_createTask request memoryRequirementBytes).state h
  | complete i state =>
    apply h.modify i
    . intro e
      split
      . exact (transition_keeps state e).1
      . rfl
    . intro e
      split
      . exact (transition_keeps state e).2.1
      . rfl
    . intro e he hlive
      split at hlive
      . exact h.held i e he (isLive_of_transition hlive)
      . exact h.held i e he hlive
  | taskDone i =>
    show (Event.runCallback i m).Sound
    unfold Event.runCallback
    split
    . exact h
    . next e he =>
      split
      . next hdue =>
        have hcount : Sound (m.modifyExecution i fun e =>
            { e with doneCallbacks := e.doneCallbacks - 1 }) :=
          h.modify i (fun _ => rfl) (fun _ => rfl) fun e he hlive => h.held i e he hlive
        apply (hcount.release _).drainQueue
        -- one that is under way and has the key is the one of its attempt, and not the one that ended
        intro j e' he' hlive hkey
        rw [getElem?_modifyExecution] at he'
        obtain ⟨e₀, he₀, rfl⟩ := Option.map_eq_some_iff.mp he'
        have hlive₀ : e₀.isLive := by
          split at hlive
          . exact hlive
          . exact hlive
        have hkey₀ : e₀.taskId = e.taskId := by
          split at hkey
          . exact hkey
          . exact hkey
        have hheld := (h.held j e₀ he₀ hlive₀).1
        have hne : j ≠ i := by
          rintro rfl
          cases he.symm.trans he₀
          simp [FteTaskExecution.isLive, Event.isDue] at hlive₀ hdue
          rw [hlive₀.2] at hdue
          exact Bool.false_ne_true hdue.2
        apply htimely e he hdue
        rw [← hkey₀, hheld, Option.any_some, he₀]
        simp [hne, hlive₀]
      . exact h
  | cancelTask key cancelRaises => exact (keeps_cancelTask key cancelRaises).state h
  | dropQuery queryId cancelRaises => exact (keeps_dropQuery queryId cancelRaises).state h
  | shutdown cancelRaises => exact (keeps_shutdown cancelRaises).state h

theorem sound_new (config : FteWorkerAdmissionConfig) : Sound { admissionConfig := config } :=
  ⟨fun _ _ h => (by cases h), fun _ h => absurd h (Finset.notMem_empty _), fun _ _ h => (by cases h),
    Nat.zero_le _, Nat.zero_le _⟩

theorem running_executions_within_capacity (config : FteWorkerAdmissionConfig) (events : List Event)
    (htimely : Run.Always Event.step Event.Timely events { admissionConfig := config }) :
    (Run.run Event.step events { admissionConfig := config }).WithinCapacity ∧
      (Run.run Event.step events { admissionConfig := config }).HoldsCapacity := by
  have hsound := Run.run_invariant_of_always Sound
    (fun event _ htimely h => Sound.step h event htimely) htimely (sound_new config)
  exact ⟨hsound.withinCapacity, hsound.held⟩

instance : (event : Event) → (m : FteWorkerTaskManager) → Decidable (event.Timely m)
  | .createTask .., _ | .complete .., _ | .cancelTask .., _ | .dropQuery .., _ | .shutdown .., _ =>
    inferInstanceAs (Decidable True)
  | .taskDone i, m => inferInstanceAs (Decidable (∀ e ∈ m.executions[i]?, _ → ¬_))

namespace Sample

def config : FteWorkerAdmissionConfig where
  maxRunningTasks := 1
  memoryBudgetBytes := 2
  maxRunningTasks_pos := Nat.one_pos
  memoryBudgetBytes_pos := by decide

def create (partitionId : ℕ) : Event := .createTask {
    taskId := ⟨⟨"q", 0, partitionId⟩, 0⟩
    fragmentId := "f"
    context := ∅
    initialSplits := ∅
    noMoreSplits := ∅
    resourceRequest := ∅
    fragmentPlan := none
    fragmentRegistrationResult := none
    descriptorVersion := 0
    outputBuffers := none
    dynamicFilterDomains := ∅
    sourceNodeIds := ∅
    dynamicScanSourceNodeIds := ∅
    dynamicExchangeSourceNodeIds := ∅
    exchangeSinkInstance := none } 1

def timely : List Event :=
  [create 0, create 1, .complete 0 .finished, .taskDone 0, .dropQuery "q" fun _ => false,
    .taskDone 1, create 0]

def late : List Event := [create 0, .dropQuery "q" fun _ => false, create 0, .taskDone 0, create 1]

end Sample

theorem running_executions_within_capacity_timely :
    Run.Always Event.step Event.Timely Sample.timely { admissionConfig := Sample.config } ∧
      (Run.run Event.step Sample.timely { admissionConfig := Sample.config }).live = {2} ∧
      (Run.run Event.step Sample.timely { admissionConfig := Sample.config }).WithinCapacity := by
  have htimely : Run.Always Event.step Event.Timely Sample.timely
      { admissionConfig := Sample.config } := by decide +kernel
  exact ⟨htimely, by decide +kernel,
    (running_executions_within_capacity Sample.config Sample.timely htimely).1⟩

theorem late_callback_exceeds_capacity :
    ¬(Run.run Event.step Sample.late { admissionConfig := Sample.config }).WithinCapacity := by
  decide +kernel

end FteWorkerTaskManager

end Vane
