import Vane.Ray.QueryResourceManager.Epoch

/-! This module contains the agreement of the two entry points that admit a waiting task. -/

namespace Vane

namespace QueryResourceManager

variable {uuid : UuidSource} {N : Set String} {m : QueryResourceManager}
  {evaluations : List QueuedTaskEvaluation} {e selected : QueuedTaskEvaluation}
  {candidateKeys : List (String × String)}

theorem Indexed.evaluation_unique (hm : m.Indexed uuid N)
    (hevaluations : m.evaluateWaitingTasks = .ok evaluations) (he : e ∈ evaluations)
    {e' : QueuedTaskEvaluation} (he' : e' ∈ evaluations)
    (hattempt : e'.request.attempt = e.request.attempt) :
    e'.request = e.request ∧ e'.admission = e.admission := by
  obtain ⟨queued, hfind⟩ := hm.find?_attempt hevaluations he
  obtain ⟨queued', hfind'⟩ := hm.find?_attempt hevaluations he'
  rw [hattempt, hfind] at hfind'
  have hrequest : e'.request = e.request := (Prod.mk.inj (Option.some.inj hfind')).1.symm
  obtain ⟨-, hadmission⟩ := mem_evaluateWaitingTasks hevaluations he
  obtain ⟨-, hadmission'⟩ := mem_evaluateWaitingTasks hevaluations he'
  rw [hrequest, hadmission] at hadmission'
  exact ⟨hrequest, (Except.ok.inj hadmission').symm⟩

theorem Indexed.key_eq_attempt_of_find? (hm : m.Indexed uuid N) {waiter : TaskRequest × ℕ}
    (h : m.waitingTaskInputs.find? e.key = some waiter) : e.key = e.request.attempt := by
  have hfiled := hm.waiting _ _ h
  unfold QueuedTaskEvaluation.key TaskRequest.attempt
  rw [(Prod.mk.inj hfiled).1, (Prod.mk.inj hfiled).2, Text.strip_strip, Text.strip_strip]

/-! The entry point that is asked about a task. -/

theorem Indexed.tryAcquireQueuedTask_of_padded (hm : m.Indexed uuid N)
    (hkey : e.key ≠ e.request.attempt) :
    tryAcquireQueuedTask uuid e.request m = (.ok (taskDenied .taskWaiterNotRegistered true), m) := by
  unfold tryAcquireQueuedTask
  simp only [Py.bind_apply, Py.get_apply]
  cases hfind : m.waitingTaskInputs.find? (e.request.taskId, e.request.attemptId) with
  | none => rfl
  | some waiter => exact absurd (hm.key_eq_attempt_of_find? hfind) hkey

/-- Every task that waits is a candidate, under the identity that it is filed under or under that of
its request. -/
def NamesWaiters (m : QueryResourceManager) (candidateKeys : List (String × String)) : Prop :=
  ∀ key waiter, m.waitingTaskInputs.find? key = some waiter →
    key ∈ candidateKeys ∨ (waiter.1.taskId, waiter.1.attemptId) ∈ candidateKeys

/-- The entry point that chooses does what the other one does when it is asked about the selected
task, and the other one denies every other task that waits. -/
structure EntryPointsAgree (uuid : UuidSource) (candidateKeys : List (String × String))
    (selected : TaskRequest) (m : QueryResourceManager) : Prop where
  next : tryAcquireNextQueuedTask uuid candidateKeys m =
    Prod.map (Except.map fun grant => (some selected, some grant)) id
      (tryAcquireQueuedTask uuid selected m)
  others : ∀ waiter ∈ m.waitingTaskInputs.values, waiter.1 ≠ selected →
    ∃ reason fatal, tryAcquireQueuedTask uuid waiter.1 m = (.ok (taskDenied reason fatal), m)

theorem isNormal_of_selected_reason
    (hselected : m.selectWaitingTaskEvaluation evaluations = .ok (some selected))
    (hreason : selected.admission.reason ≠ none) : evaluations.any (·.isNormal) = false := by
  unfold selectWaitingTaskEvaluation at hselected
  split at hselected
  . next normal hnormal =>
    cases hselected
    have hmem := List.minBy?_mem hnormal
    simp [QueuedTaskEvaluation.isNormal, hreason] at hmem
  . next hnone =>
    by_contra hany
    rw [Bool.not_eq_false, List.any_eq_true] at hany
    obtain ⟨e, he, hnormal⟩ := hany
    have hne : evaluations.filter (·.isNormal) ≠ [] :=
      List.ne_nil_of_mem (List.mem_filter.mpr ⟨he, hnormal⟩)
    obtain ⟨least, hleast⟩ := List.minBy?_isSome (·.rank) hne
    cases hnone.symm.trans hleast

theorem queuedLivenessBlockReason_of_selected
    (hselected : m.selectWaitingTaskEvaluation evaluations = .ok (some selected))
    (hreason : selected.admission.reason ≠ none) :
    m.queuedLivenessBlockReason evaluations = m.livenessClosed := by
  unfold queuedLivenessBlockReason
  rw [isNormal_of_selected_reason hselected hreason]
  cases m.livenessClosed <;> rfl

section

variable (hevaluations : m.evaluateWaitingTasks = .ok evaluations)
  (hselected : m.selectWaitingTaskEvaluation evaluations = .ok (some selected))

include hevaluations hselected

theorem Indexed.tryAcquireQueuedTask_eq (hm : m.Indexed uuid N)
    (he : e ∈ evaluations) (hfatal : e.admission.fatal = false) (hkey : e.key = e.request.attempt) :
    tryAcquireQueuedTask uuid e.request m =
      if selected.key ≠ e.key then
        (.ok (taskDenied .admissionTurn), m)
      else if e.admission.reason = none then
        grantTask uuid e.request e.admission.plan false m
      else
        match m.queuedLivenessBlockReason evaluations with
        | some reason => (.ok (taskDenied reason), m)
        | none => grantTask uuid e.request e.admission.plan true m := by
  obtain ⟨queued, hfind⟩ := hm.find?_attempt hevaluations he
  rw [← hkey] at hfind
  obtain ⟨current, hcurrent⟩ : ∃ current, evaluations.find? (·.key = e.key) = some current :=
    Option.isSome_iff_exists.mp (List.find?_isSome.mpr ⟨e, he, by simp⟩)
  have hcurrentKey : current.key = e.key := by simpa using List.find?_some hcurrent
  obtain ⟨-, hadmission⟩ := hm.evaluation_unique hevaluations he
    (List.mem_of_find?_eq_some hcurrent) (attempt_eq_of_key_eq hcurrentKey)
  unfold tryAcquireQueuedTask
  simp only [Py.bind_apply, Py.get_apply]
  change m.waitingTaskInputs.find? (e.request.taskId, e.request.attemptId) = _ at hfind
  change evaluations.find? (·.key = (e.request.taskId, e.request.attemptId)) = _ at hcurrent
  rw [hfind]
  simp only [ne_eq, not_true_eq_false, if_false, Py.bind_apply, Py.lift_apply, hevaluations, hcurrent,
    hadmission, hfatal, Bool.false_eq_true, hselected]
  split
  . next hne =>
    rw [if_pos (show ¬selected.key = e.key from hne)]
    rfl
  . next heq =>
    rw [if_neg (show ¬¬selected.key = e.key from heq)]
    split
    . rfl
    . cases m.queuedLivenessBlockReason evaluations <;> rfl

/-! The entry point that chooses. -/

variable (hfatal : ∀ e ∈ evaluations, e.admission.fatal = false)

include hfatal

theorem tryAcquireNextQueuedTask_eq :
    tryAcquireNextQueuedTask uuid candidateKeys m =
      if selected.key ∉ candidateKeys then
        (.ok (some selected.request, some (taskDenied .admissionTurn)), m)
      else
        Prod.map (Except.map fun grant => (some selected.request, some grant)) id
          (if selected.admission.reason = none then
            grantTask uuid selected.request selected.admission.plan false m
          else
            match m.livenessClosed with
            | some reason => (.ok (taskDenied reason), m)
            | none => grantTask uuid selected.request selected.admission.plan true m) := by
  have howned : evaluations.filter (fun e => e.admission.fatal ∧ e.key ∈ candidateKeys) = [] := by
    rw [List.filter_eq_nil_iff]
    intro e he
    simp [hfatal e he]
  unfold tryAcquireNextQueuedTask
  simp only [Py.bind_apply, Py.get_apply, Py.lift_apply, hevaluations, howned, hselected,
    List.minBy?]
  split
  . rfl
  . split
    . exact Py.bind_pure_apply _ _ _
    . cases m.livenessClosed with
      | some reason => rfl
      | none => exact Py.bind_pure_apply _ _ _

theorem Indexed.other_denied (hm : m.Indexed uuid N) {waiter : TaskRequest × ℕ}
    (hwaiter : waiter ∈ m.waitingTaskInputs.values) (hother : waiter.1 ≠ selected.request) :
    ∃ reason fatal, tryAcquireQueuedTask uuid waiter.1 m = (.ok (taskDenied reason fatal), m) := by
  obtain ⟨e, he, hrequest⟩ := exists_evaluation hevaluations hwaiter
  rw [← hrequest] at hother ⊢
  by_cases hkey : e.key = e.request.attempt
  . have hne : selected.key ≠ e.key := fun hsame => hother
      (hm.evaluation_unique hevaluations he (mem_of_selectWaitingTaskEvaluation hselected).1
        (attempt_eq_of_key_eq hsame)).1.symm
    refine ⟨.admissionTurn, false, ?_⟩
    rw [hm.tryAcquireQueuedTask_eq hevaluations hselected he (hfatal e he) hkey, if_pos hne]
  . exact ⟨_, _, hm.tryAcquireQueuedTask_of_padded hkey⟩

theorem Indexed.next_eq_of_stripped (hm : m.Indexed uuid N) (hnamed : m.NamesWaiters candidateKeys)
    (hkey : selected.key = selected.request.attempt) :
    tryAcquireNextQueuedTask uuid candidateKeys m =
      Prod.map (Except.map fun grant => (some selected.request, some grant)) id
        (tryAcquireQueuedTask uuid selected.request m) := by
  have hmem := (mem_of_selectWaitingTaskEvaluation hselected).1
  have hcandidate : selected.key ∈ candidateKeys := by
    obtain ⟨queued, hfind⟩ := hm.find?_attempt hevaluations hmem
    rcases hnamed _ _ hfind with h | h
    . rw [hkey]
      exact h
    . exact h
  rw [tryAcquireNextQueuedTask_eq hevaluations hselected hfatal, if_neg (not_not_intro hcandidate),
    hm.tryAcquireQueuedTask_eq hevaluations hselected hmem (hfatal _ hmem) hkey,
    if_neg (not_not_intro rfl)]
  split
  . rfl
  . next hreason =>
    rw [queuedLivenessBlockReason_of_selected hselected hreason]

theorem tryAcquireNextQueuedTask_registered {request : Option TaskRequest} :
    (tryAcquireNextQueuedTask uuid candidateKeys m).1 ≠
      .ok (request, some (taskDenied .taskWaiterNotRegistered true)) := by
  have hgranted : ∀ liveness,
      (Prod.map (Except.map fun grant => (some selected.request, some grant)) id
        (grantTask uuid selected.request selected.admission.plan liveness m)).1 ≠
        .ok (request, some (taskDenied .taskWaiterNotRegistered true)) := by
    intro liveness h
    have hreturns := grantTask_granted uuid selected.request selected.admission.plan liveness m
    unfold Py.Ensures at hreturns
    split at hreturns
    . next grant m' hgrant =>
      rw [hgrant] at h
      cases h
      cases hreturns
    . next error m' hgrant =>
      rw [hgrant] at h
      cases h
  rw [tryAcquireNextQueuedTask_eq hevaluations hselected hfatal]
  split
  . simp [taskDenied]
  . split
    . exact hgranted false
    . unfold livenessClosed
      split
      . next reason hclosed =>
        intro h
        split at hclosed
        . cases hclosed
          cases h
        . split at hclosed <;> cases hclosed
          cases h
      . exact hgranted true

end

deriving instance DecidableEq for TaskAdmission
deriving instance DecidableEq for QueuedTaskEvaluation

def scanWaiter (taskId : String) (order : ℕ) : QueuedTaskEvaluation where
  rank := toLex (1, toLex (0, order))
  request := TwoStages.request "stage:scan" taskId "0"
  admission := {
    reason := none
    plan := {
      resources := { cpu := 1, heapBytes := 1 }
      outputWindowBytes := 8
      nodeId := "n"
      newCredit := some {
        eligibleStageIds := ["stage:udf"]
        reservationStageId := "stage:udf"
        nodeId := "n"
        resources := { cpu := 1, heapBytes := 1, objectStoreBytes := 4 } } } }

def scansWait : List Call :=
  [.noteTaskWaiting (TwoStages.request "stage:scan" "t" "0"),
    .noteTaskWaiting (TwoStages.request "stage:scan" "u" "0")]

end QueryResourceManager

end Vane
