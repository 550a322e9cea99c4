import Vane.Ray.QueryResourceManager.Safety
import Vane.Ray.Driver.Maintenance
import Vane.Ray.Driver.ManagerCalls

/-! This module contains that the manager of a query that is torn down grants no task. -/

namespace Vane

open QueryResourceManager (Call Answer runCalls grantedLease?)
open Text (strip)

namespace QueryResourceManager

variable {uuid : UuidSource} {m m' : QueryResourceManager} {call : Call}
  {result : Except PyError Answer}

def Closed (m : QueryResourceManager) : Prop :=
  m.allocationAdmissionOpen = false ∨ m.cancelled = true

theorem Effect.closed (h : Effect uuid call m result m') (hclosed : m.Closed)
    (hcall : ∀ allocation, call ≠ .updateAllocation allocation true) : m'.Closed := by
  induction h with
  | restage stageId stage spec known kept rest ih => exact ih hclosed
  | allocation allocation admissionOpen asked newer valid =>
    cases admissionOpen with
    | true => exact absurd asked (hcall allocation)
    | false => exact .inl rfl
  | close => exact .inl rfl
  | taskGranted request spec plan liveness admitted task output =>
    rcases hclosed with hopen | hcancelled
    . exact absurd (admitted.admissionOpen.symm.trans hopen) (by simp)
    . exact absurd (admitted.notCancelled.symm.trans hcancelled) (by simp)
  | taskFinished task outputs seen targetBytes leases filed live checked ledger active queued
      credits final =>
    rw [final]
    exact hclosed
  | @outputGranted m result request task liveness state =>
    obtain ⟨_, _, heq⟩ := m.grantedOutput_eq uuid request task liveness state
    rw [heq]
    exact hclosed
  | cancelled => exact .inl rfl
  | _ => exact hclosed

theorem Effect.denied_of_closed (h : Effect uuid call m result m') (hclosed : m.Closed) :
    grantedLease? result = none := by
  induction h with
  | idle drawn hdrawn quiet => exact quiet.task
  | restage stageId stage spec known kept rest ih => exact ih hclosed
  | taskGranted request spec plan liveness admitted task output =>
    rcases hclosed with hopen | hcancelled
    . exact absurd (admitted.admissionOpen.symm.trans hopen) (by simp)
    . exact absurd (admitted.notCancelled.symm.trans hcancelled) (by simp)
  | outputGranted request task liveness state admitted task? output => exact task?
  | _ => rfl

theorem closed_of_close (m : QueryResourceManager) : (Call.closeAdmission.step uuid m).Closed := by
  left
  unfold Call.step
  simp only [Call.exec, closeAdmission, Py.bind_apply, Py.get_apply]
  cases hopen : m.allocationAdmissionOpen with
  | true => rfl
  | false => exact hopen

def Reachable (uuid : UuidSource) (m : QueryResourceManager) : Prop :=
  ∃ graph allocation ratio new calls,
    QueryResourceManager.new graph allocation ratio = .ok new ∧ runCalls uuid calls new = m

theorem Reachable.indexed (h : Reachable uuid m) : m.Indexed uuid Set.univ := by
  obtain ⟨graph, allocation, ratio, new, calls, hnew, rfl⟩ := h
  exact runCalls_indexed (new_indexed hnew fun _ _ => trivial) calls

end QueryResourceManager

open QueryResourceManager (Reachable)

namespace AdmissionState

variable {uuid : String → UuidSource} {queryId other : String}

structure Fenced (uuid : String → UuidSource) (queryId : String) (s : AdmissionState) : Prop where
  closing : queryId ∈ s.closingQueries
  closed : ∀ m, s.managers.find? (Text.strip queryId) = some m →
    m.Closed ∧ m.Indexed (uuid (Text.strip queryId)) Set.univ

theorem keeps_fenced_callManager {call : Call} (hcall : strip other = strip queryId → ∀ allocation,
      call ≠ .updateAllocation allocation true) :
    (callManager uuid other call).Keeps (Fenced uuid queryId) := by
  apply Py.Keeps.of_state
  intro s hs
  rcases callManager_state uuid other call s with heq | ⟨m, hm, heq⟩
  . rw [heq]
    exact hs
  . rw [heq]
    refine ⟨hs.closing, ?_⟩
    intro m' hm'
    simp only [putManager, Dict.find?_insert] at hm'
    split at hm'
    . next hkey =>
      cases hm'
      rw [← hkey] at hm
      obtain ⟨hclosed, hindexed⟩ := hs.closed m hm
      have hacts := hindexed.exec_acts call fun _ _ => trivial
      rw [← hkey]
      exact ⟨hacts.effect.closed hclosed (hcall hkey.symm), hacts.indexed⟩
    . exact hs.closed m' hm'

theorem keeps_fenced_callIfRegistered {calls : List Call}
    (hcalls : ∀ call ∈ calls, ∀ allocation, call ≠ .updateAllocation allocation true) :
    (callIfRegistered uuid other calls).Keeps (Fenced uuid queryId) := by
  refine Py.keeps_exceptKeyError ?_ ?_
  . refine Py.keeps_forEach ?_
    intro call hcall
    refine Py.keeps_bind ?_ ?_
    . exact keeps_fenced_callManager fun _ => hcalls call hcall
    . exact fun _ => Py.keeps_pure _
  . exact Py.keeps_pure _

theorem mem_closingQueries_insert {queries : List String} (h : queryId ∈ queries) :
    queryId ∈ if other ∈ queries then queries else queries ++ [other] := by
  split
  . exact h
  . exact List.mem_append_left _ h

theorem keeps_fenced_closeQueryResourceAdmission (other : String) :
    (closeQueryResourceAdmission uuid other).Keeps (Fenced uuid queryId) := by
  refine Py.keeps_bind ?_ ?_
  . refine keeps_fenced_callIfRegistered ?_
    intro call hcall allocation
    rw [List.mem_singleton.mp hcall]
    exact Call.noConfusion
  . intro _
    refine Py.keeps_modify ?_
    intro s hs
    exact ⟨mem_closingQueries_insert hs.closing, fun m hm => hs.closed m hm⟩

theorem closed_callIfRegistered_closeAdmission {s : AdmissionState}
    (hs : ∀ m, s.managers.find? (strip queryId) = some m →
      m.Indexed (uuid (strip queryId)) Set.univ) :
    (callIfRegistered uuid queryId [.closeAdmission]).Ensures s
      (fun _ s' => ∀ m, s'.managers.find? (strip queryId) = some m →
        m.Closed ∧ m.Indexed (uuid (strip queryId)) Set.univ) fun _ _ => True := by
  apply ensures_callIfRegistered
  show (_ >>= fun _ => pure ⟨⟩ : Py AdmissionState Unit).Ensures s _ _
  rw [Py.ensures_bind, Py.ensures_bind]
  apply ensures_callManager
  . intro m hm
    have hacts := (hs m hm).exec_acts .closeAdmission fun _ _ => trivial
    have hafter : ∀ m', (s.putManager (strip queryId)
        (Call.closeAdmission.step (uuid (strip queryId)) m)).managers.find?
          (strip queryId) = some m' →
        m'.Closed ∧ m'.Indexed (uuid (strip queryId)) Set.univ := by
      intro m' hm'
      rw [putManager, Dict.find?_insert_self] at hm'
      cases hm'
      exact ⟨QueryResourceManager.closed_of_close m, hacts.indexed⟩
    refine Py.ensures_of_state (P := fun m' => ∀ m, (s.putManager (strip queryId)
        m').managers.find? (strip queryId) = some m →
      m.Closed ∧ m.Indexed (uuid (strip queryId)) Set.univ) hafter (fun _ _ h => h) ?_
    intro e m' h
    cases e <;> first | exact h | trivial
  . intro e he
    rcases getQueryResourceManager_eq_error he with ⟨⟨_, rfl⟩, -⟩ | ⟨⟨_, rfl⟩, hnone⟩
    . trivial
    . intro m hm
      rw [hnone] at hm
      cases hm

theorem ensures_closeQueryResourceAdmission {s : AdmissionState}
    (hs : ∀ m, s.managers.find? (strip queryId) = some m →
      m.Indexed (uuid (strip queryId)) Set.univ) :
    (closeQueryResourceAdmission uuid queryId).Ensures s (fun _ s' => Fenced uuid queryId s')
      fun _ _ => True := by
  unfold closeQueryResourceAdmission
  rw [Py.ensures_bind]
  refine (closed_callIfRegistered_closeAdmission hs).mono ?_ fun _ _ _ => trivial
  intro _ s' hs'
  rw [Py.ensures_modify]
  refine ⟨?_, fun m hm => hs' m hm⟩
  split
  . next hmem => exact hmem
  . simp

end AdmissionState

namespace QueryDriver

/-! What the threads of a driver do, in pieces that are not interrupted. -/

section

variable (uuid : String → UuidSource)

def held? (d : QueryDriver) (key : String) : Option QueryResourceManager :=
  (d.managers.find? key).or (d.detached.find? key)

def callHeld (key : String) (call : Call) : Py QueryDriver Unit := do
  let d ← Py.get
  match d.managers.find? key, d.detached.find? key with
  | some m, _ => Py.set { d with managers := d.managers.insert key (call.step (uuid key) m) }
  | none, some m => Py.set { d with detached := d.detached.insert key (call.step (uuid key) m) }
  | none, none => return ⟨⟩

abbrev ClientCall := { call : Call // ∀ allocation admissionOpen,
  call ≠ .updateAllocation allocation admissionOpen }

inductive Action where
  | closeAdmission (queryId : String)
  | releaseManager (queryId reason : String)
  | coordinate (call : ClusterQueryResourceCoordinator.Call)
  | cacheCapacities (capacities : List NodeCapacity)
  | forget (queryId : String)
  | readSnapshot
  | synchronize (queryId : String)
  | client (key : String) (call : ClientCall)

def Action.exec : Action → Py QueryDriver Unit
  | closeAdmission queryId => onAdmission (AdmissionState.closeQueryResourceAdmission uuid queryId)
  | releaseManager queryId reason => releaseQueryResourceManager uuid queryId reason
  | coordinate call => onCoordinator call.exec
  | cacheCapacities capacities => QueryDriver.cacheCapacities capacities
  | forget queryId => forgetQuery queryId
  | readSnapshot => QueryDriver.readSnapshot
  | synchronize queryId => synchronizeQuery uuid queryId
  | client key call => callHeld uuid key call.1

def Action.step (action : Action) (d : QueryDriver) : QueryDriver := (action.exec uuid d).2

end

variable {uuid : String → UuidSource}

/-! The fence. -/

variable {queryId : String} {d : QueryDriver}

structure Fence (uuid : String → UuidSource) (queryId : String) (d : QueryDriver) : Prop where
  registered : d.toAdmissionState.Fenced uuid queryId
  detached : ∀ m, d.detached.find? (Text.strip queryId) = some m →
    m.Closed ∧ m.Indexed (uuid (Text.strip queryId)) Set.univ

/-- A synchronisation that comes to a closing query and finds a newer allocation does not find it
running with its actors in place. -/
def LeavesClosed : Action → QueryDriver → Prop
  | .synchronize queryId, d =>
    (∃ closing ∈ d.closingQueries, Text.strip closing = Text.strip queryId) →
      ∀ seen ∈ d.snapshot.find? queryId, ∀ current ∈ d.allocations.find? queryId,
        current.generation < seen.allocation.generation →
          seen.state = .running → placementLost current seen = true
  | _, _ => True

instance (action : Action) (d : QueryDriver) : Decidable (LeavesClosed action d) := by
  cases action <;> unfold LeavesClosed <;> infer_instance

theorem keeps_fence_onAdmission {α : Type} {m : Py AdmissionState α}
    (hm : m.Keeps (AdmissionState.Fenced uuid queryId)) :
    (onAdmission m).Keeps (Fence uuid queryId) :=
  Py.keeps_zoom hm (fun _ h => h.registered) fun _ _ h hs => ⟨hs, h.detached⟩

theorem find?_of_allocationOf {other : String} {current : QueryAllocation}
    (h : d.allocationOf other = .ok current) : d.allocations.find? other = some current := by
  unfold allocationOf at h
  split at h
  . next hfind =>
    cases h
    exact hfind
  . cases h

section

variable (h : Fence uuid queryId d)

include h

theorem Fence.synchronize {other : String} (haction : LeavesClosed (.synchronize other) d) :
    Fence uuid queryId (synchronizeQuery uuid other d).2 := by
  apply Py.Ensures.state
  unfold synchronizeQuery
  rw [Py.ensures_get_bind]
  split
  . exact h
  . exact h
  . next graph seen hgraph hseen =>
    rw [Py.ensures_lift_bind]
    refine ⟨fun _ _ => ?_, fun _ _ => h⟩
    rw [Py.ensures_lift_bind]
    refine ⟨fun current hcurrent => ?_, fun _ _ => h⟩
    rw [Py.ensures_ite]
    refine ⟨fun hnewer => ?_, fun _ => h⟩
    have hupdate : (onAdmission (AdmissionState.callManager uuid other (.updateAllocation
        seen.allocation (seen.state = .running ∧ !placementLost current seen)))).Keeps
          (Fence uuid queryId) := by
      refine keeps_fence_onAdmission (AdmissionState.keeps_fenced_callManager ?_)
      intro hkey allocation hcall
      have hopen := (Call.updateAllocation.inj hcall).2
      rw [decide_eq_true_eq, Bool.not_eq_true'] at hopen
      have hlost := haction ⟨queryId, h.registered.closing, hkey.symm⟩ seen hseen current
        (find?_of_allocationOf hcurrent) hnewer hopen.1
      rw [hopen.2] at hlost
      cases hlost
    have hcancel : (onAdmission (AdmissionState.callManager uuid other
        (.cancel "ray_actor_placement_lost"))).Keeps (Fence uuid queryId) :=
      keeps_fence_onAdmission (AdmissionState.keeps_fenced_callManager fun _ _ => Call.noConfusion)
    have hclose : (onAdmission (AdmissionState.closeQueryResourceAdmission uuid other)).Keeps
        (Fence uuid queryId) :=
      keeps_fence_onAdmission (AdmissionState.keeps_fenced_closeQueryResourceAdmission other)
    rw [Py.ensures_bind]
    refine (hupdate d h).mono ?_ fun _ _ h => h
    intro _ d' h'
    -- What follows the update cancels and closes, if anything.
    refine Py.keeps_bind (Py.keeps_modify ?_) (fun _ => Py.keeps_ite (fun _ => ?_) ?_) d' h'
    . exact fun _ h => ⟨h.registered, h.detached⟩
    . refine Py.keeps_bind (Py.keeps_modify ?_) fun _ => Py.keeps_bind hcancel fun _ => hclose
      exact fun _ h => ⟨h.registered, h.detached⟩
    . exact fun _ => Py.keeps_pure _

theorem Fence.releaseManager (other reason : String) :
    Fence uuid queryId (releaseQueryResourceManager uuid other reason d).2 := by
  apply Py.Ensures.state
  unfold releaseQueryResourceManager
  rw [Py.ensures_get_bind]
  dsimp only
  split
  . exact h
  . next m hm =>
    refine ⟨⟨h.registered.closing, ?_⟩, ?_⟩
    . intro m' hm'
      simp only [Dict.find?_erase] at hm'
      split at hm'
      . cases hm'
      . exact h.registered.closed m' hm'
    . intro m' hm'
      simp only [Dict.find?_insert] at hm'
      split at hm'
      . next hkey =>
        cases hm'
        rw [← hkey] at hm ⊢
        obtain ⟨hclosed, hindexed⟩ := h.registered.closed m hm
        have hacts := hindexed.exec_acts (.cancel reason) fun _ _ => trivial
        exact ⟨hacts.effect.closed hclosed fun _ => Call.noConfusion, hacts.indexed⟩
      . exact h.detached m' hm'

theorem Fence.callHeld (other : String) (call : ClientCall) :
    Fence uuid queryId (QueryDriver.callHeld uuid other call.1 d).2 := by
  have hstep : ∀ m, other = strip queryId →
      m.Closed ∧ m.Indexed (uuid (strip queryId)) Set.univ →
      (call.1.step (uuid other) m).Closed ∧
        (call.1.step (uuid other) m).Indexed (uuid (strip queryId)) Set.univ := by
    rintro m rfl ⟨hclosed, hindexed⟩
    have hacts := hindexed.exec_acts call.1 fun _ _ => trivial
    exact ⟨hacts.effect.closed hclosed fun allocation => call.2 allocation true, hacts.indexed⟩
  apply Py.Ensures.state
  unfold QueryDriver.callHeld
  rw [Py.ensures_get_bind]
  split
  . next m hm =>
    refine ⟨⟨h.registered.closing, ?_⟩, h.detached⟩
    intro m' hm'
    simp only [Dict.find?_insert] at hm'
    split at hm'
    . next hkey =>
      cases hm'
      exact hstep m hkey.symm (h.registered.closed m (by rw [hkey]; exact hm))
    . exact h.registered.closed m' hm'
  . next m hnone hm =>
    refine ⟨h.registered, ?_⟩
    intro m' hm'
    simp only [Dict.find?_insert] at hm'
    split at hm'
    . next hkey =>
      cases hm'
      exact hstep m hkey.symm (h.detached m (by rw [hkey]; exact hm))
    . exact h.detached m' hm'
  . exact h

theorem Fence.step {action : Action} (haction : LeavesClosed action d) :
    Fence uuid queryId (action.step uuid d) := by
  cases action with
  | closeAdmission other =>
    exact (keeps_fence_onAdmission
      (AdmissionState.keeps_fenced_closeQueryResourceAdmission other)).state h
  | releaseManager other reason => exact h.releaseManager other reason
  | coordinate call => exact ⟨h.registered, h.detached⟩
  | cacheCapacities capacities =>
    have hkeeps : (QueryDriver.cacheCapacities capacities).Keeps (Fence uuid queryId) :=
      Py.keeps_bind (fun d h => Py.ensures_of_state (P := Fence uuid queryId)
        ⟨h.registered, h.detached⟩ (fun _ _ h => h) fun _ _ h => h)
        fun _ => Py.keeps_modify fun _ h => ⟨h.registered, h.detached⟩
    exact hkeeps.state h
  | forget other => exact ⟨h.registered, h.detached⟩
  | readSnapshot => exact ⟨h.registered, h.detached⟩
  | synchronize other => exact h.synchronize haction
  | client other call => exact h.callHeld other call

end

structure Registered (uuid : String → UuidSource) (d : QueryDriver) : Prop where
  managers : ∀ key m, d.managers.find? key = some m → Reachable (uuid key) m
  detached : d.detached = ∅

theorem Registered.fence (hd : d.Registered uuid)
    (hclose : ((Action.closeAdmission queryId).exec uuid d).1 = .ok ()) :
    Fence uuid queryId ((Action.closeAdmission queryId).step uuid d) := by
  have hadmission := AdmissionState.ensures_closeQueryResourceAdmission
    fun m hm => (hd.managers (strip queryId) m hm).indexed
  have hexec : (onAdmission (AdmissionState.closeQueryResourceAdmission uuid queryId)).Ensures d
      (fun _ d' => Fence uuid queryId d') fun _ _ => True := by
    unfold onAdmission
    rw [Py.ensures_zoom]
    refine hadmission.mono ?_ fun _ _ _ => trivial
    intro _ s hs
    refine ⟨hs, ?_⟩
    intro m hm
    rw [hd.detached] at hm
    cases hm
  exact hexec.of_ok (Prod.ext hclose rfl)

end QueryDriver

/-! A driver with one query, which the coordinator gave all of one node. -/

namespace TwoStages

def capacity : NodeCapacity := ⟨"n", node.resources, isIdentifier_n⟩

def demand : QueryDemand where
  queryId := "q"
  minimum := { cpu := 1, heapBytes := 1 }
  desired := node.resources
  weight := 1
  priority := 0
  actorBundles := []
  taskBundles := [{ cpu := 1, heapBytes := 1 }]
  queryId_identifier := isIdentifier_q
  minimum_le_desired := by decide +kernel
  weight_pos := weight_one_pos
  nodup_actors := nodup_no_actors
  bundles_eq_minimum := by decide +kernel

def driver : QueryDriver where
  managers := Dict.insert ∅ "q" (runCalls unaryUuid started manager)
  coordinator := (ClusterQueryResourceCoordinator.registerQuery demand 0
    { heartbeatTimeout := 30
      nodes := Table.put ∅ capacity
      queries := ∅
      nextSequence := 0
      generation := 0 }).2
  nodeCapacities := [capacity]
  graphs := Dict.insert ∅ "q" graph
  allocations := Dict.insert ∅ "q" allocation

example : (driver.coordinator.queries.find? "q").map (·.allocation) = some allocation := by
  decide +kernel

end TwoStages

namespace QueryDriver

theorem registered_twoStages : TwoStages.driver.Registered fun _ => unaryUuid := by
  refine ⟨?_, rfl⟩
  intro key m hm
  rw [show TwoStages.driver.managers = Dict.insert ∅ "q" (runCalls unaryUuid TwoStages.started
    TwoStages.manager) from rfl, Dict.find?_insert] at hm
  split at hm
  . cases hm
    exact ⟨_, _, _, _, TwoStages.started, TwoStages.new_manager, rfl⟩
  . cases hm

def teardown : List Action :=
  [.client "q" ⟨.tryAcquireTask (TwoStages.request "stage:scan" "t" "0"), by simp⟩,
    .releaseManager "q" "done", .forget "q", .readSnapshot, .synchronize "q"]

end QueryDriver

end Vane
