import Vane.Fte.TaskDescriptor
import Vane.Lib.Calls
import Vane.Lib.RoundRobin

/-!
This module contains the pump that drains the pending tasks of all queries, and that no request is
lost.
-/

namespace Vane

open List (append_nil mem_append mem_append_left mem_cons mem_singleton)

structure FteSchedulerRegistry where
  schedulers : List String := []
  pendingDrainCursorQueryId : Option String := none
  pendingDrainRunning : Bool := false
  pendingDrainDirty : Bool := false
  nodup : schedulers.Nodup := by simp
  nonempty : "" ∉ schedulers := by simp

namespace FteSchedulerRegistry

variable (self : FteSchedulerRegistry) (queryIds : List String)

def getOrCreate (queryId : String) (self : FteSchedulerRegistry) : FteSchedulerRegistry :=
  let queryId := Text.strip queryId
  if h : queryId = "" ∨ queryId ∈ self.schedulers then
    self
  else
    { self with
      schedulers := self.schedulers ++ [queryId]
      nodup := by
        rw [not_or] at h
        rw [List.nodup_append]
        refine ⟨self.nodup, List.nodup_singleton _, ?_⟩
        rintro a ha b hb rfl
        exact h.2 (mem_singleton.mp hb ▸ ha)
      nonempty := by
        rw [not_or] at h
        rw [mem_append, mem_singleton, not_or]
        exact ⟨self.nonempty, Ne.symm h.1⟩ }

def dropQuery (queryId : String) (self : FteSchedulerRegistry) : FteSchedulerRegistry :=
  { self with
    schedulers := self.schedulers.erase queryId
    pendingDrainCursorQueryId :=
      if self.pendingDrainCursorQueryId = some queryId then none else self.pendingDrainCursorQueryId
    nodup := self.nodup.erase queryId
    nonempty := fun h => self.nonempty (List.mem_of_mem_erase h) }

def clear : FteSchedulerRegistry :=
  { self with
    schedulers := []
    pendingDrainCursorQueryId := none
    pendingDrainDirty := false
    nodup := List.nodup_nil
    nonempty := List.not_mem_nil }

def recordPendingDrainProgress (queryId : String) (self : FteSchedulerRegistry) :
    FteSchedulerRegistry :=
  let queryId := Text.strip queryId
  if queryId = "" then self else { self with pendingDrainCursorQueryId := some queryId }

def orderedPendingDrainQueryIds : List String :=
  let ordered := (queryIds.filter (· ≠ "")).dedup.sortBy id
  match self.pendingDrainCursorQueryId with
  | none => ordered
  | some cursor =>
    if cursor ∈ ordered then
      let start := (ordered.idxOf cursor + 1) % ordered.length
      ordered.drop start ++ ordered.take start
    else
      ordered

theorem exists_rotate_ordered :
    ∃ k, self.orderedPendingDrainQueryIds queryIds =
      ((queryIds.filter (· ≠ "")).dedup.sortBy id).rotate k := by
  unfold orderedPendingDrainQueryIds
  dsimp only
  split
  . exact ⟨0, (List.rotate_zero _).symm⟩
  . split
    . next hmem =>
      have hpos := List.length_pos_of_mem hmem
      exact ⟨_, (List.rotate_eq_drop_append_take (Nat.le_of_lt (Nat.mod_lt _ hpos))).symm⟩
    . exact ⟨0, (List.rotate_zero _).symm⟩

theorem ordered_perm :
    (self.orderedPendingDrainQueryIds queryIds).Perm (queryIds.filter (· ≠ "")).dedup := by
  obtain ⟨k, hk⟩ := self.exists_rotate_ordered queryIds
  rw [hk]
  exact (List.rotate_perm _ _).trans (List.sortBy_perm _ _)

/-! The fragments of the queries. -/

section Items

variable {α : Type}

def itemsOf (items : List ((String × String) × α)) (queryId : String) : List ((String × String) × α) :=
  items.filter fun item => item.1.1 = queryId

def orderedItems (self : FteSchedulerRegistry) (hasPendingPartitions : α → Bool)
    (items : List ((String × String) × α)) : List ((String × String) × α) :=
  let items := (items.filter fun item => hasPendingPartitions item.2).sortBy fun item => toLex item.1
  let queryIds := self.orderedPendingDrainQueryIds (items.map fun item => item.1.1)
  (queryIds.map (itemsOf items)).roundRobin

theorem flatMap_itemsOf_perm {items : List ((String × String) × α)} {queryIds : List String}
    (hnodup : queryIds.Nodup) (hcover : ∀ item ∈ items, item.1.1 ∈ queryIds) :
    (queryIds.flatMap (itemsOf items)).Perm items := by
  induction queryIds generalizing items with
  | nil =>
    cases items with
    | nil => exact List.Perm.refl _
    | cons item items => exact absurd (hcover item List.mem_cons_self) List.not_mem_nil
  | cons queryId queryIds ih =>
    rw [List.nodup_cons] at hnodup
    have hrest : queryIds.flatMap (itemsOf items) =
        queryIds.flatMap (itemsOf (items.filter fun item => ¬item.1.1 = queryId)) := by
      apply List.flatMap_congr
      intro other hother
      unfold itemsOf
      rw [List.filter_filter]
      apply List.filter_congr
      intro item _
      by_cases hitem : item.1.1 = other
      . have hne : other ≠ queryId := fun heq => hnodup.1 (heq ▸ hother)
        simp [hitem, hne]
      . simp [hitem]
    have hcover' : ∀ item ∈ items.filter (fun item => ¬item.1.1 = queryId), item.1.1 ∈ queryIds := by
      intro item hitem
      rw [List.mem_filter] at hitem
      exact (mem_cons.mp (hcover item hitem.1)).resolve_left (by simpa using hitem.2)
    rw [List.flatMap_cons, hrest]
    refine ((ih hnodup.2 hcover').append_left _).trans ?_
    unfold itemsOf
    simpa using List.filter_append_perm (fun item => decide (item.1.1 = queryId)) items

theorem orderedItems_perm (self : FteSchedulerRegistry) (hasPendingPartitions : α → Bool)
    {items : List ((String × String) × α)} (hnonempty : ∀ item ∈ items, item.1.1 ≠ "") :
    (self.orderedItems hasPendingPartitions items).Perm
      (items.filter fun item => hasPendingPartitions item.2) := by
  unfold orderedItems
  dsimp only
  have hsorted := List.sortBy_perm (fun item : (String × String) × α => toLex item.1)
    (items.filter fun item => hasPendingPartitions item.2)
  generalize (items.filter fun item => hasPendingPartitions item.2).sortBy
    (fun item => toLex item.1) = sorted at hsorted ⊢
  refine List.Perm.trans ?_ hsorted
  have hids := self.ordered_perm (sorted.map fun item => item.1.1)
  generalize self.orderedPendingDrainQueryIds (sorted.map fun item => item.1.1) = queryIds at hids ⊢
  refine (List.roundRobin_perm _).trans ?_
  rw [← List.flatMap_def]
  apply flatMap_itemsOf_perm
  . exact hids.nodup_iff.mpr (List.nodup_dedup _)
  . intro item hitem
    rw [hids.mem_iff, List.mem_dedup, List.mem_filter]
    have hmem := List.mem_of_mem_filter (hsorted.mem_iff.mp hitem)
    exact ⟨List.mem_map_of_mem hitem, by simpa using hnonempty item hmem⟩

end Items

end FteSchedulerRegistry

/-! The pump, which several calls may want to run. -/

inductive PumpPhase where
  | looping
  /-- In a pass over `ids`: what is left to visit for an execution class, and the visits so far. -/
  | sweeping (executionClass : FteTaskExecutionClass) (ids todo : List String)
    (visits : List (FteTaskExecutionClass × String))
  | raised
  | returned
  | failed
  deriving DecidableEq

abbrev PumpSystem := Calls FteSchedulerRegistry PumpPhase

namespace PumpSystem

structure Outcome where
  raises : Bool := false
  hasPendingStandardPartitions : Bool := false

inductive Entry where
  | began (registered ids : List String)
  | completed (ids : List String) (visits : List (FteTaskExecutionClass × String))
  | idle
  deriving DecidableEq

def nextClass (outcome : Outcome) : FteTaskExecutionClass → Option FteTaskExecutionClass
  | .eagerSpeculative => some .standard
  | .standard => if outcome.hasPendingStandardPartitions then none else some .speculative
  | .speculative => none

def snapshot (registry : FteSchedulerRegistry) : List String :=
  registry.orderedPendingDrainQueryIds registry.schedulers

def advance (outcome : Outcome) (registry : FteSchedulerRegistry) :
    PumpPhase → PumpPhase × FteSchedulerRegistry
  | .looping =>
    if registry.pendingDrainDirty then
      (.sweeping .eagerSpeculative (snapshot registry) (snapshot registry) [],
        { registry with pendingDrainDirty := false })
    else
      (.returned, { registry with pendingDrainRunning := false })
  | .sweeping executionClass ids todo visits =>
    if outcome.raises then
      (.raised, registry)
    else
      match todo, nextClass outcome executionClass with
      | queryId :: todo, _ =>
        (.sweeping executionClass ids todo (visits ++ [(executionClass, queryId)]), registry)
      | [], some next => (.sweeping next ids ids visits, registry)
      | [], none => (.looping, registry)
  | .raised => (.failed, { registry with pendingDrainRunning := false })
  | .returned => (.returned, registry)
  | .failed => (.failed, registry)

def emitPhase (outcome : Outcome) (registry : FteSchedulerRegistry) : PumpPhase → List Entry
  | .looping =>
    if registry.pendingDrainDirty then [.began registry.schedulers (snapshot registry)] else [.idle]
  | .sweeping executionClass ids [] visits =>
    if ¬outcome.raises ∧ nextClass outcome executionClass = none then [.completed ids visits] else []
  | _ => []

def request (s : PumpSystem) : PumpSystem :=
  if s.shared.pendingDrainRunning then
    ⟨{ s.shared with pendingDrainDirty := true }, s.phases ++ [.returned]⟩
  else
    ⟨{ s.shared with pendingDrainDirty := true, pendingDrainRunning := true }, s.phases ++ [.looping]⟩

inductive Action where
  | request
  | advance (i : ℕ) (outcome : Outcome)
  | getOrCreate (queryId : String)
  | dropQuery (queryId : String)
  | clear
  | recordPendingDrainProgress (queryId : String)

namespace Action

def step : Action → PumpSystem → PumpSystem
  | request, s => PumpSystem.request s
  | advance i outcome, s => s.advanceAt (PumpSystem.advance outcome) i
  | getOrCreate queryId, s => { s with shared := s.shared.getOrCreate queryId }
  | dropQuery queryId, s => { s with shared := s.shared.dropQuery queryId }
  | clear, s => { s with shared := s.shared.clear }
  | recordPendingDrainProgress queryId, s =>
    { s with shared := s.shared.recordPendingDrainProgress queryId }

def emit : Action → PumpSystem → List Entry
  | advance i outcome, s => s.emitAt (emitPhase outcome) i
  | _, _ => []

def Keeps (queryId : String) : Action → Prop
  | dropQuery other => other ≠ queryId
  | clear => False
  | _ => True

end Action

end PumpSystem

def PumpPhase.holds : PumpPhase → Bool
  | looping | sweeping .. | raised => true
  | returned | failed => false

namespace PumpSystem

variable {s : PumpSystem} {log : List Entry} {phase : PumpPhase}
  (visits : List (FteTaskExecutionClass × String))

theorem handover_advance (outcome : Outcome) (registry : FteSchedulerRegistry) (phase : PumpPhase) :
    Calls.Handover PumpPhase.holds FteSchedulerRegistry.pendingDrainRunning registry phase
      (advance outcome registry phase) := by
  cases phase with
  | looping =>
    unfold advance
    dsimp only
    split
    . exact .keeps rfl rfl
    . exact .gives rfl rfl rfl
  | sweeping executionClass ids todo visits =>
    unfold advance
    dsimp only
    split
    . exact .keeps rfl rfl
    . split <;> exact .keeps rfl rfl
  | raised => exact .gives rfl rfl rfl
  | returned => exact .keeps rfl rfl
  | failed => exact .keeps rfl rfl

theorem running_getOrCreate (queryId : String) (registry : FteSchedulerRegistry) :
    (registry.getOrCreate queryId).pendingDrainRunning = registry.pendingDrainRunning ∧
      (registry.getOrCreate queryId).pendingDrainDirty = registry.pendingDrainDirty ∧
      registry.schedulers ⊆ (registry.getOrCreate queryId).schedulers := by
  unfold FteSchedulerRegistry.getOrCreate
  dsimp only
  split
  . exact ⟨rfl, rfl, List.Subset.refl _⟩
  . exact ⟨rfl, rfl, List.subset_append_left _ _⟩

theorem recordPendingDrainProgress_keeps (queryId : String) (registry : FteSchedulerRegistry) :
    (registry.recordPendingDrainProgress queryId).pendingDrainRunning = registry.pendingDrainRunning ∧
      (registry.recordPendingDrainProgress queryId).pendingDrainDirty = registry.pendingDrainDirty ∧
      (registry.recordPendingDrainProgress queryId).schedulers = registry.schedulers := by
  unfold FteSchedulerRegistry.recordPendingDrainProgress
  dsimp only
  split <;> exact ⟨rfl, rfl, rfl⟩

abbrev IsExclusive (s : PumpSystem) : Prop :=
  s.Exclusive PumpPhase.holds FteSchedulerRegistry.pendingDrainRunning

theorem exclusive_request (h : s.IsExclusive) : (request s).IsExclusive := by
  unfold request
  split
  . exact h.add (.inl ⟨rfl, rfl⟩)
  . next hrunning => exact h.add (.inr ⟨rfl, rfl, Bool.not_eq_true _ ▸ hrunning⟩)

theorem exclusive_step (h : s.IsExclusive) (action : Action) : (action.step s).IsExclusive := by
  cases action with
  | request => exact exclusive_request h
  | advance i outcome =>
    show IsExclusive (s.advanceAt (advance outcome) i)
    rcases s.advanceAt_cases (advance outcome) (emitPhase outcome) i with
      ⟨hsame, -⟩ | ⟨l₁, phase, l₂, hphases, hstep, -⟩
    . rw [hsame]
      exact h
    . rw [hstep]
      exact h.advance hphases (handover_advance outcome s.shared phase)
  | getOrCreate queryId => exact h.shared (running_getOrCreate queryId s.shared).1
  | dropQuery queryId => exact h.shared rfl
  | clear => exact h.shared rfl
  | recordPendingDrainProgress queryId =>
    exact h.shared (recordPendingDrainProgress_keeps queryId s.shared).1

/-! A pass visits every query once for each class that it sweeps. -/

def visitsOf (executionClass : FteTaskExecutionClass) : List String :=
  (visits.filter fun visit => visit.1 = executionClass).map Prod.snd

structure Full (ids : List String) (visits : List (FteTaskExecutionClass × String)) : Prop where
  eagerSpeculative : visitsOf visits .eagerSpeculative = ids
  standard : visitsOf visits .standard = ids
  speculative : visitsOf visits .speculative = ids ∨ visitsOf visits .speculative = []

def Swept : PumpPhase → Prop
  | .sweeping .eagerSpeculative ids todo visits =>
    visitsOf visits .eagerSpeculative ++ todo = ids ∧ visitsOf visits .standard = [] ∧
      visitsOf visits .speculative = []
  | .sweeping .standard ids todo visits =>
    visitsOf visits .eagerSpeculative = ids ∧ visitsOf visits .standard ++ todo = ids ∧
      visitsOf visits .speculative = []
  | .sweeping .speculative ids todo visits =>
    visitsOf visits .eagerSpeculative = ids ∧ visitsOf visits .standard = ids ∧
      visitsOf visits .speculative ++ todo = ids
  | _ => True

theorem visitsOf_append
    (visit : FteTaskExecutionClass × String) (executionClass : FteTaskExecutionClass) :
    visitsOf (visits ++ [visit]) executionClass =
      visitsOf visits executionClass ++ if visit.1 = executionClass then [visit.2] else [] := by
  unfold visitsOf
  rw [List.filter_append, List.map_append]
  congr 1
  split
  . next h => simp [h]
  . next h => simp [h]

theorem swept_advance (outcome : Outcome) (registry : FteSchedulerRegistry)
    (h : Swept phase) : Swept (advance outcome registry phase).1 := by
  cases phase with
  | looping =>
    unfold advance
    dsimp only
    split
    . exact ⟨rfl, rfl, rfl⟩
    . trivial
  | sweeping executionClass ids todo visits =>
    unfold advance
    dsimp only
    split
    . trivial
    cases todo with
    | cons queryId todo =>
      cases executionClass <;>
        simpa [Swept, visitsOf_append] using h
    | nil =>
      cases executionClass with
      | eagerSpeculative => simpa [Swept, nextClass] using h
      | standard =>
        unfold nextClass
        cases outcome.hasPendingStandardPartitions with
        | true => trivial
        | false => simpa [Swept] using h
      | speculative => trivial
  | raised => trivial
  | returned => trivial
  | failed => trivial

theorem full_of_completed {outcome : Outcome} {registry : FteSchedulerRegistry}
    (h : Swept phase) {ids : List String} {visits : List (FteTaskExecutionClass × String)}
    (hmem : .completed ids visits ∈ emitPhase outcome registry phase) : Full ids visits := by
  cases phase with
  | looping =>
    unfold emitPhase at hmem
    dsimp only at hmem
    split at hmem <;> simp at hmem
  | sweeping executionClass ids' todo visits' =>
    cases todo with
    | cons queryId todo => cases hmem
    | nil =>
      unfold emitPhase at hmem
      dsimp only at hmem
      split at hmem
      . next hnext =>
        rw [mem_singleton] at hmem
        cases hmem
        cases executionClass with
        | eagerSpeculative => cases hnext.2
        | standard =>
          simp only [Swept, append_nil] at h
          exact ⟨h.1, h.2.1, .inr h.2.2⟩
        | speculative =>
          simp only [Swept, append_nil] at h
          exact ⟨h.1, h.2.1, .inl h.2.2⟩
      . cases hmem
  | raised => cases hmem
  | returned => cases hmem
  | failed => cases hmem

theorem exists_rotate_of_began {outcome : Outcome} {registry : FteSchedulerRegistry}
    {registered ids : List String}
    (hmem : .began registered ids ∈ emitPhase outcome registry phase) :
    phase = .looping ∧ registry.pendingDrainDirty = true ∧ registered = registry.schedulers ∧
      ids = snapshot registry := by
  cases phase with
  | looping =>
    unfold emitPhase at hmem
    dsimp only at hmem
    split at hmem
    . next hdirty =>
      rw [mem_singleton] at hmem
      cases hmem
      exact ⟨rfl, hdirty, rfl, rfl⟩
    . simp at hmem
  | sweeping executionClass ids' todo visits =>
    cases todo with
    | cons queryId todo => cases hmem
    | nil =>
      unfold emitPhase at hmem
      dsimp only at hmem
      split at hmem
      . simp at hmem
      . cases hmem
  | raised => cases hmem
  | returned => cases hmem
  | failed => cases hmem

theorem snapshot_rotate (registry : FteSchedulerRegistry) :
    ∃ k, snapshot registry = (registry.schedulers.sortBy id).rotate k := by
  obtain ⟨k, hk⟩ := registry.exists_rotate_ordered registry.schedulers
  have hall : registry.schedulers.filter (· ≠ "") = registry.schedulers := by
    rw [List.filter_eq_self]
    intro queryId hqueryId
    apply decide_eq_true
    rintro rfl
    exact registry.nonempty hqueryId
  rw [hall, registry.nodup.dedup] at hk
  exact ⟨k, hk⟩

structure Pumping (log : List Entry) (s : PumpSystem) : Prop where
  swept : ∀ phase ∈ s.phases, Swept phase
  began : ∀ registered ids, .began registered ids ∈ log →
    registered.Nodup ∧ ∃ k, ids = (registered.sortBy id).rotate k
  completed : ∀ ids visits, .completed ids visits ∈ log → Full ids visits

theorem Pumping.step (h : Pumping log s) (action : Action) :
    Pumping (log ++ action.emit s) (action.step s) := by
  have hother : ∀ shared, Pumping (log ++ []) { s with shared } := by
    intro shared
    rw [append_nil]
    exact ⟨h.swept, h.began, h.completed⟩
  cases action with
  | request =>
    show Pumping (log ++ []) (request s)
    rw [append_nil]
    refine ⟨?_, h.began, h.completed⟩
    intro phase hphase
    unfold request at hphase
    split at hphase
    . rcases mem_append.mp hphase with hphase | hphase
      . exact h.swept phase hphase
      . rw [mem_singleton.mp hphase]
        trivial
    . rcases mem_append.mp hphase with hphase | hphase
      . exact h.swept phase hphase
      . rw [mem_singleton.mp hphase]
        trivial
  | advance i outcome =>
    show Pumping (log ++ s.emitAt (emitPhase outcome) i) (s.advanceAt (advance outcome) i)
    rcases s.advanceAt_cases (advance outcome) (emitPhase outcome) i with
      ⟨hsame, hemit⟩ | ⟨l₁, phase, l₂, hphases, hstep, hemit⟩
    . rw [hsame, hemit]
      exact hother s.shared
    . have hswept : Swept phase := h.swept phase (by rw [hphases]; simp)
      rw [hstep, hemit]
      refine ⟨?_, ?_, ?_⟩
      . intro other hmem
        have hold : other ∈ l₁ ++ phase :: l₂ → Swept other := by
          rw [← hphases]
          exact h.swept other
        rcases mem_append.mp hmem with hmem | hmem
        . exact hold (mem_append_left _ hmem)
        . rcases mem_cons.mp hmem with rfl | hmem
          . exact swept_advance outcome s.shared hswept
          . exact hold (List.mem_append_right _ (List.mem_cons_of_mem _ hmem))
      . intro registered ids hmem
        rcases mem_append.mp hmem with hmem | hmem
        . exact h.began registered ids hmem
        . obtain ⟨-, -, rfl, rfl⟩ := exists_rotate_of_began hmem
          exact ⟨s.shared.nodup, snapshot_rotate s.shared⟩
      . intro ids visits hmem
        rcases mem_append.mp hmem with hmem | hmem
        . exact h.completed ids visits hmem
        . exact full_of_completed hswept hmem
  | getOrCreate queryId => exact hother _
  | dropQuery queryId => exact hother _
  | clear => exact hother _
  | recordPendingDrainProgress queryId => exact hother _

/-! No request is lost. -/

def Served (queryId : String) (log : List Entry) : Prop :=
  ∃ ids visits, .completed ids visits ∈ log ∧ queryId ∈ ids

def Minds (queryId : String) (log : List Entry) (dirty : Bool) : PumpPhase → Prop
  | .looping => dirty = true ∨ Served queryId log
  | .sweeping _ ids _ _ => dirty = true ∨ Served queryId log ∨ queryId ∈ ids
  | _ => True

structure Requested (queryId : String) (log : List Entry) (s : PumpSystem) : Prop where
  exclusive : s.IsExclusive
  registered : queryId ∈ s.shared.schedulers
  pending : s.shared.pendingDrainDirty = true ∨ ∃ registered ids, .began registered ids ∈ log ∧
    queryId ∈ ids
  minds : ∀ phase ∈ s.phases, Minds queryId log s.shared.pendingDrainDirty phase
  idle : .idle ∈ log → Served queryId log

namespace Requested

variable {queryId : String} {phase : PumpPhase} {l₁ l₂ : List PumpPhase}

theorem served_append (h : Served queryId log) (entries : List Entry) :
    Served queryId (log ++ entries) := by
  obtain ⟨ids, visits, hmem, hids⟩ := h
  exact ⟨ids, visits, mem_append_left _ hmem, hids⟩

theorem minds_mono {dirty dirty' : Bool} (h : Minds queryId log dirty phase)
    (hdirty : dirty = true → dirty' = true) (entries : List Entry) :
    Minds queryId (log ++ entries) dirty' phase := by
  cases phase with
  | looping => exact h.imp hdirty (served_append · entries)
  | sweeping executionClass ids todo visits =>
    exact h.imp hdirty (Or.imp_left (served_append · entries))
  | raised => trivial
  | returned => trivial
  | failed => trivial

theorem minds_of_idle {dirty : Bool} (h : phase.holds = false) : Minds queryId log dirty phase := by
  cases phase with
  | looping => cases h
  | sweeping executionClass ids todo visits => cases h
  | raised => trivial
  | returned => trivial
  | failed => trivial

section

variable (h : Requested queryId log s)

include h

theorem of_shared {s' : PumpSystem} (hexclusive : s'.IsExclusive)
    (hregistered : queryId ∈ s'.shared.schedulers)
    (hdirty : s.shared.pendingDrainDirty = true → s'.shared.pendingDrainDirty = true)
    (hphases : ∀ phase ∈ s'.phases, phase ∈ s.phases ∨
      Minds queryId log s'.shared.pendingDrainDirty phase) : Requested queryId (log ++ []) s' := by
  rw [append_nil]
  refine ⟨hexclusive, hregistered, h.pending.imp_left hdirty, ?_, h.idle⟩
  intro phase hphase
  rcases hphases phase hphase with hold | hnew
  . have hminds := minds_mono (h.minds phase hold) hdirty []
    rwa [append_nil] at hminds
  . exact hnew

theorem begin_pass (hphases : s.phases = l₁ ++ .looping :: l₂)
    (hexclusive : IsExclusive ⟨{ s.shared with pendingDrainDirty := false },
      l₁ ++ .sweeping .eagerSpeculative (snapshot s.shared) (snapshot s.shared) [] :: l₂⟩) :
    Requested queryId (log ++ [.began s.shared.schedulers (snapshot s.shared)])
      ⟨{ s.shared with pendingDrainDirty := false },
        l₁ ++ .sweeping .eagerSpeculative (snapshot s.shared) (snapshot s.shared) [] :: l₂⟩ := by
  have hmem : queryId ∈ snapshot s.shared := by
    obtain ⟨k, hk⟩ := snapshot_rotate s.shared
    rw [hk, List.mem_rotate, List.mem_sortBy]
    exact h.registered
  refine ⟨hexclusive, h.registered, .inr ⟨_, _, List.mem_concat_self, hmem⟩, ?_, ?_⟩
  . intro phase hphase
    -- No other call relies on the mark: there is none that runs the pump.
    have hothers := (h.exclusive.others_idle hphases rfl).2
    rcases mem_append.mp hphase with hphase | hphase
    . exact minds_of_idle (hothers phase (mem_append_left _ hphase))
    . rcases mem_cons.mp hphase with rfl | hphase
      . exact .inr (.inr hmem)
      . exact minds_of_idle (hothers phase (List.mem_append_right _ hphase))
  . intro hidle
    rw [mem_append, mem_singleton] at hidle
    exact served_append (h.idle (hidle.resolve_right (fun heq => (by cases heq)))) _

theorem go_on
    (hphases : s.phases = l₁ ++ phase :: l₂) {next : PumpPhase} {shared : FteSchedulerRegistry}
    {entries : List Entry} (hexclusive : IsExclusive ⟨shared, l₁ ++ next :: l₂⟩)
    (hschedulers : shared.schedulers = s.shared.schedulers)
    (hdirty : shared.pendingDrainDirty = s.shared.pendingDrainDirty)
    (hminds : Minds queryId (log ++ entries) s.shared.pendingDrainDirty next)
    (hidle : .idle ∈ entries → Served queryId log) :
    Requested queryId (log ++ entries) ⟨shared, l₁ ++ next :: l₂⟩ := by
  refine ⟨hexclusive, hschedulers ▸ h.registered, ?_, ?_, ?_⟩
  . rcases h.pending with hmark | ⟨registered, ids, hmem, hids⟩
    . exact .inl (hdirty.trans hmark)
    . exact .inr ⟨registered, ids, mem_append_left _ hmem, hids⟩
  . intro other hother
    rw [hdirty]
    have hold : other ∈ l₁ ++ phase :: l₂ →
        Minds queryId (log ++ entries) s.shared.pendingDrainDirty other := by
      rw [← hphases]
      exact fun hmem => minds_mono (h.minds other hmem) id entries
    rcases mem_append.mp hother with hother | hother
    . exact hold (mem_append_left _ hother)
    . rcases mem_cons.mp hother with rfl | hother
      . exact hminds
      . exact hold (List.mem_append_right _ (List.mem_cons_of_mem _ hother))
  . intro hmem
    rcases mem_append.mp hmem with hmem | hmem
    . exact served_append (h.idle hmem) entries
    . exact served_append (hidle hmem) entries

theorem advance (hphases : s.phases = l₁ ++ phase :: l₂) (outcome : Outcome) :
    Requested queryId (log ++ emitPhase outcome s.shared phase)
      ⟨(PumpSystem.advance outcome s.shared phase).2,
        l₁ ++ (PumpSystem.advance outcome s.shared phase).1 :: l₂⟩ := by
  have hexclusive := h.exclusive.advance hphases (handover_advance outcome s.shared phase)
  have hminds : Minds queryId log s.shared.pendingDrainDirty phase :=
    h.minds phase (by rw [hphases]; simp)
  cases phase with
  | looping =>
    unfold PumpSystem.advance at hexclusive ⊢
    unfold emitPhase
    dsimp only at hexclusive ⊢
    split at hexclusive
    . next hdirty =>
      rw [if_pos hdirty, if_pos hdirty]
      exact h.begin_pass hphases hexclusive
    . next hdirty =>
      rw [if_neg hdirty, if_neg hdirty]
      exact h.go_on hphases hexclusive rfl rfl trivial fun _ => hminds.resolve_left hdirty
  | sweeping executionClass ids todo visits =>
    cases hraises : outcome.raises with
    | true =>
      have hemit : emitPhase outcome s.shared (.sweeping executionClass ids todo visits) = [] := by
        cases todo <;> simp [emitPhase, hraises]
      rw [hemit]
      simp only [PumpSystem.advance, hraises, if_true] at hexclusive ⊢
      exact h.go_on hphases hexclusive rfl rfl trivial (fun hmem => (by cases hmem))
    | false =>
      cases todo with
      | cons queryId' todo =>
        simp only [PumpSystem.advance, hraises, Bool.false_eq_true, if_false] at hexclusive ⊢
        exact h.go_on hphases hexclusive rfl rfl (minds_mono hminds id [])
          (fun hmem => (by cases hmem))
      | nil =>
        cases hnext : nextClass outcome executionClass with
        | some next =>
          simp only [PumpSystem.advance, emitPhase, hraises, hnext, Bool.false_eq_true, if_false,
            reduceCtorEq, and_false] at hexclusive ⊢
          exact h.go_on hphases hexclusive rfl rfl (minds_mono hminds id [])
            (fun hmem => (by cases hmem))
        | none =>
          simp only [PumpSystem.advance, emitPhase, hraises, hnext, Bool.false_eq_true, if_false,
            not_false_eq_true, and_self, if_true] at hexclusive ⊢
          refine h.go_on hphases hexclusive rfl rfl ?_ (fun hmem => (by simp at hmem))
          rcases hminds with hdirty | hserved | hids
          . exact .inl hdirty
          . exact .inr (served_append hserved _)
          . exact .inr ⟨ids, visits, List.mem_concat_self, hids⟩
  | raised => exact h.go_on hphases hexclusive rfl rfl trivial (fun hmem => (by cases hmem))
  | returned => exact h.go_on hphases hexclusive rfl rfl trivial (fun hmem => (by cases hmem))
  | failed => exact h.go_on hphases hexclusive rfl rfl trivial (fun hmem => (by cases hmem))

theorem step {action : Action} (hkeeps : action.Keeps queryId) :
    Requested queryId (log ++ action.emit s) (action.step s) := by
  have hexclusive := exclusive_step h.exclusive action
  cases action with
  | request =>
    refine h.of_shared hexclusive ?_ ?_ ?_
    . show queryId ∈ (request s).shared.schedulers
      unfold request
      split <;> exact h.registered
    . intro _
      show (request s).shared.pendingDrainDirty = true
      unfold request
      split <;> rfl
    . show ∀ phase ∈ (request s).phases, phase ∈ s.phases ∨
        Minds queryId log (request s).shared.pendingDrainDirty phase
      unfold request
      split
      . intro phase hphase
        refine (mem_append.mp hphase).imp_right fun hmem => ?_
        rw [mem_singleton.mp hmem]
        trivial
      . intro phase hphase
        refine (mem_append.mp hphase).imp_right fun hmem => ?_
        rw [mem_singleton.mp hmem]
        exact .inl rfl
  | advance i outcome =>
    show Requested queryId (log ++ s.emitAt (emitPhase outcome) i)
      (s.advanceAt (PumpSystem.advance outcome) i)
    rcases s.advanceAt_cases (PumpSystem.advance outcome) (emitPhase outcome) i with
      ⟨hsame, hemit⟩ | ⟨l₁, phase, l₂, hphases, hstep, hemit⟩
    . rw [hsame, hemit, append_nil]
      exact h
    . rw [hstep, hemit]
      exact h.advance hphases outcome
  | getOrCreate other =>
    obtain ⟨-, hdirty, hsubset⟩ := running_getOrCreate other s.shared
    exact h.of_shared hexclusive (hsubset h.registered) hdirty.trans fun _ => .inl
  | dropQuery other =>
    refine h.of_shared hexclusive ?_ id fun _ => .inl
    exact (List.mem_erase_of_ne (Ne.symm hkeeps)).mpr h.registered
  | clear => exact hkeeps.elim
  | recordPendingDrainProgress other =>
    obtain ⟨-, hdirty, hschedulers⟩ := recordPendingDrainProgress_keeps other s.shared
    exact h.of_shared hexclusive (hschedulers ▸ h.registered) hdirty.trans fun _ => .inl

end

end Requested

theorem exclusive_run (actions : List Action) :
    (Run.run Action.step actions { shared := {} }).IsExclusive := by
  have hstart : IsExclusive { shared := {} } := rfl
  exact Run.run_invariant (fun s : PumpSystem => s.IsExclusive)
    (fun action _ s h => exclusive_step h action) hstart

theorem pumping_run {s : PumpSystem} (hswept : ∀ phase ∈ s.phases, Swept phase)
    (actions : List Action) :
    Pumping (Run.log Action.step Action.emit actions s) (Run.run Action.step actions s) := by
  have hstart : Pumping [] s := ⟨hswept, fun _ _ hmem => (by cases hmem), fun _ _ hmem => (by cases hmem)⟩
  exact Run.run_log_invariant Pumping (P := fun _ _ => True)
    (fun action s log _ h => h.step action) (Run.always_of_forall (fun _ _ _ => trivial) s) hstart

theorem requested_run {queryId : String} {s : PumpSystem} (hexclusive : s.IsExclusive)
    (hregistered : queryId ∈ s.shared.schedulers) {actions : List Action}
    (hkeeps : ∀ action ∈ actions, action.Keeps queryId) :
    Requested queryId (Run.log Action.step Action.emit actions (request s))
      (Run.run Action.step actions (request s)) := by
  have hstart : Requested queryId [] (request s) := by
    have hdirty : (request s).shared.pendingDrainDirty = true := by
      unfold request
      split <;> rfl
    refine ⟨exclusive_request hexclusive, ?_, .inl hdirty, ?_, fun hmem => (by cases hmem)⟩
    . unfold request
      split <;> exact hregistered
    . intro phase _
      rw [hdirty]
      cases phase <;> first | trivial | exact .inl rfl
  exact Run.run_log_invariant (fun log (s : PumpSystem) => Requested queryId log s)
    (P := fun action _ => action.Keeps queryId) (fun action s log hkeeps h => h.step hkeeps)
    (Run.always_of_forall (fun action hmem _ => hkeeps action hmem) _) hstart

theorem single_pending_drain (actions : List Action) :
    let s := Run.run Action.step actions { shared := {} }
    s.phases.countP PumpPhase.holds ≤ 1 ∧
      ((∀ phase ∈ s.phases, phase.holds = false) → s.shared.pendingDrainRunning = false) :=
  ⟨(exclusive_run actions).countP_le_one, (exclusive_run actions).flag_eq_false⟩

end PumpSystem

end Vane
