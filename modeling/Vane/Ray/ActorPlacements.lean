import Vane.Ray.CoordinatorSafety

/-!
This module contains that actors stay where they have been placed, and what calls that raise leave.
-/

namespace Vane


namespace ClusterQueryResourceCoordinator

variable {call : Call}

open Rebalance

variable {c c' : ClusterQueryResourceCoordinator} {r : Rebalance} {generation : ℕ} {q : String}
  {s s' : QueryState}

structure Shown (r : Rebalance) (generation : ℕ) (s s' : QueryState) : Prop where
  demand : s'.demand = s.demand
  sequence : s'.sequence = s.sequence
  lost : s'.actorPlacementLost = s.actorPlacementLost
  allocation : r.allocation generation s.queryId = .ok s'.allocation ∨
    (∃ e, r.allocation generation s.queryId = .error e) ∧ s'.allocation = s.allocation
  state : s'.state = (r.status s.queryId).1 ∨
    s'.state = .allocationDebt ∧ (r.status s.queryId).1 ≠ .actorPlacementLost

theorem Shown.queryId (h : Shown r generation s s') : s'.queryId = s.queryId :=
  congrArg QueryDemand.queryId h.demand

theorem Shown.trans {s'' : QueryState} (h : Shown r generation s s')
    (h' : Shown r generation s' s'') : Shown r generation s s'' where
  demand := h'.demand.trans h.demand
  sequence := h'.sequence.trans h.sequence
  lost := h'.lost.trans h.lost
  allocation := by
    have hallocation := h'.allocation
    rw [h.queryId] at hallocation
    rcases hallocation with hok | ⟨herror, hsame⟩
    . exact .inl hok
    . rw [hsame]
      exact h.allocation
  state := by
    have hstate := h'.state
    rwa [h.queryId] at hstate

structure Turned (r : Rebalance) (generation : ℕ) (c c' : ClusterQueryResourceCoordinator) :
    Prop where
  nodes : c'.nodes = c.nodes
  nextSequence : c'.nextSequence = c.nextSequence
  counter : c'.generation = c.generation
  queries : ∀ s' ∈ c'.queries.values, ∃ s ∈ c.queries.values,
    s' = s ∨ Shown r generation s s'

theorem Turned.refl (r : Rebalance) (generation : ℕ) (c : ClusterQueryResourceCoordinator) :
    Turned r generation c c :=
  ⟨rfl, rfl, rfl, fun s hs => ⟨s, hs, .inl rfl⟩⟩

theorem Turned.trans {c'' : ClusterQueryResourceCoordinator} (h : Turned r generation c c')
    (h' : Turned r generation c' c'') : Turned r generation c c'' where
  nodes := h'.nodes.trans h.nodes
  nextSequence := h'.nextSequence.trans h.nextSequence
  counter := h'.counter.trans h.counter
  queries := by
    intro s'' hs''
    obtain ⟨s', hs', hlater⟩ := h'.queries s'' hs''
    obtain ⟨s, hs, hbefore⟩ := h.queries s' hs'
    refine ⟨s, hs, ?_⟩
    rcases hlater with rfl | hlater
    . exact hbefore
    . rcases hbefore with rfl | hbefore
      . exact .inr hlater
      . exact .inr (hbefore.trans hlater)

theorem Turned.of_putQuery (hs : s ∈ c.queries.values) (h : Shown r generation s s')
    {c₀ : ClusterQueryResourceCoordinator} (hc₀ : c₀ = c ∨ ∃ s₀, s₀.queryId = s.queryId ∧
      c₀ = c.putQuery s₀) : Turned r generation c (c₀.putQuery s') := by
  have hqueries : ∀ t ∈ (c₀.putQuery s').queries.values, ∃ s ∈ c.queries.values,
      t = s ∨ Shown r generation s t := by
    intro t ht
    have hfind := Table.find?_key_of_mem ht
    rw [find?_putQuery] at hfind
    split at hfind
    . cases hfind
      exact ⟨s, hs, .inr h⟩
    . next hne =>
      refine ⟨t, ?_, .inl rfl⟩
      rcases hc₀ with rfl | ⟨s₀, hs₀, rfl⟩
      . exact Dict.mem_values_of_find? hfind
      . rw [find?_putQuery, if_neg (by rwa [hs₀, ← h.queryId])] at hfind
        exact Dict.mem_values_of_find? hfind
  rcases hc₀ with rfl | ⟨s₀, -, rfl⟩
  . exact ⟨rfl, rfl, rfl, hqueries⟩
  . exact ⟨rfl, rfl, rfl, hqueries⟩

theorem publish_turned (r : Rebalance) (generation : ℕ) (q : String)
    (c : ClusterQueryResourceCoordinator) :
    (publish r generation q).Ensures c (fun _ c' => Turned r generation c c')
      (fun _ c' => Turned r generation c c') := by
  unfold publish
  rw [Py.ensures_get_bind]
  split
  . exact .refl r generation c
  . next s hs =>
    obtain rfl : s.queryId = q := c.queries.keyed q s hs
    have hmem := Dict.mem_values_of_find? hs
    simp only [Py.ensures_bind, Py.ensures_modify, Py.ensures_lift]
    constructor
    . intro a ha
      refine .of_putQuery hmem ?_ (.inr ⟨_, ?_, rfl⟩)
      rotate_left
      . rfl
      unfold settle
      simp only
      split
      . next hdebt => exact ⟨rfl, rfl, rfl, .inl ha, .inr ⟨rfl, hdebt.2⟩⟩
      . exact ⟨rfl, rfl, rfl, .inl ha, .inl rfl⟩
    . intro e he
      have hshown : Shown r generation s { s with
          state := (r.status s.queryId).1, rejectionReason := (r.status s.queryId).2 } :=
        ⟨rfl, rfl, rfl, .inr ⟨⟨e, he⟩, rfl⟩, .inl rfl⟩
      exact .of_putQuery hmem hshown (.inl rfl)

theorem rebalance_turned (c : ClusterQueryResourceCoordinator) :
    (rebalance c).2 = { c with generation := c.generation + 1 }.markLost c.admissionPass.lost ∨
    ∃ r, c.admissionPass.placeExtras c.nodes = .ok r ∧
      Turned r (c.generation + 1)
        ({ c with generation := c.generation + 1 }.markLost c.admissionPass.lost)
        (rebalance c).2 := by
  rw [rebalance_eq]
  split
  . exact .inl rfl
  . next r hr =>
    refine .inr ⟨r, hr, ?_⟩
    generalize { c with generation := c.generation + 1 }.markLost c.admissionPass.lost = c₀
    have hkeeps : Py.Keeps (Turned r (c.generation + 1) c₀)
        (Py.forEach c.queries.keys (publish r (c.generation + 1))) := by
      apply Py.keeps_forEach
      intro q _ c₁ hc₁
      exact (publish_turned r _ q c₁).mono (fun _ _ h => hc₁.trans h) fun _ _ h => hc₁.trans h
    exact (hkeeps c₀ (.refl _ _ _)).state

theorem rebalance_generation (c : ClusterQueryResourceCoordinator) :
    (rebalance c).2.generation = c.generation + 1 := by
  rcases rebalance_turned c with h | ⟨r, -, h⟩
  . rw [h]
    rfl
  . rw [h.counter]
    rfl

structure SameOwned (s s' : QueryState) : Prop where
  queryId : s'.queryId = s.queryId
  sequence : s'.sequence = s.sequence
  allocation : s'.allocation = s.allocation
  state : s'.state = s.state
  lost : s'.actorPlacementLost = s.actorPlacementLost

structure IsNew (c : ClusterQueryResourceCoordinator) (s : QueryState) : Prop where
  sequence : s.sequence = c.nextSequence
  allocation : s.allocation = .empty
  state : s.state = .pendingResources
  lost : s.actorPlacementLost = false

def Call.Replaces (call : Call) (queryId : String) (demand : QueryDemand) : Prop :=
  ∃ observedUsage generation now,
    call = .refreshQuery queryId observedUsage generation now (some demand)

structure Stages (call : Call) (c c' : ClusterQueryResourceCoordinator) : Prop where
  counter : c'.generation = c.generation
  nextSequence : c.nextSequence ≤ c'.nextSequence
  queries : ∀ s' ∈ c'.queries.values, (∃ s ∈ c.queries.values, SameOwned s s' ∧
      (s'.demand = s.demand ∨ call.Replaces s.queryId s'.demand)) ∨
    IsNew c s' ∧ c.nextSequence < c'.nextSequence ∧ ∃ now, call = .registerQuery s'.demand now

theorem SameOwned.refl (s : QueryState) : SameOwned s s := ⟨rfl, rfl, rfl, rfl, rfl⟩

theorem stages_putQuery (hs : s ∈ c.queries.values) (h : SameOwned s s')
    (hdemand : s'.demand = s.demand ∨ call.Replaces s.queryId s'.demand) :
    Stages call c (c.putQuery s') where
  counter := rfl
  nextSequence := le_rfl
  queries := by
    intro t ht
    left
    have hfind := Table.find?_key_of_mem ht
    rw [find?_putQuery] at hfind
    split at hfind
    . cases hfind
      exact ⟨s, hs, h, hdemand⟩
    . exact ⟨t, Dict.mem_values_of_find? hfind, .refl t, .inl rfl⟩

theorem foldl_removeQuery (ids : List String) (c : ClusterQueryResourceCoordinator) :
    (ids.foldl removeQuery c).generation = c.generation ∧
      (ids.foldl removeQuery c).nextSequence = c.nextSequence ∧
      ∀ s ∈ (ids.foldl removeQuery c).queries.values, s ∈ c.queries.values := by
  induction ids generalizing c with
  | nil => exact ⟨rfl, rfl, fun _ hs => hs⟩
  | cons q ids ih =>
    obtain ⟨hgeneration, hnext, hqueries⟩ := ih (c.removeQuery q)
    refine ⟨hgeneration, hnext, ?_⟩
    intro s hs
    have hfind := Table.find?_key_of_mem (hqueries s hs)
    rw [removeQuery, Table.find?_remove] at hfind
    split at hfind
    . cases hfind
    . exact Dict.mem_values_of_find? hfind

theorem stages_removeQueries (call : Call) (ids : List String)
    (c : ClusterQueryResourceCoordinator) : Stages call c (ids.foldl removeQuery c) := by
  obtain ⟨hgeneration, hnext, hqueries⟩ := foldl_removeQuery ids c
  exact ⟨hgeneration, hnext.ge, fun s hs => .inl ⟨s, hqueries s hs, .refl s, .inl rfl⟩⟩

theorem stages_of_staged (h : call.staged c = some c') : Stages call c c' := by
  cases call with
  | registerQuery demand now =>
    simp only [Call.staged] at h
    split at h
    . cases h
    . cases h
      refine ⟨rfl, Nat.le_succ _, ?_⟩
      intro s' hs'
      have hfind := Table.find?_key_of_mem hs'
      simp only [ClusterQueryResourceCoordinator.staged, Table.find?_put] at hfind
      split at hfind
      . cases hfind
        exact .inr ⟨⟨rfl, rfl, rfl, rfl⟩, Nat.lt_succ_self _, now, rfl⟩
      . exact .inl ⟨s', Dict.mem_values_of_find? hfind, .refl s', .inl rfl⟩
  | refreshQuery queryId observedUsage generation now demand =>
    simp only [Call.staged] at h
    split at h
    . cases h
    . next s hs =>
      split at h
      . next hvalid =>
        cases h
        have hid : s.queryId = queryId := c.queries.keyed queryId s hs
        refine stages_putQuery (Dict.mem_values_of_find? hs)
          ⟨hvalid.2.trans hid.symm, rfl, rfl, rfl, rfl⟩ ?_
        cases demand with
        | none => exact .inl rfl
        | some demand => exact .inr ⟨observedUsage, generation, now, by rw [hid]; rfl⟩
      . cases h
  | refreshQueries usage generations now =>
    simp only [Call.staged] at h
    split at h
    . cases h
      refine ⟨rfl, le_rfl, ?_⟩
      intro s' hs'
      have hfind := Table.find?_key_of_mem hs'
      simp only [observe, Table.modifyAll, Dict.find?_mapValues] at hfind
      obtain ⟨s, hs, rfl⟩ := Option.map_eq_some_iff.mp hfind
      exact .inl ⟨s, Dict.mem_values_of_find? hs, ⟨rfl, rfl, rfl, rfl, rfl⟩, .inl rfl⟩
    . cases h
  | heartbeat queryId generation now => cases h
  | releaseQuery queryId generation =>
    simp only [Call.staged] at h
    split at h
    . cases h
    . split at h
      . cases h
        exact stages_removeQueries _ [queryId] c
      . cases h
  | expireQueries now =>
    simp only [Call.staged] at h
    split at h
    . cases h
    . cases h
      exact stages_removeQueries _ _ c
  | updateNodeCapacities capacities =>
    simp only [Call.staged] at h
    split at h
    . cases h
    . cases h
      exact ⟨rfl, le_rfl, fun s hs => .inl ⟨s, hs, .refl s, .inl rfl⟩⟩

structure IsLost (s : QueryState) : Prop where
  state : s.state = .actorPlacementLost
  lost : s.actorPlacementLost = true
  resources : s.allocation.resources = 0
  placements : s.actorPlacements = []

structure Evolves (s s' : QueryState) : Prop where
  placements : s'.actorPlacements = s.actorPlacements ∨ s.actorPlacements = [] ∨ IsLost s'
  lost : IsLost s → IsLost s'

theorem Evolves.trans {s'' : QueryState} (h : Evolves s s') (h' : Evolves s' s'') :
    Evolves s s'' where
  placements := by
    rcases h.placements with hsame | hnone | hlost
    . rw [← hsame]
      exact h'.placements
    . exact .inr (.inl hnone)
    . exact .inr (.inr (h'.lost hlost))
  lost hlost := h'.lost (h.lost hlost)

theorem IsLost.of_same (h : IsLost s) (hs : SameOwned s s') : IsLost s' where
  state := hs.state.trans h.state
  lost := hs.lost.trans h.lost
  resources := by
    rw [hs.allocation]
    exact h.resources
  placements := by
    unfold QueryState.actorPlacements
    rw [hs.allocation]
    exact h.placements

theorem SameOwned.evolves (h : SameOwned s s') : Evolves s s' where
  placements := .inl (congrArg QueryAllocation.actorPlacements h.allocation)
  lost hlost := hlost.of_same h

structure Traces (c c' : ClusterQueryResourceCoordinator) : Prop where
  nextSequence : c.nextSequence ≤ c'.nextSequence
  queries : ∀ s' ∈ c'.queries.values, c.nextSequence ≤ s'.sequence ∨
    ∃ s ∈ c.queries.values, s'.queryId = s.queryId ∧ s'.sequence = s.sequence ∧ Evolves s s'

theorem Traces.trans {c'' : ClusterQueryResourceCoordinator} (h : Traces c c')
    (h' : Traces c' c'') : Traces c c'' where
  nextSequence := h.nextSequence.trans h'.nextSequence
  queries := by
    intro s'' hs''
    rcases h'.queries s'' hs'' with hnew | ⟨s', hs', hid', hsequence', hevolves'⟩
    . exact .inl (h.nextSequence.trans hnew)
    . rcases h.queries s' hs' with hnew | ⟨s, hs, hid, hsequence, hevolves⟩
      . exact .inl (hsequence' ▸ hnew)
      . exact .inr ⟨s, hs, hid'.trans hid, hsequence'.trans hsequence, hevolves.trans hevolves'⟩

structure Recorded (c : ClusterQueryResourceCoordinator) : Prop where
  sequence : ∀ s ∈ c.queries.values, s.sequence < c.nextSequence
  lost : ∀ s ∈ c.queries.values, s.state = .actorPlacementLost → IsLost s

theorem Stages.recorded (h : Stages call c c') (hc : Recorded c) : Recorded c' where
  sequence := by
    intro s' hs'
    rcases h.queries s' hs' with ⟨s, hs, hsame, -⟩ | ⟨hnew, hlt, -⟩
    . rw [hsame.sequence]
      exact lt_of_lt_of_le (hc.sequence s hs) h.nextSequence
    . rw [hnew.sequence]
      exact hlt
  lost := by
    intro s' hs' hstate
    rcases h.queries s' hs' with ⟨s, hs, hsame, -⟩ | ⟨hnew, -⟩
    . exact (hc.lost s hs (hsame.state ▸ hstate)).of_same hsame
    . rw [hnew.state] at hstate
      cases hstate

theorem Stages.traces (h : Stages call c c') : Traces c c' where
  nextSequence := h.nextSequence
  queries := by
    intro s' hs'
    rcases h.queries s' hs' with ⟨s, hs, hsame, -⟩ | ⟨hnew, -⟩
    . exact .inr ⟨s, hs, hsame.queryId, hsame.sequence, hsame.evolves⟩
    . exact .inl hnew.sequence.ge

inductive PassOutcome (r : Rebalance) (s : QueryState) : Prop
  | lost (hlost : s.queryId ∈ r.lost) (hadmitted : s.queryId ∉ r.admitted.map (·.queryId))
      (hplacements : r.actorPlacements.find? s.queryId = some [])
      (hallocations : r.nodeAllocations.find? s.queryId = some ∅)
  | kept (hlost : s.queryId ∉ r.lost) (hflag : s.actorPlacementLost = false)
      (hplacements : s.actorPlacements = [] ∨
        r.actorPlacements.find? s.queryId = some s.actorPlacements)

theorem pin_flag (h : Untouched r s) :
    (s.queryId ∈ (r.pin s).lost ∧ s.queryId ∉ (r.pin s).pinned) ∨
      s.queryId ∉ (r.pin s).lost ∧ s.actorPlacementLost = false ∧
        (s.actorPlacements = [] ∨ s.queryId ∈ (r.pin s).pinned) := by
  unfold pin
  split
  . exact .inl ⟨by simp, h.pinned⟩
  . next hflag =>
    have hfalse : s.actorPlacementLost = false := by simpa using hflag
    split
    . next hnone => exact .inr ⟨h.lost, hfalse, .inl hnone⟩
    . split
      . exact .inl ⟨by simp, h.pinned⟩
      . exact .inr ⟨h.lost, hfalse, .inr (by simp)⟩

theorem foldl_pin_flag {l : List QueryState} (hnodup : (l.map (·.queryId)).Nodup)
    (hs : s ∈ l) (h : Untouched r s) :
    (s.queryId ∈ (l.foldl pin r).lost ∧ s.queryId ∉ (l.foldl pin r).pinned) ∨
      s.queryId ∉ (l.foldl pin r).lost ∧ s.actorPlacementLost = false ∧
        (s.actorPlacements = [] ∨ s.queryId ∈ (l.foldl pin r).pinned) := by
  obtain ⟨before, after, rfl⟩ := List.append_of_mem hs
  simp only [List.map_append, List.map_cons, List.nodup_middle, List.nodup_cons,
    List.mem_append, not_or] at hnodup
  rw [List.foldl_append, List.foldl_cons]
  have hstep : ∀ q r, s.queryId ≠ q.queryId → SameFor s.queryId r (r.pin q) :=
    fun q r hq => pin_sameFor hq r
  have hafter := foldl_sameFor hstep hnodup.1.2 ((before.foldl pin r).pin s)
  rw [hafter.lost, hafter.pinned]
  exact pin_flag (h.sameFor (foldl_sameFor hstep hnodup.1.1 r))

theorem admitQuery_actorPlacements (h : s.queryId ∈ r.lost ∨ s.queryId ∈ r.pinned) :
    (r.admitQuery s).actorPlacements = r.actorPlacements := by
  unfold admitQuery
  simp only
  split
  . rfl
  . next hlost =>
    rw [if_pos (h.resolve_left hlost)]
    unfold admitTasks
    split <;> rfl

theorem admitQuery_lost (r : Rebalance) (s : QueryState) : (r.admitQuery s).lost = r.lost := by
  have htasks : ∀ (r : Rebalance) (t : Trial), (r.admitTasks s t).lost = r.lost := by
    intro r t
    unfold admitTasks
    split <;> rfl
  unfold admitQuery
  simp only
  split
  . rfl
  . split
    . exact htasks r _
    . split
      . rfl
      . exact htasks { r with actorPlacements := _ } _

theorem admissionPass_outcome (hs : s ∈ c.queries.values) : PassOutcome c.admissionPass s := by
  obtain ⟨before, after, horder⟩ := List.append_of_mem (mem_admissionOrder.mpr hs)
  obtain ⟨hbefore, hpin, hadmitted, hafter⟩ := turn_spec horder
  have hflag := foldl_pin_flag (c.nodup_queryIds fun s => toLex (s.sequence, s.queryId))
    (List.mem_sortBy.mpr hs) (untouched_initial hs)
  change (s.queryId ∈ c.pinnedPass.lost ∧ s.queryId ∉ c.pinnedPass.pinned) ∨
    s.queryId ∉ c.pinnedPass.lost ∧ s.actorPlacementLost = false ∧
      (s.actorPlacements = [] ∨ s.queryId ∈ c.pinnedPass.pinned) at hflag
  rw [← hbefore.lost, ← hbefore.pinned] at hflag
  rcases hflag with ⟨hlost, hpinned⟩ | ⟨hlost, hfalse, hpinned⟩
  . have hsame : (c.turn before).admitQuery s = c.turn before := by
      unfold admitQuery
      rw [if_pos hlost]
    rw [hsame] at hafter
    cases hpin with
    | kept hpinned' _ _ _ _ => exact absurd hpinned' hpinned
    | free _ hplacements hallocations =>
      exact .lost (hafter.lost.mpr hlost) (hafter.admitted.not.mpr hadmitted)
        (hafter.placements.trans hplacements) (hafter.allocations.trans hallocations)
  . have hnot : s.queryId ∉ c.admissionPass.lost := by
      rw [hafter.lost, admitQuery_lost]
      exact hlost
    refine .kept hnot hfalse (hpinned.imp_right fun hpinned => ?_)
    rw [hafter.placements, admitQuery_actorPlacements (.inr hpinned)]
    cases hpin with
    | kept _ _ _ _ hholds => exact hholds.placements
    | free hpinned' _ _ => exact absurd hpinned hpinned'

theorem mem_markLost (hs' : s' ∈ ({ c with generation := generation }.markLost
    c.admissionPass.lost).queries.values) :
    ∃ s ∈ c.queries.values, s'.demand = s.demand ∧ s'.sequence = s.sequence ∧
      s'.allocation = s.allocation ∧ s'.state = s.state ∧
      (s'.actorPlacementLost = true ↔ s.queryId ∈ c.admissionPass.lost) := by
  have hfind := Table.find?_key_of_mem hs'
  rw [find?_markLost] at hfind
  obtain ⟨s, hs, heq⟩ := Option.map_eq_some_iff.mp hfind
  have hmem : s ∈ c.queries.values := Dict.mem_values_of_find? hs
  refine ⟨s, hmem, ?_⟩
  cases admissionPass_outcome hmem with
  | lost hlost _ _ _ =>
    rw [if_pos hlost] at heq
    subst heq
    exact ⟨rfl, rfl, rfl, rfl, iff_of_true rfl hlost⟩
  | kept hlost hflag _ =>
    rw [if_neg hlost] at heq
    subst heq
    exact ⟨rfl, rfl, rfl, rfl, iff_of_false (by simp [hflag]) hlost⟩

theorem not_stranded_of_lost (hlost : s.queryId ∈ c.admissionPass.lost) : ¬c.Stranded s := by
  rintro ⟨before, after, horder, hstrands⟩
  obtain ⟨-, -, -, hafter⟩ := turn_spec horder
  apply hstrands.1
  rw [← admitQuery_lost _ s, ← hafter.lost]
  exact hlost

theorem shown_lost (hs : s ∈ c.queries.values) (hlost : s.queryId ∈ c.admissionPass.lost)
    (hr : c.admissionPass.placeExtras c.nodes = .ok r) {s₀ : QueryState} (hid : s₀.queryId = s.queryId)
    (hflag : s₀.actorPlacementLost = true) (h : Shown r (c.generation + 1) s₀ s') : IsLost s' := by
  obtain ⟨hgrows, -, hother⟩ := foldlM_placeExtra_spec (fun _ hq => admitted_mem_keys hq) hr
  cases admissionPass_outcome hs with
  | kept hnot _ _ => exact absurd hlost hnot
  | lost _ hadmitted hplacements hallocations =>
    have hstatus : (r.status s.queryId).1 = .actorPlacementLost := by
      unfold Rebalance.status
      rw [hgrows.admitted, hgrows.lost, if_neg hadmitted, if_pos hlost]
    have hheld : r.nodeAllocations.find? s.queryId = some ∅ := by
      rw [hother _ hadmitted]
      exact hallocations
    rw [← hgrows.placements] at hplacements
    obtain ⟨a, ha⟩ := allocation_of_settled hs (not_stranded_of_lost hlost) hgrows
      (Nat.succ_pos c.generation)
    have hshows := allocation_shows hheld hplacements (fun n hn => by cases hn) ha
    have hallocation := h.allocation
    have hstate := h.state
    rw [hid] at hallocation hstate
    rw [hstatus] at hstate
    obtain rfl : a = s'.allocation := by
      rcases hallocation with hok | ⟨⟨e, he⟩, -⟩
      . rw [ha] at hok
        cases hok
        rfl
      . rw [ha] at he
        cases he
    exact ⟨hstate.resolve_right fun h => h.2 rfl, h.lost.trans hflag, hshows.resources,
      hshows.actors⟩

theorem shown_kept (hs : s ∈ c.queries.values) (hlost : s.queryId ∉ c.admissionPass.lost)
    (hr : c.admissionPass.placeExtras c.nodes = .ok r) {s₀ : QueryState}
    (hid : s₀.queryId = s.queryId) (hallocation : s₀.allocation = s.allocation)
    (h : Shown r (c.generation + 1) s₀ s') :
    s'.state ≠ .actorPlacementLost ∧
      (s'.actorPlacements = s.actorPlacements ∨ s.actorPlacements = []) := by
  obtain ⟨hgrows, -, hother⟩ := foldlM_placeExtra_spec (fun _ hq => admitted_mem_keys hq) hr
  constructor
  . intro hstate
    have hstatus := h.state
    rw [hid, hstate] at hstatus
    rcases hstatus with hstatus | ⟨hdebt, -⟩
    . unfold Rebalance.status at hstatus
      simp only [hgrows.lost, hlost, if_false] at hstatus
      split at hstatus <;> cases hstatus
    . cases hdebt
  . cases admissionPass_outcome hs with
    | lost hlost' _ _ _ => exact absurd hlost' hlost
    | kept _ _ hplacements =>
      rcases hplacements with hnone | hplacements
      . exact .inr hnone
      . left
        have hshown := h.allocation
        rw [hid, hallocation] at hshown
        rcases hshown with hok | ⟨-, hsame⟩
        . obtain ⟨placements, loads, hholds⟩ := holds_admissionPass hs
          obtain ⟨more, hmore⟩ := hgrows.holds hholds
          obtain ⟨held, hheld, -⟩ := hmore.allocations
          rw [← hgrows.placements] at hplacements
          have hnames := (hgrows.balanced c.admissionPass_balanced).named _ held hheld
          exact (allocation_shows hheld hplacements
            (fun n hn => c.identifier_of_mem_keys (hnames n hn)) hok).actors
        . exact congrArg QueryAllocation.actorPlacements hsame

theorem rebalance_evolves (hc : Recorded c) (hs' : s' ∈ (rebalance c).2.queries.values) :
    ∃ s ∈ c.queries.values, s'.queryId = s.queryId ∧ s'.sequence = s.sequence ∧ Evolves s s' ∧
      (s'.state = .actorPlacementLost → IsLost s') := by
  have hmarked : ∀ s₀ ∈ ({ c with generation := c.generation + 1 }.markLost
      c.admissionPass.lost).queries.values, ∃ s ∈ c.queries.values, s₀.queryId = s.queryId ∧
        s₀.sequence = s.sequence ∧ Evolves s s₀ ∧
        (s₀.state = .actorPlacementLost → IsLost s₀) := by
    intro s₀ hs₀
    obtain ⟨s, hs, hdemand, hsequence, hallocation, hstate, hflag⟩ := mem_markLost hs₀
    have hplacements := congrArg QueryAllocation.actorPlacements hallocation
    have hlost : IsLost s → IsLost s₀ := by
      intro h
      refine ⟨hstate.trans h.state, hflag.mpr ?_, hallocation ▸ h.resources,
        hplacements.trans h.placements⟩
      cases admissionPass_outcome hs with
      | lost hlost _ _ _ => exact hlost
      | kept _ hfalse _ =>
        rw [h.lost] at hfalse
        cases hfalse
    exact ⟨s, hs, congrArg QueryDemand.queryId hdemand, hsequence, ⟨.inl hplacements, hlost⟩,
      fun h => hlost (hc.lost s hs (hstate ▸ h))⟩
  rcases rebalance_turned c with heq | ⟨r, hr, hturned⟩
  . rw [heq] at hs'
    exact hmarked s' hs'
  . obtain ⟨s₀, hs₀, rfl | hshown⟩ := hturned.queries s' hs'
    . exact hmarked s' hs₀
    . obtain ⟨s, hs, hdemand, hsequence, hallocation, hstate, hflag⟩ := mem_markLost hs₀
      have hid : s₀.queryId = s.queryId := congrArg QueryDemand.queryId hdemand
      refine ⟨s, hs, hshown.queryId.trans hid, hshown.sequence.trans hsequence, ?_⟩
      by_cases hlost : s.queryId ∈ c.admissionPass.lost
      . have hislost := shown_lost hs hlost hr hid (hflag.mpr hlost) hshown
        exact ⟨⟨.inr (.inr hislost), fun _ => hislost⟩, fun _ => hislost⟩
      . obtain ⟨hstate', hplacements⟩ := shown_kept hs hlost hr hid hallocation hshown
        refine ⟨⟨hplacements.imp_right .inl, ?_⟩, fun h => absurd h hstate'⟩
        intro h
        cases admissionPass_outcome hs with
        | lost hlost' _ _ _ => exact absurd hlost' hlost
        | kept _ hfalse _ =>
          rw [h.lost] at hfalse
          cases hfalse

theorem rebalance_nextSequence (c : ClusterQueryResourceCoordinator) :
    (rebalance c).2.nextSequence = c.nextSequence := by
  rcases rebalance_turned c with h | ⟨r, -, h⟩
  . rw [h]
    rfl
  . rw [h.nextSequence]
    rfl

theorem rebalance_recorded (hc : Recorded c) :
    Recorded (rebalance c).2 ∧ Traces c (rebalance c).2 := by
  have hnext := rebalance_nextSequence c
  refine ⟨⟨?_, ?_⟩, hnext.ge, ?_⟩
  . intro s' hs'
    obtain ⟨s, hs, -, hsequence, -⟩ := rebalance_evolves hc hs'
    rw [hsequence, hnext]
    exact hc.sequence s hs
  . intro s' hs'
    obtain ⟨s, -, -, -, -, hlost⟩ := rebalance_evolves hc hs'
    exact hlost
  . intro s' hs'
    obtain ⟨s, hs, hid, hsequence, hevolves, -⟩ := rebalance_evolves hc hs'
    exact .inr ⟨s, hs, hid, hsequence, hevolves⟩

def Call.step (call : Call) (c : ClusterQueryResourceCoordinator) :
    ClusterQueryResourceCoordinator :=
  (call.exec c).2

theorem Traces.refl (c : ClusterQueryResourceCoordinator) : Traces c c where
  nextSequence := le_rfl
  queries s hs := .inr ⟨s, hs, rfl, rfl, (SameOwned.refl s).evolves⟩

theorem Call.step_invariant {P : ClusterQueryResourceCoordinator → Prop} (hc : P c)
    (hrenewed : ∀ c', Call.Renews c c' → P c')
    (hrebalanced : ∀ c₁, call.staged c = some c₁ → (call.registers → c₁.Feasible) →
      P (rebalance c₁).2) : P (call.step c) := by
  have hexec : call.exec.Ensures c (fun _ => P) (fun _ => P) := by
    cases hstaged : call.staged c with
    | none =>
      apply (Call.exec_ensures_of_not_staged hstaged).mono (fun _ => hrenewed)
      rintro _ _ rfl
      exact hc
    | some c₁ =>
      apply (Call.exec_ensures_staged hstaged).mono
      . rintro _ _ ⟨hfeasible, rfl⟩
        exact hrebalanced c₁ hstaged fun _ => hfeasible
      . rintro _ _ ⟨-, rfl⟩
        split
        . exact hc
        . next hregisters => exact hrebalanced c₁ hstaged fun h => absurd h hregisters
  exact hexec.state

theorem Call.Renews.stages (h : Call.Renews c c') (call : Call) : Stages call c c' := by
  cases h with
  | same => exact stages_removeQueries call [] c
  | renewed s hs expiresAt =>
    exact stages_putQuery (Dict.mem_values_of_find? hs) ⟨rfl, rfl, rfl, rfl, rfl⟩ (.inl rfl)

theorem step_recorded (call : Call) (hc : Recorded c) :
    Recorded (call.step c) ∧ Traces c (call.step c) := by
  refine Call.step_invariant (P := fun c' => Recorded c' ∧ Traces c c') ⟨hc, .refl c⟩ ?_ ?_
  . intro c' hc'
    exact ⟨(hc'.stages call).recorded hc, (hc'.stages call).traces⟩
  . intro c₁ hstaged _
    have hstages := stages_of_staged hstaged
    obtain ⟨hrecorded, htraces⟩ := rebalance_recorded (hstages.recorded hc)
    exact ⟨hrecorded, hstages.traces.trans htraces⟩

theorem recorded_of_new {capacities : List NodeCapacity} {heartbeatTimeout : ℚ}
    (h : new capacities heartbeatTimeout = .ok c) : Recorded c := by
  obtain ⟨-, -, h⟩ := Except.ok_of_bind h
  obtain ⟨nodes, -, h⟩ := Except.ok_of_bind h
  cases h
  constructor <;> (intro s hs; cases hs)

theorem actor_placements_never_migrate (capacities : List NodeCapacity) (heartbeatTimeout : ℚ)
    (c₀ : ClusterQueryResourceCoordinator) (hnew : new capacities heartbeatTimeout = .ok c₀)
    (before after : List Call) (s s' : QueryState)
    (hs : s ∈ (Run.run Call.step before c₀).queries.values)
    (hs' : s' ∈ (Run.run Call.step (before ++ after) c₀).queries.values)
    (hid : s'.queryId = s.queryId) (hsequence : s'.sequence = s.sequence) :
    (s.allocation.actorPlacements ≠ [] →
      s'.allocation.actorPlacements = s.allocation.actorPlacements ∨
        s'.state = .actorPlacementLost ∧ s'.allocation.resources = 0) ∧
    (s.state = .actorPlacementLost →
      s'.state = .actorPlacementLost ∧ s'.allocation.resources = 0) := by
  have hrecorded : Recorded (Run.run Call.step before c₀) :=
    Run.run_invariant Recorded (fun call _ _ hc => (step_recorded call hc).1) (recorded_of_new hnew)
  rw [Run.run_append] at hs'
  generalize Run.run Call.step before c₀ = c at hs hs' hrecorded
  have htraces : Recorded (Run.run Call.step after c) ∧ Traces c (Run.run Call.step after c) := by
    apply Run.run_invariant (fun c' => Recorded c' ∧ Traces c c') _ ⟨hrecorded, .refl c⟩
    rintro call - c' ⟨hc', h⟩
    obtain ⟨hrecorded', h'⟩ := step_recorded call hc'
    exact ⟨hrecorded', h.trans h'⟩
  have hevolves : Evolves s s' := by
    rcases htraces.2.queries s' hs' with hlater | ⟨t, ht, htid, -, hevolves⟩
    . have hearlier := hrecorded.sequence s hs
      omega
    . have hfind := Table.find?_key_of_mem ht
      rw [← htid, hid, Table.find?_key_of_mem hs] at hfind
      cases hfind
      exact hevolves
  constructor
  . intro hne
    rcases hevolves.placements with hsame | hnone | hlost
    . exact .inl hsame
    . exact absurd hnone hne
    . exact .inr ⟨hlost.state, hlost.resources⟩
  . intro hstate
    have hlost := hevolves.lost (hrecorded.lost s hs hstate)
    exact ⟨hlost.state, hlost.resources⟩

theorem actor_placements_never_migrate_when_node_leaves :
    let node : NodeCapacity := ⟨"n", { cpu := 2 }, by decide⟩
    let other : NodeCapacity := ⟨"m", { cpu := 2 }, by decide⟩
    ∃ c₀ s s', new [node] = .ok c₀ ∧
      s ∈ (Run.run Call.step [.registerQuery oneActorOneTask 0] c₀).queries.values ∧
      s' ∈ (Run.run Call.step ([.registerQuery oneActorOneTask 0] ++
        [.updateNodeCapacities [other], .heartbeat "q" 2 5]) c₀).queries.values ∧
      s.allocation.actorPlacements ≠ [] ∧ s'.state = .actorPlacementLost ∧
      s'.allocation.resources = 0 := by
  intro node other
  obtain ⟨c₀, hnew, hfirst, hsecond⟩ : ∃ c₀, new [node] = .ok c₀ ∧
      ((Run.run Call.step [.registerQuery oneActorOneTask 0] c₀).queries.find? "q").any (fun s =>
        s.queryId = "q" ∧ s.sequence = 0 ∧ s.allocation.actorPlacements ≠ []) = true ∧
      ((Run.run Call.step ([.registerQuery oneActorOneTask 0] ++
        [.updateNodeCapacities [other], .heartbeat "q" 2 5]) c₀).queries.find? "q").any (fun s =>
          s.queryId = "q" ∧ s.sequence = 0 ∧ s.allocation.actorPlacements = []) = true :=
    ⟨_, rfl, by decide +kernel, by decide +kernel⟩
  rw [Option.any_eq_true] at hfirst hsecond
  obtain ⟨s, hs, hsees⟩ := hfirst
  obtain ⟨s', hs', hsees'⟩ := hsecond
  obtain ⟨hid, hsequence, hplacements⟩ := of_decide_eq_true hsees
  obtain ⟨hid', hsequence', hplacements'⟩ := of_decide_eq_true hsees'
  have hmem := Dict.mem_values_of_find? hs
  have hmem' := Dict.mem_values_of_find? hs'
  have h := actor_placements_never_migrate [node] 30 c₀ hnew _ _ s s' hmem hmem'
    (hid'.trans hid.symm) (hsequence'.trans hsequence.symm)
  refine ⟨c₀, s, s', hnew, hmem, hmem', hplacements, ?_⟩
  rcases h.1 hplacements with hsame | hlost
  . rw [hplacements'] at hsame
    exact absurd hsame.symm hplacements
  . exact hlost

end ClusterQueryResourceCoordinator

end Vane
