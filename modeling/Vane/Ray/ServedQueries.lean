import Vane.Ray.ActorPlacements

/-! This module contains what running queries own, between the minimum and the desired resources. -/

namespace Vane

namespace QueryDemand

variable {demand : QueryDemand} {placements : List ActorPlacement}

theorem sum_loadsOf (h : (placements.map (·.key)).Perm (demand.actorBundles.map (·.key))) :
    ((demand.loadsOf placements).map Prod.snd).sum =
      (demand.actorBundles.map ActorResourceBundle.resources).sum := by
  have hplacements : (demand.loadsOf placements).map Prod.snd =
      (placements.map (·.key)).map fun key => (demand.actorBundle? key).getD 0 := by
    unfold loadsOf
    rw [List.map_map, List.map_map]
    rfl
  have hbundles : demand.actorBundles.map ActorResourceBundle.resources =
      (demand.actorBundles.map (·.key)).map fun key => (demand.actorBundle? key).getD 0 := by
    rw [List.map_map]
    apply List.map_congr_left
    intro b hb
    simp only [Function.comp_apply, actorBundle?_key hb, Option.getD_some]
  rw [hplacements, hbundles]
  exact (h.map _).sum_eq

theorem sum_zip_tasks {hosts : List String} {bundles : List ResourceVector}
    (h : hosts.length = bundles.length) : ((hosts.zip bundles).map Prod.snd).sum = bundles.sum := by
  rw [List.map_snd_zip h.ge]

end QueryDemand

namespace Rebalance

variable {r : Rebalance} {s : QueryState}

theorem Holds.total {placements : List ActorPlacement} {loads : List (String × ResourceVector)}
    {held : Dict String ResourceVector} (h : Holds r s placements loads)
    (hheld : r.nodeAllocations.find? s.queryId = some held) :
    held.values.sum = (loads.map Prod.snd).sum := by
  obtain ⟨held', hheld', hamount⟩ := h.allocations
  rw [hheld] at hheld'
  cases hheld'
  have hsum := Dict.sum_values_eq_sum_amount id held
  rw [List.map_id] at hsum
  have hnodup := (held.keys ++ loads.map Prod.fst).nodup_dedup
  have hknown : ∀ load ∈ loads, load.1 ∈ (held.keys ++ loads.map Prod.fst).dedup := by
    intro load hload
    rw [List.mem_dedup, List.mem_append]
    exact .inr (List.mem_map_of_mem hload)
  rw [hsum, ← sum_loadOn hnodup hknown, List.map_congr_left fun n _ => hamount n]
  apply sum_map_of_subset held.nodup_keys hnodup
  . intro n hn
    rw [List.mem_dedup, List.mem_append]
    exact .inl hn
  . intro n _ hn
    rw [← hamount n]
    exact Dict.amount_of_not_mem hn

def Matches (demand : QueryDemand) (placements : List ActorPlacement) : Prop :=
  (placements.map (·.key)).Perm (demand.actorBundles.map (·.key))

end Rebalance

namespace ClusterQueryResourceCoordinator

open Rebalance

variable {c c' : ClusterQueryResourceCoordinator} {r : Rebalance} {s s' : QueryState}

def Covered (s : QueryState) : Prop :=
  s.actorPlacements = [] ∨ ∀ b ∈ s.demand.actorBundles, b.key ∈ s.actorPlacements.map (·.key)

structure Served (s : QueryState) : Prop where
  minimum : s.demand.minimum ≤ s.allocation.resources
  desired : s.allocation.resources ≤ s.demand.desired
  actors : Matches s.demand s.allocation.actorPlacements

theorem matches_of_covered (hplaced : s.actorPlacements ≠ []) (h : Covered s)
    (hbundles : ∀ p ∈ s.actorPlacements, ∃ b, s.demand.actorBundle? p.key = some b) :
    Matches s.demand s.actorPlacements := by
  apply (List.perm_ext_iff_of_nodup s.allocation.nodup_actors s.demand.nodup_actors).mpr
  intro key
  constructor
  . intro hkey
    obtain ⟨p, hp, rfl⟩ := List.mem_map.mp hkey
    obtain ⟨_, hb⟩ := hbundles p hp
    obtain ⟨bundle, hbundle, -⟩ := Option.map_eq_some_iff.mp hb
    have hkey := List.find?_some hbundle
    rw [← of_decide_eq_true hkey]
    exact List.mem_map_of_mem (List.mem_of_find?_eq_some hbundle)
  . intro hkey
    obtain ⟨b, hb, rfl⟩ := List.mem_map.mp hkey
    exact h.resolve_left hplaced b hb

theorem sum_loads {placements : List ActorPlacement} {hosts : List String}
    (hmatches : Matches s.demand placements) (hhosts : hosts.length = s.demand.taskBundles.length) :
    ((s.demand.loadsOf placements ++ hosts.zip s.demand.taskBundles).map Prod.snd).sum =
      s.demand.minimum := by
  rw [List.map_append, List.sum_append, QueryDemand.sum_loadsOf hmatches,
    QueryDemand.sum_zip_tasks hhosts]
  exact s.demand.bundles_eq_minimum

theorem Rebalanced.serves (h : Rebalanced c r c') (hfeasible : c.Feasible)
    (hcovered : ∀ s ∈ c.queries.values, Covered s) (hs' : s' ∈ c'.queries.values) :
    Covered s' ∧ (s'.state = .running → Served s') := by
  have hfind' := Table.find?_key_of_mem hs'
  obtain ⟨s, hs, hdemand, hallocation, -, hrunning⟩ := h.published _ s' hfind'
  have hmem := Dict.mem_values_of_find? hs
  have hid : s.queryId = s'.queryId := c.queries.keyed _ s hs
  obtain ⟨held, placements', hheld, hplacements', -, -, hshows⟩ := h.shows hfind'
  rw [← hid] at hheld hplacements' hrunning
  rw [h.grows.admitted] at hrunning
  rw [h.grows.placements] at hplacements'
  have hactors : ∀ {placements loads}, Holds c.admissionPass s placements loads →
      s'.allocation.actorPlacements = placements := by
    intro placements loads hholds
    rw [hholds.placements] at hplacements'
    cases hplacements'
    exact hshows.actors
  cases settled_of_not_stranded hmem (hfeasible.1 s hmem) with
  | idle hadmitted hholds =>
    exact ⟨.inl (hactors hholds), fun hstate => absurd (hrunning hstate) hadmitted⟩
  | waiting hadmitted hbundles hholds =>
    refine ⟨?_, fun hstate => absurd (hrunning hstate) hadmitted⟩
    unfold Covered QueryState.actorPlacements
    rw [hactors hholds, hdemand]
    exact hcovered s hmem
  | running placements hosts hadmitted hbundles hplaced hhosts hholds =>
    have hmatches : Matches s.demand placements := by
      rcases hplaced with ⟨rfl, hne⟩ | hkeys
      . exact matches_of_covered hne (hcovered s hmem) hbundles
      . exact .of_eq hkeys
    obtain ⟨more, hmore, hle⟩ := foldlM_placeExtra_holds c.nodup_admitted
      (fun _ hq => admitted_mem_keys hq) h.placed hadmitted hholds
    have hsum : s'.allocation.resources = s.demand.minimum + (more.map Prod.snd).sum := by
      rw [hshows.resources, hmore.total hheld, List.map_append, List.sum_append,
        sum_loads hmatches hhosts]
    have hheadroom : (more.map Prod.snd).sum ≤ s.demand.headroom := by
      obtain ⟨t, ht, htid⟩ := List.mem_map.mp hadmitted
      have htfind := Table.find?_key_of_mem (admitted_mem_values ht)
      rw [htid, Table.find?_key_of_mem hmem] at htfind
      cases htfind
      exact hle.trans (Drf.modest_weightedExtras c.nodup_admitted s ht)
    refine ⟨.inr ?_, fun _ => ⟨?_, ?_, ?_⟩⟩
    . intro b hb
      rw [hdemand] at hb
      unfold QueryState.actorPlacements
      rw [hactors hholds]
      exact hmatches.mem_iff.mpr (List.mem_map_of_mem hb)
    . rw [hdemand, hsum]
      exact le_self_add
    . rw [hdemand, hsum]
      calc _ ≤ s.demand.minimum + (s.demand.desired - s.demand.minimum) :=
            add_le_add_right hheadroom _
        _ = s.demand.desired := add_tsub_cancel_of_le s.demand.minimum_le_desired
    . rw [hdemand, hactors hholds]
      exact hmatches

namespace Call

def AddsActors (call : Call) (c : ClusterQueryResourceCoordinator) : Prop :=
  match call with
  | refreshQuery queryId _ _ _ (some demand) =>
    ∃ s ∈ c.queries.find? queryId, s.actorPlacements ≠ [] ∧
      ∃ b ∈ demand.actorBundles, b.key ∉ s.actorPlacements.map (·.key)
  | _ => False

instance (call : Call) (c : ClusterQueryResourceCoordinator) : Decidable (call.AddsActors c) :=
  match call with
  | refreshQuery _ _ _ _ (some _) => inferInstanceAs (Decidable (∃ _ ∈ _, _))
  | refreshQuery _ _ _ _ none => inferInstanceAs (Decidable False)
  | registerQuery _ _ => inferInstanceAs (Decidable False)
  | refreshQueries _ _ _ => inferInstanceAs (Decidable False)
  | heartbeat _ _ _ => inferInstanceAs (Decidable False)
  | releaseQuery _ _ => inferInstanceAs (Decidable False)
  | expireQueries _ => inferInstanceAs (Decidable False)
  | updateNodeCapacities _ => inferInstanceAs (Decidable False)

/--
The call gives no new actor bundles to a query whose actors are placed already, and only a
registration may come to a rebalance that cannot serve the queries.
-/
def Serves (call : Call) (c : ClusterQueryResourceCoordinator) : Prop :=
  ¬call.AddsActors c ∧ (call.registers ∨ ∀ c', call.staged c = some c' → c'.Feasible)

theorem covered_of_staged {call : Call} (hcall : ¬call.AddsActors c)
    (hc : ∀ s ∈ c.queries.values, Covered s) (h : call.staged c = some c') :
    ∀ s ∈ c'.queries.values, Covered s := by
  intro s' hs'
  rcases (stages_of_staged h).queries s' hs' with ⟨s, hs, hsame, hdemand⟩ | ⟨hnew, -⟩
  . unfold Covered QueryState.actorPlacements
    rw [hsame.allocation]
    rcases hdemand with hdemand | ⟨observedUsage, generation, now, rfl⟩
    . rw [hdemand]
      exact hc s hs
    . by_contra hnot
      rw [not_or] at hnot
      push Not at hnot
      exact hcall ⟨s, Table.find?_key_of_mem hs, hnot⟩
  . left
    unfold QueryState.actorPlacements
    rw [hnew.allocation]
    rfl

end Call

def AllServed (c : ClusterQueryResourceCoordinator) : Prop :=
  ∀ s ∈ c.queries.values, Covered s ∧ (s.state = .running → Served s)

theorem step_allServed {call : Call} (hcall : call.Serves c) (hc : AllServed c) :
    AllServed (call.step c) := by
  refine Call.step_invariant (P := AllServed) hc ?_ ?_
  . intro c' hc'
    cases hc' with
    | same => exact hc
    | renewed s hs expiresAt =>
      intro s' hs'
      have hfind := Table.find?_key_of_mem hs'
      rw [find?_putQuery] at hfind
      split at hfind
      . cases hfind
        obtain ⟨hcovered, hserved⟩ := hc s (Dict.mem_values_of_find? hs)
        refine ⟨hcovered, fun hstate => ?_⟩
        obtain ⟨hminimum, hdesired, hactors⟩ := hserved hstate
        exact ⟨hminimum, hdesired, hactors⟩
      . exact hc s' (Dict.mem_values_of_find? hfind)
  . intro c₁ hstaged hregisters s' hs'
    have hfeasible : c₁.Feasible := hcall.2.elim hregisters fun h => h c₁ hstaged
    have hcovered := Call.covered_of_staged hcall.1 (fun s hs => (hc s hs).1) hstaged
    obtain ⟨r, c₂, hc₂, hr⟩ := rebalance_of_feasible hfeasible
    rw [hc₂] at hs'
    exact hr.serves hfeasible hcovered hs'

def oneActorMoreTasks : QueryDemand where
  queryId := "q"
  minimum := { cpu := 2 }
  desired := { cpu := 3 }
  weight := 1
  priority := 0
  actorBundles := [actorBundle 0]
  taskBundles := [{ cpu := 1 }]
  queryId_identifier := isIdentifier_q
  minimum_le_desired := by decide +kernel
  weight_pos := weight_one_pos
  nodup_actors := oneActorOneTask.nodup_actors
  bundles_eq_minimum := oneActorOneTask.bundles_eq_minimum

theorem feasible_of_rebalance_ok (h : (rebalance c).1 = .ok ⟨⟩) : c.Feasible := by
  by_contra hnot
  obtain ⟨e, he⟩ := rebalance_raises_iff.mpr hnot
  rw [h] at he
  cases he

def twoActorsOneTask : QueryDemand where
  queryId := "q"
  minimum := { cpu := 3 }
  desired := { cpu := 3 }
  weight := 1
  priority := 0
  actorBundles := [actorBundle 0, actorBundle 1]
  taskBundles := [{ cpu := 1 }]
  queryId_identifier := isIdentifier_q
  minimum_le_desired := le_refl _
  weight_pos := weight_one_pos
  nodup_actors := by decide
  bundles_eq_minimum := by decide +kernel

end ClusterQueryResourceCoordinator

end Vane
