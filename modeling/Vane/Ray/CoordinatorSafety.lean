import Vane.Ray.CoordinatorLemmas

/-! This module contains the safety of whole runs of the coordinator: no capacity is sold twice. -/

namespace Vane

open Dict (mem_keys_iff)
open Py (bind_apply ensures_bind ensures_get ensures_modify ensures_pure)

namespace ClusterQueryResourceCoordinator

variable {s : QueryState} {ids : List String}

open Rebalance

variable {c c' : ClusterQueryResourceCoordinator} {r : Rebalance} {generation : ℕ} {q : String}

structure Published (r : Rebalance) (generation : ℕ) (s s' : QueryState) : Prop where
  demand : s'.demand = s.demand
  lost : s'.actorPlacementLost = s.actorPlacementLost
  allocation : r.allocation generation s.queryId = .ok s'.allocation
  nodeAllocations : s'.nodeAllocations = r.nodeAllocations.findD s.queryId ∅
  running : s'.state = .running → s.queryId ∈ r.admitted.map (·.queryId)

theorem Published.queryId {s s' : QueryState} (h : Published r generation s s') :
    s'.queryId = s.queryId :=
  congrArg QueryDemand.queryId h.demand

theorem settle_published {a : QueryAllocation} (h : r.allocation generation s.queryId = .ok a) :
    Published r generation s (settle r a { s with
      state := (r.status s.queryId).1, rejectionReason := (r.status s.queryId).2 }) := by
  unfold settle
  simp only
  split
  . exact ⟨rfl, rfl, h, rfl, by simp⟩
  . refine ⟨rfl, rfl, h, rfl, ?_⟩
    intro hrunning
    simp only [Rebalance.status] at hrunning
    split at hrunning
    . next hmem => exact hmem
    . split at hrunning <;> cases hrunning

theorem find?_putQuery (s : QueryState) :
    (c.putQuery s).queries.find? q = if q = s.queryId then some s else c.queries.find? q :=
  c.queries.find?_put s q

structure PublishedAll (r : Rebalance) (generation : ℕ) (ids : List String)
    (c c' : ClusterQueryResourceCoordinator) : Prop where
  nodes : c'.nodes = c.nodes
  done : ∀ q ∈ ids, ∃ s s', c.queries.find? q = some s ∧ c'.queries.find? q = some s' ∧
    Published r generation s s'
  rest : ∀ q ∉ ids, c'.queries.find? q = c.queries.find? q

theorem PublishedAll.cons {c'' : ClusterQueryResourceCoordinator}
    (h : PublishedAll r generation [q] c c') (h' : PublishedAll r generation ids c' c'')
    (hq : q ∉ ids) : PublishedAll r generation (q :: ids) c c'' where
  nodes := h'.nodes.trans h.nodes
  done := by
    intro q' hq'
    by_cases heq : q' = q
    . subst heq
      rw [h'.rest q' hq]
      exact h.done q' (by simp)
    . rw [← h.rest q' (by simpa using heq)]
      exact h'.done q' ((List.mem_cons.mp hq').resolve_left heq)
  rest := by
    intro q' hq'
    simp only [List.mem_cons, not_or] at hq'
    rw [h'.rest q' hq'.2, h.rest q' (by simpa using hq'.1)]

theorem publish_ok (hq : q ∈ c.queries.keys) {a : QueryAllocation}
    (ha : r.allocation generation q = .ok a) :
    ∃ c', publish r generation q c = (.ok ⟨⟩, c') ∧ PublishedAll r generation [q] c c' := by
  obtain ⟨s, hs⟩ := mem_keys_iff.mp hq
  obtain rfl : s.queryId = q := c.queries.keyed q s hs
  unfold publish
  rw [bind_apply, Py.get_apply]
  simp only [hs]
  rw [bind_apply, Py.modify_apply]
  simp only
  rw [bind_apply, Py.lift_apply, ha]
  refine ⟨_, rfl, rfl, ?_, ?_⟩
  . intro q hq
    obtain rfl := List.mem_singleton.mp hq
    have hpublished := settle_published ha
    refine ⟨s, _, hs, ?_, hpublished⟩
    rw [find?_putQuery, if_pos hpublished.queryId.symm]
  . intro q hq
    have hid := (settle_published ha).queryId
    rw [find?_putQuery, if_neg (fun h => hq (by simp [h.trans hid])), find?_putQuery,
      if_neg (fun h => hq (by rw [h]; exact List.mem_singleton.mpr rfl))]

theorem publish_error (hq : q ∈ c.queries.keys) {e : PyError}
    (he : r.allocation generation q = .error e) : (publish r generation q c).1 = .error e := by
  obtain ⟨s, hs⟩ := mem_keys_iff.mp hq
  unfold publish
  rw [bind_apply, Py.get_apply]
  simp only [hs]
  rw [bind_apply, Py.modify_apply]
  simp only
  rw [bind_apply, Py.lift_apply, he]

theorem PublishedAll.keys (h : PublishedAll r generation ids c c')
    (hq : q ∈ c.queries.keys) : q ∈ c'.queries.keys := by
  rw [mem_keys_iff] at *
  by_cases hmem : q ∈ ids
  . obtain ⟨s, s', -, hs', -⟩ := h.done q hmem
    exact ⟨s', hs'⟩
  . rw [h.rest q hmem]
    exact hq

theorem forEach_publish (hnodup : ids.Nodup) (hids : ∀ q ∈ ids, q ∈ c.queries.keys)
    (hok : ∀ q ∈ ids, ∃ a, r.allocation generation q = .ok a) :
    ∃ c', Py.forEach ids (publish r generation) c = (.ok ⟨⟩, c') ∧
      PublishedAll r generation ids c c' := by
  induction ids generalizing c with
  | nil => exact ⟨c, rfl, rfl, by simp, fun _ _ => rfl⟩
  | cons q ids ih =>
    rw [List.nodup_cons] at hnodup
    obtain ⟨a, ha⟩ := hok q (by simp)
    obtain ⟨c₁, hc₁, hfirst⟩ := publish_ok (hids q (by simp)) ha
    obtain ⟨c₂, hc₂, hrest⟩ := ih (c := c₁) hnodup.2 (fun q hq => hfirst.keys (hids q (by simp [hq])))
      fun q hq => hok q (by simp [hq])
    refine ⟨c₂, ?_, hfirst.cons hrest hnodup.1⟩
    rw [Py.forEach]
    show (publish r generation q >>= fun _ => Py.forEach ids (publish r generation)) c = _
    rw [bind_apply, hc₁]
    exact hc₂

theorem forEach_publish_raises (hids : ∀ q ∈ ids, q ∈ c.queries.keys)
    {e : PyError} (hq : q ∈ ids) (he : r.allocation generation q = .error e) :
    ∃ e', (Py.forEach ids (publish r generation) c).1 = .error e' := by
  induction ids generalizing c with
  | nil => cases hq
  | cons q' ids ih =>
    rw [Py.forEach]
    show ∃ e', ((publish r generation q' >>= fun _ => Py.forEach ids (publish r generation)) c).1 = _
    rw [bind_apply]
    cases ha : r.allocation generation q' with
    | error e' =>
      have hraise := publish_error (hids q' (by simp)) ha
      generalize publish r generation q' c = result at hraise
      obtain ⟨_, c₁⟩ := result
      simp only at hraise
      subst hraise
      exact ⟨e', rfl⟩
    | ok a =>
      obtain ⟨c₁, hc₁, hfirst⟩ := publish_ok (hids q' (by simp)) ha
      rw [hc₁]
      have hne : q ≠ q' := by
        rintro rfl
        rw [he] at ha
        cases ha
      exact ih (fun q hq => hfirst.keys (hids q (by simp [hq])))
        ((List.mem_cons.mp hq).resolve_left hne)

/--
A rebalance can serve the queries: none of them gets actors without getting its tasks, and there is
room for the parts of the spare capacity.
-/
def Feasible (c : ClusterQueryResourceCoordinator) : Prop :=
  (∀ s ∈ c.queries.values, ¬c.Stranded s) ∧ c.admissionPass.ExtrasFit c.nodes

theorem holds_admissionPass (hs : s ∈ c.queries.values) :
    ∃ placements loads, Holds c.admissionPass s placements loads := by
  by_cases hstranded : c.Stranded s
  . obtain ⟨placements, -, hholds, -⟩ := hstranded.holds
    exact ⟨placements, [], hholds⟩
  . exact (settled_of_not_stranded hs hstranded).holds

theorem admitted_mem_values (hs : s ∈ c.admissionPass.admitted) : s ∈ c.queries.values := by
  obtain ⟨l, hsub, hl⟩ := foldl_admitQuery_admitted c.admissionOrder c.pinnedPass
  unfold admissionPass at hs
  rw [hl, pinnedPass_admitted, List.nil_append] at hs
  exact mem_admissionOrder.mp (hsub.mem hs)

theorem admitted_mem_keys (hs : s ∈ c.admissionPass.admitted) :
    s.queryId ∈ c.admissionPass.nodeAllocations.keys := by
  obtain ⟨placements, loads, hholds⟩ := holds_admissionPass (admitted_mem_values hs)
  obtain ⟨held, hheld, -⟩ := hholds.allocations
  exact mem_keys_iff.mpr ⟨held, hheld⟩

theorem identifier_of_mem_keys (c : ClusterQueryResourceCoordinator) {n : String}
    (hn : n ∈ c.nodes.keys) : IsIdentifier n := by
  obtain ⟨node, hnode⟩ := mem_keys_iff.mp hn
  rw [← c.nodes.keyed n node hnode]
  exact node.nodeId_identifier

theorem allocation_of_settled (hs : s ∈ c.queries.values) (h : ¬c.Stranded s)
    (hgrows : Grows c.admissionPass r) (hgeneration : 0 < generation) :
    ∃ a, r.allocation generation s.queryId = .ok a := by
  have hbalanced := hgrows.balanced c.admissionPass_balanced
  have hcase : ∀ placements loads, Holds c.admissionPass s placements loads →
      (placements.map (·.key)).Nodup →
      (∀ p ∈ placements, ∀ more, loadOn p.nodeId (loads ++ more) ≠ 0) →
      ∃ a, r.allocation generation s.queryId = .ok a := by
    intro placements loads hholds hnodup hhosted
    obtain ⟨more, hmore⟩ := hgrows.holds hholds
    obtain ⟨held, hheld, hamount⟩ := hmore.allocations
    apply allocation_isOk hheld hmore.placements _ hgeneration hnodup
    . intro p hp
      rw [hamount]
      exact hhosted p hp more
    . intro n hn
      exact c.identifier_of_mem_keys (hbalanced.named _ held hheld n hn)
  cases settled_of_not_stranded hs h with
  | idle _ hholds => exact hcase [] [] hholds List.nodup_nil (by simp)
  | waiting _ hbundles hholds =>
    apply hcase _ _ hholds s.allocation.nodup_actors
    intro p hp more
    obtain ⟨b, hb⟩ := hbundles p hp
    exact loadOn_loadsOf_ne_zero hp hb more
  | running placements hosts _ hbundles hplaced _ hholds =>
    apply hcase _ _ hholds
    . rcases hplaced with ⟨rfl, -⟩ | hkeys
      . exact s.allocation.nodup_actors
      . rw [hkeys]
        exact s.demand.nodup_actors
    . intro p hp more
      obtain ⟨b, hb⟩ := hbundles p hp
      rw [List.append_assoc]
      exact loadOn_loadsOf_ne_zero hp hb _

theorem allocation_of_stranded (h : c.Stranded s) (generation : ℕ)
    (hplaced : c.admissionPass.placeExtras c.nodes = .ok r) :
    ∃ e, r.allocation generation s.queryId = .error e := by
  obtain ⟨hgrows, -, hother⟩ := foldlM_placeExtra_spec (fun _ hq => admitted_mem_keys hq) hplaced
  obtain ⟨placements, hne, hholds, hadmitted⟩ := h.holds
  obtain ⟨held, hheld, hamount⟩ := hholds.allocations
  cases ha : r.allocation generation s.queryId with
  | error e => exact ⟨e, rfl⟩
  | ok a =>
    exfalso
    have hfind : r.nodeAllocations.find? s.queryId = some held := by
      rw [hother _ hadmitted]
      exact hheld
    have hshows := allocation_shows hfind (hgrows.placements ▸ hholds.placements)
      (fun n hn => c.identifier_of_mem_keys (c.admissionPass_balanced.named _ held hheld n hn)) ha
    obtain ⟨p, hp⟩ := List.exists_mem_of_ne_nil _ hne
    exact hshows.hosted p hp (hamount _)

theorem find?_markLost (lost : List String) (q : String) :
    (c.markLost lost).queries.find? q = (c.queries.find? q).map fun s =>
      if s.queryId ∈ lost then { s with actorPlacementLost := true } else s :=
  Dict.find?_mapValues _ _ _

theorem rebalance_eq (c : ClusterQueryResourceCoordinator) :
    rebalance c =
      match c.admissionPass.placeExtras c.nodes with
      | .error e =>
        (.error e, { c with generation := c.generation + 1 }.markLost c.admissionPass.lost)
      | .ok r => Py.forEach c.queries.keys (publish r (c.generation + 1))
          ({ c with generation := c.generation + 1 }.markLost c.admissionPass.lost) := by
  have hpass : ({ c with generation := c.generation + 1 } :
      ClusterQueryResourceCoordinator).admissionPass = c.admissionPass := rfl
  unfold rebalance
  rw [bind_apply, Py.modify_apply]
  simp only
  rw [bind_apply, Py.get_apply]
  simp only
  rw [bind_apply, Py.modify_apply]
  simp only
  rw [bind_apply, Py.lift_apply, hpass]
  cases c.admissionPass.placeExtras c.nodes with
  | error e => rfl
  | ok r => rfl

structure Rebalanced (c : ClusterQueryResourceCoordinator) (r : Rebalance)
    (c' : ClusterQueryResourceCoordinator) : Prop where
  placed : c.admissionPass.placeExtras c.nodes = .ok r
  grows : Grows c.admissionPass r
  nodes : c'.nodes = c.nodes
  keys : ∀ q ∈ c.queries.keys, q ∈ c'.queries.keys
  published : ∀ q s', c'.queries.find? q = some s' →
    ∃ s, c.queries.find? q = some s ∧ s'.demand = s.demand ∧
      r.allocation (c.generation + 1) q = .ok s'.allocation ∧
      s'.nodeAllocations = r.nodeAllocations.findD q ∅ ∧
      (s'.state = .running → q ∈ r.admitted.map (·.queryId))

theorem rebalance_of_feasible (h : c.Feasible) :
    ∃ r c', rebalance c = (.ok ⟨⟩, c') ∧ Rebalanced c r c' := by
  obtain ⟨hstranded, hextras⟩ := h
  obtain ⟨r, hr⟩ :=
    (placeExtras_isOk_iff c.nodup_admitted fun _ hs => admitted_mem_keys hs).mpr hextras
  obtain ⟨hgrows, -, -⟩ := foldlM_placeExtra_spec (fun _ hs => admitted_mem_keys hs) hr
  have hkeys : ∀ q ∈ c.queries.keys,
      q ∈ ({ c with generation := c.generation + 1 }.markLost c.admissionPass.lost).queries.keys := by
    intro q hq
    obtain ⟨s, hs⟩ := mem_keys_iff.mp hq
    rw [mem_keys_iff, find?_markLost, hs]
    exact ⟨_, rfl⟩
  have hok : ∀ q ∈ c.queries.keys, ∃ a, r.allocation (c.generation + 1) q = .ok a := by
    intro q hq
    obtain ⟨s, hs⟩ := mem_keys_iff.mp hq
    have hmem := Dict.mem_values_of_find? hs
    rw [← c.queries.keyed q s hs]
    exact allocation_of_settled hmem (hstranded s hmem) hgrows (Nat.succ_pos _)
  obtain ⟨c', hc', hall⟩ := forEach_publish c.queries.nodup_keys hkeys hok
  refine ⟨r, c', ?_, hr, hgrows, hall.nodes, fun q hq => hall.keys (hkeys q hq), ?_⟩
  . rw [rebalance_eq, hr]
    exact hc'
  . intro q s' hs'
    by_cases hq : q ∈ c.queries.keys
    . obtain ⟨s₁, s₂, hs₁, hs₂, hpublished⟩ := hall.done q hq
      rw [hs'] at hs₂
      cases hs₂
      rw [find?_markLost] at hs₁
      obtain ⟨s, hs, rfl⟩ := Option.map_eq_some_iff.mp hs₁
      have hid : s.queryId = q := c.queries.keyed q s hs
      obtain ⟨hdemand, hqid⟩ : s'.demand = s.demand ∧ (if s.queryId ∈ c.admissionPass.lost then
          { s with actorPlacementLost := true } else s).queryId = q := by
        rw [hpublished.demand]
        split
        . exact ⟨rfl, hid⟩
        . exact ⟨rfl, hid⟩
      refine ⟨s, hs, hdemand, ?_, ?_, ?_⟩
      . rw [← hpublished.allocation, hqid]
      . rw [hpublished.nodeAllocations, hqid]
      . intro hrunning
        rw [← hqid]
        exact hpublished.running hrunning
    . exfalso
      rw [hall.rest q hq, find?_markLost] at hs'
      obtain ⟨s, hs, -⟩ := Option.map_eq_some_iff.mp hs'
      exact hq (mem_keys_iff.mpr ⟨s, hs⟩)

theorem rebalance_of_not_feasible (h : ¬c.Feasible) : ∃ e, (rebalance c).1 = .error e := by
  rw [rebalance_eq]
  cases hr : c.admissionPass.placeExtras c.nodes with
  | error e => exact ⟨e, rfl⟩
  | ok r =>
    have hextras : c.admissionPass.ExtrasFit c.nodes :=
      (placeExtras_isOk_iff c.nodup_admitted fun _ hs => admitted_mem_keys hs).mp ⟨r, hr⟩
    obtain ⟨s, hs, hstranded⟩ : ∃ s ∈ c.queries.values, c.Stranded s := by
      by_contra hnone
      push Not at hnone
      exact h ⟨hnone, hextras⟩
    obtain ⟨e, he⟩ := allocation_of_stranded hstranded (c.generation + 1) hr
    apply forEach_publish_raises _ _ he
    . intro q hq
      obtain ⟨s, hs⟩ := mem_keys_iff.mp hq
      rw [mem_keys_iff, find?_markLost, hs]
      exact ⟨_, rfl⟩
    . rw [← c.queries.map_key_values]
      exact List.mem_map_of_mem hs

theorem rebalance_raises_iff : (∃ e, (rebalance c).1 = .error e) ↔ ¬c.Feasible := by
  constructor
  . rintro ⟨e, he⟩ h
    obtain ⟨r, c', hc', -⟩ := rebalance_of_feasible h
    rw [hc'] at he
    cases he
  . exact rebalance_of_not_feasible

structure Within (c : ClusterQueryResourceCoordinator) : Prop where
  sum : ∀ n, (c.queries.values.map (·.allocation.onNode n)).sum ≤ c.nodes.capacity n
  nodeAllocations : ∀ s ∈ c.queries.values,
    (∀ n, s.nodeAllocations.amount id n = s.allocation.onNode n) ∧
      ∀ n ∈ s.nodeAllocations.keys, n ∈ c.nodes.keys
  named : ∀ s ∈ c.queries.values, ∀ x ∈ s.allocation.nodeAllocations, x.nodeId ∈ c.nodes.keys
  placed : ∀ s ∈ c.queries.values, ∀ p ∈ s.allocation.actorPlacements, p.nodeId ∈ c.nodes.keys

theorem Rebalanced.shows (h : Rebalanced c r c') {s' : QueryState}
    (hs' : c'.queries.find? q = some s') :
    ∃ held placements, r.nodeAllocations.find? q = some held ∧
      r.actorPlacements.find? q = some placements ∧ s'.nodeAllocations = held ∧
      (∀ n ∈ held.keys, n ∈ c.nodes.keys) ∧ Shows s'.allocation held placements := by
  obtain ⟨s, hs, -, hallocation, hnodeAllocations, -⟩ := h.published q s' hs'
  have hmem := Dict.mem_values_of_find? hs
  have hid : s.queryId = q := c.queries.keyed q s hs
  obtain ⟨placements, loads, hholds⟩ := holds_admissionPass hmem
  obtain ⟨more, hmore⟩ := h.grows.holds hholds
  obtain ⟨held, hheld, -⟩ := hmore.allocations
  have hplacements := hmore.placements
  rw [hid] at hheld hplacements
  have hnamed := (h.grows.balanced c.admissionPass_balanced).named q held hheld
  refine ⟨held, placements, hheld, hplacements, ?_, hnamed, ?_⟩
  . rw [hnodeAllocations, Dict.findD, hheld, Option.getD_some]
  . exact allocation_shows hheld hplacements (fun n hn => c.identifier_of_mem_keys (hnamed n hn))
      hallocation

theorem Rebalanced.within (h : Rebalanced c r c') : Within c' := by
  have hbalanced := h.grows.balanced c.admissionPass_balanced
  constructor
  case sum =>
    intro n
    have hsum := hbalanced.total n
    rw [h.nodes, ← hsum, Dict.sum_values_eq_sum_amount, Dict.sum_values_eq_sum_amount]
    have hshown : ∀ q ∈ c'.queries.keys, c'.queries.amount (·.allocation.onNode n) q =
        r.nodeAllocations.amount (·.amount id n) q := by
      intro q hq
      obtain ⟨s', hs'⟩ := mem_keys_iff.mp hq
      obtain ⟨held, placements, hheld, -, -, -, hshows⟩ := h.shows hs'
      rw [Dict.amount_of_find? hs', Dict.amount_of_find? hheld, hshows.onNode]
    have hsub : c'.queries.keys ⊆ r.nodeAllocations.keys := by
      intro q hq
      obtain ⟨s', hs'⟩ := mem_keys_iff.mp hq
      obtain ⟨held, placements, hheld, -⟩ := h.shows hs'
      exact mem_keys_iff.mpr ⟨held, hheld⟩
    rw [List.map_congr_left hshown]
    obtain ⟨l, hperm, hsublist⟩ := List.subperm_of_subset c'.queries.nodup_keys hsub
    rw [← (hperm.map _).sum_eq]
    exact le_trans ((hsublist.map _).sum_le_sum fun _ _ => zero_le) le_self_add
  all_goals
    intro s' hs'
    obtain ⟨held, placements, hheld, -, hdict, hnamed, hshows⟩ :=
      h.shows (Table.find?_key_of_mem hs')
    rw [← h.nodes] at hnamed
  case nodeAllocations =>
    rw [hdict]
    exact ⟨fun n => (hshows.onNode n).symm, hnamed⟩
  case named =>
    intro x hx
    exact hnamed _ (hshows.named x hx)
  case placed =>
    intro p hp
    rw [hshows.actors] at hp
    exact hnamed _ (Dict.mem_keys_of_amount_ne_zero (hshows.hosted p hp))

def owned (s : QueryState) : QueryAllocation × Dict String ResourceVector :=
  (s.allocation, s.nodeAllocations)

theorem Within.of_same (h : Within c) (hnodes : c'.nodes = c.nodes)
    (hqueries : ∀ q, (c'.queries.find? q).map owned = (c.queries.find? q).map owned) :
    Within c' := by
  have hmem : ∀ s' ∈ c'.queries.values, ∃ s ∈ c.queries.values, owned s' = owned s := by
    intro s' hs'
    have hq := hqueries s'.queryId
    rw [Table.find?_key_of_mem hs'] at hq
    obtain ⟨s, hs, heq⟩ := Option.map_eq_some_iff.mp hq.symm
    exact ⟨s, Dict.mem_values_of_find? hs, heq.symm⟩
  constructor
  case sum =>
    intro n
    have hkeys : c'.queries.keys.Perm c.queries.keys := by
      apply (List.perm_ext_iff_of_nodup c'.queries.nodup_keys c.queries.nodup_keys).mpr
      intro q
      have hsome := congrArg Option.isSome (hqueries q)
      simp only [Option.isSome_map] at hsome
      rw [mem_keys_iff, mem_keys_iff, ← Option.isSome_iff_exists, ← Option.isSome_iff_exists, hsome]
    have hamount : ∀ q, c'.queries.amount (·.allocation.onNode n) q =
        c.queries.amount (·.allocation.onNode n) q := by
      intro q
      have hmap := congrArg (Option.map fun o => o.1.onNode n) (hqueries q)
      simp only [Option.map_map] at hmap
      exact congrArg (Option.getD · 0) hmap
    have hsum := h.sum n
    rw [Dict.sum_values_eq_sum_amount] at hsum ⊢
    rw [hnodes, (hkeys.map _).sum_eq, List.map_congr_left fun q _ => hamount q]
    exact hsum
  all_goals
    intro s' hs'
    obtain ⟨s, hs, heq⟩ := hmem s' hs'
    simp only [owned, Prod.mk.injEq] at heq
    rw [heq.1, hnodes]
  case nodeAllocations =>
    rw [heq.2]
    exact h.nodeAllocations s hs
  case named => exact h.named s hs
  case placed => exact h.placed s hs

inductive Call where
  | registerQuery (demand : QueryDemand) (now : ℚ)
  | refreshQuery (queryId : String) (observedUsage : ResourceVector) (generation : ℤ) (now : ℚ)
      (demand : Option QueryDemand)
  | refreshQueries (usage : Dict String ResourceVector) (generations : Dict String ℤ) (now : ℚ)
  | heartbeat (queryId : String) (generation : ℤ) (now : ℚ)
  | releaseQuery (queryId : String) (generation : ℤ)
  | expireQueries (now : ℚ)
  | updateNodeCapacities (capacities : List NodeCapacity)

def Call.exec : Call → Py ClusterQueryResourceCoordinator PUnit
  | registerQuery demand now => do
    let _ ← ClusterQueryResourceCoordinator.registerQuery demand now
    return ⟨⟩
  | refreshQuery queryId observedUsage generation now demand => do
    let _ ← ClusterQueryResourceCoordinator.refreshQuery queryId observedUsage generation now demand
    return ⟨⟩
  | refreshQueries usage generations now => do
    let _ ← ClusterQueryResourceCoordinator.refreshQueries usage generations now
    return ⟨⟩
  | heartbeat queryId generation now => do
    let _ ← ClusterQueryResourceCoordinator.heartbeat queryId generation now
    return ⟨⟩
  | releaseQuery queryId generation => do
    let _ ← ClusterQueryResourceCoordinator.releaseQuery queryId generation
    return ⟨⟩
  | expireQueries now => do
    let _ ← ClusterQueryResourceCoordinator.expireQueries now
    return ⟨⟩
  | updateNodeCapacities capacities =>
    ClusterQueryResourceCoordinator.updateNodeCapacities capacities

namespace Call

def staged (call : Call) (c : ClusterQueryResourceCoordinator)
    : Option ClusterQueryResourceCoordinator :=
  match call with
  | registerQuery demand now =>
    if c.queries.contains demand.queryId then none else some (c.staged demand now)
  | refreshQuery queryId observedUsage generation now demand =>
    match c.queries.find? queryId with
    | none => none
    | some s =>
      let demand := demand.getD s.demand
      if generation = s.allocation.generation ∧ demand.queryId = queryId then
        some (c.putQuery { s with demand, observedUsage, expiresAt := now + c.heartbeatTimeout })
      else
        none
  | refreshQueries usage generations now =>
    if usage.SameKeys generations ∧ usage.SameKeys c.queries.toDict ∧ c.queries.keys ≠ [] ∧
        ∀ s ∈ c.queries.values, generations.findD s.queryId 0 = s.allocation.generation then
      some (c.observe usage now)
    else
      none
  | heartbeat _ _ _ => none
  | releaseQuery queryId generation =>
    match c.queries.find? queryId with
    | none => none
    | some s => if generation = s.allocation.generation then some (c.removeQuery queryId) else none
  | expireQueries now =>
    if c.expired now = [] then none else
      some ((c.expired now).foldl ClusterQueryResourceCoordinator.removeQuery c)
  | updateNodeCapacities capacities =>
    match normalizeNodes capacities with
    | .error _ => none
    | .ok nodes => some { c with nodes }

def registers : Call → Bool
  | registerQuery _ _ => true
  | _ => false

variable {call : Call}

theorem rebalance_ensures_feasible (c : ClusterQueryResourceCoordinator) :
    Py.Ensures rebalance c
      (fun _ c' => c.Feasible ∧ c' = (rebalance c).2 ∧
        ∀ q ∈ c.queries.keys, ∃ s, c'.requireQuery q = .ok s)
      (fun _ c' => ¬c.Feasible ∧ c' = (rebalance c).2) := by
  unfold Py.Ensures
  by_cases h : c.Feasible
  . obtain ⟨r, c', hc', hr⟩ := rebalance_of_feasible h
    rw [hc']
    refine ⟨h, rfl, ?_⟩
    intro q hq
    obtain ⟨s, hs⟩ := mem_keys_iff.mp (hr.keys q hq)
    unfold requireQuery
    rw [hs]
    exact ⟨s, rfl⟩
  . obtain ⟨e, he⟩ := rebalance_of_not_feasible h
    generalize rebalance c = result at he
    obtain ⟨_, c'⟩ := result
    simp only at he
    subst he
    exact ⟨h, rfl⟩

theorem exec_ensures_staged (h : call.staged c = some c') :
    call.exec.Ensures c (fun _ c'' => c'.Feasible ∧ c'' = (rebalance c').2)
      (fun _ c'' => ¬c'.Feasible ∧ c'' = if call.registers then c else (rebalance c').2) := by
  cases call with
  | registerQuery demand now =>
    simp only [staged] at h
    split at h
    . cases h
    next hnew =>
      cases h
      have hrebalance := rebalance_ensures_feasible (c.staged demand now)
      simp only [exec, ClusterQueryResourceCoordinator.registerQuery, ensures_bind,
        ensures_get, ensures_pure]
      rw [if_neg hnew]
      unfold Py.Ensures at hrebalance
      split
      . next e c₁ hc₁ =>
        rw [hc₁] at hrebalance
        exact ⟨hrebalance.1, rfl⟩
      . next c₁ hc₁ =>
        rw [hc₁] at hrebalance
        obtain ⟨s, hs⟩ := hrebalance.2.2 demand.queryId (Dict.mem_keys_insert.mpr (.inl rfl))
        simp only [ensures_bind, Py.ensures_set, ensures_pure, hs, Py.ensures_lift_ok]
        rw [hc₁]
        exact ⟨hrebalance.1, rfl⟩
  | refreshQuery queryId observedUsage generation now demand =>
    simp only [staged] at h
    split at h
    . cases h
    next s hs =>
      split at h
      next hvalid =>
        cases h
        have hquery : c.requireQuery queryId = .ok s := by
          unfold requireQuery
          rw [hs]
        have hgeneration : requireGeneration s generation = .ok ⟨⟩ := by
          exact Except.raiseIf_of_not (not_not.mpr hvalid.1)
        simp only [exec, ClusterQueryResourceCoordinator.refreshQuery, ensures_bind,
          ensures_get, ensures_modify, ensures_pure, hquery, hgeneration,
          Py.ensures_lift_ok, Except.raiseIf_of_not (not_not.mpr hvalid.2)]
        refine (rebalance_ensures_feasible _).mono ?_ fun _ _ hnot => hnot
        rintro _ c₁ ⟨hfeasible, hc₁, hkeys⟩
        obtain ⟨s₁, hs₁⟩ := hkeys queryId (Dict.mem_keys_insert.mpr (.inl hvalid.2.symm))
        rw [Py.ensures_read]
        refine ⟨fun _ _ => ⟨hfeasible, hc₁⟩, fun e he => ?_⟩
        rw [hs₁] at he
        cases he
      next => cases h
  | refreshQueries usage generations now =>
    simp only [staged] at h
    split at h
    next hvalid =>
      cases h
      obtain ⟨hsame, hqueries, hne, hgenerations⟩ := hvalid
      have hchecks := Py.forEach_lift (l := c.queries.sorted.values)
        (f := fun s => requireGeneration s (generations.findD s.queryId 0))
        (by
          intro s hs
          have hmem : s ∈ c.queries.values :=
            ((c.queries.entries.sortBy_perm Prod.fst).map Prod.snd).mem_iff.mp hs
          exact Except.raiseIf_of_not (not_not.mpr (hgenerations s hmem))) c
      simp only [exec, ClusterQueryResourceCoordinator.refreshQueries, ensures_bind,
        ensures_get, ensures_modify, ensures_pure, Py.ensures_lift_ok,
        Except.raiseIf_of_not (not_not.mpr hsame), Except.raiseIf_of_not (not_not.mpr hqueries)]
      unfold Py.Ensures
      rw [hchecks]
      simp only
      rw [if_pos hne]
      show Py.Ensures (rebalance >>= fun _ => _) (c.observe usage now) _ _
      simp only [ensures_bind, ensures_get, ensures_pure]
      exact (rebalance_ensures_feasible _).mono (fun _ _ h => ⟨h.1, h.2.1⟩) fun _ _ hnot => hnot
    next => cases h
  | heartbeat queryId generation now => cases h
  | releaseQuery queryId generation =>
    simp only [staged] at h
    split at h
    . cases h
    next s hs =>
      split at h
      next hgeneration =>
        cases h
        simp only [exec, ClusterQueryResourceCoordinator.releaseQuery, ensures_bind,
          ensures_get, ensures_pure, hs]
        rw [if_neg (not_not.mpr hgeneration)]
        simp only [ensures_bind, ensures_modify, ensures_pure]
        exact (rebalance_ensures_feasible _).mono (fun _ _ h => ⟨h.1, h.2.1⟩) fun _ _ hnot => hnot
      next => cases h
  | expireQueries now =>
    simp only [staged] at h
    split at h
    . cases h
    next hexpired =>
      cases h
      simp only [exec, ClusterQueryResourceCoordinator.expireQueries, ensures_bind,
        ensures_get, ensures_modify, ensures_pure]
      rw [if_pos hexpired]
      simp only [ensures_bind, ensures_pure]
      exact (rebalance_ensures_feasible _).mono (fun _ _ h => ⟨h.1, h.2.1⟩) fun _ _ hnot => hnot
  | updateNodeCapacities capacities =>
    simp only [staged] at h
    split at h
    . cases h
    next nodes hnodes =>
      cases h
      simp only [exec, ClusterQueryResourceCoordinator.updateNodeCapacities, ensures_bind,
        ensures_modify, hnodes, Py.ensures_lift_ok]
      exact (rebalance_ensures_feasible _).mono (fun _ _ h => ⟨h.1, h.2.1⟩) fun _ _ hnot => hnot

inductive Renews (c : ClusterQueryResourceCoordinator) : ClusterQueryResourceCoordinator → Prop
  | same : Renews c c
  | renewed (s : QueryState) (hs : c.queries.find? s.queryId = some s) (expiresAt : ℚ) :
    Renews c (c.putQuery { s with expiresAt })

theorem find?_of_requireQuery {s : QueryState} (h : c.requireQuery q = .ok s) :
    c.queries.find? q = some s := by
  unfold requireQuery at h
  split at h
  . cases h
  . next s' hs' =>
    cases h
    exact hs'

theorem observe_of_no_queries (usage : Dict String ResourceVector) (now : ℚ)
    (h : c.queries.keys = []) : c.observe usage now = c := by
  have hentries : c.queries.entries = [] := List.map_eq_nil_iff.mp h
  have hqueries : c.queries.mapValues (fun s => { s with
      observedUsage := usage.findD s.queryId 0, expiresAt := now + c.heartbeatTimeout }) =
        c.queries.toDict := by
    apply Dict.ext
    simp [Dict.mapValues, hentries]
  unfold observe Table.modifyAll
  simp only [hqueries]

theorem exec_ensures_of_not_staged (h : call.staged c = none) :
    call.exec.Ensures c (fun _ c' => Renews c c') (fun _ c' => c' = c) := by
  cases call with
  | registerQuery demand now =>
    simp only [staged] at h
    split at h
    next hold =>
      simp only [exec, ClusterQueryResourceCoordinator.registerQuery, ensures_bind,
        ensures_get, ensures_pure]
      rw [if_pos hold]
      exact rfl
    next => cases h
  | refreshQuery queryId observedUsage generation now demand =>
    simp only [exec, ClusterQueryResourceCoordinator.refreshQuery, ensures_bind,
      ensures_get, ensures_modify, ensures_pure, Py.ensures_lift]
    refine ⟨fun s hs => ⟨fun _ hgeneration => ⟨fun _ hid => ?_, fun _ _ => trivial⟩, fun _ _ => trivial⟩,
      fun _ _ => trivial⟩
    exfalso
    simp only [staged, find?_of_requireQuery hs] at h
    rw [if_pos] at h
    . cases h
    . exact ⟨not_not.mp (Except.raiseIf_eq_ok_iff.mp hgeneration),
        not_not.mp (Except.raiseIf_eq_ok_iff.mp hid)⟩
  | refreshQueries usage generations now =>
    simp only [exec, ClusterQueryResourceCoordinator.refreshQueries, ensures_bind,
      ensures_get, ensures_modify, ensures_pure, Py.ensures_lift]
    refine ⟨fun _ hsame => ⟨fun _ hqueries => ?_, fun _ _ => trivial⟩, fun _ _ => trivial⟩
    refine Py.ensures_forEach_lift.mono ?_ fun _ _ hc' => hc'
    rintro _ _ ⟨rfl, hgenerations⟩
    split
    . next hne =>
      exfalso
      simp only [staged] at h
      rw [if_pos] at h
      . cases h
      . refine ⟨not_not.mp (Except.raiseIf_eq_ok_iff.mp hsame),
          not_not.mp (Except.raiseIf_eq_ok_iff.mp hqueries), hne, fun s hs => ?_⟩
        have hmem := ((Dict.entries _).sortBy_perm Prod.fst).map Prod.snd |>.mem_iff.mpr hs
        exact not_not.mp (Except.raiseIf_eq_ok_iff.mp (hgenerations s hmem))
    . next hempty =>
      rw [observe_of_no_queries usage now (not_not.mp hempty)]
      exact .same
  | heartbeat queryId generation now =>
    simp only [exec, ClusterQueryResourceCoordinator.heartbeat, ensures_bind, ensures_get,
      ensures_modify, ensures_pure, Py.ensures_lift]
    refine ⟨fun s hs => ⟨fun _ _ => ?_, fun _ _ => trivial⟩, fun _ _ => trivial⟩
    have hfind := find?_of_requireQuery hs
    exact .renewed s (c.queries.keyed _ s hfind ▸ hfind) _
  | releaseQuery queryId generation =>
    simp only [exec, ClusterQueryResourceCoordinator.releaseQuery, ensures_bind,
      ensures_get, ensures_pure]
    split
    . exact .same
    . next s hs =>
      simp only [staged, hs] at h
      split
      . exact .same
      . next hgeneration =>
        rw [if_pos (not_not.mp hgeneration)] at h
        cases h
  | expireQueries now =>
    simp only [staged] at h
    split at h
    next hexpired =>
      simp only [exec, ClusterQueryResourceCoordinator.expireQueries, ensures_bind,
        ensures_get, ensures_modify, ensures_pure]
      rw [if_neg (not_not.mpr hexpired), hexpired]
      exact .same
    next => cases h
  | updateNodeCapacities capacities =>
    simp only [exec, ClusterQueryResourceCoordinator.updateNodeCapacities, ensures_bind,
      ensures_modify, Py.ensures_lift]
    refine ⟨fun nodes hnodes => ?_, fun _ _ => trivial⟩
    simp only [staged, hnodes] at h
    cases h

theorem Renews.within (h : Renews c c') (hc : Within c) : Within c' := by
  cases h with
  | same => exact hc
  | renewed s hs expiresAt =>
    refine hc.of_same (by rfl) ?_
    intro q
    rw [find?_putQuery]
    split
    . next hq =>
      have hfind : c.queries.find? q = some s := by
        rw [hq]
        exact hs
      rw [hfind]
      rfl
    . rfl

theorem exec_ensures (call : Call) (h : Within c) :
    call.exec.Ensures c (fun _ c' => Within c') fun _ _ => True := by
  cases hstaged : call.staged c with
  | none =>
    exact (exec_ensures_of_not_staged hstaged).mono (fun _ _ hc' => hc'.within h) fun _ _ _ => trivial
  | some c₁ =>
    apply (exec_ensures_staged hstaged).mono
    . rintro _ c' ⟨hfeasible, rfl⟩
      obtain ⟨r, c₂, hc₂, hr⟩ := rebalance_of_feasible hfeasible
      rw [hc₂]
      exact hr.within
    . exact fun _ _ _ => trivial

end Call

theorem within_of_new {capacities : List NodeCapacity} {heartbeatTimeout : ℚ}
    (h : new capacities heartbeatTimeout = .ok c) : Within c := by
  obtain ⟨-, -, h⟩ := Except.ok_of_bind h
  obtain ⟨nodes, -, h⟩ := Except.ok_of_bind h
  cases h
  constructor
  . intro n
    exact zero_le
  all_goals
    intro s hs
    cases hs

theorem within_of_run {calls : List Call} (h : Within c)
    (hrun : Py.forEach calls Call.exec c = (.ok ⟨⟩, c')) : Within c' := by
  have hkeeps : (Py.forEach calls Call.exec).Ensures c (fun _ c' => Within c') fun _ _ => True := by
    clear hrun
    induction calls generalizing c with
    | nil => exact h
    | cons call calls ih =>
      show (call.exec >>= fun _ => Py.forEach calls Call.exec).Ensures c _ _
      rw [ensures_bind]
      exact (call.exec_ensures h).mono (fun _ _ hc' => ih hc') fun _ _ _ => trivial
  exact hkeeps.of_ok hrun

theorem capacity_never_oversold (capacities : List NodeCapacity) (heartbeatTimeout : ℚ)
    (c₀ c : ClusterQueryResourceCoordinator) (hnew : new capacities heartbeatTimeout = .ok c₀)
    (calls : List Call) (hrun : Py.forEach calls Call.exec c₀ = (.ok ⟨⟩, c)) :
    (∀ node ∈ c.nodes.values,
      (c.queries.values.map (·.allocation.onNode node.nodeId)).sum ≤ node.resources ∧
      (c.queries.values.map (·.nodeAllocations.amount id node.nodeId)).sum ≤ node.resources) ∧
    ∀ s ∈ c.queries.values,
      (∀ x ∈ s.allocation.nodeAllocations, x.nodeId ∈ c.nodes.keys) ∧
      (∀ n ∈ s.nodeAllocations.keys, n ∈ c.nodes.keys) ∧
      ∀ p ∈ s.allocation.actorPlacements, p.nodeId ∈ c.nodes.keys := by
  have h := within_of_run (within_of_new hnew) hrun
  refine ⟨?_, fun s hs => ⟨h.named s hs, (h.nodeAllocations s hs).2, h.placed s hs⟩⟩
  intro node hnode
  have hsum := h.sum node.nodeId
  rw [Nodes.capacity, Dict.amount_of_find? (Table.find?_key_of_mem hnode)] at hsum
  refine ⟨hsum, ?_⟩
  rw [List.map_congr_left fun s hs => (h.nodeAllocations s hs).1 node.nodeId]
  exact hsum

def actorBundle (actorIndex : ℕ) : ActorResourceBundle :=
  ⟨"s", actorIndex, { cpu := 1 }, by decide, by decide +kernel⟩

def oneActorOneTask : QueryDemand where
  queryId := "q"
  minimum := { cpu := 2 }
  desired := { cpu := 2 }
  weight := 1
  priority := 0
  actorBundles := [actorBundle 0]
  taskBundles := [{ cpu := 1 }]
  queryId_identifier := isIdentifier_q
  minimum_le_desired := le_refl _
  weight_pos := weight_one_pos
  nodup_actors := List.nodup_singleton _
  bundles_eq_minimum := by decide +kernel

theorem capacity_never_oversold_of_register :
    let node : NodeCapacity := ⟨"n", { cpu := 2 }, by decide⟩
    ∃ c₀ c, new [node] = .ok c₀ ∧
      Py.forEach [.registerQuery oneActorOneTask 0] Call.exec c₀ = (.ok ⟨⟩, c) ∧
      c.queries.keys = ["q"] ∧ c.nodes.values = [node] ∧
      (c.queries.values.map (·.allocation.onNode "n")).sum ≤ { cpu := 2 } := by
  intro node
  obtain ⟨c₀, hnew, hok, hkeys, hnodes⟩ : ∃ c₀, new [node] = .ok c₀ ∧
      (Py.forEach [.registerQuery oneActorOneTask 0] Call.exec c₀).1 = .ok ⟨⟩ ∧
      (Py.forEach [.registerQuery oneActorOneTask 0] Call.exec c₀).2.queries.keys = ["q"] ∧
      (Py.forEach [.registerQuery oneActorOneTask 0] Call.exec c₀).2.nodes.values = [node] :=
    ⟨_, rfl, by decide +kernel, by decide +kernel, by decide +kernel⟩
  have hrun := Prod.ext (x := Py.forEach [.registerQuery oneActorOneTask 0] Call.exec c₀)
    (y := (.ok ⟨⟩, (Py.forEach [.registerQuery oneActorOneTask 0] Call.exec c₀).2)) hok rfl
  refine ⟨c₀, _, hnew, hrun, hkeys, hnodes, ?_⟩
  have h := capacity_never_oversold [node] 30 c₀ _ hnew [.registerQuery oneActorOneTask 0] hrun
  exact (h.1 node (by rw [hnodes]; simp)).1

end ClusterQueryResourceCoordinator

end Vane
