import Vane.Ray.DrfLemmas

/-!
This module contains the theory of the rebalance: its passes move capacity and lose none of it.
-/

namespace Vane

open List (foldl_cons map_cons map_map map_nil mem_cons mem_map mem_map_of_mem mem_sortBy
  nodup_cons sum_cons)

namespace Rebalance

variable {nodes : Nodes} {r r' : Rebalance} {s : QueryState}
  {q : String} {loads : List (String × ResourceVector)} {l : List QueryState}
  {placements : List ActorPlacement} {t : Trial}

structure Balanced (nodes : Nodes) (r : Rebalance) : Prop where
  known : ∀ n, n ∈ r.remaining.keys ↔ n ∈ nodes.keys
  named : ∀ q held, r.nodeAllocations.find? q = some held → ∀ n ∈ held.keys, n ∈ nodes.keys
  total : ∀ n, (r.nodeAllocations.values.map (·.amount id n)).sum + r.remaining.capacity n =
    nodes.capacity n

theorem Balanced.initial (nodes : Nodes) (queryIds : List String) :
    Balanced nodes (.initial nodes queryIds) where
  known _ := Iff.rfl
  named := by
    intro q held hheld n hn
    simp only [Rebalance.initial, Dict.find?_ofKeys] at hheld
    split at hheld
    . cases hheld
      cases hn
    . cases hheld
  total n := by
    have hzero : ∀ held ∈ (Rebalance.initial nodes queryIds).nodeAllocations.values,
        held.amount id n = 0 := by
      intro held hheld
      obtain ⟨q, hq⟩ := Dict.mem_values_iff.mp hheld
      simp only [Rebalance.initial, Dict.find?_ofKeys] at hq
      split at hq
      . cases hq
        rfl
      . cases hq
    rw [List.map_congr_left hzero, List.map_const', List.sum_replicate, nsmul_zero, zero_add]
    rfl

theorem Balanced.charge (h : Balanced nodes r) {held : Dict String ResourceVector}
    (hheld : r.nodeAllocations.find? q = some held)
    (hcharged : (Trial.mk r.remaining held).Charged loads t) (hremaining : r'.remaining = t.remaining)
    (hallocations : r'.nodeAllocations = r.nodeAllocations.insert q t.allocations) :
    Balanced nodes r' where
  known n := by
    rw [hremaining, hcharged.nodes]
    exact h.known n
  named := by
    intro q' held' hheld' n hn
    rw [hallocations, Dict.find?_insert] at hheld'
    split at hheld'
    . cases hheld'
      rcases hcharged.named n hn with hn | hn
      . exact h.named q held hheld n hn
      . exact (h.known n).mp hn
    . exact h.named q' held' hheld' n hn
  total n := by
    have hbefore := h.total n
    rw [Dict.sum_values_eq, Dict.sum_erase _ hheld] at hbefore
    rw [hallocations, hremaining, Dict.sum_values_eq, Dict.sum_insert, hcharged.held, ← hbefore,
      ← hcharged.left n, add_assoc, add_assoc, add_assoc]
    congr 1
    rw [add_left_comm, add_comm (loadOn n loads) (t.remaining.capacity n)]

structure SameFor (q : String) (r r' : Rebalance) : Prop where
  allocations : r'.nodeAllocations.find? q = r.nodeAllocations.find? q
  placements : r'.actorPlacements.find? q = r.actorPlacements.find? q
  pinned : q ∈ r'.pinned ↔ q ∈ r.pinned
  lost : q ∈ r'.lost ↔ q ∈ r.lost
  admitted : q ∈ r'.admitted.map (·.queryId) ↔ q ∈ r.admitted.map (·.queryId)

theorem SameFor.refl (q : String) (r : Rebalance) : SameFor q r r :=
  ⟨rfl, rfl, Iff.rfl, Iff.rfl, Iff.rfl⟩

theorem SameFor.trans {r'' : Rebalance} (h : SameFor q r r') (h' : SameFor q r' r'') :
    SameFor q r r'' where
  allocations := h'.allocations.trans h.allocations
  placements := h'.placements.trans h.placements
  pinned := h'.pinned.trans h.pinned
  lost := h'.lost.trans h.lost
  admitted := h'.admitted.trans h.admitted

theorem pin_sameFor (hq : q ≠ s.queryId) (r : Rebalance) : SameFor q r (r.pin s) := by
  unfold pin
  split
  . exact ⟨rfl, rfl, Iff.rfl, by simp [hq], Iff.rfl⟩
  . split
    . exact .refl q r
    . split
      . exact ⟨rfl, rfl, Iff.rfl, by simp [hq], Iff.rfl⟩
      . exact ⟨Dict.find?_insert_of_ne _ _ hq, Dict.find?_insert_of_ne _ _ hq, by simp [hq],
          Iff.rfl, Iff.rfl⟩

theorem admitTasks_sameFor (hq : q ≠ s.queryId) (r : Rebalance) (t : Trial) :
    SameFor q r (r.admitTasks s t) := by
  unfold admitTasks
  split
  . exact .refl q r
  . exact ⟨Dict.find?_insert_of_ne _ _ hq, rfl, Iff.rfl, Iff.rfl, by simp [hq]⟩

theorem admitQuery_sameFor (hq : q ≠ s.queryId) (r : Rebalance) : SameFor q r (r.admitQuery s) := by
  unfold admitQuery
  simp only
  split
  . exact .refl q r
  . split
    . exact admitTasks_sameFor hq r _
    . split
      . exact .refl q r
      . apply SameFor.trans _ (admitTasks_sameFor hq _ _)
        exact ⟨rfl, Dict.find?_insert_of_ne _ _ hq, Iff.rfl, Iff.rfl, Iff.rfl⟩

theorem foldl_sameFor {step : Rebalance → QueryState → Rebalance}
    (hstep : ∀ s r, q ≠ s.queryId → SameFor q r (step r s))
    (hq : q ∉ l.map (·.queryId)) (r : Rebalance) : SameFor q r (l.foldl step r) := by
  induction l generalizing r with
  | nil => exact .refl q r
  | cons s l ih =>
    simp only [map_cons, mem_cons, not_or] at hq
    exact (hstep s r hq.1).trans (ih hq.2 _)

structure Holds (r : Rebalance) (s : QueryState) (placements : List ActorPlacement)
    (loads : List (String × ResourceVector)) : Prop where
  placements : r.actorPlacements.find? s.queryId = some placements
  allocations : ∃ held, r.nodeAllocations.find? s.queryId = some held ∧
    ∀ n, held.amount id n = loadOn n loads

theorem Holds.sameFor (h : Holds r s placements loads) (hsame : SameFor s.queryId r r') :
    Holds r' s placements loads where
  placements := hsame.placements.trans h.placements
  allocations := by
    rw [hsame.allocations]
    exact h.allocations

inductive PinOutcome (r : Rebalance) (s : QueryState) : Prop
  | free (hpinned : s.queryId ∉ r.pinned)
      (hplacements : r.actorPlacements.find? s.queryId = some [])
      (hallocations : r.nodeAllocations.find? s.queryId = some ∅)
  | kept (hpinned : s.queryId ∈ r.pinned) (hlost : s.queryId ∉ r.lost)
      (hplaced : s.actorPlacements ≠ [])
      (hbundles : ∀ p ∈ s.actorPlacements, ∃ b, s.demand.actorBundle? p.key = some b)
      (hholds : Holds r s s.actorPlacements (s.demand.loadsOf s.actorPlacements))

theorem PinOutcome.sameFor (h : PinOutcome r s) (hsame : SameFor s.queryId r r') :
    PinOutcome r' s := by
  cases h with
  | free hpinned hplacements hallocations =>
    exact .free (hsame.pinned.not.mpr hpinned) (hsame.placements.trans hplacements)
      (hsame.allocations.trans hallocations)
  | kept hpinned hlost hplaced hbundles hholds =>
    exact .kept (hsame.pinned.mpr hpinned) (hsame.lost.not.mpr hlost) hplaced hbundles
      (hholds.sameFor hsame)

structure Untouched (r : Rebalance) (s : QueryState) : Prop where
  placements : r.actorPlacements.find? s.queryId = some []
  allocations : r.nodeAllocations.find? s.queryId = some ∅
  pinned : s.queryId ∉ r.pinned
  lost : s.queryId ∉ r.lost
  admitted : s.queryId ∉ r.admitted.map (·.queryId)

theorem Untouched.sameFor (h : Untouched r s) (hsame : SameFor s.queryId r r') :
    Untouched r' s where
  placements := hsame.placements.trans h.placements
  allocations := hsame.allocations.trans h.allocations
  pinned := hsame.pinned.not.mpr h.pinned
  lost := hsame.lost.not.mpr h.lost
  admitted := hsame.admitted.not.mpr h.admitted

theorem pin_outcome (h : Untouched r s) : PinOutcome (r.pin s) s := by
  unfold pin
  split
  . exact .free h.pinned h.placements h.allocations
  . split
    . exact .free h.pinned h.placements h.allocations
    . next hplaced =>
      split
      . exact .free h.pinned h.placements h.allocations
      . next t ht =>
        obtain ⟨hcharged, hbundles⟩ := Trial.pinActors_charged ht
        refine .kept (by simp) h.lost hplaced hbundles ⟨Dict.find?_insert_self _ _ _, t.allocations,
          Dict.find?_insert_self _ _ _, ?_⟩
        intro n
        rw [hcharged.held, Dict.amount_empty, zero_add]

theorem Balanced.pin (hr : Balanced nodes r) (h : Untouched r s) : Balanced nodes (r.pin s) := by
  unfold Rebalance.pin
  split
  . exact ⟨hr.known, hr.named, hr.total⟩
  . split
    . exact hr
    . split
      . exact ⟨hr.known, hr.named, hr.total⟩
      . next t ht => exact hr.charge h.allocations (Trial.pinActors_charged ht).1 rfl rfl

theorem Balanced.foldl_pin (hnodup : (l.map (·.queryId)).Nodup)
    (hl : ∀ s ∈ l, Untouched r s) (hr : Balanced nodes r) :
    Balanced nodes (l.foldl Rebalance.pin r) := by
  induction l generalizing r with
  | nil => exact hr
  | cons s l ih =>
    simp only [map_cons, nodup_cons] at hnodup
    refine ih hnodup.2 ?_ (hr.pin (hl s (by simp)))
    intro q hq
    apply (hl q (by simp [hq])).sameFor
    apply pin_sameFor
    intro heq
    apply hnodup.1
    rw [← heq]
    exact mem_map_of_mem hq

theorem foldl_pin_outcome (hnodup : (l.map (·.queryId)).Nodup)
    (hs : s ∈ l) (h : Untouched r s) : PinOutcome (l.foldl pin r) s := by
  obtain ⟨before, after, rfl⟩ := List.append_of_mem hs
  simp only [List.map_append, map_cons, List.nodup_middle, nodup_cons,
    List.mem_append, not_or] at hnodup
  rw [List.foldl_append, foldl_cons]
  have hstep : ∀ q r, s.queryId ≠ q.queryId → SameFor s.queryId r (r.pin q) :=
    fun q r hq => pin_sameFor hq r
  have hbefore := foldl_sameFor hstep hnodup.1.1 r
  exact (pin_outcome (h.sameFor hbefore)).sameFor (foldl_sameFor hstep hnodup.1.2 _)

def ActorsFit (r : Rebalance) (s : QueryState) : Prop :=
  ((Trial.mk r.remaining ∅).placeActors s.demand.actorBundles).isSome

def MinimumFits (r : Rebalance) (s : QueryState) : Prop :=
  (((Trial.mk r.remaining ∅).placeActors s.demand.actorBundles).bind fun placed =>
    placed.1.placeTasks s.demand.taskBundles).isSome

def Strands (r : Rebalance) (s : QueryState) : Prop :=
  s.queryId ∉ r.lost ∧ s.queryId ∉ r.pinned ∧ s.demand.actorBundles ≠ [] ∧ r.ActorsFit s ∧
    ¬r.MinimumFits s

inductive Settled (r : Rebalance) (s : QueryState) : Prop
  | idle (hadmitted : s.queryId ∉ r.admitted.map (·.queryId)) (hholds : Holds r s [] [])
  | waiting (hadmitted : s.queryId ∉ r.admitted.map (·.queryId))
      (hbundles : ∀ p ∈ s.actorPlacements, ∃ b, s.demand.actorBundle? p.key = some b)
      (hholds : Holds r s s.actorPlacements (s.demand.loadsOf s.actorPlacements))
  | running (placements : List ActorPlacement) (hosts : List String)
      (hadmitted : s.queryId ∈ r.admitted.map (·.queryId))
      (hbundles : ∀ p ∈ placements, ∃ b, s.demand.actorBundle? p.key = some b)
      (hplaced : placements = s.actorPlacements ∧ s.actorPlacements ≠ [] ∨
        placements.map (·.key) = s.demand.actorBundles.map (·.key))
      (hhosts : hosts.length = s.demand.taskBundles.length)
      (hholds : Holds r s placements
        (s.demand.loadsOf placements ++ hosts.zip s.demand.taskBundles))

theorem Settled.sameFor (h : Settled r s) (hsame : SameFor s.queryId r r') : Settled r' s := by
  cases h with
  | idle hadmitted hholds => exact .idle (hsame.admitted.not.mpr hadmitted) (hholds.sameFor hsame)
  | waiting hadmitted hbundles hholds =>
    exact .waiting (hsame.admitted.not.mpr hadmitted) hbundles (hholds.sameFor hsame)
  | running placements hosts hadmitted hbundles hplaced hhosts hholds =>
    exact .running placements hosts (hsame.admitted.mpr hadmitted) hbundles hplaced hhosts
      (hholds.sameFor hsame)

theorem Settled.holds (h : Settled r s) : ∃ placements loads, Holds r s placements loads := by
  cases h with
  | idle _ hholds => exact ⟨_, _, hholds⟩
  | waiting _ _ hholds => exact ⟨_, _, hholds⟩
  | running _ _ _ _ _ _ hholds => exact ⟨_, _, hholds⟩

theorem bundles_of_keys {demand : QueryDemand}
    (h : placements.map (·.key) = demand.actorBundles.map (·.key)) :
    ∀ p ∈ placements, ∃ b, demand.actorBundle? p.key = some b := by
  intro p hp
  have hmem : p.key ∈ demand.actorBundles.map (·.key) := h ▸ mem_map_of_mem hp
  obtain ⟨b, hb, hkey⟩ := mem_map.mp hmem
  exact ⟨b.resources, hkey ▸ QueryDemand.actorBundle?_key hb⟩

theorem admitTasks_of_some {u : Trial}
    (hplacements : r.actorPlacements.find? s.queryId = some placements)
    (ht : ∀ n, t.allocations.amount id n = loadOn n loads)
    (hu : t.placeTasks s.demand.taskBundles = some u) :
    ∃ hosts : List String, hosts.length = s.demand.taskBundles.length ∧
      s.queryId ∈ (r.admitTasks s t).admitted.map (·.queryId) ∧
      Holds (r.admitTasks s t) s placements (loads ++ hosts.zip s.demand.taskBundles) := by
  obtain ⟨hosts, hhosts, hcharged⟩ := Trial.placeTasks_charged hu
  unfold admitTasks
  rw [hu]
  refine ⟨hosts, hhosts, by simp, hplacements, u.allocations, Dict.find?_insert_self _ _ _, ?_⟩
  intro n
  rw [hcharged.held, ht, loadOn_append]

theorem admitTasks_of_none (h : t.placeTasks s.demand.taskBundles = none) :
    r.admitTasks s t = r := by
  unfold admitTasks
  rw [h]

theorem loadOn_loadsOf_ne_zero {demand : QueryDemand}
    {p : ActorPlacement} (hp : p ∈ placements) {b : ResourceVector}
    (hb : demand.actorBundle? p.key = some b) (more : List (String × ResourceVector)) :
    loadOn p.nodeId (demand.loadsOf placements ++ more) ≠ 0 := by
  have hne : b ≠ 0 := by
    obtain ⟨bundle, -, rfl⟩ := Option.map_eq_some_iff.mp hb
    exact bundle.resources_ne_zero
  have hmem : (p.nodeId, b) ∈ demand.loadsOf placements ++ more := by
    apply List.mem_append_left
    apply mem_map.mpr
    exact ⟨p, hp, by rw [hb, Option.getD_some]⟩
  intro hzero
  have hle := le_loadOn hmem
  rw [hzero] at hle
  exact hne (le_antisymm hle zero_le)

theorem admitQuery_settled (h : PinOutcome r s) (hadmitted : s.queryId ∉ r.admitted.map (·.queryId))
    (hstrands : ¬r.Strands s) : Settled (r.admitQuery s) s := by
  unfold admitQuery
  simp only
  cases h with
  | kept hpinned hlost hplaced hbundles hholds =>
    obtain ⟨held, hheld, hamount⟩ := hholds.allocations
    rw [if_neg hlost, if_pos hpinned, Dict.findD, hheld, Option.getD_some]
    cases htasks : (Trial.mk r.remaining held).placeTasks s.demand.taskBundles with
    | none =>
      rw [admitTasks_of_none htasks]
      exact .waiting hadmitted hbundles hholds
    | some u =>
      obtain ⟨hosts, hhosts, hmem, hholds'⟩ := admitTasks_of_some hholds.placements hamount htasks
      exact .running _ hosts hmem hbundles (.inl ⟨rfl, hplaced⟩) hhosts hholds'
  | free hpinned hplacements hallocations =>
    have hidle : Settled r s := .idle hadmitted ⟨hplacements, ∅, hallocations, by simp⟩
    by_cases hlost : s.queryId ∈ r.lost
    . rw [if_pos hlost]
      exact hidle
    . rw [if_neg hlost, if_neg hpinned, Dict.findD, hallocations, Option.getD_some]
      cases hactors : (Trial.mk r.remaining ∅).placeActors s.demand.actorBundles with
      | none => exact hidle
      | some placed =>
        obtain ⟨t, placements⟩ := placed
        obtain ⟨hkeys, hcharged⟩ := Trial.placeActors_charged hactors
        have hheld : ∀ n, t.allocations.amount id n = loadOn n (s.demand.loadsOf placements) := by
          intro n
          rw [hcharged.held, Dict.amount_empty, zero_add]
        simp only
        generalize hr' : { r with
          actorPlacements := r.actorPlacements.insert s.queryId placements } = r'
        have hfind : r'.actorPlacements.find? s.queryId = some placements := by
          rw [← hr', Dict.find?_insert_self]
        cases htasks : t.placeTasks s.demand.taskBundles with
        | none =>
          -- Only a query without actors may fail here.
          have hnone : s.demand.actorBundles = [] := by
            by_contra hne
            apply hstrands
            refine ⟨hlost, hpinned, hne, ?_, ?_⟩
            . rw [ActorsFit, hactors]
              rfl
            . rw [MinimumFits, hactors, Option.bind_some, htasks]
              simp
          rw [hnone, map_nil, List.map_eq_nil_iff] at hkeys
          rw [hkeys] at hfind
          rw [admitTasks_of_none htasks]
          subst hr'
          exact .idle hadmitted ⟨hfind, ∅, hallocations, by simp⟩
        | some u =>
          obtain ⟨hosts, hhosts, hmem, hholds⟩ := admitTasks_of_some hfind hheld htasks
          exact .running _ hosts hmem (bundles_of_keys hkeys) (.inr hkeys) hhosts hholds

theorem admitQuery_stranded (h : PinOutcome r s) (hadmitted : s.queryId ∉ r.admitted.map (·.queryId))
    (hstrands : r.Strands s) :
    ∃ placements, placements ≠ [] ∧ Holds (r.admitQuery s) s placements [] ∧
      s.queryId ∉ (r.admitQuery s).admitted.map (·.queryId) := by
  obtain ⟨hlost, hpinned, hne, hactors, htasks⟩ := hstrands
  cases h with
  | kept hpinned' _ _ _ _ => contradiction
  | free _ hplacements hallocations =>
    unfold admitQuery
    simp only
    rw [if_neg hlost, if_neg hpinned, Dict.findD, hallocations, Option.getD_some]
    obtain ⟨⟨t, placements⟩, hplaced⟩ := Option.isSome_iff_exists.mp hactors
    have hnone : t.placeTasks s.demand.taskBundles = none := by
      rw [MinimumFits, hplaced, Option.bind_some, Option.isSome_iff_ne_none, not_not] at htasks
      exact htasks
    obtain ⟨hkeys, -⟩ := Trial.placeActors_charged hplaced
    rw [hplaced]
    simp only
    rw [admitTasks_of_none hnone]
    refine ⟨_, ?_, ⟨Dict.find?_insert_self _ _ _, ∅, hallocations, by simp⟩, hadmitted⟩
    intro hnil
    apply hne
    rw [hnil, map_nil] at hkeys
    exact List.map_eq_nil_iff.mp hkeys.symm

theorem Balanced.admitTasks (hr : Balanced nodes r) {held : Dict String ResourceVector}
    (hheld : r.nodeAllocations.find? s.queryId = some held)
    (ht : (Trial.mk r.remaining held).Charged loads t) : Balanced nodes (r.admitTasks s t) := by
  unfold Rebalance.admitTasks
  split
  . exact hr
  . next u hu =>
    obtain ⟨hosts, -, hcharged⟩ := Trial.placeTasks_charged hu
    exact hr.charge hheld (ht.trans hcharged) rfl rfl

theorem Balanced.admitQuery (hr : Balanced nodes r) (hs : s.queryId ∈ r.nodeAllocations.keys) :
    Balanced nodes (r.admitQuery s) := by
  obtain ⟨held, hheld⟩ := Dict.mem_keys_iff.mp hs
  unfold Rebalance.admitQuery
  rw [Dict.findD, hheld, Option.getD_some]
  simp only
  split
  . exact hr
  . split
    . exact hr.admitTasks hheld (.refl _)
    . split
      . exact hr
      . next t placements hactors =>
        have hr' : Balanced nodes
            { r with actorPlacements := r.actorPlacements.insert s.queryId placements } :=
          ⟨hr.known, hr.named, hr.total⟩
        exact hr'.admitTasks hheld (Trial.placeActors_charged hactors).2

theorem Balanced.foldl_admitQuery (hnodup : (l.map (·.queryId)).Nodup)
    (hl : ∀ s ∈ l, s.queryId ∈ r.nodeAllocations.keys) (hr : Balanced nodes r) :
    Balanced nodes (l.foldl Rebalance.admitQuery r) := by
  induction l generalizing r with
  | nil => exact hr
  | cons s l ih =>
    simp only [map_cons, nodup_cons] at hnodup
    refine ih hnodup.2 ?_ (hr.admitQuery (hl s (by simp)))
    intro q hq
    have hne : q.queryId ≠ s.queryId := by
      intro heq
      apply hnodup.1
      rw [← heq]
      exact mem_map_of_mem hq
    rw [Dict.mem_keys_iff, (admitQuery_sameFor hne r).allocations, ← Dict.mem_keys_iff]
    exact hl q (by simp [hq])

theorem admitQuery_admitted (r : Rebalance) (s : QueryState) :
    (r.admitQuery s).admitted = r.admitted ∨ (r.admitQuery s).admitted = r.admitted ++ [s] := by
  have htasks : ∀ (r : Rebalance) (t : Trial), (r.admitTasks s t).admitted = r.admitted ∨
      (r.admitTasks s t).admitted = r.admitted ++ [s] := by
    intro r t
    unfold admitTasks
    split
    . exact .inl rfl
    . exact .inr rfl
  unfold admitQuery
  simp only
  split
  . exact .inl rfl
  . split
    . exact htasks r _
    . split
      . exact .inl rfl
      . exact htasks { r with actorPlacements := _ } _

theorem foldl_admitQuery_admitted (l : List QueryState) (r : Rebalance) :
    ∃ l', l'.Sublist l ∧ (l.foldl admitQuery r).admitted = r.admitted ++ l' := by
  induction l generalizing r with
  | nil => exact ⟨[], .slnil, by simp⟩
  | cons s l ih =>
    obtain ⟨l', hsub, hl'⟩ := ih (r.admitQuery s)
    rw [foldl_cons, hl']
    rcases admitQuery_admitted r s with h | h
    . exact ⟨l', hsub.cons s, by rw [h]⟩
    . exact ⟨s :: l', hsub.cons_cons s, by rw [h, List.append_assoc, List.singleton_append]⟩

structure Grows (r r' : Rebalance) : Prop where
  placements : r'.actorPlacements = r.actorPlacements
  pinned : r'.pinned = r.pinned
  lost : r'.lost = r.lost
  admitted : r'.admitted = r.admitted
  queries : ∀ q ∈ r.nodeAllocations.keys, q ∈ r'.nodeAllocations.keys
  holds : ∀ {s placements loads}, Holds r s placements loads →
    ∃ more, Holds r' s placements (loads ++ more)
  balanced : ∀ {nodes}, Balanced nodes r → Balanced nodes r'

theorem Grows.refl (r : Rebalance) : Grows r r where
  placements := rfl
  pinned := rfl
  lost := rfl
  admitted := rfl
  queries _ h := h
  holds h := ⟨[], by rwa [List.append_nil]⟩
  balanced h := h

theorem Grows.trans {r'' : Rebalance} (h : Grows r r') (h' : Grows r' r'') : Grows r r'' where
  placements := h'.placements.trans h.placements
  pinned := h'.pinned.trans h.pinned
  lost := h'.lost.trans h.lost
  admitted := h'.admitted.trans h.admitted
  queries q hq := h'.queries q (h.queries q hq)
  holds hholds := by
    obtain ⟨more, hmore⟩ := h.holds hholds
    obtain ⟨more', hmore'⟩ := h'.holds hmore
    exact ⟨more ++ more', by rwa [← List.append_assoc]⟩
  balanced hr := h'.balanced (h.balanced hr)

section Extras

variable {extras : Dict String ResourceVector}

structure PaidFor (request : ResourceVector) (r r' : Rebalance) : Prop where
  heapBytes : r'.remaining.total.heapBytes + request.heapBytes = r.remaining.total.heapBytes
  objectStoreBytes : r'.remaining.total.objectStoreBytes + request.objectStoreBytes =
    r.remaining.total.objectStoreBytes

theorem placeExtra_ok (hs : s.queryId ∈ r.nodeAllocations.keys)
    (h : Placeable (extras.amount id s.queryId) r.remaining) :
    ∃ r', placeExtra extras r s = .ok r' ∧ Grows r r' ∧
      PaidFor (extras.amount id s.queryId) r r' ∧
      (∀ {q : QueryState} {placements loads}, q.queryId = s.queryId → Holds r q placements loads →
        ∃ more, Holds r' q placements (loads ++ more) ∧
          (more.map Prod.snd).sum ≤ extras.amount id s.queryId) ∧
      ∀ q ≠ s.queryId, r'.nodeAllocations.find? q = r.nodeAllocations.find? q := by
  obtain ⟨held, hheld⟩ := Dict.mem_keys_iff.mp hs
  obtain ⟨placed, remaining, loads, hplaced, hspec⟩ :=
    (placeDivisible_spec (extras.amount id s.queryId) r.remaining).1 h
  unfold placeExtra
  rw [Dict.findD_zero, hplaced, Dict.findD, hheld, Option.getD_some]
  have hcharged : (Trial.mk r.remaining held).Charged loads ⟨remaining,
      placed.entries.foldl (fun d e => d.update e.1 0 (· + e.2)) held⟩ := by
    refine ⟨hspec.charged.nodes, hspec.charged.known, ?_, ?_, hspec.charged.left⟩
    . intro n hn
      rcases mem_keys_foldl_update hn with hn | hn
      . exact .inl hn
      . exact .inr ((hspec.charged.named n hn).resolve_left (by simp [Dict.keys]))
    . intro n
      have hamount := hspec.charged.held n
      rw [Dict.amount_empty, zero_add] at hamount
      rw [amount_foldl_update, loadOn_entries, hamount]
  have hown : ∀ {q : QueryState} {placements loads'}, q.queryId = s.queryId →
      Holds r q placements loads' → Holds { r with
        remaining
        nodeAllocations := r.nodeAllocations.insert s.queryId
          (placed.entries.foldl (fun d e => d.update e.1 0 (· + e.2)) held) } q placements
        (loads' ++ loads) := by
    intro q placements loads' hq hholds
    obtain ⟨held', hheld', hamount⟩ := hholds.allocations
    rw [hq, hheld] at hheld'
    cases hheld'
    refine ⟨hholds.placements, _, by rw [hq]; exact Dict.find?_insert_self _ _ _, ?_⟩
    intro n
    rw [hcharged.held, hamount, loadOn_append]
  refine ⟨_, rfl, ⟨rfl, rfl, rfl, rfl, ?_, ?_, ?_⟩, ⟨?_, ?_⟩, ?_, ?_⟩
  . intro q hq
    exact Dict.mem_keys_insert.mpr (.inr hq)
  . intro q placements loads' hholds
    by_cases hq : q.queryId = s.queryId
    . exact ⟨loads, hown hq hholds⟩
    . obtain ⟨held', hheld', hamount⟩ := hholds.allocations
      refine ⟨[], hholds.placements, held', ?_, by simpa using hamount⟩
      rw [Dict.find?_insert_of_ne _ _ hq]
      exact hheld'
  . intro nodes hr
    exact hr.charge hheld hcharged rfl rfl
  . rw [← hspec.heapBytes]
    exact congrArg ResourceVector.heapBytes hspec.charged.spent
  . rw [← hspec.objectStoreBytes]
    exact congrArg ResourceVector.objectStoreBytes hspec.charged.spent
  . intro q placements loads' hq hholds
    exact ⟨loads, hown hq hholds, hspec.le_request⟩
  . intro q hq
    exact Dict.find?_insert_of_ne _ _ hq

theorem placeExtra_isOk_iff (hs : s.queryId ∈ r.nodeAllocations.keys) :
    (∃ r', placeExtra extras r s = .ok r') ↔
      Placeable (extras.amount id s.queryId) r.remaining := by
  constructor
  . rintro ⟨r', hr'⟩
    by_contra h
    unfold placeExtra at hr'
    rw [Dict.findD_zero, (placeDivisible_spec _ _).2 h] at hr'
    cases hr'
  . intro h
    obtain ⟨r', hr', -⟩ := placeExtra_ok hs h
    exact ⟨r', hr'⟩

theorem foldlM_placeExtra_spec {l : List QueryState}
    (hl : ∀ s ∈ l, s.queryId ∈ r.nodeAllocations.keys)
    (h : l.foldlM (placeExtra extras) r = .ok r') :
    Grows r r' ∧ PaidFor (Drf.given l extras) r r' ∧
      ∀ q ∉ l.map (·.queryId), r'.nodeAllocations.find? q = r.nodeAllocations.find? q := by
  induction l generalizing r with
  | nil =>
    cases h
    exact ⟨.refl _, ⟨rfl, rfl⟩, fun _ _ => rfl⟩
  | cons s l ih =>
    rw [List.foldlM_cons] at h
    obtain ⟨u, hu, h⟩ := Except.ok_of_bind h
    have hs := hl s (by simp)
    obtain ⟨u', hu', hgrows, hpaid, -, hother⟩ :=
      placeExtra_ok hs ((placeExtra_isOk_iff hs).mp ⟨u, hu⟩)
    rw [hu] at hu'
    cases hu'
    obtain ⟨hgrows', hpaid', hother'⟩ := ih (fun q hq => hgrows.queries _ (hl q (by simp [hq]))) h
    refine ⟨hgrows.trans hgrows', ⟨?_, ?_⟩, ?_⟩
    . rw [← hpaid.heapBytes, ← hpaid'.heapBytes]
      simp only [Drf.given, map_cons, sum_cons, ResourceVector.heapBytes_add]
      omega
    . rw [← hpaid.objectStoreBytes, ← hpaid'.objectStoreBytes]
      simp only [Drf.given, map_cons, sum_cons, ResourceVector.objectStoreBytes_add]
      omega
    . intro q hq
      simp only [map_cons, mem_cons, not_or] at hq
      rw [hother' q hq.2, hother q hq.1]

theorem foldlM_placeExtra_holds {l : List QueryState} (hnodup : (l.map (·.queryId)).Nodup)
    (hl : ∀ s ∈ l, s.queryId ∈ r.nodeAllocations.keys)
    (h : l.foldlM (placeExtra extras) r = .ok r') {placements : List ActorPlacement}
    {loads : List (String × ResourceVector)} (hs : s.queryId ∈ l.map (·.queryId))
    (hholds : Holds r s placements loads) :
    ∃ more, Holds r' s placements (loads ++ more) ∧
      (more.map Prod.snd).sum ≤ extras.amount id s.queryId := by
  induction l generalizing r with
  | nil => cases hs
  | cons q l ih =>
    rw [List.foldlM_cons] at h
    obtain ⟨u, hu, h⟩ := Except.ok_of_bind h
    rw [map_cons, nodup_cons] at hnodup
    have hq := hl q (by simp)
    obtain ⟨u', hu', hgrows, -, hown, hother⟩ :=
      placeExtra_ok hq ((placeExtra_isOk_iff hq).mp ⟨u, hu⟩)
    rw [hu] at hu'
    cases hu'
    have hl' : ∀ s ∈ l, s.queryId ∈ u.nodeAllocations.keys :=
      fun s hs => hgrows.queries _ (hl s (by simp [hs]))
    by_cases hid : s.queryId = q.queryId
    . obtain ⟨more, hmore, hle⟩ := hown hid hholds
      obtain ⟨hgrows', -, hother'⟩ := foldlM_placeExtra_spec hl' h
      obtain ⟨held, hheld, hamount⟩ := hmore.allocations
      refine ⟨more, ⟨hgrows'.placements ▸ hmore.placements, held, ?_, hamount⟩, hid ▸ hle⟩
      rw [hother' _ (hid ▸ hnodup.1)]
      exact hheld
    . obtain ⟨held, hheld, hamount⟩ := hholds.allocations
      apply ih hnodup.2 hl' h ((mem_cons.mp hs).resolve_left hid)
      refine ⟨hgrows.placements ▸ hholds.placements, held, ?_, hamount⟩
      rw [hother _ hid]
      exact hheld

end Extras

def ExtrasFit (r : Rebalance) (nodes : Nodes) : Prop :=
  ∀ before s after r', r.admitted = before ++ s :: after →
    before.foldlM (placeExtra (r.extras nodes)) r = .ok r' →
    ((r.extras nodes).amount id s.queryId).gpu ≤ epsilon ∧
      ((r.extras nodes).amount id s.queryId).cpu ≤
        epsilon + Division.usable .cpu r'.remaining.values

theorem placeExtras_isOk_iff (hnodup : (r.admitted.map (·.queryId)).Nodup)
    (hadmitted : ∀ s ∈ r.admitted, s.queryId ∈ r.nodeAllocations.keys) :
    (∃ r', r.placeExtras nodes = .ok r') ↔ r.ExtrasFit nodes := by
  unfold placeExtras ExtrasFit
  rw [Except.foldlM_isOk_iff]
  have hturn : ∀ before s after r', r.admitted = before ++ s :: after →
      before.foldlM (placeExtra (r.extras nodes)) r = .ok r' →
      ((∃ r'', placeExtra (r.extras nodes) r' s = .ok r'') ↔
        ((r.extras nodes).amount id s.queryId).gpu ≤ epsilon ∧
          ((r.extras nodes).amount id s.queryId).cpu ≤
            epsilon + Division.usable .cpu r'.remaining.values) := by
    intro before s after r' hsplit hr'
    obtain ⟨hgrows, hpaid, -⟩ := foldlM_placeExtra_spec
      (fun q hq => hadmitted q (by rw [hsplit]; simp [hq])) hr'
    rw [placeExtra_isOk_iff (hgrows.queries _ (hadmitted s (by rw [hsplit]; simp)))]
    -- There are always enough bytes, since the parts fit into the spare capacity together.
    have hgiven : Drf.given r.admitted (r.extras nodes) ≤ r.remaining.total :=
      Drf.weightedExtras_given_le hnodup
    have hpart : Drf.given r.admitted (r.extras nodes) = Drf.given before (r.extras nodes) +
        ((r.extras nodes).amount id s.queryId + Drf.given after (r.extras nodes)) := by
      rw [hsplit]
      simp [Drf.given]
    rw [hpart] at hgiven
    obtain ⟨-, -, hheap, hstore⟩ := hgiven
    simp only [ResourceVector.heapBytes_add, ResourceVector.objectStoreBytes_add,
      ← hpaid.heapBytes, ← hpaid.objectStoreBytes] at hheap hstore
    constructor
    . exact fun h => ⟨h.1, h.2.1⟩
    . exact fun h => ⟨h.1, h.2, by omega, by omega⟩
  constructor
  . intro h before s after r' hsplit hr'
    exact (hturn before s after r' hsplit hr').mp (h before s after r' hsplit hr')
  . intro h before s after r' hsplit hr'
    exact (hturn before s after r' hsplit hr').mpr (h before s after r' hsplit hr')

structure Shows (a : QueryAllocation) (held : Dict String ResourceVector)
    (placements : List ActorPlacement) : Prop where
  resources : a.resources = held.values.sum
  actors : a.actorPlacements = placements
  onNode : ∀ n, a.onNode n = held.amount id n
  named : ∀ x ∈ a.nodeAllocations, x.nodeId ∈ held.keys
  hosted : ∀ p ∈ placements, held.amount id p.nodeId ≠ 0

section Allocation

variable {q : String} {held : Dict String ResourceVector} {placements : List ActorPlacement}
  {generation : ℕ}

theorem mapM_nodeAllocation (hnames : ∀ n ∈ held.keys, IsIdentifier n) :
    ∃ l, (held.sortKeys.filterValues (· ≠ 0)).entries.mapM
        (fun e => NodeResourceAllocation.make e.1 e.2) = .ok l ∧
      l.map (fun x => (x.nodeId, x.resources)) = (held.sortKeys.filterValues (· ≠ 0)).entries := by
  apply Except.mapM_exists
  intro e he
  have hfind := Dict.find?_eq_some_iff.mpr he
  rw [Dict.find?_filterValues, Option.filter_eq_some_iff, Dict.find?_sortKeys] at hfind
  have hname := hnames e.1 (Dict.mem_keys_iff.mpr ⟨_, hfind.1⟩)
  have hne : e.2 ≠ 0 := by simpa using hfind.2
  unfold NodeResourceAllocation.make
  simp only [hname.1]
  rw [dif_neg hname.2, dif_neg hne]
  exact ⟨_, rfl, rfl⟩

theorem allocation_eq (hheld : r.nodeAllocations.find? q = some held)
    (hplacements : r.actorPlacements.find? q = some placements) {l : List NodeResourceAllocation}
    (hl : (held.sortKeys.filterValues (· ≠ 0)).entries.mapM
        (fun e => NodeResourceAllocation.make e.1 e.2) = .ok l) :
    r.allocation generation q = QueryAllocation.make held.values.sum l placements generation := by
  unfold allocation
  simp only [Dict.findD, hheld, hplacements, Option.getD_some]
  rw [hl]
  rfl

theorem mem_nodeIds_iff {l : List NodeResourceAllocation}
    (hl : l.map (fun x => (x.nodeId, x.resources)) =
      (held.sortKeys.filterValues (· ≠ 0)).entries) (n : String) :
    n ∈ l.map (·.nodeId) ↔ held.amount id n ≠ 0 := by
  rw [← Dict.amount_sortKeys, ← Dict.mem_keys_filterValues_iff, Dict.keys, ← hl, map_map]
  rfl

theorem allocation_shows (hheld : r.nodeAllocations.find? q = some held)
    (hplacements : r.actorPlacements.find? q = some placements)
    (hnames : ∀ n ∈ held.keys, IsIdentifier n) {a : QueryAllocation}
    (h : r.allocation generation q = .ok a) : Shows a held placements := by
  obtain ⟨l, hl, hentries⟩ := mapM_nodeAllocation hnames
  rw [allocation_eq hheld hplacements hl] at h
  obtain ⟨hresources, hnodes, hactors, -⟩ := QueryAllocation.make_eq_ok h
  refine ⟨hresources, hactors, ?_, ?_, ?_⟩
  . intro n
    rw [QueryAllocation.onNode, hnodes, hentries, loadOn_entries,
      Dict.amount_filterValues (by simp), Dict.amount_sortKeys]
  . intro x hx
    rw [hnodes] at hx
    exact Dict.mem_keys_of_amount_ne_zero
      ((mem_nodeIds_iff hentries x.nodeId).mp (mem_map_of_mem hx))
  . intro p hp
    rw [← mem_nodeIds_iff hentries, ← hnodes]
    exact a.placed_on_nodes p (hactors ▸ hp)

theorem allocation_isOk (hheld : r.nodeAllocations.find? q = some held)
    (hplacements : r.actorPlacements.find? q = some placements)
    (hnames : ∀ n ∈ held.keys, IsIdentifier n) (hgeneration : 0 < generation)
    (hactors : (placements.map (·.key)).Nodup)
    (hhosted : ∀ p ∈ placements, held.amount id p.nodeId ≠ 0) :
    ∃ a, r.allocation generation q = .ok a := by
  obtain ⟨l, hl, hentries⟩ := mapM_nodeAllocation hnames
  rw [allocation_eq hheld hplacements hl]
  apply QueryAllocation.make_isOk
  . exact_mod_cast hgeneration
  . have hnodup := (held.sortKeys.filterValues (· ≠ 0)).nodup_keys
    rw [Dict.keys, ← hentries, map_map] at hnodup
    exact hnodup
  . rw [← Dict.sum_values_sortKeys, ← Dict.sum_values_filterValues, Dict.values, ← hentries,
      map_map]
    rfl
  . exact hactors
  . intro p hp
    exact (mem_nodeIds_iff hentries _).mpr (hhosted p hp)

end Allocation

end Rebalance

namespace ClusterQueryResourceCoordinator

open Rebalance

variable {c : ClusterQueryResourceCoordinator} {s : QueryState}

theorem nodup_queryIds {κ : Type} [LinearOrder κ] (c : ClusterQueryResourceCoordinator)
    (key : QueryState → κ) : ((c.queries.values.sortBy key).map (·.queryId)).Nodup := by
  rw [((c.queries.values.sortBy_perm key).map _).nodup_iff, c.queries.map_key_values]
  exact c.queries.nodup_keys

theorem mem_admissionOrder : s ∈ c.admissionOrder ↔ s ∈ c.queries.values := mem_sortBy

theorem untouched_initial (hs : s ∈ c.queries.values) :
    Untouched (.initial c.nodes c.queries.keys) s := by
  have hmem : s.queryId ∈ c.queries.keys := by
    rw [← c.queries.map_key_values]
    exact mem_map_of_mem hs
  constructor
  . simp [Rebalance.initial, Dict.find?_ofKeys, hmem]
  . simp [Rebalance.initial, Dict.find?_ofKeys, hmem]
  . simp [Rebalance.initial]
  . simp [Rebalance.initial]
  . simp [Rebalance.initial]

theorem pinnedPass_outcome (hs : s ∈ c.queries.values) : PinOutcome c.pinnedPass s :=
  foldl_pin_outcome (c.nodup_queryIds _) (mem_sortBy.mpr hs) (untouched_initial hs)

theorem pinnedPass_balanced (c : ClusterQueryResourceCoordinator) : Balanced c.nodes c.pinnedPass :=
  .foldl_pin (c.nodup_queryIds _) (fun _ hs => untouched_initial (mem_sortBy.mp hs)) (.initial _ _)

theorem foldl_pin_admitted (l : List QueryState) (r : Rebalance) :
    (l.foldl pin r).admitted = r.admitted := by
  induction l generalizing r with
  | nil => rfl
  | cons s l ih =>
    rw [foldl_cons, ih]
    unfold pin
    split
    . rfl
    . split
      . rfl
      . split <;> rfl

theorem pinnedPass_admitted (c : ClusterQueryResourceCoordinator) : c.pinnedPass.admitted = [] :=
  foldl_pin_admitted _ _

theorem admissionPass_balanced (c : ClusterQueryResourceCoordinator) :
    Balanced c.nodes c.admissionPass := by
  apply Balanced.foldl_admitQuery (c.nodup_queryIds _) _ c.pinnedPass_balanced
  intro s hs
  rw [Dict.mem_keys_iff]
  cases pinnedPass_outcome (mem_sortBy.mp hs) with
  | free _ _ hallocations => exact ⟨_, hallocations⟩
  | kept _ _ _ _ hholds =>
    obtain ⟨held, hheld, -⟩ := hholds.allocations
    exact ⟨held, hheld⟩

theorem nodup_admitted (c : ClusterQueryResourceCoordinator) :
    (c.admissionPass.admitted.map (·.queryId)).Nodup := by
  obtain ⟨l, hsub, hl⟩ := foldl_admitQuery_admitted c.admissionOrder c.pinnedPass
  unfold admissionPass
  rw [hl, pinnedPass_admitted, List.nil_append]
  exact (c.nodup_queryIds _).sublist (hsub.map _)

def turn (c : ClusterQueryResourceCoordinator) (before : List QueryState) : Rebalance :=
  before.foldl admitQuery c.pinnedPass

def Stranded (c : ClusterQueryResourceCoordinator) (s : QueryState) : Prop :=
  ∃ before after, c.admissionOrder = before ++ s :: after ∧ (c.turn before).Strands s

theorem turn_spec {before after : List QueryState} (h : c.admissionOrder = before ++ s :: after) :
    SameFor s.queryId c.pinnedPass (c.turn before) ∧ PinOutcome (c.turn before) s ∧
      s.queryId ∉ (c.turn before).admitted.map (·.queryId) ∧
      SameFor s.queryId ((c.turn before).admitQuery s) c.admissionPass := by
  have hs : s ∈ c.queries.values := mem_admissionOrder.mp (by simp [h])
  have hnodup : (c.admissionOrder.map (·.queryId)).Nodup := c.nodup_queryIds _
  simp only [h, List.map_append, map_cons, List.nodup_middle, nodup_cons,
    List.mem_append, not_or] at hnodup
  have hstep : ∀ q r, s.queryId ≠ q.queryId → SameFor s.queryId r (r.admitQuery q) :=
    fun q r hq => admitQuery_sameFor hq r
  have hbefore := foldl_sameFor hstep hnodup.1.1 c.pinnedPass
  refine ⟨hbefore, (pinnedPass_outcome hs).sameFor hbefore, ?_, ?_⟩
  . apply hbefore.admitted.not.mpr
    simp [pinnedPass_admitted]
  . unfold admissionPass
    rw [h, List.foldl_append, foldl_cons]
    exact foldl_sameFor hstep hnodup.1.2 _

theorem settled_of_not_stranded (hs : s ∈ c.queries.values) (h : ¬c.Stranded s) :
    Settled c.admissionPass s := by
  obtain ⟨before, after, horder⟩ := List.append_of_mem (mem_admissionOrder.mpr hs)
  obtain ⟨-, hpin, hadmitted, hsame⟩ := turn_spec horder
  exact (admitQuery_settled hpin hadmitted fun hs => h ⟨before, after, horder, hs⟩).sameFor hsame

theorem Stranded.holds (h : c.Stranded s) :
    ∃ placements, placements ≠ [] ∧ Holds c.admissionPass s placements [] ∧
      s.queryId ∉ c.admissionPass.admitted.map (·.queryId) := by
  obtain ⟨before, after, horder, hstrands⟩ := h
  obtain ⟨-, hpin, hadmitted, hsame⟩ := turn_spec horder
  obtain ⟨placements, hne, hholds, hnot⟩ := admitQuery_stranded hpin hadmitted hstrands
  exact ⟨placements, hne, hholds.sameFor hsame, hsame.admitted.not.mpr hnot⟩

end ClusterQueryResourceCoordinator

end Vane
