import Vane.Ray.Coordinator

/-! This module contains the theory of placing bundles and divisible amounts. -/

namespace Vane

variable (request : ResourceVector)

abbrev Nodes.capacity (nodes : Nodes) (n : String) : ResourceVector :=
  nodes.amount NodeCapacity.resources n

abbrev Nodes.total (nodes : Nodes) : ResourceVector := (nodes.values.map NodeCapacity.resources).sum

def QueryDemand.loadsOf (demand : QueryDemand) (placements : List ActorPlacement)
    : List (String × ResourceVector) :=
  placements.map fun p => (p.nodeId, (demand.actorBundle? p.key).getD 0)

theorem QueryDemand.actorBundle?_key {demand : QueryDemand} {bundle : ActorResourceBundle}
    (h : bundle ∈ demand.actorBundles) :
    demand.actorBundle? bundle.key = some bundle.resources := by
  unfold actorBundle?
  have hsome : (demand.actorBundles.find? (·.key = bundle.key)).isSome := by
    rw [List.find?_isSome]
    exact ⟨bundle, h, by simp⟩
  obtain ⟨b, hb⟩ := Option.isSome_iff_exists.mp hsome
  have hkey : b.key = bundle.key := by simpa using List.find?_some hb
  have heq : b = bundle :=
    List.inj_on_of_nodup_map demand.nodup_actors (List.mem_of_find?_eq_some hb) h hkey
  rw [hb, heq]
  rfl

namespace Trial

variable {t t' t'' : Trial} {loads loads' : List (String × ResourceVector)} {demand : QueryDemand}
  {placements : List ActorPlacement}

structure Charged (t : Trial) (loads : List (String × ResourceVector)) (t' : Trial) : Prop where
  nodes : ∀ n, n ∈ t'.remaining.keys ↔ n ∈ t.remaining.keys
  known : ∀ load ∈ loads, load.1 ∈ t.remaining.keys
  named : ∀ n ∈ t'.allocations.keys, n ∈ t.allocations.keys ∨ n ∈ t.remaining.keys
  held : ∀ n, t'.allocations.amount id n = t.allocations.amount id n + loadOn n loads
  left : ∀ n, t'.remaining.capacity n + loadOn n loads = t.remaining.capacity n

theorem Charged.refl (t : Trial) : t.Charged [] t where
  nodes _ := Iff.rfl
  known := by simp
  named _ := .inl
  held n := by simp
  left n := by simp

theorem Charged.trans (h : t.Charged loads t') (h' : t'.Charged loads' t'') :
    t.Charged (loads ++ loads') t'' where
  nodes n := (h'.nodes n).trans (h.nodes n)
  known := by
    intro load hload
    rcases List.mem_append.mp hload with hload | hload
    . exact h.known load hload
    . exact (h.nodes _).mp (h'.known load hload)
  named := by
    intro n hn
    rcases h'.named n hn with hn | hn
    . exact h.named n hn
    . exact .inr ((h.nodes n).mp hn)
  held n := by rw [h'.held, h.held, loadOn_append, add_assoc]
  left n := by rw [← h.left, ← h'.left, loadOn_append, add_assoc, add_comm (loadOn n loads')]

theorem Charged.spent (h : t.Charged loads t') :
    t'.remaining.total + (loads.map Prod.snd).sum = t.remaining.total := by
  have hperm : t'.remaining.keys.Perm t.remaining.keys :=
    (List.perm_ext_iff_of_nodup t'.remaining.nodup_keys t.remaining.nodup_keys).mpr h.nodes
  unfold Nodes.total
  rw [Dict.sum_values_eq_sum_amount, Dict.sum_values_eq_sum_amount, ← sum_loadOn
    t.remaining.nodup_keys h.known, (hperm.map _).sum_eq, ← List.sum_map_add]
  congr 1
  apply List.map_congr_left
  intro n _
  exact h.left n

theorem charge_charged {node : NodeCapacity} (hnode : t.remaining.find? node.nodeId = some node)
    {vector : ResourceVector} (hfits : vector ≤ node.resources) :
    t.Charged [(node.nodeId, vector)] (t.charge node vector) where
  nodes n := by
    have hmem : node.nodeId ∈ t.remaining.keys := Dict.mem_keys_iff.mpr ⟨node, hnode⟩
    simp only [charge, Table.put, Dict.mem_keys_insert]
    constructor
    . rintro (rfl | hn)
      . exact hmem
      . exact hn
    . exact .inr
  known := by
    intro load hload
    rw [List.mem_singleton.mp hload]
    exact Dict.mem_keys_iff.mpr ⟨node, hnode⟩
  named := by
    intro n hn
    simp only [charge, Dict.update, Dict.mem_keys_insert] at hn
    rcases hn with rfl | hn
    . exact .inr (Dict.mem_keys_iff.mpr ⟨node, hnode⟩)
    . exact .inl hn
  held n := by
    rw [loadOn_singleton]
    exact Dict.amount_update _ _ _ _
  left n := by
    rw [loadOn_singleton]
    simp only [charge, Table.put, Nodes.capacity, Dict.amount_insert]
    split
    . next h =>
      rw [h, Dict.amount_of_find? hnode]
      exact tsub_add_cancel_of_le hfits
    . exact add_zero _

theorem pinActor_charged {p : ActorPlacement} (h : pinActor demand t p = some t') :
    t.Charged (demand.loadsOf [p]) t' ∧ ∃ b, demand.actorBundle? p.key = some b := by
  unfold pinActor at h
  split at h
  . next vector node hvector hnode =>
    split at h
    . next hfits =>
      cases h
      have hid : node.nodeId = p.nodeId := t.remaining.keyed _ _ hnode
      have hcharged := charge_charged (hid ▸ hnode) hfits
      refine ⟨?_, vector, hvector⟩
      simp only [QueryDemand.loadsOf, List.map_cons, List.map_nil, hvector, Option.getD_some, ← hid]
      exact hcharged
    . cases h
  . cases h

theorem pinActors_charged (h : placements.foldlM (pinActor demand) t = some t') :
    t.Charged (demand.loadsOf placements) t' ∧
      ∀ p ∈ placements, ∃ b, demand.actorBundle? p.key = some b := by
  induction placements generalizing t with
  | nil =>
    cases h
    exact ⟨.refl _, by simp⟩
  | cons p placements ih =>
    rw [List.foldlM_cons] at h
    obtain ⟨u, hu, h⟩ := Option.bind_eq_some_iff.mp h
    obtain ⟨hp, hbundle⟩ := pinActor_charged hu
    obtain ⟨hrest, hbundles⟩ := ih h
    refine ⟨hp.trans hrest, ?_⟩
    intro q hq
    rcases List.mem_cons.mp hq with rfl | hq
    . exact hbundle
    . exact hbundles q hq

theorem placeBundle_charged {bundle : ResourceVector} {node : NodeCapacity}
    (h : t.placeBundle bundle = some (node, t')) : t.Charged [(node.nodeId, bundle)] t' := by
  obtain ⟨u, hu, h⟩ := Option.bind_eq_some_iff.mp h
  cases h
  have hmem := List.mem_filter.mp (List.minBy?_mem hu)
  exact charge_charged (Table.find?_key_of_mem hmem.1) (of_decide_eq_true hmem.2)

theorem foldlM_placeActor_charged {bundles : List ActorResourceBundle}
    (hbundles : ∀ b ∈ bundles, b ∈ demand.actorBundles) {acc : List ActorPlacement}
    (h : bundles.foldlM placeActor (t, acc) = some (t', placements)) :
    ∃ new, placements = acc ++ new ∧ new.map (·.key) = bundles.map (·.key) ∧
      t.Charged (demand.loadsOf new) t' := by
  induction bundles generalizing t acc with
  | nil =>
    cases h
    exact ⟨[], by simp, rfl, .refl _⟩
  | cons b bundles ih =>
    rw [List.foldlM_cons] at h
    obtain ⟨⟨u, acc'⟩, hu, h⟩ := Option.bind_eq_some_iff.mp h
    obtain ⟨⟨node, u'⟩, hnode, hu⟩ := Option.bind_eq_some_iff.mp hu
    cases hu
    obtain ⟨new, rfl, hkeys, hrest⟩ := ih (fun b hb => hbundles b (by simp [hb])) h
    refine ⟨_ :: new, by rw [List.append_assoc, List.singleton_append], ?_, ?_⟩
    . rw [List.map_cons, List.map_cons, hkeys]
      rfl
    . have hb := QueryDemand.actorBundle?_key (hbundles b (by simp))
      have hcharged := (placeBundle_charged hnode).trans hrest
      unfold QueryDemand.loadsOf at hcharged ⊢
      rw [List.map_cons]
      simp only [ActorPlacement.key] at hcharged ⊢
      simp only [ActorResourceBundle.key] at hb
      rw [hb]
      exact hcharged

theorem placeActors_charged (h : t.placeActors demand.actorBundles = some (t', placements)) :
    placements.map (·.key) = demand.actorBundles.map (·.key) ∧
      t.Charged (demand.loadsOf placements) t' := by
  obtain ⟨new, rfl, hnew⟩ := foldlM_placeActor_charged (fun b hb => hb) h
  exact hnew

theorem placeTasks_charged {bundles : List ResourceVector} (h : t.placeTasks bundles = some t') :
    ∃ hosts : List String, hosts.length = bundles.length ∧ t.Charged (hosts.zip bundles) t' := by
  unfold placeTasks at h
  induction bundles generalizing t with
  | nil =>
    cases h
    exact ⟨[], rfl, .refl _⟩
  | cons b bundles ih =>
    rw [List.foldlM_cons] at h
    obtain ⟨u, hu, h⟩ := Option.bind_eq_some_iff.mp h
    obtain ⟨⟨node, u'⟩, hnode, rfl⟩ := Option.map_eq_some_iff.mp hu
    obtain ⟨hosts, hlength, hrest⟩ := ih h
    exact ⟨node.nodeId :: hosts, by simp [hlength], (placeBundle_charged hnode).trans hrest⟩

end Trial

def ResourceVector.single (field : Dimension) (x : ℚ≥0) : ResourceVector :=
  (0 : ResourceVector).replace field x

namespace Division

variable {field : Dimension} {x y : ℚ≥0} {s : Division}

def IsWhole (field : Dimension) (x : ℚ≥0) : Prop := field ≠ .gpu ∧ whole field x = x

theorem IsWhole.cases (h : IsWhole field x) :
    field = .cpu ∨ (field = .heapBytes ∨ field = .objectStoreBytes) ∧ ∃ n : ℕ, x = n := by
  obtain ⟨hne, hx⟩ := h
  cases field with
  | cpu => exact .inl rfl
  | gpu => contradiction
  | heapBytes => exact .inr ⟨.inl rfl, _, hx.symm⟩
  | objectStoreBytes => exact .inr ⟨.inr rfl, _, hx.symm⟩

theorem isWhole_natCast (hfield : field ≠ .gpu) (n : ℕ) : IsWhole field n := by
  refine ⟨hfield, ?_⟩
  unfold whole
  split
  . rfl
  . rw [Nat.floor_natCast]

theorem isWhole_get (hfield : field ≠ .gpu) (a : ResourceVector) : IsWhole field (a.get field) := by
  cases field with
  | cpu => exact ⟨hfield, rfl⟩
  | gpu => contradiction
  | heapBytes => exact isWhole_natCast hfield _
  | objectStoreBytes => exact isWhole_natCast hfield _

theorem IsWhole.sub (hx : IsWhole field x) (hy : IsWhole field y) : IsWhole field (x - y) := by
  obtain rfl | ⟨-, n, rfl⟩ := hx.cases
  . exact ⟨hx.1, rfl⟩
  . obtain rfl | ⟨-, m, rfl⟩ := hy.cases
    . exact ⟨hx.1, rfl⟩
    . rw [← Nat.cast_tsub]
      exact isWhole_natCast hx.1 _

theorem IsWhole.add (hx : IsWhole field x) (hy : IsWhole field y) : IsWhole field (x + y) := by
  obtain rfl | ⟨-, n, rfl⟩ := hx.cases
  . exact ⟨hx.1, rfl⟩
  . obtain rfl | ⟨-, m, rfl⟩ := hy.cases
    . exact ⟨hx.1, rfl⟩
    . rw [← Nat.cast_add]
      exact isWhole_natCast hx.1 _

theorem IsWhole.min (hx : IsWhole field x) (hy : IsWhole field y) : IsWhole field (min x y) := by
  rcases le_total x y with h | h
  . rw [min_eq_left h]
    exact hx
  . rw [min_eq_right h]
    exact hy

open ResourceVector

section

variable (hx : IsWhole field x)

include hx

theorem replace_get_add (a : ResourceVector) :
    a.replace field (a.get field + x) = a + single field x := by
  obtain rfl | ⟨rfl | rfl, n, rfl⟩ := hx.cases
  . ext <;> simp [replace, single, ResourceVector.get]
  . ext <;> simp [replace, single, ResourceVector.get, ← Nat.cast_add]
  . ext <;> simp [replace, single, ResourceVector.get, ← Nat.cast_add]

theorem replace_get_sub (a : ResourceVector) :
    a.replace field (a.get field - x) = a - single field x := by
  obtain rfl | ⟨rfl | rfl, n, rfl⟩ := hx.cases
  . ext <;> simp [replace, single, ResourceVector.get]
  . ext <;> simp [replace, single, ResourceVector.get, ← Nat.cast_tsub]
  . ext <;> simp [replace, single, ResourceVector.get, ← Nat.cast_tsub]

theorem get_single (d : Dimension) : (single field x).get d = if d = field then x else 0 := by
  obtain rfl | ⟨rfl | rfl, n, rfl⟩ := hx.cases
  . cases d <;> simp [replace, single, ResourceVector.get]
  . cases d <;> simp [replace, single, ResourceVector.get]
  . cases d <;> simp [replace, single, ResourceVector.get]

theorem single_add (hy : IsWhole field y) :
    single field x + single field y = single field (x + y) := by
  apply eq_of_get_eq
  intro d
  rw [get_add, get_single hx, get_single hy, get_single (hx.add hy)]
  split <;> simp

theorem single_le {a : ResourceVector} (h : x ≤ a.get field) : single field x ≤ a := by
  rw [le_iff_get_le]
  intro d
  rw [get_single hx]
  split
  . next hd =>
    rw [hd]
    exact h
  . exact zero_le

end

def trial (s : Division) : Trial := ⟨s.remaining, s.allocations⟩

theorem trial_take (hx : IsWhole field x) (node : NodeCapacity) :
    (s.take field node x).trial = s.trial.charge node (single field x) := by
  unfold take trial Trial.charge Dict.update
  simp only [replace_get_add hx, replace_get_sub hx]

def usable (field : Dimension) (candidates : List NodeCapacity) : ℚ≥0 :=
  ((candidates.map (·.resources.get field)).filter (epsilon < ·)).sum

theorem usable_cons (node : NodeCapacity) (candidates : List NodeCapacity) :
    usable field (node :: candidates) =
      (if epsilon < node.resources.get field then node.resources.get field else 0) +
        usable field candidates := by
  unfold usable
  rw [List.map_cons, List.filter_cons]
  by_cases h : epsilon < node.resources.get field
  . simp [h]
  . simp [h]

/--
What dividing one dimension does: `taken` leaves the nodes, and the need is met up to the tolerance
when there is enough that is worth taking.
-/
structure Takes (field : Dimension) (candidates : List NodeCapacity) (s s' : Division)
    (loads : List (String × ResourceVector)) (taken : ℚ≥0) : Prop where
  charged : s.trial.Charged loads s'.trial
  whole : IsWhole field taken
  loads_eq : (loads.map Prod.snd).sum = single field taken
  needed : taken + s'.needed = s.needed
  met : s'.needed ≤ epsilon ↔ s.needed ≤ epsilon + usable field candidates

theorem takeFrom_takes {candidates : List NodeCapacity}
    (hcandidates : ∀ node ∈ candidates, s.remaining.find? node.nodeId = some node)
    (hnodup : (candidates.map (·.nodeId)).Nodup) (hneeded : IsWhole field s.needed) :
    ∃ loads taken, Takes field candidates s (takeFrom field candidates s) loads taken := by
  induction candidates generalizing s with
  | nil =>
    have hzero : IsWhole field 0 := by simpa using isWhole_natCast hneeded.1 0
    refine ⟨[], 0, .refl _, hzero, ?_, zero_add _, ?_⟩
    . apply eq_of_get_eq
      intro d
      simp [get_single hzero]
    . simp [takeFrom, usable]
  | cons node candidates ih =>
    have hnode := hcandidates node (by simp)
    have hwhole := hneeded.min (isWhole_get hneeded.1 node.resources)
    simp only [List.map_cons, List.nodup_cons] at hnodup
    unfold takeFrom
    simp only [hwhole.2]
    split
    next hskip =>
      obtain ⟨loads, taken, h⟩ := ih (fun n hn => hcandidates n (by simp [hn])) hnodup.2 hneeded
      refine ⟨loads, taken, h.charged, h.whole, h.loads_eq, h.needed, ?_⟩
      rw [h.met, usable_cons]
      split
      . next havailable =>
        -- Nothing is needed any more.
        have hmin := hskip.resolve_left (not_le.mpr havailable)
        have hzero : s.needed = 0 := by
          by_contra hne
          have hpos := lt_min (pos_iff_ne_zero.mpr hne) (lt_of_le_of_lt zero_le havailable)
          exact hpos.ne hmin.symm
        simp [hzero]
      . rw [zero_add]
    next htake =>
      push Not at htake
      have hle : single field (min s.needed (node.resources.get field)) ≤ node.resources :=
        single_le hwhole (min_le_right _ _)
      have hcharged := Trial.charge_charged (t := s.trial) hnode hle
      rw [← trial_take hwhole] at hcharged
      have hspent := add_tsub_cancel_of_le (min_le_left s.needed (node.resources.get field))
      have husable : usable field (node :: candidates) =
          node.resources.get field + usable field candidates := by
        rw [usable_cons, if_pos htake.1]
      split
      next hmet =>
        refine ⟨_, _, hcharged, hwhole, by simp, hspent, iff_of_true hmet ?_⟩
        rw [husable]
        calc s.needed ≤ epsilon + min s.needed (node.resources.get field) := tsub_le_iff_right.mp hmet
          _ ≤ epsilon + node.resources.get field := add_le_add_right (min_le_right _ _) _
          _ ≤ _ := add_le_add_right le_self_add _
      next hmet =>
        have hleft : IsWhole field (s.take field node (min s.needed (node.resources.get field))).needed :=
          hneeded.sub hwhole
        have hrest : ∀ n ∈ candidates, (s.take field node
            (min s.needed (node.resources.get field))).remaining.find? n.nodeId = some n := by
          intro n hn
          unfold take
          rw [Table.find?_put, if_neg]
          . exact hcandidates n (by simp [hn])
          . intro heq
            apply hnodup.1
            rw [← heq]
            exact List.mem_map_of_mem hn
        obtain ⟨loads, taken, h⟩ := ih hrest hnodup.2 hleft
        refine ⟨_, _, hcharged.trans h.charged, hwhole.add h.whole, ?_, ?_, ?_⟩
        . rw [List.map_append, List.sum_append, h.loads_eq, ← single_add hwhole h.whole]
          simp
        . rw [add_assoc, h.needed]
          exact hspent
        . rw [h.met, husable]
          have hmin : min s.needed (node.resources.get field) = node.resources.get field := by
            apply min_eq_right
            by_contra hlt
            apply hmet
            rw [take, min_eq_left (not_le.mp hlt).le, tsub_self]
            exact zero_le
          rw [take, hmin, tsub_le_iff_right, add_assoc, add_comm (usable field candidates)]

theorem usable_perm {l l' : List NodeCapacity} (h : l.Perm l') : usable field l = usable field l' :=
  ((h.map _).filter _).sum_eq

theorem natCast_le_epsilon_add_iff (a b : ℕ) : (a : ℚ≥0) ≤ epsilon + b ↔ a ≤ b := by
  constructor
  . intro h
    by_contra hlt
    have hsucc : ((b + 1 : ℕ) : ℚ≥0) ≤ epsilon + b := le_trans (Nat.cast_le.mpr (by omega)) h
    rw [Nat.cast_add, add_comm, Nat.cast_one] at hsucc
    have hone : (1 : ℚ≥0) ≤ epsilon := le_of_add_le_add_right hsucc
    exact absurd hone (by decide +kernel)
  . intro h
    exact le_trans (Nat.cast_le.mpr h) le_add_self

theorem exists_get_eq_natCast (hfield : field = .heapBytes ∨ field = .objectStoreBytes)
    (a : ResourceVector) : ∃ n : ℕ, a.get field = n := by
  rcases hfield with rfl | rfl
  . exact ⟨_, rfl⟩
  . exact ⟨_, rfl⟩

theorem usable_eq_get_total (hfield : field = .heapBytes ∨ field = .objectStoreBytes)
    (nodes : Nodes) : usable field nodes.values = nodes.total.get field := by
  rw [Nodes.total, get_sum, List.map_map]
  induction nodes.values with
  | nil => rfl
  | cons node l ih =>
    rw [usable_cons, ih, List.map_cons, List.sum_cons]
    congr 1
    split
    . rfl
    . next h =>
      obtain ⟨n, hn⟩ := exists_get_eq_natCast hfield node.resources
      simp only [Function.comp_apply, hn, not_lt] at h ⊢
      have hzero : n ≤ 0 := (natCast_le_epsilon_add_iff n 0).mp (by simpa using h)
      rw [Nat.le_zero.mp hzero, Nat.cast_zero]

end Division

open Division ResourceVector

structure Divides (request : ResourceVector) (field : Dimension)
    (acc acc' : Dict String ResourceVector × Nodes) (loads : List (String × ResourceVector))
    (taken : ℚ≥0) : Prop where
  charged : (Trial.mk acc.2 acc.1).Charged loads ⟨acc'.2, acc'.1⟩
  whole : IsWhole field taken
  loads_eq : (loads.map Prod.snd).sum = single field taken
  taken_le : taken ≤ request.get field
  le_taken : request.get field ≤ epsilon + taken

theorem divide_spec {field : Dimension} (hfield : field ≠ .gpu)
    (acc : Dict String ResourceVector × Nodes) :
    (request.get field ≤ epsilon + usable field acc.2.values →
      ∃ acc' loads taken, divide request acc field = some acc' ∧
        Divides request field acc acc' loads taken) ∧
    (¬request.get field ≤ epsilon + usable field acc.2.values →
      divide request acc field = none) := by
  unfold divide
  by_cases hneeded : request.get field ≤ epsilon
  . have hzero : IsWhole field 0 := by simpa using isWhole_natCast hfield 0
    rw [if_pos hneeded]
    refine ⟨fun _ => ⟨acc, [], 0, rfl, .refl _, hzero, ?_, zero_le, by simpa using hneeded⟩, ?_⟩
    . apply eq_of_get_eq
      intro d
      simp [get_single hzero]
    . intro h
      exact absurd (le_trans hneeded le_self_add) h
  . rw [if_neg hneeded]
    have hperm := acc.2.values.sortBy_perm fun node =>
      toLex (OrderDual.toDual (node.resources.get field), node.nodeId)
    have hnodup : ((acc.2.values.sortBy fun node =>
        toLex (OrderDual.toDual (node.resources.get field), node.nodeId)).map (·.nodeId)).Nodup := by
      rw [(hperm.map _).nodup_iff, acc.2.map_key_values]
      exact acc.2.nodup_keys
    obtain ⟨loads, taken, h⟩ := takeFrom_takes (s := ⟨request.get field, acc.1, acc.2⟩)
      (fun node hnode => Table.find?_key_of_mem (List.mem_sortBy.mp hnode)) hnodup
      (isWhole_get hfield request)
    have hmet := h.met
    rw [usable_perm hperm] at hmet
    simp only at hmet ⊢
    constructor
    . intro henough
      rw [if_neg (not_lt.mpr (hmet.mpr henough))]
      refine ⟨_, loads, taken, rfl, h.charged, h.whole, h.loads_eq, ?_, ?_⟩
      . exact le_of_le_of_eq le_self_add h.needed
      . calc request.get field = taken + _ := h.needed.symm
          _ ≤ taken + epsilon := add_le_add_right (hmet.mpr henough) _
          _ = epsilon + taken := add_comm _ _
    . intro henough
      rw [if_pos (not_le.mp fun hle => henough (hmet.mp hle))]

theorem divide_bytes_spec {field : Dimension}
    (hfield : field = .heapBytes ∨ field = .objectStoreBytes)
    (acc : Dict String ResourceVector × Nodes) :
    (request.get field ≤ acc.2.total.get field →
      ∃ acc' loads, divide request acc field = some acc' ∧
        (Trial.mk acc.2 acc.1).Charged loads ⟨acc'.2, acc'.1⟩ ∧
        ∀ d, (loads.map Prod.snd).sum.get d = if d = field then request.get field else 0) ∧
    (¬request.get field ≤ acc.2.total.get field → divide request acc field = none) := by
  have hne : field ≠ .gpu := by rcases hfield with rfl | rfl <;> decide
  obtain ⟨n, hn⟩ := exists_get_eq_natCast hfield request
  obtain ⟨m, hm⟩ := exists_get_eq_natCast hfield acc.2.total
  have hspec := divide_spec request hne acc
  rw [usable_eq_get_total hfield, hn, hm, natCast_le_epsilon_add_iff] at hspec
  rw [hn, hm, Nat.cast_le]
  refine ⟨?_, hspec.2⟩
  intro h
  obtain ⟨acc', loads, taken, hacc', hdivides⟩ := hspec.1 h
  refine ⟨acc', loads, hacc', hdivides.charged, ?_⟩
  have htaken : taken = n := by
    obtain rfl | ⟨-, k, rfl⟩ := hdivides.whole.cases
    . rcases hfield with hcpu | hcpu <;> cases hcpu
    . have hle := hdivides.taken_le
      have hge := hdivides.le_taken
      rw [hn] at hle hge
      rw [Nat.cast_inj]
      exact le_antisymm (Nat.cast_le.mp hle) ((natCast_le_epsilon_add_iff n k).mp hge)
  intro d
  rw [hdivides.loads_eq, get_single hdivides.whole, htaken]

def Placeable (nodes : Nodes) : Prop :=
  request.gpu ≤ epsilon ∧ request.cpu ≤ epsilon + usable .cpu nodes.values ∧
    request.heapBytes ≤ nodes.total.heapBytes ∧
    request.objectStoreBytes ≤ nodes.total.objectStoreBytes

instance (nodes : Nodes) : Decidable (Placeable request nodes) :=
  inferInstanceAs (Decidable (_ ∧ _ ∧ _ ∧ _))

structure PlacesDivisible (request : ResourceVector) (nodes : Nodes)
    (placed : Dict String ResourceVector) (nodes' : Nodes)
    (loads : List (String × ResourceVector)) : Prop where
  charged : (Trial.mk nodes ∅).Charged loads ⟨nodes', placed⟩
  heapBytes : (loads.map Prod.snd).sum.heapBytes = request.heapBytes
  objectStoreBytes : (loads.map Prod.snd).sum.objectStoreBytes = request.objectStoreBytes
  le_request : (loads.map Prod.snd).sum ≤ request

theorem charged_filterValues {nodes nodes' : Nodes} {allocations : Dict String ResourceVector}
    {loads : List (String × ResourceVector)}
    (h : (Trial.mk nodes (Dict.ofKeys nodes.keys fun _ => 0)).Charged loads ⟨nodes', allocations⟩) :
    (Trial.mk nodes ∅).Charged loads ⟨nodes', allocations.filterValues (· ≠ 0)⟩ where
  __ := h
  named := by
    intro n hn
    right
    obtain ⟨v, hv⟩ := Dict.mem_keys_iff.mp hn
    rw [Dict.find?_filterValues, Option.filter_eq_some_iff] at hv
    rcases h.named n (Dict.mem_keys_iff.mpr ⟨v, hv.1⟩) with hn | hn
    . obtain ⟨w, hw⟩ := Dict.mem_keys_iff.mp hn
      rw [Dict.find?_ofKeys] at hw
      by_contra hnot
      rw [if_neg hnot] at hw
      cases hw
    . exact hn
  held n := by
    have hheld := h.held n
    have hzero : (Dict.ofKeys nodes.keys fun _ => (0 : ResourceVector)).amount id n = 0 := by
      unfold Dict.amount
      rw [Dict.find?_ofKeys]
      split <;> rfl
    simp only [hzero] at hheld
    rw [Dict.amount_empty, ← hheld]
    apply Dict.amount_filterValues
    intro v hv
    simpa using hv

theorem placeDivisible_spec (nodes : Nodes) : (Placeable request nodes →
      ∃ placed nodes' loads, placeDivisible request nodes = some (placed, nodes') ∧
        PlacesDivisible request nodes placed nodes' loads) ∧
    (¬Placeable request nodes → placeDivisible request nodes = none) := by
  have hcpu := divide_spec request (show Dimension.cpu ≠ .gpu by decide)
    (Dict.ofKeys nodes.keys fun _ => 0, nodes)
  unfold placeDivisible
  simp only [List.foldlM_cons, List.foldlM_nil]
  by_cases hgpu : epsilon < request.gpu
  . rw [if_pos hgpu]
    exact ⟨fun h => absurd h.1 (not_le.mpr hgpu), fun _ => rfl⟩
  rw [if_neg hgpu]
  by_cases hcpu' : request.cpu ≤ epsilon + usable .cpu nodes.values
  case neg =>
    rw [hcpu.2 hcpu']
    exact ⟨fun h => absurd h.2.1 hcpu', fun _ => rfl⟩
  obtain ⟨acc, loads, taken, hacc, hdivides⟩ := hcpu.1 hcpu'
  -- Dividing one dimension leaves the others as they are.
  have hother : ∀ d, d ≠ .cpu → (loads.map Prod.snd).sum.get d = 0 := by
    intro d hd
    rw [hdivides.loads_eq, get_single hdivides.whole, if_neg hd]
  have hheap := divide_bytes_spec request (.inl rfl) acc
  have htotal : ∀ d, d ≠ .cpu → acc.2.total.get d = nodes.total.get d := by
    intro d hd
    rw [← hdivides.charged.spent, get_add, hother d hd, add_zero]
  rw [htotal .heapBytes (by decide)] at hheap
  rw [hacc]
  by_cases hheap' : request.heapBytes ≤ nodes.total.heapBytes
  case neg =>
    refine ⟨fun h => absurd h.2.2.1 hheap', fun _ => ?_⟩
    simp only [Option.bind_eq_bind, Option.bind_some]
    rw [hheap.2 fun h => hheap' (Nat.cast_le.mp h)]
    rfl
  obtain ⟨acc', loads', hacc', hcharged', hloads'⟩ := hheap.1 (Nat.cast_le.mpr hheap')
  have hstore := divide_bytes_spec request (.inr rfl) acc'
  have htotal' : acc'.2.total.get .objectStoreBytes = nodes.total.get .objectStoreBytes := by
    rw [← htotal _ (by decide), ← hcharged'.spent, get_add, hloads', if_neg (by decide), add_zero]
  rw [htotal'] at hstore
  simp only [Option.bind_eq_bind, Option.bind_some, hacc']
  by_cases hstore' : request.objectStoreBytes ≤ nodes.total.objectStoreBytes
  case neg =>
    refine ⟨fun h => absurd h.2.2.2 hstore', fun _ => ?_⟩
    rw [hstore.2 fun h => hstore' (Nat.cast_le.mp h)]
    rfl
  obtain ⟨acc'', loads'', hacc'', hcharged'', hloads''⟩ := hstore.1 (Nat.cast_le.mpr hstore')
  rw [hacc'']
  refine ⟨fun _ => ⟨_, _, loads ++ (loads' ++ loads''), rfl, ?_, ?_, ?_, ?_⟩, ?_⟩
  . exact charged_filterValues (hdivides.charged.trans (hcharged'.trans hcharged''))
  . have hget := hother .heapBytes (by decide)
    have hget' := hloads' .heapBytes
    have hget'' := hloads'' .heapBytes
    simp only [ResourceVector.get, ↓reduceIte, reduceCtorEq, Nat.cast_inj,
      Nat.cast_eq_zero] at hget hget' hget''
    simp [hget, hget', hget'']
  . have hget := hother .objectStoreBytes (by decide)
    have hget' := hloads' .objectStoreBytes
    have hget'' := hloads'' .objectStoreBytes
    simp only [ResourceVector.get, ↓reduceIte, reduceCtorEq, Nat.cast_inj,
      Nat.cast_eq_zero] at hget hget' hget''
    simp [hget, hget', hget'']
  . rw [le_iff_get_le]
    intro d
    have htaken := hdivides.taken_le
    have hget : (loads.map Prod.snd).sum.get d = if d = .cpu then taken else 0 := by
      rw [hdivides.loads_eq, get_single hdivides.whole]
    rw [List.map_append, List.map_append, List.sum_append, List.sum_append, get_add, get_add, hget,
      hloads', hloads'']
    cases d with
    | cpu => simpa using htaken
    | gpu => simp
    | heapBytes => simp
    | objectStoreBytes => simp
  . intro h
    exact absurd ⟨not_lt.mp hgpu, hcpu', hheap', hstore'⟩ h

end Vane
