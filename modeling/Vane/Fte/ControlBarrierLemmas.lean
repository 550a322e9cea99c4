import Vane.Fte.ControlBarrier

/-! This module contains the verification of the control barrier. -/

namespace Vane

open List (mem_append mem_append_right mem_cons mem_cons_self mem_singleton)
open PreparePhase (fencing resolveAll)
open ControlCall (prepare)

namespace WorkerControls

variable {w w' : WorkerControls}

theorem settled_iff {i : ℕ} : w.Settled i ↔ ∃ r, w.refs[i]? = some r ∧ r.outcome.isSome := by
  unfold Settled outcome
  cases w.refs[i]? with
  | none => simp
  | some r => simp

structure Chained (w : WorkerControls) : Prop where
  tail : ∀ k t, w.tails.find? k = some t →
    t.queryId = k.taskId.queryId ∧ ∃ r, w.refs[t.ref]? = some r ∧ r.task = k
  previous : ∀ (i : ℕ) r p, w.refs[i]? = some r → r.previous = some p →
    p < i ∧ (∃ r', w.refs[p]? = some r' ∧ r'.task = r.task) ∧ (r.outcome.isSome → w.Settled p)
  held : ∀ (i : ℕ) r, w.refs[i]? = some r → r.outcome = none →
    (∃ t, w.tails.find? r.task = some t ∧ t.ref = i) ∨
      ∃ (j : ℕ) (r' : ControlRef), w.refs[j]? = some r' ∧ r'.previous = some i

theorem Chained.pending_tail (h : w.Chained) {i : ℕ} {r : ControlRef} (hr : w.refs[i]? = some r)
    (hpending : r.outcome = none) : ∃ t, w.tails.find? r.task = some t ∧ ¬w.Settled t.ref := by
  -- the chain of successors ends at the tail
  induction hn : w.refs.length - i using Nat.strong_induction_on generalizing i r with
  | _ n ih =>
    have hsettled : ¬w.Settled i := by
      rw [settled_iff]
      rintro ⟨r', hr', hsome⟩
      rw [hr] at hr'
      cases hr'
      rw [hpending] at hsome
      cases hsome
    rcases h.held i r hr hpending with ⟨t, ht, rfl⟩ | ⟨j, r', hr', hprevious⟩
    . exact ⟨t, ht, hsettled⟩
    . obtain ⟨hlt, ⟨r₀, hr₀, htask⟩, hdone⟩ := h.previous j r' i hr' hprevious
      rw [hr] at hr₀
      cases hr₀
      have hj : j < w.refs.length := (List.getElem?_eq_some_iff.mp hr').1
      rw [htask]
      refine ih (w.refs.length - j) (by omega) hr' ?_ rfl
      cases houtcome : r'.outcome with
      | none => rfl
      | some _ => exact absurd (hdone (by rw [houtcome]; rfl)) hsettled

structure Moves (w w' : WorkerControls) (made : Option FteTaskAttemptId) : Prop where
  closing : w.registry.closingQueries ⊆ w'.registry.closingQueries
  settled : ∀ i, w.Settled i → w'.Settled i
  pending : ∀ (i : ℕ) r', w'.refs[i]? = some r' → r'.outcome = none →
    (∃ r, w.refs[i]? = some r ∧ r.outcome = none ∧ r.task = r'.task) ∨
      r'.task ∈ made ∧ ∃ t, w'.tails.find? r'.task = some t ∧ t.ref = w.refs.length
  tails : ∀ k t, k ∉ made → w.tails.find? k = some t → ¬w.Settled t.ref → w'.tails.find? k = some t
  known : ∀ k ∈ made, ∃ t, w'.tails.find? k = some t

theorem Moves.of_same (hclosing : w.registry.closingQueries ⊆ w'.registry.closingQueries)
    (hrefs : w'.refs = w.refs) (htails : w'.tails = w.tails) : Moves w w' none where
  closing := hclosing
  settled := by
    intro i hi
    unfold Settled outcome at hi ⊢
    rw [hrefs]
    exact hi
  pending := by
    intro i r hr hpending
    rw [hrefs] at hr
    exact .inl ⟨r, hr, hpending, rfl⟩
  tails := by
    intro k t _ ht _
    rw [htails]
    exact ht
  known := nofun

theorem Chained.of_same (h : w.Chained) (hrefs : w'.refs = w.refs) (htails : w'.tails = w.tails) :
    w'.Chained := by
  have hsettled : ∀ i, w'.Settled i = w.Settled i := by
    intro i
    unfold Settled outcome
    rw [hrefs]
  refine ⟨?_, ?_, ?_⟩
  . rw [hrefs, htails]
    exact h.tail
  . simp only [hsettled, hrefs]
    exact h.previous
  . rw [hrefs, htails]
    exact h.held

section submit

variable (task : FteTaskAttemptId) (operation : String)

theorem getElem?_refs_submit (i : ℕ) (r : ControlRef) :
    (w.submit task operation).refs[i]? = some r ↔ w.refs[i]? = some r ∨
      i = w.refs.length ∧ r = ⟨task, operation, (w.tails.find? task).map ControlTail.ref, none⟩ := by
  show (w.refs ++ [_])[i]? = some r ↔ _
  rw [List.getElem?_append]
  split
  . next hlt =>
    constructor
    . exact .inl
    . rintro (h | ⟨rfl, -⟩)
      . exact h
      . omega
  . next hge =>
    have hnone : w.refs[i]? = none := List.getElem?_eq_none (not_lt.mp hge)
    rw [hnone, List.getElem?_singleton]
    constructor
    . intro h
      split at h
      . next hzero =>
        cases h
        exact .inr ⟨by omega, rfl⟩
      . cases h
    . rintro (h | ⟨rfl, rfl⟩)
      . cases h
      . simp

theorem settled_submit {i : ℕ} (h : w.Settled i) : (w.submit task operation).Settled i := by
  rw [settled_iff] at h ⊢
  obtain ⟨r, hr, hsome⟩ := h
  exact ⟨r, (getElem?_refs_submit task operation i r).mpr (.inl hr), hsome⟩

theorem submit_moves : Moves w (w.submit task operation) (some task) where
  closing := subset_rfl
  settled := fun _ => settled_submit task operation
  pending := by
    intro i r hr hpending
    rcases (getElem?_refs_submit task operation i r).mp hr with hold | ⟨rfl, rfl⟩
    . exact .inl ⟨r, hold, hpending, rfl⟩
    . exact .inr ⟨rfl, _, Dict.find?_insert_self _ _ _, rfl⟩
  tails := by
    intro k t hk ht _
    have hne : k ≠ task := fun h => hk (h ▸ rfl)
    show (w.tails.insert task _).find? k = some t
    rw [Dict.find?_insert_of_ne _ _ hne]
    exact ht
  known := by
    rintro _ ⟨⟩
    exact ⟨_, Dict.find?_insert_self _ _ _⟩

theorem Chained.submit (h : w.Chained) : (w.submit task operation).Chained := by
  have hold : ∀ {i : ℕ} {r}, w.refs[i]? = some r → (w.submit task operation).refs[i]? = some r :=
    fun {i r} hr => (getElem?_refs_submit task operation i r).mpr (.inl hr)
  have hnew : (w.submit task operation).refs[w.refs.length]? =
      some ⟨task, operation, (w.tails.find? task).map ControlTail.ref, none⟩ :=
    (getElem?_refs_submit task operation _ _).mpr (.inr ⟨rfl, rfl⟩)
  refine ⟨?_, ?_, ?_⟩
  . intro k t ht
    have ht : (w.tails.insert task _).find? k = some t := ht
    rw [Dict.find?_insert] at ht
    split at ht
    . next hk =>
      cases ht
      subst hk
      exact ⟨rfl, _, hnew, rfl⟩
    . obtain ⟨hquery, r, hr, htask⟩ := h.tail k t ht
      exact ⟨hquery, r, hold hr, htask⟩
  . intro i r p hr hprevious
    rcases (getElem?_refs_submit task operation i r).mp hr with hr | ⟨rfl, rfl⟩
    . obtain ⟨hlt, ⟨r', hr', htask⟩, hdone⟩ := h.previous i r p hr hprevious
      exact ⟨hlt, ⟨r', hold hr', htask⟩, fun hsome => settled_submit task operation (hdone hsome)⟩
    . obtain ⟨t, ht, rfl⟩ := Option.map_eq_some_iff.mp hprevious
      obtain ⟨-, r, hr, htask⟩ := h.tail task t ht
      refine ⟨(List.getElem?_eq_some_iff.mp hr).1, ⟨r, hold hr, htask⟩, ?_⟩
      intro hsome
      cases hsome
  . intro i r hr hpending
    rcases (getElem?_refs_submit task operation i r).mp hr with hr | ⟨rfl, rfl⟩
    . rcases h.held i r hr hpending with ⟨t, ht, rfl⟩ | ⟨j, r', hr', hprevious⟩
      . by_cases hk : r.task = task
        . refine .inr ⟨_, _, hnew, ?_⟩
          rw [← hk, ht]
          rfl
        . refine .inl ⟨t, ?_, rfl⟩
          show (w.tails.insert task _).find? r.task = some t
          rw [Dict.find?_insert_of_ne _ _ hk]
          exact ht
      . exact .inr ⟨j, r', hold hr', hprevious⟩
    . exact .inl ⟨_, Dict.find?_insert_self _ _ _, rfl⟩

end submit

section release

variable {task : FteTaskAttemptId} {ref : ℕ}

theorem release_cases (task : FteTaskAttemptId) (ref : ℕ) (w : WorkerControls) :
    w.release task ref = w ∨ (∃ t, w.tails.find? task = some t ∧ t.ref = ref) ∧
      w.release task ref = { w with tails := w.tails.erase task } := by
  unfold release
  split
  . next h =>
    obtain ⟨t, ht, href⟩ := Option.map_eq_some_iff.mp h
    exact .inr ⟨⟨t, ht, href⟩, rfl⟩
  . exact .inl rfl

theorem release_moves (h : w.Settled ref) : Moves w (w.release task ref) none := by
  rcases release_cases task ref w with hsame | ⟨⟨t₀, ht₀, href⟩, hrelease⟩
  . rw [hsame]
    exact .of_same subset_rfl rfl rfl
  . rw [hrelease]
    refine ⟨subset_rfl, fun _ hi => hi, fun i r hr hpending => .inl ⟨r, hr, hpending, rfl⟩, ?_, nofun⟩
    intro k t _ ht hpending
    have hne : k ≠ task := by
      rintro rfl
      rw [ht₀] at ht
      cases ht
      exact hpending (href ▸ h)
    rw [Dict.find?_erase_of_ne _ hne]
    exact ht

theorem Chained.release (hchained : w.Chained) (h : w.Settled ref) :
    (w.release task ref).Chained := by
  rcases release_cases task ref w with hsame | ⟨⟨t₀, ht₀, href⟩, hrelease⟩
  . rw [hsame]
    exact hchained
  . rw [hrelease]
    refine ⟨?_, hchained.previous, ?_⟩
    . intro k t ht
      have ht : (w.tails.erase task).find? k = some t := ht
      rw [Dict.find?_erase] at ht
      split at ht
      . cases ht
      . exact hchained.tail k t ht
    . intro i r hr hpending
      rcases hchained.held i r hr hpending with ⟨t, ht, rfl⟩ | hnext
      . left
        refine ⟨t, ?_, rfl⟩
        have hne : r.task ≠ task := by
          rintro htask
          rw [htask, ht₀] at ht
          cases ht
          rw [← href, settled_iff] at h
          obtain ⟨r', hr', hsome⟩ := h
          rw [hr] at hr'
          cases hr'
          rw [hpending] at hsome
          cases hsome
        rw [Dict.find?_erase_of_ne _ hne]
        exact ht
      . exact .inr hnext

theorem Moves.trans {w'' : WorkerControls} (h : Moves w w' none) (h' : Moves w' w'' none)
    (hsettled : ∀ i, w'.Settled i → w.Settled i) : Moves w w'' none where
  closing := h.closing.trans h'.closing
  settled := fun i hi => h'.settled i (h.settled i hi)
  pending := by
    intro i r'' hr'' hpending
    rcases h'.pending i r'' hr'' hpending with ⟨r', hr', hpending', htask⟩ | ⟨hmade, -⟩
    . rcases h.pending i r' hr' hpending' with ⟨r, hr, hpending, htask'⟩ | ⟨hmade, -⟩
      . exact .inl ⟨r, hr, hpending, htask'.trans htask⟩
      . cases hmade
    . cases hmade
  tails := by
    intro k t hk ht hpending
    exact h'.tails k t hk (h.tails k t hk ht hpending) fun hdone => hpending (hsettled _ hdone)
  known := nofun

theorem refs_release : (w.release task ref).refs = w.refs := by
  rcases release_cases task ref w with hsame | ⟨-, hrelease⟩
  . rw [hsame]
  . rw [hrelease]

theorem settled_release {i : ℕ} : (w.release task ref).Settled i ↔ w.Settled i := by
  unfold Settled outcome
  rw [refs_release]

structure SameRecords (w w' : WorkerControls) : Prop where
  registry : w'.registry = w.registry
  prepareTerminalErrors : w'.prepareTerminalErrors = w.prepareTerminalErrors
  observed : w'.observed = w.observed

theorem SameRecords.release : SameRecords w (w.release task ref) := by
  rcases release_cases task ref w with hsame | ⟨-, hrelease⟩
  . rw [hsame]
    exact ⟨rfl, rfl, rfl⟩
  . rw [hrelease]
    exact ⟨rfl, rfl, rfl⟩

theorem releases_spec (entries : List BarrierEntry) (hsettled : ∀ entry ∈ entries, w.Settled entry.ref)
    (hchained : w.Chained) :
    let w' := entries.foldl (fun w entry => w.release entry.task entry.ref) w
    Moves w w' none ∧ w'.Chained ∧ SameRecords w w' := by
  induction entries generalizing w with
  | nil => exact ⟨.of_same subset_rfl rfl rfl, hchained, rfl, rfl, rfl⟩
  | cons entry entries ih =>
    have hentry := hsettled entry mem_cons_self
    have hrecords : SameRecords w (w.release entry.task entry.ref) := .release
    obtain ⟨hmoves, hchained', hrecords'⟩ := ih
      (fun e he => settled_release.mpr (hsettled e (List.mem_cons_of_mem _ he)))
      (hchained.release hentry)
    refine ⟨(release_moves hentry).trans hmoves fun i hi => settled_release.mp hi, hchained', ?_⟩
    exact ⟨hrecords'.1.trans hrecords.1, hrecords'.2.trans hrecords.2, hrecords'.3.trans hrecords.3⟩

end release

section complete

variable (ref : ℕ) (outcome : RefOutcome)

theorem complete_cases : w.complete ref outcome = w ∨
    ∃ r, w.refs[ref]? = some r ∧ r.outcome = none ∧ (∀ p, r.previous = some p → w.Settled p) ∧
      w.complete ref outcome = { w with refs := w.refs.set ref { r with outcome := some outcome } } := by
  unfold complete
  split
  . exact .inl rfl
  . next r hr =>
    split
    . exact .inl rfl
    . next hguard =>
      rw [Bool.or_eq_true, not_or] at hguard
      refine .inr ⟨r, hr, ?_, ?_, rfl⟩
      . cases houtcome : r.outcome with
        | none => rfl
        | some _ => exact absurd (by rw [houtcome]; rfl) hguard.1
      . intro p hp
        have hprevious := hguard.2
        rw [hp, Option.any_some] at hprevious
        show (w.outcome p).isSome = true
        cases houtcome : w.outcome p with
        | none => exact absurd (by rw [houtcome]; rfl) hprevious
        | some _ => rfl

theorem getElem?_refs_set {i : ℕ} {r₀ r r' : ControlRef} (hr₀ : w.refs[ref]? = some r₀) :
    (w.refs.set ref r)[i]? = some r' ↔ i = ref ∧ r' = r ∨ i ≠ ref ∧ w.refs[i]? = some r' := by
  have hlt := (List.getElem?_eq_some_iff.mp hr₀).1
  rw [List.getElem?_set]
  by_cases hi : ref = i
  . subst hi
    simp [hlt, eq_comm]
  . simp [hi, Ne.symm hi]

theorem complete_moves : Moves w (w.complete ref outcome) none := by
  rcases complete_cases (w := w) ref outcome with hsame | ⟨r₀, hr₀, -, -, hcomplete⟩
  . rw [hsame]
    exact .of_same subset_rfl rfl rfl
  . rw [hcomplete]
    refine ⟨subset_rfl, ?_, ?_, fun k t _ ht _ => ht, nofun⟩
    . intro i hi
      rw [settled_iff] at hi ⊢
      obtain ⟨r, hr, hsome⟩ := hi
      by_cases href : i = ref
      . exact ⟨_, (getElem?_refs_set ref hr₀).mpr (.inl ⟨href, rfl⟩), rfl⟩
      . exact ⟨r, (getElem?_refs_set ref hr₀).mpr (.inr ⟨href, hr⟩), hsome⟩
    . intro i r hr hpending
      rcases (getElem?_refs_set ref hr₀).mp hr with ⟨-, rfl⟩ | ⟨-, hr⟩
      . cases hpending
      . exact .inl ⟨r, hr, hpending, rfl⟩

theorem Chained.complete (h : w.Chained) : (w.complete ref outcome).Chained := by
  have hmoves := complete_moves (w := w) ref outcome
  rcases complete_cases (w := w) ref outcome with hsame | ⟨r₀, hr₀, -, hprevious, hcomplete⟩
  . rw [hsame]
    exact h
  . rw [hcomplete] at hmoves ⊢
    -- every reference is still there, with its task and what it waits for
    have hkept : ∀ {i : ℕ} {r : ControlRef}, w.refs[i]? = some r → ∃ r',
        (w.refs.set ref { r₀ with outcome := some outcome })[i]? = some r' ∧ r'.task = r.task ∧
          r'.previous = r.previous := by
      intro i r hr
      by_cases href : i = ref
      . subst href
        rw [hr₀] at hr
        cases hr
        exact ⟨_, (getElem?_refs_set i hr₀).mpr (.inl ⟨rfl, rfl⟩), rfl, rfl⟩
      . exact ⟨r, (getElem?_refs_set ref hr₀).mpr (.inr ⟨href, hr⟩), rfl, rfl⟩
    refine ⟨?_, ?_, ?_⟩
    . intro k t ht
      obtain ⟨hquery, r, hr, htask⟩ := h.tail k t ht
      obtain ⟨r', hr', htask', -⟩ := hkept hr
      exact ⟨hquery, r', hr', htask'.trans htask⟩
    . intro i r p hr hp
      have hbefore : ∃ r₁, w.refs[i]? = some r₁ ∧ r.task = r₁.task ∧ r.previous = r₁.previous ∧
          (r.outcome.isSome → (∀ p, r.previous = some p → w.Settled p) ∨ r₁.outcome.isSome) := by
        rcases (getElem?_refs_set ref hr₀).mp hr with ⟨rfl, rfl⟩ | ⟨-, hr⟩
        . exact ⟨r₀, hr₀, rfl, rfl, fun _ => .inl hprevious⟩
        . exact ⟨r, hr, rfl, rfl, .inr⟩
      obtain ⟨r₁, hr₁, htask, hsame, hdone⟩ := hbefore
      obtain ⟨hlt, ⟨r', hr', htask'⟩, hsettled⟩ := h.previous i r₁ p hr₁ (hsame ▸ hp)
      obtain ⟨r'', hr'', htask'', -⟩ := hkept hr'
      refine ⟨hlt, ⟨r'', hr'', htask''.trans (htask'.trans htask.symm)⟩, ?_⟩
      intro hsome
      apply hmoves.settled
      rcases hdone hsome with hdone | hdone
      . exact hdone p hp
      . exact hsettled hdone
    . intro i r hr hpending
      rcases (getElem?_refs_set ref hr₀).mp hr with ⟨-, rfl⟩ | ⟨-, hr⟩
      . cases hpending
      . rcases h.held i r hr hpending with htail | ⟨j, r', hr', hnext⟩
        . exact .inl htail
        . obtain ⟨r'', hr'', -, hsame⟩ := hkept hr'
          exact .inr ⟨j, r'', hr'', hsame.trans hnext⟩

end complete

end WorkerControls

open WorkerControls (Moves SameRecords)

def CreatePhase.ref? : CreatePhase → Option ℕ
  | tracking ref | submitted ref => some ref
  | _ => none

def CreatePhase.holdsToken : CreatePhase → Bool
  | ended => false
  | _ => true

def ControlCall.holdsToken (key : String) : ControlCall → Bool
  | create task phase => phase.holdsToken && registryKey task.taskId.queryId == key
  | prepare _ _ => false

namespace PreparePhase

def isActive : PreparePhase → Bool
  | closing | succeeded | failed _ => false
  | _ => true

def waiting? : PreparePhase → Option (List BarrierEntry)
  | resolving entries => some entries
  | reading r => some (r.rest ++ r.result.pending)
  | removing r | recording r | fencing r _ => some r.pending
  | confirming _ | submitting _ | submitted _ => some []
  | _ => none

def terminal : PreparePhase → List BarrierEntry
  | reading r => r.result.terminal
  | removing r => r.terminal
  | _ => []

def IsQuiet (queryId : String) : PreparePhase → Prop
  | fencing _ quiesce => RegistryLifecycle.HasPassed ⟨queryId, false, 0, quiesce⟩
  | confirming _ | submitting _ | submitted _ => True
  | _ => False

end PreparePhase

namespace ControlBarrier

variable {s s' : ControlBarrier} {queryId : String} {w : WorkerControls}

def Creates (s : ControlBarrier) (task : FteTaskAttemptId) (ref : ℕ) : Prop :=
  ∃ phase, .create task phase ∈ s.phases ∧ phase.ref? = some ref

def Quiet (s : ControlBarrier) (queryId : String) : Prop :=
  ∀ call ∈ s.phases, call.holdsToken queryId = false

def Covers (s : ControlBarrier) (queryId : String) (entries : List BarrierEntry) : Prop :=
  ∀ (i : ℕ) r, s.shared.refs[i]? = some r → r.outcome = none → r.task.taskId.queryId = queryId →
    ∃ t, s.shared.tails.find? r.task = some t ∧
      ((∃ entry ∈ entries, entry.task = r.task ∧ entry.ref = t.ref) ∨ s.Creates r.task t.ref)

theorem Covers.of_settled {entries entries' : List BarrierEntry} (h : s.Covers queryId entries)
    (hchained : s.shared.Chained)
    (hentries : ∀ entry ∈ entries, entry ∈ entries' ∨ s.shared.Settled entry.ref) :
    s.Covers queryId entries' := by
  intro i r hr hpending hquery
  obtain ⟨t, ht, hcases⟩ := h i r hr hpending hquery
  refine ⟨t, ht, ?_⟩
  rcases hcases with ⟨entry, hentry, htask, href⟩ | hcreates
  . rcases hentries entry hentry with hmem | hsettled
    . exact .inl ⟨entry, hmem, htask, href⟩
    . obtain ⟨t', ht', hopen⟩ := hchained.pending_tail hr hpending
      rw [ht] at ht'
      cases ht'
      exact absurd (href ▸ hsettled) hopen
  . exact .inr hcreates

theorem covers_entriesOf (hchained : s.shared.Chained) (queryId : String) :
    s.Covers queryId (s.shared.entriesOf queryId) := by
  intro i r hr hpending hquery
  obtain ⟨t, ht, -⟩ := hchained.pending_tail hr hpending
  refine ⟨t, ht, .inl ⟨⟨r.task, t.ref, t.operation⟩, ?_, rfl, rfl⟩⟩
  apply List.mem_map.mpr
  refine ⟨(r.task, t), List.mem_filter.mpr ⟨Dict.find?_eq_some_iff.mp ht, ?_⟩, rfl⟩
  rw [decide_eq_true_eq, (hchained.tail _ _ ht).1]
  exact hquery

theorem Covers.settled (h : s.Covers queryId []) (hquiet : s.Quiet queryId)
    (hkey : registryKey queryId = queryId) {i : ℕ} {r : ControlRef} (hr : s.shared.refs[i]? = some r)
    (hquery : r.task.taskId.queryId = queryId) : r.outcome.isSome := by
  cases hpending : r.outcome with
  | some _ => rfl
  | none =>
    obtain ⟨t, -, hcases⟩ := h i r hr hpending hquery
    rcases hcases with ⟨entry, hentry, -⟩ | ⟨phase, hcall, href⟩
    . cases hentry
    . have hnone := hquiet _ hcall
      have hholds : phase.holdsToken = true := by
        cases phase with
        | ended => cases href
        | _ => rfl
      simp only [ControlCall.holdsToken, hholds, hquery, hkey, Bool.true_and, beq_self_eq_true,
        Bool.true_eq_false] at hnone

structure Advances (s s' : ControlBarrier) : Prop where
  removed : ∀ task t, s.shared.tails.find? task = some t → s'.shared.tails.find? task = none →
    s.shared.Settled t.ref
  closing : s.shared.registry.closingQueries ⊆ s'.shared.registry.closingQueries
  settled : ∀ i, s.shared.Settled i → s'.shared.Settled i
  covers : ∀ queryId ∈ s.shared.registry.closingQueries, ∀ entries,
    s.Covers queryId entries → s'.Covers queryId entries
  quiet : ∀ queryId ∈ s.shared.registry.closingQueries, s.Quiet queryId → s'.Quiet queryId

theorem Advances.of_moves (hchained : s.shared.Chained) {made : Option FteTaskAttemptId}
    (hmoves : Moves s.shared s'.shared made)
    (hmade : ∀ task ∈ made, task.taskId.queryId ∉ s.shared.registry.closingQueries ∨
      s.shared.tails.find? task = none ∧ s'.Creates task s.shared.refs.length)
    (hcreates : ∀ task ref, ¬s.shared.Settled ref → s.Creates task ref → s'.Creates task ref)
    (hquiet : ∀ queryId ∈ s.shared.registry.closingQueries, s.Quiet queryId → s'.Quiet queryId) :
    Advances s s' := by
  refine ⟨?_, hmoves.closing, hmoves.settled, ?_, hquiet⟩
  . intro task t ht hnone
    by_contra hopen
    have hkept : s'.shared.tails.find? task ≠ none := by
      by_cases htask : task ∈ made
      . obtain ⟨t', ht'⟩ := hmoves.known task htask
        rw [ht']
        exact nofun
      . rw [hmoves.tails task t htask ht hopen]
        exact nofun
    exact hkept hnone
  intro queryId hclosing entries hcovers i r' hr' hpending' hquery
  rcases hmoves.pending i r' hr' hpending' with ⟨r, hr, hpending, htask⟩ | ⟨htask, t, ht, href⟩
  . rw [← htask] at hquery ⊢
    obtain ⟨t, ht, hopen⟩ := hchained.pending_tail hr hpending
    obtain ⟨t', ht', hcases⟩ := hcovers i r hr hpending hquery
    rw [ht] at ht'
    cases ht'
    have hold : r.task ∉ made := by
      intro hmem
      rcases hmade _ hmem with hadmitted | ⟨hnone, -⟩
      . exact hadmitted (hquery ▸ hclosing)
      . rw [hnone] at ht
        cases ht
    refine ⟨t, hmoves.tails _ _ hold ht hopen, ?_⟩
    rcases hcases with hentry | hcreated
    . exact .inl hentry
    . exact .inr (hcreates _ _ hopen hcreated)
  . rcases hmade _ htask with hadmitted | ⟨-, hcreated⟩
    . exact absurd (hquery ▸ hclosing) hadmitted
    . exact ⟨t, ht, .inr (href ▸ hcreated)⟩

theorem Advances.refl (s : ControlBarrier) : Advances s s where
  removed := by
    intro task t ht hnone
    rw [ht] at hnone
    cases hnone
  closing := subset_rfl
  settled := fun _ h => h
  covers := fun _ _ _ h => h
  quiet := fun _ _ h => h

structure Prepared (s : ControlBarrier) (queryId : String) (phase : PreparePhase) : Prop where
  closed : queryId ∈ s.shared.registry.closingQueries
  covered : ∀ entries ∈ phase.waiting?, s.Covers queryId entries
  terminal : ∀ entry ∈ phase.terminal, s.shared.Settled entry.ref
  quiet : phase.IsQuiet queryId → s.Quiet queryId

theorem Prepared.mono {phase : PreparePhase} (h : s.Prepared queryId phase) (hadvances : Advances s s') :
    s'.Prepared queryId phase where
  closed := hadvances.closing h.closed
  covered := fun entries hentries => hadvances.covers _ h.closed _ (h.covered entries hentries)
  terminal := fun entry hentry => hadvances.settled _ (h.terminal entry hentry)
  quiet := fun hquiet => hadvances.quiet _ h.closed (h.quiet hquiet)

structure Sound (s : ControlBarrier) : Prop where
  chained : s.shared.Chained
  counted : ∀ key, s.shared.registry.active key = (s.phases.countP (ControlCall.holdsToken key) : ℤ)
  named : ∀ queryId phase, .prepare queryId phase ∈ s.phases →
    registryKey queryId = queryId ∧ queryId ≠ ""
  prepared : ∀ queryId phase, .prepare queryId phase ∈ s.phases → phase.isActive →
    s.Prepared queryId phase
  reported : ∀ queryId, ∀ failure ∈ s.shared.observed queryId,
    (registryKey queryId = queryId ∧ queryId ≠ "") ∧
      ∃ failures ∈ s.shared.prepareTerminalErrors.find? queryId, failure ∈ failures

section

variable (h : Sound s)

include h

theorem Sound.shared {made : Option FteTaskAttemptId} (hmoves : Moves s.shared w made)
    (hmade : ∀ task ∈ made, task.taskId.queryId ∉ s.shared.registry.closingQueries)
    (hchained : w.Chained) (hrecords : SameRecords s.shared w) :
    Advances s { s with shared := w } ∧ Sound { s with shared := w } := by
  have hadvances : Advances s { s with shared := w } :=
    .of_moves h.chained hmoves (fun task htask => .inl (hmade task htask))
      (fun _ _ _ hcreates => hcreates) (fun _ _ hquiet => hquiet)
  refine ⟨hadvances, hchained, ?_, h.named, fun queryId phase hcall hactive =>
    (h.prepared queryId phase hcall hactive).mono hadvances, ?_⟩
  . rw [hrecords.registry]
    exact h.counted
  . rw [hrecords.observed, hrecords.prepareTerminalErrors]
    exact h.reported

theorem Sound.enqueue (task : FteTaskAttemptId) (operation : String) (remote : Option PyError) :
    let s' : ControlBarrier := (ControlEvent.enqueue task operation remote).step s
    Advances s s' ∧ Sound s' := by
  unfold ControlEvent.step WorkerControls.enqueueOrderedControl
  simp only
  split
  . split <;> exact ⟨.refl s, h⟩
  . next hopen =>
    split
    . exact ⟨.refl s, h⟩
    . refine h.shared (WorkerControls.submit_moves task operation) ?_ (h.chained.submit task operation)
        ⟨rfl, rfl, rfl⟩
      rintro _ ⟨⟩
      exact hopen

theorem Sound.complete (ref : ℕ) (outcome : RefOutcome) :
    let s' : ControlBarrier := (ControlEvent.complete ref outcome).step s
    Advances s s' ∧ Sound s' := by
  refine h.shared (WorkerControls.complete_moves ref outcome) (fun _ hmade => nomatch hmade)
    (h.chained.complete ref outcome) ?_
  rcases WorkerControls.complete_cases (w := s.shared) ref outcome with hsame | ⟨r, -, -, -, hcomplete⟩
  . rw [hsame]
    exact ⟨rfl, rfl, rfl⟩
  . rw [hcomplete]
    exact ⟨rfl, rfl, rfl⟩

theorem Sound.append {call : ControlCall} (hsame : w = { s.shared with registry := w.registry })
    (hclosing : w.registry.closingQueries = s.shared.registry.closingQueries)
    (hcounted : ∀ key, w.registry.active key = s.shared.registry.active key +
      if call.holdsToken key then 1 else 0)
    (hquiet : ∀ key ∈ s.shared.registry.closingQueries, call.holdsToken key = false)
    (hcall : ∀ queryId phase, call = .prepare queryId phase →
      (registryKey queryId = queryId ∧ queryId ≠ "") ∧ phase.isActive = false) :
    Advances s ⟨w, s.phases ++ [call]⟩ ∧ Sound ⟨w, s.phases ++ [call]⟩ := by
  have hrefs : w.refs = s.shared.refs := by rw [hsame]
  have htails : w.tails = s.shared.tails := by rw [hsame]
  have hadvances : Advances s ⟨w, s.phases ++ [call]⟩ := by
    refine .of_moves h.chained (.of_same hclosing.symm.subset hrefs htails)
      (fun _ hmade => nomatch hmade) ?_ ?_
    . rintro task ref - ⟨phase, hmem, href⟩
      exact ⟨phase, List.mem_append_left _ hmem, href⟩
    . intro key hkey hold other hother
      rcases mem_append.mp hother with hmem | hmem
      . exact hold other hmem
      . rw [mem_singleton.mp hmem]
        exact hquiet key hkey
  refine ⟨hadvances, h.chained.of_same hrefs htails, ?_, ?_, ?_, ?_⟩
  . intro key
    rw [hcounted, h.counted, List.countP_append, List.countP_singleton]
    split <;> simp
  . intro queryId phase hmem
    rcases mem_append.mp hmem with hmem | hmem
    . exact h.named queryId phase hmem
    . exact (hcall queryId phase (mem_singleton.mp hmem).symm).1
  . intro queryId phase hmem hactive
    rcases mem_append.mp hmem with hmem | hmem
    . exact (h.prepared queryId phase hmem hactive).mono hadvances
    . rw [(hcall queryId phase (mem_singleton.mp hmem).symm).2] at hactive
      cases hactive
  . show ∀ queryId, ∀ failure ∈ w.observed queryId, _ ∧ ∃ failures ∈ w.prepareTerminalErrors.find? queryId, _
    rw [hsame]
    exact h.reported

theorem Sound.create (task : FteTaskAttemptId) :
    let s' : ControlBarrier := (ControlEvent.create task).step s
    Advances s s' ∧ Sound s' := by
  unfold ControlEvent.step
  simp only
  rcases FteRegistry.beginOperation_cases task.taskId.queryId s.shared.registry with
    ⟨result, hresult, hne⟩ | ⟨-, hopen, registry, hbegin, hclosing, hactive⟩
  . rw [hresult]
    split
    . next heq =>
      cases heq
      exact absurd rfl hne
    . next heq =>
      cases heq
      exact ⟨.refl s, h⟩
  . rw [hbegin]
    refine h.append rfl hclosing ?_ ?_ ?_
    . intro key
      rw [hactive]
      by_cases hkey : key = registryKey task.taskId.queryId
      . simp [ControlCall.holdsToken, CreatePhase.holdsToken, hkey]
      . simp [ControlCall.holdsToken, CreatePhase.holdsToken, hkey, Ne.symm hkey]
    . intro key hkey
      have hne : registryKey task.taskId.queryId ≠ key := fun heq => hopen (heq ▸ hkey)
      simp [ControlCall.holdsToken, CreatePhase.holdsToken, hne]
    . rintro _ _ ⟨⟩

end

theorem registryKey_registryKey (queryId : String) :
    registryKey (registryKey queryId) = registryKey queryId := by
  unfold registryKey
  exact Text.strip_strip queryId

theorem Sound.prepareDrop (h : Sound s) (queryId : String) :
    let s' : ControlBarrier := (ControlEvent.prepareDrop queryId).step s
    Advances s s' ∧ Sound s' := by
  unfold ControlEvent.step
  simp only
  split
  . exact ⟨.refl s, h⟩
  . next hne =>
    refine h.append rfl rfl ?_ (fun _ _ => rfl) ?_
    . intro key
      simp [ControlCall.holdsToken]
    . rintro _ _ ⟨⟩
      exact ⟨⟨registryKey_registryKey queryId, hne⟩, rfl⟩

theorem Sound.cleanup (h : Sound s) (queryId : String) (remote : Option String) :
    let s' : ControlBarrier := (ControlEvent.cleanup queryId remote).step s
    Advances s s' ∧ Sound s' := by
  unfold ControlEvent.step WorkerControls.cleanupQuery
  simp only
  split
  . exact ⟨.refl s, h⟩
  . split
    . exact ⟨.refl s, h⟩
    . have hadvances : ∀ w : WorkerControls, w.registry = s.shared.registry → w.refs = s.shared.refs →
          w.tails = s.shared.tails → Advances s { s with shared := w } := fun w hregistry hrefs htails =>
        .of_moves h.chained (.of_same (by rw [hregistry]) hrefs htails) (fun _ hmade => nomatch hmade)
          (fun _ _ _ hcreates => hcreates) (fun _ _ hquiet => hquiet)
      refine ⟨hadvances _ rfl rfl rfl, h.chained.of_same rfl rfl, h.counted, h.named,
        fun queryId phase hcall hactive =>
        (h.prepared queryId phase hcall hactive).mono (hadvances _ rfl rfl rfl), ?_⟩
      intro key failure hfailure
      have hfailure : failure ∈ Function.update s.shared.observed (registryKey queryId) [] key := hfailure
      by_cases hkey : key = registryKey queryId
      . rw [hkey, Function.update_self] at hfailure
        cases hfailure
      . rw [Function.update_of_ne hkey] at hfailure
        obtain ⟨hname, failures, hfailures, hmem⟩ := h.reported key failure hfailure
        refine ⟨hname, failures, ?_, hmem⟩
        show (s.shared.prepareTerminalErrors.erase (registryKey queryId)).find? key = some failures
        rw [Dict.find?_erase_of_ne _ hkey]
        exact hfailures

structure CreateAdvances (task : FteTaskAttemptId) (w w' : WorkerControls)
    (phase phase' : CreatePhase) : Prop where
  moves : ∃ made, Moves w w' made ∧
    ∀ k ∈ made, k = task ∧ w.tails.find? task = none ∧ phase'.ref? = some w.refs.length
  chained : w'.Chained
  ref : ∀ i, ¬w.Settled i → phase.ref? = some i → phase'.ref? = some i
  token : phase'.holdsToken = phase.holdsToken ∧ w'.registry = w.registry ∨
    (phase.holdsToken = true ∧ phase'.holdsToken = false) ∧
      ∀ key, w'.registry.active key =
        if key = registryKey task.taskId.queryId then w.registry.active key - 1
        else w.registry.active key
  prepareTerminalErrors : w'.prepareTerminalErrors = w.prepareTerminalErrors
  observed : w'.observed = w.observed

theorem createAdvances (input : ControlInput) (task : FteTaskAttemptId)
    (phase : CreatePhase) (hchained : w.Chained)
    (hactive : phase.holdsToken → 0 < w.registry.active (registryKey task.taskId.queryId))
    (hkeeps : (ControlCall.create task phase).Keeps input w) :
    CreateAdvances task w (phase.advance input task w).2 phase (phase.advance input task w).1 := by
  have hidle : ∀ phase', (∀ i, ¬w.Settled i → phase.ref? = some i → phase'.ref? = some i) →
      phase'.holdsToken = phase.holdsToken → CreateAdvances task w w phase phase' :=
    fun phase' href htoken => ⟨⟨none, .of_same subset_rfl rfl rfl, fun _ hmade => nomatch hmade⟩, hchained,
      href, .inl ⟨htoken, rfl⟩, rfl, rfl⟩
  have hrelease : ∀ ref, phase.ref? = some ref → phase.holdsToken = true → w.Settled ref →
      CreateAdvances task w (w.release task ref) phase .ending := by
    intro ref href htoken hsettled
    have hrecords : SameRecords w (w.release task ref) := .release
    refine ⟨⟨none, WorkerControls.release_moves hsettled, fun _ hmade => nomatch hmade⟩,
      hchained.release hsettled, ?_, .inl ⟨htoken.symm, hrecords.1⟩, hrecords.2, hrecords.3⟩
    intro i hopen hi
    rw [href] at hi
    cases hi
    exact absurd hsettled hopen
  cases phase with
  | begun =>
    simp only [CreatePhase.advance]
    split
    . next hnone _ =>
      refine ⟨⟨some task, WorkerControls.submit_moves task _, ?_⟩, hchained.submit task _, nofun,
        .inl ⟨rfl, rfl⟩, rfl, rfl⟩
      rintro _ ⟨⟩
      exact ⟨rfl, hnone, rfl⟩
    . exact hidle _ nofun rfl
  | tracking ref =>
    simp only [CreatePhase.advance]
    split
    . exact hidle _ (fun _ _ hi => hi) rfl
    . next hfuture =>
      refine hrelease ref rfl rfl ?_
      rcases hkeeps with hgiven | hsettled
      . cases hinput : input.future with
        | given notified => exact absurd hinput (hfuture notified)
        | missing =>
          rw [hinput] at hgiven
          cases hgiven
        | raises _ =>
          rw [hinput] at hgiven
          cases hgiven
      . exact hsettled
  | submitted ref =>
    simp only [CreatePhase.advance]
    split
    . next hsettled => exact hrelease ref rfl rfl hsettled
    . exact hidle _ (fun _ _ hi => hi) rfl
  | ending =>
    simp only [CreatePhase.advance]
    rcases FteRegistry.endOperation_cases task.taskId.queryId w.registry with
      ⟨hnone, -⟩ | ⟨-, registry, hend, hclosing, hcount⟩
    . exact absurd (hactive rfl) (not_lt.mpr hnone)
    . rw [hend]
      refine ⟨⟨none, .of_same hclosing.symm.subset rfl rfl, fun _ hmade => nomatch hmade⟩,
        hchained.of_same rfl rfl, nofun, .inr ⟨⟨rfl, rfl⟩, ?_⟩, rfl, rfl⟩
      intro key
      rw [hcount]
      split
      . next hkey => rw [hkey]
      . rfl
  | ended => exact hidle _ nofun rfl

section advance

variable {l₁ l₂ : List ControlCall}

theorem mem_replaced {call call' other : ControlCall} (hphases : s.phases = l₁ ++ call :: l₂)
    (hother : other ∈ l₁ ++ call' :: l₂) : other = call' ∨ other ∈ s.phases := by
  rw [hphases]
  simp only [mem_append, mem_cons] at hother ⊢
  tauto

theorem countP_replaced (p : ControlCall → Bool) (call call' : ControlCall) :
    ((l₁ ++ call' :: l₂).countP p : ℤ) =
      (l₁ ++ call :: l₂).countP p + (if p call' then 1 else 0) - (if p call then 1 else 0) := by
  simp only [List.countP_append, List.countP_cons]
  split <;> split <;> push_cast <;> omega

theorem Sound.advanceCreate (h : Sound s) {task : FteTaskAttemptId} {phase : CreatePhase}
    (hphases : s.phases = l₁ ++ .create task phase :: l₂) {input : ControlInput}
    (hkeeps : (ControlCall.create task phase).Keeps input s.shared) :
    let s' : ControlBarrier := ⟨(phase.advance input task s.shared).2,
      l₁ ++ .create task (phase.advance input task s.shared).1 :: l₂⟩
    Advances s s' ∧ Sound s' := by
  have hmem : .create task phase ∈ s.phases := by
    rw [hphases]
    exact mem_append_right _ mem_cons_self
  have hactive : phase.holdsToken → 0 < s.shared.registry.active (registryKey task.taskId.queryId) := by
    intro htoken
    rw [h.counted]
    have hpos : 0 < s.phases.countP (ControlCall.holdsToken (registryKey task.taskId.queryId)) := by
      rw [List.countP_pos_iff]
      exact ⟨_, hmem, by simp [ControlCall.holdsToken, htoken]⟩
    exact_mod_cast hpos
  have hstep := createAdvances input task phase h.chained hactive hkeeps
  generalize (phase.advance input task s.shared).1 = phase' at hstep
  generalize (phase.advance input task s.shared).2 = w at hstep
  obtain ⟨made, hmoves, hmade⟩ := hstep.moves
  have hadvances : Advances s ⟨w, l₁ ++ .create task phase' :: l₂⟩ := by
    refine .of_moves h.chained hmoves ?_ ?_ ?_
    . intro k hk
      obtain ⟨rfl, hnone, href⟩ := hmade k hk
      exact .inr ⟨hnone, phase', mem_append_right _ mem_cons_self, href⟩
    . rintro k ref hopen ⟨other, hother, href⟩
      rw [hphases] at hother
      rcases mem_append.mp hother with hl₁ | hcons
      . exact ⟨other, List.mem_append_left _ hl₁, href⟩
      . rcases mem_cons.mp hcons with heq | hl₂
        . cases heq
          exact ⟨phase', mem_append_right _ mem_cons_self, hstep.ref ref hopen href⟩
        . exact ⟨other, mem_append_right _ (List.mem_cons_of_mem _ hl₂), href⟩
    . intro key _ hquiet other hother
      rcases mem_replaced hphases hother with rfl | hold
      . have hbefore := hquiet _ hmem
        rcases hstep.token with ⟨hsame, -⟩ | ⟨⟨-, hnone⟩, -⟩
        . simpa only [ControlCall.holdsToken, hsame] using hbefore
        . simp [ControlCall.holdsToken, hnone]
      . exact hquiet other hold
  refine ⟨hadvances, hstep.chained, ?_, ?_, ?_, ?_⟩
  . intro key
    rw [countP_replaced _ (.create task phase), ← hphases, ← h.counted key]
    show w.registry.active key = _
    rcases hstep.token with ⟨hsame, hregistry⟩ | ⟨⟨hheld, hnone⟩, hcount⟩
    . simp [ControlCall.holdsToken, hsame, hregistry]
    . rw [hcount]
      by_cases hkey : key = registryKey task.taskId.queryId
      . simp [ControlCall.holdsToken, hheld, hnone, hkey]
      . simp [ControlCall.holdsToken, hheld, hnone, hkey, Ne.symm hkey]
  . intro queryId phase hcall
    rcases mem_replaced hphases hcall with heq | hold
    . cases heq
    . exact h.named queryId phase hold
  . intro queryId phase hcall hlive
    rcases mem_replaced hphases hcall with heq | hold
    . cases heq
    . exact (h.prepared queryId phase hold hlive).mono hadvances
  . show ∀ queryId, ∀ failure ∈ w.observed queryId, _ ∧
      ∃ failures ∈ w.prepareTerminalErrors.find? queryId, _
    rw [hstep.observed, hstep.prepareTerminalErrors]
    exact h.reported

end advance

theorem find?_recordTerminal {failures : List String} {key : String}
    {recorded : List String} (h : w.prepareTerminalErrors.find? key = some recorded) :
    (w.recordTerminal queryId failures).prepareTerminalErrors.find? key = some recorded := by
  unfold WorkerControls.recordTerminal
  split
  . exact h
  . next hnone =>
    have hne : key ≠ queryId := by
      rintro rfl
      rw [hnone] at h
      cases h
    rw [Dict.find?_insert_of_ne _ _ hne]
    exact h

theorem recordTerminal_same (queryId : String) (w : WorkerControls) (failures : List String) :
    w.recordTerminal queryId failures = { w with
      prepareTerminalErrors := (w.recordTerminal queryId failures).prepareTerminalErrors } := by
  unfold WorkerControls.recordTerminal
  split <;> rfl

structure PrepareAdvances (queryId : String) (w w' : WorkerControls) (phase : PreparePhase) : Prop where
  moves : Moves w w' none
  chained : w'.Chained
  active : ∀ key, w'.registry.active key = w.registry.active key
  recorded : ∀ key failures, w.prepareTerminalErrors.find? key = some failures →
    w'.prepareTerminalErrors.find? key = some failures
  observed : w'.observed = w.observed ∨ ∃ r, phase = .recording r ∧
    w'.observed = Function.update w.observed queryId (w.observed queryId ++ r.errors) ∧
    ∃ failures, w'.prepareTerminalErrors.find? queryId = some failures ∧
      (failures = r.errors ∨ w.prepareTerminalErrors.find? queryId = some failures)

theorem prepareAdvances (input : ControlInput) (queryId : String)
    (phase : PreparePhase) (hchained : w.Chained) (hterminal : ∀ entry ∈ phase.terminal, w.Settled entry.ref) :
    PrepareAdvances queryId w (phase.advance input queryId w).2 phase := by
  have hsame : PrepareAdvances queryId w w phase :=
    ⟨.of_same subset_rfl rfl rfl, hchained, fun _ => rfl, fun _ _ hfailures => hfailures, .inl rfl⟩
  have hrecord : ∀ failures, PrepareAdvances queryId w (w.recordTerminal queryId failures) phase := by
    intro failures
    have heq := recordTerminal_same queryId w failures
    have hfind : ∀ key recorded, w.prepareTerminalErrors.find? key = some recorded →
        (w.recordTerminal queryId failures).prepareTerminalErrors.find? key = some recorded :=
      fun _ _ => find?_recordTerminal
    generalize (w.recordTerminal queryId failures).prepareTerminalErrors = errors at heq hfind
    rw [heq]
    exact ⟨.of_same subset_rfl rfl rfl, hchained.of_same rfl rfl, fun _ => rfl, hfind, .inl rfl⟩
  cases phase with
  | closing =>
    have hspec := FteRegistry.closeForQuery_spec queryId w.registry
    exact ⟨.of_same hspec.1 rfl rfl, hchained.of_same rfl rfl, hspec.2, fun _ _ hfailures => hfailures,
      .inl rfl⟩
  | marking =>
    exact ⟨.of_same subset_rfl rfl rfl, hchained.of_same rfl rfl, fun _ => rfl,
      fun _ _ hfailures => hfailures, .inl rfl⟩
  | taking =>
    simp only [PreparePhase.advance]
    split <;> exact hsame
  | resolving entries =>
    simp only [PreparePhase.advance]
    split <;> exact hsame
  | reading r =>
    simp only [PreparePhase.advance]
    split <;> exact hsame
  | removing r =>
    simp only [PreparePhase.advance]
    obtain ⟨hmoves, hchained', hrecords⟩ := WorkerControls.releases_spec r.terminal hterminal hchained
    refine ⟨hmoves, hchained', ?_, ?_, .inl hrecords.3⟩
    . rw [hrecords.1]
      exact fun _ => rfl
    . rw [hrecords.2]
      exact fun _ _ hfailures => hfailures
  | recording r =>
    simp only [PreparePhase.advance]
    split
    . exact hsame
    . have hrecorded := hrecord r.errors
      refine ⟨?_, hrecorded.chained.of_same rfl rfl, hrecorded.active, hrecorded.recorded,
        .inr ⟨r, rfl, ?_, ?_⟩⟩
      . exact ⟨hrecorded.moves.closing, hrecorded.moves.settled, hrecorded.moves.pending,
          hrecorded.moves.tails, hrecorded.moves.known⟩
      . have heq := recordTerminal_same queryId w r.errors
        unfold WorkerControls.observe
        rw [heq]
      . cases hold : w.prepareTerminalErrors.find? queryId with
        | some failures => exact ⟨failures, find?_recordTerminal hold, .inr rfl⟩
        | none =>
          refine ⟨r.errors, ?_, .inl rfl⟩
          unfold WorkerControls.recordTerminal
          rw [hold]
          exact Dict.find?_insert_self _ _ _
  | fencing r quiesce =>
    cases quiesce with
    | succeeded =>
      simp only [PreparePhase.advance]
      split <;> exact hsame
    | _ => exact hsame
  | confirming r =>
    simp only [PreparePhase.advance]
    split
    . exact hsame
    . exact hrecord r.errors
  | submitting r => exact hsame
  | submitted r =>
    simp only [PreparePhase.advance]
    split <;> exact hsame
  | succeeded => exact hsame
  | failed e => exact hsame

theorem settled_of_resolveAll {entries : List BarrierEntry}
    {resolved : List (BarrierEntry × Option ControlStatus)}
    (h : resolveAll w entries = some resolved) : ∀ entry ∈ entries, w.Settled entry.ref := by
  induction entries generalizing resolved with
  | nil => exact nofun
  | cons first rest ih =>
    unfold resolveAll at h
    rw [List.mapM_cons] at h
    obtain ⟨one, hone, h⟩ := Option.bind_eq_some_iff.mp h
    obtain ⟨others, hothers, -⟩ := Option.bind_eq_some_iff.mp h
    intro entry hentry
    rcases mem_cons.mp hentry with rfl | hrest
    . unfold WorkerControls.Settled
      split at hone
      . next houtcome => rw [houtcome]; rfl
      . cases hone
    . exact ih hothers entry hrest

theorem read_cases (future : FutureAccess) (outcome : Option RefOutcome) (entry : BarrierEntry)
    (rest : List BarrierEntry) (r : BarrierReading) :
    let r' := r.read future outcome entry rest
    r'.rest = rest ∧
      (r'.result.terminal = r.result.terminal ++ [entry] ∧ r'.result.pending = r.result.pending ∧
          (future.isGiven → outcome.isSome) ∨
        r'.result.terminal = r.result.terminal ∧ r'.result.pending = r.result.pending ++ [entry]) := by
  cases future with
  | missing => exact ⟨rfl, .inl ⟨rfl, rfl, nofun⟩⟩
  | raises description => exact ⟨rfl, .inl ⟨rfl, rfl, nofun⟩⟩
  | given notified =>
    cases outcome with
    | none => cases notified <;> exact ⟨rfl, .inr ⟨rfl, rfl⟩⟩
    | some outcome =>
      cases notified with
      | false => exact ⟨rfl, .inr ⟨rfl, rfl⟩⟩
      | true => cases outcome <;> exact ⟨rfl, .inl ⟨rfl, rfl, fun _ => rfl⟩⟩

theorem hasPassed_advance (hcounted : ∀ key, s.shared.registry.active key =
      (s.phases.countP (ControlCall.holdsToken key) : ℤ)) (hkey : registryKey queryId = queryId)
    {quiesce : QuiescePhase} {input : QuiesceInput}
    (hquiet : RegistryLifecycle.HasPassed ⟨queryId, false, 0, quiesce⟩ → s.Quiet queryId)
    (hpassed : RegistryLifecycle.HasPassed ⟨queryId, false, 0,
      (QuiesceCall.advance input { registry := s.shared.registry } ⟨queryId, false, 0, quiesce⟩).1.phase⟩) :
    s.Quiet queryId := by
  have hadvances := RegistryLifecycle.advance_advances input { registry := s.shared.registry }
    ⟨queryId, false, 0, quiesce⟩
  rcases hadvances.passed hpassed with hbefore | hidle
  . exact hquiet hbefore
  . have hidle : s.shared.registry.active (registryKey queryId) ≤ 0 := hidle
    rw [hkey, hcounted] at hidle
    have hzero : s.phases.countP (ControlCall.holdsToken queryId) = 0 := by omega
    intro call hcall
    exact Bool.not_eq_true _ ▸ List.countP_eq_zero.mp hzero call hcall

theorem Prepared.advance (hsound : Sound s) {phase : PreparePhase} (h : s.Prepared queryId phase)
    (hkey : registryKey queryId = queryId) {input : ControlInput}
    (hkeeps : (prepare queryId phase).Keeps input s.shared) (hactive : phase.isActive)
    (hactive' : (phase.advance input queryId s.shared).1.isActive) :
    s.Prepared queryId (phase.advance input queryId s.shared).1 := by
  have hquiet : ∀ phase' : PreparePhase, phase'.terminal = [] →
      (∀ entries ∈ phase'.waiting?, s.Covers queryId entries) →
      (phase'.IsQuiet queryId → s.Quiet queryId) → s.Prepared queryId phase' := by
    intro phase' hterminal hcovered hquiet
    refine ⟨h.closed, hcovered, ?_, hquiet⟩
    simp [hterminal]
  cases phase with
  | closing | succeeded => cases hactive
  | failed e => cases hactive
  | marking => exact hquiet _ rfl (by rintro _ ⟨⟩) False.elim
  | taking =>
    have hcovers := covers_entriesOf hsound.chained queryId
    simp only [PreparePhase.advance]
    split
    . next hnone =>
      rw [hnone] at hcovers
      refine hquiet _ rfl ?_ (by simp [PreparePhase.IsQuiet, RegistryLifecycle.HasPassed])
      rintro _ ⟨⟩
      exact hcovers
    . refine hquiet _ rfl ?_ False.elim
      rintro _ ⟨⟩
      exact hcovers
  | resolving entries =>
    have hcovers := h.covered entries rfl
    simp only [PreparePhase.advance]
    split
    . refine hquiet _ rfl ?_ False.elim
      rintro _ ⟨⟩
      rw [List.append_nil]
      exact hcovers
    . next hresolved =>
      have hsettled := settled_of_resolveAll hresolved
      refine ⟨h.closed, ?_, hsettled, False.elim⟩
      rintro _ ⟨⟩
      exact hcovers.of_settled hsound.chained fun entry hentry => .inr (hsettled entry hentry)
    . exact h
  | reading r =>
    have hcovers := h.covered _ rfl
    simp only [PreparePhase.advance]
    split
    . next hrest =>
      refine ⟨h.closed, ?_, h.terminal, False.elim⟩
      rintro _ ⟨⟩
      rw [hrest] at hcovers
      exact hcovers
    . next entry rest hrest =>
      have hsettled := hkeeps entry (by rw [hrest]; rfl)
      rw [hrest] at hcovers
      obtain ⟨hnext, hcases⟩ := read_cases input.future (s.shared.outcome entry.ref) entry rest r
      generalize r.read input.future (s.shared.outcome entry.ref) entry rest = r' at hnext hcases
      rcases hcases with ⟨hterminal, hpending, hdone⟩ | ⟨hterminal, hpending⟩
      . have hentry : s.shared.Settled entry.ref := by
          rcases hsettled with hgiven | hsettled
          . exact hdone hgiven
          . exact hsettled
        refine ⟨h.closed, ?_, ?_, False.elim⟩
        . rintro _ ⟨⟩
          refine hcovers.of_settled hsound.chained ?_
          rw [hnext, hpending]
          intro other hother
          rcases mem_cons.mp hother with rfl | hmem
          . exact .inr hentry
          . exact .inl hmem
        . intro other hother
          have hother : other ∈ r'.result.terminal := hother
          rw [hterminal] at hother
          rcases mem_append.mp hother with hold | hnew
          . exact h.terminal other hold
          . rw [mem_singleton.mp hnew]
            exact hentry
      . refine ⟨h.closed, ?_, ?_, False.elim⟩
        . rintro _ ⟨⟩
          refine hcovers.of_settled hsound.chained ?_
          rw [hnext, hpending]
          intro other hother
          simp only [List.cons_append, mem_cons, mem_append] at hother
          simp only [mem_append, mem_singleton]
          tauto
        . intro other hother
          have hother : other ∈ r'.result.terminal := hother
          rw [hterminal] at hother
          exact h.terminal other hother
  | removing r => exact hquiet _ rfl h.covered False.elim
  | recording r =>
    show s.Prepared queryId (.fencing r .stopping)
    exact hquiet _ rfl h.covered (by simp [PreparePhase.IsQuiet, RegistryLifecycle.HasPassed])
  | fencing r quiesce =>
    have hgoes : ∀ phase', phase' = fencing r (QuiesceCall.advance input.quiesce
        { registry := s.shared.registry } ⟨queryId, false, 0, quiesce⟩).1.phase →
        s.Prepared queryId phase' := by
      rintro _ rfl
      exact hquiet _ rfl h.covered fun hpassed => hasPassed_advance hsound.counted hkey h.quiet hpassed
    cases quiesce with
    | succeeded =>
      simp only [PreparePhase.advance] at hactive' ⊢
      split at hactive'
      . cases hactive'
      . next hnone =>
        rw [if_neg hnone]
        refine hquiet _ rfl ?_ fun _ => h.quiet (.inr (.inr rfl))
        rintro _ ⟨⟩
        have hcovers := h.covered _ rfl
        rw [not_not.mp hnone] at hcovers
        exact hcovers
    | failed e => cases hactive'
    | stopping => exact hgoes _ rfl
    | waiting => exact hgoes _ rfl
    | joining => exact hgoes _ rfl
    | dropping => exact hgoes _ rfl
  | confirming r => exact hquiet _ rfl h.covered h.quiet
  | submitting r => exact hquiet _ rfl h.covered h.quiet
  | submitted r =>
    simp only [PreparePhase.advance] at hactive'
    split at hactive' <;> cases hactive'

section advance

variable {l₁ l₂ : List ControlCall}

theorem Sound.advancePrepare (h : Sound s) {phase : PreparePhase}
    (hphases : s.phases = l₁ ++ .prepare queryId phase :: l₂) {input : ControlInput}
    (hkeeps : (prepare queryId phase).Keeps input s.shared) :
    let s' : ControlBarrier := ⟨(phase.advance input queryId s.shared).2,
      l₁ ++ .prepare queryId (phase.advance input queryId s.shared).1 :: l₂⟩
    Advances s s' ∧ Sound s' := by
  have hmem : .prepare queryId phase ∈ s.phases := by
    rw [hphases]
    exact mem_append_right _ mem_cons_self
  have hnamed := h.named queryId phase hmem
  have hprepared := h.prepared queryId phase hmem
  have hterminal : ∀ entry ∈ phase.terminal, s.shared.Settled entry.ref := by
    intro entry hentry
    refine (hprepared ?_).terminal entry hentry
    cases phase <;> first | rfl | cases hentry
  have hstep := prepareAdvances input queryId phase h.chained hterminal
  have hnext : phase.isActive → (phase.advance input queryId s.shared).1.isActive →
      s.Prepared queryId (phase.advance input queryId s.shared).1 :=
    fun hactive => (hprepared hactive).advance h hnamed.1 hkeeps hactive
  have hcloses : phase.isActive = false → (phase.advance input queryId s.shared).1.isActive →
      (phase.advance input queryId s.shared).1 = .marking ∧
        queryId ∈ (phase.advance input queryId s.shared).2.registry.closingQueries := by
    intro hidle hactive
    cases phase with
    | closing =>
      have hclosed := FteRegistry.closingQueries_closeForQuery (g := s.shared.registry)
        (show registryKey queryId ≠ "" from hnamed.1.symm ▸ hnamed.2)
      rw [hnamed.1] at hclosed
      exact ⟨rfl, hclosed⟩
    | succeeded => cases hactive
    | failed e => cases hactive
    | _ => cases hidle
  have hhides : ∀ r, phase = .recording r →
      ∀ failures ∈ s.shared.prepareTerminalErrors.find? queryId, ∀ failure ∈ r.errors,
        failure ∈ failures := by
    rintro r rfl
    exact hkeeps
  generalize (phase.advance input queryId s.shared).1 = phase' at hnext hcloses
  generalize (phase.advance input queryId s.shared).2 = w at hstep hcloses
  have hadvances : Advances s ⟨w, l₁ ++ .prepare queryId phase' :: l₂⟩ := by
    refine .of_moves h.chained hstep.moves (fun _ hmade => nomatch hmade) ?_ ?_
    . rintro task ref - ⟨other, hother, href⟩
      refine ⟨other, ?_, href⟩
      rw [hphases] at hother
      simp only [mem_append, mem_cons, reduceCtorEq, false_or] at hother ⊢
      exact hother
    . intro key _ hquiet other hother
      rcases mem_replaced hphases hother with rfl | hold
      . rfl
      . exact hquiet other hold
  refine ⟨hadvances, hstep.chained, ?_, ?_, ?_, ?_⟩
  . intro key
    rw [countP_replaced _ (.prepare queryId phase), ← hphases, ← h.counted key]
    show w.registry.active key = _
    rw [hstep.active]
    simp [ControlCall.holdsToken]
  . intro key other hcall
    rcases mem_replaced hphases hcall with heq | hold
    . cases heq
      exact hnamed
    . exact h.named key other hold
  . intro key other hcall hlive
    rcases mem_replaced hphases hcall with heq | hold
    . cases heq
      cases hactive : phase.isActive with
      | true => exact (hnext hactive hlive).mono hadvances
      | false =>
        obtain ⟨rfl, hclosed⟩ := hcloses hactive hlive
        exact ⟨hclosed, nofun, nofun, nofun⟩
    . exact (h.prepared key other hold hlive).mono hadvances
  . intro key failure hfailure
    have hfailure : failure ∈ w.observed key := hfailure
    have hbefore : failure ∈ s.shared.observed key → (registryKey key = key ∧ key ≠ "") ∧
        ∃ failures ∈ w.prepareTerminalErrors.find? key, failure ∈ failures := by
      intro hobserved
      obtain ⟨hname, failures, hfailures, hmem⟩ := h.reported key failure hobserved
      exact ⟨hname, failures, hstep.recorded key failures hfailures, hmem⟩
    rcases hstep.observed with hsame | ⟨r, hphase, hobserved, failures, hfailures, hcases⟩
    . exact hbefore (hsame ▸ hfailure)
    . rw [hobserved] at hfailure
      by_cases hkey : key = queryId
      . subst hkey
        rw [Function.update_self] at hfailure
        rcases mem_append.mp hfailure with hold | hnew
        . exact hbefore hold
        . refine ⟨hnamed, failures, hfailures, ?_⟩
          rcases hcases with rfl | hold
          . exact hnew
          . exact hhides r hphase failures hold failure hnew
      . rw [Function.update_of_ne hkey] at hfailure
        exact hbefore hfailure

end advance

theorem Sound.step (h : Sound s) {event : ControlEvent} (hkeeps : event.Keeps s) :
    Advances s (event.step s) ∧ Sound (event.step s) := by
  cases event with
  | enqueue task operation remote => exact h.enqueue task operation remote
  | create task => exact h.create task
  | complete ref outcome => exact h.complete ref outcome
  | prepareDrop queryId => exact h.prepareDrop queryId
  | cleanup queryId remote => exact h.cleanup queryId remote
  | advance i input =>
    show Advances s (Calls.advanceAt (ControlCall.advance input) i s) ∧
      Sound (Calls.advanceAt (ControlCall.advance input) i s)
    unfold Calls.advanceAt
    split
    . exact ⟨.refl s, h⟩
    . next call hcall =>
      have hkeeps := hkeeps call hcall
      obtain ⟨hlt, hget⟩ := List.getElem?_eq_some_iff.mp hcall
      have hphases : s.phases = s.phases.take i ++ call :: s.phases.drop (i + 1) := by
        rw [← hget, List.getElem_cons_drop, List.take_append_drop]
      rw [List.set_eq_take_append_cons_drop, if_pos hlt]
      cases call with
      | create task phase => exact h.advanceCreate hphases hkeeps
      | prepare queryId phase => exact h.advancePrepare hphases hkeeps

theorem Sound.initial : Sound .initial := ⟨⟨nofun, nofun, nofun⟩, fun _ => rfl, nofun, nofun, nofun⟩

theorem Sound.run {events : List ControlEvent}
    (h : Run.Always ControlEvent.step ControlEvent.Keeps events .initial) :
    Sound (Run.run ControlEvent.step events .initial) :=
  Run.run_invariant_of_always Sound (fun _ _ hkeeps hsound => (hsound.step hkeeps).2) h .initial

theorem control_barrier_holds (events : List ControlEvent) (event : ControlEvent)
    (h : Run.Always ControlEvent.step ControlEvent.Keeps (events ++ [event]) .initial) :
    let s : ControlBarrier := Run.run ControlEvent.step events .initial
    let s' : ControlBarrier := event.step s
    (∀ task t, s.shared.tails.find? task = some t → s'.shared.tails.find? task = none →
      s.shared.Settled t.ref) ∧
    (∀ queryId r, .prepare queryId (.submitted r) ∈ s'.phases →
      ∀ ref ∈ s'.shared.refs, ref.task.taskId.queryId = queryId → ref.outcome.isSome) ∧
    ∀ queryId, ∀ failure ∈ s'.shared.observed queryId, ∃ failures, failure ∈ failures ∧
      (s'.shared.cleanupQuery queryId none).1 = .error (.runtimeError
        ("FTE query teardown reached a terminal control failure for " ++ queryId ++ ": " ++
          terminalMessage queryId failures)) := by
  intro s s'
  obtain ⟨hevents, hevent⟩ := Run.always_append.mp h
  have hsound : Sound s := .run hevents
  obtain ⟨hadvances, hsound'⟩ := hsound.step hevent.1
  refine ⟨hadvances.removed, ?_, ?_⟩
  . intro queryId r hcall ref href hquery
    obtain ⟨i, hi⟩ := List.mem_iff_getElem?.mp href
    have hprepared := hsound'.prepared queryId _ hcall rfl
    exact (hprepared.covered [] rfl).settled (hprepared.quiet trivial)
      (hsound'.named queryId _ hcall).1 hi hquery
  . intro queryId failure hfailure
    obtain ⟨⟨hkey, hne⟩, failures, hfailures, hmem⟩ := hsound'.reported queryId failure hfailure
    refine ⟨failures, hmem, ?_⟩
    have hfind : s'.shared.prepareTerminalErrors.find? queryId = some failures := hfailures
    unfold WorkerControls.cleanupQuery
    simp only
    rw [hkey, if_neg hne, hfind]

def teardownSteps (call steps : ℕ) : List ControlEvent :=
  List.replicate steps (.advance call { wait := some "TimeoutError: " })

def retriedTeardown (second : RefOutcome) : List ControlEvent :=
  [.enqueue ⟨⟨"q", 0, 0⟩, 0⟩ "fte_add_splits" none, .enqueue ⟨⟨"q", 0, 1⟩, 0⟩ "fte_add_splits" none,
    .complete 0 (.raised "RuntimeError: a"), .prepareDrop "q"] ++ teardownSteps 0 13 ++
  [.complete 1 second, .prepareDrop "q"] ++ teardownSteps 1 14

theorem second_failure_is_hidden :
    let s : ControlBarrier := Run.run ControlEvent.step
      (retriedTeardown (.raised "RuntimeError: b") ++ teardownSteps 1 1) .initial
    (match s.phases[1]? with
      | some (.prepare _ .succeeded) => true
      | _ => false) = true ∧
    "task=q.0.1.0: RuntimeError: b" ∈ s.shared.observed "q" ∧
      (s.shared.cleanupQuery "q" none).1 = .error (.runtimeError
        ("FTE query teardown reached a terminal control failure for q: FTE control barrier " ++
          "reached terminal failures for q: task=q.0.0.0: RuntimeError: a")) := by
  decide +kernel

theorem control_barrier_holds_when_retried :
    let events := retriedTeardown (.value (some {
      taskIdString := some ⟨"'q.0.1.0'", some ⟨⟨"q", 0, 1⟩, 0⟩⟩
      operation := some "fte_add_splits"
      applied := true }))
    let s' : ControlBarrier := ControlEvent.step (.advance 1 {}) (Run.run ControlEvent.step events .initial)
    ∃ failures, "task=q.0.0.0: RuntimeError: a" ∈ failures ∧
      (s'.shared.cleanupQuery "q" none).1 = .error (.runtimeError
        ("FTE query teardown reached a terminal control failure for " ++ "q" ++ ": " ++
          terminalMessage "q" failures)) := by
  intro events s'
  have hkeeps : Run.Always ControlEvent.step ControlEvent.Keeps (events ++ [.advance 1 {}]) .initial := by
    decide +kernel
  have hobserved : "task=q.0.0.0: RuntimeError: a" ∈ s'.shared.observed "q" := by
    decide +kernel
  exact (control_barrier_holds events (.advance 1 {}) hkeeps).2.2 "q" _ hobserved

end ControlBarrier

end Vane
