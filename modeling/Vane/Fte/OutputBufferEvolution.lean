import Vane.Fte.TaskDescriptorLemmas

/-!
This module contains how the output buffers of a descriptor evolve under its updates.
-/

namespace Vane

open Py (bind_apply ensures_bind keeps_bind keeps_pure)
open OutputBuffers (isEqual merge)

namespace OutputBuffers

variable {current next : Option OutputBuffers} {b u : OutputBuffers} {sent : List OutputBuffers}

inductive Merge (u : OutputBuffers) : Option OutputBuffers → Option OutputBuffers → Prop
  | first : Merge u none (some u)
  | older (b : OutputBuffers) (h : u.version < b.version) : Merge u (some b) (some b)
  | repeated (b : OutputBuffers) (hversion : u.version = b.version) (h : u.isEqual b) :
    Merge u (some b) (some b)
  | newer (b : OutputBuffers) (hversion : b.version < u.version)
      (h : validateTransition b u = .ok ()) : Merge u (some b) (some u)

theorem after_some_iff : after current (some u) = .ok next ↔ Merge u current next := by
  unfold after merge
  cases current with
  | none =>
    constructor
    . rintro ⟨⟩
      exact .first
    . rintro ⟨⟩
      rfl
  | some b =>
    simp only
    split
    . next hlt =>
      constructor
      . rintro ⟨⟩
        exact .older b hlt
      . intro h
        cases h with
        | older _ _ => rfl
        | repeated _ _ _ => rfl
        | newer _ hversion _ => omega
    . split
      . next hlt heq =>
        split
        . next hequal =>
          constructor
          . rintro ⟨⟩
            exact .repeated b heq hequal
          . intro h
            cases h with
            | older _ _ => rfl
            | repeated _ _ _ => rfl
            | newer _ hversion _ => omega
        . next hequal =>
          constructor
          . rintro ⟨⟩
          . intro h
            cases h with
            | older _ h => omega
            | repeated _ _ h => exact absurd h hequal
            | newer _ hversion _ => omega
      . next hlt heq =>
        constructor
        . intro h
          cases hvalidate : validateTransition b u with
          | error e =>
            rw [hvalidate] at h
            cases h
          | ok _ =>
            rw [hvalidate] at h
            cases h
            exact .newer b (by omega) hvalidate
        . intro h
          cases h with
          | older _ h => exact absurd h hlt
          | repeated _ h _ => exact absurd h heq
          | newer _ _ h =>
            rw [h]
            rfl

theorem validateTransition_ok (h : validateTransition b u = .ok ()) :
    ¬(b.type.isSome ∧ u.type.isSome ∧ b.type ≠ u.type) ∧
    ¬(b.noMoreBufferIds ∧ ¬b.isEqual u) ∧
    ¬(b.outputPartitionCount.isSome ∧ u.outputPartitionCount.isSome ∧
      b.outputPartitionCount ≠ u.outputPartitionCount) := by
  obtain ⟨_, htype, h⟩ := Except.ok_of_bind h
  obtain ⟨_, hsealed, h⟩ := Except.ok_of_bind h
  obtain ⟨_, hcount, h⟩ := Except.ok_of_bind h
  exact ⟨Except.raiseIf_eq_ok_iff.mp htype, Except.raiseIf_eq_ok_iff.mp hsealed,
    Except.raiseIf_eq_ok_iff.mp hcount⟩

structure Evolves (b b' : OutputBuffers) : Prop where
  version : b.version ≤ b'.version
  type : b.type.isSome → b'.type = b.type
  count : b.outputPartitionCount.isSome → b'.outputPartitionCount = b.outputPartitionCount
  isSealed : b.noMoreBufferIds → b' = b

theorem Evolves.refl (b : OutputBuffers) : Evolves b b :=
  ⟨le_rfl, fun _ => rfl, fun _ => rfl, fun _ => rfl⟩

theorem Evolves.trans {b' b'' : OutputBuffers} (h : Evolves b b') (h' : Evolves b' b'') :
    Evolves b b'' where
  version := h.version.trans h'.version
  type htype := (h'.type (by rwa [h.type htype])).trans (h.type htype)
  count hcount := (h'.count (by rwa [h.count hcount])).trans (h.count hcount)
  isSealed hsealed := (h'.isSealed (by rwa [h.isSealed hsealed])).trans (h.isSealed hsealed)

def Restates (u b : OutputBuffers) : Prop :=
  b.version < u.version → (b.type.isSome → u.type.isSome) ∧
    (b.outputPartitionCount.isSome → u.outputPartitionCount.isSome)

instance (u b : OutputBuffers) : Decidable (u.Restates b) := inferInstanceAs (Decidable (_ → _))

theorem Merge.evolves {next : Option OutputBuffers} (h : Merge u (some b) next)
    (hu : u.Restates b) : ∃ b', next = some b' ∧ Evolves b b' := by
  cases h with
  | older _ _ => exact ⟨b, rfl, .refl b⟩
  | repeated _ _ _ => exact ⟨b, rfl, .refl b⟩
  | newer _ hversion h =>
    obtain ⟨htype, hsealed, hcount⟩ := validateTransition_ok h
    obtain ⟨hhas, hhas'⟩ := hu hversion
    refine ⟨u, rfl, hversion.le, ?_, ?_, ?_⟩
    . intro hsome
      by_contra hne
      exact htype ⟨hsome, hhas hsome, fun h => hne h.symm⟩
    . intro hsome
      by_contra hne
      exact hcount ⟨hsome, hhas' hsome, fun h => hne h.symm⟩
    . intro hs
      exfalso
      -- A newer version differs at least in its number.
      apply hsealed ⟨hs, ?_⟩
      intro hequal
      simp only [isEqual, decide_eq_true_eq] at hequal
      omega

structure Latest (sent : List OutputBuffers) (b : Option OutputBuffers) : Prop where
  mem : ∀ b' ∈ b, b' ∈ sent
  newest : ∀ u ∈ sent, ∃ b' ∈ b, u.version < b'.version ∨ u.version = b'.version ∧ u.isEqual b'

theorem Latest.append {b : OutputBuffers} (hmem : b ∈ sent ++ [u])
    (hsent : ∀ v ∈ sent, v.version < b.version ∨ v.version = b.version ∧ v.isEqual b)
    (hu : u.version < b.version ∨ u.version = b.version ∧ u.isEqual b) :
    Latest (sent ++ [u]) (some b) where
  mem := by
    rintro _ ⟨⟩
    exact hmem
  newest := by
    intro v hv
    refine ⟨b, rfl, ?_⟩
    rcases List.mem_append.mp hv with hv | hv
    . exact hsent v hv
    . rw [List.mem_singleton.mp hv]
      exact hu

theorem Merge.latest (h : Merge u current next)
    (hcurrent : Latest sent current) : Latest (sent ++ [u]) next := by
  have hself : u.version < u.version ∨ u.version = u.version ∧ u.isEqual u :=
    .inr ⟨rfl, u.isEqual_refl⟩
  have hsent : ∀ b ∈ current, ∀ v ∈ sent,
      v.version < b.version ∨ v.version = b.version ∧ v.isEqual b := by
    intro b hb v hv
    obtain ⟨b', hb', hnewest⟩ := hcurrent.newest v hv
    rwa [Option.mem_unique hb hb']
  cases h with
  | first =>
    apply Latest.append (by simp) _ hself
    intro v hv
    obtain ⟨_, ⟨⟩, -⟩ := hcurrent.newest v hv
  | older b h =>
    exact .append (by simp [hcurrent.mem b rfl]) (hsent b rfl) (.inl h)
  | repeated b hversion h =>
    exact .append (by simp [hcurrent.mem b rfl]) (hsent b rfl) (.inr ⟨hversion, h⟩)
  | newer b hversion h =>
    apply Latest.append (by simp) _ hself
    intro v hv
    left
    rcases hsent b rfl v hv with hlt | ⟨heq, -⟩ <;> omega

def Same (b c : Option OutputBuffers) : Prop :=
  b.isSome = c.isSome ∧ ∀ b' ∈ b, ∀ c' ∈ c, b'.isEqual c'

theorem Latest.same {sent' : List OutputBuffers} {b c : Option OutputBuffers}
    (h : Latest sent b) (h' : Latest sent' c) (hsent : ∀ u, u ∈ sent ↔ u ∈ sent') : Same b c := by
  have hsome : ∀ {sent sent' : List OutputBuffers} {b c : Option OutputBuffers}, Latest sent b →
      Latest sent' c → (∀ u, u ∈ sent ↔ u ∈ sent') → ∀ b' ∈ b, ∃ c' ∈ c,
        b'.version < c'.version ∨ b'.version = c'.version ∧ b'.isEqual c' := by
    intro sent sent' b c h h' hsent b' hb'
    exact h'.newest b' ((hsent b').mp (h.mem b' hb'))
  constructor
  . rw [Bool.eq_iff_iff, Option.isSome_iff_exists, Option.isSome_iff_exists]
    constructor
    . rintro ⟨b', hb'⟩
      obtain ⟨c', hc', -⟩ := hsome h h' hsent b' hb'
      exact ⟨c', hc'⟩
    . rintro ⟨c', hc'⟩
      obtain ⟨b', hb', -⟩ := hsome h' h (fun u => (hsent u).symm) c' hc'
      exact ⟨b', hb'⟩
  . intro b' hb' c' hc'
    obtain ⟨c'', hc'', hle⟩ := hsome h h' hsent b' hb'
    obtain ⟨b'', hb'', hge⟩ := hsome h' h (fun u => (hsent u).symm) c' hc'
    rw [Option.mem_unique hc'' hc'] at hle
    rw [Option.mem_unique hb'' hb'] at hge
    rcases hle with hlt | ⟨-, hequal⟩
    . rcases hge with hlt' | ⟨heq, -⟩ <;> omega
    . exact hequal

end OutputBuffers

namespace TaskDescriptor

variable {d : TaskDescriptor} (update : FteTaskUpdateRequest)

section

variable {b : Option OutputBuffers}

def Has (b : Option OutputBuffers) (d : TaskDescriptor) : Prop := d.outputBuffers = b

theorem keeps_appendEach (sourceNodeId : String) (splits : List FteSplit) :
    (appendEach sourceNodeId splits).Keeps (Has b) := by
  induction splits with
  | nil => exact keeps_pure _
  | cons split splits ih =>
    apply keeps_bind (Py.keeps_lift _)
    intro _
    apply keeps_bind Py.keeps_get
    intro d
    split
    . exact ih
    . refine keeps_bind (Py.keeps_modify ?_) fun _ => ?_
      . exact fun _ h => h
      apply keeps_bind ih
      intro _
      exact keeps_pure _

theorem keeps_appendAll (sources : List (String × List FteSplit)) (changed : Bool) :
    (appendAll sources changed).Keeps (Has b) := by
  induction sources generalizing changed with
  | nil => exact keeps_pure _
  | cons source sources ih =>
    apply keeps_bind
    . apply keeps_bind Py.keeps_get
      intro d
      apply keeps_bind (Py.keeps_lift _)
      intro _
      refine keeps_bind (Py.keeps_modify ?_) fun _ => ?_
      . exact fun _ h => h
      exact keeps_appendEach _ _
    . intro added
      exact ih _

theorem keeps_markAll (sources : List String) (changed : Bool) :
    (markAll sources changed).Keeps (Has b) := by
  induction sources generalizing changed with
  | nil => exact keeps_pure _
  | cons source sources ih =>
    apply keeps_bind
    . apply keeps_bind Py.keeps_get
      intro d
      refine keeps_bind (Py.keeps_modify ?_) fun _ => ?_
      . exact fun _ h => h
      split
      . exact keeps_pure _
      . refine keeps_bind (Py.keeps_modify ?_) fun _ => ?_
        . exact fun _ h => h
        exact keeps_pure _
    . intro marked
      exact ih _

end

theorem ensures_outputBuffers (d : TaskDescriptor) (update : FteTaskUpdateRequest) :
    (applyTaskUpdate update).Ensures d
      (fun _ d' => OutputBuffers.after d.outputBuffers update.outputBuffers = .ok d'.outputBuffers)
      (fun _ d' => d'.outputBuffers = d.outputBuffers) := by
  unfold applyTaskUpdate
  rw [ensures_bind]
  apply (keeps_appendAll _ _ d rfl).mono _ fun _ _ h => h
  intro split d₁ hd₁
  rw [ensures_bind]
  apply (keeps_markAll _ _ d₁ hd₁).mono _ fun _ _ h => h
  intro marked d₂ hd₂
  rw [ensures_bind]
  apply ensures_merging
  intro context
  have hd₃ : (mergeContext update d₂).outputBuffers = d.outputBuffers := hd₂
  rw [ensures_bind, ← hd₃]
  generalize mergeContext update d₂ = d₃
  have hmerge : (mergeBuffers update).Ensures d₃
      (fun _ d' => OutputBuffers.after d₃.outputBuffers update.outputBuffers =
        .ok d'.outputBuffers) (fun _ d' => d'.outputBuffers = d₃.outputBuffers) := by
    unfold mergeBuffers OutputBuffers.after
    cases update.outputBuffers with
    | none => exact rfl
    | some buffers =>
      simp only [ensures_bind, Py.ensures_get, Py.ensures_lift]
      refine ⟨?_, fun _ _ => trivial⟩
      intro merged hmerged
      rw [hmerged]
      cases merged <;> exact rfl
  apply hmerge.mono _ fun _ _ h => h
  intro buffers d₄ hd₄
  rw [ensures_bind]
  apply ensures_merging
  intro sources
  simp only
  split
  . exact hd₄
  . exact hd₄

def updateStep (d : TaskDescriptor) : TaskDescriptor := (applyTaskUpdate update d).2

def Accepts (d : TaskDescriptor) : Prop := ∃ changed, (applyTaskUpdate update d).1 = .ok changed

def RestatesFields (d : TaskDescriptor) : Prop :=
  ∀ u ∈ update.outputBuffers, ∀ b ∈ d.outputBuffers, u.Restates b

instance (d : TaskDescriptor) : Decidable (RestatesFields update d) :=
  inferInstanceAs (Decidable (∀ _ ∈ _, _))

theorem updateStep_cases (d : TaskDescriptor) :
    (updateStep update d).outputBuffers = d.outputBuffers ∨
      ∃ u ∈ update.outputBuffers,
        OutputBuffers.Merge u d.outputBuffers (updateStep update d).outputBuffers := by
  have hensures : (applyTaskUpdate update).Ensures d
      (fun _ d' => d'.outputBuffers = d.outputBuffers ∨ ∃ u ∈ update.outputBuffers,
        OutputBuffers.Merge u d.outputBuffers d'.outputBuffers)
      (fun _ d' => d'.outputBuffers = d.outputBuffers ∨ ∃ u ∈ update.outputBuffers,
        OutputBuffers.Merge u d.outputBuffers d'.outputBuffers) := by
    apply (ensures_outputBuffers d update).mono
    . intro _ d' h
      cases hu : update.outputBuffers with
      | none =>
        rw [hu] at h
        exact .inl (Except.ok.inj h).symm
      | some u =>
        rw [hu] at h
        exact .inr ⟨u, rfl, OutputBuffers.after_some_iff.mp h⟩
    . exact fun _ _ h => .inl h
  exact hensures.state

theorem updateStep_evolves {update : FteTaskUpdateRequest} (hupdate : RestatesFields update d)
    {b : OutputBuffers} (hb : d.outputBuffers = some b) :
    ∃ b', (updateStep update d).outputBuffers = some b' ∧ OutputBuffers.Evolves b b' := by
  rcases updateStep_cases update d with hsame | ⟨u, hu, hmerge⟩
  . exact ⟨b, hsame.trans hb, .refl b⟩
  . rw [hb] at hmerge
    exact hmerge.evolves (hupdate u hu b hb)

theorem run_evolves {updates : List FteTaskUpdateRequest}
    (h : Run.Always updateStep RestatesFields updates d) {b : OutputBuffers}
    (hb : d.outputBuffers = some b) :
    ∃ b', (Run.run updateStep updates d).outputBuffers = some b' ∧ OutputBuffers.Evolves b b' := by
  induction updates generalizing d b with
  | nil => exact ⟨b, hb, .refl b⟩
  | cons update updates ih =>
    obtain ⟨b₁, hb₁, hevolves⟩ := updateStep_evolves h.1 hb
    obtain ⟨b', hb', hevolves'⟩ := ih h.2 hb₁
    exact ⟨b', hb', hevolves.trans hevolves'⟩

theorem updateStep_of_stale {update : FteTaskUpdateRequest} {b u : OutputBuffers}
    (hb : d.outputBuffers = some b) (hu : update.outputBuffers = some u)
    (hstale : u.version < b.version ∨ u.isEqual b) :
    (updateStep update d).outputBuffers = some b := by
  rcases updateStep_cases update d with hsame | ⟨v, hv, hmerge⟩
  . exact hsame.trans hb
  . rw [hu] at hv
    cases hv
    rw [hb] at hmerge
    generalize (updateStep update d).outputBuffers = next at hmerge
    cases hmerge with
    | older _ _ => rfl
    | repeated _ _ _ => rfl
    | newer _ hversion _ =>
      rcases hstale with hlt | hequal
      . omega
      . simp only [isEqual, decide_eq_true_eq] at hequal
        omega

theorem applyTaskUpdate_of_stale {b u : OutputBuffers} (hb : d.outputBuffers = some b)
    (hstale : u.version < b.version ∨ u.isEqual b) :
    applyTaskUpdate { outputBuffers := some u } d = (.ok false, d) := by
  have hmerge : merge (some b) u = .ok none := by
    unfold merge
    simp only
    split
    . rfl
    . next hlt =>
      have hequal := hstale.resolve_left hlt
      have hversion : u.version = b.version := by
        simp only [isEqual, decide_eq_true_eq] at hequal
        exact hequal.1
      rw [if_pos hversion, if_pos hequal]
  have hcontext : mergeContext { outputBuffers := some u } d = d := rfl
  have hsources : mergeSources { outputBuffers := some u } d = d := by
    unfold mergeSources
    simp only [Finset.union_empty]
    rfl
  have hbuffers : mergeBuffers { outputBuffers := some u } d = (.ok false, d) := by
    unfold mergeBuffers
    simp only
    rw [bind_apply, Py.get_apply]
    simp only
    rw [bind_apply, Py.lift_apply, hb, hmerge]
    rfl
  have hmerging : ∀ {α : Type} [DecidableEq α] (field : TaskDescriptor → α)
      (write : TaskDescriptor → TaskDescriptor), write d = d →
      merging field write d = (.ok false, d) := by
    intro α _ field write hwrite
    unfold merging
    rw [bind_apply, Py.get_apply]
    simp only
    rw [bind_apply, Py.modify_apply, hwrite]
    simp [pure, Py.pure]
  have happend : appendAll (∅ : Dict String (List FteSplit)).entries false d = (.ok false, d) := rfl
  have hmark : markAll (([] : List String).sortBy id) false d = (.ok false, d) := rfl
  unfold applyTaskUpdate
  rw [bind_apply, happend]
  simp only
  rw [bind_apply, hmark]
  simp only
  rw [bind_apply, hmerging _ _ hcontext]
  simp only
  rw [bind_apply, hbuffers]
  simp only
  rw [bind_apply, hmerging _ _ hsources]
  rfl

theorem run_latest {updates : List FteTaskUpdateRequest} {sent : List OutputBuffers}
    (h : Run.Always updateStep Accepts updates d) (hd : OutputBuffers.Latest sent d.outputBuffers) :
    OutputBuffers.Latest (sent ++ updates.filterMap (·.outputBuffers))
      (Run.run updateStep updates d).outputBuffers := by
  induction updates generalizing d sent with
  | nil => simpa using hd
  | cons update updates ih =>
    have hafter : OutputBuffers.after d.outputBuffers update.outputBuffers =
        .ok (updateStep update d).outputBuffers := by
      obtain ⟨changed, hchanged⟩ := h.1
      have hensures := ensures_outputBuffers d update
      unfold Py.Ensures at hensures
      unfold updateStep
      generalize applyTaskUpdate update d = result at hchanged hensures
      obtain ⟨_, d'⟩ := result
      simp only at hchanged
      subst hchanged
      exact hensures
    rw [Run.run_cons, List.filterMap_cons]
    cases hu : update.outputBuffers with
    | none =>
      rw [hu] at hafter
      apply ih h.2
      rw [← Except.ok.inj hafter]
      exact hd
    | some u =>
      rw [hu] at hafter
      have hlatest := ih h.2 ((OutputBuffers.after_some_iff.mp hafter).latest hd)
      simpa using hlatest

theorem output_buffers_evolve (d : TaskDescriptor) (updates : List FteTaskUpdateRequest)
    (h : Run.Always updateStep RestatesFields updates d) :
    (∀ before after, updates = before ++ after →
      ∀ b, (Run.run updateStep before d).outputBuffers = some b →
        ∃ b', (Run.run updateStep updates d).outputBuffers = some b' ∧ b.version ≤ b'.version ∧
          (b.type.isSome → b'.type = b.type) ∧
          (b.outputPartitionCount.isSome → b'.outputPartitionCount = b.outputPartitionCount) ∧
          (b.noMoreBufferIds → b' = b)) ∧
    (∀ b u, (Run.run updateStep updates d).outputBuffers = some b →
      u.version < b.version ∨ u.isEqual b →
        (∀ update : FteTaskUpdateRequest, update.outputBuffers = some u →
          (updateStep update (Run.run updateStep updates d)).outputBuffers = some b) ∧
        applyTaskUpdate { outputBuffers := some u } (Run.run updateStep updates d) =
          (.ok false, Run.run updateStep updates d)) ∧
    (∀ updates' : List FteTaskUpdateRequest, (∀ update, update ∈ updates ↔ update ∈ updates') →
      Run.Always updateStep Accepts updates d → Run.Always updateStep Accepts updates' d →
        OutputBuffers.Same (Run.run updateStep updates d).outputBuffers
          (Run.run updateStep updates' d).outputBuffers) := by
  refine ⟨?_, ?_, ?_⟩
  . rintro before after rfl b hb
    rw [Run.always_append] at h
    rw [Run.run_append]
    obtain ⟨b', hb', hevolves⟩ := run_evolves h.2 hb
    exact ⟨b', hb', hevolves.version, hevolves.type, hevolves.count, hevolves.isSealed⟩
  . intro b u hb hstale
    exact ⟨fun update hu => updateStep_of_stale hb hu hstale, applyTaskUpdate_of_stale hb hstale⟩
  . intro updates' hsame haccepted haccepted'
    have hlatest : OutputBuffers.Latest d.outputBuffers.toList d.outputBuffers := by
      refine ⟨by simp, ?_⟩
      intro u hu
      exact ⟨u, by simpa using hu, .inr ⟨rfl, u.isEqual_refl⟩⟩
    apply (run_latest haccepted hlatest).same (run_latest haccepted' hlatest)
    intro u
    simp only [List.mem_append, List.mem_filterMap, hsame]

def hashBuffers (version : ℕ) (type : Option String) (count : Option ℕ) : FteTaskUpdateRequest where
  outputBuffers := some {
    version
    type
    buffers := some (.sequence ["0", "1"])
    noMoreBufferIds := false
    outputPartitionCount := count
    exchangeSinkInstance := none
    others := ∅ }

theorem output_buffers_evolve_restated :
    let d : TaskDescriptor := { taskId := ⟨"q", 0, 0⟩, fragmentId := "f" }
    let updates := [hashBuffers 1 (some "hash") (some 2), hashBuffers 2 (some "hash") (some 2)]
    Run.Always updateStep RestatesFields updates d ∧
      ∃ b b', (Run.run updateStep (updates.take 1) d).outputBuffers = some b ∧
        (Run.run updateStep updates d).outputBuffers = some b' ∧ b.type = some "hash" ∧
        b'.type = b.type := by
  intro d updates
  have h : Run.Always updateStep RestatesFields updates d := by decide +kernel
  obtain ⟨b, hb, htype⟩ : ∃ b, (Run.run updateStep (updates.take 1) d).outputBuffers = some b ∧
      b.type = some "hash" := ⟨_, rfl, rfl⟩
  obtain ⟨b', hb', -, htype', -⟩ :=
    (output_buffers_evolve d updates h).1 (updates.take 1) (updates.drop 1) rfl b hb
  exact ⟨h, b, b', hb, hb', htype, htype' (by rw [htype]; rfl)⟩

theorem type_and_count_change :
    let d : TaskDescriptor := { taskId := ⟨"q", 0, 0⟩, fragmentId := "f" }
    let updates := [hashBuffers 1 (some "hash") (some 2), hashBuffers 2 none none,
      hashBuffers 3 (some "broadcast") (some 5)]
    Run.Always updateStep (fun update d => (applyTaskUpdate update d).1 = .ok true) updates d ∧
      (Run.run updateStep (updates.take 1) d).outputBuffers.map
        (fun b => (b.type, b.outputPartitionCount)) = some (some "hash", some 2) ∧
      (Run.run updateStep updates d).outputBuffers.map
        (fun b => (b.type, b.outputPartitionCount)) = some (some "broadcast", some 5) := by
  decide +kernel

end TaskDescriptor

end Vane
