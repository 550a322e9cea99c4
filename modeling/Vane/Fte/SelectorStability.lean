import Vane.Fte.ExchangeSelectorLemmas
import Vane.Fte.FragmentEvents

/-!
This module contains the verification that a decision about a partition of an exchange source stays.
-/

namespace Vane

open Py (bind_apply keeps_bind keeps_ite keeps_modify keeps_pure keeps_raise)

namespace FteFragmentState

variable {current : ExchangeSelectorSnapshot}

open ExchangeSelectorSnapshot

variable {s s' : FteFragmentState} {source : String} {snapshot : ExchangeSelectorSnapshot}

/-! What becomes of a selection. -/

def Extends (current later : ExchangeSelectorSnapshot) : Prop :=
  ∀ id entry, current.selected.find? id = some entry →
    ∃ entry', later.selected.find? id = some entry' ∧
      (∀ attemptId, entry.attemptId = some attemptId → entry'.attemptId = some attemptId) ∧
      ∀ splitKey, entry.splitKey = some splitKey → entry'.splitKey = some splitKey

theorem Extends.refl (current : ExchangeSelectorSnapshot) : Extends current current :=
  fun _ entry hentry => ⟨entry, hentry, fun _ h => h, fun _ h => h⟩

theorem Extends.trans {first second third : ExchangeSelectorSnapshot} (h : Extends first second)
    (h' : Extends second third) : Extends first third := by
  intro id entry hentry
  obtain ⟨entry', hentry', hattempt, hkey⟩ := h id entry hentry
  obtain ⟨entry'', hentry'', hattempt', hkey'⟩ := h' id entry' hentry'
  exact ⟨entry'', hentry'', fun a ha => hattempt' a (hattempt a ha), fun k hk => hkey' k (hkey k hk)⟩

def Evolves (s s' : FteFragmentState) : Prop :=
  ∀ source current, s.exchangeSourceSelectorsBySource.find? source = some current →
    ∃ later, s'.exchangeSourceSelectorsBySource.find? source = some later ∧ Extends current later ∧
      (current.final = true → later = current)

theorem Evolves.refl (s : FteFragmentState) : Evolves s s :=
  fun _ current hcurrent => ⟨current, hcurrent, Extends.refl current, fun _ => rfl⟩

theorem Evolves.trans {s₁ s₂ s₃ : FteFragmentState} (h : Evolves s₁ s₂) (h' : Evolves s₂ s₃) :
    Evolves s₁ s₃ := by
  intro source current hcurrent
  obtain ⟨next, hnext, hextends, hfinal⟩ := h source current hcurrent
  obtain ⟨later, hlater, hextends', hfinal'⟩ := h' source next hnext
  refine ⟨later, hlater, hextends.trans hextends', fun hcurrentFinal => ?_⟩
  have hsame := hfinal hcurrentFinal
  rw [hfinal' (hsame ▸ hcurrentFinal), hsame]

theorem Applied.extends_ {merged : ExchangeSelectorSnapshot} {new : List ℕ}
    (h : Applied s snapshot merged new)
    (hcurrent : s.exchangeSourceSelectorsBySource.find? snapshot.sourceNodeId = some current) :
    Extends current merged := by
  intro id entry hentry
  have hentryAt : s.entryAt snapshot.sourceNodeId id = some entry := by
    unfold entryAt
    rw [hcurrent]
    exact hentry
  rw [h.found, hentryAt]
  cases hnew : snapshot.selected.find? id with
  | none => exact ⟨entry, rfl, fun _ h => h, fun _ h => h⟩
  | some entry' =>
    obtain ⟨hattempt, hkey⟩ := h.compatible id entry entry' hentryAt hnew
    exact ⟨_, rfl, fun _ => orElse_of_not_conflict hattempt, fun _ => orElse_of_not_conflict hkey⟩

def Follows (s s' : FteFragmentState) : Prop := s'.Stored ∧ Evolves s s'

theorem Applied.follows {merged : ExchangeSelectorSnapshot} {new : List ℕ}
    (h : Applied s snapshot merged new) (hstored : s.Stored) (version : ℤ) :
    Follows s (s.storeSelector merged version) := by
  have hfind : ∀ source, (s.storeSelector merged version).exchangeSourceSelectorsBySource.find? source =
      if source = snapshot.sourceNodeId then some merged
      else s.exchangeSourceSelectorsBySource.find? source := by
    intro source
    rw [← h.sourceNodeId]
    exact Dict.find?_insert ..
  refine ⟨?_, ?_⟩
  . intro source current hcurrent
    rw [hfind] at hcurrent
    split at hcurrent
    . next hsource =>
      cases hcurrent
      exact ⟨h.sourceNodeId.trans hsource.symm, h.valid⟩
    . exact hstored source current hcurrent
  . intro source current hcurrent
    rw [hfind]
    split
    . next hsource =>
      subst hsource
      refine ⟨merged, rfl, h.extends_ hcurrent, fun hfinal => ?_⟩
      rw [h.notFinal current hcurrent] at hfinal
      cases hfinal
    . exact ⟨current, hcurrent, Extends.refl current, fun _ => rfl⟩

section

variable (digest : String × ℕ × Option String → String)
  {P : Dict String ExchangeSelectorSnapshot → Prop}

/-! Only the updates of a selector change what is selected. -/

def OnSelectors (P : Dict String ExchangeSelectorSnapshot → Prop) (s : FteFragmentState) : Prop :=
  P s.exchangeSourceSelectorsBySource

theorem keeps_assign_selectors (call : AssignerCall) (outcome : AssignOutcome) :
    (assign call outcome).Keeps (OnSelectors P) := by
  apply keeps_bind
  . exact keeps_modify fun _ h => h
  . intro _
    split
    . exact keeps_raise _
    . exact keeps_pure _

theorem keeps_taskInputStreamExhausted_selectors (sourceNodeIds : List String)
    (outcome : String → AssignOutcome) :
    (taskInputStreamExhausted sourceNodeIds outcome).Keeps (OnSelectors P) := by
  apply keeps_bind Py.keeps_get
  intro _
  apply keeps_ite (fun _ => keeps_pure _)
  intro _
  apply Py.keeps_forEach
  intro source _
  apply keeps_bind Py.keeps_get
  intro _
  apply keeps_ite (fun _ => keeps_pure _)
  intro _
  apply keeps_bind (keeps_assign_selectors _ _)
  intro _
  apply keeps_bind
  . exact keeps_modify fun _ h => h
  . intro _
    split
    . exact keeps_raise _
    . exact keeps_pure _

theorem keeps_getOrCreate_selectors (dynamicScanSources dynamicExchangeSources : List String)
    (partitionCount taskCount : ℤ) (makeAssignerError : Option PyError) :
    (getOrCreate dynamicScanSources dynamicExchangeSources partitionCount taskCount
      makeAssignerError).Keeps (OnSelectors P) := by
  apply keeps_bind Py.keeps_get
  intro _
  apply keeps_bind
  . exact keeps_modify fun _ h => h
  . intro _
    apply keeps_bind (Py.keeps_lift _)
    intro _
    apply keeps_bind (Py.keeps_lift _)
    intro _
    apply keeps_bind (Py.keeps_lift _)
    intro _
    apply keeps_ite
    . intro _
      split
      . exact keeps_raise _
      . exact keeps_modify fun _ h => h
    . exact fun _ => keeps_pure _

theorem keeps_takeSplits_selectors (source : String) (splits : List FteSplit) :
    (takeSplits digest source splits).Keeps (OnSelectors P) :=
  Py.Keeps.of_state fun _ h => h

theorem keeps_splitsBySource_selectors (partitionIdsBySource : Dict String (List ℕ))
    (splits : List FteSplit) (bySource : Dict String (List FteSplit)) :
    (splitsBySource digest partitionIdsBySource splits bySource).Keeps (OnSelectors P) := by
  induction splits generalizing bySource with
  | nil => exact keeps_pure _
  | cons split splits ih =>
    apply keeps_ite
    . intro _
      apply keeps_ite
      . intro _
        exact keeps_bind (keeps_takeSplits_selectors digest _ _) fun _ => ih _
      . exact fun _ => ih _
    . exact fun _ => ih _

theorem keeps_submitPendingTask_selectors (item : PendingItem) (makeAssignerError : Option PyError)
    (outcome : String → AssignOutcome) :
    (submitPendingTask digest item makeAssignerError outcome).Keeps (OnSelectors P) := by
  apply keeps_bind (keeps_getOrCreate_selectors _ _ _ _ _)
  intro _
  apply keeps_bind (Py.keeps_read _)
  intro _
  apply keeps_bind (keeps_splitsBySource_selectors digest _ _ _)
  intro _
  apply Py.keeps_forEach
  intro source _
  apply keeps_bind (keeps_assign_selectors _ _)
  intro _
  split
  . exact keeps_raise _
  . exact keeps_pure _

theorem keeps_assignSelected_selectors (source : String) (snapshot : ExchangeSelectorSnapshot)
    (splits : List FteSplit) (outcome : AssignOutcome) :
    (assignSelected source snapshot splits outcome).Keeps (OnSelectors P) := by
  apply keeps_bind (keeps_assign_selectors _ _)
  intro _
  split
  . apply keeps_ite
    . exact fun _ => keeps_modify fun _ h => h
    . exact fun _ => keeps_pure _
  . exact keeps_raise _
  . exact keeps_pure _

theorem follows_exchangeSelectorUpdated (hstored : s.Stored) (source : String)
    (selector : SelectorPayload) (outcome : AssignOutcome) :
    Follows s (exchangeSelectorUpdated digest source selector outcome s).2 := by
  have hsame : Follows s s := ⟨hstored, Evolves.refl s⟩
  apply Py.Ensures.state
  unfold exchangeSelectorUpdated
  rw [Py.ensures_get_bind, Py.ensures_ite]
  refine ⟨fun _ => hsame, fun _ => ?_⟩
  rw [Py.ensures_bind]
  apply (ensures_applyExchangeSelectorUpdate digest s source selector).mono
  . intro result s' hupdated
    cases hupdated with
    | kept => exact hsame
    | taken snapshot merged new normalized hsource applied hopen =>
      -- What comes after the selector is stored leaves it alone.
      have hkeeps := keeps_assignSelected_selectors source snapshot
        (handedOn digest s snapshot new).1 outcome (P := fun selectors =>
          Follows s { s with exchangeSourceSelectorsBySource := selectors })
      exact hkeeps _ (applied.follows hstored snapshot.version)
  . intro e s' hrefused
    cases hrefused with
    | kept => exact hsame
    | stored snapshot merged new hsource applied => exact applied.follows hstored snapshot.version

end

theorem stored_new : ({} : FteFragmentState).Stored := fun _ _ h => (by cases h)

theorem follows_step (digest : String × ℕ × Option String → String) (hstored : s.Stored)
    (event : FragmentEvent) : Follows s (event.step digest s) := by
  have hsame : OnSelectors (fun selectors =>
      Follows s { s with exchangeSourceSelectorsBySource := selectors }) s := ⟨hstored, Evolves.refl s⟩
  cases event with
  | exchangeSelectorUpdated source selector outcome =>
    exact follows_exchangeSelectorUpdated digest hstored source selector outcome
  | taskInputStreamExhausted sources outcome =>
    exact (keeps_taskInputStreamExhausted_selectors sources outcome).state hsame
  | getOrCreate scan exchange partitionCount taskCount makeAssignerError =>
    exact (keeps_getOrCreate_selectors scan exchange partitionCount taskCount makeAssignerError).state hsame
  | submitPendingTask item makeAssignerError outcome =>
    exact (keeps_submitPendingTask_selectors digest item makeAssignerError outcome).state hsame

theorem follows_run (digest : String × ℕ × Option String → String) (hstored : s.Stored)
    (events : List FragmentEvent) : Follows s (Run.run (FragmentEvent.step digest) events s) := by
  apply Run.run_invariant (Follows s)
  . intro event _ t ht
    obtain ⟨hstored', hevolves⟩ := follows_step digest ht.1 event
    exact ⟨hstored', ht.2.trans hevolves⟩
  . exact ⟨hstored, Evolves.refl s⟩

/-! An update that is late or repeated. -/

def answer (current snapshot : ExchangeSelectorSnapshot) : Except PyError Unit :=
  if snapshot.version < current.version then .ok ⟨⟩ else repeatSnapshot current snapshot

theorem applySnapshot_late
    (hcurrent : s.exchangeSourceSelectorsBySource.find? snapshot.sourceNodeId = some current)
    (hversion : snapshot.version ≤ current.version) :
    applySnapshot snapshot s = ((answer current snapshot).map fun _ => none, s) := by
  unfold applySnapshot answer
  rw [bind_apply, Py.get_apply]
  dsimp only
  rw [hcurrent]
  dsimp only
  split
  . rfl
  . next hlt =>
    rw [if_pos (le_antisymm hversion (not_lt.mp hlt)), bind_apply, Py.lift_apply]
    cases repeatSnapshot current snapshot <;> rfl

theorem answer_repeated (hvalid : current.Valid)
    (hsource : snapshot.sourceNodeId = current.sourceNodeId)
    (h : snapshot.version < current.version ∨
      snapshot.version = current.version ∧ Repeats current snapshot) :
    answer current snapshot = .ok ⟨⟩ := by
  unfold answer
  rcases h with hlt | ⟨heq, hrepeats⟩
  . rw [if_pos hlt]
  . rw [if_neg (by omega)]
    obtain ⟨merged, new, hmerge⟩ := exists_merge fun _ _ _ => hrepeats.compatible
    have hmerged := merged_of_merge hmerge
    unfold repeatSnapshot
    rw [hmerge, Except.bind_ok]
    dsimp only
    rw [valid_iff.mpr (hvalid.merged hmerged hrepeats heq), Except.bind_ok]
    exact Except.raiseIf_of_not (not_not.mpr (semanticKey_of_repeats hmerged hrepeats hsource))

theorem exchangeSelectorUpdated_late {digest : String × ℕ × Option String → String}
    {selector : SelectorPayload}
    (hnormalized : normalizeSnapshot digest s source selector = .ok snapshot)
    (hsource : snapshot.sourceNodeId = source)
    (hcurrent : s.exchangeSourceSelectorsBySource.find? source = some current)
    (hversion : snapshot.version ≤ current.version) (outcome : AssignOutcome) :
    exchangeSelectorUpdated digest source selector outcome s =
      (if s.assigner.isNone then .ok ⟨⟩ else answer current snapshot, s) := by
  subst hsource
  unfold exchangeSelectorUpdated
  rw [bind_apply, Py.get_apply]
  dsimp only
  split
  . rfl
  . unfold applyExchangeSelectorUpdate
    simp only [bind_apply, Py.read_apply, Py.lift_apply, hnormalized, ne_eq, not_true_eq_false,
      not_false_eq_true, Except.raiseIf_of_not, applySnapshot_late hcurrent hversion]
    cases answer current snapshot <;> rfl

theorem selector_decisions_are_stable (digest : String × ℕ × Option String → String)
    (before after : List FragmentEvent) (source : String) (current : ExchangeSelectorSnapshot)
    (hcurrent : (Run.run (FragmentEvent.step digest) before
      {}).exchangeSourceSelectorsBySource.find? source = some current) :
    let s := Run.run (FragmentEvent.step digest) before {}
    let s' := Run.run (FragmentEvent.step digest) after s
    (∀ id entry, current.selected.find? id = some entry → ∃ entry', s'.entryAt source id = some entry' ∧
        (∀ attemptId, entry.attemptId = some attemptId → entry'.attemptId = some attemptId) ∧
        ∀ splitKey, entry.splitKey = some splitKey → entry'.splitKey = some splitKey) ∧
      (current.final = true → s'.exchangeSourceSelectorsBySource.find? source = some current) ∧
      ∀ selector outcome snapshot, normalizeSnapshot digest s source selector = .ok snapshot →
        snapshot.sourceNodeId = source → snapshot.version ≤ current.version →
        FragmentEvent.step digest (.exchangeSelectorUpdated source selector outcome) s = s ∧
          (snapshot.version < current.version ∨ Repeats current snapshot →
            FragmentEvent.exec digest (.exchangeSelectorUpdated source selector outcome) s =
              (.ok ⟨⟩, s)) := by
  intro s s'
  have hstored : s.Stored := (follows_run digest stored_new before).1
  obtain ⟨later, hlater, hextends, hfinal⟩ := (follows_run digest hstored after).2 source current hcurrent
  refine ⟨?_, ?_, ?_⟩
  . intro id entry hentry
    obtain ⟨entry', hentry', hkept⟩ := hextends id entry hentry
    refine ⟨entry', ?_, hkept⟩
    show (s'.exchangeSourceSelectorsBySource.find? source).bind _ = _
    rw [hlater]
    exact hentry'
  . intro hcurrentFinal
    exact hlater.trans (congrArg some (hfinal hcurrentFinal))
  . intro selector outcome snapshot hnormalized hsource hversion
    have hlate := exchangeSelectorUpdated_late hnormalized hsource hcurrent hversion outcome
    obtain ⟨hcurrentSource, hvalid⟩ := hstored source current hcurrent
    refine ⟨congrArg Prod.snd hlate, fun hrepeats => ?_⟩
    refine hlate.trans ?_
    have hanswer : answer current snapshot = .ok ⟨⟩ := by
      apply answer_repeated hvalid (hsource.trans hcurrentSource.symm)
      rcases hversion.lt_or_eq with hlt | heq
      . exact .inl hlt
      . exact hrepeats.imp_right fun hrepeats => ⟨heq, hrepeats⟩
    rw [hanswer, ite_self]

theorem selector_decisions_are_stable_final :
    ∃ current,
      (Run.run (FragmentEvent.step fun payload => toString payload.2.1)
        [.getOrCreate [] ["x"] 1 1 none, .exchangeSelectorUpdated "x"
          { selected := .mapping [(0, .attempt 3)], partitionCount := some 1, final := true } .completed]
        {}).exchangeSourceSelectorsBySource.find? "x" = some current ∧
      (Run.run (FragmentEvent.step fun payload => toString payload.2.1)
        [.exchangeSelectorUpdated "x" { selected := .mapping [(0, .attempt 4)] } .completed]
        (Run.run (FragmentEvent.step fun payload => toString payload.2.1)
          [.getOrCreate [] ["x"] 1 1 none, .exchangeSelectorUpdated "x"
            { selected := .mapping [(0, .attempt 3)], partitionCount := some 1, final := true } .completed]
          {})).exchangeSourceSelectorsBySource.find? "x" = some current := by
  have hfinal : ((Run.run (FragmentEvent.step fun payload => toString payload.2.1)
      [.getOrCreate [] ["x"] 1 1 none, .exchangeSelectorUpdated "x"
        { selected := .mapping [(0, .attempt 3)], partitionCount := some 1, final := true } .completed]
      {}).exchangeSourceSelectorsBySource.find? "x").any ExchangeSelectorSnapshot.final = true := by
    decide +kernel
  rw [Option.any_eq_true] at hfinal
  obtain ⟨current, hcurrent, hfinal⟩ := hfinal
  exact ⟨current, hcurrent, (selector_decisions_are_stable _ _ _ "x" current hcurrent).2.1 hfinal⟩

end FteFragmentState

end Vane
