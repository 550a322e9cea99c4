import Vane.Fte.ExchangeSelectorLemmas
import Vane.Fte.FragmentEvents

/-!
This module contains the verification that a split assigner is told once that a source is complete.
-/

namespace Vane

def AssignOutcome.assigns : AssignOutcome → Bool
  | assignRaises _ => false
  | _ => true

namespace FteFragmentState

variable {digest : String × ℕ × Option String → String} {s s' : FteFragmentState} {source : String}
  {outcome : AssignOutcome} {call : AssignerCall}

def calls (s : FteFragmentState) : List AssignerCall := s.assigner.getD []

def CompletedOnce (calls : List AssignerCall) : Prop :=
  calls.Pairwise fun earlier later => earlier.sourceNodeId = later.sourceNodeId →
    earlier.noMoreInputs = true → later.noMoreInputs = false ∧ later.splits = []

instance (calls : List AssignerCall) : Decidable (CompletedOnce calls) :=
  inferInstanceAs (Decidable (List.Pairwise _ calls))

structure Told (s : FteFragmentState) : Prop where
  marked : ∀ call ∈ s.calls, call.noMoreInputs = true → call.sourceNodeId ∈ s.exhaustedSourceNodeIds
  once : CompletedOnce s.calls

def called (call : AssignerCall) (s : FteFragmentState) : FteFragmentState :=
  { s with assigner := s.assigner.map (· ++ [call]) }

theorem calls_called (call : AssignerCall) (s : FteFragmentState) :
    (s.called call).calls = s.calls ∨ (s.called call).calls = s.calls ++ [call] := by
  unfold called calls
  cases s.assigner with
  | none => exact .inl rfl
  | some calls => exact .inr rfl

theorem Told.once_called (h : s.Told)
    (hopen : call.sourceNodeId ∉ s.exhaustedSourceNodeIds) : CompletedOnce (s.called call).calls := by
  rcases calls_called call s with hcalls | hcalls
  . rw [hcalls]
    exact h.once
  . rw [hcalls]
    refine List.pairwise_append.mpr ⟨h.once, List.pairwise_singleton _ _, ?_⟩
    intro earlier hearlier later hlater hsource hnoMore
    rw [List.mem_singleton.mp hlater] at hsource
    exact absurd (hsource ▸ h.marked earlier hearlier hnoMore) hopen

theorem mem_calls_called {other : AssignerCall} (h : other ∈ (s.called call).calls) :
    other ∈ s.calls ∨ other = call := by
  rcases calls_called call s with hcalls | hcalls
  . exact .inl (hcalls ▸ h)
  . rw [hcalls, List.mem_append, List.mem_singleton] at h
    exact h

theorem Told.called (h : s.Told)
    (hopen : call.sourceNodeId ∉ s.exhaustedSourceNodeIds) (hmore : call.noMoreInputs = false) :
    (s.called call).Told := by
  refine ⟨?_, h.once_called hopen⟩
  intro other hother hnoMore
  rcases mem_calls_called hother with hother | rfl
  . exact h.marked other hother hnoMore
  . rw [hmore] at hnoMore
    cases hnoMore

theorem Told.completed (h : s.Told) (call : AssignerCall)
    (hopen : call.sourceNodeId ∉ s.exhaustedSourceNodeIds) :
    ((s.called call).exhaust call.sourceNodeId).Told := by
  refine ⟨?_, h.once_called hopen⟩
  intro other hother hnoMore
  show other.sourceNodeId ∈ s.exhaustedSourceNodeIds.insert call.sourceNodeId
  rw [List.mem_insert_iff]
  rcases mem_calls_called hother with hother | rfl
  . exact .inr (h.marked other hother hnoMore)
  . exact .inl rfl

def SameCalls (s s' : FteFragmentState) : Prop :=
  s'.calls = s.calls ∧ s'.exhaustedSourceNodeIds = s.exhaustedSourceNodeIds

theorem Told.same (h : s.Told) (hsame : SameCalls s s') : s'.Told := by
  refine ⟨?_, ?_⟩
  . rw [hsame.1, hsame.2]
    exact h.marked
  . rw [hsame.1]
    exact h.once

theorem assign_apply (call : AssignerCall) (outcome : AssignOutcome) (s : FteFragmentState) :
    (assign call outcome s).2 = s.called call ∧
      (outcome.assigns = true → (assign call outcome s).1 = .ok ⟨⟩) := by
  cases outcome with
  | assignRaises error => exact ⟨rfl, fun h => (by cases h)⟩
  | completed => exact ⟨rfl, fun _ => rfl⟩
  | controlFailure => exact ⟨rfl, fun _ => rfl⟩
  | closing => exact ⟨rfl, fun _ => rfl⟩
  | raises error => exact ⟨rfl, fun _ => rfl⟩

/-! Updates of a selector. -/

theorem sameCalls_applyExchangeSelectorUpdate (digest : String × ℕ × Option String → String)
    (s : FteFragmentState) (source : String) (selector : SelectorPayload) :
    SameCalls s (applyExchangeSelectorUpdate digest source selector s).2 := by
  apply Py.Ensures.state
  apply (ensures_applyExchangeSelectorUpdate digest s source selector).mono
  . intro result s' hupdated
    cases hupdated <;> exact ⟨rfl, rfl⟩
  . intro e s' hrefused
    cases hrefused <;> exact ⟨rfl, rfl⟩

/-- The source of an update that is taken is not marked, and a final one is carried out to its end. -/
def UpdateOrderly (source : String) (outcome : AssignOutcome) (s : FteFragmentState) :
    Except PyError (Option (ExchangeSelectorSnapshot × List FteSplit)) → Prop
  | .ok (some (snapshot, _)) =>
    source ∉ s.exhaustedSourceNodeIds ∧ (snapshot.final = true → outcome = .completed)
  | _ => True

instance (source : String) (outcome : AssignOutcome) (s : FteFragmentState)
    (result : Except PyError (Option (ExchangeSelectorSnapshot × List FteSplit))) :
    Decidable (UpdateOrderly source outcome s result) :=
  match result with
  | .ok (some _) => inferInstanceAs (Decidable (_ ∧ _))
  | .ok none => inferInstanceAs (Decidable True)
  | .error _ => inferInstanceAs (Decidable True)

theorem Told.assignSelected (h : s.Told) (hopen : source ∉ s.exhaustedSourceNodeIds)
    {snapshot : ExchangeSelectorSnapshot} (splits : List FteSplit)
    (hfinal : snapshot.final = true → outcome = .completed) :
    (assignSelected source snapshot splits outcome s).2.Told := by
  cases hsnapshot : snapshot.final with
  | true =>
    have hcompleted : (FteFragmentState.assignSelected source snapshot splits .completed s).2 =
        (s.called ⟨source, splits, true⟩).exhaust source := by
      unfold FteFragmentState.assignSelected
      rw [hsnapshot]
      rfl
    rw [hfinal hsnapshot, hcompleted]
    exact h.completed ⟨source, splits, true⟩ hopen
  | false =>
    have hstate : (FteFragmentState.assignSelected source snapshot splits outcome s).2 =
        s.called ⟨source, splits, false⟩ := by
      unfold FteFragmentState.assignSelected
      rw [hsnapshot]
      cases outcome <;> rfl
    rw [hstate]
    exact h.called hopen rfl

theorem Told.exchangeSelectorUpdated (h : s.Told) {selector : SelectorPayload}
    (horderly : UpdateOrderly source outcome s (applyExchangeSelectorUpdate digest source selector s).1) :
    (exchangeSelectorUpdated digest source selector outcome s).2.Told := by
  have hsame := sameCalls_applyExchangeSelectorUpdate digest s source selector
  unfold FteFragmentState.exchangeSelectorUpdated
  rw [Py.bind_apply, Py.get_apply]
  dsimp only
  split
  . exact h
  . rw [Py.bind_apply]
    cases hupdate : applyExchangeSelectorUpdate digest source selector s with
    | mk result s₁ =>
      rw [hupdate] at hsame horderly
      match result with
      | .error e => exact h.same hsame
      | .ok none => exact h.same hsame
      | .ok (some (snapshot, splits)) =>
        apply (h.same hsame).assignSelected
        . rw [hsame.2]
          exact horderly.1
        . exact horderly.2

/-! The end of an input stream. -/

theorem keeps_sourceInputExhausted_told (source : String)
    (houtcome : outcome.assigns = true) : (sourceInputExhausted outcome source).Keeps Told := by
  apply Py.Keeps.of_state
  intro s h
  unfold sourceInputExhausted
  rw [Py.bind_apply, Py.get_apply]
  dsimp only
  split
  . exact h
  . next hopen =>
    rw [not_or, not_not] at hopen
    obtain ⟨hstate, hok⟩ := assign_apply ⟨source, [], true⟩ outcome s
    rw [Py.bind_apply]
    cases hassign : assign ⟨source, [], true⟩ outcome s with
    | mk result s₁ =>
      rw [hassign] at hstate hok
      cases hok houtcome
      cases hstate
      have hcompleted := h.completed ⟨source, [], true⟩ hopen.2
      cases outcome <;> exact hcompleted

theorem Told.taskInputStreamExhausted (h : s.Told) {sources : List String}
    {outcome : String → AssignOutcome} (houtcome : ∀ source ∈ sources, (outcome source).assigns = true) :
    (taskInputStreamExhausted sources outcome s).2.Told := by
  have hkeeps : (FteFragmentState.taskInputStreamExhausted sources outcome).Keeps Told := by
    apply Py.keeps_bind Py.keeps_get
    intro _
    apply Py.keeps_ite
    . exact fun _ => Py.keeps_pure _
    . intro _
      apply Py.keeps_forEach
      intro source hsource
      rw [List.mem_sortBy, List.mem_dedup] at hsource
      exact keeps_sourceInputExhausted_told source (houtcome source hsource)
  exact hkeeps.state h

/-! The submission of a task. -/

section

variable {E : List String}

def ToldWith (E : List String) (s : FteFragmentState) : Prop :=
  s.Told ∧ s.exhaustedSourceNodeIds = E

theorem ToldWith.same (h : ToldWith E s) (hsame : SameCalls s s') : ToldWith E s' :=
  ⟨h.1.same hsame, hsame.2.trans h.2⟩

theorem keeps_getOrCreate_told (scan exchange : List String) (partitionCount taskCount : ℤ)
    (makeAssignerError : Option PyError) :
    (getOrCreate scan exchange partitionCount taskCount makeAssignerError).Keeps (ToldWith E) := by
  intro s h
  unfold getOrCreate
  rw [Py.ensures_get_bind, Py.ensures_modify_bind]
  have hgrown : ToldWith E { s with
      sourceNodeIds := (s.sourceNodeIds ∪ scan) ∪ exchange
      dynamicExchangeSourceNodeIds := s.dynamicExchangeSourceNodeIds ∪ exchange
      exchangeSourcePartitionCount := max s.exchangeSourcePartitionCount partitionCount
      exchangeSourceTaskCount := max s.exchangeSourceTaskCount taskCount } := h.same ⟨rfl, rfl⟩
  rw [Py.ensures_raiseIf_bind]
  refine ⟨fun _ => hgrown, fun _ => ?_⟩
  rw [Py.ensures_raiseIf_bind]
  refine ⟨fun _ => hgrown, fun _ => ?_⟩
  rw [Py.ensures_raiseIf_bind]
  refine ⟨fun _ => hgrown, fun _ => ?_⟩
  rw [Py.ensures_ite]
  refine ⟨fun hnone => ?_, fun _ => hgrown⟩
  split
  . exact hgrown
  . rw [Py.ensures_modify]
    refine h.same ⟨?_, rfl⟩
    unfold calls
    rw [Option.isNone_iff_eq_none.mp hnone]
    rfl

theorem keeps_takeSplits_told (digest : String × ℕ × Option String → String) (source : String)
    (splits : List FteSplit) : (takeSplits digest source splits).Keeps (ToldWith E) :=
  Py.Keeps.of_state fun _ h => h.same ⟨rfl, rfl⟩

theorem not_marked_of_seen {partitionIds taken : Dict String (List ℕ)}
    (h : markExchangeSourcePartitionsSeen partitionIds s = .ok taken) :
    ∀ source ∈ taken.keys, source ∉ s.exhaustedSourceNodeIds := by
  refine Except.foldlM_invariant
    (fun taken : Dict String (List ℕ) => ∀ source ∈ taken.keys, source ∉ s.exhaustedSourceNodeIds)
    ?_ ?_ h
  . intro taken item taken' _ htaken hstep
    split at hstep
    . obtain ⟨_, -, hstep⟩ := Except.ok_of_bind hstep
      cases hstep
      exact htaken
    . next hopen =>
      cases hstep
      intro source hsource
      split at hsource
      . exact htaken source hsource
      . rcases Dict.mem_keys_insert.mp hsource with rfl | hsource
        . exact hopen
        . exact htaken source hsource
  . exact fun _ hmem => (by cases hmem)

def Unmarked (E : List String) (bySource : Dict String (List FteSplit)) : Prop :=
  ∀ source ∈ bySource.keys, source ∉ E

theorem Unmarked.update {bySource : Dict String (List FteSplit)} (h : Unmarked E bySource)
    {source : String} (hsource : source ∉ E) (f : List FteSplit → List FteSplit) :
    Unmarked E (bySource.update source [] f) := by
  intro other hother
  rcases Dict.mem_keys_insert.mp hother with rfl | hother
  . exact hsource
  . exact h other hother

theorem ensures_splitsBySource {partitionIds : Dict String (List ℕ)} {splits : List FteSplit}
    (hpartitions : ∀ source ∈ partitionIds.keys, source ∉ E)
    (hscans : ∀ split ∈ splits, split.kind ≠ "exchange_source_task" → split.sourceNodeId ∉ E)
    {bySource : Dict String (List FteSplit)} (hbySource : Unmarked E bySource) (h : ToldWith E s) :
    (splitsBySource digest partitionIds splits bySource).Ensures s
      (fun bySource s' => ToldWith E s' ∧ Unmarked E bySource) fun _ s' => ToldWith E s' := by
  induction splits generalizing bySource s with
  | nil => exact ⟨h, hbySource⟩
  | cons split splits ih =>
    rw [List.forall_mem_cons] at hscans
    unfold splitsBySource
    rw [Py.ensures_ite]
    refine ⟨fun _ => ?_, fun hkind => (ih hscans.2 (hbySource.update (hscans.1 hkind) _) h)⟩
    rw [Py.ensures_ite]
    refine ⟨fun hmem => ?_, fun _ => ih hscans.2 hbySource h⟩
    have hsource : split.sourceNodeId ∉ E := by
      apply hpartitions
      rw [Dict.mem_keys_iff]
      unfold Dict.findD at hmem
      cases hfound : partitionIds.find? split.sourceNodeId with
      | none =>
        rw [hfound] at hmem
        cases hmem
      | some ids => exact ⟨ids, rfl⟩
    refine (keeps_takeSplits_told digest split.sourceNodeId [split] s h).bind ?_ fun _ _ hs' => hs'
    intro taken s' hs'
    apply ih hscans.2 _ hs'
    split
    . exact hbySource
    . exact hbySource.update hsource _

theorem Told.submitPendingTask (h : s.Told) {item : PendingItem} {makeAssignerError : Option PyError}
    {outcome : String → AssignOutcome}
    (hscans : ∀ split ∈ item.splits, split.kind ≠ "exchange_source_task" →
      split.sourceNodeId ∉ s.exhaustedSourceNodeIds) :
    (submitPendingTask digest item makeAssignerError outcome s).2.Told := by
  have hs : ToldWith s.exhaustedSourceNodeIds s := ⟨h, rfl⟩
  suffices hsubmitted : ToldWith s.exhaustedSourceNodeIds
      (FteFragmentState.submitPendingTask digest item makeAssignerError outcome s).2 from hsubmitted.1
  apply Py.Ensures.state
  refine (keeps_getOrCreate_told _ _ _ _ _ s hs).bind ?_ fun _ _ hs' => hs'
  intro _ s₁ hs₁
  rw [Py.ensures_bind, Py.ensures_read]
  refine ⟨fun partitionIds hseen => ?_, fun _ _ => hs₁⟩
  have hpartitions := not_marked_of_seen hseen
  rw [hs₁.2] at hpartitions
  have hempty : Unmarked s.exhaustedSourceNodeIds ∅ := fun _ hmem => (by cases hmem)
  refine (ensures_splitsBySource hpartitions hscans hempty hs₁).bind ?_ fun _ _ hs' => hs'
  rintro bySource s₂ ⟨hs₂, hunmarked⟩
  refine Py.keeps_forEach (I := ToldWith s.exhaustedSourceNodeIds) ?_ s₂ hs₂
  intro entry hentry
  have hsource := hunmarked entry.1 (List.mem_map_of_mem hentry)
  apply Py.Keeps.of_state
  intro t ht
  have hcalled : ToldWith s.exhaustedSourceNodeIds (t.called ⟨entry.1, entry.2, false⟩) := by
    refine ⟨ht.1.called ?_ rfl, ht.2⟩
    rw [ht.2]
    exact hsource
  cases outcome entry.1 <;> exact hcalled

end

end FteFragmentState

namespace FragmentEvent

variable (digest : String × ℕ × Option String → String)

/--
An update of a selector is for a source that is not marked, and a final one is carried out to its end; the
assigner does not raise when it is told of the end of a stream; and a task brings no scan split of a source
that is marked.
-/
def Orderly : FragmentEvent → FteFragmentState → Prop
  | exchangeSelectorUpdated source selector outcome, s =>
    FteFragmentState.UpdateOrderly source outcome s
      (FteFragmentState.applyExchangeSelectorUpdate digest source selector s).1
  | taskInputStreamExhausted sources outcome, _ => ∀ source ∈ sources, (outcome source).assigns = true
  | getOrCreate .., _ => True
  | submitPendingTask item _ _, s => ∀ split ∈ item.splits, split.kind ≠ "exchange_source_task" →
    split.sourceNodeId ∉ s.exhaustedSourceNodeIds

instance (event : FragmentEvent) (s : FteFragmentState) : Decidable (event.Orderly digest s) :=
  match event with
  | exchangeSelectorUpdated .. =>
    inferInstanceAs (Decidable (FteFragmentState.UpdateOrderly _ _ _ _))
  | taskInputStreamExhausted .. => inferInstanceAs (Decidable (∀ source ∈ _, _))
  | getOrCreate .. => inferInstanceAs (Decidable True)
  | submitPendingTask .. => inferInstanceAs (Decidable (∀ split ∈ _, _ → _))

theorem told_step {digest : String × ℕ × Option String → String} {s : FteFragmentState} (h : s.Told)
    {event : FragmentEvent} (horderly : event.Orderly digest s) : (event.step digest s).Told := by
  cases event with
  | exchangeSelectorUpdated source selector outcome => exact h.exchangeSelectorUpdated horderly
  | taskInputStreamExhausted sources outcome => exact h.taskInputStreamExhausted horderly
  | getOrCreate scan exchange partitionCount taskCount makeAssignerError =>
    have hs : FteFragmentState.ToldWith s.exhaustedSourceNodeIds s := ⟨h, rfl⟩
    exact ((FteFragmentState.keeps_getOrCreate_told scan exchange partitionCount taskCount
      makeAssignerError).state hs).1
  | submitPendingTask item makeAssignerError outcome => exact h.submitPendingTask horderly

theorem source_completed_once (digest : String × ℕ × Option String → String)
    (events : List FragmentEvent) (horderly : Run.Always (step digest) (Orderly digest) events {}) :
    FteFragmentState.CompletedOnce (Run.run (step digest) events {}).calls := by
  have hnew : ({} : FteFragmentState).Told := ⟨fun _ hmem => (by cases hmem), List.Pairwise.nil⟩
  have hrun := Run.run_invariant_of_always FteFragmentState.Told
    (fun event s horderly h => told_step h horderly) horderly hnew
  exact hrun.once

theorem source_completed_once_twice_ended :
    FteFragmentState.CompletedOnce (Run.run (step fun payload => toString payload.2.1)
      [.getOrCreate [] ["x"] 1 1 none,
        .exchangeSelectorUpdated "x" { partitionCount := some 0, final := true } .completed,
        .taskInputStreamExhausted ["x"] fun _ => .completed] {}).calls :=
  source_completed_once _ _ (by decide +kernel)

theorem source_completed_twice :
    (Run.run (step fun payload => toString payload.2.1)
      [.getOrCreate [] ["x"] 1 1 none,
        .exchangeSelectorUpdated "x" { partitionCount := some 0, final := true } .controlFailure,
        .taskInputStreamExhausted ["x"] fun _ => .completed] {}).calls =
      [⟨"x", [], true⟩, ⟨"x", [], true⟩] ∧
    ¬FteFragmentState.CompletedOnce (Run.run (step fun payload => toString payload.2.1)
      [.getOrCreate [] ["x"] 1 1 none,
        .exchangeSelectorUpdated "x" { partitionCount := some 0, final := true } .controlFailure,
        .taskInputStreamExhausted ["x"] fun _ => .completed] {}).calls := by
  decide +kernel

end FragmentEvent

end Vane
