import Vane.Fte.FragmentMoves

/-!
This module contains the proofs that the methods of a fragment execution are paths of moves.
-/

namespace Vane

open Py (ensures_bind ensures_get_bind ensures_ite ensures_lift_bind ensures_modify_bind
  ensures_raiseIf_bind ensures_read)
open Py.Ensures (mono)

namespace FteFragmentExecution

variable {id : ℕ} {p : FteTaskPartition} {running : RunningAttempt} {attempt : FteTaskAttemptId}

open FteTaskPartition (SameAttempts Effect Carries Loses Touched carries_nil)

variable {G : FteTaskPartition → FteTaskAttemptId → Prop} {s s' : FteFragmentExecution} {α : Type}

theorem traces_onPartition {m : Py FteTaskPartition α}
    (h : ∀ p, m.Ensures p (fun _ p' => Touched p p') fun _ p' => Touched p p') :
    Traces G s (onPartition id m) fun _ _ => True := by
  apply ensures_onPartition (fun _ => .refl s)
  intro p hp
  have htrace : ∀ p', Touched p p' →
      Trace G s { s with partitions := s.partitions.insert id p' } := by
    intro p' htouched
    exact .of_move (.updated id p p' hp htouched.same (.inl htouched.sinkHandle) htouched.carries
      (puts_insert id p') (.of_eq rfl)) (recorded_nil rfl rfl)
  refine mono (h p) ?_ ?_
  . exact fun _ p' h => ⟨htrace p' h, trivial⟩
  . exact fun _ p' h => (htrace p' h).toBroken

theorem traces_addSink (hs : s.Sound) (id : ℕ) :
    Traces G s (onExchange (FteExchangeTracker.addSink id)) fun handle s' =>
      s'.partitions = s.partitions ∧ ∀ h, handle = some h → h.partitionId = id := by
  apply ensures_onExchange
  . intro _
    exact ⟨.refl s, rfl, by simp⟩
  . intro t ht
    apply (FteExchangeTracker.ensures_addSink (t := t) id).mono
    . rintro handle t' ⟨hfound, rfl | ⟨hhandle, rfl⟩⟩
      . have hself : { s with exchange := some t' } = s := by rw [← ht]
        rw [hself]
        refine ⟨.refl s, rfl, ?_⟩
        rintro _ ⟨⟩
        exact hs.keyed t' id handle ht hfound
      . refine ⟨.of_move (.quiet ⟨rfl, rfl, rfl⟩ ⟨?_, ?_, ?_⟩) (recorded_nil rfl rfl), rfl, ?_⟩
        . rintro k a ⟨t', ⟨⟩, hwon⟩
          exact .inl ⟨t, ht, hwon⟩
        . rintro k a ⟨t', ⟨⟩, hlost⟩
          exact .inl ⟨t, ht, hlost⟩
        . rintro hkeyed t' k handle' ⟨⟩ hfound'
          rw [Dict.find?_insert] at hfound'
          split at hfound'
          . next hk =>
            cases hfound'
            rw [hk, hhandle]
          . exact hkeyed t k handle' ht hfound'
        . rintro _ ⟨⟩
          exact hhandle
    . rintro _ t' rfl
      have hself : { s with exchange := some t' } = s := by rw [← ht]
      rw [hself]
      exact .refl s

theorem traces_addPartition (hs : s.Sound) (id : ℕ) (nodeRequirements : Option NodeRequirements) :
    Traces G s (addPartition id nodeRequirements) fun _ _ => True := by
  apply traces_get
  split
  . apply traces_onPartition
    intro p
    exact ⟨⟨rfl, rfl, rfl, rfl, rfl, rfl, rfl, rfl⟩, rfl, rfl, rfl, rfl⟩
  . next hnone =>
    apply traces_bind (traces_addSink hs id)
    rintro handle s' - ⟨hpartitions, hhandle⟩
    refine ⟨.of_move (.added id handle nodeRequirements ?_ hhandle (puts_insert id _) (.of_eq rfl))
      (recorded_nil rfl rfl), trivial⟩
    rw [hpartitions]
    exact hnone

theorem traces_markPartitionReady (env : Environment) (id : ℕ) :
    Traces G s (markPartitionReady env id) fun _ _ => True := by
  apply traces_onPartition
  intro p
  rw [ensures_get_bind, ensures_ite]
  refine ⟨fun _ => ⟨⟨rfl, rfl, rfl, rfl, rfl, rfl, rfl, rfl⟩, rfl, rfl, rfl, rfl⟩, fun _ => ?_⟩
  rw [ensures_modify_bind, Py.ensures_pure]
  unfold FteTaskPartition.deferReadyForExecution
  split
  . exact Touched.refl p
  . exact ⟨⟨rfl, rfl, rfl, rfl, rfl, rfl, rfl, rfl⟩, rfl, rfl, rfl, rfl⟩

section

variable (hs : s.Sound)

include hs

theorem traces_sinkHandleFor (p : FteTaskPartition) :
    Traces G s (sinkHandleFor p) fun _ _ => True := by
  unfold sinkHandleFor
  split
  . exact traces_pure trivial
  . apply traces_bind (traces_addSink hs _)
    rintro handle s' - ⟨-, hhandle⟩
    refine traces_bind (Q := fun _ _ => True) ?_ fun _ _ _ _ => traces_pure trivial
    apply ensures_onPartition (fun _ => .refl s')
    intro p' hp'
    exact ⟨.of_move (.updated _ p' { p' with sinkHandle := handle } hp'
      ⟨rfl, rfl, rfl, rfl, rfl, rfl, rfl, rfl⟩ (.inr hhandle) (carries_nil rfl rfl rfl) (puts_insert _ _) (.of_eq rfl))
      (recorded_nil rfl rfl), trivial⟩

theorem traces_instantiateSink (p : FteTaskPartition) :
    Traces G s (instantiateSink p) fun _ _ => True := by
  apply traces_seq hs (traces_sinkHandleFor hs p)
  intro handle s' hs'
  cases handle with
  | none => exact traces_pure trivial
  | some handle =>
    apply traces_seq hs' (traces_lift fun _ _ => trivial)
    intro attemptNumber s'' hs''
    refine traces_bind (Q := fun _ _ => True) ?_ fun _ _ _ _ => traces_pure trivial
    apply ensures_onExchange
    . exact fun _ => ⟨.refl s'', trivial⟩
    . intro t ht
      have hself : { s'' with exchange := some t } = s'' := by rw [← ht]
      rw [ensures_read, hself]
      exact ⟨fun _ _ => ⟨.refl s'', trivial⟩, fun _ _ => .refl s''⟩

theorem traces_sinkInstanceFor (p : FteTaskPartition) :
    Traces G s (sinkInstanceFor p) fun _ _ => True := by
  apply traces_get
  split
  . exact traces_instantiateSink hs p
  . exact traces_pure trivial
  . exact traces_seq hs (traces_lift fun _ _ => trivial) fun _ _ _ => traces_pure trivial

theorem traces_startAttemptWithWorker (env : Environment) (id : ℕ) :
    Traces G s (startAttemptWithWorker env id) fun _ _ => True := by
  apply traces_seq hs (traces_read fun _ _ => trivial)
  intro p s hs
  split
  . exact traces_pure trivial
  . exact .refl s
  . next workerId _ =>
    apply traces_seq hs (traces_sinkInstanceFor hs p)
    intro sinkInstance s hs
    unfold Traces
    rw [ensures_bind]
    apply ensures_onPartition (fun _ => .refl s)
    intro p' hp'
    apply (FteTaskPartition.ensures_startAttempt sinkInstance workerId).mono
    . rintro scheduled p'' ⟨hid, hsplits, hmarked, hopen, hidle, hleft, heq⟩
      have hsame : SameAttempts { p' with
          runningAttempts := p'.runningAttempts.insert (p'.maxAttempts - p'.remainingAttempts)
            ⟨scheduled.attemptId, workerId, sinkInstance⟩ } p'' := by
        rw [heq]
        exact ⟨rfl, rfl, rfl, rfl, rfl, rfl, rfl, rfl⟩
      have hhandle : p''.sinkHandle = p'.sinkHandle := by rw [heq]
      have hdescriptor : p''.descriptor = p'.descriptor := by rw [heq]
      rw [ensures_lift_bind]
      constructor
      . intro registered _
        rw [ensures_modify_bind, Py.ensures_pure]
        refine ⟨.of_move ?_ (recorded_recordWorkerCommand _ _), trivial⟩
        refine .started id p' p'' _ _ hp' hid hopen hidle hleft hsame hhandle hdescriptor rfl rfl ?_
          hmarked ((puts_insert id p'').leaves (leaves_recordWorkerCommand _ _))
          (.of_eq (exchange_recordWorkerCommand _ _))
        intro source
        simp only [WorkerCommand.splits, hsplits]
      . intro e _
        exact (Stray.effect id p' p'' _ hp' (.started _ hid hopen hidle hleft hsame)
          hsame.selectedAttempt hhandle (puts_insert id p'') (.of_eq rfl)).broken
    . rintro _ p'' rfl
      exact (Stray.effect id p'' p'' [] hp' (.quiet (SameAttempts.refl p'')) rfl rfl
        (puts_insert id p'') (.of_eq rfl)).broken

theorem traces_schedulePartitionIfReady (env : Environment) (id : ℕ)
    (executionClass : Option FteTaskExecutionClass) :
    Traces G s (schedulePartitionIfReady env id executionClass) fun _ _ => True := by
  apply traces_get
  split
  . exact traces_pure trivial
  . apply traces_seq hs (traces_lift fun _ _ => trivial)
    intro ready s hs
    apply traces_ite
    . exact fun _ => traces_startAttemptWithWorker hs env id
    . exact fun _ => traces_pure trivial

end

/-! The updates of a partition. -/

theorem flatten_splitUpdateBatches (env : Environment) (splits current : List FteSplit) (bytes : ℕ) :
    (splitUpdateBatches env splits current bytes).flatten = current ++ splits := by
  induction splits generalizing current bytes with
  | nil => cases current <;> simp [splitUpdateBatches]
  | cons split splits ih =>
    unfold splitUpdateBatches
    dsimp only
    split
    . rw [List.flatten_cons, ih]
      simp
    . rw [ih]
      simp

theorem ensures_appendUpdate (p : FteTaskPartition) (update : PartitionUpdate) :
    (appendUpdate update).Ensures p
      (fun result p' => ∃ d', p' = { p with descriptor := d' } ∧ (p.descriptor.Tidy → d'.Tidy ∧
        (∀ source, d'.splitsOf source = (p.descriptor.splitsOf source).appendNew FteSplit.sequenceId
          (if source = update.sourceNodeId then result.1 else [])) ∧
        ∀ source, source ∈ d'.noMoreSplits ↔ source ∈ p.descriptor.noMoreSplits ∨
          result.2 = true ∧ source = update.sourceNodeId))
      fun _ p' => ∃ d', p' = { p with descriptor := d' } := by
  have happend : (TaskDescriptor.appendSplits update.sourceNodeId update.splits).Ensures p.descriptor
      (fun added d₁ => p.descriptor.Tidy →
        TaskDescriptor.Appended update.sourceNodeId added p.descriptor d₁)
      fun _ _ => True := by
    by_cases htidy : p.descriptor.Tidy
    . exact (TaskDescriptor.ensures_appendSplits htidy _ _).mono (fun _ _ h _ => h.1)
        fun _ _ _ => trivial
    . exact Py.ensures_of_state (P := fun _ => True) trivial
        (fun _ _ _ h => absurd h htidy) fun _ _ _ => trivial
  unfold appendUpdate
  rw [ensures_bind, Py.ensures_zoom]
  refine happend.mono ?_ fun _ d' _ => ⟨d', rfl⟩
  intro added d₁ happended
  have hsplits : p.descriptor.Tidy → ∀ source, d₁.splitsOf source =
      (p.descriptor.splitsOf source).appendNew FteSplit.sequenceId
        (if source = update.sourceNodeId then added else []) := by
    intro htidy source
    rw [List.appendNew_of_nodup, (happended htidy).splitsOf]
    rw [← (happended htidy).splitsOf]
    exact (happended htidy).tidy.nodup source
  rw [ensures_ite]
  refine ⟨fun _ => ?_, fun _ => ?_⟩
  . rw [ensures_bind, Py.ensures_zoom]
    refine (TaskDescriptor.ensures_markNoMoreSplits update.sourceNodeId).mono ?_ fun _ d' _ => ⟨d',
      rfl⟩
    rintro marked d' ⟨hmarked, hold, hinitial, hseen, -⟩
    refine ⟨d', rfl, fun htidy => ⟨?_, ?_, ?_⟩⟩
    . unfold TaskDescriptor.Tidy
      rw [hseen, hinitial]
      exact (happended htidy).tidy
    . intro source
      rw [← hsplits htidy]
      unfold TaskDescriptor.splitsOf
      rw [hinitial]
    . intro source
      have hsame := (happended htidy).noMoreSplits
      rw [hmarked, Finset.mem_insert]
      dsimp only at hold ⊢
      rw [hsame] at hold ⊢
      cases marked with
      | true => tauto
      | false =>
        have hmem := hold rfl
        constructor
        . rintro (rfl | h)
          . exact .inl hmem
          . exact .inl h
        . rintro (h | h)
          . exact .inr h
          . exact absurd h.1 (by simp)
  . refine ⟨d₁, rfl, fun htidy => ⟨(happended htidy).tidy, hsplits htidy, ?_⟩⟩
    intro source
    rw [(happended htidy).noMoreSplits]
    simp

theorem runningAttempt_eq_some (h : p.runningAttempt = .ok (some running)) :
    ∃ a, p.runningAttempts.find? a = some running := by
  rw [← Dict.mem_values_iff]
  unfold FteTaskPartition.runningAttempt at h
  split at h
  . cases h
  . next hvalues =>
    cases h
    rw [hvalues]
    exact List.mem_singleton_self _
  . cases h

theorem runningAttempt_eq_none (h : p.runningAttempt = .ok none) (a : ℕ) :
    p.runningAttempts.find? a = none := by
  unfold FteTaskPartition.runningAttempt at h
  split at h
  . next hvalues =>
    cases hfound : p.runningAttempts.find? a with
    | none => rfl
    | some running =>
      have hmem := Dict.mem_values_of_find? hfound
      rw [hvalues] at hmem
      cases hmem
  . cases h
  . cases h

theorem carries_updateCommands (env : Environment) {d' : TaskDescriptor}
    {update : PartitionUpdate} {added : List FteSplit} {marked : Bool}
    {a : ℕ} (hrunning : p.runningAttempts.find? a = some running) (h : p.descriptor.Tidy → d'.Tidy ∧
      (∀ source, d'.splitsOf source = (p.descriptor.splitsOf source).appendNew FteSplit.sequenceId
        (if source = update.sourceNodeId then added else [])) ∧
      ∀ source, source ∈ d'.noMoreSplits ↔ source ∈ p.descriptor.noMoreSplits ∨
        marked = true ∧ source = update.sourceNodeId) :
    Carries (updateCommands env running update added marked) p { p with descriptor := d' } := by
  have hsplits : ∀ source, (updateCommands env running update added marked).flatMap
      (·.splits source) = if source = update.sourceNodeId then added else [] := by
    intro source
    unfold updateCommands
    rw [List.flatMap_append, List.flatMap_map]
    have hlast : (if marked then [WorkerCommand.noMoreSplits running.workerId running.attemptId
        update.sourceNodeId] else []).flatMap (·.splits source) = [] := by
      cases marked <;> rfl
    rw [hlast, List.append_nil]
    simp only [WorkerCommand.splits]
    by_cases hsource : source = update.sourceNodeId
    . simp only [hsource, if_true, List.flatMap_id']
      rw [flatten_splitUpdateBatches, List.nil_append]
    . simp [hsource, Ne.symm hsource]
  refine ⟨?_, fun htidy => (h htidy).1, ?_, ?_⟩
  . intro command hcommand
    unfold updateCommands at hcommand
    rw [List.mem_append, List.mem_map] at hcommand
    rcases hcommand with ⟨batch, -, rfl⟩ | hcommand
    . exact ⟨rfl, a, running, hrunning, rfl⟩
    . cases marked with
      | false => cases hcommand
      | true =>
        rw [if_pos rfl, List.mem_singleton] at hcommand
        rw [hcommand]
        exact ⟨rfl, a, running, hrunning, rfl⟩
  . intro htidy _ _ _ source
    rw [hsplits]
    exact (h htidy).2.1 source
  . intro htidy _ _ _ source
    rw [(h htidy).2.2 source]
    apply or_congr Iff.rfl
    unfold updateCommands
    cases marked <;> simp [WorkerCommand.complete, eq_comm]

theorem traces_record (s₀ : FteFragmentExecution) (commands : List WorkerCommand) :
    Recorded commands s₀ (commands.foldl (fun self command => self.recordWorkerCommand command) s₀) ∧
      Leaves s₀ (commands.foldl (fun self command => self.recordWorkerCommand command) s₀) ∧
      (commands.foldl (fun self command => self.recordWorkerCommand command) s₀).exchange =
        s₀.exchange := by
  induction commands generalizing s₀ with
  | nil => exact ⟨recorded_nil rfl rfl, ⟨rfl, rfl, rfl⟩, rfl⟩
  | cons command commands ih =>
    obtain ⟨hrecorded, hleaves, hexchange⟩ := ih (s₀.recordWorkerCommand command)
    have hfirst := leaves_recordWorkerCommand command s₀
    rw [List.foldl_cons]
    refine ⟨(recorded_recordWorkerCommand command s₀).trans hrecorded, ⟨?_, ?_, ?_⟩, ?_⟩
    . exact hleaves.queryId.trans hfirst.queryId
    . exact hleaves.fragmentExecutionId.trans hfirst.fragmentExecutionId
    . exact hleaves.partitions.trans hfirst.partitions
    . exact hexchange.trans (exchange_recordWorkerCommand command s₀)

theorem traces_updatePartitionLocked (hs : s.Sound) (env : Environment) (update : PartitionUpdate) :
    Traces G s (updatePartitionLocked env update) fun _ _ => True := by
  apply traces_seq hs (traces_addPartition hs _ _)
  intro _ s hs
  unfold Traces
  rw [ensures_bind, ensures_read]
  refine ⟨fun p hp => ?_, fun _ _ => .refl s⟩
  rw [ensures_lift_bind]
  refine ⟨fun running hrunning => ?_, fun _ _ => .refl s⟩
  rw [ensures_bind]
  apply ensures_onPartition (fun _ => .refl s)
  intro p' hp'
  rw [partition?, hp'] at hp
  cases hp
  apply (ensures_appendUpdate p update).mono
  . rintro ⟨added, marked⟩ p' ⟨d', rfl, hd'⟩
    have hsame : SameAttempts p { p with descriptor := d' } :=
      ⟨rfl, rfl, rfl, rfl, rfl, rfl, rfl, rfl⟩
    cases running with
    | none =>
      have hcarries : Carries [] p { p with descriptor := d' } := by
        refine ⟨by simp, fun htidy => (hd' htidy).1, ?_, ?_⟩
        . intro _ a running hfound
          rw [runningAttempt_eq_none hrunning a] at hfound
          cases hfound
        . intro _ a running hfound
          rw [runningAttempt_eq_none hrunning a] at hfound
          cases hfound
      have htrace : Trace G s { s with
          partitions := s.partitions.insert update.partitionId { p with descriptor := d' } } :=
        .of_move (.updated _ p _ hp' hsame (.inl rfl) hcarries (puts_insert _ _) (.of_eq rfl))
          (recorded_nil rfl rfl)
      have hrest : ∀ s, Traces G s (if ¬p.finished ∧ ¬p.failed ∧
          (update.readyForScheduling ∨ update.noMoreSplits ∨ p.isSealed) then
          markPartitionReady env update.partitionId else return false) fun _ _ => True := by
        intro s
        apply traces_ite
        . exact fun _ => traces_markPartitionReady env _
        . exact fun _ => traces_pure trivial
      exact (hrest _).after htrace
    | some running =>
      obtain ⟨a, ha⟩ := runningAttempt_eq_some hrunning
      have hrecord := traces_record { s with
        partitions := s.partitions.insert update.partitionId { p with descriptor := d' } }
        (updateCommands env running update added marked)
      refine ⟨.of_move ?_ hrecord.1, trivial⟩
      exact .updated update.partitionId p _ hp' hsame (.inl rfl)
        (carries_updateCommands env ha hd') ((puts_insert _ _).leaves hrecord.2.1)
        (.of_eq hrecord.2.2)
  . rintro _ p' ⟨d', rfl⟩
    exact (Stray.effect update.partitionId p { p with descriptor := d' } [] hp'
      (.quiet ⟨rfl, rfl, rfl, rfl, rfl, rfl, rfl, rfl⟩) rfl rfl (puts_insert _ _)
      (.of_eq rfl)).broken

theorem traces_updatePartition (hs : s.Sound) (env : Environment) (update : PartitionUpdate) :
    Traces G s (updatePartition env update) fun _ _ => True := by
  apply traces_seq hs (traces_updatePartitionLocked hs env update)
  intro shouldSchedule s hs
  apply traces_ite
  . exact fun _ => traces_schedulePartitionIfReady hs env _ _
  . exact fun _ => traces_pure trivial

theorem traces_sealPartitionLocked (hs : s.Sound) (env : Environment) (id : ℕ) :
    Traces G s (sealPartitionLocked env id) fun _ _ => True := by
  apply traces_seq hs (traces_addPartition hs _ _)
  intro _ s hs
  apply traces_seq hs
  . apply traces_onPartition
    intro p
    unfold FteTaskPartition.markSealed
    rw [ensures_get_bind, ensures_raiseIf_bind]
    refine ⟨fun _ => Touched.refl p, fun _ => ?_⟩
    rw [ensures_modify_bind, ensures_ite]
    exact ⟨fun _ => ⟨⟨rfl, rfl, rfl, rfl, rfl, rfl, rfl, rfl⟩, rfl, rfl, rfl, rfl⟩,
      fun _ => ⟨⟨rfl, rfl, rfl, rfl, rfl, rfl, rfl, rfl⟩, rfl, rfl, rfl, rfl⟩⟩
  intro oldClass s hs
  apply traces_seq hs (traces_read fun _ _ => trivial)
  intro p s hs
  have hrest : ∀ s, s.Sound → Traces G s (do
      let running ← Py.lift p.runningAttempt
      if running.isNone ∧ ¬p.finished ∧ ¬p.failed then
        markPartitionReady env id
      else
        return false) fun _ _ => True := by
    intro s hs
    apply traces_seq hs (traces_lift fun _ _ => trivial)
    intro running s hs
    apply traces_ite
    . exact fun _ => traces_markPartitionReady env id
    . exact fun _ => traces_pure trivial
  apply traces_ite
  . intro _
    apply traces_seq hs (traces_lift fun _ _ => trivial)
    exact fun _ s hs => hrest s hs
  . exact fun _ => hrest s hs

theorem traces_sealPartition (hs : s.Sound) (env : Environment) (id : ℕ) :
    Traces G s (sealPartition env id) fun _ _ => True := by
  apply traces_seq hs (traces_sealPartitionLocked hs env id)
  intro shouldSchedule s hs
  apply traces_ite
  . exact fun _ => traces_schedulePartitionIfReady hs env _ _
  . exact fun _ => traces_pure trivial

def Collected (G : FteTaskPartition → FteTaskAttemptId → Prop) (s : FteFragmentExecution)
    (commands : List WorkerCommand) (s' : FteFragmentExecution) : Prop :=
  LogPath (Move G) s commands s' ∧ s'.currentWorkerCommands = s.currentWorkerCommands ∧
    s'.workerCommandOutbox = s.workerCommandOutbox

theorem ensures_collecting {body : Py FteFragmentExecution Unit} (hs : s.Sound)
    (h : ∀ s : FteFragmentExecution, s.Sound → Traces G s body fun _ _ => True) :
    (collecting body).Ensures s (Collected G s) fun _ s' => Broken G s s' := by
  have hbegin : Move G s [] { s with currentWorkerCommands := some [] } :=
    .quiet ⟨rfl, rfl, rfl⟩ (.of_eq rfl)
  unfold collecting
  rw [ensures_get_bind, ensures_modify_bind, ensures_bind, Py.ensures_onError]
  refine mono (h _ (hbegin.sound hs)) ?_ ?_
  . rintro _ s' ⟨⟨commands, hpath, hcurrent, houtbox⟩, -⟩
    rw [ensures_get_bind, ensures_modify_bind, Py.ensures_pure, hcurrent]
    refine ⟨?_, rfl, houtbox.trans (List.append_nil _)⟩
    have hend : Move G s' [] { s' with currentWorkerCommands := s.currentWorkerCommands } :=
      .quiet ⟨rfl, rfl, rfl⟩ (.of_eq rfl)
    have hall := ((LogPath.single hbegin).trans hpath).tail hend
    rw [List.nil_append, List.append_nil] at hall
    exact hall
  . rintro _ s' ⟨commands, s₁, hpath, hstray⟩
    exact ⟨_, s₁, (LogPath.single hbegin).trans hpath, hstray.congr ⟨rfl, rfl, rfl⟩ rfl⟩

theorem ensures_applyAssignmentResult (hs : s.Sound) (env : Environment) (result : AssignmentResult) :
    (applyAssignmentResult env result).Ensures s (Collected G s) fun _ s' => Broken G s s' := by
  apply ensures_collecting hs
  intro s hs
  apply traces_seq hs
  . apply traces_forEach (fun _ => True) _ hs trivial
    exact fun info _ s hs _ => traces_addPartition hs _ _
  intro _ s hs
  apply traces_seq hs (traces_lift fun _ _ => trivial)
  intro updates s hs
  apply traces_seq hs
  . apply traces_forEach (fun _ => True) _ hs trivial
    intro update _ s hs _
    exact traces_seq hs (traces_updatePartition hs env update) fun _ _ _ => traces_pure trivial
  intro _ s hs
  apply traces_seq hs
  . apply traces_forEach (fun _ => True) _ hs trivial
    intro id _ s hs _
    exact traces_seq hs (traces_sealPartition hs env id) fun _ _ _ => traces_pure trivial
  intro _ s hs
  exact traces_quiet ⟨rfl, rfl, rfl⟩ rfl rfl rfl trivial

theorem traces_updateTask (hs : s.Sound) (id : ℕ) (update : FteTaskUpdateRequest) :
    Traces G s (updateTask id update) fun _ _ => True := by
  apply traces_seq hs (traces_addPartition hs _ _)
  intro _ s hs
  unfold Traces
  rw [ensures_bind]
  apply ensures_onPartition (fun _ => .refl s)
  intro p hp
  rw [Py.ensures_zoom]
  have hupdate : (TaskDescriptor.applyTaskUpdate update).Ensures p.descriptor
      (fun changed d' => p.descriptor.Tidy → TaskDescriptor.Updated update p.descriptor d' ∧
        (changed = false → (∀ s, d'.splitsOf s = p.descriptor.splitsOf s) ∧
          d'.noMoreSplits = p.descriptor.noMoreSplits))
      fun _ _ => True := by
    by_cases htidy : p.descriptor.Tidy
    . exact (TaskDescriptor.ensures_applyTaskUpdate htidy update).mono (fun _ _ h _ => h)
        fun _ _ _ => trivial
    . exact Py.ensures_of_state (P := fun _ => True) trivial (fun _ _ _ h => absurd h htidy)
        fun _ _ _ => trivial
  apply hupdate.mono
  . intro changed d' hd'
    have hsame : SameAttempts p { p with descriptor := d' } :=
      ⟨rfl, rfl, rfl, rfl, rfl, rfl, rfl, rfl⟩
    have hmove : ∀ commands s', Carries commands p { p with descriptor := d' } →
        Leaves { s with partitions := s.partitions.insert id { p with descriptor := d' } } s' →
        s'.exchange = s.exchange → Move G s commands s' := by
      intro commands s' hcarries hleaves hexchange
      exact .updated id p _ hp hsame (.inl rfl) hcarries ((puts_insert _ _).leaves hleaves)
        (.of_eq hexchange)
    have hquiet : Carries [] p { p with descriptor := d' } → Trace G s { s with
        partitions := s.partitions.insert id { p with descriptor := d' } } :=
      fun hcarries => .of_move (hmove _ _ hcarries ⟨rfl, rfl, rfl⟩ rfl) (recorded_nil rfl rfl)
    rw [ensures_ite]
    refine ⟨fun _ => ?_, fun hunchanged => ⟨hquiet ?_, trivial⟩⟩
    . rw [ensures_bind, ensures_read, partition?, Dict.find?_insert_self]
      refine ⟨?_, by simp⟩
      rintro _ ⟨⟩
      rw [ensures_lift_bind]
      refine ⟨fun running hrunning => ?_, fun _ _ => ?_⟩
      . cases running with
        | none =>
          refine ⟨hquiet ⟨by simp, fun htidy => (hd' htidy).1.tidy, ?_, ?_⟩, trivial⟩
          . intro _ a running hfound
            rw [runningAttempt_eq_none (p := { p with descriptor := d' }) hrunning a] at hfound
            cases hfound
          . intro _ a running hfound
            rw [runningAttempt_eq_none (p := { p with descriptor := d' }) hrunning a] at hfound
            cases hfound
        | some running =>
          obtain ⟨a, ha⟩ := runningAttempt_eq_some hrunning
          refine ⟨.of_move (hmove _ _ ⟨?_, ?_, ?_, ?_⟩ (leaves_recordWorkerCommand _ _)
            (exchange_recordWorkerCommand _ _)) (recorded_recordWorkerCommand _ _), trivial⟩
          . intro command hcommand
            rw [List.mem_singleton] at hcommand
            rw [hcommand]
            exact ⟨rfl, a, running, ha, rfl⟩
          . exact fun htidy => (hd' htidy).1.tidy
          . intro htidy _ _ _ source
            rw [List.flatMap_singleton]
            exact (hd' htidy).1.splitsOf source
          . intro htidy _ _ _ source
            rw [(hd' htidy).1.noMoreSplits, Finset.mem_union]
            simp [WorkerCommand.complete]
      . exact (Stray.effect id p { p with descriptor := d' } [] hp (.quiet hsame) rfl rfl
          (puts_insert _ _) (.of_eq rfl)).broken
    . rw [Bool.not_eq_true] at hunchanged
      refine ⟨by simp, fun htidy => (hd' htidy).1.tidy, ?_, ?_⟩
      . intro htidy _ _ _ source
        exact ((hd' htidy).2 hunchanged).1 source
      . intro htidy _ _ _ source
        rw [((hd' htidy).2 hunchanged).2]
        simp
  . intro _ d' _
    exact (Stray.effect id p { p with descriptor := d' } [] hp
      (.quiet ⟨rfl, rfl, rfl, rfl, rfl, rfl, rfl, rfl⟩) rfl rfl (puts_insert _ _)
      (.of_eq rfl)).broken

theorem ensures_applyTaskUpdate (hs : s.Sound) (id : ℕ) (update : FteTaskUpdateRequest) :
    (applyTaskUpdate id update).Ensures s (Collected G s) fun _ s' => Broken G s s' :=
  ensures_collecting hs fun _ hs => traces_updateTask hs id update

/-! Attempts that fail or finish. -/

theorem ensures_abortSink
    (hkeyed : ∀ handle, p.sinkHandle = some handle → handle.partitionId = id) (a : ℕ) :
    (abortSink p a).Ensures s
      (fun _ s' => Exchanged never (only id a) s s' ∧ ∃ exchange, s' = { s with exchange })
      fun _ s' => s' = s := by
  unfold abortSink
  split
  . exact ⟨.of_eq rfl, s.exchange, rfl⟩
  . next handle hhandle =>
    rw [ensures_bind]
    refine ensures_onExchange (fun _ => ⟨.of_eq rfl, s.exchange, rfl⟩) ?_
    intro t ht
    apply (FteExchangeTracker.ensures_sinkAborted (hkeyed handle hhandle) a).mono
    . rintro _ t' ⟨hsinks, hwon, hlost⟩
      refine ⟨⟨?_, ?_, ?_⟩, some t', rfl⟩
      . rintro k b ⟨_, ⟨⟩, h⟩
        exact .inl ⟨t, ht, (hwon k b).mp h⟩
      . rintro k b ⟨_, ⟨⟩, h⟩
        rcases hlost k b h with h | h
        . exact .inl ⟨t, ht, h⟩
        . exact .inr h
      . rintro hkeyed _ k handle' ⟨⟩ hfound
        rw [hsinks] at hfound
        exact hkeyed t k handle' ht hfound
    . rintro _ t' rfl
      rw [← ht]

theorem ensures_finishSink
    (hkeyed : ∀ handle, p.sinkHandle = some handle → handle.partitionId = id) (a : ℕ) :
    (finishSink p a).Ensures s
      (fun _ s' => Exchanged (only id a) never s s' ∧ ∃ exchange, s' = { s with exchange })
      fun _ s' => s' = s := by
  unfold finishSink
  split
  . exact ⟨.of_eq rfl, s.exchange, rfl⟩
  . next handle hhandle =>
    rw [ensures_bind]
    refine ensures_onExchange (fun _ => ⟨.of_eq rfl, s.exchange, rfl⟩) ?_
    intro t ht
    apply (FteExchangeTracker.ensures_sinkFinished (hkeyed handle hhandle) a).mono
    . rintro _ t' ⟨hsinks, hlost, hwon⟩
      refine ⟨⟨?_, ?_, ?_⟩, some t', rfl⟩
      . rintro k b ⟨_, ⟨⟩, h⟩
        rcases hwon k b h with h | h
        . exact .inl ⟨t, ht, h⟩
        . exact .inr h
      . rintro k b ⟨_, ⟨⟩, h⟩
        exact .inl ⟨t, ht, (hlost k b).mp h⟩
      . rintro hkeyed _ k handle' ⟨⟩ hfound
        rw [hsinks] at hfound
        exact hkeyed t k handle' ht hfound
    . rintro _ t' rfl
      rw [← ht]

theorem ensures_settleFailure (hp : p.Orderly) (attempt : FteTaskAttemptId)
    (error : Failure) (retryable : Bool) :
    (FteTaskPartition.markAttemptFailed attempt error retryable).Ensures p
      (fun ready p₁ => (settleFailure error ready).Ensures p₁ (fun _ p' => Loses attempt p p')
        fun _ _ => False)
      fun _ p' => Loses attempt p p' := by
  apply (FteTaskPartition.ensures_markAttemptFailed attempt error retryable).mono
  . rintro ready p₁ ⟨htask, ⟨rfl, hreject, rfl⟩ | ⟨hdescriptor, hhandle, hnot, hzero, running, hfound, hsame⟩⟩
    . unfold settleFailure
      rw [ensures_get_bind, if_neg (by simp), if_neg (by simp)]
      exact .inl ⟨rfl, .inr hreject⟩
    . have hlost : ∀ p', SameAttempts p₁ p' → p'.sinkHandle = p₁.sinkHandle →
          p'.descriptor = p₁.descriptor → Loses attempt p p' := by
        intro p' h h₁ h₂
        exact .inr ⟨h₂.trans hdescriptor, h₁.trans hhandle, running, error, ready, hfound, hnot,
          hzero, hsame.trans h⟩
      unfold settleFailure
      rw [ensures_get_bind, ensures_ite]
      refine ⟨fun _ => ?_, fun _ => ?_⟩
      . refine .inr ⟨hdescriptor, hhandle, running, error, false, hfound, hnot, fun _ => rfl, ?_⟩
        refine ⟨hsame.taskId, hsame.maxAttempts, hsame.remainingAttempts, hsame.finished, ?_, ?_,
          hsame.selectedAttempt, hsame.failures⟩
        . simp
        . exact (hp.erase_running hfound).symm
      . rw [ensures_ite]
        refine ⟨fun _ => ?_, fun _ => hlost p₁ (SameAttempts.refl p₁) rfl rfl⟩
        rw [ensures_ite]
        exact ⟨fun _ => hlost _ ⟨rfl, rfl, rfl, rfl, rfl, rfl, rfl, rfl⟩ rfl rfl,
          fun _ => hlost _ ⟨rfl, rfl, rfl, rfl, rfl, rfl, rfl, rfl⟩ rfl rfl⟩
  . rintro _ p' ⟨rfl, htask⟩
    exact .inl ⟨rfl, .inl htask⟩

theorem partition?_eq_ok (h : s.partition? id = .ok p) : s.partitions.find? id = some p := by
  unfold partition? at h
  split at h
  . cases h
  . next hfound =>
    cases h
    exact hfound

theorem traces_taskFailed (hs : s.Sound) (env : Environment) (attempt : FteTaskAttemptId)
    (error : Failure) (retryable scheduleRetry : Bool)
    (hG : ∀ p, s.partitions.find? attempt.taskId.partitionId = some p → G p attempt) :
    Traces G s (taskFailed env attempt error retryable scheduleRetry) fun _ _ => True := by
  unfold taskFailed Traces
  rw [ensures_bind, ensures_read]
  refine ⟨fun p hread => ?_, fun _ _ => .refl s⟩
  have hp := partition?_eq_ok hread
  rw [ensures_bind]
  apply (ensures_abortSink (fun h => hs.sinkHandle _ p h hp) attempt.attemptId).mono
  . rintro _ s₁ ⟨hexchange, exchange, rfl⟩
    have hmove : ∀ p', Loses attempt p p' → ∀ s', Puts attempt.taskId.partitionId p' s s' →
        s'.exchange = exchange → Move G s [] s' := by
      intro p' hloses s' hputs heq
      exact .failed attempt.taskId.partitionId attempt p p' (hG p hp) hp hloses hputs
        (hexchange.congr heq)
    rw [ensures_bind]
    refine ensures_onPartition_of hp ?_
    apply (ensures_settleFailure (hs.orderly _ p hp) attempt error _).mono
    . intro ready p₁ hsettle
      rw [ensures_bind]
      refine ensures_onPartition_of (Dict.find?_insert_self _ _ _) ?_
      refine hsettle.mono ?_ fun _ _ h => h.elim
      intro shouldSchedule p' hloses
      have hrest : ∀ s₄, Trace G s s₄ → (if shouldSchedule ∧ scheduleRetry then
          schedulePartitionIfReady env attempt.taskId.partitionId else return none).Ensures s₄
          (fun _ s' => Trace G s s' ∧ True) fun _ s' => Broken G s s' := by
        intro s₄ htrace
        apply Traces.after _ htrace
        apply traces_ite
        . exact fun _ => traces_schedulePartitionIfReady (htrace.sound hs) env _ _
        . exact fun _ => traces_pure trivial
      rw [ensures_modify_bind]
      apply hrest
      refine .of_move (hmove p' hloses _ ⟨rfl, rfl, ?_⟩ rfl) (recorded_nil rfl rfl)
      rw [find?_insert_eq_update, find?_insert_eq_update, Function.update_idem]
    . intro _ p' hloses
      exact Trace.toBroken (.of_move (hmove p' hloses _ ⟨rfl, rfl, find?_insert_eq_update _ _ _⟩ rfl)
        (recorded_nil rfl rfl))
  . rintro _ s₁ rfl
    exact .refl s₁

theorem losers_eq_nil (hp : p.Orderly) {a : ℕ} (ha : p.runningAttempts.find? a = some running) :
    p.runningAttempts.values.filter (·.attemptId.attemptId ≠ a) = [] := by
  rw [List.filter_eq_nil_iff]
  intro r hr
  obtain ⟨b, hb⟩ := Dict.mem_values_iff.mp hr
  obtain ⟨hb', hid, -, -⟩ := hp.running b r hb
  rw [hid, decide_eq_true_eq, not_not, hb', (hp.running a running ha).1]

theorem ensures_taskFinished (hs : s.Sound) (env : Environment) (attempt : FteTaskAttemptId)
    (outputStats : Option Stats) :
    (taskFinished env attempt outputStats).Ensures s
      (fun _ s' => (Trace G s s' ∨ Finished s s') ∧
        s'.currentWorkerCommands = s.currentWorkerCommands ∧
        s'.workerCommandOutbox = s.workerCommandOutbox)
      fun _ s' => Broken G s s' ∨ Finished s s' := by
  unfold taskFinished
  rw [ensures_bind, ensures_read]
  refine ⟨fun p hread => ?_, fun _ _ => .inl (.refl s)⟩
  have hp := partition?_eq_ok hread
  have hquiet : Trace G s { s with
      partitions := s.partitions.insert attempt.taskId.partitionId p } :=
    .of_move (.updated _ p p hp (SameAttempts.refl p) (.inl rfl) (carries_nil rfl rfl rfl)
      (puts_insert _ p) (.of_eq rfl)) (recorded_nil rfl rfl)
  rw [ensures_bind]
  refine ensures_onPartition_of hp ?_
  apply (FteTaskPartition.ensures_markAttemptFinished attempt outputStats).mono
  . rintro changed p' ⟨htask, ⟨rfl, -, rfl⟩ | ⟨rfl, hdescriptor, hhandle, running, hfound, hsame⟩⟩
    . rw [ensures_ite]
      exact ⟨fun h => absurd h (by simp), fun _ => ⟨.inl hquiet, rfl, rfl⟩⟩
    . rw [losers_eq_nil (hs.orderly _ p hp) hfound]
      have hfinished : ∀ s', Puts attempt.taskId.partitionId p' s s' →
          Exchanged (only attempt.taskId.partitionId attempt.attemptId) never s s' →
          Finished s s' := by
        intro s' hputs hexchange
        exact .finished _ attempt.attemptId p p' running hp hfound hsame hhandle hdescriptor hputs
          hexchange
      rw [ensures_ite]
      refine ⟨fun _ => ?_, fun h => absurd rfl h⟩
      rw [ensures_bind, Py.ensures_forEach_nil, ensures_bind]
      apply (ensures_finishSink (fun h => hs.sinkHandle _ p h hp) attempt.attemptId).mono
      . rintro _ s₁ ⟨hexchange, exchange, rfl⟩
        refine ⟨.inr (hfinished _ ⟨rfl, rfl, find?_insert_eq_update _ _ _⟩ ?_), rfl, rfl⟩
        exact ⟨hexchange.won, hexchange.lost, hexchange.keyed⟩
      . rintro _ s₁ rfl
        exact .inr (hfinished _ (puts_insert _ p') (.of_eq rfl))
  . rintro _ p' rfl
    exact .inl hquiet.toBroken

/-! The loops over partitions and attempts. -/

def Stable (G : FteTaskPartition → FteTaskAttemptId → Prop) : Prop :=
  ∀ p numbers p' attempt, G p attempt → Effect p numbers p' →
    p'.selectedAttempt = p.selectedAttempt → G p' attempt

def Guarded (G : FteTaskPartition → FteTaskAttemptId → Prop) (id : ℕ) (attempt : FteTaskAttemptId)
    (s : FteFragmentExecution) : Prop :=
  ∃ p, s.partitions.find? id = some p ∧ G p attempt

theorem Guarded.puts {id id' : ℕ} {p p' : FteTaskPartition}
    {numbers : List ℕ} (h : Guarded G id attempt s) (hstable : Stable G)
    (hp : s.partitions.find? id' = some p) (heffect : Effect p numbers p')
    (hselected : p'.selectedAttempt = p.selectedAttempt) (hputs : Puts id' p' s s') :
    Guarded G id attempt s' := by
  obtain ⟨q, hq, hG⟩ := h
  unfold Guarded
  rw [hputs.find?]
  split
  . next hid =>
    rw [hid] at hq
    cases hp.symm.trans hq
    exact ⟨p', rfl, hstable p numbers p' attempt hG heffect hselected⟩
  . exact ⟨q, hq, hG⟩

theorem Move.guarded {commands : List WorkerCommand}
    (h : Move G s commands s') (hstable : Stable G) (hguard : Guarded G id attempt s) :
    Guarded G id attempt s' := by
  cases h with
  | quiet leaves exchange =>
    unfold Guarded
    rw [leaves.partitions]
    exact hguard
  | added id' handle nodeRequirements free keyed puts exchange =>
    obtain ⟨q, hq, hG⟩ := hguard
    unfold Guarded
    rw [puts.find?]
    split
    . next hid =>
      rw [hid, free] at hq
      cases hq
    . exact ⟨q, hq, hG⟩
  | updated id' p p' found same handle carries puts exchange =>
    exact hguard.puts hstable found (.quiet same) same.selectedAttempt puts
  | started id' p p' running command found this isOpen isIdle left same handle descriptor =>
    next puts exchange =>
    exact hguard.puts hstable found (.started running this isOpen isIdle left same)
      same.selectedAttempt puts
  | failed id' attempt' p p' guarded found loses puts exchange =>
    obtain ⟨heffect, -, -, -, hselected⟩ := loses.effect
    exact hguard.puts hstable found heffect hselected puts

theorem Trace.guarded (h : Trace G s s') (hstable : Stable G)
    (hguard : Guarded G id attempt s) : Guarded G id attempt s' := by
  obtain ⟨commands, hpath, -⟩ := h
  exact hpath.keeps (Guarded G id attempt)
    (fun _ _ _ hguard hmove => hmove.guarded hstable hguard) hguard

theorem traces_revokeOne (hs : s.Sound) (env : Environment) (id : ℕ) (running : RunningAttempt)
    (reason : Failure) (hG : Guarded G id running.attemptId s) :
    Traces G s (revokeOne env id running reason) fun _ _ => True := by
  unfold revokeOne Traces
  rw [ensures_bind, ensures_read]
  refine ⟨fun p hread => ?_, fun _ _ => .refl s⟩
  have hp := partition?_eq_ok hread
  obtain ⟨q, hq, hguard⟩ := hG
  cases hp.symm.trans hq
  rw [ensures_lift_bind]
  refine ⟨fun _ _ => ?_, fun _ _ => .refl s⟩
  rw [ensures_bind]
  apply (ensures_abortSink (fun h => hs.sinkHandle _ p h hp) running.attemptId.attemptId).mono
  . rintro _ s₁ ⟨hexchange, exchange, rfl⟩
    have hmove : ∀ p', Loses running.attemptId p p' → ∀ s', Puts id p' s s' →
        s'.exchange = exchange → Move G s [] s' := by
      intro p' hloses s' hputs heq
      exact .failed id running.attemptId p p' hguard hp hloses hputs (hexchange.congr heq)
    rw [ensures_bind]
    refine ensures_onPartition_of hp ?_
    apply (FteTaskPartition.ensures_revokeAttempt running.attemptId reason).mono
    . rintro revoked p' ⟨htask, ⟨hreject, rfl⟩ | ⟨hdescriptor, hhandle, hnot, retries, r, hzero, hfound,
        hsame⟩⟩
      . exact ⟨.of_move (hmove p' (.inl ⟨rfl, .inr hreject⟩) _
          ⟨rfl, rfl, find?_insert_eq_update _ _ _⟩ rfl) (recorded_nil rfl rfl), trivial⟩
      . exact ⟨.of_move (hmove p' (.inr ⟨hdescriptor, hhandle, r, reason, retries, hfound, hnot,
          hzero, hsame⟩) _ ⟨rfl, rfl, find?_insert_eq_update _ _ _⟩ rfl) (recorded_nil rfl rfl),
          trivial⟩
    . rintro _ p' ⟨rfl, htask⟩
      exact Trace.toBroken (.of_move (hmove p' (.inl ⟨rfl, .inl htask⟩) _
        ⟨rfl, rfl, find?_insert_eq_update _ _ _⟩ rfl) (recorded_nil rfl rfl))
  . rintro _ s₁ rfl
    exact .refl s₁

theorem traces_revokeEach (hstable : Stable G) (env : Environment) (reason : Failure)
    (attempts : List (ℕ × RunningAttempt)) (limit : Option ℕ) (hs : s.Sound)
    (hG : ∀ entry ∈ attempts, Guarded G entry.1 entry.2.attemptId s) :
    Traces G s (revokeEach env reason attempts limit) fun _ _ => True := by
  induction attempts generalizing s limit with
  | nil => exact traces_pure trivial
  | cons entry attempts ih =>
    refine traces_ite (fun _ => traces_pure trivial) ?_
    intro _
    apply traces_bind (traces_revokeOne hs env entry.1 entry.2 reason (hG entry (by simp)))
    intro revoked s' htrace _
    apply ih _ (htrace.sound hs)
    intro entry' hentry'
    exact htrace.guarded hstable (hG entry' (by simp [hentry']))

def GuardsRunning (G : FteTaskPartition → FteTaskAttemptId → Prop) (s : FteFragmentExecution) :
    Prop :=
  ∀ id p a running, s.partitions.find? id = some p → p.runningAttempts.find? a = some running →
    G p running.attemptId

section

variable (hs : s.Sound)

include hs

theorem traces_revokeSpeculativeAttempts (hstable : Stable G)
    (hG : GuardsRunning G s) (env : Environment) (workerId : Option String) (maxCount : Option ℕ)
    (reason : Failure) :
    Traces G s (revokeSpeculativeAttempts env workerId maxCount reason) fun _ _ => True := by
  apply traces_get
  apply traces_revokeEach hstable env reason _ _ hs
  intro entry hentry
  obtain ⟨⟨id, p⟩, hp, hmem⟩ := List.mem_flatMap.mp hentry
  obtain ⟨running, hrunning, rfl⟩ := List.mem_map.mp hmem
  have hfound := Dict.find?_eq_some_iff.mpr hp
  unfold revocable at hrunning
  split at hrunning
  . cases hrunning
  . rw [List.mem_filter, List.mem_sortBy] at hrunning
    obtain ⟨a, ha⟩ := Dict.mem_values_iff.mp hrunning.1
    exact ⟨p, hfound, hG id p a running hfound ha⟩

theorem traces_markWorkerFailed (hstable : Stable G) (hG : GuardsRunning G s)
    (env : Environment) (workerId : String) (error : Failure) (retryable : ℕ → Bool)
    (scheduleRetries : Bool) :
    Traces G s (markWorkerFailed env workerId error retryable scheduleRetries) fun _ _ => True := by
  apply traces_get
  generalize hattempts : (s.partitions.values.flatMap fun p =>
    (p.runningAttempts.values.filter (·.workerId = some workerId)).map fun running =>
      (running.attemptId, p.taskId.partitionId)) = attempts
  have hguarded : ∀ entry ∈ attempts, Guarded G entry.1.taskId.partitionId entry.1 s := by
    intro entry hentry
    rw [← hattempts] at hentry
    obtain ⟨p, hp, hmem⟩ := List.mem_flatMap.mp hentry
    obtain ⟨running, hrunning, rfl⟩ := List.mem_map.mp hmem
    obtain ⟨id, hfound⟩ := Dict.mem_values_iff.mp hp
    obtain ⟨a, ha⟩ := Dict.mem_values_iff.mp (List.mem_of_mem_filter hrunning)
    obtain ⟨-, hid, -, -⟩ := (hs.orderly id p hfound).running a running ha
    refine ⟨p, ?_, hG id p a running hfound ha⟩
    rw [hid, hs.taskId id p hfound]
    exact hfound
  clear hattempts
  apply mono (traces_forEach (G := G)
    (fun s => ∀ entry ∈ attempts, Guarded G entry.1.taskId.partitionId entry.1 s) ?_ hs hguarded)
  . exact fun _ _ h => ⟨h.1, trivial⟩
  . exact fun _ _ h => h
  . intro entry hentry s hs hguarded
    have htraces := traces_taskFailed (G := G) hs env entry.1 error (retryable entry.2) scheduleRetries
      (by
        intro p hp
        obtain ⟨q, hq, hguard⟩ := hguarded entry hentry
        cases hp.symm.trans hq
        exact hguard)
    apply traces_bind htraces
    intro _ s' htrace _
    exact traces_pure fun entry hentry => htrace.guarded hstable (hguarded entry hentry)

theorem traces_scheduleFirst (env : Environment)
    (executionClass : Option FteTaskExecutionClass) (ids : List ℕ) :
    Traces G s (scheduleFirst env executionClass ids) fun _ _ => True := by
  induction ids generalizing s with
  | nil => exact traces_pure trivial
  | cons id ids ih =>
    apply traces_seq hs (traces_schedulePartitionIfReady hs env id executionClass)
    intro attempt s hs
    cases attempt with
    | some attempt => exact traces_pure trivial
    | none => exact ih hs

theorem traces_releaseDeferred (env : Environment)
    (executionClass : Option FteTaskExecutionClass) (id : ℕ) :
    Traces G s (releaseDeferred env executionClass id) fun _ _ => True := by
  apply traces_seq hs (traces_read fun _ _ => trivial)
  intro p s hs
  refine traces_ite ?_ fun _ => traces_pure trivial
  intro _
  apply traces_seq hs (traces_lift fun _ _ => trivial)
  intro running s hs
  apply traces_ite
  . intro _
    apply traces_onPartition
    intro p
    exact ⟨⟨rfl, rfl, rfl, rfl, rfl, rfl, rfl, rfl⟩, rfl, rfl, rfl, rfl⟩
  . intro _
    refine traces_ite ?_ fun _ => traces_pure trivial
    intro _
    apply traces_seq hs (traces_markPartitionReady env id)
    intro ready s hs
    apply traces_ite
    . exact fun _ => traces_seq hs (traces_lift fun _ _ => trivial) fun _ _ _ => traces_pure trivial
    . exact fun _ => traces_pure trivial

theorem traces_setExecutionClass (new : FteTaskExecutionClass) :
    Traces G s (setExecutionClass new) fun _ _ => True := by
  apply traces_get
  apply traces_seq hs (traces_lift fun _ _ => trivial)
  intro _ s₁ hs₁
  apply traces_seq hs₁ (traces_quiet ⟨rfl, rfl, rfl⟩ rfl rfl rfl trivial)
  intro _ s₂ hs₂
  apply traces_forEach (fun _ => True) _ hs₂ trivial
  rintro ⟨id, p⟩ _ s₃ hs₃ _
  refine traces_ite (fun _ => traces_pure trivial) ?_
  intro _
  refine traces_seq hs₃ (traces_onPartition ?_) fun _ _ _ => traces_pure trivial
  intro p
  unfold FteTaskPartition.setExecutionClass
  rw [ensures_get_bind, ensures_ite]
  refine ⟨fun _ => Touched.refl p, fun _ => ?_⟩
  rw [ensures_raiseIf_bind]
  exact ⟨fun _ => Touched.refl p,
    fun _ => ⟨⟨rfl, rfl, rfl, rfl, rfl, rfl, rfl, rfl⟩, rfl, rfl, rfl, rfl⟩⟩

end

/-! The calls on a fragment execution. -/

def AttemptStatus.reportsFailure (status : AttemptStatus) : Bool :=
  match status.state with
  | some .finished => status.statsOfOutput.isNone
  | some .failed => true
  | some .canceled => true
  | some .aborted => true
  | _ => false

theorem reportsFailure_of_statusFails {status : AttemptStatus}
    (h : s.statusFails status = .ok true) : status.reportsFailure := by
  unfold statusFails at h
  unfold AttemptStatus.reportsFailure
  split at h
  . next hstate =>
    obtain ⟨p, -, h⟩ := Except.ok_of_bind h
    split at h
    . cases h
    . next hnone => simpa [hstate] using hnone
  . next hstate => simp [hstate]
  . next hstate => simp [hstate]
  . next hstate => simp [hstate]
  . cases h

def AdmitsFailure (G : FteTaskPartition → FteTaskAttemptId → Prop) (attempt : FteTaskAttemptId)
    (s : FteFragmentExecution) : Prop :=
  ∀ p, s.partitions.find? attempt.taskId.partitionId = some p → G p attempt

def Turn (G : FteTaskPartition → FteTaskAttemptId → Prop) (s : FteFragmentExecution)
    (commands : List WorkerCommand) (s' : FteFragmentExecution) : Prop :=
  Move G s commands s' ∨ commands = [] ∧ Finished s s'

def Takes (G : FteTaskPartition → FteTaskAttemptId → Prop) (s s' : FteFragmentExecution) : Prop :=
  ∃ commands, LogPath (Turn G) s commands s' ∧ Recorded commands s s'

def Breaks (G : FteTaskPartition → FteTaskAttemptId → Prop) (s s' : FteFragmentExecution) : Prop :=
  ∃ commands s₁, LogPath (Turn G) s commands s₁ ∧ Stray s₁ s'

theorem Trace.takes (h : Trace G s s') : Takes G s s' := by
  obtain ⟨commands, hpath, hrecorded⟩ := h
  exact ⟨commands, hpath.mono fun _ _ _ => .inl, hrecorded⟩

theorem Broken.breaks (h : Broken G s s') : Breaks G s s' := by
  obtain ⟨commands, s₁, hpath, hstray⟩ := h
  exact ⟨commands, s₁, hpath.mono fun _ _ _ => .inl, hstray⟩

theorem ensures_taskFinished_takes (hs : s.Sound) (env : Environment) (attempt : FteTaskAttemptId)
    (outputStats : Option Stats) :
    (taskFinished env attempt outputStats).Ensures s (fun _ s' => Takes G s s')
      fun _ s' => Breaks G s s' := by
  apply (ensures_taskFinished (G := G) hs env attempt outputStats).mono
  . rintro _ s' ⟨htrace | hfinished, hcurrent, houtbox⟩
    . exact htrace.takes
    . exact ⟨[], .single (.inr ⟨rfl, hfinished⟩), recorded_nil hcurrent houtbox⟩
  . rintro _ s' (hbroken | hfinished)
    . exact hbroken.breaks
    . exact ⟨[], s', .single (.inr ⟨rfl, hfinished⟩), .refl s'⟩

theorem Takes.trans {s'' : FteFragmentExecution} (h : Takes G s s') (h' : Takes G s' s'') :
    Takes G s s'' := by
  obtain ⟨commands, hpath, hrecorded⟩ := h
  obtain ⟨commands', hpath', hrecorded'⟩ := h'
  exact ⟨_, hpath.trans hpath', hrecorded.trans hrecorded'⟩

theorem Takes.breaks {s'' : FteFragmentExecution} (h : Takes G s s') (h' : Breaks G s' s'') :
    Breaks G s s'' := by
  obtain ⟨commands, hpath, -⟩ := h
  obtain ⟨commands', s₁, hpath', hstray⟩ := h'
  exact ⟨_, s₁, hpath.trans hpath', hstray⟩

theorem ensures_handleTaskStatus (hs : s.Sound) (hstable : Stable G) (env : Environment)
    (status : AttemptStatus) (retryable scheduleRetry : Bool)
    (hG : status.reportsFailure → AdmitsFailure G status.attemptId s) :
    (handleTaskStatus env status retryable scheduleRetry).Ensures s (fun _ s' => Takes G s s')
      fun _ s' => Breaks G s s' := by
  have hrest : ∀ s, s.Sound → (status.reportsFailure → AdmitsFailure G status.attemptId s) →
      (do
        let self ← Py.get
        let fails ← Py.lift (self.statusFails status)
        if fails then
          if status.state = some .finished then
            taskFailed env status.attemptId (missingOutputStatsFailure status.attemptId) retryable
              scheduleRetry
          else
            taskFailed env status.attemptId status.failure
              (retryable && status.state = some .failed) scheduleRetry
        else if status.state = some .finished then
          let _ ← taskFinished env status.attemptId status.statsOfOutput
          return none
        else
          return none : Py FteFragmentExecution (Option ScheduledAttempt)).Ensures s
        (fun _ s' => Takes G s s') fun _ s' => Breaks G s s' := by
    intro s hs hG
    rw [ensures_get_bind, ensures_lift_bind]
    refine ⟨fun fails hfails => ?_, fun _ _ => (Broken.refl s).breaks⟩
    rw [ensures_ite]
    refine ⟨?_, ?_⟩
    . rintro rfl
      have hfailed : ∀ error retryable, (taskFailed env status.attemptId error retryable
          scheduleRetry).Ensures s (fun _ s' => Takes G s s') fun _ s' => Breaks G s s' := by
        intro error retryable
        refine mono (traces_taskFailed (G := G) hs env status.attemptId error retryable
          scheduleRetry (hG (reportsFailure_of_statusFails hfails))) ?_ ?_
        . exact fun _ _ h => h.1.takes
        . exact fun _ _ h => h.breaks
      rw [ensures_ite]
      exact ⟨fun _ => hfailed _ _, fun _ => hfailed _ _⟩
    . intro _
      rw [ensures_ite]
      refine ⟨fun _ => ?_, fun _ => (Trace.refl s).takes⟩
      exact (ensures_taskFinished_takes hs env status.attemptId status.statsOfOutput).bind
        (fun _ _ h => h) fun _ _ h => h
  unfold handleTaskStatus
  rw [ensures_get_bind, ensures_ite]
  refine ⟨fun hupdates => ?_, fun _ => hrest s hs hG⟩
  rw [ensures_bind]
  have htouched : Traces G s (onPartition status.attemptId.taskId.partitionId
      (FteTaskPartition.updateRunningTaskStats status.attemptId status.runningStats))
      fun _ _ => True := by
    apply traces_onPartition
    intro p
    unfold FteTaskPartition.updateRunningTaskStats FteTaskPartition.validateAttemptTask
    rw [ensures_get_bind, ensures_raiseIf_bind]
    refine ⟨fun _ => Touched.refl p, fun _ => ?_⟩
    rw [ensures_ite]
    exact ⟨fun _ => ⟨⟨rfl, rfl, rfl, rfl, rfl, rfl, rfl, rfl⟩, rfl, rfl, rfl, rfl⟩,
      fun _ => Touched.refl p⟩
  refine mono htouched ?_ fun _ _ h => h.breaks
  rintro _ s₁ ⟨htrace, -⟩
  apply (hrest s₁ (htrace.sound hs) _).mono
  . exact fun _ _ h => htrace.takes.trans h
  . exact fun _ _ h => htrace.takes.breaks h
  . intro hreports p₁ hp₁
    obtain ⟨p, hp⟩ := Option.isSome_iff_exists.mp hupdates.2.2
    obtain ⟨q, hq, hguard⟩ := htrace.guarded hstable ⟨p, hp, hG hreports p hp⟩
    cases hp₁.symm.trans hq
    exact hguard

inductive Call where
  | applyAssignmentResult (env : Environment) (result : AssignmentResult)
  | applyTaskUpdate (partitionId : ℕ) (update : FteTaskUpdateRequest)
  | sealPartition (env : Environment) (partitionId : ℕ)
  | handleTaskStatus (env : Environment) (status : AttemptStatus) (retryable scheduleRetry : Bool)
  | taskFailed (env : Environment) (attempt : FteTaskAttemptId) (error : Failure)
      (retryable scheduleRetry : Bool)
  | taskFinished (env : Environment) (attempt : FteTaskAttemptId) (outputStats : Option Stats)
  | revokeSpeculativeAttempts (env : Environment) (workerId : Option String) (maxCount : Option ℕ)
      (reason : Failure)
  | markWorkerFailed (env : Environment) (workerId : String) (error : Failure)
      (retryable : ℕ → Bool) (scheduleRetries : Bool)
  | startAttemptWithWorker (env : Environment) (partitionId : ℕ)
  | scheduleNextPendingPartition (env : Environment)
      (executionClass : Option FteTaskExecutionClass)
  | releaseDeferredExecutionPartitions (env : Environment)
      (executionClass : Option FteTaskExecutionClass)
  | setExecutionClass (new : FteTaskExecutionClass)
  | popWorkerCommands

namespace Call

def silent {α : Type} (m : Py FteFragmentExecution α) :
    Py FteFragmentExecution (List WorkerCommand) := do
  let _ ← m
  return []

/-- The call, with the commands that it returns; those in the outbox count when they are put there. -/
def exec : Call → Py FteFragmentExecution (List WorkerCommand)
  | applyAssignmentResult env result => FteFragmentExecution.applyAssignmentResult env result
  | applyTaskUpdate partitionId update => FteFragmentExecution.applyTaskUpdate partitionId update
  | sealPartition env partitionId => silent (FteFragmentExecution.sealPartition env partitionId)
  | handleTaskStatus env status retryable scheduleRetry =>
    silent (FteFragmentExecution.handleTaskStatus env status retryable scheduleRetry)
  | taskFailed env attempt error retryable scheduleRetry =>
    silent (FteFragmentExecution.taskFailed env attempt error retryable scheduleRetry)
  | taskFinished env attempt outputStats =>
    silent (FteFragmentExecution.taskFinished env attempt outputStats)
  | revokeSpeculativeAttempts env workerId maxCount reason =>
    silent (FteFragmentExecution.revokeSpeculativeAttempts env workerId maxCount reason)
  | markWorkerFailed env workerId error retryable scheduleRetries =>
    silent (FteFragmentExecution.markWorkerFailed env workerId error retryable scheduleRetries)
  | startAttemptWithWorker env partitionId =>
    silent (FteFragmentExecution.startAttemptWithWorker env partitionId)
  | scheduleNextPendingPartition env executionClass =>
    silent (FteFragmentExecution.scheduleNextPendingPartition env executionClass)
  | releaseDeferredExecutionPartitions env executionClass =>
    silent (FteFragmentExecution.releaseDeferredExecutionPartitions env executionClass)
  | setExecutionClass new => silent (FteFragmentExecution.setExecutionClass new)
  | popWorkerCommands => silent FteFragmentExecution.popWorkerCommands

def step (call : Call) (s : FteFragmentExecution) : FteFragmentExecution := (call.exec s).2

def Admitted (G : FteTaskPartition → FteTaskAttemptId → Prop) : Call → FteFragmentExecution → Prop
  | handleTaskStatus _ status _ _, s => status.reportsFailure → AdmitsFailure G status.attemptId s
  | taskFailed _ attempt _ _ _, s => AdmitsFailure G attempt s
  | _, _ => True

def Issues (G : FteTaskPartition → FteTaskAttemptId → Prop) (s : FteFragmentExecution)
    (returned : List WorkerCommand) (s' : FteFragmentExecution) : Prop :=
  ∃ commands, LogPath (Turn G) s commands s' ∧ (s.currentWorkerCommands = none →
    s'.currentWorkerCommands = none ∧
    returned ++ s'.workerCommandOutbox.drop s.workerCommandOutbox.length = commands)

theorem ensures_silent {m : Py FteFragmentExecution α}
    (h : m.Ensures s (fun _ s' => Takes G s s') fun _ s' => Breaks G s s') :
    (silent m).Ensures s (Issues G s) fun _ s' => Breaks G s s' := by
  unfold silent
  rw [ensures_bind]
  refine h.mono ?_ fun _ _ h => h
  rintro _ s' ⟨commands, hpath, hcurrent, houtbox⟩
  refine ⟨commands, hpath, fun hnone => ?_⟩
  rw [hcurrent, houtbox, hnone]
  simp

theorem ensures_silent_of_traces {m : Py FteFragmentExecution α}
    (h : Traces G s m fun _ _ => True) :
    (silent m).Ensures s (Issues G s) fun _ s' => Breaks G s s' :=
  ensures_silent (mono h (fun _ _ h => h.1.takes) fun _ _ h => h.breaks)

theorem ensures_collected {m : Py FteFragmentExecution (List WorkerCommand)}
    (h : m.Ensures s (Collected G s) fun _ s' => Broken G s s') :
    m.Ensures s (Issues G s) fun _ s' => Breaks G s s' := by
  refine h.mono ?_ fun _ _ h => h.breaks
  rintro commands s' ⟨hpath, hcurrent, houtbox⟩
  refine ⟨commands, hpath.mono fun _ _ _ => .inl, fun hnone => ?_⟩
  rw [hcurrent, houtbox, hnone]
  simp

theorem ensures_exec (hs : s.Sound) (hstable : Stable G) (hrunning : GuardsRunning G s) (call : Call)
    (hG : call.Admitted G s) : call.exec.Ensures s (Issues G s) fun _ s' => Breaks G s s' := by
  cases call with
  | applyAssignmentResult env result =>
    exact ensures_collected (ensures_applyAssignmentResult hs env result)
  | applyTaskUpdate id update => exact ensures_collected (ensures_applyTaskUpdate hs id update)
  | sealPartition env id => exact ensures_silent_of_traces (traces_sealPartition hs env id)
  | handleTaskStatus env status retryable scheduleRetry =>
    exact ensures_silent (ensures_handleTaskStatus hs hstable env status retryable scheduleRetry hG)
  | taskFailed env attempt error retryable scheduleRetry =>
    exact ensures_silent_of_traces
      (traces_taskFailed hs env attempt error retryable scheduleRetry hG)
  | taskFinished env attempt outputStats =>
    exact ensures_silent (ensures_taskFinished_takes hs env attempt outputStats)
  | revokeSpeculativeAttempts env workerId maxCount reason =>
    exact ensures_silent_of_traces
      (traces_revokeSpeculativeAttempts hs hstable hrunning env workerId maxCount reason)
  | markWorkerFailed env workerId error retryable scheduleRetries =>
    exact ensures_silent_of_traces
      (traces_markWorkerFailed hs hstable hrunning env workerId error retryable scheduleRetries)
  | startAttemptWithWorker env id =>
    exact ensures_silent_of_traces (traces_startAttemptWithWorker hs env id)
  | scheduleNextPendingPartition env executionClass =>
    exact ensures_silent_of_traces (traces_get (traces_scheduleFirst hs env executionClass _))
  | releaseDeferredExecutionPartitions env executionClass =>
    refine ensures_silent_of_traces (traces_get (traces_forEach (fun _ => True) ?_ hs trivial))
    exact fun id _ s hs _ => traces_releaseDeferred hs env executionClass id
  | setExecutionClass new => exact ensures_silent_of_traces (traces_setExecutionClass hs new)
  | popWorkerCommands =>
    have hmove : Move G s [] { s with workerCommandOutbox := [] } :=
      .quiet ⟨rfl, rfl, rfl⟩ (.of_eq rfl)
    exact ⟨[], .single (.inl hmove), fun hnone => ⟨hnone, List.drop_nil⟩⟩

end Call

end FteFragmentExecution

end Vane
