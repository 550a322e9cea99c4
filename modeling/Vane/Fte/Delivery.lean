import Vane.Fte.FragmentTraces

/-!
This module contains the verification that the attempt that runs is sent the splits of its
descriptor.
-/

namespace Vane

open List (append_nil mem_append mem_singleton)

namespace FteFragmentExecution

open FteTaskPartition (SameAttempts Carries Loses)

variable {log commands : List WorkerCommand} {attempt : FteTaskAttemptId} {source : String}
  {s s' : FteFragmentExecution} {p p' : FteTaskPartition}

def commandsTo (log : List WorkerCommand) (attempt : FteTaskAttemptId) (creates : Bool) :
    List WorkerCommand :=
  log.filter fun command => command.attemptId = attempt ∧ command.creates = creates

/--
The splits of a source that an attempt was sent: those of its create request and then those of the
other commands, without the splits whose sequence number was sent before.
-/
def received (log : List WorkerCommand) (attempt : FteTaskAttemptId) (source : String) :
    List FteSplit :=
  List.appendNew FteSplit.sequenceId []
    ((commandsTo log attempt true ++ commandsTo log attempt false).flatMap (·.splits source))

def Told (log : List WorkerCommand) (attempt : FteTaskAttemptId) (source : String) : Prop :=
  ∃ command ∈ log, command.attemptId = attempt ∧ source ∈ command.complete

def Exact (log : List WorkerCommand) (s : FteFragmentExecution) : Prop :=
  ∀ id p a running, s.partitions.find? id = some p → p.runningAttempts.find? a = some running →
    ∀ source, received log running.attemptId source = p.descriptor.splitsOf source ∧
      (Told log running.attemptId source ↔ source ∈ p.descriptor.noMoreSplits)

theorem commandsTo_append (creates : Bool) :
    commandsTo (log ++ commands) attempt creates =
      commandsTo log attempt creates ++ commandsTo commands attempt creates :=
  List.filter_append ..

theorem commandsTo_eq_nil {creates : Bool} (h : ∀ command ∈ log, command.attemptId ≠ attempt) :
    commandsTo log attempt creates = [] := by
  unfold commandsTo
  rw [List.filter_eq_nil_iff]
  intro command hcommand
  simp [h command hcommand]

theorem received_append_of_ne (h : ∀ command ∈ commands, command.attemptId ≠ attempt) :
    received (log ++ commands) attempt source = received log attempt source := by
  unfold received
  simp only [commandsTo_append, commandsTo_eq_nil h, append_nil]

theorem told_append_of_ne (h : ∀ command ∈ commands, command.attemptId ≠ attempt) :
    Told (log ++ commands) attempt source ↔ Told log attempt source := by
  constructor
  . rintro ⟨command, hcommand, hattempt, hsource⟩
    rcases mem_append.mp hcommand with hcommand | hcommand
    . exact ⟨command, hcommand, hattempt, hsource⟩
    . exact absurd hattempt (h command hcommand)
  . rintro ⟨command, hcommand, hrest⟩
    exact ⟨command, List.mem_append_left _ hcommand, hrest⟩

theorem received_append_updates
    (h : ∀ command ∈ commands, command.creates = false ∧ command.attemptId = attempt) :
    received (log ++ commands) attempt source =
      (received log attempt source).appendNew FteSplit.sequenceId
        (commands.flatMap (·.splits source)) := by
  have hcreates : commandsTo commands attempt true = [] := by
    unfold commandsTo
    rw [List.filter_eq_nil_iff]
    intro command hcommand
    simp [(h command hcommand).1]
  have hupdates : commandsTo commands attempt false = commands := by
    unfold commandsTo
    rw [List.filter_eq_self]
    intro command hcommand
    simp [h command hcommand]
  unfold received
  rw [commandsTo_append, commandsTo_append, hcreates, hupdates, append_nil, ← List.append_assoc,
    List.flatMap_append, List.appendNew_append]

theorem received_started {command : WorkerCommand} (hcreates : command.creates)
    (hattempt : command.attemptId = attempt) (hnone : ∀ command ∈ log, command.attemptId ≠ attempt)
    (hnodup : ((command.splits source).map FteSplit.sequenceId).Nodup) :
    received (log ++ [command]) attempt source = command.splits source := by
  unfold received
  rw [commandsTo_append, commandsTo_append, commandsTo_eq_nil hnone, commandsTo_eq_nil hnone]
  simp only [commandsTo, List.nil_append, hattempt, hcreates, List.filter_cons, List.filter_nil]
  simp only [and_self, decide_true, if_true, Bool.true_eq_false, and_false, decide_false,
    Bool.false_eq_true, if_false, append_nil, List.flatMap_singleton]
  exact List.appendNew_self hnodup

/-! The invariant. -/

structure Kept (log : List WorkerCommand) (p : FteTaskPartition) : Prop where
  tidy : p.descriptor.Tidy
  reached : ∀ command ∈ log, command.attemptId.taskId = p.taskId →
    command.attemptId.attemptId ≤ p.maxAttempts - p.remainingAttempts
  passed : ¬(p.finished ∨ p.failed) → p.runningAttempts = ∅ → ∀ command ∈ log,
    command.attemptId.taskId = p.taskId →
    command.attemptId.attemptId < p.maxAttempts - p.remainingAttempts
  received : ∀ a running, p.runningAttempts.find? a = some running → ∀ source,
    received log running.attemptId source = p.descriptor.splitsOf source
  told : ∀ a running, p.runningAttempts.find? a = some running → ∀ source,
    Told log running.attemptId source ↔ source ∈ p.descriptor.noMoreSplits

structure Delivered (log : List WorkerCommand) (s : FteFragmentExecution) : Prop where
  sound : s.Sound
  known : ∀ command ∈ log, ∃ p,
    s.partitions.find? command.attemptId.taskId.partitionId = some p
  kept : ∀ id p, s.partitions.find? id = some p → Kept log p

theorem Kept.append_of_ne (h : Kept log p) (horderly : p.Orderly)
    (hne : ∀ command ∈ commands, command.attemptId.taskId ≠ p.taskId) :
    Kept (log ++ commands) p := by
  have hattempt : ∀ a running, p.runningAttempts.find? a = some running →
      ∀ command ∈ commands, command.attemptId ≠ running.attemptId := by
    intro a running ha command hcommand heq
    apply hne command hcommand
    rw [heq, (horderly.running a running ha).2.1]
  refine ⟨h.tidy, ?_, ?_, ?_, ?_⟩
  . intro command hcommand htask
    rcases mem_append.mp hcommand with hcommand | hcommand
    . exact h.reached command hcommand htask
    . exact absurd htask (hne command hcommand)
  . intro hopen hidle command hcommand htask
    rcases mem_append.mp hcommand with hcommand | hcommand
    . exact h.passed hopen hidle command hcommand htask
    . exact absurd htask (hne command hcommand)
  . intro a running ha source
    rw [received_append_of_ne (hattempt a running ha)]
    exact h.received a running ha source
  . intro a running ha source
    rw [told_append_of_ne (hattempt a running ha)]
    exact h.told a running ha source

theorem Kept.idle (h : Kept log p) (htidy : p'.descriptor.Tidy) (htaskId : p'.taskId = p.taskId)
    (hidle : ∀ a, p'.runningAttempts.find? a = none)
    (hle : p.maxAttempts - p.remainingAttempts ≤ p'.maxAttempts - p'.remainingAttempts)
    (hpassed : ¬(p'.finished ∨ p'.failed) → ∀ command ∈ log, command.attemptId.taskId = p.taskId →
      command.attemptId.attemptId < p'.maxAttempts - p'.remainingAttempts) : Kept log p' := by
  refine ⟨htidy, ?_, ?_, ?_, ?_⟩
  . intro command hcommand htask
    exact (h.reached command hcommand (htask.trans htaskId)).trans hle
  . intro hopen _ command hcommand htask
    exact hpassed hopen command hcommand (htask.trans htaskId)
  . intro a running ha
    rw [hidle a] at ha
    cases ha
  . intro a running ha
    rw [hidle a] at ha
    cases ha

theorem Kept.updated (h : Kept log p) (horderly : p.Orderly) (same : SameAttempts p p')
    (carries : Carries commands p p') : Kept (log ++ commands) p' := by
  have haddressed : ∀ command ∈ commands, ∀ a running,
      p.runningAttempts.find? a = some running → command.creates = false ∧
        command.attemptId = running.attemptId := by
    intro command hcommand a running ha
    obtain ⟨hcreates, b, r, hb, hid⟩ := carries.addressed command hcommand
    refine ⟨hcreates, ?_⟩
    rw [hid, (horderly.running b r hb).2.1, (horderly.running a running ha).2.1,
      (horderly.running b r hb).1, (horderly.running a running ha).1]
  have hnumber : ∀ command ∈ commands, ¬p.runningAttempts = ∅ ∧
      command.attemptId.attemptId = p.maxAttempts - p.remainingAttempts := by
    intro command hcommand
    obtain ⟨-, b, r, hb, hid⟩ := carries.addressed command hcommand
    refine ⟨?_, ?_⟩
    . intro hidle
      rw [hidle] at hb
      cases hb
    . rw [hid, (horderly.running b r hb).2.1]
      exact (horderly.running b r hb).1
  refine ⟨carries.tidy h.tidy, ?_, ?_, ?_, ?_⟩
  . rw [same.taskId, same.maxAttempts, same.remainingAttempts]
    intro command hcommand htask
    rcases mem_append.mp hcommand with hcommand | hcommand
    . exact h.reached command hcommand htask
    . exact (hnumber command hcommand).2.le
  . rw [same.taskId, same.maxAttempts, same.remainingAttempts, same.finished, same.failed,
      same.runningAttempts]
    intro hopen hidle command hcommand htask
    rcases mem_append.mp hcommand with hcommand | hcommand
    . exact h.passed hopen hidle command hcommand htask
    . exact absurd hidle (hnumber command hcommand).1
  . rw [same.runningAttempts]
    intro a running ha source
    rw [received_append_updates fun command hcommand => haddressed command hcommand a running ha,
      h.received a running ha source]
    exact (carries.splits h.tidy a running ha source).symm
  . rw [same.runningAttempts]
    intro a running ha source
    rw [carries.complete h.tidy a running ha source, ← h.told a running ha source]
    constructor
    . rintro ⟨command, hcommand, hattempt, hsource⟩
      rcases mem_append.mp hcommand with hcommand | hcommand
      . exact .inl ⟨command, hcommand, hattempt, hsource⟩
      . exact .inr ⟨command, hcommand, hsource⟩
    . rintro (⟨command, hcommand, hrest⟩ | ⟨command, hcommand, hsource⟩)
      . exact ⟨command, List.mem_append_left _ hcommand, hrest⟩
      . exact ⟨command, List.mem_append_right _ hcommand, (haddressed command hcommand a running ha).2,
          hsource⟩

theorem Kept.started {running : RunningAttempt} {command : WorkerCommand} (h : Kept log p)
    (this : running.attemptId = ⟨p.taskId, p.maxAttempts - p.remainingAttempts⟩)
    (isOpen : ¬(p.finished ∨ p.failed)) (isIdle : p.runningAttempts = ∅)
    (same : SameAttempts { p with
      runningAttempts := p.runningAttempts.insert (p.maxAttempts - p.remainingAttempts) running } p')
    (descriptor : p'.descriptor = p.descriptor) (creates : command.creates)
    (addressed : command.attemptId = running.attemptId)
    (splits : ∀ source, command.splits source = p.descriptor.splitsOf source)
    (complete : command.complete = p.descriptor.noMoreSplits) : Kept (log ++ [command]) p' := by
  have hpassed := h.passed isOpen isIdle
  have hnone : ∀ command ∈ log, command.attemptId ≠ running.attemptId := by
    intro command hcommand heq
    have hlt := hpassed command hcommand (by rw [heq, this])
    rw [heq, this] at hlt
    exact absurd hlt (lt_irrefl _)
  have hrunning : ∀ a r, p'.runningAttempts.find? a = some r → r = running := by
    intro a r ha
    rw [same.runningAttempts, Dict.find?_insert] at ha
    split at ha
    . cases ha
      rfl
    . rw [isIdle] at ha
      cases ha
  refine ⟨by rw [descriptor]; exact h.tidy, ?_, ?_, ?_, ?_⟩
  . rw [same.taskId, same.maxAttempts, same.remainingAttempts]
    intro c hc htask
    rcases mem_append.mp hc with hc | hc
    . exact h.reached c hc htask
    . rw [mem_singleton.mp hc, addressed, this]
  . intro _ hidle
    have hfound := Dict.find?_insert_self p.runningAttempts
      (p.maxAttempts - p.remainingAttempts) running
    rw [same.runningAttempts] at hidle
    dsimp only at hidle
    rw [hidle] at hfound
    cases hfound
  . intro a r ha source
    rw [hrunning a r ha, descriptor, ← splits source]
    apply received_started creates addressed hnone
    rw [splits source]
    exact h.tidy.nodup source
  . intro a r ha source
    rw [hrunning a r ha, descriptor, ← complete]
    constructor
    . rintro ⟨c, hc, hattempt, hsource⟩
      rcases mem_append.mp hc with hc | hc
      . exact absurd hattempt (hnone c hc)
      . rw [← mem_singleton.mp hc]
        exact hsource
    . intro hsource
      exact ⟨command, by simp, addressed, hsource⟩

theorem Delivered.puts {id : ℕ} (h : Delivered log s) (hsound : s'.Sound) (hputs : Puts id p' s s')
    (htask : ∀ command ∈ commands, command.attemptId.taskId = s.taskIdOf id)
    (hkept : Kept (log ++ commands) p') : Delivered (log ++ commands) s' := by
  refine ⟨hsound, ?_, ?_⟩
  . intro command hcommand
    rw [hputs.find?]
    split
    . exact ⟨p', rfl⟩
    . next hne =>
      rcases mem_append.mp hcommand with hcommand | hcommand
      . exact h.known command hcommand
      . rw [htask command hcommand] at hne
        exact absurd rfl hne
  . intro id' q hq
    rw [hputs.find?] at hq
    split at hq
    . cases hq
      exact hkept
    . next hne =>
      apply (h.kept id' q hq).append_of_ne (h.sound.orderly id' q hq)
      intro command hcommand heq
      rw [htask command hcommand, h.sound.taskId id' q hq] at heq
      exact hne (congrArg FteTaskId.partitionId heq).symm

theorem Delivered.lost {id : ℕ} (h : Delivered log s) (hsound : s'.Sound)
    (found : s.partitions.find? id = some p) (loses : Loses attempt p p') (hputs : Puts id p' s s') :
    Delivered log s' := by
  have hkept := h.kept id p found
  have horderly := h.sound.orderly id p found
  have hall : _ → Delivered (log ++ []) s' := h.puts hsound hputs (by simp)
  rw [append_nil] at hall
  apply hall
  rcases loses with ⟨rfl, -⟩ | ⟨hdescriptor, -, running, error, retries, hfound, hnot, -, hsame⟩
  . exact hkept
  . obtain ⟨-, -, -, hleft⟩ := horderly.running _ running hfound
    have hbudget := horderly.budget
    have hnext : p.maxAttempts - p.remainingAttempts < p'.maxAttempts - p'.remainingAttempts := by
      rw [hsame.maxAttempts, hsame.remainingAttempts]
      dsimp only [FteTaskPartition.loseAttempt]
      omega
    apply hkept.idle
    . rw [hdescriptor]
      exact hkept.tidy
    . exact hsame.taskId
    . intro a
      rw [hsame.runningAttempts]
      dsimp only [FteTaskPartition.loseAttempt]
      rw [horderly.erase_running hfound]
      rfl
    . exact hnext.le
    . intro _ command hcommand htask
      exact (hkept.reached command hcommand htask).trans_lt hnext

theorem Delivered.finished (h : Delivered log s) (hfinished : Finished s s') : Delivered log s' := by
  have hsound := hfinished.sound h.sound
  cases hfinished with
  | finished id a p p' running found runs same handle descriptor puts exchange =>
    have hkept := h.kept id p found
    have hall : _ → Delivered (log ++ []) s' := h.puts hsound puts (by simp)
    rw [append_nil] at hall
    apply hall
    apply hkept.idle
    . rw [descriptor]
      exact hkept.tidy
    . exact same.taskId
    . intro b
      rw [same.runningAttempts]
      rfl
    . rw [same.maxAttempts, same.remainingAttempts]
    . intro hopen
      exact absurd (.inl same.finished) hopen

theorem Delivered.added {id : ℕ} {handle : Option ExchangeSinkHandle}
    {nodeRequirements : Option NodeRequirements} (h : Delivered log s) (hsound : s'.Sound)
    (free : s.partitions.find? id = none)
    (hputs : Puts id (s.newPartition id handle nodeRequirements) s s') : Delivered log s' := by
  have hall : _ → Delivered (log ++ []) s' := h.puts hsound hputs (by simp)
  rw [append_nil] at hall
  apply hall
  have hnone : ∀ command ∈ log, command.attemptId.taskId ≠ s.taskIdOf id := by
    intro command hcommand htask
    obtain ⟨p, hp⟩ := h.known command hcommand
    rw [htask] at hp
    exact absurd (free.symm.trans hp) (by simp)
  refine ⟨⟨fun _ _ => by rfl, fun _ => by simp [newPartition, Dict.findD]⟩, ?_, ?_, ?_, ?_⟩
  . exact fun command hcommand htask => absurd htask (hnone command hcommand)
  . exact fun _ _ command hcommand htask => absurd htask (hnone command hcommand)
  . intro a running ha
    cases ha
  . intro a running ha
    cases ha

theorem Delivered.turn {G : FteTaskPartition → FteTaskAttemptId → Prop} (h : Delivered log s)
    (hturn : Turn G s commands s') : Delivered (log ++ commands) s' := by
  rcases hturn with hmove | ⟨rfl, hfinished⟩
  . have hsound := hmove.sound h.sound
    cases hmove with
    | quiet leaves exchange =>
      rw [append_nil]
      refine ⟨hsound, ?_, ?_⟩
      . rw [leaves.partitions]
        exact h.known
      . rw [leaves.partitions]
        exact h.kept
    | added id handle nodeRequirements free keyed puts exchange =>
      rw [append_nil]
      exact h.added hsound free puts
    | updated id p p' found same handle carries puts exchange =>
      have horderly := h.sound.orderly id p found
      apply h.puts hsound puts
      . intro command hcommand
        obtain ⟨-, a, running, ha, hid⟩ := carries.addressed command hcommand
        rw [hid, (horderly.running a running ha).2.1]
        exact h.sound.taskId id p found
      . exact (h.kept id p found).updated horderly same carries
    | started id p p' running command found this isOpen isIdle left same handle descriptor creates
        addressed splits complete puts exchange =>
      apply h.puts hsound puts
      . intro c hc
        rw [mem_singleton.mp hc, addressed, this]
        exact h.sound.taskId id p found
      . exact (h.kept id p found).started this isOpen isIdle same descriptor creates addressed splits
          complete
    | failed id attempt p p' guarded found loses puts exchange =>
      rw [append_nil]
      exact h.lost hsound found loses puts
  . rw [append_nil]
    exact h.finished hfinished

/-! Runs of calls. -/

structure New (s : FteFragmentExecution) : Prop where
  partitions : s.partitions = ∅
  currentWorkerCommands : s.currentWorkerCommands = none
  workerCommandOutbox : s.workerCommandOutbox = []
  exchange : ∀ t, s.exchange = some t → t = .new t.queryId t.exchangeId

theorem New.sound (h : s.New) : s.Sound := by
  refine ⟨?_, ?_, ?_, ?_⟩
  . intro id p hp
    rw [h.partitions] at hp
    cases hp
  . intro id p hp
    rw [h.partitions] at hp
    cases hp
  . intro id p handle hp
    rw [h.partitions] at hp
    cases hp
  . intro t k handle ht hfound
    rw [h.exchange t ht] at hfound
    cases hfound

namespace Call

def Returns (call : Call) (s : FteFragmentExecution) : Prop := (call.exec s).1.isOk

instance (call : Call) (s : FteFragmentExecution) : Decidable (call.Returns s) :=
  inferInstanceAs (Decidable (_ = true))

def sent (call : Call) (s : FteFragmentExecution) : List WorkerCommand :=
  match call.exec s with
  | (.ok returned, s') => returned ++ s'.workerCommandOutbox.drop s.workerCommandOutbox.length
  | (.error _, s') => s'.workerCommandOutbox.drop s.workerCommandOutbox.length

theorem step_delivered (call : Call) (hreturns : call.Returns s) (h : Delivered log s)
    (hcurrent : s.currentWorkerCommands = none) :
    Delivered (log ++ call.sent s) (call.step s) ∧ (call.step s).currentWorkerCommands = none := by
  have hexec := ensures_exec (G := fun _ _ => True) h.sound (fun _ _ _ _ _ _ _ => trivial)
    (fun _ _ _ _ _ _ => trivial) call (by cases call <;> simp [Admitted, AdmitsFailure])
  unfold Py.Ensures at hexec
  unfold Returns at hreturns
  unfold step sent
  cases hrun : call.exec s with
  | mk result s' =>
    rw [hrun] at hexec hreturns
    cases result with
    | error e => cases hreturns
    | ok returned =>
      obtain ⟨commands, hpath, hissued⟩ := hexec
      obtain ⟨hnone, hcommands⟩ := hissued hcurrent
      dsimp only
      rw [hcommands]
      exact ⟨hpath.invariant Delivered (fun _ _ _ _ h hturn => h.turn hturn) h, hnone⟩

end Call

namespace Sample

def self : FteFragmentExecution where
  queryId := "q"
  fragmentExecutionId := 0
  fragmentId := "f"

def split (sequenceId : ℕ) : FteSplit where
  sourceNodeId := "s"
  sequenceId
  kind := "scan"
  data := none
  sourcePartitionId := 0
  sizeBytes := none
  addresses := []
  remotelyAccessible := true
  catalog := none
  sourceNodeId_nonempty := by decide
  kind_nonempty := by decide

def assigned (partitionId sequenceId : ℕ) : PartitionUpdate where
  partitionId
  sourceNodeId := "s"
  splits := [split sequenceId]
  readyForScheduling := true

def retried : List Call :=
  [.applyAssignmentResult {} { partitionUpdates := [assigned 0 0] },
    .taskFailed {} ⟨⟨"q", 0, 0⟩, 0⟩ ⟨"worker lost", true⟩ true true, .popWorkerCommands,
    .applyAssignmentResult {} { partitionUpdates := [assigned 0 1] }]

def interrupted : List Call :=
  [.applyAssignmentResult {} { partitionUpdates := [assigned 0 0] },
    .applyAssignmentResult
      { ensureFragmentRegistered := fun p =>
          if p.taskId.partitionId = 1 then .error (.runtimeError "worker died") else .ok none }
      { partitionUpdates := [assigned 0 1, assigned 1 2] }]

end Sample

def estimatedBytes (env : Environment) (splits : List FteSplit) : ℕ :=
  (splits.map fun split => max 1 (env.payloadBytes split)).sum

def WithinLimits (env : Environment) (splits : List FteSplit) : Prop :=
  splits.length ≤ env.taskUpdateMaxSplits ∧
    (1 < splits.length → estimatedBytes env splits ≤ env.taskUpdateMaxPayloadBytes)

theorem withinLimits_of_mem_splitUpdateBatches {env : Environment}
    (hmax : 0 < env.taskUpdateMaxSplits) {batch : List FteSplit} (splits current : List FteSplit)
    (hcurrent : WithinLimits env current)
    (hmem : batch ∈ splitUpdateBatches env splits current (estimatedBytes env current)) :
    batch ≠ [] ∧ WithinLimits env batch := by
  have hsingle (split : FteSplit) : WithinLimits env [split] := ⟨hmax, nofun⟩
  induction splits generalizing current with
  | nil =>
    cases current with
    | nil => cases hmem
    | cons first rest =>
      obtain rfl := mem_singleton.1 hmem
      exact ⟨List.cons_ne_nil _ _, hcurrent⟩
  | cons split splits ih =>
    have happend : estimatedBytes env current + max 1 (env.payloadBytes split) =
        estimatedBytes env (current ++ [split]) := by simp [estimatedBytes]
    unfold splitUpdateBatches at hmem
    dsimp only at hmem
    rw [happend] at hmem
    split at hmem
    next hfull =>
      obtain rfl | hmem := List.mem_cons.1 hmem
      . exact ⟨hfull.1, hcurrent⟩
      . exact ih [split] (hsingle split) hmem
    next hroom =>
      obtain rfl | hne := eq_or_ne current []
      . exact ih [split] (hsingle split) hmem
      . obtain ⟨hlt, hle⟩ := not_or.1 (not_and.1 hroom hne)
        refine ih _ ⟨?_, fun _ => not_lt.1 hle⟩ hmem
        rw [List.length_append]
        exact not_le.1 hlt

theorem split_update_batches_bounded_partition (env : Environment)
    (hmax : 0 < env.taskUpdateMaxSplits) (splits : List FteSplit) :
    (splitUpdateBatches env splits [] 0).flatten = splits ∧
      ∀ batch ∈ splitUpdateBatches env splits [] 0, batch ≠ [] ∧ WithinLimits env batch :=
  ⟨flatten_splitUpdateBatches env splits [] 0, fun _ =>
    withinLimits_of_mem_splitUpdateBatches hmax splits [] ⟨hmax.le, nofun⟩⟩

theorem split_update_batches_of_three :
    splitUpdateBatches { taskUpdateMaxSplits := 2 } ([0, 1, 2].map Sample.split) [] 0 =
        [[0, 1].map Sample.split, [Sample.split 2]] ∧
      WithinLimits { taskUpdateMaxSplits := 2 } ([0, 1].map Sample.split) :=
  ⟨by decide, ((split_update_batches_bounded_partition { taskUpdateMaxSplits := 2 } (by decide)
    ([0, 1, 2].map Sample.split)).2 _ (by decide)).2⟩

end FteFragmentExecution

end Vane
