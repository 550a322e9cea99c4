import Vane.Execution.ResultCollector

/-!
This module contains the verification of the back-pressure of the collector: how many block reads it
starts.
-/

namespace Vane

namespace AsyncResultCollector

variable {c : AsyncResultCollector}

def isReading (c : AsyncResultCollector) (r : StreamRecord) : Bool :=
  r.phase = .block &&
    match r.wait with
    | some (.data _) => true
    | some .handled =>
      match c.loop with
      | .handling key sequence (.data _) => key = r.key && sequence = r.sequence
      | _ => false
    | _ => false

def blocksInFlight (c : AsyncResultCollector) (slotId : ℕ) : ℕ :=
  (c.ready slotId).countP ReadyEvent.isData +
    c.records.values.countP fun r => r.key.slotId = slotId && (r.phase ≠ .block || c.isReading r)

end AsyncResultCollector

structure BlockReadStart where
  slotId : ℕ
  blocks : ℕ
  advertised : ℕ
  deriving DecidableEq

namespace AsyncResultCollector

variable {c : AsyncResultCollector}

def refreshReads : List StreamKey → AsyncResultCollector → List BlockReadStart
  | [], _ => []
  | key :: keys, c =>
    (match c.records.find? key with
      | some r =>
        if c.startsBlock (scheduleCompletion r) then
          [⟨r.key.slotId, c.blocksInFlight r.key.slotId, c.advertised r.key.slotId⟩]
        else
          []
      | none => []) ++ refreshReads keys (c.refreshRecord key)

def Alone (c : AsyncResultCollector) : Prop :=
  ∀ r ∈ c.records.values, ∀ r' ∈ c.records.values, r.key.slotId = r'.key.slotId →
    r.phase = .block → r'.phase = .block → r.key = r'.key

instance (c : AsyncResultCollector) : Decidable c.Alone :=
  inferInstanceAs (Decidable (∀ _ ∈ _, ∀ _ ∈ _, _))

end AsyncResultCollector

namespace CollectorEvent

variable (event : CollectorEvent) (c : AsyncResultCollector)

def reads : List BlockReadStart :=
  match event with
  | refresh => if c.shutdown then [] else AsyncResultCollector.refreshReads c.records.keys c
  | _ => []

def ReadsAlone : Prop :=
  match event with
  | refresh => c.Alone
  | _ => True

instance : Decidable (event.ReadsAlone c) :=
  match event with
  | refresh => inferInstanceAs (Decidable c.Alone)
  | track _ _ | drain _ | cancelSlot _ | shutdown | emit _ | finish _ _ | endRead _ _ | recordReady _ _
  | producerReady _ | advanceLoop => inferInstanceAs (Decidable True)

end CollectorEvent

namespace AsyncResultCollector

variable {c c' : AsyncResultCollector}

structure Measured (c : AsyncResultCollector) : Prop where
  keyed : ∀ key r, c.records.find? key = some r → r.key = key
  bounded : ∀ slotId capacity, c.capacityBySlot.find? slotId = some capacity →
    capacity.rows ≤ c.advertised slotId

theorem Measured.of_same (h : c.Measured) (hrecords : c'.records = c.records)
    (hcapacity : c'.capacityBySlot = c.capacityBySlot) (hadvertised : c'.advertised = c.advertised) :
    c'.Measured := by
  refine ⟨hrecords ▸ h.keyed, ?_⟩
  rw [hcapacity, hadvertised]
  exact h.bounded

theorem Measured.setRecord (h : c.Measured) (r : StreamRecord) : (c.setRecord r).Measured := by
  refine ⟨?_, h.bounded⟩
  intro key r' hr'
  have hr' : (c.records.insert r.key r).find? key = some r' := hr'
  rw [Dict.find?_insert] at hr'
  split at hr'
  . next hkey =>
    cases hr'
    exact hkey.symm
  . exact h.keyed key r' hr'

theorem find?_of_find?_erase {key key' : StreamKey} {r : StreamRecord}
    (h : (c.records.erase key).find? key' = some r) : c.records.find? key' = some r := by
  rw [Dict.find?_erase] at h
  split at h
  . cases h
  . exact h

section

variable (h : c.Measured)

include h

theorem Measured.retire (key : StreamKey) (body : EventBody) : (c.retire key body).Measured :=
  ⟨fun key' r hr => h.keyed key' r (find?_of_find?_erase hr), h.bounded⟩

theorem Measured.drainSlot (slotId : ℕ) (capacity : DrainCapacity) :
    (c.drainSlot slotId capacity).Measured := by
  refine ⟨h.keyed, ?_⟩
  intro other left hleft
  have hleft : (c.capacityBySlot.insert slotId _).find? other = some left := hleft
  show left.rows ≤ Function.update c.advertised slotId capacity.rows other
  rw [Dict.find?_insert] at hleft
  split at hleft
  . next hslot =>
    cases hleft
    rw [hslot, Function.update_self]
    exact Nat.sub_le _ _
  . next hslot =>
    rw [Function.update_of_ne hslot]
    exact h.bounded other left hleft

theorem Measured.drainResults (capacities : List (ℕ × DrainCapacity)) :
    (c.drainResults capacities).Measured := by
  unfold AsyncResultCollector.drainResults
  split
  . exact h
  . clear * - h
    induction capacities generalizing c with
    | nil => exact h
    | cons first rest ih => exact ih (h.drainSlot first.1 first.2)

theorem Measured.cancelSlot (slotId : ℕ) : (c.cancelSlot slotId).Measured := by
  refine ⟨?_, ?_⟩
  . intro key r hr
    have hall : ∀ (keys : List StreamKey) (d : Dict StreamKey StreamRecord),
        (keys.foldl Dict.erase d).find? key = some r → d.find? key = some r := by
      intro keys
      induction keys with
      | nil => exact fun _ h => h
      | cons first rest ih =>
        intro d hd
        have hd := ih _ hd
        rw [Dict.find?_erase] at hd
        split at hd
        . cases hd
        . exact hd
    exact h.keyed key r (hall _ _ hr)
  . intro other left hleft
    have hleft : (c.capacityBySlot.erase slotId).find? other = some left := hleft
    rw [Dict.find?_erase] at hleft
    split at hleft
    . cases hleft
    . exact h.bounded other left hleft

theorem Measured.refreshRecord (key : StreamKey) : (c.refreshRecord key).Measured := by
  unfold AsyncResultCollector.refreshRecord
  split
  . exact h
  . exact h.setRecord _

theorem Measured.advanceLoop : c.advanceLoop.Measured := by
  have hloop : ∀ {c : AsyncResultCollector}, c.Measured → ∀ loop, { c with loop := loop }.Measured :=
    fun h loop => h.of_same rfl rfl rfl
  unfold AsyncResultCollector.advanceLoop
  split
  . exact h
  . split
    . exact hloop h _
    . simp only
      split
      . exact hloop (h.setRecord _) _
      . exact hloop (h.setRecord _) _
      . exact hloop h _
      . exact hloop h _
  . split
    . exact hloop h _
    . next r _ =>
      have hpush : ∀ event, (c.pushReady event).Measured := fun event => h.of_same rfl rfl rfl
      exact hloop ((hpush _).setRecord r.pushed) _
  . split
    . exact hloop h _
    . exact hloop (h.retire _ _) _
  . split
    . exact hloop h _
    . have hdrop : ∀ readyBySlot, { c with readyBySlot := readyBySlot }.Measured :=
        fun _ => h.of_same rfl rfl rfl
      exact hloop ((hdrop _).retire _ _) _
  . split
    . exact hloop h _
    . exact hloop (h.setRecord _) _

theorem Measured.step (streams : StreamKey → List StreamMetadata)
    (event : CollectorEvent) : (event.step streams c).Measured := by
  have hloop : ∀ {c : AsyncResultCollector}, c.Measured → ∀ loop, { c with loop := loop }.Measured :=
    fun h loop => h.of_same rfl rfl rfl
  cases event with
  | track key taskLease =>
    unfold CollectorEvent.step trackGeneratorRef
    simp only
    split
    . exact h
    . split
      . exact h
      . split
        . exact h
        . exact (h.setRecord _).of_same rfl rfl rfl
  | drain capacities => exact h.drainResults capacities
  | cancelSlot slotId => exact h.cancelSlot slotId
  | shutdown =>
    refine ⟨?_, ?_⟩
    . intro key r hr
      cases (Dict.find?_empty key).symm.trans hr
    . intro slotId capacity hcapacity
      cases (Dict.find?_empty slotId).symm.trans hcapacity
  | refresh =>
    have hall : ∀ (keys : List StreamKey) (c : AsyncResultCollector), c.Measured →
        (keys.foldl AsyncResultCollector.refreshRecord c).Measured := by
      intro keys
      induction keys with
      | nil => exact fun _ h => h
      | cons first rest ih => exact fun c h => ih _ (h.refreshRecord first)
    unfold CollectorEvent.step refreshWaiters
    simp only
    split
    . exact h
    . exact hall _ c h
  | emit key | finish key error =>
    unfold CollectorEvent.step modifySource
    simp only
    split
    . exact h
    . exact h.setRecord _
  | endRead key error =>
    unfold CollectorEvent.step AsyncResultCollector.endRead
    simp only
    repeat' split
    all_goals first
      | exact h
      | exact h.setRecord _
  | recordReady key input =>
    unfold CollectorEvent.step beginRecordWait
    simp only
    repeat' split
    all_goals first
      | exact h
      | exact hloop (h.setRecord _) _
  | producerReady key =>
    unfold CollectorEvent.step beginProducerWait
    simp only
    repeat' split
    all_goals first
      | exact h
      | exact hloop (h.setRecord _) _
  | advanceLoop => exact h.advanceLoop

end

theorem scheduleCompletion_same (r : StreamRecord) :
    (scheduleCompletion r).key = r.key ∧ (scheduleCompletion r).phase = r.phase ∧
      (scheduleCompletion r).wait = r.wait := by
  unfold scheduleCompletion
  split <;> exact ⟨rfl, rfl, rfl⟩

theorem scheduleRecord_same (c : AsyncResultCollector) (r : StreamRecord) :
    (c.scheduleRecord r).key = r.key ∧ (c.scheduleRecord r).phase = r.phase := by
  unfold scheduleRecord
  repeat' split
  all_goals exact ⟨rfl, rfl⟩

theorem Alone.refreshRecord (h : c.Alone) (key : StreamKey) : (c.refreshRecord key).Alone := by
  have hbefore : ∀ r' ∈ (c.refreshRecord key).records.values,
      ∃ r ∈ c.records.values, r.key = r'.key ∧ r.phase = r'.phase := by
    intro r' hr'
    unfold AsyncResultCollector.refreshRecord at hr'
    split at hr'
    . exact ⟨r', hr', rfl, rfl⟩
    . next r hr =>
      obtain ⟨key', hkey'⟩ := Dict.mem_values_iff.mp hr'
      have hkey' : (c.records.insert _ _).find? key' = some r' := hkey'
      rw [Dict.find?_insert] at hkey'
      split at hkey'
      . cases hkey'
        refine ⟨r, Dict.mem_values_of_find? hr, ?_, ?_⟩
        . rw [(scheduleRecord_same c _).1, (scheduleCompletion_same r).1]
        . rw [(scheduleRecord_same c _).2, (scheduleCompletion_same r).2.1]
      . exact ⟨r', Dict.mem_values_of_find? hkey', rfl, rfl⟩
  intro r₁ hr₁ r₂ hr₂ hslot hblock₁ hblock₂
  obtain ⟨r₁', hr₁', hkey₁, hphase₁⟩ := hbefore r₁ hr₁
  obtain ⟨r₂', hr₂', hkey₂, hphase₂⟩ := hbefore r₂ hr₂
  rw [← hkey₁, ← hkey₂] at hslot ⊢
  exact h r₁' hr₁' r₂' hr₂' hslot (hphase₁.trans hblock₁) (hphase₂.trans hblock₂)

theorem blocksInFlight_lt (hmeasured : c.Measured) (halone : c.Alone) {key : StreamKey} {r : StreamRecord}
    (hr : c.records.find? key = some r) (hstarts : c.startsBlock (scheduleCompletion r)) :
    c.blocksInFlight r.key.slotId < c.advertised r.key.slotId := by
  simp only [startsBlock, Bool.and_eq_true, (scheduleCompletion_same r).1, (scheduleCompletion_same r).2.1,
    (scheduleCompletion_same r).2.2, decide_eq_true_eq] at hstarts
  obtain ⟨⟨⟨⟨⟨hwait, -⟩, -⟩, -⟩, hphase⟩, hmay⟩ := hstarts
  have hlt : ∃ capacity, c.capacityBySlot.find? r.key.slotId = some capacity ∧
      c.pendingDataCount r.key.slotId < capacity.rows := by
    unfold mayReadBlock at hmay
    split at hmay
    . cases hmay
    . next capacity hcapacity =>
      rw [Bool.and_eq_true, decide_eq_true_eq] at hmay
      exact ⟨capacity, hcapacity, hmay.2⟩
  obtain ⟨capacity, hcapacity, hlt⟩ := hlt
  have hcount : c.blocksInFlight r.key.slotId = c.pendingDataCount r.key.slotId := by
    unfold blocksInFlight pendingDataCount
    congr 1
    apply List.countP_congr
    intro r' hr'
    by_cases hslot : r'.key.slotId = r.key.slotId
    . by_cases hblock : r'.phase = .block
      . -- the only record between two blocks is the one that starts to read
        have hkey := halone r' hr' r (Dict.mem_values_of_find? hr) hslot hblock hphase
        obtain ⟨key', hkey'⟩ := Dict.mem_values_iff.mp hr'
        have hsame : key' = key := by
          rw [← hmeasured.keyed key' r' hkey', ← hmeasured.keyed key r hr, hkey]
        rw [hsame, hr] at hkey'
        cases hkey'
        have hidle : c.isReading r = false := by
          unfold isReading
          rw [Option.isNone_iff_eq_none.mp hwait, Bool.and_false]
        simp [hblock, hidle]
      . simp [hblock]
    . simp [hslot]
  rw [hcount]
  exact lt_of_lt_of_le hlt (hmeasured.bounded _ capacity hcapacity)

theorem refreshReads_lt (hmeasured : c.Measured) (halone : c.Alone) (keys : List StreamKey) :
    ∀ read ∈ refreshReads keys c, read.blocks < read.advertised := by
  induction keys generalizing c with
  | nil => exact nofun
  | cons key keys ih =>
    intro read hread
    rcases List.mem_append.mp hread with hnow | hlater
    . split at hnow
      . next r hr =>
        split at hnow
        . next hstarts =>
          rw [List.mem_singleton.mp hnow]
          exact blocksInFlight_lt hmeasured halone hr hstarts
        . cases hnow
      . cases hnow
    . exact ih (hmeasured.refreshRecord key) (halone.refreshRecord key) read hlater

def twoStreams : List CollectorEvent :=
  [.track ⟨0, 0⟩ ⟨"q", "s", "task", "a"⟩, .track ⟨0, 1⟩ ⟨"q", "s", "task", "b"⟩,
    .drain [(0, { rows := 1 })], .refresh]

end AsyncResultCollector

end Vane
