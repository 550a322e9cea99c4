import Vane.Execution.ResultCollector

/-! This module contains the verification that a stream is told in order, with one last event. -/

namespace Vane

open Except (ok_of_bind)
open List (append_assoc append_nil filter_append filter_nil mem_append_left mem_filter)
open CollectorEvent (trackedKey?)

def IsPairEvent (key : StreamKey) (pairs : List StreamMetadata) (i : ℕ) (event : ReadyEvent) : Prop :=
  ∃ metadata requestId leaseId, pairs[i]? = some (.block metadata) ∧
    event = ⟨key, .data ⟨2 * i, metadata, requestId, leaseId⟩⟩

def PairEvents (key : StreamKey) (pairs : List StreamMetadata) (events : List ReadyEvent) : Prop :=
  ∀ i event, events[i]? = some event → IsPairEvent key pairs i event

def ToldInOrder (key : StreamKey) (pairs : List StreamMetadata) (events : List ReadyEvent) : Prop :=
  ∃ datas tail, events = datas ++ tail ∧ PairEvents key pairs datas ∧
    (tail = [] ∨ (∃ error, tail = [⟨key, .error error⟩]) ∨
      tail = [⟨key, .complete⟩] ∧ datas.length = pairs.length)

section

variable {key : StreamKey} {pairs : List StreamMetadata} {events : List ReadyEvent}

theorem PairEvents.told (h : PairEvents key pairs events) : ToldInOrder key pairs events :=
  ⟨events, [], (append_nil _).symm, h, .inl rfl⟩

theorem PairEvents.length_le (h : PairEvents key pairs events) : events.length ≤ pairs.length := by
  by_contra hlt
  obtain ⟨metadata, -, -, hget, -⟩ := h pairs.length _ (List.getElem?_eq_getElem (not_le.mp hlt))
  rw [List.getElem?_eq_none le_rfl] at hget
  cases hget

theorem PairEvents.of_append {events' : List ReadyEvent} (h : PairEvents key pairs (events ++ events')) :
    PairEvents key pairs events := by
  intro i event hi
  exact h i event (List.getElem?_append_left (List.getElem?_eq_some_iff.mp hi).1 ▸ hi)

theorem PairEvents.append (h : PairEvents key pairs events) {event : ReadyEvent}
    (hevent : IsPairEvent key pairs events.length event) : PairEvents key pairs (events ++ [event]) := by
  intro i other hi
  rw [List.getElem?_append] at hi
  split at hi
  . exact h i other hi
  . next hge =>
    rw [List.getElem?_singleton] at hi
    split at hi
    . next hzero =>
      cases hi
      have hlength : i = events.length := by omega
      rw [hlength]
      exact hevent
    . cases hi

theorem PairEvents.isData (h : PairEvents key pairs events) : ∀ event ∈ events, event.isData := by
  intro event hevent
  obtain ⟨i, hi⟩ := List.mem_iff_getElem?.mp hevent
  obtain ⟨metadata, requestId, leaseId, -, rfl⟩ := h i event hi
  rfl

theorem ToldInOrder.of_append {events' : List ReadyEvent} (h : ToldInOrder key pairs (events ++ events')) :
    ToldInOrder key pairs events := by
  obtain ⟨datas, tail, heq, hdatas, htail⟩ := h
  rcases List.append_eq_append_iff.mp heq with ⟨rest, hrest, -⟩ | ⟨rest, hrest, htails⟩
  . rw [hrest] at hdatas
    exact hdatas.of_append.told
  . have hlength : tail.length ≤ 1 := by
      rcases htail with rfl | ⟨error, rfl⟩ | ⟨rfl, -⟩ <;> simp
    have hcases : rest = [] ∨ rest = tail := by
      cases rest with
      | nil => exact .inl rfl
      | cons first others =>
        rw [htails, List.length_append, List.length_cons] at hlength
        rw [htails, List.eq_nil_of_length_eq_zero (l := events') (by omega), append_nil]
        exact .inr rfl
    rcases hcases with rfl | rfl
    . rw [append_nil] at hrest
      rw [hrest]
      exact hdatas.told
    . exact ⟨datas, rest, hrest, hdatas, htail⟩

end

structure StreamPlace where
  phase : StreamPhase
  blockRef : Option ℕ
  metadataRef : Option ℕ
  metadata : Option BlockMetadata
  outputLeaseRef : Bool
  held : Option ℕ
  next : ℕ

inductive StreamPlace.At (pairs : List StreamMetadata) (n : ℕ) : StreamPlace → Prop where
  | idle : At pairs n ⟨.block, none, none, none, false, none, 2 * n⟩
  | block : At pairs n ⟨.block, none, none, none, false, some (2 * n), 2 * n + 1⟩
  | between : At pairs n ⟨.metadata, some (2 * n), none, none, false, none, 2 * n + 1⟩
  | metadata : At pairs n ⟨.metadata, some (2 * n), none, none, false, some (2 * n + 1), 2 * n + 2⟩
  | described : At pairs n ⟨.metadata, some (2 * n), some (2 * n + 1), none, false, none, 2 * n + 2⟩
  | leasing (m : BlockMetadata) (h : pairs[n]? = some (.block m)) :
    At pairs n ⟨.outputLease, some (2 * n), none, some m, true, none, 2 * n + 2⟩

namespace LoopPhase

def record? : LoopPhase → Option (StreamKey × ℕ)
  | idle => none
  | handling key sequence _ | pushing key sequence _ | completing key sequence _
  | failing key sequence _ _ | clearing key sequence _ => some (key, sequence)

def isProducer : LoopPhase → Bool
  | idle => true
  | handling _ _ ready => ready.isProducer
  | pushing _ _ _ => false
  | completing _ _ producer | failing _ _ _ producer | clearing _ _ producer => producer

def of (loop : LoopPhase) (r : StreamRecord) : LoopPhase :=
  if loop.record? = some (r.key, r.sequence) then loop else idle

end LoopPhase

namespace StreamRecord

def heldRead (r : StreamRecord) : Option ℕ :=
  match r.wait with
  | some (.data (some (.ref ref))) => some ref
  | _ => none

def held (loop : LoopPhase) (r : StreamRecord) : Option ℕ :=
  match loop with
  | .handling _ _ (.data (.ref ref)) => some ref
  | _ => r.heldRead

def place (loop : LoopPhase) (r : StreamRecord) : StreamPlace :=
  ⟨r.phase, r.blockRef, r.metadataRef, r.metadata, r.outputLeaseRef, r.held loop, r.next⟩

end StreamRecord

def FutureResult.succeeds : FutureResult → Bool
  | data .stop | terminal none | producer none => true
  | _ => false

structure Follows (pairs : List StreamMetadata) (loop : LoopPhase) (r : StreamRecord)
    (events : List ReadyEvent) : Prop where
  source : r.source.pairs = pairs
  told : PairEvents r.key pairs events
  place : (∀ key sequence error producer, loop ≠ .failing key sequence error producer) →
    StreamPlace.At pairs events.length (r.place loop)
  emitted : r.source.ended = some none → r.source.emitted = 2 * pairs.length
  ended : r.producerCompleted ∨ r.drained ∨ r.wait = some (.data (some .stop)) →
    r.source.ended = some none
  succeeds : ∀ key sequence ready, loop = .handling key sequence ready → ready.succeeds →
    r.source.ended = some none
  reading : ∀ read, r.wait = some (.data read) → r.metadataRef = none ∧ r.outputLeaseRef = false
  handled : loop.isProducer = false → r.wait = some .handled
  metadata : ∀ key sequence m, loop = .handling key sequence (.metadata (.ok m)) →
    r.metadataRef.bind r.source.metadata? = some m
  pushing : ∀ key sequence payload, loop = .pushing key sequence payload →
    r.blockRef = some payload.block ∧ r.metadata = some payload.metadata
  completing : ∀ key sequence producer, loop = .completing key sequence producer → r.mayComplete

namespace Follows

variable {pairs : List StreamMetadata} {loop : LoopPhase} {r : StreamRecord} {events : List ReadyEvent}

theorem fresh (key : StreamKey) (sequence : ℕ) (taskLease : StreamIdentity)
    (pairs : List StreamMetadata) :
    Follows pairs .idle { key, sequence, taskLease, source := { pairs } } [] := by
  refine ⟨rfl, nofun, fun _ => .idle, nofun, ?_, nofun, nofun, nofun, nofun, nofun, nofun⟩
  rintro (hclaims | hclaims | hclaims) <;> cases hclaims

section

variable (h : Follows pairs loop r events)

include h

theorem all_told
    (hplace : StreamPlace.At pairs events.length (r.place loop)) (hcomplete : r.mayComplete) :
    events.length = pairs.length := by
  have hle := h.told.length_le
  simp only [StreamRecord.mayComplete, Bool.and_eq_true, decide_eq_true_eq] at hcomplete
  obtain ⟨⟨⟨hcompleted, hphase⟩, -⟩, hfinished⟩ := hcomplete
  have hended := h.ended (.inl hcompleted)
  have hemitted := h.emitted hended
  unfold StreamRecord.streamFinished RemoteStream.isFinished at hfinished
  rw [Bool.and_eq_true, decide_eq_true_eq, hemitted] at hfinished
  generalize hp : r.place loop = p at hplace
  -- the next object is the block of the pair or its metadata
  have hnext : r.next ≤ 2 * events.length + 1 := by
    cases hplace with
    | idle | block =>
      have := congrArg StreamPlace.next hp
      simp only [StreamRecord.place] at this
      omega
    | between | metadata | described | leasing m hm =>
      have := congrArg StreamPlace.phase hp
      simp only [StreamRecord.place] at this
      rw [hphase] at this
      cases this
  omega

theorem of_same {r' : StreamRecord}
    (hkey : r'.key = r.key) (hsource : r'.source = r.source) (hplace : r'.place loop = r.place loop)
    (hcompleted : r'.producerCompleted = r.producerCompleted) (hdrained : r'.drained = r.drained)
    (hwait : r'.wait = r.wait ∨ loop.isProducer = true ∧
      (r'.wait = some (.data (some .stop)) → r.source.ended = some none) ∧
      ∀ read, r'.wait = some (.data read) → r.metadataRef = none ∧ r.outputLeaseRef = false) :
    Follows pairs loop r' events := by
  have hview : r'.phase = r.phase ∧ r'.blockRef = r.blockRef ∧ r'.metadataRef = r.metadataRef ∧
      r'.metadata = r.metadata ∧ r'.outputLeaseRef = r.outputLeaseRef ∧ r'.next = r.next := by
    simp only [StreamRecord.place, StreamPlace.mk.injEq] at hplace
    tauto
  obtain ⟨hphase, hblock, hmetadataRef, hmetadata, hlease, hnext⟩ := hview
  refine ⟨hsource ▸ h.source, hkey ▸ h.told, fun hloop => hplace ▸ h.place hloop, hsource ▸ h.emitted,
    ?_, hsource ▸ h.succeeds, ?_, ?_, ?_, ?_, ?_⟩
  . rw [hcompleted, hdrained, hsource]
    rintro (hended | hended | hended)
    . exact h.ended (.inl hended)
    . exact h.ended (.inr (.inl hended))
    . rcases hwait with hwait | ⟨-, hstop, -⟩
      . exact h.ended (.inr (.inr (hwait ▸ hended)))
      . exact hstop hended
  . rw [hmetadataRef, hlease]
    rcases hwait with hwait | ⟨-, -, hreading⟩
    . rw [hwait]
      exact h.reading
    . exact hreading
  . intro hloop
    rcases hwait with hwait | ⟨hproducer, -⟩
    . exact hwait ▸ h.handled hloop
    . rw [hproducer] at hloop
      cases hloop
  . rw [hmetadataRef, hsource]
    exact h.metadata
  . rw [hblock, hmetadata]
    exact h.pushing
  . unfold StreamRecord.mayComplete StreamRecord.streamFinished
    rw [hcompleted, hphase, hlease, hsource, hnext]
    exact h.completing

theorem scheduleCompletion :
    Follows pairs loop (AsyncResultCollector.scheduleCompletion r) events := by
  unfold AsyncResultCollector.scheduleCompletion
  split
  . exact h
  . exact h.of_same rfl rfl rfl rfl rfl (.inl rfl)

theorem install (hnone : r.wait = none) {wait : RecordWait}
    (hwait : wait = .terminal ∨ wait = .outputLease ∨ wait = .metadata ∨
      wait = .data none ∧ r.metadataRef = none ∧ r.outputLeaseRef = false) (capacity : Option ℕ) :
    Follows pairs loop { r with wait := some wait, blockItemCapacityBytes := capacity } events := by
  have hheld : StreamRecord.heldRead { r with wait := some wait, blockItemCapacityBytes := capacity } =
      r.heldRead := by
    unfold StreamRecord.heldRead
    rw [hnone]
    rcases hwait with rfl | rfl | rfl | ⟨rfl, -⟩ <;> rfl
  refine h.of_same rfl rfl ?_ rfl rfl (.inr ⟨?_, ?_, ?_⟩)
  . unfold StreamRecord.place StreamRecord.held
    rw [hheld]
  . cases hproducer : loop.isProducer with
    | true => rfl
    | false =>
      have hhandled := h.handled hproducer
      rw [hnone] at hhandled
      cases hhandled
  . rintro ⟨⟩
    rcases hwait with hwait | hwait | hwait | ⟨hwait, -⟩ <;> cases hwait
  . rintro read ⟨⟩
    rcases hwait with hwait | hwait | hwait | ⟨-, hreading⟩
    . cases hwait
    . cases hwait
    . cases hwait
    . exact hreading

theorem scheduleRecord (c : AsyncResultCollector) :
    Follows pairs loop (c.scheduleRecord r) events := by
  unfold AsyncResultCollector.scheduleRecord
  split
  . exact h
  . next hwait =>
    have hnone : r.wait = none := Option.not_isSome_iff_eq_none.mp hwait
    split
    . exact h.install hnone (.inl rfl) _
    . split
      . exact h.install hnone (.inr (.inl rfl)) _
      . next hlease =>
        have hlease : r.outputLeaseRef = false := Bool.not_eq_true _ ▸ hlease
        split
        . exact h.install hnone (.inr (.inr (.inl rfl))) _
        . next hmetadata =>
          have hmetadata := Option.not_isSome_iff_eq_none.mp hmetadata
          split
          . exact h.install hnone (.inr (.inr (.inr ⟨rfl, hmetadata, hlease⟩))) _
          . split
            . exact h.install hnone (.inr (.inr (.inr ⟨rfl, hmetadata, hlease⟩))) _
            . exact h

theorem modifySource {P : RemoteStream → Prop} [DecidablePred P]
    {f : RemoteStream → RemoteStream} (hpairs : ∀ stream, (f stream).pairs = stream.pairs)
    (hemitted : ∀ stream, stream.ended = none → P stream → (f stream).ended = some none →
      (f stream).emitted = 2 * stream.pairs.length) :
    Follows pairs loop { r with
      source := if r.source.ended.isNone ∧ P r.source then f r.source else r.source } events := by
  split
  . next hguard =>
    have hnone := Option.isNone_iff_eq_none.mp hguard.1
    have hopen : r.source.ended ≠ some none := by
      rw [hnone]
      exact nofun
    refine ⟨(hpairs _).trans h.source, h.told, h.place, ?_, ?_, ?_, h.reading, h.handled, ?_, h.pushing,
      ?_⟩
    . intro hnow
      rw [← h.source]
      exact hemitted _ hnone hguard.2 hnow
    . intro hclaims
      exact absurd (h.ended hclaims) hopen
    . intro key sequence ready hloop hclaims
      exact absurd (h.succeeds key sequence ready hloop hclaims) hopen
    . intro key sequence m hloop
      have hmetadata : (f r.source).metadata? = r.source.metadata? := by
        unfold RemoteStream.metadata?
        rw [hpairs]
      rw [hmetadata]
      exact h.metadata key sequence m hloop
    . intro key sequence producer hloop
      have hcomplete := h.completing key sequence producer hloop
      simp only [StreamRecord.mayComplete, Bool.and_eq_true] at hcomplete
      exact absurd (h.ended (.inl hcomplete.1.1.1)) hopen
  . exact h

theorem emit : Follows pairs loop { r with source := r.source.emit } events := by
  refine h.modifySource (P := fun stream => stream.emitted < 2 * stream.pairs.length)
    (f := fun stream => { stream with emitted := stream.emitted + 1 }) (fun _ => rfl) ?_
  intro stream hnone _ hended
  rw [show stream.ended = some none from hended] at hnone
  cases hnone

theorem finish (error : Option String) :
    Follows pairs loop { r with source := r.source.finish error } events := by
  refine h.modifySource (P := fun stream => error.isSome ∨ stream.emitted = 2 * stream.pairs.length)
    (f := fun stream => { stream with ended := some error }) (fun _ => rfl) ?_
  rintro stream - hguard hended
  have herror : error = none := Option.some.inj hended
  exact hguard.resolve_left (by rw [herror]; exact nofun)

end

section

variable (h : Follows pairs .idle r events)

include h

theorem endRead (hwait : r.wait = some (.data none))
    {read : StreamRead} (hread : ∀ ref, read ≠ .ref ref)
    (hstop : read = .stop → r.source.ended = some none) :
    Follows pairs .idle { r with wait := some (.data (some read)) } events := by
  refine h.of_same rfl rfl ?_ rfl rfl (.inr ⟨rfl, ?_, fun _ _ => h.reading none hwait⟩)
  . unfold StreamRecord.place StreamRecord.held StreamRecord.heldRead
    rw [hwait]
    cases read with
    | ref ref => exact absurd rfl (hread ref)
    | terminal | stop => rfl
    | raised error => rfl
  . rintro ⟨⟩
    exact hstop rfl

theorem endReadRef (hwait : r.wait = some (.data none)) :
    Follows pairs .idle { r with wait := some (.data (some (.ref r.next))), next := r.next + 1 }
      events := by
  obtain ⟨hmetadata, hlease⟩ := h.reading none hwait
  have hplace := h.place nofun
  have hheld : r.held .idle = none := by
    unfold StreamRecord.held StreamRecord.heldRead
    rw [hwait]
  refine ⟨h.source, h.told, ?_, h.emitted, ?_, nofun, fun _ _ => ⟨hmetadata, hlease⟩, nofun, nofun, nofun,
    nofun⟩
  . intro _
    simp only [StreamRecord.place, hheld, hmetadata, hlease] at hplace
    simp only [StreamRecord.place, StreamRecord.held, StreamRecord.heldRead, hmetadata, hlease]
    generalize r.phase = phase, r.blockRef = blockRef, r.metadata = metadata, r.next = next at hplace ⊢
    cases hplace with
    | idle => exact .block
    | between => exact .metadata
  . rintro (hended | hended | hended)
    . exact h.ended (.inl hended)
    . exact h.ended (.inr (.inl hended))
    . cases hended

theorem beginRecordWait {input : AsyncResultCollector.CallbackInput}
    {ready : FutureResult} (hready : AsyncResultCollector.readyOf input r = some ready)
    (key : StreamKey) (sequence : ℕ) :
    Follows pairs (.handling key sequence ready) { r with wait := some .handled } events := by
  have hplace := h.place nofun
  have hcases : ready.isProducer = false ∧
      StreamRecord.held (.handling key sequence ready) { r with wait := some .handled } = r.held .idle ∧
      (ready.succeeds → r.source.ended = some none) ∧
      ∀ m, ready = .metadata (.ok m) → r.metadataRef.bind r.source.metadata? = some m := by
    unfold AsyncResultCollector.readyOf at hready
    unfold StreamRecord.held StreamRecord.heldRead
    split at hready
    . next read hwait =>
      cases hready
      refine ⟨rfl, ?_, ?_, nofun⟩
      . rw [hwait]
        cases read <;> rfl
      . intro hsucceeds
        apply h.ended
        cases read with
        | stop => exact .inr (.inr hwait)
        | terminal => cases hsucceeds
        | ref _ => cases hsucceeds
        | raised _ => cases hsucceeds
    . next hwait =>
      rw [hwait]
      split at hready
      . cases hready
        exact ⟨rfl, rfl, nofun, nofun⟩
      . obtain ⟨m, hm, rfl⟩ := Option.map_eq_some_iff.mp hready
        refine ⟨rfl, rfl, nofun, ?_⟩
        rintro _ ⟨⟩
        exact hm
    . next hwait =>
      rw [hwait]
      split at hready <;> cases hready <;> exact ⟨rfl, rfl, nofun, nofun⟩
    . next hwait =>
      rw [hwait]
      obtain ⟨error, herror, rfl⟩ := Option.map_eq_some_iff.mp hready
      refine ⟨rfl, rfl, ?_, nofun⟩
      intro hsucceeds
      cases error with
      | none => exact herror
      | some _ => cases hsucceeds
    . cases hready
  obtain ⟨hproducer, hheld, hsucceeds, hmetadata⟩ := hcases
  refine ⟨h.source, h.told, ?_, h.emitted, ?_, ?_, nofun, fun _ => rfl, ?_, nofun, nofun⟩
  . intro _
    unfold StreamRecord.place
    rw [hheld]
    exact hplace
  . rintro (hended | hended | hended)
    . exact h.ended (.inl hended)
    . exact h.ended (.inr (.inl hended))
    . cases hended
  . rintro _ _ _ ⟨⟩
    exact hsucceeds
  . intro _ _ m hm
    cases hm
    exact hmetadata m rfl

theorem beginProducerWait {error : Option String}
    (hended : r.source.ended = some error) (key : StreamKey) (sequence : ℕ) :
    Follows pairs (.handling key sequence (.producer error)) { r with completion := .handled } events := by
  refine ⟨h.source, h.told, fun _ => h.place nofun, h.emitted, h.ended, ?_, h.reading, nofun, nofun, nofun,
    nofun⟩
  rintro _ _ _ ⟨⟩ hclaims
  cases error with
  | none => exact hended
  | some _ => cases hclaims

end

theorem failing (h : Follows pairs loop r events) (key : StreamKey) (sequence : ℕ) (error : String) :
    Follows pairs (.failing key sequence error loop.isProducer) r events :=
  ⟨h.source, h.told, fun hloop => absurd rfl (hloop _ _ _ _), h.emitted, h.ended, nofun, h.reading,
    h.handled, nofun, nofun, nofun⟩

theorem proceed {key : StreamKey} {sequence : ℕ} {producer : Bool}
    (h : Follows pairs (.clearing key sequence producer) r events) :
    Follows pairs (if r.mayComplete then .completing key sequence producer
      else .clearing key sequence producer) r events := by
  split
  . next hcomplete =>
    exact ⟨h.source, h.told, fun _ => h.place nofun, h.emitted, h.ended, nofun, h.reading, h.handled, nofun,
      nofun, fun _ _ _ _ => hcomplete⟩
  . exact h

theorem clear {key : StreamKey} {sequence : ℕ} {producer : Bool}
    (h : Follows pairs (.clearing key sequence producer) r events) :
    Follows pairs .idle (r.clear producer) events := by
  have hidle : Follows pairs .idle r events :=
    ⟨h.source, h.told, fun _ => h.place nofun, h.emitted, h.ended, nofun, h.reading, nofun, nofun, nofun,
      nofun⟩
  cases producer with
  | true => exact hidle.of_same rfl rfl rfl rfl rfl (.inl rfl)
  | false =>
    refine hidle.of_same rfl rfl ?_ rfl rfl (.inr ⟨rfl, nofun, nofun⟩)
    simp only [StreamRecord.place, StreamRecord.held, StreamRecord.heldRead, h.handled rfl,
      StreamRecord.clear, Bool.false_eq_true, if_false]

section handle

variable {key : StreamKey} {sequence : ℕ} {r' : StreamRecord} {ready : FutureResult}

theorem settle (h : Follows pairs loop r events) (hkey : r'.key = r.key)
    (hsource : r'.source = r.source) (hwait : r'.wait = r.wait)
    (hplace : StreamPlace.At pairs events.length (r'.place .idle))
    (hended : r'.producerCompleted ∨ r'.drained → r.source.ended = some none)
    (hreading : loop.isProducer → r'.metadataRef = r.metadataRef ∧ r'.outputLeaseRef = r.outputLeaseRef) :
    Follows pairs (.clearing key sequence loop.isProducer) r' events := by
  refine ⟨hsource ▸ h.source, hkey ▸ h.told, fun _ => hplace, hsource ▸ h.emitted, ?_, nofun, ?_,
    fun hproducer => hwait ▸ h.handled hproducer, nofun, nofun, nofun⟩
  . rw [hsource, hwait]
    rintro (hcompleted | hdrained | hstop)
    . exact hended (.inl hcompleted)
    . exact hended (.inr hdrained)
    . exact h.ended (.inr (.inr hstop))
  . rw [hwait]
    intro read hread
    cases hproducer : loop.isProducer with
    | true =>
      rw [(hreading hproducer).1, (hreading hproducer).2]
      exact h.reading read hread
    | false =>
      rw [h.handled hproducer] at hread
      cases hread

theorem acceptStreamRef {ref : ℕ}
    (h : Follows pairs (.handling key sequence (.data (.ref ref))) r events)
    (hr' : r.acceptStreamRef ref = .ok r') :
    (r'.key = r.key ∧ r'.sequence = r.sequence) ∧
      Follows pairs (.clearing key sequence false) r' events := by
  have hwait := h.handled rfl
  have hplace := h.place nofun
  simp only [StreamRecord.place, StreamRecord.held] at hplace
  unfold StreamRecord.acceptStreamRef at hr'
  split at hr'
  . next hphase =>
    cases hr'
    refine ⟨⟨rfl, rfl⟩, h.settle rfl rfl rfl ?_ (fun hclaims => h.ended (by tauto)) nofun⟩
    simp only [StreamRecord.place, StreamRecord.held, StreamRecord.heldRead, hwait]
    rw [hphase] at hplace
    generalize r.blockRef = blockRef, r.metadataRef = metadataRef, r.metadata = metadata,
      r.outputLeaseRef = outputLeaseRef, r.next = next at hplace ⊢
    cases hplace with
    | block => exact .between
  . next hphase =>
    obtain ⟨_, -, hr'⟩ := ok_of_bind hr'
    cases hr'
    refine ⟨⟨rfl, rfl⟩, h.settle rfl rfl rfl ?_ (fun hclaims => h.ended (by tauto)) nofun⟩
    simp only [StreamRecord.place, StreamRecord.held, StreamRecord.heldRead, hwait]
    generalize r.phase = phase, r.blockRef = blockRef, r.metadataRef = metadataRef, r.metadata = metadata,
      r.outputLeaseRef = outputLeaseRef, r.next = next at hplace hphase ⊢
    cases hplace with
    | block => exact absurd rfl hphase
    | metadata => exact .described

theorem place_of_no_ref (h : Follows pairs (.handling key sequence ready) r events)
    (hready : ∀ ref, ready ≠ .data (.ref ref)) :
    StreamPlace.At pairs events.length (r.place .idle) := by
  have hplace := h.place nofun
  have hheld : r.held (.handling key sequence ready) = r.held .idle := by
    unfold StreamRecord.held
    split
    . next hloop =>
      cases hloop
      exact absurd rfl (hready _)
    . rfl
  unfold StreamRecord.place at hplace ⊢
  rw [hheld] at hplace
  exact hplace

theorem finishStream (h : Follows pairs (.handling key sequence ready) r events)
    (hready : ready.succeeds) (terminalRef : Bool)
    (hr' : { r with terminalRef }.finishStream = .ok r') :
    (r'.key = r.key ∧ r'.sequence = r.sequence) ∧
      Follows pairs (.clearing key sequence ready.isProducer) r' events := by
  obtain ⟨_, -, hr'⟩ := ok_of_bind hr'
  cases hr'
  refine ⟨⟨rfl, rfl⟩, h.settle rfl rfl rfl ?_ ?_ fun _ => ⟨rfl, rfl⟩⟩
  . refine h.place_of_no_ref ?_
    rintro _ rfl
    cases hready
  . exact fun _ => h.succeeds _ _ _ rfl hready

theorem acceptMetadata {m : StreamMetadata}
    (h : Follows pairs (.handling key sequence (.metadata (.ok m))) r events)
    (hr' : { r with metadataRef := none }.acceptMetadata m = .ok r') :
    (r'.key = r.key ∧ r'.sequence = r.sequence) ∧
      Follows pairs (.clearing key sequence false) r' events := by
  have hwait := h.handled rfl
  have hplace := h.place_of_no_ref nofun
  have hmetadata := h.metadata _ _ m rfl
  simp only [StreamRecord.place, StreamRecord.held, StreamRecord.heldRead, hwait] at hplace
  unfold StreamRecord.acceptMetadata at hr'
  obtain ⟨_, hguard, hr'⟩ := ok_of_bind hr'
  cases m with
  | malformed error => cases hr'
  | error identity exceptionType exceptionMessage =>
    obtain ⟨_, -, hr'⟩ := ok_of_bind hr'
    cases hr'
  | block validated =>
    obtain ⟨_, -, hr'⟩ := ok_of_bind hr'
    obtain ⟨_, -, hr'⟩ := ok_of_bind hr'
    cases hr'
    refine ⟨⟨rfl, rfl⟩, h.settle rfl rfl rfl ?_ (fun hclaims => h.ended (by tauto)) nofun⟩
    simp only [StreamRecord.place, StreamRecord.held, StreamRecord.heldRead, hwait]
    have hsource := h.source
    generalize r.phase = phase, r.blockRef = blockRef, r.metadataRef = metadataRef, r.metadata = metadata,
      r.outputLeaseRef = outputLeaseRef, r.next = next at hplace hmetadata ⊢
    cases hplace with
    | idle => cases hmetadata
    | between => cases hmetadata
    | leasing m hm => cases hmetadata
    | described =>
      refine .leasing validated ?_
      have hodd : (2 * events.length + 1) % 2 = 1 := by omega
      have hhalf : (2 * events.length + 1) / 2 = events.length := by omega
      simp only [Option.bind_some, RemoteStream.metadata?, hodd, if_true, hhalf, hsource] at hmetadata
      exact hmetadata

theorem outputPayload {grant : Except String OutputGrant} {granted : OutputGrant}
    (h : Follows pairs (.handling key sequence (.outputLease grant)) r events) {payload : DataPayload}
    (hpayload : r.outputPayload granted = .ok payload) :
    Follows pairs (.pushing key sequence payload) r events := by
  have hplace := h.place_of_no_ref nofun
  have hfields : r.blockRef = some payload.block ∧ r.metadata = some payload.metadata := by
    cases granted with
    | invalid => cases hpayload
    | denied reason => cases hpayload
    | granted lease =>
      cases lease with
      | none => cases hpayload
      | some lease =>
        obtain ⟨_, -, hpayload⟩ := ok_of_bind hpayload
        cases hmetadata : r.metadata with
        | none =>
          rw [hmetadata] at hpayload
          cases hpayload
        | some metadata =>
          cases hblock : r.blockRef with
          | none =>
            rw [hmetadata, hblock] at hpayload
            cases hpayload
          | some block =>
            rw [hmetadata, hblock] at hpayload
            obtain ⟨_, -, hpayload⟩ := ok_of_bind hpayload
            cases hpayload
            exact ⟨rfl, rfl⟩
  refine ⟨h.source, h.told, fun _ => hplace, h.emitted, h.ended, nofun, h.reading, fun _ => h.handled rfl,
    nofun, ?_, nofun⟩
  rintro _ _ _ ⟨⟩
  exact hfields

theorem pushed {payload : DataPayload} (h : Follows pairs (.pushing key sequence payload) r events) :
    IsPairEvent r.key pairs events.length ⟨r.key, .data payload⟩ ∧
      Follows pairs (.clearing key sequence false) r.pushed (events ++ [⟨r.key, .data payload⟩]) := by
  have hwait := h.handled rfl
  have hplace := h.place nofun
  obtain ⟨hblock, hmetadata⟩ := h.pushing _ _ payload rfl
  simp only [StreamRecord.place, StreamRecord.held, StreamRecord.heldRead, hwait, hblock, hmetadata] at hplace
  have hcases : pairs[events.length]? = some (.block payload.metadata) ∧
      payload.block = 2 * events.length ∧ r.metadataRef = none ∧ r.next = 2 * events.length + 2 := by
    generalize r.phase = phase, r.metadataRef = metadataRef, r.outputLeaseRef = outputLeaseRef,
      r.next = next, hb : payload.block = block at hplace ⊢
    cases hplace with
    | leasing m hm => exact ⟨hm, rfl, rfl, rfl⟩
  obtain ⟨hpair, hindex, href, hnext⟩ := hcases
  have hevent : IsPairEvent r.key pairs events.length ⟨r.key, .data payload⟩ :=
    ⟨payload.metadata, payload.requestId, payload.leaseId, hpair, by rw [← hindex]⟩
  refine ⟨hevent, h.source, h.told.append hevent, ?_, h.emitted, h.ended, nofun, ?_, fun _ => hwait, nofun,
    nofun, nofun⟩
  . intro _
    simp only [StreamRecord.place, StreamRecord.held, StreamRecord.heldRead, StreamRecord.pushed, hwait, href,
      hnext, List.length_append, List.length_singleton]
    exact .idle
  . intro read hread
    rw [show r.wait = some (.data read) from hread] at hwait
    cases hwait

theorem handle (h : Follows pairs (.handling key sequence ready) r events) :
    match r.handle ready with
    | .waits r' | .finishes r' => (r'.key = r.key ∧ r'.sequence = r.sequence) ∧
      Follows pairs (.clearing key sequence ready.isProducer) r' events
    | .pushes payload => Follows pairs (.pushing key sequence payload) r events
    | .fails error => Follows pairs (.failing key sequence error ready.isProducer) r events := by
  have hfails : ∀ error, Follows pairs (.failing key sequence error ready.isProducer) r events :=
    fun error => h.failing key sequence error
  cases ready with
  | data read =>
    cases read with
    | ref ref =>
      simp only [StreamRecord.handle]
      cases hr' : r.acceptStreamRef ref with
      | ok r' => exact h.acceptStreamRef hr'
      | error e => exact hfails _
    | terminal =>
      exact ⟨⟨rfl, rfl⟩, h.settle rfl rfl rfl (h.place_of_no_ref nofun)
        (fun hclaims => h.ended (by tauto)) nofun⟩
    | stop =>
      simp only [StreamRecord.handle]
      cases hr' : r.finishStream with
      | ok r' => exact h.finishStream rfl r.terminalRef hr'
      | error e => exact hfails _
    | raised error => exact hfails _
  | metadata value =>
    cases value with
    | error error => exact hfails _
    | ok m =>
      simp only [StreamRecord.handle]
      cases hr' : { r with metadataRef := none }.acceptMetadata m with
      | ok r' =>
        exact h.acceptMetadata hr'
      | error e =>
        exact hfails _
  | outputLease value =>
    cases value with
    | error error => exact hfails _
    | ok grant =>
      simp only [StreamRecord.handle]
      cases hpayload : r.outputPayload grant with
      | ok payload =>
        exact h.outputPayload hpayload
      | error e =>
        exact hfails _
  | terminal error =>
    cases error with
    | some error => exact hfails _
    | none =>
      simp only [StreamRecord.handle]
      cases hr' : { r with terminalRef := false }.finishStream with
      | ok r' =>
        exact h.finishStream rfl false hr'
      | error e =>
        exact hfails _
  | producer error =>
    cases error with
    | some error => exact hfails _
    | none =>
      exact ⟨⟨rfl, rfl⟩, h.settle rfl rfl rfl (h.place_of_no_ref nofun)
        (fun _ => h.succeeds _ _ _ rfl rfl) fun _ => ⟨rfl, rfl⟩⟩

end handle

end Follows

namespace LoopPhase

variable {loop loop' : LoopPhase} {key : StreamKey} {r : StreamRecord}

def Concerns (loop : LoopPhase) (key : StreamKey) : Prop :=
  ∀ other sequence, loop.record? = some (other, sequence) → other = key

theorem of_eq_idle (h : loop.Concerns key) (hr : r.key ≠ key) : loop.of r = idle := by
  unfold of
  rw [if_neg]
  intro hrecord
  exact hr (h _ _ hrecord)

theorem of_eq_of_concerns (h : loop.Concerns key) (h' : loop'.Concerns key) (hr : r.key ≠ key) :
    loop'.of r = loop.of r := by
  rw [of_eq_idle h hr, of_eq_idle h' hr]

theorem of_eq_self (h : loop.record? = some (r.key, r.sequence)) : loop.of r = loop := if_pos h

theorem concerns_of_record? {sequence : ℕ} (h : loop.record? = some (key, sequence)) :
    loop.Concerns key := by
  intro other sequence' hother
  rw [h] at hother
  cases hother
  rfl

theorem concerns_idle (key : StreamKey) : LoopPhase.idle.Concerns key := nofun

end LoopPhase

namespace AsyncResultCollector

variable {c c' : AsyncResultCollector} {key : StreamKey} {sequence : ℕ} {r : StreamRecord}
  {loop : LoopPhase}

def told (c : AsyncResultCollector) (key : StreamKey) : List ReadyEvent :=
  (c.delivered.filter fun event => event.key = key) ++
    (c.ready key.slotId).filter fun event => event.key = key

theorem record?_eq_some_iff : c.record? key sequence = some r ↔
    c.records.find? key = some r ∧ r.sequence = sequence := by
  unfold record?
  rw [Option.filter_eq_some_iff, decide_eq_true_eq]

structure Sound (streams : StreamKey → List StreamMetadata) (seen : List StreamKey)
    (c : AsyncResultCollector) : Prop where
  live : ∀ key r, c.records.find? key = some r → r.key = key ∧ key ∈ seen ∧
    Follows (streams key) (c.loop.of r) r (c.told key)
  told : ∀ key, ToldInOrder key (streams key) (c.told key)
  slots : ∀ slotId, ∀ event ∈ c.ready slotId, event.key.slotId = slotId
  unseen : ∀ key, key ∉ seen → c.told key = []
  loop : ∀ key sequence, c.loop.record? = some (key, sequence) → key ∈ seen

variable {streams : StreamKey → List StreamMetadata} {seen : List StreamKey}

section

variable (h : Sound streams seen c)

include h

theorem Sound.update (hseen : key ∈ seen)
    (hrecords : ∀ other, other ≠ key → c'.records.find? other = c.records.find? other)
    (htold : ∀ other, other ≠ key → c'.told other = c.told other)
    (hslots : ∀ slotId, ∀ event ∈ c'.ready slotId, event ∈ c.ready slotId ∨
      event.key = key ∧ slotId = key.slotId)
    (hloop : c'.loop = c.loop ∨ c.loop.Concerns key ∧ c'.loop.Concerns key)
    (hkey : ToldInOrder key (streams key) (c'.told key))
    (hlive : ∀ r, c'.records.find? key = some r → r.key = key ∧
      Follows (streams key) (c'.loop.of r) r (c'.told key)) :
    Sound streams seen c' := by
  refine ⟨?_, ?_, ?_, ?_, ?_⟩
  . intro other r hr
    by_cases hother : other = key
    . subst hother
      exact ⟨(hlive r hr).1, hseen, (hlive r hr).2⟩
    . rw [hrecords other hother] at hr
      obtain ⟨hname, hmem, hfollows⟩ := h.live other r hr
      have hsame : c'.loop.of r = c.loop.of r := by
        rcases hloop with hloop | ⟨hconcerns, hconcerns'⟩
        . rw [hloop]
        . exact LoopPhase.of_eq_of_concerns hconcerns hconcerns' (hname ▸ hother)
      rw [htold other hother, hsame]
      exact ⟨hname, hmem, hfollows⟩
  . intro other
    by_cases hother : other = key
    . subst hother
      exact hkey
    . rw [htold other hother]
      exact h.told other
  . intro slotId event hevent
    rcases hslots slotId event hevent with hold | ⟨hnew, rfl⟩
    . exact h.slots slotId event hold
    . rw [hnew]
  . intro other hother
    have hne : other ≠ key := by
      rintro rfl
      exact hother hseen
    rw [htold other hne]
    exact h.unseen other hother
  . intro other sequence hrecord
    rcases hloop with hloop | ⟨-, hconcerns⟩
    . exact h.loop other sequence (hloop ▸ hrecord)
    . rw [hconcerns other sequence hrecord]
      exact hseen

theorem Sound.setRecord {r r' : StreamRecord}
    (hr : c.records.find? key = some r) (hkey : r'.key = r.key)
    (hloop : loop = c.loop ∨ c.loop.Concerns key ∧ loop.Concerns key)
    (hfollows : Follows (streams key) (c.loop.of r) r (c.told key) →
      Follows (streams key) (loop.of r') r' (c.told key)) :
    Sound streams seen { c.setRecord r' with loop := loop } := by
  obtain ⟨hname, hseen, hold⟩ := h.live key r hr
  have hr'key : r'.key = key := hkey.trans hname
  refine h.update hseen ?_ (fun _ _ => rfl) (fun _ _ hevent => .inl hevent) hloop (h.told key) ?_
  . intro other hother
    exact Dict.find?_insert_of_ne _ _ (hr'key ▸ hother)
  . intro r₂ hr₂
    have hr₂ : (c.records.insert r'.key r').find? key = some r₂ := hr₂
    rw [hr'key, Dict.find?_insert_self] at hr₂
    cases hr₂
    exact ⟨hr'key, hfollows hold⟩

theorem Sound.setLoop (hr : c.records.find? key = some r)
    (hloop : c.loop.Concerns key) (hloop' : loop.Concerns key)
    (hfollows : Follows (streams key) (loop.of r) r (c.told key)) :
    Sound streams seen { c with loop := loop } := by
  obtain ⟨hname, hseen, -⟩ := h.live key r hr
  refine h.update hseen (fun _ _ => rfl) (fun _ _ => rfl) (fun _ _ hevent => .inl hevent)
    (.inr ⟨hloop, hloop'⟩) (h.told key) ?_
  intro r₂ hr₂
  cases hr.symm.trans hr₂
  exact ⟨hname, hfollows⟩

theorem Sound.stale (hloop : c.loop = loop)
    (hrecord : loop.record? = some (key, sequence)) (hnone : c.record? key sequence = none) : Sound streams seen { c with loop := .idle } := by
  refine ⟨?_, h.told, h.slots, h.unseen, nofun⟩
  intro other r hr
  have hr : c.records.find? other = some r := hr
  obtain ⟨hname, hmem, hfollows⟩ := h.live other r hr
  have hidle : c.loop.of r = .idle := by
    unfold LoopPhase.of
    rw [if_neg]
    rw [hloop, hrecord]
    rintro ⟨⟩
    rw [hname, record?_eq_some_iff.mpr ⟨hr, rfl⟩] at hnone
    cases hnone
  refine ⟨hname, hmem, ?_⟩
  have hsame : LoopPhase.idle.of r = c.loop.of r := by
    rw [hidle]
    rfl
  rw [hsame]
  exact hfollows

theorem Sound.current (hloop : c.loop = loop)
    (hrecord : loop.record? = some (key, sequence)) (hr : c.record? key sequence = some r) :
    c.records.find? key = some r ∧ r.key = key ∧ r.sequence = sequence ∧ c.loop.Concerns key ∧
      Follows (streams key) loop r (c.told key) := by
  subst hloop
  obtain ⟨hfind, hsequence⟩ := record?_eq_some_iff.mp hr
  obtain ⟨hname, -, hfollows⟩ := h.live key r hfind
  rw [LoopPhase.of_eq_self (by rw [hrecord, hname, hsequence])] at hfollows
  exact ⟨hfind, hname, hsequence, LoopPhase.concerns_of_record? hrecord, hfollows⟩

end

section ready

theorem ready_pushReady (event : ReadyEvent) (slotId : ℕ) :
    (c.pushReady event).ready slotId =
      if slotId = event.key.slotId then c.ready slotId ++ [event] else c.ready slotId := by
  unfold pushReady ready
  rw [Dict.findD_insert]
  split
  . next h => rw [h]
  . rfl

theorem told_pushReady (event : ReadyEvent) (other : StreamKey) :
    (c.pushReady event).told other = if other = event.key then c.told other ++ [event] else c.told other := by
  unfold AsyncResultCollector.told
  rw [ready_pushReady]
  show (c.delivered.filter _) ++ _ = _
  split
  . next hslot =>
    rw [filter_append]
    split
    . next hsame => rw [List.filter_cons_of_pos (by simp [hsame]), filter_nil, append_assoc]
    . next hne => rw [List.filter_cons_of_neg (by simp [Ne.symm hne]), filter_nil, append_nil]
  . next hslot =>
    rw [if_neg]
    rintro rfl
    exact hslot rfl

theorem ready_pushReady_cases {event other : ReadyEvent} {slotId : ℕ}
    (h : other ∈ (c.pushReady event).ready slotId) :
    other ∈ c.ready slotId ∨ other.key = event.key ∧ slotId = event.key.slotId := by
  rw [ready_pushReady] at h
  split at h
  . next hslot =>
    rcases List.mem_append.mp h with hold | hnew
    . exact .inl hold
    . rw [List.mem_singleton.mp hnew]
      exact .inr ⟨rfl, hslot⟩
  . exact .inl h

theorem take_append (capacity : DrainCapacity) (rows bytes : ℕ) (events : List ReadyEvent) :
    (capacity.take rows bytes events).1 ++ (capacity.take rows bytes events).2 = events := by
  induction events generalizing rows bytes with
  | nil => rfl
  | cons event events ih =>
    unfold DrainCapacity.take
    split
    . exact congrArg (event :: ·) (ih _ _)
    . rfl

theorem ready_drainSlot (slotId : ℕ) (capacity : DrainCapacity) (other : ℕ) :
    (c.drainSlot slotId capacity).ready other =
      if other = slotId then (capacity.take 0 0 (c.ready slotId)).2 else c.ready other := by
  unfold drainSlot ready
  simp only
  split
  . next hempty =>
    rw [Dict.findD_erase, List.isEmpty_iff.mp hempty]
  . rw [Dict.findD_insert]

theorem told_drainSlot (hslots : ∀ slotId, ∀ event ∈ c.ready slotId, event.key.slotId = slotId)
    (slotId : ℕ) (capacity : DrainCapacity) (other : StreamKey) :
    (c.drainSlot slotId capacity).told other = c.told other := by
  have htake := take_append capacity 0 0 (c.ready slotId)
  unfold AsyncResultCollector.told
  rw [ready_drainSlot]
  show (c.delivered ++ (capacity.take 0 0 (c.ready slotId)).1).filter _ ++ _ = _
  rw [filter_append, append_assoc]
  congr 1
  split
  . next hslot =>
    rw [← filter_append, htake, hslot]
  . next hslot =>
    have hnone : ((capacity.take 0 0 (c.ready slotId)).1.filter fun event => event.key = other) = [] := by
      rw [List.filter_eq_nil_iff]
      intro event hevent
      have hmem : event ∈ c.ready slotId := by
        rw [← htake]
        exact mem_append_left _ hevent
      rw [decide_eq_true_eq]
      rintro rfl
      exact hslot (hslots slotId event hmem)
    rw [hnone, List.nil_append]

section

variable (h : Sound streams seen c)

include h

theorem Sound.drainSlot (slotId : ℕ) (capacity : DrainCapacity) :
    Sound streams seen (c.drainSlot slotId capacity) := by
  have htold := told_drainSlot h.slots slotId capacity
  refine ⟨?_, ?_, ?_, ?_, h.loop⟩
  . intro key r hr
    rw [htold]
    exact h.live key r hr
  . intro key
    rw [htold]
    exact h.told key
  . intro other event hevent
    rw [ready_drainSlot] at hevent
    split at hevent
    . next hslot =>
      rw [hslot]
      refine h.slots slotId event ?_
      rw [← take_append capacity 0 0 (c.ready slotId)]
      exact List.mem_append_right _ hevent
    . exact h.slots other event hevent
  . intro key hkey
    rw [htold]
    exact h.unseen key hkey

theorem Sound.drainResults (capacities : List (ℕ × DrainCapacity)) :
    Sound streams seen (c.drainResults capacities) := by
  unfold AsyncResultCollector.drainResults
  split
  . exact h
  . induction capacities generalizing c with
    | nil => exact h
    | cons first rest ih =>
      next hopen => exact ih (h.drainSlot first.1 first.2) hopen

theorem Sound.forget (hrecords : ∀ key r, c'.records.find? key = some r →
      c.records.find? key = some r ∧ c'.ready key.slotId = c.ready key.slotId)
    (hready : ∀ slotId, c'.ready slotId = c.ready slotId ∨ c'.ready slotId = [])
    (hdelivered : c'.delivered = c.delivered) (hloop : c'.loop = c.loop) : Sound streams seen c' := by
  have htold : ∀ key, c'.told key = c.told key ∨
      ∃ rest, c.told key = c'.told key ++ rest := by
    intro key
    unfold AsyncResultCollector.told
    rcases hready key.slotId with hsame | hnone
    . left
      rw [hdelivered, hsame]
    . right
      rw [hdelivered, hnone, filter_nil, append_nil]
      exact ⟨_, rfl⟩
  refine ⟨?_, ?_, ?_, ?_, hloop ▸ h.loop⟩
  . intro key r hr
    obtain ⟨hfind, hsame⟩ := hrecords key r hr
    have htold : c'.told key = c.told key := by
      unfold AsyncResultCollector.told
      rw [hdelivered, hsame]
    rw [htold, hloop]
    exact h.live key r hfind
  . intro key
    rcases htold key with hsame | ⟨rest, hrest⟩
    . rw [hsame]
      exact h.told key
    . have hall := h.told key
      rw [hrest] at hall
      exact hall.of_append
  . intro slotId event hevent
    rcases hready slotId with hsame | hnone
    . exact h.slots slotId event (hsame ▸ hevent)
    . rw [hnone] at hevent
      cases hevent
  . intro key hkey
    have hnone := h.unseen key hkey
    rcases htold key with hsame | ⟨rest, hrest⟩
    . rw [hsame]
      exact hnone
    . rw [hrest] at hnone
      exact (List.append_eq_nil_iff.mp hnone).1

end

theorem find?_foldl_erase {d : Dict StreamKey StreamRecord} {keys : List StreamKey} {r : StreamRecord}
    (h : (keys.foldl Dict.erase d).find? key = some r) : d.find? key = some r ∧ key ∉ keys := by
  induction keys generalizing d with
  | nil => exact ⟨h, List.not_mem_nil⟩
  | cons first rest ih =>
    obtain ⟨hfind, hrest⟩ := ih h
    rw [Dict.find?_erase] at hfind
    split at hfind
    . cases hfind
    . next hne => exact ⟨hfind, by simp [hne, hrest]⟩

theorem Sound.cancelSlot (h : Sound streams seen c) (slotId : ℕ) :
    Sound streams seen (c.cancelSlot slotId) := by
  have hready : ∀ other, (c.cancelSlot slotId).ready other =
      if other = slotId then [] else c.ready other := fun other => Dict.findD_erase _ _ _ _
  refine h.forget ?_ ?_ rfl rfl
  . intro key r hr
    obtain ⟨hfind, hkey⟩ := find?_foldl_erase hr
    refine ⟨hfind, ?_⟩
    rw [hready, if_neg]
    intro hslot
    refine hkey (mem_filter.mpr ⟨Dict.mem_keys_iff.mpr ⟨r, hfind⟩, ?_⟩)
    exact decide_eq_true hslot
  . intro other
    rw [hready]
    split
    . exact .inr rfl
    . exact .inl rfl

theorem Sound.shutDown (h : Sound streams seen c) : Sound streams seen c.shutDown := by
  refine h.forget ?_ (fun _ => .inr rfl) rfl rfl
  intro key r hr
  cases (Dict.find?_empty key).symm.trans hr

end ready

section events

section

variable (h : Sound streams seen c)

include h

theorem Sound.trackGeneratorRef (hkey : key ∉ seen) (taskLease : StreamIdentity) :
    Sound streams (seen ++ [key]) (c.trackGeneratorRef key taskLease (streams key)).2 := by
  have hgrows : Sound streams (seen ++ [key]) c := by
    refine ⟨?_, h.told, h.slots, ?_, ?_⟩
    . intro other r hr
      obtain ⟨hname, hmem, hfollows⟩ := h.live other r hr
      exact ⟨hname, mem_append_left _ hmem, hfollows⟩
    . intro other hother
      exact h.unseen other fun hmem => hother (mem_append_left _ hmem)
    . intro other sequence hrecord
      exact mem_append_left _ (h.loop other sequence hrecord)
  unfold AsyncResultCollector.trackGeneratorRef
  split
  . exact hgrows
  . split
    . exact hgrows
    . split
      . exact hgrows
      . refine hgrows.update (show key ∈ seen ++ [key] by simp) ?_ (fun _ _ => rfl)
          (fun _ _ hevent => .inl hevent) (.inl rfl) (h.told key) ?_
        . intro other hother
          exact Dict.find?_insert_of_ne _ _ hother
        . intro r hr
          have hfresh := Follows.fresh key c.nextSequence taskLease (streams key)
          have hr := (Dict.find?_insert_self c.records key _).symm.trans hr
          rw [Option.some.injEq] at hr
          rw [hr] at hfresh
          have hname : r.key = key := by rw [← hr]
          have hidle : c.loop.of r = .idle := by
            unfold LoopPhase.of
            rw [if_neg]
            intro hrecord
            exact hkey (hname ▸ h.loop _ _ hrecord)
          refine ⟨hname, ?_⟩
          show Follows (streams key) (c.loop.of r) r (c.told key)
          rw [hidle, h.unseen key hkey]
          exact hfresh

theorem Sound.refreshRecord (key : StreamKey) : Sound streams seen (c.refreshRecord key) := by
  unfold AsyncResultCollector.refreshRecord
  split
  . exact h
  . next r hr =>
    have hsame : ∀ r', (c.scheduleRecord r').key = r'.key ∧ (c.scheduleRecord r').sequence = r'.sequence := by
      intro r'
      unfold AsyncResultCollector.scheduleRecord
      split
      . exact ⟨rfl, rfl⟩
      . repeat' split
        all_goals exact ⟨rfl, rfl⟩
    have hcompletion : (AsyncResultCollector.scheduleCompletion r).key = r.key ∧
        (AsyncResultCollector.scheduleCompletion r).sequence = r.sequence := by
      unfold AsyncResultCollector.scheduleCompletion
      split <;> exact ⟨rfl, rfl⟩
    refine h.setRecord hr ((hsame _).1.trans hcompletion.1) (.inl rfl) ?_
    intro hfollows
    have hof : c.loop.of (c.scheduleRecord (AsyncResultCollector.scheduleCompletion r)) = c.loop.of r := by
      unfold LoopPhase.of
      rw [(hsame _).1, (hsame _).2, hcompletion.1, hcompletion.2]
    rw [hof]
    exact (hfollows.scheduleCompletion).scheduleRecord c

theorem Sound.refreshWaiters : Sound streams seen c.refreshWaiters := by
  have hall : ∀ (keys : List StreamKey) (c : AsyncResultCollector), Sound streams seen c →
      Sound streams seen (keys.foldl AsyncResultCollector.refreshRecord c) := by
    intro keys
    induction keys with
    | nil => exact fun _ h => h
    | cons first rest ih => exact fun c h => ih _ (h.refreshRecord first)
  unfold AsyncResultCollector.refreshWaiters
  split
  . exact h
  . exact hall _ c h

theorem Sound.modifySource {f : RemoteStream → RemoteStream}
    (hf : ∀ pairs loop r events, Follows pairs loop r events →
      Follows pairs loop { r with source := f r.source } events) (key : StreamKey) :
    Sound streams seen (c.modifySource key f) := by
  unfold AsyncResultCollector.modifySource
  split
  . exact h
  . next r hr =>
    refine h.setRecord hr ?_ (.inl rfl) ?_
    . rfl
    . exact fun hfollows => hf _ _ _ _ hfollows

theorem Sound.idle (hloop : c.loop = .idle) (hr : c.records.find? key = some r) :
    r.key = key ∧ Follows (streams key) .idle r (c.told key) := by
  obtain ⟨hname, -, hfollows⟩ := h.live key r hr
  rw [hloop] at hfollows
  exact ⟨hname, hfollows⟩

theorem Sound.endRead (key : StreamKey) (error : Option String) :
    Sound streams seen (c.endRead key error) := by
  unfold AsyncResultCollector.endRead
  split
  . next r hloop hr =>
    obtain ⟨-, hfollows⟩ := h.idle hloop hr
    split
    . next _ _ hwait =>
      refine h.setRecord hr ?_ (.inl rfl) fun _ => ?_
      . rfl
      . rw [hloop]
        exact hfollows.endRead hwait nofun nofun
    . next ref hwait hread =>
      have href : ref = r.next := by
        split at hread
        . cases hread
        . unfold RemoteStream.read? at hread
          split at hread
          . cases hread
            rfl
          . obtain ⟨error, -, heq⟩ := Option.map_eq_some_iff.mp hread
            split at heq <;> cases heq
      subst href
      refine h.setRecord hr ?_ (.inl rfl) fun _ => ?_
      . rfl
      . rw [hloop]
        exact hfollows.endReadRef hwait
    . next read hnotRef hwait hread =>
      refine h.setRecord hr ?_ (.inl rfl) fun _ => ?_
      . rfl
      . rw [hloop]
        refine hfollows.endRead hwait hnotRef ?_
        rintro rfl
        split at hread
        . next hdrained => exact hfollows.ended (.inr (.inl hdrained))
        . unfold RemoteStream.read? at hread
          split at hread
          . cases hread
          . obtain ⟨error, hended, heq⟩ := Option.map_eq_some_iff.mp hread
            cases error with
            | none => exact hended
            | some _ => cases heq
    . exact h
  . exact h

theorem Sound.beginHandling (hloop : c.loop = .idle)
    (hr : c.records.find? key = some r) {r' : StreamRecord} (hkey : r'.key = r.key)
    (hsequence : r'.sequence = r.sequence) {ready : FutureResult}
    (hfollows : Follows (streams key) (.handling key r.sequence ready) r' (c.told key)) :
    Sound streams seen { c.setRecord r' with loop := .handling key r.sequence ready } := by
  refine h.setRecord hr hkey (.inr ⟨?_, LoopPhase.concerns_of_record? rfl⟩) fun _ => ?_
  . rw [hloop]
    exact LoopPhase.concerns_idle key
  . rw [LoopPhase.of_eq_self (by rw [hkey, hsequence, (h.idle hloop hr).1]; rfl)]
    exact hfollows

theorem Sound.beginRecordWait (key : StreamKey) (input : CallbackInput) :
    Sound streams seen (c.beginRecordWait key input) := by
  unfold AsyncResultCollector.beginRecordWait
  split
  . next r hloop hr =>
    split
    . next ready hready =>
      refine h.beginHandling hloop hr ?_ ?_ ((h.idle hloop hr).2.beginRecordWait hready key r.sequence)
      . rfl
      . rfl
    . exact h
  . exact h

theorem Sound.beginProducerWait (key : StreamKey) :
    Sound streams seen (c.beginProducerWait key) := by
  unfold AsyncResultCollector.beginProducerWait
  split
  . next r hloop hr =>
    split
    . next error _ hended =>
      refine h.beginHandling hloop hr ?_ ?_ ((h.idle hloop hr).2.beginProducerWait hended key r.sequence)
      . rfl
      . rfl
    . exact h
  . exact h

theorem Sound.retire (hseen : key ∈ seen) (hloop : c.loop.Concerns key)
    {loop : LoopPhase} (hloop' : loop.Concerns key) {body : EventBody}
    (htold : ToldInOrder key (streams key) (c.told key ++ [⟨key, body⟩])) :
    Sound streams seen { c.retire key body with loop := loop } := by
  have hpush : ∀ other, AsyncResultCollector.told { c.retire key body with loop := loop } other =
      if other = key then c.told other ++ [⟨key, body⟩] else c.told other := fun other =>
    told_pushReady (c := { c with records := c.records.erase key }) ⟨key, body⟩ other
  refine h.update hseen ?_ ?_ ?_ (.inr ⟨hloop, hloop'⟩) ?_ ?_
  . intro other hother
    exact Dict.find?_erase_of_ne _ hother
  . intro other hother
    rw [hpush, if_neg hother]
  . intro slotId event hevent
    exact ready_pushReady_cases (c := { c with records := c.records.erase key }) hevent
  . rw [hpush, if_pos rfl]
    exact htold
  . intro r hr
    cases (Dict.find?_erase_self c.records key).symm.trans hr

theorem Sound.dropData (hseen : key ∈ seen) (hevents : PairEvents key (streams key) (c.told key)) :
    let kept := (c.ready key.slotId).filter fun event => !(event.key = key && event.isData)
    let c' := { c with readyBySlot := c.readyBySlot.insert key.slotId kept
                       records := c.records.erase key }
    Sound streams seen c' ∧ PairEvents key (streams key) (c'.told key) := by
  intro kept c'
  have hready : ∀ slotId, c'.ready slotId = if slotId = key.slotId then kept else c.ready slotId :=
    fun slotId => Dict.findD_insert _ _ _ _ _
  have hnone : kept.filter (fun event => event.key = key) = [] := by
    rw [List.filter_eq_nil_iff]
    intro event hevent hkey
    obtain ⟨hmem, hkept⟩ := mem_filter.mp hevent
    have hdata : event.isData := hevents.isData event
      (List.mem_append_right _ (mem_filter.mpr ⟨hmem, hkey⟩))
    rw [hdata, hkey] at hkept
    cases hkept
  have hkey : c'.told key = c.delivered.filter fun event => event.key = key := by
    unfold AsyncResultCollector.told
    rw [hready, if_pos rfl, hnone, append_nil]
  have hpairs : PairEvents key (streams key) (c'.told key) := by
    rw [hkey]
    exact hevents.of_append
  refine ⟨h.update hseen ?_ ?_ ?_ (.inl rfl) hpairs.told ?_, hpairs⟩
  . intro other hother
    exact Dict.find?_erase_of_ne _ hother
  . intro other hother
    unfold AsyncResultCollector.told
    rw [hready]
    split
    . next hslot =>
      show c.delivered.filter _ ++ _ = _
      rw [hslot, List.filter_filter]
      congr 1
      apply List.filter_congr
      intro event _
      by_cases hevent : event.key = other
      . simp [hevent, hother]
      . simp [hevent]
    . rfl
  . intro slotId event hevent
    rw [hready] at hevent
    split at hevent
    . next hslot =>
      rw [hslot]
      exact .inl (mem_filter.mp hevent).1
    . exact .inl hevent
  . intro r hr
    cases (Dict.find?_erase_self c.records key).symm.trans hr

theorem Sound.advanceLoop : Sound streams seen c.advanceLoop := by
  unfold AsyncResultCollector.advanceLoop
  cases hloop : c.loop with
  | idle => exact h
  | handling key sequence ready =>
    simp only
    split
    . next hnone => exact h.stale hloop rfl hnone
    . next r hr =>
      obtain ⟨hfind, hname, hsequence, hconcerns, hfollows⟩ := h.current hloop rfl hr
      have hhandle := hfollows.handle
      have hself : ∀ r' : StreamRecord, r'.key = r.key ∧ r'.sequence = r.sequence →
          (r'.key, r'.sequence) = (key, sequence) := by
        rintro r' ⟨hkey', hsequence'⟩
        rw [hkey', hsequence', hname, hsequence]
      split
      . next r' hr' =>
        rw [hr'] at hhandle
        refine h.setRecord hfind hhandle.1.1 (.inr ⟨hconcerns, LoopPhase.concerns_of_record? rfl⟩) ?_
        intro _
        rw [LoopPhase.of_eq_self (by rw [hself r' hhandle.1]; rfl)]
        exact hhandle.2
      . next r' hr' =>
        rw [hr'] at hhandle
        have hphase : (if r'.mayComplete then LoopPhase.completing key sequence ready.isProducer
            else .clearing key sequence ready.isProducer).record? = some (key, sequence) := by
          split <;> rfl
        refine h.setRecord hfind hhandle.1.1 (.inr ⟨hconcerns, LoopPhase.concerns_of_record? hphase⟩) ?_
        intro _
        rw [LoopPhase.of_eq_self (by rw [hself r' hhandle.1]; exact hphase)]
        exact hhandle.2.proceed
      . next payload hr' =>
        rw [hr'] at hhandle
        refine h.setLoop hfind hconcerns (LoopPhase.concerns_of_record? rfl) ?_
        rw [LoopPhase.of_eq_self (by rw [hname, hsequence]; rfl)]
        exact hhandle
      . next error hr' =>
        rw [hr'] at hhandle
        refine h.setLoop hfind hconcerns (LoopPhase.concerns_of_record? rfl) ?_
        rw [LoopPhase.of_eq_self (by rw [hname, hsequence]; rfl)]
        exact hhandle
  | pushing key sequence payload =>
    simp only
    split
    . next hnone => exact h.stale hloop rfl hnone
    . next r hr =>
      obtain ⟨hfind, hname, hsequence, hconcerns, hfollows⟩ := h.current hloop rfl hr
      obtain ⟨-, hpushed⟩ := hfollows.pushed
      rw [hname] at hpushed
      have hphase : (if r.pushed.mayComplete then LoopPhase.completing key sequence false
          else .clearing key sequence false).record? = some (key, sequence) := by
        split <;> rfl
      have htold := told_pushReady (c := c) ⟨key, .data payload⟩
      have hkey : (c.pushReady ⟨key, .data payload⟩).told key = c.told key ++ [⟨key, .data payload⟩] := by
        rw [htold, if_pos rfl]
      refine h.update (h.live key r hfind).2.1 ?_ ?_ (fun _ _ hevent => ready_pushReady_cases hevent)
        (.inr ⟨hconcerns, LoopPhase.concerns_of_record? hphase⟩) ?_ ?_
      . intro other hother
        exact Dict.find?_insert_of_ne _ _ (show other ≠ r.key from hname ▸ hother)
      . intro other hother
        exact (htold other).trans (if_neg hother)
      . show ToldInOrder key (streams key) ((c.pushReady ⟨key, .data payload⟩).told key)
        rw [hkey]
        have hevents := hpushed.told
        rw [show r.pushed.key = key from hname] at hevents
        exact hevents.told
      . intro r₂ hr₂
        have hr₂ : (c.records.insert r.key r.pushed).find? key = some r₂ := hr₂
        rw [hname, Dict.find?_insert_self] at hr₂
        cases hr₂
        refine ⟨hname, ?_⟩
        show Follows (streams key) _ _ ((c.pushReady ⟨key, .data payload⟩).told key)
        rw [hkey, LoopPhase.of_eq_self]
        . exact hpushed.proceed
        . show _ = some (r.key, r.sequence)
          rw [hname, hsequence]
          exact hphase
  | completing key sequence producer =>
    simp only
    split
    . next hnone => exact h.stale hloop rfl hnone
    . next r hr =>
      obtain ⟨hfind, hname, -, hconcerns, hfollows⟩ := h.current hloop rfl hr
      refine h.retire (h.live key r hfind).2.1 hconcerns (LoopPhase.concerns_of_record? rfl) ?_
      refine ⟨c.told key, _, rfl, hname ▸ hfollows.told, .inr (.inr ⟨rfl, ?_⟩)⟩
      exact hfollows.all_told (hfollows.place nofun) (hfollows.completing _ _ _ rfl)
  | failing key sequence error producer =>
    simp only
    split
    . next hnone => exact h.stale hloop rfl hnone
    . next r hr =>
      obtain ⟨hfind, hname, -, hconcerns, hfollows⟩ := h.current hloop rfl hr
      have hseen := (h.live key r hfind).2.1
      obtain ⟨hsound, hpairs⟩ := h.dropData hseen (hname ▸ hfollows.told)
      have hlast : ToldInOrder key (streams key) (_ ++ [⟨key, .error error⟩]) :=
        ⟨_, _, rfl, hpairs, .inr (.inl ⟨error, rfl⟩)⟩
      have hclearing : LoopPhase.Concerns (.clearing key sequence producer) key :=
        LoopPhase.concerns_of_record? rfl
      have hretire := hsound.retire hseen hconcerns hclearing hlast
      unfold AsyncResultCollector.retire at hretire
      rw [Dict.erase_of_find?_eq_none (Dict.find?_erase_self c.records key)] at hretire
      exact hretire
  | clearing key sequence producer =>
    simp only
    split
    . next hnone => exact h.stale hloop rfl hnone
    . next r hr =>
      obtain ⟨hfind, hname, -, hconcerns, hfollows⟩ := h.current hloop rfl hr
      have hkey : (r.clear producer).key = r.key := by
        unfold StreamRecord.clear
        split <;> rfl
      refine h.setRecord hfind hkey (.inr ⟨hconcerns, LoopPhase.concerns_idle key⟩) ?_
      intro _
      exact hfollows.clear

theorem Sound.step {event : CollectorEvent} (hfresh : ∀ key ∈ event.trackedKey?, key ∉ seen) :
    Sound streams (seen ++ event.trackedKey?.toList) (event.step streams c) := by
  have hsame : ∀ {c'}, Sound streams seen c' → Sound streams (seen ++ []) c' :=
    fun h' => (append_nil seen).symm ▸ h'
  cases event with
  | track key taskLease => exact h.trackGeneratorRef (hfresh key rfl) taskLease
  | drain capacities => exact hsame (h.drainResults capacities)
  | cancelSlot slotId => exact hsame (h.cancelSlot slotId)
  | shutdown => exact hsame h.shutDown
  | refresh => exact hsame h.refreshWaiters
  | emit key => exact hsame (h.modifySource (fun _ _ _ _ hfollows => hfollows.emit) key)
  | finish key error =>
    exact hsame (h.modifySource (f := fun stream => stream.finish error)
      (fun _ _ _ _ hfollows => hfollows.finish error) key)
  | endRead key error => exact hsame (h.endRead key error)
  | recordReady key input => exact hsame (h.beginRecordWait key input)
  | producerReady key => exact hsame (h.beginProducerWait key)
  | advanceLoop => exact hsame h.advanceLoop

theorem Sound.run (events : List CollectorEvent)
    (hfresh : (seen ++ events.filterMap trackedKey?).Nodup) :
    Sound streams (seen ++ events.filterMap trackedKey?)
      (Run.run (CollectorEvent.step streams) events c) := by
  induction events generalizing seen c with
  | nil =>
    rw [List.filterMap_nil, append_nil]
    exact h
  | cons event events ih =>
    have hkeys : (event :: events).filterMap trackedKey? =
        event.trackedKey?.toList ++ events.filterMap trackedKey? := by
      rw [List.filterMap_cons]
      cases event.trackedKey? <;> rfl
    rw [hkeys, ← append_assoc] at hfresh ⊢
    refine ih (h.step ?_) hfresh
    intro key hkey hseen
    rw [append_assoc, List.nodup_append] at hfresh
    exact hfresh.2.2 key hseen key (mem_append_left _ (Option.mem_toList.mpr hkey)) rfl

end

theorem Sound.initial : Sound streams [] {} := by
  refine ⟨?_, fun _ => ⟨[], [], rfl, nofun, .inl rfl⟩, ?_, fun _ _ => rfl, nofun⟩
  . intro key r hr
    cases (Dict.find?_empty key).symm.trans hr
  . intro slotId event hevent
    have hnone : AsyncResultCollector.ready {} slotId = [] := rfl
    rw [hnone] at hevent
    cases hevent

end events

theorem streams_are_told_in_order (streams : StreamKey → List StreamMetadata)
    (events : List CollectorEvent) (h : (events.filterMap CollectorEvent.trackedKey?).Nodup)
    (key : StreamKey) :
    let c := Run.run (CollectorEvent.step streams) events {}
    ∃ datas tail, (c.delivered.filter fun event => event.key = key) = datas ++ tail ∧
      (∀ (i : ℕ) (event : ReadyEvent), datas[i]? = some event → ∃ metadata requestId leaseId,
        (streams key)[i]? = some (.block metadata) ∧
          event = ⟨key, .data ⟨2 * i, metadata, requestId, leaseId⟩⟩) ∧
      (tail = [] ∨ (∃ error, tail = [⟨key, .error error⟩]) ∨
        tail = [⟨key, .complete⟩] ∧ datas.length = (streams key).length) := by
  intro c
  have hsound : Sound streams _ c := Sound.initial.run events h
  exact (hsound.told key).of_append

def oneBlock : StreamMetadata := .block ⟨⟨"q", "s", "task", "a"⟩, "b", 1, 8, ["x"]⟩

def oneBlockRun : List CollectorEvent :=
  let key : StreamKey := ⟨0, 0⟩
  let capacity : ℕ × DrainCapacity := (0, { rows := 1 })
  let callback (input : CallbackInput) : List CollectorEvent :=
    [.refresh, .recordReady key input, .advanceLoop, .advanceLoop, .advanceLoop]
  [.track key ⟨"q", "s", "task", "a"⟩, .drain [capacity], .refresh, .emit key, .endRead key none] ++
    callback {} ++ [.refresh, .emit key, .endRead key none] ++ callback {} ++ callback {} ++
    callback { grant := .granted (some ⟨"lease", "b"⟩) } ++
    [.finish key none, .producerReady key, .advanceLoop, .advanceLoop, .advanceLoop, .drain [capacity]]

theorem streams_are_told_in_order_of_one_block :
    let c := Run.run (CollectorEvent.step fun _ => [oneBlock]) oneBlockRun {}
    c.delivered.length = 2 ∧ ∃ datas tail,
      (c.delivered.filter fun event => event.key = ⟨0, 0⟩) = datas ++ tail ∧
        (∀ (i : ℕ) (event : ReadyEvent), datas[i]? = some event → ∃ metadata requestId leaseId,
          [oneBlock][i]? = some (.block metadata) ∧
            event = ⟨⟨0, 0⟩, .data ⟨2 * i, metadata, requestId, leaseId⟩⟩) ∧
        (tail = [] ∨ (∃ error, tail = [⟨⟨0, 0⟩, .error error⟩]) ∨
          tail = [⟨⟨0, 0⟩, .complete⟩] ∧ datas.length = [oneBlock].length) :=
  ⟨by decide +kernel,
    streams_are_told_in_order (fun _ => [oneBlock]) oneBlockRun (by decide +kernel) ⟨0, 0⟩⟩

end AsyncResultCollector

end Vane
