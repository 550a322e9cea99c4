import Vane.Lib.Calls
import Vane.Lib.Load
import Vane.Lib.Py
import Vane.Lib.Text

/-! This module contains how the registry of fragments guards the life of a query. -/

namespace Vane

open Except (raiseIf)

@[irreducible]
def registryKey (queryId : String) : String := Text.strip queryId

structure FteRegistry where
  closingQueries : Finset String := ∅
  activeOperations : Dict String ℤ := ∅
  activeTeardownOperations : Dict String ℤ := ∅

namespace FteRegistry

variable (g : FteRegistry) (queryId : String)

def active (key : String) : ℤ := g.activeOperations.findD key 0

def closeForQuery : FteRegistry :=
  let key := registryKey queryId
  if key = "" then g else { g with closingQueries := insert key g.closingQueries }

def beginOperation : Py FteRegistry Bool := do
  let key := registryKey queryId
  Py.lift (raiseIf (key = "") (.valueError "query_id must be non-empty"))
  let g ← Py.get
  if key ∈ g.closingQueries then
    return false
  else
    Py.set { g with activeOperations := g.activeOperations.insert key (g.active key + 1) }
    return true

def beginTeardownOperation : Py FteRegistry PUnit := do
  let key := registryKey queryId
  Py.lift (raiseIf (key = "") (.valueError "query_id must be non-empty"))
  let g ← Py.get
  Py.lift (raiseIf (key ∉ g.closingQueries)
    (.runtimeError ("FTE teardown operation requires a closing query: " ++ key)))
  let active := g.activeTeardownOperations.findD key 0
  Py.set { g with
    activeTeardownOperations := g.activeTeardownOperations.insert key (active + 1) }

def giveBack (what key : String) (counts : Dict String ℤ) : Except PyError (Dict String ℤ) :=
  let active := counts.findD key 0
  if active ≤ 0 then
    .error (.runtimeError (what ++ " ownership underflow: " ++ key))
  else if active = 1 then
    .ok (counts.erase key)
  else
    .ok (counts.insert key (active - 1))

def endOperation : Py FteRegistry PUnit := do
  let g ← Py.get
  let activeOperations ← Py.lift
    (giveBack "FTE registry operation" (registryKey queryId) g.activeOperations)
  Py.set { g with activeOperations }

def endTeardownOperation : Py FteRegistry PUnit := do
  let g ← Py.get
  let activeTeardownOperations ← Py.lift
    (giveBack "FTE registry teardown" (registryKey queryId) g.activeTeardownOperations)
  Py.set { g with activeTeardownOperations }

/-- `earlier` and `later` are the other owners of old state, in their order. -/
def openForQuery (earlier later : List String) : Py FteRegistry PUnit := do
  let key := registryKey queryId
  Py.lift (raiseIf (key = "") (.valueError "query_id must be non-empty"))
  let g ← Py.get
  let staleOwners := earlier ++
    (if g.active key > 0 then ["active_operations"] else []) ++
    (if g.activeTeardownOperations.findD key 0 > 0 then ["active_teardown_operations"] else []) ++
    later
  Py.lift (raiseIf (staleOwners ≠ [])
    (.runtimeError ("cannot reopen FTE registry with old generation state: " ++ key ++ "; " ++
      ", ".intercalate staleOwners)))
  Py.set { g with closingQueries := g.closingQueries.erase key }

def dropCounters : FteRegistry :=
  { g with activeOperations := g.activeOperations.erase queryId }

section

variable {g}

theorem giveBack_cases (what key : String) (counts : Dict String ℤ) :
    (counts.findD key 0 ≤ 0 ∧ ∃ e, giveBack what key counts = .error e) ∨
    0 < counts.findD key 0 ∧ ∃ counts', giveBack what key counts = .ok counts' ∧
      ∀ key', counts'.findD key' 0 =
        if key' = key then counts.findD key 0 - 1 else counts.findD key' 0 := by
  unfold giveBack
  simp only
  split
  . next hnone => exact .inl ⟨hnone, _, rfl⟩
  . next hsome =>
    right
    split
    . next hone =>
      refine ⟨not_le.mp hsome, _, rfl, ?_⟩
      intro key'
      rw [Dict.findD_erase, hone]
      rfl
    . refine ⟨not_le.mp hsome, _, rfl, ?_⟩
      intro key'
      exact Dict.findD_insert counts key key' _ 0

theorem endOperation_cases (queryId : String) (g : FteRegistry) :
    (g.active (registryKey queryId) ≤ 0 ∧ ∃ e, endOperation queryId g = (.error e, g)) ∨
    0 < g.active (registryKey queryId) ∧ ∃ g', endOperation queryId g = (.ok ⟨⟩, g') ∧
      g'.closingQueries = g.closingQueries ∧
      ∀ key, g'.active key =
        if key = registryKey queryId then g.active (registryKey queryId) - 1 else g.active key := by
  unfold endOperation
  rw [Py.bind_apply, Py.get_apply]
  simp only
  rw [Py.bind_apply, Py.lift_apply]
  rcases giveBack_cases "FTE registry operation" (registryKey queryId) g.activeOperations with
    ⟨hnone, e, he⟩ | ⟨hsome, counts, hcounts, hactive⟩
  . rw [he]
    exact .inl ⟨hnone, e, rfl⟩
  . rw [hcounts]
    exact .inr ⟨hsome, _, rfl, rfl, hactive⟩

theorem beginOperation_cases (queryId : String) (g : FteRegistry) :
    (∃ result, beginOperation queryId g = (result, g) ∧ result ≠ .ok true) ∨
    registryKey queryId ≠ "" ∧ registryKey queryId ∉ g.closingQueries ∧
      ∃ g', beginOperation queryId g = (.ok true, g') ∧ g'.closingQueries = g.closingQueries ∧
        ∀ key, g'.active key =
          if key = registryKey queryId then g.active (registryKey queryId) + 1 else g.active key := by
  unfold beginOperation
  by_cases hkey : registryKey queryId = ""
  . left
    rw [Py.bind_apply, Py.lift_apply, Except.raiseIf_eq_error_iff.mpr ⟨hkey, rfl⟩]
    exact ⟨_, rfl, nofun⟩
  . rw [Py.bind_apply, Py.lift_apply, Except.raiseIf_of_not hkey]
    simp only
    rw [Py.bind_apply, Py.get_apply]
    simp only
    split
    . exact .inl ⟨_, rfl, by simp⟩
    . next hclosing =>
      exact .inr ⟨hkey, hclosing, _, rfl, rfl, fun key => Dict.findD_insert _ _ key _ 0⟩

theorem beginOperation_of_closing {queryId : String} (hkey : registryKey queryId ≠ "")
    (h : registryKey queryId ∈ g.closingQueries) : beginOperation queryId g = (.ok false, g) := by
  unfold beginOperation
  rw [Py.bind_apply, Py.lift_apply, Except.raiseIf_of_not hkey]
  simp only
  rw [Py.bind_apply, Py.get_apply]
  simp only
  rw [if_pos h]
  rfl

theorem closingQueries_closeForQuery {queryId : String} (hkey : registryKey queryId ≠ "") :
    registryKey queryId ∈ (g.closeForQuery queryId).closingQueries := by
  unfold closeForQuery
  simp only
  rw [if_neg hkey]
  exact Finset.mem_insert_self _ _

theorem closeForQuery_spec (queryId : String) (g : FteRegistry) :
    g.closingQueries ⊆ (g.closeForQuery queryId).closingQueries ∧
      ∀ key, (g.closeForQuery queryId).active key = g.active key := by
  unfold closeForQuery
  simp only
  split
  . exact ⟨subset_rfl, fun _ => rfl⟩
  . exact ⟨Finset.subset_insert _ _, fun _ => rfl⟩

def SameOperations (g g' : FteRegistry) : Prop :=
  g'.closingQueries = g.closingQueries ∧ ∀ key, g'.active key = g.active key

theorem beginTeardownOperation_same (queryId : String) (g : FteRegistry) :
    SameOperations g (beginTeardownOperation queryId g).2 := by
  have hkeeps : (beginTeardownOperation queryId).Ensures g (fun _ => SameOperations g)
      (fun _ => SameOperations g) := by
    unfold beginTeardownOperation
    simp only [Py.ensures_bind, Py.ensures_raiseIf, Py.ensures_get, Py.ensures_set]
    have hsame : SameOperations g g := ⟨rfl, fun _ => rfl⟩
    exact ⟨fun _ => hsame, fun _ => ⟨fun _ => hsame, fun _ => hsame⟩⟩
  exact hkeeps.state

theorem endTeardownOperation_same (queryId : String) (g : FteRegistry) :
    SameOperations g (endTeardownOperation queryId g).2 := by
  have hkeeps : (endTeardownOperation queryId).Ensures g (fun _ => SameOperations g)
      (fun _ => SameOperations g) := by
    unfold endTeardownOperation
    simp only [Py.ensures_bind, Py.ensures_get, Py.ensures_lift, Py.ensures_set]
    have hsame : SameOperations g g := ⟨rfl, fun _ => rfl⟩
    exact ⟨fun _ _ => hsame, fun _ _ => hsame⟩
  exact hkeeps.state

theorem openForQuery_cases (queryId : String) (earlier later : List String) (g : FteRegistry) :
    (∃ e, openForQuery queryId earlier later g = (.error e, g)) ∨
      openForQuery queryId earlier later g = (.ok ⟨⟩,
        { g with closingQueries := g.closingQueries.erase (registryKey queryId) }) := by
  have hensures : (openForQuery queryId earlier later).Ensures g
      (fun _ g' => g' = { g with closingQueries := g.closingQueries.erase (registryKey queryId) })
      (fun _ g' => g' = g) := by
    unfold openForQuery
    simp only [Py.ensures_bind, Py.ensures_raiseIf, Py.ensures_get, Py.ensures_set]
    exact ⟨fun _ => trivial, fun _ => ⟨fun _ => trivial, fun _ => trivial⟩⟩
  unfold Py.Ensures at hensures
  generalize openForQuery queryId earlier later g = result at hensures
  obtain ⟨value, g'⟩ := result
  cases value with
  | error e => exact .inl ⟨e, by rw [hensures]⟩
  | ok _ => exact .inr (by rw [hensures])

end

end FteRegistry

inductive QuiescePhase where
  | stopping
  | waiting
  | joining
  | dropping
  | succeeded
  | failed (e : PyError)
  deriving DecidableEq

structure QuiesceCall where
  queryId : String
  drops : Bool
  closedAt : ℕ
  phase : QuiescePhase

structure QuiesceInput where
  watchers : Option PyError := none
  timedOut : Bool := false

structure RegistryHistory where
  registry : FteRegistry := {}
  tokens : String → List ℕ := fun _ => []
  clock : ℕ := 0

namespace QuiesceCall

def key (call : QuiesceCall) : String := registryKey call.queryId

def quiet (call : QuiesceCall) : QuiescePhase := if call.drops then .dropping else .succeeded

def advance (input : QuiesceInput) (h : RegistryHistory) (call : QuiesceCall) :
    QuiesceCall × RegistryHistory :=
  match call.phase with
  | .stopping =>
    match input.watchers with
    | some e => ({ call with phase := .failed e }, h)
    | none => ({ call with phase := .waiting }, h)
  | .waiting =>
    let active := h.registry.active call.key
    if active > 0 then
      if input.timedOut then
        ({ call with phase := .failed (.runtimeError
          ("FTE registry operation shutdown timed out without losing ownership: query=" ++
            call.key ++ " active=" ++ toString active)) }, h)
      else
        (call, h)
    else
      ({ call with phase := .joining }, h)
  | .joining =>
    match input.watchers with
    | some e => ({ call with phase := .failed e }, h)
    | none => ({ call with phase := call.quiet }, h)
  | .dropping =>
    ({ call with phase := .succeeded }, { h with registry := h.registry.dropCounters call.queryId })
  | .succeeded | .failed _ => (call, h)

end QuiesceCall

abbrev RegistryLifecycle := Calls RegistryHistory QuiesceCall

def RegistryLifecycle.initial : RegistryLifecycle := { shared := {} }

inductive RegistryEvent where
  | beginOperation (queryId : String)
  | endOperation (queryId : String) (token : ℕ)
  | beginTeardownOperation (queryId : String)
  | endTeardownOperation (queryId : String)
  | close (queryId : String)
  | quiesce (queryId : String) (drops : Bool)
  | advance (call : ℕ) (input : QuiesceInput)
  | reopen (queryId : String) (earlier later : List String)

namespace RegistryHistory

variable (h : RegistryHistory)

def tick : RegistryHistory := { h with clock := h.clock + 1 }

def beginOperation (queryId : String) : RegistryHistory :=
  match FteRegistry.beginOperation queryId h.registry with
  | (.ok true, registry) => { h with
      registry
      tokens := Function.update h.tokens (registryKey queryId)
        (h.tokens (registryKey queryId) ++ [h.clock]) }
  | (_, registry) => { h with registry }

def endOperation (queryId : String) (token : ℕ) : RegistryHistory :=
  match FteRegistry.endOperation queryId h.registry with
  | (.ok _, registry) =>
    let held := h.tokens (registryKey queryId)
    { h with
      registry
      tokens := Function.update h.tokens (registryKey queryId)
        (held.eraseIdx (token % held.length)) }
  | (.error _, registry) => { h with registry }

end RegistryHistory

namespace RegistryEvent

def step (event : RegistryEvent) (s : RegistryLifecycle) : RegistryLifecycle :=
  match event with
  | beginOperation queryId => { s with shared := (s.shared.beginOperation queryId).tick }
  | endOperation queryId token => { s with shared := (s.shared.endOperation queryId token).tick }
  | beginTeardownOperation queryId => { s with shared := RegistryHistory.tick { s.shared with
      registry := (FteRegistry.beginTeardownOperation queryId s.shared.registry).2 } }
  | endTeardownOperation queryId => { s with shared := RegistryHistory.tick { s.shared with
      registry := (FteRegistry.endTeardownOperation queryId s.shared.registry).2 } }
  | close queryId => { s with shared := RegistryHistory.tick { s.shared with
      registry := s.shared.registry.closeForQuery queryId } }
  | quiesce queryId drops =>
    let call : QuiesceCall := ⟨queryId, drops, s.shared.clock, .stopping⟩
    { shared := RegistryHistory.tick { s.shared with
        registry := s.shared.registry.closeForQuery queryId }
      phases := s.phases ++ [
        if queryId = "" then { call with phase := .succeeded }
        else if call.key = "" then { call with phase := call.quiet }
        else call] }
  | advance i input =>
    let s := Calls.advanceAt (QuiesceCall.advance input) i s
    { s with shared := s.shared.tick }
  | reopen queryId earlier later => { s with shared := RegistryHistory.tick { s.shared with
      registry := (FteRegistry.openForQuery queryId earlier later s.shared.registry).2 } }

def Reopens (key : String) (event : RegistryEvent) (s : RegistryLifecycle) : Prop :=
  match event with
  | reopen queryId earlier later => registryKey queryId = key ∧
    (FteRegistry.openForQuery queryId earlier later s.shared.registry).1 = .ok ⟨⟩
  | _ => False

/--
The event is not the end of a `_drop_fte_registry_for_query` that finds active operations: the
query has not been reopened since it was quiet.
-/
def DropsIdle (event : RegistryEvent) (s : RegistryLifecycle) : Prop :=
  match event with
  | advance i _ => ∀ call ∈ s.phases[i]?, call.phase = .dropping →
    s.shared.registry.active call.queryId ≤ 0
  | _ => True

instance (event : RegistryEvent) (s : RegistryLifecycle) : Decidable (event.DropsIdle s) :=
  match event with
  | advance _ _ => inferInstanceAs (Decidable (∀ _ ∈ _, _))
  | beginOperation _ => inferInstanceAs (Decidable True)
  | endOperation _ _ => inferInstanceAs (Decidable True)
  | beginTeardownOperation _ => inferInstanceAs (Decidable True)
  | endTeardownOperation _ => inferInstanceAs (Decidable True)
  | close _ => inferInstanceAs (Decidable True)
  | quiesce _ _ => inferInstanceAs (Decidable True)
  | reopen _ _ _ => inferInstanceAs (Decidable True)

end RegistryEvent

namespace RegistryLifecycle

variable {s : RegistryLifecycle}

def HasPassed (call : QuiesceCall) : Prop :=
  call.phase = .joining ∨ call.phase = .dropping ∨ call.phase = .succeeded

structure Fenced (s : RegistryLifecycle) : Prop where
  counted : ∀ key, s.shared.registry.active key = (s.shared.tokens key).length
  unnamed : s.shared.tokens "" = []
  begun : ∀ key, ∀ t ∈ s.shared.tokens key, t < s.shared.clock
  closed : ∀ call ∈ s.phases, call.closedAt < s.shared.clock
  quiet : ∀ call ∈ s.phases, HasPassed call → ∀ t ∈ s.shared.tokens call.key, call.closedAt < t

theorem Fenced.shared (h : Fenced s) {shared : RegistryHistory}
    (hclock : shared.clock = s.shared.clock + 1)
    (hcounted : ∀ key, shared.registry.active key = (shared.tokens key).length)
    (htokens : ∀ key, ∀ t ∈ shared.tokens key,
      t ∈ s.shared.tokens key ∨ t = s.shared.clock ∧ key ≠ "") :
    Fenced { s with shared } where
  counted := hcounted
  unnamed := by
    rw [List.eq_nil_iff_forall_not_mem]
    intro t ht
    rcases htokens "" t ht with hold | ⟨-, hne⟩
    . rw [h.unnamed] at hold
      cases hold
    . exact hne rfl
  begun := by
    intro key t ht
    show t < shared.clock
    rcases htokens key t ht with hold | ⟨rfl, -⟩
    . have hbefore := h.begun key t hold
      omega
    . omega
  closed := by
    intro call hcall
    have hbefore := h.closed call hcall
    show call.closedAt < shared.clock
    omega
  quiet := by
    intro call hcall hpassed t ht
    rcases htokens call.key t ht with hold | ⟨rfl, -⟩
    . exact h.quiet call hcall hpassed t hold
    . exact h.closed call hcall

theorem Fenced.tick (h : Fenced s) {registry : FteRegistry}
    (hactive : ∀ key, registry.active key = s.shared.registry.active key) :
    Fenced { s with shared := RegistryHistory.tick { s.shared with registry } } :=
  h.shared rfl (fun key => (hactive key).trans (h.counted key)) fun _ _ ht => .inl ht

theorem Fenced.beginOperation (h : Fenced s) (queryId : String) :
    Fenced { s with shared := (s.shared.beginOperation queryId).tick } := by
  unfold RegistryHistory.beginOperation
  rcases FteRegistry.beginOperation_cases queryId s.shared.registry with
    ⟨result, hresult, hne⟩ | ⟨hkey, -, g, hg, -, hactive⟩
  . rw [hresult]
    split
    . next heq =>
      cases heq
      exact absurd rfl hne
    . next heq =>
      cases heq
      exact h.tick fun _ => rfl
  . rw [hg]
    refine h.shared (by rfl) ?_ ?_
    . intro key
      show g.active key = _
      rw [hactive key, h.counted, h.counted]
      simp only [RegistryHistory.tick, Function.update_apply]
      split
      . simp
      . rfl
    . intro key t ht
      simp only [RegistryHistory.tick, Function.update_apply] at ht
      split at ht
      . next hsame =>
        subst hsame
        rcases List.mem_append.mp ht with hold | hnew
        . exact .inl hold
        . exact .inr ⟨List.mem_singleton.mp hnew, hkey⟩
      . exact .inl ht

theorem Fenced.endOperation (h : Fenced s) (queryId : String) (token : ℕ) :
    Fenced { s with shared := (s.shared.endOperation queryId token).tick } := by
  unfold RegistryHistory.endOperation
  rcases FteRegistry.endOperation_cases queryId s.shared.registry with
    ⟨-, e, he⟩ | ⟨hpos, g, hg, -, hactive⟩
  . rw [he]
    exact h.tick fun _ => rfl
  . rw [hg]
    rw [h.counted] at hpos
    have hlength : 0 < (s.shared.tokens (registryKey queryId)).length := by exact_mod_cast hpos
    refine h.shared (by rfl) ?_ ?_
    . intro key
      show g.active key = _
      rw [hactive key, h.counted, h.counted]
      simp only [RegistryHistory.tick, Function.update_apply]
      split
      . rw [List.length_eraseIdx_of_lt (Nat.mod_lt _ hlength)]
        omega
      . rfl
    . intro key t ht
      simp only [RegistryHistory.tick, Function.update_apply] at ht
      split at ht
      . next hsame =>
        subst hsame
        exact .inl (List.mem_of_mem_eraseIdx ht)
      . exact .inl ht

structure Advances (call call' : QuiesceCall) (h h' : RegistryHistory) : Prop where
  queryId : call'.queryId = call.queryId
  closedAt : call'.closedAt = call.closedAt
  tokens : h'.tokens = h.tokens
  clock : h'.clock = h.clock
  registry : h'.registry = h.registry ∨
    call.phase = .dropping ∧ h'.registry = h.registry.dropCounters call.queryId
  passed : HasPassed call' → HasPassed call ∨ h.registry.active call.key ≤ 0

theorem advance_advances (input : QuiesceInput) (h : RegistryHistory) (call : QuiesceCall) :
    Advances call (call.advance input h).1 h (call.advance input h).2 := by
  have hsame : Advances call call h h := ⟨rfl, rfl, rfl, rfl, .inl rfl, .inl⟩
  have hphase : ∀ phase, (HasPassed { call with phase } → HasPassed call ∨
      h.registry.active call.key ≤ 0) → Advances call { call with phase } h h :=
    fun phase hpassed => ⟨rfl, rfl, rfl, rfl, .inl rfl, hpassed⟩
  unfold QuiesceCall.advance
  split
  . split
    . exact hphase _ (by simp [HasPassed])
    . exact hphase _ (by simp [HasPassed])
  . simp only
    split
    . split
      . exact hphase _ (by simp [HasPassed])
      . exact hsame
    . next hquiet => exact hphase _ fun _ => .inr (not_lt.mp hquiet)
  . next hjoining =>
    split
    . exact hphase _ (by simp [HasPassed])
    . exact hphase _ fun _ => .inl (.inl hjoining)
  . next hdropping =>
    exact ⟨rfl, rfl, rfl, rfl, .inr ⟨hdropping, rfl⟩, fun _ => .inl (.inr (.inl hdropping))⟩
  . exact hsame
  . exact hsame

theorem Fenced.advance (h : Fenced s) (i : ℕ) (input : QuiesceInput)
    (hdrops : (RegistryEvent.advance i input).DropsIdle s) :
    Fenced (RegistryEvent.step (.advance i input) s) := by
  show Fenced { Calls.advanceAt (QuiesceCall.advance input) i s with
    shared := (Calls.advanceAt (QuiesceCall.advance input) i s).shared.tick }
  cases hcall : s.phases[i]? with
  | none =>
    have hadvance : Calls.advanceAt (QuiesceCall.advance input) i s = s := by
      unfold Calls.advanceAt
      rw [hcall]
    rw [hadvance]
    exact h.tick fun _ => rfl
  | some call =>
    have hadvance : Calls.advanceAt (QuiesceCall.advance input) i s =
        ⟨(call.advance input s.shared).2, s.phases.set i (call.advance input s.shared).1⟩ := by
      unfold Calls.advanceAt
      rw [hcall]
    rw [hadvance]
    have hmem : call ∈ s.phases := List.mem_of_getElem? hcall
    have hadvances := advance_advances input s.shared call
    generalize (call.advance input s.shared).1 = call' at hadvances
    generalize (call.advance input s.shared).2 = shared at hadvances
    have hactive : ∀ key, shared.registry.active key = s.shared.registry.active key := by
      rcases hadvances.registry with heq | ⟨hdropping, heq⟩
      . rw [heq]
        exact fun _ => rfl
      . intro key
        have hidle := hdrops call hcall hdropping
        have hcounted := h.counted call.queryId
        rw [heq, FteRegistry.active, FteRegistry.dropCounters, Dict.findD_erase]
        split
        . next hkey =>
          rw [hkey]
          omega
        . rfl
    have hfenced : Fenced { s with shared := shared.tick } := by
      refine h.shared (congrArg (· + 1) hadvances.clock) ?_ ?_
      . intro key
        show shared.registry.active key = (shared.tokens key).length
        rw [hactive, hadvances.tokens, h.counted]
      . intro key t ht
        left
        rw [← hadvances.tokens]
        exact ht
    have hcases : ∀ other ∈ s.phases.set i call', other ∈ s.phases ∨ other = call' :=
      fun other hother => List.mem_or_eq_of_mem_set hother
    refine ⟨hfenced.counted, hfenced.unnamed, hfenced.begun, ?_, ?_⟩
    . intro other hother
      rcases hcases other hother with hold | rfl
      . exact hfenced.closed other hold
      . rw [hadvances.closedAt]
        exact hfenced.closed call hmem
    . intro other hother hpassed t ht
      rcases hcases other hother with hold | rfl
      . exact hfenced.quiet other hold hpassed t ht
      . have hkey : QuiesceCall.key other = call.key := congrArg registryKey hadvances.queryId
        rw [hadvances.closedAt]
        rw [hkey] at ht
        rcases hadvances.passed hpassed with hbefore | hquiet
        . exact hfenced.quiet call hmem hbefore t ht
        . exfalso
          rw [h.counted] at hquiet
          have hnone : s.shared.tokens call.key = [] := by
            apply List.eq_nil_of_length_eq_zero
            omega
          have hmem : t ∈ shared.tokens call.key := ht
          rw [hadvances.tokens, hnone] at hmem
          cases hmem

theorem Fenced.step (h : Fenced s) {event : RegistryEvent} (hevent : event.DropsIdle s) :
    Fenced (event.step s) := by
  cases event with
  | beginOperation queryId => exact h.beginOperation queryId
  | endOperation queryId token => exact h.endOperation queryId token
  | beginTeardownOperation queryId =>
    exact h.tick (FteRegistry.beginTeardownOperation_same queryId _).2
  | endTeardownOperation queryId =>
    exact h.tick (FteRegistry.endTeardownOperation_same queryId _).2
  | close queryId => exact h.tick (FteRegistry.closeForQuery_spec queryId _).2
  | advance i input => exact h.advance i input hevent
  | reopen queryId earlier later =>
    apply h.tick
    rcases FteRegistry.openForQuery_cases queryId earlier later s.shared.registry with
      ⟨e, he⟩ | hopen
    . rw [he]
      exact fun _ => rfl
    . rw [hopen]
      exact fun _ => rfl
  | quiesce queryId drops =>
    have hfenced := h.tick (FteRegistry.closeForQuery_spec queryId s.shared.registry).2
    show Fenced ⟨_, s.phases ++ [_]⟩
    generalize hcall : (if queryId = "" then _ else _ : QuiesceCall) = call
    have hclosedAt : call.closedAt = s.shared.clock ∧ (HasPassed call → call.key = "") := by
      subst hcall
      split
      . next hnone =>
        have hempty : registryKey "" = "" := by decide +kernel
        exact ⟨rfl, fun _ => by rw [← hempty, ← hnone]; rfl⟩
      . split
        . next hkey => exact ⟨rfl, fun _ => hkey⟩
        . exact ⟨rfl, by simp [HasPassed]⟩
    refine ⟨hfenced.counted, hfenced.unnamed, hfenced.begun, ?_, ?_⟩
    . intro other hother
      rcases List.mem_append.mp hother with hold | hnew
      . exact hfenced.closed other hold
      . rw [List.mem_singleton.mp hnew, hclosedAt.1]
        exact Nat.lt_succ_self _
    . intro other hother hpassed t ht
      rcases List.mem_append.mp hother with hold | hnew
      . exact hfenced.quiet other hold hpassed t ht
      . rw [List.mem_singleton.mp hnew] at hpassed ht
        rw [hclosedAt.2 hpassed] at ht
        have hunnamed := hfenced.unnamed
        rw [hunnamed] at ht
        cases ht

theorem closingQueries_step {key : String} {event : RegistryEvent}
    (hevent : ¬event.Reopens key s) (hkey : key ∈ s.shared.registry.closingQueries) :
    key ∈ (event.step s).shared.registry.closingQueries := by
  cases event with
  | beginOperation queryId =>
    show key ∈ (s.shared.beginOperation queryId).registry.closingQueries
    unfold RegistryHistory.beginOperation
    rcases FteRegistry.beginOperation_cases queryId s.shared.registry with
      ⟨result, hresult, hne⟩ | ⟨-, -, g, hg, hclosing, -⟩
    . rw [hresult]
      split
      . next heq =>
        cases heq
        exact hkey
      . next heq =>
        cases heq
        exact hkey
    . rw [hg]
      exact hclosing ▸ hkey
  | endOperation queryId token =>
    show key ∈ (s.shared.endOperation queryId token).registry.closingQueries
    unfold RegistryHistory.endOperation
    rcases FteRegistry.endOperation_cases queryId s.shared.registry with
      ⟨-, e, he⟩ | ⟨-, g, hg, hclosing, -⟩
    . rw [he]
      exact hkey
    . rw [hg]
      exact hclosing ▸ hkey
  | beginTeardownOperation queryId =>
    show key ∈ (FteRegistry.beginTeardownOperation queryId s.shared.registry).2.closingQueries
    rw [(FteRegistry.beginTeardownOperation_same queryId _).1]
    exact hkey
  | endTeardownOperation queryId =>
    show key ∈ (FteRegistry.endTeardownOperation queryId s.shared.registry).2.closingQueries
    rw [(FteRegistry.endTeardownOperation_same queryId _).1]
    exact hkey
  | close queryId =>
    exact (FteRegistry.closeForQuery_spec queryId s.shared.registry).1 hkey
  | quiesce queryId drops =>
    exact (FteRegistry.closeForQuery_spec queryId s.shared.registry).1 hkey
  | advance i input =>
    show key ∈ (Calls.advanceAt (QuiesceCall.advance input) i s).shared.registry.closingQueries
    unfold Calls.advanceAt
    split
    . exact hkey
    . next call _ =>
      rcases (advance_advances input s.shared call).registry with heq | ⟨-, heq⟩
      . rw [heq]
        exact hkey
      . rw [heq]
        exact hkey
  | reopen queryId earlier later =>
    show key ∈ (FteRegistry.openForQuery queryId earlier later s.shared.registry).2.closingQueries
    rcases FteRegistry.openForQuery_cases queryId earlier later s.shared.registry with
      ⟨e, he⟩ | hopen
    . rw [he]
      exact hkey
    . rw [hopen, Finset.mem_erase]
      refine ⟨?_, hkey⟩
      intro hsame
      exact hevent ⟨hsame.symm, by rw [hopen]⟩

theorem tokens_of_refused {queryId : String}
    (h : FteRegistry.beginOperation queryId s.shared.registry = (.ok false, s.shared.registry)) :
    (RegistryEvent.step (.beginOperation queryId) s).shared.tokens = s.shared.tokens := by
  show (s.shared.beginOperation queryId).tokens = s.shared.tokens
  unfold RegistryHistory.beginOperation
  rw [h]

theorem closingQueries_of_closes {queryId : String} (hkey : registryKey queryId ≠ "")
    {closing : RegistryEvent}
    (h : closing = .close queryId ∨ ∃ drops, closing = .quiesce queryId drops) :
    registryKey queryId ∈ (closing.step s).shared.registry.closingQueries := by
  have hmarked : registryKey queryId ∈
      (s.shared.registry.closeForQuery queryId).closingQueries :=
    FteRegistry.closingQueries_closeForQuery hkey
  rcases h with rfl | ⟨drops, rfl⟩
  . exact hmarked
  . exact hmarked

theorem registry_operations_are_fenced (events : List RegistryEvent)
    (h : Run.Always RegistryEvent.step RegistryEvent.DropsIdle events .initial) :
    let s : RegistryLifecycle := Run.run RegistryEvent.step events .initial
    (∀ key, 0 ≤ s.shared.registry.active key) ∧
    (∀ queryId, registryKey queryId ≠ "" → ∀ closing : RegistryEvent,
      (closing = .close queryId ∨ ∃ drops, closing = .quiesce queryId drops) →
      ∀ later, Run.Always RegistryEvent.step
          (fun event s => ¬event.Reopens (registryKey queryId) s) later (closing.step s) →
        let s' := Run.run RegistryEvent.step later (closing.step s)
        FteRegistry.beginOperation queryId s'.shared.registry = (.ok false, s'.shared.registry) ∧
          (RegistryEvent.step (.beginOperation queryId) s').shared.tokens = s'.shared.tokens) ∧
    ∀ call ∈ s.phases, call.phase = .succeeded →
      ∀ begun ∈ s.shared.tokens call.key, call.closedAt < begun := by
  intro s
  have hfenced : Fenced s := by
    apply Run.run_invariant_of_always Fenced (fun _ _ hevent hs => Fenced.step hs hevent) h
    exact ⟨fun _ => rfl, rfl, by simp [initial], by simp [initial], by simp [initial]⟩
  refine ⟨?_, ?_, ?_⟩
  . intro key
    rw [hfenced.counted]
    exact Int.natCast_nonneg _
  . intro queryId hkey closing hclosing later hlater s'
    have hmarked := closingQueries_of_closes (s := s) hkey hclosing
    have hbegin : FteRegistry.beginOperation queryId s'.shared.registry =
        (.ok false, s'.shared.registry) := by
      apply FteRegistry.beginOperation_of_closing hkey
      exact Run.run_invariant_of_always
        (fun s : RegistryLifecycle => registryKey queryId ∈ s.shared.registry.closingQueries)
        (fun _ _ hevent hs => closingQueries_step hevent hs) hlater hmarked
    exact ⟨hbegin, tokens_of_refused hbegin⟩
  . intro call hcall hsucceeded
    exact hfenced.quiet call hcall (.inr (.inr hsucceeded))

theorem registry_operations_are_fenced_when_reopened :
    let events : List RegistryEvent := [.beginOperation "q", .quiesce "q" false, .advance 0 {},
      .advance 0 {}, .endOperation "q" 0, .advance 0 {}, .advance 0 {}, .reopen "q" [] [],
      .beginOperation "q"]
    let s : RegistryLifecycle := Run.run RegistryEvent.step events .initial
    Run.Always RegistryEvent.step RegistryEvent.DropsIdle events .initial ∧
      ∃ call ∈ s.phases, call.phase = .succeeded ∧ call.closedAt = 1 ∧
        s.shared.tokens call.key = [8] ∧ ∀ begun ∈ s.shared.tokens call.key, call.closedAt < begun := by
  intro events s
  have h : Run.Always RegistryEvent.step RegistryEvent.DropsIdle events .initial := by
    decide +kernel
  have hcalls : s.phases.any (fun call =>
      call.phase = .succeeded ∧ call.closedAt = 1 ∧ s.shared.tokens call.key = [8]) = true := by
    decide +kernel
  obtain ⟨call, hcall, hsees⟩ := List.any_eq_true.mp hcalls
  obtain ⟨hphase, hclosedAt, htokens⟩ := of_decide_eq_true hsees
  exact ⟨h, call, hcall, hphase, hclosedAt, htokens,
    (registry_operations_are_fenced events h).2.2 call hcall hphase⟩

end RegistryLifecycle


end Vane
