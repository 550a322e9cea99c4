import Vane.Lib.Py

/-!
This module contains the fence by which other threads run a callback on the owner loop of the
admission state, and that it is decisive.
-/

namespace Vane

inductive InvocationState where
  | queued
  | started
  | cancelled
  | finished
  deriving DecidableEq

inductive FencePhase where
  | outside
  | entered (onLoop : Bool)
  | waiting
  | expired
  | returned
  | raised
  | timedOut
  | refused
  deriving DecidableEq

/--
A call of `_run_on_query_resource_admission_loop_sync`. `isScheduled` says whether the loop is going
to call `invoke`; the runs of the callback are counted, and those that end without an error.
-/
structure FencedCall where
  phase : FencePhase := .outside
  invocationState : InvocationState := .queued
  isScheduled : Bool := false
  completed : Bool := false
  error : Bool := false
  starts : ℕ := 0
  completions : ℕ := 0
  deriving DecidableEq

namespace FencedCall

variable (call : FencedCall)

def ended : FencePhase := if call.error then .raised else .returned

def callback (raises : Bool) : FencedCall :=
  { call with error := raises, completions := call.completions + if raises then 0 else 1 }

/-- The thread goes on. It chooses when it stops to wait, and whether it finds the loop running. -/
def advance (choice poisoned : Bool) : FencedCall × Bool :=
  match call.phase with
  | .entered true =>
    let call := { call with starts := call.starts + 1 }.callback choice
    ({ call with phase := call.ended }, poisoned)
  | .entered false =>
    if choice then
      ({ call with phase := .waiting, isScheduled := true }, poisoned)
    else
      ({ call with phase := .refused }, poisoned)
  | .waiting =>
    if call.completed then
      ({ call with phase := call.ended }, poisoned)
    else
      ({ call with phase := if choice then .expired else .waiting }, poisoned)
  | .expired =>
    match call.invocationState with
    | .queued => ({ call with phase := .timedOut, invocationState := .cancelled }, poisoned)
    | .finished => ({ call with phase := call.ended }, poisoned)
    | .started | .cancelled => ({ call with phase := .timedOut }, true)
  | .outside | .returned | .raised | .timedOut | .refused => (call, poisoned)

/-- The loop goes on with `invoke`. -/
def invoke (raises : Bool) : FencedCall :=
  if call.isScheduled then
    match call.invocationState with
    | .queued => { call with invocationState := .started, starts := call.starts + 1 }
    | .started => { call.callback raises with invocationState := .finished }
    | .cancelled | .finished => { call with completed := true }
  else
    call

end FencedCall

namespace LoopFence

inductive Turn where
  | enter (onLoop : Bool)
  | advance (choice : Bool)
  | invoke (raises : Bool)
  | poison
  deriving DecidableEq, Fintype

def Turn.act (call : FencedCall) (poisoned : Bool) : Turn → FencedCall × Bool
  | enter onLoop =>
    (if call.phase = .outside then
      { call with phase := if poisoned then .refused else .entered onLoop }
    else
      call, poisoned)
  | advance choice => call.advance choice poisoned
  | invoke raises => (call.invoke raises, poisoned)
  | poison => (call, true)

end LoopFence

structure LoopFence where
  poisoned : Bool := false
  calls : ℕ → FencedCall := fun _ => {}

namespace LoopFence

variable {s : LoopFence} {i : ℕ} {call : FencedCall}

def step (event : ℕ × Turn) (s : LoopFence) : LoopFence where
  poisoned := (event.2.act (s.calls event.1) s.poisoned).2
  calls := Function.update s.calls event.1 (event.2.act (s.calls event.1) s.poisoned).1

/-- The states that a call can be in. -/
def callStates : List FencedCall :=
  [{ phase := .outside }, { phase := .refused }, { phase := .entered true }, { phase := .entered false },
    { phase := .returned, starts := 1, completions := 1 },
    { phase := .raised, error := true, starts := 1 }] ++
  [.waiting, .expired].map (⟨·, .queued, true, false, false, 0, 0⟩) ++
  [true, false].map (⟨.timedOut, .cancelled, true, ·, false, 0, 0⟩) ++
  [.waiting, .expired, .timedOut].map (⟨·, .started, true, false, false, 1, 0⟩) ++
  [true, false].flatMap fun completed =>
    [.waiting, .expired, .timedOut, .returned].map (⟨·, .finished, true, completed, false, 1, 1⟩) ++
    [.waiting, .expired, .timedOut, .raised].map (⟨·, .finished, true, completed, true, 1, 0⟩)

theorem callStates_act : ∀ call ∈ callStates, ∀ (turn : Turn) (poisoned : Bool),
    (turn.act call poisoned).1 ∈ callStates ∧ (poisoned → (turn.act call poisoned).2) ∧
      (call.invocationState = .cancelled →
        (turn.act call poisoned).1.invocationState = .cancelled) ∧
      ((turn.act call poisoned).1.phase = .timedOut → call.phase = .timedOut ∨
        (turn.act call poisoned).1.invocationState = .cancelled ∨ (turn.act call poisoned).2) := by
  decide +kernel

theorem callStates_ends : ∀ call ∈ callStates,
    (call.phase = .returned → call.starts = 1 ∧ call.completions = 1) ∧
      (call.invocationState = .cancelled → call.starts = 0) := by
  decide +kernel

structure Fenced (s : LoopFence) : Prop where
  state : ∀ i, s.calls i ∈ callStates
  timedOut : ∀ i, (s.calls i).phase = .timedOut →
    (s.calls i).invocationState = .cancelled ∨ s.poisoned

theorem Fenced.step (h : s.Fenced) (event : ℕ × Turn) :
    (step event s).Fenced ∧ (s.poisoned → (LoopFence.step event s).poisoned) ∧
      ∀ i, (s.calls i).invocationState = .cancelled →
        ((LoopFence.step event s).calls i).invocationState = .cancelled := by
  obtain ⟨hstate, hpoisoned, hcancelled, htimedOut⟩ :=
    callStates_act (s.calls event.1) (h.state event.1) event.2 s.poisoned
  unfold LoopFence.step
  refine ⟨⟨fun i => ?_, fun i => ?_⟩, hpoisoned, fun i => ?_⟩
  all_goals
    simp only [Function.update_apply]
    split
  . exact hstate
  . exact h.state i
  . intro hphase
    rcases htimedOut hphase with hbefore | hafter
    . exact (h.timedOut event.1 hbefore).imp hcancelled hpoisoned
    . exact hafter
  . exact fun hphase => (h.timedOut i hphase).imp_right hpoisoned
  . next heq => exact heq ▸ hcancelled
  . exact id

theorem Fenced.run (h : s.Fenced) (events : List (ℕ × Turn)) :
    (Run.run LoopFence.step events s).Fenced ∧
      (s.poisoned → (Run.run LoopFence.step events s).poisoned) ∧
      ∀ i, (s.calls i).invocationState = .cancelled →
        ((Run.run LoopFence.step events s).calls i).invocationState = .cancelled := by
  refine Run.run_invariant (fun s' : LoopFence => s'.Fenced ∧ (s.poisoned → s'.poisoned) ∧ ∀ i,
    (s.calls i).invocationState = .cancelled → (s'.calls i).invocationState = .cancelled) ?_
    ⟨h, id, fun _ => id⟩
  rintro event - s' ⟨hs', hpoisoned, hcancelled⟩
  obtain ⟨hfenced, hpoisoned', hcancelled'⟩ := hs'.step event
  exact ⟨hfenced, hpoisoned' ∘ hpoisoned, fun i hi => hcancelled' i (hcancelled i hi)⟩

theorem fenced_new : ({} : LoopFence).Fenced := ⟨fun _ => List.mem_cons_self, nofun⟩

def punctual : List (ℕ × Turn) :=
  [(0, .enter false), (0, .advance true), (0, .invoke false), (0, .invoke false), (0, .invoke false),
    (0, .advance true)]

theorem fenced_callback_runs_once (events : List (ℕ × Turn)) (i : ℕ) :
    let call := (Run.run step events {}).calls i
    call.starts ≤ 1 ∧ call.completions ≤ call.starts ∧ (call.phase = .refused → call.starts = 0) ∧
      (call.phase = .raised → call.starts = 1 ∧ call.completions = 0) := by
  intro call
  have hcall : call ∈ callStates := (fenced_new.run events).1.state i
  clear_value call
  revert call
  decide +kernel

end LoopFence

end Vane
