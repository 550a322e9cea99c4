import Vane.Ray.QueryResourceManager.CallLemmas
import Vane.Ray.Driver.Admission

/-!
This module contains the rules for the calls of a driver on the managers of its queries.
-/

namespace Vane

open Text (strip)

namespace AdmissionState

open QueryResourceManager (Call Answer)

variable {uuid : String → UuidSource} {queryId : String} {s : AdmissionState}

def putManager (s : AdmissionState) (key : String) (m : QueryResourceManager) : AdmissionState :=
  { s with managers := s.managers.insert key m }

theorem getQueryResourceManager_eq_ok {m : QueryResourceManager}
    (h : s.getQueryResourceManager queryId = .ok m) :
    s.managers.find? (strip queryId) = some m := by
  unfold getQueryResourceManager at h
  split at h
  . cases h
  . split at h
    . next hm =>
      cases h
      exact hm
    . cases h

theorem getQueryResourceManager_eq_error {e : PyError}
    (h : s.getQueryResourceManager queryId = .error e) :
    (∃ message, e = .valueError message) ∧ strip queryId = "" ∨
      (∃ message, e = .keyError message) ∧ s.managers.find? (strip queryId) = none := by
  unfold getQueryResourceManager at h
  split at h
  . next hblank =>
    cases h
    exact .inl ⟨⟨_, rfl⟩, hblank⟩
  . split at h
    . cases h
    . next hnone =>
      cases h
      exact .inr ⟨⟨_, rfl⟩, hnone⟩

theorem ensures_callManager {call : Call} {Q : Answer → AdmissionState → Prop}
    {E : PyError → AdmissionState → Prop} (hcall : ∀ m, s.managers.find? (strip queryId) = some m →
      (call.exec (uuid (strip queryId))).Ensures m
        (fun answer m' => Q answer (s.putManager (strip queryId) m'))
        fun e m' => E e (s.putManager (strip queryId) m'))
    (hmissing : ∀ e, s.getQueryResourceManager queryId = .error e → E e s) :
    (callManager uuid queryId call).Ensures s Q E := by
  unfold callManager
  rw [Py.ensures_bind, Py.ensures_read]
  refine ⟨?_, hmissing⟩
  intro m hget
  have hexec := hcall m (getQueryResourceManager_eq_ok hget)
  unfold Py.Ensures at hexec
  cases hresult : call.exec (uuid (strip queryId)) m with
  | mk result m' =>
    rw [hresult] at hexec
    rw [Py.ensures_modify_bind]
    cases result with
    | ok answer => exact hexec
    | error e => exact hexec

theorem callManager_state (uuid : String → UuidSource) (queryId : String) (call : Call)
    (s : AdmissionState) :
    (callManager uuid queryId call s).2 = s ∨
      ∃ m, s.managers.find? (strip queryId) = some m ∧
        (callManager uuid queryId call s).2 =
          s.putManager (strip queryId) (call.step (uuid (strip queryId)) m) := by
  unfold callManager
  rw [Py.bind_apply, Py.read_apply]
  cases hget : s.getQueryResourceManager queryId with
  | error e => exact .inl rfl
  | ok m => exact .inr ⟨m, getQueryResourceManager_eq_ok hget, rfl⟩

theorem ensures_callIfRegistered {calls : List Call} {Q : Unit → AdmissionState → Prop}
    {E : PyError → AdmissionState → Prop} (h : (Py.forEach calls fun call => do
        let _ ← callManager uuid queryId call
        return ⟨⟩).Ensures s Q fun e s' =>
      match e with
      | .keyError _ => Q ⟨⟩ s'
      | _ => E e s') :
    (callIfRegistered uuid queryId calls).Ensures s Q E :=
  Py.ensures_exceptKeyError h

end AdmissionState

end Vane
