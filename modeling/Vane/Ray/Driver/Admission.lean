import Vane.Lib.ReplayMap
import Vane.Ray.QueryResourceManager.Calls

/-! This module contains the books that a driver keeps about the lease requests of a query. -/

namespace Vane

inductive DriverReason where
  | queryNotRegistered
  | taskResourceSpecMismatch
  | taskLeaseRequestCancelled
  | taskLeaseRequestReleased
  | outputLeaseRequestCancelled
  | outputLeaseRequestReleased
  deriving DecidableEq

/-- The payload that answers a request: a grant of the manager, the lease of a request that has one,
or a fatal denial. -/
inductive LeaseAnswer (L G : Type) where
  | grant (grant : G)
  | held (lease : L)
  | denied (reason : DriverReason)
  deriving DecidableEq

inductive LeaseStatus (L : Type) where
  | pending
  | granted (lease : L)
  | submitted (lease : L)
  deriving DecidableEq

def LeaseStatus.lease? {L : Type} : LeaseStatus L → Option L
  | pending => none
  | granted lease => some lease
  | submitted lease => some lease

inductive TerminalStatus where
  | failed
  | cancelled
  | released
  deriving DecidableEq

structure LeaseRequest (I L : Type) where
  requestId : String
  identity : I
  status : LeaseStatus L := .pending
  future : ℕ
  deriving DecidableEq

structure Tombstone (I L G : Type) where
  identity : I
  status : TerminalStatus
  result : LeaseAnswer L G
  deriving DecidableEq

abbrev leaseRequestReplayCapacity : ℕ := 65536

class Leasable (I : Type) (J : outParam Type) where
  queryId : I → String
  resource : I → J

structure RequestBook (I J L G : Type) [DecidableEq J] where
  active : Table (LeaseRequest.requestId (I := I) (L := L)) := ∅
  tombstones : ReplayMap String (Tombstone I L G) leaseRequestReplayCapacity := {}
  owners : Dict (String × J) String := ∅
  futures : Dict ℕ (Option (LeaseAnswer L G)) := ∅
  futuresCreated : ℕ := 0

namespace RequestBook

variable {I J L G : Type} [DecidableEq J] [Leasable I J] (book : RequestBook I J L G)

open Leasable

def owner (identity : I) : String × J := (queryId identity, resource identity)

def complete (future : ℕ) (answer : LeaseAnswer L G) : RequestBook I J L G :=
  match book.futures.find? future with
  | some none => { book with futures := book.futures.insert future (some answer) }
  | _ => book

def retire (state : LeaseRequest I L) (result : LeaseAnswer L G)
    (status : TerminalStatus) : RequestBook I J L G :=
  let book := book.complete state.future result
  { book with
    active := book.active.remove state.requestId
    tombstones := book.tombstones.set state.requestId ⟨state.identity, status, result⟩
    owners :=
      if book.owners.find? (owner state.identity) = some state.requestId then
        book.owners.erase (owner state.identity)
      else
        book.owners }

def pending (query : String) : List (LeaseRequest I L) :=
  book.active.values.filter fun state => state.status.lease?.isNone ∧ queryId state.identity = query

def failPending (query : String) : RequestBook I J L G :=
  (book.pending query).foldl (fun book state => book.retire state (.denied .queryNotRegistered)
    .failed) book

def dropQuery (query : String) : RequestBook I J L G :=
  { book with
    active := book.active.filter (queryId ·.identity ≠ query)
    tombstones := book.tombstones.discardWhere (queryId ·.identity = query)
    owners := book.owners.filterKeys (·.1 ≠ query) }

end RequestBook

inductive RawResources where
  | vector (resources : ResourceVector)
  | other (text : String)
  deriving DecidableEq

structure TaskIdentity where
  request : TaskRequest
  resources : RawResources
  deriving DecidableEq

instance : Leasable TaskIdentity (String × String) where
  queryId identity := identity.request.queryId
  resource identity := (identity.request.taskId, identity.request.attemptId)

instance : Leasable OutputBlockRequest String where
  queryId request := request.queryId
  resource request := request.blockId

abbrev TaskBook := RequestBook TaskIdentity (String × String) TaskLease TaskGrant

abbrev OutputBook := RequestBook OutputBlockRequest String OutputBlockLease OutputBlockGrant

structure AdmissionState where
  managers : Dict String QueryResourceManager := ∅
  closingQueries : List String := []
  tasks : TaskBook := {}
  outputs : OutputBook := {}

open QueryResourceManager (Call Answer)

namespace AdmissionState

def getQueryResourceManager (s : AdmissionState) (queryId : String) :
    Except PyError QueryResourceManager :=
  if Text.strip queryId = "" then
    .error (.valueError "query_id must be non-empty")
  else
    match s.managers.find? (Text.strip queryId) with
    | some m => .ok m
    | none => .error (.keyError ("query graph is not registered: " ++ Text.strip queryId))

section Calls

variable (uuid : String → UuidSource)

@[irreducible]
def callManager (queryId : String) (call : Call) : Py AdmissionState Answer := do
  let m ← Py.read (·.getQueryResourceManager queryId)
  let (result, m) := call.exec (uuid (Text.strip queryId)) m
  Py.modify fun s => { s with managers := s.managers.insert (Text.strip queryId) m }
  Py.lift result

def callIfRegistered (queryId : String) (calls : List Call) : Py AdmissionState Unit :=
  (Py.forEach calls fun call => do
    let _ ← callManager uuid queryId call
    return ⟨⟩).exceptKeyError (pure ⟨⟩)

def closeQueryResourceAdmission (queryId : String) : Py AdmissionState Unit := do
  callIfRegistered uuid queryId [.closeAdmission]
  Py.modify fun s => { s with
    closingQueries := if queryId ∈ s.closingQueries then s.closingQueries
      else s.closingQueries ++ [queryId]
    tasks := (s.tasks.failPending queryId).dropQuery queryId
    outputs := (s.outputs.failPending queryId).dropQuery queryId }

end Calls

end AdmissionState

end Vane
