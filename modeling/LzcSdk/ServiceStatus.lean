import LzcSdk.Error

/-!
# The status of local services

A `ServiceStatusRegistry` asks a device for the status of its services, for one name (`query`) or for several at once
(`queryMany`). The call is a parameter, for a request in the state of the device at the time.

**Asking for several names at once is the same as asking for each** (`query_many_batches`): of a device that answers
every name on its own, one request with every name once has for each name the status that a request for it alone has,
and no other status.
-/

namespace LzcSdk

open Outcome

/-! ## Requests and replies -/

/-- `local_service_state`. -/
inductive LocalServiceState where
  | Unknown
  | Available
  | Unavailable
  deriving DecidableEq, Repr

/-- `try_from`, where a number without a state is `Unknown`. -/
def LocalServiceState.ofNumber : Int32 → LocalServiceState
  | 1 => Available
  | 2 => Unavailable
  | _ => Unknown

structure LocalServiceStatus where
  state : Int32
  reason : String

structure QueryServiceStatusRequest where
  serviceName : List String

structure QueryServiceStatusReply where
  services : Std.HashMap String LocalServiceStatus

/-- Public service availability state used across device API versions. -/
inductive ServiceState where
  | Unknown
  | Available
  | Unavailable
  deriving DecidableEq, Repr

instance : Inhabited ServiceState := ⟨.Unknown⟩

/-- Availability and optional device-provided reason for a local service. -/
structure ServiceStatus where
  state : ServiceState
  reason : String
  deriving DecidableEq, Repr, Inhabited

def convertStatus (status : LocalServiceStatus) : ServiceStatus :=
  let state :=
    match LocalServiceState.ofNumber status.state with
    | .Available => ServiceState.Available
    | .Unavailable => .Unavailable
    | .Unknown => .Unknown
  ⟨state, status.reason⟩

/-- The code of `tonic` for a call that a server does not implement. -/
def UNIMPLEMENTED : Nat := 12

/-- The names that are not in `seen`, each once. -/
def uniqueNames : List String → Std.HashSet String → List String
  | [], _ => []
  | name :: names, seen =>
    if seen.contains name then uniqueNames names seen else name :: uniqueNames names (seen.insert name)

namespace ServiceStatusRegistry

section Query

variable {σ : Type} (queryServiceStatus : QueryServiceStatusRequest → σ → Except Nat QueryServiceStatusReply × σ)

/-- Query several services in one call after removing duplicate names. -/
def queryMany (serviceNames : List String) (w : σ) : Outcome SdkError (Std.HashMap String ServiceStatus) × σ :=
  match queryServiceStatus ⟨uniqueNames serviceNames ∅⟩ w with
  | (.error code, w) =>
    (err (if code = UNIMPLEMENTED then .serviceStatusUnsupported else .session (.grpcStatus code)), w)
  | (.ok response, w) => (ok (response.services.map fun _ status => convertStatus status), w)

/-- Query one service, `Unknown` when the device omits it. -/
def query (serviceName : String) (w : σ) : Outcome SdkError ServiceStatus × σ :=
  match queryMany queryServiceStatus [serviceName] w with
  | (ok statuses, w) => (ok (statuses.getD serviceName default), w)
  | (err e, w) => (err e, w)
  | (panicked, w) => (panicked, w)

/-- A device that answers every name on its own, in every state. -/
def Answers (status : String → Option LocalServiceStatus) : Prop :=
  ∀ names w, ∃ services w', queryServiceStatus ⟨names⟩ w = (.ok ⟨services⟩, w') ∧
    ∀ name, services[name]? = if name ∈ names then status name else none

end Query

/-! ## The names of a request -/

section Names

variable {names : List String} {seen : Std.HashSet String} {name : String}

theorem mem_uniqueNames : name ∈ uniqueNames names seen ↔ name ∈ names ∧ name ∉ seen := by
  induction names generalizing seen with
  | nil => simp [uniqueNames]
  | cons n names ih =>
    unfold uniqueNames
    split
    · rename_i hseen
      rw [ih, List.mem_cons]
      have hn : n ∈ seen := hseen
      constructor
      · rintro ⟨hmem, hnot⟩
        exact ⟨.inr hmem, hnot⟩
      · rintro ⟨rfl | hmem, hnot⟩
        · exact absurd hn hnot
        · exact ⟨hmem, hnot⟩
    · rename_i hseen
      have hn : n ∉ seen := hseen
      rw [List.mem_cons, List.mem_cons, ih, Std.HashSet.mem_insert, beq_iff_eq]
      by_cases heq : name = n
      · subst heq
        simp [hn]
      · simp [heq, Ne.symm heq]

/-- Every name of a request is there once. -/
theorem nodup_uniqueNames : (uniqueNames names seen).Nodup := by
  induction names generalizing seen with
  | nil => exact List.nodup_nil
  | cons n names ih =>
    unfold uniqueNames
    split
    · exact ih
    · refine List.nodup_cons.2 ⟨fun hmem => (mem_uniqueNames.1 hmem).2 ?_, ih⟩
      exact Std.HashSet.mem_insert_self

/-- The names keep their order. -/
theorem uniqueNames_sublist : (uniqueNames names seen).Sublist names := by
  induction names generalizing seen with
  | nil => exact List.Sublist.refl []
  | cons n names ih =>
    unfold uniqueNames
    split
    · exact ih.cons n
    · exact ih.cons_cons n

end Names

/-! ## Several names at once -/

section Batch

variable {σ : Type} {queryServiceStatus : QueryServiceStatusRequest → σ → Except Nat QueryServiceStatusReply × σ}
  {status : String → Option LocalServiceStatus}

/-- A device that answers every name on its own answers a request of some names. -/
theorem queryMany_of_answers (h : Answers queryServiceStatus status) (names : List String) (w : σ) :
    ∃ statuses, queryMany queryServiceStatus names w =
        (ok statuses, (queryServiceStatus ⟨uniqueNames names ∅⟩ w).2) ∧
      ∀ name, statuses[name]? = if name ∈ names then (status name).map convertStatus else none := by
  obtain ⟨services, w', hcall, hservices⟩ := h (uniqueNames names ∅) w
  refine ⟨services.map fun _ status => convertStatus status, by rw [queryMany, hcall], fun name => ?_⟩
  have hmem : name ∈ uniqueNames names ∅ ↔ name ∈ names := by simp [mem_uniqueNames]
  rw [Std.HashMap.getElem?_map, hservices, if_congr hmem rfl rfl]
  split <;> rfl

/-- A query for one name is that of its status. -/
theorem query_of_answers (h : Answers queryServiceStatus status) (name : String) (w : σ) :
    (query queryServiceStatus name w).1 = ok (((status name).map convertStatus).getD default) := by
  obtain ⟨statuses, hquery, hstatuses⟩ := queryMany_of_answers h [name] w
  rw [query, hquery]
  dsimp only
  rw [Std.HashMap.getD_eq_getD_getElem?, hstatuses, if_pos (List.mem_singleton_self name)]

/-- **Asking for several names at once is the same as asking for each.** Of a device that answers every name on its
own, one request with every name once has for each name the status that a query for it alone has, in any state, and for
no other name a status. -/
theorem query_many_batches (h : Answers queryServiceStatus status) (names : List String) (w : σ) :
    ∃ statuses unique, queryMany queryServiceStatus names w = (ok statuses, (queryServiceStatus ⟨unique⟩ w).2) ∧
      unique.Nodup ∧ unique.Sublist names ∧ (∀ name, name ∈ unique ↔ name ∈ names) ∧
      (∀ name ∈ statuses, name ∈ names) ∧
      ∀ name ∈ names, ∀ w', (query queryServiceStatus name w').1 = ok (statuses.getD name default) := by
  obtain ⟨statuses, hquery, hstatuses⟩ := queryMany_of_answers h names w
  refine ⟨statuses, uniqueNames names ∅, hquery, nodup_uniqueNames, uniqueNames_sublist, ?_, ?_, ?_⟩
  · intro name
    simp [mem_uniqueNames]
  · intro name hmem
    by_contra hnot
    have hnone := hstatuses name
    rw [if_neg hnot] at hnone
    rw [Std.HashMap.mem_iff_isSome_getElem?, hnone] at hmem
    exact absurd hmem Bool.false_ne_true
  · intro name hmem w'
    rw [query_of_answers h, Std.HashMap.getD_eq_getD_getElem?, hstatuses, if_pos hmem]

end Batch

/-- The services of a device that has one. -/
def photoServices : Std.HashMap String LocalServiceStatus := {("PhotoLibrary", ⟨2, "no permission"⟩)}

/-- A device with these services; it counts the requests. -/
def photoDevice (request : QueryServiceStatusRequest) (requests : Nat) : Except Nat QueryServiceStatusReply × Nat :=
  (.ok ⟨photoServices.filter fun name _ => name ∈ request.serviceName⟩, requests + 1)

theorem answers_photoDevice : Answers photoDevice fun name => photoServices[name]? := by
  intro names requests
  refine ⟨_, requests + 1, rfl, fun name => ?_⟩
  rw [Std.HashMap.getElem?_filter']
  by_cases hmem : name ∈ names
  · cases h : photoServices[name]? <;> simp [hmem, h]
  · simp [hmem]

/-- A service that is asked for twice, and one that the device does not have: one request has both. -/
theorem query_many_batches_photo :
    ∃ statuses, queryMany photoDevice ["PhotoLibrary", "FileHandler", "PhotoLibrary"] 0 = (ok statuses, 1) ∧
      (query photoDevice "PhotoLibrary" 1).1 = ok (statuses.getD "PhotoLibrary" default) ∧
      (query photoDevice "FileHandler" 2).1 = ok (statuses.getD "FileHandler" default) := by
  obtain ⟨statuses, unique, hmany, -, -, -, -, hsingle⟩ :=
    query_many_batches answers_photoDevice ["PhotoLibrary", "FileHandler", "PhotoLibrary"] 0
  exact ⟨statuses, hmany, hsingle _ (by decide) 1, hsingle _ (by decide) 2⟩

end ServiceStatusRegistry

end LzcSdk
