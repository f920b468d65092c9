import LzcSdk.Auth.Injection

/-!
# Metadata of a request

`with_real_uid` appends a user to the metadata of a request. The users of a request go to the inner channel behind
those that it had, in order, together with the one token of the provider (`real_uids_forwarded`): neither header takes
the place of the other, and nothing else changes. The metadata are the headers of the HTTP request here: the gRPC client
that turns the one into the other, and drops the names that gRPC keeps for itself, is not in the repository.
-/

namespace LzcSdk

open Outcome Lts History

def REAL_UID_WIRE_KEY : HeaderName := "x-hc-user-id"

section Metadata

variable (isMetadataByte : UInt8 → Bool)

/-- `MetadataValue::try_from`: the bytes of the text, if an ASCII metadata value may have them. -/
def metadataValueTryFrom (text : String) : Option HeaderValue :=
  if (Text.bytes text).all isMetadataByte then some (Text.bytes text) else none

/-- Append the real user to the metadata of a request. -/
def withRealUid (request : Request) (uid : String) : Except SdkError Unit × Request :=
  if uid.isEmpty then (.ok (), request)
  else
    match metadataValueTryFrom isMetadataByte uid with
    | some value => (.ok (), { request with headers := request.headers.append REAL_UID_WIRE_KEY value })
    | none => (.error .invalidMetadataValue, request)

/-- The same for some users, one after another. -/
def withRealUids (request : Request) : List String → Request
  | [] => request
  | uid :: uids => withRealUids (withRealUid isMetadataByte request uid).2 uids

/-- The value that a user adds, if it is neither empty nor invalid. -/
def uidValue (uid : String) : Option HeaderValue :=
  if uid.isEmpty then none else metadataValueTryFrom isMetadataByte uid

/-- The values that some users add. -/
def uidValues (uids : List String) : List HeaderValue := uids.filterMap (uidValue isMetadataByte)

/-- A user adds its value, and changes nothing else. -/
theorem withRealUid_headers (request : Request) (uid : String) :
    (withRealUid isMetadataByte request uid).2.headers.getAll REAL_UID_WIRE_KEY =
      request.headers.getAll REAL_UID_WIRE_KEY ++ uidValues isMetadataByte [uid] ∧
    (withRealUid isMetadataByte request uid).2.headers.others REAL_UID_WIRE_KEY =
      request.headers.others REAL_UID_WIRE_KEY ∧
    (withRealUid isMetadataByte request uid).2.rest = request.rest := by
  unfold withRealUid uidValues
  by_cases hempty : uid.isEmpty
  · have hnone : uidValue isMetadataByte uid = none := if_pos hempty
    rw [if_pos hempty, List.filterMap_cons_none hnone]
    exact ⟨(List.append_nil _).symm, rfl, rfl⟩
  · have huid : uidValue isMetadataByte uid = metadataValueTryFrom isMetadataByte uid := if_neg hempty
    rw [if_neg hempty]
    cases hvalue : metadataValueTryFrom isMetadataByte uid with
    | none =>
      rw [List.filterMap_cons_none (huid.trans hvalue)]
      exact ⟨(List.append_nil _).symm, rfl, rfl⟩
    | some value =>
      rw [List.filterMap_cons_some (huid.trans hvalue)]
      exact ⟨Multimap.getAll_append _ _ _, Multimap.others_append _ _ _, rfl⟩

theorem withRealUids_headers : ∀ (uids : List String) (request : Request),
    (withRealUids isMetadataByte request uids).headers.getAll REAL_UID_WIRE_KEY =
      request.headers.getAll REAL_UID_WIRE_KEY ++ uidValues isMetadataByte uids ∧
    (withRealUids isMetadataByte request uids).headers.others REAL_UID_WIRE_KEY =
      request.headers.others REAL_UID_WIRE_KEY ∧
    (withRealUids isMetadataByte request uids).rest = request.rest
  | [], request => ⟨(List.append_nil _).symm, rfl, rfl⟩
  | uid :: uids, request => by
    obtain ⟨hvalues, hothers, hrest⟩ := withRealUid_headers isMetadataByte request uid
    obtain ⟨ihvalues, ihothers, ihrest⟩ := withRealUids_headers uids (withRealUid isMetadataByte request uid).2
    have hcons : uidValues isMetadataByte (uid :: uids) =
        uidValues isMetadataByte [uid] ++ uidValues isMetadataByte uids :=
      List.filterMap_append (l := [uid])
    refine ⟨?_, ihothers.trans hothers, ihrest.trans hrest⟩
    rw [withRealUids, ihvalues, hvalues, hcons, List.append_assoc]

end Metadata

/-! ## On the way to the inner channel -/

namespace TokenProvider

section Forwarded

variable {p : TokenProvider} {s : State} {t : Nat} {systemNow : SystemTime} {instantNow : Instant}
  {guard : State → Action → Prop} {request sent : Request}

/-- What goes to the inner channel is the request of the call with a token. -/
theorem inject_of_forwarded (hi : Inv p s) (hcalled : (t, .called (.request request)) ∈ s.log)
    (hsent : (t, .forwarded sent) ∈ s.log) : ∃ k, HasToken s.log t k ∧ p.inject request k = .ok sent := by
  obtain ⟨request', k, acquired, rest, hof, hk, hs, hrest⟩ := (hi.story t).of_forwarded (mem_of.2 hsent)
  have hmem : .called (.request request) ∈ acquired ++ .forwarded sent :: rest := hof ▸ mem_of.2 hcalled
  have hsame : request = request' := by
    rcases List.mem_append.1 hmem with hmem | hmem
    · cases hk <;> simpa using hmem
    · rcases List.mem_cons.1 hmem with hmem | hmem
      · cases hmem
      · cases hrest _ hmem
  subst hsame
  exact ⟨k, hasToken_of_acquires hk hof, hs⟩

/-- **The users of a request reach the inner channel.** A request that some users were appended to, and that got to the
inner channel in any run, has there the users that it had and the appended ones that are neither empty nor invalid, in
order; it has one token, that of its call; and the values of every other header and the rest are as the caller made
them. -/
theorem real_uids_forwarded {isMetadataByte : UInt8 → Bool} {uids : List String}
    (h : Reachable (step p) guard (init systemNow instantNow) s)
    (hcalled : (t, .called (.request (withRealUids isMetadataByte request uids))) ∈ s.log)
    (hsent : (t, .forwarded sent) ∈ s.log) :
    sent.headers.getAll REAL_UID_WIRE_KEY =
      request.headers.getAll REAL_UID_WIRE_KEY ++ uidValues isMetadataByte uids ∧
    (∃ k, HasToken s.log t k ∧ sent.headers.getAll AUTH_TOKEN_HEADER = [Text.bytes k.token]) ∧
    (∀ name, name ≠ REAL_UID_WIRE_KEY → name ≠ AUTH_TOKEN_HEADER →
      sent.headers.getAll name = request.headers.getAll name) ∧ sent.rest = request.rest := by
  obtain ⟨k, hk, hinject⟩ := inject_of_forwarded (inv_of_reachable h) hcalled hsent
  obtain ⟨htoken, hothers, hrest⟩ := carries_inject hinject
  obtain ⟨huids, hothers', hrest'⟩ := withRealUids_headers isMetadataByte uids request
  refine ⟨?_, ⟨k, hk, htoken⟩, fun name huid hname => ?_, hrest.trans hrest'⟩
  · rw [Multimap.getAll_of_others (by decide) hothers, huids]
  · rw [Multimap.getAll_of_others hname hothers, Multimap.getAll_of_others huid hothers']

/-- Two users are appended to a request that has one, and an empty one. -/
def userRequest : Request :=
  withRealUids visible ⟨⟨[(REAL_UID_WIRE_KEY, [97]), ("x-lzc-trace", [2])]⟩, [4]⟩ ["b", "", "c"]

/-- It has reached the inner channel. -/
def userForwarded : State :=
  Option.get (run (step ed25519Provider) (init (clockAt 0) (clockAt 5))
    [.call 0 (.request userRequest), .grant 0, .respond 0 (.ok minute)]) (by decide +kernel)

/-- The three users are there, in order. -/
theorem real_uids_forwarded_three : ∃ sent, (0, .forwarded sent) ∈ userForwarded.log ∧
    sent.headers.getAll REAL_UID_WIRE_KEY = [[97], Text.bytes "b", Text.bytes "c"] := by
  have hrun : Reachable (step ed25519Provider) anyStep (init (clockAt 0) (clockAt 5)) userForwarded :=
    .of_run (fun _ _ _ => trivial) (Option.some_get _).symm
  have hcalled : (0, .called (.request userRequest)) ∈ userForwarded.log := List.mem_of_mem_head? rfl
  have hsent : (0, .forwarded ⟨userRequest.headers.insert AUTH_TOKEN_HEADER (Text.bytes "token-1"), [4]⟩) ∈
      userForwarded.log := List.mem_of_getLast? rfl
  refine ⟨_, hsent, (real_uids_forwarded hrun hcalled hsent).1.trans ?_⟩
  decide

end Forwarded

end TokenProvider

end LzcSdk
