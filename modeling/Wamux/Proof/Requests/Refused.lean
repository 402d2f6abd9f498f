import Wamux.Proof.Requests.Layers

namespace Wamux.Proof.Requests
open Wamux.Requests Wamux.Runs

variable {known : KnownMethods} {allowlist : PeerAllowlist} {transport : Transport} {s : ServerState}

def Insider (allowlist : PeerAllowlist) (peer : Option Peer) : Prop :=
  (allowlist.uids = [] ∧ allowlist.gids = []) ∨ ∃ who, peer = some who ∧ (who.uid ∈ allowlist.uids ∨ who.gid ∈ allowlist.gids)

theorem admits_iff {peer : Option Peer} : allowlist.admits peer = true ↔ Insider allowlist peer := by
  rw [PeerAllowlist.admits, Insider]
  split
  · rename_i open'
    rw [Bool.and_eq_true, List.isEmpty_iff, List.isEmpty_iff] at open'
    exact iff_of_true rfl (.inl open')
  · rename_i closed
    rw [Bool.and_eq_true, List.isEmpty_iff, List.isEmpty_iff] at closed
    rw [or_iff_right closed]
    cases peer with
    | none => exact iff_of_false Bool.false_ne_true (by rintro ⟨who, here, -⟩; cases here)
    | some who =>
        rw [Option.any_some, Bool.or_eq_true, List.contains_iff_mem, List.contains_iff_mem]
        constructor
        · intro named
          exact ⟨who, rfl, named⟩
        · rintro ⟨_, ⟨⟩, named⟩
          exact named

/-! ## Labels of codes -/

def Code.label : Code → String
  | .ok => "ok"
  | .cancelled => "cancelled"
  | .unknown => "unknown"
  | .invalidArgument => "invalid_argument"
  | .deadlineExceeded => "deadline_exceeded"
  | .notFound => "not_found"
  | .alreadyExists => "already_exists"
  | .permissionDenied => "permission_denied"
  | .resourceExhausted => "resource_exhausted"
  | .failedPrecondition => "failed_precondition"
  | .aborted => "aborted"
  | .outOfRange => "out_of_range"
  | .unimplemented => "unimplemented"
  | .internal => "internal"
  | .unavailable => "unavailable"
  | .dataLoss => "data_loss"
  | .unauthenticated => "unauthenticated"

theorem codeName_number (code : Code) : codeName (some (toString code.number)) = Code.label code := by
  cases code <;> rfl

theorem codeName_intoHttp (status : Status) : codeName (grpcStatus (transport.intoHttp status)) = Code.label status.code := by
  rw [transport.carries, codeName_number]

/-! ## The gate -/

variable {request : Request}

structure Treated (allowlist : PeerAllowlist) (transport : Transport) (request : Request) : Prop where
  served : request.answerer = .service ↔ Insider allowlist request.peer
  silent : ¬Insider allowlist request.peer → request.frames = []
  refusal : ¬Insider allowlist request.peer → (request.phase matches .answered _ | .dropped _) →
    request.headers = transport.intoHttp ⟨.permissionDenied, "peer not allowed", none, none⟩
  counted : ¬Insider allowlist request.peer → ∀ line, request.phase = .dropped line → line.grpcStatus = "permission_denied"

def waiting (request : Request) : Bool := request.phase matches .called _ _

/-- Which answers a state has steps for: the service's to a waiting insider, the refusal to any other
request that waits. -/
structure Answers (known : KnownMethods) (allowlist : PeerAllowlist) (transport : Transport) (s : ServerState) : Prop where
  respond : ∀ id headers, (Server.step known allowlist transport s (.respond id headers)).isSome = true ↔
    ∃ request, s.requests[id]? = some request ∧ waiting request = true ∧ Insider allowlist request.peer
  refuse : ∀ id, (Server.step known allowlist transport s (.refuse id)).isSome = true ↔
    ∃ request, s.requests[id]? = some request ∧ waiting request = true ∧ ¬Insider allowlist request.peer

theorem Gated.service_iff (gated : Gated allowlist transport request) :
    request.answerer = .service ↔ Insider allowlist request.peer :=
  gated.admitted.trans admits_iff

theorem Gated.allowlist_iff (gated : Gated allowlist transport request) :
    request.answerer = .allowlist ↔ ¬Insider allowlist request.peer := by
  rw [← gated.service_iff]
  cases request.answerer <;> simp

theorem respond_isSome {id : Nat} {headers : HeaderMap} :
    (request.step transport (.respond id headers)).isSome = true ↔ waiting request = true ∧ request.answerer = .service := by
  rw [Request.step, waiting]
  cases request.phase <;> cases request.answerer <;> simp

theorem refuse_isSome {id : Nat} :
    (request.step transport (.refuse id)).isSome = true ↔ waiting request = true ∧ request.answerer = .allowlist := by
  rw [Request.step, waiting]
  cases request.phase <;> cases request.answerer <;> simp

theorem step_isSome {event : Event} {id : Nat} (own : event.id? = some id) :
    (Server.step known allowlist transport s event).isSome = true ↔
      ∃ request, s.requests[id]? = some request ∧ (request.step transport event).isSome = true := by
  cases event with
  | call path peer => cases own
  | respond _ headers | refuse _ | abandon _ | pollFrame _ frame | drop _ =>
      cases own
      simp only [Server.step, Event.id?, Option.bind_eq_bind, Option.bind_some]
      cases s.requests[id]? with
      | none => simp
      | some request => simp [Option.isSome_bind, Option.isSome_iff_exists]

theorem answers (inv : Inv known allowlist transport s) : Answers known allowlist transport s where
  respond id headers := by
    rw [step_isSome rfl]
    refine exists_congr fun request => and_congr_right fun here => ?_
    rw [respond_isSome, (inv.gated request (List.mem_of_getElem? here)).service_iff]
  refuse id := by
    rw [step_isSome rfl]
    refine exists_congr fun request => and_congr_right fun here => ?_
    rw [refuse_isSome, (inv.gated request (List.mem_of_getElem? here)).allowlist_iff]

theorem treated (inv : Inv known allowlist transport s) (listed : request ∈ s.requests) :
    Treated allowlist transport request := by
  have gated := inv.gated request listed
  have follows := inv.follows request listed
  have outside := gated.allowlist_iff.2
  refine ⟨gated.service_iff, fun outsider => gated.silent (outside outsider),
    fun outsider => gated.refusal (outside outsider), ?_⟩
  intro outsider line dropped
  rw [Follows, dropped] at follows
  have headers := gated.refusal (outside outsider) (by rw [dropped])
  have silent := gated.silent (outside outsider)
  rw [follows, ObservedBody.line, observing, silent, headers, finalStatus_nil, codeName_intoHttp]
  rfl

/-- In every run the service answers exactly the peers the lists let in; to any other peer the
response is the one refusal, without a body, and it counts as `permission_denied`. -/
theorem only_insiders_served (reaches : (Server.machine known allowlist transport).Reaches Machine.Free s) :
    (∀ request ∈ s.requests, Treated allowlist transport request) ∧ Answers known allowlist transport s :=
  have inv := inv_of_reaches reaches
  ⟨fun _ listed => treated inv listed, answers inv⟩

/-! ## A served request beside a refused one -/

def codeDigits (code : Code) : List UInt8 := (toString code.number).toList.map fun digit => UInt8.ofNat digit.toNat

theorem toStr_codeDigits (code : Code) : toStr (codeDigits code) = some (toString code.number) := by
  cases code <;> decide +kernel

def plainHttp (status : Status) : HeaderMap := [("grpc-status", codeDigits status.code)]

theorem plainHttp_carries (status : Status) : grpcStatus (plainHttp status) = some (toString status.code.number) := by
  rw [grpcStatus, plainHttp, List.lookup_cons_self, Option.bind_some, toStr_codeDigits]

def plain : Transport := ⟨plainHttp, plainHttp_carries⟩

def listAccounts : KnownMethods := .fromDescriptorSet [⟨"wamux.v1", [⟨"AccountService", ["ListAccounts"]⟩]⟩]

/-- A listed peer's call ends in `not_found`; a made-up path from root is refused; a third call is given up. -/
def beside : List Event :=
  [.call "/wamux.v1.AccountService/ListAccounts" (some ⟨1000, 1000⟩), .call "/x" (some ⟨0, 0⟩), .respond 0 [], .refuse 1,
    .pollFrame 0 .data, .call "/x" (some ⟨1000, 1000⟩), .drop 1, .pollFrame 0 (.trailers (plainHttp ⟨.notFound, "", none, none⟩)),
    .abandon 2, .drop 0]

def gated : Machine ServerState Event := Server.machine listAccounts ⟨[1000], []⟩ plain

theorem beside_reaches : ∃ s, gated.Reaches Machine.Free s ∧
    s.recorder.lines = [⟨"unknown", some "/x", some 0, "permission_denied"⟩,
      ⟨"wamux.v1.AccountService/ListAccounts", none, some 1000, "not_found"⟩] ∧
    s.requests.length = 3 := by
  obtain ⟨s, reaches, passes⟩ := Machine.reaches_of_replay (m := gated) Machine.free_sound
    (fun s => decide (s.recorder.lines = [⟨"unknown", some "/x", some 0, "permission_denied"⟩,
      ⟨"wamux.v1.AccountService/ListAccounts", none, some 1000, "not_found"⟩] ∧ s.requests.length = 3))
    beside (by decide +kernel)
  exact ⟨s, reaches, of_decide_eq_true passes⟩

theorem only_insiders_served_beside : ∃ s, gated.Reaches Machine.Free s ∧ s.requests.length = 3 ∧
    (∀ request ∈ s.requests, Treated ⟨[1000], []⟩ plain request) ∧ Answers listAccounts ⟨[1000], []⟩ plain s := by
  obtain ⟨s, reaches, -, three⟩ := beside_reaches
  exact ⟨s, reaches, three, only_insiders_served reaches⟩

end Wamux.Proof.Requests
