import Wamux.Requests.Server

namespace Wamux.Proof.Requests
open Wamux.Requests Wamux.Runs

variable {known : KnownMethods} {allowlist : PeerAllowlist} {transport : Transport}

/-! ## Responses -/

def trailers? : Frame → Option HeaderMap
  | .trailers headers => some headers
  | .data | .error => none

/-- The status of the last trailers, or of the headers when there were none. -/
def finalStatus (headers : HeaderMap) (frames : List Frame) : Option String :=
  grpcStatus ((frames.filterMap trailers?).getLastD headers)

@[simp] theorem finalStatus_nil (headers : HeaderMap) : finalStatus headers [] = grpcStatus headers := rfl

def observing (known : KnownMethods) (request : Request) : ObservedBody where
  method := known.label request.path
  rawPath := (known.labelRequest request.path).2
  peerUid := request.peer.map (·.uid)
  status := finalStatus request.headers request.frames

theorem observing_polled (request : Request) (frame : Frame) (phase : Phase) :
    (observing known request).polled frame =
      observing known { request with frames := request.frames ++ [frame], phase := phase } := by
  cases frame with
  | trailers headers =>
      have last : finalStatus request.headers (request.frames ++ [.trailers headers]) = grpcStatus headers := by
        simp [finalStatus, trailers?]
      rw [ObservedBody.polled, observing, observing, last]
  | data => simp [ObservedBody.polled, observing, finalStatus, trailers?]
  | error => simp [ObservedBody.polled, observing, finalStatus, trailers?]

/-! ## A request's own events -/

def line? (request : Request) : Option Line := match request.phase with
  | .dropped line => some line
  | _ => none

def Follows (known : KnownMethods) (request : Request) : Prop := match request.phase with
  | .called method rawPath => (method, rawPath) = known.labelRequest request.path ∧ request.frames = []
  | .answered body => body = observing known request
  | .dropped line => line = (observing known request).line
  | .abandoned => True

structure Gated (allowlist : PeerAllowlist) (transport : Transport) (request : Request) : Prop where
  admitted : request.answerer = .service ↔ allowlist.admits request.peer = true
  silent : request.answerer = .allowlist → request.frames = []
  refusal : request.answerer = .allowlist → (request.phase matches .answered _ | .dropped _) →
    request.headers = transport.intoHttp ⟨.permissionDenied, "peer not allowed", none, none⟩

variable {request request' : Request} {event : Event} {line : Option Line}

variable (known allowlist transport) in
theorem arriving_follows (path : String) (peer : Option Peer) :
    Follows known (arriving known allowlist path peer) ∧ Gated allowlist transport (arriving known allowlist path peer) ∧
      line? (arriving known allowlist path peer) = none := by
  refine ⟨⟨rfl, rfl⟩, ⟨?_, fun _ => rfl, ?_⟩, rfl⟩
  · rw [arriving]
    cases allowlist.admits peer <;> simp
  · intro _ answered
    cases answered

theorem responded_follows {headers : HeaderMap} {method : String} {rawPath : Option String}
    (called : request.phase = .called method rawPath) (follows : Follows known request) :
    Follows known (request.responded headers method rawPath) := by
  rw [Follows, called] at follows
  obtain ⟨labelled, fresh⟩ := follows
  show (⟨method, rawPath, _, _⟩ : ObservedBody) = observing known _
  have method : method = (known.labelRequest request.path).1 := congrArg Prod.fst labelled
  have rawPath : rawPath = (known.labelRequest request.path).2 := congrArg Prod.snd labelled
  rw [observing, Request.responded]
  simp only [fresh, finalStatus_nil, method, rawPath]
  rfl

structure Carried (known : KnownMethods) (allowlist : PeerAllowlist) (transport : Transport) (request request' : Request)
    (line : Option Line) : Prop where
  follows : Follows known request'
  gated : Gated allowlist transport request'
  before : line? request = none
  reported : line? request' = line

theorem request_step (follows : Follows known request) (gated : Gated allowlist transport request)
    (moved : request.step transport event = some (request', line)) :
    Carried known allowlist transport request request' line := by
  cases event with
  | call path peer => cases moved
  | respond id headers =>
      rw [Request.step] at moved
      split at moved
      · rename_i method rawPath called service
        cases moved
        refine ⟨responded_follows called follows, ⟨gated.admitted, gated.silent, ?_⟩, by rw [line?, called], rfl⟩
        intro refused
        rw [Request.responded, service] at refused
        cases refused
      · cases moved
  | refuse id =>
      rw [Request.step] at moved
      split at moved
      · rename_i method rawPath called refused
        cases moved
        exact ⟨responded_follows called follows, ⟨gated.admitted, gated.silent, fun _ _ => rfl⟩,
          by rw [line?, called], rfl⟩
      · cases moved
  | abandon id =>
      rw [Request.step] at moved
      split at moved
      · rename_i method rawPath called
        cases moved
        refine ⟨trivial, ⟨gated.admitted, gated.silent, ?_⟩, by rw [line?, called], rfl⟩
        intro _ answered
        cases answered
      · cases moved
  | pollFrame id frame =>
      rw [Request.step] at moved
      split at moved
      · rename_i body answered service
        cases moved
        rw [Follows, answered] at follows
        have polled : (observing known request).polled frame = _ := observing_polled request frame (.answered (body.polled frame))
        refine ⟨follows ▸ polled, ⟨gated.admitted, ?_, ?_⟩, by rw [line?, answered], rfl⟩
        · intro refused
          cases service.symm.trans refused
        · intro refused
          cases service.symm.trans refused
      · cases moved
  | drop id =>
      rw [Request.step] at moved
      split at moved
      · rename_i body answered
        cases moved
        rw [Follows, answered] at follows
        refine ⟨congrArg ObservedBody.line follows, ⟨gated.admitted, gated.silent, ?_⟩, by rw [line?, answered], rfl⟩
        intro refused _
        exact gated.refusal refused (by rw [answered])
      · cases moved

/-! ## Steps of the server -/

variable {s s' : ServerState}

inductive Moved (known : KnownMethods) (allowlist : PeerAllowlist) (transport : Transport) (s s' : ServerState) : Prop where
  | arrived (path : String) (peer : Option Peer)
      (after : s' = { s with requests := s.requests ++ [arriving known allowlist path peer] })
  | stepped (id : Nat) (event : Event) (request request' : Request) (line : Option Line)
      (here : s.requests[id]? = some request) (moved : request.step transport event = some (request', line))
      (after : s' = { requests := s.requests.set id request', recorder := s.report line })

theorem step_moved (moved : Server.step known allowlist transport s event = some s') :
    Moved known allowlist transport s s' := by
  have own (id : Nat) (event : Event)
      (moved : (s.requests[id]?).bind (fun request => (request.step transport event).bind fun stepped =>
        some { requests := s.requests.set id stepped.1, recorder := s.report stepped.2 }) = some s') :
      Moved known allowlist transport s s' := by
    simp only [Option.bind_eq_some_iff, Option.some.injEq] at moved
    obtain ⟨request, here, ⟨request', line⟩, stepped, after⟩ := moved
    exact .stepped id event request request' line here stepped after.symm
  cases event with
  | call path peer =>
      cases moved
      exact .arrived path peer rfl
  | respond id headers => exact own id _ moved
  | refuse id => exact own id _ moved
  | abandon id => exact own id _ moved
  | pollFrame id frame => exact own id _ moved
  | drop id => exact own id _ moved

structure Inv (known : KnownMethods) (allowlist : PeerAllowlist) (transport : Transport) (s : ServerState) : Prop where
  follows : ∀ request ∈ s.requests, Follows known request
  gated : ∀ request ∈ s.requests, Gated allowlist transport request
  lines : s.recorder.lines.Perm (s.requests.filterMap line?)
  total : s.recorder.requestsTotal = Tally.count (s.recorder.lines.map fun line => (line.method, line.grpcStatus))

theorem record_total {recorder : Recorder} (line : Line)
    (total : recorder.requestsTotal = Tally.count (recorder.lines.map fun line => (line.method, line.grpcStatus))) :
    (recorder.record line).requestsTotal =
      Tally.count ((recorder.record line).lines.map fun line => (line.method, line.grpcStatus)) := by
  rw [Recorder.record, List.map_append, List.map_singleton, Tally.count_concat, ← total]

theorem inv_step (inv : Inv known allowlist transport s) (moved : Moved known allowlist transport s s') :
    Inv known allowlist transport s' := by
  cases moved with
  | arrived path peer after =>
      subst after
      obtain ⟨follows, gated, silent⟩ := arriving_follows known allowlist transport path peer
      refine ⟨?_, ?_, ?_, inv.total⟩
      · intro request listed
        rcases List.mem_append.1 listed with before | new
        · exact inv.follows request before
        · exact List.mem_singleton.1 new ▸ follows
      · intro request listed
        rcases List.mem_append.1 listed with before | new
        · exact inv.gated request before
        · exact List.mem_singleton.1 new ▸ gated
      · rw [List.filterMap_append, List.filterMap_cons, silent, List.filterMap_nil, List.append_nil]
        exact inv.lines
  | stepped id event request request' line here moved after =>
      subst after
      have listed := List.mem_of_getElem? here
      have carried := request_step (inv.follows request listed) (inv.gated request listed) moved
      have reports := reports_set request' here carried.before
      rw [carried.reported] at reports
      refine ⟨?_, ?_, ?_, ?_⟩
      · intro other member
        rcases List.mem_or_eq_of_mem_set member with before | rfl
        · exact inv.follows other before
        · exact carried.follows
      · intro other member
        rcases List.mem_or_eq_of_mem_set member with before | rfl
        · exact inv.gated other before
        · exact carried.gated
      · cases line with
        | none => simpa [ServerState.report] using inv.lines.trans (by simpa using reports.symm)
        | some line => exact (inv.lines.append_right [line]).trans reports.symm
      · cases line with
        | none => exact inv.total
        | some line => exact record_total line inv.total

theorem inv_of_reaches (reaches : (Server.machine known allowlist transport).Reaches Machine.Free s) :
    Inv known allowlist transport s := by
  refine reaches.invariant (Inv known allowlist transport) ?_ fun _ _ _ inv _ moved => inv_step inv (step_moved moved)
  exact ⟨fun _ listed => absurd listed List.not_mem_nil, fun _ listed => absurd listed List.not_mem_nil, .refl _, rfl⟩

end Wamux.Proof.Requests
