import Wamux.Requests.Observe
import Wamux.Runs.Transition

/-!
# Requests through the server's layers

Each request meets the observing layer, then the allowlist, then the service. Requests run side by
side; a response is polled frame by frame and dropped when it is sent or the client goes away.
-/

namespace Wamux.Requests
open Runs

structure Peer where
  uid : UInt32
  gid : UInt32
  deriving DecidableEq

structure PeerAllowlist where
  uids : List UInt32
  gids : List UInt32

def PeerAllowlist.admits (allowlist : PeerAllowlist) (peer : Option Peer) : Bool :=
  if allowlist.uids.isEmpty && allowlist.gids.isEmpty then true
  else peer.any fun peer => allowlist.uids.contains peer.uid || allowlist.gids.contains peer.gid

/-- `PeerAllowlistService::call`, for a peer it does not admit. -/
def peerDenied (peer : Option Peer) : WamuxError := .peerNotAllowed (peer.map (·.uid)) (peer.map (·.gid))

/-- `Status::into_http`: the headers of a response without a body. -/
structure Transport where
  intoHttp : Status → HeaderMap
  carries : ∀ status, grpcStatus (intoHttp status) = some (toString status.code.number)

inductive Answerer where
  | service
  | allowlist
  deriving DecidableEq

inductive Phase where
  /-- The inner future has not resolved. -/
  | called (method : String) (rawPath : Option String)
  | answered (body : ObservedBody)
  | dropped (line : Line)
  /-- The inner future failed or was dropped: there never was a body. -/
  | abandoned

structure Request where
  path : String
  peer : Option Peer
  answerer : Answerer
  phase : Phase
  /-- The response so far: its headers and the frames polled from it. -/
  headers : HeaderMap := []
  frames : List Frame := []

structure ServerState where
  requests : List Request := []
  recorder : Recorder := {}

inductive Event where
  | call (path : String) (peer : Option Peer)
  | respond (id : Nat) (headers : HeaderMap)
  | refuse (id : Nat)
  | abandon (id : Nat)
  | pollFrame (id : Nat) (frame : Frame)
  | drop (id : Nat)

variable (known : KnownMethods) (allowlist : PeerAllowlist) (transport : Transport)

/-- `RequestObserve::call` around `PeerAllowlistService::call` -/
def arriving (path : String) (peer : Option Peer) : Request where
  path := path
  peer := peer
  answerer := if allowlist.admits peer then .service else .allowlist
  phase := .called (known.labelRequest path).1 (known.labelRequest path).2

def Request.responded (request : Request) (headers : HeaderMap) (method : String) (rawPath : Option String) : Request :=
  { request with
    headers := headers
    phase := .answered ⟨method, rawPath, request.peer.map (·.uid), grpcStatus headers⟩ }

def Request.step (request : Request) : Event → Option (Request × Option Line)
  | .respond _ headers => match request.phase, request.answerer with
      | .called method rawPath, .service => some (request.responded headers method rawPath, none)
      | _, _ => none
  | .refuse _ => match request.phase, request.answerer with
      | .called method rawPath, .allowlist =>
          some (request.responded (transport.intoHttp (peerDenied request.peer).status) method rawPath, none)
      | _, _ => none
  | .abandon _ => match request.phase with
      | .called _ _ => some ({ request with phase := .abandoned }, none)
      | _ => none
  -- the body of a refusal is empty
  | .pollFrame _ frame => match request.phase, request.answerer with
      | .answered body, .service =>
          some ({ request with frames := request.frames ++ [frame], phase := .answered (body.polled frame) }, none)
      | _, _ => none
  | .drop _ => match request.phase with
      | .answered body => some ({ request with phase := .dropped body.line }, some body.line)
      | _ => none
  | .call _ _ => none

def Event.id? : Event → Option Nat
  | .call _ _ => none
  | .respond id _ | .refuse id | .abandon id | .pollFrame id _ | .drop id => some id

def ServerState.report (s : ServerState) (line : Option Line) : Recorder :=
  line.elim s.recorder s.recorder.record

namespace Server

def step (s : ServerState) (event : Event) : Option ServerState :=
  match event with
  | .call path peer => some { s with requests := s.requests ++ [arriving known allowlist path peer] }
  | event => do
      let id ← event.id?
      let request ← s.requests[id]?
      let (request, line) ← request.step transport event
      return { requests := s.requests.set id request, recorder := s.report line }

def machine : Machine ServerState Event := ⟨{}, step known allowlist transport⟩

end Server
end Wamux.Requests
