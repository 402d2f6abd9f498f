import Wamux.Requests.Errors
import Wamux.Runs.Tally

namespace Wamux.Requests
open Runs

/-! ## Methods -/

structure ServiceDescriptor where
  name : String
  method : List String

structure FileDescriptor where
  package : String
  service : List ServiceDescriptor

def REFLECTION_METHOD : String := "grpc.reflection.v1.ServerReflection/ServerReflectionInfo"

def UNKNOWN_LABEL : String := "unknown"

def LOGGED_PATH_MAX_CHARS : Nat := 128

/-- A method's path holds a `/`, so none is the label of the unknown ones. -/
structure KnownMethods where
  methods : List String
  slash : ∀ method ∈ methods, '/' ∈ method.toList

def methodPath (package service method : String) : String := package ++ "." ++ service ++ "/" ++ method

def FileDescriptor.paths (file : FileDescriptor) : List String :=
  file.service.flatMap fun service => service.method.map (methodPath file.package service.name)

def servedMethods (set : List FileDescriptor) : List String := REFLECTION_METHOD :: set.flatMap FileDescriptor.paths

theorem slash_of_served (set : List FileDescriptor) (method : String) (served : method ∈ servedMethods set) :
    '/' ∈ method.toList := by
  rcases List.mem_cons.1 served with rfl | served
  · decide
  · obtain ⟨file, -, listed⟩ := List.mem_flatMap.1 served
    obtain ⟨service, -, listed⟩ := List.mem_flatMap.1 listed
    obtain ⟨name, -, rfl⟩ := List.mem_map.1 listed
    simp [methodPath]

def KnownMethods.fromDescriptorSet (set : List FileDescriptor) : KnownMethods := ⟨servedMethods set, slash_of_served set⟩

/-- `strip_prefix('/')`, or the path itself -/
def stripSlash (path : String) : String := match path.toList with
  | '/' :: method => String.ofList method
  | _ => path

def KnownMethods.label (known : KnownMethods) (path : String) : String :=
  if stripSlash path ∈ known.methods then stripSlash path else UNKNOWN_LABEL

/-- The label, and for an unknown method only the path cut for the log. -/
def KnownMethods.labelRequest (known : KnownMethods) (path : String) : String × Option String :=
  let method := known.label path
  (method, if method = UNKNOWN_LABEL then some (String.ofList (path.toList.take LOGGED_PATH_MAX_CHARS)) else none)

/-! ## Responses -/

abbrev HeaderMap := List (String × List UInt8)

def toStr (value : List UInt8) : Option String :=
  if value.all fun byte => (32 ≤ byte && byte < 127) || byte = 9 then
    some (String.ofList (value.map fun byte => Char.ofNat byte.toNat))
  else none

def grpcStatus (headers : HeaderMap) : Option String := (headers.lookup "grpc-status").bind toStr

/-- Canonical name of a `grpc-status`; none at all is a success. -/
def codeName : Option String → String
  | none | some "0" => "ok"
  | some "1" => "cancelled"
  | some "2" => "unknown"
  | some "3" => "invalid_argument"
  | some "4" => "deadline_exceeded"
  | some "5" => "not_found"
  | some "6" => "already_exists"
  | some "7" => "permission_denied"
  | some "8" => "resource_exhausted"
  | some "9" => "failed_precondition"
  | some "10" => "aborted"
  | some "11" => "out_of_range"
  | some "12" => "unimplemented"
  | some "13" => "internal"
  | some "14" => "unavailable"
  | some "15" => "data_loss"
  | some "16" => "unauthenticated"
  | some _ => "unknown"

inductive Frame where
  | data
  | trailers (headers : HeaderMap)
  | error

structure ObservedBody where
  method : String
  rawPath : Option String
  peerUid : Option UInt32
  status : Option String

/-- `poll_frame`, when the inner body gives a frame. -/
def ObservedBody.polled (body : ObservedBody) : Frame → ObservedBody
  | .trailers headers => { body with status := grpcStatus headers }
  | .data | .error => body

/-! ## The recorder -/

structure Line where
  method : String
  path : Option String
  peerUid : Option UInt32
  grpcStatus : String
  deriving DecidableEq

structure Recorder where
  /-- `wamux_grpc_requests_total` by method and status: a series is there from its first increment. -/
  requestsTotal : Tally (String × String) := ∅
  lines : List Line := []

def ObservedBody.line (body : ObservedBody) : Line := ⟨body.method, body.rawPath, body.peerUid, codeName body.status⟩

/-- `Drop for ObservedBody` -/
def Recorder.record (recorder : Recorder) (line : Line) : Recorder where
  requestsTotal := Tally.increment recorder.requestsTotal (line.method, line.grpcStatus)
  lines := recorder.lines ++ [line]

end Wamux.Requests
