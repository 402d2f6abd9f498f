import Mathlib.Data.List.Basic

namespace Wamux.Requests

inductive Code where
  | ok | cancelled | unknown | invalidArgument | deadlineExceeded | notFound | alreadyExists | permissionDenied
  | resourceExhausted | failedPrecondition | aborted | outOfRange | unimplemented | internal | unavailable
  | dataLoss | unauthenticated
  deriving DecidableEq

def Code.number : Code → Nat
  | .ok => 0
  | .cancelled => 1
  | .unknown => 2
  | .invalidArgument => 3
  | .deadlineExceeded => 4
  | .notFound => 5
  | .alreadyExists => 6
  | .permissionDenied => 7
  | .resourceExhausted => 8
  | .failedPrecondition => 9
  | .aborted => 10
  | .outOfRange => 11
  | .unimplemented => 12
  | .internal => 13
  | .unavailable => 14
  | .dataLoss => 15
  | .unauthenticated => 16

structure Status where
  code : Code
  message : String
  waCode : Option String := none
  waText : Option String := none
  deriving DecidableEq

inductive WamuxError where
  | accountNotFound (id : String)
  | notFound (message : String)
  | notConnected
  | invalidArgument (message : String)
  | failedPrecondition (message : String)
  | resourceExhausted (message : String)
  | peerNotAllowed (uid gid : Option UInt32)
  | store (cause : String)
  | client (cause : String)
  | waServer (code : UInt16) (text : String)
  | other (cause : String)

/-- `MetadataValue::try_from` on ASCII text: what an HTTP header may carry. -/
def metadataValue (text : String) : Option String :=
  if text.toList.all fun c => (32 ≤ c.toNat && c.toNat < 127) || c = '\t' then some text else none

def isAscii (text : String) : Bool := text.toList.all fun c => c.toNat < 128

def waServerStatus (code : UInt16) (text message : String) : Status where
  code := match code with
    | 400 => .invalidArgument
    | 401 => .unauthenticated
    | 403 => .permissionDenied
    | 404 => .notFound
    | 405 => .permissionDenied
    | 429 => .resourceExhausted
    | _ => .unavailable
  message := message
  waCode := metadataValue (toString code)
  waText := if isAscii text then metadataValue text else none

def waServerMessage (code : UInt16) (text : String) : String :=
  "whatsapp server rejected the request: code=" ++ toString code ++ ", text='" ++ text ++ "'"

/-- `From<WamuxError> for Status` -/
def WamuxError.status : WamuxError → Status
  | .accountNotFound id => ⟨.notFound, "account " ++ id ++ " not found", none, none⟩
  | .notFound message => ⟨.notFound, message, none, none⟩
  | .notConnected => ⟨.failedPrecondition, "account is not connected", none, none⟩
  | .invalidArgument message => ⟨.invalidArgument, message, none, none⟩
  | .failedPrecondition message => ⟨.failedPrecondition, message, none, none⟩
  | .resourceExhausted message => ⟨.resourceExhausted, message, none, none⟩
  | .peerNotAllowed _ _ => ⟨.permissionDenied, "peer not allowed", none, none⟩
  | .store _ | .other _ => ⟨.internal, "internal error", none, none⟩
  | .client _ => ⟨.unavailable, "whatsapp operation failed", none, none⟩
  | .waServer code text => waServerStatus code text (waServerMessage code text)

/-! ## The library's errors -/

/-- One error of a cause chain, by the types `client_err` asks for; a context or any other type is `plain`. -/
inductive Cause where
  | serverErrorCode (code : UInt16) (text : String)
  | clientIq (code : UInt16) (text : String)
  | wacoreIq (code : UInt16) (text : String)
  | descriptionConflict
  | graphQl (code : Int32) (message : String)
  | invalidPoll (reason : String)
  | invalidRequest (reason : String)
  | plain (text : String)
  deriving DecidableEq

variable (display : Cause → String)

def asU16 (code : Int32) : Option UInt16 :=
  if 0 ≤ code.toInt ∧ code.toInt < 65536 then some (UInt16.ofNat code.toInt.toNat) else none

def mexServerRejection : Cause → Option (UInt16 × String)
  | .graphQl code message => (asU16 code).map fun code => (code, message)
  | _ => none

def iqServerRejection : Cause → Option (UInt16 × String)
  | .serverErrorCode code text | .clientIq code text | .wacoreIq code text => some (code, text)
  | .descriptionConflict => some (409, display .descriptionConflict)
  | cause => mexServerRejection cause

def invalidRequestMessage : Cause → Option String
  | .invalidPoll reason => some (display (.invalidPoll reason))
  | .invalidRequest reason => some (display (.invalidRequest reason))
  | _ => none

/-- `client_err`: the chain from the outermost error in. -/
def clientErr (chain : List Cause) : WamuxError :=
  match chain.findSome? (iqServerRejection display) with
  | some (code, text) => .waServer code text
  | none => match chain.findSome? (invalidRequestMessage display) with
    | some reason => .invalidArgument reason
    | none => .client (": ".intercalate (chain.map display))

end Wamux.Requests
