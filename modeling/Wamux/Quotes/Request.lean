import Wamux.Protobuf.Wire

namespace Wamux.Quotes
open Protobuf (Bytes)

/-! ## Messages of the wire -/

namespace Pb

structure Jid where
  value : String
  deriving DecidableEq

structure MessageKey where
  chat : Option Jid
  id : String
  fromMe : Bool
  participant : Option Jid
  deriving DecidableEq

structure QuoteContext where
  quoted : Option MessageKey
  participant : Option Jid
  deriving DecidableEq

structure Mention where
  jid : Option Jid
  deriving DecidableEq

end Pb

inductive WamuxError where
  | invalidArgument (message : String)
  deriving DecidableEq

structure Library (LibJid Message : Type) where
  fromStr : String → Except String LibJid
  display : LibJid → String
  decode : Bytes → Except String Message

variable {LibJid Message : Type} (lib : Library LibJid Message)

/-! ## Jids -/

structure Jid (LibJid : Type) where
  jid : LibJid
  deriving DecidableEq

namespace Jid

def parse (value : String) : Except WamuxError (Jid LibJid) :=
  if value = "" then .error (.invalidArgument "empty jid")
  else ((lib.fromStr value).map Jid.mk).mapError fun e => .invalidArgument s!"invalid jid '{value}': {e}"

def toString (jid : Jid LibJid) : String := lib.display jid.jid

def tryFrom (jid : Pb.Jid) : Except WamuxError (Jid LibJid) :=
  (parse lib jid.value).mapError fun
    | .invalidArgument message =>
        if message = "empty jid" then .invalidArgument "missing jid" else .invalidArgument message

def fromRequiredWire (jid : Option Pb.Jid) : Except WamuxError (Jid LibJid) := tryFrom lib (jid.getD ⟨""⟩)

def fromOptionalWire : Option Pb.Jid → Except WamuxError (Option (Jid LibJid))
  | some jid => if jid.value ≠ "" then (parse lib jid.value).map some else .ok none
  | none => .ok none

end Jid

/-- A value relayed as it is; an empty one is an unset field. -/
def relayJid (value : String) : Option Pb.Jid := if value ≠ "" then some ⟨value⟩ else none

structure MessageId where
  text : String
  nonempty : text ≠ ""
  deriving DecidableEq

def MessageId.new (value : String) : Except WamuxError MessageId :=
  if empty : value = "" then .error (.invalidArgument "empty message id") else .ok ⟨value, empty⟩

/-! ## The quote -/

structure QuotedRef (LibJid : Type) where
  id : MessageId
  participant : Option (Jid LibJid)
  remoteChat : Option (Jid LibJid)
  message : Bytes

structure OutgoingContext (LibJid : Type) where
  mentions : List (Jid LibJid)
  quote : Option (QuotedRef LibJid)
  ephemeralSeconds : UInt32

def refuseOrphanQuotedMessage (quotedMessage : Bytes) : Except WamuxError (Option (QuotedRef LibJid)) :=
  if quotedMessage = [] then .ok none
  else .error (.invalidArgument "quoted_message without a quote; set quote.quoted to the message it is")

/-- A destination that does not parse is none here. -/
def remoteChatOf [DecidableEq LibJid] (quotedKey : Pb.MessageKey) (destination : Option Pb.Jid) : Except WamuxError (Option (Jid LibJid)) := do
  match ← Jid.fromOptionalWire lib quotedKey.chat with
  | none => return none
  | some chat =>
      let destination := (Jid.fromOptionalWire lib destination).toOption.join
      return if destination ≠ some chat then some chat else none

/-- The context's own participant wins; the key's is the fallback. -/
def participantOf (quote : Option Pb.QuoteContext) (quotedKey : Pb.MessageKey) : Except WamuxError (Option (Jid LibJid)) := do
  match ← Jid.fromOptionalWire lib (quote.bind (·.participant)) with
  | some own => return some own
  | none => Jid.fromOptionalWire lib quotedKey.participant

def QuotedRef.fromProto [DecidableEq LibJid] (quote : Option Pb.QuoteContext) (quotedMessage : Bytes) (destination : Option Pb.Jid) :
    Except WamuxError (Option (QuotedRef LibJid)) :=
  match quote.bind (·.quoted) with
  | none => refuseOrphanQuotedMessage quotedMessage
  | some quotedKey =>
      if quotedKey.id = "" then
        .error (.invalidArgument "empty quote.quoted.id; expected the id of the quoted message")
      else do
        let participant ← participantOf lib quote quotedKey
        let id ← MessageId.new quotedKey.id
        let remoteChat ← remoteChatOf lib quotedKey destination
        return some ⟨id, participant, remoteChat, quotedMessage⟩

/-- Mentions first, in the order given, then the quote. -/
def OutgoingContext.fromProto [DecidableEq LibJid] (mentions : List Pb.Mention) (quote : Option Pb.QuoteContext) (quotedMessage : Bytes)
    (ephemeralSeconds : UInt32) (destination : Option Pb.Jid) : Except WamuxError (OutgoingContext LibJid) := do
  let mentions ← mentions.mapM fun mention => Jid.fromRequiredWire lib mention.jid
  let quote ← QuotedRef.fromProto lib quote quotedMessage destination
  return ⟨mentions, quote, ephemeralSeconds⟩

end Wamux.Quotes
