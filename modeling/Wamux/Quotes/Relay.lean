import Wamux.Quotes.Request

namespace Wamux.Quotes
open Protobuf (Bytes)

structure ContextInfo (Message : Type) where
  stanzaId : Option String := none
  participant : Option String := none
  quotedMessage : Option Message := none
  remoteJid : Option String := none
  mentionedJid : List String := []
  expiration : Option UInt32 := none
  deriving DecidableEq

variable {LibJid Message : Type} (lib : Library LibJid Message)

/-! ## Going out -/

def nonzeroU32 (value : UInt32) : Option UInt32 := if value > 0 then some value else none

def decodeQuotedMessage (bytes : Bytes) : Except WamuxError Message :=
  (lib.decode bytes).mapError fun err =>
    .invalidArgument s!"quoted_message is not a serialized wa.Message ({bytes.length} bytes): {err}"

def copyQuote (info : ContextInfo Message) (quote : QuotedRef LibJid) : Except WamuxError (ContextInfo Message) := do
  let info := { info with
    stanzaId := some quote.id.text
    participant := quote.participant.map (Jid.toString lib)
    remoteJid := quote.remoteChat.map (Jid.toString lib) }
  if quote.message ≠ [] then
    let message ← decodeQuotedMessage lib quote.message
    return { info with quotedMessage := some message }
  else return info

/-- A context with nothing in it is the unset field. -/
def outgoingContext [DecidableEq Message] (context : OutgoingContext LibJid) : Except WamuxError (Option (ContextInfo Message)) := do
  let info : ContextInfo Message := { mentionedJid := context.mentions.map (Jid.toString lib) }
  let info ← match context.quote with
    | some quote => copyQuote lib info quote
    | none => pure info
  let info := { info with expiration := nonzeroU32 context.ephemeralSeconds }
  return if info = {} then none else some info

/-! ## Coming back -/

def mentionsOf (ci : ContextInfo Message) : List Pb.Mention :=
  (ci.mentionedJid.filterMap relayJid).map fun jid => ⟨some jid⟩

/-- The quoted message's chat is the reply's when the context names none. -/
def quoteOf (ci : ContextInfo Message) (replyChat : String) : Option Pb.QuoteContext :=
  ci.stanzaId.map fun stanzaId =>
    let participant := relayJid (ci.participant.getD "")
    let quotedChat := ci.remoteJid.filter (· ≠ "")
    { quoted := some {
        chat := relayJid (quotedChat.getD replyChat)
        id := stanzaId
        fromMe := false
        participant := participant }
      participant := participant }

end Wamux.Quotes
