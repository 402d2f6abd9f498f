import Wamux.Runs.Failing
import Wamux.Quotes.Relay

namespace Wamux.Proof.Quotes
open Wamux.Quotes Wamux.Runs.Failing Wamux.Runs.Canonical
open Wamux.Protobuf (Bytes)

variable {LibJid Message : Type} {lib : Library LibJid Message}
  {quote : Option Pb.QuoteContext} {key : Pb.MessageKey} {message : Bytes} {destination : Pb.Jid} {reply : String}

/-! ## Jids -/

def SameJid (lib : Library LibJid Message) (first second : Pb.Jid) : Prop :=
  Same (Jid.parse lib) first.value second.value

def given (jid : Option Pb.Jid) : Option Pb.Jid := jid.filter (·.value ≠ "")

theorem parse_nonempty {value : String} {jid : Jid LibJid} (parsed : Jid.parse lib value = .ok jid) : value ≠ "" := by
  rintro rfl
  cases parsed

theorem tryFrom_eq_ok {wire : Pb.Jid} {jid : Jid LibJid} :
    Jid.tryFrom lib wire = .ok jid ↔ Jid.parse lib wire.value = .ok jid := mapError_eq_ok

theorem fromOptionalWire_eq_none {wire : Option Pb.Jid} (parsed : Jid.fromOptionalWire lib wire = .ok none) :
    given wire = none := by
  cases wire with
  | none => rfl
  | some wire =>
      by_cases nonempty : wire.value ≠ ""
      · simp [Jid.fromOptionalWire, nonempty, map_eq_ok] at parsed
      · simp [given, Option.filter, nonempty]

theorem fromOptionalWire_eq_some {wire : Option Pb.Jid} {jid : Jid LibJid}
    (parsed : Jid.fromOptionalWire lib wire = .ok (some jid)) :
    ∃ text, given wire = some text ∧ Jid.parse lib text.value = .ok jid := by
  cases wire with
  | none => cases parsed
  | some wire =>
      by_cases nonempty : wire.value ≠ ""
      · simp only [Jid.fromOptionalWire, if_pos nonempty, map_eq_ok, Option.some.injEq, exists_eq_right] at parsed
        exact ⟨wire, by simp [given, Option.filter, nonempty], parsed⟩
      · simp [Jid.fromOptionalWire, nonempty] at parsed

theorem fromOptionalWire_given {wire : Pb.Jid} {jid : Jid LibJid} (parsed : Jid.parse lib wire.value = .ok jid) :
    Jid.fromOptionalWire lib (some wire) = .ok (some jid) := by
  simp [Jid.fromOptionalWire, parse_nonempty parsed, parsed, Except.map]

theorem relayJid_nonempty {value : String} (nonempty : value ≠ "") : relayJid value = some ⟨value⟩ := if_pos nonempty

section Printed
variable (roundTrips : RoundTrips (Jid.parse lib) (Jid.toString lib))
include roundTrips

theorem relayJid_toString {text : String} {jid : Jid LibJid} (parsed : Jid.parse lib text = .ok jid) :
    relayJid (jid.toString lib) = some ⟨jid.toString lib⟩ :=
  relayJid_nonempty (parse_nonempty (roundTrips text jid parsed))

theorem relayed_optional {wire : Option Pb.Jid} {jid : Option (Jid LibJid)}
    (parsed : Jid.fromOptionalWire lib wire = .ok jid) :
    Option.Rel (SameJid lib) (given wire) (relayJid ((jid.map (Jid.toString lib)).getD "")) := by
  cases jid with
  | none =>
      rw [fromOptionalWire_eq_none parsed]
      exact .none
  | some jid =>
      obtain ⟨text, asked, parsed⟩ := fromOptionalWire_eq_some parsed
      rw [asked]
      simp only [Option.map_some, Option.getD_some, relayJid_toString roundTrips parsed]
      exact .some (Same.printed roundTrips parsed)

end Printed

/-! ## What was asked -/

def askedParticipant (quote : Option Pb.QuoteContext) (key : Pb.MessageKey) : Option Pb.Jid :=
  (given (quote.bind (·.participant))).or (given key.participant)

def askedChat (key : Pb.MessageKey) (destination : Pb.Jid) : Pb.Jid := (given key.chat).getD destination

theorem given_given (wire : Option Pb.Jid) : given (given wire) = given wire := by
  cases wire with
  | none => rfl
  | some wire => by_cases empty : wire.value = "" <;> simp [given, Option.filter, empty]

theorem given_askedParticipant (quote : Option Pb.QuoteContext) (key : Pb.MessageKey) :
    given (askedParticipant quote key) = askedParticipant quote key := by
  rw [askedParticipant]
  cases own : given (quote.bind (·.participant)) with
  | none => exact given_given key.participant
  | some text => rw [Option.some_or, ← own, given_given]

theorem fromOptionalWire_of_given (wire : Option Pb.Jid) :
    Jid.fromOptionalWire lib (given wire) = Jid.fromOptionalWire lib wire := by
  cases wire with
  | none => rfl
  | some wire => by_cases empty : wire.value = "" <;> simp [given, Option.filter, Jid.fromOptionalWire, empty]

theorem participantOf_asked {participant : Option (Jid LibJid)} (ran : participantOf lib quote key = .ok participant) :
    Jid.fromOptionalWire lib (askedParticipant quote key) = .ok participant := by
  simp only [participantOf, bind_eq_ok] at ran
  obtain ⟨own, parsed, ran⟩ := ran
  cases own with
  | none =>
      rw [askedParticipant, fromOptionalWire_eq_none parsed, Option.none_or, fromOptionalWire_of_given]
      exact ran
  | some own =>
      cases ran
      obtain ⟨text, asked, -⟩ := fromOptionalWire_eq_some parsed
      rw [askedParticipant, asked, Option.some_or, ← asked, fromOptionalWire_of_given, parsed]

theorem remoteChatOf_asked [DecidableEq LibJid] {remote : Option (Jid LibJid)} {chat : Jid LibJid}
    (valid : Jid.parse lib destination.value = .ok chat) (ran : remoteChatOf lib key (some destination) = .ok remote) :
    Jid.parse lib (askedChat key destination).value = .ok (remote.getD chat) := by
  simp only [remoteChatOf, bind_eq_ok] at ran
  obtain ⟨quoted, parsed, ran⟩ := ran
  cases quoted with
  | none =>
      cases ran
      rw [askedChat, fromOptionalWire_eq_none parsed]
      exact valid
  | some quoted =>
      obtain ⟨text, asked, parsed⟩ := fromOptionalWire_eq_some parsed
      rw [askedChat, asked, Option.getD_some, parsed]
      simp only [fromOptionalWire_given valid, Except.toOption, Option.join_some, pure_eq_ok] at ran
      subst ran
      by_cases same : chat = quoted <;> simp [same]

/-! ## What goes out -/

def Decodes (lib : Library LibJid Message) (message : Bytes) : Prop := message = [] ∨ ∃ decoded, lib.decode message = .ok decoded

structure Relayed (lib : Library LibJid Message) (quoted : QuotedRef LibJid) (info : ContextInfo Message) : Prop where
  stanzaId : info.stanzaId = some quoted.id.text
  participant : info.participant = quoted.participant.map (Jid.toString lib)
  remoteJid : info.remoteJid = quoted.remoteChat.map (Jid.toString lib)

theorem copyQuote_ok (info : ContextInfo Message) {quoted : QuotedRef LibJid} (decodes : Decodes lib quoted.message) :
    ∃ info', copyQuote lib info quoted = .ok info' := by
  by_cases empty : quoted.message = []
  · simp [copyQuote, empty, pure, Except.pure]
  · obtain ⟨decoded, ran⟩ := decodes.resolve_left empty
    simp [copyQuote, decodeQuotedMessage, ran, empty, Except.mapError, pure, Except.pure, bind, Except.bind]

theorem copyQuote_relayed {info info' : ContextInfo Message} {quoted : QuotedRef LibJid}
    (ran : copyQuote lib info quoted = .ok info') :
    Relayed lib quoted info' ∧ info'.mentionedJid = info.mentionedJid ∧ Decodes lib quoted.message := by
  by_cases empty : quoted.message = []
  · simp only [copyQuote, empty, ne_eq, not_true_eq_false, if_false, pure_eq_ok] at ran
    subst ran
    exact ⟨⟨rfl, rfl, rfl⟩, rfl, .inl empty⟩
  · simp only [copyQuote, ne_eq, empty, not_false_eq_true, if_true, bind_eq_ok, decodeQuotedMessage, mapError_eq_ok,
      pure_eq_ok] at ran
    obtain ⟨decoded, ran, rfl⟩ := ran
    exact ⟨⟨rfl, rfl, rfl⟩, rfl, .inr ⟨decoded, ran⟩⟩

variable {context : OutgoingContext LibJid} {quoted : QuotedRef LibJid} {field : Option (ContextInfo Message)}

theorem outgoingContext_ok [DecidableEq Message] (has : context.quote = some quoted) (decodes : Decodes lib quoted.message) :
    ∃ field, outgoingContext lib context = .ok field := by
  obtain ⟨info, ran⟩ := copyQuote_ok { mentionedJid := context.mentions.map (Jid.toString lib) } decodes
  exact ⟨_, by simp only [outgoingContext, has, ran]; rfl⟩

theorem outgoingContext_relayed [DecidableEq Message] (has : context.quote = some quoted) (ran : outgoingContext lib context = .ok field) :
    ∃ info, field = some info ∧ Relayed lib quoted info ∧ info.mentionedJid = context.mentions.map (Jid.toString lib) ∧
      Decodes lib quoted.message := by
  simp only [outgoingContext, has, bind_eq_ok, pure_eq_ok] at ran
  obtain ⟨info, copied, rfl⟩ := ran
  obtain ⟨relayed, mentions, decodes⟩ := copyQuote_relayed copied
  have nonempty : { info with expiration := nonzeroU32 context.ephemeralSeconds } ≠ ({} : ContextInfo Message) := by
    intro empty
    have absent : info.stanzaId = none := congrArg ContextInfo.stanzaId empty
    rw [relayed.stanzaId] at absent
    cases absent
  rw [if_neg nonempty]
  exact ⟨_, rfl, ⟨relayed.stanzaId, relayed.participant, relayed.remoteJid⟩, mentions, decodes⟩

theorem outgoingContext_plain [DecidableEq Message] (lib : Library LibJid Message) (reply : String) (plain : context.quote = none) :
    ∃ field, outgoingContext lib context = .ok field ∧ field.bind (quoteOf · reply) = none ∧
      (field.map (·.mentionedJid)).getD [] = context.mentions.map (Jid.toString lib) := by
  simp only [outgoingContext, plain, bind, Except.bind, pure, Except.pure, Except.ok.injEq, exists_eq_left']
  split
  · rename_i empty
    exact ⟨rfl, (congrArg ContextInfo.mentionedJid empty).symm⟩
  · exact ⟨rfl, rfl⟩

/-! ## What comes back -/

def SameMention (lib : Library LibJid Message) (asked read : Pb.Mention) : Prop :=
  Option.Rel (SameJid lib) asked.jid read.jid

structure Echoes (lib : Library LibJid Message) (quote : Option Pb.QuoteContext) (key : Pb.MessageKey) (destination : Pb.Jid)
    (read : Pb.QuoteContext) : Prop where
  quoted : ∃ key', read.quoted = some key' ∧ key'.id = key.id ∧ key'.participant = read.participant ∧
    Option.Rel (SameJid lib) (some (askedChat key destination)) key'.chat
  participant : Option.Rel (SameJid lib) (askedParticipant quote key) read.participant

theorem fromProto_quoted [DecidableEq LibJid] {context : OutgoingContext LibJid} {mentions : List Pb.Mention} {seconds : UInt32}
    (has : quote.bind (·.quoted) = some key)
    (accepted : OutgoingContext.fromProto lib mentions quote message seconds (some destination) = .ok context) :
    ∃ quoted, context.quote = some quoted ∧ quoted.id.text = key.id ∧ quoted.message = message ∧
      participantOf lib quote key = .ok quoted.participant ∧
      remoteChatOf lib key (some destination) = .ok quoted.remoteChat := by
  simp only [OutgoingContext.fromProto, QuotedRef.fromProto, has, bind_eq_ok, pure_eq_ok] at accepted
  obtain ⟨parsed, -, quoted, accepted, rfl⟩ := accepted
  by_cases empty : key.id = ""
  · rw [if_pos empty] at accepted
    cases accepted
  · simp only [if_neg empty, bind_eq_ok, pure_eq_ok, MessageId.new, dif_neg empty, Except.ok.injEq, exists_eq_left'] at accepted
    obtain ⟨participant, own, remote, chat, rfl⟩ := accepted
    exact ⟨_, rfl, rfl, rfl, own, chat⟩

theorem fromProto_plain [DecidableEq LibJid] {context : OutgoingContext LibJid} {mentions : List Pb.Mention} {seconds : UInt32}
    (plain : quote.bind (·.quoted) = none)
    (accepted : OutgoingContext.fromProto lib mentions quote message seconds (some destination) = .ok context) :
    context.quote = none ∧ message = [] := by
  simp only [OutgoingContext.fromProto, QuotedRef.fromProto, plain, bind_eq_ok, pure_eq_ok, refuseOrphanQuotedMessage] at accepted
  obtain ⟨parsed, -, quoted, accepted, rfl⟩ := accepted
  by_cases empty : message = []
  · rw [if_pos empty] at accepted
    cases accepted
    exact ⟨rfl, empty⟩
  · rw [if_neg empty] at accepted
    cases accepted

theorem fromProto_mentions [DecidableEq LibJid] {context : OutgoingContext LibJid} {mentions : List Pb.Mention} {seconds : UInt32}
    (accepted : OutgoingContext.fromProto lib mentions quote message seconds (some destination) = .ok context) :
    List.Forall₂ (fun mention jid => ∃ wire, mention.jid = some wire ∧ Jid.parse lib wire.value = .ok jid) mentions
      context.mentions := by
  simp only [OutgoingContext.fromProto, bind_eq_ok, pure_eq_ok] at accepted
  obtain ⟨parsed, ran, quoted, -, rfl⟩ := accepted
  refine (mapM_eq_ok ran).imp fun mention jid parsed => ?_
  have parsed := tryFrom_eq_ok.1 parsed
  cases wire : mention.jid with
  | none =>
      rw [wire] at parsed
      exact absurd rfl (parse_nonempty parsed)
  | some jid =>
      rw [wire] at parsed
      exact ⟨jid, rfl, parsed⟩

section Read
variable (roundTrips : RoundTrips (Jid.parse lib) (Jid.toString lib))
include roundTrips

theorem mentions_read {mentions : List Pb.Mention} {jids : List (Jid LibJid)} (info : ContextInfo Message)
    (parsed : List.Forall₂ (fun mention jid => ∃ wire, mention.jid = some wire ∧ Jid.parse lib wire.value = .ok jid) mentions jids)
    (relayed : info.mentionedJid = jids.map (Jid.toString lib)) :
    List.Forall₂ (SameMention lib) mentions (mentionsOf info) := by
  rw [mentionsOf, relayed]
  induction parsed generalizing info with
  | nil => exact .nil
  | @cons mention jid mentions jids first _ ih =>
      obtain ⟨wire, asked, parsed⟩ := first
      rw [List.map_cons, List.filterMap_cons_some (relayJid_toString roundTrips parsed), List.map_cons]
      refine .cons ?_ (ih { mentionedJid := jids.map (Jid.toString lib) } rfl)
      rw [SameMention, asked]
      exact .some (Same.printed roundTrips parsed)

theorem quote_read [DecidableEq LibJid] {quoted : QuotedRef LibJid} {info : ContextInfo Message}
    (same : Same (Jid.parse lib) destination.value reply) (relayed : Relayed lib quoted info) (id : quoted.id.text = key.id)
    (participant : participantOf lib quote key = .ok quoted.participant)
    (remote : remoteChatOf lib key (some destination) = .ok quoted.remoteChat) :
    ∃ read, quoteOf info reply = some read ∧ Echoes lib quote key destination read := by
  obtain ⟨chat, valid, read⟩ := same
  have own := relayed_optional roundTrips (participantOf_asked participant)
  rw [given_askedParticipant, ← relayed.participant] at own
  refine ⟨_, by rw [quoteOf, relayed.stanzaId]; rfl, ⟨_, rfl, id, rfl, ?_⟩, own⟩
  have asked := remoteChatOf_asked valid remote
  rw [relayed.remoteJid]
  cases other : quoted.remoteChat with
  | none =>
      rw [other] at asked
      have text : relayJid reply = some ⟨reply⟩ := relayJid_nonempty (parse_nonempty read)
      simp only [Option.map_none, Option.filter_none, Option.getD_none, text]
      exact .some ⟨chat, asked, read⟩
  | some remoteChat =>
      rw [other, Option.getD_some] at asked
      have printed := roundTrips _ _ asked
      simp only [Option.map_some, Option.filter_some, parse_nonempty printed, ne_eq, not_false_eq_true, decide_true, if_true,
        Option.getD_some, relayJid_toString roundTrips asked]
      exact .some ⟨remoteChat, asked, printed⟩

end Read

theorem quote_survives [DecidableEq LibJid] [DecidableEq Message] (lib : Library LibJid Message)
    (roundTrips : RoundTrips (Jid.parse lib) (Jid.toString lib)) (mentions : List Pb.Mention) (quote : Option Pb.QuoteContext)
    (message : Bytes) (seconds : UInt32) (destination : Pb.Jid) (reply : String)
    (same : Same (Jid.parse lib) destination.value reply) (context : OutgoingContext LibJid)
    (accepted : OutgoingContext.fromProto lib mentions quote message seconds (some destination) = .ok context) :
    ((∃ field, outgoingContext lib context = .ok field) ↔ message = [] ∨ ∃ decoded, lib.decode message = .ok decoded) ∧
    ∀ field, outgoingContext lib context = .ok field →
      List.Forall₂ (SameMention lib) mentions ((field.map mentionsOf).getD []) ∧
      (quote.bind (·.quoted) = none → field.bind (quoteOf · reply) = none) ∧
      ∀ key, quote.bind (·.quoted) = some key →
        ∃ read, field.bind (quoteOf · reply) = some read ∧ Echoes lib quote key destination read := by
  cases has : quote.bind (·.quoted) with
  | none =>
      obtain ⟨plain, empty⟩ := fromProto_plain has accepted
      obtain ⟨field, ran, nothing, relayed⟩ := outgoingContext_plain lib reply plain
      refine ⟨⟨fun _ => .inl empty, fun _ => ⟨field, ran⟩⟩, fun field' ran' => ?_⟩
      obtain rfl : field = field' := Except.ok.inj (ran.symm.trans ran')
      refine ⟨?_, fun _ => nothing, fun key absent => by cases absent⟩
      have read := mentions_read roundTrips { mentionedJid := (field.map (·.mentionedJid)).getD [] } (fromProto_mentions accepted)
        relayed
      cases field with
      | none => exact read
      | some info => exact read
  | some key =>
      obtain ⟨quoted, quotes, id, payload, participant, remote⟩ := fromProto_quoted has accepted
      subst payload
      refine ⟨⟨fun ⟨field, ran⟩ => ?_, outgoingContext_ok quotes⟩, fun field ran => ?_⟩
      · obtain ⟨info, -, -, -, decodes⟩ := outgoingContext_relayed quotes ran
        exact decodes
      · obtain ⟨info, rfl, relayed, mentioned, -⟩ := outgoingContext_relayed quotes ran
        refine ⟨mentions_read roundTrips info (fromProto_mentions accepted) mentioned, (fun absent => by cases absent), ?_⟩
        rintro _ ⟨⟩
        exact quote_read roundTrips same relayed id participant remote

inductive Chat where
  | phone
  | group
  deriving DecidableEq

def phoneAndGroup : Library Chat String where
  fromStr text :=
    if text = "5511@s.whatsapp.net" ∨ text = "5511@c.us" then .ok .phone
    else if text = "1203@g.us" then .ok .group
    else .error "unknown server"
  display
    | .phone => "5511@s.whatsapp.net"
    | .group => "1203@g.us"
  decode bytes := if bytes = [10, 1, 65] then .ok "A" else .error "not a message"

def groupMessage : Pb.MessageKey where
  chat := some ⟨"1203@g.us"⟩
  id := "Q"
  fromMe := false
  participant := none

def privateReply : Pb.QuoteContext where
  quoted := some groupMessage
  participant := some ⟨"5511@c.us"⟩

def relayedReply : ContextInfo String where
  stanzaId := some "Q"
  participant := some "5511@s.whatsapp.net"
  quotedMessage := some "A"
  remoteJid := some "1203@g.us"

theorem quote_survives_private_reply :
    ∃ read, quoteOf relayedReply "5511@c.us" = some read ∧
      Echoes phoneAndGroup (some privateReply) groupMessage ⟨"5511@c.us"⟩ read := by
  have roundTrips : RoundTrips (Jid.parse phoneAndGroup) (Jid.toString phoneAndGroup) := by
    rintro text ⟨jid⟩ -
    cases jid <;> rfl
  have same : Same (Jid.parse phoneAndGroup) "5511@c.us" "5511@c.us" := ⟨⟨.phone⟩, rfl, rfl⟩
  obtain ⟨-, echoed⟩ := quote_survives phoneAndGroup roundTrips [] (some privateReply) [10, 1, 65] 0 ⟨"5511@c.us"⟩ "5511@c.us"
    same ⟨[], some ⟨⟨"Q", by decide⟩, some ⟨.phone⟩, some ⟨.group⟩, [10, 1, 65]⟩, 0⟩ rfl
  obtain ⟨-, -, read⟩ := echoed (some relayedReply) rfl
  exact read groupMessage rfl

end Wamux.Proof.Quotes
