import Wamux.BlobCodec.Wire

namespace Wamux.BlobCodec
open Wamux.Encryption (Bytes)

inductive CodecError where
  | serialization (message : String)
  | validation (message : String)
  deriving DecidableEq, Repr

abbrev Fixed (n : Nat) := { bytes : Bytes // bytes.length = n }

/-- The library's types that a device holds, with the serializers it gives for them; an action of the
status privacy is one that its own reader accepts. -/
structure Wacore where
  PrivateKey : Type
  serialize : PrivateKey → Bytes
  serialize_length : ∀ key, (serialize key).length = 32
  deserialize : Bytes → Except String PrivateKey
  deserialize_serialize : ∀ key, deserialize (serialize key) = .ok key
  PublicKey : Type
  publicKeyBytes : PublicKey → Bytes
  publicKeyBytes_length : ∀ key, (publicKeyBytes key).length = 32
  fromDjbPublicKeyBytes : Bytes → Except String PublicKey
  fromDjb_publicKeyBytes : ∀ key, fromDjbPublicKeyBytes (publicKeyBytes key) = .ok key
  Server : Type
  asStr : Server → String
  tryFrom : String → Except String Server
  tryFrom_asStr : ∀ server, tryFrom (asStr server) = .ok server
  Account : Type
  accountToBytes : Account → Bytes
  accountFromBytes : Bytes → Except String Account
  account_inverse : ∀ account, accountFromBytes (accountToBytes account) = .ok account
  StatusPrivacyAction : Type
  statusPrivacyToBytes : StatusPrivacyAction → Bytes
  statusPrivacyFromBytes : Bytes → Except String StatusPrivacyAction
  statusPrivacy_inverse : ∀ action, statusPrivacyFromBytes (statusPrivacyToBytes action) = .ok action
  DeviceProps : Type
  deviceProps : DeviceProps
  ClientProfile : Type
  web : ClientProfile

section Device
variable (wacore : Wacore)

structure KeyPair where
  publicKey : wacore.PublicKey
  privateKey : wacore.PrivateKey

structure Jid where
  user : String
  server : wacore.Server
  agent : UInt8
  device : UInt16
  integrator : UInt16

structure CachedNoiseCert where
  key : Fixed 32
  notBefore : Int64
  notAfter : Int64

structure CachedServerCertChain where
  intermediate : CachedNoiseCert
  leaf : CachedNoiseCert
  signatureVerified : Bool

structure ServerClientExpiration where
  expiresAt : Int64
  version : UInt32 × UInt32 × UInt32

structure Device where
  pn : Option (Jid wacore)
  lid : Option (Jid wacore)
  registrationId : UInt32
  noiseKey : KeyPair wacore
  identityKey : KeyPair wacore
  signedPreKey : KeyPair wacore
  signedPreKeyId : UInt32
  signedPreKeySignature : Fixed 64
  advSecretKey : Fixed 32
  account : Option wacore.Account
  pushName : String
  appVersionPrimary : UInt32
  appVersionSecondary : UInt32
  appVersionTertiary : UInt32
  appVersionLastFetchedMs : Int64
  deviceProps : wacore.DeviceProps
  clientProfile : wacore.ClientProfile
  edgeRoutingInfo : Option Bytes
  propsHash : Option String
  nextPreKeyId : UInt32
  firstUnuploadPreKeyId : UInt32
  serverHasPrekeys : Bool
  nctSalt : Option Bytes
  nctSaltSyncSeen : Bool
  serverCertChain : Option CachedServerCertChain
  loginCounter : Int32
  lidMigrated : Bool
  lastSignedPreKeyRotationMs : Int64
  serverClientExpiration : Option ServerClientExpiration
  readReceiptsDisabled : Bool
  statusPrivacy : Option wacore.StatusPrivacyAction

end Device

variable {wacore : Wacore}

/-! ## Pieces -/

def wrongLength (field : String) (expected got : Nat) : CodecError :=
  .serialization (field ++ ": expected " ++ toString expected ++ " bytes, got " ++ toString got)

def fixedBytes (n : Nat) (field : String) (bytes : Bytes) : Except CodecError (Fixed n) :=
  if sized : bytes.length = n then .ok ⟨bytes, sized⟩ else .error (wrongLength field n bytes.length)

def decodeError (message : String) : CodecError := .serialization message

/-- `T::try_from(value)` for a `T` of `bits` bits. -/
def narrow {α : Type} (bits : Nat) (cast : UInt32 → α) (field : String) (value : UInt32) : Except CodecError α :=
  if value.toNat < 2 ^ bits then .ok (cast value)
  else .error (.validation (field ++ ": " ++ toString value.toNat ++ " out of range"))

def jidToWire (jid : Jid wacore) : JidWire where
  user := jid.user
  server := wacore.asStr jid.server
  agent := jid.agent.toUInt32
  device := jid.device.toUInt32
  integrator := jid.integrator.toUInt32

def jidFromWire (wacore : Wacore) (wire : JidWire) : Except CodecError (Jid wacore) := do
  let server ← (wacore.tryFrom wire.server).mapError fun e =>
    .validation ("jid.server '" ++ wire.server ++ "': " ++ e)
  return {
    user := wire.user
    server
    agent := ← narrow 8 UInt32.toUInt8 "jid.agent" wire.agent
    device := ← narrow 16 UInt32.toUInt16 "jid.device" wire.device
    integrator := ← narrow 16 UInt32.toUInt16 "jid.integrator" wire.integrator }

def keyPairLen : Nat := 64
def keyHalfLen : Nat := 32

def keyPairToBytes (pair : KeyPair wacore) : Bytes :=
  wacore.serialize pair.privateKey ++ wacore.publicKeyBytes pair.publicKey

def keyPairFromBytes (wacore : Wacore) (field : String) (bytes : Bytes) : Except CodecError (KeyPair wacore) :=
  if bytes.length ≠ keyPairLen then .error (wrongLength field keyPairLen bytes.length)
  else do
    let privateKey ← (wacore.deserialize (bytes.take keyHalfLen)).mapError fun e =>
      .validation (field ++ " private half: " ++ e)
    let publicKey ← (wacore.fromDjbPublicKeyBytes (bytes.drop keyHalfLen)).mapError fun e =>
      .validation (field ++ " public half: " ++ e)
    return { publicKey, privateKey }

def accountFromBytes (wacore : Wacore) (bytes : Bytes) : Except CodecError wacore.Account :=
  (wacore.accountFromBytes bytes).mapError .serialization

/-- Absent or undecodable is `none`. -/
def statusPrivacyFromBytes (wacore : Wacore) (bytes : Option Bytes) : Option wacore.StatusPrivacyAction :=
  bytes.bind fun bytes => (wacore.statusPrivacyFromBytes bytes).toOption

def certToWire (cert : CachedNoiseCert) : NoiseCert := ⟨cert.key.1, cert.notBefore, cert.notAfter⟩

def certFromWire (field : String) (wire : Option NoiseCert) : Except CodecError CachedNoiseCert :=
  match wire with
  | none => .error (.validation (field ++ ": missing"))
  | some wire => do return ⟨← fixedBytes 32 field wire.key, wire.notBefore, wire.notAfter⟩

def certChainToWire (chain : CachedServerCertChain) : ServerCertChain where
  intermediate := some (certToWire chain.intermediate)
  leaf := some (certToWire chain.leaf)
  signatureVerified := chain.signatureVerified

def certChainFromWire (wire : ServerCertChain) : Except CodecError CachedServerCertChain := do
  return {
    intermediate := ← certFromWire "server_cert_chain.intermediate" wire.intermediate
    leaf := ← certFromWire "server_cert_chain.leaf" wire.leaf
    signatureVerified := wire.signatureVerified }

def expirationToWire (expiration : ServerClientExpiration) : ServerClientExpirationWire where
  expiresAt := expiration.expiresAt
  versionPrimary := expiration.version.1
  versionSecondary := expiration.version.2.1
  versionTertiary := expiration.version.2.2

def expirationFromWire (wire : ServerClientExpirationWire) : ServerClientExpiration :=
  ⟨wire.expiresAt, wire.versionPrimary, wire.versionSecondary, wire.versionTertiary⟩

/-! ## `device.data` -/

def deviceToBlob (device : Device wacore) : DeviceBlob where
  pn := device.pn.map jidToWire
  lid := device.lid.map jidToWire
  registrationId := device.registrationId
  noiseKey := keyPairToBytes device.noiseKey
  identityKey := keyPairToBytes device.identityKey
  signedPreKey := keyPairToBytes device.signedPreKey
  signedPreKeyId := device.signedPreKeyId
  signedPreKeySignature := device.signedPreKeySignature.1
  advSecretKey := device.advSecretKey.1
  account := device.account.map wacore.accountToBytes
  pushName := device.pushName
  appVersionPrimary := device.appVersionPrimary
  appVersionSecondary := device.appVersionSecondary
  appVersionTertiary := device.appVersionTertiary
  appVersionLastFetchedMs := device.appVersionLastFetchedMs
  edgeRoutingInfo := device.edgeRoutingInfo
  propsHash := device.propsHash
  nextPreKeyId := device.nextPreKeyId
  firstUnuploadPreKeyId := device.firstUnuploadPreKeyId
  serverHasPrekeys := device.serverHasPrekeys
  nctSalt := device.nctSalt
  serverCertChain := device.serverCertChain.map certChainToWire
  loginCounter := device.loginCounter
  lidMigrated := device.lidMigrated
  lastSignedPreKeyRotationMs := device.lastSignedPreKeyRotationMs
  serverClientExpiration := device.serverClientExpiration.map expirationToWire
  readReceiptsDisabled := device.readReceiptsDisabled
  statusPrivacy := device.statusPrivacy.map wacore.statusPrivacyToBytes

def deviceFromBlob (wacore : Wacore) (blob : DeviceBlob) : Except CodecError (Device wacore) := do
  return {
    pn := ← blob.pn.mapM (jidFromWire wacore)
    lid := ← blob.lid.mapM (jidFromWire wacore)
    registrationId := blob.registrationId
    noiseKey := ← keyPairFromBytes wacore "device.noise_key" blob.noiseKey
    identityKey := ← keyPairFromBytes wacore "device.identity_key" blob.identityKey
    signedPreKey := ← keyPairFromBytes wacore "device.signed_pre_key" blob.signedPreKey
    signedPreKeyId := blob.signedPreKeyId
    signedPreKeySignature := ← fixedBytes 64 "device.signed_pre_key_signature" blob.signedPreKeySignature
    advSecretKey := ← fixedBytes 32 "device.adv_secret_key" blob.advSecretKey
    account := ← blob.account.mapM (accountFromBytes wacore)
    pushName := blob.pushName
    appVersionPrimary := blob.appVersionPrimary
    appVersionSecondary := blob.appVersionSecondary
    appVersionTertiary := blob.appVersionTertiary
    appVersionLastFetchedMs := blob.appVersionLastFetchedMs
    deviceProps := wacore.deviceProps
    clientProfile := wacore.web
    edgeRoutingInfo := blob.edgeRoutingInfo
    propsHash := blob.propsHash
    nextPreKeyId := blob.nextPreKeyId
    firstUnuploadPreKeyId := blob.firstUnuploadPreKeyId
    serverHasPrekeys := blob.serverHasPrekeys
    nctSalt := blob.nctSalt
    nctSaltSyncSeen := false
    serverCertChain := ← blob.serverCertChain.mapM certChainFromWire
    loginCounter := blob.loginCounter
    lidMigrated := blob.lidMigrated
    lastSignedPreKeyRotationMs := blob.lastSignedPreKeyRotationMs
    serverClientExpiration := blob.serverClientExpiration.map expirationFromWire
    readReceiptsDisabled := blob.readReceiptsDisabled
    statusPrivacy := statusPrivacyFromBytes wacore blob.statusPrivacy }

/-- The fields that are not stored, as a load restores them. -/
def restored (device : Device wacore) : Device wacore :=
  { device with deviceProps := wacore.deviceProps, clientProfile := wacore.web, nctSaltSyncSeen := false }

section Columns
variable (prost : Prost)

def encodeDevice (device : Device wacore) : Bytes := prost.deviceBlob.encodeToVec (deviceToBlob device)

def decodeDevice (wacore : Wacore) (bytes : Bytes) : Except CodecError (Device wacore) := do
  let blob ← (prost.deviceBlob.decode bytes).mapError decodeError
  deviceFromBlob wacore blob

/-! ## `app_state_versions.state_data` and `app_state_keys.key_data` -/

/-- A `HashMap`, in the order it happens to iterate in. -/
structure HashMap where
  entries : List (String × Bytes)
  distinct : (entries.map Prod.fst).Nodup

structure HashState where
  version : UInt64
  hash : Fixed 128
  indexValueMap : HashMap
  macMismatchFatal : Bool
  bootstrapped : Bool

def encodeHashState (state : HashState) : Bytes :=
  prost.hashState.encodeToVec {
    version := state.version
    hash := state.hash.1
    indexValueMap := .collect state.indexValueMap.entries
    macMismatchFatal := state.macMismatchFatal
    bootstrapped := state.bootstrapped }

def decodeHashState (bytes : Bytes) : Except CodecError HashState := do
  let wire ← (prost.hashState.decode bytes).mapError decodeError
  return {
    version := wire.version
    hash := ← fixedBytes 128 "hash_state.hash" wire.hash
    indexValueMap := ⟨wire.indexValueMap.entries, wire.indexValueMap.distinct⟩
    macMismatchFatal := wire.macMismatchFatal
    bootstrapped := wire.bootstrapped }

structure AppStateSyncKey where
  keyData : Bytes
  fingerprint : Bytes
  timestamp : Int64
  deriving DecidableEq

def appStateKeyLen : Nat := 32

def encodeAppStateSyncKey (key : AppStateSyncKey) : Bytes :=
  prost.syncKey.encodeToVec ⟨key.keyData, key.fingerprint, key.timestamp⟩

def decodeAppStateSyncKey (bytes : Bytes) : Except CodecError AppStateSyncKey := do
  let wire ← (prost.syncKey.decode bytes).mapError decodeError
  if wire.keyData.length ≠ appStateKeyLen then
    .error (wrongLength "app_state_sync_key.key_data" appStateKeyLen wire.keyData.length)
  else return ⟨wire.keyData, wire.fingerprint, wire.timestamp⟩

end Columns

end Wamux.BlobCodec
