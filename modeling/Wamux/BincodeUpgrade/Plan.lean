import Wamux.BlobCodec.Codec

namespace Wamux.BincodeUpgrade
open Wamux.BlobCodec
open Wamux.Encryption (Bytes DeviceId)

/-- The causes are the texts of the libraries' errors. -/
inductive UpgradeError where
  | unreadable (row cause : String)
  | roundTrip (row cause : String)
  | unknownFormat (marker : String)
  | database (context : String)
  deriving DecidableEq, Repr

section Layout
variable (wacore : Wacore)

/-- The frozen layout that the legacy blobs of `device.data` were written in. -/
structure LegacyDevice where
  pn : Option (Jid wacore)
  lid : Option (Jid wacore)
  registrationId : UInt32
  noiseKey : KeyPair wacore
  identityKey : KeyPair wacore
  signedPreKey : KeyPair wacore
  signedPreKeyId : UInt32
  signedPreKeySignature : Fixed 32 × Fixed 32
  advSecretKey : Fixed 32
  account : Option wacore.Account
  pushName : String
  appVersionPrimary : UInt32
  appVersionSecondary : UInt32
  appVersionTertiary : UInt32
  appVersionLastFetchedMs : Int64
  edgeRoutingInfo : Option Bytes
  propsHash : Option String
  nextPreKeyId : UInt32
  firstUnuploadPreKeyId : UInt32
  serverHasPrekeys : Bool
  nctSalt : Option Bytes
  serverCertChain : Option CachedServerCertChain
  loginCounter : Int32
  lidMigrated : Bool
  lastSignedPreKeyRotationMs : Int64
  serverClientExpiration : Option ServerClientExpiration
  readReceiptsDisabled : Bool

variable {wacore}

def joinHalves (halves : Fixed 32 × Fixed 32) : Fixed 64 :=
  ⟨halves.1.1 ++ halves.2.1, by rw [List.length_append, halves.1.2, halves.2.2]⟩

/-- `impl From<LegacyDevice> for Device`. -/
def LegacyDevice.toDevice (old : LegacyDevice wacore) : Device wacore where
  pn := old.pn
  lid := old.lid
  registrationId := old.registrationId
  noiseKey := old.noiseKey
  identityKey := old.identityKey
  signedPreKey := old.signedPreKey
  signedPreKeyId := old.signedPreKeyId
  signedPreKeySignature := joinHalves old.signedPreKeySignature
  advSecretKey := old.advSecretKey
  account := old.account
  pushName := old.pushName
  appVersionPrimary := old.appVersionPrimary
  appVersionSecondary := old.appVersionSecondary
  appVersionTertiary := old.appVersionTertiary
  appVersionLastFetchedMs := old.appVersionLastFetchedMs
  deviceProps := wacore.deviceProps
  clientProfile := wacore.web
  edgeRoutingInfo := old.edgeRoutingInfo
  propsHash := old.propsHash
  nextPreKeyId := old.nextPreKeyId
  firstUnuploadPreKeyId := old.firstUnuploadPreKeyId
  serverHasPrekeys := old.serverHasPrekeys
  nctSalt := old.nctSalt
  nctSaltSyncSeen := false
  serverCertChain := old.serverCertChain
  loginCounter := old.loginCounter
  lidMigrated := old.lidMigrated
  lastSignedPreKeyRotationMs := old.lastSignedPreKeyRotationMs
  serverClientExpiration := old.serverClientExpiration
  readReceiptsDisabled := old.readReceiptsDisabled
  statusPrivacy := none

variable (wacore)

/-- The bincode library at the types of the three columns: a decoder answers with the value and how
many bytes it took. -/
structure Bincode where
  decodeLegacyDevice : Bytes → Except String (LegacyDevice wacore × Nat)
  decodeHashState : Bytes → Except String (HashState × Nat)
  decodeSyncKey : Bytes → Except String (AppStateSyncKey × Nat)
  /-- The current `Device`, without its `serde(skip)` fields. -/
  encodeDevice : Device wacore → Except String Bytes
  decodeDevice : Bytes → Except String (Device wacore × Nat)
  device_inverse : ∀ device bytes, encodeDevice device = .ok bytes →
    decodeDevice bytes = .ok (restored device, bytes.length)

/-- `blob_codec` as the upgrade uses it. That it is a round trip is not assumed. -/
structure Codec where
  encodeDevice : Device wacore → Bytes
  decodeDevice : Bytes → Except String (Device wacore)
  encodeHashState : HashState → Bytes
  decodeHashState : Bytes → Except String HashState
  encodeAppStateSyncKey : AppStateSyncKey → Bytes
  decodeAppStateSyncKey : Bytes → Except String AppStateSyncKey

def blobCodec (prost : Prost) (display : CodecError → String) : Codec wacore where
  encodeDevice := BlobCodec.encodeDevice prost
  decodeDevice bytes := (BlobCodec.decodeDevice prost wacore bytes).mapError display
  encodeHashState := BlobCodec.encodeHashState prost
  decodeHashState bytes := (BlobCodec.decodeHashState prost bytes).mapError display
  encodeAppStateSyncKey := BlobCodec.encodeAppStateSyncKey prost
  decodeAppStateSyncKey bytes := (BlobCodec.decodeAppStateSyncKey prost bytes).mapError display

end Layout

variable {wacore : Wacore} (codec : Codec wacore) (bincode : Bincode wacore)

/-! ## One blob -/

/-- A decode that leaves bytes over is refused. -/
def decodeWhole {α : Type} (decode : Bytes → Except String (α × Nat)) (blob : Bytes) (row : String) :
    Except UpgradeError α := do
  let (value, used) ← (decode blob).mapError (UpgradeError.unreadable row)
  if used ≠ blob.length then
    .error (.unreadable row ("trailing bytes: consumed " ++ toString used ++ " of " ++ toString blob.length))
  else return value

def decodeLegacyDevice (blob : Bytes) (row : String) : Except UpgradeError (Device wacore) := do
  let old ← decodeWhole bincode.decodeLegacyDevice blob row
  return old.toDevice

def encodeBincode (device : Device wacore) (row : String) : Except UpgradeError Bytes :=
  (bincode.encodeDevice device).mapError (UpgradeError.roundTrip row)

def upgradeDeviceBlob (blob : Bytes) (row : String) : Except UpgradeError Bytes := do
  let old ← decodeLegacyDevice bincode blob row
  let new := codec.encodeDevice old
  let back ← (codec.decodeDevice new).mapError (UpgradeError.roundTrip row)
  let backBytes ← encodeBincode bincode back row
  let oldBytes ← encodeBincode bincode old row
  if backBytes ≠ oldBytes then .error (.roundTrip row "a persisted field changed")
  else return new

def HashMap.eq (map map' : HashMap) : Bool :=
  map.entries.length = map'.entries.length ∧ ∀ entry ∈ map.entries, entry ∈ map'.entries

def sameHashState (back expected : HashState) : Bool :=
  back.version = expected.version ∧ back.hash = expected.hash ∧
    HashMap.eq back.indexValueMap expected.indexValueMap ∧
    back.macMismatchFatal = expected.macMismatchFatal ∧ back.bootstrapped = expected.bootstrapped

def upgradeHashStateBlob (blob : Bytes) (row : String) : Except UpgradeError Bytes := do
  let expected ← decodeWhole bincode.decodeHashState blob row
  let new := codec.encodeHashState expected
  let back ← (codec.decodeHashState new).mapError (UpgradeError.roundTrip row)
  if !sameHashState back expected then .error (.roundTrip row "a field changed")
  else return new

def upgradeSyncKeyBlob (blob : Bytes) (row : String) : Except UpgradeError Bytes := do
  let old ← decodeWhole bincode.decodeSyncKey blob row
  let new := codec.encodeAppStateSyncKey old
  let back ← (codec.decodeAppStateSyncKey new).mapError (UpgradeError.roundTrip row)
  if back ≠ old then .error (.roundTrip row "a field changed")
  else return new

/-! ## The whole store -/

structure BlobRows where
  devices : List (DeviceId × Bytes)
  versions : List (DeviceId × String × Bytes)
  syncKeys : List (DeviceId × Bytes × Bytes)
  deriving DecidableEq

abbrev LegacyBlobRows := BlobRows

abbrev BincodeUpgradePlan := BlobRows

def planDevice : DeviceId × Bytes → Except UpgradeError (DeviceId × Bytes)
  | (device, blob) => do
      return (device, ← upgradeDeviceBlob codec bincode blob ("device.data of device " ++ toString device))

def planVersion : DeviceId × String × Bytes → Except UpgradeError (DeviceId × String × Bytes)
  | (device, name, blob) => do
      let row := "app_state_versions '" ++ name ++ "' of device " ++ toString device
      return (device, name, ← upgradeHashStateBlob codec bincode blob row)

def planSyncKey : DeviceId × Bytes × Bytes → Except UpgradeError (DeviceId × Bytes × Bytes)
  | (device, keyId, blob) => do
      let row := "an app_state_keys row of device " ++ toString device
      return (device, keyId, ← upgradeSyncKeyBlob codec bincode blob row)

def planBincodeUpgrade (rows : LegacyBlobRows) : Except UpgradeError BincodeUpgradePlan := do
  return {
    devices := ← rows.devices.mapM (planDevice codec bincode)
    versions := ← rows.versions.mapM (planVersion codec bincode)
    syncKeys := ← rows.syncKeys.mapM (planSyncKey codec bincode) }

/-! ## The marker -/

def blobFormatBincode : String := "bincode"
def blobFormatProtobuf : String := "protobuf"

inductive StoreBlobFormat where
  | bincode | protobuf
  deriving DecidableEq, Repr

def parseBlobFormat (marker : String) : Except UpgradeError StoreBlobFormat :=
  if marker = blobFormatBincode then .ok .bincode
  else if marker = blobFormatProtobuf then .ok .protobuf
  else .error (.unknownFormat marker)

def needsBincodeUpgrade (format : String) : Except UpgradeError Bool := do
  return (← parseBlobFormat format) = .bincode

end Wamux.BincodeUpgrade
