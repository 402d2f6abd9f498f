import Wamux.BlobCodec.BTreeMap

namespace Wamux.BlobCodec
open Wamux.Encryption (Bytes)

structure NoiseCert where
  key : Bytes
  notBefore : Int64
  notAfter : Int64
  deriving DecidableEq

structure ServerCertChain where
  intermediate : Option NoiseCert
  leaf : Option NoiseCert
  signatureVerified : Bool
  deriving DecidableEq

structure AppStateSyncKeyWire where
  keyData : Bytes
  fingerprint : Bytes
  timestamp : Int64
  deriving DecidableEq

structure HashStateWire where
  version : UInt64
  hash : Bytes
  indexValueMap : BTreeMap
  macMismatchFatal : Bool
  bootstrapped : Bool
  deriving DecidableEq

structure JidWire where
  user : String
  server : String
  agent : UInt32
  device : UInt32
  integrator : UInt32
  deriving DecidableEq

structure ServerClientExpirationWire where
  expiresAt : Int64
  versionPrimary : UInt32
  versionSecondary : UInt32
  versionTertiary : UInt32
  deriving DecidableEq

structure DeviceBlob where
  pn : Option JidWire
  lid : Option JidWire
  registrationId : UInt32
  noiseKey : Bytes
  identityKey : Bytes
  signedPreKey : Bytes
  signedPreKeyId : UInt32
  signedPreKeySignature : Bytes
  advSecretKey : Bytes
  account : Option Bytes
  pushName : String
  appVersionPrimary : UInt32
  appVersionSecondary : UInt32
  appVersionTertiary : UInt32
  appVersionLastFetchedMs : Int64
  edgeRoutingInfo : Option Bytes
  propsHash : Option String
  nextPreKeyId : UInt32
  firstUnuploadPreKeyId : UInt32
  serverHasPrekeys : Bool
  nctSalt : Option Bytes
  serverCertChain : Option ServerCertChain
  loginCounter : Int32
  lidMigrated : Bool
  lastSignedPreKeyRotationMs : Int64
  serverClientExpiration : Option ServerClientExpirationWire
  readReceiptsDisabled : Bool
  statusPrivacy : Option Bytes
  deriving DecidableEq

structure Message (μ : Type) where
  encodeToVec : μ → Bytes
  decode : Bytes → Except String μ
  decode_encode : ∀ message, decode (encodeToVec message) = .ok message

structure Prost where
  deviceBlob : Message DeviceBlob
  hashState : Message HashStateWire
  syncKey : Message AppStateSyncKeyWire

end Wamux.BlobCodec
