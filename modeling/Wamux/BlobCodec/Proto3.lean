import Wamux.Protobuf.Message
import Wamux.BlobCodec.Wire

namespace Wamux.BlobCodec.Proto3
open Wamux.Protobuf

def mapEntry : Codec (String × Bytes) where
  toFields entry := (singular string "").fields 1 entry.1 ++ (singular bytes []).fields 2 entry.2
  ofFields fields := do
    return (← (singular string "").get 1 fields, ← (singular bytes []).get 2 fields)
  ofFields_toFields _ := by
    simp (disch := decide) only [Slot.get, payloads_append, payloads_own, payloads_other, List.append_nil,
      List.nil_append, Slot.read_write]
    rfl

def btreeMap : Slot BTreeMap where
  write map := (repeated mapEntry).write map.entries
  read payloads := ((repeated mapEntry).read payloads).map BTreeMap.collect
  read_write map := by
    rw [(repeated mapEntry).read_write, Except.map, map.collect_entries]

def noiseCert : Codec NoiseCert where
  toFields cert :=
    (singular bytes []).fields 1 cert.key ++ (singular int64 0).fields 2 cert.notBefore ++
      (singular int64 0).fields 3 cert.notAfter
  ofFields fields := do
    return {
      key := ← (singular bytes []).get 1 fields
      notBefore := ← (singular int64 0).get 2 fields
      notAfter := ← (singular int64 0).get 3 fields }
  ofFields_toFields _ := by
    simp (disch := decide) only [Slot.get, payloads_append, payloads_own, payloads_other, List.append_nil,
      List.nil_append, Slot.read_write]
    rfl

def serverCertChain : Codec ServerCertChain where
  toFields chain :=
    (embedded noiseCert).fields 1 chain.intermediate ++ (embedded noiseCert).fields 2 chain.leaf ++
      (singular bool false).fields 3 chain.signatureVerified
  ofFields fields := do
    return {
      intermediate := ← (embedded noiseCert).get 1 fields
      leaf := ← (embedded noiseCert).get 2 fields
      signatureVerified := ← (singular bool false).get 3 fields }
  ofFields_toFields _ := by
    simp (disch := decide) only [Slot.get, payloads_append, payloads_own, payloads_other, List.append_nil,
      List.nil_append, Slot.read_write]
    rfl

def appStateSyncKeyWire : Codec AppStateSyncKeyWire where
  toFields key :=
    (singular bytes []).fields 1 key.keyData ++ (singular bytes []).fields 2 key.fingerprint ++
      (singular int64 0).fields 3 key.timestamp
  ofFields fields := do
    return {
      keyData := ← (singular bytes []).get 1 fields
      fingerprint := ← (singular bytes []).get 2 fields
      timestamp := ← (singular int64 0).get 3 fields }
  ofFields_toFields _ := by
    simp (disch := decide) only [Slot.get, payloads_append, payloads_own, payloads_other, List.append_nil,
      List.nil_append, Slot.read_write]
    rfl

def hashStateWire : Codec HashStateWire where
  toFields state :=
    (singular uint64 0).fields 1 state.version ++ (singular bytes []).fields 2 state.hash ++
      btreeMap.fields 3 state.indexValueMap ++ (singular bool false).fields 4 state.macMismatchFatal ++
      (singular bool false).fields 5 state.bootstrapped
  ofFields fields := do
    return {
      version := ← (singular uint64 0).get 1 fields
      hash := ← (singular bytes []).get 2 fields
      indexValueMap := ← btreeMap.get 3 fields
      macMismatchFatal := ← (singular bool false).get 4 fields
      bootstrapped := ← (singular bool false).get 5 fields }
  ofFields_toFields _ := by
    simp (disch := decide) only [Slot.get, payloads_append, payloads_own, payloads_other, List.append_nil,
      List.nil_append, Slot.read_write]
    rfl

def jidWire : Codec JidWire where
  toFields jid :=
    (singular string "").fields 1 jid.user ++ (singular string "").fields 2 jid.server ++
      (singular uint32 0).fields 3 jid.agent ++ (singular uint32 0).fields 4 jid.device ++
      (singular uint32 0).fields 5 jid.integrator
  ofFields fields := do
    return {
      user := ← (singular string "").get 1 fields
      server := ← (singular string "").get 2 fields
      agent := ← (singular uint32 0).get 3 fields
      device := ← (singular uint32 0).get 4 fields
      integrator := ← (singular uint32 0).get 5 fields }
  ofFields_toFields _ := by
    simp (disch := decide) only [Slot.get, payloads_append, payloads_own, payloads_other, List.append_nil,
      List.nil_append, Slot.read_write]
    rfl

def serverClientExpirationWire : Codec ServerClientExpirationWire where
  toFields expiration :=
    (singular int64 0).fields 1 expiration.expiresAt ++ (singular uint32 0).fields 2 expiration.versionPrimary ++
      (singular uint32 0).fields 3 expiration.versionSecondary ++ (singular uint32 0).fields 4 expiration.versionTertiary
  ofFields fields := do
    return {
      expiresAt := ← (singular int64 0).get 1 fields
      versionPrimary := ← (singular uint32 0).get 2 fields
      versionSecondary := ← (singular uint32 0).get 3 fields
      versionTertiary := ← (singular uint32 0).get 4 fields }
  ofFields_toFields _ := by
    simp (disch := decide) only [Slot.get, payloads_append, payloads_own, payloads_other, List.append_nil,
      List.nil_append, Slot.read_write]
    rfl

def deviceBlob : Codec DeviceBlob where
  toFields device :=
    (embedded jidWire).fields 1 device.pn ++ (embedded jidWire).fields 2 device.lid ++
      (singular uint32 0).fields 3 device.registrationId ++ (singular bytes []).fields 4 device.noiseKey ++
      (singular bytes []).fields 5 device.identityKey ++ (singular bytes []).fields 6 device.signedPreKey ++
      (singular uint32 0).fields 7 device.signedPreKeyId ++ (singular bytes []).fields 8 device.signedPreKeySignature ++
      (singular bytes []).fields 9 device.advSecretKey ++ (optional bytes).fields 10 device.account ++
      (singular string "").fields 11 device.pushName ++ (singular uint32 0).fields 12 device.appVersionPrimary ++
      (singular uint32 0).fields 13 device.appVersionSecondary ++
      (singular uint32 0).fields 14 device.appVersionTertiary ++
      (singular int64 0).fields 15 device.appVersionLastFetchedMs ++
      (optional bytes).fields 16 device.edgeRoutingInfo ++ (optional string).fields 17 device.propsHash ++
      (singular uint32 0).fields 18 device.nextPreKeyId ++ (singular uint32 0).fields 19 device.firstUnuploadPreKeyId ++
      (singular bool false).fields 20 device.serverHasPrekeys ++ (optional bytes).fields 21 device.nctSalt ++
      (embedded serverCertChain).fields 22 device.serverCertChain ++ (singular int32 0).fields 23 device.loginCounter ++
      (singular bool false).fields 24 device.lidMigrated ++
      (singular int64 0).fields 25 device.lastSignedPreKeyRotationMs ++
      (embedded serverClientExpirationWire).fields 26 device.serverClientExpiration ++
      (singular bool false).fields 27 device.readReceiptsDisabled ++ (optional bytes).fields 28 device.statusPrivacy
  ofFields fields := do
    return {
      pn := ← (embedded jidWire).get 1 fields
      lid := ← (embedded jidWire).get 2 fields
      registrationId := ← (singular uint32 0).get 3 fields
      noiseKey := ← (singular bytes []).get 4 fields
      identityKey := ← (singular bytes []).get 5 fields
      signedPreKey := ← (singular bytes []).get 6 fields
      signedPreKeyId := ← (singular uint32 0).get 7 fields
      signedPreKeySignature := ← (singular bytes []).get 8 fields
      advSecretKey := ← (singular bytes []).get 9 fields
      account := ← (optional bytes).get 10 fields
      pushName := ← (singular string "").get 11 fields
      appVersionPrimary := ← (singular uint32 0).get 12 fields
      appVersionSecondary := ← (singular uint32 0).get 13 fields
      appVersionTertiary := ← (singular uint32 0).get 14 fields
      appVersionLastFetchedMs := ← (singular int64 0).get 15 fields
      edgeRoutingInfo := ← (optional bytes).get 16 fields
      propsHash := ← (optional string).get 17 fields
      nextPreKeyId := ← (singular uint32 0).get 18 fields
      firstUnuploadPreKeyId := ← (singular uint32 0).get 19 fields
      serverHasPrekeys := ← (singular bool false).get 20 fields
      nctSalt := ← (optional bytes).get 21 fields
      serverCertChain := ← (embedded serverCertChain).get 22 fields
      loginCounter := ← (singular int32 0).get 23 fields
      lidMigrated := ← (singular bool false).get 24 fields
      lastSignedPreKeyRotationMs := ← (singular int64 0).get 25 fields
      serverClientExpiration := ← (embedded serverClientExpirationWire).get 26 fields
      readReceiptsDisabled := ← (singular bool false).get 27 fields
      statusPrivacy := ← (optional bytes).get 28 fields }
  ofFields_toFields _ := by
    simp (disch := decide) only [Slot.get, payloads_append, payloads_own, payloads_other, List.append_nil,
      List.nil_append, Slot.read_write]
    rfl

def message {μ : Type} (codec : Codec μ) : Message μ := ⟨codec.encode, codec.decode, codec.decode_encode⟩

def prost : Prost where
  deviceBlob := message deviceBlob
  hashState := message hashStateWire
  syncKey := message appStateSyncKeyWire

end Wamux.BlobCodec.Proto3
