import Wamux.BlobCodec.Proto3
import Wamux.Proof.BlobCodec.RoundTrip

namespace Wamux.Proof.BlobCodec
open Wamux.BlobCodec Runs.Failing
open Wamux.Encryption (Bytes)

variable {wacore : Wacore} {prost : Prost}

theorem mapM_eq_ok {ε α β : Type} {f : α → Except ε β} {value : Option α} {result : Option β} :
    value.mapM f = .ok result ↔
      (value = none ∧ result = none) ∨ ∃ a b, value = some a ∧ result = some b ∧ f a = .ok b := by
  cases value with
  | none => simp [pure, Except.pure, eq_comm]
  | some a =>
      cases ran : f a with
      | error e => simp [Functor.map, Except.map, ran]
      | ok b => simp [Functor.map, Except.map, ran, eq_comm]

/-! ## Pieces -/

theorem fixedBytes_eq_ok {n : Nat} {field : String} {bytes : Bytes} {fixed : Fixed n}
    (checked : fixedBytes n field bytes = .ok fixed) : fixed.1 = bytes := by
  rw [fixedBytes] at checked
  split at checked <;> cases checked
  rfl

theorem narrow_eq_ok {α : Type} {bits : Nat} {cast : UInt32 → α} {field : String} {value : UInt32} {narrowed : α}
    (checked : narrow bits cast field value = .ok narrowed) : value.toNat < 2 ^ bits ∧ cast value = narrowed := by
  rw [narrow] at checked
  split at checked <;> cases checked
  exact ⟨‹_›, rfl⟩

structure Jid.Reads (jid : Jid wacore) (wire : JidWire) : Prop where
  user : jid.user = wire.user
  server : wacore.tryFrom wire.server = .ok jid.server
  agent : jid.agent.toNat = wire.agent.toNat
  device : jid.device.toNat = wire.device.toNat
  integrator : jid.integrator.toNat = wire.integrator.toNat

theorem jidFromWire_eq_ok {wire : JidWire} {jid : Jid wacore} (read : jidFromWire wacore wire = .ok jid) :
    Jid.Reads jid wire := by
  simp only [jidFromWire, bind_eq_ok, pure_eq_ok, mapError_eq_ok] at read
  obtain ⟨server, server_eq, agent, agent_eq, device, device_eq, integrator, integrator_eq, rfl⟩ := read
  obtain ⟨agent_small, rfl⟩ := narrow_eq_ok agent_eq
  obtain ⟨device_small, rfl⟩ := narrow_eq_ok device_eq
  obtain ⟨integrator_small, rfl⟩ := narrow_eq_ok integrator_eq
  exact ⟨rfl, server_eq, Nat.mod_eq_of_lt agent_small, Nat.mod_eq_of_lt device_small,
    Nat.mod_eq_of_lt integrator_small⟩

structure KeyPair.Reads (pair : KeyPair wacore) (bytes : Bytes) : Prop where
  length : bytes.length = 64
  privateHalf : wacore.deserialize (bytes.take 32) = .ok pair.privateKey
  publicHalf : wacore.fromDjbPublicKeyBytes (bytes.drop 32) = .ok pair.publicKey

theorem keyPairFromBytes_eq_ok {field : String} {bytes : Bytes} {pair : KeyPair wacore}
    (read : keyPairFromBytes wacore field bytes = .ok pair) : KeyPair.Reads pair bytes := by
  rw [keyPairFromBytes] at read
  split at read
  · cases read
  · rename_i length
    simp only [bind_eq_ok, pure_eq_ok, mapError_eq_ok] at read
    obtain ⟨privateKey, private_eq, publicKey, public_eq, rfl⟩ := read
    exact ⟨not_not.1 length, private_eq, public_eq⟩

theorem certFromWire_eq_ok {field : String} {wire : Option NoiseCert} {cert : CachedNoiseCert}
    (read : certFromWire field wire = .ok cert) : wire = some (certToWire cert) := by
  cases wire with
  | none => cases read
  | some wire =>
      simp only [certFromWire, bind_eq_ok, pure_eq_ok] at read
      obtain ⟨key, checked, rfl⟩ := read
      rw [certToWire, fixedBytes_eq_ok checked]

theorem certChainFromWire_eq_ok {wire : ServerCertChain} {chain : CachedServerCertChain}
    (read : certChainFromWire wire = .ok chain) : wire = certChainToWire chain := by
  simp only [certChainFromWire, bind_eq_ok, pure_eq_ok] at read
  obtain ⟨intermediate, intermediate_eq, leaf, leaf_eq, rfl⟩ := read
  rw [certChainToWire, ← certFromWire_eq_ok intermediate_eq, ← certFromWire_eq_ok leaf_eq]

def ReadsEach {α β : Type} (reads : β → α → Prop) (result : Option β) (value : Option α) : Prop :=
  (value = none ∧ result = none) ∨ ∃ a b, value = some a ∧ result = some b ∧ reads b a

theorem mapM_reads {α β : Type} {f : α → Except CodecError β} {reads : β → α → Prop}
    (each : ∀ a b, f a = .ok b → reads b a) {value : Option α} {result : Option β} (read : value.mapM f = .ok result) :
    ReadsEach reads result value :=
  (mapM_eq_ok.1 read).imp_right fun ⟨a, b, value_eq, result_eq, here⟩ => ⟨a, b, value_eq, result_eq, each a b here⟩

theorem ReadsEach.some {α β : Type} {reads : β → α → Prop} {result : Option β} {value : Option α} {a : α}
    (read : ReadsEach reads result value) (stored : value = some a) : ∃ b, reads b a := by
  obtain ⟨none_eq, -⟩ | ⟨a', b, value_eq, -, here⟩ := read
  · cases none_eq.symm.trans stored
  · cases value_eq.symm.trans stored
    exact ⟨b, here⟩

/-! ## Devices -/

structure Device.Reads (device : Device wacore) (blob : DeviceBlob) : Prop where
  pn : ReadsEach Jid.Reads device.pn blob.pn
  lid : ReadsEach Jid.Reads device.lid blob.lid
  noiseKey : KeyPair.Reads device.noiseKey blob.noiseKey
  identityKey : KeyPair.Reads device.identityKey blob.identityKey
  signedPreKey : KeyPair.Reads device.signedPreKey blob.signedPreKey
  account : ReadsEach (fun account bytes => wacore.accountFromBytes bytes = .ok account) device.account blob.account
  copied : { deviceToBlob device with
      pn := blob.pn, lid := blob.lid, noiseKey := blob.noiseKey, identityKey := blob.identityKey
      signedPreKey := blob.signedPreKey, account := blob.account, statusPrivacy := blob.statusPrivacy } = blob

theorem chain_copied {stored : Option ServerCertChain} {chain : Option CachedServerCertChain}
    (read : stored.mapM certChainFromWire = .ok chain) : chain.map certChainToWire = stored := by
  obtain ⟨rfl, rfl⟩ | ⟨wire, chain, rfl, rfl, here⟩ := mapM_eq_ok.1 read
  · rfl
  · rw [certChainFromWire_eq_ok here, Option.map_some]

theorem expiration_copied (stored : Option ServerClientExpirationWire) :
    (stored.map expirationFromWire).map expirationToWire = stored := by
  cases stored <;> rfl

theorem decodeDevice_eq_ok {bytes : Bytes} {device : Device wacore} (read : decodeDevice prost wacore bytes = .ok device) :
    ∃ blob, prost.deviceBlob.decode bytes = .ok blob ∧ Device.Reads device blob := by
  simp only [decodeDevice, deviceFromBlob, bind_eq_ok, pure_eq_ok, mapError_eq_ok] at read
  obtain ⟨blob, decoded, pn, pn_eq, lid, lid_eq, noise, noise_eq, identity, identity_eq, signed, signed_eq, signature,
    signature_eq, adv, adv_eq, account, account_eq, chain, chain_eq, rfl⟩ := read
  refine ⟨blob, decoded, ?_⟩
  exact {
    pn := mapM_reads (fun _ _ => jidFromWire_eq_ok) pn_eq
    lid := mapM_reads (fun _ _ => jidFromWire_eq_ok) lid_eq
    noiseKey := keyPairFromBytes_eq_ok noise_eq
    identityKey := keyPairFromBytes_eq_ok identity_eq
    signedPreKey := keyPairFromBytes_eq_ok signed_eq
    account := mapM_reads (fun _ _ => mapError_eq_ok.1) account_eq
    copied := by
      simp only [deviceToBlob, fixedBytes_eq_ok signature_eq, fixedBytes_eq_ok adv_eq, chain_copied chain_eq,
        expiration_copied] }

inductive Broken (blob : DeviceBlob) : Prop where
  | keyPair (bytes : Bytes) (stored : bytes = blob.noiseKey ∨ bytes = blob.identityKey ∨ bytes = blob.signedPreKey)
      (sized : bytes.length ≠ 64)
  | signature (sized : blob.signedPreKeySignature.length ≠ 64)
  | advSecretKey (sized : blob.advSecretKey.length ≠ 32)
  | jid (wire : JidWire) (stored : blob.pn = some wire ∨ blob.lid = some wire)
      (wide : 2 ^ 8 ≤ wire.agent.toNat ∨ 2 ^ 16 ≤ wire.device.toNat ∨ 2 ^ 16 ≤ wire.integrator.toNat)
  | certificate (chain : ServerCertChain) (stored : blob.serverCertChain = some chain)
      (missing : chain.intermediate = none ∨ chain.leaf = none)
  | certificateKey (chain : ServerCertChain) (stored : blob.serverCertChain = some chain) (cert : NoiseCert)
      (held : chain.intermediate = some cert ∨ chain.leaf = some cert) (sized : cert.key.length ≠ 32)

theorem Jid.Reads.fits {jid : Jid wacore} {wire : JidWire} (read : Jid.Reads jid wire) :
    wire.agent.toNat < 2 ^ 8 ∧ wire.device.toNat < 2 ^ 16 ∧ wire.integrator.toNat < 2 ^ 16 :=
  ⟨read.agent ▸ jid.agent.toNat_lt, read.device ▸ jid.device.toNat_lt, read.integrator ▸ jid.integrator.toNat_lt⟩

theorem Device.Reads.chain {device : Device wacore} {blob : DeviceBlob} (read : Device.Reads device blob)
    {wire : ServerCertChain} (stored : blob.serverCertChain = some wire) : ∃ chain, wire = certChainToWire chain := by
  have copied := congrArg DeviceBlob.serverCertChain read.copied
  obtain ⟨chain, -, same⟩ := Option.map_eq_some_iff.1 (copied.trans stored)
  exact ⟨chain, same.symm⟩

theorem Device.Reads.not_broken {device : Device wacore} {blob : DeviceBlob} (read : Device.Reads device blob) :
    ¬ Broken blob := by
  intro broken
  cases broken with
  | keyPair bytes stored sized =>
      rcases stored with rfl | rfl | rfl
      · exact sized read.noiseKey.length
      · exact sized read.identityKey.length
      · exact sized read.signedPreKey.length
  | signature sized => exact sized (congrArg DeviceBlob.signedPreKeySignature read.copied ▸ device.signedPreKeySignature.2)
  | advSecretKey sized => exact sized (congrArg DeviceBlob.advSecretKey read.copied ▸ device.advSecretKey.2)
  | jid wire stored wide =>
      have fits : ∃ jid : Jid wacore, Jid.Reads jid wire := stored.elim read.pn.some read.lid.some
      obtain ⟨jid, here⟩ := fits
      have := here.fits
      omega
  | certificate wire stored missing =>
      obtain ⟨chain, rfl⟩ := read.chain stored
      rcases missing with missing | missing <;> cases missing
  | certificateKey wire stored cert held sized =>
      obtain ⟨chain, rfl⟩ := read.chain stored
      rcases held with held | held <;> cases held
      · exact sized chain.intermediate.key.2
      · exact sized chain.leaf.key.2

theorem decodeDevice_broken {bytes : Bytes} {blob : DeviceBlob} (decoded : prost.deviceBlob.decode bytes = .ok blob)
    (broken : Broken blob) : ∃ e, decodeDevice prost wacore bytes = .error e := by
  cases read : decodeDevice prost wacore bytes with
  | error e => exact ⟨e, rfl⟩
  | ok device =>
      obtain ⟨blob', decoded', reads⟩ := decodeDevice_eq_ok read
      cases decoded.symm.trans decoded'
      exact absurd broken reads.not_broken

/-! ## App state -/

theorem decodeHashState_eq_ok {bytes : Bytes} {state : HashState} (read : decodeHashState prost bytes = .ok state) :
    ∃ wire, prost.hashState.decode bytes = .ok wire ∧ state.hash.1 = wire.hash ∧ state.version = wire.version ∧
      state.indexValueMap.entries = wire.indexValueMap.entries ∧ state.macMismatchFatal = wire.macMismatchFatal ∧
      state.bootstrapped = wire.bootstrapped := by
  simp only [decodeHashState, bind_eq_ok, pure_eq_ok, mapError_eq_ok] at read
  obtain ⟨wire, decoded, hash, hash_eq, rfl⟩ := read
  exact ⟨wire, decoded, fixedBytes_eq_ok hash_eq, rfl, rfl, rfl, rfl⟩

theorem decodeHashState_broken {bytes : Bytes} {wire : HashStateWire} (decoded : prost.hashState.decode bytes = .ok wire)
    (sized : wire.hash.length ≠ 128) : ∃ e, decodeHashState prost bytes = .error e := by
  cases read : decodeHashState prost bytes with
  | error e => exact ⟨e, rfl⟩
  | ok state =>
      obtain ⟨wire', decoded', hash_eq, -⟩ := decodeHashState_eq_ok read
      cases decoded.symm.trans decoded'
      exact absurd (hash_eq ▸ state.hash.2) sized

theorem decodeAppStateSyncKey_eq_ok {bytes : Bytes} {key : AppStateSyncKey}
    (read : decodeAppStateSyncKey prost bytes = .ok key) :
    prost.syncKey.decode bytes = .ok ⟨key.keyData, key.fingerprint, key.timestamp⟩ ∧ key.keyData.length = 32 := by
  simp only [decodeAppStateSyncKey, bind_eq_ok, mapError_eq_ok] at read
  obtain ⟨wire, decoded, checked⟩ := read
  split at checked
  · cases checked
  · rename_i sized
    cases checked
    exact ⟨decoded, not_not.1 sized⟩

theorem decodeAppStateSyncKey_broken {bytes : Bytes} {wire : AppStateSyncKeyWire}
    (decoded : prost.syncKey.decode bytes = .ok wire) (sized : wire.keyData.length ≠ 32) :
    ∃ e, decodeAppStateSyncKey prost bytes = .error e := by
  cases read : decodeAppStateSyncKey prost bytes with
  | error e => exact ⟨e, rfl⟩
  | ok key =>
      obtain ⟨decoded', length⟩ := decodeAppStateSyncKey_eq_ok read
      cases decoded.symm.trans decoded'
      exact absurd length sized

/-! ## The contract -/

structure Refuses (prost : Prost) (wacore : Wacore) (bytes : Bytes) : Prop where
  device : ∀ blob, prost.deviceBlob.decode bytes = .ok blob → Broken blob →
    ∃ e, decodeDevice prost wacore bytes = .error e
  hashState : ∀ wire, prost.hashState.decode bytes = .ok wire → wire.hash.length ≠ 128 →
    ∃ e, decodeHashState prost bytes = .error e
  syncKey : ∀ wire, prost.syncKey.decode bytes = .ok wire → wire.keyData.length ≠ 32 →
    ∃ e, decodeAppStateSyncKey prost bytes = .error e
  device_reads : ∀ device, decodeDevice prost wacore bytes = .ok device →
    ∃ blob, prost.deviceBlob.decode bytes = .ok blob ∧ Device.Reads device blob
  hashState_reads : ∀ state, decodeHashState prost bytes = .ok state →
    ∃ wire, prost.hashState.decode bytes = .ok wire ∧ state.hash.1 = wire.hash ∧ state.version = wire.version ∧
      state.indexValueMap.entries = wire.indexValueMap.entries ∧ state.macMismatchFatal = wire.macMismatchFatal ∧
      state.bootstrapped = wire.bootstrapped
  syncKey_reads : ∀ key, decodeAppStateSyncKey prost bytes = .ok key →
    prost.syncKey.decode bytes = .ok ⟨key.keyData, key.fingerprint, key.timestamp⟩ ∧ key.keyData.length = 32

theorem columns_round (prost : Prost) (wacore : Wacore) :
    (∀ device : Device wacore, decodeDevice prost wacore (encodeDevice prost device) = .ok (restored device)) ∧
      (∀ state, ∃ state', decodeHashState prost (encodeHashState prost state) = .ok state' ∧ Same state' state) ∧
      (∀ key : AppStateSyncKey, key.keyData.length = 32 →
        decodeAppStateSyncKey prost (encodeAppStateSyncKey prost key) = .ok key) ∧
      (∀ state state', Same state state' → encodeHashState prost state = encodeHashState prost state') ∧
      ∀ bytes, Refuses prost wacore bytes :=
  ⟨device_round, hashState_round, syncKey_round, fun _ _ => encodeHashState_same, fun _ =>
    { device := fun _ => decodeDevice_broken
      hashState := fun _ => decodeHashState_broken
      syncKey := fun _ => decodeAppStateSyncKey_broken
      device_reads := fun _ => decodeDevice_eq_ok
      hashState_reads := fun _ => decodeHashState_eq_ok
      syncKey_reads := fun _ => decodeAppStateSyncKey_eq_ok }⟩

/-! A linked device, over the wire format itself. -/

inductive Server where
  | pn | lid

def Server.asStr : Server → String
  | pn => "s.whatsapp.net"
  | lid => "lid"

def Server.tryFrom (text : String) : Except String Server :=
  if text = "s.whatsapp.net" then .ok pn
  else if text = "lid" then .ok lid
  else .error "unknown server"

def half (bytes : Bytes) : Except String (Fixed 32) :=
  if sized : bytes.length = 32 then .ok ⟨bytes, sized⟩ else .error "bad key length"

theorem half_val (key : Fixed 32) : half key.1 = .ok key := by
  rw [half, dif_pos key.2]

def library : Wacore where
  PrivateKey := Fixed 32
  serialize := Subtype.val
  serialize_length := Subtype.property
  deserialize := half
  deserialize_serialize := half_val
  PublicKey := Fixed 32
  publicKeyBytes := Subtype.val
  publicKeyBytes_length := Subtype.property
  fromDjbPublicKeyBytes := half
  fromDjb_publicKeyBytes := half_val
  Server := Server
  asStr := Server.asStr
  tryFrom := Server.tryFrom
  tryFrom_asStr server := by cases server <;> rfl
  Account := Bytes
  accountToBytes := id
  accountFromBytes := .ok
  account_inverse _ := rfl
  StatusPrivacyAction := Bytes
  statusPrivacyToBytes := id
  statusPrivacyFromBytes := .ok
  statusPrivacy_inverse _ := rfl
  DeviceProps := Unit
  deviceProps := ()
  ClientProfile := Unit
  web := ()

def ofByte (n : Nat) (byte : UInt8) : Fixed n := ⟨List.replicate n byte, List.length_replicate⟩

def pair (byte : UInt8) : KeyPair library := ⟨ofByte 32 byte, ofByte 32 64⟩

def linked : Device library where
  pn := some ⟨"15550001", .pn, 0, 12, 0⟩
  lid := some ⟨"77001", .lid, 1, 12, 0⟩
  registrationId := 4242
  noiseKey := pair 64
  identityKey := pair 72
  signedPreKey := pair 80
  signedPreKeyId := 1
  signedPreKeySignature := ofByte 64 9
  advSecretKey := ofByte 32 8
  account := none
  pushName := ""
  appVersionPrimary := 2
  appVersionSecondary := 3000
  appVersionTertiary := 0
  appVersionLastFetchedMs := -1
  deviceProps := ()
  clientProfile := ()
  edgeRoutingInfo := some []
  propsHash := none
  nextPreKeyId := 31
  firstUnuploadPreKeyId := 1
  serverHasPrekeys := true
  nctSalt := some [7]
  nctSaltSyncSeen := true
  serverCertChain := some ⟨⟨ofByte 32 5, 0, 9⟩, ⟨ofByte 32 6, 1, 9⟩, true⟩
  loginCounter := -3
  lidMigrated := false
  lastSignedPreKeyRotationMs := 0
  serverClientExpiration := some ⟨3, 2, 3000, 1⟩
  readReceiptsDisabled := false
  statusPrivacy := none

theorem columns_round_linked :
    decodeDevice Proto3.prost library (encodeDevice Proto3.prost linked) = .ok (restored linked) ∧
      decodeAppStateSyncKey Proto3.prost (encodeAppStateSyncKey Proto3.prost ⟨List.replicate 32 7, [], 5⟩) =
        .ok ⟨List.replicate 32 7, [], 5⟩ :=
  have round := columns_round Proto3.prost library
  ⟨round.1 linked, round.2.2.1 _ List.length_replicate⟩

-- An empty fingerprint is not written.
example : encodeAppStateSyncKey Proto3.prost ⟨List.replicate 32 7, [], 5⟩ = [10, 32] ++ List.replicate 32 7 ++ [24, 5] := by
  decide

end Wamux.Proof.BlobCodec
