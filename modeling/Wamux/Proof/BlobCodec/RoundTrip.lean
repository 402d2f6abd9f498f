import Wamux.Runs.Failing
import Wamux.BlobCodec.Codec

namespace Wamux.Proof.BlobCodec
open Wamux.BlobCodec Runs.Failing
open Wamux.Encryption (Bytes)

variable {wacore : Wacore} {prost : Prost}

theorem mapM_map {ε α β : Type} {f : β → Except ε α} {g : α → β} (inverse : ∀ a, f (g a) = .ok a) (value : Option α) :
    (value.map g).mapM f = .ok value := by
  cases value with
  | none => rfl
  | some a => simp [inverse, Functor.map, Except.map]

/-! ## Pieces there and back -/

theorem fixedBytes_val {n : Nat} {field : String} (bytes : Fixed n) : fixedBytes n field bytes.1 = .ok bytes := by
  rw [fixedBytes, dif_pos bytes.2]

theorem narrow_wide8 {field : String} (value : UInt8) : narrow 8 UInt32.toUInt8 field value.toUInt32 = .ok value := by
  have small : value.toUInt32.toNat < 2 ^ 8 := value.toNat_lt
  rw [narrow, if_pos small, UInt8.toUInt8_toUInt32]

theorem narrow_wide16 {field : String} (value : UInt16) : narrow 16 UInt32.toUInt16 field value.toUInt32 = .ok value := by
  have small : value.toUInt32.toNat < 2 ^ 16 := value.toNat_lt
  rw [narrow, if_pos small, UInt16.toUInt16_toUInt32]

theorem jid_round (jid : Jid wacore) : jidFromWire wacore (jidToWire jid) = .ok jid := by
  simp only [jidFromWire, jidToWire, wacore.tryFrom_asStr, narrow_wide8, narrow_wide16]
  rfl

theorem keyPair_round (field : String) (pair : KeyPair wacore) :
    keyPairFromBytes wacore field (keyPairToBytes pair) = .ok pair := by
  have half : (wacore.serialize pair.privateKey).length = keyHalfLen := wacore.serialize_length _
  have whole : (keyPairToBytes pair).length = keyPairLen := by
    rw [keyPairToBytes, List.length_append, wacore.serialize_length, wacore.publicKeyBytes_length]
    rfl
  have first : (keyPairToBytes pair).take keyHalfLen = wacore.serialize pair.privateKey := List.take_left' half
  have second : (keyPairToBytes pair).drop keyHalfLen = wacore.publicKeyBytes pair.publicKey := List.drop_left' half
  rw [keyPairFromBytes, if_neg (not_not_intro whole), first, second, wacore.deserialize_serialize,
    wacore.fromDjb_publicKeyBytes]
  rfl

theorem account_round (account : wacore.Account) : accountFromBytes wacore (wacore.accountToBytes account) = .ok account :=
  mapError_eq_ok.2 (wacore.account_inverse account)

theorem statusPrivacy_round (action : Option wacore.StatusPrivacyAction) :
    statusPrivacyFromBytes wacore (action.map wacore.statusPrivacyToBytes) = action := by
  cases action with
  | none => rfl
  | some action =>
      simp only [statusPrivacyFromBytes, Option.map_some, Option.bind_some, wacore.statusPrivacy_inverse]
      rfl

theorem cert_round (field : String) (cert : CachedNoiseCert) : certFromWire field (some (certToWire cert)) = .ok cert := by
  simp only [certFromWire, certToWire, fixedBytes_val]
  rfl

theorem certChain_round (chain : CachedServerCertChain) : certChainFromWire (certChainToWire chain) = .ok chain := by
  simp only [certChainFromWire, certChainToWire, cert_round]
  rfl

theorem expiration_round (expiration : Option ServerClientExpiration) :
    (expiration.map expirationToWire).map expirationFromWire = expiration := by
  cases expiration <;> rfl

theorem device_round (device : Device wacore) :
    decodeDevice prost wacore (encodeDevice prost device) = .ok (restored device) := by
  have decoded : prost.deviceBlob.decode (encodeDevice prost device) = .ok (deviceToBlob device) :=
    prost.deviceBlob.decode_encode _
  have fields : deviceFromBlob wacore (deviceToBlob device) = .ok (restored device) := by
    simp only [deviceFromBlob, deviceToBlob, mapM_map jid_round, keyPair_round, fixedBytes_val, mapM_map account_round,
      mapM_map certChain_round, expiration_round, statusPrivacy_round]
    rfl
  rw [decodeDevice, decoded]
  exact fields

/-! ## Maps -/

/-- Equal states: the maps have the same entries, in whatever order. -/
structure Same (state state' : HashState) : Prop where
  version : state.version = state'.version
  hash : state.hash = state'.hash
  entries : state.indexValueMap.entries.Perm state'.indexValueMap.entries
  macMismatchFatal : state.macMismatchFatal = state'.macMismatchFatal
  bootstrapped : state.bootstrapped = state'.bootstrapped

theorem encodeHashState_same {state state' : HashState} (same : Same state state') :
    encodeHashState prost state = encodeHashState prost state' := by
  have maps : BTreeMap.collect state.indexValueMap.entries = BTreeMap.collect state'.indexValueMap.entries :=
    BTreeMap.eq_of_perm ((BTreeMap.collect_perm state.indexValueMap.distinct).trans
      (same.entries.trans (BTreeMap.collect_perm state'.indexValueMap.distinct).symm))
  rw [encodeHashState, encodeHashState, same.version, same.hash, maps, same.macMismatchFatal, same.bootstrapped]

theorem hashState_round (state : HashState) :
    ∃ state', decodeHashState prost (encodeHashState prost state) = .ok state' ∧ Same state' state := by
  refine ⟨{ state with indexValueMap := ⟨_, (BTreeMap.collect state.indexValueMap.entries).distinct⟩ }, ?_,
    ⟨rfl, rfl, BTreeMap.collect_perm state.indexValueMap.distinct, rfl, rfl⟩⟩
  simp only [decodeHashState, encodeHashState, prost.hashState.decode_encode, Except.mapError, bind, Except.bind,
    fixedBytes_val]
  rfl

theorem syncKey_round (key : AppStateSyncKey) (sized : key.keyData.length = appStateKeyLen) :
    decodeAppStateSyncKey prost (encodeAppStateSyncKey prost key) = .ok key := by
  simp only [decodeAppStateSyncKey, encodeAppStateSyncKey, prost.syncKey.decode_encode, Except.mapError, bind, Except.bind,
    sized, ne_eq, not_true_eq_false, if_false]
  rfl

end Wamux.Proof.BlobCodec
