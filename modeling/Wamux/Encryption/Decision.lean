import Wamux.Encryption.Columns

namespace Wamux.Encryption
variable (crypto : Crypto)

def verifierPlaintext : Bytes := textBytes "wamux store encryption verifier v1"

def verifierContext : BlobContext := ⟨0, "store_encryption", "verifier", []⟩

structure StoredEncryption where
  encrypted : Bool
  keyId : Option Bytes
  verifier : Option Bytes

structure NewMark where
  keyId : Bytes
  verifier : Bytes

structure Resolution where
  cipher : BlobCipher
  mark : Option NewMark
  /-- Seal every account still plaintext; with a mark the conversion is new, without one it resumes. -/
  convert : Bool

def decryptInterrupted : StoreError :=
  .invalidConfig ("this store was being decrypted and the run was interrupted, so it is half plaintext: " ++
    "finish it with `wamux store decrypt --yes` (with the same store_key_file) before starting the daemon")

def keyMissing : StoreError :=
  .invalidConfig ("this store is encrypted: set store_key_file (WAMUX_STORE_KEY_FILE) to the key file " ++
    "it was created with")

def conversionInterrupted : StoreError :=
  .invalidConfig ("this store was being converted to encrypted and the run was interrupted, so it is " ++
    "half sealed: set store_key_file (WAMUX_STORE_KEY_FILE) to the key the conversion started with to finish it")

def nothingTo (verb : String) : StoreError :=
  .invalidConfig ("this store is not encrypted, there is nothing to " ++ verb ++ " (if a conversion to " ++
    "encrypted was interrupted, finish it by starting the daemon with its store_key_file)")

def keyMismatch (stored : StoredEncryption) (key : StoreKey) : StoreError :=
  .invalidConfig ("the store key (id " ++ hexOf (crypto.id key) ++
    ") does not match the key this store was encrypted with (id " ++
    (stored.keyId.map hexOf).getD "unknown" ++ ")")

def keyUnchanged (key : StoreKey) : StoreError :=
  .invalidConfig ("the new store key (id " ++ hexOf (crypto.id key) ++
    ") is already the key this store is encrypted with")

def verifyKey (stored : StoredEncryption) (key : StoreKey) : Except StoreError Resolution :=
  match stored.verifier.map (BlobCipher.open crypto (.sealing key) verifierContext) with
  | some (.ok plain) =>
      if plain = verifierPlaintext then .ok ⟨.sealing key, none, false⟩
      else .error (keyMismatch crypto stored key)
  | _ => .error (keyMismatch crypto stored key)

def newEncryptedStore (key : StoreKey) (nonce : Option Nonce) : Except StoreError Resolution := do
  let verifier ← BlobCipher.seal crypto (.sealing key) nonce verifierContext verifierPlaintext
  return ⟨.sealing key, some ⟨crypto.id key, verifier⟩, false⟩

def beginConversion (key : StoreKey) (nonce : Option Nonce) : Except StoreError Resolution := do
  let resolution ← newEncryptedStore crypto key nonce
  return { resolution with convert := true }

def resumeConversion (stored : StoredEncryption) : Option StoreKey → Except StoreError Resolution
  | none => .error conversionInterrupted
  | some key => do
      let resolution ← verifyKey crypto stored key
      return { resolution with convert := true }

def resolve (stored : StoredEncryption) (hasAccounts hasProgress : Bool) (key : Option StoreKey)
    (nonce : Option Nonce) : Except StoreError Resolution :=
  if stored.encrypted then
    if hasProgress then .error decryptInterrupted
    else match key with
      | none => .error keyMissing
      | some key => verifyKey crypto stored key
  else if stored.verifier.isSome then resumeConversion crypto stored key
  else match key with
    | none => .ok ⟨.passthrough, none, false⟩
    | some key => if hasAccounts then beginConversion crypto key nonce else newEncryptedStore crypto key nonce

def cipherForDecrypt (stored : StoredEncryption) (key : StoreKey) : Except StoreError BlobCipher :=
  if stored.encrypted then (verifyKey crypto stored key).map Resolution.cipher
  else .error (nothingTo "decrypt")

structure Rotation where
  opens : BlobCipher
  seals : BlobCipher
  mark : NewMark

def planRotation (stored : StoredEncryption) (hasProgress : Bool) (old new : StoreKey)
    (nonce : Option Nonce) : Except StoreError Rotation :=
  if !stored.encrypted then .error (nothingTo "rotate")
  else if hasProgress then .error decryptInterrupted
  else do
    let verified ← verifyKey crypto stored old
    if crypto.id old = crypto.id new then .error (keyUnchanged crypto new)
    else
      let resolution ← newEncryptedStore crypto new nonce
      match resolution.mark with
      | none => .error (.invalidConfig "the new key produced no mark")
      | some mark => return ⟨verified.cipher, .sealing new, mark⟩

end Wamux.Encryption
