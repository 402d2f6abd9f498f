import Mathlib.Data.List.Basic

/-!
# Sealed blobs

Layout of a sealed blob: version (1 byte), key id (4), nonce (24), then the ciphertext with its tag.
The associated data says where the blob lives. An empty value stays empty in both directions.
-/

namespace Wamux.Encryption

abbrev Bytes := List UInt8

abbrev DeviceId := Int32

inductive StoreError where
  | invalidConfig (message : String)
  | validation (message : String)
  | connection (message : String)
  | database
  deriving DecidableEq, Repr

structure StoreKey where
  bytes : Bytes
  length : bytes.length = 32
  deriving DecidableEq

structure Nonce where
  bytes : Bytes
  length : bytes.length = 24
  deriving DecidableEq

/-- XChaCha20-Poly1305 and SHA-256, as far as the store uses them. `opens_only` is the ideal of an
authenticated cipher: a ciphertext opens only under the key and the associated data it was sealed
with. -/
structure Crypto where
  /-- The first four bytes of SHA-256 of the key. -/
  id : StoreKey → Bytes
  id_length : ∀ key, (id key).length = 4
  encrypt : StoreKey → Nonce → Bytes → Bytes → Bytes
  decrypt : StoreKey → Nonce → Bytes → Bytes → Option Bytes
  tag_length : ∀ key nonce aad message, 16 ≤ (encrypt key nonce aad message).length
  decrypt_encrypt : ∀ key nonce aad message,
    decrypt key nonce aad (encrypt key nonce aad message) = some message
  opens_only : ∀ key key' nonce aad aad' message, decrypt key' nonce aad' (encrypt key nonce aad message) ≠ none →
    key' = key ∧ aad' = aad

def hexDigit (n : Nat) : Char := if n < 10 then Char.ofNat (48 + n) else Char.ofNat (87 + n)

/-- `{b:02x}` of every byte; `key_id_hex` and `hex_of`. -/
def hexOf (bytes : Bytes) : String :=
  String.ofList (bytes.flatMap fun b => [hexDigit (b.toNat / 16), hexDigit (b.toNat % 16)])

def textBytes (text : String) : Bytes := text.toUTF8.data.toList

def beBytes (n : UInt32) : Bytes :=
  [(n >>> 24).toUInt8, (n >>> 16).toUInt8, (n >>> 8).toUInt8, n.toUInt8]

structure BlobContext where
  deviceId : DeviceId
  table : String
  column : String
  row : Bytes

def contextAad (context : BlobContext) : Bytes :=
  beBytes context.deviceId.toUInt32 ++ textBytes context.table ++ [0] ++ textBytes context.column ++ [0] ++
    context.row

def describe (context : BlobContext) : String :=
  context.table ++ "." ++ context.column ++ " of device " ++ toString context.deviceId.toInt

def blobVersion : UInt8 := 1
def headerLen : Nat := 1 + 4 + 24
def tagLen : Nat := 16

inductive BlobCipher where
  | passthrough
  | sealing (key : StoreKey)
  deriving DecidableEq

def BlobCipher.isSealing : BlobCipher → Bool
  | passthrough => false
  | sealing _ => true

variable (crypto : Crypto)

/-- `XNonce::try_generate` draws the nonce, or there is no randomness. -/
def BlobCipher.seal (cipher : BlobCipher) (nonce : Option Nonce) (context : BlobContext) (plaintext : Bytes) :
    Except StoreError Bytes :=
  match cipher with
  | passthrough => .ok plaintext
  | sealing key =>
      if plaintext = [] then .ok []
      else match nonce with
        | none => .error (.validation "no randomness for a nonce")
        | some nonce => .ok (blobVersion :: crypto.id key ++ nonce.bytes ++
            crypto.encrypt key nonce (contextAad context) plaintext)

def splitBlob (key : StoreKey) (context : BlobContext) (stored : Bytes) : Except StoreError (Nonce × Bytes) :=
  if stored.length < headerLen + tagLen then
    .error (.validation (describe context ++ " is " ++ toString stored.length ++
      " bytes, shorter than a sealed blob (" ++ toString (headerLen + tagLen) ++ " at least)"))
  else if stored.head? ≠ some blobVersion then
    .error (.validation (describe context ++ " has sealed-blob version " ++
      toString ((stored.head?.map UInt8.toNat).getD 0) ++ ", this build reads version " ++
      toString blobVersion.toNat))
  else if (stored.drop 1).take 4 ≠ crypto.id key then
    .error (.validation (describe context ++ " was sealed with key id " ++ hexOf ((stored.drop 1).take 4) ++
      ", the configured key is " ++ hexOf (crypto.id key)))
  else if sized : ((stored.drop 5).take 24).length = 24 then
    .ok (⟨(stored.drop 5).take 24, sized⟩, stored.drop headerLen)
  else .error (.validation "sealed blob nonce has the wrong size")

def BlobCipher.open (cipher : BlobCipher) (context : BlobContext) (stored : Bytes) : Except StoreError Bytes :=
  match cipher with
  | passthrough => .ok stored
  | sealing key =>
      if stored = [] then .ok []
      else match splitBlob crypto key context stored with
        | .error e => .error e
        | .ok (nonce, sealed) =>
            match crypto.decrypt key nonce (contextAad context) sealed with
            | some plaintext => .ok plaintext
            | none => .error (.validation (describe context ++
                " did not authenticate: moved to another row or account, or corrupted"))

/-! ## The same, index by index

`none` is a panic: an index or a slice out of range. -/

namespace Indexed

def index (bytes : Bytes) (i : Nat) : Option UInt8 := bytes[i]?

def slice (bytes : Bytes) (first last : Nat) : Option Bytes :=
  if first ≤ last ∧ last ≤ bytes.length then some ((bytes.take last).drop first) else none

def splitBlob (key : StoreKey) (context : BlobContext) (stored : Bytes) : Option (Except StoreError (Nonce × Bytes)) :=
  if stored.length < headerLen + tagLen then
    some (.error (.validation (describe context ++ " is " ++ toString stored.length ++
      " bytes, shorter than a sealed blob (" ++ toString (headerLen + tagLen) ++ " at least)")))
  else (index stored 0).bind fun version =>
    if version ≠ blobVersion then
      (index stored 0).map fun version => .error (.validation (describe context ++ " has sealed-blob version " ++
        toString version.toNat ++ ", this build reads version " ++ toString blobVersion.toNat))
    else (slice stored 1 5).bind fun id =>
      if id ≠ crypto.id key then
        (index stored 1).bind fun a => (index stored 2).bind fun b => (index stored 3).bind fun c =>
          (index stored 4).map fun d => .error (.validation (describe context ++ " was sealed with key id " ++
            hexOf [a, b, c, d] ++ ", the configured key is " ++ hexOf (crypto.id key)))
      else (slice stored 5 headerLen).bind fun nonce =>
        if sized : nonce.length = 24 then
          (slice stored headerLen stored.length).map fun sealed => .ok (⟨nonce, sized⟩, sealed)
        else some (.error (.validation "sealed blob nonce has the wrong size"))

def «open» (cipher : BlobCipher) (context : BlobContext) (stored : Bytes) : Option (Except StoreError Bytes) :=
  match cipher with
  | .passthrough => some (.ok stored)
  | .sealing key =>
      if stored = [] then some (.ok [])
      else (splitBlob crypto key context stored).map fun
        | .error e => .error e
        | .ok (nonce, sealed) =>
            match crypto.decrypt key nonce (contextAad context) sealed with
            | some plaintext => .ok plaintext
            | none => .error (.validation (describe context ++
                " did not authenticate: moved to another row or account, or corrupted"))

end Indexed

end Wamux.Encryption
