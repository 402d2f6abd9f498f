import Mathlib.Tactic.Common
import Wamux.Encryption.Decision

namespace Wamux.Proof.Encryption
open Wamux.Encryption

variable {crypto : Crypto} {key key' : StoreKey} {nonce : Option Nonce} {context : BlobContext}
  {plaintext opened blob : Bytes}

def blobOf (crypto : Crypto) (key : StoreKey) (nonce : Nonce) (context : BlobContext) (plaintext : Bytes) : Bytes :=
  blobVersion :: crypto.id key ++ nonce.bytes ++ crypto.encrypt key nonce (contextAad context) plaintext

theorem seal_eq (sealed : BlobCipher.seal crypto (.sealing key) nonce context plaintext = .ok blob) :
    plaintext = [] ∧ blob = [] ∨
      plaintext ≠ [] ∧ ∃ drawn, nonce = some drawn ∧ blob = blobOf crypto key drawn context plaintext := by
  simp only [BlobCipher.seal] at sealed
  split at sealed
  · cases sealed
    exact .inl ⟨‹_›, rfl⟩
  · split at sealed
    · cases sealed
    · cases sealed
      exact .inr ⟨‹_›, _, rfl, rfl⟩

theorem blobOf_length {drawn : Nonce} :
    headerLen + tagLen ≤ (blobOf crypto key drawn context plaintext).length := by
  have tag := crypto.tag_length key drawn (contextAad context) plaintext
  simp only [blobOf, List.length_append, List.length_cons, crypto.id_length, drawn.length, headerLen, tagLen]
  omega

theorem blobOf_id {drawn : Nonce} :
    ((blobOf crypto key drawn context plaintext).drop 1).take 4 = crypto.id key := by
  simp [blobOf, List.append_assoc, List.take_left' (crypto.id_length key)]

theorem blobOf_rest {drawn : Nonce} : (blobOf crypto key drawn context plaintext).drop 5 =
    drawn.bytes ++ crypto.encrypt key drawn (contextAad context) plaintext := by
  have header : (blobVersion :: crypto.id key).length = 5 := by simp [crypto.id_length]
  rw [blobOf, List.append_assoc, List.drop_left' header]

theorem splitBlob_blobOf {drawn : Nonce} {context' : BlobContext} (same : crypto.id key = crypto.id key') :
    splitBlob crypto key' context' (blobOf crypto key drawn context plaintext) =
      .ok (drawn, crypto.encrypt key drawn (contextAad context) plaintext) := by
  have long : ¬(blobOf crypto key drawn context plaintext).length < headerLen + tagLen :=
    Nat.not_lt.2 blobOf_length
  have version : (blobOf crypto key drawn context plaintext).head? = some blobVersion := rfl
  have nonce : ((blobOf crypto key drawn context plaintext).drop 5).take 24 = drawn.bytes := by
    rw [blobOf_rest, List.take_left' drawn.length]
  have rest : (blobOf crypto key drawn context plaintext).drop headerLen =
      crypto.encrypt key drawn (contextAad context) plaintext := by
    rw [show headerLen = 5 + 24 from rfl, ← List.drop_drop, blobOf_rest, List.drop_left' drawn.length]
  simp only [splitBlob, long, version, blobOf_id, same, nonce, rest, drawn.length, if_false, ne_eq, not_true_eq_false,
    dite_true]

theorem splitBlob_other {drawn : Nonce} {context' : BlobContext} (other : crypto.id key ≠ crypto.id key') :
    ∃ e, splitBlob crypto key' context' (blobOf crypto key drawn context plaintext) = .error e := by
  have long : ¬(blobOf crypto key drawn context plaintext).length < headerLen + tagLen :=
    Nat.not_lt.2 blobOf_length
  have version : (blobOf crypto key drawn context plaintext).head? = some blobVersion := rfl
  simp only [splitBlob, long, version, blobOf_id, other, if_false, ne_eq, not_true_eq_false, not_false_eq_true,
    if_true]
  exact ⟨_, rfl⟩

theorem open_seal (sealed : BlobCipher.seal crypto (.sealing key) nonce context plaintext = .ok blob) :
    BlobCipher.open crypto (.sealing key) context blob = .ok plaintext := by
  rcases seal_eq sealed with ⟨rfl, rfl⟩ | ⟨-, drawn, -, rfl⟩
  · rfl
  · have present : blobOf crypto key drawn context plaintext ≠ [] := by simp [blobOf]
    simp only [BlobCipher.open, present, if_false, splitBlob_blobOf rfl, crypto.decrypt_encrypt]

theorem open_where {context' : BlobContext} (sealed : BlobCipher.seal crypto (.sealing key) nonce context plaintext = .ok blob)
    (present : plaintext ≠ []) (opens : BlobCipher.open crypto (.sealing key') context' blob = .ok opened) :
    key' = key ∧ contextAad context' = contextAad context := by
  rcases seal_eq sealed with ⟨rfl, -⟩ | ⟨-, drawn, -, rfl⟩
  · exact absurd rfl present
  · have nonempty : blobOf crypto key drawn context plaintext ≠ [] := by simp [blobOf]
    by_cases same : crypto.id key = crypto.id key'
    · simp only [BlobCipher.open, nonempty, if_false, splitBlob_blobOf same] at opens
      have decrypts : crypto.decrypt key' drawn (contextAad context')
          (crypto.encrypt key drawn (contextAad context) plaintext) ≠ none := by
        intro fails
        simp [fails] at opens
      exact crypto.opens_only _ _ _ _ _ _ decrypts
    · obtain ⟨e, refused⟩ : ∃ e, splitBlob crypto key' context' (blobOf crypto key drawn context plaintext) =
          .error e := splitBlob_other same
      simp [BlobCipher.open, nonempty, refused] at opens

theorem open_only (sealed : BlobCipher.seal crypto (.sealing key) nonce context plaintext = .ok blob)
    (present : plaintext ≠ []) (opens : BlobCipher.open crypto (.sealing key') context blob = .ok opened) :
    key' = key := (open_where sealed present opens).1

structure Marks (crypto : Crypto) (key : StoreKey) (stored : StoredEncryption) : Prop where
  keyId : stored.keyId = some (crypto.id key)
  verifier : ∃ blob nonce, stored.verifier = some blob ∧
    BlobCipher.seal crypto (.sealing key) nonce verifierContext verifierPlaintext = .ok blob

variable {stored : StoredEncryption}

theorem verifyKey_right (marks : Marks crypto key stored) :
    verifyKey crypto stored key = .ok ⟨.sealing key, none, false⟩ := by
  obtain ⟨blob, nonce, verifier, sealed⟩ := marks.verifier
  simp [verifyKey, verifier, open_seal sealed]

theorem verifyKey_wrong (marks : Marks crypto key stored) (wrong : key' ≠ key) :
    verifyKey crypto stored key' = .error (keyMismatch crypto stored key') := by
  obtain ⟨blob, nonce, verifier, sealed⟩ := marks.verifier
  have present : verifierPlaintext ≠ [] := by decide
  simp only [verifyKey, verifier, Option.map_some]
  cases opens : BlobCipher.open crypto (.sealing key') verifierContext blob with
  | ok plain => exact absurd (open_only sealed present opens) wrong
  | error e => rfl

theorem Marks.unique (marks : Marks crypto key stored) (marks' : Marks crypto key' stored) : key' = key := by
  by_contra wrong
  have refused := verifyKey_wrong marks wrong
  rw [verifyKey_right marks'] at refused
  cases refused

theorem newEncryptedStore_marks {nonce : Option Nonce} {resolution : Resolution}
    (made : newEncryptedStore crypto key nonce = .ok resolution) :
    resolution.cipher = .sealing key ∧ resolution.convert = false ∧ ∃ mark, resolution.mark = some mark ∧
      ∀ encrypted, Marks crypto key ⟨encrypted, some mark.keyId, some mark.verifier⟩ := by
  simp only [newEncryptedStore] at made
  cases sealed : BlobCipher.seal crypto (.sealing key) nonce verifierContext verifierPlaintext with
  | error e => simp [sealed, bind, Except.bind] at made
  | ok verifier =>
      simp only [sealed, bind, Except.bind, pure, Except.pure, Except.ok.injEq] at made
      subst made
      exact ⟨rfl, rfl, _, rfl, fun encrypted => ⟨rfl, verifier, nonce, rfl, sealed⟩⟩

/-! ## An instance -/

def framed (aad : Bytes) : Bytes := aad.flatMap (fun b => [1, b]) ++ [0]

theorem framed_append {first second rest rest' : Bytes} (same : framed first ++ rest = framed second ++ rest') :
    first = second := by
  induction first generalizing second with
  | nil =>
      cases second with
      | nil => rfl
      | cons b more => simp [framed] at same
  | cons a others ih =>
      cases second with
      | nil => simp [framed] at same
      | cons b more =>
          simp only [framed, List.flatMap_cons, List.cons_append, List.nil_append, List.cons.injEq, true_and] at same
          rw [same.1, ih same.2]

def openLetter : Crypto where
  id key := key.bytes.take 4
  id_length key := by simp [key.length]
  encrypt key _ aad message := key.bytes ++ (framed aad ++ message)
  decrypt key _ aad sealed :=
    if key.bytes ++ framed aad <+: sealed then some (sealed.drop (key.bytes ++ framed aad).length) else none
  tag_length key _ aad message := by
    simp only [List.length_append, key.length]
    omega
  decrypt_encrypt key _ aad message := by
    rw [← List.append_assoc, if_pos (List.prefix_append _ _), List.drop_left]
  opens_only key key' _ aad aad' message opens := by
    have starts : key'.bytes ++ framed aad' <+: key.bytes ++ (framed aad ++ message) := by
      by_contra other
      exact opens (if_neg other)
    obtain ⟨rest, same⟩ := starts
    rw [List.append_assoc] at same
    obtain ⟨bytes, frames⟩ := List.append_inj same (key'.length.trans key.length.symm)
    cases key
    cases key'
    cases bytes
    exact ⟨rfl, framed_append frames⟩

end Wamux.Proof.Encryption
