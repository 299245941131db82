import BitChat.WireMessage

/-!
# Identities and the crypto manager

Transcription of `domain/identity.c` and `usecase/crypto_manager.c`.
libsodium is a parameter: `Sodium` holds the four functions the core calls,
and `SodiumLaws` the behaviour that libsodium documents for them. A random
nonce is an argument of the call that draws it.
-/

namespace BitChat.CryptoManager

open BitChat.WireMessage

set_option autoImplicit false

abbrev SecretKey := List.Vector UInt8 32
abbrev SharedKey := List.Vector UInt8 32
abbrev Nonce := List.Vector UInt8 24

def bcNonceSize : Nat := 24
def bcTagSize : Nat := 16

structure BcIdentity where
  pubkey : Pubkey
  secretKey : SecretKey
deriving DecidableEq

def bcIdentitySerializedSize : Nat := 32 + 32

/-- The bytes `bc_identity_serialize` writes into a buffer that holds them. -/
def bcIdentitySerialize (id : BcIdentity) : List UInt8 :=
  id.pubkey.toList ++ id.secretKey.toList

def bcIdentityDeserialize (data : List UInt8) : Option BcIdentity :=
  if data.length < bcIdentitySerializedSize then none
  else
    let mem : Memory := ⟨data, fun _ => 0⟩
    some ⟨mem.fixed 0 32, mem.fixed 32 32⟩

/-- `bc_identity_wipe`: the public key stays. -/
def bcIdentityWipe (id : BcIdentity) : BcIdentity :=
  { id with secretKey := List.Vector.replicate 32 0 }

theorem identity_round_trip (id : BcIdentity) :
    bcIdentityDeserialize (bcIdentitySerialize id) = some id := by
  have size : (bcIdentitySerialize id).length = bcIdentitySerializedSize := by
    simp [bcIdentitySerialize, bcIdentitySerializedSize]
  have pubkey : (⟨bcIdentitySerialize id, fun _ => 0⟩ : Memory).fixed 0 32 = id.pubkey :=
    fixed_field [] id.secretKey.toList id.pubkey rfl rfl
  have secretKey : (⟨bcIdentitySerialize id, fun _ => 0⟩ : Memory).fixed 32 32 = id.secretKey :=
    fixed_field id.pubkey.toList [] id.secretKey (by simp [bcIdentitySerialize]) (by simp)
  simp only [bcIdentityDeserialize, size, lt_irrefl, if_false, pubkey, secretKey]

/-- The functions of libsodium that the core calls; `none` is a non-zero
return code. `publicKey` is the public half that `crypto_box_keypair` returns
with a secret key. -/
structure Sodium where
  publicKey : SecretKey → Pubkey
  boxBeforenm : Pubkey → SecretKey → Option SharedKey
  aeadEncrypt : SharedKey → Nonce → List UInt8 → Option (List UInt8)
  aeadDecrypt : SharedKey → Nonce → List UInt8 → Option (List UInt8)

/-- What libsodium documents of them: both parties derive one key; the
authenticated encryption is deterministic in key, nonce and plaintext, its
output is longer by the tag, and decryption inverts it and accepts nothing
else. -/
structure SodiumLaws (sodium : Sodium) : Prop where
  symmetric : ∀ mine theirs : SecretKey,
    sodium.boxBeforenm (sodium.publicKey theirs) mine =
      sodium.boxBeforenm (sodium.publicKey mine) theirs
  encrypt_length : ∀ key nonce plaintext ciphertext,
    sodium.aeadEncrypt key nonce plaintext = some ciphertext →
      ciphertext.length = plaintext.length + bcTagSize
  decrypt_encrypt : ∀ key nonce plaintext ciphertext,
    sodium.aeadEncrypt key nonce plaintext = some ciphertext →
      sodium.aeadDecrypt key nonce ciphertext = some plaintext
  decrypt_sound : ∀ key nonce ciphertext plaintext,
    sodium.aeadDecrypt key nonce ciphertext = some plaintext →
      sodium.aeadEncrypt key nonce plaintext = some ciphertext

section Operations

variable (sodium : Sodium)

def bcCryptoDeriveShared (mySecret : SecretKey) (peerPubkey : Pubkey) : Except Rc SharedKey :=
  match sodium.boxBeforenm peerPubkey mySecret with
  | none => .error .crypto
  | some shared => .ok shared

def bcCryptoEncrypt (plaintext : List UInt8) (sharedKey : SharedKey) (nonce : Nonce) :
    Except Rc (List UInt8) :=
  match sodium.aeadEncrypt sharedKey nonce plaintext with
  | none => .error .crypto
  | some ciphertext => .ok ciphertext

def bcCryptoDecrypt (ciphertext : List UInt8) (sharedKey : SharedKey) (nonce : Nonce) :
    Except Rc (List UInt8) :=
  if ciphertext.length < bcTagSize then .error .invalid
  else
    match sodium.aeadDecrypt sharedKey nonce ciphertext with
    | none => .error .crypto
    | some plaintext => .ok plaintext

end Operations

/-- A sodium for examples: keys add up, and the ciphertext is the plaintext
followed by a tag. -/
def plainTag (key : SharedKey) (nonce : Nonce) : List UInt8 :=
  List.zipWith (· + ·) (key.toList.take 16) (nonce.toList.take 16)

def plainSodium : Sodium where
  publicKey secret := secret
  boxBeforenm peer mine := some (List.Vector.map₂ (· + ·) peer mine)
  aeadEncrypt key nonce plaintext := some (plaintext ++ plainTag key nonce)
  aeadDecrypt key nonce ciphertext :=
    let body := ciphertext.take (ciphertext.length - bcTagSize)
    if ciphertext = body ++ plainTag key nonce then some body else none

theorem plain_tag_length (key : SharedKey) (nonce : Nonce) :
    (plainTag key nonce).length = bcTagSize := by
  simp [plainTag, bcTagSize]

theorem plain_sodium_laws : SodiumLaws plainSodium where
  symmetric mine theirs := by
    simp only [plainSodium, Option.some.injEq]
    apply Subtype.ext
    exact List.zipWith_comm_of_comm fun a b => UInt8.add_comm a b
  encrypt_length key nonce plaintext ciphertext encrypted := by
    rw [← Option.some.inj encrypted, List.length_append, plain_tag_length]
  decrypt_encrypt key nonce plaintext ciphertext encrypted := by
    have size := plain_tag_length key nonce
    rw [← Option.some.inj encrypted]
    have body : (plaintext ++ plainTag key nonce).take
        ((plaintext ++ plainTag key nonce).length - bcTagSize) = plaintext := by
      rw [List.length_append, size, Nat.add_sub_cancel, List.take_left]
    simp only [plainSodium, body, if_true]
  decrypt_sound key nonce ciphertext plaintext decrypted := by
    simp only [plainSodium] at decrypted ⊢
    split_ifs at decrypted with tagged
    rw [← Option.some.inj decrypted, ← tagged]

end BitChat.CryptoManager
