import AnotherDimension.Library.Bytes

-- An authenticated cipher with associated data that appends a tag of 16 bytes. Decryption undoes
-- encryption; a message can be too long to encrypt.
structure Aead where
  encrypt : (key : ByteBlock 32) → (nonce : ByteBlock 12) → (aad message : Bytes) → Option Bytes
  decrypt : (key : ByteBlock 32) → (nonce : ByteBlock 12) → (aad ciphertext : Bytes) → Option Bytes
  decrypt_encrypt : ∀ {key nonce aad message ciphertext},
    encrypt key nonce aad message = some ciphertext →
    decrypt key nonce aad ciphertext = some message
  length_encrypt : ∀ {key nonce aad message ciphertext},
    encrypt key nonce aad message = some ciphertext → ciphertext.length = message.length + 16

namespace Aead

-- The tag of the cipher below depends on every byte that is authenticated.
def sampleTag (key : ByteBlock 32) (nonce : ByteBlock 12) (aad message : Bytes) : Bytes :=
  Bytes.ofNat 16 (Bytes.toNat (key.val ++ nonce.val ++ aad ++ message) % (2 ^ 128 - 159))

-- A cipher that only authenticates, to run the store on concrete inputs.
def sample : Aead where
  encrypt key nonce aad message := some (message ++ sampleTag key nonce aad message)
  decrypt key nonce aad ciphertext :=
    let message := ciphertext.take (ciphertext.length - 16)
    if ciphertext = message ++ sampleTag key nonce aad message then some message else none
  decrypt_encrypt h := by
    cases h
    simp [sampleTag]
  length_encrypt h := by
    cases h
    simp [sampleTag]

-- What AES-GCM guarantees beyond that: it encrypts everything but huge messages, and what it decrypts
-- has lost its tag.
structure IsGcm (aead : Aead) : Prop where
  encrypts       : ∀ key nonce {aad message : Bytes}, aad.length ≤ 2 ^ 36 →
    message.length ≤ 2 ^ 36 → (aead.encrypt key nonce aad message).isSome
  length_decrypt : ∀ {key nonce aad ciphertext message},
    aead.decrypt key nonce aad ciphertext = some message → ciphertext.length = message.length + 16

theorem sample_isGcm : sample.IsGcm where
  encrypts _ _ _ _ _ _ := rfl
  length_decrypt h := by
    simp only [sample, Option.ite_none_right_eq_some, Option.some.injEq] at h
    rw [h.left, List.length_append, h.right, sampleTag, Bytes.length_ofNat]

-- The ciphertext of a message, when it has one.
def sealed (aead : Aead) (key : ByteBlock 32) (nonce : ByteBlock 12) (aad message : Bytes) : Bytes :=
  (aead.encrypt key nonce aad message).getD []

theorem IsGcm.encrypt_eq {aead : Aead} (gcm : aead.IsGcm) (key : ByteBlock 32)
    (nonce : ByteBlock 12) {aad message : Bytes} (ha : aad.length ≤ 2 ^ 36)
    (hm : message.length ≤ 2 ^ 36) :
    aead.encrypt key nonce aad message = some (aead.sealed key nonce aad message) := by
  have ⟨ciphertext, hc⟩ := Option.isSome_iff_exists.mp <| gcm.encrypts key nonce ha hm
  rw [sealed, hc, Option.getD_some]

-- No ciphertext is authentic for two different messages, under whatever keys.
def UniqueDecryption (aead : Aead) : Prop :=
  ∀ ⦃key₁ key₂ nonce aad ciphertext message₁ message₂⦄,
    aead.decrypt key₁ nonce aad ciphertext = some message₁ →
    aead.decrypt key₂ nonce aad ciphertext = some message₂ → message₁ = message₂

theorem sample_uniqueDecryption : sample.UniqueDecryption := by
  intro key₁ key₂ nonce aad ciphertext message₁ message₂ h₁ h₂
  simp only [sample, Option.ite_none_right_eq_some, Option.some.injEq] at h₁ h₂
  exact h₁.right.symm.trans h₂.right

end Aead
