import LifeEngine.Support.Fallible
import LifeEngine.Types.Pipeline

/-!
# Encryption of credentials

The claims of a credential are serialised, encrypted under a key of their own, and
written in Base64.  The key is derived from the master key and the id of the
credential.  HKDF-SHA256, AES-256-GCM, Base64 and JSON texts belong to other
crates; they are the parameters of `CipherEnv`.
-/

namespace LifeEngine.Crypto

open Support

inductive CryptoError where
  | encryptionFailed (message : String)
  | decryptionFailed (message : String)
  | keyDerivationFailed (message : String)
  | hmacVerificationFailed
  | invalidKeyLength
  deriving DecidableEq, Repr

def CryptoError.display : CryptoError → String
  | encryptionFailed message => "encryption failed: " ++ message
  | decryptionFailed message => "decryption failed: " ++ message
  | keyDerivationFailed message => "key derivation failed: " ++ message
  | hmacVerificationFailed => "HMAC verification failed"
  | invalidKeyLength => "invalid key length: expected 32 bytes"

/-- The primitives for the encryption of credentials. -/
structure CipherEnv where
  /-- HKDF-SHA256 with 32 bytes of output. -/
  hkdf : Bytes → Bytes → Bytes → Bytes
  /-- AES-256-GCM under a key and a nonce. -/
  aesEncrypt : Bytes → Bytes → Bytes → Except String Bytes
  aesDecrypt : Bytes → Bytes → Bytes → Except String Bytes
  base64Encode : Bytes → String
  base64Decode : String → Except String Bytes
  /-- `serde_json::to_vec`. -/
  jsonBytes : Json → Except String Bytes
  /-- `serde_json::from_slice`. -/
  parseBytes : Bytes → Except String Json

def nonceSize : Nat := 12

def credentialHkdfInfo : String := "life-engine-credential-encryption-v1"

section Operations

variable (env : CipherEnv)

/-- `encrypt`, with the nonce that it draws. -/
def encrypt (nonce key plaintext : Bytes) : Except CryptoError Bytes := do
  let ciphertext ← (env.aesEncrypt key nonce plaintext).mapError .encryptionFailed
  return nonce ++ ciphertext

def decrypt (key ciphertext : Bytes) : Except CryptoError Bytes := do
  ensure (nonceSize ≤ ciphertext.length)
    (.decryptionFailed "ciphertext too short to contain nonce")
  (env.aesDecrypt key (ciphertext.take nonceSize) (ciphertext.drop nonceSize)).mapError
    .decryptionFailed

def deriveCredentialKey (masterKey : Bytes) (credentialId : String) : Bytes :=
  env.hkdf (textBytes credentialId) masterKey (textBytes credentialHkdfInfo)

def encryptClaims (nonce masterKey : Bytes) (credentialId : String) (claims : Json) :
    Except CryptoError String := do
  let plaintext ← (env.jsonBytes claims).mapError fun e =>
    .encryptionFailed ("failed to serialize claims: " ++ e)
  let ciphertext ← encrypt env nonce (deriveCredentialKey env masterKey credentialId)
    plaintext
  return env.base64Encode ciphertext

def decryptClaims (masterKey : Bytes) (credentialId encodedCiphertext : String) :
    Except CryptoError Json := do
  let ciphertext ← (env.base64Decode encodedCiphertext).mapError fun e =>
    .decryptionFailed ("invalid base64: " ++ e)
  let plaintext ← decrypt env (deriveCredentialKey env masterKey credentialId) ciphertext
  (env.parseBytes plaintext).mapError fun e =>
    .decryptionFailed ("failed to deserialize claims: " ++ e)

end Operations

/-- Each primitive is undone by its inverse. -/
structure LawfulCipher (env : CipherEnv) : Prop where
  aesDecrypt_aesEncrypt : ∀ key nonce plaintext ciphertext,
    env.aesEncrypt key nonce plaintext = .ok ciphertext →
      env.aesDecrypt key nonce ciphertext = .ok plaintext
  base64Decode_base64Encode : ∀ bytes,
    env.base64Decode (env.base64Encode bytes) = .ok bytes
  parseBytes_jsonBytes : ∀ json bytes,
    env.jsonBytes json = .ok bytes → env.parseBytes bytes = .ok json

section RoundTrip

variable {env : CipherEnv}

theorem decrypt_encrypt_of_aes
    (haes : ∀ key nonce plaintext ciphertext,
      env.aesEncrypt key nonce plaintext = .ok ciphertext →
        env.aesDecrypt key nonce ciphertext = .ok plaintext)
    {nonce key plaintext output : Bytes} (hnonce : nonce.length = nonceSize)
    (h : encrypt env nonce key plaintext = .ok output) :
    decrypt env key output = .ok plaintext := by
  obtain ⟨ciphertext, hcipher, houtput⟩ := bind_eq_ok_iff.mp h
  obtain rfl : nonce ++ ciphertext = output := Except.ok.inj houtput
  refine bind_eq_ok_iff.mpr ⟨(), ensure_eq_ok_iff.mpr (by simp [hnonce]), ?_⟩
  rw [← hnonce, List.take_left, List.drop_left,
    haes key nonce plaintext ciphertext (mapError_eq_ok_iff.mp hcipher)]
  rfl

theorem decrypt_encrypt (henv : LawfulCipher env) {nonce key plaintext output : Bytes}
    (hnonce : nonce.length = nonceSize)
    (h : encrypt env nonce key plaintext = .ok output) :
    decrypt env key output = .ok plaintext :=
  decrypt_encrypt_of_aes henv.aesDecrypt_aesEncrypt hnonce h

theorem decryptClaims_encryptClaims (henv : LawfulCipher env) {nonce masterKey : Bytes}
    {credentialId text : String} {claims : Json} (hnonce : nonce.length = nonceSize)
    (h : encryptClaims env nonce masterKey credentialId claims = .ok text) :
    decryptClaims env masterKey credentialId text = .ok claims := by
  obtain ⟨plaintext, hjson, h⟩ := bind_eq_ok_iff.mp h
  obtain ⟨ciphertext, hencrypt, htext⟩ := bind_eq_ok_iff.mp h
  obtain rfl : env.base64Encode ciphertext = text := Except.ok.inj htext
  refine bind_eq_ok_iff.mpr ⟨ciphertext, ?_, bind_eq_ok_iff.mpr ⟨plaintext,
    decrypt_encrypt henv hnonce hencrypt, ?_⟩⟩
  · rw [henv.base64Decode_base64Encode]
    rfl
  · rw [henv.parseBytes_jsonBytes claims plaintext (mapError_eq_ok_iff.mp hjson)]
    rfl

end RoundTrip

end LifeEngine.Crypto
