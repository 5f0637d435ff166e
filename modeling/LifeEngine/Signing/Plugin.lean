import LifeEngine.Support.Fallible
import LifeEngine.Types.Pipeline
import Mathlib.Data.Set.Function

/-!
# Signatures of plugins

`sign_plugin` signs a digest of the WASM binary and of the digest of the manifest;
`verify_plugin` checks such a signature.  Ed25519, SHA-256 and hexadecimal texts
belong to other crates.  The results below assume that the hash is free of
collisions on what was hashed, and that no signature verifies but those which were
made by the holder of a key.
-/

namespace LifeEngine.Signing

open Support List

inductive VerificationTier where
  | unverified
  | reviewed
  | official
  deriving DecidableEq, Repr

structure PluginSignature where
  signature : String
  publicKey : String
  manifestHash : String
  tier : VerificationTier
  deriving DecidableEq, Repr

inductive VerificationResult where
  | valid (tier : VerificationTier) (publicKey : String)
  | tamperedBundle
  | invalidSignature
  | revokedKey
  | unsigned
  | malformedSignature (message : String)
  deriving DecidableEq, Repr

/-- The results with which `verify_plugin` turns a bundle down. -/
inductive Rejection where
  | tamperedBundle
  | revokedKey
  | malformedSignature (message : String)

def Rejection.result : Rejection → VerificationResult
  | tamperedBundle => .tamperedBundle
  | revokedKey => .revokedKey
  | malformedSignature message => .malformedSignature message

structure RevocationList where
  revokedKeys : List String

def toAsciiLowercase (text : String) : String :=
  String.ofList (text.toList.map Char.toLower)

def RevocationList.revoke (list : RevocationList) (publicKeyHex : String) :
    RevocationList :=
  ⟨list.revokedKeys.insert (toAsciiLowercase publicKeyHex)⟩

def RevocationList.isRevoked (list : RevocationList) (publicKeyHex : String) : Bool :=
  toAsciiLowercase publicKeyHex ∈ list.revokedKeys

structure SignatureVerifierConfig where
  allowUnsigned : Bool
  revocationList : RevocationList

/-- The primitives, with signing keys of type `κ`. -/
structure SigningEnv (κ : Type) where
  sha256 : Bytes → Bytes
  hexEncode : Bytes → String
  hexDecode : String → Except String Bytes
  /-- `VerifyingKey::from_bytes`, for 32 bytes. -/
  checkKey : Bytes → Except String Unit
  /-- The bytes of the public key. -/
  publicKey : κ → Bytes
  sign : κ → Bytes → Bytes
  /-- Of a public key, a message and a signature. -/
  verify : Bytes → Bytes → Bytes → Bool

section Operations

variable {κ : Type} (env : SigningEnv κ)

def computeSigningPayload (wasm manifestHash : Bytes) : Bytes :=
  env.sha256 (wasm ++ manifestHash)

def computeManifestHash (manifest : Bytes) : String :=
  env.hexEncode (env.sha256 manifest)

/-- The payload that is signed for a binary and a manifest. -/
def bundlePayload (wasm manifest : Bytes) : Bytes :=
  computeSigningPayload env wasm (env.sha256 manifest)

def signPlugin (key : κ) (wasm manifest : Bytes) (tier : VerificationTier) :
    PluginSignature where
  signature := env.hexEncode (env.sign key (bundlePayload env wasm manifest))
  publicKey := env.hexEncode (env.publicKey key)
  manifestHash := computeManifestHash env manifest
  tier := tier

/-- Fixed-size bytes from their hexadecimal text. -/
def decodeBytes (what : String) (size : Nat) (text : String) :
    Except Rejection Bytes := do
  let bytes ← (env.hexDecode text).mapError fun e =>
    .malformedSignature ("invalid " ++ what ++ " hex: " ++ e)
  ensure (bytes.length = size)
    (.malformedSignature (what ++ " must be " ++ toString size ++ " bytes"))
  return bytes

/-- The checks of `verify_plugin`, in order. -/
def checkPlugin (config : SignatureVerifierConfig) (sig : PluginSignature)
    (wasm manifest : Bytes) : Except Rejection Unit := do
  let key ← decodeBytes env "public key" 32 sig.publicKey
  (env.checkKey key).mapError fun e => .malformedSignature ("invalid public key: " ++ e)
  ensure (config.revocationList.isRevoked sig.publicKey = false) .revokedKey
  let signature ← decodeBytes env "signature" 64 sig.signature
  ensure (computeManifestHash env manifest = sig.manifestHash) .tamperedBundle
  let manifestHash ← (env.hexDecode sig.manifestHash).mapError fun e =>
    .malformedSignature ("invalid manifest hash hex: " ++ e)
  ensure (env.verify key (computeSigningPayload env wasm manifestHash) signature = true)
    .tamperedBundle

def verifyPlugin (config : SignatureVerifierConfig) (sig : PluginSignature)
    (wasm manifest : Bytes) : VerificationResult :=
  match checkPlugin env config sig wasm manifest with
  | .error rejection => rejection.result
  -- The tier is the one in the signature file; no check has read it.
  | .ok () => .valid sig.tier sig.publicKey

end Operations

/-! ## Assumptions -/

/-- A binary with its manifest. -/
structure Bundle where
  wasm : Bytes
  manifest : Bytes
  deriving DecidableEq

structure SignCall (κ : Type) where
  key : κ
  bundle : Bundle
  tier : VerificationTier

section Assumptions

variable {κ : Type}

/-- Digests have 32 bytes, and hexadecimal texts are read back. -/
structure LawfulSigning (env : SigningEnv κ) : Prop where
  sha256_length : ∀ bytes, (env.sha256 bytes).length = 32
  hexDecode_hexEncode : ∀ bytes, env.hexDecode (env.hexEncode bytes) = .ok bytes

/-- What is hashed for some bundles. -/
def hashedFor (env : SigningEnv κ) (bundles : List Bundle) : Set Bytes :=
  {x | ∃ b ∈ bundles, x = b.manifest ∨ x = b.wasm ++ env.sha256 b.manifest}

/-- No two strings that are hashed have one digest. -/
def CollisionFree (env : SigningEnv κ) (bundles : List Bundle) : Prop :=
  Set.InjOn env.sha256 (hashedFor env bundles)

def Bundle.payload (env : SigningEnv κ) (b : Bundle) : Bytes :=
  bundlePayload env b.wasm b.manifest

/-- Only signatures of the given calls verify, each for one payload. -/
structure Unforgeable (env : SigningEnv κ) (calls : List (SignCall κ)) : Prop where
  genuine : ∀ key payload signature, env.verify key payload signature = true →
    ∃ call ∈ calls, env.publicKey call.key = key ∧ call.bundle.payload env = payload ∧
      env.sign call.key payload = signature
  bound : ∀ call ∈ calls, ∀ call' ∈ calls, env.publicKey call.key = env.publicKey call'.key →
    env.sign call.key (call.bundle.payload env) =
      env.sign call'.key (call'.bundle.payload env) →
    call.bundle.payload env = call'.bundle.payload env

end Assumptions

section Results

variable {κ : Type} {env : SigningEnv κ}

variable {b : Bundle} {config : SignatureVerifierConfig} {sig : PluginSignature}

/-- The payload determines the bundle: the last digest has a fixed length. -/
theorem Bundle.eq_of_payload_eq (henv : LawfulSigning env) {bundles : List Bundle}
    (hfree : CollisionFree env bundles) {b' : Bundle} (hb : b ∈ bundles) (hb' : b' ∈ bundles)
    (h : b.payload env = b'.payload env) : b = b' := by
  have happend : b.wasm ++ env.sha256 b.manifest = b'.wasm ++ env.sha256 b'.manifest :=
    hfree ⟨b, hb, .inr rfl⟩ ⟨b', hb', .inr rfl⟩ h
  have hlength : (env.sha256 b.manifest).length = (env.sha256 b'.manifest).length := by
    rw [henv.sha256_length, henv.sha256_length]
  obtain ⟨hwasm, hdigest⟩ := append_inj' happend hlength
  have hmanifest : b.manifest = b'.manifest := hfree ⟨b, hb, .inl rfl⟩ ⟨b', hb', .inl rfl⟩ hdigest
  cases b
  cases b'
  simp_all

theorem decodeBytes_eq_ok_iff {what text : String} {size : Nat} {bytes : Bytes} :
    decodeBytes env what size text = .ok bytes ↔
      env.hexDecode text = .ok bytes ∧ bytes.length = size := by
  constructor
  · intro h
    obtain ⟨bytes', hdecode, h⟩ := bind_eq_ok_iff.mp h
    obtain ⟨_, hsize, h⟩ := bind_eq_ok_iff.mp h
    obtain rfl := Except.ok.inj h
    exact ⟨mapError_eq_ok_iff.mp hdecode, ensure_eq_ok_iff.mp hsize⟩
  · rintro ⟨hdecode, hsize⟩
    exact bind_eq_ok_iff.mpr ⟨bytes, mapError_eq_ok_iff.mpr hdecode,
      bind_eq_ok_iff.mpr ⟨(), ensure_eq_ok_iff.mpr hsize, rfl⟩⟩

/-- The key is well formed and not revoked, the digest is right, and the signature verifies. -/
structure Accepts (env : SigningEnv κ) (config : SignatureVerifierConfig)
    (sig : PluginSignature) (b : Bundle) (key signature : Bytes) : Prop where
  key_decoded : env.hexDecode sig.publicKey = .ok key
  key_length : key.length = 32
  key_checked : env.checkKey key = .ok ()
  not_revoked : config.revocationList.isRevoked sig.publicKey = false
  signature_decoded : env.hexDecode sig.signature = .ok signature
  signature_length : signature.length = 64
  manifest_hash : computeManifestHash env b.manifest = sig.manifestHash
  verified : env.verify key (b.payload env) signature = true

/-- The tier in the signature file plays no part. -/
theorem Accepts.with_tier {key signature : Bytes} (h : Accepts env config sig b key signature)
    (tier : VerificationTier) :
    Accepts env config { sig with tier := tier } b key signature where
  key_decoded := h.key_decoded
  key_length := h.key_length
  key_checked := h.key_checked
  not_revoked := h.not_revoked
  signature_decoded := h.signature_decoded
  signature_length := h.signature_length
  manifest_hash := h.manifest_hash
  verified := h.verified

theorem checkPlugin_eq_ok_iff (henv : LawfulSigning env) :
    checkPlugin env config sig b.wasm b.manifest = .ok () ↔
      ∃ key signature, Accepts env config sig b key signature := by
  constructor
  · intro h
    obtain ⟨key, hkey, h⟩ := bind_eq_ok_iff.mp h
    obtain ⟨_, hchecked, h⟩ := bind_eq_ok_iff.mp h
    obtain ⟨_, hrevoked, h⟩ := bind_eq_ok_iff.mp h
    obtain ⟨signature, hsignature, h⟩ := bind_eq_ok_iff.mp h
    obtain ⟨_, hhash, h⟩ := bind_eq_ok_iff.mp h
    obtain ⟨digest, hdigest, hverify⟩ := bind_eq_ok_iff.mp h
    obtain ⟨hkey, hkeyLength⟩ := decodeBytes_eq_ok_iff.mp hkey
    obtain ⟨hsignature, hsigLength⟩ := decodeBytes_eq_ok_iff.mp hsignature
    have hhash := ensure_eq_ok_iff.mp hhash
    rw [← hhash, computeManifestHash, henv.hexDecode_hexEncode] at hdigest
    obtain rfl := Except.ok.inj hdigest
    exact ⟨key, signature, hkey, hkeyLength, mapError_eq_ok_iff.mp hchecked,
      ensure_eq_ok_iff.mp hrevoked, hsignature, hsigLength, hhash,
      ensure_eq_ok_iff.mp hverify⟩
  · rintro ⟨key, signature, h⟩
    have hdigest : env.hexDecode sig.manifestHash = .ok (env.sha256 b.manifest) := by
      rw [← h.manifest_hash, computeManifestHash, henv.hexDecode_hexEncode]
    refine bind_eq_ok_iff.mpr ⟨key, decodeBytes_eq_ok_iff.mpr ⟨h.key_decoded, h.key_length⟩, ?_⟩
    refine bind_eq_ok_iff.mpr ⟨(), mapError_eq_ok_iff.mpr h.key_checked, ?_⟩
    refine bind_eq_ok_iff.mpr ⟨(), ensure_eq_ok_iff.mpr h.not_revoked, ?_⟩
    refine bind_eq_ok_iff.mpr ⟨signature,
      decodeBytes_eq_ok_iff.mpr ⟨h.signature_decoded, h.signature_length⟩, ?_⟩
    refine bind_eq_ok_iff.mpr ⟨(), ensure_eq_ok_iff.mpr h.manifest_hash, ?_⟩
    exact bind_eq_ok_iff.mpr ⟨_, mapError_eq_ok_iff.mpr hdigest, ensure_eq_ok_iff.mpr h.verified⟩

theorem verifyPlugin_eq_valid_iff (henv : LawfulSigning env) {tier : VerificationTier}
    {publicKey : String} :
    verifyPlugin env config sig b.wasm b.manifest = .valid tier publicKey ↔
      sig.tier = tier ∧ sig.publicKey = publicKey ∧
        ∃ key signature, Accepts env config sig b key signature := by
  rw [← checkPlugin_eq_ok_iff henv, verifyPlugin]
  cases hcheck : checkPlugin env config sig b.wasm b.manifest with
  | error rejection => cases rejection <;> simp [Rejection.result]
  | ok u => simp

/-- What `sign_plugin` makes is valid with its tier, unless the key is revoked. -/
theorem verifyPlugin_signPlugin (henv : LawfulSigning env) {key : κ}
    (hlength : (env.publicKey key).length = 32) (hkey : env.checkKey (env.publicKey key) = .ok ())
    (hrevoked : config.revocationList.isRevoked (env.hexEncode (env.publicKey key)) = false)
    (hsignature : (env.sign key (b.payload env)).length = 64)
    (hverify : env.verify (env.publicKey key) (b.payload env) (env.sign key (b.payload env)) = true)
    (tier : VerificationTier) :
    verifyPlugin env config (signPlugin env key b.wasm b.manifest tier) b.wasm b.manifest =
      .valid tier (env.hexEncode (env.publicKey key)) :=
  (verifyPlugin_eq_valid_iff henv).mpr ⟨rfl, rfl, env.publicKey key,
    env.sign key (b.payload env),
    { key_decoded := henv.hexDecode_hexEncode _
      key_length := hlength
      key_checked := hkey
      not_revoked := hrevoked
      signature_decoded := henv.hexDecode_hexEncode _
      signature_length := hsignature
      manifest_hash := rfl
      verified := hverify }⟩

theorem Accepts.exists_call (henv : LawfulSigning env) {calls : List (SignCall κ)}
    (hunforgeable : Unforgeable env calls) {key signature : Bytes}
    (hfree : CollisionFree env (b :: calls.map SignCall.bundle))
    (h : Accepts env config sig b key signature) :
    ∃ call ∈ calls, env.publicKey call.key = key ∧ call.bundle = b ∧
      env.sign call.key (call.bundle.payload env) = signature := by
  obtain ⟨call, hcall, hkey, hpayload, hsign⟩ := hunforgeable.genuine _ _ _ h.verified
  refine ⟨call, hcall, hkey, ?_, ?_⟩
  · exact Bundle.eq_of_payload_eq henv hfree
      (mem_cons_of_mem b (mem_map_of_mem hcall)) mem_cons_self hpayload
  · rw [hpayload]
    exact hsign

end Results

/-- The holder of the key made a signature file for this bundle. -/
def Signed {κ : Type} (env : SigningEnv κ) (calls : List (SignCall κ)) (b : Bundle)
    (publicKey : String) : Prop :=
  ∃ call ∈ calls, env.hexDecode publicKey = .ok (env.publicKey call.key) ∧ call.bundle = b

/-- A bundle is valid only if the holder of the key signed it, and its signature passes for no
other. Any tier put into the signature file is accepted. -/
theorem signed_of_verifyPlugin_valid {κ : Type} (env : SigningEnv κ)
    (henv : LawfulSigning env) (calls : List (SignCall κ))
    (hunforgeable : Unforgeable env calls) (config : SignatureVerifierConfig)
    (sig : PluginSignature) (b : Bundle) (tier : VerificationTier) (publicKey : String)
    (hfree : CollisionFree env (b :: calls.map SignCall.bundle))
    (hvalid : verifyPlugin env config sig b.wasm b.manifest = .valid tier publicKey) :
    Signed env calls b publicKey ∧
      (∀ config' sig' b' tier' publicKey', sig'.signature = sig.signature →
        sig'.publicKey = sig.publicKey → b' ≠ b →
        CollisionFree env (b' :: calls.map SignCall.bundle) →
          verifyPlugin env config' sig' b'.wasm b'.manifest ≠ .valid tier' publicKey') ∧
      sig.tier = tier ∧
      ∀ tier', verifyPlugin env config { sig with tier := tier' } b.wasm b.manifest =
        .valid tier' publicKey := by
  obtain ⟨htier, rfl, key, signature, haccepts⟩ := (verifyPlugin_eq_valid_iff henv).mp hvalid
  obtain ⟨call, hcall, hkey, rfl, hsign⟩ := haccepts.exists_call henv hunforgeable hfree
  refine ⟨⟨call, hcall, ?_, rfl⟩, ?_, htier, ?_⟩
  · rw [haccepts.key_decoded, hkey]
  · intro config' sig' b' tier' publicKey' hsignature hpublic hne hfree' hvalid'
    obtain ⟨-, -, key', signature', haccepts'⟩ := (verifyPlugin_eq_valid_iff henv).mp hvalid'
    obtain ⟨call', hcall', hkey', rfl, hsign'⟩ := haccepts'.exists_call henv hunforgeable hfree'
    -- Both files decode to one key and one signature, which was made for one payload.
    have hsameKey : key' = key := by
      have hdecoded := haccepts'.key_decoded
      rw [hpublic, haccepts.key_decoded] at hdecoded
      exact (Except.ok.inj hdecoded).symm
    have hsameSignature : signature' = signature := by
      have hdecoded := haccepts'.signature_decoded
      rw [hsignature, haccepts.signature_decoded] at hdecoded
      exact (Except.ok.inj hdecoded).symm
    have hpayload := hunforgeable.bound call' hcall' call hcall
      (by rw [hkey, hkey', hsameKey]) (by rw [hsign, hsign', hsameSignature])
    exact hne (Bundle.eq_of_payload_eq henv hfree
      (mem_cons_of_mem _ (mem_map_of_mem hcall')) mem_cons_self hpayload)
  · intro tier'
    exact (verifyPlugin_eq_valid_iff henv).mpr ⟨rfl, rfl, key, signature, haccepts.with_tier tier'⟩

/-! ## A tier that nobody signed -/

def soleBundle : Bundle := ⟨[1], [2]⟩

/-- The first 32 bytes, filled up with zeros. -/
def paddedBytes (bytes : Bytes) : Bytes :=
  (bytes ++ List.replicate 32 0).take 32

def solePayload : Bytes :=
  paddedBytes (soleBundle.wasm ++ paddedBytes soleBundle.manifest)

/-- One key, which has signed one payload. -/
def soleEnv : SigningEnv Unit where
  sha256 := paddedBytes
  hexEncode := latinText
  hexDecode text := .ok (latinBytes text)
  checkKey _ := .ok ()
  publicKey _ := List.replicate 32 7
  sign _ payload := payload ++ payload
  verify key payload signature :=
    key = List.replicate 32 7 ∧ payload = solePayload ∧ signature = payload ++ payload

def soleCalls : List (SignCall Unit) := [⟨(), soleBundle, .unverified⟩]

/-- The signature file with the given tier put into it. -/
def soleSignature (tier : VerificationTier) : PluginSignature :=
  { signPlugin soleEnv () soleBundle.wasm soleBundle.manifest .unverified with tier := tier }

def noRevocations : SignatureVerifierConfig := ⟨false, ⟨[]⟩⟩

theorem lawfulSigning_soleEnv : LawfulSigning soleEnv where
  sha256_length bytes := by
    simp [soleEnv, paddedBytes]
  hexDecode_hexEncode bytes := by
    simp [soleEnv, latinBytes_latinText]

theorem unforgeable_soleEnv : Unforgeable soleEnv soleCalls where
  genuine key payload signature h := by
    have hverify : key = List.replicate 32 7 ∧ payload = solePayload ∧
        signature = payload ++ payload := by
      simpa [soleEnv] using h
    obtain ⟨rfl, rfl, rfl⟩ := hverify
    exact ⟨⟨(), soleBundle, .unverified⟩, mem_singleton_self _, rfl, rfl, rfl⟩
  bound call hcall call' hcall' _ _ := by
    rw [mem_singleton.mp hcall, mem_singleton.mp hcall']

theorem collisionFree_soleEnv :
    CollisionFree soleEnv (soleBundle :: soleCalls.map SignCall.bundle) := by
  have hhashed : ∀ x ∈ hashedFor soleEnv (soleBundle :: soleCalls.map SignCall.bundle),
      x = [2] ∨ x = [1] ++ paddedBytes [2] := by
    rintro x ⟨b, hb, hx⟩
    have hsole : b = soleBundle := by simpa [soleCalls] using hb
    rw [hsole] at hx
    exact hx
  intro x hx y hy hxy
  rcases hhashed x hx with rfl | rfl <;> rcases hhashed y hy with rfl | rfl
  · rfl
  · exact absurd hxy (by decide)
  · exact absurd hxy (by decide)
  · rfl

theorem signed_of_verifyPlugin_valid_sole :
    Signed soleEnv soleCalls soleBundle (latinText (List.replicate 32 7)) :=
  (signed_of_verifyPlugin_valid soleEnv lawfulSigning_soleEnv soleCalls unforgeable_soleEnv
    noRevocations (soleSignature .unverified) soleBundle .unverified
    (latinText (List.replicate 32 7)) collisionFree_soleEnv (by decide +kernel)).1

theorem verifyPlugin_signPlugin_sole :
    verifyPlugin soleEnv noRevocations
        (signPlugin soleEnv () soleBundle.wasm soleBundle.manifest .official) soleBundle.wasm
        soleBundle.manifest = .valid .official (latinText (List.replicate 32 7)) :=
  verifyPlugin_signPlugin lawfulSigning_soleEnv (by decide) rfl rfl (by decide) (by decide)
    .official

/-- Signed for `unverified`, the bundle is valid as official. -/
theorem not_signed_as_official :
    LawfulSigning soleEnv ∧ Unforgeable soleEnv soleCalls ∧
      CollisionFree soleEnv (soleBundle :: soleCalls.map SignCall.bundle) ∧
      verifyPlugin soleEnv noRevocations (soleSignature .unverified) soleBundle.wasm
        soleBundle.manifest = .valid .unverified (latinText (List.replicate 32 7)) ∧
      verifyPlugin soleEnv noRevocations (soleSignature .official) soleBundle.wasm
        soleBundle.manifest = .valid .official (latinText (List.replicate 32 7)) ∧
      ¬ ∃ call ∈ soleCalls, call.tier = .official :=
  ⟨lawfulSigning_soleEnv, unforgeable_soleEnv, collisionFree_soleEnv, by decide +kernel,
    by decide +kernel, by simp [soleCalls]⟩

end LifeEngine.Signing
