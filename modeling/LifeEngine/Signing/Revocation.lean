import LifeEngine.Signing.Plugin
import LifeEngine.Support.Machine

/-!
# Revoked keys

A revocation list is read from a file, extended and saved.  `revoke` and `is_revoked` go by the
lower-case spelling of a key; what stands in a file is taken as it is.
-/

namespace LifeEngine.Signing

open Support

inductive ListCall where
  /-- Somebody writes the file. -/
  | edit (keys : List String)
  | load
  | save
  | revoke (publicKeyHex : String)

/-- The list and the file, each with the keys that its writers have named. -/
structure Revocations where
  list : RevocationList
  named : List String
  file : Option (List String × List String)

def Revocations.new : Revocations :=
  ⟨⟨[]⟩, [], none⟩

def Revocations.step (s : Revocations) : ListCall → Revocations
  | .edit keys => { s with file := some (keys, keys) }
  | .load =>
    match s.file with
    | some (keys, named) => { s with list := ⟨keys⟩, named := named }
    | none => s
  | .save => { s with file := some (s.list.revokedKeys, s.named) }
  | .revoke key => { s with list := s.list.revoke key, named := key :: s.named }

/-- However the key is spelled, no bundle signed with it is valid. -/
def NeverValid {κ : Type} (env : SigningEnv κ) (s : Revocations) : Prop :=
  ∀ allowUnsigned sig wasm manifest tier publicKey,
    (∃ key ∈ s.named, toAsciiLowercase key = toAsciiLowercase sig.publicKey) →
    verifyPlugin env ⟨allowUnsigned, s.list⟩ sig wasm manifest ≠ .valid tier publicKey

/-- A file has the lower-case spelling of each of its keys. -/
def SpelledLow (_ : Revocations) : ListCall → Prop
  | .edit keys => ∀ key ∈ keys, toAsciiLowercase key ∈ keys
  | .load | .save | .revoke _ => True

def Covers (keys named : List String) : Prop :=
  ∀ key ∈ named, toAsciiLowercase key ∈ keys

structure Covered (s : Revocations) : Prop where
  list : Covers s.list.revokedKeys s.named
  file : ∀ keys named, s.file = some (keys, named) → Covers keys named

theorem Covered.step {s : Revocations} {call : ListCall} (h : Covered s)
    (hlow : SpelledLow s call) :
    Covered (s.step call) := by
  cases call with
  | edit keys =>
    refine ⟨h.list, fun keys' named hfile => ?_⟩
    cases hfile
    exact hlow
  | load =>
    rcases hfile : s.file with _ | ⟨keys, named⟩
    · simpa only [Revocations.step, hfile] using h
    · simp only [Revocations.step, hfile]
      exact ⟨h.file keys named hfile, hfile ▸ h.file⟩
  | save =>
    refine ⟨h.list, fun keys named hfile => ?_⟩
    cases hfile
    exact h.list
  | revoke key =>
    refine ⟨fun other hother => ?_, h.file⟩
    apply List.mem_insert_iff.mpr
    rcases List.mem_cons.mp hother with rfl | hother
    · exact Or.inl rfl
    · exact Or.inr (h.list other hother)

theorem Covered.neverValid {κ : Type} {env : SigningEnv κ} {s : Revocations} (h : Covered s) :
    NeverValid env s := by
  rintro allowUnsigned sig wasm manifest tier publicKey ⟨key, hkey, hsame⟩ hvalid
  have hrevoked : s.list.isRevoked sig.publicKey = true := decide_eq_true (hsame ▸ h.list key hkey)
  have hok : checkPlugin env ⟨allowUnsigned, s.list⟩ sig wasm manifest = .ok () := by
    unfold verifyPlugin at hvalid
    split at hvalid
    · next rejection _ => cases rejection <;> cases hvalid
    · assumption
  obtain ⟨_, -, hok⟩ := bind_eq_ok_iff.mp hok
  obtain ⟨_, -, hok⟩ := bind_eq_ok_iff.mp hok
  obtain ⟨_, hnot, -⟩ := bind_eq_ok_iff.mp hok
  rw [ensure_eq_ok_iff.mp hnot] at hrevoked
  cases hrevoked

/-- If files spell their keys in lower case, what was named is never valid. -/
theorem named_never_valid {κ : Type} (env : SigningEnv κ) (calls : List ListCall)
    (h : EveryStep Revocations.step SpelledLow .new calls) :
    NeverValid env (run Revocations.step .new calls) := by
  have hnew : Covered .new := ⟨nofun, nofun⟩
  exact (run_invariant_of_everyStep (fun _ _ => Covered.step) hnew h).neverValid

/-- A key of 32 bytes, whose signatures are all accepted. -/
def lenientEnv : SigningEnv Unit :=
  { soleEnv with verify := fun _ _ _ => true }

def shoutedKey : String :=
  String.ofList (List.replicate 32 'A')

theorem named_never_valid_lowered :
    NeverValid lenientEnv (run Revocations.step .new
      [.edit [shoutedKey, toAsciiLowercase shoutedKey], .load]) :=
  named_never_valid lenientEnv _ (everyStep_cons.mpr ⟨by unfold SpelledLow; decide,
    everyStep_cons.mpr ⟨trivial, everyStep_nil _ _⟩⟩)

/-- The file has the key as the bundle has it, in upper case. -/
theorem not_neverValid_shouted :
    ¬ NeverValid lenientEnv (run Revocations.step .new [.edit [shoutedKey], .load]) := by
  intro hnever
  refine hnever false { soleSignature .official with publicKey := shoutedKey } soleBundle.wasm
    soleBundle.manifest .official shoutedKey ⟨shoutedKey, List.mem_singleton_self _, rfl⟩ ?_
  decide +kernel

end LifeEngine.Signing
