import LifeEngine.Types.Json
import Mathlib.Algebra.Group.Nat.Defs
import Mathlib.Logic.Function.Basic

/-!
# Pipeline messages and storage requests

The envelope that carries data between plugins and storage, and the two request
types of the storage backend.  A canonical value is kept as the JSON that its
struct serialises to.
-/

namespace LifeEngine

abbrev Uuid := BitVec 128

def hexDigit (n : Nat) : Char :=
  if n < 10 then Char.ofNat (48 + n) else Char.ofNat (87 + n)

/-- The lowest `width` hexadecimal digits of a number. -/
def hexText (width n : Nat) : String :=
  String.ofList ((List.range width).map fun i =>
    hexDigit (n / 16 ^ (width - 1 - i) % 16))

/-- `Uuid::to_string`: the hyphenated form. -/
def uuidText (id : Uuid) : String :=
  hexText 8 (id.toNat / 2 ^ 96) ++ "-" ++ hexText 4 (id.toNat / 2 ^ 80) ++ "-" ++
    hexText 4 (id.toNat / 2 ^ 64) ++ "-" ++ hexText 4 (id.toNat / 2 ^ 48) ++ "-" ++
    hexText 12 id.toNat

theorem hexDigit_inj : ∀ a < 16, ∀ b < 16, hexDigit a = hexDigit b → a = b := by
  decide

/-- The digits at the end of a text are the lowest ones of the number. -/
theorem append_hexText_inj {width n m : Nat} {s s' : String}
    (h : s ++ hexText width n = s' ++ hexText width m) :
    s = s' ∧ n % 16 ^ width = m % 16 ^ width := by
  have hlist := congrArg String.toList h
  rw [String.toList_append, String.toList_append] at hlist
  obtain ⟨hs, hdigits⟩ := List.append_inj' hlist (by simp [hexText])
  refine ⟨String.toList_injective hs, ?_⟩
  simp only [hexText, String.toList_ofList, List.map_inj_left, List.mem_range] at hdigits
  have hdigit : ∀ i < width, n / 16 ^ i % 16 = m / 16 ^ i % 16 := by
    intro i hi
    have hchar := hdigits (width - 1 - i) (by omega)
    rw [show width - 1 - (width - 1 - i) = i by omega] at hchar
    exact hexDigit_inj _ (Nat.mod_lt _ (by decide)) _ (Nat.mod_lt _ (by decide)) hchar
  clear h hlist hdigits
  induction width with
  | zero => simp [Nat.mod_one]
  | succ width ih =>
    rw [Nat.mod_pow_succ, Nat.mod_pow_succ, hdigit width (Nat.lt_succ_self width),
      ih fun i hi => hdigit i (Nat.lt_succ_of_lt hi)]

theorem uuidText_injective : Function.Injective uuidText := by
  intro a b h
  obtain ⟨h, h₅⟩ := append_hexText_inj h
  obtain ⟨h, h₄⟩ := append_hexText_inj ((String.append_left_inj _).mp h)
  obtain ⟨h, h₃⟩ := append_hexText_inj ((String.append_left_inj _).mp h)
  obtain ⟨h, h₂⟩ := append_hexText_inj ((String.append_left_inj _).mp h)
  have h₁ := (append_hexText_inj (congrArg ("" ++ ·) ((String.append_left_inj _).mp h))).2
  have ha := a.isLt
  have hb := b.isLt
  apply BitVec.eq_of_toNat_eq
  omega

/-- A point in time, counted in milliseconds. -/
abbrev Timestamp := Int

abbrev Bytes := List UInt8

/-- `str::as_bytes`. -/
def textBytes (s : String) : Bytes :=
  s.toUTF8.toList

/-- The text that the bytes encode, if they do. -/
def utf8Text (bytes : Bytes) : Option String :=
  String.fromUTF8? ⟨bytes.toArray⟩

theorem utf8Text_toByteArray (s : String) : utf8Text s.toByteArray.data.toList = some s := by
  exact dif_pos s.isValidUTF8

/-- Bytes as the characters with their codes. -/
def latinText (bytes : Bytes) : String :=
  String.ofList (bytes.map fun b => Char.ofNat b.toNat)

def latinBytes (text : String) : Bytes :=
  text.toList.map fun c => c.toNat.toUInt8

theorem latinBytes_latinText (bytes : Bytes) : latinBytes (latinText bytes) = bytes := by
  rw [latinBytes, latinText, String.toList_ofList, List.map_map]
  have hbyte : ∀ b : UInt8, (Char.ofNat b.toNat).toNat.toUInt8 = b := by
    intro b
    have hb : b.toNat < 256 := b.toNat_lt
    have hvalid : b.toNat.isValidChar := Or.inl (by omega)
    have hcode : (Char.ofNat b.toNat).toNat = b.toNat := by
      rw [Char.ofNat, dif_pos hvalid]
      rfl
    rw [hcode]
    exact UInt8.ofNat_toNat
  calc bytes.map ((fun c => c.toNat.toUInt8) ∘ fun b => Char.ofNat b.toNat)
      = bytes.map id := List.map_congr_left fun b _ => hbyte b
    _ = bytes := List.map_id bytes

structure MessageMetadata where
  correlationId : Uuid
  source : String
  timestamp : Timestamp
  authContext : Option Json
  warnings : List String

/-- The variants of `CdmType`. -/
inductive CdmKind where
  | event
  | task
  | contact
  | note
  | email
  | file
  | credential
  | eventBatch
  | taskBatch
  | contactBatch
  | noteBatch
  | emailBatch
  | fileBatch
  | credentialBatch
  deriving DecidableEq, Repr

/-- A canonical value, or a custom one. -/
inductive TypedPayload where
  | cdm (kind : CdmKind) (value : Json)
  | custom (value : Json)

structure PipelineMessage where
  metadata : MessageMetadata
  payload : TypedPayload

inductive FilterOp where
  | eq
  | gte
  | lte
  | contains
  | notEq
  deriving DecidableEq, Repr

structure QueryFilter where
  field : String
  operator : FilterOp
  value : Json

inductive SortDirection where
  | asc
  | desc
  deriving DecidableEq, Repr

structure SortField where
  field : String
  direction : SortDirection

structure StorageQuery where
  collection : String
  pluginId : String
  filters : List QueryFilter
  sort : List SortField
  limit : Option Nat
  offset : Option Nat

inductive StorageMutation where
  | insert (pluginId collection : String) (data : PipelineMessage)
  | update (pluginId collection : String) (id : Uuid) (data : PipelineMessage)
      (expectedVersion : Nat)
  | delete (pluginId collection : String) (id : Uuid)

def StorageMutation.collection : StorageMutation → String
  | insert _ collection _ => collection
  | update _ collection _ _ _ => collection
  | delete _ collection _ => collection

end LifeEngine
