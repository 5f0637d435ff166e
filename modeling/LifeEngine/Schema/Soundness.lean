import LifeEngine.Schema.Versioning

/-!
# What compatibility promises to documents

A change is additive so that documents of the old version stay valid.  Validity
against a schema is stated here for the keywords `type`, `enum`, `minimum`,
`maximum`, `minLength`, `maxLength`, `pattern`, `required` and `properties`, as
JSON Schema defines them; `default` is an annotation.  The comparison does not
look at all of them everywhere, and what it overlooks is named keyword by
keyword: a document of the old version is valid against the new one exactly when
it meets what was overlooked.
-/

namespace LifeEngine.Schema

open JsonMap

/-! ## Validity -/

/-- A double with an integral value is an integer. -/
def hasType (name : String) : Json → Bool
  | .null => name == "null"
  | .bool _ => name == "boolean"
  | .num n => name == "number" || (name == "integer" && n.value.den == 1)
  | .str _ => name == "string"
  | .arr _ => name == "array"
  | .obj _ => name == "object"

/-- The `type` keyword: one name, or an array of names. -/
def typeAllows : Json → Json → Bool
  | .str name, doc => hasType name doc
  | .arr names, doc => names.any fun name => (name.asStr.map (hasType · doc)).getD false
  | _, _ => true

section Validity

-- Whether a text matches a regular expression.
variable (matchesPattern : String → String → Bool)

/-- The keywords that look at the value itself. -/
structure Asserts (s doc : Json) : Prop where
  type : ∀ t, s.get "type" = some t → typeAllows t doc = true
  enum : ∀ values, s.arrayAt "enum" = some values → ∃ v ∈ values, doc.equal v = true
  minimum : ∀ n x, numberAt s "minimum" = some n → doc = .num x → n.value ≤ x.value
  maximum : ∀ n x, numberAt s "maximum" = some n → doc = .num x → x.value ≤ n.value
  minLength : ∀ n t, numberAt s "minLength" = some n → doc = .str t → n.value ≤ t.length
  maxLength : ∀ n t, numberAt s "maxLength" = some n → doc = .str t → t.length ≤ n.value
  pattern : ∀ p t, s.get "pattern" = some (.str p) → doc = .str t → matchesPattern p t = true

/-- An object has every required name. -/
def HasRequired (s doc : Json) : Prop :=
  ∀ fields, doc = .obj fields → ∀ name ∈ requiredNames s, ∃ v, doc.get name = some v

/-- A document is valid against a schema. -/
inductive Valid : Json → Json → Prop where
  | intro {s doc : Json}
      (asserts : Asserts matchesPattern s doc)
      (required : HasRequired s doc)
      (properties : ∀ name sub v, childAt s "properties" name = some sub →
        doc.get name = some v → Valid sub v) :
      Valid s doc

end Validity

/-- Only declared property names are used, at every level. -/
inductive Declared : Json → Json → Prop where
  | intro {s doc : Json}
      (names : ∀ name v, doc.get name = some v → ∃ sub, childAt s "properties" name = some sub)
      (nested : ∀ name sub v, childAt s "properties" name = some sub →
        doc.get name = some v → Declared sub v) :
      Declared s doc

/-! ## What the comparison overlooks -/

/-- An `enum` of the new version where the old one has none. -/
def AddedEnum (old new doc : Json) : Prop :=
  old.arrayAt "enum" = none → ∀ values, new.arrayAt "enum" = some values →
    ∃ v ∈ values, doc.equal v = true

/-- New assertions that were not compared: an added `enum`, and a tighter bound that is the same
double. -/
structure OverlookedAt (old new doc : Json) : Prop where
  enum : AddedEnum old new doc
  minimum : ∀ m n x, numberAt old "minimum" = some m → numberAt new "minimum" = some n →
    m.value < n.value → doc = .num x → n.value ≤ x.value
  maximum : ∀ m n x, numberAt old "maximum" = some m → numberAt new "maximum" = some n →
    n.value < m.value → doc = .num x → x.value ≤ n.value
  minLength : ∀ m n t, numberAt old "minLength" = some m → numberAt new "minLength" = some n →
    m.value < n.value → doc = .str t → n.value ≤ t.length
  maxLength : ∀ m n t, numberAt old "maxLength" = some m → numberAt new "maxLength" = some n →
    n.value < m.value → doc = .str t → t.length ≤ n.value

section Soundness

variable {matchesPattern : String → String → Bool}

/-- The overlooked assertions on all properties. Below a property whose type is not exactly
`"object"` nothing was compared. -/
inductive OverlookedBelow (matchesPattern : String → String → Bool) :
    Json → Json → Json → Prop where
  | intro {old new doc : Json}
      (fields : ∀ name f f' v, childAt old "properties" name = some f →
        childAt new "properties" name = some f' → doc.get name = some v → OverlookedAt f f' v)
      (nested : ∀ name f f' v, childAt old "properties" name = some f →
        childAt new "properties" name = some f' → doc.get name = some v →
        f.get "type" = some (.str "object") → OverlookedBelow matchesPattern f f' v)
      (required : ∀ name f f' v, childAt old "properties" name = some f →
        childAt new "properties" name = some f' → doc.get name = some v →
        f.get "type" ≠ some (.str "object") → HasRequired f' v)
      (properties : ∀ name f f' v, childAt old "properties" name = some f →
        childAt new "properties" name = some f' → doc.get name = some v →
        f.get "type" ≠ some (.str "object") →
        ∀ name sub w, childAt f' "properties" name = some sub → v.get name = some w →
          Valid matchesPattern sub w) :
      OverlookedBelow matchesPattern old new doc

/-- All that the comparison overlooks. At the top `type` is not compared either. -/
structure Overlooked (matchesPattern : String → String → Bool) (old new doc : Json) : Prop where
  type : ∀ t, new.get "type" = some t → typeAllows t doc = true
  enum : AddedEnum old new doc
  below : OverlookedBelow matchesPattern old new doc

/-! ## Soundness up to what is overlooked -/

variable {doc old new : Json}

theorem any_type_of_agreeItems {ts us : List Json}
    (h : Json.agreeItems JsonNumber.same ts us = true) :
    (ts.any fun name => (name.asStr.map (hasType · doc)).getD false) =
      us.any fun name => (name.asStr.map (hasType · doc)).getD false := by
  induction ts generalizing us with
  | nil =>
    cases us with
    | nil => rfl
    | cons u us => simp [Json.agreeItems] at h
  | cons t ts ih =>
    cases us with
    | nil => simp [Json.agreeItems] at h
    | cons u us =>
      rw [Json.agreeItems, Bool.and_eq_true] at h
      have hhead : t.asStr = u.asStr := by
        cases t <;> cases u <;> simp_all [Json.agree, Json.asStr]
      rw [List.any_cons, List.any_cons, hhead, ih h.2]

theorem typeAllows_of_same {t u : Json} (h : t.same u = true) :
    typeAllows t doc = typeAllows u doc := by
  unfold Json.same at h
  cases t <;> cases u <;> simp only [Json.agree, Bool.false_eq_true] at h
  case str.str a b => rw [beq_iff_eq.mp h]
  case arr.arr ts us => exact any_type_of_agreeItems h
  all_goals rfl

theorem enum_iff_of_enumGrows (hgrows : EnumGrows old new)
    (hold : ∀ values, old.arrayAt "enum" = some values → ∃ v ∈ values, doc.equal v = true) :
    (∀ values, new.arrayAt "enum" = some values → ∃ v ∈ values, doc.equal v = true) ↔
      AddedEnum old new doc := by
  constructor
  · intro h _
    exact h
  · intro hadded newEnum hnew
    cases holdEnum : old.arrayAt "enum" with
    | none => exact hadded holdEnum newEnum hnew
    | some oldEnum =>
      obtain ⟨v, hv, heq⟩ := hold oldEnum holdEnum
      obtain ⟨newEnum', hnew', hsub⟩ := hgrows oldEnum holdEnum
      obtain rfl : newEnum = newEnum' := Option.some.inj (hnew.symm.trans hnew')
      obtain ⟨w, hw, hwv⟩ := hsub v hv
      exact ⟨w, hw, Json.equal_of_equal_of_same heq hwv⟩

/-- A bound of the new version was there before, as tight or tighter. -/
theorem bound_of_loosens {lowerIsTighter : Bool} {old new : Option JsonNumber} {x : Rat}
    (le : Rat → Rat → Prop) [IsTrans Rat le] (hloosens : Loosens lowerIsTighter old new)
    (hold : ∀ m, old = some m → le m.value x)
    (hover : ∀ m n, old = some m → new = some n → ¬ le n.value m.value → le n.value x)
    (n : JsonNumber) (hn : new = some n) : le n.value x := by
  subst hn
  cases old with
  | none => exact hloosens.elim
  | some m =>
    by_cases hweaker : le n.value m.value
    · exact trans_of le hweaker (hold m rfl)
    · exact hover m n rfl rfl hweaker

theorem asserts_of_overlookedAt (hcompat : FieldCompatible old new)
    (hold : Asserts matchesPattern old doc) (hover : OverlookedAt old new doc) :
    Asserts matchesPattern new doc where
  type := by
    intro t ht
    have hsame := hcompat.type
    rw [ht] at hsame
    cases holdType : old.get "type" with
    | none => simp [holdType, sameOption] at hsame
    | some u =>
      rw [holdType] at hsame
      rw [← typeAllows_of_same hsame]
      exact hold.type u holdType
  enum := (enum_iff_of_enumGrows hcompat.enum hold.enum).mpr hover.enum
  minimum := by
    intro n x hn hx
    exact bound_of_loosens (· ≤ ·) hcompat.minimum (fun m hm => hold.minimum m x hm hx)
      (fun m n hm hn hlt => hover.minimum m n x hm hn (not_le.mp hlt) hx) n hn
  maximum := by
    intro n x hn hx
    exact bound_of_loosens (· ≥ ·) hcompat.maximum (fun m hm => hold.maximum m x hm hx)
      (fun m n hm hn hlt => hover.maximum m n x hm hn (not_le.mp hlt) hx) n hn
  minLength := by
    intro n t hn ht
    exact bound_of_loosens (· ≤ ·) hcompat.minLength (fun m hm => hold.minLength m t hm ht)
      (fun m n hm hn hlt => hover.minLength m n t hm hn (not_le.mp hlt) ht) n hn
  maxLength := by
    intro n t hn ht
    exact bound_of_loosens (· ≥ ·) hcompat.maxLength (fun m hm => hold.maxLength m t hm ht)
      (fun m n hm hn hlt => hover.maxLength m n t hm hn (not_le.mp hlt) ht) n hn
  pattern := by
    intro p t hp ht
    rcases hcompat.pattern with hnone | hsame
    · rw [hnone] at hp
      cases hp
    · rw [hp, sameOption_some_str] at hsame
      exact hold.pattern p t hsame ht

theorem Asserts.overlookedAt (hnew : Asserts matchesPattern new doc) :
    OverlookedAt old new doc where
  enum := fun _ => hnew.enum
  minimum := fun _ n x _ hn _ hx => hnew.minimum n x hn hx
  maximum := fun _ n x _ hn _ hx => hnew.maximum n x hn hx
  minLength := fun _ n t _ hn _ ht => hnew.minLength n t hn ht
  maxLength := fun _ n t _ hn _ ht => hnew.maxLength n t hn ht

/-- `required` only shrinks. -/
theorem HasRequired.mono (hadditive : Additive old new) (hold : HasRequired old doc) :
    HasRequired new doc := by
  obtain ⟨-, -, -, required, -, -, -⟩ := hadditive
  intro fields hdoc name hname
  exact hold fields hdoc name (required name hname)

/-- The properties are valid in the new version exactly when the overlooked assertions hold. -/
theorem properties_iff_overlookedBelow (hadditive : Additive old new)
    (hdeclared : Declared old doc)
    (hold : ∀ name sub v, childAt old "properties" name = some sub →
      doc.get name = some v → Valid matchesPattern sub v) :
    (∀ name sub v, childAt new "properties" name = some sub →
      doc.get name = some v → Valid matchesPattern sub v) ↔
      OverlookedBelow matchesPattern old new doc := by
  -- Induction on the comparison: only below a property of type `"object"` does it go on.
  induction hadditive generalizing doc with
  | @intro old new kept fields nested required enum defsKept defs ihNested ihDefs =>
    obtain ⟨names, declaredBelow⟩ := hdeclared
    constructor
    · intro hnew
      refine OverlookedBelow.intro ?_ ?_ ?_ ?_
      · intro name f f' v hf hf' hv
        obtain ⟨asserts, -, -⟩ := hnew name f' v hf' hv
        exact asserts.overlookedAt
      · intro name f f' v hf hf' hv htype
        obtain ⟨-, -, properties⟩ := hnew name f' v hf' hv
        obtain ⟨-, -, oldProperties⟩ := hold name f v hf hv
        exact (ihNested name f f' hf hf' htype (declaredBelow name f v hf hv)
          oldProperties).mp properties
      · intro name f f' v hf hf' hv _
        obtain ⟨-, hrequired, -⟩ := hnew name f' v hf' hv
        exact hrequired
      · intro name f f' v hf hf' hv _
        obtain ⟨-, -, properties⟩ := hnew name f' v hf' hv
        exact properties
    · rintro ⟨overFields, overNested, overRequired, overProperties⟩ name f' v hf' hv
      obtain ⟨f, hf⟩ := names name v hv
      obtain ⟨oldAsserts, oldRequired, oldProperties⟩ := hold name f v hf hv
      have hasserts := asserts_of_overlookedAt (fields name f f' hf hf') oldAsserts
        (overFields name f f' v hf hf' hv)
      by_cases htype : f.get "type" = some (.str "object")
      · refine Valid.intro hasserts (oldRequired.mono (nested name f f' hf hf' htype)) ?_
        exact (ihNested name f f' hf hf' htype (declaredBelow name f v hf hv)
          oldProperties).mpr (overNested name f f' v hf hf' hv htype)
      · exact Valid.intro hasserts (overRequired name f f' v hf hf' hv htype)
          (overProperties name f f' v hf hf' hv htype)

theorem valid_iff_overlooked {fields : JsonMap} (hadditive : Additive old new)
    (hold : Valid matchesPattern old (.obj fields)) (hdeclared : Declared old (.obj fields)) :
    Valid matchesPattern new (.obj fields) ↔ Overlooked matchesPattern old new (.obj fields) := by
  obtain ⟨oldAsserts, oldRequired, oldProperties⟩ := hold
  have hbelow := properties_iff_overlookedBelow hadditive hdeclared oldProperties
  have henum : EnumGrows old new := by
    obtain ⟨-, -, -, -, enum, -, -⟩ := hadditive
    exact enum
  have haddedEnum := enum_iff_of_enumGrows henum oldAsserts.enum
  constructor
  · rintro ⟨asserts, -, properties⟩
    exact ⟨asserts.type, haddedEnum.mp asserts.enum, hbelow.mp properties⟩
  · rintro ⟨htype, hadded, hover⟩
    -- the bounds on numbers and texts say nothing about an object
    exact Valid.intro ⟨htype, haddedEnum.mpr hadded, by simp, by simp, by simp, by simp, by simp⟩
      (oldRequired.mono hadditive) (hbelow.mpr hover)

/-- Every object that is valid against the old version and uses only its names stays valid. -/
def KeepsDocuments (matchesPattern : String → String → Bool) (old new : Json) : Prop :=
  ∀ fields, Valid matchesPattern old (.obj fields) → Declared old (.obj fields) →
    Valid matchesPattern new (.obj fields)

/-- Accepted changes keep the documents exactly when these meet what is overlooked. -/
theorem keepsDocuments_iff_overlooked (env : DisplayEnv)
    (matchesPattern : String → String → Bool) (old new : Json)
    (hcompatible : checkCompatibility env old new = .compatible) :
    KeepsDocuments matchesPattern old new ↔
      ∀ fields, Valid matchesPattern old (.obj fields) → Declared old (.obj fields) →
        Overlooked matchesPattern old new (.obj fields) := by
  have hadditive := checkCompatibility_iff_additive.mp hcompatible
  constructor
  · intro hkeeps fields hvalid hdeclared
    exact (valid_iff_overlooked hadditive hvalid hdeclared).mp (hkeeps fields hvalid hdeclared)
  · intro hover fields hvalid hdeclared
    exact (valid_iff_overlooked hadditive hvalid hdeclared).mpr (hover fields hvalid hdeclared)

end Soundness

/-! ## An enumeration added to a field -/

/-- The keywords that `Valid` gives a meaning to. -/
inductive IsSchema : Json → Prop where
  | intro {s : Json}
      (keywords : ∀ key v, s.get key = some v → key ∈ ["type", "properties", "required", "enum",
        "minimum", "maximum", "minLength", "maxLength", "pattern", "default"])
      (type : ∀ v, s.get "type" = some v →
        (∃ name, v = .str name) ∨ ∃ names : List String, v = .arr (names.map .str))
      (properties : ∀ v, s.get "properties" = some v → ∃ fields, v = .obj fields)
      (nested : ∀ name sub, childAt s "properties" name = some sub → IsSchema sub)
      (required : ∀ v, s.get "required" = some v → ∃ names : List String, v = .arr (names.map .str))
      (enum : ∀ v, s.get "enum" = some v → ∃ values, v = .arr values)
      (bounds : ∀ key ∈ ["minimum", "maximum"], ∀ v, s.get key = some v → ∃ n, v = .num (.int n))
      (lengths : ∀ key ∈ ["minLength", "maxLength"], ∀ v, s.get key = some v →
        ∃ n : ℕ, v = .num (.int n))
      (pattern : ∀ v, s.get "pattern" = some v → ∃ p, v = .str p) :
      IsSchema s

def kindSchema (kind : Json) : Json :=
  .obj [("properties", .obj [("kind", kind)])]

def freeKind : Json :=
  .obj [("type", .str "string")]

def fixedKind : Json :=
  .obj [("enum", .arr [.str "a"]), ("type", .str "string")]

theorem childAt_kindSchema {kind sub : Json} {name : String}
    (h : childAt (kindSchema kind) "properties" name = some sub) : name = "kind" ∧ kind = sub := by
  simpa [childAt, kindSchema, Json.objectAt, Json.get, get_cons] using h

theorem kindSchema_isSchema {kind : Json} (h : IsSchema kind) : IsSchema (kindSchema kind) := by
  refine IsSchema.intro ?_ ?_ ?_ ?_ ?_ ?_ ?_ ?_ ?_
  case refine_4 =>
    intro name sub hsub
    obtain ⟨-, rfl⟩ := childAt_kindSchema hsub
    exact h
  all_goals simp [kindSchema, Json.get, get_cons]

theorem freeKind_isSchema : IsSchema freeKind := by
  refine IsSchema.intro ?_ ?_ ?_ ?_ ?_ ?_ ?_ ?_ ?_ <;>
    simp [freeKind, childAt, Json.objectAt, Json.get, get_cons]

theorem fixedKind_isSchema : IsSchema fixedKind := by
  refine IsSchema.intro ?_ ?_ ?_ ?_ ?_ ?_ ?_ ?_ ?_
  case refine_1 =>
    intro key v hv
    rw [fixedKind, Json.get, get_cons, get_cons] at hv
    split_ifs at hv with henum htype
    · simp [henum]
    · simp [htype]
    · cases hv
  all_goals simp [fixedKind, childAt, Json.objectAt, Json.get, get_cons]

theorem get_kindDocument {v : Json} {name : String} {w : Json}
    (h : (Json.obj [("kind", v)]).get name = some w) : name = "kind" ∧ v = w := by
  simpa [Json.get, get_cons] using h

theorem freeKind_valid (text : String) (matchesPattern : String → String → Bool) :
    Valid matchesPattern freeKind (.str text) := by
  refine Valid.intro ⟨?_, ?_, ?_, ?_, ?_, ?_, ?_⟩ ?_ ?_
  all_goals simp [freeKind, HasRequired, numberAt, Json.arrayAt, Json.get, get_cons, typeAllows,
    hasType]

theorem kindDocument_valid (text : String) (matchesPattern : String → String → Bool) :
    Valid matchesPattern (kindSchema freeKind) (.obj [("kind", .str text)]) := by
  refine Valid.intro ⟨?_, ?_, ?_, ?_, ?_, ?_, ?_⟩ ?_ ?_
  case refine_9 =>
    intro name sub v hsub hv
    obtain ⟨-, rfl⟩ := childAt_kindSchema hsub
    obtain ⟨-, rfl⟩ := get_kindDocument hv
    exact freeKind_valid text matchesPattern
  all_goals simp [kindSchema, HasRequired, requiredNames, Json.arrayAt, Json.get, get_cons]

theorem kindDocument_declared (text : String) :
    Declared (kindSchema freeKind) (.obj [("kind", .str text)]) := by
  refine Declared.intro ?_ ?_
  · intro name v hv
    obtain ⟨rfl, -⟩ := get_kindDocument hv
    exact ⟨freeKind, by simp [childAt, kindSchema, Json.objectAt, Json.get, get_cons]⟩
  · intro name sub v _ hv
    obtain ⟨-, rfl⟩ := get_kindDocument hv
    exact Declared.intro (by simp [Json.get]) (by simp [Json.get])

theorem kindDocument_invalid (matchesPattern : String → String → Bool) :
    ¬ Valid matchesPattern (kindSchema fixedKind) (.obj [("kind", .str "b")]) := by
  rintro ⟨-, -, properties⟩
  obtain ⟨asserts, -, -⟩ := properties "kind" fixedKind (.str "b")
    (by simp [childAt, kindSchema, Json.objectAt, Json.get, get_cons])
    (by simp [Json.get, get_cons])
  obtain ⟨v, hv, hequal⟩ := asserts.enum [.str "a"]
    (by simp [fixedKind, Json.arrayAt, Json.get, get_cons])
  obtain rfl := List.mem_singleton.mp hv
  simp [Json.equal, Json.agree] at hequal

/-- A text field that becomes an enumeration counts as compatible. -/
theorem keepsDocuments_fails_enumAdded :
    ¬ ∀ (env : DisplayEnv) (matchesPattern : String → String → Bool) (old new : Json),
      IsSchema old → IsSchema new → checkCompatibility env old new = .compatible →
        KeepsDocuments matchesPattern old new := by
  intro h
  have hkeeps := h ⟨fun _ => "", fun _ => ""⟩ (fun _ _ => true) (kindSchema freeKind)
    (kindSchema fixedKind) (kindSchema_isSchema freeKind_isSchema)
    (kindSchema_isSchema fixedKind_isSchema) (by decide +kernel)
  exact kindDocument_invalid _
    (hkeeps [("kind", .str "b")] (kindDocument_valid "b" _) (kindDocument_declared "b"))

/-- The overlooked assertion of the same change. -/
theorem keepsDocuments_iff_overlooked_enumAdded :
    KeepsDocuments (fun _ _ => true) (kindSchema freeKind) (kindSchema fixedKind) ↔
      ∀ fields, Valid (fun _ _ => true) (kindSchema freeKind) (.obj fields) →
        Declared (kindSchema freeKind) (.obj fields) →
        Overlooked (fun _ _ => true) (kindSchema freeKind) (kindSchema fixedKind) (.obj fields) :=
  keepsDocuments_iff_overlooked ⟨fun _ => "", fun _ => ""⟩ _ _ _ (by decide +kernel)

end LifeEngine.Schema
