import LifeEngine.Types.Number

/-!
# The compatibility checker

`check_compatibility` compares two versions of a JSON Schema and lists the
changes that break its additive-only rule.  It reads both versions as plain JSON:
a keyword of the wrong type counts as absent, and nothing requires the values to
be schemas.
-/

namespace LifeEngine.Schema

inductive ChangeKind where
  | fieldRemoved
  | fieldRenamed
  | typeChanged
  | requiredFieldAdded
  | enumValueRemoved
  | constraintTightened
  | defaultChanged
  deriving DecidableEq, Repr

structure BreakingChange where
  path : String
  kind : ChangeKind
  description : String
  deriving DecidableEq, Repr

inductive CompatibilityResult where
  | compatible
  | breaking (changes : List BreakingChange)
  deriving DecidableEq, Repr

/-- How values are written in the descriptions. -/
structure DisplayEnv where
  /-- `Value::to_string`. -/
  showJson : Json → String
  /-- The display of `Number::as_f64`. -/
  showF64 : JsonNumber → String

variable (env : DisplayEnv)

def typeDisplay : Option Json → String
  | some (.str s) => s
  | some v => env.showJson v
  | none => "unspecified"

/-! ## Equality of optional keywords -/

/-- `==` on `Option<&Value>`. -/
def sameOption : Option Json → Option Json → Bool
  | none, none => true
  | some a, some b => a.same b
  | _, _ => false

theorem sameOption_refl (a : Option Json) : sameOption a a = true := by
  cases a with
  | none => rfl
  | some a => exact Json.same_refl a

theorem sameOption_trans {a b c : Option Json} (hab : sameOption a b = true)
    (hbc : sameOption b c = true) : sameOption a c = true := by
  cases a <;> cases b <;> cases c <;> simp only [sameOption, Bool.false_eq_true] at hab hbc ⊢
  exact Json.same_trans hab hbc

theorem sameOption_some_str {a : Option Json} {s : String} :
    sameOption a (some (.str s)) = true ↔ a = some (.str s) := by
  cases a with
  | none => simp [sameOption]
  | some a => simpa [sameOption] using Json.same_str_iff a s

theorem sameOption_some_str_left {a : Option Json} {s : String} :
    sameOption (some (.str s)) a = true ↔ a = some (.str s) := by
  cases a with
  | none => simp [sameOption]
  | some a => simpa [sameOption] using Json.str_same_iff a s

theorem isNone_of_sameOption {a b : Option Json} (h : sameOption a b = true) :
    a.isNone = b.isNone := by
  cases a <;> cases b <;> simp_all [sameOption]

/-! ## The keywords of one field -/

/-- The number under a keyword that `as_f64` is read from. -/
def numberAt (field : Json) (keyword : String) : Option JsonNumber :=
  match field.get keyword with
  | some (.num n) => some n
  | _ => none

def checkNumericTightened (oldField newField : Json) (keyword path name : String)
    (lowerIsTighter : Bool) : List BreakingChange :=
  match numberAt oldField keyword, numberAt newField keyword with
  | some old, some new =>
    let tightened := if lowerIsTighter then new.asF64 < old.asF64 else new.asF64 > old.asF64
    if tightened then
      [⟨path, .constraintTightened, "Field '" ++ name ++ "' " ++ keyword ++
        " tightened from " ++ env.showF64 old ++ " to " ++ env.showF64 new⟩]
    else []
  | none, some new =>
    [⟨path, .constraintTightened, "Field '" ++ name ++ "' had " ++ keyword ++
      " constraint " ++ env.showF64 new ++ " added"⟩]
  | _, none => []

def comparePattern (oldField newField : Json) (path name : String) : List BreakingChange :=
  let oldPattern := oldField.get "pattern"
  let newPattern := newField.get "pattern"
  if newPattern.isSome && !sameOption oldPattern newPattern then
    if oldPattern.isNone then
      [⟨path, .constraintTightened, "Field '" ++ name ++ "' had pattern constraint added"⟩]
    else
      [⟨path, .constraintTightened, "Field '" ++ name ++ "' pattern constraint changed"⟩]
  else []

def compareFormat (oldField newField : Json) (path name : String) : List BreakingChange :=
  let oldFormat := oldField.get "format"
  let newFormat := newField.get "format"
  if newFormat.isSome && oldFormat.isNone then
    [⟨path, .constraintTightened, "Field '" ++ name ++ "' had format validation '" ++
      (newFormat.bind Json.asStr).getD "unknown" ++ "' added"⟩]
  else []

def compareConstraints (oldField newField : Json) (path name : String) : List BreakingChange :=
  checkNumericTightened env oldField newField "maxLength" path name true ++
  checkNumericTightened env oldField newField "minLength" path name false ++
  checkNumericTightened env oldField newField "maximum" path name true ++
  checkNumericTightened env oldField newField "minimum" path name false ++
  comparePattern oldField newField path name ++
  compareFormat oldField newField path name

def compareType (oldField newField : Json) (path name : String) : List BreakingChange :=
  let oldType := oldField.get "type"
  let newType := newField.get "type"
  if sameOption oldType newType then []
  else
    [⟨path, .typeChanged, "Field '" ++ name ++ "' type changed from " ++
      typeDisplay env oldType ++ " to " ++ typeDisplay env newType⟩]

def compareDefault (oldField newField : Json) (path name : String) : List BreakingChange :=
  let oldDefault := oldField.get "default"
  let newDefault := newField.get "default"
  if !sameOption oldDefault newDefault && oldDefault.isSome then
    [⟨path, .defaultChanged, "Field '" ++ name ++ "' default value changed"⟩]
  else []

/-! ## The keywords of a schema -/

/-- Entries of `required` that are not strings are skipped. -/
def requiredNames (s : Json) : List String :=
  ((s.arrayAt "required").getD []).filterMap Json.asStr

def compareRequired (oldSchema newSchema : Json) (pre : String) : List BreakingChange :=
  (requiredNames newSchema).flatMap fun field =>
    if (requiredNames oldSchema).contains field then []
    else
      [⟨pre ++ "/required/" ++ field, .requiredFieldAdded, "Field '" ++ field ++
        "' was made required"⟩]

def enumValueDisplay : Json → String
  | .str s => "'" ++ s ++ "'"
  | v => env.showJson v

def compareEnums (oldSchema newSchema : Json) (pre : String) : List BreakingChange :=
  match oldSchema.arrayAt "enum" with
  | none => []
  | some oldEnum =>
    match newSchema.arrayAt "enum" with
    | none => [⟨pre ++ "/enum", .enumValueRemoved, "Enum constraint was removed entirely"⟩]
    | some newEnum =>
      oldEnum.flatMap fun oldVal =>
        if newEnum.any fun newVal => newVal.same oldVal then []
        else
          [⟨pre ++ "/enum", .enumValueRemoved, "Enum value " ++
            enumValueDisplay env oldVal ++ " was removed"⟩]

/-! ## The recursion -/

theorem sizeOf_lt_of_get {s v : Json} {key : String} (h : s.get key = some v) :
    sizeOf v < sizeOf s := by
  cases s with
  | obj fields =>
    have hmem : (key, v) ∈ fields := JsonMap.mem_of_mem_entries (JsonMap.mem_entries_iff.mpr h)
    have hlt := List.sizeOf_lt_of_mem hmem
    simp only [Prod.mk.sizeOf_spec] at hlt
    simp only [Json.obj.sizeOf_spec]
    omega
  | null | bool | num | str | arr => simp [Json.get] at h

theorem sizeOf_lt_of_mem_entries {s : Json} {key name : String} {fields : JsonMap} {v : Json}
    (hfields : s.objectAt key = some fields) (hmem : (name, v) ∈ fields.entries) :
    sizeOf v < sizeOf s := by
  have hget := Json.objectAt_eq_some.mp hfields
  have hv : sizeOf v < sizeOf (Json.obj fields) := by
    have hlt := List.sizeOf_lt_of_mem (JsonMap.mem_of_mem_entries hmem)
    simp only [Prod.mk.sizeOf_spec] at hlt
    simp only [Json.obj.sizeOf_spec]
    omega
  exact hv.trans (sizeOf_lt_of_get hget)

mutual

def compareSchemas (oldSchema newSchema : Json) (pre : String) : List BreakingChange :=
  compareProperties oldSchema newSchema pre ++
  compareRequired oldSchema newSchema pre ++
  compareEnums env oldSchema newSchema pre ++
  compareDefs oldSchema newSchema
termination_by 4 * sizeOf oldSchema + 2

def compareProperties (oldSchema newSchema : Json) (pre : String) : List BreakingChange :=
  match hold : oldSchema.objectAt "properties" with
  | none => []
  | some oldProps =>
    oldProps.entries.attach.flatMap fun ⟨(name, oldField), hmem⟩ =>
      have := sizeOf_lt_of_mem_entries hold hmem
      compareField name oldField (newSchema.objectAt "properties") pre
termination_by 4 * sizeOf oldSchema + 1

/-- The body of the loop over the properties of the old version. -/
def compareField (name : String) (oldField : Json) (newProps : Option JsonMap) (pre : String) :
    List BreakingChange :=
  let path := pre ++ "/properties/" ++ name
  match newProps.bind fun props => props.get name with
  | none => [⟨path, .fieldRemoved, "Field '" ++ name ++ "' was removed"⟩]
  | some newField =>
    compareType env oldField newField path name ++
    compareConstraints env oldField newField path name ++
    compareDefault oldField newField path name ++
    compareEnums env oldField newField path ++
    (if sameOption (oldField.get "type") (some (.str "object")) then
      compareSchemas oldField newField path
    else [])
termination_by 4 * sizeOf oldField + 3

def compareDefs (oldSchema newSchema : Json) : List BreakingChange :=
  match hold : oldSchema.objectAt "$defs" with
  | none => []
  | some oldDefs =>
    match newSchema.objectAt "$defs" with
    | none =>
      oldDefs.entries.map fun (name, _) =>
        ⟨"/$defs/" ++ name, .fieldRemoved, "Definition '" ++ name ++ "' was removed"⟩
    | some newDefs =>
      oldDefs.entries.attach.flatMap fun ⟨(name, oldDef), hmem⟩ =>
        have := sizeOf_lt_of_mem_entries hold hmem
        match newDefs.get name with
        | some newDef => compareSchemas oldDef newDef ("/$defs/" ++ name)
        | none =>
          [⟨"/$defs/" ++ name, .fieldRemoved, "Definition '" ++ name ++ "' was removed"⟩]
termination_by 4 * sizeOf oldSchema + 1

end

def checkCompatibility (oldSchema newSchema : Json) : CompatibilityResult :=
  let changes := compareSchemas env oldSchema newSchema ""
  if changes.isEmpty then .compatible else .breaking changes

variable {env}

theorem checkCompatibility_eq_compatible_iff {oldSchema newSchema : Json} :
    checkCompatibility env oldSchema newSchema = .compatible ↔
      compareSchemas env oldSchema newSchema "" = [] := by
  unfold checkCompatibility
  by_cases h : compareSchemas env oldSchema newSchema "" = [] <;> simp

/-! ## The additive-only rule

The rule that the checker enforces, as a relation between two values: what each
keyword of the old version asks of the new one, at every level that the checker
reaches. -/

/-- A bound that is absent, or was there before and is not tighter as a double. -/
def Loosens (lowerIsTighter : Bool) : Option JsonNumber → Option JsonNumber → Prop
  | _, none => True
  | none, some _ => False
  | some old, some new =>
    if lowerIsTighter then old.asF64 ≤ new.asF64 else new.asF64 ≤ old.asF64

theorem Loosens.refl (lowerIsTighter : Bool) (a : Option JsonNumber) :
    Loosens lowerIsTighter a a := by
  cases a <;> simp [Loosens]

theorem Loosens.trans {lowerIsTighter : Bool} {a b c : Option JsonNumber}
    (hab : Loosens lowerIsTighter a b) (hbc : Loosens lowerIsTighter b c) :
    Loosens lowerIsTighter a c := by
  cases c with
  | none => exact trivial
  | some c =>
    cases b with
    | none => exact hbc.elim
    | some b =>
      cases a with
      | none => exact hab.elim
      | some a =>
        cases lowerIsTighter with
        | true => exact le_trans hab hbc
        | false => exact le_trans hbc hab

/-- Every value of an old enumeration is a value of the new one. -/
def EnumGrows (old new : Json) : Prop :=
  ∀ oldEnum, old.arrayAt "enum" = some oldEnum →
    ∃ newEnum, new.arrayAt "enum" = some newEnum ∧
      ∀ v ∈ oldEnum, ∃ w ∈ newEnum, w.same v = true

theorem EnumGrows.refl (s : Json) : EnumGrows s s := by
  intro values hvalues
  refine ⟨values, hvalues, ?_⟩
  intro v hv
  exact ⟨v, hv, Json.same_refl v⟩

theorem EnumGrows.trans {a b c : Json} (hab : EnumGrows a b) (hbc : EnumGrows b c) :
    EnumGrows a c := by
  intro oldEnum hold
  obtain ⟨midEnum, hmid, hsub⟩ := hab oldEnum hold
  obtain ⟨newEnum, hnew, hsub'⟩ := hbc midEnum hmid
  refine ⟨newEnum, hnew, ?_⟩
  intro v hv
  obtain ⟨w, hw, hwv⟩ := hsub v hv
  obtain ⟨u, hu, huw⟩ := hsub' w hw
  exact ⟨u, hu, Json.same_trans huw hwv⟩

/-- What a property asks of its next version, its own properties apart. -/
structure FieldCompatible (old new : Json) : Prop where
  type : sameOption (old.get "type") (new.get "type") = true
  maxLength : Loosens true (numberAt old "maxLength") (numberAt new "maxLength")
  minLength : Loosens false (numberAt old "minLength") (numberAt new "minLength")
  maximum : Loosens true (numberAt old "maximum") (numberAt new "maximum")
  minimum : Loosens false (numberAt old "minimum") (numberAt new "minimum")
  pattern : new.get "pattern" = none ∨ sameOption (old.get "pattern") (new.get "pattern") = true
  format : new.get "format" = none ∨ old.get "format" ≠ none
  default : old.get "default" = none ∨ sameOption (old.get "default") (new.get "default") = true
  enum : EnumGrows old new

theorem FieldCompatible.refl (s : Json) : FieldCompatible s s where
  type := sameOption_refl _
  maxLength := Loosens.refl _ _
  minLength := Loosens.refl _ _
  maximum := Loosens.refl _ _
  minimum := Loosens.refl _ _
  pattern := Or.inr (sameOption_refl _)
  format := (em _).imp_right id
  default := Or.inr (sameOption_refl _)
  enum := EnumGrows.refl s

theorem FieldCompatible.trans {a b c : Json} (hab : FieldCompatible a b)
    (hbc : FieldCompatible b c) : FieldCompatible a c where
  type := sameOption_trans hab.type hbc.type
  maxLength := hab.maxLength.trans hbc.maxLength
  minLength := hab.minLength.trans hbc.minLength
  maximum := hab.maximum.trans hbc.maximum
  minimum := hab.minimum.trans hbc.minimum
  pattern := by
    -- A pattern of the last version is the pattern of both versions before it.
    rcases hbc.pattern with hnone | hsame
    · exact Or.inl hnone
    · rcases hab.pattern with hnone | hsame'
      · left
        have hmid := isNone_of_sameOption hsame
        rw [hnone] at hmid
        exact Option.isNone_iff_eq_none.mp hmid.symm
      · exact Or.inr (sameOption_trans hsame' hsame)
  format := by
    rcases hbc.format with hnone | hsome
    · exact Or.inl hnone
    · exact Or.inr (hab.format.resolve_left hsome)
  default := by
    rcases hab.default with hnone | hsame
    · exact Or.inl hnone
    · rcases hbc.default with hnone | hsame'
      · left
        have hold := isNone_of_sameOption hsame
        rw [hnone] at hold
        exact Option.isNone_iff_eq_none.mp hold
      · exact Or.inr (sameOption_trans hsame hsame')
  enum := hab.enum.trans hbc.enum

/-- What is stored under a name in the object of a keyword. -/
def childAt (s : Json) (keyword name : String) : Option Json :=
  (s.objectAt keyword).bind fun fields => fields.get name

theorem sizeOf_lt_of_childAt {s child : Json} {keyword name : String}
    (h : childAt s keyword name = some child) : sizeOf child < sizeOf s := by
  obtain ⟨fields, hfields, hget⟩ := Option.bind_eq_some_iff.mp h
  exact sizeOf_lt_of_mem_entries hfields (JsonMap.mem_entries_iff.mpr hget)

/-- The new version only adds to the old one. -/
inductive Additive : Json → Json → Prop where
  | intro {old new : Json}
      (kept : ∀ name f, childAt old "properties" name = some f →
        ∃ f', childAt new "properties" name = some f')
      (fields : ∀ name f f', childAt old "properties" name = some f →
        childAt new "properties" name = some f' → FieldCompatible f f')
      (nested : ∀ name f f', childAt old "properties" name = some f →
        childAt new "properties" name = some f' → f.get "type" = some (.str "object") →
        Additive f f')
      (required : ∀ name ∈ requiredNames new, name ∈ requiredNames old)
      (enum : EnumGrows old new)
      (defsKept : ∀ name d, childAt old "$defs" name = some d →
        ∃ d', childAt new "$defs" name = some d')
      (defs : ∀ name d d', childAt old "$defs" name = some d →
        childAt new "$defs" name = some d' → Additive d d') :
      Additive old new

theorem Additive.refl (s : Json) : Additive s s := by
  refine Additive.intro (fun name f h => ⟨f, h⟩) ?_ ?_ (fun name h => h) (EnumGrows.refl s)
    (fun name d h => ⟨d, h⟩) ?_
  · intro name f f' hf hf'
    obtain rfl : f = f' := Option.some.inj (hf.symm.trans hf')
    exact FieldCompatible.refl f
  · intro name f f' hf hf' _
    obtain rfl : f = f' := Option.some.inj (hf.symm.trans hf')
    have := sizeOf_lt_of_childAt hf
    exact Additive.refl f
  · intro name d d' hd hd'
    obtain rfl : d = d' := Option.some.inj (hd.symm.trans hd')
    have := sizeOf_lt_of_childAt hd
    exact Additive.refl d

theorem Additive.trans {a b c : Json} (hab : Additive a b) (hbc : Additive b c) : Additive a c := by
  induction hab generalizing c with
  | @intro a b kept fields nested required enum defsKept defs ihNested ihDefs =>
    obtain ⟨kept', fields', nested', required', enum', defsKept', defs'⟩ := hbc
    -- A property of the first version is found in the second, and there again.
    refine Additive.intro ?_ ?_ ?_ (fun name h => required name (required' name h))
      (enum.trans enum') ?_ ?_
    · intro name f hf
      obtain ⟨g, hg⟩ := kept name f hf
      exact kept' name g hg
    · intro name f h hf hh
      obtain ⟨g, hg⟩ := kept name f hf
      exact (fields name f g hf hg).trans (fields' name g h hg hh)
    · intro name f h hf hh htype
      obtain ⟨g, hg⟩ := kept name f hf
      apply ihNested name f g hf hg htype
      apply nested' name g h hg hh
      have hsame := (fields name f g hf hg).type
      rw [htype] at hsame
      exact sameOption_some_str_left.mp hsame
    · intro name d hd
      obtain ⟨e, he⟩ := defsKept name d hd
      exact defsKept' name e he
    · intro name d d' hd hd'
      obtain ⟨e, he⟩ := defsKept name d hd
      exact ihDefs name d e hd he (defs' name e d' he hd')

/-! ## The checker decides the rule -/

section

variable {oldSchema newSchema oldField newField : Json} {name path pre : String}

theorem checkNumericTightened_eq_nil_iff {keyword : String} {lowerIsTighter : Bool} :
    checkNumericTightened env oldField newField keyword path name lowerIsTighter = [] ↔
      Loosens lowerIsTighter (numberAt oldField keyword) (numberAt newField keyword) := by
  unfold checkNumericTightened
  cases numberAt oldField keyword <;> cases numberAt newField keyword <;>
    cases lowerIsTighter <;> simp [Loosens]

theorem comparePattern_eq_nil_iff :
    comparePattern oldField newField path name = [] ↔
      newField.get "pattern" = none ∨
        sameOption (oldField.get "pattern") (newField.get "pattern") = true := by
  unfold comparePattern
  by_cases hsame : sameOption (oldField.get "pattern") (newField.get "pattern") = true
  · simp [hsame]
  · cases hnew : newField.get "pattern" with
    | none => simp
    | some p =>
      rw [hnew] at hsame
      simp only [Option.isSome_some, hsame, Bool.not_false, Bool.and_self, if_true]
      split <;> simp

theorem compareFormat_eq_nil_iff :
    compareFormat oldField newField path name = [] ↔
      newField.get "format" = none ∨ oldField.get "format" ≠ none := by
  unfold compareFormat
  cases newField.get "format" <;> cases oldField.get "format" <;> simp

theorem compareType_eq_nil_iff :
    compareType env oldField newField path name = [] ↔
      sameOption (oldField.get "type") (newField.get "type") = true := by
  unfold compareType
  by_cases h : sameOption (oldField.get "type") (newField.get "type") = true <;> simp

theorem compareDefault_eq_nil_iff :
    compareDefault oldField newField path name = [] ↔
      oldField.get "default" = none ∨
        sameOption (oldField.get "default") (newField.get "default") = true := by
  unfold compareDefault
  cases oldField.get "default" <;> simp

theorem compareEnums_eq_nil_iff :
    compareEnums env oldSchema newSchema pre = [] ↔ EnumGrows oldSchema newSchema := by
  unfold compareEnums EnumGrows
  cases oldSchema.arrayAt "enum" with
  | none => simp
  | some oldEnum =>
    cases newSchema.arrayAt "enum" with
    | none => simp
    | some newEnum => simp

theorem compareRequired_eq_nil_iff :
    compareRequired oldSchema newSchema pre = [] ↔
      ∀ name ∈ requiredNames newSchema, name ∈ requiredNames oldSchema := by
  simp [compareRequired]

theorem compareProperties_eq_nil_iff :
    compareProperties env oldSchema newSchema pre = [] ↔
      ∀ name f, childAt oldSchema "properties" name = some f →
        compareField env name f (newSchema.objectAt "properties") pre = [] := by
  unfold compareProperties childAt
  split
  next h => simp [h]
  next props h =>
    simp only [h, List.flatMap_eq_nil_iff, List.mem_attach, true_implies, Subtype.forall,
      Prod.forall, Option.bind_some, JsonMap.mem_entries_iff]

theorem compareField_eq_nil_iff :
    compareField env name oldField (newSchema.objectAt "properties") pre = [] ↔
      ∃ newField, childAt newSchema "properties" name = some newField ∧
        FieldCompatible oldField newField ∧
        (oldField.get "type" = some (.str "object") →
          compareSchemas env oldField newField (pre ++ "/properties/" ++ name) = []) := by
  unfold compareField
  change _ ↔ ∃ newField, (newSchema.objectAt "properties").bind _ = _ ∧ _
  cases hchild : (newSchema.objectAt "properties").bind fun props => props.get name with
  | none => simp
  | some newField =>
    simp only [List.append_eq_nil_iff, compareConstraints, compareType_eq_nil_iff,
      checkNumericTightened_eq_nil_iff, comparePattern_eq_nil_iff, compareFormat_eq_nil_iff,
      compareDefault_eq_nil_iff, compareEnums_eq_nil_iff, sameOption_some_str,
      ite_eq_right_iff, Option.some.injEq, exists_eq_left']
    constructor
    · rintro ⟨⟨⟨⟨htype, ⟨⟨⟨⟨hmaxl, hminl⟩, hmax⟩, hmin⟩, hpat⟩, hfmt⟩, hdef⟩, henum⟩, hrec⟩
      exact ⟨⟨htype, hmaxl, hminl, hmax, hmin, hpat, hfmt, hdef, henum⟩, hrec⟩
    · rintro ⟨⟨htype, hmaxl, hminl, hmax, hmin, hpat, hfmt, hdef, henum⟩, hrec⟩
      exact ⟨⟨⟨⟨htype, ⟨⟨⟨⟨hmaxl, hminl⟩, hmax⟩, hmin⟩, hpat⟩, hfmt⟩, hdef⟩, henum⟩, hrec⟩

theorem compareDefs_eq_nil_iff :
    compareDefs env oldSchema newSchema = [] ↔
      ∀ name d, childAt oldSchema "$defs" name = some d →
        ∃ d', childAt newSchema "$defs" name = some d' ∧
          compareSchemas env d d' ("/$defs/" ++ name) = [] := by
  unfold compareDefs childAt
  split
  next h => simp [h]
  next oldDefs h =>
    split
    next hnew =>
      simp only [h, hnew, List.map_eq_nil_iff]
      rw [List.eq_nil_iff_forall_not_mem]
      simp [JsonMap.mem_entries_iff]
    next newDefs hnew =>
      simp only [h, hnew, List.flatMap_eq_nil_iff, List.mem_attach, Subtype.forall, Prod.forall,
        Option.bind_some, JsonMap.mem_entries_iff]
      refine forall_congr' fun name => forall_congr' fun d => imp_congr_right fun _ => ?_
      cases newDefs.get name <;> simp

end

theorem compareSchemas_eq_nil_iff {oldSchema newSchema : Json} {pre : String} :
    compareSchemas env oldSchema newSchema pre = [] ↔ Additive oldSchema newSchema := by
  rw [compareSchemas]
  simp only [List.append_eq_nil_iff, compareProperties_eq_nil_iff, compareRequired_eq_nil_iff,
    compareEnums_eq_nil_iff, compareDefs_eq_nil_iff, compareField_eq_nil_iff]
  constructor
  · rintro ⟨⟨⟨hprops, hrequired⟩, henum⟩, hdefs⟩
    refine Additive.intro ?_ ?_ ?_ hrequired henum ?_ ?_
    · intro name f hf
      obtain ⟨f', hf', -⟩ := hprops name f hf
      exact ⟨f', hf'⟩
    · intro name f f' hf hf'
      obtain ⟨g, hg, hfield, -⟩ := hprops name f hf
      obtain rfl : g = f' := Option.some.inj (hg.symm.trans hf')
      exact hfield
    · intro name f f' hf hf' htype
      obtain ⟨g, hg, -, hrec⟩ := hprops name f hf
      obtain rfl : g = f' := Option.some.inj (hg.symm.trans hf')
      have := sizeOf_lt_of_childAt hf
      exact compareSchemas_eq_nil_iff.mp (hrec htype)
    · intro name d hd
      obtain ⟨d', hd', -⟩ := hdefs name d hd
      exact ⟨d', hd'⟩
    · intro name d d' hd hd'
      obtain ⟨e, he, hrec⟩ := hdefs name d hd
      obtain rfl : e = d' := Option.some.inj (he.symm.trans hd')
      have := sizeOf_lt_of_childAt hd
      exact compareSchemas_eq_nil_iff.mp hrec
  · rintro ⟨kept, fields, nested, hrequired, henum, defsKept, defs⟩
    refine ⟨⟨⟨?_, hrequired⟩, henum⟩, ?_⟩
    · intro name f hf
      obtain ⟨f', hf'⟩ := kept name f hf
      refine ⟨f', hf', fields name f f' hf hf', ?_⟩
      intro htype
      have := sizeOf_lt_of_childAt hf
      exact compareSchemas_eq_nil_iff.mpr (nested name f f' hf hf' htype)
    · intro name d hd
      obtain ⟨d', hd'⟩ := defsKept name d hd
      have := sizeOf_lt_of_childAt hd
      exact ⟨d', hd', compareSchemas_eq_nil_iff.mpr (defs name d d' hd hd')⟩

/-- The checker accepts exactly the additive changes. -/
theorem checkCompatibility_iff_additive {oldSchema newSchema : Json} :
    checkCompatibility env oldSchema newSchema = .compatible ↔ Additive oldSchema newSchema := by
  rw [checkCompatibility_eq_compatible_iff, compareSchemas_eq_nil_iff]

/-- Compatibility is a preorder on all JSON values. -/
theorem checkCompatibility_preorder (env : DisplayEnv) :
    (∀ s, checkCompatibility env s s = .compatible) ∧
      ∀ a b c, checkCompatibility env a b = .compatible →
        checkCompatibility env b c = .compatible → checkCompatibility env a c = .compatible := by
  constructor
  · intro s
    exact checkCompatibility_iff_additive.mpr (Additive.refl s)
  · intro a b c hab hbc
    rw [checkCompatibility_iff_additive] at hab hbc ⊢
    exact hab.trans hbc

/-- A release of a schema that requires a title. -/
def release (fields : JsonMap) : Json :=
  .obj [("properties", .obj fields), ("required", .arr [.str "title"])]

def titleField : Json :=
  .obj [("type", .str "string")]

def noteField (maxLength : ℤ) : Json :=
  .obj [("maxLength", .num (.int maxLength)), ("type", .str "string")]

/-- A field is added, and its bound is raised in the next release. -/
theorem checkCompatibility_preorder_releases :
    checkCompatibility ⟨fun _ => "", fun _ => ""⟩ (release [("title", titleField)])
      (release [("note", noteField 20), ("title", titleField)]) = .compatible := by
  apply (checkCompatibility_preorder _).2 _
    (release [("note", noteField 10), ("title", titleField)])
  · decide +kernel
  · decide +kernel

end LifeEngine.Schema
