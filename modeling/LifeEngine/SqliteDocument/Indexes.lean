import LifeEngine.Support.Machine

/-!
# Indexes of collections

All collections share the table `plugin_data`, and its indexes are told apart by their names.
A name joins the collection and the fields with underscores, and the indexes of a collection
are found again by the start of their names.  Collections and fields whose names
contain underscores can therefore get into each other's way.
-/

namespace LifeEngine.SqliteDocument

open Support

structure MigrateField where
  name : String
  indexed : Bool

/-- Letters, digits and underscores: the names that need no quotes in SQL. -/
def plainName (name : String) : Bool :=
  name.toList.all fun c => c.isAlphanum || c == '_'

/-- A descriptor with plain names. -/
structure MigrateDescriptor where
  name : String
  fields : List MigrateField
  indexes : List (List String)
  plain : (name :: (fields.map MigrateField.name ++ indexes.flatten)).all plainName = true

/-- An index of `plugin_data`, with its fields. -/
structure Index where
  name : String
  fields : List String
  deriving DecidableEq

def indexStart (collection : String) : String :=
  "idx_col_" ++ collection ++ "_"

/-- SQLite compares names without regard to case. -/
def Index.sameName (i j : Index) : Bool :=
  i.name.toList.map Char.toLower == j.name.toList.map Char.toLower

def Index.startsWith (collection : String) (i : Index) : Bool :=
  (indexStart collection).toList.isPrefixOf i.name.toList

/-- The indexes that are found for a collection. -/
def own (collection : String) (indexes : List Index) : List Index :=
  indexes.filter (Index.startsWith collection)

def listCollectionIndexes (indexes : List Index) (collection : String) : List String :=
  (own collection indexes).map Index.name

def extractFieldsFromIndex (indexes : List Index) (name : String) : List String :=
  ((indexes.find? fun i => i.name = name).map Index.fields).getD []

/-- `CREATE INDEX IF NOT EXISTS`. -/
def createIndex (indexes : List Index) (i : Index) : List Index :=
  if indexes.any i.sameName then indexes else indexes ++ [i]

namespace MigrateDescriptor

variable (d : MigrateDescriptor)

def declaredFieldNames : List String :=
  d.fields.map MigrateField.name ++ d.indexes.flatten

/-- The fields of each index, the single ones first. -/
def declared : List (List String) :=
  (d.fields.filter MigrateField.indexed).map (fun field => [field.name]) ++
    d.indexes.filter (· ≠ [])

def indexOn (fields : List String) : Index :=
  ⟨indexStart d.name ++ "_".intercalate fields, fields⟩

/-- The first indexed field that the descriptor leaves out. -/
def conflict (indexes : List Index) : Option String :=
  ((listCollectionIndexes indexes d.name).flatMap fun name =>
    ((extractFieldsFromIndex indexes name).filter (· ∉ d.declaredFieldNames)).map fun field =>
      "schema conflict: field '" ++ field ++ "' is referenced by existing index '" ++ name ++
        "' but is not present in the new descriptor for collection '" ++ d.name ++ "'").head?

def create (indexes : List Index) (declared : List (List String)) : List Index :=
  run (fun indexes fields => createIndex indexes (d.indexOn fields)) indexes declared

end MigrateDescriptor

def executeMigration (indexes : List Index) (d : MigrateDescriptor) :
    Except String Unit × List Index :=
  match d.conflict indexes with
  | some e => (.error e, indexes)
  | none => (.ok (), d.create indexes d.declared)

/-- The indexes after the calls. -/
def migrated (indexes : List Index) (calls : List MigrateDescriptor) : List Index :=
  run (fun indexes d => (executeMigration indexes d).2) indexes calls

/-! ## Names that stay apart -/

/-- The names tell apart the indexes, and the collections. -/
structure Apart (ds : List MigrateDescriptor) : Prop where
  named : ∀ d ∈ ds, ∀ d' ∈ ds, ∀ fields ∈ d.declared, ∀ fields' ∈ d'.declared,
    (d.indexOn fields).sameName (d'.indexOn fields') = true →
      d.indexOn fields = d'.indexOn fields'
  listed : ∀ d ∈ ds, ∀ d' ∈ ds, ∀ fields ∈ d'.declared,
    (d'.indexOn fields).startsWith d.name = true → d'.name = d.name

/-- The indexes were declared by the descriptors. -/
def Declared (ds : List MigrateDescriptor) (indexes : List Index) : Prop :=
  ∀ i ∈ indexes, ∃ d ∈ ds, ∃ fields ∈ d.declared, i = d.indexOn fields

/-- What is done to the indexes of a collection depends on these alone, and the others stay. -/
structure Local (ds : List MigrateDescriptor) (d : MigrateDescriptor)
    (f : List Index → List Index) : Prop where
  declared : ∀ indexes, Declared ds indexes → Declared ds (f indexes)
  self : ∀ indexes, Declared ds indexes → own d.name (f indexes) = f (own d.name indexes)
  other : ∀ indexes, Declared ds indexes → ∀ d' ∈ ds, d.name ≠ d'.name →
    own d'.name (f indexes) = own d'.name indexes

variable {d : MigrateDescriptor} {ds : List MigrateDescriptor} {indexes indexes' : List Index}
  {fields : List String}

theorem Local.comp {f g : List Index → List Index} (hf : Local ds d f) (hg : Local ds d g) :
    Local ds d fun indexes => g (f indexes) where
  declared indexes h := hg.declared _ (hf.declared indexes h)
  self indexes h := (hg.self _ (hf.declared indexes h)).trans (congrArg g (hf.self indexes h))
  other indexes h d' hd' hname :=
    (hg.other _ (hf.declared indexes h) d' hd' hname).trans (hf.other indexes h d' hd' hname)

theorem startsWith_indexOn : (d.indexOn fields).startsWith d.name = true := by
  rw [Index.startsWith, List.isPrefixOf_iff_prefix, MigrateDescriptor.indexOn, String.toList_append]
  exact List.prefix_append _ _

/-- A conflict is found among the indexes of the collection. -/
theorem conflict_own : d.conflict (own d.name indexes) = d.conflict indexes := by
  have hlist : listCollectionIndexes (own d.name indexes) d.name =
      listCollectionIndexes indexes d.name := by
    simp [listCollectionIndexes, own]
  rw [MigrateDescriptor.conflict, hlist]
  refine congrArg List.head? (List.flatMap_congr fun name hname => ?_)
  obtain ⟨i, hi, rfl⟩ := List.mem_map.mp hname
  have hfind : (own d.name indexes).find? (fun j => j.name = i.name) =
      indexes.find? fun j => j.name = i.name := by
    rw [own, List.find?_filter]
    congr 1
    funext j
    by_cases hj : j.name = i.name
    · simpa [hj, Index.startsWith] using (List.mem_filter.mp hi).2
    · simp [hj]
  rw [extractFieldsFromIndex, hfind, extractFieldsFromIndex]

section Apart

variable (hapart : Apart ds) (hd : d ∈ ds)

include hapart hd

/-- Only the index itself is in its own way. -/
theorem createIndex_eq (hdeclared : Declared ds indexes) (hfields : fields ∈ d.declared) :
    createIndex indexes (d.indexOn fields) =
      if d.indexOn fields ∈ indexes then indexes else indexes ++ [d.indexOn fields] := by
  have hany : indexes.any (d.indexOn fields).sameName = true ↔ d.indexOn fields ∈ indexes := by
    rw [List.any_eq_true]
    constructor
    · rintro ⟨i, hi, hsame⟩
      obtain ⟨d', hd', fields', hfields', rfl⟩ := hdeclared i hi
      rw [hapart.named d hd d' hd' fields hfields fields' hfields' hsame]
      exact hi
    · intro hmem
      exact ⟨_, hmem, beq_self_eq_true _⟩
  simp only [createIndex, hany]

theorem local_createIndex (hfields : fields ∈ d.declared) :
    Local ds d fun indexes => createIndex indexes (d.indexOn fields) where
  declared indexes h i hi := by
    by_cases hmem : i ∈ indexes
    · exact h i hmem
    · rw [createIndex_eq hapart hd h hfields] at hi
      exact ⟨d, hd, fields, hfields, by split at hi <;> simp_all⟩
  self indexes h := by
    have hown : Declared ds (own d.name indexes) := fun i hi => h i (List.mem_of_mem_filter hi)
    rw [createIndex_eq hapart hd h hfields, createIndex_eq hapart hd hown hfields]
    by_cases hmem : d.indexOn fields ∈ indexes <;> simp [own, hmem, startsWith_indexOn]
  other indexes h d' hd' hname := by
    have hstart : ¬(d.indexOn fields).startsWith d'.name = true :=
      fun hstart => hname (hapart.listed d' hd' d hd fields hfields hstart)
    rw [createIndex_eq hapart hd h hfields]
    by_cases hmem : d.indexOn fields ∈ indexes <;> simp [own, hmem, hstart]

variable {fieldss : List (List String)} (hsub : ∀ fields ∈ fieldss, fields ∈ d.declared)

include hsub

theorem local_create : Local ds d fun indexes => d.create indexes fieldss := by
  induction fieldss with
  | nil => exact ⟨fun _ h => h, fun _ _ => rfl, fun _ _ _ _ _ => rfl⟩
  | cons fields rest ih =>
    obtain ⟨hfields, hrest⟩ := List.forall_mem_cons.mp hsub
    exact (local_createIndex hapart hd hfields).comp (ih hrest)

/-- Every index of the descriptor is there in the end. -/
theorem mem_create (hdeclared : Declared ds indexes) {i : Index}
    (hi : i ∈ indexes ∨ ∃ fields ∈ fieldss, i = d.indexOn fields) :
    i ∈ d.create indexes fieldss := by
  induction fieldss generalizing indexes with
  | nil => exact hi.resolve_right (by simp)
  | cons fields rest ih =>
    obtain ⟨hfields, hrest⟩ := List.forall_mem_cons.mp hsub
    refine ih hrest ((local_createIndex hapart hd hfields).declared indexes hdeclared) ?_
    simp only [createIndex_eq hapart hd hdeclared hfields]
    rcases hi with hi | ⟨others, hothers, rfl⟩
    · exact .inl (by split <;> simp [hi])
    · rcases List.mem_cons.mp hothers with rfl | hothers
      · exact .inl (by split <;> simp [*])
      · exact .inr ⟨others, hothers, rfl⟩

end Apart

theorem local_executeMigration (hapart : Apart ds) (hd : d ∈ ds) :
    Local ds d fun indexes => (executeMigration indexes d).2 := by
  have hcreate := local_create hapart hd fun _ h => h
  have hcases : ∀ indexes, (executeMigration indexes d).2 =
      if d.conflict indexes = none then d.create indexes d.declared else indexes := by
    intro indexes
    rcases hconflict : d.conflict indexes with _ | e <;> simp [executeMigration, hconflict]
  simp only [hcases]
  constructor
  · intro indexes h
    split
    · exact hcreate.declared indexes h
    · exact h
  · intro indexes h
    rw [conflict_own]
    split
    · exact hcreate.self indexes h
    · rfl
  · intro indexes h d' hd' hname
    split
    · exact hcreate.other indexes h d' hd' hname
    · rfl

theorem own_migrated {ds : List MigrateDescriptor} (hapart : Apart ds) (hd : d ∈ ds)
    {calls : List MigrateDescriptor} (hcalls : ∀ other ∈ calls, other ∈ ds)
    (hdeclared : Declared ds indexes) (hdeclared' : Declared ds indexes')
    (hown : own d.name indexes = own d.name indexes') :
    Declared ds (migrated indexes calls) ∧ own d.name (migrated indexes calls) =
      own d.name (migrated indexes' (calls.filter fun other => other.name = d.name)) := by
  induction calls generalizing indexes indexes' with
  | nil => exact ⟨hdeclared, hown⟩
  | cons other rest ih =>
    obtain ⟨hother, hrest⟩ := List.forall_mem_cons.mp hcalls
    have hlocal := local_executeMigration hapart hother
    by_cases hname : other.name = d.name
    · rw [List.filter_cons_of_pos (by simpa using hname)]
      refine ih hrest (hlocal.declared _ hdeclared) (hlocal.declared _ hdeclared') ?_
      rw [← hname] at hown ⊢
      rw [hlocal.self _ hdeclared, hown, hlocal.self _ hdeclared']
    · rw [List.filter_cons_of_neg (by simpa using hname)]
      refine ih hrest (hlocal.declared _ hdeclared) hdeclared' ?_
      rw [hlocal.other _ hdeclared d hd hname, hown]

/-- Where the names stay apart, a call depends on those for its own collection only, and all of its
indexes are there after a success. -/
theorem executeMigration_of_apart {calls : List MigrateDescriptor} {d : MigrateDescriptor}
    (hapart : Apart (d :: calls)) :
    (executeMigration (migrated [] calls) d).1 =
        (executeMigration (migrated [] (calls.filter fun other => other.name = d.name)) d).1 ∧
      ((executeMigration (migrated [] calls) d).1 = .ok () →
        ∀ fields ∈ d.declared, ∃ i ∈ (executeMigration (migrated [] calls) d).2,
          i.fields = fields) := by
  have hcalls : ∀ d' ∈ calls, d' ∈ d :: calls := fun d' hd' => List.mem_cons_of_mem d hd'
  have hnil : Declared (d :: calls) [] := nofun
  obtain ⟨hdeclared, hown⟩ := own_migrated hapart List.mem_cons_self hcalls hnil hnil rfl
  have hconflict : d.conflict (migrated [] calls) =
      d.conflict (migrated [] (calls.filter fun other => other.name = d.name)) := by
    rw [← conflict_own, hown, conflict_own]
  rcases hfound : d.conflict (migrated [] calls) with _ | e
  · have hfound' := hconflict.symm.trans hfound
    simp only [executeMigration, hfound, hfound', true_and]
    intro _ fields hfields
    exact ⟨d.indexOn fields, mem_create hapart List.mem_cons_self (fun _ h => h) hdeclared
      (.inr ⟨fields, hfields, rfl⟩), rfl⟩
  · have hfound' := hconflict.symm.trans hfound
    simp only [executeMigration, hfound, hfound', true_and]
    exact nofun

def contactsIndexes : MigrateDescriptor where
  name := "contacts"
  fields := [⟨"email", true⟩, ⟨"notes", false⟩]
  indexes := [["last_name", "first_name"]]
  plain := by decide

def eventsIndexes : MigrateDescriptor where
  name := "events"
  fields := [⟨"start_time", true⟩]
  indexes := []
  plain := by decide

theorem executeMigration_of_apart_events :
    Apart [eventsIndexes, contactsIndexes] ∧
      ∃ i ∈ (executeMigration (migrated [] [contactsIndexes]) eventsIndexes).2,
        i.fields = ["start_time"] := by
  have hapart : Apart [eventsIndexes, contactsIndexes] := ⟨by decide +kernel, by decide +kernel⟩
  exact ⟨hapart, (executeMigration_of_apart hapart).2 rfl _ List.mem_cons_self⟩

/-- The index of `b_c` in `a` is taken for one of `a_b`, whose migration fails. And where `a_b` has
an index, none is created on `a` and `b`. -/
theorem executeMigration_underscores :
    (executeMigration (migrated [] [⟨"a", [⟨"b_c", true⟩], [], by decide⟩])
        ⟨"a_b", [⟨"c", true⟩], [], by decide⟩).1 =
        .error ("schema conflict: field 'b_c' is referenced by existing index " ++
          "'idx_col_a_b_c' but is not present in the new descriptor for collection 'a_b'") ∧
      (executeMigration [] ⟨"a_b", [⟨"c", true⟩], [], by decide⟩).1 = .ok () ∧
      executeMigration [] ⟨"c", [⟨"a_b", true⟩], [["a", "b"]], by decide⟩ =
        (.ok (), [⟨"idx_col_c_a_b", ["a_b"]⟩]) :=
  ⟨rfl, rfl, rfl⟩

end LifeEngine.SqliteDocument
