import LifeEngine.Records.Dialects

/-!
# Further conditions of a query

A condition that is added to the filters of a query, at the top or inside an `and` group,
should narrow the answer.  The builders pass over a condition with a field name that they
do not like, and the GraphQL API drops a comparison with an operator that it does not
know: the query then answers as if the condition had not been made.
-/

namespace LifeEngine.Records

open Support Storage List

/-! ## Adding a condition -/

/-- The second filters have one condition more, at the top or inside `and` groups. -/
inductive AddedTo : Condition → QueryFilters → QueryFilters → Prop where
  | equality (f : FieldFilter) (before after : List FieldFilter)
      {comparison : List ComparisonFilter} {textSearch : List TextFilter}
      {and or : List QueryFilters} :
      AddedTo (.equality f) ⟨before ++ after, comparison, textSearch, and, or⟩
        ⟨before ++ f :: after, comparison, textSearch, and, or⟩
  | comparison (f : ComparisonFilter) (before after : List ComparisonFilter)
      {equality : List FieldFilter} {textSearch : List TextFilter}
      {and or : List QueryFilters} :
      AddedTo (.comparison f) ⟨equality, before ++ after, textSearch, and, or⟩
        ⟨equality, before ++ f :: after, textSearch, and, or⟩
  | text (f : TextFilter) (before after : List TextFilter) {equality : List FieldFilter}
      {comparison : List ComparisonFilter} {and or : List QueryFilters} :
      AddedTo (.text f) ⟨equality, comparison, before ++ after, and, or⟩
        ⟨equality, comparison, before ++ f :: after, and, or⟩
  | inGroup {c : Condition} {group group' : QueryFilters} (before after : List QueryFilters)
      {equality : List FieldFilter} {comparison : List ComparisonFilter}
      {textSearch : List TextFilter} {or : List QueryFilters} (h : AddedTo c group group') :
      AddedTo c ⟨equality, comparison, textSearch, before ++ group :: after, or⟩
        ⟨equality, comparison, textSearch, before ++ group' :: after, or⟩
  | asGroup {c : Condition} {group : QueryFilters} (before after : List QueryFilters)
      {equality : List FieldFilter} {comparison : List ComparisonFilter}
      {textSearch : List TextFilter} {or : List QueryFilters} (h : AddedTo c .default group) :
      AddedTo c ⟨equality, comparison, textSearch, before ++ after, or⟩
        ⟨equality, comparison, textSearch, before ++ group :: after, or⟩

theorem groupClauses_append (join : Connective) (groups groups' : List QueryFilters) :
    groupClauses join (groups ++ groups') =
      groupClauses join groups ++ groupClauses join groups' := by
  induction groups with
  | nil => rfl
  | cons group groups ih => rw [cons_append, groupClauses, groupClauses, ih,
      append_assoc]

/-- A condition whose field name is refused leaves no trace. -/
theorem clauses_eq_of_addedTo {c : Condition} {filters filters' : QueryFilters}
    (h : AddedTo c filters filters') (hc : c.named = false) :
    clauses filters' = clauses filters := by
  induction h with
  | equality | comparison | text => simp [clauses, conditions, hc]
  | inGroup before after h ih =>
    simp only [clauses, groupClauses_append, groupClauses, ih hc]
  | asGroup before after h ih =>
    simp only [clauses, groupClauses_append, groupClauses, ih hc]
    rfl

section Selection

variable {σ β : Type} {d : Dialect σ β} {doc : Json}

/-- A document satisfies a condition. -/
def Dialect.Satisfies (d : Dialect σ β) (c : Condition) (doc : Json) : Prop :=
  d.holdsOn doc c = .ok (some true)

theorem settle_eq_true_iff {r : Except String (Option Bool)} :
    settle r = some true ↔ r = .ok (some true) := by
  rcases r with e | value <;> simp [settle]

/-- Whether a part of a statement is true of a document. -/
def Dialect.Accepts (d : Dialect σ β) (doc : Json) (part : Clause Condition) : Prop :=
  Clause.eval (fun c => settle (d.holdsOn doc c)) part = some true

theorem Dialect.selects_iff_forall {filters : QueryFilters} :
    d.Selects filters doc ↔ ∀ part ∈ clauses filters, d.Accepts doc part :=
  Clause.evalGroup_and_eq_true_iff

theorem Dialect.forall_mem_groupClauses_and {groups : List QueryFilters} :
    (∀ part ∈ groupClauses .and groups, d.Accepts doc part) ↔
      ∀ group ∈ groups, d.Selects group doc := by
  induction groups with
  | nil => simp [groupClauses]
  | cons group groups ih =>
    rw [groupClauses, forall_mem_append, ih, forall_mem_cons]
    by_cases hempty : (clauses group).isEmpty = true
    · -- a group without parts is left out, and selects every document
      rw [if_pos hempty, Dialect.selects_iff_forall, isEmpty_iff.mp hempty]
    · rw [if_neg hempty, forall_mem_singleton]
      rfl

theorem Dialect.selects_mk_iff {equality : List FieldFilter}
    {comparison : List ComparisonFilter} {textSearch : List TextFilter}
    {and or : List QueryFilters} :
    d.Selects ⟨equality, comparison, textSearch, and, or⟩ doc ↔
      (∀ c ∈ conditions equality comparison textSearch, c.named = true →
          d.Satisfies c doc) ∧
        (∀ group ∈ and, d.Selects group doc) ∧
        ∀ part ∈ groupClauses .or or, d.Accepts doc part := by
  rw [Dialect.selects_iff_forall, clauses, forall_mem_append, forall_mem_append,
    Dialect.forall_mem_groupClauses_and]
  simp only [forall_mem_map, mem_filter, Dialect.Accepts, Clause.eval,
    settle_eq_true_iff, and_imp, Dialect.Satisfies]

theorem Dialect.selects_default : d.Selects .default doc := by
  rw [Dialect.selects_iff_forall]
  simp [QueryFilters.default, clauses, conditions, groupClauses]

/-- A condition narrows the selection to the documents that satisfy it. -/
theorem Dialect.selects_addedTo_iff {c : Condition} {filters filters' : QueryFilters}
    (h : AddedTo c filters filters') :
    d.Selects filters' doc ↔ d.Selects filters doc ∧ (c.named = true → d.Satisfies c doc) := by
  induction h with
  | equality | comparison | text =>
    simp only [Dialect.selects_mk_iff, conditions, map_append, map_cons,
      forall_mem_append, forall_mem_cons]
    tauto
  | inGroup before after h ih =>
    simp only [Dialect.selects_mk_iff, forall_mem_append, forall_mem_cons]
    tauto
  | asGroup before after h ih =>
    have hgroup := ih.trans (and_iff_right d.selects_default)
    simp only [Dialect.selects_mk_iff, forall_mem_append, forall_mem_cons]
    tauto

end Selection

/-! ## Records -/

section Narrowing

variable {σ β : Type} {d : Dialect σ β} {db : Database d} {rows : Rows}
  {pluginId collection : String} {c : Condition} {filters filters' : QueryFilters}

theorem matched_addedTo_iff (h : AddedTo c filters filters') {record : Record} :
    Matched rows pluginId collection d filters' record ↔
      Matched rows pluginId collection d filters record ∧
        (c.named = true → d.Satisfies c record.data) := by
  simp only [Matched, Dialect.selects_addedTo_iff h]
  constructor
  · rintro ⟨r, hrow, hscope, ⟨hselects, hc⟩, rfl⟩
    exact ⟨⟨r, hrow, hscope, hselects, rfl⟩, hc⟩
  · rintro ⟨⟨r, hrow, hscope, hselects, rfl⟩, hc⟩
    exact ⟨r, hrow, hscope, ⟨hselects, hc⟩, rfl⟩

theorem runs_addedTo_iff (h : AddedTo c filters filters') (hc : c.named = false) :
    db.Runs rows pluginId collection filters' ↔ db.Runs rows pluginId collection filters := by
  rw [Database.Runs, Database.Runs, Dialect.statement_eq, Dialect.statement_eq,
    clauses_eq_of_addedTo h hc]

/-- A condition is heeded unless its field name is refused, the query runs, and some record that it
returns does not satisfy it. -/
theorem narrows_iff (h : AddedTo c filters filters') :
    (db.Runs rows pluginId collection filters' →
        ∀ record, Matched rows pluginId collection d filters' record →
          Matched rows pluginId collection d filters record ∧ d.Satisfies c record.data) ↔
      (c.named = false → db.Runs rows pluginId collection filters →
        ∀ record, Matched rows pluginId collection d filters record →
          d.Satisfies c record.data) := by
  simp only [matched_addedTo_iff h]
  constructor
  · intro hnarrows hc hruns record hmatched
    refine (hnarrows ((runs_addedTo_iff h hc).mpr hruns) record ⟨hmatched, ?_⟩).2
    intro hnamed
    rw [hc] at hnamed
    cases hnamed
  · rintro hheeded hruns record ⟨hmatched, hc⟩
    refine ⟨hmatched, ?_⟩
    by_cases hnamed : c.named = true
    · exact hc hnamed
    · have hnamed : c.named = false := by simpa using hnamed
      exact hheeded hnamed ((runs_addedTo_iff h hnamed).mp hruns) record hmatched

end Narrowing

/-! ## REST -/

section Rest

variable {σ β : Type} {d : Dialect σ β} (db : Database d) (rows : Rows) (collection : String)
  (parseFilters : String → Except String QueryFilters)

theorem QueryFilters.eq_default_of_not_hasFilters {filters : QueryFilters}
    (h : ¬filters.hasFilters = true) : filters = .default := by
  obtain ⟨equality, comparison, textSearch, and, or⟩ := filters
  simp only [hasFilters, Bool.or_eq_true, not_or, Bool.not_eq_true', Bool.not_eq_false,
    List.isEmpty_iff] at h
  obtain ⟨⟨⟨⟨rfl, rfl⟩, rfl⟩, rfl⟩, rfl⟩ := h
  rfl

/-- The REST API answers only by records that `filters` select and that satisfy the condition. -/
def Rest.Heeds (text : String) (c : Condition) (filters : QueryFilters) : Prop :=
  ∀ (params : Rest.ListParams) (result : QueryResult), params.filter = some text →
    Rest.listRecords (db.env rows corePluginId collection) parseFilters (some rows) collection
      params = .ok result →
    ∀ record ∈ result.records,
      Matched rows corePluginId collection d filters record ∧ d.Satisfies c record.data

variable {db rows collection parseFilters} {text : String} {c : Condition}
  {filters filters' : QueryFilters}

theorem Rest.listRecords_eq (env : SqlEnv) {params : Rest.ListParams}
    (hfilter : params.filter = some text) (hparse : parseFilters text = .ok filters) :
    Rest.listRecords env parseFilters (some rows) collection params =
      (query env rows corePluginId collection filters (Rest.listSort params)
        (Rest.listPagination params)).mapError
          fun _ => Rest.internalError "failed to list records" := by
  have hfilters : Rest.listFilters parseFilters params = .ok filters := by
    rw [Rest.listFilters, hfilter]
    simp [hparse]
  rw [Rest.listRecords, hfilters]
  by_cases hhas : filters.hasFilters = true
  · change (if filters.hasFilters then _ else _ : Except String QueryResult).mapError _ = _
    rw [if_pos hhas]
  · obtain rfl := QueryFilters.eq_default_of_not_hasFilters hhas
    rfl

theorem Rest.heeds_iff (hparse : parseFilters text = .ok filters') :
    Rest.Heeds db rows collection parseFilters text c filters ↔
      (db.Runs rows corePluginId collection filters' →
        ∀ record, Matched rows corePluginId collection d filters' record →
          Matched rows corePluginId collection d filters record ∧ d.Satisfies c record.data) := by
  constructor
  · intro hheeds hruns record hmatched
    obtain ⟨offset, result, hquery, hrecord⟩ := exists_query_of_matched hruns hmatched
    refine hheeds ⟨some offset, some 1, none, none, some text⟩ result rfl ?_ record hrecord
    rw [Rest.listRecords_eq _ rfl hparse]
    exact mapError_eq_ok_iff.mpr hquery
  · intro hnarrows params result hfilter hlist record hrecord
    rw [Rest.listRecords_eq _ hfilter hparse, mapError_eq_ok_iff] at hlist
    obtain ⟨hruns, hmatched⟩ := matched_of_mem_query hlist hrecord
    exact hnarrows hruns record hmatched

end Rest

/-! ## GraphQL -/

namespace Graphql

/-- A condition as a request states it. -/
inductive ConditionInput where
  | equality (f : EqualityFilterInput)
  | comparison (f : ComparisonFilterInput)
  | text (f : TextFilter)

/-- The condition of an input with a known operator. -/
def convertCondition (parseJson : String → Except String Json) :
    ConditionInput → Option Condition
  | .equality f => some (.equality ⟨f.field, filterValue parseJson f.value⟩)
  | .comparison f => (comparisonOp f.operator).map fun op =>
    .comparison ⟨f.field, op, filterValue parseJson f.value⟩
  | .text f => some (.text f)

/-- The second input is the first one and one condition more. -/
inductive AddedTo : ConditionInput → FilterInput → FilterInput → Prop where
  | equality (f : EqualityFilterInput) (before after : List EqualityFilterInput)
      {comparison : List ComparisonFilterInput} {textSearch : List TextFilter} :
      AddedTo (.equality f) ⟨before ++ after, comparison, textSearch⟩
        ⟨before ++ f :: after, comparison, textSearch⟩
  | comparison (f : ComparisonFilterInput) (before after : List ComparisonFilterInput)
      {equality : List EqualityFilterInput} {textSearch : List TextFilter} :
      AddedTo (.comparison f) ⟨equality, before ++ after, textSearch⟩
        ⟨equality, before ++ f :: after, textSearch⟩
  | text (f : TextFilter) (before after : List TextFilter)
      {equality : List EqualityFilterInput} {comparison : List ComparisonFilterInput} :
      AddedTo (.text f) ⟨equality, comparison, before ++ after⟩
        ⟨equality, comparison, before ++ f :: after⟩

variable {parseJson : String → Except String Json} {input : ConditionInput}
  {filter filter' : FilterInput}

theorem addedTo_convertFilter (h : AddedTo input filter filter') {c : Condition}
    (hc : convertCondition parseJson input = some c) :
    Records.AddedTo c (convertFilter parseJson filter) (convertFilter parseJson filter') := by
  induction h with
  | equality f before after =>
    obtain rfl := Option.some.inj hc
    simpa [convertFilter] using Records.AddedTo.equality _ _ _
  | comparison f before after =>
    obtain ⟨op, hop, rfl⟩ := Option.map_eq_some_iff.mp hc
    simpa [convertFilter, hop] using Records.AddedTo.comparison _ _ _
  | text f before after =>
    obtain rfl := Option.some.inj hc
    exact Records.AddedTo.text _ _ _

theorem convertFilter_eq_of_addedTo (h : AddedTo input filter filter')
    (hc : convertCondition parseJson input = none) :
    convertFilter parseJson filter' = convertFilter parseJson filter := by
  induction h with
  | equality f before after => cases hc
  | comparison f before after =>
    have hop : comparisonOp f.operator = none := Option.map_eq_none_iff.mp hc
    simp [convertFilter, hop]
  | text f before after => cases hc

section Heeding

variable {σ β : Type} {d : Dialect σ β} (db : Database d) (rows : Rows) (collection : String)

variable (parseJson) in
/-- Nothing satisfies a comparison by an unknown operator. -/
def Satisfies (d : Dialect σ β) (input : ConditionInput) (doc : Json) : Prop :=
  ∃ c, convertCondition parseJson input = some c ∧ d.Satisfies c doc

variable (parseJson) in
/-- The GraphQL API answers only by records that `filter` selects and that satisfy the condition. -/
def Heeds (input : ConditionInput) (filter filter' : FilterInput) : Prop :=
  ∀ (sort : Option SortOptions) (pagination : Option PaginationInput) (result : QueryResult),
    collectionRecords (db.env rows corePluginId collection) parseJson (some rows) collection
      (some filter') sort pagination = .ok result →
    ∀ record ∈ result.records,
      Matched rows corePluginId collection d (convertFilter parseJson filter) record ∧
        Satisfies parseJson d input record.data

variable {db rows collection}

theorem collectionRecords_eq (env : SqlEnv) {sort : Option SortOptions}
    {pagination : Option PaginationInput} :
    collectionRecords env parseJson (some rows) collection (some filter) sort pagination =
      (query env rows corePluginId collection (convertFilter parseJson filter) sort
        (convertPagination pagination)).mapError fun e => "query failed: " ++ e := by
  by_cases hhas : (convertFilter parseJson filter).hasFilters = true
  · simp only [collectionRecords, Option.map_some, Option.getD_some]
    change (if _ then _ else _ : Except String QueryResult).mapError _ = _
    rw [if_pos hhas]
  · have hdefault := QueryFilters.eq_default_of_not_hasFilters hhas
    simp only [collectionRecords, Option.map_some, hdefault]
    rfl

theorem heeds_iff :
    Heeds parseJson db rows collection input filter filter' ↔
      (db.Runs rows corePluginId collection (convertFilter parseJson filter') →
        ∀ record,
          Matched rows corePluginId collection d (convertFilter parseJson filter') record →
          Matched rows corePluginId collection d (convertFilter parseJson filter) record ∧
            Satisfies parseJson d input record.data) := by
  constructor
  · intro hheeds hruns record hmatched
    obtain ⟨offset, result, hquery, hrecord⟩ := exists_query_of_matched hruns hmatched
    refine hheeds none (some ⟨some 1, some offset⟩) result ?_ record hrecord
    rw [collectionRecords_eq]
    exact mapError_eq_ok_iff.mpr hquery
  · intro hnarrows sort pagination result hlist record hrecord
    rw [collectionRecords_eq, mapError_eq_ok_iff] at hlist
    obtain ⟨hruns, hmatched⟩ := matched_of_mem_query hlist hrecord
    exact hnarrows hruns record hmatched

/-- The operator is unknown, or the field name is refused. -/
def Dropped (parseJson : String → Except String Json) (input : ConditionInput) : Prop :=
  ∀ c, convertCondition parseJson input = some c → c.named = false

theorem narrows_iff (h : AddedTo input filter filter') :
    (db.Runs rows corePluginId collection (convertFilter parseJson filter') →
        ∀ record,
          Matched rows corePluginId collection d (convertFilter parseJson filter') record →
          Matched rows corePluginId collection d (convertFilter parseJson filter) record ∧
            Satisfies parseJson d input record.data) ↔
      (Dropped parseJson input →
        db.Runs rows corePluginId collection (convertFilter parseJson filter) → ∀ record,
          Matched rows corePluginId collection d (convertFilter parseJson filter) record →
            Satisfies parseJson d input record.data) := by
  rcases hc : convertCondition parseJson input with _ | c
  · have hdropped : Dropped parseJson input := by
      intro c hsome
      rw [hc] at hsome
      cases hsome
    rw [convertFilter_eq_of_addedTo h hc]
    constructor
    · intro hnarrows _ hruns record hmatched
      exact (hnarrows hruns record hmatched).2
    · intro hheeded hruns record hmatched
      exact ⟨hmatched, hheeded hdropped hruns record hmatched⟩
  · have hadded := addedTo_convertFilter h hc
    simpa [Dropped, Satisfies, hc] using Records.narrows_iff hadded

end Heeding

end Graphql

/-! ## Conditions that are never ignored -/

section Conditions

variable {σ β : Type} {d : Dialect σ β}

/-- Through either API an added condition narrows the answer, unless the statement leaves it out,
runs, and selects a record that does not satisfy it. -/
theorem heeds_iff_of_addedTo (db : Database d) (rows : Rows) (collection : String) :
    (∀ parseFilters text c filters filters', AddedTo c filters filters' →
      parseFilters text = .ok filters' →
      (Rest.Heeds db rows collection parseFilters text c filters ↔
        (c.named = false → db.Runs rows corePluginId collection filters → ∀ record,
          Matched rows corePluginId collection d filters record → d.Satisfies c record.data))) ∧
    ∀ parseJson input filter filter', Graphql.AddedTo input filter filter' →
      (Graphql.Heeds parseJson db rows collection input filter filter' ↔
        (Graphql.Dropped parseJson input →
          db.Runs rows corePluginId collection (Graphql.convertFilter parseJson filter) →
          ∀ record, Matched rows corePluginId collection d
              (Graphql.convertFilter parseJson filter) record →
            Graphql.Satisfies parseJson d input record.data)) := by
  constructor
  · intro parseFilters text c filters filters' hadded hparse
    exact (Rest.heeds_iff hparse).trans (narrows_iff hadded)
  · intro parseJson input filter filter' hadded
    exact Graphql.heeds_iff.trans (Graphql.narrows_iff hadded)

end Conditions

/-- The store with one contact. -/
def oneContact : Rows where
  rows := [⟨"c1", corePluginId, "contacts",
    .obj [("age", .num (.int 12)), ("first-name", .str "Bob"), ("name", .str "Bob")], 1, 0, 0⟩]
  keys_nodup := by decide

theorem matched_oneContact {σ β : Type} (d : Dialect σ β) :
    Matched oneContact corePluginId "contacts" d .default
      ⟨"c1", corePluginId, "contacts",
        .obj [("age", .num (.int 12)), ("first-name", .str "Bob"), ("name", .str "Bob")], 1,
        none, none, 0, 0⟩ :=
  ⟨_, mem_singleton_self _, ⟨rfl, rfl⟩, d.selects_default, rfl⟩

/-- A request for contacts of another name is heeded. -/
theorem heeds_name_of_addedTo :
    Rest.Heeds (Database.lenient (sqlite .plain)) oneContact "contacts"
      (fun _ => .ok ⟨[⟨"name", .str "Ann"⟩], [], [], [], []⟩) ""
      (.equality ⟨"name", .str "Ann"⟩) .default := by
  refine ((heeds_iff_of_addedTo _ _ _).1 _ _ _ _ _ (.equality _ [] []) rfl).mpr ?_
  intro hnamed
  exact absurd hnamed (by decide)

/-- Bob is found by the first name `Ann`, and by an age that is `ge` 18. -/
theorem not_heeds_first_name :
    ¬Rest.Heeds (Database.lenient (sqlite .plain)) oneContact "contacts"
        (fun _ => .ok ⟨[⟨"first-name", .str "Ann"⟩], [], [], [], []⟩) ""
        (.equality ⟨"first-name", .str "Ann"⟩) .default ∧
      ¬Graphql.Heeds (fun _ => .error "expected value") (Database.lenient (sqlite .plain))
        oneContact "contacts" (.comparison ⟨"age", "ge", "18"⟩) ⟨[], [], []⟩
        ⟨[], [⟨"age", "ge", "18"⟩], []⟩ := by
  constructor
  · intro hheeds
    have hnarrows := (narrows_iff (.equality _ [] [])).mp ((Rest.heeds_iff rfl).mp hheeds)
    have hsatisfies := hnarrows (by decide) rfl _ (matched_oneContact _)
    -- the text "Bob" is not the text "Ann"
    have hfalse : some false = some true := Except.ok.inj hsatisfies
    exact absurd hfalse (by decide)
  · intro hheeds
    have hnarrows := (Graphql.narrows_iff (.comparison _ [] [])).mp (Graphql.heeds_iff.mp hheeds)
    have hdropped : Graphql.Dropped (fun _ => .error "expected value")
        (.comparison ⟨"age", "ge", "18"⟩) := by
      intro c hc
      cases hc
    obtain ⟨c, hc, -⟩ := hnarrows hdropped rfl _ (matched_oneContact _)
    cases hc

end LifeEngine.Records
