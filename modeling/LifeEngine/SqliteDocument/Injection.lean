import LifeEngine.SqliteDocument.Conditions
import LifeEngine.SqliteDocument.Store
import LifeEngine.Support.SqlLexer

/-!
# Text of callers in prepared statements

`doc_query` hands the filter and the sort directives of its caller to the adapter as
they are.  The filter reaches the statement through numbered placeholders only, so its
text depends on the shape of the filter alone.  The field of a sort directive is
written between the quotes of a string literal, unchecked, and stays inside exactly
when its own quotes are paired and it has no NUL.
-/

namespace LifeEngine.SqliteDocument

open Support Support.Sql StorageContext List

/-! ## The statement that a query prepares -/

/-- `query` of the adapter up to `prepare`. -/
def prepare (env : AdapterEnv) (t : Documents) (descriptor : QueryDescriptor) :
    Except StorageError String := do
  validateIdentifier descriptor.collection
  let _ ← (env.queryCount (countSql env.toJsonEnv descriptor.filter)
    (bindValues env.toJsonEnv descriptor.collection descriptor.filter) t.rows).mapError
      fun e => StorageError.internal ("count query failed: " ++ e)
  let offset ← pageOffset env descriptor.pagination
  pure (querySql env.toJsonEnv descriptor.filter descriptor.sort
    (min descriptor.pagination.limit 1000) offset)

/-- The statement that `doc_query` has the adapter prepare. -/
def preparedSql (env : AdapterEnv) (s : ContextState AdapterState) (caller : CallerIdentity)
    (descriptor : QueryDescriptor) (pluginScoped : Bool) : Except StorageError String := do
  checkCapability caller .docRead
  let resolved ← resolveCollection caller descriptor.collection pluginScoped
  prepare env s.router.table { descriptor with collection := resolved }

variable {descriptor : QueryDescriptor} {s : Lexer}

theorem prepare_of_fetchPage {env : AdapterEnv} {t : Documents} {page : Page}
    (h : fetchPage env t descriptor = .ok page) :
    ∃ statement, prepare env t descriptor = .ok statement ∧
      env.queryRows statement
        (bindValues env.toJsonEnv descriptor.collection descriptor.filter) t.rows =
          .ok page.rows := by
  simp only [fetchPage, bind_eq_ok_iff, mapError_eq_ok_iff] at h
  obtain ⟨_, hvalid, count, hcount, offset, hoffset, rows, hrows, hpage⟩ := h
  obtain rfl := Except.ok.inj hpage
  refine ⟨_, ?_, hrows⟩
  simp only [prepare, bind_eq_ok_iff, mapError_eq_ok_iff]
  exact ⟨(), hvalid, count, hcount, offset, hoffset, rfl⟩

theorem preparedSql_of_docQuery {ctx : Context} {env : AdapterEnv} {s : ContextState AdapterState}
    {caller : CallerIdentity} {pluginScoped : Bool} {list : DocumentList}
    (h : ctx.docQuery (adapterStore env) s caller descriptor pluginScoped = .ok list) :
    ∃ statement binds rows,
      preparedSql env s caller descriptor pluginScoped = .ok statement ∧
        env.queryRows statement binds s.router.table.rows = .ok rows := by
  simp only [Context.docQuery, bind_eq_ok_iff] at h
  obtain ⟨_, hcapability, resolved, hresolve, result, hresult, -⟩ := h
  have hquery : query env s.router.table { descriptor with collection := resolved } =
      .ok result := hresult
  simp only [query, bind_eq_ok_iff] at hquery
  obtain ⟨page, hpage, -⟩ := hquery
  obtain ⟨statement, hstatement, hrows⟩ := prepare_of_fetchPage hpage
  refine ⟨statement, _, page.rows, ?_, hrows⟩
  simp only [preparedSql, bind_eq_ok_iff]
  exact ⟨(), hcapability, resolved, hresolve, hstatement⟩

theorem preparedSql_ok {env : AdapterEnv} {s : ContextState AdapterState}
    {caller : CallerIdentity} {pluginScoped : Bool} {statement : String}
    (h : preparedSql env s caller descriptor pluginScoped = .ok statement) :
    ∃ offset, pageOffset env descriptor.pagination = .ok offset ∧
      statement = querySql env.toJsonEnv descriptor.filter descriptor.sort
        (min descriptor.pagination.limit 1000) offset := by
  simp only [preparedSql, prepare, bind_eq_ok_iff] at h
  obtain ⟨_, -, resolved, -, _, -, _, -, offset, hoffset, hstatement⟩ := h
  exact ⟨offset, hoffset, (Except.ok.inj hstatement).symm⟩

/-! ## The same query with other names -/

def LettersOnly (name : String) : Prop :=
  ∀ c ∈ name.toList, c.isAlpha = true

instance (name : String) : Decidable (LettersOnly name) :=
  decidableBAll (fun c : Char => c.isAlpha = true) name.toList

/-- The number of members of a list of values. -/
def listLength : Json → Option Nat
  | .arr items => some items.length
  | _ => none

mutual

/-- Names of letters, and other values. -/
def Renamed : FilterNode → FilterNode → Prop
  | .and xs, .and ys => RenamedAll xs ys
  | .or xs, .or ys => RenamedAll xs ys
  | .not x, .not y => Renamed x y
  | .comparison _ op value, .comparison field op' value' =>
    LettersOnly field ∧ op = op' ∧ listLength value = listLength value'
  | _, _ => False

def RenamedAll : List FilterNode → List FilterNode → Prop
  | [], [] => True
  | x :: xs, y :: ys => Renamed x y ∧ RenamedAll xs ys
  | _, _ => False

end

def RenamedFilter : Option FilterNode → Option FilterNode → Prop
  | none, none => True
  | some x, some y => Renamed x y
  | _, _ => False

def RenamedSort (s t : SortField) : Prop :=
  LettersOnly t.field ∧ s.direction = t.direction

/-- The same query with field names of letters. -/
structure RenamedQuery (d e : QueryDescriptor) : Prop where
  collection : d.collection = e.collection
  pagination : d.pagination = e.pagination
  filter : RenamedFilter d.filter e.filter
  sort : List.Forall₂ RenamedSort d.sort e.sort

/-! ## The clause depends on the shape of the filter only -/

namespace Condition

variable {α : Type}

/-- One text, and as many values. -/
structure SameText (c c' : Condition α) : Prop where
  text : ∀ n, (c.number n).render = (c'.number n).render
  count : c.leaves.length = c'.leaves.length

theorem SameText.test (op : FilterOperator) (path path' : α) {xs ys : List α}
    (h : xs.length = ys.length) : SameText (test op path xs) (test op path' ys) where
  text n := by simp only [number, render, WhereBuilder.map_fst_mapIdx, h]
  count := by simp [leaves, h]

theorem isEmpty_renderOf (parts : List (Condition (Nat × α))) :
    (renderOf parts).isEmpty = parts.isEmpty := by
  cases parts <;> rfl

theorem SameText.group (join : Connective) {xs ys : List (Condition α)}
    (htexts : ∀ n, renderOf (numberOf n xs) = renderOf (numberOf n ys))
    (hcount : (leavesOf xs).length = (leavesOf ys).length) :
    SameText (group join xs) (group join ys) where
  text n := by simp only [number, render, ← isEmpty_renderOf, htexts n]
  count := hcount

end Condition

open Condition

theorem sameText_comparison (env : JsonEnv) (field field' : String) (op : FilterOperator)
    {v w : Json} (h : listLength v = listLength w) :
    SameText (comparison env field op v) (comparison env field' op w) := by
  cases op with
  | in_ | notIn =>
    cases v with
    | arr xs =>
      cases w with
      | arr ys =>
        have hlength : xs.length = ys.length := Option.some.inj h
        cases xs with
        | nil =>
          obtain rfl : ys = [] := length_eq_zero_iff.mp hlength.symm
          exact ⟨fun _ => rfl, rfl⟩
        | cons x xs =>
          obtain ⟨y, ys, rfl⟩ := exists_cons_of_length_eq_add_one hlength.symm
          exact .test _ _ _ (by rw [length_map, length_map, hlength])
      | _ => cases h
    | _ =>
      cases w with
      | arr ys => cases h
      | _ => exact ⟨fun _ => rfl, rfl⟩
  | _ => exact .test _ _ _ rfl

mutual

theorem sameText_condition (env : JsonEnv) : ∀ {x y : FilterNode}, Renamed x y →
    SameText (condition env x) (condition env y)
  | .and _, .and _, h => .group .and (renderOf_conditions env h).1 (renderOf_conditions env h).2
  | .or _, .or _, h => .group .or (renderOf_conditions env h).1 (renderOf_conditions env h).2
  | .not x, .not y, h => by
    have hinner : SameText (condition env x) (condition env y) := sameText_condition env h
    refine ⟨fun n => ?_, hinner.count⟩
    simp only [condition, number, render, hinner.text]
  | .comparison _ op _, .comparison _ _ _, h => by
    obtain ⟨-, rfl, hlength⟩ := h
    exact sameText_comparison env _ _ op hlength

theorem renderOf_conditions (env : JsonEnv) : ∀ {xs ys : List FilterNode}, RenamedAll xs ys →
    (∀ n, renderOf (numberOf n (conditions env xs)) = renderOf (numberOf n (conditions env ys))) ∧
      (leavesOf (conditions env xs)).length = (leavesOf (conditions env ys)).length
  | [], [], _ => ⟨fun _ => rfl, rfl⟩
  | _ :: _, _ :: _, h => by
    have hfirst := sameText_condition env h.1
    have hrest := renderOf_conditions env h.2
    refine ⟨fun n => ?_, ?_⟩
    · simp only [conditions, numberOf, renderOf, hfirst.text, hfirst.count, hrest.1]
    · simp only [conditions, leavesOf, length_append, hfirst.count, hrest.2]

end

theorem filterSql_of_renamed {env : JsonEnv} {x y : Option FilterNode}
    (h : RenamedFilter x y) : filterSql env x = filterSql env y := by
  cases x with
  | none =>
    cases y with
    | none => rfl
    | some y => exact h.elim
  | some x =>
    cases y with
    | none => exact h.elim
    | some y =>
      have hsame : SameText (condition env x) (condition env y) := sameText_condition env h
      simp only [filterSql, WhereBuilder.build_eq, hsame.text]

/-! ## The clause has plain characters only -/

namespace WhereBuilder

theorem plainText_placeholder (idx : Nat) : PlainText (placeholder idx) :=
  PlainText.append (by decide) (plainText_toString idx)

theorem plainText_extract (idx : Nat) : PlainText (extract idx) :=
  (PlainText.append (by decide) (plainText_placeholder idx)).append (by decide)

end WhereBuilder

theorem plainText_testSql (op : FilterOperator) (path : Nat) (operands : List Nat) :
    PlainText (testSql op path operands) := by
  have hoperands : ∀ text ∈ operands.map WhereBuilder.placeholder, PlainText text := by
    intro text htext
    obtain ⟨idx, -, rfl⟩ := mem_map.mp htext
    exact WhereBuilder.plainText_placeholder idx
  have hlist := plainText_intercalate (show PlainText ", " by decide) hoperands
  refine (WhereBuilder.plainText_extract path).append ?_
  cases op with
  | exists_ => exact (show PlainText " IS NOT NULL" by decide)
  | in_ | notIn =>
    exact ((PlainText.append (by decide) (by decide)).append hlist).append (by decide)
  | _ =>
    exact (PlainText.append (PlainText.append (by decide) (by decide)) (by decide)).append
      (plainText_join hoperands)

theorem plainText_constantSql (value : Bool) : PlainText (constantSql value) := by
  cases value <;> decide

mutual

theorem plainText_render {α : Type} : ∀ c : Condition (Nat × α), PlainText c.render
  | .constant value _ => plainText_constantSql value
  | .test op path operands => plainText_testSql op path.1 (operands.map Prod.fst)
  | .not inner => (PlainText.append (by decide) (plainText_render inner)).append (by decide)
  | .group join parts => by
    have hparts := plainText_renderOf parts
    have hjoin : PlainText (joinSql join) := by cases join <;> decide
    simp only [render]
    split
    · exact plainText_constantSql join.unit
    · exact (PlainText.append (by decide) (plainText_intercalate hjoin hparts)).append (by decide)

theorem plainText_renderOf {α : Type} : ∀ parts : List (Condition (Nat × α)),
    ∀ text ∈ renderOf parts, PlainText text
  | [] => fun _ h => absurd h not_mem_nil
  | part :: parts => forall_mem_cons.mpr ⟨plainText_render part, plainText_renderOf parts⟩

end

variable (env : JsonEnv) (filter : Option FilterNode)

theorem plainText_filterSql : PlainText (filterSql env filter) := by
  cases filter with
  | none => exact (show PlainText "" by decide)
  | some filter =>
    simp only [filterSql, WhereBuilder.build_eq]
    exact PlainText.append (by decide) (plainText_render _)

/-! ## The sort directives in the statement -/

/-- The statement up to the sort directives. -/
def textHead (env : JsonEnv) (filter : Option FilterNode) : String :=
  selectSql ++ filterSql env filter ++ " ORDER BY "

/-- The statement up to the field of a sort directive. -/
def textBefore (env : JsonEnv) (filter : Option FilterNode) (before : List SortField) :
    String :=
  textHead env filter ++ String.join (before.map fun s => sortSql s ++ ", ") ++
    "json_extract(data, '$."

/-- The statement after the field of a sort directive. -/
def textAfter (s : SortField) (after : List SortField) (limit offset : Nat) : String :=
  "') " ++ directionSql s.direction ++ String.join (after.map fun s => ", " ++ sortSql s) ++
    pageSql limit offset

theorem toList_orderSql (before : List SortField) (s : SortField) (after : List SortField) :
    (orderSql (before ++ s :: after)).toList =
      " ORDER BY ".toList ++ (before.flatMap fun t => (sortSql t ++ ", ").toList) ++
        (sortSql s).toList ++ after.flatMap fun t => (", " ++ sortSql t).toList := by
  have hlist := intercalate_split ", ".toList (before.map fun t => (sortSql t).toList)
  have hfun : String.toList ∘ sortSql = fun t => (sortSql t).toList := rfl
  unfold orderSql
  rw [if_neg (by simp), String.toList_append, String.toList_intercalate, map_append, map_cons,
    map_append, map_cons, map_map, hfun, hlist]
  simp [flatMap_map]

theorem toList_sortSql (s : SortField) :
    (sortSql s).toList = "json_extract(data, '$.".toList ++ s.field.toList ++
      ("') " ++ directionSql s.direction).toList := by
  unfold sortSql
  rw [String.toList_append, String.toList_append, String.toList_append, String.toList_append,
    append_assoc]

/-! ## Reading the statement -/

theorem safe_of_lettersOnly {name : String} (h : LettersOnly name) : Safe name.toList := by
  have hnotMem : ∀ d : Char, d.isAlpha = false → d ∉ name.toList := by
    intro d hd hmem
    rw [h d hmem] at hd
    cases hd
  exact ⟨quotesPaired_of_notMem (hnotMem quote (by decide)), hnotMem nul (by decide)⟩

theorem scan_opening (hs : AtCode s) :
    ∃ tokens, scan s "json_extract(data, '$.".toList = ⟨tokens, .literal⟩ := by
  have htext : "json_extract(data, '$.".toList =
      "json_extract(data,".toList ++ [' ', quote] ++ "$.".toList := by decide
  have hplain : PlainText "json_extract(data," := by decide
  obtain ⟨tokens, hopened⟩ := (hs.scan hplain).open_literal
  refine ⟨tokens, ?_⟩
  have hpath : Safe "$.".toList := ⟨quotesPaired_of_notMem (by decide), by decide⟩
  rw [htext, scan_append, scan_append, hopened]
  exact scan_literal hpath tokens

theorem atCode_closing (tokens : List Token) (direction : SortDirection) :
    AtCode (scan ⟨tokens, .literal⟩ ("') " ++ directionSql direction).toList) := by
  have hdirection : PlainText (" " ++ directionSql direction) := by
    cases direction <;> decide
  have htext : ("') " ++ directionSql direction).toList =
      quote :: ')' :: (" " ++ directionSql direction).toList := by
    cases direction <;> decide
  rw [htext]
  rw [scan_cons, step_literal_quote, scan_cons, step_literalQuote (by decide)]
  exact (atCode_codeStep _ [] (by decide)).scan hdirection

theorem scan_sortSql (hs : AtCode s) {f : SortField} (hf : Safe f.field.toList) :
    scan s (sortSql f).toList = scan (scan s "json_extract(data, '$.".toList)
      ("') " ++ directionSql f.direction).toList := by
  obtain ⟨tokens, hopened⟩ := scan_opening hs
  rw [toList_sortSql, scan_append, scan_append, hopened, scan_literal hf]

theorem atCode_sortSql (hs : AtCode s) {f : SortField} (hf : Safe f.field.toList) :
    AtCode (scan s (sortSql f).toList) := by
  obtain ⟨tokens, hopened⟩ := scan_opening hs
  rw [scan_sortSql hs hf, hopened]
  exact atCode_closing tokens f.direction

/-- Two directives that differ in their fields only. -/
theorem scan_sortSql_eq (hs : AtCode s) {f g : SortField} (hf : Safe f.field.toList)
    (hfg : RenamedSort f g) :
    scan s (sortSql f).toList = scan s (sortSql g).toList := by
  rw [scan_sortSql hs hf, scan_sortSql hs (safe_of_lettersOnly hfg.1), hfg.2]

theorem plainText_comma : PlainText ", " := by
  decide

theorem scan_sorts_eq {fs gs : List SortField} (hfs : ∀ f ∈ fs, Safe f.field.toList)
    (hfg : List.Forall₂ RenamedSort fs gs) (hs : AtCode s) :
    scan s (fs.flatMap fun t => (", " ++ sortSql t).toList) =
      scan s (gs.flatMap fun t => (", " ++ sortSql t).toList) := by
  induction hfg generalizing s with
  | nil => rfl
  | @cons f g fs gs hfirst hrest ih =>
    have hf := hfs f (mem_cons_self ..)
    have hcomma := hs.scan plainText_comma
    have hnext := atCode_sortSql hcomma hf
    rw [flatMap_cons, flatMap_cons, scan_append, scan_append,
      String.toList_append, String.toList_append, scan_append, scan_append,
      ← scan_sortSql_eq hcomma hf hfirst]
    exact ih (fun t ht => hfs t (mem_cons_of_mem _ ht)) hnext

theorem scan_orderSql_eq {fs gs : List SortField} (hfs : ∀ f ∈ fs, Safe f.field.toList)
    (hfg : List.Forall₂ RenamedSort fs gs) (hs : AtCode s) :
    scan s (orderSql fs).toList = scan s (orderSql gs).toList := by
  cases hfg with
  | nil => rfl
  | @cons f g fs gs hfirst hrest =>
    have hf := hfs f (mem_cons_self ..)
    have horder := hs.scan (show PlainText " ORDER BY " by decide)
    have hnext := atCode_sortSql horder hf
    have htexts := toList_orderSql [] f fs
    have htexts' := toList_orderSql [] g gs
    simp only [nil_append, flatMap_nil, append_nil] at htexts htexts'
    rw [htexts, htexts']
    simp only [scan_append]
    rw [← scan_sortSql_eq horder hf hfirst]
    exact scan_sorts_eq (fun t ht => hfs t (mem_cons_of_mem _ ht)) hrest hnext

theorem atCode_head : AtCode (scan start (selectSql ++ filterSql env filter).toList) := by
  have hselect : PlainText selectSql := by decide +kernel
  exact atCode_start.scan (hselect.append (plainText_filterSql env filter))

/-- The lexer reads a field inside a literal, if the fields before are safe. -/
theorem scan_textBefore {before : List SortField} (h : ∀ f ∈ before, Safe f.field.toList) :
    ∃ tokens, scan start (textBefore env filter before).toList = ⟨tokens, .literal⟩ := by
  have hsorts : ∀ s : Lexer, AtCode s →
      AtCode (scan s (before.flatMap fun t => (sortSql t ++ ", ").toList)) := by
    induction before with
    | nil => exact fun s hs => hs
    | cons f before ih =>
      intro s hs
      have hf := atCode_sortSql hs (h f (mem_cons_self ..))
      rw [flatMap_cons, scan_append, String.toList_append, scan_append]
      exact ih (fun t ht => h t (mem_cons_of_mem _ ht)) _ (hf.scan plainText_comma)
  have horder := (atCode_head env filter).scan (show PlainText " ORDER BY " by decide)
  obtain ⟨tokens, hopened⟩ := scan_opening (hsorts _ horder)
  refine ⟨tokens, ?_⟩
  rw [← hopened]
  simp [textBefore, textHead, flatMap_map]

/-! ## What a caller can put into the statement -/

/-- The statement has the tokens that it has for names of letters, and each sort field is inside a
string literal. -/
structure Confined (env : AdapterEnv) (s : ContextState AdapterState)
    (caller : CallerIdentity) (descriptor : QueryDescriptor) (pluginScoped : Bool)
    (statement : String) : Prop where
  tokens_eq : ∀ renamed statement', RenamedQuery descriptor renamed →
    preparedSql env s caller renamed pluginScoped = .ok statement' →
    tokenize statement = tokenize statement'
  inside : ∀ before f after, descriptor.sort = before ++ f :: after →
    let text := textBefore env.toJsonEnv descriptor.filter before
    (∃ rest, statement = text ++ f.field ++ rest) ∧
      (scan start text.toList).mode = .literal ∧
      scan start (text ++ f.field).toList = scan start text.toList

/-- The text of a caller is confined to string literals exactly when the sort fields have their
quotes paired and no NUL. -/
theorem confined_iff (env : AdapterEnv) (s : ContextState AdapterState)
    (caller : CallerIdentity) (descriptor : QueryDescriptor) (pluginScoped : Bool)
    (statement : String)
    (h : preparedSql env s caller descriptor pluginScoped = .ok statement) :
    Confined env s caller descriptor pluginScoped statement ↔
      ∀ f ∈ descriptor.sort, QuotesPaired f.field.toList ∧ nul ∉ f.field.toList := by
  obtain ⟨offset, hoffset, rfl⟩ := preparedSql_ok h
  constructor
  · intro hconfined f hf
    obtain ⟨before, after, hsort⟩ := append_of_mem hf
    obtain ⟨-, hmode, hsame⟩ := hconfined.inside before f after hsort
    rw [String.toList_append, scan_append] at hsame
    generalize scan start (textBefore env.toJsonEnv descriptor.filter before).toList = state
      at hmode hsame
    obtain ⟨tokens, mode⟩ := state
    obtain rfl : mode = .literal := hmode
    exact (scan_literal_iff tokens f.field.toList).mp hsame
  · intro hsafe
    constructor
    · intro renamed statement' hrenamed hstatement'
      obtain ⟨offset', hoffset', rfl⟩ := preparedSql_ok hstatement'
      rw [← hrenamed.pagination, hoffset] at hoffset'
      obtain rfl := Except.ok.inj hoffset'
      rw [← hrenamed.pagination]
      have hhead := atCode_head env.toJsonEnv descriptor.filter
      rw [String.toList_append, scan_append] at hhead
      unfold tokenize querySql
      rw [← filterSql_of_renamed hrenamed.filter]
      simp only [String.toList_append, scan_append]
      rw [scan_orderSql_eq hsafe hrenamed.sort hhead]
    · intro before f after hsort
      have hf : Safe f.field.toList := hsafe f (by rw [hsort]; simp)
      have hbefore : ∀ t ∈ before, Safe t.field.toList :=
        fun t ht => hsafe t (by rw [hsort]; simp [ht])
      obtain ⟨tokens, htext⟩ := scan_textBefore env.toJsonEnv descriptor.filter hbefore
      refine ⟨⟨textAfter f after (min descriptor.pagination.limit 1000) offset, ?_⟩,
        by rw [htext], ?_⟩
      · rw [hsort]
        apply String.toList_inj.mp
        simp [querySql, textBefore, textHead, textAfter, toList_orderSql, toList_sortSql,
          flatMap_map]
      rw [String.toList_append, scan_append, htext, scan_literal hf]

/-! ## A query of events -/

def noDocuments : ContextState AdapterState :=
  ⟨⟨⟨[], nodup_nil⟩, fun _ => ⟨1, "now"⟩, 0⟩, [], []⟩

def eventReader : CallerIdentity :=
  .plugin "notes" [.docRead] [⟨"events", "read"⟩]

/-- The first ten events in the order of a field. -/
def eventsBy (field : String) : QueryDescriptor :=
  ⟨"events", none, [⟨field, .asc⟩], ⟨10, none⟩, none, none⟩

def titleStatement : String :=
  "SELECT id, data, created_at, updated_at FROM plugin_data WHERE collection = ?1" ++
    " ORDER BY json_extract(data, '$.title') ASC LIMIT 10 OFFSET 0"

theorem preparedSql_title :
    preparedSql plainAdapter noDocuments eventReader (eventsBy "title") false =
      .ok titleStatement := by
  decide +kernel

theorem confined_iff_title :
    preparedSql plainAdapter noDocuments eventReader (eventsBy "title") false =
        .ok titleStatement ∧
      Confined plainAdapter noDocuments eventReader (eventsBy "title") false titleStatement := by
  refine ⟨preparedSql_title, (confined_iff plainAdapter noDocuments eventReader
    (eventsBy "title") false titleStatement preparedSql_title).mpr ?_⟩
  intro f hf
  obtain rfl := mem_singleton.mp hf
  exact ⟨quotesPaired_of_notMem (by decide), by decide⟩

/-- Closes the literal, adds an expression and hides the rest in a comment. -/
def injectedField : String :=
  "x') ASC, (SELECT 1)--"

def injectedStatement : String :=
  "SELECT id, data, created_at, updated_at FROM plugin_data WHERE collection = ?1" ++
    " ORDER BY json_extract(data, '$.x') ASC, (SELECT 1)--') ASC LIMIT 10 OFFSET 0"

/-- The field ends its literal, and there are other tokens than for `title`. -/
theorem not_confined_injected :
    preparedSql plainAdapter noDocuments eventReader (eventsBy injectedField) false =
        .ok injectedStatement ∧
      ¬ Confined plainAdapter noDocuments eventReader (eventsBy injectedField) false
        injectedStatement := by
  refine ⟨by decide +kernel, ?_⟩
  intro hconfined
  have hletters : LettersOnly "title" := by decide
  have hrenamed : RenamedQuery (eventsBy injectedField) (eventsBy "title") :=
    ⟨rfl, rfl, trivial, .cons ⟨hletters, rfl⟩ .nil⟩
  have htokens := hconfined.tokens_eq (eventsBy "title") titleStatement hrenamed preparedSql_title
  -- up to the field the two statements are one
  obtain ⟨tokens, hbefore⟩ := scan_textBefore plainAdapter.toJsonEnv none
    (fun f (hf : f ∈ []) => absurd hf not_mem_nil)
  have hread : ∀ text, tokenize (textBefore plainAdapter.toJsonEnv none [] ++ text) =
      tokens ++ finish (scan ⟨[], .literal⟩ text.toList) := by
    intro text
    have hfrom : (⟨tokens, .literal⟩ : Lexer) = (⟨[], .literal⟩ : Lexer).after tokens := by
      simp [Lexer.after]
    unfold tokenize
    rw [String.toList_append, scan_append, hbefore, hfrom, scan_after, finish_after]
  have hinjected : injectedStatement = textBefore plainAdapter.toJsonEnv none [] ++
      "x') ASC, (SELECT 1)--') ASC LIMIT 10 OFFSET 0" := by
    decide +kernel
  have htitle : titleStatement = textBefore plainAdapter.toJsonEnv none [] ++
      "title') ASC LIMIT 10 OFFSET 0" := by
    decide +kernel
  rw [hinjected, htitle, hread, hread] at htokens
  have hsame := append_cancel_left htokens
  revert hsame
  decide +kernel

end LifeEngine.SqliteDocument
