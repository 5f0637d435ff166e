import LifeEngine.SqliteDocument.Conditions
import LifeEngine.SqliteDocument.Store

/-!
# Following the pages of a query

A query returns one page and the cursor of the next.  A cursor is an offset into
the matching rows, so with one fixed order of the rows the pages that a client
gets by following the cursors partition them.  What SQLite is assumed to do is
stated in `OrderedReads`; it refuses filters whose placeholders do not fit, and orders
that it cannot read.
-/

namespace LifeEngine.SqliteDocument

open Support StorageContext List

/-- The same query from another cursor. -/
def startAt (d : QueryDescriptor) (cursor : Option String) : QueryDescriptor :=
  { d with pagination := { d.pagination with cursor } }

/-- The pages that a client gets by following `next_cursor`. -/
inductive Follows (env : AdapterEnv) (t : Documents) (d : QueryDescriptor) :
    Option String → List DocumentList → Prop where
  | last {cursor : Option String} {page : DocumentList}
      (hpage : query env t (startAt d cursor) = .ok page) (hend : page.nextCursor = none) :
      Follows env t d cursor [page]
  | more {cursor : Option String} {page : DocumentList} {next : String}
      {rest : List DocumentList}
      (hpage : query env t (startAt d cursor) = .ok page) (hnext : page.nextCursor = some next)
      (hrest : Follows env t d (some next) rest) :
      Follows env t d cursor (page :: rest)

/-- The page size of a query. -/
def pageLimit (d : QueryDescriptor) : Nat :=
  min d.pagination.limit 1000

/-- The filter has placeholders for all of its values. -/
def Bound (env : AdapterEnv) (d : QueryDescriptor) : Prop :=
  ∀ f ∈ d.filter, WellBound env.toJsonEnv d.collection f

/-- The selected rows stand in one order, every page is a section of it, and an offset that is no
`i64` is an error once a row is asked for.  `sorts` says which orders SQLite can read. -/
structure OrderedReads (env : AdapterEnv) (sorts : List SortField → Prop) (t : Documents)
    (d : QueryDescriptor) (selects : DocumentRow → Bool) (ordered : List DocumentRow) : Prop where
  perm : ordered.Perm (t.rows.filter selects)
  length_lt : ordered.length < 2 ^ 63
  count : Bound env d → env.queryCount (countSql env.toJsonEnv d.filter)
    (bindValues env.toJsonEnv d.collection d.filter) t.rows = .ok ordered.length
  unbound : ¬ Bound env d → ∃ e, env.queryCount (countSql env.toJsonEnv d.filter)
    (bindValues env.toJsonEnv d.collection d.filter) t.rows = .error e
  page : Bound env d → sorts d.sort → ∀ offset < 2 ^ 63,
    env.queryRows (querySql env.toJsonEnv d.filter d.sort (pageLimit d) offset)
      (bindValues env.toJsonEnv d.collection d.filter) t.rows =
        .ok ((ordered.drop offset).take (pageLimit d))
  unsorted : ¬ sorts d.sort → ∀ offset, ∃ e,
    env.queryRows (querySql env.toJsonEnv d.filter d.sort (pageLimit d) offset)
      (bindValues env.toJsonEnv d.collection d.filter) t.rows = .error e
  far : 1 ≤ pageLimit d → ∀ offset ≥ 2 ^ 63, ∃ e,
    env.queryRows (querySql env.toJsonEnv d.filter d.sort (pageLimit d) offset)
      (bindValues env.toJsonEnv d.collection d.filter) t.rows = .error e
  cursor : ∀ text, env.decodeBase64 (env.encodeBase64 text) = some text

/-- The cursors lead through all matching rows, once each, with one total; and no offset overflows.
-/
structure PagesCover (env : AdapterEnv) (t : Documents) (d : QueryDescriptor)
    (ordered : List DocumentRow) : Prop where
  covers : ∃ pages documents, Follows env t d none pages ∧
    readRows d.fields ordered = .ok documents ∧
    (pages.flatMap fun page => page.documents) = documents ∧
    ∀ page ∈ pages, page.totalCount = ordered.length
  noOverflow : ∀ cursor page, fetchPage env t (startAt d cursor) = .ok page →
    page.offset + page.limit < 2 ^ 64

/-! ## Reading rows -/

theorem readRows_append {fields : Option (List String)} {xs ys : List DocumentRow}
    {docs docs' : List Json} (hxs : readRows fields xs = .ok docs)
    (hys : readRows fields ys = .ok docs') : readRows fields (xs ++ ys) = .ok (docs ++ docs') := by
  induction xs generalizing docs with
  | nil =>
    cases hxs
    exact hys
  | cons r xs ih =>
    obtain ⟨doc, hdoc, hrest⟩ := bind_eq_ok_iff.mp hxs
    obtain ⟨rest, hread, hresult⟩ := bind_eq_ok_iff.mp hrest
    cases hresult
    rw [cons_append, readRows, hdoc]
    simp only [ih hread]
    rfl

theorem exists_rowToDocument_iff {r : DocumentRow} :
    (∃ doc, rowToDocument r.id r.data r.createdAt r.updatedAt = .ok doc) ↔
      ∃ value, r.data = .ok value := by
  constructor
  · rintro ⟨doc, hdoc⟩
    cases hdata : r.data with
    | ok value => exact ⟨value, rfl⟩
    | error e =>
      rw [hdata] at hdoc
      cases hdoc
  · rintro ⟨value, hvalue⟩
    rw [hvalue]
    exact rowToDocument_ok r.id value r.createdAt r.updatedAt

theorem exists_readRows_iff {fields : Option (List String)} {rows : List DocumentRow} :
    (∃ docs, readRows fields rows = .ok docs) ↔ ∀ r ∈ rows, ∃ value, r.data = .ok value := by
  induction rows with
  | nil => simp [readRows]
  | cons r rows ih =>
    rw [forall_mem_cons, ← ih, ← exists_rowToDocument_iff]
    constructor
    · rintro ⟨docs, hdocs⟩
      obtain ⟨doc, hdoc, hrest⟩ := bind_eq_ok_iff.mp hdocs
      obtain ⟨rest, hread, -⟩ := bind_eq_ok_iff.mp hrest
      exact ⟨⟨doc, hdoc⟩, rest, hread⟩
    · rintro ⟨⟨doc, hdoc⟩, docs, hdocs⟩
      refine ⟨project fields doc :: docs, ?_⟩
      simp only [readRows, hdoc, hdocs]
      rfl

/-! ## One page -/

section Page

variable {env : AdapterEnv} {sorts : List SortField → Prop} {t : Documents} {d : QueryDescriptor}
  {selects : DocumentRow → Bool} {ordered : List DocumentRow}

/-- The cursor stands at an offset. -/
def PointsTo (env : AdapterEnv) (cursor : Option String) (offset : Nat) : Prop :=
  pageOffset env ⟨0, cursor⟩ = .ok offset

theorem pointsTo_none : PointsTo env none 0 := rfl

theorem pointsTo_encodeCursor (h : OrderedReads env sorts t d selects ordered) {offset : Nat}
    (hlt : offset < 2 ^ 64) : PointsTo env (some (encodeCursor env offset)) offset := by
  simp only [PointsTo, pageOffset, decodeCursor, encodeCursor, h.cursor, Option.bind_some,
    parseUnsigned_toString hlt]

/-- SQLite answers the statements of the query. -/
structure Answered (env : AdapterEnv) (sorts : List SortField → Prop) (d : QueryDescriptor) :
    Prop where
  valid : validateIdentifier d.collection = .ok ()
  bound : Bound env d
  sorted : sorts d.sort

variable {cursor : Option String}

theorem query_eq (h : OrderedReads env sorts t d selects ordered)
    (hanswered : Answered env sorts d) {offset : Nat}
    (hcursor : PointsTo env cursor offset) (hlt : offset < 2 ^ 63) {documents : List Json}
    (hread : readRows d.fields ((ordered.drop offset).take (pageLimit d)) = .ok documents) :
    query env t (startAt d cursor) = .ok
      { documents
        totalCount := ordered.length
        nextCursor :=
          if offset + pageLimit d < ordered.length then
            some (encodeCursor env (offset + pageLimit d))
          else none } := by
  have hoffset : pageOffset env ⟨d.pagination.limit, cursor⟩ = .ok offset := hcursor
  have hcount := h.count hanswered.bound
  have hpage := h.page hanswered.bound hanswered.sorted offset hlt
  simp only [pageLimit] at hpage hread ⊢
  simp [query, fetchPage, startAt, hanswered.valid, hcount, hoffset, hpage, hread, nextCursor, bind,
    Except.bind, pure, Except.pure]
  rfl

theorem answered_of_query (h : OrderedReads env sorts t d selects ordered) {page : DocumentList}
    (hquery : query env t (startAt d cursor) = .ok page) : Answered env sorts d := by
  obtain ⟨fetched, hfetch, -⟩ := bind_eq_ok_iff.mp hquery
  obtain ⟨_, hvalid, hbody⟩ := bind_eq_ok_iff.mp hfetch
  obtain ⟨total, hcount, hbody⟩ := bind_eq_ok_iff.mp hbody
  obtain ⟨offset, -, hbody⟩ := bind_eq_ok_iff.mp hbody
  obtain ⟨rows, hrows, -⟩ := bind_eq_ok_iff.mp hbody
  refine ⟨hvalid, ?_, ?_⟩
  · by_contra hbound
    obtain ⟨e, he⟩ := h.unbound hbound
    exact nomatch he.symm.trans (mapError_eq_ok_iff.mp hcount)
  · by_contra hsorts
    obtain ⟨e, he⟩ := h.unsorted hsorts offset
    exact nomatch he.symm.trans (mapError_eq_ok_iff.mp hrows)

theorem pageOffset_lt {pagination : Pagination} {offset : Nat}
    (h : pageOffset env pagination = .ok offset) : offset < 2 ^ 64 := by
  unfold pageOffset at h
  split at h
  next cursor hcursor =>
    unfold decodeCursor at h
    split at h
    next n hn =>
      cases h
      obtain ⟨text, -, hparse⟩ := Option.bind_eq_some_iff.mp hn
      exact parseUnsigned_lt hparse
    next => cases h
  next =>
    cases h
    decide

/-- SQLite fails before the next offset overflows. -/
theorem fetchPage_noOverflow (h : OrderedReads env sorts t d selects ordered) {page : Page}
    (hfetch : fetchPage env t (startAt d cursor) = .ok page) :
    page.offset + page.limit < 2 ^ 64 := by
  obtain ⟨_, -, hbody⟩ := bind_eq_ok_iff.mp hfetch
  obtain ⟨total, -, hbody⟩ := bind_eq_ok_iff.mp hbody
  obtain ⟨offset, hoffset, hbody⟩ := bind_eq_ok_iff.mp hbody
  obtain ⟨rows, hrows, hpage⟩ := bind_eq_ok_iff.mp hbody
  cases hpage
  have hoffset_lt := pageOffset_lt hoffset
  have hselect : env.queryRows (querySql env.toJsonEnv d.filter d.sort (pageLimit d) offset)
      (bindValues env.toJsonEnv d.collection d.filter) t.rows = .ok rows :=
    mapError_eq_ok_iff.mp hrows
  change offset + pageLimit d < 2 ^ 64
  by_cases hlimit : 1 ≤ pageLimit d
  · have hnear : offset < 2 ^ 63 := by
      by_contra hfar
      obtain ⟨e, he⟩ := h.far hlimit offset (Nat.not_lt.mp hfar)
      rw [he] at hselect
      cases hselect
    have hle : pageLimit d ≤ 1000 := Nat.min_le_right _ _
    omega
  · omega

end Page

/-! ## All pages -/

section Pages

variable {env : AdapterEnv} {sorts : List SortField → Prop} {t : Documents} {d : QueryDescriptor}
  {selects : DocumentRow → Bool} {ordered : List DocumentRow}

/-- From any offset the pages return what is left of the order. -/
theorem follows_rest (h : OrderedReads env sorts t d selects ordered)
    (hanswered : Answered env sorts d) (hlimit : 1 ≤ pageLimit d)
    (hread : ∀ r ∈ ordered, ∃ value, r.data = .ok value) {cursor : Option String} {offset : Nat}
    (hcursor : PointsTo env cursor offset) (hlt : offset < 2 ^ 63) :
    ∃ pages documents, Follows env t d cursor pages ∧
      readRows d.fields (ordered.drop offset) = .ok documents ∧
      (pages.flatMap fun page => page.documents) = documents ∧
      ∀ page ∈ pages, page.totalCount = ordered.length := by
  -- Induction on the number of rows that are left.
  induction hleft : ordered.length - offset using Nat.strongRecOn generalizing cursor offset with
  | _ left ih =>
    obtain ⟨documents, hdocuments⟩ : ∃ documents,
        readRows d.fields ((ordered.drop offset).take (pageLimit d)) = .ok documents := by
      apply exists_readRows_iff.mpr
      intro r hr
      exact hread r (mem_of_mem_drop (mem_of_mem_take hr))
    have hpage := query_eq h hanswered hcursor hlt hdocuments
    by_cases hnext : offset + pageLimit d < ordered.length
    · rw [if_pos hnext] at hpage
      have hlength := h.length_lt
      obtain ⟨rest, documents', hfollows, hrest, hflat, htotal⟩ :=
        ih (ordered.length - (offset + pageLimit d)) (by omega)
          (pointsTo_encodeCursor h (by omega)) (by omega) rfl
      refine ⟨_ :: rest, documents ++ documents', Follows.more hpage rfl hfollows, ?_, ?_, ?_⟩
      · rw [← take_append_drop (pageLimit d) (ordered.drop offset), drop_drop]
        exact readRows_append hdocuments hrest
      · rw [flatMap_cons, hflat]
      · intro page hmem
        rcases mem_cons.mp hmem with rfl | hmem
        · rfl
        · exact htotal page hmem
    · rw [if_neg hnext] at hpage
      refine ⟨[_], documents, Follows.last hpage rfl, ?_, ?_, ?_⟩
      · rw [← hdocuments, take_of_length_le]
        rw [length_drop]
        omega
      · simp
      · intro page hmem
        rw [mem_singleton.mp hmem]

/-- Without rows in a page the cursor stays where it is. -/
theorem not_follows_of_limit_zero (h : OrderedReads env sorts t d selects ordered)
    (hlimit : pageLimit d = 0) (hrows : ordered ≠ []) {cursor : Option String}
    {pages : List DocumentList} (hcursor : PointsTo env cursor 0) :
    ¬ Follows env t d cursor pages := by
  have hpositive : 0 < ordered.length := length_pos_iff.mpr hrows
  have hpage : ∀ {cursor : Option String} {page : DocumentList}, PointsTo env cursor 0 →
      query env t (startAt d cursor) = .ok page →
      page.nextCursor = some (encodeCursor env 0) := by
    intro cursor page hcursor hquery
    have hempty : readRows d.fields ((ordered.drop 0).take (pageLimit d)) = .ok [] := by
      rw [hlimit]
      rfl
    have heq := query_eq h (answered_of_query h hquery) hcursor (by decide) hempty
    rw [hquery] at heq
    rw [Except.ok.inj heq, hlimit]
    exact if_pos hpositive
  intro hfollows
  induction hfollows with
  | last hquery hend =>
    rw [hpage hcursor hquery] at hend
    cases hend
  | more hquery hnext _ ih =>
    rw [hpage hcursor hquery] at hnext
    cases hnext
    exact ih (pointsTo_encodeCursor h (by decide))

/-- The pages cover the matching documents exactly when the collection has a valid name, the filter
writes its last value, the order can be read, the rows hold JSON, and the limit is not zero or there
is nothing to return. -/
theorem pagesCover_iff (h : OrderedReads env sorts t d selects ordered) :
    PagesCover env t d ordered ↔
      validateIdentifier d.collection = .ok () ∧
        (∀ f ∈ d.filter, ∀ leaf ∈ (condition env.toJsonEnv f).leaves.getLast?, leaf.1 = true) ∧
        sorts d.sort ∧
        (∀ r ∈ t.rows, selects r = true → ∃ value, r.data = .ok value) ∧
        (1 ≤ d.pagination.limit ∨ ∀ r ∈ t.rows, selects r = false) := by
  have hbound : Bound env d ↔
      ∀ f ∈ d.filter, ∀ leaf ∈ (condition env.toJsonEnv f).leaves.getLast?, leaf.1 = true :=
    forall₂_congr fun f _ => wellBound_iff ..
  rw [← hbound]
  have hmem : ∀ r, r ∈ ordered ↔ r ∈ t.rows ∧ selects r = true := by
    intro r
    rw [h.perm.mem_iff, mem_filter]
  constructor
  · rintro ⟨⟨pages, documents, hfollows, hread, -, -⟩, -⟩
    have hanswered : Answered env sorts d := by
      rcases hfollows with ⟨hquery, -⟩ | ⟨hquery, -, -⟩ <;> exact answered_of_query h hquery
    refine ⟨hanswered.valid, hanswered.bound, hanswered.sorted, ?_, ?_⟩
    · intro r hr hselects
      exact exists_readRows_iff.mp ⟨documents, hread⟩ r ((hmem r).mpr ⟨hr, hselects⟩)
    · by_contra hnot
      push Not at hnot
      obtain ⟨hlimit, r, hr, hselects⟩ := hnot
      have hzero : pageLimit d = 0 := by
        unfold pageLimit
        omega
      have hrows : ordered ≠ [] := by
        apply ne_nil_of_mem (a := r)
        exact (hmem r).mpr ⟨hr, by simpa using hselects⟩
      exact not_follows_of_limit_zero h hzero hrows pointsTo_none hfollows
  · rintro ⟨hvalid, hbound, hsorted, hread, hlimit⟩
    have hanswered : Answered env sorts d := ⟨hvalid, hbound, hsorted⟩
    refine ⟨?_, fun cursor page => fetchPage_noOverflow h⟩
    rcases hlimit with hlimit | hnone
    · apply follows_rest h hanswered (Nat.le_min.mpr ⟨hlimit, by decide⟩) _ pointsTo_none
        (by decide)
      intro r hr
      exact hread r ((hmem r).mp hr).1 ((hmem r).mp hr).2
    · have hempty : ordered = [] := by
        rw [eq_nil_iff_forall_not_mem]
        intro r hr
        have hselects := ((hmem r).mp hr).2
        rw [hnone r ((hmem r).mp hr).1] at hselects
        cases hselects
      subst hempty
      have hnothing : readRows d.fields ((List.drop 0 []).take (pageLimit d)) = .ok [] := by
        rw [drop_nil, take_nil]
        rfl
      have hpage := query_eq h hanswered pointsTo_none (by decide) hnothing
      exact ⟨[_], [], Follows.last hpage rfl, rfl, rfl, by simp⟩

end Pages

/-! ## A database with pages of one size -/

/-- The number at the end of a statement. -/
def lastNumber (sql : String) : Nat :=
  Nat.ofDigitChars 10 (sql.toList.reverse.takeWhile Char.isDigit).reverse 0

/-- Selects by collection, keeps the order, and reads the offset at the end of a statement. -/
def pagingAdapter (limit : Nat) : AdapterEnv where
  toJsonEnv := plainAdapter.toJsonEnv
  defaultPluginId := "core"
  queryRows sql binds rows :=
    if 1 ≤ limit ∧ 2 ^ 63 ≤ lastNumber sql then .error "datatype mismatch"
    else .ok (((rows.filter fun r => binds.head? = some (.text r.collection)).drop
      (lastNumber sql)).take limit)
  queryCount _ binds rows :=
    .ok (rows.filter fun r => binds.head? = some (.text r.collection)).length
  encodeBase64 text := text
  decodeBase64 text := some text

theorem lastNumber_append_toString (sql : String) (n : Nat) :
    lastNumber (sql ++ " OFFSET " ++ toString n) = n := by
  have hdigits : ∀ c ∈ (Nat.toDigits 10 n).reverse, c.isDigit = true := by
    intro c hc
    exact Nat.isDigit_of_mem_toDigits (by decide) (by decide) (mem_reverse.mp hc)
  have htext : (sql ++ " OFFSET " ++ toString n).toList.reverse =
      (Nat.toDigits 10 n).reverse ++ ' ' :: ("TESFFO ".toList ++ sql.toList.reverse) := by
    simp
  unfold lastNumber
  rw [htext, takeWhile_append_of_pos hdigits, takeWhile_cons_of_neg (by decide),
    append_nil, reverse_reverse, Nat.ofDigitChars_toDigits (by decide) (by decide)]

theorem lastNumber_querySql (env : JsonEnv) (filter : Option FilterNode) (sort : List SortField)
    (limit offset : Nat) : lastNumber (querySql env filter sort limit offset) = offset := by
  have hsql : querySql env filter sort limit offset =
      (selectSql ++ filterSql env filter ++ orderSql sort ++ (" LIMIT " ++ toString limit)) ++
        " OFFSET " ++ toString offset := by
    simp only [querySql, pageSql, String.append_assoc]
  rw [hsql, lastNumber_append_toString]

theorem head?_bindValues (env : JsonEnv) (collection : String) (filter : Option FilterNode) :
    (bindValues env collection filter).head? = some (.text collection) := by
  cases filter <;> rfl

theorem pagingAdapter_orderedReads (t : Documents) (d : QueryDescriptor)
    (hfilter : d.filter = none) (hsmall : t.rows.length < 2 ^ 63) :
    OrderedReads (pagingAdapter (pageLimit d)) (fun _ => True) t d
      (fun r => r.collection = d.collection)
      (t.rows.filter fun r => r.collection = d.collection) := by
  have hbound : Bound (pagingAdapter (pageLimit d)) d := by simp [Bound, hfilter]
  have hselect : (fun r : DocumentRow =>
      decide (some (SqlValue.text d.collection) = some (.text r.collection))) =
        fun r => decide (r.collection = d.collection) := by
    simp [eq_comm]
  refine ⟨List.Perm.refl _, ?_, ?_, fun h => absurd hbound h, ?_, fun h => absurd trivial h, ?_,
    fun _ => rfl⟩
  · exact Nat.lt_of_le_of_lt (length_filter_le _ _) hsmall
  · intro _
    simp only [pagingAdapter, head?_bindValues, hselect]
  · intro _ _ offset hlt
    simp only [pagingAdapter, head?_bindValues, hselect, lastNumber_querySql]
    rw [if_neg (by omega)]
  · intro hlimit offset hfar
    simp only [pagingAdapter, lastNumber_querySql]
    rw [if_pos ⟨hlimit, hfar⟩]
    exact ⟨_, rfl⟩

def twoNotes : Documents where
  rows := [⟨"1", "core", "notes", .ok (.obj []), 1, "now", "now"⟩,
    ⟨"2", "core", "notes", .ok (.obj []), 1, "now", "now"⟩]
  keys_nodup := by decide

def notesQuery (limit : Nat) : QueryDescriptor :=
  ⟨"notes", none, [], ⟨limit, none⟩, none, none⟩

/-- Two notes, a page for each of them. -/
theorem pagesCover_twoNotes :
    PagesCover (pagingAdapter 1) twoNotes (notesQuery 1)
      (twoNotes.rows.filter fun r => r.collection = "notes") := by
  apply (pagesCover_iff (pagingAdapter_orderedReads twoNotes (notesQuery 1) rfl (by decide))).mpr
  refine ⟨by decide +kernel, nofun, trivial, ?_, Or.inl (by decide)⟩
  intro r hr _
  simp only [twoNotes, mem_cons, not_mem_nil, or_false] at hr
  rcases hr with rfl | rfl <;> exact ⟨_, rfl⟩

/-- With the limit zero every page names itself as the next. -/
theorem not_pagesCover_limit_zero :
    OrderedReads (pagingAdapter 0) (fun _ => True) twoNotes (notesQuery 0)
        (fun r => r.collection = "notes") (twoNotes.rows.filter fun r => r.collection = "notes") ∧
      ¬ PagesCover (pagingAdapter 0) twoNotes (notesQuery 0)
        (twoNotes.rows.filter fun r => r.collection = "notes") := by
  have h := pagingAdapter_orderedReads twoNotes (notesQuery 0) rfl (by decide)
  refine ⟨h, ?_⟩
  rintro ⟨⟨pages, documents, hfollows, -, -, -⟩, -⟩
  exact not_follows_of_limit_zero h rfl (by decide +kernel) pointsTo_none hfollows

end LifeEngine.SqliteDocument
