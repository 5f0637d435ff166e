import LifeEngine.Records.Dialects
import LifeEngine.SqliteDocument.Conditions

/-!
# Documents that match a filter

For a row a clause is true, false or unknown, and a statement counts the rows for which it
is true.  A search is a test with `LIKE`, whose pattern is made of the searched text as it
is, wildcards included.
-/

namespace LifeEngine.SqliteDocument

open Support

def SqlValue.stored : SqlValue → Records.SqlValue
  | null => .null
  | integer n => .integer n
  | real bits => .real (JsonNumber.asF64 (.float bits))
  | text s => .text s

/-- `found LIKE pattern`, without an escape character. -/
def likeValue (texts : Records.SqliteTexts) (found pattern : Records.SqlValue) : Option Bool := do
  let pattern ← pattern.operand texts
  let text ← found.operand texts
  return Like.matchTokens Char.toLower (pattern.map Like.token) text

/-- The value of a test on what is found at its path. -/
def testValue (texts : Records.SqliteTexts) (op : FilterOperator) (found : Records.SqlValue)
    (operands : List Records.SqlValue) : Option Bool :=
  let compares (accepts : Ordering → Bool) (v : Records.SqlValue) :=
    (found.compare v).map accepts
  let among := operands.foldr (fun v => Connective.or.join (compares (· == .eq) v)) (some false)
  match op with
  | .exists_ => some (match found with
    | .null => false
    | _ => true)
  | .in_ => among
  | .notIn => among.map Bool.not
  | .contains | .startsWith => operands.head?.bind (likeValue texts found)
  | .eq => operands.head?.bind (compares (· == .eq))
  | .ne => operands.head?.bind (compares (· != .eq))
  | .gt => operands.head?.bind (compares (· == .gt))
  | .gte => operands.head?.bind (compares (· != .lt))
  | .lt => operands.head?.bind (compares (· == .lt))
  | .lte => operands.head?.bind (compares (· != .gt))

mutual

def Condition.value {α : Type} (holds : FilterOperator → α → List α → Option Bool) :
    Condition α → Option Bool
  | constant value _ => some value
  | test op path operands => holds op path operands
  | not inner => (inner.value holds).map Bool.not
  | group join parts => valueOf holds join parts

def Condition.valueOf {α : Type} (holds : FilterOperator → α → List α → Option Bool)
    (join : Connective) : List (Condition α) → Option Bool
  | [] => some join.unit
  | part :: parts => join.join (part.value holds) (valueOf holds join parts)

end

/-- What SQLite makes of texts, and what `json_extract` returns. -/
structure Reader extends Records.SqliteTexts where
  read : SqlValue → DocumentRow → Records.SqlValue

/-- The value of the clause for a row. -/
def Reader.matches (d : Reader) (env : JsonEnv) (f : FilterNode) (r : DocumentRow) : Option Bool :=
  (condition env f).value fun op path operands =>
    testValue d.toSqliteTexts op (d.read path r) (operands.map SqlValue.stored)

/-- The statement counts the rows for which its clause is true, if its placeholders and values
fit, and is refused otherwise. -/
structure Reader.Counts (d : Reader) (env : AdapterEnv) (t : Documents) (collection : String)
    (filter : Option FilterNode) : Prop where
  counted : (∀ f ∈ filter, WellBound env.toJsonEnv collection f) →
    env.queryCount (countSql env.toJsonEnv filter) (bindValues env.toJsonEnv collection filter)
      t.rows = .ok (t.rows.countP fun r => r.collection = collection ∧
        (filter.all fun f => d.matches env.toJsonEnv f r = some true) = true)
  refused : ∀ f ∈ filter, ¬ WellBound env.toJsonEnv collection f →
    ∃ e, env.queryCount (countSql env.toJsonEnv filter)
      (bindValues env.toJsonEnv collection filter) t.rows = .error e

/-- A filter and its negation match all documents together. -/
def Complementary (env : AdapterEnv) (t : Documents) (collection : String) (f : FilterNode) :
    Prop :=
  ∃ all matched others, count env t collection none = .ok all ∧
    count env t collection (some f) = .ok matched ∧
    count env t collection (some (.not f)) = .ok others ∧ others = all - matched

theorem countP_matches (rows : List DocumentRow) (P : DocumentRow → Prop) [DecidablePred P]
    (v : DocumentRow → Option Bool) :
    rows.countP (fun r => P r) = rows.countP (fun r => P r ∧ v r = some true) +
      rows.countP (fun r => P r ∧ (v r).map Bool.not = some true) +
      rows.countP (fun r => P r ∧ v r = none) := by
  induction rows with
  | nil => rfl
  | cons r rows ih =>
    simp only [List.countP_cons, ih]
    by_cases hr : P r
    · rcases v r with _ | _ | _ <;> simp <;> omega
    · simp [hr]

theorem Reader.Counts.count_eq {d : Reader} {env : AdapterEnv} {t : Documents}
    {collection : String} {filter : Option FilterNode} (h : d.Counts env t collection filter)
    (hvalid : validateIdentifier collection = .ok ())
    (hbound : ∀ f ∈ filter, WellBound env.toJsonEnv collection f) :
    count env t collection filter = .ok (t.rows.countP fun r => r.collection = collection ∧
      (filter.all fun f => d.matches env.toJsonEnv f r = some true) = true) := by
  rw [count, hvalid, h.counted hbound]
  rfl

theorem Reader.Counts.count_ne_ok {d : Reader} {env : AdapterEnv} {t : Documents}
    {collection : String} {f : FilterNode} (h : d.Counts env t collection (some f))
    (hbound : ¬ WellBound env.toJsonEnv collection f) (n : Nat) :
    count env t collection (some f) ≠ .ok n := by
  intro hcount
  obtain ⟨e, he⟩ := h.refused f rfl hbound
  obtain ⟨_, -, hcount⟩ := bind_eq_ok_iff.mp hcount
  rw [he] at hcount
  cases hcount

theorem wellBound_not_iff (env : JsonEnv) (collection : String) (f : FilterNode) :
    WellBound env collection (.not f) ↔ WellBound env collection f := by
  rw [wellBound_iff, wellBound_iff]
  rfl

/-- They do exactly if the placeholders of the filter fit its values, and it is true or false for
every document of the collection. -/
theorem complementary_iff (d : Reader) (env : AdapterEnv) (t : Documents) (collection : String)
    (f : FilterNode) (hvalid : validateIdentifier collection = .ok ())
    (hcounts : ∀ filter ∈ [none, some f, some (.not f)], d.Counts env t collection filter) :
    Complementary env t collection f ↔
      (∀ leaf ∈ (condition env.toJsonEnv f).leaves.getLast?, leaf.1 = true) ∧
        ∀ r ∈ t.rows, r.collection = collection → d.matches env.toJsonEnv f r ≠ none := by
  rw [← wellBound_iff env.toJsonEnv collection f]
  by_cases hbound : WellBound env.toJsonEnv collection f
  · have hboundNot := (wellBound_not_iff env.toJsonEnv collection f).mpr hbound
    have hall := (hcounts none (by simp)).count_eq hvalid nofun
    have hmatched := (hcounts (some f) (by simp)).count_eq hvalid (by simpa using hbound)
    have hothers := (hcounts (some (.not f)) (by simp)).count_eq hvalid (by simpa using hboundNot)
    have hsum := countP_matches t.rows (·.collection = collection) (d.matches env.toJsonEnv f)
    have hunknown : t.rows.countP (fun r => r.collection = collection ∧
        d.matches env.toJsonEnv f r = none) = 0 ↔
        ∀ r ∈ t.rows, r.collection = collection → d.matches env.toJsonEnv f r ≠ none := by
      simp
    have hnot : ∀ r, d.matches env.toJsonEnv (.not f) r =
        (d.matches env.toJsonEnv f r).map Bool.not := fun _ => rfl
    rw [← hunknown, Complementary, hall, hmatched, hothers]
    simp only [Except.ok.injEq, exists_and_left, exists_eq_left', Option.all_none, Option.all_some,
      decide_eq_true_eq, and_true, hnot, hbound, true_and]
    omega
  · simp only [hbound, false_and, iff_false]
    rintro ⟨all, matched, others, -, hmatched, -⟩
    exact (hcounts (some f) (by simp)).count_ne_ok hbound matched hmatched

/-- No array, object or double is compared. -/
def plainReader : Reader where
  toSqliteTexts := .plain
  read
    | .text path, r => ((r.data.bind (Records.jsonExtract .plain
        (String.ofList (path.toList.drop 2)))).toOption).getD .null
    | _, _ => .null

def taskTable (data : Json) : Documents :=
  ⟨[⟨"t1", "core", "tasks", .ok data, 1, "now", "now"⟩], by simp⟩

def doneFilter : FilterNode :=
  .comparison "done" .eq (.str "yes")

/-- The filter that a statement has, or negates. -/
def filterOf (sql : String) : Option FilterNode :=
  if sql = countSql plainAdapter.toJsonEnv (some doneFilter) then some doneFilter
  else if sql = countSql plainAdapter.toJsonEnv (some (.not doneFilter)) then
    some (.not doneFilter)
  else none

def taskAdapter : AdapterEnv :=
  { plainAdapter with
    queryCount := fun sql _ rows => .ok (rows.countP fun r => r.collection = "tasks" ∧
      ((filterOf sql).all fun f =>
        plainReader.matches plainAdapter.toJsonEnv f r = some true) = true) }

theorem wellBound_doneFilter : WellBound taskAdapter.toJsonEnv "tasks" doneFilter :=
  (wellBound_iff ..).mpr (by rintro leaf ⟨⟩; rfl)

theorem counts_taskAdapter (t : Documents) :
    ∀ filter ∈ [none, some doneFilter, some (.not doneFilter)],
      plainReader.Counts taskAdapter t "tasks" filter := by
  intro filter hfilter
  simp only [List.mem_cons, List.not_mem_nil, or_false] at hfilter
  constructor
  · intro _
    have hfilterOf : filterOf (countSql plainAdapter.toJsonEnv filter) = filter := by
      rcases hfilter with rfl | rfl | rfl
      · rw [filterOf, if_neg (by decide +kernel), if_neg (by decide +kernel)]
      · rw [filterOf, if_pos rfl]
      · rw [filterOf, if_neg (by decide +kernel), if_pos rfl]
    show Except.ok _ = _
    rw [show countSql taskAdapter.toJsonEnv filter = countSql plainAdapter.toJsonEnv filter
      from rfl, hfilterOf]
    rfl
  · intro f hf hbound
    refine absurd ?_ hbound
    rcases hfilter with rfl | rfl | rfl
    · cases hf
    · obtain rfl := Option.some.inj hf
      exact wellBound_doneFilter
    · obtain rfl := Option.some.inj hf
      exact (wellBound_not_iff ..).mpr wellBound_doneFilter

theorem complementary_iff_done :
    Complementary taskAdapter (taskTable (.obj [("done", .str "yes")])) "tasks" doneFilter := by
  refine (complementary_iff plainReader taskAdapter _ "tasks" doneFilter (by decide)
    (counts_taskAdapter _)).mpr ⟨?_, ?_⟩
  · exact (wellBound_iff ..).mp wellBound_doneFilter
  · decide +kernel

/-- A task without the field matches neither. -/
theorem not_complementary_missing :
    (∀ filter ∈ [none, some doneFilter, some (.not doneFilter)],
      plainReader.Counts taskAdapter (taskTable (.obj [])) "tasks" filter) ∧
    ¬ Complementary taskAdapter (taskTable (.obj [])) "tasks" doneFilter := by
  have hall : count taskAdapter (taskTable (.obj [])) "tasks" none = .ok 1 := by decide +kernel
  have hmatched : count taskAdapter (taskTable (.obj [])) "tasks" (some doneFilter) = .ok 0 := by
    decide +kernel
  have hothers : count taskAdapter (taskTable (.obj [])) "tasks" (some (.not doneFilter)) =
      .ok 0 := by decide +kernel
  refine ⟨counts_taskAdapter _, ?_⟩
  rintro ⟨all, matched, others, hall', hmatched', hothers', hsum⟩
  obtain rfl := Except.ok.inj (hall.symm.trans hall')
  obtain rfl := Except.ok.inj (hmatched.symm.trans hmatched')
  obtain rfl := Except.ok.inj (hothers.symm.trans hothers')
  cases hsum

/-! ## Searches -/

/-- `SQLITE_MAX_LIKE_PATTERN_LENGTH`. -/
def maxLikePattern : Nat := 50000

def searchPattern : FilterOperator → String → String
  | .contains, s => "%" ++ s ++ "%"
  | _, s => s ++ "%"

/-- What a search says about a row, unless SQLite refuses its pattern. -/
def Reader.search (d : Reader) (env : JsonEnv) (field : String) (op : FilterOperator) (s : String)
    (r : DocumentRow) : Except String (Option Bool) := do
  ensure ((searchPattern op s).utf8ByteSize ≤ maxLikePattern) "LIKE or GLOB pattern too complex"
  return d.matches env (.comparison field op (.str s)) r

def folded (s : String) : List Char :=
  s.toList.map Char.toLower

/-- Searches for the text find the values that contain it, or start with it, up to case. -/
def Searches (d : Reader) (env : JsonEnv) (field s : String) (values : Set String) : Prop :=
  ∀ v ∈ values, ∀ r, d.read (.text ("$." ++ field)) r = .text v →
    (∃ found, d.search env field .contains s r = .ok found ∧
      (found = some true ↔ folded s <:+: folded v)) ∧
    (∃ found, d.search env field .startsWith s r = .ok found ∧
      (found = some true ↔ folded s <+: folded v))

/-- The texts that SQLite reads to their end. -/
def withoutNul : Set String :=
  {v | '\x00' ∉ v.toList}

def Literal (s : String) : Prop :=
  ∀ c ∈ s.toList, c ≠ '%' ∧ c ≠ '_' ∧ c ≠ '\x00'

theorem takeWhile_eq_self_of_withoutNul {text : List Char} (h : '\x00' ∉ text) :
    text.takeWhile (· ≠ '\x00') = text :=
  List.takeWhile_eq_self_iff.mpr fun _ hc => decide_eq_true fun heq => h (heq ▸ hc)

section Search

variable {d : Reader} {env : JsonEnv} {field v s : String} {r : DocumentRow}

/-- Both texts are read up to the first NUL. -/
theorem matches_search (hread : d.read (.text ("$." ++ field)) r = .text v) {op : FilterOperator}
    (hop : op = .contains ∨ op = .startsWith) :
    d.matches env (.comparison field op (.str s)) r = some (Like.matchTokens Char.toLower
      (((searchPattern op s).toList.takeWhile (· ≠ '\x00')).map Like.token)
      (v.toList.takeWhile (· ≠ '\x00'))) := by
  have hlike : d.matches env (.comparison field op (.str s)) r = likeValue d.toSqliteTexts
      (d.read (.text ("$." ++ field)) r) (.text (searchPattern op s)) := by
    rcases hop with rfl | rfl <;> rfl
  rw [hlike, hread]
  rfl

theorem search_eq {op : FilterOperator}
    (hsize : (searchPattern op s).utf8ByteSize ≤ maxLikePattern) :
    d.search env field op s r = .ok (d.matches env (.comparison field op (.str s)) r) := by
  rw [Reader.search, ensure, if_pos hsize]
  rfl

theorem searches_of_literal (hs : Literal s)
    (hsize : (searchPattern .contains s).utf8ByteSize ≤ maxLikePattern) :
    Searches d env field s withoutNul := by
  intro v hv r hread
  have hnul : '\x00' ∉ s.toList := fun h => (hs _ h).2.2 rfl
  have htokens : s.toList.map Like.token = s.toList.map .lit := by
    refine List.map_congr_left fun c hc => ?_
    rw [Like.token, if_neg (hs c hc).1, if_neg (hs c hc).2.1]
  have hsize' : (searchPattern .startsWith s).utf8ByteSize ≤ maxLikePattern := by
    simp only [searchPattern, String.utf8ByteSize_append] at hsize ⊢
    omega
  refine ⟨⟨_, search_eq hsize, ?_⟩, _, search_eq hsize', ?_⟩
  · have hpattern : '\x00' ∉ (searchPattern .contains s).toList := by
      simpa [searchPattern] using hnul
    rw [matches_search hread (.inl rfl), takeWhile_eq_self_of_withoutNul hpattern,
      takeWhile_eq_self_of_withoutNul hv, folded, folded, ← Like.matchTokens_many_lit_iff]
    simp [searchPattern, htokens, Like.token]
  · have hpattern : '\x00' ∉ (searchPattern .startsWith s).toList := by
      simpa [searchPattern] using hnul
    rw [matches_search hread (.inr rfl), takeWhile_eq_self_of_withoutNul hpattern,
      takeWhile_eq_self_of_withoutNul hv, folded, folded, ← Like.matchTokens_lit_append_many_iff]
    simp [searchPattern, htokens, Like.token]

end Search

/-- The part of a text that SQLite reads, with a letter for each wildcard. -/
def filled (s : String) : String :=
  String.ofList ((s.toList.takeWhile (· ≠ '\x00')).map (Like.fill 'a'))

theorem filled_mem_withoutNul (s : String) : filled s ∈ withoutNul := by
  intro hmem
  rw [filled, String.toList_ofList] at hmem
  obtain ⟨c, hc, hfill⟩ := List.mem_map.mp hmem
  have hread := List.mem_takeWhile_imp hc
  rw [Like.fill] at hfill
  split at hfill
  · exact absurd hfill (by decide)
  · simp [hfill] at hread

theorem matchTokens_filled (s : String) :
    Like.matchTokens Char.toLower
      (((searchPattern .contains s).toList.takeWhile (· ≠ '\x00')).map Like.token)
      (filled s).toList = true := by
  set before := s.toList.takeWhile (· ≠ '\x00')
  obtain ⟨rest, hpattern, hrest⟩ : ∃ rest,
      ((searchPattern .contains s).toList.takeWhile (· ≠ '\x00')).map Like.token =
        .many :: (before.map Like.token ++ rest) ∧
      Like.matchTokens Char.toLower rest [] = true := by
    have htext : (searchPattern .contains s).toList = '%' :: (s.toList ++ ['%']) := by
      simp [searchPattern]
    rw [htext, List.takeWhile_cons_of_pos (by decide), List.takeWhile_append]
    split
    · next hall =>
      have hself : before = s.toList := (List.takeWhile_prefix _).eq_of_length hall
      exact ⟨[.many], by simp [hself, Like.token], rfl⟩
    · exact ⟨[], by simp [before, Like.token], rfl⟩
  have hfilled := Like.matchTokens_fill 'a' before hrest
  rw [List.append_nil] at hfilled
  rw [hpattern, filled, String.toList_ofList]
  exact List.any_eq_true.mpr ⟨_, (List.mem_tails _ _).mpr List.suffix_rfl, hfilled⟩

/-- A letter stands where the text has a wildcard. -/
theorem literal_of_infix_filled {s : String} (h : folded s <:+: folded (filled s)) :
    Literal s := by
  obtain ⟨before, hbefore⟩ : ∃ before, s.toList.takeWhile (· ≠ '\x00') = before := ⟨_, rfl⟩
  rw [folded, folded, filled, String.toList_ofList, hbefore] at h
  have hprefix : before <+: s.toList := hbefore ▸ List.takeWhile_prefix _
  have hlength : before.length = s.toList.length := by
    refine Nat.le_antisymm hprefix.length_le ?_
    simpa using h.length_le
  obtain rfl : before = s.toList := hprefix.eq_of_length hlength
  have hsame := h.eq_of_length (by simp)
  rw [List.map_map] at hsame
  intro c hc
  have hfill : c.toLower = (Like.fill 'a' c).toLower := List.map_inj_left.mp hsame c hc
  refine ⟨?_, ?_, ?_⟩
  · rintro rfl
    exact absurd hfill (by decide)
  · rintro rfl
    exact absurd hfill (by decide)
  · have hread := List.takeWhile_eq_self_iff.mp hbefore c hc
    simpa using hread

theorem utf8ByteSize_searchPattern (s : String) :
    (searchPattern .contains s).utf8ByteSize = s.utf8ByteSize + 2 := by
  have hpercent : "%".utf8ByteSize = 1 := by decide
  simp only [searchPattern, String.utf8ByteSize_append]
  omega

/-- Searches are literal exactly for the texts without wildcards and NUL whose pattern is not too
long. -/
theorem searches_iff (d : Reader) (env : JsonEnv) (field s : String)
    (hreads : ∀ v ∈ withoutNul, ∃ r, d.read (.text ("$." ++ field)) r = .text v) :
    Searches d env field s withoutNul ↔ Literal s ∧ s.utf8ByteSize + 2 ≤ maxLikePattern := by
  rw [← utf8ByteSize_searchPattern]
  refine ⟨fun h => ?_, fun ⟨hs, hsize⟩ => searches_of_literal hs hsize⟩
  obtain ⟨r, hread⟩ := hreads _ (filled_mem_withoutNul s)
  obtain ⟨⟨found, hsearch, hfound⟩, -⟩ := h _ (filled_mem_withoutNul s) r hread
  obtain ⟨_, hfits, hmatch⟩ := bind_eq_ok_iff.mp hsearch
  obtain rfl := Except.ok.inj hmatch
  refine ⟨literal_of_infix_filled (hfound.mp ?_), ensure_eq_ok_iff.mp hfits⟩
  rw [matches_search hread (.inl rfl), takeWhile_eq_self_of_withoutNul (filled_mem_withoutNul s),
    matchTokens_filled]

def titled (title : String) : DocumentRow :=
  ⟨"t1", "core", "tasks", .ok (.obj [("title", .str title)]), 1, "now", "now"⟩

/-- Titles with the letters of a word. -/
theorem searches_groc : Searches plainReader plainAdapter.toJsonEnv "title" "GROC" withoutNul :=
  (searches_iff plainReader _ "title" "GROC" fun v _ => ⟨titled v, rfl⟩).mpr
    ⟨by simp [Literal], by decide⟩

/-- Every title matches a search for the wildcard. -/
theorem not_searches_wildcard :
    plainReader.search plainAdapter.toJsonEnv "title" .contains "%" (titled "Groceries") =
        .ok (some true) ∧
      ¬ Searches plainReader plainAdapter.toJsonEnv "title" "%" withoutNul := by
  have hfinds : plainReader.search plainAdapter.toJsonEnv "title" .contains "%"
      (titled "Groceries") = .ok (some true) := by decide +kernel
  refine ⟨hfinds, fun h => ?_⟩
  obtain ⟨⟨found, hsearch, hfound⟩, -⟩ :=
    h "Groceries" (by simp [withoutNul]) (titled "Groceries") rfl
  obtain rfl := Except.ok.inj (hsearch.symm.trans hfinds)
  exact absurd (hfound.mp rfl) (by decide)

end LifeEngine.SqliteDocument
