import LifeEngine.Support.Machine
import LifeEngine.Sync.Primitives

/-!
# Serving changes to a peer

`serve_changes` lists the first page of a collection, keeps what was updated after the
cursor that the peer sends, and answers with a cursor drawn from the clock after the
listing.  Writes may come between the listing and the clock.  The main result says under
which conditions on the writes and the calls a peer that keeps calling catches up.
-/

namespace LifeEngine.Federation

open Support Storage Records Sync List

/-! ## The endpoint -/

structure ServeError where
  status : Nat
  error : String
  deriving DecidableEq, Repr

/-- `to_rfc3339` and `parse_from_rfc3339`. -/
structure Chrono where
  toRfc3339 : Timestamp → String
  parseFromRfc3339 : String → Option Timestamp

/-- What the printing of a timestamp keeps. -/
structure LawfulChrono (chrono : Chrono) : Prop where
  parse_print : ∀ time, chrono.parseFromRfc3339 (chrono.toRfc3339 time) = some time
  print_ne_empty : ∀ time, chrono.toRfc3339 time ≠ ""

/-- The records that `serve_changes` lists. -/
def listChanges (env : SqlEnv) (storage : Option Rows) (collection : String) :
    Except ServeError (List Record) := do
  let rows ← okOr storage ⟨503, "storage not available"⟩
  let result ← (Records.list env rows "core" collection none ⟨1000, 0⟩).mapError
    fun e => ⟨500, e⟩
  return result.records

def parseSince (chrono : Chrono) (since : String) : Except ServeError (Option Timestamp) :=
  if since = "" then .ok none
  else
    match chrono.parseFromRfc3339 since with
    | some time => .ok (some time)
    | none => .error ⟨400, "invalid 'since' timestamp, expected RFC 3339 format"⟩

def newerThan (since : Option Timestamp) (time : Timestamp) : Bool :=
  (since.map fun s => decide (s < time)).getD true

def toChange (r : Record) : ChangeRecord :=
  ⟨r.id, r.collection, .update, some r.data, r.version, r.updatedAt⟩

/-- The answer of `serve_changes` to what it has listed. -/
def answerChanges (chrono : Chrono) (since : String) (records : List Record)
    (now : Timestamp) : Except ServeError PullResponse := do
  let sinceDt ← parseSince chrono since
  let changes := (records.filter fun r => newerThan sinceDt r.updatedAt).map toChange
  return ⟨changes, chrono.toRfc3339 now⟩

def serveChanges (env : SqlEnv) (chrono : Chrono) (storage : Option Rows)
    (collection since : String) (now : Timestamp) : Except ServeError PullResponse := do
  let records ← listChanges env storage collection
  answerChanges chrono since records now

/-! ## A peer that keeps calling -/

/-- The storage and one client: its listing without an answer, its cursor and what it has received.
The ids of deleted records are kept to speak about them. -/
structure Feed where
  rows : Rows
  listed : Option (List Record)
  since : String
  received : List ChangeRecord
  deleted : List String

/-- The client has not called yet. -/
def Feed.start (rows : Rows) : Feed := ⟨rows, none, "", [], []⟩

/-- Writes of the core, and the two halves of a call. -/
inductive FeedEvent where
  | create (draw : Draw) (pluginId collection : String) (data : Json)
  | update (now : Timestamp) (pluginId collection id : String) (data : Json) (version : Int)
  | delete (pluginId collection id : String)
  | call
  | answer (now : Timestamp)

/-- The rows that the endpoint serves. -/
def InFeed (collection : String) (r : DataRow String) : Prop :=
  r.pluginId = "core" ∧ r.collection = collection

instance (collection : String) : DecidablePred (InFeed collection) := fun r =>
  inferInstanceAs (Decidable (r.pluginId = "core" ∧ r.collection = collection))

/-- The client calls again with the cursor of the last answer. -/
def feedStep (env : SqlEnv) (chrono : Chrono) (collection : String) (s : Feed) :
    FeedEvent → Feed
  | .create draw pluginId target data =>
    { s with rows := (Records.create draw s.rows pluginId target data).2 }
  | .update now pluginId target id data version =>
    { s with rows := (Records.update now s.rows pluginId target id data version).2 }
  | .delete pluginId target id =>
    let (existed, rows) := Records.delete s.rows pluginId target id
    { s with
      rows := rows
      deleted :=
        if existed ∧ pluginId = "core" ∧ target = collection then id :: s.deleted
        else s.deleted }
  | .call =>
    match s.listed with
    | some _ => s
    | none => { s with listed := (listChanges env (some s.rows) collection).toOption }
  | .answer now =>
    match s.listed with
    | none => s
    | some records =>
      match answerChanges chrono s.since records now with
      | .error _ => { s with listed := none }
      | .ok response =>
        { s with
          listed := none
          since := response.cursor
          received := s.received ++ response.changes }

/-- Calls that are answered at the given times. -/
def keepCalling (times : List Timestamp) : List FeedEvent :=
  times.flatMap fun now => [.call, .answer now]

/-- The client has the state of each record and all deletions. -/
structure CaughtUp (collection : String) (s : Feed) : Prop where
  states : ∀ r ∈ s.rows.rows, InFeed collection r → toChange (rowToRecord r) ∈ s.received
  deletions : ∀ id ∈ s.deleted,
    ∃ change ∈ s.received, change.id = id ∧ change.operation = .delete

/-- From here on, the client catches up by calling often enough. -/
def CatchesUp (env : SqlEnv) (chrono : Chrono) (collection : String) (s : Feed) : Prop :=
  ∃ calls, ∀ times : List Timestamp, calls ≤ times.length →
    CaughtUp collection (run (feedStep env chrono collection) s (keepCalling times))

/-- The client gets an update of this time with the next call. -/
def Feed.Unseen (chrono : Chrono) (s : Feed) (time : Timestamp) : Prop :=
  ∃ since, parseSince chrono s.since = .ok since ∧ newerThan since time = true

/-- Nothing escapes the cursor: served records are not deleted, are written after it and fit into
one page, also those written during a listing. -/
def Kept (chrono : Chrono) (collection : String) (s : Feed) : FeedEvent → Prop
  | .create draw pluginId target _ =>
    pluginId = "core" → target = collection → s.Unseen chrono draw.now
  | .update now pluginId target _ _ _ =>
    pluginId = "core" → target = collection → s.Unseen chrono now
  | .delete pluginId target id =>
    ∀ r ∈ s.rows.rows, InFeed collection r → hits pluginId target id r = false
  | .call => s.rows.rows.countP (fun r => decide (InFeed collection r)) ≤ 1000
  | .answer now => ∀ records, s.listed = some records →
      ∀ r ∈ s.rows.rows, InFeed collection r →
        rowToRecord r ∈ records ∨ now < r.updatedAt

section

variable {env : SqlEnv} {chrono : Chrono} {collection : String} {s : Feed}

/-! ## Listings and answers -/

/-- Without filters SQLite selects all rows of the collection. -/
def SelectsAll (env : SqlEnv) : Prop :=
  env.meets .default = .ok fun _ => true

/-- A listing holds all records if they fit into one page. -/
theorem listChanges_ok (henv : SelectsAll env) (rows : Rows) :
    ∃ records, listChanges env (some rows) collection = .ok records ∧
      (∀ record ∈ records, ∃ r ∈ rows.rows, InFeed collection r ∧ record = rowToRecord r) ∧
      (rows.rows.countP (fun r => decide (InFeed collection r)) ≤ 1000 →
        ∀ r ∈ rows.rows, InFeed collection r → rowToRecord r ∈ records) := by
  let selected := rows.rows.filter fun r => decide (InFeed collection r)
  have hselected : (rows.rows.filter fun r =>
      r.pluginId = "core" ∧ r.collection = collection ∧ true) = selected := by
    apply filter_congr
    intro r _
    rw [decide_eq_decide]
    simp [InFeed]
  have hpage : page env rows "core" collection .default none ⟨1000, 0⟩ =
      .ok ((env.order none selected).1.take 1000, selected.length) := by
    have henv' : env.meets .default = .ok fun _ => true := henv
    unfold page
    rw [henv', ← hselected]
    rfl
  refine ⟨((env.order none selected).1.take 1000).map rowToRecord, ?_, ?_, ?_⟩
  · have hclamped : Pagination.clamped ⟨1000, 0⟩ = ⟨1000, 0⟩ := rfl
    simp only [listChanges, okOr_some, Records.list, query_eq, hclamped, hpage, bind, Except.bind]
    rfl
  · intro record hrecord
    obtain ⟨r, hr, rfl⟩ := mem_map.mp hrecord
    obtain ⟨hmem, hplugin, hcollection⟩ := mem_page hpage hr
    exact ⟨r, hmem, ⟨hplugin, hcollection⟩, rfl⟩
  · intro hsize r hr hin
    have hlength : (env.order none selected).1.length ≤ 1000 := by
      rw [(env.order none selected).2.length_eq, ← countP_eq_length_filter]
      exact hsize
    rw [take_of_length_le hlength]
    apply mem_map_of_mem
    apply (env.order none selected).2.mem_iff.mpr
    exact mem_filter.mpr ⟨hr, decide_eq_true hin⟩

theorem parseSince_print (hchrono : LawfulChrono chrono) (time : Timestamp) :
    parseSince chrono (chrono.toRfc3339 time) = .ok (some time) := by
  simp [parseSince, hchrono.print_ne_empty, hchrono.parse_print]

theorem answerChanges_ok {since : String} {sinceDt : Option Timestamp}
    (h : parseSince chrono since = .ok sinceDt) (records : List Record) (now : Timestamp) :
    answerChanges chrono since records now =
      .ok ⟨(records.filter fun r => newerThan sinceDt r.updatedAt).map toChange,
        chrono.toRfc3339 now⟩ := by
  simp only [answerChanges, h]
  rfl

/-! ## What the cursor stands for -/

/-- The change was received, or the next call is served with it. -/
def Feed.Covered (chrono : Chrono) (s : Feed) (record : Record) : Prop :=
  toChange record ∈ s.received ∨ s.Unseen chrono record.updatedAt

/-- The cursor stands for nothing that the client has not received. -/
structure Accounted (chrono : Chrono) (collection : String) (s : Feed) : Prop where
  readable : ∃ since, parseSince chrono s.since = .ok since
  stored : ∀ r ∈ s.rows.rows, InFeed collection r → s.Covered chrono (rowToRecord r)
  listed : ∀ records, s.listed = some records → ∀ record ∈ records, s.Covered chrono record
  deleted : s.deleted = []

/-- A write keeps the account if its records are covered. -/
theorem Accounted.withRows (h : Accounted chrono collection s) {rows : Rows}
    (hrows : ∀ r ∈ rows.rows, InFeed collection r → s.Covered chrono (rowToRecord r)) :
    Accounted chrono collection { s with rows := rows } where
  readable := h.readable
  stored := hrows
  listed := h.listed
  deleted := h.deleted

variable {id pluginId target : String} {now : Timestamp}

theorem Accounted.create (h : Accounted chrono collection s) {draw : Draw} {data : Json}
    (hkept : Kept chrono collection s (.create draw pluginId target data)) :
    Accounted chrono collection
      (feedStep env chrono collection s (.create draw pluginId target data)) := by
  apply h.withRows
  intro r hr hin
  rw [Records.create] at hr
  by_cases hkey : uuidText draw.uuid ∈ s.rows.keys
  · rw [createWithId_of_mem hkey] at hr
    exact h.stored r hr hin
  · obtain ⟨rows', hrows, hcreated⟩ :=
      @createWithId_of_not_mem draw.now s.rows pluginId target _ data hkey
    rw [hcreated, hrows, mem_append, mem_singleton] at hr
    rcases hr with hr | rfl
    · exact h.stored r hr hin
    · exact Or.inr (hkept hin.1 hin.2)

theorem Accounted.update (h : Accounted chrono collection s) {data : Json} {version : Int}
    (hkept : Kept chrono collection s (.update now pluginId target id data version)) :
    Accounted chrono collection
      (feedStep env chrono collection s (.update now pluginId target id data version)) := by
  apply h.withRows
  intro r' hr' hin
  obtain ⟨r, hr, ⟨hhit, rfl⟩ | ⟨-, rfl⟩⟩ := mem_update.mp hr'
  · have hscope := hits_iff.mp (Bool.and_eq_true_iff.mp hhit).1
    exact Or.inr (hkept (hscope.2.1.symm.trans hin.1) (hscope.2.2.symm.trans hin.2))
  · exact h.stored r' hr hin

theorem Accounted.delete (h : Accounted chrono collection s)
    (hkept : Kept chrono collection s (.delete pluginId target id)) :
    Accounted chrono collection
      (feedStep env chrono collection s (.delete pluginId target id)) where
  readable := h.readable
  stored r hr hin := h.stored r (Table.mem_deleteWhere.mp hr).1 hin
  listed := h.listed
  deleted := by
    have hnone : ¬ ((Records.delete s.rows pluginId target id).1 = true ∧
        pluginId = "core" ∧ target = collection) := by
      rintro ⟨hexisted, hplugin, htarget⟩
      obtain ⟨r, hr, hhit⟩ := any_eq_true.mp hexisted
      have hscope := hits_iff.mp hhit
      have hmiss := hkept r hr ⟨hscope.2.1.trans hplugin, hscope.2.2.trans htarget⟩
      rw [hhit] at hmiss
      cases hmiss
    exact (if_neg hnone).trans h.deleted

theorem feedStep_call_of_idle (hidle : s.listed = none) :
    feedStep env chrono collection s .call =
      { s with listed := (listChanges env (some s.rows) collection).toOption } := by
  simp only [feedStep, hidle]

theorem Accounted.call (henv : SelectsAll env) (h : Accounted chrono collection s) :
    Accounted chrono collection (feedStep env chrono collection s .call) := by
  rcases hlisted : s.listed with _ | records
  · rw [feedStep_call_of_idle hlisted]
    refine ⟨h.readable, h.stored, ?_, h.deleted⟩
    obtain ⟨records, hrecords, hsound, -⟩ := listChanges_ok henv s.rows
    intro records' hrecords' record hrecord
    rw [hrecords] at hrecords'
    obtain rfl : records = records' := Option.some.inj hrecords'
    obtain ⟨r, hr, hin, rfl⟩ := hsound record hrecord
    exact h.stored r hr hin
  · simpa only [feedStep, hlisted] using h

/-- An answer adds the unseen records of the listing, and a later cursor. -/
theorem feedStep_answer {s : Feed} {since : Option Timestamp} {records : List Record}
    (hlisted : s.listed = some records) (hsince : parseSince chrono s.since = .ok since)
    (now : Timestamp) :
    feedStep env chrono collection s (.answer now) =
      { s with
        listed := none
        since := chrono.toRfc3339 now
        received := s.received ++
          (records.filter fun r => newerThan since r.updatedAt).map toChange } := by
  simp only [feedStep, hlisted, answerChanges_ok hsince]

/-- A covered record of a listing is received with the answer. -/
theorem mem_received_of_covered {since : Option Timestamp} {records : List Record}
    (hsince : parseSince chrono s.since = .ok since) {record : Record}
    (hrecord : record ∈ records) (hcovered : s.Covered chrono record) :
    toChange record ∈ s.received ++
      (records.filter fun r => newerThan since r.updatedAt).map toChange := by
  rcases hcovered with hreceived | ⟨since', hsince', hnewer⟩
  · exact mem_append_left _ hreceived
  · obtain rfl : since = since' := Except.ok.inj (hsince.symm.trans hsince')
    apply mem_append_right
    exact mem_map_of_mem (mem_filter.mpr ⟨hrecord, hnewer⟩)

theorem Accounted.answer (hchrono : LawfulChrono chrono) (h : Accounted chrono collection s)
    (hkept : Kept chrono collection s (.answer now)) :
    Accounted chrono collection (feedStep env chrono collection s (.answer now)) := by
  rcases hlisted : s.listed with _ | records
  · simpa only [feedStep, hlisted] using h
  · obtain ⟨since, hsince⟩ := h.readable
    rw [feedStep_answer hlisted hsince]
    refine ⟨⟨_, parseSince_print hchrono now⟩, ?_, nofun, h.deleted⟩
    intro r hr hin
    rcases hkept records hlisted r hr hin with hrecord | hlater
    · exact Or.inl (mem_received_of_covered hsince hrecord (h.listed records hlisted _ hrecord))
    · exact Or.inr ⟨some now, parseSince_print hchrono now, decide_eq_true hlater⟩

theorem Accounted.step (henv : SelectsAll env) (hchrono : LawfulChrono chrono) (s : Feed)
    (event : FeedEvent) (h : Accounted chrono collection s)
    (hkept : Kept chrono collection s event) :
    Accounted chrono collection (feedStep env chrono collection s event) := by
  rcases event with _ | _ | _ | _ | now
  · exact h.create hkept
  · exact h.update hkept
  · exact h.delete hkept
  · exact h.call henv
  · exact h.answer hchrono hkept

/-! ## Catching up -/

theorem listed_answer (s : Feed) (now : Timestamp) :
    (feedStep env chrono collection s (.answer now)).listed = none := by
  rcases hlisted : s.listed with _ | records
  · simp only [feedStep, hlisted]
  · rcases hanswer : answerChanges chrono s.since records now with _ | response
    · simp only [feedStep, hlisted, hanswer]
    · simp only [feedStep, hlisted, hanswer]

theorem keepCalling_concat (times : List Timestamp) (now : Timestamp) :
    keepCalling (times.concat now) = keepCalling times ++ keepCalling [now] := by
  simp [keepCalling]

/-- After a call of its own the client is idle. -/
theorem listed_keepCalling (s : Feed) {times : List Timestamp} (h : times ≠ []) :
    (run (feedStep env chrono collection) s (keepCalling times)).listed = none := by
  obtain ⟨before, now, rfl⟩ := eq_nil_or_concat times |>.resolve_left h
  rw [keepCalling_concat, run_append]
  exact @listed_answer env chrono collection _ now

theorem run_call {response : PullResponse} (hidle : s.listed = none)
    (h : serveChanges env chrono (some s.rows) collection s.since now = .ok response) :
    run (feedStep env chrono collection) s (keepCalling [now]) =
      { s with
        listed := none
        since := response.cursor
        received := s.received ++ response.changes } := by
  obtain ⟨records, hrecords, hanswer⟩ := bind_eq_ok_iff.mp h
  have hcall : feedStep env chrono collection s .call = { s with listed := some records } := by
    rw [feedStep_call_of_idle hidle, hrecords]
    rfl
  have hrun : run (feedStep env chrono collection) s (keepCalling [now]) =
      feedStep env chrono collection { s with listed := some records } (.answer now) := by
    rw [← hcall]
    rfl
  rw [hrun]
  simp only [feedStep, hanswer]

/-- An idle client with an accounted cursor catches up with one call. -/
theorem Accounted.caughtUp_call (henv : SelectsAll env)
    (h : Accounted chrono collection s) (hidle : s.listed = none)
    (hpage : Kept chrono collection s .call) (now : Timestamp) :
    CaughtUp collection (run (feedStep env chrono collection) s (keepCalling [now])) := by
  obtain ⟨since, hsince⟩ := h.readable
  obtain ⟨records, hrecords, -, hcomplete⟩ := listChanges_ok henv s.rows
  have hserved : serveChanges env chrono (some s.rows) collection s.since now = .ok _ :=
    bind_eq_ok_iff.mpr ⟨records, hrecords, answerChanges_ok hsince records now⟩
  rw [run_call hidle hserved]
  constructor
  · intro r hr hin
    exact mem_received_of_covered hsince (hcomplete hpage r hr hin) (h.stored r hr hin)
  · intro id hid
    rw [h.deleted] at hid
    cases hid

/-- If nothing escapes the cursor, the client catches up with the second call after the last write.
-/
theorem caughtUp_of_kept (env : SqlEnv) (chrono : Chrono) (collection : String)
    (henv : SelectsAll env) (hchrono : LawfulChrono chrono) (rows : Rows)
    (events : List FeedEvent) (times : List Timestamp)
    (hkept : EveryStep (feedStep env chrono collection) (Kept chrono collection)
      (.start rows) (events ++ keepCalling times)) (htimes : 2 ≤ times.length) :
    CaughtUp collection
      (run (feedStep env chrono collection) (.start rows) (events ++ keepCalling times)) := by
  have hne : times ≠ [] := by
    rintro rfl
    cases htimes
  obtain ⟨before, now, rfl⟩ := eq_nil_or_concat times |>.resolve_left hne
  have hbefore : before ≠ [] := by
    rintro rfl
    simp at htimes
  rw [keepCalling_concat, ← append_assoc] at hkept ⊢
  rw [run_append]
  have hlast := hkept.of_append_right
  apply Accounted.caughtUp_call henv
  · exact run_invariant_of_everyStep (Accounted.step henv hchrono)
      ⟨⟨none, rfl⟩, fun _ _ _ => Or.inr ⟨none, rfl, rfl⟩, fun _ h => (nomatch h), rfl⟩
      hkept.of_append_left
  · rw [run_append]
    exact listed_keepCalling _ hbefore
  · exact (everyStep_cons.mp hlast).1

/-- A store with one task. -/
def storedTask : Rows := ⟨[⟨"a", "core", "tasks", .null, 1, 0, 0⟩], by decide⟩

/-- All rows meet all filters, the newest first. -/
def newestFirst : SqlEnv where
  meets _ := .ok fun _ => true
  order _ rows := ⟨rows.reverse, reverse_perm rows⟩

/-- Timestamps as strokes after a sign. -/
def tally : Chrono where
  toRfc3339 time := String.ofList
    ((if 0 ≤ time then '+' else '-') :: List.replicate time.natAbs '1')
  parseFromRfc3339 text :=
    match text.toList with
    | '+' :: strokes => some strokes.length
    | '-' :: strokes => some (-strokes.length)
    | _ => none

theorem lawful_tally : LawfulChrono tally where
  parse_print time := by
    by_cases h : 0 ≤ time
    · have habs : (Int.natAbs time : Int) = time := Int.natAbs_of_nonneg h
      simp only [tally, if_pos h, String.toList_ofList, length_replicate, habs]
    · have habs : -(Int.natAbs time : Int) = time := by
        rw [Int.ofNat_natAbs_of_nonpos (Int.le_of_lt (Int.not_le.mp h)), Int.neg_neg]
      simp only [tally, if_neg h, String.toList_ofList, length_replicate, habs]
  print_ne_empty time := by
    intro h
    have hchars := congrArg String.toList h
    simp [tally] at hchars

/-- The task is updated during a listing, after the new cursor. -/
theorem caughtUp_updatedWhileListed :
    CaughtUp "tasks" (run (feedStep newestFirst tally "tasks") (.start storedTask)
      ([.call, .update 5 "core" "tasks" "a" (.bool true) 1, .answer 3] ++ keepCalling [6, 7])) := by
  apply caughtUp_of_kept newestFirst tally "tasks" rfl lawful_tally
  · have hpage : ∀ r : DataRow String,
        [r].countP (fun r => decide (InFeed "tasks" r)) ≤ 1000 :=
      fun r => Nat.le_trans countP_le_length (by simp)
    -- The two calls after the update list the task as it is when they are answered.
    have hlisted : ∀ (now : Timestamp) (r other : DataRow String) (records : List Record),
        some [rowToRecord r] = some records → other ∈ [r] → InFeed "tasks" other →
          rowToRecord other ∈ records ∨ now < other.updatedAt := by
      intro now r other records hrecords hother _
      obtain rfl := Option.some.inj hrecords
      rw [mem_singleton.mp hother]
      exact Or.inl (mem_singleton_self _)
    refine everyStep_cons.mpr ⟨hpage _, everyStep_cons.mpr ⟨?_, everyStep_cons.mpr ⟨?_, ?_⟩⟩⟩
    · intro _ _
      exact ⟨none, rfl, rfl⟩
    · intro records _ r hr _
      rw [show r = _ from mem_singleton.mp hr]
      exact Or.inr (by decide)
    · refine everyStep_cons.mpr ⟨hpage _, everyStep_cons.mpr ⟨?_, ?_⟩⟩
      · intro records hrecords r hr hin
        exact hlisted 6 _ r records hrecords hr hin
      · refine everyStep_cons.mpr ⟨hpage _, everyStep_cons.mpr ⟨?_, everyStep_nil _ _⟩⟩
        intro records hrecords r hr hin
        exact hlisted 7 _ r records hrecords hr hin
  · decide

/-! ## Deletions -/

/-- The client receives what was listed, as updates. -/
theorem received_feedStep (env : SqlEnv) (chrono : Chrono) (collection : String) (s : Feed)
    (event : FeedEvent) :
    ∃ records : List Record, (feedStep env chrono collection s event).received =
      s.received ++ records.map toChange := by
  have hsame : ∃ records : List Record, s.received = s.received ++ records.map toChange :=
    ⟨[], (append_nil _).symm⟩
  rcases event with _ | _ | _ | _ | now
  · exact hsame
  · exact hsame
  · exact hsame
  · rcases hlisted : s.listed with _ | records
    · rw [feedStep_call_of_idle hlisted]
      exact hsame
    · simpa only [feedStep, hlisted] using hsame
  · rcases hlisted : s.listed with _ | records
    · simpa only [feedStep, hlisted] using hsame
    · rcases hsince : parseSince chrono s.since with _ | since
      · have hanswer : ∃ e, answerChanges chrono s.since records now = .error e := by
          unfold answerChanges
          rw [hsince]
          exact ⟨_, rfl⟩
        obtain ⟨e, he⟩ := hanswer
        simpa only [feedStep, hlisted, he] using hsame
      · rw [feedStep_answer hlisted hsince]
        exact ⟨_, rfl⟩

theorem deleted_feedStep (s : Feed) (event : FeedEvent) (h : id ∈ s.deleted) :
    id ∈ (feedStep env chrono collection s event).deleted := by
  rcases event with _ | _ | ⟨pluginId, target, other⟩ | _ | now
  · exact h
  · exact h
  · simp only [feedStep]
    split
    · exact mem_cons_of_mem _ h
    · exact h
  · rcases hlisted : s.listed with _ | records <;> simpa only [feedStep, hlisted] using h
  · rcases hlisted : s.listed with _ | records
    · simpa only [feedStep, hlisted] using h
    · rcases hanswer : answerChanges chrono s.since records now with _ | response
      · simpa only [feedStep, hlisted, hanswer] using h
      · simpa only [feedStep, hlisted, hanswer] using h

def OnlyUpdates (s : Feed) : Prop :=
  ∀ change ∈ s.received, change.operation = .update

theorem OnlyUpdates.step (s : Feed) (event : FeedEvent) (h : OnlyUpdates s) :
    OnlyUpdates (feedStep env chrono collection s event) := by
  intro change hchange
  obtain ⟨records, hrecords⟩ := received_feedStep env chrono collection s event
  rw [hrecords, mem_append] at hchange
  rcases hchange with hold | hnew
  · exact h change hold
  · obtain ⟨record, -, rfl⟩ := mem_map.mp hnew
    rfl

/-- A deletion of a served record is never received. -/
theorem not_caughtUp_of_deleted (env : SqlEnv) (chrono : Chrono) (collection : String)
    (rows : Rows) (before after : List FeedEvent)
    (h : id ∈ (run (feedStep env chrono collection) (.start rows) before).deleted) :
    ¬ CaughtUp collection
      (run (feedStep env chrono collection) (.start rows) (before ++ after)) := by
  have hdeleted : id ∈
      (run (feedStep env chrono collection) (.start rows) (before ++ after)).deleted := by
    rw [run_append]
    exact run_invariant (fun s event => deleted_feedStep s event) h after
  have hupdates : OnlyUpdates
      (run (feedStep env chrono collection) (.start rows) (before ++ after)) :=
    run_invariant OnlyUpdates.step (by intro _ h; cases h) (before ++ after)
  intro hcaught
  obtain ⟨change, hchange, -, hdelete⟩ := hcaught.deletions id hdeleted
  rw [hupdates change hchange] at hdelete
  cases hdelete

/-- The only task is deleted. -/
theorem not_catchesUp_deletedTask :
    ¬ CatchesUp newestFirst tally "tasks"
      (run (feedStep newestFirst tally "tasks") (.start storedTask)
        [.delete "core" "tasks" "a"]) := by
  rintro ⟨calls, hcalls⟩
  have hcaught := hcalls (List.replicate calls 0) (by simp)
  rw [← run_append] at hcaught
  apply not_caughtUp_of_deleted newestFirst tally "tasks" storedTask _ _ _ hcaught
  · exact "a"
  · exact mem_singleton_self _

end

end LifeEngine.Federation
