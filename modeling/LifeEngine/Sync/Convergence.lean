import LifeEngine.Support.Register
import LifeEngine.Sync.Primitives

/-!
# Convergence of last-write-wins

The same changes to one record may arrive in any order and any number of times.  What a
store ends with should not depend on that.  It does: a record counts the changes that it
took, and its version is that count, not the version of the last change.  The main
result says for which sets of changes the order makes no difference.

The rows of the record are first reduced to a cell, and the cell, as long as no
deletion has an effect, to a register that takes a limited number of writes.
-/

namespace LifeEngine.Sync

open Support Storage Records List Register

/-! ## The property -/

/-- The data of the record, by collection. -/
def storedData (ns id : String) (db : LocalDb) (collection : String) : Option Json :=
  (Records.get db.rows ns collection id).map Record.data

/-- Any two sequences of exactly these changes end in the same data. -/
def Converges (ns id : String) (S : Finset ChangeRecord) : Prop :=
  ∀ (clock clock' : Nat → Timestamp) (changes changes' : List ChangeRecord),
    (∀ c, c ∈ changes ↔ c ∈ S) → (∀ c, c ∈ changes' ↔ c ∈ S) →
      storedData ns id (run (applyStep sqliteAdapter ns) ⟨.empty, clock⟩ changes) =
        storedData ns id (run (applyStep sqliteAdapter ns) ⟨.empty, clock'⟩ changes')

/-! ## The record as a cell -/

structure Stored where
  collection : String
  data : Json
  version : Int

def cellStep (cell : Option Stored) (change : ChangeRecord) : Option Stored :=
  match change.operation, change.data with
  | .create, some data =>
    match cell with
    | some _ => cell
    | none => some ⟨change.collection, data, 1⟩
  | .update, some data =>
    match cell with
    | some st =>
      if st.collection = change.collection ∧ st.version < change.version then
        some ⟨st.collection, data, st.version + 1⟩
      else cell
    | none => some ⟨change.collection, data, 1⟩
  | .create, none | .update, none => cell
  | .delete, _ =>
    match cell with
    | some st =>
      if st.collection = change.collection ∧ st.version < change.version then none
      else cell
    | none => none

/-- The rows hold the record as the cell does, and nothing else. -/
def Holds (ns id : String) (rows : Rows) : Option Stored → Prop
  | none => rows.rows = []
  | some st => ∃ createdAt updatedAt,
      rows.rows = [⟨id, ns, st.collection, st.data, st.version, createdAt, updatedAt⟩]

variable {ns id : String} {db : LocalDb} {change x : ChangeRecord} {cell : Option Stored}
  {S : Finset ChangeRecord} {log : List ChangeRecord}

theorem holds_insert {rows : Rows} (h : Holds ns id rows none) (collection : String) (data : Json)
    (now : Timestamp) :
    Holds ns id ((rows.insert ⟨id, ns, collection, data, 1, now, now⟩).getD rows)
      (some ⟨collection, data, 1⟩) := by
  have hrows : rows.rows = [] := h
  have hfree : id ∉ rows.keys := by simp [Table.keys, hrows]
  refine ⟨now, now, ?_⟩
  rw [Table.insert, dif_neg hfree]
  simp [hrows]

section OneRow

variable {ns id : String} {rows : Rows} {st : Stored} {createdAt updatedAt : Timestamp}

theorem find_hits_of_one
    (hrows : rows.rows = [⟨id, ns, st.collection, st.data, st.version, createdAt, updatedAt⟩])
    (collection : String) :
    rows.rows.find? (hits ns collection id) =
      if st.collection = collection then
        some ⟨id, ns, st.collection, st.data, st.version, createdAt, updatedAt⟩
      else none := by
  rw [hrows]
  by_cases hsame : st.collection = collection <;> simp [hits]

end OneRow

theorem holds_applyStep_of_none (h : Holds ns change.id db.rows none) :
    Holds ns change.id (applyStep sqliteAdapter ns db change).rows (cellStep none change) := by
  rw [rows_applyStep]
  have hrows : db.rows.rows = [] := h
  obtain ⟨id, collection, operation, data, version, timestamp⟩ := change
  have hfree : id ∉ db.rows.keys := by simp [Table.keys, hrows]
  rcases operation with _ | _ | _
  · rcases data with _ | data
    · exact h
    · simp only [effect, if_neg hfree]
      exact holds_insert h collection data _
  · rcases data with _ | data
    · exact h
    · simp only [effect, hrows, if_neg hfree]
      exact holds_insert h collection data _
  · simp only [effect, hrows]
    exact h

theorem holds_applyStep_of_some {st : Stored} (h : Holds ns change.id db.rows (some st)) :
    Holds ns change.id (applyStep sqliteAdapter ns db change).rows (cellStep (some st) change) := by
  rw [rows_applyStep]
  obtain ⟨createdAt, updatedAt, hrows⟩ := h
  obtain ⟨id, collection, operation, data, version, timestamp⟩ := change
  have hkept : Holds ns id db.rows (some st) := ⟨createdAt, updatedAt, hrows⟩
  have hused : id ∈ db.rows.keys := by simp [Table.keys, hrows]
  have hfind := find_hits_of_one hrows collection
  rcases operation with _ | _ | _
  · rcases data with _ | data
    · exact hkept
    · simp only [effect, if_pos hused]
      exact hkept
  · rcases data with _ | data
    · exact hkept
    · simp only [effect, hfind, cellStep]
      by_cases hsame : st.collection = collection
      · subst hsame
        simp only [if_true, true_and]
        split
        · refine ⟨createdAt, db.clock 0, ?_⟩
          simp [Effect.applyTo, Table.updateWhere, hrows, versionHits, hits, rewriteRow]
        · exact hkept
      · simp only [if_pos hused, hsame]
        exact hkept
  · simp only [effect, hfind, cellStep]
    by_cases hsame : st.collection = collection
    · subst hsame
      simp only [if_true, true_and]
      split
      · change (Table.deleteWhere _ _).rows = []
        simp [Table.deleteWhere, hrows, hits]
      · exact hkept
    · simp only [hsame]
      exact hkept

/-- `apply_change` on the rows is the step of the cell. -/
theorem holds_applyStep (h : Holds ns id db.rows cell) (hid : change.id = id) :
    Holds ns id (applyStep sqliteAdapter ns db change).rows (cellStep cell change) := by
  subst hid
  rcases cell with _ | st
  · exact holds_applyStep_of_none h
  · exact holds_applyStep_of_some h

theorem holds_run {changes : List ChangeRecord} (hid : ∀ c ∈ changes, c.id = id)
    (h : Holds ns id db.rows cell) :
    Holds ns id (run (applyStep sqliteAdapter ns) db changes).rows (run cellStep cell changes) := by
  induction changes generalizing db cell with
  | nil => exact h
  | cons c changes ih =>
    exact ih (fun c' hc' => hid c' (mem_cons_of_mem c hc'))
      (holds_applyStep h (hid c mem_cons_self))

/-- Where the record is stored, and with which data. -/
def seen (cell : Option Stored) : Option (String × Json) :=
  cell.map fun st => (st.collection, st.data)

theorem storedData_of_holds (h : Holds ns id db.rows cell) (collection : String) :
    storedData ns id db collection =
      (seen cell).bind fun p => if p.1 = collection then some p.2 else none := by
  rw [storedData, Records.get]
  rcases cell with _ | st
  · rw [show db.rows.rows = [] from h]
    rfl
  · obtain ⟨createdAt, updatedAt, hrows⟩ := h
    rw [find_hits_of_one hrows]
    by_cases hsame : st.collection = collection
    · simp [seen, rowToRecord]
    · simp [seen, hsame]

theorem lookup_injective {p q : Option (String × Json)}
    (h : ∀ collection, (p.bind fun p => if p.1 = collection then some p.2 else none) =
      q.bind fun q => if q.1 = collection then some q.2 else none) : p = q := by
  rcases p with _ | ⟨c, d⟩
  · rcases q with _ | ⟨c', d'⟩
    · rfl
    · have hc := h c'
      simp at hc
  · rcases q with _ | ⟨c', d'⟩
    · have hc := h c
      simp at hc
    · have hc := h c
      by_cases hsame : c' = c
      · subst hsame
        simpa using hc
      · simp [hsame] at hc

/-- All orders and repetitions leave the same cell. -/
def CellsAgree (S : Finset ChangeRecord) : Prop :=
  ∀ changes changes' : List ChangeRecord, (∀ c, c ∈ changes ↔ c ∈ S) →
    (∀ c, c ∈ changes' ↔ c ∈ S) →
      seen (run cellStep none changes) = seen (run cellStep none changes')

theorem converges_iff_cellsAgree (hid : ∀ c ∈ S, c.id = id) : Converges ns id S ↔ CellsAgree S := by
  have hholds : ∀ clock changes, (∀ c, c ∈ changes ↔ c ∈ S) →
      Holds ns id (run (applyStep sqliteAdapter ns) ⟨.empty, clock⟩ changes).rows
        (run cellStep none changes) := by
    intro clock changes hchanges
    apply holds_run (fun c hc => hid c ((hchanges c).mp hc))
    exact (rfl : (Table.empty : Rows).rows = [])
  constructor
  · intro h changes changes' hchanges hchanges'
    apply lookup_injective
    intro collection
    have hsame := congrFun (h (fun _ => 0) (fun _ => 0) changes changes' hchanges hchanges')
      collection
    rwa [storedData_of_holds (hholds _ changes hchanges),
      storedData_of_holds (hholds _ changes' hchanges')] at hsame
  · intro h clock clock' changes changes' hchanges hchanges'
    funext collection
    rw [storedData_of_holds (hholds clock changes hchanges),
      storedData_of_holds (hholds clock' changes' hchanges'),
      h changes changes' hchanges hchanges']

/-! ## The cell as a register -/

/-- How many changes may come before this one is no longer taken. -/
def room (change : ChangeRecord) : Nat :=
  match change.operation, change.data with
  | .create, some _ => 1
  | .update, some _ => max 1 change.version.toNat
  | .create, none | .update, none | .delete, _ => 0

/-- Every deletion is too old, or for another collection. -/
def DeletesNothing (S : Finset ChangeRecord) : Prop :=
  ∀ d ∈ S, d.operation = .delete → 1 < d.version →
    ∀ x ∈ S, 0 < room x → x.collection ≠ d.collection

/-- The changes that some order makes the last: not too many go further. -/
def LastWord (S : Finset ChangeRecord) (x : ChangeRecord) : Prop :=
  (S.filter fun y => y.collection = x.collection ∧ room x < room y).card < room x

instance (S : Finset ChangeRecord) (x : ChangeRecord) : Decidable (LastWord S x) :=
  inferInstanceAs (Decidable (_ < _))

abbrev registerStep : List ChangeRecord → ChangeRecord → List ChangeRecord :=
  write ChangeRecord.collection room

/-- The cell after the changes, the last one first. -/
def cellOf : List ChangeRecord → Option Stored
  | [] => none
  | w :: log => w.data.map fun data => ⟨w.collection, data, log.length + 1⟩

/-- The log has changes of the set with data, for one collection. -/
structure Logged (S : Finset ChangeRecord) (log : List ChangeRecord) : Prop where
  mem : ∀ e ∈ log, e ∈ S
  room_pos : ∀ e ∈ log, 0 < room e
  collection : ∀ e ∈ log, ∀ e' ∈ log, e.collection = e'.collection

theorem isSome_data_of_room_pos (h : 0 < room change) : ∃ data, change.data = some data := by
  obtain ⟨id, collection, operation, data, version, timestamp⟩ := change
  rcases data with _ | data
  · rcases operation with _ | _ | _
    all_goals exact absurd h (Nat.lt_irrefl 0)
  · exact ⟨data, rfl⟩

theorem room_of_delete {d : ChangeRecord} (h : d.operation = .delete) : room d = 0 := by
  simp only [room, h]

theorem cellStep_none_of_room_pos (h : 0 < room x) {data : Json} (hdata : x.data = some data) :
    cellStep none x = some ⟨x.collection, data, 1⟩ := by
  obtain ⟨id, collection, operation, _, version, timestamp⟩ := x
  obtain rfl := hdata
  rcases operation with _ | _ | _
  · rfl
  · rfl
  · exact absurd h (Nat.lt_irrefl 0)

theorem cellStep_none_of_room_zero (h : room x = 0) : cellStep none x = none := by
  obtain ⟨id, collection, operation, data, version, timestamp⟩ := x
  rcases operation with _ | _ | _
  · rcases data with _ | data
    · rfl
    · cases h
  · rcases data with _ | data
    · rfl
    · exact absurd h (Nat.ne_of_gt (Nat.le_max_left 1 version.toNat))
  · rcases data with _ | data <;> rfl

theorem cellStep_some_of_not_delete (h : x.operation ≠ .delete) (collection : String) (old : Json)
    (n : Nat) :
    cellStep (some ⟨collection, old, n + 1⟩) x =
      if collection = x.collection ∧ n + 1 < room x then
        x.data.map fun data => ⟨collection, data, n + 2⟩
      else some ⟨collection, old, n + 1⟩ := by
  obtain ⟨id, collection', operation, data, version, timestamp⟩ := x
  rcases operation with _ | _ | _
  · rcases data with _ | data
    · rw [if_neg (fun hboth => absurd hboth.2 (Nat.not_lt_zero _))]
      rfl
    · rw [if_neg (fun hboth => absurd hboth.2 (Nat.not_lt.mpr (Nat.le_add_left 1 n)))]
      rfl
  · rcases data with _ | data
    · rw [if_neg (fun hboth => absurd hboth.2 (Nat.not_lt_zero _))]
      rfl
    · have hroom : n + 1 < room ⟨id, collection', .update, some data, version, timestamp⟩ ↔
          (n : Int) + 1 < version := by
        simp only [room]
        omega
      simp only [hroom]
      rfl
  · exact absurd rfl h

theorem cellStep_some_of_delete {d : ChangeRecord} (h : d.operation = .delete) (st : Stored) :
    cellStep (some st) d =
      if st.collection = d.collection ∧ st.version < d.version then none else some st := by
  simp only [cellStep, h]

theorem logged_write (h : Logged S log) {w : ChangeRecord} (hw : w ∈ S) :
    Logged S (registerStep log w) := by
  by_cases htakes : Register.Takes ChangeRecord.collection room log w
  · rw [registerStep, write_of_takes htakes]
    refine ⟨?_, ?_, ?_⟩
    · intro e he
      rcases mem_cons.mp he with rfl | he
      · exact hw
      · exact h.mem e he
    · intro e he
      rcases mem_cons.mp he with rfl | he
      · exact Nat.zero_lt_of_lt htakes.2
      · exact h.room_pos e he
    · have hsame : ∀ e ∈ w :: log, e.collection = w.collection := by
        intro e he
        rcases mem_cons.mp he with rfl | he
        · rfl
        · exact htakes.1 e he
      intro e he e' he'
      rw [hsame e he, hsame e' he']
  · rwa [registerStep, write_of_not_takes htakes]

theorem takes_iff_of_logged {e : ChangeRecord} (h : Logged S (e :: log)) (w : ChangeRecord) :
    Register.Takes ChangeRecord.collection room (e :: log) w ↔
      e.collection = w.collection ∧ log.length + 1 < room w := by
  constructor
  · intro htakes
    exact ⟨htakes.1 e mem_cons_self, htakes.2⟩
  · rintro ⟨hsame, hlength⟩
    refine ⟨?_, hlength⟩
    intro e' he'
    exact (h.collection e' he' e mem_cons_self).trans hsame

theorem cellOf_cons {w : ChangeRecord} {data : Json} (h : w.data = some data)
    (log : List ChangeRecord) :
    cellOf (w :: log) = some ⟨w.collection, data, log.length + 1⟩ := by
  rw [cellOf, h]
  rfl

theorem cellOf_write_nil (w : ChangeRecord) : cellOf (registerStep [] w) = cellStep none w := by
  rcases Nat.eq_zero_or_pos (room w) with hzero | hpos
  · have hrefused : ¬ Register.Takes ChangeRecord.collection room [] w := by
      rw [takes_nil_iff, hzero]
      exact Nat.lt_irrefl 0
    rw [registerStep, write_of_not_takes hrefused, cellStep_none_of_room_zero hzero]
    rfl
  · obtain ⟨data, hdata⟩ := isSome_data_of_room_pos hpos
    rw [registerStep, write_of_takes (takes_nil_iff.mpr hpos),
      cellStep_none_of_room_pos hpos hdata, cellOf_cons hdata]
    rfl

/-- Without deletions, the cell is that of the register. -/
theorem cellOf_write (hdeletes : DeletesNothing S) (h : Logged S log) {w : ChangeRecord}
    (hw : w ∈ S) :
    cellOf (registerStep log w) = cellStep (cellOf log) w := by
  rcases log with _ | ⟨e, log⟩
  · exact cellOf_write_nil w
  have heS := h.mem e mem_cons_self
  have hroom := h.room_pos e mem_cons_self
  obtain ⟨old, hold⟩ := isSome_data_of_room_pos hroom
  have htakes := takes_iff_of_logged h w
  rw [cellOf_cons hold]
  by_cases hdelete : w.operation = .delete
  · have hrefused : ¬ Register.Takes ChangeRecord.collection room (e :: log) w := by
      rw [htakes, room_of_delete hdelete]
      exact fun hboth => Nat.not_lt_zero _ hboth.2
    have hkept : ¬ (e.collection = w.collection ∧ (log.length : Int) + 1 < w.version) := by
      rintro ⟨hsame, hnewer⟩
      exact hdeletes w hw hdelete (by omega) e heS hroom hsame
    rw [registerStep, write_of_not_takes hrefused, cellOf_cons hold,
      cellStep_some_of_delete hdelete, if_neg hkept]
  · rw [cellStep_some_of_not_delete hdelete]
    by_cases hboth : e.collection = w.collection ∧ log.length + 1 < room w
    · obtain ⟨data, hdata⟩ := isSome_data_of_room_pos (Nat.zero_lt_of_lt hboth.2)
      rw [if_pos hboth, registerStep, write_of_takes (htakes.mpr hboth),
        cellOf_cons hdata, hdata, hboth.1]
      rfl
    · rw [if_neg hboth, registerStep,
        write_of_not_takes (fun h => hboth (htakes.mp h)), cellOf_cons hold]

theorem cellOf_run (hdeletes : DeletesNothing S) {changes : List ChangeRecord}
    (hchanges : ∀ c ∈ changes, c ∈ S) (h : Logged S log) :
    cellOf (run registerStep log changes) = run cellStep (cellOf log) changes ∧
      Logged S (run registerStep log changes) := by
  induction changes generalizing log with
  | nil => exact ⟨rfl, h⟩
  | cons c changes ih =>
    have hc := hchanges c mem_cons_self
    have hrest := ih (fun c' hc' => hchanges c' (mem_cons_of_mem c hc')) (logged_write h hc)
    rw [run_cons, run_cons, ← cellOf_write hdeletes h hc]
    exact hrest

theorem logged_nil (S : Finset ChangeRecord) : Logged S [] where
  mem := fun _ he => absurd he not_mem_nil
  room_pos := fun _ he => absurd he not_mem_nil
  collection := fun _ he => absurd he not_mem_nil

section Orders

variable {S : Finset ChangeRecord} {changes : List ChangeRecord}

/-- A change that can have the last word has it in some order. -/
theorem exists_seen_of_lastWord (hdeletes : DeletesNothing S) {x : ChangeRecord} (hx : x ∈ S)
    (hlast : LastWord S x) :
    ∃ changes : List ChangeRecord, (∀ c, c ∈ changes ↔ c ∈ S) ∧ ∃ data, x.data = some data ∧
      seen (run cellStep none changes) = some (x.collection, data) := by
  have habove : (above ChangeRecord.collection room S x).card < room x := hlast
  obtain ⟨changes, log, hchanges, hrun⟩ := (exists_last_iff hx).mpr habove
  obtain ⟨data, hdata⟩ := isSome_data_of_room_pos (Nat.zero_lt_of_lt habove)
  have hcell := (cellOf_run hdeletes (fun c hc => (hchanges c).mp hc) (logged_nil S)).1
  refine ⟨changes, hchanges, data, hdata, ?_⟩
  rw [hrun, cellOf_cons hdata] at hcell
  rw [show run cellStep none changes = _ from hcell.symm]
  rfl

theorem run_ne_nil_of_room_pos (hchanges : ∀ c, c ∈ changes ↔ c ∈ S) {y : ChangeRecord}
    (hy : y ∈ S) (hroom : 0 < room y) : run registerStep [] changes ≠ [] := by
  intro hnil
  have htakes : Register.Takes ChangeRecord.collection room (run registerStep [] changes) y := by
    rw [hnil]
    exact takes_nil_iff.mpr hroom
  have hmem := mem_run_of_mem ((hchanges y).mpr hy) htakes
  rw [hnil] at hmem
  exact not_mem_nil hmem

/-- No change ever has an effect, or one has the last word. -/
theorem seen_cases (hdeletes : DeletesNothing S) (hchanges : ∀ c, c ∈ changes ↔ c ∈ S) :
    ((∀ x ∈ S, room x = 0) ∧ seen (run cellStep none changes) = none) ∨
      ∃ x ∈ S, LastWord S x ∧
        seen (run cellStep none changes) = x.data.map fun data => (x.collection, data) := by
  obtain ⟨hcell, hlogged⟩ := cellOf_run hdeletes (fun c hc => (hchanges c).mp hc) (logged_nil S)
  rw [show run cellStep none changes = _ from hcell.symm]
  rcases hlog : run registerStep [] changes with _ | ⟨x, log⟩
  · refine Or.inl ⟨?_, rfl⟩
    intro x hx
    by_contra hroom
    exact run_ne_nil_of_room_pos hchanges hx (Nat.pos_of_ne_zero hroom) hlog
  · rw [hlog] at hlogged
    have hx := hlogged.mem x mem_cons_self
    refine Or.inr ⟨x, hx, (exists_last_iff hx).mp ⟨changes, log, hchanges, hlog⟩, ?_⟩
    rw [seen, cellOf, Option.map_map]
    rfl

end Orders

theorem not_lastWord_of_room_zero (h : room x = 0) : ¬ LastWord S x := by
  rw [LastWord, h]
  exact Nat.not_lt_zero _

/-- Without effective deletions, only the last change counts. -/
theorem cellsAgree_iff_of_deletesNothing (hdeletes : DeletesNothing S) :
    CellsAgree S ↔ ∀ x ∈ S, ∀ y ∈ S, LastWord S x → LastWord S y →
      x.collection = y.collection ∧ x.data = y.data := by
  constructor
  · intro h x hx y hy hlastX hlastY
    obtain ⟨changes, hchanges, data, hdata, hfirst⟩ := exists_seen_of_lastWord hdeletes hx hlastX
    obtain ⟨changes', hchanges', data', hdata', hsecond⟩ :=
      exists_seen_of_lastWord hdeletes hy hlastY
    have hsame := h changes changes' hchanges hchanges'
    rw [hfirst, hsecond] at hsame
    obtain ⟨hcollection, rfl⟩ := Prod.mk.inj (Option.some.inj hsame)
    exact ⟨hcollection, hdata.trans hdata'.symm⟩
  · intro h changes changes' hchanges hchanges'
    rcases seen_cases hdeletes hchanges with ⟨hzero, hseen⟩ | ⟨x, hx, hlast, hseen⟩
    · rcases seen_cases hdeletes hchanges' with ⟨-, hseen'⟩ | ⟨y, hy, hlast', -⟩
      · rw [hseen, hseen']
      · exact absurd hlast' (not_lastWord_of_room_zero (hzero y hy))
    · rcases seen_cases hdeletes hchanges' with ⟨hzero, -⟩ | ⟨y, hy, hlast', hseen'⟩
      · exact absurd hlast (not_lastWord_of_room_zero (hzero x hx))
      · obtain ⟨hcollection, hdata⟩ := h x hx y hy hlast hlast'
        rw [hseen, hseen', hcollection, hdata]

/-! ## Deletions -/

theorem cellStep_of_other_collection {st : Stored} {y : ChangeRecord}
    (h : st.collection ≠ y.collection) : cellStep (some st) y = some st := by
  obtain ⟨id, collection, operation, data, version, timestamp⟩ := y
  have hnot : ∀ version, ¬ (st.collection = collection ∧ st.version < version) :=
    fun _ hboth => h hboth.1
  rcases operation with _ | _ | _
  · rcases data with _ | data <;> rfl
  · rcases data with _ | data
    · rfl
    · exact if_neg (hnot version)
  · rcases data with _ | data <;> exact if_neg (hnot version)

section Deleted

variable {S : Finset ChangeRecord} {d x : ChangeRecord}

/-- The change `y` in an order after which the record is deleted. A change of another collection
comes while the record is there. -/
def deletedAfter (d x y : ChangeRecord) : List ChangeRecord :=
  if y.collection = d.collection then [y, d] else [x, y, d]

theorem mem_deletedAfter_self (y : ChangeRecord) : y ∈ deletedAfter d x y := by
  by_cases hcollection : y.collection = d.collection <;> simp [deletedAfter, hcollection]

theorem mem_of_mem_deletedAfter (hd : d ∈ S) (hx : x ∈ S) {c y : ChangeRecord} (hy : y ∈ S)
    (hc : c ∈ deletedAfter d x y) : c ∈ S := by
  by_cases hcollection : y.collection = d.collection
  · simp only [deletedAfter, if_pos hcollection, mem_cons, not_mem_nil, or_false] at hc
    rcases hc with rfl | rfl
    · exact hy
    · exact hd
  · simp only [deletedAfter, if_neg hcollection, mem_cons, not_mem_nil, or_false] at hc
    rcases hc with rfl | rfl | rfl
    · exact hx
    · exact hy
    · exact hd

theorem mem_flatMap_deletedAfter (hd : d ∈ S) (hx : x ∈ S) (c : ChangeRecord) :
    c ∈ S.toList.flatMap (deletedAfter d x) ↔ c ∈ S := by
  simp only [mem_flatMap, Finset.mem_toList]
  constructor
  · rintro ⟨y, hy, hc⟩
    exact mem_of_mem_deletedAfter hd hx hy hc
  · exact fun hc => ⟨c, hc, mem_deletedAfter_self c⟩

theorem cellStep_created_delete (hdelete : d.operation = .delete) (hversion : 1 < d.version)
    (hroom : 0 < room x) (hsame : x.collection = d.collection) :
    cellStep (cellStep none x) d = none := by
  obtain ⟨data, hdata⟩ := isSome_data_of_room_pos hroom
  rw [cellStep_none_of_room_pos hroom hdata, cellStep_some_of_delete hdelete]
  exact if_pos ⟨hsame, hversion⟩

theorem run_deletedAfter (hdelete : d.operation = .delete) (hversion : 1 < d.version)
    (hroom : 0 < room x) (hsame : x.collection = d.collection) (y : ChangeRecord) :
    run cellStep none (deletedAfter d x y) = none := by
  by_cases hy : y.collection = d.collection
  · simp only [deletedAfter, if_pos hy, run_cons, run_nil]
    rcases Nat.eq_zero_or_pos (room y) with hzero | hpos
    · rw [cellStep_none_of_room_zero hzero, cellStep_none_of_room_zero (room_of_delete hdelete)]
    · exact cellStep_created_delete hdelete hversion hpos hy
  · simp only [deletedAfter, if_neg hy, run_cons, run_nil]
    have hother : x.collection ≠ y.collection := fun h => hy (h.symm.trans hsame)
    have hkept : cellStep (cellStep none x) y = cellStep none x := by
      obtain ⟨data, hdata⟩ := isSome_data_of_room_pos hroom
      rw [cellStep_none_of_room_pos hroom hdata, cellStep_of_other_collection hother]
    rw [hkept, cellStep_created_delete hdelete hversion hroom hsame]

theorem run_flatMap_deletedAfter (hdelete : d.operation = .delete) (hversion : 1 < d.version)
    (hroom : 0 < room x) (hsame : x.collection = d.collection) (changes : List ChangeRecord) :
    run cellStep none (changes.flatMap (deletedAfter d x)) = none := by
  induction changes with
  | nil => rfl
  | cons y changes ih =>
    rw [flatMap_cons, run_append, run_deletedAfter hdelete hversion hroom hsame, ih]

/-- An effective deletion has the last word in one order only. -/
theorem not_cellsAgree_of_delete (hd : d ∈ S) (hdelete : d.operation = .delete)
    (hversion : 1 < d.version) (hx : x ∈ S) (hroom : 0 < room x)
    (hsame : x.collection = d.collection) : ¬ CellsAgree S := by
  intro hagree
  have hmem := mem_flatMap_deletedAfter hd hx
  have hmore : ∀ c, c ∈ S.toList.flatMap (deletedAfter d x) ++ [x] ↔ c ∈ S := by
    intro c
    rw [mem_append, hmem, mem_singleton]
    exact or_iff_left_of_imp fun h => h ▸ hx
  obtain ⟨data, hdata⟩ := isSome_data_of_room_pos hroom
  have hboth := hagree _ _ hmem hmore
  rw [run_concat, run_flatMap_deletedAfter hdelete hversion hroom hsame,
    cellStep_none_of_room_pos hroom hdata] at hboth
  cases hboth

end Deleted

theorem cellsAgree_iff (S : Finset ChangeRecord) :
    CellsAgree S ↔ DeletesNothing S ∧ ∀ x ∈ S, ∀ y ∈ S, LastWord S x → LastWord S y →
      x.collection = y.collection ∧ x.data = y.data := by
  by_cases hdeletes : DeletesNothing S
  · rw [cellsAgree_iff_of_deletesNothing hdeletes, and_iff_right hdeletes]
  · refine iff_of_false ?_ (fun h => hdeletes h.1)
    unfold DeletesNothing at hdeletes
    push Not at hdeletes
    obtain ⟨d, hd, hdelete, hversion, x, hx, hroom, hsame⟩ := hdeletes
    exact not_cellsAgree_of_delete hd hdelete hversion hx hroom hsame

/-- Last-write-wins converges exactly if no deletion can have an effect and the changes that can be
the last all say the same. -/
theorem converges_iff (ns id : String) (S : Finset ChangeRecord) (hid : ∀ c ∈ S, c.id = id) :
    Converges ns id S ↔ DeletesNothing S ∧
      ∀ x ∈ S, ∀ y ∈ S, LastWord S x → LastWord S y →
        x.collection = y.collection ∧ x.data = y.data := by
  rw [converges_iff_cellsAgree hid, cellsAgree_iff]

/-- A record is created and then updated. -/
def createdAndUpdated : Finset ChangeRecord :=
  {⟨"r1", "notes", .create, some (.str "draft"), 1, 0⟩,
    ⟨"r1", "notes", .update, some (.str "final"), 2, 1⟩}

theorem converges_createdAndUpdated :
    (∀ c ∈ createdAndUpdated, c.id = "r1") ∧
      Converges "federation:home" "r1" createdAndUpdated := by
  have hid : ∀ c ∈ createdAndUpdated, c.id = "r1" := by decide
  refine ⟨hid, (converges_iff "federation:home" "r1" createdAndUpdated hid).mpr ⟨?_, ?_⟩⟩
  · unfold DeletesNothing
    decide
  · decide

/-- Two updates of a record. -/
def updatedTwice : Finset ChangeRecord :=
  {⟨"r1", "notes", .update, some (.str "draft"), 2, 0⟩,
    ⟨"r1", "notes", .update, some (.str "final"), 3, 1⟩}

theorem not_converges_updatedTwice : ¬ Converges "federation:home" "r1" updatedTwice := by
  intro h
  have hsame := h (fun _ => 0) (fun _ => 0)
    [⟨"r1", "notes", .update, some (.str "draft"), 2, 0⟩,
      ⟨"r1", "notes", .update, some (.str "final"), 3, 1⟩]
    [⟨"r1", "notes", .update, some (.str "final"), 3, 1⟩,
      ⟨"r1", "notes", .update, some (.str "draft"), 2, 0⟩]
    (by intro c; simp [updatedTwice]) (by intro c; simp [updatedTwice, or_comm])
  have hnotes := congrFun hsame "notes"
  revert hnotes
  decide +kernel

end LifeEngine.Sync
