import Mathlib.Data.List.Nodup

/-!
# Tables with a primary key

A table is a list of rows with pairwise distinct keys, together with the three
statements that change it: insert a row, update the rows that meet a condition,
and delete the rows that meet a condition.  An update may change anything but the
key.
-/

namespace LifeEngine.Support

open List

universe u v

/-- Rows of type `ρ` with pairwise distinct keys. -/
structure Table (κ : Type u) (ρ : Type v) (key : ρ → κ) where
  rows : List ρ
  keys_nodup : (rows.map key).Nodup

namespace Table

variable {κ : Type u} {ρ : Type v} {key : ρ → κ}

def empty : Table κ ρ key where
  rows := []
  keys_nodup := nodup_nil

/-- The keys in use. -/
def keys (t : Table κ ρ key) : List κ :=
  t.rows.map key

/-- Insert a row.  A second row with the same key is refused. -/
def insert [DecidableEq κ] (t : Table κ ρ key) (row : ρ) : Option (Table κ ρ key) :=
  if h : key row ∈ t.keys then none
  else some
    { rows := t.rows ++ [row]
      keys_nodup := by
        rw [map_append, map_singleton, ← concat_eq_append]
        exact t.keys_nodup.concat h }

/-- Update the rows that meet the condition. -/
def updateWhere (t : Table κ ρ key) (p : ρ → Bool) (f : ρ → ρ)
    (hf : ∀ r, key (f r) = key r) : Table κ ρ key where
  rows := t.rows.map fun r => if p r then f r else r
  keys_nodup := by
    have hkeys : (t.rows.map fun r => if p r then f r else r).map key =
        t.rows.map key := by
      rw [map_map]
      apply map_congr_left
      intro r _
      by_cases hp : p r = true
      · simp [hp, hf]
      · simp [hp]
    rw [hkeys]
    exact t.keys_nodup

/-- Delete the rows that meet the condition. -/
def deleteWhere (t : Table κ ρ key) (p : ρ → Bool) : Table κ ρ key where
  rows := t.rows.filter fun r => !p r
  keys_nodup := (filter_sublist.map key).nodup t.keys_nodup

/-- What an update or a deletion reports. -/
def countWhere (t : Table κ ρ key) (p : ρ → Bool) : Nat :=
  t.rows.countP p

theorem mem_keys {t : Table κ ρ key} {k : κ} : k ∈ t.keys ↔ ∃ r ∈ t.rows, key r = k := by
  simp [keys]

variable {p : ρ → Bool} {r row : ρ} {t t' : Table κ ρ key}

theorem not_mem_keys_of_insert [DecidableEq κ] (h : t.insert row = some t') : key row ∉ t.keys := by
  intro hkey
  rw [insert, dif_pos hkey] at h
  cases h

theorem rows_of_insert [DecidableEq κ] (h : t.insert row = some t') :
    t'.rows = t.rows ++ [row] := by
  unfold insert at h
  split at h
  · cases h
  · cases h
    rfl

theorem mem_insert [DecidableEq κ] (h : t.insert row = some t') :
    r ∈ t'.rows ↔ r ∈ t.rows ∨ r = row := by
  simp [rows_of_insert h]

theorem mem_updateWhere {f : ρ → ρ} {hf : ∀ r, key (f r) = key r} {r' : ρ} :
    r' ∈ (t.updateWhere p f hf).rows ↔
      ∃ r ∈ t.rows, (p r = true ∧ r' = f r) ∨ (p r = false ∧ r' = r) := by
  unfold updateWhere
  rw [mem_map]
  constructor
  · rintro ⟨r, hr, rfl⟩
    refine ⟨r, hr, ?_⟩
    by_cases hp : p r = true
    · exact Or.inl ⟨hp, if_pos hp⟩
    · exact Or.inr ⟨by simpa using hp, if_neg hp⟩
  · rintro ⟨r, hr, ⟨hp, rfl⟩ | ⟨hp, rfl⟩⟩
    · exact ⟨r, hr, if_pos hp⟩
    · exact ⟨r', hr, by simp [hp]⟩

theorem mem_deleteWhere : r ∈ (t.deleteWhere p).rows ↔ r ∈ t.rows ∧ p r = false := by
  simp [deleteWhere]

theorem updateWhere_eq_self {f : ρ → ρ} {hf : ∀ r, key (f r) = key r}
    (h : ∀ r ∈ t.rows, p r = false) :
    t.updateWhere p f hf = t := by
  obtain ⟨rows, nodup⟩ := t
  have hrows : (rows.map fun r => if p r then f r else r) = rows := by
    rw [map_congr_left (g := id), map_id]
    intro r hr
    simp [h r hr]
  simp only [updateWhere, hrows]

theorem deleteWhere_eq_self (h : ∀ r ∈ t.rows, p r = false) : t.deleteWhere p = t := by
  obtain ⟨rows, nodup⟩ := t
  have hrows : rows.filter (fun r => !p r) = rows := by
    rw [filter_eq_self]
    intro r hr
    simp [h r hr]
  simp only [deleteWhere, hrows]

/-- Two rows of a table with the same key are the same row. -/
theorem eq_of_key_eq {r' : ρ} (hr : r ∈ t.rows) (hr' : r' ∈ t.rows)
    (h : key r = key r') : r = r' :=
  inj_on_of_nodup_map t.keys_nodup hr hr' h

/-- A condition that fixes the key holds of one row at most. -/
theorem eq_of_fixes_key {k : κ} (hp : ∀ r, p r = true → key r = k)
    (hr : r ∈ t.rows) (hhit : p r = true) :
    ∀ r' ∈ t.rows, p r' = true → r' = r :=
  fun r' hr' hhit' => eq_of_key_eq hr' hr ((hp r' hhit').trans (hp r hhit).symm)

theorem forall_hit_iff {k : κ} (hp : ∀ r, p r = true → key r = k)
    (hr : r ∈ t.rows) (hhit : p r = true) (Q : ρ → Prop) :
    (∀ r' ∈ t.rows, p r' = true → Q r') ↔ Q r := by
  constructor
  · intro h
    exact h r hr hhit
  · intro h r' hr' hhit'
    rwa [eq_of_fixes_key hp hr hhit r' hr' hhit']

/-- A condition on the key selects at most one row. -/
theorem filter_eq_toList_find? (t : Table κ ρ key) {k : κ} (hp : ∀ r, p r = true → key r = k) :
    t.rows.filter p = (t.rows.find? p).toList := by
  have hlist : ∀ rows : List ρ, (rows.map key).Nodup → rows.filter p = (rows.find? p).toList := by
    intro rows hnodup
    induction rows with
    | nil => rfl
    | cons r rest ih =>
      obtain ⟨hkey, hrest⟩ := nodup_cons.mp hnodup
      by_cases hr : p r = true
      · have hno : rest.filter p = [] := by
          rw [filter_eq_nil_iff]
          intro r' hr' hpr'
          have hsame : key r' = key r := (hp r' hpr').trans (hp r hr).symm
          exact hkey (hsame ▸ mem_map_of_mem hr')
        simp [hr, hno]
      · simp [hr, ih hrest]
  exact hlist t.rows t.keys_nodup

/-- A condition that fixes the key finds the row that meets it. -/
theorem find?_eq_some (hr : r ∈ t.rows) (hpr : p r = true)
    (hp : ∀ r', p r' = true → key r' = key r) :
    t.rows.find? p = some r := by
  cases hfound : t.rows.find? p with
  | none => exact absurd hpr (find?_eq_none.mp hfound r hr)
  | some other =>
    have hother : key other = key r := hp other (find?_some hfound)
    rw [eq_of_key_eq (mem_of_find?_eq_some hfound) hr hother]

/-- Only the row itself has its key. -/
theorem filter_key_eq [DecidableEq κ] (t : Table κ ρ key) (hr : r ∈ t.rows) :
    t.rows.filter (fun other => key other = key r) = [r] := by
  have hkey : ∀ other : ρ, decide (key other = key r) = true → key other = key r :=
    fun other hother => of_decide_eq_true hother
  rw [t.filter_eq_toList_find? hkey, find?_eq_some hr (decide_eq_true rfl) hkey]
  rfl

theorem keys_insert [DecidableEq κ] (h : t.insert row = some t') :
    t'.keys = t.keys ++ [key row] := by
  unfold insert at h
  split at h
  · simp at h
  · cases h
    simp [keys]

theorem keys_updateWhere (t : Table κ ρ key) (p : ρ → Bool) (f : ρ → ρ)
    (hf : ∀ r, key (f r) = key r) : (t.updateWhere p f hf).keys = t.keys := by
  simp only [keys, updateWhere, map_map]
  apply map_congr_left
  intro r _
  by_cases hp : p r = true
  · simp [hp, hf]
  · simp [hp]

theorem mem_keys_deleteWhere {k : κ} :
    k ∈ (t.deleteWhere p).keys ↔ ∃ r ∈ t.rows, p r = false ∧ key r = k := by
  simp [mem_keys, deleteWhere, and_assoc]

theorem countWhere_eq_zero_iff : t.countWhere p = 0 ↔ ∀ r ∈ t.rows, p r = false := by
  simp [countWhere]

end Table

end LifeEngine.Support
