import Mathlib.Data.List.Basic

/-!
# JSON values

`serde_json::Value` as the code uses it.  An object is a `serde_json::Map`, a map
ordered by key, represented here by its list of entries.  The operations keep
that order; the lemmas about them hold for every list of entries.
-/

namespace LifeEngine

/-- An integer, or the bit pattern of a double. -/
inductive JsonNumber where
  | int (value : Int)
  | float (bits : UInt64)
  deriving DecidableEq, Repr

/-- `serde_json::Value`. -/
inductive Json where
  | null
  | bool (b : Bool)
  | num (n : JsonNumber)
  | str (s : String)
  | arr (items : List Json)
  | obj (fields : List (String × Json))
  deriving Repr

/-! ## Equality -/

namespace Json

mutual

/-- The same tree, with numbers compared by `eqv`. -/
def agree (eqv : JsonNumber → JsonNumber → Bool) : Json → Json → Bool
  | null, null => true
  | bool a, bool b => a == b
  | num a, num b => eqv a b
  | str a, str b => a == b
  | arr xs, arr ys => agreeItems eqv xs ys
  | obj xs, obj ys => agreeFields eqv xs ys
  | _, _ => false

def agreeItems (eqv : JsonNumber → JsonNumber → Bool) : List Json → List Json → Bool
  | [], [] => true
  | x :: xs, y :: ys => agree eqv x y && agreeItems eqv xs ys
  | _, _ => false

def agreeFields (eqv : JsonNumber → JsonNumber → Bool) :
    List (String × Json) → List (String × Json) → Bool
  | [], [] => true
  | (k, x) :: xs, (l, y) :: ys => k == l && agree eqv x y && agreeFields eqv xs ys
  | _, _ => false

end

/-- The same tree, with the same numbers. -/
def beq : Json → Json → Bool :=
  agree (· == ·)

mutual

theorem beq_iff (a b : Json) : beq a b = true ↔ a = b := by
  cases a <;> cases b <;> simp [beq, agree, beqItems_iff, beqFields_iff]

theorem beqItems_iff (xs ys : List Json) : agreeItems (· == ·) xs ys = true ↔ xs = ys := by
  cases xs <;> cases ys <;> simp only [agreeItems, reduceCtorEq, Bool.false_eq_true]
  case cons.cons x xs y ys =>
    have hhead : agree (· == ·) x y = true ↔ x = y := beq_iff x y
    simp [hhead, beqItems_iff xs ys]

theorem beqFields_iff (xs ys : List (String × Json)) :
    agreeFields (· == ·) xs ys = true ↔ xs = ys := by
  cases xs <;> cases ys <;> simp only [agreeFields, reduceCtorEq, Bool.false_eq_true]
  case cons.cons x xs y ys =>
    have hhead : agree (· == ·) x.2 y.2 = true ↔ x.2 = y.2 := beq_iff x.2 y.2
    simp [hhead, beqFields_iff xs ys, Prod.ext_iff]

end

instance : DecidableEq Json := fun a b => decidable_of_iff _ (beq_iff a b)

end Json

/-! ## Objects -/

/-- The entries of a JSON object. -/
abbrev JsonMap := List (String × Json)

namespace JsonMap

def get (m : JsonMap) (key : String) : Option Json :=
  m.lookup key

/-- In key order, replacing an entry of the same key. -/
def insert (key : String) (value : Json) : JsonMap → JsonMap
  | [] => [(key, value)]
  | (k, v) :: rest =>
    if key = k then (key, value) :: rest
    else if key < k then (key, value) :: (k, v) :: rest
    else (k, v) :: insert key value rest

def remove (m : JsonMap) (key : String) : JsonMap :=
  m.filter (fun entry => entry.1 ≠ key)

@[simp] theorem get_nil (key : String) : get [] key = none := rfl

theorem get_cons (k : String) (v : Json) (rest : JsonMap) (key : String) :
    get ((k, v) :: rest) key = if key = k then some v else get rest key := by
  by_cases h : key = k
  · simp [get, h]
  · simp [get, h, beq_eq_false_iff_ne.mpr h, List.lookup_cons]

@[simp] theorem get_insert_self (key : String) (value : Json) (m : JsonMap) :
    get (insert key value m) key = some value := by
  induction m with
  | nil => simp [insert, get_cons]
  | cons entry rest ih =>
    obtain ⟨k, v⟩ := entry
    by_cases heq : key = k
    · simp [insert, heq, get_cons]
    · by_cases hlt : key < k
      · simp [insert, heq, hlt, get_cons]
      · simp [insert, heq, hlt, get_cons, ih]

theorem get_insert_of_ne {key other : String} (hne : other ≠ key) (value : Json)
    (m : JsonMap) :
    get (insert key value m) other = get m other := by
  induction m with
  | nil => simp [insert, get_cons, hne]
  | cons entry rest ih =>
    obtain ⟨k, v⟩ := entry
    by_cases heq : key = k
    · subst heq
      simp [insert, get_cons, hne]
    · by_cases hlt : key < k
      · simp [insert, heq, hlt, get_cons, hne]
      · simp [insert, heq, hlt, get_cons, ih]

theorem mem_keys_of_get {m : JsonMap} {key : String} {value : Json}
    (h : m.get key = some value) : key ∈ m.map Prod.fst := by
  obtain ⟨before, after, rfl, -⟩ := List.lookup_eq_some_iff.mp h
  simp

theorem get_remove_self (m : JsonMap) (key : String) : get (remove m key) key = none := by
  induction m with
  | nil => rfl
  | cons entry rest ih =>
    obtain ⟨k, v⟩ := entry
    by_cases h : k = key
    · simpa [remove, h] using ih
    · have hkey : key ≠ k := fun e => h e.symm
      simpa [remove, h, get_cons, hkey] using ih

theorem get_remove_of_ne {key other : String} (hne : other ≠ key) (m : JsonMap) :
    get (remove m key) other = get m other := by
  induction m with
  | nil => rfl
  | cons entry rest ih =>
    obtain ⟨k, v⟩ := entry
    by_cases h : k = key
    · subst h
      simpa [remove, get_cons, hne] using ih
    · by_cases ho : other = k
      · simp [remove, h, get_cons, ho]
      · simpa [remove, h, get_cons, ho] using ih

/-- Keeping some keys keeps what is found under them. -/
theorem get_filter_keys (p : String → Bool) (m : JsonMap) (key : String) :
    get (m.filter fun entry => p entry.1) key = if p key then get m key else none := by
  induction m with
  | nil => simp
  | cons entry rest ih =>
    obtain ⟨k, v⟩ := entry
    rw [List.filter_cons, get_cons]
    by_cases hk : p k = true
    · rw [if_pos hk, get_cons, ih]
      by_cases heq : key = k
      · simp [heq, hk]
      · simp [heq]
    · rw [if_neg hk, ih]
      by_cases heq : key = k
      · simp [heq, hk]
      · simp [heq]

end JsonMap

namespace Json

/-- `Value::get` with a string index: only objects have fields. -/
def get : Json → String → Option Json
  | obj fields, key => JsonMap.get fields key
  | _, _ => none

def asStr : Json → Option String
  | str s => some s
  | _ => none

def asBool : Json → Option Bool
  | bool b => some b
  | _ => none

end Json

end LifeEngine
