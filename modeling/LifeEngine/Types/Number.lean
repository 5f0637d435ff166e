import LifeEngine.Types.Json
import Mathlib.Algebra.Order.Field.Rat

/-!
# Numbers and equality of JSON values

A `serde_json::Number` is an integer or a finite double.  `Number::as_f64` turns
an integer into the nearest double, so different integers can have one image.
`Value::eq` compares integers exactly and doubles by value, and never finds an
integer equal to a double; JSON Schema compares all numbers by value.
-/

namespace LifeEngine

/-! ## Doubles -/

/-- The value of a finite double given by its bit pattern. -/
def doubleValue (bits : UInt64) : ℚ :=
  let sign : ℚ := if bits.toNat / 2 ^ 63 = 0 then 1 else -1
  let exponent : ℕ := bits.toNat / 2 ^ 52 % 2 ^ 11
  let fraction : ℕ := bits.toNat % 2 ^ 52
  if exponent = 0 then sign * fraction * 2 ^ (-1074 : ℤ)
  else sign * (2 ^ 52 + fraction) * 2 ^ ((exponent : ℤ) - 1075)

/-- The nearest double, ties to the even significand. -/
def roundNat (n : ℕ) : ℕ :=
  if n < 2 ^ 53 then n
  else
    let step := 2 ^ (n.log2 - 52)
    let below := n / step
    let rest := n % step
    if 2 * rest < step ∨ (2 * rest = step ∧ below % 2 = 0) then below * step
    else (below + 1) * step

/-- `n as f64`. -/
def roundInt : ℤ → ℤ
  | .ofNat n => roundNat n
  | .negSucc n => -(roundNat (n + 1) : ℤ)

namespace JsonNumber

/-- The number that is written. -/
def value : JsonNumber → ℚ
  | int n => n
  | float bits => doubleValue bits

/-- `Number::as_f64`. -/
def asF64 : JsonNumber → ℚ
  | int n => roundInt n
  | float bits => doubleValue bits

/-- `Number::eq`: zero has two bit patterns, and they are equal. -/
def same : JsonNumber → JsonNumber → Bool
  | int a, int b => a == b
  | float a, float b => doubleValue a == doubleValue b
  | _, _ => false

theorem same_refl (n : JsonNumber) : same n n = true := by
  cases n <;> simp [same]

theorem same_of_same (a b c : JsonNumber) (hab : same a b = true) (hcb : same c b = true) :
    same a c = true := by
  cases a <;> cases b <;> cases c <;> simp_all [same]

theorem value_eq_of_same {a b : JsonNumber} (h : same a b = true) : a.value = b.value := by
  cases a <;> cases b <;> simp_all [same, value]

end JsonNumber

/-! ## Values that agree up to their numbers -/

namespace Json

section Agree

variable {eqv : JsonNumber → JsonNumber → Bool}

mutual

theorem agree_refl (hrefl : ∀ n, eqv n n = true) (a : Json) : agree eqv a a = true := by
  cases a with
  | arr xs => simpa [agree] using agreeItems_refl hrefl xs
  | obj xs => simpa [agree] using agreeFields_refl hrefl xs
  | num n => simpa [agree] using hrefl n
  | null | bool | str => simp [agree]

theorem agreeItems_refl (hrefl : ∀ n, eqv n n = true) (xs : List Json) :
    agreeItems eqv xs xs = true := by
  cases xs with
  | nil => rfl
  | cons x xs => simp [agreeItems, agree_refl hrefl x, agreeItems_refl hrefl xs]

theorem agreeFields_refl (hrefl : ∀ n, eqv n n = true) (xs : List (String × Json)) :
    agreeFields eqv xs xs = true := by
  cases xs with
  | nil => rfl
  | cons x xs =>
    obtain ⟨k, x⟩ := x
    simp [agreeFields, agree_refl hrefl x, agreeFields_refl hrefl xs]

end

mutual

variable {eqv₁ eqv₂ : JsonNumber → JsonNumber → Bool}

/-- Values that agree with a third one agree, if their numbers do. -/
theorem agree_of_agree (heqv : ∀ a b c, eqv₁ a b = true → eqv₂ c b = true → eqv a c = true)
    (a b c : Json) (hab : agree eqv₁ a b = true) (hcb : agree eqv₂ c b = true) :
    agree eqv a c = true := by
  cases a <;> cases b <;> simp only [agree, Bool.false_eq_true] at hab <;>
    cases c <;> simp only [agree, Bool.false_eq_true] at hcb ⊢
  case bool.bool.bool => rw [beq_iff_eq.mp hab, beq_iff_eq.mp hcb, beq_self_eq_true]
  case num.num.num => exact heqv _ _ _ hab hcb
  case str.str.str => rw [beq_iff_eq.mp hab, beq_iff_eq.mp hcb, beq_self_eq_true]
  case arr.arr.arr xs ys zs => exact agreeItems_of_agreeItems heqv xs ys zs hab hcb
  case obj.obj.obj xs ys zs => exact agreeFields_of_agreeFields heqv xs ys zs hab hcb
termination_by structural a

theorem agreeItems_of_agreeItems
    (heqv : ∀ a b c, eqv₁ a b = true → eqv₂ c b = true → eqv a c = true)
    (xs ys zs : List Json) (hab : agreeItems eqv₁ xs ys = true)
    (hcb : agreeItems eqv₂ zs ys = true) : agreeItems eqv xs zs = true := by
  cases xs <;> cases ys <;> simp only [agreeItems, Bool.false_eq_true] at hab <;>
    cases zs <;> simp only [agreeItems, Bool.false_eq_true] at hcb ⊢
  case cons.cons.cons x xs y ys z zs =>
    rw [Bool.and_eq_true] at hab hcb ⊢
    exact ⟨agree_of_agree heqv x y z hab.1 hcb.1,
      agreeItems_of_agreeItems heqv xs ys zs hab.2 hcb.2⟩
termination_by structural xs

theorem agreeFields_of_agreeFields
    (heqv : ∀ a b c, eqv₁ a b = true → eqv₂ c b = true → eqv a c = true)
    (xs ys zs : List (String × Json)) (hab : agreeFields eqv₁ xs ys = true)
    (hcb : agreeFields eqv₂ zs ys = true) : agreeFields eqv xs zs = true := by
  cases xs <;> cases ys <;> simp only [agreeFields, Bool.false_eq_true] at hab <;>
    cases zs <;> simp only [agreeFields, Bool.false_eq_true] at hcb ⊢
  case cons.cons.cons x xs y ys z zs =>
    obtain ⟨k, x⟩ := x
    obtain ⟨l, y⟩ := y
    obtain ⟨m, z⟩ := z
    simp only [Bool.and_eq_true, beq_iff_eq] at hab hcb ⊢
    exact ⟨⟨hab.1.1.trans hcb.1.1.symm, agree_of_agree heqv x y z hab.1.2 hcb.1.2⟩,
      agreeFields_of_agreeFields heqv xs ys zs hab.2 hcb.2⟩
termination_by structural xs

end

end Agree

/-- `Value::eq`. -/
def same (a b : Json) : Bool :=
  agree JsonNumber.same a b

theorem same_refl (a : Json) : same a a = true := agree_refl JsonNumber.same_refl a

theorem same_trans {a b c : Json} (hab : same a b = true) (hbc : same b c = true) :
    same a c = true := by
  have hcb : same c b = true := agree_of_agree JsonNumber.same_of_same c c b (same_refl c) hbc
  exact agree_of_agree JsonNumber.same_of_same a b c hab hcb

theorem same_str_iff (a : Json) (s : String) : same a (str s) = true ↔ a = str s := by
  cases a <;> simp [same, agree]

theorem str_same_iff (a : Json) (s : String) : same (str s) a = true ↔ a = str s := by
  cases a with
  | str t => simp [same, agree, eq_comm (a := s)]
  | null | bool | num | arr | obj => simp [same, agree]

/-- Equality of values as JSON Schema has it. -/
def equal (a b : Json) : Bool :=
  agree (fun m n => m.value == n.value) a b

theorem equal_of_equal_of_same {a b c : Json} (hab : equal a b = true) (hcb : same c b = true) :
    equal a c = true := by
  apply agree_of_agree _ a b c hab hcb
  intro l m n hlm hnm
  rw [beq_iff_eq] at hlm ⊢
  rw [hlm, JsonNumber.value_eq_of_same hnm]

/-! ## Objects as maps -/

/-- `get` and then `Value::as_object`. -/
def objectAt (s : Json) (key : String) : Option JsonMap :=
  match s.get key with
  | some (obj fields) => some fields
  | _ => none

/-- `get` and then `Value::as_array`. -/
def arrayAt (s : Json) (key : String) : Option (List Json) :=
  match s.get key with
  | some (arr items) => some items
  | _ => none

theorem objectAt_eq_some {s : Json} {key : String} {fields : JsonMap} :
    s.objectAt key = some fields ↔ s.get key = some (obj fields) := by
  unfold objectAt
  split
  next h => simp [h]
  next h => simpa using h fields

end Json

namespace JsonMap

/-- Every key once, with the value of `get`. -/
def entries : JsonMap → List (String × Json)
  | [] => []
  | (k, v) :: rest => (k, v) :: (entries rest).filter (fun entry => entry.1 ≠ k)

theorem mem_of_mem_entries {m : JsonMap} {entry : String × Json} (h : entry ∈ m.entries) :
    entry ∈ m := by
  induction m with
  | nil => simp [entries] at h
  | cons head rest ih =>
    rcases List.mem_cons.mp h with heq | hrest
    · exact List.mem_cons.mpr (Or.inl heq)
    · exact List.mem_cons_of_mem _ (ih (List.mem_of_mem_filter hrest))

theorem mem_entries_iff {m : JsonMap} {key : String} {value : Json} :
    (key, value) ∈ m.entries ↔ m.get key = some value := by
  induction m with
  | nil => simp [entries]
  | cons head rest ih =>
    obtain ⟨k, v⟩ := head
    rw [entries, List.mem_cons, List.mem_filter, ih, get_cons]
    by_cases hk : key = k
    · simp [hk, eq_comm]
    · simp [hk]

end JsonMap

end LifeEngine
