import Mathlib.Data.List.Basic

/-!
# Decimal numerals of bounded integers

The numerals that a parser of fixed-width integers accepts: decimal digits behind
an optional sign, with a value inside the range of the type.  A plus sign and
leading zeros are accepted.
-/

namespace LifeEngine.Support

/-- The value of a nonempty sequence of decimal digits. -/
def digitsValue (cs : List Char) : Option Nat :=
  if cs ≠ [] ∧ cs.all Char.isDigit then some (Nat.ofDigitChars 10 cs 0) else none

/-- An unsigned numeral with a value below the bound. -/
def parseUnsigned (bound : Nat) (cs : List Char) : Option Nat :=
  (digitsValue (match cs with
    | '+' :: rest => rest
    | cs => cs)).filter (fun n => n < bound)

/-- A signed numeral from `-bound` to below `bound`. -/
def parseSigned (bound : Nat) (cs : List Char) : Option Int :=
  match cs with
  | '-' :: rest => ((digitsValue rest).filter (fun n => n ≤ bound)).map fun n => -(n : Int)
  | cs => (parseUnsigned bound cs).map fun n => (n : Int)

variable {n : Nat} {cs : List Char}

theorem digitsValue_eq_some (h : digitsValue cs = some n) : ∀ c ∈ cs, c.isDigit = true := by
  unfold digitsValue at h
  split at h
  · rename_i hdigits
    exact List.all_eq_true.mp hdigits.2
  · cases h

theorem parseUnsigned_lt {bound : Nat} (h : parseUnsigned bound cs = some n) : n < bound := by
  have hn := (Option.filter_eq_some_iff.mp h).2
  simpa using hn

theorem digitsValue_toDigits (n : Nat) : digitsValue (Nat.toDigits 10 n) = some n := by
  have hne : Nat.toDigits 10 n ≠ [] := Nat.toDigits_ne_nil
  have hdigits : ∀ c ∈ Nat.toDigits 10 n, c.isDigit = true := fun c hc =>
    Nat.isDigit_of_mem_toDigits (by decide) (by decide) hc
  unfold digitsValue
  rw [if_pos ⟨hne, List.all_eq_true.mpr hdigits⟩, Nat.ofDigitChars_toDigits (by decide) (by decide)]

theorem parseUnsigned_toString {bound : Nat} (h : n < bound) :
    parseUnsigned bound (toString n).toList = some n := by
  have htext : (toString n).toList = Nat.toDigits 10 n := by simp
  rw [htext]
  unfold parseUnsigned
  split
  · next rest hrest =>
    have hplus : '+' ∈ Nat.toDigits 10 n := by
      rw [hrest]
      exact List.mem_cons_self
    exact absurd (Nat.isDigit_of_mem_toDigits (by decide) (by decide) hplus) (by decide)
  · rw [digitsValue_toDigits]
    simp [h]

/-- The bound only cuts values off. -/
theorem parseUnsigned_of_parseUnsigned {b b' : Nat} (h : parseUnsigned b cs = some n) :
    parseUnsigned b' cs = if n < b' then some n else none := by
  unfold parseUnsigned at h ⊢
  have hvalue := (Option.filter_eq_some_iff.mp h).1
  rw [hvalue]
  by_cases hn : n < b' <;> simp [Option.filter]

/-- An unsigned numeral is read as the same number, or is too large. -/
theorem parseSigned_of_parseUnsigned {b b' : Nat} (h : parseUnsigned b cs = some n) :
    parseSigned b' cs = if n < b' then some (n : Int) else none := by
  have hsign : ∀ rest, cs ≠ '-' :: rest := by
    rintro rest rfl
    have hvalue := (Option.filter_eq_some_iff.mp h).1
    have hdigit := digitsValue_eq_some hvalue '-' (List.mem_cons_self)
    exact absurd hdigit (by decide)
  have hcs : parseSigned b' cs = (parseUnsigned b' cs).map fun n => (n : Int) := by
    unfold parseSigned
    split
    · rename_i rest
      exact absurd rfl (hsign rest)
    · rfl
  rw [hcs, parseUnsigned_of_parseUnsigned h]
  by_cases hn : n < b' <;> simp [hn]

end LifeEngine.Support
