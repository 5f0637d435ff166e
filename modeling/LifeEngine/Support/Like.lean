import Mathlib.Data.List.Infix

/-!
# Patterns of `LIKE`

In a pattern of `LIKE`, `%` stands for any text and `_` for any character, and the
character after the escape character stands for itself.  Characters are compared by what
`fold` makes of them.
-/

namespace LifeEngine.Support

namespace Like

inductive Token where
  | many
  | one
  | lit (c : Char)
  deriving DecidableEq, Repr

def token (c : Char) : Token :=
  if c = '%' then .many else if c = '_' then .one else .lit c

/-- Unless the pattern ends in the escape character. -/
def tokens (escape : Char) : List Char → Option (List Token)
  | [] => some []
  | c :: rest =>
    if c = escape then
      match rest with
      | [] => none
      | d :: rest => (tokens escape rest).map (.lit d :: ·)
    else (tokens escape rest).map (token c :: ·)

def matchTokens (fold : Char → Char) : List Token → List Char → Bool
  | [], text => text.isEmpty
  | .many :: rest, text => text.tails.any (matchTokens fold rest)
  | .one :: _, [] => false
  | .one :: rest, _ :: text => matchTokens fold rest text
  | .lit _ :: _, [] => false
  | .lit c :: rest, d :: text => fold c = fold d ∧ matchTokens fold rest text

section Matching

variable {fold : Char → Char}

/-- The text starts with the characters. -/
theorem matchTokens_lit_append_many_iff {term text : List Char} :
    matchTokens fold (term.map .lit ++ [.many]) text = true ↔ term.map fold <+: text.map fold := by
  induction term generalizing text with
  | nil => simp [matchTokens]
  | cons c term ih =>
    cases text with
    | nil => simp [matchTokens]
    | cons d text => simp [matchTokens, ih]

/-- The text contains the characters. -/
theorem matchTokens_many_lit_iff {term text : List Char} :
    matchTokens fold (.many :: (term.map .lit ++ [.many])) text = true ↔
      term.map fold <:+: text.map fold := by
  simp only [matchTokens, List.any_eq_true, List.mem_tails, matchTokens_lit_append_many_iff]
  rw [List.infix_iff_prefix_suffix]
  constructor
  · rintro ⟨tail, htail, hterm⟩
    exact ⟨tail.map fold, hterm, htail.map fold⟩
  · rintro ⟨folded, hterm, hfolded⟩
    obtain ⟨tail, htail, rfl⟩ := List.suffix_map_iff.mp hfolded
    exact ⟨tail, htail, hterm⟩

/-- Wildcards as a letter. -/
def fill (letter c : Char) : Char :=
  if c = '%' ∨ c = '_' then letter else c

/-- A pattern matches itself with a letter for each wildcard. -/
theorem matchTokens_fill (letter : Char) (term : List Char) {text : List Char} {rest : List Token}
    (h : matchTokens fold rest text = true) :
    matchTokens fold (term.map token ++ rest) (term.map (fill letter) ++ text) = true := by
  induction term with
  | nil => exact h
  | cons c term ih =>
    by_cases hmany : c = '%'
    · have htail : term.map (fill letter) ++ text ∈
          (letter :: (term.map (fill letter) ++ text)).tails :=
        (List.mem_tails _ _).mpr (List.suffix_cons ..)
      simp only [List.map_cons, List.cons_append, token, fill, hmany, if_true, true_or]
      exact List.any_eq_true.mpr ⟨_, htail, ih⟩
    · by_cases hone : c = '_'
      · simpa [token, fill, hmany, hone, matchTokens] using ih
      · simpa [token, fill, hmany, hone, matchTokens] using ih

end Matching

end Like

/-- `text LIKE pattern ESCAPE escape`. -/
def like (fold : Char → Char) (escape : Char) (pattern text : List Char) : Bool :=
  match Like.tokens escape pattern with
  | none => false
  | some tokens => Like.matchTokens fold tokens text

end LifeEngine.Support
