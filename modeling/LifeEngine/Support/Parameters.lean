import LifeEngine.Support.Fallible

/-!
# Parameters of prepared statements

PostgreSQL infers the type of every placeholder from the text of a statement.  The driver
asks the Rust type of each value whether it accepts that type, and refuses the whole
statement if one does not.
-/

namespace LifeEngine.Support

inductive RustType where
  | string
  | int64
  | dateTime
  deriving DecidableEq, Repr

inductive PgType where
  | text
  | int8
  | numeric
  | jsonb
  | timestamptz
  deriving DecidableEq, Repr

/-- `ToSql::accepts`. -/
def RustType.accepts : RustType → PgType → Bool
  | string, .text => true
  | int64, .int8 => true
  | dateTime, .timestamptz => true
  | _, _ => false

/-- The first parameter whose type is not accepted is an error; they are counted from 0. -/
def checkParams (params : List (RustType × PgType)) : Except String Unit :=
  match params.findIdx? fun p => !p.1.accepts p.2 with
  | none => .ok ()
  | some i => .error ("error serializing parameter " ++ toString i)

theorem checkParams_eq_ok_iff {params : List (RustType × PgType)} :
    checkParams params = .ok () ↔ ∀ p ∈ params, p.1.accepts p.2 = true := by
  unfold checkParams
  cases hfind : params.findIdx? fun p => !p.1.accepts p.2 with
  | none => simpa using List.findIdx?_eq_none_iff.mp hfind
  | some i =>
    obtain ⟨p, hp, hrefused⟩ := List.findIdx?_isSome.symm.trans (congrArg Option.isSome hfind)
      |> List.any_eq_true.mp
    refine iff_of_false nofun ?_
    intro h
    rw [h p hp] at hrefused
    cases hrefused

end LifeEngine.Support
