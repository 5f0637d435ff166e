import Mathlib.Data.List.Basic

/-!
# Conditions of SQL statements

The condition of a statement joins tests by `AND` and `OR`.  A test is true, false or
unknown, and a statement keeps a row only when its condition is true.  Statements refer
to their parameters by number.
-/

namespace LifeEngine.Support

inductive Connective where
  | and
  | or
  deriving DecidableEq, Repr

/-- A condition over tests. -/
inductive Clause (τ : Type) where
  | test (t : τ)
  | group (join : Connective) (parts : List (Clause τ))

namespace Connective

/-- The value of a group without parts. -/
def unit : Connective → Bool
  | and => true
  | or => false

/-- With `none` for unknown. -/
def join (k : Connective) : Option Bool → Option Bool → Option Bool
  | some a, b => if a = k.unit then b else some a
  | none, some b => if b = k.unit then none else some b
  | none, none => none

theorem join_and_eq_true_iff {a b : Option Bool} :
    join and a b = some true ↔ a = some true ∧ b = some true := by
  rcases a with _ | _ | _ <;> rcases b with _ | _ | _ <;> simp [join, unit]

end Connective

namespace Clause

variable {τ σ : Type}

/-! ## Values -/

mutual

def eval (f : τ → Option Bool) : Clause τ → Option Bool
  | test t => f t
  | group k parts => evalGroup f k parts

def evalGroup (f : τ → Option Bool) (k : Connective) : List (Clause τ) → Option Bool
  | [] => some k.unit
  | part :: parts => k.join (eval f part) (evalGroup f k parts)

end

theorem evalGroup_and_eq_true_iff {f : τ → Option Bool} {parts : List (Clause τ)} :
    evalGroup f .and parts = some true ↔ ∀ part ∈ parts, eval f part = some true := by
  induction parts with
  | nil => simp [evalGroup, Connective.unit]
  | cons part parts ih =>
    rw [evalGroup, Connective.join_and_eq_true_iff, ih, List.forall_mem_cons]

/-! ## Tests -/

mutual

/-- The tests of a condition, from left to right. -/
def tests : Clause τ → List τ
  | test t => [t]
  | group _ parts => testsOf parts

def testsOf : List (Clause τ) → List τ
  | [] => []
  | part :: parts => tests part ++ testsOf parts

end

theorem testsOf_append (parts parts' : List (Clause τ)) :
    testsOf (parts ++ parts') = testsOf parts ++ testsOf parts' := by
  induction parts with
  | nil => rfl
  | cons part parts ih => rw [List.cons_append, testsOf, testsOf, ih, List.append_assoc]

/-! ## Parameters -/

mutual

/-- The tests name their parameter, numbered from `n` on. -/
def number (word : τ → σ) (n : Nat) : Clause τ → Clause (σ × Nat)
  | test t => test (word t, n)
  | group k parts => group k (numberAll word n parts)

def numberAll (word : τ → σ) (n : Nat) : List (Clause τ) → List (Clause (σ × Nat))
  | [] => []
  | part :: parts =>
    number word n part :: numberAll word (n + (tests part).length) parts

end

theorem numberAll_append (word : τ → σ) (n : Nat) (parts parts' : List (Clause τ)) :
    numberAll word n (parts ++ parts') =
      numberAll word n parts ++ numberAll word (n + (testsOf parts).length) parts' := by
  induction parts generalizing n with
  | nil => rfl
  | cons part parts ih =>
    simp [numberAll, testsOf, ih, Nat.add_assoc]

theorem isEmpty_numberAll (word : τ → σ) (n : Nat) (parts : List (Clause τ)) :
    (numberAll word n parts).isEmpty = parts.isEmpty := by
  cases parts <;> rfl

mutual

theorem tests_number (word : τ → σ) (n : Nat) (c : Clause τ) :
    tests (number word n c) = (tests c).mapIdx fun i t => (word t, n + i) := by
  cases c with
  | test t => rfl
  | group k parts => exact testsOf_numberAll word n parts

theorem testsOf_numberAll (word : τ → σ) (n : Nat) (parts : List (Clause τ)) :
    testsOf (numberAll word n parts) = (testsOf parts).mapIdx fun i t => (word t, n + i) := by
  cases parts with
  | nil => rfl
  | cons part parts =>
    rw [numberAll, testsOf, testsOf, tests_number word n part,
      testsOf_numberAll word _ parts, List.mapIdx_append]
    simp only [Nat.add_comm, Nat.add_left_comm]

end

/-- The numbered tests find what `ts` mean. -/
def Binds (word : τ → σ) (f : τ → Option Bool) (g : σ × Nat → Option Bool) (n : Nat)
    (ts : List τ) : Prop :=
  ∀ i t, ts[i]? = some t → g (word t, n + i) = f t

section Binds

variable {word : τ → σ} {f : τ → Option Bool} {g : σ × Nat → Option Bool}

theorem Binds.left {n : Nat} {ts ts' : List τ} (h : Binds word f g n (ts ++ ts')) :
    Binds word f g n ts := by
  intro i t ht
  have hi : i < ts.length := (List.getElem?_eq_some_iff.mp ht).1
  exact h i t ((List.getElem?_append_left hi).trans ht)

theorem Binds.right {n : Nat} {ts ts' : List τ} (h : Binds word f g n (ts ++ ts')) :
    Binds word f g (n + ts.length) ts' := by
  intro i t ht
  rw [Nat.add_assoc]
  refine h (ts.length + i) t ?_
  rw [List.getElem?_append_right (Nat.le_add_right _ _), Nat.add_sub_cancel_left, ht]

mutual

theorem eval_number (n : Nat) (c : Clause τ) (h : Binds word f g n (tests c)) :
    eval g (number word n c) = eval f c := by
  cases c with
  | test t => exact h 0 t rfl
  | group k parts => exact evalGroup_numberAll k n parts h

theorem evalGroup_numberAll (k : Connective) (n : Nat) (parts : List (Clause τ))
    (h : Binds word f g n (testsOf parts)) :
    evalGroup g k (numberAll word n parts) = evalGroup f k parts := by
  cases parts with
  | nil => rfl
  | cons part parts =>
    rw [numberAll, evalGroup, evalGroup, eval_number n part h.left,
      evalGroup_numberAll k _ parts h.right]

end

end Binds

end Clause

end LifeEngine.Support
