import LifeEngine.SqliteDocument.Adapter
import LifeEngine.Support.SqlLogic
import Mathlib.Order.Bounds.Defs

/-!
# Clauses as conditions

A clause of `WhereBuilder` is a tree over the values pushed for it.  In its text they are
numbered placeholders.  The builder pushes the path of every field that is compared, and
writes it unless the comparison is with an empty list; `rusqlite` refuses a statement whose
placeholders and values differ in number.
-/

namespace LifeEngine.SqliteDocument

open Support

/-- A clause over pushed values, which a constant does not write. -/
inductive Condition (α : Type) where
  | constant (value : Bool) (unwritten : List α)
  | test (op : FilterOperator) (path : α) (operands : List α)
  | not (inner : Condition α)
  | group (join : Connective) (parts : List (Condition α))

namespace Condition

variable {α : Type}

mutual

/-- The pushed values, and whether each is written. -/
def leaves : Condition α → List (Bool × α)
  | constant _ unwritten => unwritten.map (false, ·)
  | test _ path operands => (path :: operands).map (true, ·)
  | not inner => inner.leaves
  | group _ parts => leavesOf parts

def leavesOf : List (Condition α) → List (Bool × α)
  | [] => []
  | part :: parts => part.leaves ++ leavesOf parts

end

mutual

/-- The values with their positions, from `n` on. -/
def number (n : Nat) : Condition α → Condition (Nat × α)
  | constant value unwritten => constant value (unwritten.mapIdx fun i a => (n + i, a))
  | test op path operands => test op (n, path) (operands.mapIdx fun i a => (n + 1 + i, a))
  | not inner => not (inner.number n)
  | group join parts => group join (numberOf n parts)

def numberOf (n : Nat) : List (Condition α) → List (Condition (Nat × α))
  | [] => []
  | part :: parts => part.number n :: numberOf (n + part.leaves.length) parts

end

mutual

theorem leaves_number (n : Nat) (c : Condition α) :
    (c.number n).leaves = c.leaves.mapIdx fun i leaf => (leaf.1, n + i, leaf.2) := by
  cases c with
  | constant value unwritten =>
    refine List.ext_getElem? fun i => ?_
    simp [number, leaves, Function.comp_def]
  | test op path operands =>
    refine List.ext_getElem? fun i => ?_
    cases i <;> simp [number, leaves, Function.comp_def, Nat.add_assoc, Nat.add_comm 1]
  | not inner => exact leaves_number n inner
  | group join parts => exact leavesOf_numberOf n parts

theorem leavesOf_numberOf (n : Nat) (parts : List (Condition α)) :
    leavesOf (numberOf n parts) =
      (leavesOf parts).mapIdx fun i leaf => (leaf.1, n + i, leaf.2) := by
  cases parts with
  | nil => rfl
  | cons part parts =>
    rw [numberOf, leavesOf, leavesOf, leaves_number n part, leavesOf_numberOf _ parts,
      List.mapIdx_append]
    simp only [Nat.add_comm, Nat.add_left_comm]

end

/-! ## Texts -/

def constantSql (value : Bool) : String :=
  if value then "1=1" else "1=0"

def testSql (op : FilterOperator) (path : Nat) (operands : List Nat) : String :=
  let list (keyword : String) :=
    keyword ++ "(" ++ String.intercalate ", " (operands.map WhereBuilder.placeholder) ++ ")"
  let binary (sqlOp : String) :=
    " " ++ sqlOp ++ " " ++ String.join (operands.map WhereBuilder.placeholder)
  WhereBuilder.extract path ++
    match op with
    | .exists_ => " IS NOT NULL"
    | .in_ => list " IN "
    | .notIn => list " NOT IN "
    | .contains | .startsWith => binary "LIKE"
    | .eq => binary "="
    | .ne => binary "!="
    | .gt => binary ">"
    | .gte => binary ">="
    | .lt => binary "<"
    | .lte => binary "<="

def joinSql : Connective → String
  | .and => " AND "
  | .or => " OR "

mutual

def render : Condition (Nat × α) → String
  | constant value _ => constantSql value
  | test op path operands => testSql op path.1 (operands.map Prod.fst)
  | not inner => "NOT (" ++ inner.render ++ ")"
  | group join parts =>
    if parts.isEmpty then constantSql join.unit
    else "(" ++ String.intercalate (joinSql join) (renderOf parts) ++ ")"

def renderOf : List (Condition (Nat × α)) → List String
  | [] => []
  | part :: parts => part.render :: renderOf parts

end

end Condition

/-! ## The clause of a filter -/

/-- The condition of `build_comparison`. -/
def comparison (env : JsonEnv) (field : String) (op : FilterOperator) (value : Json) :
    Condition SqlValue :=
  let path := SqlValue.text ("$." ++ field)
  match op, value with
  | .exists_, _ => .test op path []
  | .in_, .arr (v :: vs) | .notIn, .arr (v :: vs) =>
    .test op path ((v :: vs).map (jsonValueToBoxedSql env))
  | .in_, _ => .constant false [path]
  | .notIn, _ => .constant true [path]
  | .contains, _ => .test op path [.text ("%" ++ jsonValueToString env value ++ "%")]
  | .startsWith, _ => .test op path [.text (jsonValueToString env value ++ "%")]
  | _, _ => .test op path [jsonValueToBoxedSql env value]

mutual

def condition (env : JsonEnv) : FilterNode → Condition SqlValue
  | .and children => .group .and (conditions env children)
  | .or children => .group .or (conditions env children)
  | .not child => .not (condition env child)
  | .comparison field op value => comparison env field op value

def conditions (env : JsonEnv) : List FilterNode → List (Condition SqlValue)
  | [] => []
  | child :: rest => condition env child :: conditions env rest

end

namespace WhereBuilder

open Condition

/-- The builder after it has pushed the values of a clause. -/
def pushAll (wb : WhereBuilder) (leaves : List (Bool × SqlValue)) : WhereBuilder :=
  ⟨wb.bindValues ++ leaves.map Prod.snd, wb.paramIdx + leaves.length⟩

theorem placeholders_eq (env : JsonEnv) (items : List Json) (wb : WhereBuilder) :
    placeholders env items wb = ((List.range' wb.paramIdx items.length).map placeholder,
      wb.pushAll (items.map fun item => (true, jsonValueToBoxedSql env item))) := by
  induction items generalizing wb with
  | nil => simp [placeholders, pushAll]
  | cons item rest ih =>
    simp [placeholders, ih, push, pushAll, Nat.add_assoc, Nat.add_comm 1, List.range'_succ]

theorem map_fst_mapIdx {α : Type} (n : Nat) (xs : List α) :
    (xs.mapIdx fun i a => (n + i, a)).map Prod.fst = List.range' n xs.length := by
  refine List.ext_getElem? fun i => ?_
  by_cases hi : i < xs.length <;> simp [hi]

theorem buildComparison_eq (env : JsonEnv) (field : String) (op : FilterOperator) (value : Json)
    (wb : WhereBuilder) :
    buildComparison env field op value wb =
      (((comparison env field op value).number wb.paramIdx).render,
        wb.pushAll (comparison env field op value).leaves) := by
  cases op with
  | in_ | notIn =>
    cases value with
    | arr items =>
      cases items with
      | nil => rfl
      | cons item rest =>
        simp only [buildComparison, buildMembership, placeholders_eq, comparison, number, render,
          testSql, leaves, map_fst_mapIdx]
        simp [pushAll, push, String.append_assoc, Nat.add_assoc, Nat.add_comm 1]
    | _ => rfl
  | _ =>
    simp [buildComparison, buildBinary, comparison, number, render, testSql, leaves, pushAll,
      push, String.append_assoc]

mutual

theorem build_eq (env : JsonEnv) (f : FilterNode) (wb : WhereBuilder) :
    build env f wb = (((condition env f).number wb.paramIdx).render,
      wb.pushAll (condition env f).leaves) := by
  cases f with
  | and children | or children =>
    cases children with
    | nil =>
      simp [build, condition, conditions, number, numberOf, render, leaves, leavesOf, pushAll,
        constantSql, Connective.unit]
    | cons child rest =>
      have hall := buildAll_eq env (child :: rest) wb
      simp only [build, List.isEmpty_cons, Bool.false_eq_true, if_false, hall]
      rfl
  | not child => simp only [build, build_eq env child wb, condition, number, render, leaves]
  | comparison field op value => exact buildComparison_eq env field op value wb

theorem buildAll_eq (env : JsonEnv) (fs : List FilterNode) (wb : WhereBuilder) :
    buildAll env fs wb = (renderOf (numberOf wb.paramIdx (conditions env fs)),
      wb.pushAll (leavesOf (conditions env fs))) := by
  cases fs with
  | nil => simp [buildAll, conditions, numberOf, renderOf, leavesOf, pushAll]
  | cons child rest =>
    simp only [buildAll, build_eq env child wb, buildAll_eq env rest]
    simp [conditions, numberOf, renderOf, leavesOf, pushAll, Nat.add_assoc]

end

end WhereBuilder

/-! ## Positions -/

/-- The statements refer to each value at its position, and bind as many as they have. -/
structure WellBound (env : JsonEnv) (collection : String) (f : FilterNode) : Prop where
  text : filterSql env (some f) = " AND " ++ ((condition env f).number 2).render
  refers : ∀ i value, (true, i, value) ∈ ((condition env f).number 2).leaves →
    (bindValues env collection (some f))[i - 1]? = some value
  count : IsGreatest
    {i | i = 1 ∨ ∃ value, (true, i, value) ∈ ((condition env f).number 2).leaves}
    (bindValues env collection (some f)).length

theorem Condition.mem_leaves_number {α : Type} {c : Condition α} {n i : Nat} {written : Bool}
    {a : α} :
    (written, i, a) ∈ (c.number n).leaves ↔ ∃ j, n + j = i ∧ c.leaves[j]? = some (written, a) := by
  rw [leaves_number, List.mem_iff_getElem?]
  simp only [List.getElem?_mapIdx, Option.map_eq_some_iff, Prod.mk.injEq, Prod.exists]
  constructor
  · rintro ⟨j, _, _, hleaf, rfl, hi, rfl⟩
    exact ⟨j, hi, hleaf⟩
  · rintro ⟨j, hi, hleaf⟩
    exact ⟨j, written, a, hleaf, rfl, hi, rfl⟩

/-- Placeholders and values fit exactly if the last value pushed is written: the last comparison is
no test for membership in something else than a nonempty list. -/
theorem wellBound_iff (env : JsonEnv) (collection : String) (f : FilterNode) :
    WellBound env collection f ↔ ∀ leaf ∈ (condition env f).leaves.getLast?, leaf.1 = true := by
  have hbuild := WhereBuilder.build_eq env f (WhereBuilder.new 2)
  have hbinds : bindValues env collection (some f) =
      .text collection :: (condition env f).leaves.map Prod.snd := by
    rw [bindValues, hbuild]
    rfl
  have hlength : (bindValues env collection (some f)).length =
      (condition env f).leaves.length + 1 := by
    rw [hbinds, List.length_cons, List.length_map]
  constructor
  · intro h leaf hlast
    rw [List.getLast?_eq_getElem?] at hlast
    have hpos := (List.getElem?_eq_some_iff.mp hlast).1
    rcases h.count.1 with hone | ⟨value, hmem⟩
    · omega
    · obtain ⟨j, hj, hleaf⟩ := Condition.mem_leaves_number.mp hmem
      rw [show j = (condition env f).leaves.length - 1 by omega, hlast] at hleaf
      rw [Option.some.inj hleaf]
  · intro hlast
    refine ⟨by rw [filterSql, hbuild]; rfl, ?_, ?_, ?_⟩
    · intro i value hmem
      obtain ⟨j, rfl, hleaf⟩ := Condition.mem_leaves_number.mp hmem
      rw [hbinds, show 2 + j - 1 = j + 1 by omega, List.getElem?_cons_succ, List.getElem?_map,
        hleaf]
      rfl
    · rcases hleaves : (condition env f).leaves.getLast? with _ | ⟨written, value⟩
      · rw [List.getLast?_eq_none_iff] at hleaves
        exact .inl (by rw [hlength, hleaves]; rfl)
      · obtain rfl : written = true := hlast _ hleaves
        rw [List.getLast?_eq_getElem?] at hleaves
        have hpos := (List.getElem?_eq_some_iff.mp hleaves).1
        exact .inr ⟨value, Condition.mem_leaves_number.mpr ⟨_, by omega, hleaves⟩⟩
    · rintro i (rfl | ⟨value, hmem⟩)
      · omega
      · obtain ⟨j, rfl, hleaf⟩ := Condition.mem_leaves_number.mp hmem
        have hj := (List.getElem?_eq_some_iff.mp hleaf).1
        omega

/-- The path of a test on the empty list is bound to no placeholder. -/
theorem not_wellBound_in_nil :
    ¬ WellBound plainAdapter.toJsonEnv "notes" (.comparison "tag" .in_ (.arr [])) := by
  intro h
  have hcount : 2 = 1 ∨ ∃ value, (true, 2, value) ∈ [(false, 2, SqlValue.text "$.tag")] := h.count.1
  simp at hcount

end LifeEngine.SqliteDocument
