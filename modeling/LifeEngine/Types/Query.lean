import LifeEngine.Types.Pipeline

/-!
# Document queries

The query language of the document store: filter trees, sort directives and
pagination, and the list that a query returns.
-/

namespace LifeEngine

inductive FilterOperator where
  | eq
  | ne
  | gt
  | gte
  | lt
  | lte
  | in_
  | notIn
  | contains
  | startsWith
  | exists_
  deriving DecidableEq, Repr

/-- `FilterNode`: conditions composed with boolean logic. -/
inductive FilterNode where
  | and (children : List FilterNode)
  | or (children : List FilterNode)
  | not (child : FilterNode)
  | comparison (field : String) (operator : FilterOperator) (value : Json)

structure Pagination where
  limit : Nat
  cursor : Option String

structure QueryDescriptor where
  collection : String
  filter : Option FilterNode
  sort : List SortField
  pagination : Pagination
  fields : Option (List String)
  textSearch : Option String

structure DocumentList where
  documents : List Json
  totalCount : Nat
  nextCursor : Option String

end LifeEngine
