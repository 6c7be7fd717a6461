import QueryViews.Dialect.Basic

/-! PostgreSQL: numbered parameters, and NULL placement as part of a sort key. -/

namespace QueryViews.Dialect.Postgres

def nullsClause : Option NullPlacement → String
  | some .first => " nulls first"
  | some .last => " nulls last"
  | none => ""

def sortKey (key : SortKey SqlText) : SqlText :=
  key.expr ++ SqlText.verbatim (" " ++ key.direction.keyword ++ nullsClause key.nulls)

def limitClause : Option Nat → List String
  | some count => ["limit " ++ toString count]
  | none => []

def offsetClause (skip : Nat) : List String :=
  if skip > 0 then ["offset " ++ toString skip] else []

end Postgres

def postgres : Dialect where
  label := Identifier.quoted
  qualify := Identifier.qualified
  selectAs := Identifier.labelled
  window skip take := " ".intercalate (Postgres.limitClause take ++ Postgres.offsetClause skip)
  ordering keys := SqlText.verbatim "order by " ++ SqlText.join ", " (keys.map Postgres.sortKey)
  placeholder index := "$" ++ toString (index + 1)

end QueryViews.Dialect
