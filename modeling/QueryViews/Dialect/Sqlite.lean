import QueryViews.Dialect.Basic

/-! SQLite: positional parameters, a limit of -1 where rows are only skipped, and NULL placement
as a sort key of its own before the key it belongs to. -/

namespace QueryViews.Dialect.Sqlite

def nullsKey (key : SortKey SqlText) : List SqlText :=
  match key.nulls with
  | some .first => [key.expr ++ SqlText.verbatim " is null desc"]
  | some .last => [key.expr ++ SqlText.verbatim " is null asc"]
  | none => []

def sortKeys (key : SortKey SqlText) : List SqlText :=
  nullsKey key ++ [key.expr ++ SqlText.verbatim (" " ++ key.direction.keyword)]

def limitClause : Option Nat → String
  | some count => "limit " ++ toString count
  | none => "limit -1"

end Sqlite

def sqlite : Dialect where
  label := Identifier.quoted
  qualify := Identifier.qualified
  selectAs := Identifier.labelled
  window skip take :=
    if skip > 0 then Sqlite.limitClause take ++ " offset " ++ toString skip
    else Sqlite.limitClause take
  ordering keys := SqlText.verbatim "order by " ++ SqlText.join ", " (keys.flatMap Sqlite.sortKeys)
  placeholder _ := "?"

end QueryViews.Dialect
