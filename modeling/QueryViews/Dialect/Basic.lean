import QueryViews.Select.SortKey
import QueryViews.SqlText

/-! What differs between SQL dialects, and what they share: identifiers delimited by double quotes,
with each quote of the name written twice. -/

namespace QueryViews

structure Dialect where
  /-- The name of a source, as written after `as`. -/
  label : String → String
  qualify : String → String → String
  /-- An item of the select list under its output name. -/
  selectAs : SqlText → String → SqlText
  /-- The window clause; asked for only if some rows are skipped or a count is set. -/
  window : Nat → Option Nat → String
  /-- The whole ordering clause; asked for only with at least one key. -/
  ordering : List (SortKey SqlText) → SqlText
  /-- The marker of the parameter at this position, counted from zero. -/
  placeholder : Nat → String

namespace Identifier

def doubled : List Char → List Char
  | [] => []
  | c :: rest => if c = '"' then '"' :: '"' :: doubled rest else c :: doubled rest

def quoted (name : String) : String := "\"" ++ String.ofList (doubled name.toList) ++ "\""

/-- A column of a source. -/
def qualified (source column : String) : String := quoted source ++ "." ++ quoted column

def labelled (expr : SqlText) (name : String) : SqlText :=
  expr ++ SqlText.verbatim (" as " ++ quoted name)

end Identifier
end QueryViews
