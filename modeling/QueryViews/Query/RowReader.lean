import QueryViews.Json.Reading
import QueryViews.Template

/-! Reading raw rows back into the shape of a template. -/

namespace QueryViews

/-- A raw result row, keyed by output name. -/
abbrev Row := List (String × Json)

def Row.get? (row : Row) (name : String) : Option Json := row.lookup name

/-- A template, and the name that each of its tokens was selected under. -/
structure RowReader where
  template : Template
  names : List (TokenId × String)

namespace RowReader

/-- A token that was not selected has the empty name. -/
def nameOf (r : RowReader) (id : TokenId) : String := (r.names.lookup id).getD ""

def decodeColumn (r : RowReader) (row : Row) (c : Column) : Attempt Json :=
  let name := r.nameOf c.token.id
  match row.get? name with
  | some raw => c.decode name raw
  | none => .done (.error (.missingColumn name))

/-- All columns of a row at once; the first failing column fails the row. -/
def decode (r : RowReader) (row : Row) : Attempt Json :=
  (Attempt.gather (r.template.columns.map (r.decodeColumn row))).map fun values =>
    (r.template.refill values).1

/-- All rows at once. -/
def decodeAll (r : RowReader) (rows : List Row) : Except DecodeError (List Json) :=
  (Attempt.gather (rows.map r.decode)).outcome

def decodeOne (r : RowReader) (row : Row) : Except DecodeError Json := (r.decode row).outcome

/-- The first row, which the answer to an aggregate query must have. -/
def decodeFirst (r : RowReader) : List Row → Except DecodeError Json
  | [] => .error .emptyAggregate
  | row :: _ => r.decodeOne row

def reading {α : Type} (read : Json.Reading α) (value : Json) : Except DecodeError α :=
  (read value).mapError fun mismatch => .unreadable mismatch.message

def decodeAllAs {α : Type} (r : RowReader) (read : Json.Reading α) (rows : List Row) :
    Except DecodeError (List α) := do
  (← r.decodeAll rows).mapM (reading read)

def decodeFirstAs {α : Type} (r : RowReader) (read : Json.Reading α) (rows : List Row) :
    Except DecodeError α := do
  reading read (← r.decodeFirst rows)

end RowReader
end QueryViews
