import QueryViews.Proofs.Decode.Rows

/-! Where the values of a row end up. A row is read back if every column of it is, whatever their
formats wait for, and fails as one of its columns does. The value of a column then stands where the
path to that column leads in the decoded row. -/

namespace QueryViews

section Results
variable {ε α β : Type} {outcome : α → Except ε β}

end Results

namespace Attempt
variable {α : Type} {attempts : List (Attempt α)}

end Attempt

namespace Json

/-- One step into a value, as into a template of its shape. -/
def step? (v : Json) : Template.Key → Option Json
  | .field name =>
    match v with
    | .object fields => fields.lookup name
    | _ => none
  | .item index =>
    match v with
    | .array items => items[index]?
    | _ => none

end Json

namespace Template

end Template

namespace RowReader
variable {r : RowReader} {row : Row}

end RowReader
end QueryViews
