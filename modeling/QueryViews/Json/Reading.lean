import QueryViews.Json.Printer
import QueryViews.Text.Quoted

/-! Reading values of a known type out of JSON values. -/

namespace QueryViews.Json

/-- What keeps a JSON value from being read as a type. -/
inductive Mismatch where
  | wrongType (found : Json) (expected : String)
  | wrongNumber (found : Int) (expected : String)
  | notSingleKey
  | wrongLength (length : Nat) (expected : String)
  | missingField (name : String)
  | unknownVariant (name : String) (known : List String)

/-- The kind of a value, and the value itself if it is short. -/
def kind : Json → String
  | .null => "null"
  | .bool value => "boolean `" ++ (if value then "true" else "false") ++ "`"
  | .whole value => "integer `" ++ toString value ++ "`"
  | .float value => "floating point `" ++ floatText value ++ "`"
  | .string value => "string " ++ Text.quoted value
  | .array _ => "sequence"
  | .object _ => "map"

def Mismatch.message : Mismatch → String
  | .wrongType found expected => "invalid type: " ++ found.kind ++ ", expected " ++ expected
  | .wrongNumber found expected =>
    "invalid value: integer `" ++ toString found ++ "`, expected " ++ expected
  | .notSingleKey => "invalid value: map, expected map with a single key"
  | .wrongLength length expected =>
    "invalid length " ++ toString length ++ ", expected " ++ expected
  | .missingField name => "missing field `" ++ name ++ "`"
  | .unknownVariant name known =>
    "unknown variant `" ++ name ++ "`, expected "
      ++ " or ".intercalate (known.map fun variant => "`" ++ variant ++ "`")

abbrev Reading (α : Type) := Json → Except Mismatch α

namespace Reading
variable {α β γ : Type}

/-- An integer from `low` up to below `bound`, of the type with this name. -/
def integer (type : String) (low bound : Int) : Reading Int
  | .whole value =>
    if low ≤ value ∧ value < bound then .ok value else .error (.wrongNumber value type)
  | found => .error (.wrongType found type)

def text : Reading String
  | .string value => .ok value
  | found => .error (.wrongType found "a string")

def unit : Reading Unit
  | .null => .ok ()
  | found => .error (.wrongType found "unit")

/-- Null stands for nothing. -/
def optional (read : Reading α) : Reading (Option α)
  | .null => .ok none
  | found => some <$> read found

/-- Refuses items beyond those that were read. -/
def exhausted (items left : List Json) : Except Mismatch Unit :=
  if left.isEmpty then .ok () else .error (.wrongLength items.length "fewer elements in array")

/-- Two items in a row, named by `expected` when there are less. -/
def twoItems (expected : String) (first : Reading α) (second : Reading β) (items : List Json) :
    Except Mismatch (α × β) :=
  match items with
  | [] => .error (.wrongLength 0 expected)
  | x :: rest => do
    let a ← first x
    match rest with
    | [] => .error (.wrongLength 1 expected)
    | y :: left => do
      let b ← second y
      exhausted items left
      return (a, b)

def pair (first : Reading α) (second : Reading β) : Reading (α × β)
  | .array items => twoItems "a tuple of size 2" first second items
  | found => .error (.wrongType found "a tuple of size 2")

/-- The named fields of an object, whose entries are read in their order; other fields do not
matter. -/
def twoFields (first : String × Reading α) (second : String × Reading β)
    (fields : List (String × Json)) : Except Mismatch (α × β) := do
  let visit (found : Option α × Option β) (field : String × Json) :
      Except Mismatch (Option α × Option β) := do
    if field.1 = first.1 then return (some (← first.2 field.2), found.2)
    else if field.1 = second.1 then return (found.1, some (← second.2 field.2))
    else return found
  match ← fields.foldlM visit (none, none) with
  | (some a, some b) => return (a, b)
  | (none, _) => throw (.missingField first.1)
  | (_, none) => throw (.missingField second.1)

/-- A record of two fields, from an object or from an array of its fields in their order. -/
def record (type : String) (first : String × Reading α) (second : String × Reading β)
    (make : α → β → γ) : Reading γ
  | .object fields => do
    let (a, b) ← twoFields first second fields
    return make a b
  | .array items => do
    let (a, b) ← twoItems (type ++ " with 2 elements") first.2 second.2 items
    return make a b
  | found => .error (.wrongType found type)

/-- One of several named choices, written as its name or as an object with that one key and
null. -/
def choice (known : List (String × α)) : Reading α
  | .string name => named name
  | .object [(name, payload)] => do
    let value ← named name
    unit payload
    return value
  | .object _ => .error .notSingleKey
  | found => .error (.wrongType found "string or map")
where
  named (name : String) : Except Mismatch α :=
    match known.lookup name with
    | some value => .ok value
    | none => .error (.unknownVariant name (known.map Prod.fst))

end Reading
end QueryViews.Json
