import QueryViews.Json.Reading
import QueryViews.Settings.Basic

/-! Settings as JSON. Whatever is left out keeps its default. -/

namespace QueryViews

def JoinPolicy.name : JoinPolicy → String
  | .strict => "strict"
  | .relaxed => "relaxed"

namespace Settings
open Json (Mismatch Reading)

def policyKey : String := "inner_join_policy"
def tableKey : String := "table_alias_prefix"
def columnKey : String := "column_alias_prefix"

def readPolicy : Reading JoinPolicy :=
  Reading.choice ([JoinPolicy.strict, .relaxed].map fun policy => (policy.name, policy))

def readField (s : Settings) (field : String × Json) : Except Mismatch Settings := do
  if field.1 = policyKey then return { s with joinPolicy := ← readPolicy field.2 }
  else if field.1 = tableKey then return { s with tableStem := ← Reading.text field.2 }
  else if field.1 = columnKey then return { s with columnStem := ← Reading.text field.2 }
  else return s

/-- The settings in an array: at most all three, in this order. -/
def readItems (items : List Json) : Except Mismatch Settings := do
  let s ← (List.zip [policyKey, tableKey, columnKey] items).foldlM readField {}
  Reading.exhausted items (items.drop 3)
  return s

def read : Reading Settings
  | .object fields => fields.foldlM readField {}
  | .array items => readItems items
  | found => .error (.wrongType found "struct CompilerConfig")

def toJson (s : Settings) : Json :=
  .ofFields [(policyKey, .string s.joinPolicy.name), (tableKey, .string s.tableStem),
    (columnKey, .string s.columnStem)]

end Settings
end QueryViews
