import QueryViews.Decimal.Layout
import QueryViews.Json.Basic

/-! The compact text of a JSON value: no blanks, fields in their order, and only quotes,
backslashes and control characters escaped. -/

namespace QueryViews.Json

/-- Exponents from -4 to 16 are written positionally. -/
def floatLayout : Decimal.Layout := ⟨-5, 16⟩

def floatText (x : Float) : String :=
  let b := Binary64.ofFloat x
  let magnitude := Decimal.layOut floatLayout (Decimal.shortest b)
  String.ofList (if b.negative then '-' :: magnitude else magnitude)

def hexDigit (n : Nat) : Char := (Nat.toDigits 16 n).getLast?.getD '0'

def escapeChar (c : Char) : List Char :=
  if c = '"' then ['\\', '"']
  else if c = '\\' then ['\\', '\\']
  else if c = '\x08' then ['\\', 'b']
  else if c = '\x0c' then ['\\', 'f']
  else if c = '\n' then ['\\', 'n']
  else if c = '\r' then ['\\', 'r']
  else if c = '\t' then ['\\', 't']
  else if c.toNat < 0x20 then
    ['\\', 'u', '0', '0', hexDigit (c.toNat / 16), hexDigit (c.toNat % 16)]
  else [c]

def stringText (s : String) : String :=
  "\"" ++ String.ofList (s.toList.flatMap escapeChar) ++ "\""

mutual

def compact : Json → String
  | .null => "null"
  | .bool value => if value then "true" else "false"
  | .whole value => toString value
  | .float value => floatText value
  | .string value => stringText value
  | .array items => "[" ++ ",".intercalate (compactItems items) ++ "]"
  | .object fields => "\x7b" ++ ",".intercalate (compactFields fields) ++ "\x7d"

def compactItems : List Json → List String
  | [] => []
  | item :: rest => compact item :: compactItems rest

def compactFields : List (String × Json) → List String
  | [] => []
  | (key, value) :: rest => (stringText key ++ ":" ++ compact value) :: compactFields rest

end
end QueryViews.Json
