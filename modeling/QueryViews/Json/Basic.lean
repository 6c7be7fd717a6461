/-! JSON values. A number is a whole number of the 64-bit range or a binary64 float, and the
fields of an object are kept in ascending order of their keys, one for each key. -/

namespace QueryViews

inductive Json where
  | null
  | bool (value : Bool)
  | whole (value : Int)
  | float (value : Float)
  | string (value : String)
  | array (items : List Json)
  | object (fields : List (String × Json))
deriving Inhabited

namespace Json

/-- The least and the first too large integer that stay integers. -/
def wholeMin : Int := -0x8000000000000000
def wholeBound : Int := 0x10000000000000000

/-- JSON has no spelling for infinities and for results that are not a number. -/
def ofFloat (x : Float) : Json := if x.isFinite then .float x else .null

/-- Puts a field at its place, over an earlier field of the same key. -/
def placeField (key : String) (value : Json) : List (String × Json) → List (String × Json)
  | [] => [(key, value)]
  | (k, v) :: rest =>
    if key < k then (key, value) :: (k, v) :: rest
    else if key = k then (key, value) :: rest
    else (k, v) :: placeField key value rest

/-- The object with these fields; of several with one key the last counts. -/
def ofFields (fields : List (String × Json)) : Json :=
  .object (fields.foldl (fun placed field => placeField field.1 field.2 placed) [])

def isNull : Json → Bool
  | .null => true
  | _ => false

end Json

end QueryViews
