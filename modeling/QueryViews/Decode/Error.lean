import QueryViews.Json.Printer
import QueryViews.Json.ReadError

/-! What can go wrong while raw rows are turned into values. -/

namespace QueryViews

/-- Why a value is not what a format expects. -/
inductive FormatFault where
  | notZeroOrOne
  | notBoolean
  | notInteger
  | outOfRange
  | emptyInteger
  | invalidDigit
  | integerTooLarge
  | integerTooSmall
  | notFloat
  | emptyFloat
  | invalidFloat
  | notScalar
  | notTimestamp
  | notJson (error : Json.ReadError)
  | custom (message : String)

inductive DecodeError where
  | emptyAggregate
  | unexpectedNull (column : String)
  | missingColumn (column : String)
  | format (value : Json) (fault : FormatFault)
  | unreadable (message : String)

/-- The wording of a fault in a value. -/
def FormatFault.message (value : Json) : FormatFault → String
  | .notZeroOrOne => "expected 0 or 1"
  | .notBoolean => "not a boolean"
  | .notInteger => "not an integer"
  | .outOfRange => "out of range"
  | .emptyInteger => "cannot parse integer from empty string"
  | .invalidDigit => "invalid digit found in string"
  | .integerTooLarge => "number too large to fit in target type"
  | .integerTooSmall => "number too small to fit in target type"
  | .notFloat => "not a float"
  | .emptyFloat => "cannot parse float from empty string"
  | .invalidFloat => "invalid float literal"
  | .notScalar => "not a scalar"
  | .notTimestamp => "not a timestamp"
  | .notJson error =>
    match value with
    | .string text => error.message text
    | _ => error.fault.message
  | .custom message => message

def DecodeError.message : DecodeError → String
  | .emptyAggregate => "aggregate query returned no rows"
  | .unexpectedNull column => "column `" ++ column ++ "` is not nullable but the row holds NULL"
  | .missingColumn column => "column `" ++ column ++ "` is missing from the row"
  | .format value fault => "cannot format " ++ value.compact ++ ": " ++ fault.message value
  | .unreadable message => "cannot deserialize row: " ++ message

end QueryViews
