/-! What can be wrong with a JSON text, and where. -/

namespace QueryViews.Json

inductive ReadFault where
  | endInValue
  | endInArray
  | endInObject
  | endInString
  | expectedValue
  | misspelledWord
  | trailingText
  | trailingComma
  | expectedArrayEnd
  | expectedObjectEnd
  | expectedColon
  | keyNotString
  | malformedNumber
  | numberTooLarge
  | unknownEscape
  | controlCharacter
  | unpairedSurrogate
  | loneSurrogate
  | nestedTooDeep
deriving DecidableEq, Repr

def ReadFault.message : ReadFault → String
  | .endInValue => "EOF while parsing a value"
  | .endInArray => "EOF while parsing a list"
  | .endInObject => "EOF while parsing an object"
  | .endInString => "EOF while parsing a string"
  | .expectedValue => "expected value"
  | .misspelledWord => "expected ident"
  | .trailingText => "trailing characters"
  | .trailingComma => "trailing comma"
  | .expectedArrayEnd => "expected `,` or `]`"
  | .expectedObjectEnd => "expected `,` or `\x7d`"
  | .expectedColon => "expected `:`"
  | .keyNotString => "key must be a string"
  | .malformedNumber => "invalid number"
  | .numberTooLarge => "number out of range"
  | .unknownEscape => "invalid escape"
  | .controlCharacter => "control character (\\u0000-\\u001F) found while parsing a string"
  | .unpairedSurrogate => "unexpected end of hex escape"
  | .loneSurrogate => "lone leading surrogate in hex escape"
  | .nestedTooDeep => "recursion limit exceeded"

/-- A fault, and the number of bytes of the text up to and including the one at fault. -/
structure ReadError where
  fault : ReadFault
  bytes : Nat
deriving DecidableEq, Repr

/-- Line and column reached after some bytes of a text, from a line and column on. A line break
is the last byte of its line and leads to column zero of the next. -/
def positionAfter (line column bytes : Nat) : List Char → Nat × Nat
  | [] => (line, column)
  | c :: rest =>
    if bytes = 0 then (line, column)
    else if c = '\n' then positionAfter (line + 1) 0 (bytes - 1) rest
    else
      let width := min bytes c.utf8Size
      positionAfter line (column + width) (bytes - width) rest

def ReadError.message (e : ReadError) (text : String) : String :=
  let (line, column) := positionAfter 1 0 e.bytes text.toList
  e.fault.message ++ " at line " ++ toString line ++ " column " ++ toString column

/-- The rest of a text, and the number of bytes before it. -/
structure Cursor where
  rest : List Char
  bytes : Nat

namespace Cursor

/-- The bytes that characters take up. -/
def width : List Char → Nat
  | [] => 0
  | c :: rest => c.utf8Size + width rest

/-- Past characters that stand at the cursor. -/
def advance (c : Cursor) (taken : List Char) : Cursor :=
  ⟨c.rest.drop taken.length, c.bytes + width taken⟩

/-- Past the next character. -/
def next (c : Cursor) : Cursor := c.advance (c.rest.take 1)

def isBlank (c : Char) : Bool := c == ' ' || c == '\n' || c == '\t' || c == '\r'

def skipBlanks (c : Cursor) : Cursor := c.advance (c.rest.takeWhile isBlank)

/-- A fault at the next byte, or at the end of the text. -/
def fail {α : Type} (c : Cursor) (fault : ReadFault) : Except ReadError α :=
  .error ⟨fault, if c.rest.isEmpty then c.bytes else c.bytes + 1⟩

/-- A fault in what was read up to here. -/
def failBefore {α : Type} (c : Cursor) (fault : ReadFault) : Except ReadError α :=
  .error ⟨fault, c.bytes⟩

end Cursor
end QueryViews.Json
