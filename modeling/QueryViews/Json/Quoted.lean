import QueryViews.Json.ReadError

/-! JSON strings: escapes, and code points beyond the basic plane as pairs of surrogates. -/

namespace QueryViews.Json

def hexValue? (c : Char) : Option Nat :=
  if c.isDigit then some (c.toNat - '0'.toNat)
  else if 'a' ≤ c ∧ c ≤ 'f' then some (c.toNat - 'a'.toNat + 10)
  else if 'A' ≤ c ∧ c ≤ 'F' then some (c.toNat - 'A'.toNat + 10)
  else none

/-- The value of four hexadecimal digits in a row. -/
def fourHex? : List Char → Option Nat
  | a :: b :: c :: d :: _ => do
    return ((← hexValue? a) * 16 + (← hexValue? b)) * 256 + (← hexValue? c) * 16 + (← hexValue? d)
  | _ => none

/-- The code unit written by the next four bytes. -/
def readUnit (c : Cursor) : Except ReadError (Nat × Cursor) :=
  match fourHex? c.rest with
  | some unit => .ok (unit, c.advance (c.rest.take 4))
  | none =>
    let left := Cursor.width (c.rest.take 4)
    if left < 4 then .error ⟨.endInString, c.bytes + left⟩
    else .error ⟨.unknownEscape, c.bytes + 4⟩

def isHighSurrogate (unit : Nat) : Bool := 0xD800 ≤ unit && unit < 0xDC00

def isLowSurrogate (unit : Nat) : Bool := 0xDC00 ≤ unit && unit < 0xE000

/-- Past a character that the second half of a pair must have here. -/
def expectInPair (expected : Char) (c : Cursor) : Except ReadError Cursor :=
  match c.rest with
  | [] => c.fail .endInString
  | found :: _ => if found = expected then .ok c.next else c.fail .unpairedSurrogate

/-- The character of a numeric escape, from behind its letter on. -/
def readCodePoint (c : Cursor) : Except ReadError (Char × Cursor) := do
  let (unit, c) ← readUnit c
  if isLowSurrogate unit then c.failBefore .loneSurrogate
  else if isHighSurrogate unit then
    let (low, c) ← readUnit (← expectInPair 'u' (← expectInPair '\\' c))
    if isLowSurrogate low then
      return (Char.ofNat (0x10000 + (unit - 0xD800) * 0x400 + (low - 0xDC00)), c)
    else c.failBefore .loneSurrogate
  else return (Char.ofNat unit, c)

/-- The character of an escape, from behind its backslash on. -/
def readEscape (c : Cursor) : Except ReadError (Char × Cursor) :=
  match c.rest with
  | [] => c.fail .endInString
  | letter :: _ =>
    match letter with
    | '"' | '\\' | '/' => .ok (letter, c.next)
    | 'b' => .ok ('\x08', c.next)
    | 'f' => .ok ('\x0c', c.next)
    | 'n' => .ok ('\n', c.next)
    | 'r' => .ok ('\r', c.next)
    | 't' => .ok ('\t', c.next)
    | 'u' => readCodePoint c.next
    | _ => c.fail .unknownEscape

/-- The rest of a string behind characters already read, given backwards. It has no more
characters than the list after them. -/
def readStringFrom (read : List Char) : List Char → Cursor → Except ReadError (String × Cursor)
  | [], c => c.fail .endInString
  | _ :: bound, c =>
    match c.rest with
    | [] => c.fail .endInString
    | '"' :: _ => .ok (String.ofList read.reverse, c.next)
    | '\\' :: _ => do
      let (escaped, c) ← readEscape c.next
      readStringFrom (escaped :: read) bound c
    | plain :: _ =>
      if plain.toNat < 0x20 then c.fail .controlCharacter
      else readStringFrom (plain :: read) bound c.next

/-- A string, from behind its opening quote on. -/
def readString (c : Cursor) : Except ReadError (String × Cursor) := readStringFrom [] c.rest c

end QueryViews.Json
