import QueryViews.Json.Number
import QueryViews.Json.Quoted

/-! Reading of JSON texts. -/

namespace QueryViews.Json

/-- Arrays and objects may be open in one another to this depth at most. -/
def depthLimit : Nat := 127

/-- Past the letters of a word. -/
def readWord (value : Json) : List Char → Cursor → Except ReadError (Json × Cursor)
  | [], c => .ok (value, c)
  | expected :: letters, c =>
    match c.rest with
    | [] => c.fail .endInValue
    | found :: _ =>
      if found = expected then readWord value letters c.next else c.fail .misspelledWord

/-- Past the comma before a further item. -/
def readItemComma (c : Cursor) : Except ReadError Cursor :=
  match c.rest with
  | ',' :: _ =>
    let c := c.next.skipBlanks
    match c.rest with
    | [] => c.fail .endInValue
    | first :: _ => if first = ']' then c.fail .trailingComma else .ok c
  | _ => c.fail .expectedArrayEnd

/-- Past the comma before a further field. -/
def readFieldComma (c : Cursor) : Except ReadError Cursor :=
  match c.rest with
  | ',' :: _ =>
    let c := c.next.skipBlanks
    match c.rest with
    | [] => c.fail .endInValue
    | first :: _ => if first = '}' then c.fail .trailingComma else .ok c
  | _ => c.fail .expectedObjectEnd

/-- A key and the colon behind it. -/
def readKey (c : Cursor) : Except ReadError (String × Cursor) :=
  match c.rest with
  | '"' :: _ => do
    let (key, c) ← readString c.next
    let c := c.skipBlanks
    match c.rest with
    | [] => c.fail .endInObject
    | ':' :: _ => return (key, c.next)
    | _ => c.fail .expectedColon
  | _ => c.fail .keyNotString

mutual

/-- The value at the cursor, with `depth` more levels of nesting allowed; `fuel` bounds the
number of values and entries that can still follow. -/
def readValue (fuel depth : Nat) (c : Cursor) : Except ReadError (Json × Cursor) :=
  let c := c.skipBlanks
  match fuel, c.rest with
  | 0, _ | _, [] => c.fail .endInValue
  | fuel + 1, first :: _ =>
    match first with
    | 'n' => readWord .null ['u', 'l', 'l'] c.next
    | 't' => readWord (.bool true) ['r', 'u', 'e'] c.next
    | 'f' => readWord (.bool false) ['a', 'l', 's', 'e'] c.next
    | '-' => readNumber true c.next
    | '"' => do
      let (text, c) ← readString c.next
      return (.string text, c)
    | '[' =>
      match depth with
      | 0 => c.fail .nestedTooDeep
      | depth + 1 => do
        let (items, c) ← readItems fuel depth true c.next
        return (.array items, c)
    | '{' =>
      match depth with
      | 0 => c.fail .nestedTooDeep
      | depth + 1 => do
        let (fields, c) ← readFields fuel depth true c.next
        return (ofFields fields, c)
    | _ => if first.isDigit then readNumber false c else c.fail .expectedValue

/-- The items of an array up to its closing bracket; `opening` says that none was read yet. -/
def readItems (fuel depth : Nat) (opening : Bool) (c : Cursor) :
    Except ReadError (List Json × Cursor) :=
  let c := c.skipBlanks
  match fuel, c.rest with
  | 0, _ | _, [] => c.fail .endInArray
  | fuel + 1, first :: _ =>
    if first = ']' then .ok ([], c.next)
    else do
      let c ← if opening then .ok c else readItemComma c
      let (item, c) ← readValue fuel depth c
      let (items, c) ← readItems fuel depth false c
      return (item :: items, c)

/-- The fields of an object up to its closing brace, in the order they are written. -/
def readFields (fuel depth : Nat) (opening : Bool) (c : Cursor) :
    Except ReadError (List (String × Json) × Cursor) :=
  let c := c.skipBlanks
  match fuel, c.rest with
  | 0, _ | _, [] => c.fail .endInObject
  | fuel + 1, first :: _ =>
    if first = '}' then .ok ([], c.next)
    else do
      let c ← if opening then .ok c else readFieldComma c
      let (key, c) ← readKey c
      let (value, c) ← readValue fuel depth c
      let (fields, c) ← readFields fuel depth false c
      return ((key, value) :: fields, c)

end

/-- The value that a text denotes. -/
def read (text : String) : Except ReadError Json := do
  let characters := text.toList
  let (value, c) ← readValue (2 * characters.length + 2) depthLimit ⟨characters, 0⟩
  let c := c.skipBlanks
  if c.rest.isEmpty then return value else c.fail .trailingText

end QueryViews.Json
