import QueryViews.Column
import QueryViews.Fields

/-! Shapes of result rows: columns in nested lists and records. Decoded rows come back in the
shape of their template. -/

namespace QueryViews

inductive Template where
  | column (c : Column)
  | list (items : List Template)
  | record {keys : List String} (fields : Fields Template keys)

namespace Template

/-- A record in which a repeated key keeps its first place and takes its last value. -/
def ofFields (entries : List (String × Template)) : Template :=
  .record (.ofList (Fields.settle entries) (Fields.nodup_settle entries))

def field? (t : Template) (key : String) : Option Template :=
  match t with
  | .record fields => fields.lookup key
  | .column _ | .list _ => none

def item? (t : Template) (index : Nat) : Option Template :=
  match t with
  | .list items => items[index]?
  | .column _ | .record _ => none

def asColumn? : Template → Option Column
  | .column c => some c
  | .list _ | .record _ => none

/-- One step into a template. -/
inductive Key where
  | field (name : String)
  | item (index : Nat)
deriving DecidableEq, Repr

def step? (t : Template) : Key → Option Template
  | .field name => t.field? name
  | .item index => t.item? index

def Key.missing : Key → String
  | .field name => "template has no field `" ++ name ++ "`"
  | .item index => "template has no item " ++ toString index

/-- Follows a path; fails with the first key that is not there. -/
def follow (t : Template) (path : List Key) : Except Key Template :=
  path.foldlM (fun t key => (t.step? key).elim (.error key) .ok) t

mutual

/-- The columns, depth first and in the order they are declared. -/
def columns : Template → List Column
  | .column c => [c]
  | .list items => columnsOfItems items
  | .record fields => columnsOfFields fields

def columnsOfItems : List Template → List Column
  | [] => []
  | t :: rest => t.columns ++ columnsOfItems rest

def columnsOfFields {keys : List String} : Fields Template keys → List Column
  | .nil => []
  | .cons _ t rest _ => t.columns ++ columnsOfFields rest

end

/-- The distinct tokens, in the order of their first columns. -/
def tokens (t : Template) : List Token := Token.distinct (t.columns.map Column.token)

def tokenSet (t : Template) : TokenSet := .ofList (t.columns.map Column.token)

def scope (t : Template) : Scope := .ofList (t.columns.map fun c => c.token.id)

mutual

def modifyColumns (f : Column → Column) : Template → Template
  | .column c => .column (f c)
  | .list items => .list (modifyItems f items)
  | .record fields => .record (modifyFields f fields)

def modifyItems (f : Column → Column) : List Template → List Template
  | [] => []
  | t :: rest => t.modifyColumns f :: modifyItems f rest

def modifyFields (f : Column → Column) {keys : List String} :
    Fields Template keys → Fields Template keys
  | .nil => .nil
  | .cons key t rest fresh => .cons key (t.modifyColumns f) (modifyFields f rest) fresh

end

def widen (t : Template) (nullable : Bool) : Template := t.modifyColumns (Column.widen · nullable)

/-- All columns as one list of expressions. -/
def toFragment (t : Template) : Fragment := Fragment.join ", " (t.columns.map Column.toFragment)

/-- A column as its expression, anything else as a nested list of expressions. -/
def toSegment : Template → Segment
  | .column c => c.token.toSegment
  | t => .nested t.toFragment

mutual

/-- Rebuilds the shape from values in the order of the columns, and returns the values left. A
value that is missing is null. -/
def refill : Template → List Json → Json × List Json
  | .column _, values => (values.headD .null, values.tail)
  | .list items, values =>
    let (filled, rest) := refillItems items values
    (.array filled, rest)
  | .record fields, values =>
    let (filled, rest) := refillFields fields values
    (.ofFields filled, rest)

def refillItems : List Template → List Json → List Json × List Json
  | [], values => ([], values)
  | t :: templates, values =>
    let (filled, rest) := t.refill values
    let (others, rest) := refillItems templates rest
    (filled :: others, rest)

def refillFields {keys : List String} :
    Fields Template keys → List Json → List (String × Json) × List Json
  | .nil, values => ([], values)
  | .cons key t fields _, values =>
    let (filled, rest) := t.refill values
    let (others, rest) := refillFields fields rest
    ((key, filled) :: others, rest)

end
end Template
end QueryViews
