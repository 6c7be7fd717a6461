import QueryViews.Proofs.Meaning.StableSort
import QueryViews.Proofs.Steps
import QueryViews.Select.Body

/-! Meaning of statements over one source: filter the rows of the source, sort them stably, cut
out the window, and evaluate the select list. What SQL expressions mean is left open; all that
is asked is that a column has its own value and that sort keys can be compared. -/

namespace QueryViews

/-- A piece of an expression, with values in place of columns and of known tokens. -/
inductive Piece (V : Type) where
  | verbatim (text : String)
  | param (value : Json)
  | value (v : V)

structure Interpretation (V : Type) where
  value : List (Piece V) → V
  value_single : ∀ v, value [.value v] = v
  /-- Whether a condition with this value keeps its row. -/
  holds : V → Bool
  /-- The value of a column that is not there. -/
  null : V
  precedes : Direction → Option NullPlacement → V → V → Bool
  ordered : ∀ direction nulls, TotalPreorder (precedes direction nulls)

/-- A row of a table or of a subquery, by column name. -/
abbrev Record (V : Type) := String → V

/-- A row of a view, by token. -/
abbrev TokenRow (V : Type) := TokenId → Option V

section
variable {V : Type}

mutual

/-- The pieces of a segment; a token that is not known is written out. -/
def Segment.pieces (known : TokenRow V) (columns : Alias → Record V) : Segment → List (Piece V)
  | .token id definition =>
    match known id with
    | some v => [.value v]
    | none => Fragment.pieces known columns definition
  | .nested inner => Fragment.pieces known columns inner
  | .verbatim text => [.verbatim text]
  | .column source name => [.value (columns source name)]
  | .param value => [.param value]

def Fragment.pieces (known : TokenRow V) (columns : Alias → Record V) : Fragment → List (Piece V)
  | [] => []
  | segment :: rest => segment.pieces known columns ++ Fragment.pieces known columns rest

end

namespace Interpretation
variable (I : Interpretation V)

/-- The columns of one source. -/
def reading (source : Alias) (record : Record V) : Alias → Record V := fun other name =>
  if other = source then record name else I.null

/-- The value of an expression on a record of one source, all tokens written out. -/
def eval (source : Alias) (f : Fragment) (record : Record V) : V :=
  I.value (f.pieces (fun _ => none) (I.reading source record))

/-- The value of an expression on a row of a view. -/
def evalRow (f : Fragment) (row : TokenRow V) : V :=
  I.value (f.pieces row fun _ _ => I.null)

/-- Putting in the values of tokens that are known comes to the same as writing them out. -/
def Inlines (f : Fragment) : Prop :=
  ∀ (columns : Alias → Record V) (known : TokenRow V),
    f.AllTokens (fun t => ∀ v, known t.id = some v →
      v = I.value (t.definition.pieces (fun _ => none) columns)) →
    I.value (f.pieces known columns) = I.value (f.pieces (fun _ => none) columns)

/-- Rows compared by the first key, ties by the keys after it. -/
def rowPrecedes {R : Type} (eval : Fragment → R → V) : List OrderItem → R → R → Bool
  | [] => fun _ _ => true
  | item :: rest => lexicographic
      (fun a b => I.precedes item.direction item.nulls (eval item.expr a) (eval item.expr b))
      (rowPrecedes eval rest)

end Interpretation

namespace Body

/-- The part of the rows that lies in the window of the body. -/
def window {R : Type} (b : Body) (rows : List R) : List R :=
  match b.take with
  | some count => (rows.drop b.skip).take count
  | none => rows.drop b.skip

/-- The rows that the body keeps of those of its source, in their order. -/
def select {R : Type} (I : Interpretation V) (eval : Fragment → R → V) (b : Body) (rows : List R) :
    List R :=
  let kept := rows.filter fun row => b.filters.all fun f => I.holds (eval f row)
  b.window (kept.mergeSort (I.rowPrecedes eval b.order))

/-- No join and no aggregation. -/
def isPlain (b : Body) : Bool :=
  b.joins.isEmpty && b.keys.isEmpty && !b.grouped && b.having.isEmpty

end Body

/-- The record of a select list. -/
def Interpretation.output (I : Interpretation V) (source : Alias) (columns : List OutputColumn)
    (record : Record V) : Record V := fun name =>
  ((columns.map fun c => (c.name, I.eval source c.expr record)).lookup name).getD I.null

mutual

def Source.records? (I : Interpretation V) (contents : Fragment → List (Record V)) :
    Source → Option (List (Record V))
  | .table text _ => some (contents text)
  | .subquery statement _ => statement.records? I contents

/-- The records a statement gives over tables with these contents; none if it joins or groups. -/
def Statement.records? (I : Interpretation V) (contents : Fragment → List (Record V)) :
    Statement → Option (List (Record V))
  | ⟨columns, ⟨source, joins, filters, keys, grouped, having, order, skip, take⟩⟩ =>
    let body : Body := ⟨source, joins, filters, keys, grouped, having, order, skip, take⟩
    if body.isPlain then
      (source.records? I contents).map fun records =>
        (body.select I (I.eval source.id) records).map (I.output source.id columns)
    else none

end

theorem Statement.records?_eq (I : Interpretation V) (contents : Fragment → List (Record V))
    (s : Statement) :
    s.records? I contents =
      if s.body.isPlain then
        (s.body.source.records? I contents).map fun records =>
          (s.body.select I (I.eval s.body.source.id) records).map
            (I.output s.body.source.id s.columns)
      else none := by
  obtain ⟨columns, source, joins, filters, keys, grouped, having, order, skip, take⟩ := s
  rfl

/-- The row of a template's tokens, given the value of each of its columns. -/
def Template.row (t : Template) (value : Column → V) : TokenRow V := fun id =>
  (t.columns.find? fun c => c.token.id = id).map value

namespace Step

/-- The rows that a step keeps of those before it, in their order. -/
def keep {R : Type} (I : Interpretation V) (eval : Fragment → R → V) (rows : List R) :
    Step → List R
  | .filter condition => rows.filter fun row => I.holds (eval condition row)
  | .order items => rows.mergeSort (I.rowPrecedes eval items)
  | .take count => rows.take count
  | .skip count => rows.drop count
  | .project _ | .bracket _ | .group _ _ => rows

/-- What a step makes of the rows of a view; none if it groups them. -/
def rows? (I : Interpretation V) (rows : List (TokenRow V)) (s : Step) :
    Option (List (TokenRow V)) :=
  match s with
  | .group _ _ => none
  | .project template =>
    some (rows.map fun row => template.row fun c => I.evalRow c.toFragment row)
  | _ => some (s.keep I I.evalRow rows)

end Step
end
end QueryViews
