import QueryViews.Fragment.Redirects
import QueryViews.Select.ClauseSet
import QueryViews.Select.SortKey
import QueryViews.Text.Number

/-! SELECT bodies and statements. The conditions and keys of a body keep their tokens until the
body becomes a statement; a statement is fully expanded. -/

namespace QueryViews

inductive JoinKind where
  | left
  | inner
deriving DecidableEq, Repr

/-- An expression of a select list and the name it is selected under. -/
structure OutputColumn where
  expr : Fragment
  name : String

mutual

inductive Source where
  | table (text : Fragment) (id : Alias)
  | subquery (statement : Statement) (id : Alias)

structure JoinClause where
  kind : JoinKind
  source : Source
  condition : Fragment

structure Body where
  source : Source
  joins : List JoinClause
  filters : List Fragment
  keys : List Fragment
  /-- Set by an aggregation even if it has no keys. -/
  grouped : Bool
  having : List Fragment
  order : List OrderItem
  skip : Nat
  take : Option Nat

structure Statement where
  columns : List OutputColumn
  body : Body

end

def Source.id : Source → Alias
  | .table _ id | .subquery _ id => id

def Source.isSubquery : Source → Bool
  | .table _ _ => false
  | .subquery _ _ => true

/-- The sum of two row counts in a 64-bit register, which drops the carry. -/
def addCounts (m n : Nat) : Nat := (m + n) % Text.registerBound

namespace Body

def ofSource (source : Source) : Body where
  source := source
  joins := []
  filters := []
  keys := []
  grouped := false
  having := []
  order := []
  skip := 0
  take := none

def ofTable (text : Fragment) (id : Alias) : Body := ofSource (.table text id)

/-- The clauses the body carries. -/
def state (b : Body) : ClauseSet where
  leftJoin := b.joins.any (·.kind == .left)
  innerJoin := b.joins.any (·.kind == .inner)
  filter := !b.filters.isEmpty
  group := b.grouped || !b.keys.isEmpty
  having := !b.having.isEmpty
  order := !b.order.isEmpty
  skip := 0 < b.skip
  take := b.take.isSome

/-- A condition on rows, or on groups once the body is grouped. -/
def addCondition (b : Body) (condition : Fragment) : Body :=
  if b.grouped then { b with having := b.having ++ [condition] }
  else { b with filters := b.filters ++ [condition] }

/-- New order items take precedence over the ones before. -/
def addOrder (b : Body) (items : List OrderItem) : Body := { b with order := items ++ b.order }

def addTake (b : Body) (count : Nat) : Body :=
  { b with take := some ((b.take.map (min · count)).getD count) }

/-- Skipping rows of a window also shortens it. -/
def addSkip (b : Body) (count : Nat) : Body :=
  { b with skip := addCounts b.skip count, take := b.take.map (· - count) }

def groupBy (b : Body) (keys : List Fragment) : Body := { b with keys := keys, grouped := true }

def addJoin (b : Body) (kind : JoinKind) (source : Source) (condition : Fragment) : Body :=
  { b with joins := b.joins ++ [⟨kind, source, condition⟩] }

end Body

/-- A subquery was expanded when it was made. -/
def Source.expanded (r : Redirects) : Source → Source
  | .table text id => .table (r.expand text) id
  | .subquery statement id => .subquery statement id

def JoinClause.expanded (r : Redirects) (j : JoinClause) : JoinClause :=
  { j with source := j.source.expanded r, condition := r.expand j.condition }

/-- The body with every token replaced by what it currently stands for. -/
def Body.expanded (r : Redirects) (b : Body) : Body :=
  { b with
    source := b.source.expanded r
    joins := b.joins.map (JoinClause.expanded r)
    filters := b.filters.map r.expand
    keys := b.keys.map r.expand
    having := b.having.map r.expand
    order := b.order.map (SortKey.map r.expand) }

end QueryViews
