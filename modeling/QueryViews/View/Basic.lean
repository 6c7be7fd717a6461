import QueryViews.Select.Body
import QueryViews.Template

/-! Views: immutable descriptions of queries. A view is a table, a step on another view, or a
join of two views. -/

namespace QueryViews

inductive JoinMode where
  | left
  | inner
  /-- A left join that is only made if something further on reads the joined side. -/
  | lazy
deriving DecidableEq, Repr

/-- A point where a body becomes a subquery, depending on the clauses it carries by then. The
decisions of a point with a label are kept. -/
structure BracketPoint where
  label : Option String := none
  applies : ClauseSet → Bool

def BracketPoint.always : BracketPoint := { applies := fun _ => true }

inductive View where
  | table (text : Fragment) (id : Alias) (template : Template)
  | filter (input : View) (condition : Fragment)
  | join (base extra : View) (mode : JoinMode) (withNull : Bool) (condition : Fragment)
  | group (input : View) (keys content : Template)
  /-- Reshapes the rows only. -/
  | project (input : View) (template : Template)
  | order (input : View) (items : List OrderItem)
  | take (input : View) (count : Nat)
  | skip (input : View) (count : Nat)
  | bracket (input : View) (point : BracketPoint)

namespace View

/-- The shape of the view's rows. -/
def template : View → Template
  | .table _ _ template | .project _ template => template
  | .filter input _ | .order input _ | .take input _ | .skip input _ | .bracket input _ =>
    input.template
  | .join base extra _ withNull _ =>
    .record (.pair "base" base.template "extra" (extra.template.widen withNull) (by decide))
  | .group _ keys content => .record (.pair "keys" keys "content" content (by decide))

/-- The identities that further steps may refer to. -/
def scope (v : View) : Scope := v.template.scope

/-- The table definitions read anywhere in the view. -/
def sources : View → AscendingSet Alias
  | .table _ id _ => .singleton id
  | .filter input _ | .order input _ | .take input _ | .skip input _ | .bracket input _
  | .project input _ | .group input _ _ => input.sources
  | .join base extra _ _ _ => base.sources.union extra.sources

end View
end QueryViews
