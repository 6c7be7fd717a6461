import QueryViews.Build
import QueryViews.View.Basic
import QueryViews.View.Frontier

/-! Building a SELECT body for a view. Needs travel down: each step asks its input only for the
tokens that are read above it, in terms of what the input holds. -/

namespace QueryViews

def JoinMode.kind : JoinMode → JoinKind
  | .left | .lazy => .left
  | .inner => .inner

/-- What forces the base of a join into a subquery; its order is taken over by the join. -/
def JoinMode.blockersOfBase : ClauseSet := .aggregate

/-- What forces the joined side into a subquery. Conditions and joins of a side that may be
missing have to stay on that side. -/
def JoinMode.blockersOfExtra : JoinMode → JoinPolicy → ClauseSet
  | .left, _ | .lazy, _ | .inner, .strict => .all
  | .inner, .relaxed => .afterRows

/-- Adds a bracketed side to the body of the other one. -/
def Body.join (base extra : Body) (kind : JoinKind) (condition : Fragment) : Body :=
  let joined := base.addJoin kind extra.source condition
  { joined with
    joins := joined.joins ++ extra.joins
    filters := joined.filters ++ extra.filters
    keys := []
    grouped := false
    having := [] }

namespace View

/-- The body that gives the rows of a view, with at least the tokens in `used`; an order that
nobody can observe is left out. -/
def body : View → TokenSet → Bool → Building Body
  | .table text id _, _, _ => return .ofTable ((← get).redirects.expand text) id
  | .filter input condition, used, observed => do
    let needs := (used.insertAll condition.tokens).narrow input.scope
    let b ← input.body needs observed
    let b ← Building.bracketOn Clause.filter.blockers b needs
    return b.addCondition condition
  | .project input _, used, observed => input.body (used.narrow input.scope) observed
  | .order input items, used, observed =>
    if observed then do
      let needs := (used.insertAll (items.flatMap (·.expr.tokens))).narrow input.scope
      let b ← input.body needs observed
      let b ← Building.bracketOn Clause.order.blockers b needs
      return b.addOrder items
    else input.body (used.narrow input.scope) observed
  -- which rows a window holds depends on the order of the rows below it
  | .take input count, used, _ => do
    let b ← input.body (used.narrow input.scope) true
    return b.addTake count
  | .skip input count, used, _ => do
    let b ← input.body (used.narrow input.scope) true
    return b.addSkip count
  | .bracket input point, used, observed => do
    let needs := used.narrow input.scope
    let b ← input.body needs observed
    if ← Building.decide point.label b.state (point.applies b.state) then
      Building.bracket b needs
    else return b
  | .group input keys _, used, observed => do
    -- every key takes part in the grouping, selected or not
    let needs := (used.insertAll keys.tokens).narrow input.scope
    let b ← input.body needs observed
    let b ← Building.bracketOn Clause.group.blockers b needs
    return b.groupBy (keys.tokens.map Token.toFragment)
  | .join base extra mode withNull condition, used, observed => do
    let fromBase := used.narrow base.scope
    let fromExtra := used.narrow extra.scope
    if mode = .lazy ∧ fromExtra.isEmpty then base.body fromBase observed
    else if mode = .lazy ∧ !withNull ∧ !observed ∧ fromBase.isEmpty then
      extra.body fromExtra observed
    else do
      let read : TokenSet := .ofList condition.tokens
      let baseNeeds := fromBase.union (read.narrow base.scope)
      let extraNeeds := fromExtra.union (read.narrow extra.scope)
      let b ← base.body baseNeeds observed
      let x ← extra.body extraNeeds false
      let b ← Building.bracketOn JoinMode.blockersOfBase b baseNeeds
      let policy := (← get).settings.joinPolicy
      let x ← Building.bracketOn (mode.blockersOfExtra policy) x extraNeeds
      return b.join x mode.kind condition

end View
end QueryViews
