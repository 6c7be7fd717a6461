import QueryViews.View.Basic
import QueryViews.View.Reach

/-! Putting views together. A step is accepted if all it refers to is in reach of the view it
is made on. -/

namespace QueryViews

/-- The columns declared for one table, each with one token for its name. -/
structure TableColumns where
  source : Alias
  tokens : List (String × Token) := []

/-- The column with this name, declared now if it is new. -/
def TableColumns.declare (name : String) (nullable : Bool) :
    StateT TableColumns Minting Column := do
  let columns ← get
  match columns.tokens.lookup name with
  | some token => return { token, nullable }
  | none =>
    let token ← Token.mint (Fragment.column columns.source name)
    set { columns with tokens := (name, token) :: columns.tokens }
    return { token, nullable }

namespace View

def keysContext : String := "group_by keys"

def filtered (v : View) (condition : Fragment) : Except ViewError View := do
  v.scope.ensureFragment "and_where" condition
  return .filter v condition

def projected (v : View) (template : Template) : Except ViewError View := do
  v.scope.ensureTemplate "map_to" template
  return .project v template

/-- New items take precedence over the order there is. -/
def ordered (v : View) (items : List OrderItem) : Except ViewError View := do
  items.forM fun item => v.scope.ensureFragment "order" item.expr
  return .order v items

def ensureKeys (v : View) (keys : Template) : Except ViewError Unit :=
  v.scope.ensureTemplate keysContext keys

/-- One row for each combination of keys; without keys, one row for all. -/
def grouped (v : View) (keys content : Template) : Except ViewError View := do
  v.ensureKeys keys
  v.scope.ensureTemplate "group_by aggregates" content
  return .group v keys content

/-- Two views can be joined if they read different tables and share no token. -/
def ensureSides (base extra : View) : Except ViewError Unit := do
  if (base.sources.firstCommon? extra.sources).isSome then throw .sharedSource
  match base.scope.firstCommon? extra.scope with
  | some id => throw (.sharedToken id)
  | none => return ()

/-- The rows of `base` with those of `extra` that meet the condition. -/
def joined (base extra : View) (mode : JoinMode) (withNull : Bool) (condition : Fragment) :
    Except ViewError View := do
  ensureSides base extra
  Scope.ensureFragment (base.scope.union extra.scope) "join condition" condition
  return .join base extra mode withNull condition

end View
end QueryViews
