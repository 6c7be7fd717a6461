import QueryViews.Fragment.Rendering
import QueryViews.Select.Body

/-! The text of a statement, clause by clause in SQL order. -/

namespace QueryViews

namespace Render

/-- The renderings of several fragments, one after the other. -/
def fragments (style : Style) (parts : List Fragment) : Render (List SqlText) :=
  parts.mapM (Fragment.render style)

/-- A clause that is left out when it has no parts. -/
def unlessEmpty {ε : Type} (parts : List ε) (clause : Render SqlText) : Render SqlText :=
  if parts.isEmpty then return [] else clause

def parenthesised (text : SqlText) : SqlText :=
  SqlText.verbatim "(" ++ text ++ SqlText.verbatim ")"

/-- All conditions at once; a single one stands without parentheses. -/
def conjunction (style : Style) : List Fragment → Render SqlText
  | [condition] => Fragment.render style condition
  | conditions =>
    return SqlText.join " and " ((← fragments style conditions).map parenthesised)

def column (style : Style) (c : OutputColumn) : Render SqlText :=
  return style.dialect.selectAs (← Fragment.render style c.expr) c.name

/-- A select list without columns selects a constant. -/
def columns (style : Style) (items : List OutputColumn) : Render SqlText :=
  if items.isEmpty then return SqlText.verbatim "1"
  else return SqlText.join ", " (← items.mapM (column style))

def filters (style : Style) (conditions : List Fragment) : Render SqlText :=
  unlessEmpty conditions do
    return SqlText.verbatim " where " ++ (← conjunction style conditions)

def keys (style : Style) (parts : List Fragment) : Render SqlText :=
  unlessEmpty parts do
    return SqlText.verbatim " group by " ++ SqlText.join ", " (← fragments style parts)

def having (style : Style) (conditions : List Fragment) : Render SqlText :=
  unlessEmpty conditions do
    return SqlText.verbatim " having " ++ (← conjunction style conditions)

def sortKey (style : Style) (item : OrderItem) : Render (SortKey SqlText) :=
  return { item with expr := ← Fragment.render style item.expr }

def order (style : Style) (items : List OrderItem) : Render SqlText :=
  unlessEmpty items do
    return SqlText.verbatim " " ++ style.dialect.ordering (← items.mapM (sortKey style))

def window (style : Style) (skip : Nat) (take : Option Nat) : SqlText :=
  if 0 < skip || take.isSome then SqlText.verbatim (" " ++ style.dialect.window skip take)
  else []

end Render

def JoinKind.keyword : JoinKind → String
  | .left => " left join "
  | .inner => " inner join "

/-- A source is named only after what it consists of. -/
def Style.labelled (style : Style) (text : SqlText) (source : Alias) : Render SqlText := do
  let name ← style.aliasName source
  return text ++ SqlText.verbatim " as " ++ [.label source (style.dialect.label name)]

mutual

def Source.render (style : Style) : Source → Render SqlText
  | .table text id => do
    let written ← Fragment.render style text
    style.labelled written id
  | .subquery statement id => do
    let written ← Statement.render style statement
    style.labelled (Render.parenthesised written) id

def JoinClause.renderAll (style : Style) : List JoinClause → Render SqlText
  | [] => return []
  | ⟨kind, source, condition⟩ :: rest => do
    let joined ← Source.render style source
    let met ← Fragment.render style condition
    let others ← JoinClause.renderAll style rest
    return SqlText.verbatim kind.keyword ++ joined ++ SqlText.verbatim " on " ++ met ++ others

def Statement.render (style : Style) : Statement → Render SqlText
  | ⟨columns, ⟨source, joins, filters, keys, _, having, order, skip, take⟩⟩ => do
    let selected ← Render.columns style columns
    let rows ← Source.render style source
    let joined ← JoinClause.renderAll style joins
    let filtered ← Render.filters style filters
    let groups ← Render.keys style keys
    let kept ← Render.having style having
    let sorted ← Render.order style order
    return SqlText.verbatim "select " ++ selected ++ SqlText.verbatim " from " ++ rows ++ joined
      ++ filtered ++ groups ++ kept ++ sorted ++ Render.window style skip take

end
end QueryViews
