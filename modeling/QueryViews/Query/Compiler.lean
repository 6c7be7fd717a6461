import QueryViews.Dialect.Postgres
import QueryViews.Query.RowReader
import QueryViews.Select.Rendering
import QueryViews.View.Compile

/-! From views to queries. A plan is the statement for the rows of a view or for their number, with
the reader for the rows it returns; a query is a plan written in one dialect. -/

namespace QueryViews

structure Plan where
  statement : Statement
  reader : RowReader
  /-- What was decided at the labelled bracket points, in this order. -/
  decisions : List (String × ClauseSet)

/-- Selects the tokens of a template from a finished body. -/
def Plan.ofBody (b : Build) (body : Body) (template : Template) : Plan :=
  let (statement, names) := b.statement body template.tokens
  ⟨statement, ⟨template, names⟩, b.decisions⟩

namespace View

/-- One output column for each token of the view's template. -/
def plan (v : View) (settings : Settings) : Minting Plan := do
  let (body, b) ← Building.start settings (v.body v.template.tokenSet true)
  return .ofBody b body v.template

/-- The body whose rows are counted: whatever would change the count is inside a subquery. -/
def countedBody (v : View) : Building Body := do
  let body ← v.body .empty false
  Building.bracketOn .aggregate body .empty

def countPlan (v : View) (settings : Settings) : Minting Plan := do
  let (body, b) ← Building.start settings v.countedBody
  let count ← Column.mint false (Fragment.verbatim "count(*)")
  return .ofBody b body (.column (count.format Format.integer))

end View

/-- Rendered SQL with its parameters in the order of their placeholders, and the reader for the
rows it returns. -/
structure Query where
  text : SqlText
  params : List Json
  reader : RowReader
  /-- What was decided at the labelled bracket points, in this order. -/
  decisions : List (String × ClauseSet)

/-- The text of the statement. -/
def Query.sql (q : Query) : String := q.text.toString

/-- Writes the statement with all sources and parameters named afresh. -/
def Plan.write (p : Plan) (style : Style) : Query :=
  let (text, rendering) := (Statement.render style p.statement).run {}
  { text, params := rendering.params, reader := p.reader, decisions := p.decisions }

structure Compiler where
  dialect : Dialect := .postgres
  settings : Settings := {}

namespace Compiler

def style (c : Compiler) : Style := ⟨c.dialect, c.settings.tableStem⟩

/-- The query for the rows of a view. -/
def compile (c : Compiler) (v : View) : Minting Query :=
  return (← v.plan c.settings).write c.style

/-- The query for the number of rows of a view. -/
def compileCount (c : Compiler) (v : View) : Minting Query :=
  return (← v.countPlan c.settings).write c.style

end Compiler
end QueryViews
