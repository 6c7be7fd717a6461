import QueryViews.Select.Body
import QueryViews.Settings.Basic

/-! The state of one compilation, and bracketing: turning a body into the FROM source of a new
body and redirecting the tokens it selects to that source's columns. -/

namespace QueryViews

structure Build where
  settings : Settings
  supply : Supply
  redirects : Redirects := {}
  /-- The named bracket points that were decided, and the clauses each of them met. -/
  decisions : List (String × ClauseSet) := []

abbrev Building := StateM Build

namespace Build

/-- Each token with the name it is selected under, equal tokens only once. -/
def outputNames (settings : Settings) (targets : List Token) : List (Token × String) :=
  (Token.distinct targets).mapIdx fun index token => (token, settings.columnName index)

/-- The statement that selects the targets from a body, under the names given with it. -/
def statement (b : Build) (body : Body) (targets : List Token) :
    Statement × List (TokenId × String) :=
  let named := outputNames b.settings targets
  (⟨named.map fun (token, name) => ⟨b.redirects.expandToken token, name⟩,
      body.expanded b.redirects⟩,
    named.map fun (token, name) => (token.id, name))

/-- Redirects each token to the column of its name in the source. -/
def redirectAll (b : Build) (source : Alias) (names : List (TokenId × String)) : Build :=
  let redirect r (entry : TokenId × String) :=
    Redirects.redirect r entry.1 (Fragment.column source entry.2)
  { b with redirects := names.foldl redirect b.redirects }

end Build

namespace Building

def mintAlias : Building Alias := modifyGet fun b =>
  let (source, supply) := b.supply.takeAlias
  (source, { b with supply })

/-- Makes a subquery of the body. Every token in `used` is selected by it and stands for its
output column from now on. -/
def bracket (body : Body) (used : TokenSet) : Building Body := do
  let source ← mintAlias
  let (statement, names) := (← get).statement body used.toList
  modify (Build.redirectAll · source names)
  return Body.ofSource (.subquery statement source)

/-- Brackets the body if it carries one of the blocking clauses. -/
def bracketOn (blockers : ClauseSet) (body : Body) (used : TokenSet) : Building Body :=
  if body.state.meets blockers then bracket body used else return body

/-- Runs a building from nothing built, on numbers out of the supply. -/
def start {α : Type} (settings : Settings) (build : Building α) : Minting (α × Build) := do
  let (result, b) := build.run { settings, supply := ← get }
  set b.supply
  return (result, b)

/-- Keeps what was decided at a bracket point with a label. -/
def decide (label : Option String) (state : ClauseSet) (applies : Bool) : Building Bool := do
  match label with
  | some name => modify fun b => { b with decisions := b.decisions ++ [(name, state)] }
  | none => pure ()
  return applies

end Building
end QueryViews
