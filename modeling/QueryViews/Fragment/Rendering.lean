import QueryViews.Dialect.Basic

/-! Rendering of fragments. Sources are named in the order of their first appearance and
parameters are numbered in the order they are written. -/

namespace QueryViews

/-- How a statement is written: a dialect, and the stem of the names of sources. -/
structure Style where
  dialect : Dialect
  tableStem : String

/-- What has been named and numbered so far. -/
structure Rendering where
  aliases : List Alias := []
  params : List Json := []

abbrev Render := StateM Rendering

namespace Rendering

/-- The position of a source among the named ones, naming it last if it is new. -/
def placeAlias (source : Alias) (r : Rendering) : Nat × Rendering :=
  match r.aliases.idxOf? source with
  | some position => (position, r)
  | none => (r.aliases.length, { r with aliases := r.aliases ++ [source] })

def placeParam (value : Json) (r : Rendering) : Nat × Rendering :=
  (r.params.length, { r with params := r.params ++ [value] })

end Rendering

def Style.aliasName (style : Style) (source : Alias) : Render String :=
  return style.tableStem ++ toString (← modifyGet (Rendering.placeAlias source))

mutual

def Segment.render (style : Style) : Segment → Render SqlText
  | .verbatim text => return [.verbatim text]
  | .column source name => do
    let table ← style.aliasName source
    return [.column source name (style.dialect.qualify table name)]
  | .param value => do
    let index ← modifyGet (Rendering.placeParam value)
    return [.placeholder index (style.dialect.placeholder index)]
  | .nested inner => Fragment.render style inner
  | .token _ definition => Fragment.render style definition

/-- A token that is still there is written as its definition. -/
def Fragment.render (style : Style) : Fragment → Render SqlText
  | [] => return []
  | segment :: rest => do
    let first ← segment.render style
    let others ← Fragment.render style rest
    return first ++ others

end

/-- Later fragments are written with the names and numbers that earlier ones have taken. -/
theorem Fragment.render_append (style : Style) (f g : Fragment) :
    Fragment.render style (f ++ g) = do
      let first ← Fragment.render style f
      let second ← Fragment.render style g
      return first ++ second := by
  induction f with
  | nil => simp [Fragment.render]
  | cons segment rest ih =>
    rw [List.cons_append, Fragment.render, Fragment.render, ih]
    simp only [bind_assoc, pure_bind, List.append_assoc]

end QueryViews
