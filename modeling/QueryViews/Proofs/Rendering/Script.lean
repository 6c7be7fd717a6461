import Mathlib.Data.List.Basic
import QueryViews.Dialect.Postgres
import QueryViews.Dialect.Sqlite
import QueryViews.Proofs.Clauses.Visits
import QueryViews.Select.Rendering

/-! The script of a statement: all that is named or numbered when it is written, in the order of
the text. Rendering goes through the script once, from left to right. A dialect may write a sort key
more than once, and then the key's names and numbers are the same each time. -/

namespace QueryViews

/-- What has no fixed text: a source gets its name and a parameter its number on rendering. -/
inductive Mark where
  | column (source : Alias) (name : String)
  | label (source : Alias)
  | param (value : Json)

namespace Mark

def source? : Mark → Option Alias
  | .column source _ | .label source => some source
  | .param _ => none

def param? : Mark → Option Json
  | .param value => some value
  | .column _ _ | .label _ => none

def write (style : Style) : Mark → Render SqlPiece
  | .column source name => do
    let table ← style.aliasName source
    return .column source name (style.dialect.qualify table name)
  | .label source => do
    let name ← style.aliasName source
    return .label source (style.dialect.label name)
  | .param value => do
    let index ← modifyGet (Rendering.placeParam value)
    return .placeholder index (style.dialect.placeholder index)

end Mark

mutual

/-- The marks of a segment, those in definitions too. -/
def Segment.marks : Segment → List Mark
  | .verbatim _ => []
  | .column source name => [.column source name]
  | .param value => [.param value]
  | .nested inner => Fragment.marks inner
  | .token _ definition => Fragment.marks definition

def Fragment.marks : Fragment → List Mark
  | [] => []
  | segment :: rest => segment.marks ++ Fragment.marks rest

end

/-- Marks that are written together, as often as the dialect repeats them. -/
structure Passage where
  marks : List Mark
  times : Nat

namespace Passage

def once (marks : List Mark) : Passage := ⟨marks, 1⟩

/-- The marks as they show in the text. -/
def shown (p : Passage) : List Mark := (List.replicate p.times p.marks).flatten

def write (style : Style) (p : Passage) : Render SqlText :=
  return (List.replicate p.times (← p.marks.mapM (Mark.write style))).flatten

def writeAll (style : Style) (passages : List Passage) : Render SqlText :=
  return (← passages.mapM (write style)).flatten

end Passage

section
variable (times : Option NullPlacement → Nat)

mutual

/-- A source is marked by its label after all that it consists of. -/
def Source.script : Source → List Passage
  | .table text id => [.once text.marks, .once [.label id]]
  | .subquery statement id => statement.script ++ [.once [.label id]]

def JoinClause.scriptAll : List JoinClause → List Passage
  | [] => []
  | ⟨_, source, condition⟩ :: rest =>
    source.script ++ .once condition.marks :: JoinClause.scriptAll rest

/-- The passages of a statement in the order of its clauses, where `times` says how often a sort
key is written. -/
def Statement.script : Statement → List Passage
  | ⟨columns, ⟨source, joins, filters, keys, _, having, order, _, _⟩⟩ =>
    columns.map (fun c => .once c.expr.marks) ++ source.script ++ JoinClause.scriptAll joins
      ++ filters.map (fun f => .once f.marks) ++ keys.map (fun f => .once f.marks)
      ++ having.map (fun f => .once f.marks)
      ++ order.map fun key => ⟨key.expr.marks, times key.nulls⟩

end

end

def SqlPiece.isMarked : SqlPiece → Bool
  | .verbatim _ => false
  | .column _ _ _ | .label _ _ | .placeholder _ _ => true

namespace SqlText

/-- The text without its fixed parts. -/
def marked (text : SqlText) : SqlText := text.filter SqlPiece.isMarked

@[simp] theorem marked_append (s t : SqlText) : marked (s ++ t) = marked s ++ marked t :=
  List.filter_append ..

@[simp] theorem marked_verbatim (text : String) : marked (verbatim text) = [] := rfl

theorem marked_join (separator : String) (parts : List SqlText) :
    marked (join separator parts) = parts.flatMap marked := by
  induction parts with
  | nil => rfl
  | cons first rest ih =>
    cases rest with
    | nil => simp [join, List.intersperse]
    | cons second rest =>
      have split : join separator (first :: second :: rest) =
          first ++ verbatim separator ++ join separator (second :: rest) := by
        simp [join, List.intersperse, verbatim]
      rw [split, marked_append, marked_append, marked_verbatim, List.append_nil, ih]
      rfl

end SqlText

/-- The dialect adds fixed text only, and writes sort keys in order, each as often as `times`
says. -/
structure Dialect.Repeats (d : Dialect) (times : Option NullPlacement → Nat) : Prop where
  selectAs : ∀ text name, (d.selectAs text name).marked = text.marked
  ordering : ∀ keys, (d.ordering keys).marked =
    keys.flatMap fun key => (List.replicate (times key.nulls) key.expr.marked).flatten

namespace Dialect

theorem repeats_postgres : postgres.Repeats fun _ => 1 where
  selectAs text name := by
    show (text ++ SqlText.verbatim _).marked = _
    rw [SqlText.marked_append, SqlText.marked_verbatim, List.append_nil]
  ordering keys := by
    show (SqlText.verbatim _ ++ SqlText.join _ _).marked = _
    rw [SqlText.marked_append, SqlText.marked_verbatim, List.nil_append, SqlText.marked_join,
      List.flatMap_map]
    simp [Postgres.sortKey]

/-- A NULL placement is a sort key of its own, on the same expression. -/
def Sqlite.times (nulls : Option NullPlacement) : Nat := if nulls.isSome then 2 else 1

theorem repeats_sqlite : sqlite.Repeats Sqlite.times where
  selectAs text name := by
    show (text ++ SqlText.verbatim _).marked = _
    rw [SqlText.marked_append, SqlText.marked_verbatim, List.append_nil]
  ordering keys := by
    show (SqlText.verbatim _ ++ SqlText.join _ _).marked = _
    rw [SqlText.marked_append, SqlText.marked_verbatim, List.nil_append, SqlText.marked_join,
      List.flatMap_assoc]
    refine List.flatMap_congr fun key _ => ?_
    obtain ⟨expr, direction, nulls⟩ := key
    cases nulls with
    | none => simp [Sqlite.sortKeys, Sqlite.nullsKey, Sqlite.times]
    | some placement =>
      cases placement with
      | first | last => simp [Sqlite.sortKeys, Sqlite.nullsKey, Sqlite.times, List.replicate]

end Dialect

namespace Passage
variable {style : Style}

theorem writeAll_append (p q : List Passage) :
    writeAll style (p ++ q) = do
      let first ← writeAll style p
      let second ← writeAll style q
      return first ++ second := by
  simp [writeAll, List.mapM_append]

theorem writeAll_singleton (p : Passage) : writeAll style [p] = write style p := by
  simp [writeAll]

theorem writeAll_once (marks : List Mark) :
    writeAll style [.once marks] = marks.mapM (Mark.write style) := by
  rw [writeAll_singleton]
  simp [write, once]

end Passage

mutual

theorem Segment.marked_render (style : Style) : ∀ segment : Segment,
    SqlText.marked <$> segment.render style = segment.marks.mapM (Mark.write style)
  | .verbatim _ => rfl
  | .column _ _ => rfl
  | .param _ => rfl
  | .nested inner => Fragment.marked_render style inner
  | .token _ definition => Fragment.marked_render style definition

/-- Whatever is named or numbered in a fragment is so in order. -/
theorem Fragment.marked_render (style : Style) : ∀ f : Fragment,
    SqlText.marked <$> Fragment.render style f = (Fragment.marks f).mapM (Mark.write style)
  | [] => rfl
  | segment :: rest => by
    rw [Fragment.marks, List.mapM_append, ← Segment.marked_render style segment,
      ← Fragment.marked_render style rest, Fragment.render]
    simp

end

namespace Render
variable {style : Style}

/-- One part after the other, each along its script. -/
theorem marked_mapM {ε α : Type} {render : ε → Render α} {shown : α → SqlText}
    {script : ε → List Passage} (each : ∀ x, shown <$> render x = Passage.writeAll style (script x))
    (parts : List ε) : List.flatMap shown <$> parts.mapM render =
      Passage.writeAll style (parts.flatMap script) := by
  induction parts with
  | nil => rfl
  | cons first rest ih =>
    rw [List.flatMap_cons, Passage.writeAll_append, ← each, ← ih]
    simp

theorem marked_fragment (f : Fragment) :
    SqlText.marked <$> Fragment.render style f = Passage.writeAll style [.once f.marks] :=
  (Fragment.marked_render style f).trans (Passage.writeAll_once _).symm

theorem marked_fragments (parts : List Fragment) :
    List.flatMap SqlText.marked <$> fragments style parts =
      Passage.writeAll style (parts.map fun f => .once f.marks) := by
  rw [fragments, marked_mapM marked_fragment]
  congr 1
  exact List.flatMap_pure_eq_map _ _

theorem marked_parenthesised (text : SqlText) : (parenthesised text).marked = text.marked := by
  simp [parenthesised]

theorem marked_conjunction (conditions : List Fragment) :
    SqlText.marked <$> conjunction style conditions =
      Passage.writeAll style (conditions.map fun f => .once f.marks) := by
  have joined : ∀ parts : List SqlText,
      (SqlText.join " and " (parts.map parenthesised)).marked = parts.flatMap SqlText.marked := by
    intro parts
    rw [SqlText.marked_join, List.flatMap_map]
    simp only [marked_parenthesised]
  unfold conjunction
  split
  next condition => exact marked_fragment condition
  next =>
    rw [← marked_fragments]
    simp [joined]

/-- A clause is left out only if it has no script. -/
theorem marked_unlessEmpty {ε : Type} {parts : List ε} {clause : Render SqlText}
    {script : ε → Passage}
    (along : SqlText.marked <$> clause = Passage.writeAll style (parts.map script)) :
    SqlText.marked <$> unlessEmpty parts clause = Passage.writeAll style (parts.map script) := by
  unfold unlessEmpty
  split
  next empty =>
    obtain rfl := List.isEmpty_iff.1 empty
    rfl
  next => exact along

theorem marked_filters (conditions : List Fragment) :
    SqlText.marked <$> filters style conditions =
      Passage.writeAll style (conditions.map fun f => .once f.marks) := by
  refine marked_unlessEmpty ?_
  rw [← marked_conjunction]
  simp

theorem marked_having (conditions : List Fragment) :
    SqlText.marked <$> having style conditions =
      Passage.writeAll style (conditions.map fun f => .once f.marks) := by
  refine marked_unlessEmpty ?_
  rw [← marked_conjunction]
  simp

theorem marked_keys (parts : List Fragment) :
    SqlText.marked <$> keys style parts =
      Passage.writeAll style (parts.map fun f => .once f.marks) := by
  refine marked_unlessEmpty ?_
  rw [← marked_fragments]
  simp [SqlText.marked_join]

theorem marked_window (skip : Nat) (take : Option Nat) : (window style skip take).marked = [] := by
  unfold window
  split
  · rfl
  · rfl

section
variable {times : Option NullPlacement → Nat} (repeats : style.dialect.Repeats times)
include repeats

theorem marked_columns (items : List OutputColumn) :
    SqlText.marked <$> columns style items =
      Passage.writeAll style (items.map fun c => .once c.expr.marks) := by
  have each : ∀ c : OutputColumn,
      SqlText.marked <$> column style c = Passage.writeAll style [.once c.expr.marks] := by
    intro c
    rw [← marked_fragment, column]
    simp [repeats.selectAs]
  have all := marked_mapM each items
  unfold columns
  split
  next empty =>
    obtain rfl := List.isEmpty_iff.1 empty
    rfl
  next =>
    rw [← List.flatMap_pure_eq_map]
    simp only [map_eq_pure_bind, bind_assoc, pure_bind, SqlText.marked_join] at all ⊢
    exact all

theorem marked_order (items : List OrderItem) :
    SqlText.marked <$> order style items =
      Passage.writeAll style (items.map fun key => ⟨key.expr.marks, times key.nulls⟩) := by
  let shown (key : SortKey SqlText) := (List.replicate (times key.nulls) key.expr.marked).flatten
  have each : ∀ item : OrderItem, shown <$> sortKey style item =
      Passage.writeAll style [⟨item.expr.marks, times item.nulls⟩] := by
    intro item
    rw [Passage.writeAll_singleton, Passage.write, ← Fragment.marked_render, sortKey]
    simp [shown]
  have all := marked_mapM each items
  refine marked_unlessEmpty ?_
  rw [← List.flatMap_pure_eq_map]
  simp only [map_eq_pure_bind, bind_assoc, pure_bind, SqlText.marked_append,
    SqlText.marked_verbatim, List.nil_append, repeats.ordering] at all ⊢
  exact all

end
end Render

theorem Style.marked_labelled (style : Style) (text : SqlText) (source : Alias) :
    SqlText.marked <$> style.labelled text source =
      (text.marked ++ ·) <$> Passage.writeAll style [.once [.label source]] := by
  rw [Passage.writeAll_once, labelled]
  simp [Mark.write]
  rfl

section
variable {style : Style} {times : Option NullPlacement → Nat}

mutual

theorem Source.marked_render (repeats : style.dialect.Repeats times) : ∀ source : Source,
    SqlText.marked <$> source.render style = Passage.writeAll style (source.script times)
  | .table text id => by
    have split : (Source.table text id).script times = [.once text.marks] ++ [.once [.label id]] :=
      rfl
    rw [split, Passage.writeAll_append, ← Render.marked_fragment, Source.render]
    simp [Style.marked_labelled]
  | .subquery statement id => by
    rw [Source.script, Passage.writeAll_append, ← Statement.marked_render repeats statement,
      Source.render]
    simp [Style.marked_labelled, Render.marked_parenthesised]

theorem JoinClause.marked_renderAll (repeats : style.dialect.Repeats times) :
    ∀ joins : List JoinClause, SqlText.marked <$> JoinClause.renderAll style joins =
      Passage.writeAll style (JoinClause.scriptAll times joins)
  | [] => rfl
  | ⟨kind, source, condition⟩ :: rest => by
    have split : JoinClause.scriptAll times (⟨kind, source, condition⟩ :: rest) =
        source.script times ++ ([.once condition.marks] ++ JoinClause.scriptAll times rest) := rfl
    rw [split, Passage.writeAll_append, Passage.writeAll_append,
      ← Source.marked_render repeats source, ← Render.marked_fragment,
      ← JoinClause.marked_renderAll repeats rest, JoinClause.renderAll]
    simp

/-- A statement is written along its script. -/
theorem Statement.marked_render (repeats : style.dialect.Repeats times) : ∀ s : Statement,
    SqlText.marked <$> s.render style = Passage.writeAll style (s.script times)
  | ⟨columns, ⟨source, joins, filters, keys, grouped, having, order, skip, take⟩⟩ => by
    simp only [Statement.script, Passage.writeAll_append]
    rw [← Render.marked_columns repeats, ← Source.marked_render repeats source,
      ← JoinClause.marked_renderAll repeats joins, ← Render.marked_filters, ← Render.marked_keys,
      ← Render.marked_having, ← Render.marked_order repeats, Statement.render]
    simp [Render.marked_window]

end

end

namespace Passage

/-- The passage is written once, or it is a sort key of one of these SELECTs. -/
def OfKey (times : Option NullPlacement → Nat) (selects : List Statement) (p : Passage) : Prop :=
  p.times = 1 ∨
    ∃ select ∈ selects, ∃ key ∈ select.body.order, p = ⟨key.expr.marks, times key.nulls⟩

variable {times : Option NullPlacement → Nat} {p : Passage}

theorem OfKey.mono {few many : List Statement} (ofKey : p.OfKey times few)
    (within : ∀ select ∈ few, select ∈ many) : p.OfKey times many := by
  rcases ofKey with single | ⟨select, listed, key⟩
  · exact .inl single
  · exact .inr ⟨select, within select listed, key⟩

theorem ofKey_map {ε : Type} {parts : List ε} {marks : ε → List Mark} {selects : List Statement}
    (member : p ∈ parts.map fun x => .once (marks x)) : p.OfKey times selects := by
  obtain ⟨x, -, rfl⟩ := List.mem_map.1 member
  exact .inl rfl

end Passage

section
variable {times : Option NullPlacement → Nat}

mutual

theorem Source.ofKey_script {p : Passage} :
    ∀ {source : Source}, p ∈ source.script times → p.OfKey times source.selects
  | .table text id, member => by
    rcases List.mem_pair.1 member with rfl | rfl
    · exact .inl rfl
    · exact .inl rfl
  | .subquery statement id, member => by
    rcases List.mem_append.1 member with inside | label
    · exact Statement.ofKey_script inside
    · obtain rfl := List.mem_singleton.1 label
      exact .inl rfl

theorem JoinClause.ofKey_scriptAll {p : Passage} :
    ∀ {joins : List JoinClause}, p ∈ JoinClause.scriptAll times joins →
      p.OfKey times (JoinClause.allSelects joins)
  | [], member => absurd member List.not_mem_nil
  | ⟨kind, source, condition⟩ :: rest, member => by
    rcases List.mem_append.1 member with first | later
    · exact (Source.ofKey_script first).mono fun _ => List.mem_append_left _
    · rcases List.mem_cons.1 later with rfl | others
      · exact .inl rfl
      · exact (JoinClause.ofKey_scriptAll others).mono fun _ => List.mem_append_right _

theorem Statement.ofKey_script {p : Passage} :
    ∀ {s : Statement}, p ∈ s.script times → p.OfKey times s.selects
  | ⟨columns, ⟨source, joins, filters, keys, grouped, having, order, skip, take⟩⟩, member => by
    simp only [Statement.script, List.mem_append, or_assoc] at member
    rcases member with part | part | part | part | part | part | part
    · exact Passage.ofKey_map part
    · refine (Source.ofKey_script part).mono fun _ inside => ?_
      exact List.mem_cons_of_mem _ (List.mem_append_left _ inside)
    · refine (JoinClause.ofKey_scriptAll part).mono fun _ inside => ?_
      exact List.mem_cons_of_mem _ (List.mem_append_right _ inside)
    · exact Passage.ofKey_map part
    · exact Passage.ofKey_map part
    · exact Passage.ofKey_map part
    · obtain ⟨key, listed, rfl⟩ := List.mem_map.1 part
      exact .inr ⟨_, List.mem_cons_self, key, listed, rfl⟩

end

mutual

theorem Source.mem_script_of_key {select : Statement} {key : OrderItem}
    (ordered : key ∈ select.body.order) : ∀ {source : Source}, select ∈ source.selects →
      ⟨key.expr.marks, times key.nulls⟩ ∈ source.script times
  | .table _ _, nested => absurd nested List.not_mem_nil
  | .subquery _ _, nested => List.mem_append_left _ (Statement.mem_script_of_key ordered nested)

theorem JoinClause.mem_scriptAll_of_key {select : Statement} {key : OrderItem}
    (ordered : key ∈ select.body.order) : ∀ {joins : List JoinClause},
      select ∈ JoinClause.allSelects joins →
        ⟨key.expr.marks, times key.nulls⟩ ∈ JoinClause.scriptAll times joins
  | [], nested => absurd nested List.not_mem_nil
  | ⟨_, _, _⟩ :: _, nested => by
    rcases List.mem_append.1 nested with first | later
    · exact List.mem_append_left _ (Source.mem_script_of_key ordered first)
    · refine List.mem_append_right _ (List.mem_cons_of_mem _ ?_)
      exact JoinClause.mem_scriptAll_of_key ordered later

/-- Every sort key of a SELECT is a passage of the script. -/
theorem Statement.mem_script_of_key {select : Statement} {key : OrderItem}
    (ordered : key ∈ select.body.order) : ∀ {s : Statement}, select ∈ s.selects →
      ⟨key.expr.marks, times key.nulls⟩ ∈ s.script times
  | ⟨columns, ⟨source, joins, filters, keys, grouped, having, order, skip, take⟩⟩, nested => by
    simp only [Statement.script, List.mem_append, or_assoc]
    rcases List.mem_cons.1 nested with rfl | deeper
    · exact .inr (.inr (.inr (.inr (.inr (.inr (List.mem_map_of_mem ordered))))))
    · rcases List.mem_append.1 deeper with inSource | inJoins
      · exact .inr (.inl (Source.mem_script_of_key ordered inSource))
      · exact .inr (.inr (.inl (JoinClause.mem_scriptAll_of_key ordered inJoins)))

end

end
end QueryViews
