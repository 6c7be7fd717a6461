import QueryViews.Proofs.Rendering.Script
import QueryViews.Query.Compiler

/-! Names and numbers in a written query. Along its script, parameters are numbered and sources
named in the order in which they come up, so the text can be read back: it is the script, with every
source under one name and every parameter under its number. -/

namespace QueryViews

namespace SqlPiece

def source? : SqlPiece → Option Alias
  | .column source _ _ | .label source _ => some source
  | .verbatim _ | .placeholder _ _ => none

def index? : SqlPiece → Option Nat
  | .placeholder index _ => some index
  | .verbatim _ | .column _ _ _ | .label _ _ => none

def placeholder? : SqlPiece → Option (Nat × String)
  | .placeholder index written => some (index, written)
  | .verbatim _ | .column _ _ _ | .label _ _ => none

/-- The mark that a piece is written for, with its parameter looked up by number. -/
def mark? (params : List Json) : SqlPiece → Option Mark
  | .verbatim _ => none
  | .column source name _ => some (.column source name)
  | .label source _ => some (.label source)
  | .placeholder index _ => params[index]?.map .param

/-- The piece is written under a name or a number that has been given. -/
def Given (style : Style) (r : Rendering) : SqlPiece → Prop
  | .verbatim _ => True
  | .column source name written => source ∈ r.aliases ∧
    written = style.dialect.qualify (style.tableStem ++ toString (r.aliases.idxOf source)) name
  | .label source written => source ∈ r.aliases ∧
    written = style.dialect.label (style.tableStem ++ toString (r.aliases.idxOf source))
  | .placeholder index written => index < r.params.length ∧
    written = style.dialect.placeholder index

end SqlPiece

namespace Rendering

/-- What is named and numbered once a mark is written. -/
def place (r : Rendering) : Mark → Rendering
  | .column source _ | .label source => (r.placeAlias source).2
  | .param value => (r.placeParam value).2

/-- What was named and numbered before still is. -/
structure Within (r later : Rendering) : Prop where
  aliases : r.aliases <+: later.aliases
  params : r.params <+: later.params

theorem Within.trans {r s t : Rendering} (first : r.Within s) (second : s.Within t) : r.Within t :=
  ⟨first.aliases.trans second.aliases, first.params.trans second.params⟩

theorem aliases_placeAlias (r : Rendering) (source : Alias) : (r.placeAlias source).2.aliases =
    r.aliases ++ if source ∈ r.aliases then [] else [source] := by
  unfold placeAlias
  cases found : r.aliases.idxOf? source with
  | none => rw [if_neg (List.idxOf?_eq_none_iff.1 found)]
  | some position =>
    have member : source ∈ r.aliases := by
      by_contra absent
      rw [List.idxOf?_eq_none_iff.2 absent] at found
      exact nomatch found
    rw [if_pos member, List.append_nil]

@[simp] theorem params_placeAlias (r : Rendering) (source : Alias) :
    (r.placeAlias source).2.params = r.params := by
  unfold placeAlias
  split
  · rfl
  · rfl

theorem mem_placeAlias (r : Rendering) (source : Alias) :
    source ∈ (r.placeAlias source).2.aliases := by
  rw [aliases_placeAlias]
  split
  next member => simpa using member
  next => simp

/-- A source has the position that it is given from then on. -/
theorem position_placeAlias (r : Rendering) (source : Alias) :
    (r.placeAlias source).1 = (r.placeAlias source).2.aliases.idxOf source := by
  rw [aliases_placeAlias]
  unfold placeAlias
  cases found : r.aliases.idxOf? source with
  | none =>
    have absent := List.idxOf?_eq_none_iff.1 found
    rw [if_neg absent, List.idxOf_append_of_notMem absent]
    simp
  | some position =>
    have member : source ∈ r.aliases := by
      by_contra absent
      rw [List.idxOf?_eq_none_iff.2 absent] at found
      exact nomatch found
    rw [if_pos member, List.append_nil, List.idxOf_eq_getD_idxOf?, found]
    rfl

theorem within_place (r : Rendering) (mark : Mark) : r.Within (r.place mark) := by
  cases mark with
  | column source name | label source =>
    exact ⟨⟨_, (aliases_placeAlias r source).symm⟩, ⟨[], by simp [place]⟩⟩
  | param value => exact ⟨List.prefix_rfl, List.prefix_append _ _⟩

/-- Named sources are those that have come up, in the order in which they did. -/
theorem aliases_place {r : Rendering} {seen : List Alias} (same : r.aliases = seen.eraseDups)
    (mark : Mark) : (r.place mark).aliases = (seen ++ mark.source?.toList).eraseDups := by
  have placed : ∀ source, (r.placeAlias source).2.aliases = (seen ++ [source]).eraseDups := by
    intro source
    rw [aliases_placeAlias, List.eraseDups_append, same]
    congr 1
    by_cases member : source ∈ seen
    · rw [if_pos (List.mem_eraseDups.2 member)]
      simp [List.removeAll, member]
    · rw [if_neg fun listed => member (List.mem_eraseDups.1 listed)]
      simp [List.removeAll, member, List.eraseDups_cons]
  cases mark with
  | column source name | label source => exact placed source
  | param value => simpa [place, placeParam, Mark.source?] using same

theorem params_place (r : Rendering) (mark : Mark) :
    (r.place mark).params = r.params ++ mark.param?.toList := by
  cases mark with
  | column source name | label source => simp [place, Mark.param?]
  | param value => rfl

end Rendering

namespace SqlPiece
variable {style : Style} {r later : Rendering} {piece : SqlPiece}

theorem Given.within (given : piece.Given style r) (kept : r.Within later) :
    piece.Given style later := by
  have same : ∀ {source}, source ∈ r.aliases →
      later.aliases.idxOf source = r.aliases.idxOf source := by
    intro source member
    obtain ⟨more, extended⟩ := kept.aliases
    rw [← extended, List.idxOf_append_of_mem member]
  cases piece with
  | verbatim => trivial
  | column source name written =>
    exact ⟨kept.aliases.subset given.1, by rw [same given.1]; exact given.2⟩
  | label source written =>
    exact ⟨kept.aliases.subset given.1, by rw [same given.1]; exact given.2⟩
  | placeholder index written =>
    exact ⟨Nat.lt_of_lt_of_le given.1 kept.params.length_le, given.2⟩

/-- A number stands for the same parameter ever after. -/
theorem Given.mark_within (given : piece.Given style r) (kept : r.Within later) :
    piece.mark? later.params = piece.mark? r.params := by
  cases piece with
  | verbatim | column | label => rfl
  | placeholder index written =>
    obtain ⟨more, extended⟩ := kept.params
    rw [mark?, mark?, ← extended, List.getElem?_append_left given.1]

end SqlPiece

theorem Mark.run_write (style : Style) (r : Rendering) (mark : Mark) :
    ∃ piece, (mark.write style).run r = (piece, r.place mark) ∧ piece.Given style (r.place mark) ∧
      piece.mark? (r.place mark).params = some mark ∧
      piece.index?.toList = List.range' r.params.length mark.param?.toList.length := by
  cases mark with
  | column source name =>
    let written := style.dialect.qualify
      (style.tableStem ++ toString (r.placeAlias source).1) name
    refine ⟨.column source name written, rfl, ⟨r.mem_placeAlias source, ?_⟩, rfl, rfl⟩
    show written = _
    simp only [written, Rendering.position_placeAlias]
    rfl
  | label source =>
    let written := style.dialect.label (style.tableStem ++ toString (r.placeAlias source).1)
    refine ⟨.label source written, rfl, ⟨r.mem_placeAlias source, ?_⟩, rfl, rfl⟩
    show written = _
    simp only [written, Rendering.position_placeAlias]
    rfl
  | param value =>
    refine ⟨_, rfl, ⟨?_, rfl⟩, ?_, rfl⟩
    · simp [Rendering.placeParam, Rendering.place]
    · simp [Rendering.placeParam, Rendering.place, SqlPiece.mark?]

theorem filterMap_singleton {α β : Type} (f : α → Option β) (a : α) :
    [a].filterMap f = (f a).toList := by
  cases found : f a with
  | none => simp [found]
  | some b => simp [found]

/-- What one run along a script leaves behind, and the pieces it writes. -/
structure Wrote (style : Style) (before after : Rendering) (script : List Passage)
    (pieces : SqlText) : Prop where
  within : before.Within after
  /-- The sources that have come up, each at its first occurrence. -/
  aliases : ∀ seen, before.aliases = seen.eraseDups → after.aliases =
    (seen ++ (script.flatMap Passage.marks).filterMap Mark.source?).eraseDups
  params : after.params = before.params ++ (script.flatMap Passage.marks).filterMap Mark.param?
  given : ∀ piece ∈ pieces, piece.Given style after
  marks : pieces.filterMap (SqlPiece.mark? after.params) = script.flatMap Passage.shown
  /-- Where no parameter is repeated, they are numbered one after the other. -/
  numbers : (∀ p ∈ script, p.times = 1 ∨ p.marks.filterMap Mark.param? = []) →
    pieces.filterMap SqlPiece.index? = List.range' before.params.length
      ((script.flatMap Passage.marks).filterMap Mark.param?).length

namespace Wrote
variable {style : Style} {first second third : Rendering}

theorem nil (r : Rendering) : Wrote style r r [] [] where
  within := ⟨List.prefix_rfl, List.prefix_rfl⟩
  aliases seen same := by simpa using same
  params := by simp
  given _ none := absurd none List.not_mem_nil
  marks := rfl
  numbers _ := rfl

theorem append {p q : List Passage} {s t : SqlText} (early : Wrote style first second p s)
    (late : Wrote style second third q t) : Wrote style first third (p ++ q) (s ++ t) where
  within := early.within.trans late.within
  aliases seen same := by
    rw [late.aliases _ (early.aliases seen same), List.flatMap_append, List.filterMap_append,
      List.append_assoc]
  params := by
    rw [late.params, early.params, List.flatMap_append, List.filterMap_append, List.append_assoc]
  given := List.forall_mem_append.2
    ⟨fun piece member => (early.given piece member).within late.within, late.given⟩
  marks := by
    have kept : s.filterMap (SqlPiece.mark? third.params) = s.filterMap (SqlPiece.mark? second.params) :=
      List.filterMap_congr fun piece member => (early.given piece member).mark_within late.within
    rw [List.filterMap_append, kept, early.marks, late.marks, List.flatMap_append]
  numbers single := by
    obtain ⟨ofFirst, ofSecond⟩ := List.forall_mem_append.1 single
    rw [List.filterMap_append, early.numbers ofFirst, late.numbers ofSecond, List.flatMap_append,
      List.filterMap_append, List.length_append, ← List.range'_append_1, early.params,
      List.length_append]

theorem mark {mark : Mark} {r : Rendering} {piece : SqlPiece}
    (given : piece.Given style (r.place mark))
    (same : piece.mark? (r.place mark).params = some mark)
    (number : piece.index?.toList = List.range' r.params.length mark.param?.toList.length) :
    Wrote style r (r.place mark) [.once [mark]] [piece] where
  within := r.within_place mark
  aliases seen named := by
    simpa [Passage.once, filterMap_singleton] using Rendering.aliases_place named mark
  params := by simpa [Passage.once, filterMap_singleton] using r.params_place mark
  given := List.forall_mem_singleton.2 given
  marks := by simp [same, Passage.once, Passage.shown]
  numbers _ := by simpa [Passage.once, filterMap_singleton] using number

/-- Marks written one after the other are one passage. -/
theorem glue {l m : List Mark} {pieces : SqlText}
    (wrote : Wrote style first second [.once l, .once m] pieces) :
    Wrote style first second [.once (l ++ m)] pieces where
  within := wrote.within
  aliases := by simpa [Passage.once] using wrote.aliases
  params := by simpa [Passage.once] using wrote.params
  given := wrote.given
  marks := by simpa [Passage.once, Passage.shown] using wrote.marks
  numbers _ := by simpa [Passage.once] using wrote.numbers (by simp [Passage.once])

/-- Written again, a passage is the same. -/
theorem again {marks : List Mark} {pieces : SqlText}
    (wrote : Wrote style first second [.once marks] pieces) (times : Nat) :
    Wrote style first second [⟨marks, times⟩] (List.replicate times pieces).flatten where
  within := wrote.within
  aliases := by simpa [Passage.once] using wrote.aliases
  params := by simpa [Passage.once] using wrote.params
  given piece member := by
    obtain ⟨copy, listed, inside⟩ := List.mem_flatten.1 member
    obtain rfl := List.eq_of_mem_replicate listed
    exact wrote.given piece inside
  marks := by
    have once := wrote.marks
    simp only [Passage.once, Passage.shown, List.flatMap_singleton, List.replicate_one,
      List.flatten_singleton] at once ⊢
    rw [List.filterMap_flatten, List.map_replicate, once]
  numbers single := by
    have once := wrote.numbers (by simp [Passage.once])
    simp only [Passage.once, List.flatMap_singleton] at once ⊢
    rcases List.forall_mem_singleton.1 single with one | unparametrised
    · obtain rfl : times = 1 := one
      simpa using once
    · have none : marks.filterMap Mark.param? = [] := unparametrised
      rw [none] at once ⊢
      simp [List.filterMap_flatten, once]

theorem mapM_write (marks : List Mark) : ∀ r : Rendering,
    let written := (marks.mapM (Mark.write style)).run r
    Wrote style r written.2 [.once marks] written.1 := by
  induction marks with
  | nil =>
    intro r
    have none : Wrote style r r [] [] := nil r
    exact ⟨none.within, none.aliases, none.params, none.given, rfl, fun _ => rfl⟩
  | cons mark rest ih =>
    intro r written
    obtain ⟨piece, run, given, same, number⟩ := mark.run_write style r
    have here := Wrote.mark given same number
    have whole : written = (piece :: ((rest.mapM (Mark.write style)).run (r.place mark)).1,
        ((rest.mapM (Mark.write style)).run (r.place mark)).2) := by
      simp only [written, List.mapM_cons, StateT.run_bind, run]
      rfl
    rw [whole]
    exact (here.append (ih (r.place mark))).glue

theorem writeAll (script : List Passage) : ∀ r : Rendering,
    let written := (Passage.writeAll style script).run r
    Wrote style r written.2 script written.1 := by
  induction script with
  | nil => exact fun r => nil r
  | cons passage rest ih =>
    intro r written
    let here := (passage.marks.mapM (Mark.write style)).run r
    let later := (Passage.writeAll style rest).run here.2
    have whole : written =
        ((List.replicate passage.times here.1).flatten ++ later.1, later.2) := by
      simp only [written]
      rw [← List.singleton_append, Passage.writeAll_append, Passage.writeAll_singleton]
      rfl
    rw [whole]
    exact ((mapM_write passage.marks r).again passage.times).append (ih here.2)

end Wrote

theorem Statement.wrote_render {style : Style} {times : Option NullPlacement → Nat}
    (repeats : style.dialect.Repeats times) (s : Statement) (r : Rendering) :
    let written := (s.render style).run r
    Wrote style r written.2 (s.script times) written.1.marked := by
  intro written
  have along : (written.1.marked, written.2) = (Passage.writeAll style (s.script times)).run r := by
    rw [← s.marked_render repeats]
    rfl
  have wrote : Wrote style r _ _ _ := Wrote.writeAll (s.script times) r
  rw [← along] at wrote
  exact wrote

/-- The sources named in the text, in order, each as often as it is. -/
def SqlText.sources (text : SqlText) : List Alias := text.filterMap SqlPiece.source?

/-- All that is named or numbered in the statement, in the order of its clauses. -/
def Statement.marks (s : Statement) : List Mark := (s.script fun _ => 1).flatMap Passage.marks

namespace Query

/-- The stem with the number of a source, counting sources in the order in which they first occur
in the text. -/
def nameOf (q : Query) (stem : String) (source : Alias) : String :=
  stem ++ toString (q.text.sources.eraseDups.idxOf source)

/-- The text is written in one pass over the statement, in the numbered style. -/
structure OnePass (q : Query) (stem : String) (s : Statement) : Prop where
  /-- With its parameters put in place of their numbers, the text is the statement. -/
  marks : q.text.filterMap (SqlPiece.mark? q.params) = s.marks
  params : q.params = s.marks.filterMap Mark.param?
  placeholders : q.text.filterMap SqlPiece.placeholder? =
    (List.range q.params.length).map fun index => (index, "$" ++ toString (index + 1))
  columns : ∀ source name written, .column source name written ∈ q.text →
    written = Identifier.qualified (q.nameOf stem source) name
  labels : ∀ source written, .label source written ∈ q.text →
    written = Identifier.quoted (q.nameOf stem source)
  distinct : ∀ one ∈ q.text.sources, ∀ other, q.nameOf stem one = q.nameOf stem other → one = other

end Query

namespace SqlText

/-- Readings of a text that are blind to its fixed parts. -/
theorem filterMap_marked {α : Type} {read : SqlPiece → Option α}
    (blind : ∀ text, read (.verbatim text) = none) (text : SqlText) :
    text.marked.filterMap read = text.filterMap read := by
  rw [marked, List.filterMap_filter]
  refine List.filterMap_congr fun piece _ => ?_
  cases piece with
  | verbatim text => exact (blind text).symm
  | column | label | placeholder => rfl

theorem sources_eq (text : SqlText) (params : List Json) :
    text.sources = (text.filterMap (SqlPiece.mark? params)).filterMap Mark.source? := by
  rw [sources, List.filterMap_filterMap]
  refine List.filterMap_congr fun piece _ => ?_
  cases piece with
  | verbatim | column | label => rfl
  | placeholder index written =>
    rw [SqlPiece.mark?]
    cases params[index]? with
    | none => rfl
    | some value => rfl

end SqlText

/-- A statement in the numbered style is written in one pass. -/
theorem Plan.onePass_write (p : Plan) (stem : String) :
    (p.write ⟨.postgres, stem⟩).OnePass stem p.statement := by
  let style : Style := ⟨.postgres, stem⟩
  let q := p.write style
  let done := ((p.statement.render style).run {}).2
  let script := p.statement.script fun _ => 1
  have wrote : Wrote style {} done script q.text.marked :=
    Statement.wrote_render Dialect.repeats_postgres p.statement {}
  have single : ∀ passage ∈ script, passage.times = 1 := by
    intro passage member
    rcases Statement.ofKey_script member with one | ⟨_, -, _, -, rfl⟩
    · exact one
    · rfl
  have shown : script.flatMap Passage.shown = p.statement.marks := by
    refine List.flatMap_congr fun passage member => ?_
    simp [Passage.shown, single passage member]
  have marks : q.text.filterMap (SqlPiece.mark? q.params) = p.statement.marks := by
    rw [← shown, ← wrote.marks]
    exact (SqlText.filterMap_marked (fun _ => rfl) _).symm
  have params : q.params = p.statement.marks.filterMap Mark.param? := wrote.params
  have sources : done.aliases = q.text.sources.eraseDups := by
    rw [SqlText.sources_eq q.text q.params, marks]
    exact wrote.aliases [] rfl
  have given : ∀ piece ∈ q.text, piece.isMarked = true → piece.Given style done :=
    fun piece member marked => wrote.given piece (List.mem_filter.2 ⟨member, marked⟩)
  refine ⟨marks, params, ?placeholders, ?columns, ?labels, ?distinct⟩
  case placeholders =>
    have numbers : q.text.filterMap SqlPiece.index? = List.range q.params.length := by
      rw [← SqlText.filterMap_marked fun _ => rfl,
        wrote.numbers fun passage member => .inl (single passage member), params, List.range_eq_range']
      rfl
    rw [← numbers, List.map_filterMap]
    refine List.filterMap_congr fun piece member => ?_
    cases piece with
    | verbatim | column | label => rfl
    | placeholder index written =>
      obtain ⟨-, rfl⟩ := given _ member rfl
      rfl
  case columns =>
    intro source name written member
    obtain ⟨-, same⟩ := given _ member rfl
    rw [same, sources]
    rfl
  case labels =>
    intro source written member
    obtain ⟨-, same⟩ := given _ member rfl
    rw [same, sources]
    rfl
  case distinct =>
    intro one member other same
    have places := Settings.columnName_injective { columnStem := stem } same
    exact (List.idxOf_inj (List.mem_eraseDups.2 member)).1 places

/-- In the numbered style, the queries for the rows of a view and for their number are written in
one pass over their statements. -/
theorem Compiler.onePass_compile (v : View) (settings : Settings) (supply : Supply) :
    let c : Compiler := ⟨.postgres, settings⟩
    ((c.compile v).run supply).1.OnePass settings.tableStem
        ((v.plan settings).run supply).1.statement ∧
      ((c.compileCount v).run supply).1.OnePass settings.tableStem
        ((v.countPlan settings).run supply).1.statement :=
  ⟨Plan.onePass_write _ _, Plan.onePass_write _ _⟩

end QueryViews
