import QueryViews.Proofs.Rendering.OnePass
import QueryViews.Proofs.Rendering.Texts
import QueryViews.Proofs.Scope.JoinFree

/-! Positional parameters. Where nothing else holds a question mark, those of the text are its
parameters, in the order in which they are bound, unless a sort key with a parameter is written
twice. -/

namespace QueryViews

/-- The number of question marks in it. -/
def questions (text : String) : Nat := text.toList.count '?'

/-- Without question marks. -/
def Plain (text : String) : Prop := questions text = 0

instance (text : String) : Decidable (Plain text) := inferInstanceAs (Decidable (_ = 0))

@[simp] theorem questions_append (s t : String) :
    questions (s ++ t) = questions s + questions t := by
  simp [questions, String.toList_append]

theorem Plain.append {s t : String} (first : Plain s) (second : Plain t) : Plain (s ++ t) := by
  rw [Plain, questions_append, first, second]

theorem plain_number (n : Nat) : Plain (toString n) := by
  refine List.count_eq_zero.2 fun member => ?_
  have digit : '?' ∈ Nat.toDigits 10 n := Nat.toList_repr ▸ member
  exact absurd (Nat.isDigit_of_mem_toDigits (by decide) (by decide) digit) (by decide)

namespace Identifier

theorem plain_quoted {name : String} (plain : Plain name) : Plain (quoted name) := by
  have inside : ∀ chars : List Char, (doubled chars).count '?' = chars.count '?' := by
    intro chars
    induction chars with
    | nil => rfl
    | cons c rest ih =>
      rw [doubled]
      split
      next quote => simp [ih, quote]
      next => rw [List.count_cons, List.count_cons, ih]
  have middle : Plain (String.ofList (doubled name.toList)) := by
    rw [Plain, questions, String.toList_ofList, inside]
    exact plain
  exact (Plain.append (by decide) middle).append (by decide)

theorem plain_qualified {source column : String} (ofSource : Plain source)
    (ofColumn : Plain column) : Plain (qualified source column) :=
  ((plain_quoted ofSource).append (by decide)).append (plain_quoted ofColumn)

end Identifier

/-- Placeholders are single question marks, and nothing else holds one. -/
def SqlPiece.Asks : SqlPiece → Prop
  | .verbatim written | .column _ _ written | .label _ written => Plain written
  | .placeholder _ written => questions written = 1

namespace SqlText

def Asks (text : SqlText) : Prop := ∀ piece ∈ text, piece.Asks

theorem asks_verbatim {text : String} (plain : Plain text) : Asks (verbatim text) :=
  List.forall_mem_singleton.2 plain

theorem Asks.append {s t : SqlText} (first : s.Asks) (second : t.Asks) : (s ++ t).Asks :=
  List.forall_mem_append.2 ⟨first, second⟩

theorem asks_join {separator : String} (plain : Plain separator) {parts : List SqlText}
    (each : ∀ part ∈ parts, part.Asks) : (join separator parts).Asks := by
  induction parts with
  | nil => exact fun _ none => absurd none List.not_mem_nil
  | cons first rest ih =>
    obtain ⟨here, later⟩ := List.forall_mem_cons.1 each
    cases rest with
    | nil => simpa [join, List.intersperse] using here
    | cons second rest =>
      have split : join separator (first :: second :: rest) =
          first ++ verbatim separator ++ join separator (second :: rest) := by
        simp [join, List.intersperse, verbatim]
      rw [split]
      exact (here.append (asks_verbatim plain)).append (ih later)

/-- The question marks are the placeholders. -/
theorem Asks.questions_eq {text : SqlText} (asks : text.Asks) :
    questions text.toString = (text.filterMap SqlPiece.index?).length := by
  induction text with
  | nil => rfl
  | cons piece rest ih =>
    obtain ⟨here, later⟩ := List.forall_mem_cons.1 asks
    have split : toString (piece :: rest) = piece.written ++ toString rest := String.join_cons
    rw [split, questions_append, ih later]
    cases piece with
    | verbatim written | column _ _ written | label _ written =>
      have none : questions written = 0 := here
      rw [SqlPiece.written, none, Nat.zero_add]
      rfl
    | placeholder index written =>
      have one : questions written = 1 := here
      simp [SqlPiece.written, SqlPiece.index?, one, Nat.add_comm]

end SqlText

/-- The dialect marks each parameter by a question mark and adds no other one. -/
structure Dialect.Positional (d : Dialect) : Prop where
  label : ∀ {name}, Plain name → Plain (d.label name)
  qualify : ∀ {source name}, Plain source → Plain name → Plain (d.qualify source name)
  selectAs : ∀ {text name}, text.Asks → Plain name → (d.selectAs text name).Asks
  window : ∀ skip take, Plain (d.window skip take)
  ordering : ∀ {keys}, (∀ key ∈ keys, key.expr.Asks) → (d.ordering keys).Asks
  placeholder : ∀ index, questions (d.placeholder index) = 1

theorem Dialect.positional_sqlite : sqlite.Positional where
  label := Identifier.plain_quoted
  qualify := Identifier.plain_qualified
  selectAs asks plain :=
    asks.append (SqlText.asks_verbatim (Plain.append (by decide) (Identifier.plain_quoted plain)))
  window skip take := by
    have limit : Plain (Sqlite.limitClause take) := by
      cases take with
      | none => decide
      | some count => exact Plain.append (by decide) (plain_number count)
    show Plain (if skip > 0 then _ else _)
    split
    · exact (limit.append (by decide)).append (plain_number skip)
    · exact limit
  ordering := by
    intro keys each
    refine (SqlText.asks_verbatim (by decide)).append (SqlText.asks_join (by decide) ?_)
    intro part member
    obtain ⟨⟨expr, direction, nulls⟩, listed, inside⟩ := List.mem_flatMap.1 member
    have asks : expr.Asks := each _ listed
    have own : (expr ++ SqlText.verbatim (" " ++ direction.keyword)).Asks :=
      asks.append (SqlText.asks_verbatim (by cases direction with | ascending | descending => decide))
    cases nulls with
    | none =>
      obtain rfl := List.mem_singleton.1 inside
      exact own
    | some placement =>
      cases placement with
      | first | last =>
        rcases List.mem_pair.1 inside with rfl | rfl
        · exact asks.append (SqlText.asks_verbatim (by decide))
        · exact own
  placeholder _ := by
    show questions "?" = 1
    decide

namespace Render

/-- Whatever has been named and numbered before, the outcome has the property. -/
def Yields {α : Type} (P : α → Prop) (m : Render α) : Prop := ∀ r, P (m.run r).1

variable {α β : Type} {P : α → Prop} {Q : β → Prop}

theorem Yields.pure {a : α} (holds : P a) : Yields P (Pure.pure a) := fun _ => holds

theorem Yields.bind {m : Render α} {f : α → Render β} (first : Yields P m)
    (next : ∀ a, P a → Yields Q (f a)) : Yields Q (m >>= f) :=
  fun r => next _ (first r) _

theorem Yields.mapM {f : α → Render β} {parts : List α} (each : ∀ part ∈ parts, Yields Q (f part)) :
    Yields (∀ result ∈ ·, Q result) (parts.mapM f) := by
  induction parts with
  | nil => exact .pure fun _ none => absurd none List.not_mem_nil
  | cons first rest ih =>
    obtain ⟨here, later⟩ := List.forall_mem_cons.1 each
    rw [List.mapM_cons]
    refine here.bind fun result holds => (ih later).bind fun results all => .pure ?_
    exact List.forall_mem_cons.2 ⟨holds, all⟩

theorem asks_parenthesised {text : SqlText} (asks : text.Asks) : (parenthesised text).Asks :=
  ((SqlText.asks_verbatim (by decide)).append asks).append (SqlText.asks_verbatim (by decide))

theorem asks_unlessEmpty {ε : Type} {parts : List ε} {clause : Render SqlText}
    (asks : Yields SqlText.Asks clause) : Yields SqlText.Asks (unlessEmpty parts clause) := by
  unfold unlessEmpty
  split
  · exact .pure fun _ none => absurd none List.not_mem_nil
  · exact asks

end Render

open Render

/-- A style in which the names of sources hold no question mark either. -/
structure Style.Positional (style : Style) : Prop where
  dialect : style.dialect.Positional
  stem : Plain style.tableStem

theorem Style.Positional.aliasName {style : Style} (positional : style.Positional)
    (source : Alias) : Yields Plain (style.aliasName source) :=
  fun _ => positional.stem.append (plain_number _)

section
variable {style : Style}

mutual

theorem Segment.asks_render (positional : style.Positional) :
    ∀ {segment : Segment}, segment.AllTexts Plain → Yields SqlText.Asks (segment.render style)
  | .verbatim _, plain => .pure (SqlText.asks_verbatim plain)
  | .column _ _, plain => (positional.aliasName _).bind fun _ table =>
    .pure (List.forall_mem_singleton.2 (positional.dialect.qualify table plain))
  | .param _, _ => fun _ => List.forall_mem_singleton.2 (positional.dialect.placeholder _)
  | .nested _, texts => Fragment.asks_render positional (by exact texts)
  | .token _ _, texts => Fragment.asks_render positional (by exact texts)

theorem Fragment.asks_render (positional : style.Positional) :
    ∀ {f : Fragment}, Fragment.AllTexts Plain f → Yields SqlText.Asks (Fragment.render style f)
  | [], _ => .pure fun _ none => absurd none List.not_mem_nil
  | _ :: _, ⟨first, rest⟩ => (Segment.asks_render positional first).bind fun _ here =>
    (Fragment.asks_render positional rest).bind fun _ later => .pure (here.append later)

end

namespace Render
variable (positional : style.Positional) {parts : List Fragment}
  (texts : ∀ f ∈ parts, f.AllTexts Plain)
include positional

theorem asks_order {items : List OrderItem}
    (texts : ∀ item ∈ items, item.expr.AllTexts Plain) :
    Yields SqlText.Asks (order style items) := by
  have each : ∀ item ∈ items, Yields (fun key => key.expr.Asks) (sortKey style item) :=
    fun item member => (Fragment.asks_render positional (texts item member)).bind fun _ asks =>
      .pure asks
  refine asks_unlessEmpty ((Yields.mapM each).bind fun keys all => .pure ?_)
  exact (SqlText.asks_verbatim (by decide)).append (positional.dialect.ordering all)

theorem asks_columns {items : List OutputColumn}
    (texts : ∀ c ∈ items, c.expr.AllTexts Plain ∧ Plain c.name) :
    Yields SqlText.Asks (columns style items) := by
  have each : ∀ c ∈ items, Yields SqlText.Asks (column style c) := fun c member =>
    (Fragment.asks_render positional (texts c member).1).bind fun _ asks =>
      .pure (positional.dialect.selectAs asks (texts c member).2)
  unfold columns
  split
  · exact .pure (SqlText.asks_verbatim (by decide))
  · exact (Yields.mapM each).bind fun parts all => .pure (SqlText.asks_join (by decide) all)

theorem asks_window (skip : Nat) (take : Option Nat) : (window style skip take).Asks := by
  unfold window
  split
  · exact SqlText.asks_verbatim (Plain.append (by decide) (positional.dialect.window skip take))
  · exact fun _ none => absurd none List.not_mem_nil

include texts

theorem asks_fragments : Yields (∀ text ∈ ·, SqlText.Asks text) (fragments style parts) :=
  .mapM fun f member => Fragment.asks_render positional (texts f member)

theorem asks_conjunction : Yields SqlText.Asks (conjunction style parts) := by
  unfold conjunction
  split
  next condition => exact Fragment.asks_render positional (texts _ List.mem_cons_self)
  next =>
    refine (asks_fragments positional texts).bind fun written each => .pure ?_
    refine SqlText.asks_join (by decide) (List.forall_mem_map.2 fun part member => ?_)
    exact asks_parenthesised (each part member)

theorem asks_filters : Yields SqlText.Asks (filters style parts) :=
  asks_unlessEmpty ((asks_conjunction positional texts).bind fun _ asks =>
    .pure ((SqlText.asks_verbatim (by decide)).append asks))

theorem asks_having : Yields SqlText.Asks (having style parts) :=
  asks_unlessEmpty ((asks_conjunction positional texts).bind fun _ asks =>
    .pure ((SqlText.asks_verbatim (by decide)).append asks))

theorem asks_keys : Yields SqlText.Asks (keys style parts) :=
  asks_unlessEmpty ((asks_fragments positional texts).bind fun _ each =>
    .pure ((SqlText.asks_verbatim (by decide)).append (SqlText.asks_join (by decide) each)))

end Render

theorem Style.Positional.labelled (positional : style.Positional) {text : SqlText}
    (asks : text.Asks) (source : Alias) : Yields SqlText.Asks (style.labelled text source) := by
  refine (positional.aliasName source).bind fun name plain => .pure ?_
  exact (asks.append (SqlText.asks_verbatim (by decide))).append
    (List.forall_mem_singleton.2 (positional.dialect.label plain))

mutual

theorem Source.asks_render (positional : style.Positional) :
    ∀ {source : Source}, source.text.AllTexts Plain →
      (∀ s ∈ source.selects, s.AllTexts Plain) → Yields SqlText.Asks (source.render style)
  | .table _ _, text, _ => (Fragment.asks_render positional text).bind fun _ asks =>
    positional.labelled asks _
  | .subquery _ _, _, nested => (Statement.asks_render positional nested).bind fun _ asks =>
    positional.labelled (asks_parenthesised asks) _

theorem JoinClause.asks_renderAll (positional : style.Positional) :
    ∀ {joins : List JoinClause},
      (∀ j ∈ joins, j.condition.AllTexts Plain ∧ j.source.text.AllTexts Plain) →
      (∀ s ∈ JoinClause.allSelects joins, s.AllTexts Plain) →
        Yields SqlText.Asks (JoinClause.renderAll style joins)
  | [], _, _ => .pure fun _ none => absurd none List.not_mem_nil
  | ⟨kind, source, condition⟩ :: rest, own, nested => by
    obtain ⟨⟨ofCondition, text⟩, others⟩ := List.forall_mem_cons.1 own
    obtain ⟨inSource, inRest⟩ := List.forall_mem_append.1 nested
    refine (Source.asks_render positional text inSource).bind fun joined first => ?_
    refine (Fragment.asks_render positional ofCondition).bind fun met second => ?_
    refine (JoinClause.asks_renderAll positional others inRest).bind fun after third => .pure ?_
    have keyword : Plain kind.keyword := by
      cases kind with
      | left | inner => decide
    exact ((((SqlText.asks_verbatim keyword).append first).append
      (SqlText.asks_verbatim (by decide))).append second).append third

/-- A statement is written without question marks but those of its parameters. -/
theorem Statement.asks_render (positional : style.Positional) :
    ∀ {s : Statement}, (∀ select ∈ s.selects, select.AllTexts Plain) →
      Yields SqlText.Asks (s.render style)
  | ⟨columns, ⟨source, joins, filters, keys, grouped, having, order, skip, take⟩⟩, texts => by
    obtain ⟨here, nested⟩ := List.forall_mem_cons.1 texts
    obtain ⟨inSource, inJoins⟩ := List.forall_mem_append.1 nested
    have own := here.body
    simp only [Body.fragments, Body.texts, Body.sources, List.forall_mem_append,
      List.forall_mem_map, List.map_cons, List.forall_mem_cons] at own
    obtain ⟨⟨⟨⟨⟨conditions, ofFilters⟩, ofKeys⟩, ofHaving⟩, ofOrder⟩, text, joined⟩ := own
    refine (asks_columns positional here.columns).bind fun _ first => ?_
    refine (Source.asks_render positional text inSource).bind fun _ second => ?_
    refine (JoinClause.asks_renderAll positional
      (fun j member => ⟨conditions j member, joined j member⟩) inJoins).bind fun _ third => ?_
    refine (asks_filters positional ofFilters).bind fun _ fourth => ?_
    refine (asks_keys positional ofKeys).bind fun _ fifth => ?_
    refine (asks_having positional ofHaving).bind fun _ sixth => ?_
    refine (asks_order positional ofOrder).bind fun _ seventh => .pure ?_
    exact ((((((((SqlText.asks_verbatim (by decide)).append first).append
      (SqlText.asks_verbatim (by decide))).append second).append third).append fourth).append
      fifth).append sixth).append seventh |>.append (asks_window positional skip take)

end
end

def Fragment.params (f : Fragment) : List Json := f.marks.filterMap Mark.param?

namespace Passage

def params (p : Passage) : List Json := p.marks.filterMap Mark.param?

theorem params_shown (p : Passage) :
    (p.shown.filterMap Mark.param?).length = p.times * p.params.length := by
  rw [shown, List.filterMap_flatten, List.map_replicate]
  simp [params]

/-- Written at least once each, passages show every parameter, and no more than that exactly if none
with a parameter is repeated. -/
theorem length_params_shown {script : List Passage} (written : ∀ p ∈ script, 1 ≤ p.times) :
    let bound := ((script.flatMap marks).filterMap Mark.param?).length
    let shown := ((script.flatMap shown).filterMap Mark.param?).length
    bound ≤ shown ∧ (shown = bound → ∀ p ∈ script, p.times = 1 ∨ p.params = []) := by
  induction script with
  | nil => exact ⟨Nat.le_refl _, fun _ _ none => absurd none List.not_mem_nil⟩
  | cons p rest ih =>
    obtain ⟨here, later⟩ := List.forall_mem_cons.1 written
    obtain ⟨most, exact⟩ := ih later
    have own : p.params.length ≤ p.times * p.params.length := Nat.le_mul_of_pos_left _ here
    intro bound shown
    have boundSplit : bound = p.params.length +
        ((rest.flatMap marks).filterMap Mark.param?).length := by
      simp only [bound, List.flatMap_cons, List.filterMap_append, List.length_append]
      rfl
    have shownSplit : shown = p.times * p.params.length +
        ((rest.flatMap Passage.shown).filterMap Mark.param?).length := by
      simp only [shown, List.flatMap_cons, List.filterMap_append, List.length_append, params_shown]
    refine ⟨by omega, fun same => List.forall_mem_cons.2 ⟨?_, exact (by omega)⟩⟩
    have single : p.times * p.params.length = 1 * p.params.length := by omega
    rcases Nat.eq_zero_or_pos p.params.length with none | some
    · exact .inr (List.eq_nil_of_length_eq_zero none)
    · exact .inl (Nat.eq_of_mul_eq_mul_right some single)

end Passage

/-- Placeholders stand for as many parameters. -/
theorem SqlText.length_indices {text : SqlText} {style : Style} {r : Rendering}
    (given : ∀ piece ∈ text, piece.Given style r) : (text.filterMap SqlPiece.index?).length =
      ((text.filterMap (SqlPiece.mark? r.params)).filterMap Mark.param?).length := by
  have each : ∀ piece ∈ text, piece.index?.isSome =
      ((piece.mark? r.params).bind Mark.param?).isSome := by
    intro piece member
    cases piece with
    | verbatim | column | label => rfl
    | placeholder index written =>
      have bound : index < r.params.length := (given _ member).1
      simp [SqlPiece.index?, SqlPiece.mark?, List.getElem?_eq_getElem bound, Mark.param?]
  rw [List.filterMap_filterMap, List.length_filterMap_eq_countP, List.length_filterMap_eq_countP]
  exact List.countP_congr fun piece member => by rw [each piece member]

/-- A sort key with a NULL placement holds a parameter, somewhere in the statement. -/
def Statement.RepeatsParam (s : Statement) : Prop :=
  ∃ select ∈ s.selects, ∃ key ∈ select.body.order, key.nulls ≠ none ∧ key.expr.params ≠ []

instance (s : Statement) : Decidable s.RepeatsParam :=
  inferInstanceAs (Decidable (∃ select ∈ s.selects, ∃ key ∈ select.body.order, _ ∧ _))

/-- There are as many question marks as parameters, and each parameter is asked for by the question
mark of its number. -/
structure Query.LinesUp (q : Query) : Prop where
  count : questions q.sql = q.params.length
  place : ∀ before index written after, q.text = before ++ .placeholder index written :: after →
    questions (SqlText.toString before) = index

/-- What the question marks of a query stand for. -/
structure Query.Positional (q : Query) (s : Statement) : Prop where
  /-- Up to any point of the text, its question marks are its placeholders. -/
  placeholders : ∀ before after, q.text = before ++ after →
    questions (SqlText.toString before) = (before.filterMap SqlPiece.index?).length
  /-- With its parameters put in place of their numbers, the text is the statement, but for sort
  keys with a NULL placement, which it shows twice. -/
  marks : q.text.filterMap (SqlPiece.mark? q.params) =
    (s.script Dialect.Sqlite.times).flatMap Passage.shown
  linesUp : q.LinesUp ↔ ¬ s.RepeatsParam

namespace Statement
variable {s : Statement}

theorem times_pos : ∀ passage ∈ s.script Dialect.Sqlite.times, 1 ≤ passage.times := by
  intro passage member
  rcases Statement.ofKey_script member with one | ⟨_, -, key, -, rfl⟩
  · exact Nat.le_of_eq one.symm
  · show 1 ≤ if key.nulls.isSome then 2 else 1
    split
    · decide
    · decide

/-- A statement without such a key shows no parameter twice. -/
theorem once_of_not_repeats (single : ¬ s.RepeatsParam) :
    ∀ passage ∈ s.script Dialect.Sqlite.times, passage.times = 1 ∨ passage.params = [] := by
  intro passage member
  rcases Statement.ofKey_script member with one | ⟨select, listed, key, ordered, rfl⟩
  · exact .inl one
  · by_cases placed : key.nulls = none
    · exact .inl (by rw [placed]; rfl)
    · by_cases none : key.expr.params = []
      · exact .inr none
      · exact absurd ⟨select, listed, key, ordered, placed, none⟩ single

end Statement

/-- Placeholders that are numbered in the order of the text line up with their question marks. -/
theorem Query.linesUp_of_numbered {q : Query}
    (upTo : ∀ before after, q.text = before ++ after →
      questions (SqlText.toString before) = (before.filterMap SqlPiece.index?).length)
    (numbers : q.text.filterMap SqlPiece.index? = List.range q.params.length) : q.LinesUp where
  count := by
    have all := upTo q.text [] (List.append_nil _).symm
    rw [numbers, List.length_range] at all
    exact all
  place before index written after split := by
    rw [upTo before _ split]
    have parts : before.filterMap SqlPiece.index? ++ index :: after.filterMap SqlPiece.index? =
        List.range q.params.length := by
      rw [← numbers, split, List.filterMap_append]
      rfl
    have here := congrArg (·[(before.filterMap SqlPiece.index?).length]?) parts
    simp only [List.getElem?_append_right (Nat.le_refl _), Nat.sub_self,
      List.getElem?_cons_zero] at here
    obtain ⟨bound, same⟩ := List.getElem?_eq_some_iff.1 here.symm
    exact (List.getElem_range bound).symm.trans same

theorem Plan.positional_write (p : Plan) {stem : String} (plain : Plain stem)
    (texts : ∀ s ∈ p.statement.selects, s.AllTexts Plain) :
    (p.write ⟨.sqlite, stem⟩).Positional p.statement := by
  let style : Style := ⟨.sqlite, stem⟩
  let q := p.write style
  let done := ((p.statement.render style).run {}).2
  let script := p.statement.script Dialect.Sqlite.times
  have wrote : Wrote style {} done script q.text.marked :=
    Statement.wrote_render Dialect.repeats_sqlite p.statement {}
  have asks : q.text.Asks := Statement.asks_render ⟨Dialect.positional_sqlite, plain⟩ texts {}
  have upTo : ∀ before after, q.text = before ++ after →
      questions (SqlText.toString before) = (before.filterMap SqlPiece.index?).length :=
    fun before after split => SqlText.Asks.questions_eq fun piece member =>
      asks piece (split ▸ List.mem_append_left _ member)
  have marks : q.text.filterMap (SqlPiece.mark? q.params) = script.flatMap Passage.shown := by
    rw [← wrote.marks]
    exact (SqlText.filterMap_marked (fun _ => rfl) _).symm
  have params : q.params = (script.flatMap Passage.marks).filterMap Mark.param? := wrote.params
  have indices : q.text.filterMap SqlPiece.index? = q.text.marked.filterMap SqlPiece.index? :=
    (SqlText.filterMap_marked (fun _ => rfl) _).symm
  have total : questions q.sql = ((script.flatMap Passage.shown).filterMap Mark.param?).length := by
    refine (upTo q.text [] (List.append_nil _).symm).trans ?_
    rw [indices, SqlText.length_indices wrote.given, wrote.marks]
  refine ⟨upTo, marks, fun linesUp repeats => ?_, fun single => ?_⟩
  · obtain ⟨select, listed, key, ordered, placed, some⟩ := repeats
    have bound := (Passage.length_params_shown Statement.times_pos).2
      (total.symm.trans (linesUp.count.trans (congrArg List.length params)))
    have twice : Dialect.Sqlite.times key.nulls = 2 := if_pos (Option.isSome_iff_ne_none.2 placed)
    rcases bound _ (Statement.mem_script_of_key ordered listed) with once | none
    · exact absurd (twice.symm.trans once) (by decide)
    · exact some none
  · refine Query.linesUp_of_numbered upTo ?_
    rw [indices, wrote.numbers (Statement.once_of_not_repeats single), params,
      List.range_eq_range']
    rfl

/-- Queries with positional parameters, for views and settings that write no question mark
themselves. -/
theorem Compiler.positional_compile {v : View} {settings : Settings}
    (texts : ∀ f ∈ v.fragments, f.AllTexts Plain) (table : Plain settings.tableStem)
    (column : Plain settings.columnStem) (supply : Supply) :
    let c : Compiler := ⟨.sqlite, settings⟩
    ((c.compile v).run supply).1.Positional ((v.plan settings).run supply).1.statement ∧
      ((c.compileCount v).run supply).1.Positional
        ((v.countPlan settings).run supply).1.statement := by
  have names : ∀ index, Plain (settings.columnName index) := fun index =>
    column.append (plain_number index)
  exact ⟨Plan.positional_write _ table (View.allTexts_plan texts names supply),
    Plan.positional_write _ table (View.allTexts_countPlan texts names supply (by decide))⟩

namespace View

/-- The orders for more than three, in the order of their amounts, unknown ones first. -/
def paged : List Step :=
  [.filter (amount.toFragment ++ Fragment.verbatim " > " ++ Fragment.param (.whole 3)),
    .order [⟨amount.toFragment, .ascending, some .first⟩]]

/-- The orders for five last, after those for less or more. -/
def ranked : List Step :=
  [.order [⟨amount.toFragment ++ Fragment.verbatim " = " ++ Fragment.param (.whole 5),
    .ascending, some .first⟩]]

theorem positional_compile_paged : ∃ v, orders.applyAll paged = .ok v ∧
    (∀ f ∈ v.fragments, f.AllTexts Plain) ∧
    ((Compiler.compile ⟨.sqlite, {}⟩ v).run { tokens := 1, aliases := 1 }).1.LinesUp := by
  refine ⟨_, rfl, by decide, ?_⟩
  refine (Compiler.positional_compile ?texts (by decide) (by decide) _).1.linesUp.2 ?single
  case texts => decide
  case single => decide

theorem not_linesUp_of_placed : ∃ v, orders.applyAll ranked = .ok v ∧
    (∀ f ∈ v.fragments, f.AllTexts Plain) ∧
    ¬ ((Compiler.compile ⟨.sqlite, {}⟩ v).run { tokens := 1, aliases := 1 }).1.LinesUp := by
  refine ⟨_, rfl, by decide, fun linesUp => ?_⟩
  exact absurd linesUp.count (by decide +kernel)

end View
end QueryViews
