import QueryViews.Proofs.Arithmetic.Compositions
import QueryViews.Proofs.Arithmetic.Subqueries

/-! Rows in which the columns of subqueries hold what the subqueries select. As every subquery reads
only sources that were numbered before it, whatever the tables hold extends to such a row. -/

namespace QueryViews

open Arithmetic

/-- The SQL of an expression on its own. -/
def Fragment.sql (style : Style) (f : Fragment) : SqlText := ((Fragment.render style f).run {}).1

/-- The row holds what the tables hold, and in the columns of subqueries the values of the
arithmetic that they select. -/
structure Statement.Settled {α : Type} (s : Statement) (style : Style) (I : Meaning α)
    (tables row : Alias × String → α) : Prop where
  tables : ∀ source, source ∉ s.subqueries.map Prod.fst → ∀ name,
    row (source, name) = tables (source, name)
  subqueries : ∀ entry ∈ s.subqueries, ∀ c ∈ entry.2.columns, ∀ value,
    (c.expr.sql style).evaluate? I row = some value → row (entry.1, c.name) = value

theorem Arithmetic.Lexeme.operand_not_mem_of_ofChars? {ν : Type} {chars : List Char}
    {xs : List (Lexeme ν)} (read : ofChars? chars = some xs) (name : ν) : .operand name ∉ xs := by
  induction chars generalizing xs with
  | nil =>
    cases read
    exact List.not_mem_nil
  | cons c rest ih =>
    obtain ⟨others, ofRest, read⟩ := Option.bind_eq_some_iff.1 read
    split at read
    next =>
      cases read
      exact ih ofRest
    next =>
      obtain ⟨symbol, isSymbol, same⟩ := Option.bind_eq_some_iff.1 read
      cases same
      have other : symbol ≠ .operand name := by
        rintro rfl
        unfold ofSymbol? at isSymbol
        split at isSymbol <;> cases isSymbol
      exact List.not_mem_cons_of_ne_of_not_mem other.symm (ih ofRest)

theorem SqlText.column_mem_of_operand {text : SqlText} {xs : List (Lexeme (Alias × String))}
    (read : text.lexemes? = some xs) {c : Alias × String} (operand : .operand c ∈ xs) :
    ∃ written, .column c.1 c.2 written ∈ text := by
  induction text generalizing xs with
  | nil =>
    cases read
    exact absurd operand List.not_mem_nil
  | cons piece rest ih =>
    cases piece with
    | column source name written =>
      obtain ⟨others, ofRest, same⟩ := Option.bind_eq_some_iff.1 read
      cases same
      rcases List.mem_cons.1 operand with first | later
      · cases first
        exact ⟨written, List.mem_cons_self⟩
      · exact (ih ofRest later).imp fun _ => List.mem_cons_of_mem _
    | verbatim text =>
      obtain ⟨literal, ofText, read⟩ := Option.bind_eq_some_iff.1 read
      obtain ⟨others, ofRest, same⟩ := Option.bind_eq_some_iff.1 read
      cases same
      rcases List.mem_append.1 operand with first | later
      · exact absurd first (Lexeme.operand_not_mem_of_ofChars? ofText c)
      · exact (ih ofRest later).imp fun _ => List.mem_cons_of_mem _
    | label | placeholder => cases read

section Rendered
variable {style : Style}

mutual

theorem Segment.column_mem_of_render {source : Alias} {name written : String} :
    ∀ (segment : Segment) (r : Rendering),
      .column source name written ∈ ((segment.render style).run r).1 →
        (source, name) ∈ segment.columns
  | .column a other, r, inside => by
    obtain ⟨rfl, rfl, -⟩ := SqlPiece.column.inj (List.mem_singleton.1 inside)
    exact List.mem_singleton_self _
  | .nested inner, r, inside => Fragment.column_mem_of_render inner r inside
  | .token _ definition, r, inside => Fragment.column_mem_of_render definition r inside
  | .verbatim _, r, inside | .param _, r, inside => nomatch List.mem_singleton.1 inside

/-- A rendered column is one that the expression reads. -/
theorem Fragment.column_mem_of_render {source : Alias} {name written : String} :
    ∀ (f : Fragment) (r : Rendering),
      .column source name written ∈ ((Fragment.render style f).run r).1 →
        (source, name) ∈ Fragment.columns f
  | [], _, inside => absurd inside List.not_mem_nil
  | segment :: rest, r, inside => by
    rcases List.mem_append.1 inside with first | later
    · exact List.mem_append_left _ (Segment.column_mem_of_render segment r first)
    · exact List.mem_append_right _ (Fragment.column_mem_of_render rest _ later)

end

theorem Fragment.evaluate?_congr {α : Type} {I : Meaning α} {row other : Alias × String → α}
    {f : Fragment} (same : ∀ c ∈ f.columns, row c = other c) :
    (f.sql style).evaluate? I row = (f.sql style).evaluate? I other := by
  unfold SqlText.evaluate?
  cases read : (f.sql style).lexemes? with
  | none => rfl
  | some xs =>
    refine Arithmetic.evaluate?_congr fun c operand => same c ?_
    obtain ⟨written, inside⟩ := SqlText.column_mem_of_operand read operand
    exact Fragment.column_mem_of_render f {} inside

end Rendered

namespace Statement
variable {α : Type} (s : Statement) (style : Style) (I : Meaning α) (tables : Alias × String → α)

/-- The row once all subqueries below a number have been evaluated. -/
def settledBelow : Nat → Alias × String → α
  | 0 => tables
  | bound + 1 => fun c =>
    if c.1.index = bound then
      let selected := (s.subqueries.lookup c.1).bind fun q => q.expr? c.2
      (selected.bind fun f => (f.sql style).evaluate? I (settledBelow bound)).getD (tables c)
    else settledBelow bound c

/-- Every column as it is once its own source has been evaluated. -/
def settledRow (c : Alias × String) : α := s.settledBelow style I tables (c.1.index + 1) c

variable {s style I tables}

theorem settledBelow_of_lt {bound : Nat} {c : Alias × String} (below : c.1.index < bound) :
    s.settledBelow style I tables bound c = s.settledRow style I tables c := by
  induction bound with
  | zero => exact absurd below (Nat.not_lt_zero _)
  | succ bound ih =>
    rcases Nat.eq_or_lt_of_le (Nat.le_of_lt_succ below) with rfl | earlier
    · rfl
    · exact (if_neg (Nat.ne_of_lt earlier)).trans (ih earlier)

/-- No two subqueries are one source, no name is selected twice, and every subquery reads only
sources with lower numbers. -/
structure Layered (s : Statement) : Prop where
  sources : (s.subqueries.map Prod.fst).Nodup
  names : ∀ entry ∈ s.subqueries, (entry.2.columns.map OutputColumn.name).Nodup
  earlier : ∀ entry ∈ s.subqueries, ∀ c ∈ entry.2.columns, ∀ read ∈ c.expr.columns,
    read.1.index < entry.1.index

theorem expr?_of_mem {q : Statement} (distinct : (q.columns.map OutputColumn.name).Nodup)
    {c : OutputColumn} (selected : c ∈ q.columns) : q.expr? c.name = some c.expr := by
  refine lookup_eq_some_of_mem ?_ (List.mem_map_of_mem selected)
  rwa [List.map_map]

/-- Whatever the tables hold, there is a settled row over it. -/
theorem Layered.settled (layered : s.Layered) :
    s.Settled style I tables (s.settledRow style I tables) where
  tables source outside name := by
    have absent : s.subqueries.lookup source = none :=
      List.lookup_eq_none_iff.2 fun entry inside => bne_iff_ne.2 fun same =>
        outside (List.mem_map.2 ⟨entry, inside, same.symm⟩)
    simp [settledRow, settledBelow, absent]
  subqueries entry inside c selected value evaluated := by
    have found : s.subqueries.lookup entry.1 = some entry.2 :=
      lookup_eq_some_of_mem layered.sources inside
    have known : (c.expr.sql style).evaluate? I (s.settledBelow style I tables entry.1.index) =
        some value := by
      rw [← evaluated]
      exact Fragment.evaluate?_congr fun read reads =>
        settledBelow_of_lt (layered.earlier entry inside c selected read reads)
    have named := expr?_of_mem (layered.names entry inside) selected
    simp [settledRow, settledBelow, found, named, known]

end Statement
end QueryViews
