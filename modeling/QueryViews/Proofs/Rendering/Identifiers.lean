import Mathlib.Logic.Function.Basic
import QueryViews.Dialect.Postgres
import QueryViews.Dialect.Sqlite

/-! Delimited identifiers as SQL reads them: a double quote opens one, two in a row stand for a quote
of the name, and a quote by itself closes it. Reading succeeds exactly on what is written for a
name, so no name can end its identifier early or run on into what follows. -/

namespace QueryViews
namespace Identifier

/-- The rest of a name, up to the quote that closes its identifier, and what follows that quote. -/
def readName? : List Char → Option (List Char × List Char)
  | [] => none
  | '"' :: '"' :: rest => (readName? rest).map fun (name, after) => ('"' :: name, after)
  | '"' :: rest => some ([], rest)
  | c :: rest => (readName? rest).map fun (name, after) => (c :: name, after)

/-- The identifier at the very start of a text, and what follows it. -/
def read? : List Char → Option (String × List Char)
  | '"' :: rest => (readName? rest).map fun (name, after) => (String.ofList name, after)
  | _ => none

theorem toList_quoted (name : String) :
    (quoted name).toList = '"' :: (doubled name.toList ++ ['"']) := by
  simp [quoted]

theorem readName?_written {after : List Char} (ends : after.head? ≠ some '"') (name : List Char) :
    readName? (doubled name ++ '"' :: after) = some (name, after) := by
  induction name with
  | nil =>
    cases after with
    | nil => rfl
    | cons c rest =>
      rw [doubled, List.nil_append, readName?]
      rintro more ⟨rfl, -⟩
      exact ends rfl
  | cons c rest ih =>
    by_cases quote : c = '"'
    · subst quote
      rw [doubled, if_pos rfl, List.cons_append, List.cons_append, readName?, ih]
      rfl
    · rw [doubled, if_neg quote, List.cons_append, readName?, ih]
      · rfl
      · exact fun _ same => absurd same quote
      · exact fun same => absurd same quote

theorem eq_written_of_readName? {text name after : List Char}
    (found : readName? text = some (name, after)) :
    text = doubled name ++ '"' :: after ∧ after.head? ≠ some '"' := by
  fun_induction readName? text generalizing name with
  | case1 => exact nomatch found
  | case2 rest ih =>
    obtain ⟨⟨inner, last⟩, below, same⟩ := Option.map_eq_some_iff.1 found
    obtain ⟨rfl, rfl⟩ := Prod.mk.inj same
    obtain ⟨written, ends⟩ := ih below
    exact ⟨by rw [doubled, if_pos rfl, written]; rfl, ends⟩
  | case3 rest single =>
    obtain ⟨rfl, rfl⟩ := Prod.mk.inj (Option.some.inj found)
    refine ⟨rfl, fun doubles => ?_⟩
    obtain ⟨more, same⟩ := List.head?_eq_some_iff.1 doubles
    exact single more same
  | case4 c rest first other ih =>
    obtain ⟨⟨inner, last⟩, below, same⟩ := Option.map_eq_some_iff.1 found
    obtain ⟨rfl, rfl⟩ := Prod.mk.inj same
    obtain ⟨written, ends⟩ := ih below
    exact ⟨by rw [doubled, if_neg other, written]; rfl, ends⟩

/-- An identifier is read exactly where the name has been written and no further quote follows. -/
theorem read?_eq_some_iff {text : List Char} {name : String} {after : List Char} :
    read? text = some (name, after) ↔
      text = (quoted name).toList ++ after ∧ after.head? ≠ some '"' := by
  rw [toList_quoted, List.cons_append, List.append_assoc, List.singleton_append]
  constructor
  · intro found
    unfold read? at found
    split at found
    next rest =>
      obtain ⟨⟨inner, last⟩, below, same⟩ := Option.map_eq_some_iff.1 found
      obtain ⟨rfl, rfl⟩ := Prod.mk.inj same
      obtain ⟨written, ends⟩ := eq_written_of_readName? below
      exact ⟨by rw [String.toList_ofList, written], ends⟩
    next => exact nomatch found
  · rintro ⟨rfl, ends⟩
    rw [read?, readName?_written ends]
    simp

theorem read?_quoted (name : String) : read? (quoted name).toList = some (name, []) :=
  read?_eq_some_iff.2 ⟨(List.append_nil _).symm, nofun⟩

/-- Different names stay different between quotes. -/
theorem quoted_injective : Function.Injective quoted := by
  intro one other same
  have both := (read?_quoted one).symm.trans (same ▸ read?_quoted other)
  exact (Prod.mk.inj (Option.some.inj both)).1

theorem toList_qualified (source column : String) :
    (qualified source column).toList = (quoted source).toList ++ '.' :: (quoted column).toList := by
  simp [qualified]

theorem read?_qualified (source column : String) :
    read? (qualified source column).toList = some (source, '.' :: (quoted column).toList) :=
  read?_eq_some_iff.2 ⟨toList_qualified source column, by simp⟩

theorem qualified_injective : Function.Injective2 qualified := by
  intro source other column name same
  have both := (read?_qualified source column).symm.trans (same ▸ read?_qualified other name)
  obtain ⟨sources, rests⟩ := Prod.mk.inj (Option.some.inj both)
  exact ⟨sources, quoted_injective (String.toList_injective (List.cons.inj rests).2)⟩

end Identifier

/-- Wherever the dialect writes a name, exactly this name is read: alone as the name of a source,
before and after the point of a column, and at the end of an item of the select list. -/
structure Dialect.Delimits (d : Dialect) : Prop where
  label : ∀ name, Identifier.read? (d.label name).toList = some (name, [])
  column : ∀ source name, ∃ rest,
    Identifier.read? (d.qualify source name).toList = some (source, '.' :: rest) ∧
      Identifier.read? rest = some (name, [])
  selected : ∀ expr name, ∃ written : String,
    (d.selectAs expr name).toString = expr.toString ++ " as " ++ written ∧
      Identifier.read? written.toList = some (name, [])
  apart : Function.Injective2 d.qualify

/-- Both dialects keep names whole, quotes in them included, and write different columns
differently. -/
theorem Dialect.delimits_shipped : postgres.Delimits ∧ sqlite.Delimits := by
  have column : ∀ source name, ∃ rest,
      Identifier.read? (Identifier.qualified source name).toList = some (source, '.' :: rest) ∧
        Identifier.read? rest = some (name, []) := fun source name =>
    ⟨_, Identifier.read?_qualified source name, Identifier.read?_quoted name⟩
  have selected : ∀ expr name, ∃ written : String,
      (Identifier.labelled expr name).toString = expr.toString ++ " as " ++ written ∧
        Identifier.read? written.toList = some (name, []) := by
    intro expr name
    refine ⟨Identifier.quoted name, ?_, Identifier.read?_quoted name⟩
    rw [Identifier.labelled, SqlText.toString_append, String.append_assoc]
    simp [SqlText.verbatim, SqlText.toString, SqlPiece.written]
  exact ⟨⟨Identifier.read?_quoted, column, selected, Identifier.qualified_injective⟩,
    ⟨Identifier.read?_quoted, column, selected, Identifier.qualified_injective⟩⟩

/-- A quote at the end of a name does not run together with the one that closes it. -/
example : Identifier.read? (Dialect.postgres.qualify "t\"" "\"c").toList =
    some ("t\"", ".\"\"\"c\"".toList) := by
  decide

end QueryViews
