import QueryViews.Proofs.Arithmetic.SettledRows
import QueryViews.Proofs.Rendering.KeyTexts

/-! Composed columns in a compiled query. Their text keeps the value that the composition is meant
to have as long as no operand would need parentheses where it is spliced in. An operand that a
bracket has redirected is a single column there, which holds the value of its own text. -/

namespace QueryViews

open Arithmetic

/-- The text has the value of the tree under all meanings that regroup so, whatever the columns
hold. -/
def SqlText.Keeps (text : SqlText) (t : Term (Alias × String)) (regroups : Operator → Bool) :
    Prop :=
  ∀ (α : Type) (I : Meaning α), I.Regroups regroups → ∀ row : Alias × String → α,
    text.evaluate? I row = some (t.value I row)

namespace Composition

/-- The composition itself and its operands at any depth. -/
def parts : Composition → List Composition
  | column id source name => [column id source name]
  | operation id writer op left right =>
    operation id writer op left right :: (left.parts ++ right.parts)

theorem self_mem_parts (t : Composition) : t ∈ t.parts := by
  cases t <;> exact List.mem_cons_self

theorem parts_subset {t u : Composition} (inside : u ∈ t.parts) : u.parts ⊆ t.parts := by
  induction t with
  | column id source name =>
    obtain rfl := List.mem_singleton.1 inside
    exact List.Subset.refl _
  | operation id writer op left right ofLeft ofRight =>
    rcases List.mem_cons.1 inside with rfl | below
    · exact List.Subset.refl _
    · rcases List.mem_append.1 below with inLeft | inRight
      · exact fun w part => List.mem_cons_of_mem _ (List.mem_append_left _ (ofLeft inLeft part))
      · exact fun w part => List.mem_cons_of_mem _ (List.mem_append_right _ (ofRight inRight part))

/-- Where none of its parts is redirected, the composition is spliced together from its leaves. -/
theorem under_eq_tree {r : Redirects} {t : Composition}
    (inlined : ∀ u ∈ t.parts, r.column? u.token.id = none) : t.under r = t.tree := by
  induction t with
  | column id source name =>
    have kept : r.column? id = none := inlined _ (List.mem_singleton_self _)
    rw [under, kept]
    rfl
  | operation id writer op left right ofLeft ofRight =>
    obtain ⟨kept, below⟩ := List.forall_mem_cons.1 inlined
    have kept : r.column? id = none := kept
    obtain ⟨inLeft, inRight⟩ := List.forall_mem_append.1 below
    rw [under, kept, tree, ofLeft inLeft, ofRight inRight]

/-- Where the redirects hold, and in every subquery that selects a part of it, the composition is
spliced together from operands that bind tightly enough. -/
structure PlainIn (t : Composition) (s : Statement) (r : Redirects) (regroups : Operator → Bool) :
    Prop where
  here : (t.under r).Plain regroups
  below : ∀ entry ∈ s.subqueries, ∀ (b : Build) (body : Body) (used : TokenSet), b.Reached →
    entry = (b.nextAlias, (b.statement body used.toList).1) →
      ∀ u ∈ t.parts, u.token ∈ used.toList → (u.under b.redirects).Plain regroups

theorem plain_parts {regroups : Operator → Bool} {t : Composition} (plain : t.tree.Plain regroups) :
    ∀ u ∈ t.parts, u.tree.Plain regroups := by
  induction t with
  | column id source name => exact List.forall_mem_singleton.2 trivial
  | operation id writer op left right ofLeft ofRight =>
    exact List.forall_mem_cons.2 ⟨plain, List.forall_mem_append.2
      ⟨ofLeft plain.1.2, ofRight plain.2.2⟩⟩

/-- A plain tree stays so wherever brackets cut it. -/
theorem plainIn_of_plain {regroups : Operator → Bool} {t : Composition}
    (plain : t.tree.Plain regroups) (s : Statement) (r : Redirects) : t.PlainIn s r regroups where
  here := (plain_under plain).2.2
  below _ _ _ _ _ _ _ u inside _ := (plain_under (plain_parts plain u inside)).2.2

section Text
variable {r : Redirects} (flat : r.Flat) (t : Composition) (style : Style) (before : Rendering)
include flat

theorem evaluate?_text {α : Type} (I : Meaning α) (row : Alias × String → α) :
    ((Fragment.render style (r.expandToken t.token)).run before).1.evaluate? I row =
      Arithmetic.evaluate? I row (t.under r).lexemes := by
  rw [t.expandToken_token flat, Term.evaluate?_render]

theorem exists_parse_text :
    let text := ((Fragment.render style (r.expandToken t.token)).run before).1
    ∃ u, text.parse? = some u ∧ ∀ (α : Type) (I : Meaning α) (row : Alias × String → α),
      text.evaluate? I row = some (u.value I row) := by
  intro text
  obtain ⟨u, parsed⟩ := (t.under r).exists_parse
  refine ⟨u, ?_, fun α I row => ?_⟩
  · simp only [text, t.expandToken_token flat, SqlText.parse?, Term.lexemes?_render]
    exact parsed
  · rw [t.evaluate?_text flat, evaluate?_of_reads (parse?_eq_some_iff.1 parsed)]

theorem keeps_text_iff (regroups : Operator → Bool) :
    ((Fragment.render style (r.expandToken t.token)).run before).1.Keeps (t.under r) regroups ↔
      (t.under r).Plain regroups := by
  rw [← Term.evaluate?_iff_plain]
  simp only [SqlText.Keeps, t.evaluate?_text flat]

end Text

section Values
variable {definitions : TokenId → Fragment} {supply : Supply} {α : Type} {I : Meaning α}
  {tables row : Alias × String → α}

/-- If the columns of redirected operands hold what the operands are meant to be, then what is
spliced together is what is meant. -/
theorem value_under {r : Redirects} {t : Composition}
    (issued : t.token.AllTokens (Token.IssuedBy definitions supply))
    (fresh : ∀ source : Alias, source.index < supply.aliases → ∀ name,
      row (source, name) = tables (source, name))
    (held : ∀ u ∈ t.parts, ∀ c, r.column? u.token.id = some c → row c = u.tree.value I tables) :
    (t.under r).value I row = t.tree.value I tables := by
  induction t with
  | column id source name =>
    rw [under]
    cases redirected : r.column? id with
    | none => exact fresh source (issued.self.columns _ (List.mem_singleton_self _)) name
    | some c => exact held _ (List.mem_singleton_self _) c redirected
  | operation id writer op left right ofLeft ofRight =>
    rw [under]
    cases redirected : r.column? id with
    | none =>
      rw [token_operation] at issued
      obtain ⟨-, inLeft, -, inRight, -⟩ := issued
      obtain ⟨-, below⟩ := List.forall_mem_cons.1 held
      obtain ⟨heldLeft, heldRight⟩ := List.forall_mem_append.1 below
      exact congrArg₂ (I op) (ofLeft inLeft heldLeft) (ofRight inRight heldRight)
    | some c => exact held _ (self_mem_parts _) c redirected

theorem allTokens_parts {P : Token → Prop} {t : Composition} (all : t.token.AllTokens P) :
    ∀ u ∈ t.parts, u.token.AllTokens P := by
  induction t with
  | column id source name => exact List.forall_mem_singleton.2 all
  | operation id writer op left right ofLeft ofRight =>
    refine List.forall_mem_cons.2 ⟨all, ?_⟩
    rw [token_operation] at all
    obtain ⟨-, inLeft, -, inRight, -⟩ := all
    exact List.forall_mem_append.2 ⟨ofLeft inLeft, ofRight inRight⟩

end Values

end Composition

section Held
variable {definitions : TokenId → Fragment} {supply : Supply} {s : Statement}

theorem Build.numbered_of_makesOn {P : Token → Prop} {listed : List (Alias × Statement)}
    (makes : ∀ entry ∈ s.subqueries, MakesOn P supply listed entry) {source : Alias}
    (known : source.index < supply.aliases) : source ∉ s.subqueries.map Prod.fst := by
  intro inside
  obtain ⟨entry, member, rfl⟩ := List.mem_map.1 inside
  obtain ⟨b, body, used, through, -, rfl⟩ := makes entry member
  exact Nat.not_le.2 known through.aliases_le

theorem Redirects.column?_eq_some_iff {r : Redirects} {id : TokenId} {c : Alias × String} :
    r.column? id = some c ↔ r.lookup id = some (Fragment.column c.1 c.2) := by
  unfold column?
  split
  next source name found =>
    rw [found]
    simp [Fragment.column, Prod.ext_iff]
  next other =>
    constructor
    · intro none
      cases none
    · exact fun found => (other c.1 c.2 found).elim

/-- In a settled row, whatever a part of the composition was redirected to holds its value. -/
theorem Build.Through.held {b : Build}
    (through : b.Through (Token.IssuedBy definitions supply) supply s.subqueries)
    (makes : ∀ entry ∈ s.subqueries,
      MakesOn (Token.IssuedBy definitions supply) supply s.subqueries entry)
    {style : Style} {α : Type} {I : Meaning α} {tables row : Alias × String → α}
    (settled : s.Settled style I tables row) {regroups : Operator → Bool}
    (lawful : I.Regroups regroups) {t : Composition}
    (issued : t.token.AllTokens (Token.IssuedBy definitions supply)) {r : Redirects}
    (plain : t.PlainIn s r regroups) :
    ∀ u ∈ t.parts, ∀ c, b.redirects.column? u.token.id = some c →
      row c = u.tree.value I tables := by
  induction through with
  | new settings => exact fun u _ c found => nomatch found
  | noted earlier label state ih => exact ih
  | @bracket b earlier body used ofUsed inside ih =>
    intro u part c found
    have ofPart := Composition.allTokens_parts issued u part
    have stands : (b.bracketed body used.toList).redirects.lookup u.token.id =
        some (Fragment.column c.1 c.2) := Redirects.column?_eq_some_iff.1 found
    rw [lookup_bracketed] at stands
    rcases Option.or_eq_some_iff.1 stands with selected | ⟨-, before⟩
    · obtain ⟨name, listed, column⟩ := Option.map_eq_some_iff.1 selected
      obtain ⟨w, member, same, shown⟩ := column_of_lookup listed
      have asked := Token.mem_distinct member
      obtain rfl : w = u.token := Token.eq_of_issued (ofUsed w asked).self ofPart.self same
      obtain rfl : (b.nextAlias, name) = c := by
        simpa [Fragment.column, Prod.ext_iff] using column
      refine settled.subqueries _ inside _ shown _ ?_
      have spliced := plain.below _ inside b body used earlier.reached rfl u part asked
      rw [Fragment.sql, Composition.evaluate?_text earlier.reached.flat, spliced.evaluate? lawful,
        Composition.value_under ofPart]
      · exact fun source known name => settled.tables source (numbered_of_makesOn makes known) name
      · exact fun v inner => ih v (Composition.parts_subset part inner)
    · exact ih u part c (Redirects.column?_eq_some_iff.2 before)

/-- As brackets make them, the subqueries of a statement stand in layers. -/
theorem Build.layered_of_makesOn (distinct : s.aliases.Nodup)
    (makes : ∀ entry ∈ s.subqueries,
      MakesOn (Token.IssuedBy definitions supply) supply s.subqueries entry) : s.Layered where
  sources := s.map_fst_subqueries.nodup distinct
  names entry inside := by
    obtain ⟨b, body, used, -, -, rfl⟩ := makes entry inside
    exact b.nodup_columnNames body used.toList
  earlier entry inside c selected := by
    obtain ⟨b, body, used, through, ofUsed, rfl⟩ := makes entry inside
    rw [columns_eq] at selected
    obtain ⟨named, listed, rfl⟩ := List.mem_map.1 selected
    have issued := ofUsed named.1 (mem_of_mem_outputNames listed)
    have numbered : ∀ read ∈ named.1.definition.columns, read.1.index < b.supply.aliases :=
      fun read reads => Nat.lt_of_lt_of_le (issued.self.columns read reads) through.aliases_le
    rw [Redirects.expandToken, Redirects.expand_of_flat through.reached.flat]
    refine Fragment.columns_substitute (Q := fun read => read.1.index < b.supply.aliases) ?_ ?_
    · exact List.forall_mem_append.2 ⟨numbered, fun _ none => absurd none List.not_mem_nil⟩
    · refine Fragment.allTokens_toFragment.2 (issued.mono fun u _ f found read reads => ?_)
      obtain ⟨a, name, rfl, below⟩ := through.reached.lookup u.id f found
      obtain rfl := List.mem_singleton.1 reads
      exact below

end Held

end QueryViews
