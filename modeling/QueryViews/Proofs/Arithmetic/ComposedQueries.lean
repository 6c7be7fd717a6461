import QueryViews.Proofs.Arithmetic.ComposedColumns

/-! Compositions among the columns of a query. Each SELECT writes a composition as the operands that
its redirects leave, without any parentheses. That is worth the tree that is spliced together there
exactly if no operand of it would need some; and it is worth the composition if the same holds
wherever brackets have cut it. -/

namespace QueryViews

open Arithmetic

/-- What the text of a composition is worth where the redirects hold. -/
structure SqlText.Composes (text : SqlText) (style : Style) (s : Statement) (r : Redirects)
    (t : Composition) : Prop where
  parsed : ∃ u, text.parse? = some u ∧ ∀ (α : Type) (I : Meaning α) (row : Alias × String → α),
    text.evaluate? I row = some (u.value I row)
  spliced : ∀ regroups, text.Keeps (t.under r) regroups ↔ (t.under r).Plain regroups
  inlined : (∀ u ∈ t.parts, r.column? u.token.id = none) →
    ∀ regroups, text.Keeps t.tree regroups ↔ t.tree.Plain regroups
  settled : ∀ regroups, t.PlainIn s r regroups → ∀ (α : Type) (I : Meaning α),
    I.Regroups regroups → ∀ tables row : Alias × String → α, s.Settled style I tables row →
      text.evaluate? I row = some (t.tree.value I tables)
  plain : ∀ regroups, t.tree.Plain regroups → ∀ (α : Type) (I : Meaning α),
    I.Regroups regroups → ∀ tables row : Alias × String → α, s.Settled style I tables row →
      text.evaluate? I row = some (t.tree.value I tables)

/-- The SELECT stands in the text of the query, and it lists every composition that it is asked
for. -/
structure Site.Composes (site : Site) (q : Query) (style : Style) (s : Statement) (r : Redirects)
    (targets : List Token) : Prop where
  placed : site.text style <:+: q.text
  listed : site.select.columns ≠ [] → ∃ rest, site.text style =
    SqlText.verbatim "select " ++ SqlText.join ", " ((site.listed style).zipWith
      (fun text c => style.dialect.selectAs text c.name) site.select.columns) ++ rest
  texts : ∀ t : Composition, t.token ∈ targets → ∃ (i : Nat) (text : SqlText),
    (site.select.columns.map OutputColumn.expr)[i]? = some (r.expandToken t.token) ∧
      (site.listed style)[i]? = some text ∧ text.Composes style s r t

/-- An operation on plain operands that no subquery writes has to be plain only where it stands. -/
theorem Composition.plainIn_of_unwritten {s : Statement} {r : Redirects}
    {regroups : Operator → Bool} {id : TokenId} {writer : Fin Text.registerBound} {op : Operator}
    {left right : Composition} (ofLeft : left.tree.Plain regroups)
    (ofRight : right.tree.Plain regroups)
    (here : ((operation id writer op left right).under r).Plain regroups)
    (unwritten : ∀ entry ∈ s.subqueries, ∀ f ∈ entry.2.columns.map OutputColumn.expr,
      Segment.verbatim op.written ∉ f) :
    (operation id writer op left right).PlainIn s r regroups where
  here
  below entry inside b body used reached same u part asked := by
    subst same
    rcases List.mem_cons.1 part with rfl | operand
    · have selected := b.expandToken_mem_columns body
        ((Token.distinct_of_nodup used.nodup_ids).symm ▸ asked)
      have absent := unwritten _ inside _ selected
      rw [expandToken_token reached.flat, under] at absent
      rw [under]
      cases redirected : b.redirects.column? id with
      | some c => trivial
      | none =>
        rw [redirected] at absent
        exact absurd (List.mem_append_left _ (List.mem_append_right _ List.mem_cons_self)) absent
    · refine (plain_under ?_).2.2
      rcases List.mem_append.1 operand with inLeft | inRight
      · exact plain_parts ofLeft u inLeft
      · exact plain_parts ofRight u inRight

section
variable {definitions : TokenId → Fragment} {supply : Supply}

theorem Token.mem_distinct_of_issued {tokens : List Token}
    (issued : ∀ t ∈ tokens, t.IssuedBy definitions supply) {t : Token} (member : t ∈ tokens) :
    t ∈ distinct tokens := by
  obtain ⟨u, kept, same⟩ := exists_mem_distinct member
  obtain rfl : u = t := eq_of_issued (issued u (mem_distinct kept)) (issued t member) same
  exact kept

variable {s : Statement}

/-- A SELECT on a build that brackets have made writes its compositions so. -/
theorem Build.Through.composes {b : Build}
    (through : b.Through (Token.IssuedBy definitions supply) supply s.subqueries)
    (makes : ∀ entry ∈ s.subqueries,
      MakesOn (Token.IssuedBy definitions supply) supply s.subqueries entry)
    {site : Site} {q : Query} {style : Style} (placed : site.text style <:+: q.text) {body : Body}
    {targets : List Token} (select : site.select = (b.statement body targets).1)
    (issued : ∀ u ∈ targets, u.AllTokens (Token.IssuedBy definitions supply)) :
    site.Composes q style s b.redirects targets where
  placed
  listed some := by
    obtain ⟨sources, rest, text⟩ := site.text_of_columns some
    rw [List.append_assoc, List.append_assoc] at text
    exact ⟨_, text⟩
  texts t asked := by
    have flat := through.reached.flat
    have kept := Token.mem_distinct_of_issued (fun u member => (issued u member).self) asked
    obtain ⟨i, listed⟩ := List.mem_iff_getElem?.1 (b.expandToken_mem_columns body kept)
    rw [← select] at listed
    obtain ⟨before, -, written, -⟩ := Render.exists_run_of_getElem? style listed site.start
    have settled : ∀ regroups, t.PlainIn s b.redirects regroups → ∀ (α : Type) (I : Meaning α),
        I.Regroups regroups → ∀ tables row : Alias × String → α, s.Settled style I tables row →
          ((Fragment.render style (b.redirects.expandToken t.token)).run before).1.evaluate? I row =
            some (t.tree.value I tables) := by
      intro regroups plain α I lawful tables row settled
      have held := through.held makes settled lawful (issued _ asked) plain
      have fresh : ∀ source : Alias, source.index < supply.aliases → ∀ name,
          row (source, name) = tables (source, name) :=
        fun source known => settled.tables source (numbered_of_makesOn makes known)
      rw [t.evaluate?_text flat, plain.here.evaluate? lawful,
        Composition.value_under (issued _ asked) fresh held]
    refine ⟨i, _, listed, written, ?_⟩
    constructor
    case parsed => exact t.exists_parse_text flat style before
    case spliced => exact t.keeps_text_iff flat style before
    case inlined =>
      intro inlined regroups
      rw [← Composition.under_eq_tree inlined]
      exact t.keeps_text_iff flat style before regroups
    case settled => exact settled
    case plain =>
      intro regroups plain
      exact settled regroups (Composition.plainIn_of_plain plain s b.redirects)

end

/-- In the query for the rows of a view, every SELECT writes the compositions that it is asked for
so; and whatever the tables hold, there is a row in which the subqueries hold what they select. -/
theorem Compiler.composes_compile {definitions : TokenId → Fragment} {supply : Supply} {v : View}
    (made : v.Made supply) (issued : v.AllTokens (Token.IssuedBy definitions supply))
    (c : Compiler) :
    let built := (v.body v.template.tokenSet true).run { settings := c.settings, supply }
    let s := ((v.plan c.settings).run supply).1.statement
    let q := ((c.compile v).run supply).1
    (∀ (α : Type) (I : Meaning α) (tables : Alias × String → α),
      ∃ row, s.Settled c.style I tables row) ∧
    Site.Composes ⟨s, {}⟩ q c.style s built.2.redirects v.template.tokens ∧
    ∀ site ∈ s.sites c.style {}, ∃ (b : Build) (body : Body) (targets : List Token), b.Reached ∧
      site.select = (b.statement body targets).1 ∧
        site.Composes q c.style s b.redirects targets := by
  intro built s q
  have asked := issued.template
  have shape : s = (built.2.statement built.1 v.template.tokens).1 := rfl
  have subqueries : s.subqueries = built.1.subqueries := Build.subqueries_statement _ _ _
  have inside : ∀ entry ∈ built.1.subqueries, entry ∈ s.subqueries :=
    fun entry made => subqueries ▸ made
  obtain ⟨through, makes⟩ := v.through_body v.template.tokenSet true
    { settings := c.settings, supply } issued asked.tokenSet (.new c.settings) inside
  rw [← subqueries] at makes
  have targets : ∀ u ∈ v.template.tokens, u.AllTokens (Token.IssuedBy definitions supply) := by
    intro u member
    obtain ⟨column, inside, rfl⟩ := List.mem_map.1 (Token.mem_distinct member)
    exact asked column inside
  refine ⟨fun α I tables => ?rows, ?top, fun site inside => ?below⟩
  case rows =>
    exact ⟨_, (Build.layered_of_makesOn (made.nodup_plan c.settings) makes).settled⟩
  case top => exact through.composes makes List.infix_rfl shape targets
  case below =>
    have placed : site.text c.style <:+: q.text := Statement.infix_of_mem_sites _ inside
    have select : site.select ∈ s.selects :=
      Statement.select_sites c.style s {} ▸ List.mem_map_of_mem inside
    rw [← Statement.cons_map_snd_subqueries] at select
    rcases List.mem_cons.1 select with whole | nested
    · exact ⟨built.2, built.1, v.template.tokens, through.reached, whole.trans shape,
        through.composes makes placed (whole.trans shape) targets⟩
    · obtain ⟨entry, listed, same⟩ := List.mem_map.1 nested
      obtain ⟨b, body, used, earlier, ofUsed, rfl⟩ := makes entry listed
      exact ⟨b, body, used.toList, earlier.reached, same.symm,
        earlier.composes makes placed same.symm ofUsed⟩

/-- Whole numbers. -/
def integers : Meaning Int
  | .plus => (· + ·)
  | .minus => (· - ·)
  | .times => (· * ·)
  | .per => (· / ·)

/-- After a plus, sums and differences can be grouped either way. -/
theorem regroups_integers : integers.Regroups fun op => op = .plus := by
  intro outer op grouped same a b c
  obtain rfl : outer = .plus := by simpa using grouped
  cases op with
  | plus => exact Int.add_assoc a b c
  | minus => exact Int.add_sub_assoc a b c
  | times | per => cases same

namespace Purchases

def chargeOf : Composition :=
  .operation ⟨4⟩ ⟨0, by decide⟩ .minus (.column ⟨1⟩ ⟨0⟩ "tax") (.column ⟨2⟩ ⟨0⟩ "rebate")

def totalOf : Composition :=
  .operation ⟨5⟩ ⟨1, by decide⟩ .plus (.column ⟨0⟩ ⟨0⟩ "price") chargeOf

def dueOf : Composition :=
  .operation ⟨6⟩ ⟨2, by decide⟩ .times totalOf (.column ⟨3⟩ ⟨0⟩ "count")

def price : Token := ⟨⟨0⟩, Fragment.column ⟨0⟩ "price"⟩

def tax : Token := ⟨⟨1⟩, Fragment.column ⟨0⟩ "tax"⟩

def rebate : Token := ⟨⟨2⟩, Fragment.column ⟨0⟩ "rebate"⟩

def count : Token := ⟨⟨3⟩, Fragment.column ⟨0⟩ "count"⟩

def charge : Token := ⟨⟨4⟩, [tax.toSegment, .verbatim " - ", rebate.toSegment]⟩

def total : Token := ⟨⟨5⟩, [price.toSegment, .verbatim " + ", charge.toSegment]⟩

def due : Token := ⟨⟨6⟩, [total.toSegment, .verbatim " * ", count.toSegment]⟩

theorem token_dueOf : dueOf.token = due := by
  simp only [dueOf, totalOf, chargeOf, Composition.token_operation]
  rfl

def purchases : View := .table (Fragment.verbatim "purchases") ⟨0⟩
  (.ofTokens [("price", price), ("tax", tax), ("rebate", rebate), ("count", count)])

def totals : View := .project purchases (.ofTokens [("total", total), ("count", count)])

/-- What is due, as it is composed on the totals. -/
def dues (offered : View) : View := .project offered (.ofTokens [("due", due)])

def definitions (id : TokenId) : Fragment :=
  match id.index with
  | 0 => price.definition
  | 1 => tax.definition
  | 2 => rebate.definition
  | 3 => count.definition
  | 4 => charge.definition
  | 5 => total.definition
  | _ => due.definition

theorem made_dues : (dues (.bracket totals .always)).Made ⟨7, 1, 0⟩ := by
  have declared : purchases.Made ⟨7, 1, 0⟩ := .table _ _ _ (by decide)
  have offered : purchases.apply (.project (.ofTokens [("total", total), ("count", count)])) =
    .ok totals := rfl
  have closed : totals.apply (.bracket .always) = .ok (.bracket totals .always) := rfl
  have composed : (View.bracket totals .always).apply (.project (.ofTokens [("due", due)])) =
    .ok (dues (.bracket totals .always)) := rfl
  exact .apply (.apply (.apply declared offered) closed) composed

theorem issued_dues :
    (dues (.bracket totals .always)).AllTokens (Token.IssuedBy definitions ⟨7, 1, 0⟩) := by
  have ofPrice : price.AllTokens (Token.IssuedBy definitions ⟨7, 1, 0⟩) :=
    ⟨⟨rfl, by decide, by decide⟩, trivial, trivial⟩
  have ofTax : tax.AllTokens (Token.IssuedBy definitions ⟨7, 1, 0⟩) :=
    ⟨⟨rfl, by decide, by decide⟩, trivial, trivial⟩
  have ofRebate : rebate.AllTokens (Token.IssuedBy definitions ⟨7, 1, 0⟩) :=
    ⟨⟨rfl, by decide, by decide⟩, trivial, trivial⟩
  have ofCount : count.AllTokens (Token.IssuedBy definitions ⟨7, 1, 0⟩) :=
    ⟨⟨rfl, by decide, by decide⟩, trivial, trivial⟩
  have ofCharge : charge.AllTokens (Token.IssuedBy definitions ⟨7, 1, 0⟩) :=
    ⟨⟨rfl, by decide, by decide⟩, ofTax, trivial, ofRebate, trivial⟩
  have ofTotal : total.AllTokens (Token.IssuedBy definitions ⟨7, 1, 0⟩) :=
    ⟨⟨rfl, by decide, by decide⟩, ofPrice, trivial, ofCharge, trivial⟩
  have ofDue : due.AllTokens (Token.IssuedBy definitions ⟨7, 1, 0⟩) :=
    ⟨⟨rfl, by decide, by decide⟩, ofTotal, trivial, ofCount, trivial⟩
  simp [dues, totals, purchases, View.AllTokens, Step.AllTokens, Step.fragments, Template.AllTokens,
    Fragment.verbatim, Fragment.AllTokens, Segment.AllTokens, ofPrice, ofTax, ofRebate, ofCount,
    ofTotal, ofDue, Fragment.allTokens_toFragment, Column.toFragment]

/-- The totals are sums, and they can be multiplied where a bracket has made columns of them. -/
theorem composes_compile_dues :
    let v := dues (.bracket totals .always)
    let s := ((v.plan {}).run ⟨7, 1, 0⟩).1.statement
    let style : Style := ⟨.postgres, "t"⟩
    v.Made ⟨7, 1, 0⟩ ∧ v.AllTokens (Token.IssuedBy definitions ⟨7, 1, 0⟩) ∧
      ∀ tables : Alias × String → Int, ∃ row, s.Settled style integers tables row ∧
        ∃ text ∈ Site.listed style ⟨s, {}⟩,
          text.evaluate? integers row = some (dueOf.tree.value integers tables) := by
  intro v s style
  obtain ⟨rows, ⟨-, -, texts⟩, -⟩ := Compiler.composes_compile made_dues issued_dues {}
  have asked : dueOf.token ∈ v.template.tokens := by
    rw [token_dueOf]
    exact List.mem_cons_self
  obtain ⟨i, text, -, listed, composes⟩ := texts dueOf asked
  let lists := s.subqueries.map fun entry => entry.2.columns.map OutputColumn.expr
  have selected : lists = [[Fragment.column ⟨0⟩ "count", [.column ⟨0⟩ "price", .verbatim " + ",
    .column ⟨0⟩ "tax", .verbatim " - ", .column ⟨0⟩ "rebate"]]] := rfl
  have unwritten : ∀ list ∈ lists, ∀ f ∈ list, Segment.verbatim " * " ∉ f := by
    rw [selected]
    simp [Fragment.column]
  refine ⟨made_dues, issued_dues, fun tables => ?_⟩
  obtain ⟨row, settled⟩ := rows Int integers tables
  refine ⟨row, settled, text, List.mem_of_getElem? listed, ?_⟩
  refine composes.settled _ ?_ Int integers regroups_integers tables row settled
  exact Composition.plainIn_of_unwritten (by decide) trivial (by decide)
    fun entry inside => unwritten _ (List.mem_map_of_mem inside)

/-- Without the bracket, only part of the sum is multiplied. -/
theorem not_kept_of_inlined :
    dueOf.token = due ∧
      purchases.projected (.ofTokens [("total", total), ("count", count)]) = .ok totals ∧
      totals.projected (.ofTokens [("due", due)]) = .ok (dues totals) ∧
      let v := dues totals
      let s := ((v.plan {}).run ⟨7, 1, 0⟩).1.statement
      let style : Style := ⟨.postgres, "t"⟩
      ((({} : Compiler).compile v).run ⟨7, 1, 0⟩).1.sql =
        "select \"t0\".\"price\" + \"t0\".\"tax\" - \"t0\".\"rebate\" * \"t0\".\"count\"" ++
          " as \"value_0\" from purchases as \"t0\"" ∧
      ∃ text, (Site.listed style ⟨s, {}⟩)[0]? = some text ∧ ∃ tables : Alias × String → Int,
        text.evaluate? integers tables = some (-22) ∧ dueOf.tree.value integers tables = 10 := by
  refine ⟨token_dueOf, rfl, rfl, by decide +kernel, _, rfl, fun c => c.2.length, ?text, ?tree⟩
  case text => decide +kernel
  case tree => decide +kernel

end Purchases
end QueryViews
