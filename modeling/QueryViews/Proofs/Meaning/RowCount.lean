import QueryViews.Proofs.Clauses.Tally
import QueryViews.Proofs.Meaning.RowPipeline

/-! The total of a row pipeline is the number of its rows. The body that is counted is built for
no tokens and no order, so it may bracket at other steps than the body of the rows and leave out
other sort keys; what it selects are the same records in some order. -/

namespace QueryViews

section
variable {definitions : TokenId → Fragment} {supply later : Supply}

theorem Token.IssuedBy.mono {t : Token} (issued : t.IssuedBy definitions supply)
    (before : supply.Before later) : t.IssuedBy definitions later where
  definition := issued.definition
  number := Nat.lt_of_lt_of_le issued.number before.tokens
  columns c member := Nat.lt_of_lt_of_le (issued.columns c member) before.aliases

theorem Template.issued_later {template : Template}
    (issued : template.AllTokens (Token.IssuedBy definitions supply))
    (before : supply.Before later) : template.AllTokens (Token.IssuedBy definitions later) :=
  fun c inside => (issued c inside).mono fun _ made => made.mono before

theorem Step.issued_later {steps : List Step}
    (issued : ∀ s ∈ steps, s.AllTokens (Token.IssuedBy definitions supply))
    (before : supply.Before later) :
    ∀ s ∈ steps, s.AllTokens (Token.IssuedBy definitions later) :=
  fun s listed f member => (issued s listed f member).mono fun _ made => made.mono before

end

section
variable {V : Type} {I : Interpretation V} {contents : Fragment → List (Record V)}

/-- The rows that the filters of a body keep. -/
def Body.passing {R : Type} (I : Interpretation V) (eval : Fragment → R → V) (b : Body)
    (rows : List R) : List R :=
  rows.filter fun row => b.filters.all fun f => I.holds (eval f row)

theorem Body.length_select {R : Type} {b : Body} (clear : b.state.meets .window = false)
    (eval : Fragment → R → V) (rows : List R) :
    (b.select I eval rows).length = (b.passing I eval rows).length := by
  rw [select, window_of_open clear, List.length_mergeSort, passing]

/-- The numbers in the rows of a statement that counts: a window cuts its one row, and sort keys
have nothing to sort. None if it counts nothing, joins or groups. -/
def Statement.counts? (I : Interpretation V) (contents : Fragment → List (Record V))
    (s : Statement) : Option (List Nat) :=
  match s.columns with
  | [⟨[.verbatim "count(*)"], _⟩] =>
    if s.body.isPlain then
      (s.body.source.records? I contents).map fun records =>
        s.body.window [(s.body.passing I (I.eval s.body.source.id) records).length]
    else none
  | _ => none

theorem Statement.counts?_eq {s : Statement} {name : String}
    (columns : s.columns = [⟨Fragment.verbatim "count(*)", name⟩]) :
    s.counts? I contents =
      if s.body.isPlain then
        (s.body.source.records? I contents).map fun records =>
          s.body.window [(s.body.passing I (I.eval s.body.source.id) records).length]
      else none := by
  rw [counts?, columns]
  rfl

namespace Carries
variable {table : Alias} {definitions : TokenId → Fragment} {st : Standing} {issued : Supply}
  {body : Body} {b : Build} {rows : List (Record V)} {seen : Record V → Record V}

/-- A statement that counts the rows of a body without a window gives the number of rows that
the body selects. -/
theorem counts_statement (carries : Carries I contents table definitions st body b rows seen)
    (describes : st.Describes issued body b) (clear : body.state.meets .window = false)
    {targets : List Token} {name : String}
    (columns : (b.statement body targets).1.columns = [⟨Fragment.verbatim "count(*)", name⟩]) :
    (b.statement body targets).1.counts? I contents =
      some [(body.select I (I.eval table) rows).length] := by
  have plain : (body.expanded b.redirects).isPlain = true := by
    have parts := carries.plain
    simp only [Body.isPlain, Body.expanded, List.isEmpty_map] at parts ⊢
    exact parts
  have whole : (b.statement body targets).1.body = body.expanded b.redirects := rfl
  have source : (body.expanded b.redirects).source = body.source.expanded b.redirects := rfl
  have stillClear : (body.expanded b.redirects).state.meets .window = false :=
    body.state_expanded ▸ clear
  have number : ((body.expanded b.redirects).passing I (I.eval body.source.id)
      (rows.map seen)).length = (body.select I (I.eval table) rows).length := by
    rw [← Body.length_select stillClear, carries.select_expanded describes, List.length_map]
  rw [Statement.counts?_eq columns, whole, if_pos plain, source, Source.id_expanded,
    carries.source b.redirects, Option.map_some, number, Body.window_of_open stillClear]

end Carries

/-- A token minted after the build is not redirected, so it is selected as its definition. -/
theorem Standing.Describes.columns_minted {st : Standing} {issued : Supply} {body : Body}
    {b : Build} (describes : st.Describes issued body b) (text : String) :
    (b.statement body [⟨⟨b.supply.tokens⟩, Fragment.verbatim text⟩]).1.columns =
      [⟨Fragment.verbatim text, b.settings.columnName 0⟩] := by
  have unseen : b.redirects.lookup ⟨b.supply.tokens⟩ = none := by
    have old : ∀ id, id ∈ st.shown ∨ id ∈ st.hidden → id ≠ ⟨b.supply.tokens⟩ := by
      rintro id seen rfl
      have handedOut := describes.numbered _ seen
      have tokens := describes.tokens
      simp only at handedOut
      omega
    apply describes.fresh
    · intro shown
      exact old _ (.inl shown) rfl
    · intro hidden
      exact old _ (.inr hidden) rfl
  have written : b.redirects.expandToken ⟨⟨b.supply.tokens⟩, Fragment.verbatim text⟩ =
      Fragment.verbatim text := by
    rw [Redirects.expandToken, Redirects.expand_of_flat describes.flat]
    simp [Token.toFragment, Token.toSegment, Fragment.substitute, Segment.substitute, unseen,
      Fragment.verbatim]
  rw [Build.columns_eq]
  simp [Build.outputNames, Token.distinct, Token.distinctBeyond, written]

namespace View
variable {text : Fragment} {id : Alias} {template : Template} {definitions : TokenId → Fragment}
  {supply : Supply} {steps : List Step} {v : View}

variable (contents) in
/-- The counted body selects the records that the steps keep, and carries no window. -/
theorem carries_countedBody (settings : Settings) (known : id.index < supply.aliases)
    (declared : ∀ c ∈ template.columns, ∃ name, c.token.definition = Fragment.column id name)
    (ofTable : template.AllTokens (Token.IssuedBy definitions supply))
    (issued : ∀ s ∈ steps, s.AllTokens (Token.IssuedBy definitions supply))
    (rowwise : ∀ s ∈ steps, s.Rowwise)
    (inlines : ∀ s ∈ steps, ∀ f ∈ s.fragments, I.Inlines f)
    (made : (View.table text id template).applyAll steps = .ok v)
    (kept : (View.table text id template).RecallFree steps) (fit : SkipsFit steps) :
    let counted := v.countedBody.run { settings, supply }
    ∃ rows seen, Carries I contents id definitions
        ((View.table text id template).countStanding id steps.reverse) counted.1 counted.2
        rows seen ∧
      counted.1.state.meets .window = false ∧
      (counted.1.select I (I.eval id) rows).Perm
        (Step.keepAll I (I.eval id) steps (contents (({} : Redirects).expand text))) := by
  have nothing : ∀ t ∈ (AscendingSet.empty : TokenSet).toList, False :=
    fun _ none => absurd none List.not_mem_nil
  have describes := describes_standing known issued made .empty false { settings, supply }
    (fun t none => (nothing t none).elim) rfl rfl
  obtain ⟨rows, seen, carries, permuted, -⟩ :=
    exists_selection contents known declared ofTable issued rowwise inlines made kept fit .empty
      false { settings, supply } (fun t none => (nothing t none).elim)
      (fun t none => (nothing t none).elim) rfl rfl
  simp only [run_countedBody, countStanding, ← describes.state]
  cases met : ((v.body .empty false).run { settings, supply }).1.state.meets .aggregate with
  | true =>
    simp only [if_true, Building.run_bracket]
    refine ⟨_, _, carries.bracket describes fun t none => (nothing t none).elim, rfl, ?_⟩
    rw [Body.select_ofSource]
    exact permuted
  | false =>
    simp only [Bool.false_eq_true, if_false]
    refine ⟨rows, seen, carries, ?_, permuted⟩
    exact ClauseSet.clear_of_le (by decide) met

/-- The statement for the number of rows of a view made by row steps gives one number: how many
rows the statement for its rows gives, whenever the two are compiled. -/
theorem counts_countPlan_of_rowwise {settings : Settings} {one two : Supply}
    (known : id.index < supply.aliases)
    (declared : ∀ c ∈ template.columns, ∃ name, c.token.definition = Fragment.column id name)
    (ofTable : template.AllTokens (Token.IssuedBy definitions supply))
    (issued : ∀ s ∈ steps, s.AllTokens (Token.IssuedBy definitions supply))
    (rowwise : ∀ s ∈ steps, s.Rowwise)
    (inlines : ∀ s ∈ steps, ∀ f ∈ s.fragments, I.Inlines f)
    (made : (View.table text id template).applyAll steps = .ok v)
    (kept : (View.table text id template).RecallFree steps) (fit : SkipsFit steps)
    (forRows : supply.Before one) (forCount : supply.Before two) :
    let rows := ((v.plan settings).run one).1.statement
    let count := ((v.countPlan settings).run two).1.statement
    ∃ records, rows.records? I contents = some records ∧
      count.counts? I contents = some [records.length] := by
  intro rows count
  have knownThen : id.index < one.aliases := Nat.lt_of_lt_of_le known forRows.aliases
  have issuedThen := Step.issued_later issued forRows
  have tableThen := Template.issued_later ofTable forRows
  have ofTemplate : v.template.AllTokens (Token.IssuedBy definitions one) :=
    allTokens_template (by exact tableThen) issuedThen made
  have describes := describes_standing knownThen issuedThen made v.template.tokenSet true
    { settings, supply := one } ofTemplate.tokenSet rfl rfl
  obtain ⟨read, seen, carries, permuted, -⟩ :=
    exists_selection contents knownThen declared tableThen issuedThen rowwise inlines made kept fit
      v.template.tokenSet true { settings, supply := one } ofTemplate.tokenSet
      (fun t member => Template.contains_of_mem_tokenSet member) rfl rfl
  have knownNow : id.index < two.aliases := Nat.lt_of_lt_of_le known forCount.aliases
  have issuedNow := Step.issued_later issued forCount
  have counted := describes_countStanding knownNow issuedNow made settings
  obtain ⟨readNow, seenNow, carriesNow, clear, permutedNow⟩ :=
    carries_countedBody contents settings knownNow declared
      (Template.issued_later ofTable forCount) issuedNow rowwise inlines made kept fit
  refine ⟨_, carries.records_statement describes v.template.tokens, ?_⟩
  rw [List.length_map, (permuted.trans permutedNow.symm).length_eq]
  exact carriesNow.counts_statement counted clear (counted.columns_minted "count(*)")

/-- Three orders have two of the highest bills, counted later than they are selected. -/
theorem counts_countPlan_of_rowwise_orders :
    ∃ v, orders.applyAll highestBills = .ok v ∧
      let rows := ((v.plan {}).run { tokens := 2, aliases := 1 }).1.statement
      let count := ((v.countPlan {}).run { tokens := 5, aliases := 4 }).1.statement
      let table : List (Record Nat) := [fun _ => 0, fun _ => 3, fun _ => 5]
      ∃ records, rows.records? sums (fun _ => table) = some records ∧
        count.counts? sums (fun _ => table) = some [records.length] := by
  have ofSteps : ∀ s ∈ highestBills, s.AllTokens (Token.IssuedBy orderDefinitions ⟨2, 1, 0⟩) := by
    simp [highestBills, Step.AllTokens, Step.fragments, Column.toFragment,
      Fragment.allTokens_toFragment, amount_issued, billed_issued, Fragment.verbatim,
      Fragment.AllTokens, Segment.AllTokens]
  have rowwise : ∀ s ∈ highestBills, s.Rowwise := by
    simp [highestBills, Step.Rowwise]
  have inlines : ∀ f : Fragment, sums.Inlines f := sums.inlines_of_concat pieceSum_append
  refine ⟨_, rfl, ?_⟩
  exact counts_countPlan_of_rowwise (by decide) orders_declared orders_issued ofSteps rowwise
    (fun _ _ f _ => inlines f) rfl (by decide) (by decide) ⟨by decide, by decide⟩
    ⟨by decide, by decide⟩

end View
end
end QueryViews
