import QueryViews.Proofs.Join.OnConditions
import QueryViews.Proofs.Rendering.Identifiers
import QueryViews.Proofs.Rendering.OnePass

/-! Sources and their labels. However deep a statement nests, none of its sources occurs in it
twice: joins are refused to sides with a table in common, and the source that a bracket makes is
numbered after all there are. So every source is labelled once in the text, under a name that no
other one has. -/

namespace QueryViews

theorem JoinClause.allAliases_eq (joins : List JoinClause) :
    allAliases joins = joins.flatMap fun j => j.source.aliases := by
  induction joins with
  | nil => rfl
  | cons j rest ih =>
    obtain ⟨kind, source, condition⟩ := j
    rw [allAliases, ih, List.flatMap_cons]

namespace Body

theorem aliases_expanded (r : Redirects) (b : Body) : (b.expanded r).aliases = b.aliases := by
  simp only [aliases, expanded, JoinClause.allAliases_eq, List.flatMap_map, JoinClause.expanded,
    Source.aliases_expanded]

theorem aliases_join (b x : Body) (kind : JoinKind) (condition : Fragment) :
    (b.join x kind condition).aliases = b.aliases ++ x.aliases := by
  simp only [aliases, join, addJoin, JoinClause.allAliases_eq, List.flatMap_append,
    List.flatMap_singleton, List.append_assoc]

end Body

namespace Build

theorem aliases_statement (b : Build) (body : Body) (targets : List Token) :
    (b.statement body targets).1.aliases = body.aliases := by
  rw [Statement.aliases_eq]
  exact body.aliases_expanded b.redirects

theorem aliases_bracketIf (b : Build) (applies : Bool) (body : Body) (needs : TokenSet) :
    (b.bracketIf applies body needs).1.aliases = b.madeIf applies ++ body.aliases := by
  cases applies with
  | false => rfl
  | true =>
    have nested : (b.bracketIf true body needs).1.aliases =
        (b.nextAlias :: (b.statement body needs.toList).1.aliases) ++ [] := rfl
    rw [nested, List.append_nil, aliases_statement]
    rfl

/-- The source that a bracket makes is not one of those that were numbered before. -/
theorem nodup_bracketIf {b : Build} {body : Body} (distinct : body.aliases.Nodup)
    (numbered : ∀ a ∈ body.aliases, a.index < b.supply.aliases) (applies : Bool)
    (needs : TokenSet) : (b.bracketIf applies body needs).1.aliases.Nodup := by
  rw [aliases_bracketIf]
  cases applies with
  | false => exact distinct
  | true =>
    refine List.nodup_cons.2 ⟨fun inside => ?_, distinct⟩
    exact Nat.lt_irrefl _ (numbered b.nextAlias inside)

theorem Grows.index_lt {tables : Alias → Prop} {made : List Alias} {before after : Build}
    (grows : Grows tables made before after)
    (known : ∀ a, tables a → a.index < before.supply.aliases) :
    ∀ a ∈ made, a.index < after.supply.aliases := by
  intro a inside
  rcases grows.numbered a inside with table | ⟨-, numbered⟩
  · exact Nat.lt_of_lt_of_le (known a table) grows.supply
  · exact numbered

end Build

namespace View

/-- The view comes from accepted calls, on tables with aliases out of the supply. -/
inductive Made (supply : Supply) : View → Prop
  | table (text : Fragment) (id : Alias) (template : Template)
    (declared : id.index < supply.aliases) : Made supply (.table text id template)
  | apply {v w : View} {s : Step} (input : Made supply v) (call : v.apply s = .ok w) :
    Made supply w
  | joined {base extra w : View} {mode : JoinMode} {withNull : Bool} {condition : Fragment}
    (ofBase : Made supply base) (ofExtra : Made supply extra)
    (call : base.joined extra mode withNull condition = .ok w) : Made supply w

/-- The sides of each join in the view could be joined. -/
def Apart : View → Prop
  | .table _ _ _ => True
  | .filter input _ | .project input _ | .group input _ _ | .order input _ | .take input _
  | .skip input _ | .bracket input _ => input.Apart
  | .join base extra _ _ _ => base.Apart ∧ extra.Apart ∧ ensureSides base extra = .ok ()

theorem apart_onto {s : Step} {v : View} : (s.onto v).Apart ↔ v.Apart := by
  cases s with
  | filter | project | group | order | take | skip | bracket => exact Iff.rfl

namespace Made
variable {supply : Supply} {v : View}

theorem apart (made : v.Made supply) : v.Apart := by
  induction made with
  | table text id template declared => exact trivial
  | apply input call ih =>
    obtain ⟨-, rfl⟩ := apply_eq_ok_iff.1 call
    exact apart_onto.2 ih
  | joined ofBase ofExtra call apartBase apartExtra =>
    obtain ⟨accepted, -, rfl⟩ := joined_eq_ok_iff.1 call
    exact ⟨apartBase, apartExtra, accepted⟩

theorem known (made : v.Made supply) :
    ∀ a, v.sources.contains a = true → a.index < supply.aliases := by
  induction made with
  | table text id template declared =>
    intro a table
    obtain rfl := List.mem_singleton.1 (mem_sources_iff.2 table)
    exact declared
  | apply input call ih =>
    obtain ⟨-, rfl⟩ := apply_eq_ok_iff.1 call
    rw [Step.sources_onto]
    exact ih
  | joined ofBase ofExtra call knownBase knownExtra =>
    obtain ⟨-, -, rfl⟩ := joined_eq_ok_iff.1 call
    intro a table
    exact (contains_sources_join.1 table).elim (knownBase a) (knownExtra a)

end Made

/-- No source occurs twice in a built body, counting those of its subqueries. -/
theorem nodup_aliases_body (v : View) (used : TokenSet) (observed : Bool) (b : Build)
    (apart : v.Apart) (known : ∀ a, v.sources.contains a = true → a.index < b.supply.aliases) :
    ((v.body used observed).run b).1.aliases.Nodup := by
  induction v, used, observed, b using visits_induction with
  | table text id template used observed b =>
    exact List.nodup_cons.2 ⟨List.not_mem_nil, List.nodup_nil⟩
  | onto s v used observed b ih =>
    simp only [run_body_onto, Build.run_makeRoom, Step.aliases_extend]
    rw [Step.sources_onto] at known
    have numbered := (v.grows_body (s.needs observed v.scope used) (s.observes observed) b).index_lt
      known
    exact Build.nodup_bracketIf (b := Build.noted _ _ _) (ih (apart_onto.1 apart) known) numbered
      _ _
  | baseOnly base extra mode withNull condition used observed b drops ih =>
    rw [run_body_of_dropsExtra b drops]
    exact ih apart.1 fun a table => known a (contains_sources_join.2 (.inl table))
  | extraOnly base extra mode withNull condition used observed b keeps drops ih =>
    rw [run_body_of_dropsBase b keeps drops]
    exact ih apart.2.1 fun a table => known a (contains_sources_join.2 (.inr table))
  | both base extra mode withNull condition used observed b joins ofBase ofExtra =>
    obtain ⟨apartBase, apartExtra, accepted⟩ := apart
    have knownBase : ∀ a, base.sources.contains a = true → a.index < b.supply.aliases :=
      fun a table => known a (contains_sources_join.2 (.inl table))
    have lawful := base.lawful_stages extra mode condition used observed b
    have knownExtra : ∀ a, extra.sources.contains a = true →
        a.index < (base.stages extra mode condition used observed b).first.2.supply.aliases :=
      fun a table => Nat.lt_of_lt_of_le (known a (contains_sources_join.2 (.inr table)))
        lawful.first.supply
    obtain ⟨_, closed, -⟩ := lawful.closed
    have numberedFirst := lawful.first.index_lt knownBase
    have numberedSecond := lawful.second.index_lt knownExtra
    rw [run_body_of_joins b joins]
    simp only [run_sides_stages, Body.aliases_join]
    refine List.nodup_append.2 ⟨?distinctBase, ?distinctExtra, ?disjoint⟩
    case distinctBase =>
      refine Build.nodup_bracketIf (ofBase apartBase knownBase) (fun a inside => ?_) _ _
      exact Nat.lt_of_lt_of_le (numberedFirst a inside) lawful.second.supply
    case distinctExtra =>
      refine Build.nodup_bracketIf (ofExtra apartExtra knownExtra) (fun a inside => ?_) _ _
      exact Nat.lt_of_lt_of_le (numberedSecond a inside) closed.supply
    case disjoint =>
      have separate := lawful.apart accepted fun a table => known a (contains_sources_join.2 table)
      rintro a inBase other inExtra rfl
      exact separate a inExtra (.inr inBase)

end View

/-- The source that a mark is the label of. -/
def Mark.label? : Mark → Option Alias
  | .label source => some source
  | .column _ _ | .param _ => none

mutual

theorem Segment.labels_marks : ∀ segment : Segment, segment.marks.filterMap Mark.label? = []
  | .verbatim _ | .column _ _ | .param _ => rfl
  | .nested inner => Fragment.labels_marks inner
  | .token _ definition => Fragment.labels_marks definition

/-- An expression reads sources and labels none. -/
theorem Fragment.labels_marks : ∀ f : Fragment, f.marks.filterMap Mark.label? = []
  | [] => rfl
  | segment :: rest => by
    rw [Fragment.marks, List.filterMap_append, Segment.labels_marks segment,
      Fragment.labels_marks rest, List.append_nil]

end

namespace Passage

def labels (p : Passage) : List Alias := p.shown.filterMap Mark.label?

theorem labels_fragment (f : Fragment) (times : Nat) : labels ⟨f.marks, times⟩ = [] := by
  rw [labels, shown, List.filterMap_flatten, List.map_replicate, f.labels_marks]
  simp

theorem labels_fragments {ε : Type} (parts : List ε) (expr : ε → Fragment) (times : ε → Nat) :
    (parts.map fun x => ⟨(expr x).marks, times x⟩).flatMap labels = [] := by
  rw [List.flatMap_map]
  simp only [labels_fragment]
  simp

end Passage

section
variable (times : Option NullPlacement → Nat)

mutual

theorem Source.labels_script : ∀ source : Source,
    ((source.script times).flatMap Passage.labels).Perm source.aliases
  | .table text id => by
    have only : ((Source.table text id).script times).flatMap Passage.labels =
        (Passage.once text.marks).labels ++ [id] := by
      simp [Source.script, Passage.once, Passage.labels, Passage.shown, Mark.label?]
    rw [only, Passage.once, Passage.labels_fragment]
    exact .refl _
  | .subquery statement id => by
    have last : ((Source.subquery statement id).script times).flatMap Passage.labels =
        (statement.script times).flatMap Passage.labels ++ [id] := by
      rw [Source.script, List.flatMap_append]
      rfl
    rw [last]
    exact ((Statement.labels_script statement).append_right [id]).trans
      (List.perm_append_singleton id statement.aliases)

theorem JoinClause.labels_scriptAll : ∀ joins : List JoinClause,
    ((JoinClause.scriptAll times joins).flatMap Passage.labels).Perm (JoinClause.allAliases joins)
  | [] => .refl _
  | ⟨kind, source, condition⟩ :: rest => by
    rw [JoinClause.scriptAll, List.flatMap_append, List.flatMap_cons, Passage.once,
      Passage.labels_fragment, List.nil_append]
    exact (Source.labels_script source).append (JoinClause.labels_scriptAll rest)

/-- A statement labels each of its sources where that source is complete. -/
theorem Statement.labels_script : ∀ s : Statement,
    ((s.script times).flatMap Passage.labels).Perm s.aliases
  | ⟨columns, ⟨source, joins, filters, keys, grouped, having, order, skip, take⟩⟩ => by
    simp only [Statement.script, List.flatMap_append, Passage.once, Passage.labels_fragments,
      List.nil_append, List.append_nil]
    exact (Source.labels_script source).append (JoinClause.labels_scriptAll joins)

end

end

/-- The sources labelled in the text, each with its label. -/
def SqlPiece.label? : SqlPiece → Option (Alias × String)
  | .label source written => some (source, written)
  | .verbatim _ | .column _ _ _ | .placeholder _ _ => none

def SqlText.labels (text : SqlText) : List (Alias × String) := text.filterMap SqlPiece.label?

theorem SqlText.map_fst_labels (text : SqlText) (params : List Json) :
    text.labels.map Prod.fst = (text.filterMap (SqlPiece.mark? params)).filterMap Mark.label? := by
  rw [labels, List.map_filterMap, List.filterMap_filterMap]
  refine List.filterMap_congr fun piece _ => ?_
  cases piece with
  | verbatim | column | label => rfl
  | placeholder index written =>
    rw [SqlPiece.mark?]
    cases params[index]? with
    | none => rfl
    | some value => rfl

namespace Query

/-- The statement reads no source twice, the text labels each of its sources once, and no two of
them by the same name. A column is written with the name of its source. -/
structure NamesApart (q : Query) (stem : String) (s : Statement) : Prop where
  sources : s.aliases.Nodup
  labelled : (q.text.labels.map Prod.fst).Perm s.aliases
  names : (q.text.labels.map Prod.snd).Nodup
  written : ∃ number : Alias → Nat,
    (∀ entry ∈ q.text.labels,
      entry.2 = Identifier.quoted (stem ++ toString (number entry.1))) ∧
    ∀ source name written, .column source name written ∈ q.text →
      written = Identifier.qualified (stem ++ toString (number source)) name

end Query

/-- Labels are told apart by the numbers of their sources. -/
theorem Plan.namesApart_write (p : Plan) (stem : String) {d : Dialect}
    {times : Option NullPlacement → Nat} (repeats : d.Repeats times)
    (label : d.label = Identifier.quoted) (qualify : d.qualify = Identifier.qualified)
    (distinct : p.statement.aliases.Nodup) :
    (p.write ⟨d, stem⟩).NamesApart stem p.statement := by
  let style : Style := ⟨d, stem⟩
  let q := p.write style
  let done := ((p.statement.render style).run {}).2
  have wrote : Wrote style {} done (p.statement.script times) q.text.marked :=
    Statement.wrote_render repeats p.statement {}
  have given : ∀ piece ∈ q.text, piece.isMarked = true → piece.Given style done :=
    fun piece member marked => wrote.given piece (List.mem_filter.2 ⟨member, marked⟩)
  have named : ∀ entry ∈ q.text.labels, entry.1 ∈ done.aliases ∧
      entry.2 = Identifier.quoted (stem ++ toString (done.aliases.idxOf entry.1)) := by
    intro entry listed
    obtain ⟨piece, member, read⟩ := List.mem_filterMap.1 listed
    cases piece with
    | verbatim | column | placeholder => exact nomatch read
    | label source written =>
      obtain rfl := Option.some.inj read
      have ofPiece := given _ member rfl
      exact ⟨ofPiece.1, ofPiece.2.trans (congrFun label _)⟩
  have labelled : (q.text.labels.map Prod.fst).Perm p.statement.aliases := by
    have marks : q.text.filterMap (SqlPiece.mark? done.params) =
        (p.statement.script times).flatMap Passage.shown := by
      rw [← wrote.marks]
      exact (SqlText.filterMap_marked (fun _ => rfl) _).symm
    rw [SqlText.map_fst_labels q.text done.params, marks, List.filterMap_flatMap]
    exact p.statement.labels_script times
  refine ⟨distinct, labelled, ?names, done.aliases.idxOf, ?labels, ?columns⟩
  case names =>
    have different := List.pairwise_map.1 (labelled.nodup_iff.2 distinct)
    refine List.pairwise_map.2 (different.imp_of_mem fun {one other} first second apart same => ?_)
    obtain ⟨member, ofOne⟩ := named one first
    obtain ⟨-, ofOther⟩ := named other second
    rw [ofOne, ofOther] at same
    have numbers := Settings.columnName_injective { columnStem := stem }
      (Identifier.quoted_injective same)
    exact apart ((List.idxOf_inj member).1 numbers)
  case labels => exact fun entry listed => (named entry listed).2
  case columns =>
    intro source name written member
    obtain ⟨-, same⟩ := given _ member rfl
    rw [same]
    exact congrFun (congrFun qualify _) name

namespace View
variable {supply : Supply} {v : View}

theorem Made.nodup_plan (made : v.Made supply) (settings : Settings) :
    ((v.plan settings).run supply).1.statement.aliases.Nodup := by
  have distinct := v.nodup_aliases_body v.template.tokenSet true { settings, supply } made.apart
    made.known
  exact (Build.aliases_statement _ _ v.template.tokens).symm ▸ distinct

theorem Made.nodup_countPlan (made : v.Made supply) (settings : Settings) :
    ((v.countPlan settings).run supply).1.statement.aliases.Nodup := by
  let start : Build := { settings, supply }
  have counted : (v.countedBody.run start).1.aliases.Nodup := by
    have numbered := (v.grows_body .empty false start).index_lt made.known
    rw [run_countedBody]
    exact Build.nodup_bracketIf (v.nodup_aliases_body .empty false start made.apart made.known)
      numbered _ .empty
  exact (Build.aliases_statement _ _ _).symm ▸ counted

end View

/-- In the queries for the rows of a view and for their number, no source of the statement occurs
twice at any depth, and each is written under a name of its own. -/
theorem Compiler.namesApart_compile {supply : Supply} {v : View} (made : v.Made supply)
    (settings : Settings) : ∀ d ∈ [Dialect.postgres, Dialect.sqlite],
    let c : Compiler := ⟨d, settings⟩
    ((c.compile v).run supply).1.NamesApart settings.tableStem
        ((v.plan settings).run supply).1.statement ∧
      ((c.compileCount v).run supply).1.NamesApart settings.tableStem
        ((v.countPlan settings).run supply).1.statement := by
  intro d shipped
  have rows := made.nodup_plan settings
  have count := made.nodup_countPlan settings
  rcases List.mem_pair.1 shipped with rfl | rfl
  · exact ⟨Plan.namesApart_write _ _ Dialect.repeats_postgres rfl rfl rows,
      Plan.namesApart_write _ _ Dialect.repeats_postgres rfl rfl count⟩
  · exact ⟨Plan.namesApart_write _ _ Dialect.repeats_sqlite rfl rfl rows,
      Plan.namesApart_write _ _ Dialect.repeats_sqlite rfl rfl count⟩

namespace View

/-- Owners, and the pets with their toys as one source, which is numbered after its parts. -/
theorem namesApart_compile_buyers :
    let q := (((⟨.postgres, {}⟩ : Compiler).compile buyers).run ⟨3, 3, 0⟩).1
    q.NamesApart "t" ((buyers.plan {}).run ⟨3, 3, 0⟩).1.statement ∧
      q.text.labels.map Prod.fst = [⟨0⟩, ⟨1⟩, ⟨2⟩, ⟨3⟩] := by
  have ofOwners : owners.Made ⟨3, 3, 0⟩ := .table _ ⟨0⟩ _ (by decide)
  have ofPets : pets.Made ⟨3, 3, 0⟩ := .table _ ⟨1⟩ _ (by decide)
  have ofToys : toys.Made ⟨3, 3, 0⟩ := .table _ ⟨2⟩ _ (by decide)
  have forPets : pets.joined toys .inner false (boughtBy petOwner) = .ok petsWithToys := rfl
  have forOwners : owners.joined petsWithToys .inner false (boughtBy ownerId) = .ok buyers := rfl
  have made : buyers.Made ⟨3, 3, 0⟩ := ofOwners.joined (ofPets.joined ofToys forPets) forOwners
  exact ⟨(Compiler.namesApart_compile made {} _ List.mem_cons_self).1, by decide⟩

end View
end QueryViews
