import QueryViews.Proofs.Clauses.Visits
import QueryViews.Proofs.Join.Support
import QueryViews.Query.Compiler

/-! Texts written by hand: literal text and the names of columns. A built body has none but those of
its view and the numbered names of output columns. -/

namespace QueryViews

mutual

/-- Every literal text and every column name in it, at any depth, has the property. -/
def Segment.AllTexts (P : String → Prop) : Segment → Prop
  | .verbatim text => P text
  | .column _ name => P name
  | .param _ => True
  | .nested inner => Fragment.AllTexts P inner
  | .token _ definition => Fragment.AllTexts P definition

def Fragment.AllTexts (P : String → Prop) : Fragment → Prop
  | [] => True
  | segment :: rest => segment.AllTexts P ∧ Fragment.AllTexts P rest

end

mutual

def Segment.decideAllTexts (P : String → Prop) [DecidablePred P] :
    ∀ segment : Segment, Decidable (segment.AllTexts P)
  | .verbatim text => inferInstanceAs (Decidable (P text))
  | .column _ name => inferInstanceAs (Decidable (P name))
  | .param _ => .isTrue trivial
  | .nested inner => Fragment.decideAllTexts P inner
  | .token _ definition => Fragment.decideAllTexts P definition

def Fragment.decideAllTexts (P : String → Prop) [DecidablePred P] :
    ∀ f : Fragment, Decidable (Fragment.AllTexts P f)
  | [] => .isTrue trivial
  | segment :: rest =>
    @instDecidableAnd _ _ (segment.decideAllTexts P) (Fragment.decideAllTexts P rest)

end

instance (P : String → Prop) [DecidablePred P] (f : Fragment) : Decidable (f.AllTexts P) :=
  f.decideAllTexts P

/-- Every redirect is a column with such a name. -/
def Redirects.Named (P : String → Prop) (r : Redirects) : Prop :=
  ∀ id f, r.lookup id = some f → ∃ source name, f = Fragment.column source name ∧ P name

section
variable {P : String → Prop}

@[simp] theorem Fragment.allTexts_append (f g : Fragment) :
    Fragment.AllTexts P (f ++ g) ↔ Fragment.AllTexts P f ∧ Fragment.AllTexts P g := by
  induction f with
  | nil => simp [Fragment.AllTexts]
  | cons segment rest ih => simp [Fragment.AllTexts, ih, and_assoc]

mutual

theorem Segment.AllTexts.allTokens : ∀ {segment : Segment}, segment.AllTexts P →
    segment.AllTokens fun t => Fragment.AllTexts P t.definition
  | .token _ _, texts => ⟨texts, Fragment.AllTexts.allTokens (by exact texts)⟩
  | .nested _, texts => Fragment.AllTexts.allTokens (by exact texts)
  | .verbatim _, _ | .column _ _, _ | .param _, _ => trivial

theorem Fragment.AllTexts.allTokens : ∀ {f : Fragment}, Fragment.AllTexts P f →
    Fragment.AllTokens (fun t => Fragment.AllTexts P t.definition) f
  | [], _ => trivial
  | _ :: _, ⟨first, rest⟩ => ⟨first.allTokens, Fragment.AllTexts.allTokens rest⟩

end

mutual

theorem Segment.AllTexts.substitute {resolve : TokenId → Option Fragment}
    (replaced : ∀ id f, resolve id = some f → f.AllTexts P) :
    ∀ {segment : Segment}, segment.AllTexts P → (segment.substitute resolve).AllTexts P
  | .token id definition, texts => by
    unfold Segment.substitute
    cases found : resolve id with
    | some f => exact replaced id f found
    | none => exact Fragment.AllTexts.substitute replaced (by exact texts)
  | .nested _, texts => Fragment.AllTexts.substitute replaced (by exact texts)
  | .verbatim _, texts | .column _ _, texts | .param _, texts => ⟨texts, trivial⟩

theorem Fragment.AllTexts.substitute {resolve : TokenId → Option Fragment}
    (replaced : ∀ id f, resolve id = some f → f.AllTexts P) :
    ∀ {f : Fragment}, Fragment.AllTexts P f → (Fragment.substitute resolve f).AllTexts P
  | [], _ => trivial
  | _ :: _, ⟨first, rest⟩ => (Fragment.allTexts_append _ _).2
    ⟨first.substitute replaced, Fragment.AllTexts.substitute replaced rest⟩

end

namespace Redirects.Named
variable {r : Redirects}

theorem flat (named : r.Named P) : r.Flat := by
  intro id f found
  obtain ⟨source, name, column, -⟩ := named id f found
  exact ⟨source, name, column⟩

theorem expand (named : r.Named P) {f : Fragment} (texts : f.AllTexts P) :
    (r.expand f).AllTexts P := by
  rw [expand_of_flat named.flat]
  refine texts.substitute fun id replacement found => ?_
  obtain ⟨source, name, rfl, good⟩ := named id replacement found
  exact ⟨good, trivial⟩

end Redirects.Named

/-- The texts of this SELECT, without those of its subqueries. -/
structure Statement.AllTexts (P : String → Prop) (s : Statement) : Prop where
  columns : ∀ c ∈ s.columns, c.expr.AllTexts P ∧ P c.name
  body : ∀ f ∈ s.body.fragments ++ s.body.texts, f.AllTexts P

/-- The texts of the body and of all its subqueries. -/
structure Body.AllTexts (P : String → Prop) (b : Body) : Prop where
  own : ∀ f ∈ b.fragments ++ b.texts, f.AllTexts P
  nested : ∀ s ∈ b.nested, s.AllTexts P

/-- What a built body is written with, and what its redirects are named. -/
structure Build.Worded (P : String → Prop) (built : Body × Build) : Prop where
  names : ∀ index, P (built.2.settings.columnName index)
  redirects : built.2.redirects.Named P
  body : built.1.AllTexts P

theorem Build.exists_columnName {b : Build} {body : Body} {targets : List Token} {name : String}
    {id : TokenId} (found : (b.statement body targets).2.lookup id = some name) :
    ∃ index, name = b.settings.columnName index := by
  obtain ⟨entry, listed, same⟩ := List.mem_map.1 (mem_of_lookup_eq_some found)
  obtain ⟨index, bound, rfl⟩ := List.mem_mapIdx.1 listed
  exact ⟨index, (congrArg Prod.snd same).symm⟩

theorem Source.allTexts_expanded {r : Redirects} (named : r.Named P) {source : Source}
    (texts : source.text.AllTexts P) : (source.expanded r).text.AllTexts P := by
  cases source with
  | table text id => exact named.expand texts
  | subquery statement id => trivial

namespace Build.Worded
variable {b : Build} {body : Body}

theorem with_body {built : Body × Build} (worded : Worded P built) (texts : body.AllTexts P) :
    Worded P (body, built.2) :=
  ⟨worded.names, worded.redirects, texts⟩

theorem noted (worded : Worded P (body, b)) (label : Option String) (state : ClauseSet) :
    Worded P (body, b.noted label state) :=
  ⟨worded.names, worded.redirects, worded.body⟩

theorem statement (worded : Worded P (body, b)) {targets : List Token}
    (ofTargets : ∀ t ∈ targets, t.definition.AllTexts P) :
    (b.statement body targets).1.AllTexts P where
  columns c member := by
    obtain ⟨entry, listed, rfl⟩ := List.mem_map.1 member
    refine ⟨worded.redirects.expand ⟨?_, trivial⟩, ?_⟩
    · exact ofTargets entry.1 (mem_of_mem_outputNames listed)
    · obtain ⟨index, bound, rfl⟩ := List.mem_mapIdx.1 listed
      exact worded.names index
  body := by
    show ∀ f ∈ (body.expanded b.redirects).fragments ++ (body.expanded b.redirects).texts, _
    obtain ⟨fragments, texts⟩ := List.forall_mem_append.1 worded.body.own
    rw [Body.fragments_expanded, Body.texts, Body.sources_expanded, List.map_map]
    refine List.forall_mem_append.2 ⟨List.forall_mem_map.2 fun f member => ?_,
      List.forall_mem_map.2 fun source member => ?_⟩
    · exact worded.redirects.expand (fragments f member)
    · exact Source.allTexts_expanded worded.redirects (texts _ (List.mem_map_of_mem member))

theorem bracketIf (worded : Worded P (body, b)) {needs : TokenSet}
    (ofNeeds : ∀ t ∈ needs.toList, t.definition.AllTexts P) (applies : Bool) :
    Worded P (b.bracketIf applies body needs) := by
  cases applies with
  | false => exact worded
  | true =>
    refine ⟨worded.names, fun id f found => ?_, fun f member => ?_, ?_⟩
    · have bracketed : (b.bracketed body needs.toList).redirects.lookup id = some f := found
      rw [lookup_bracketed] at bracketed
      rcases Option.or_eq_some_iff.1 bracketed with selected | ⟨-, before⟩
      · obtain ⟨name, listed, rfl⟩ := Option.map_eq_some_iff.1 selected
        obtain ⟨index, rfl⟩ := exists_columnName listed
        exact ⟨_, _, rfl, worded.names index⟩
      · exact worded.redirects id f before
    · have empty : f ∈ [] ++ [[]] := member
      obtain rfl := List.mem_singleton.1 empty
      trivial
    · rw [nested_bracketIf, if_pos rfl]
      exact List.forall_mem_cons.2 ⟨worded.statement ofNeeds, worded.body.nested⟩

end Build.Worded

namespace Body.AllTexts
variable {b x : Body}

theorem extend (texts : b.AllTexts P) {s : Step} (ofStep : ∀ f ∈ s.fragments, f.AllTexts P)
    (observed : Bool) : (s.extend observed b).AllTexts P where
  own f member := by
    rcases List.mem_append.1 member with clause | text
    · rcases Step.of_mem_extend clause with before | added
      · exact texts.own f (List.mem_append_left _ before)
      · exact ofStep f (Step.mem_fragments_of_written observed added)
    · rw [Body.texts, Body.sources, Step.source_extend, Step.joins_extend] at text
      exact texts.own f (List.mem_append_right _ text)
  nested := by
    rw [Step.nested_extend]
    exact texts.nested

theorem join (ofBase : b.AllTexts P) (ofExtra : x.AllTexts P) {condition : Fragment}
    (ofCondition : condition.AllTexts P) (kind : JoinKind) :
    (b.join x kind condition).AllTexts P where
  own f member := by
    rcases Body.of_mem_join member with rfl | inBase | inExtra
    · exact ofCondition
    · exact ofBase.own f inBase
    · exact ofExtra.own f inExtra
  nested := by
    rw [nested_join]
    exact List.forall_mem_append.2 ⟨ofBase.nested, ofExtra.nested⟩

end Body.AllTexts

/-- A join of two sides is written with the texts of both and of its condition. -/
theorem View.worded_sides {base extra : View} {mode : JoinMode} {condition : Fragment}
    {used : TokenSet} {observed : Bool} {b : Build} (ofCondition : condition.AllTexts P)
    (asked : ∀ side : View, ∀ t ∈ (side.joinNeeds condition used).toList,
      Fragment.AllTexts P t.definition)
    (first : Build.Worded P ((base.body (base.joinNeeds condition used) observed).run b))
    (second : Build.Worded P ((extra.body (extra.joinNeeds condition used) false).run
      ((base.body (base.joinNeeds condition used) observed).run b).2)) :
    let both := (base.sides extra mode condition used observed).run b
    Build.Worded P (both.1.1.join both.1.2 mode.kind condition, both.2) := by
  simp only [run_sides]
  have closed := fun applies => (second.with_body first.body).bracketIf (asked base) applies
  have last := fun applies other =>
    ((closed applies).with_body second.body).bracketIf (asked extra) other
  exact (last _ _).with_body ((closed _).body.join (last _ _).body ofCondition mode.kind)

/-- Whatever is used of a view, its body is written with its texts. -/
theorem View.worded_body {v : View} (texts : ∀ f ∈ v.fragments, f.AllTexts P) :
    ∀ used observed (b : Build), (∀ index, P (b.settings.columnName index)) →
      b.redirects.Named P →
      (∀ t ∈ used.toList, t.AllTokens fun u => Fragment.AllTexts P u.definition) →
        Build.Worded P ((v.body used observed).run b) := by
  induction v using induction_onto with
  | table text id template =>
    intro used observed b names named _
    refine ⟨names, named, fun f member => ?_, fun s none => absurd none List.not_mem_nil⟩
    have only : f ∈ [] ++ [b.redirects.expand text] := member
    obtain rfl := List.mem_singleton.1 only
    exact named.expand (texts text List.mem_cons_self)
  | onto s v ih =>
    intro used observed b names named ofUsed
    rw [fragments_onto] at texts
    obtain ⟨ofStep, below⟩ := List.forall_mem_append.1 texts
    have tokens : s.AllTokens fun u => Fragment.AllTexts P u.definition :=
      fun f member => (ofStep f member).allTokens
    have ofNeeds := tokens.needs observed ofUsed v.scope
    have made := ih below (s.needs observed v.scope used) (s.observes observed) b names named
      fun t needed => (ofNeeds t needed).1
    have room := fun state => (made.noted s.label state).bracketIf
      (fun t needed => (ofNeeds t needed).1.self)
    simp only [run_body_onto, Build.run_makeRoom]
    exact (room _ _).with_body ((room _ _).body.extend ofStep observed)
  | join base extra mode withNull condition ofBase ofExtra =>
    intro used observed b names named ofUsed
    obtain ⟨ofCondition, sides⟩ := List.forall_mem_cons.1 texts
    obtain ⟨inBase, inExtra⟩ := List.forall_mem_append.1 sides
    have narrowed : ∀ side : View, ∀ t ∈ (used.narrow side.scope).toList,
        t.AllTokens fun u => Fragment.AllTexts P u.definition :=
      fun side t needed => (AscendingSet.mem_narrow ofUsed t needed).1
    have asked : ∀ side : View, ∀ t ∈ (side.joinNeeds condition used).toList,
        t.AllTokens fun u => Fragment.AllTexts P u.definition :=
      fun side => allTokens_joinNeeds ofUsed ofCondition.allTokens
    rw [body_join]
    by_cases withoutExtra : extra.dropsExtra mode used
    · rw [if_pos withoutExtra]
      exact ofBase inBase _ _ b names named (narrowed base)
    · rw [if_neg withoutExtra]
      by_cases withoutBase : base.dropsBase mode withNull observed used
      · rw [if_pos withoutBase]
        exact ofExtra inExtra _ _ b names named (narrowed extra)
      · rw [if_neg withoutBase]
        have first := ofBase inBase (base.joinNeeds condition used) observed b names named
          (asked base)
        exact worded_sides ofCondition (fun side t needed => (asked side t needed).self) first
          (ofExtra inExtra (extra.joinNeeds condition used) false _ first.names first.redirects
            (asked extra))

namespace View
variable {v : View}

theorem allTokens_of_texts (texts : ∀ f ∈ v.fragments, f.AllTexts P) :
    v.AllTokens fun t => Fragment.AllTexts P t.definition :=
  allTokens_iff_fragments.2 fun f given => (texts f given).allTokens

variable {settings : Settings} (texts : ∀ f ∈ v.fragments, f.AllTexts P)
  (names : ∀ index, P (settings.columnName index)) (supply : Supply)
include texts names

theorem allTexts_plan :
    ∀ s ∈ ((v.plan settings).run supply).1.statement.selects, s.AllTexts P := by
  have ofTemplate := (allTokens_of_texts texts).template
  let start : Build := { settings, supply }
  have built := worded_body texts v.template.tokenSet true start names
    (fun _ _ found => nomatch found) ofTemplate.tokenSet
  let body := (v.body v.template.tokenSet true).run start
  show ∀ s ∈ (body.2.statement body.1 v.template.tokens).1.selects, s.AllTexts P
  rw [Build.selects_statement]
  exact List.forall_mem_cons.2
    ⟨built.statement fun t member => (ofTemplate.tokens t member).self, built.body.nested⟩

theorem allTexts_countPlan (count : P "count(*)") :
    ∀ s ∈ ((v.countPlan settings).run supply).1.statement.selects, s.AllTexts P := by
  let start : Build := { settings, supply }
  have nothing : ∀ t ∈ (AscendingSet.empty : TokenSet).toList, False :=
    fun _ none => absurd none List.not_mem_nil
  have built := worded_body texts .empty false start names (fun _ _ found => nomatch found)
    fun t none => (nothing t none).elim
  have counted : Build.Worded P (v.countedBody.run start) := by
    rw [countedBody, StateT.run_bind]
    show Build.Worded P ((Building.bracketOn .aggregate _ .empty).run _)
    rw [Build.run_bracketOn]
    exact built.bracketIf (fun t none => (nothing t none).elim) _
  let body := v.countedBody.run start
  let counter : Token := ⟨⟨body.2.supply.tokens⟩, Fragment.verbatim "count(*)"⟩
  show ∀ s ∈ (body.2.statement body.1 [counter]).1.selects, s.AllTexts P
  rw [Build.selects_statement]
  exact List.forall_mem_cons.2
    ⟨counted.statement (List.forall_mem_singleton.2 ⟨count, trivial⟩), counted.body.nested⟩

end View
end
end QueryViews
