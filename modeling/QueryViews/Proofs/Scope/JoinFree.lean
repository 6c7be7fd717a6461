import QueryViews.Proofs.Pipeline
import QueryViews.Proofs.Scope.Standing
import QueryViews.Query.Compiler

/-! Views without joins: their statements read one source each, and are well scoped exactly if
no expression written on the way reads a hidden token. Hidden tokens can only be read by a step
that recalls a token which an earlier template has held and a later one has dropped. -/

namespace QueryViews
namespace View

/-- The standing of a table's rows once the steps on it, the last one first, are built for what
is used above them. -/
def standing (v : View) (id : Alias) : List Step → TokenSet → Bool → Standing
  | [], _, _ => .ofTable id
  | s :: below, used, observed =>
    let needs := s.needs observed (v.under below).scope used
    (v.standing id below needs (s.observes observed)).step s observed needs

/-- The standing of the rows that are counted. -/
def countStanding (v : View) (id : Alias) (steps : List Step) : Standing :=
  let st := v.standing id steps .empty false
  if st.clauses.meets .aggregate then st.bracket .empty else st

section
variable {text : Fragment} {id : Alias} {template : Template} {definitions : TokenId → Fragment}
  {supply : Supply} {steps : List Step} {v : View}

theorem describes_standing (known : id.index < supply.aliases)
    (issued : ∀ s ∈ steps, s.AllTokens (Token.IssuedBy definitions supply))
    (made : (View.table text id template).applyAll steps = .ok v) :
    ∀ (used : TokenSet) (observed : Bool) (b : Build),
      (∀ t ∈ used.toList, t.AllTokens (Token.IssuedBy definitions supply)) →
      b.redirects = {} → b.supply = supply →
        let built := (v.body used observed).run b
        ((View.table text id template).standing id steps.reverse used observed).Describes supply
          built.1 built.2 := by
  induction made using applyAll_induction with
  | nil =>
    intro used observed b _ untouched same
    exact Standing.describes_table untouched known (same ▸ Nat.le_refl _) (same ▸ Nat.le_refl _)
  | concat steps s v before fits ih =>
    intro used observed b ofUsed untouched same
    obtain ⟨earlier, latest⟩ := List.forall_mem_append.1 issued
    have ofStep := latest s (List.mem_singleton_self s)
    have ofNeeds := ofStep.needs observed ofUsed v.scope
    have below := ih earlier (s.needs observed v.scope used) (s.observes observed) b
      (fun t member => (ofNeeds t member).1) untouched same
    rw [run_body_onto, List.reverse_concat, standing, ← eq_under_of_applyAll before]
    refine below.step (fun t member => (ofNeeds t member).1.self.number)
      (fun t member => Token.columns_issued (ofNeeds t member).1) ?_
    intro f member
    have given := Step.mem_fragments_of_written observed member
    exact Fragment.columns_issued (ofStep f given)
      (Fragment.inReach_iff_tokens.1 (fits.fragments ofStep f given)).1

end
end View

mutual

/-- What is in reach is visible if the way to the scope goes through no token that stands for a
column, and all that is met at the scope is visible. -/
theorem Segment.visible_of_reach {sight : Sight} {scope : Scope} :
    ∀ {segment : Segment}, segment.inReach scope = true →
      (∀ t ∈ segment.passed scope, t.id ∉ sight.shown ∧ t.id ∉ sight.hidden) →
      (∀ t ∈ segment.frontier scope, t.visible sight = true) → segment.visible sight = true
  | .token id definition, reached, passed, met => by
    rw [Segment.inReach_token] at reached
    unfold Segment.passed at passed
    unfold Segment.frontier at met
    cases held : scope.contains id with
    | true =>
      simp only [held, if_true] at met
      exact met _ (List.mem_singleton_self _)
    | false =>
      simp only [held, Bool.false_eq_true, if_false, Bool.false_or] at reached passed met
      obtain ⟨self, below⟩ := List.forall_mem_cons.1 passed
      unfold Segment.visible
      rw [if_neg self.1, if_neg self.2]
      exact Fragment.visible_of_reach reached below met
  | .nested _, reached, passed, met =>
    Fragment.visible_of_reach (by exact reached) (by exact passed) (by exact met)
  | .column _ _, reached, _, _ => nomatch reached
  | .verbatim _, _, _, _ | .param _, _, _, _ => rfl

theorem Fragment.visible_of_reach {sight : Sight} {scope : Scope} :
    ∀ {f : Fragment}, Fragment.inReach scope f = true →
      (∀ t ∈ Fragment.passed scope f, t.id ∉ sight.shown ∧ t.id ∉ sight.hidden) →
      (∀ t ∈ Fragment.frontier scope f, t.visible sight = true) →
        Fragment.visible sight f = true
  | [], _, _, _ => rfl
  | _ :: _, reached, passed, met => by
    obtain ⟨first, rest⟩ := Bool.and_eq_true_iff.1 reached
    obtain ⟨passedFirst, passedRest⟩ := List.forall_mem_append.1 passed
    obtain ⟨metFirst, metRest⟩ := List.forall_mem_append.1 met
    exact Bool.and_eq_true_iff.2 ⟨Segment.visible_of_reach first passedFirst metFirst,
      Fragment.visible_of_reach rest passedRest metRest⟩

end

/-- All needs met at the scope on the way down from what is used or read are asked for. -/
theorem Step.mem_needs_of_frontier {definitions : TokenId → Fragment} {supply : Supply} {s : Step}
    {observed : Bool} {scope : Scope} {used : TokenSet}
    (ofUsed : ∀ t ∈ used.toList, t.AllTokens (Token.IssuedBy definitions supply))
    (ofStep : s.AllTokens (Token.IssuedBy definitions supply)) {t u : Token}
    (read : t ∈ used.toList ∨ t ∈ s.reads observed) (met : u ∈ t.frontier scope) :
    u ∈ (s.needs observed scope used).toList := by
  have issued : ∀ x ∈ (used.insertAll (s.reads observed)).toList,
      x.AllTokens (Token.IssuedBy definitions supply) := fun x member =>
    (AscendingSet.mem_insertAll member).elim (ofUsed x) (ofStep.reads observed x)
  have follows : Fragment.Follows definitions
      ((used.insertAll (s.reads observed)).toList.map Token.toSegment) :=
    Fragment.follows_iff.2 (Fragment.allTokens_map_toSegment.2 fun x member =>
      (issued x member).mono fun _ made => made.definition)
  have ofRead : t.AllTokens (Token.IssuedBy definitions supply) :=
    read.elim (ofUsed t) (ofStep.reads observed t)
  have asked : (used.insertAll (s.reads observed)).holds t.id = true :=
    AscendingSet.holds_insertAll.2 (read.imp (fun inside => AscendingSet.holds_iff.2 ⟨t, inside, rfl⟩)
      fun inside => ⟨t, inside, rfl⟩)
  obtain ⟨x, member, same⟩ := AscendingSet.holds_iff.1 asked
  obtain rfl := Token.eq_of_issued (issued x member).self ofRead.self same
  have needed := (AscendingSet.holds_narrow_iff follows scope u.id).2 ⟨x, member, u, met, rfl⟩
  obtain ⟨y, listed, equal⟩ := AscendingSet.holds_iff.1 needed
  have ofMet := (Segment.allTokens_frontier ofRead u met).1
  have ofNeed := (ofStep.needs observed ofUsed scope y listed).1
  exact Token.eq_of_issued ofNeed.self ofMet.self equal ▸ listed

/-- What is used above a step is in reach below it, on a way through no dropped token. -/
theorem Step.inReach_of_used {definitions : TokenId → Fragment} {supply : Supply} {s : Step}
    {v : View} (fits : s.Accepted v.scope) (kept : ¬ s.Recalls v)
    (ofStep : s.AllTokens (Token.IssuedBy definitions supply)) {t : Token}
    (ofToken : t.IssuedBy definitions supply) (held : (s.onto v).scope.contains t.id = true) :
    Fragment.inReach v.scope t.toFragment = true ∧
      ∀ u ∈ Fragment.passed v.scope t.toFragment, u.id ∉ v.past := by
  have defined : s.AllTokens fun u => u.definition = definitions u.id :=
    fun f member => (ofStep f member).mono fun _ issued => issued.definition
  rcases Step.given_or_held defined ofToken.definition held with named | same
  · exact ⟨fits.fragments ofStep _ named,
      fun u passed dropped => kept ⟨_, named, u, passed, dropped⟩⟩
  · refine ⟨Token.inReach_toFragment.2 ((Segment.inReach_token _ _ _).trans (by simp [same])), ?_⟩
    intro u passed
    rw [Token.passed_toFragment same] at passed
    exact absurd passed List.not_mem_nil

/-- A standing that has met no hidden token, and shows all that is used above it. -/
structure Standing.Serves (st : Standing) (v : View) (used : TokenSet) : Prop where
  sound : st.sound = true
  past : ∀ id, id ∈ st.shown ∨ id ∈ st.hidden → id ∈ v.past
  visible : ∀ t ∈ used.toList, t.visible st.toSight = true

namespace Standing.Serves
variable {definitions : TokenId → Fragment} {supply : Supply} {st : Standing} {v : View}
  {s : Step} {observed : Bool} {used : TokenSet}

theorem bracket {needs : TokenSet} (serves : st.Serves v needs)
    (held : ∀ t ∈ needs.toList, v.scope.contains t.id = true) :
    (st.bracket needs).Serves v needs where
  sound := Bool.and_eq_true_iff.2 ⟨serves.sound, List.all_eq_true.2 serves.visible⟩
  past id seen := by
    rcases seen with shown | hidden
    · obtain ⟨t, needed, rfl⟩ := List.mem_map.1 shown
      exact View.mem_past_of_contains (held t needed)
    · exact serves.past id (List.mem_append.1 hidden)
  visible t needed := by
    have shown : t.id ∈ (st.bracket needs).shown := List.mem_map_of_mem needed
    show (if t.id ∈ (st.bracket needs).shown then true else _) = true
    rw [if_pos shown]

theorem step (serves : st.Serves v (s.needs observed v.scope used)) (fits : s.Accepted v.scope)
    (kept : ¬ s.Recalls v) (ofStep : s.AllTokens (Token.IssuedBy definitions supply))
    (ofUsed : ∀ t ∈ used.toList, t.AllTokens (Token.IssuedBy definitions supply))
    (held : ∀ t ∈ used.toList, (s.onto v).scope.contains t.id = true) :
    (st.step s observed (s.needs observed v.scope used)).Serves (s.onto v) used := by
  have room : (if s.brackets observed st.clauses then st.bracket (s.needs observed v.scope used)
      else st).Serves v (s.needs observed v.scope used) := by
    split
    · exact serves.bracket fun t member => AscendingSet.contains_of_mem_narrow member
    · exact serves
  rw [Standing.step]
  generalize (if s.brackets observed st.clauses then st.bracket (s.needs observed v.scope used)
      else st) = ready at room
  have sees : ∀ f : Fragment, f.inReach v.scope = true →
      (∀ t ∈ f.tokens, t ∈ used.toList ∨ t ∈ s.reads observed) →
      (∀ t ∈ Fragment.passed v.scope f, t.id ∉ v.past) → f.visible ready.toSight = true := by
    intro f reached read passed
    refine Fragment.visible_of_reach reached (fun t member => ?_) fun u met => ?_
    · exact not_or.1 fun seen => passed t member (room.past t.id seen)
    · rw [Fragment.frontier_eq_tokens] at met
      obtain ⟨t, named, below⟩ := List.mem_flatMap.1 met
      exact room.visible u (Step.mem_needs_of_frontier ofUsed ofStep (read t named) below)
  have written : ∀ f ∈ s.written observed, f.visible ready.toSight = true := by
    intro f member
    refine sees f (fits.fragments ofStep f (Step.mem_fragments_of_written observed member))
      (fun t named => .inr (Step.tokens_written observed member t named)) fun t passed dropped => ?_
    exact kept ⟨f, Step.mem_fragments_of_written observed member, t, passed, dropped⟩
  exact
    { sound := Bool.and_eq_true_iff.2 ⟨room.sound, List.all_eq_true.2 written⟩
      past := fun id seen => View.mem_past_onto s (room.past id seen)
      visible := by
        intro t member
        obtain ⟨reached, passed⟩ :=
          Step.inReach_of_used fits kept ofStep (ofUsed t member).self (held t member)
        refine Token.visible_toFragment.1 (sees _ reached ?_ passed)
        intro u named
        obtain rfl := List.mem_singleton.1 named
        exact .inl member }

end Standing.Serves

theorem View.serves_standing {text : Fragment} {id : Alias} {template : Template}
    {definitions : TokenId → Fragment} {supply : Supply} {steps : List Step} {v : View}
    (declared : ∀ c ∈ template.columns, ∃ name, c.token.definition = Fragment.column id name)
    (ofTable : template.AllTokens (Token.IssuedBy definitions supply))
    (issued : ∀ s ∈ steps, s.AllTokens (Token.IssuedBy definitions supply))
    (made : (View.table text id template).applyAll steps = .ok v)
    (kept : (View.table text id template).RecallFree steps) :
    ∀ (used : TokenSet) (observed : Bool),
      (∀ t ∈ used.toList, t.AllTokens (Token.IssuedBy definitions supply)) →
      (∀ t ∈ used.toList, v.scope.contains t.id = true) →
        ((View.table text id template).standing id steps.reverse used observed).Serves v used := by
  induction made using applyAll_induction with
  | nil =>
    intro used observed ofUsed held
    refine ⟨rfl, fun _ seen => absurd seen (by simp [standing, Standing.ofTable]), ?_⟩
    intro t member
    obtain ⟨c, inside, same⟩ := Template.contains_scope.1 (held t member)
    obtain rfl := Token.eq_of_issued (ofTable c inside).self (ofUsed t member).self same
    obtain ⟨name, column⟩ := declared c inside
    show Fragment.visible { table := some id } c.token.definition = true
    rw [column]
    simp [Fragment.column, Fragment.visible, Segment.visible]
  | concat steps s v before fits ih =>
    intro used observed ofUsed held
    obtain ⟨earlier, latest⟩ := List.forall_mem_append.1 issued
    obtain ⟨keptBefore, keptLast⟩ := (recallFree_concat before).1 kept
    have ofStep := latest s (List.mem_singleton_self s)
    have ofNeeds := ofStep.needs observed ofUsed v.scope
    have below := ih earlier keptBefore (s.needs observed v.scope used) (s.observes observed)
      (fun t member => (ofNeeds t member).1) fun t member => (ofNeeds t member).2
    rw [List.reverse_concat, standing, ← eq_under_of_applyAll before]
    exact below.step fits keptLast ofStep ofUsed held

namespace View
variable {text : Fragment} {id : Alias} {template : Template} {definitions : TokenId → Fragment}
  {supply : Supply} {steps : List Step} {v : View}

theorem run_countedBody (v : View) (b : Build) :
    v.countedBody.run b =
      let built := (v.body .empty false).run b
      if built.1.state.meets .aggregate then (Building.bracket built.1 .empty).run built.2
      else built := by
  rw [countedBody, StateT.run_bind]
  exact Building.run_bracketOn .aggregate _ _ .empty

theorem describes_countStanding (known : id.index < supply.aliases)
    (issued : ∀ s ∈ steps, s.AllTokens (Token.IssuedBy definitions supply))
    (made : (View.table text id template).applyAll steps = .ok v) (settings : Settings) :
    ((View.table text id template).countStanding id steps.reverse).Describes supply
      (v.countedBody.run { settings, supply }).1 (v.countedBody.run { settings, supply }).2 := by
  have nothing : ∀ t ∈ (AscendingSet.empty : TokenSet).toList, False :=
    fun _ none => absurd none List.not_mem_nil
  have below := describes_standing known issued made .empty false { settings, supply }
    (fun t none => (nothing t none).elim) rfl rfl
  simp only [run_countedBody, countStanding, ← below.state]
  split
  · exact below.bracket (fun t none => (nothing t none).elim) fun t none => (nothing t none).elim
  · exact below

/-- Without joins, the statement for the rows of a view and the one for their number read one
source in each SELECT, and are well scoped exactly if no hidden token is read on the way. That
is so if no step recalls a dropped token. -/
theorem wellScoped_iff_standing {settings : Settings} (known : id.index < supply.aliases)
    (declared : ∀ c ∈ template.columns, ∃ name, c.token.definition = Fragment.column id name)
    (ofTable : template.AllTokens (Token.IssuedBy definitions supply))
    (issued : ∀ s ∈ steps, s.AllTokens (Token.IssuedBy definitions supply))
    (made : (View.table text id template).applyAll steps = .ok v) :
    let table := View.table text id template
    let rows := ((v.plan settings).run supply).1.statement
    let count := ((v.countPlan settings).run supply).1.statement
    (rows.JoinFree ∧ (rows.WellScoped ↔
      (table.standing id steps.reverse v.template.tokenSet true).selects v.template.tokens)) ∧
    (count.JoinFree ∧ (count.WellScoped ↔ (table.countStanding id steps.reverse).sound)) ∧
    (table.RecallFree steps → rows.WellScoped ∧ count.WellScoped) := by
  intro table rows count
  have ofTemplate : v.template.AllTokens (Token.IssuedBy definitions supply) :=
    allTokens_template (by exact ofTable) issued made
  have forRows := describes_standing known issued made v.template.tokenSet true
    { settings, supply } ofTemplate.tokenSet rfl rfl
  have forCount := describes_countStanding known issued made settings
  have rowsScoped : rows.WellScoped ↔ _ :=
    forRows.statement_wellScoped_iff (Token.nodup_distinct _)
      fun t member => Token.columns_issued (ofTemplate.tokens t member)
  let counter : Token := ⟨⟨(v.countedBody.run { settings, supply }).2.supply.tokens⟩,
    Fragment.verbatim "count(*)"⟩
  have countScoped : count.WellScoped ↔ (table.countStanding id steps.reverse).selects [counter] :=
    forCount.statement_wellScoped_iff (List.nodup_cons.2 ⟨List.not_mem_nil, List.nodup_nil⟩)
      (List.forall_mem_singleton.2 fun _ none => absurd none List.not_mem_nil)
  rw [forCount.selects_minted rfl] at countScoped
  refine ⟨⟨forRows.statement_joinFree _, rowsScoped⟩,
    ⟨forCount.statement_joinFree _, countScoped⟩, fun kept => ?_⟩
  have serves := serves_standing declared ofTable issued made kept
  constructor
  · have all := serves v.template.tokenSet true ofTemplate.tokenSet
      fun t member => Template.contains_of_mem_tokenSet member
    refine rowsScoped.2 (Bool.and_eq_true_iff.2 ⟨all.sound, List.all_eq_true.2 fun t member => ?_⟩)
    exact all.visible t (ofTemplate.mem_tokenSet member)
  · have none := serves .empty false (fun _ absent => absurd absent List.not_mem_nil)
      fun _ absent => absurd absent List.not_mem_nil
    refine countScoped.2 ?_
    rw [countStanding]
    split
    · exact (none.bracket fun _ absent => absurd absent List.not_mem_nil).sound
    · exact none.sound

/-- The amounts of orders. -/
def amount : Token := ⟨⟨0⟩, Fragment.column ⟨0⟩ "amount"⟩

/-- The amounts with a fee on top. -/
def billed : Token := ⟨⟨1⟩, amount.toFragment ++ Fragment.verbatim " + 1"⟩

def orders : View := .table (Fragment.verbatim "orders") ⟨0⟩ (.ofTokens [("amount", amount)])

def orderDefinitions (id : TokenId) : Fragment :=
  if id = ⟨0⟩ then amount.definition else billed.definition

theorem amount_issued : amount.AllTokens (Token.IssuedBy orderDefinitions ⟨2, 1, 0⟩) :=
  ⟨⟨rfl, by decide, by decide⟩, trivial, trivial⟩

theorem billed_issued : billed.AllTokens (Token.IssuedBy orderDefinitions ⟨2, 1, 0⟩) :=
  ⟨⟨rfl, by decide, by decide⟩, amount_issued, trivial, trivial⟩

theorem orders_declared : ∀ c ∈ (Template.ofTokens [("amount", amount)]).columns,
    ∃ name, c.token.definition = Fragment.column ⟨0⟩ name := by
  simp [amount, Fragment.column]

theorem orders_issued :
    (Template.ofTokens [("amount", amount)]).AllTokens (Token.IssuedBy orderDefinitions ⟨2, 1, 0⟩) := by
  simp [Template.AllTokens, amount_issued]

/-- Selects the sum in a bracket, reads it there, and leaves it out of the next bracket. -/
def dropping : List Step :=
  [.project (.ofTokens [("amount", amount), ("billed", billed)]), .bracket .always,
    .filter (billed.toFragment ++ Fragment.verbatim " > 1"),
    .project (.ofTokens [("amount", amount)]), .bracket .always]

def recalling : List Step := dropping ++ [.project (.ofTokens [("billed", billed)])]

theorem not_wellScoped_of_recalled :
    ∃ v, orders.applyAll recalling = .ok v ∧
      ¬ ((v.plan {}).run { tokens := 2, aliases := 1 }).1.statement.WellScoped := by
  refine ⟨_, rfl, ?_⟩
  decide

theorem wellScoped_iff_standing_orders :
    (∃ v, orders.applyAll dropping = .ok v ∧ orders.RecallFree dropping ∧
      ((v.plan {}).run { tokens := 2, aliases := 1 }).1.statement.WellScoped) ∧
    ∃ v, orders.applyAll recalling = .ok v ∧
      ¬ ((v.plan {}).run { tokens := 2, aliases := 1 }).1.statement.WellScoped := by
  have ofSteps : ∀ s ∈ recalling, s.AllTokens (Token.IssuedBy orderDefinitions ⟨2, 1, 0⟩) := by
    simp [recalling, dropping, Step.AllTokens, Step.fragments, Column.toFragment,
      Fragment.allTokens_toFragment, amount_issued, billed_issued, Fragment.verbatim,
      Fragment.AllTokens, Segment.AllTokens]
  refine ⟨⟨_, rfl, by decide, ?_⟩, _, rfl, ?_⟩
  · exact ((wellScoped_iff_standing (by decide) orders_declared orders_issued
      (fun s listed => ofSteps s (List.mem_append_left _ listed)) rfl).2.2 (by decide)).1
  · intro claimed
    have read := (wellScoped_iff_standing (by decide) orders_declared orders_issued ofSteps
      rfl).1.2.1 claimed
    exact absurd read (by decide)

end View
end QueryViews
