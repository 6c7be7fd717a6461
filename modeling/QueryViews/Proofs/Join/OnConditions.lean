import QueryViews.Proofs.Clauses.Aggregates
import QueryViews.Proofs.Demand.Reads
import QueryViews.Proofs.Join.Orderly
import QueryViews.Proofs.Join.Provenance

/-! Which sources an ON condition reads. A joined side that becomes no subquery has its own joins
put behind the join it comes in with, whose condition may read any of its columns: that is the one
way in which a condition comes to read a source that is joined after it. -/

namespace QueryViews

mutual

theorem Segment.columns_substitute {resolve : TokenId → Option Fragment}
    {Q : Alias × String → Prop} :
    ∀ {segment : Segment}, (∀ c ∈ segment.columns, Q c) →
      (segment.AllTokens fun t => ∀ f, resolve t.id = some f → ∀ c ∈ f.columns, Q c) →
        ∀ c ∈ (segment.substitute resolve).columns, Q c
  | .token id definition, written, ⟨self, below⟩ => by
    unfold Segment.substitute
    cases found : resolve id with
    | some f => exact self f found
    | none => exact Fragment.columns_substitute written below
  | .nested _, written, stands => Fragment.columns_substitute (by exact written) (by exact stands)
  | .verbatim _, written, _ | .column _ _, written, _ | .param _, written, _ => by
    simpa [Segment.substitute, Fragment.columns] using written

/-- An expansion reads what the fragment reads, written out, and what its tokens stand for. -/
theorem Fragment.columns_substitute {resolve : TokenId → Option Fragment}
    {Q : Alias × String → Prop} :
    ∀ {f : Fragment}, (∀ c ∈ Fragment.columns f, Q c) →
      Fragment.AllTokens (fun t => ∀ g, resolve t.id = some g → ∀ c ∈ g.columns, Q c) f →
        ∀ c ∈ Fragment.columns (Fragment.substitute resolve f), Q c
  | [], written, _ => written
  | _ :: _, written, ⟨first, rest⟩ => by
    obtain ⟨here, later⟩ := List.forall_mem_append.1 written
    rw [Fragment.substitute, Fragment.columns_append]
    exact List.forall_mem_append.2
      ⟨Segment.columns_substitute here first, Fragment.columns_substitute later rest⟩

end

/-- No ON condition of the SELECT reads a source that is joined after it. Of the sources of the
SELECT, that leaves FROM and those joined up to the condition. -/
def Body.LooksLeft (b : Body) : Prop :=
  b.joins.Pairwise fun j later => ∀ c ∈ j.condition.columns, c.1 ≠ later.source.id

/-- The sources of the SELECT can be told apart. -/
def Body.Distinct (b : Body) : Prop := (b.sources.map Source.id).Nodup

instance (b : Body) : Decidable b.LooksLeft :=
  inferInstanceAs (Decidable (b.joins.Pairwise _))

instance (b : Body) : Decidable b.Distinct :=
  inferInstanceAs (Decidable (b.sources.map Source.id).Nodup)

theorem Body.looksLeft_join {b x : Body} {kind : JoinKind} {condition : Fragment} :
    (b.join x kind condition).LooksLeft ↔ b.LooksLeft ∧ x.LooksLeft ∧
      (∀ j ∈ x.joins, ∀ c ∈ condition.columns, c.1 ≠ j.source.id) ∧
        ∀ j ∈ b.joins, ∀ c ∈ j.condition.columns, ∀ s ∈ x.sources, c.1 ≠ s.id := by
  simp only [LooksLeft, join, addJoin, List.append_assoc, List.singleton_append, sources,
    List.pairwise_append, List.pairwise_cons, List.forall_mem_cons, List.forall_mem_map]
  constructor
  · rintro ⟨ofBase, ⟨aims, ofExtra⟩, apart⟩
    refine ⟨ofBase, ofExtra, aims, fun j listed c read => ?_⟩
    exact ⟨(apart j listed).1 c read, fun other inside => (apart j listed).2 other inside c read⟩
  · rintro ⟨ofBase, ofExtra, aims, apart⟩
    refine ⟨ofBase, ⟨aims, ofExtra⟩, fun j listed => ⟨fun c read => (apart j listed c read).1, ?_⟩⟩
    exact fun other inside c read => (apart j listed c read).2 other inside

theorem Body.condition_mem_fragments {b : Body} {j : JoinClause} (listed : j ∈ b.joins) :
    j.condition ∈ b.fragments := by
  simp only [fragments, List.append_assoc]
  exact List.mem_append_left _ (List.mem_map_of_mem listed)

theorem Body.expanded_join (r : Redirects) (b x : Body) (kind : JoinKind) (condition : Fragment) :
    (b.join x kind condition).expanded r =
      (b.expanded r).join (x.expanded r) kind (r.expand condition) := by
  simp [expanded, join, addJoin, JoinClause.expanded]

namespace Build

/-- Once it is a statement, the body looks left, as all SELECTs nested in it do. -/
def LooksLeft (b : Build) (body : Body) : Prop :=
  (body.expanded b.redirects).LooksLeft ∧ ∀ s ∈ body.nested, s.body.LooksLeft

section
variable {b later : Build} {body : Body}

theorem looksLeft_statement {targets : List Token} :
    (∀ s ∈ (b.statement body targets).1.selects, s.body.LooksLeft) ↔ b.LooksLeft body := by
  rw [selects_statement, List.forall_mem_cons]
  rfl

theorem looksLeft_bracketIf {applies : Bool} {needs : TokenSet} :
    (b.bracketIf applies body needs).2.LooksLeft (b.bracketIf applies body needs).1 ↔
      b.LooksLeft body := by
  cases applies with
  | false => exact Iff.rfl
  | true =>
    rw [LooksLeft, nested_bracketIf, if_pos rfl, List.singleton_append, List.forall_mem_cons]
    exact and_iff_right List.Pairwise.nil

theorem looksLeft_extend {s : Step} {observed : Bool} :
    b.LooksLeft (s.extend observed body) ↔ b.LooksLeft body := by
  rw [LooksLeft, Step.nested_extend, Body.LooksLeft, Body.expanded, Step.joins_extend]
  rfl

/-- Two sides that look left are joined to a body that does if the new condition reads no source
joined on the extra side, and no condition of the base side reads a source of the other. -/
theorem looksLeft_join {other : Body} {kind : JoinKind} {condition : Fragment}
    (apart : ∀ j ∈ (body.expanded b.redirects).joins, ∀ c ∈ j.condition.columns,
      ∀ s ∈ (other.expanded b.redirects).sources, c.1 ≠ s.id) :
    b.LooksLeft (body.join other kind condition) ↔
      (∀ j ∈ other.joins, ∀ c ∈ (b.redirects.expand condition).columns, c.1 ≠ j.source.id) ∧
        b.LooksLeft body ∧ b.LooksLeft other := by
  have aims : (∀ j ∈ (other.expanded b.redirects).joins,
        ∀ c ∈ (b.redirects.expand condition).columns, c.1 ≠ j.source.id) ↔
      ∀ j ∈ other.joins, ∀ c ∈ (b.redirects.expand condition).columns, c.1 ≠ j.source.id := by
    rw [Body.expanded, List.forall_mem_map]
    simp only [JoinClause.expanded, Source.id_expanded]
  simp only [LooksLeft, Body.expanded_join, Body.looksLeft_join, Body.nested_join,
    List.forall_mem_append, and_iff_left apart, aims]
  constructor
  · rintro ⟨⟨ofBase, ofExtra, aims⟩, nestedBase, nestedExtra⟩
    exact ⟨aims, ⟨ofBase, nestedBase⟩, ofExtra, nestedExtra⟩
  · rintro ⟨aims, ⟨ofBase, nestedBase⟩, ofExtra, nestedExtra⟩
    exact ⟨⟨ofBase, ofExtra, aims⟩, nestedBase, nestedExtra⟩

/-- Redirects of tokens that are no part of the body make no difference to it. -/
theorem Keeps.looksLeft_iff {own : TokenId → Prop} (keeps : Keeps own b later)
    (flat : b.redirects.Flat) (flatLater : later.redirects.Flat)
    (foreign : body.AllTokens fun t => ¬ own t.id) : later.LooksLeft body ↔ b.LooksLeft body := by
  have same : body.joins.map (JoinClause.expanded later.redirects) =
      body.joins.map fun j =>
        { j.expanded b.redirects with source := j.source.expanded later.redirects } := by
    refine List.map_congr_left fun j listed => ?_
    have expanded := keeps.expand_eq flat flatLater
      (foreign j.condition (List.mem_append_left _ (Body.condition_mem_fragments listed)))
    rw [JoinClause.expanded, JoinClause.expanded, expanded]
  refine and_congr_left' ?_
  simp only [Body.LooksLeft, Body.expanded, same, List.pairwise_map, Source.id_expanded,
    JoinClause.expanded]

end
end Build

/-- What both sides of a join come to, in the order they are built in. -/
structure JoinStages where
  first : Body × Build
  second : Body × Build
  closed : Body × Build
  last : Body × Build

/-- Which sources come in on the way, and which tokens are left alone. -/
structure JoinStages.Lawful (st : JoinStages) (base extra : View) (b : Build) : Prop where
  first : Build.Grows (fun a => base.sources.contains a = true) st.first.1.aliases b st.first.2
  second : Build.Grows (fun a => extra.sources.contains a = true) st.second.1.aliases st.first.2
    st.second.2
  closed : ∃ made, Build.Grows (fun _ => False) made st.second.2 st.closed.2 ∧
    ∀ a, a ∈ st.closed.1.aliases ↔ a ∈ st.first.1.aliases ∨ a ∈ made
  last : ∃ made, Build.Grows (fun _ => False) made st.closed.2 st.last.2 ∧
    ∀ a, a ∈ st.last.1.aliases ↔ a ∈ st.second.1.aliases ∨ a ∈ made
  keepsSecond : Build.Keeps (· ∈ extra.past) st.first.2 st.second.2
  keepsClosed : Build.Keeps (· ∈ base.past) st.second.2 st.closed.2
  keepsLast : Build.Keeps (· ∈ extra.past) st.closed.2 st.last.2

namespace View

def stages (base extra : View) (mode : JoinMode) (condition : Fragment) (used : TokenSet)
    (observed : Bool) (b : Build) : JoinStages :=
  let baseNeeds := base.joinNeeds condition used
  let extraNeeds := extra.joinNeeds condition used
  let first := (base.body baseNeeds observed).run b
  let second := (extra.body extraNeeds false).run first.2
  let closed := second.2.bracketIf (first.1.state.meets JoinMode.blockersOfBase) first.1 baseNeeds
  let last := closed.2.bracketIf
    (second.1.state.meets (mode.blockersOfExtra closed.2.settings.joinPolicy)) second.1 extraNeeds
  ⟨first, second, closed, last⟩

section
variable (base extra : View) (mode : JoinMode) (condition : Fragment) (used : TokenSet)
  (observed : Bool) (b : Build)

theorem run_sides_stages : (base.sides extra mode condition used observed).run b =
    let st := base.stages extra mode condition used observed b
    ((st.closed.1, st.last.1), st.last.2) :=
  run_sides base extra mode condition used observed b

theorem lawful_stages : (base.stages extra mode condition used observed b).Lawful base extra b where
  first := base.grows_body _ observed b
  second := extra.grows_body _ false _
  closed := ⟨_, Build.grows_bracketIf _ _ _ _, fun _ => Build.mem_aliases_bracketIf _ _ _⟩
  last := ⟨_, Build.grows_bracketIf _ _ _ _, fun _ => Build.mem_aliases_bracketIf _ _ _⟩
  keepsSecond := extra.keeps_past _ false _
  keepsClosed := keeps_closing (fun _ => contains_of_mem_joinNeeds) _ _ _
  keepsLast := keeps_closing (fun _ => contains_of_mem_joinNeeds) _ _ _

end
end View

namespace JoinStages.Lawful
variable {st : JoinStages} {base extra : View} {b : Build}

/-- What comes in with the extra side is neither a source of the base side nor one of its tables. -/
theorem apart (lawful : st.Lawful base extra b) (accepted : View.ensureSides base extra = .ok ())
    (known : ∀ a, base.sources.contains a = true ∨ extra.sources.contains a = true →
      a.index < b.supply.aliases) :
    ∀ a ∈ st.last.1.aliases, ¬ (base.sources.contains a = true ∨ a ∈ st.closed.1.aliases) := by
  intro a ofExtra ofBase
  obtain ⟨madeClosed, closed, inClosed⟩ := lawful.closed
  obtain ⟨madeLast, last, inLast⟩ := lawful.last
  have one := lawful.first.supply
  have two := lawful.second.supply
  have three := closed.supply
  -- tables are older than the build, and each side has two ranges of numbers to itself
  have inExtra : extra.sources.contains a = true ∨
      (st.first.2.supply.aliases ≤ a.index ∧ a.index < st.second.2.supply.aliases) ∨
      st.closed.2.supply.aliases ≤ a.index := by
    rcases (inLast a).1 ofExtra with below | made
    · exact (lawful.second.numbered a below).imp_right .inl
    · exact .inr (.inr ((last.numbered a made).resolve_left not_false).1)
  have inBase : base.sources.contains a = true ∨
      (b.supply.aliases ≤ a.index ∧ a.index < st.first.2.supply.aliases) ∨
      (st.second.2.supply.aliases ≤ a.index ∧ a.index < st.closed.2.supply.aliases) := by
    rcases ofBase with table | source
    · exact .inl table
    · rcases (inClosed a).1 source with below | made
      · exact (lawful.first.numbered a below).imp_right .inl
      · exact .inr (.inr ((closed.numbered a made).resolve_left not_false))
  rcases inBase with table | numbered
  · have old := known a (.inl table)
    rcases inExtra with shared | later
    · exact Bool.false_ne_true ((View.sources_apart accepted table).symm.trans shared)
    · omega
  · rcases inExtra with table | later
    · have old := known a (.inr table)
      omega
    · omega

/-- A token that is none of the extra side's stands for a column of the base side, if for any. -/
theorem lookup_last (lawful : st.Lawful base extra b) {id : TokenId}
    (fresh : b.redirects.lookup id = none) (foreign : id ∉ extra.past) {f : Fragment}
    (found : st.last.2.redirects.lookup id = some f) :
    ∃ a ∈ st.closed.1.aliases, ∃ name, f = Fragment.column a name := by
  obtain ⟨made, closed, inClosed⟩ := lawful.closed
  rw [lawful.keepsLast id foreign] at found
  rcases closed.redirects id f found with before | ⟨a, inside, column⟩
  · rw [lawful.keepsSecond id foreign] at before
    rcases lawful.first.redirects id f before with earlier | ⟨a, inside, column⟩
    · rw [fresh] at earlier
      exact nomatch earlier
    · exact ⟨a, (inClosed a).2 (.inl inside), column⟩
  · exact ⟨a, (inClosed a).2 (.inr inside), column⟩

theorem flat (lawful : st.Lawful base extra b) (flat : b.redirects.Flat) :
    st.first.2.redirects.Flat ∧ st.second.2.redirects.Flat ∧ st.closed.2.redirects.Flat ∧
      st.last.2.redirects.Flat := by
  obtain ⟨_, growsClosed, _⟩ := lawful.closed
  obtain ⟨_, growsLast, _⟩ := lawful.last
  have first := lawful.first.flat flat
  have second := lawful.second.flat first
  have closed := growsClosed.flat second
  exact ⟨first, second, closed, growsLast.flat closed⟩

end JoinStages.Lawful

/-- The condition of an inner join that may take its extra side without a subquery reads no source
that this side has joined itself. -/
def Visit.AimsLeft (visit : Visit) : Prop :=
  match visit.view with
  | .join base extra mode withNull condition =>
    View.Joins base extra mode withNull visit.used visit.observed →
      mode = .inner ∧ visit.build.settings.joinPolicy = .relaxed →
      let both := (base.sides extra mode condition visit.used visit.observed).run visit.build
      ∀ j ∈ both.1.2.joins, ∀ c ∈ (both.2.redirects.expand condition).columns, c.1 ≠ j.source.id
  | _ => True

theorem Visit.aimsLeft_of_strict {visit : Visit}
    (strict : visit.build.settings.joinPolicy = .strict) : visit.AimsLeft := by
  obtain ⟨view, used, observed, build⟩ := visit
  cases view with
  | join base extra mode withNull condition =>
    rintro - ⟨-, relaxed⟩
    rw [strict] at relaxed
    exact nomatch relaxed
  | table | filter | project | group | order | take | skip | bracket => exact trivial

namespace View

/-- Calls have made the view, on tables that are older than the build, and none of its tokens has
been redirected yet. -/
structure Ready (definitions : TokenId → Fragment) (supply : Supply) (v : View) (b : Build) :
    Prop where
  legal : v.Legal
  unmixed : v.Unmixed
  issued : v.AllTokens (Token.IssuedBy definitions supply)
  known : ∀ a, v.sources.contains a = true → a.index < b.supply.aliases
  fresh : v.AllTokens fun t => b.redirects.lookup t.id = none
  flat : b.redirects.Flat

/-- A side is closed off if it may be missing, or under the strict policy. -/
theorem joins_last {base : View} (extra : View) {mode : JoinMode} {condition : Fragment}
    (used : TokenSet) (observed : Bool) {b : Build}
    (closes : ¬ (mode = .inner ∧ b.settings.joinPolicy = .relaxed)) :
    (base.stages extra mode condition used observed b).last.1.joins = [] := by
  have lawful := base.lawful_stages extra mode condition used observed b
  obtain ⟨_, growsClosed, _⟩ := lawful.closed
  have settings :
      (base.stages extra mode condition used observed b).closed.2.settings = b.settings :=
    growsClosed.settings.trans (lawful.second.settings.trans lawful.first.settings)
  have blockers : mode.blockersOfExtra b.settings.joinPolicy = .all := by
    cases policy : b.settings.joinPolicy with
    | strict => cases mode <;> rfl
    | relaxed =>
      cases mode with
      | left | lazy => rfl
      | inner => exact absurd ⟨rfl, policy⟩ closes
  have clear := Build.clear_bracketIf (base.stages extra mode condition used observed b).closed.2
    (base.stages extra mode condition used observed b).second.1
    (mode.blockersOfExtra
      (base.stages extra mode condition used observed b).closed.2.settings.joinPolicy)
    (extra.joinNeeds condition used)
  rw [settings, blockers] at clear
  have last :
      (base.stages extra mode condition used observed b).last.1.state.meets .all = false := by
    rw [← clear, ← blockers, ← settings]
    rfl
  rw [Body.eq_ofSource last]
  rfl

section Ready
variable {definitions : TokenId → Fragment} {supply : Supply} {v base extra : View}
  {mode : JoinMode} {withNull : Bool} {condition : Fragment} {used : TokenSet} {observed : Bool}
  {b : Build} {s : Step}

theorem Ready.input (ready : (s.onto v).Ready definitions supply b) :
    v.Ready definitions supply b where
  legal := (legal_onto.1 ready.legal).1
  unmixed := unmixed_onto.1 ready.unmixed
  issued := (allTokens_onto.1 ready.issued).1
  known := s.sources_onto v ▸ ready.known
  fresh := (allTokens_onto.1 ready.fresh).1
  flat := ready.flat

theorem Ready.ofBase
    (ready : (View.join base extra mode withNull condition).Ready definitions supply b) :
    base.Ready definitions supply b where
  legal := ready.legal.1
  unmixed := ready.unmixed.1
  issued := ready.issued.1
  known a table := ready.known a (contains_sources_join.2 (.inl table))
  fresh := ready.fresh.1
  flat := ready.flat

theorem Ready.ofExtra
    (ready : (View.join base extra mode withNull condition).Ready definitions supply b) :
    extra.Ready definitions supply b where
  legal := ready.legal.2.1
  unmixed := ready.unmixed.2.1
  issued := ready.issued.2.1
  known a table := ready.known a (contains_sources_join.2 (.inr table))
  fresh := ready.fresh.2.1
  flat := ready.flat

/-- Neither side of a join has held a token of the other. -/
theorem Ready.foreign
    (ready : (View.join base extra mode withNull condition).Ready definitions supply b) :
    (base.AllTokens fun t => t.id ∉ extra.past) ∧ extra.AllTokens fun t => t.id ∉ base.past := by
  obtain ⟨-, -, ofBase, allBase, allExtra⟩ := ready.unmixed
  have pastExtra : ∀ id ∈ extra.past, ¬ ofBase id := by
    intro id held
    exact @AllTokens.of_past (fun id => ¬ ofBase id) extra allExtra id held
  constructor
  · exact allBase.mono fun t own held => pastExtra t.id held own
  · exact allExtra.mono fun t foreign held => foreign (AllTokens.of_past allBase held)

/-- The extra side is built on what the base side leaves, which is no matter to it. -/
theorem Ready.ofExtraAfter
    (ready : (View.join base extra mode withNull condition).Ready definitions supply b) :
    extra.Ready definitions supply (base.stages extra mode condition used observed b).first.2 := by
  have lawful := base.lawful_stages extra mode condition used observed b
  have alone := ready.ofExtra
  have keeps := base.keeps_past (base.joinNeeds condition used) observed b
  exact
    { legal := alone.legal
      unmixed := alone.unmixed
      issued := alone.issued
      known := fun a table => Nat.lt_of_lt_of_le (alone.known a table) lawful.first.supply
      fresh := (alone.fresh.and ready.foreign.2).mono fun t both => (keeps t.id both.2).trans both.1
      flat := lawful.first.flat ready.flat }

variable (used observed) in
/-- No condition of the base side reads a source that comes in with the extra side. -/
theorem Ready.conditions_apart
    (ready : (View.join base extra mode withNull condition).Ready definitions supply b) :
    let st := base.stages extra mode condition used observed b
    ∀ j ∈ (st.closed.1.expanded st.last.2.redirects).joins, ∀ c ∈ j.condition.columns,
      ∀ s ∈ (st.last.1.expanded st.last.2.redirects).sources, c.1 ≠ s.id := by
  intro st j listed c read source inside same
  have lawful := base.lawful_stages extra mode condition used observed b
  obtain ⟨-, -, accepted, -⟩ := ready.legal
  have apart := lawful.apart accepted fun a table => ready.known a (contains_sources_join.2 table)
  obtain ⟨original, below, rfl⟩ := List.mem_map.1 listed
  have ofFirst : original ∈ st.first.1.joins := Build.joins_bracketIf _ _ _ _ below
  have written := ready.legal.1.columns_of_condition ready.issued.1 _ observed b original ofFirst
  have tokens := allTokens_body (ready.fresh.1.and ready.foreign.1) (base.joinNeeds condition used)
    observed b ready.flat
  have ofCondition := tokens original.condition
    (List.mem_append_left _ (Body.condition_mem_fragments ofFirst))
  have reads : base.sources.contains c.1 = true ∨ c.1 ∈ st.closed.1.aliases := by
    have flat := (lawful.flat ready.flat).2.2.2
    rw [JoinClause.expanded, Redirects.expand_of_flat flat] at read
    refine Fragment.columns_substitute (Q := fun c =>
        base.sources.contains c.1 = true ∨ c.1 ∈ st.closed.1.aliases)
      (fun c own => .inl (written c own))
      (ofCondition.mono fun t both f found c inside => ?_) c read
    obtain ⟨a, made, name, rfl⟩ := lawful.lookup_last both.1 both.2 found
    obtain rfl := List.mem_singleton.1 inside
    exact .inr made
  refine apart c.1 ?_ reads
  rw [same]
  exact Body.mem_aliases_expanded.1 (Body.id_mem_aliases inside)

/-- Where an extra side is closed off it has no joins left, so nothing is asked of its sources. -/
theorem aimsLeft_join_iff (withNull : Bool) (b : Build)
    (joins : View.Joins base extra mode withNull used observed) :
    Visit.AimsLeft ⟨.join base extra mode withNull condition, used, observed, b⟩ ↔
      let last := (base.stages extra mode condition used observed b).last
      ∀ j ∈ last.1.joins, ∀ c ∈ (last.2.redirects.expand condition).columns,
        c.1 ≠ j.source.id := by
  show (Joins _ _ _ _ _ _ → _ → _) ↔ _
  rw [forall_prop_of_true joins, run_sides_stages]
  by_cases open_ : mode = .inner ∧ b.settings.joinPolicy = .relaxed
  · exact forall_prop_of_true open_
  · have none : (base.stages extra mode condition used observed b).last.1.joins = [] :=
      joins_last extra used observed open_
    rw [forall_prop_of_false open_]
    refine iff_of_true trivial fun j absent => ?_
    rw [none] at absent
    exact absurd absent List.not_mem_nil

variable (used observed) in
/-- Closing a side moves its conditions, and the other side's redirects do not reach them. -/
theorem Ready.looksLeft_sides
    (ready : (View.join base extra mode withNull condition).Ready definitions supply b) :
    let st := base.stages extra mode condition used observed b
    (st.last.2.LooksLeft st.closed.1 ↔ st.first.2.LooksLeft st.first.1) ∧
      (st.last.2.LooksLeft st.last.1 ↔ st.second.2.LooksLeft st.second.1) := by
  intro st
  have lawful : st.Lawful base extra b := base.lawful_stages extra mode condition used observed b
  obtain ⟨flatFirst, flatSecond, flatClosed, flatLast⟩ := lawful.flat ready.flat
  have foreignFirst : st.first.1.AllTokens fun t => t.id ∉ extra.past :=
    allTokens_body ready.foreign.1 _ observed b ready.flat
  have foreignSecond : st.second.1.AllTokens fun t => t.id ∉ base.past :=
    allTokens_body ready.foreign.2 _ false _ flatFirst
  constructor
  · have kept : st.last.2.LooksLeft st.closed.1 ↔ st.closed.2.LooksLeft st.closed.1 :=
      lawful.keepsLast.looksLeft_iff flatClosed flatLast (foreignFirst.bracketIf _ _ _)
    have moved : st.closed.2.LooksLeft st.closed.1 ↔ st.second.2.LooksLeft st.first.1 :=
      Build.looksLeft_bracketIf
    exact kept.trans (moved.trans
      (lawful.keepsSecond.looksLeft_iff flatFirst flatSecond foreignFirst))
  · have moved : st.last.2.LooksLeft st.last.1 ↔ st.closed.2.LooksLeft st.second.1 :=
      Build.looksLeft_bracketIf
    exact moved.trans (lawful.keepsClosed.looksLeft_iff flatSecond flatClosed foreignSecond)

/-- A body looks left as far as the visited joins aim left. -/
theorem Ready.looksLeft_iff (ready : v.Ready definitions supply b) :
    ((v.body used observed).run b).2.LooksLeft ((v.body used observed).run b).1 ↔
      ∀ visit ∈ v.visits used observed b, visit.AimsLeft := by
  induction v, used, observed, b using visits_induction with
  | table =>
    refine iff_of_true ⟨List.Pairwise.nil, fun s none => absurd none List.not_mem_nil⟩ ?_
    exact List.forall_mem_singleton.2 trivial
  | onto s v used observed b ih =>
    simp only [run_body_onto, Build.run_makeRoom, visits_onto, Step.visits, List.forall_mem_cons]
    rw [Build.looksLeft_extend, Build.looksLeft_bracketIf, ← ih ready.input]
    have self : Visit.AimsLeft ⟨s.onto v, used, observed, b⟩ := by
      cases s with
      | filter | project | group | order | take | skip | bracket => exact trivial
    exact (and_iff_right self).symm
  | baseOnly base extra mode withNull condition used observed b drops ih =>
    rw [run_body_of_dropsExtra b drops, visits_of_dropsExtra b drops, List.forall_mem_cons,
      ih ready.ofBase]
    exact (and_iff_right fun joins => absurd drops joins.1).symm
  | extraOnly base extra mode withNull condition used observed b keeps drops ih =>
    rw [run_body_of_dropsBase b keeps drops, visits_of_dropsBase b keeps drops,
      List.forall_mem_cons, ih ready.ofExtra]
    exact (and_iff_right fun joins => absurd drops joins.2).symm
  | both base extra mode withNull condition used observed b joins ofBase ofExtra =>
    obtain ⟨forBase, forExtra⟩ := ready.looksLeft_sides used observed
    rw [run_body_of_joins b joins, visits_of_joins b joins, List.forall_mem_cons,
      List.forall_mem_append, ← ofBase ready.ofBase, ← ofExtra ready.ofExtraAfter,
      aimsLeft_join_iff withNull b joins, run_sides_stages]
    refine (Build.looksLeft_join (ready.conditions_apart used observed)).trans ?_
    exact and_congr_right fun _ => and_congr forBase forExtra

end Ready

section Statements
variable {v : View} {used : TokenSet} {observed : Bool} {b : Build}

theorem settings_of_visit (v : View) (used : TokenSet) (observed : Bool) (b : Build) :
    ∀ visit ∈ v.visits used observed b, visit.build.settings = b.settings := by
  induction v, used, observed, b using visits_induction with
  | table => exact List.forall_mem_singleton.2 rfl
  | onto s v used observed b ih =>
    rw [visits_onto]
    exact List.forall_mem_cons.2 ⟨rfl, ih⟩
  | baseOnly base extra mode withNull condition used observed b drops ih =>
    rw [visits_of_dropsExtra b drops]
    exact List.forall_mem_cons.2 ⟨rfl, ih⟩
  | extraOnly base extra mode withNull condition used observed b keeps drops ih =>
    rw [visits_of_dropsBase b keeps drops]
    exact List.forall_mem_cons.2 ⟨rfl, ih⟩
  | both base extra mode withNull condition used observed b joins ofBase ofExtra =>
    rw [visits_of_joins b joins]
    refine List.forall_mem_cons.2 ⟨rfl, List.forall_mem_append.2 ⟨ofBase, ?_⟩⟩
    exact fun visit below => (ofExtra visit below).trans (base.grows_body _ observed b).settings

/-- Calls have made every visited view, on tables older than what it is built with. -/
theorem legal_of_visit (legal : v.Legal)
    (known : ∀ a, v.sources.contains a = true → a.index < b.supply.aliases) :
    ∀ visit ∈ v.visits used observed b, visit.view.Legal ∧
      ∀ a, visit.view.sources.contains a = true → a.index < visit.build.supply.aliases := by
  induction v, used, observed, b using visits_induction with
  | table => exact List.forall_mem_singleton.2 ⟨legal, known⟩
  | onto s v used observed b ih =>
    rw [visits_onto]
    exact List.forall_mem_cons.2
      ⟨⟨legal, known⟩, ih (legal_onto.1 legal).1 (s.sources_onto v ▸ known)⟩
  | baseOnly base extra mode withNull condition used observed b drops ih =>
    rw [visits_of_dropsExtra b drops]
    exact List.forall_mem_cons.2 ⟨⟨legal, known⟩,
      ih legal.1 fun a table => known a (contains_sources_join.2 (.inl table))⟩
  | extraOnly base extra mode withNull condition used observed b keeps drops ih =>
    rw [visits_of_dropsBase b keeps drops]
    exact List.forall_mem_cons.2 ⟨⟨legal, known⟩,
      ih legal.2.1 fun a table => known a (contains_sources_join.2 (.inr table))⟩
  | both base extra mode withNull condition used observed b joins ofBase ofExtra =>
    rw [visits_of_joins b joins]
    refine List.forall_mem_cons.2 ⟨⟨legal, known⟩, List.forall_mem_append.2 ⟨?_, ?_⟩⟩
    · exact ofBase legal.1 fun a table => known a (contains_sources_join.2 (.inl table))
    · refine ofExtra legal.2.1 fun a table => ?_
      exact Nat.lt_of_lt_of_le (known a (contains_sources_join.2 (.inr table)))
        (base.grows_body _ observed b).supply

theorem distinct_bracketIf {body : Body} (distinct : body.Distinct) (b : Build) (applies : Bool)
    (needs : TokenSet) : (b.bracketIf applies body needs).1.Distinct := by
  cases applies with
  | true => exact List.pairwise_singleton _ _
  | false => exact distinct

theorem distinct_body (legal : v.Legal)
    (known : ∀ a, v.sources.contains a = true → a.index < b.supply.aliases) :
    ((v.body used observed).run b).1.Distinct := by
  induction v, used, observed, b using visits_induction with
  | table => exact List.pairwise_singleton _ _
  | onto s v used observed b ih =>
    have below := ih (legal_onto.1 legal).1 (s.sources_onto v ▸ known)
    rw [run_body_onto]
    simp only [Build.run_makeRoom, Body.Distinct, Body.sources, Step.source_extend,
      Step.joins_extend]
    exact distinct_bracketIf below _ _ _
  | baseOnly base extra mode withNull condition used observed b drops ih =>
    rw [run_body_of_dropsExtra b drops]
    exact ih legal.1 fun a table => known a (contains_sources_join.2 (.inl table))
  | extraOnly base extra mode withNull condition used observed b keeps drops ih =>
    rw [run_body_of_dropsBase b keeps drops]
    exact ih legal.2.1 fun a table => known a (contains_sources_join.2 (.inr table))
  | both base extra mode withNull condition used observed b joins ofBase ofExtra =>
    let st := base.stages extra mode condition used observed b
    have lawful : st.Lawful base extra b := base.lawful_stages extra mode condition used observed b
    have first : st.first.1.Distinct :=
      ofBase legal.1 fun a table => known a (contains_sources_join.2 (.inl table))
    have second : st.second.1.Distinct := ofExtra legal.2.1 fun a table =>
      Nat.lt_of_lt_of_le (known a (contains_sources_join.2 (.inr table))) lawful.first.supply
    have apart := lawful.apart legal.2.2.1 fun a table => known a (contains_sources_join.2 table)
    have both : ((st.closed.1.join st.last.1 mode.kind condition).sources.map Source.id) =
        st.closed.1.sources.map Source.id ++ st.last.1.sources.map Source.id := by
      simp [Body.sources, Body.join, Body.addJoin]
    rw [run_body_of_joins b joins, run_sides_stages]
    show ((st.closed.1.join st.last.1 mode.kind condition).sources.map Source.id).Nodup
    rw [both, List.nodup_append]
    refine ⟨distinct_bracketIf first _ _ _, distinct_bracketIf second _ _ _, ?_⟩
    rintro a ofBase _ ofExtra rfl
    obtain ⟨one, inside, rfl⟩ := List.mem_map.1 ofBase
    obtain ⟨two, beside, same⟩ := List.mem_map.1 ofExtra
    exact apart _ (same ▸ Body.id_mem_aliases beside) (.inr (Body.id_mem_aliases inside))

theorem distinct_statement {body : Body} (distinct : body.Distinct) (targets : List Token) :
    (b.statement body targets).1.body.Distinct := by
  have ids : (Source.id ∘ Source.expanded b.redirects) = Source.id :=
    funext fun source => source.id_expanded
  show ((body.expanded b.redirects).sources.map Source.id).Nodup
  rw [Body.sources_expanded, List.map_map, ids]
  exact distinct

theorem distinct_selects {body : Body} (distinct : body.Distinct)
    (nested : ∀ s ∈ body.nested, s.body.Distinct) (targets : List Token) :
    ∀ s ∈ (b.statement body targets).1.selects, s.body.Distinct := by
  rw [Build.selects_statement]
  exact List.forall_mem_cons.2 ⟨distinct_statement distinct targets, nested⟩

theorem MadeOn.distinct {s : Statement} (made : MadeOn (v.visits used observed b) s)
    (legal : v.Legal) (known : ∀ a, v.sources.contains a = true → a.index < b.supply.aliases) :
    s.body.Distinct := by
  obtain ⟨visit, listed, later, rfl⟩ := made
  obtain ⟨legalThere, knownThere⟩ := legal_of_visit legal known visit listed
  exact distinct_statement (distinct_body legalThere knownThere) _

/-- In the statements for a view that calls have made of tables, without tokens reached from both
sides of a join, the sources of each SELECT can be told apart. No ON condition reads one of them
that is joined after it, as long as no inner join under the relaxed policy aims at a source that
its extra side has joined itself; where one does, such a condition is written. -/
theorem looksLeft_selects_iff {definitions : TokenId → Fragment} {supply : Supply} (legal : v.Legal)
    (unmixed : v.Unmixed) (issued : v.AllTokens (Token.IssuedBy definitions supply))
    (tables : ∀ a ∈ v.sources.toList, a.index < supply.aliases) (settings : Settings) :
    let start : Build := { settings, supply }
    let rows := ((v.plan settings).run supply).1.statement
    let count := ((v.countPlan settings).run supply).1.statement
    (∀ s ∈ rows.selects ++ count.selects, s.body.Distinct) ∧
      ((∀ s ∈ rows.selects, s.body.LooksLeft) ↔
        ∀ visit ∈ v.visits v.template.tokenSet true start, visit.AimsLeft) ∧
      ((∀ s ∈ count.selects, s.body.LooksLeft) ↔
        ∀ visit ∈ v.visits .empty false start, visit.AimsLeft) ∧
      (settings.joinPolicy = .strict → ∀ s ∈ rows.selects ++ count.selects, s.body.LooksLeft) := by
  intro start rows count
  have known : ∀ a, v.sources.contains a = true → a.index < start.supply.aliases :=
    fun a table => tables a (mem_sources_iff.2 table)
  have ready : v.Ready definitions supply start :=
    { legal, unmixed, issued, known, fresh := issued.mono fun _ _ => rfl
      flat := Redirects.flat_empty }
  have ofRows : (∀ s ∈ rows.selects, s.body.LooksLeft) ↔
      ∀ visit ∈ v.visits v.template.tokenSet true start, visit.AimsLeft :=
    Build.looksLeft_statement.trans ready.looksLeft_iff
  have ofCount : (∀ s ∈ count.selects, s.body.LooksLeft) ↔
      ∀ visit ∈ v.visits .empty false start, visit.AimsLeft := by
    have counted : (∀ s ∈ count.selects, s.body.LooksLeft) ↔
        (v.countedBody.run start).2.LooksLeft (v.countedBody.run start).1 :=
      Build.looksLeft_statement
    rw [counted, run_countedBody]
    exact Build.looksLeft_bracketIf.trans ready.looksLeft_iff
  refine ⟨List.forall_mem_append.2 ⟨?distinctRows, ?distinctCount⟩, ofRows, ofCount, ?strict⟩
  case distinctRows =>
    exact distinct_selects (distinct_body legal known) (fun s nested =>
      (v.madeOn_of_mem_nested _ _ start s nested).distinct legal known) v.template.tokens
  case distinctCount =>
    have counted : (v.countedBody.run start).1.Distinct := by
      rw [run_countedBody]
      exact distinct_bracketIf (distinct_body legal known) _ _ _
    exact distinct_selects counted (fun s nested =>
      (v.madeOn_of_mem_countedBody start s nested).distinct legal known) _
  case strict =>
    intro strict
    have aims : ∀ used observed, ∀ visit ∈ v.visits used observed start, visit.AimsLeft :=
      fun used observed visit listed =>
        visit.aimsLeft_of_strict (v.settings_of_visit used observed start visit listed ▸ strict)
    exact List.forall_mem_append.2 ⟨ofRows.2 (aims _ _), ofCount.2 (aims _ _)⟩

end Statements

def toyBuyer : Token := ⟨⟨2⟩, Fragment.column ⟨2⟩ "buyer"⟩

def toys : View := .table (Fragment.verbatim "toys") ⟨2⟩ (.ofTokens [("buyer", toyBuyer)])

def boughtBy (buyer : Token) : Fragment :=
  buyer.toFragment ++ Fragment.verbatim " = " ++ toyBuyer.toFragment

def petsWithToys : View := .join pets toys .inner false (boughtBy petOwner)

/-- The toys of other owners' pets too, as the pets come in by what an owner has bought. -/
def buyers : View := .join owners petsWithToys .inner false (boughtBy ownerId)

def buyerDefinitions (id : TokenId) : Fragment :=
  if id = ⟨0⟩ then ownerId.definition
  else if id = ⟨1⟩ then petOwner.definition
  else toyBuyer.definition

theorem not_looksLeft_of_spliced :
    pets.joined toys .inner false (boughtBy petOwner) = .ok petsWithToys ∧
      owners.joined petsWithToys .inner false (boughtBy ownerId) = .ok buyers ∧
      ∃ s ∈ ((buyers.plan .relaxed).run ⟨3, 3, 0⟩).1.statement.selects,
        s.body.Distinct ∧ ¬ s.body.LooksLeft := by
  refine ⟨rfl, rfl, ?_⟩
  decide

theorem legal_buyers : buyers.Legal := by
  have ofPets : pets.joined toys .inner false (boughtBy petOwner) = .ok petsWithToys := rfl
  have ofOwners : owners.joined petsWithToys .inner false (boughtBy ownerId) = .ok buyers := rfl
  have declared : ∀ (text : Fragment) (id : Alias) (name column : String) (t : Token),
      t.definition = Fragment.column id name →
        (View.table text id (.ofTokens [(column, t)])).Legal := by
    intro text id name column t same
    simp [Legal, Template.columns_ofTokens, same]
  apply Legal.joined _ _ ofOwners
  · exact declared _ _ _ _ _ rfl
  · exact (declared _ _ _ _ _ rfl).joined (declared _ _ _ _ _ rfl) ofPets

theorem issued_buyers : buyers.AllTokens (Token.IssuedBy buyerDefinitions ⟨3, 3, 0⟩) := by
  have id : ownerId.AllTokens (Token.IssuedBy buyerDefinitions ⟨3, 3, 0⟩) :=
    ⟨⟨rfl, by decide, by decide⟩, trivial, trivial⟩
  have owner : petOwner.AllTokens (Token.IssuedBy buyerDefinitions ⟨3, 3, 0⟩) :=
    ⟨⟨rfl, by decide, by decide⟩, trivial, trivial⟩
  have buyer : toyBuyer.AllTokens (Token.IssuedBy buyerDefinitions ⟨3, 3, 0⟩) :=
    ⟨⟨rfl, by decide, by decide⟩, trivial, trivial⟩
  simp [buyers, petsWithToys, boughtBy, owners, pets, toys, AllTokens, Template.AllTokens,
    Template.columns_ofTokens, Fragment.verbatim, Fragment.allTokens_toFragment,
    Fragment.AllTokens, Segment.AllTokens, id, owner, buyer]

theorem unmixed_buyers : buyers.Unmixed :=
  ⟨trivial, ⟨trivial, trivial, (· = ⟨1⟩), by decide, by decide⟩, (· = ⟨0⟩), by decide, by decide⟩

/-- Under the strict policy the pets and their toys become a subquery; under the relaxed one they
come in one by one, and the owners aim at the toys, which come last. -/
theorem looksLeft_selects_iff_buyers :
    (∀ s ∈ ((buyers.plan {}).run ⟨3, 3, 0⟩).1.statement.selects, s.body.LooksLeft) ∧
      ¬ ∀ visit ∈ buyers.visits buyers.template.tokenSet true
        { settings := .relaxed, supply := ⟨3, 3, 0⟩ }, visit.AimsLeft := by
  have theory := looksLeft_selects_iff legal_buyers unmixed_buyers issued_buyers (by decide)
  constructor
  · intro s listed
    exact (theory {}).2.2.2 rfl s (List.mem_append_left _ listed)
  · intro aims
    exact absurd ((theory .relaxed).2.1.2 aims) (by decide)

end View
end QueryViews
