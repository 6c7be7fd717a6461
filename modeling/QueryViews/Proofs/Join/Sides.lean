import QueryViews.Proofs.Join.Elision
import QueryViews.Proofs.Join.Support

/-! The two sides of a join share one set of redirects. They keep apart if neither touches a token
that the other has redirected by then, and only then. So they do if no token is part of both, at
any depth; the check on joining compares what the two templates hold. -/

namespace QueryViews

/-- A join that is asked for some tokens, and what it is built with. -/
structure Joining where
  base : View
  extra : View
  mode : JoinMode
  withNull : Bool
  condition : Fragment
  used : TokenSet
  observed : Bool
  settings : Settings
  supply : Supply

namespace Joining
variable (j : Joining)

def view : View := .join j.base j.extra j.mode j.withNull j.condition

/-- The join is made, with neither side left out. -/
def Made : Prop :=
  ¬ j.extra.dropsExtra j.mode j.used ∧ ¬ j.base.dropsBase j.mode j.withNull j.observed j.used

def baseNeeds : TokenSet := j.base.joinNeeds j.condition j.used

def extraNeeds : TokenSet := j.extra.joinNeeds j.condition j.used

/-- The bodies of both sides, and the build after them. -/
def sides : (Body × Body) × Build :=
  (j.base.sides j.extra j.mode j.condition j.used j.observed).run
    { settings := j.settings, supply := j.supply }

def aloneBase : Body × Build :=
  (j.base.body j.baseNeeds j.observed).run { settings := j.settings, supply := j.supply }

def aloneExtra : Body × Build :=
  (j.extra.body j.extraNeeds false).run
    { settings := j.settings, supply := j.aloneBase.2.supply }

def closesBase : Bool := j.aloneBase.1.state.meets JoinMode.blockersOfBase

def closesExtra : Bool :=
  j.aloneExtra.1.state.meets (j.mode.blockersOfExtra j.settings.joinPolicy)

/-- The base side as it goes into the join. -/
def closedBase : Body × Build :=
  { j.aloneBase.2 with supply := j.aloneExtra.2.supply }.bracketIf j.closesBase j.aloneBase.1
    j.baseNeeds

/-- The extra side as it goes into the join. -/
def closedExtra : Body × Build :=
  { j.aloneExtra.2 with supply := j.closedBase.2.supply }.bracketIf j.closesExtra j.aloneExtra.1
    j.extraNeeds

/-- At each point of building the join, what is touched for one side is not redirected by what
has been built of the other side before. -/
structure Apart : Prop where
  extraBody : ∀ id ∈ j.extra.touched j.extraNeeds false
      { settings := j.settings, supply := j.aloneBase.2.supply },
    j.aloneBase.2.redirects.lookup id = none
  baseClosing : ∀ id ∈ j.aloneBase.2.touchedIf j.closesBase j.aloneBase.1 j.baseNeeds,
    j.aloneExtra.2.redirects.lookup id = none
  extraClosing : ∀ id ∈ j.aloneExtra.2.touchedIf j.closesExtra j.aloneExtra.1 j.extraNeeds,
    j.closedBase.2.redirects.lookup id = none
  baseUsed : ∀ t ∈ j.used.toList, j.base.scope.contains t.id = true →
    ∀ id ∈ j.closedBase.2.redirects.touched t.toFragment,
      j.closedExtra.2.redirects.lookup id = none
  extraUsed : ∀ t ∈ j.used.toList, j.extra.scope.contains t.id = true →
    ∀ id ∈ j.closedExtra.2.redirects.touched t.toFragment,
      j.closedBase.2.redirects.lookup id = none

/-- Tokens used of a side expand to columns of that side, and no FROM expression and no subquery
of a side reads a source of the other. -/
structure Separate : Prop where
  base : ∀ t ∈ j.used.toList, j.base.scope.contains t.id = true →
    (j.sides.2.redirects.expandToken t).ReadsOnly j.sides.1.1.sources
  extra : ∀ t ∈ j.used.toList, j.extra.scope.contains t.id = true →
    (j.sides.2.redirects.expandToken t).ReadsOnly j.sides.1.2.sources
  baseReads : ∀ c ∈ j.sides.1.1.reads,
    ¬ (c.1 ∈ j.sides.1.2.aliases ∨ j.extra.sources.contains c.1 = true)
  extraReads : ∀ c ∈ j.sides.1.2.reads,
    ¬ (c.1 ∈ j.sides.1.1.aliases ∨ j.base.sources.contains c.1 = true)

/-- What `Separate` asks for, of the sides as they are built by themselves. -/
structure Contained : Prop where
  base : ∀ t ∈ j.used.toList, j.base.scope.contains t.id = true →
    (j.closedBase.2.redirects.expandToken t).ReadsOnly j.closedBase.1.sources
  extra : ∀ t ∈ j.used.toList, j.extra.scope.contains t.id = true →
    (j.closedExtra.2.redirects.expandToken t).ReadsOnly j.closedExtra.1.sources
  baseReads : ∀ c ∈ j.closedBase.1.reads,
    ¬ (c.1 ∈ j.closedExtra.1.aliases ∨ j.extra.sources.contains c.1 = true)
  extraReads : ∀ c ∈ j.closedExtra.1.reads,
    ¬ (c.1 ∈ j.closedBase.1.aliases ∨ j.base.sources.contains c.1 = true)

/-- No token is part of both sides, at any depth. -/
def Unshared (definitions : TokenId → Fragment) : Prop :=
  ∃ ofBase ofExtra : TokenId → Prop, (∀ id, ofBase id → ¬ ofExtra id) ∧
    (j.base.AllTokens fun t => t.definition = definitions t.id ∧ ofBase t.id) ∧
      j.extra.AllTokens fun t => t.definition = definitions t.id ∧ ofExtra t.id

end Joining

/-- The statement for what is asked of a side is well scoped, with its FROM expressions too. -/
def Build.Sound (b : Build) (body : Body) (needs : TokenSet) : Prop :=
  (b.statement body needs.toList).1.WellScoped ∧ (b.statement body needs.toList).1.Closed

instance (b : Build) (body : Body) (needs : TokenSet) : Decidable (b.Sound body needs) :=
  inferInstanceAs (Decidable (_ ∧ _))

namespace Build.Sound
variable {b : Build} {body : Body} {needs : TokenSet}

/-- What is asked of the side can be read from its sources. -/
theorem readsOnly (sound : b.Sound body needs) (flat : b.redirects.Flat) (applies : Bool)
    (supply : Supply) {t : Token} (needed : t ∈ needs.toList) :
    let closed := { b with supply := supply }.bracketIf applies body needs
    (closed.2.redirects.expandToken t).ReadsOnly closed.1.sources := by
  cases applies with
  | false =>
    have selected := (Statement.wellScoped_iff.1 sound.1).2
    have listed : t ∈ (outputNames b.settings needs.toList).map Prod.fst := by
      rw [map_fst_outputNames, Token.distinct_of_nodup needs.nodup_ids]
      exact needed
    obtain ⟨entry, inside, rfl⟩ := List.mem_map.1 listed
    exact Body.readsOnly_expanded.1 (selected _ (List.mem_map_of_mem inside))
  | true =>
    let later : Build := { b with supply := supply }
    obtain ⟨name, found⟩ : ∃ name, (later.statement body needs.toList).2.lookup t.id = some name :=
      exists_lookup needed
    obtain ⟨u, -, -, column⟩ := column_of_lookup found
    show ((later.bracketed body needs.toList).redirects.expandToken t).ReadsOnly
      [.subquery (later.statement body needs.toList).1 later.nextAlias]
    rw [expandToken_bracketed (b := later) flat found]
    exact Fragment.readsOnly_column.2 ⟨rfl, _, column, rfl⟩

theorem reads (sound : b.Sound body needs) (applies : Bool) (supply : Supply) :
    let closed := { b with supply := supply }.bracketIf applies body needs
    ∀ c ∈ closed.1.reads, c.1 ∈ closed.1.aliases := by
  intro closed c read
  cases applies with
  | false =>
    exact mem_aliases_statement.1 (sound.2 c (b.reads_statement body needs.toList c read))
  | true =>
    have inside : c ∈ (b.statement body needs.toList).1.reads ++ [] := read
    rw [List.append_nil] at inside
    exact (mem_aliases_bracketIf _ _ _).2 (.inl (mem_aliases_statement.1 (sound.2 c inside)))

end Build.Sound

namespace View

/-- A token used of a side is among those that the join asks it for. -/
theorem mem_joinNeeds {definitions : TokenId → Fragment} {side : View} {condition : Fragment}
    {used : TokenSet}
    (ofUsed : ∀ t ∈ used.toList, t.AllTokens fun u => u.definition = definitions u.id)
    (ofCondition : condition.AllTokens fun u => u.definition = definitions u.id) {t : Token}
    (member : t ∈ used.toList) (held : side.scope.contains t.id = true) :
    t ∈ (side.joinNeeds condition used).toList := by
  have follows : Fragment.Follows definitions (used.toList.map Token.toSegment) :=
    Fragment.follows_iff.2 (Fragment.allTokens_map_toSegment.2 ofUsed)
  refine AscendingSet.mem_of_holds
    (fun u inside => (allTokens_joinNeeds ofUsed ofCondition u inside).self) (ofUsed t member).self ?_
  exact AscendingSet.holds_union.2 (.inl
    ((AscendingSet.holds_narrow_iff follows side.scope t.id).2 ⟨t, member, t, Token.mem_frontier_self held, rfl⟩))

end View

namespace Build
variable {tables : Alias → Prop} {start : Build} {body : Body} {built : Build}

theorem Grows.mem_closed (grows : Grows tables body.aliases start built) {later : Supply}
    (applies : Bool) (needs : TokenSet) {a : Alias} :
    let closed := { built with supply := later }.bracketIf applies body needs
    a ∈ closed.1.aliases → tables a ∨
      (start.supply.aliases ≤ a.index ∧ a.index < built.supply.aliases) ∨
      (later.aliases ≤ a.index ∧ a.index < closed.2.supply.aliases) := by
  intro closed inside
  rcases (mem_aliases_bracketIf _ _ _).1 inside with below | made
  · exact (grows.numbered a below).imp_right .inl
  · rcases (grows_bracketIf _ applies body needs).numbered a made with table | numbered
    · exact table.elim
    · exact .inr (.inr numbered)

theorem Grows.into_closed (grows : Grows tables body.aliases start built)
    (fresh : start.redirects = {}) (later : Supply) (applies : Bool) (needs : TokenSet) :
    let closed := { built with supply := later }.bracketIf applies body needs
    closed.2.redirects.Into closed.1.aliases := by
  intro closed id f found
  rcases (grows_bracketIf _ applies body needs).redirects id f found with before | made
  · obtain ⟨a, inside, column⟩ := grows.into fresh id f before
    exact ⟨a, (mem_aliases_bracketIf _ _ _).2 (.inl inside), column⟩
  · obtain ⟨a, inside, column⟩ := made
    exact ⟨a, (mem_aliases_bracketIf _ _ _).2 (.inr inside), column⟩

end Build

namespace Joining
variable {j : Joining}

theorem grows_aloneBase : Build.Grows (fun a => j.base.sources.contains a = true)
    j.aloneBase.1.aliases { settings := j.settings, supply := j.supply } j.aloneBase.2 :=
  j.base.grows_body j.baseNeeds j.observed _

theorem grows_aloneExtra : Build.Grows (fun a => j.extra.sources.contains a = true)
    j.aloneExtra.1.aliases { settings := j.settings, supply := j.aloneBase.2.supply }
    j.aloneExtra.2 :=
  j.extra.grows_body j.extraNeeds false _

theorem into_closedBase : j.closedBase.2.redirects.Into j.closedBase.1.aliases :=
  grows_aloneBase.into_closed rfl _ _ _

theorem into_closedExtra : j.closedExtra.2.redirects.Into j.closedExtra.1.aliases :=
  grows_aloneExtra.into_closed rfl _ _ _

/-- The sides have no source in common, and neither has a table of the other. -/
theorem aliases_apart (accepted : View.ensureSides j.base j.extra = .ok ())
    (known : ∀ a ∈ j.view.sources.toList, a.index < j.supply.aliases) (a : Alias) :
    (a ∈ j.closedBase.1.aliases →
      ¬ (a ∈ j.closedExtra.1.aliases ∨ j.extra.sources.contains a = true)) ∧
    (a ∈ j.closedExtra.1.aliases →
      ¬ (a ∈ j.closedBase.1.aliases ∨ j.base.sources.contains a = true)) := by
  -- tables are older than the build, and each side has two ranges of numbers to itself
  have tables : ¬ (j.base.sources.contains a = true ∧ j.extra.sources.contains a = true) := by
    rintro ⟨inBase, inExtra⟩
    exact Bool.false_ne_true ((View.sources_apart accepted inBase).symm.trans inExtra)
  have old : j.view.sources.contains a = true → a.index < j.supply.aliases := fun table =>
    known a (View.mem_sources_iff.2 table)
  have oldBase : j.base.sources.contains a = true → a.index < j.supply.aliases := fun table =>
    old (View.contains_sources_join.2 (.inl table))
  have oldExtra : j.extra.sources.contains a = true → a.index < j.supply.aliases := fun table =>
    old (View.contains_sources_join.2 (.inr table))
  have ofBase : a ∈ j.closedBase.1.aliases → j.base.sources.contains a = true ∨
      (j.supply.aliases ≤ a.index ∧ a.index < j.aloneBase.2.supply.aliases) ∨
      (j.aloneExtra.2.supply.aliases ≤ a.index ∧ a.index < j.closedBase.2.supply.aliases) :=
    j.grows_aloneBase.mem_closed j.closesBase j.baseNeeds
  have ofExtra : a ∈ j.closedExtra.1.aliases → j.extra.sources.contains a = true ∨
      (j.aloneBase.2.supply.aliases ≤ a.index ∧ a.index < j.aloneExtra.2.supply.aliases) ∨
      (j.closedBase.2.supply.aliases ≤ a.index ∧ a.index < j.closedExtra.2.supply.aliases) :=
    j.grows_aloneExtra.mem_closed j.closesExtra j.extraNeeds
  have one : j.supply.aliases ≤ j.aloneBase.2.supply.aliases := j.grows_aloneBase.supply
  have two : j.aloneBase.2.supply.aliases ≤ j.aloneExtra.2.supply.aliases :=
    j.grows_aloneExtra.supply
  have three : j.aloneExtra.2.supply.aliases ≤ j.closedBase.2.supply.aliases :=
    (Build.grows_bracketIf { j.aloneBase.2 with supply := j.aloneExtra.2.supply } j.closesBase
      j.aloneBase.1 j.baseNeeds).supply
  have unshared : a ∈ j.closedBase.1.aliases → ¬ a ∈ j.closedExtra.1.aliases := by
    intro inside shared
    rcases ofBase inside with inBase | numbered
    · have low := oldBase inBase
      rcases ofExtra shared with inExtra | later
      · exact tables ⟨inBase, inExtra⟩
      · omega
    · rcases ofExtra shared with inExtra | later
      · have low := oldExtra inExtra
        omega
      · omega
  constructor
  · rintro inside (shared | inExtra)
    · exact unshared inside shared
    · have low := oldExtra inExtra
      rcases ofBase inside with inBase | numbered
      · exact tables ⟨inBase, inExtra⟩
      · omega
  · rintro inside (shared | inBase)
    · exact unshared shared inside
    · have low := oldBase inBase
      rcases ofExtra inside with inExtra | numbered
      · exact tables ⟨inBase, inExtra⟩
      · omega

end Joining

theorem Build.Shadowed.swap {own foreign joint : Build}
    (shadowed : own.Shadowed foreign.redirects joint) (settings : foreign.settings = own.settings) :
    { foreign with supply := own.supply }.Shadowed own.redirects joint :=
  ⟨shadowed.settings.trans settings.symm, shadowed.supply, shadowed.redirects.swap⟩

/-- Among foreign redirects, a token can be read from its own sources if it can be without them
and none of them is touched. -/
theorem Redirects.Joint.readsOnly_iff {own foreign joint : Redirects}
    (both : Joint own foreign joint) {made : List Alias} (into : foreign.Into made)
    {sources : List Source} (outside : ∀ s ∈ sources, s.id ∉ made) (t : Token) :
    (joint.expandToken t).ReadsOnly sources ↔
      (∀ id ∈ own.touched t.toFragment, foreign.lookup id = none) ∧
        (own.expandToken t).ReadsOnly sources := by
  have same (untouched : ∀ id ∈ own.touched t.toFragment, foreign.lookup id = none) :
      joint.expandToken t = own.expandToken t := both.expand_of_untouched untouched
  constructor
  · intro reads
    have untouched : ∀ id ∈ own.touched t.toFragment, foreign.lookup id = none := by
      intro id touched
      cases redirected : foreign.lookup id with
      | none => rfl
      | some f =>
        have leaks := both.leaksInto_expand touched (by rw [redirected]; rfl)
        obtain ⟨c, inside, foreigner⟩ := into.exists_read leaks
        obtain ⟨s, listed, equal, -⟩ := reads c (Fragment.mem_columns_of_own inside)
        exact absurd (equal ▸ foreigner) (outside s listed)
    exact ⟨untouched, same untouched ▸ reads⟩
  · rintro ⟨untouched, reads⟩
    rw [same untouched]
    exact reads

namespace Joining
variable {j : Joining}

/-- The extra side, built after the base side. -/
def jointExtra (j : Joining) : Body × Build :=
  (j.extra.body j.extraNeeds false).run j.aloneBase.2

/-- The base side as it goes into the join, after both have been built. -/
def jointBase (j : Joining) : Body × Build :=
  j.jointExtra.2.bracketIf j.closesBase j.aloneBase.1 j.baseNeeds

theorem sides_eq :
    let last := j.jointBase.2.bracketIf (j.jointExtra.1.state.meets
      (j.mode.blockersOfExtra j.jointBase.2.settings.joinPolicy)) j.jointExtra.1 j.extraNeeds
    j.sides = ((j.jointBase.1, last.1), last.2) :=
  View.run_sides j.base j.extra j.mode j.condition j.used j.observed _

theorem meeting_extra : Build.Meeting j.aloneBase.2.redirects
    (j.extra.touched j.extraNeeds false { settings := j.settings, supply := j.aloneBase.2.supply })
    j.aloneExtra j.jointExtra := by
  refine j.extra.meeting_body j.extraNeeds false _ _ ⟨grows_aloneBase.settings, rfl, ?_⟩
  exact
    { lookup := fun id => rfl
      apart := fun id none => absurd none nofun
      flatOwn := Redirects.flat_empty
      flatForeign := (grows_aloneBase.into rfl).flat }

/-- The two sides are bodied as they are by themselves, and their redirects stand side by side. -/
structure Parted (j : Joining) : Prop where
  extraBody : ∀ id ∈ j.extra.touched j.extraNeeds false
      { settings := j.settings, supply := j.aloneBase.2.supply },
    j.aloneBase.2.redirects.lookup id = none
  baseClosing : ∀ id ∈ j.aloneBase.2.touchedIf j.closesBase j.aloneBase.1 j.baseNeeds,
    j.aloneExtra.2.redirects.lookup id = none
  extraClosing : ∀ id ∈ j.aloneExtra.2.touchedIf j.closesExtra j.aloneExtra.1 j.extraNeeds,
    j.closedBase.2.redirects.lookup id = none
  ofBase : j.sides.1.1 = j.closedBase.1
  ofExtra : j.sides.1.2 = j.closedExtra.1
  redirects : Redirects.Joint j.closedExtra.2.redirects j.closedBase.2.redirects
    j.sides.2.redirects

theorem not_separate_of_extra_leaks {r : Redirects} (leaks : r.LeaksInto j.sides.1.2.reads)
    (into : r.Into j.sides.1.1.aliases) : ¬ j.Separate := by
  intro separate
  obtain ⟨c, read, inside⟩ := into.exists_read leaks
  exact separate.extraReads c read (.inl inside)

theorem not_separate_of_base_leaks {r : Redirects} (leaks : r.LeaksInto j.sides.1.1.reads)
    (into : r.Into j.sides.1.2.aliases) : ¬ j.Separate := by
  intro separate
  obtain ⟨c, read, inside⟩ := into.exists_read leaks
  exact separate.baseReads c read (.inl inside)

theorem not_apart_of_redirected {touched : List TokenId} {redirects : Redirects}
    (keeps : j.Apart → ∀ id ∈ touched, redirects.lookup id = none)
    (touches : ∃ id ∈ touched, (redirects.lookup id).isSome = true) : ¬ j.Apart := by
  intro apart
  obtain ⟨id, member, redirected⟩ := touches
  rw [keeps apart id member] at redirected
  exact Bool.false_ne_true redirected

/-- While the join is built, the sides stay parted, or one of them reads a column of the other. -/
theorem parted_or_leaks (j : Joining) : j.Parted ∨ (¬ j.Separate ∧ ¬ j.Apart) := by
  -- three things are built among foreign redirects, one after the other: the extra side, the
  -- bracket of the base side, and that of the extra side; the first that touches them settles it
  have intoBase : j.aloneBase.2.redirects.Into j.aloneBase.1.aliases := grows_aloneBase.into rfl
  have intoExtra : j.aloneExtra.2.redirects.Into j.aloneExtra.1.aliases := grows_aloneExtra.into rfl
  rcases meeting_extra with ⟨untouched, same, after⟩ | ⟨touches, leaks⟩
  case leaks =>
    refine .inr ⟨not_separate_of_extra_leaks (leaks.mono ?_) (intoBase.mono ?_),
      not_apart_of_redirected Apart.extraBody touches⟩
    · rw [sides_eq]
      exact Build.reads_bracketIf _ _ _
    · rw [sides_eq]
      exact fun a inside => (Build.mem_aliases_bracketIf _ _ _).2 (.inl inside)
  have settings : j.aloneBase.2.settings = j.aloneExtra.2.settings :=
    grows_aloneBase.settings.trans grows_aloneExtra.settings.symm
  rcases (after.swap settings).bracketIf j.closesBase j.aloneBase.1 j.baseNeeds with
    ⟨untouchedBase, sameBase, afterBase⟩ | ⟨touches, leaks⟩
  case leaks =>
    refine .inr ⟨not_separate_of_base_leaks (leaks.mono ?_) (intoExtra.mono ?_),
      not_apart_of_redirected Apart.baseClosing touches⟩
    · rw [sides_eq]
      exact fun c read => read
    · rw [sides_eq, same]
      exact fun a inside => (Build.mem_aliases_bracketIf _ _ _).2 (.inl inside)
  have closedSettings : j.closedBase.2.settings = j.aloneBase.2.settings :=
    (Build.grows_bracketIf _ j.closesBase j.aloneBase.1 j.baseNeeds).settings
  have policy : j.jointBase.2.settings = j.settings :=
    afterBase.settings.trans (closedSettings.trans grows_aloneBase.settings)
  have sides : j.sides = ((j.jointBase.1, _), _) := sides_eq
  rw [same, policy] at sides
  have ofBase : j.sides.1.1 = j.closedBase.1 := by
    rw [sides]
    exact sameBase
  rcases (afterBase.swap (settings.symm.trans closedSettings.symm)).bracketIf j.closesExtra
      j.aloneExtra.1 j.extraNeeds with
    ⟨untouchedExtra, sameExtra, afterExtra⟩ | ⟨touches, leaks⟩
  case leaks =>
    refine .inr ⟨not_separate_of_extra_leaks (leaks.mono ?_) (ofBase ▸ into_closedBase),
      not_apart_of_redirected Apart.extraClosing touches⟩
    rw [sides]
    exact fun c read => read
  left
  constructor
  case extraBody => exact untouched
  case baseClosing => exact untouchedBase
  case extraClosing => exact untouchedExtra
  case ofBase => exact ofBase
  case ofExtra =>
    rw [sides]
    exact sameExtra
  case redirects =>
    rw [sides]
    exact afterExtra.redirects

namespace Parted

theorem base_readsOnly_iff (parted : j.Parted)
    (disjoint : View.ensureSides j.base j.extra = .ok ())
    (known : ∀ a ∈ j.view.sources.toList, a.index < j.supply.aliases) (t : Token) :
    (j.sides.2.redirects.expandToken t).ReadsOnly j.sides.1.1.sources ↔
      (∀ id ∈ j.closedBase.2.redirects.touched t.toFragment,
        j.closedExtra.2.redirects.lookup id = none) ∧
        (j.closedBase.2.redirects.expandToken t).ReadsOnly j.closedBase.1.sources := by
  rw [parted.ofBase]
  refine parted.redirects.swap.readsOnly_iff into_closedExtra ?_ t
  intro s listed foreign
  exact (aliases_apart disjoint known s.id).2 foreign (.inl (Body.id_mem_aliases listed))

theorem extra_readsOnly_iff (parted : j.Parted)
    (disjoint : View.ensureSides j.base j.extra = .ok ())
    (known : ∀ a ∈ j.view.sources.toList, a.index < j.supply.aliases) (t : Token) :
    (j.sides.2.redirects.expandToken t).ReadsOnly j.sides.1.2.sources ↔
      (∀ id ∈ j.closedExtra.2.redirects.touched t.toFragment,
        j.closedBase.2.redirects.lookup id = none) ∧
        (j.closedExtra.2.redirects.expandToken t).ReadsOnly j.closedExtra.1.sources := by
  rw [parted.ofExtra]
  refine parted.redirects.readsOnly_iff into_closedBase ?_ t
  intro s listed foreign
  exact (aliases_apart disjoint known s.id).1 foreign (.inl (Body.id_mem_aliases listed))

/-- Where the sides stay parted, nothing is left to ask but what the used tokens touch. -/
theorem separate_iff (parted : j.Parted) (disjoint : View.ensureSides j.base j.extra = .ok ())
    (known : ∀ a ∈ j.view.sources.toList, a.index < j.supply.aliases) :
    j.Separate ↔ j.Apart ∧ j.Contained := by
  have ofBase := parted.base_readsOnly_iff disjoint known
  have ofExtra := parted.extra_readsOnly_iff disjoint known
  constructor
  · intro separate
    have baseReads := separate.baseReads
    have extraReads := separate.extraReads
    rw [parted.ofBase, parted.ofExtra] at baseReads extraReads
    constructor
    · exact
        { extraBody := parted.extraBody
          baseClosing := parted.baseClosing
          extraClosing := parted.extraClosing
          baseUsed := fun t member held => ((ofBase t).1 (separate.base t member held)).1
          extraUsed := fun t member held => ((ofExtra t).1 (separate.extra t member held)).1 }
    · exact
        { base := fun t member held => ((ofBase t).1 (separate.base t member held)).2
          extra := fun t member held => ((ofExtra t).1 (separate.extra t member held)).2
          baseReads
          extraReads }
  · rintro ⟨keeps, contained⟩
    constructor
    case base =>
      intro t member held
      exact (ofBase t).2 ⟨keeps.baseUsed t member held, contained.base t member held⟩
    case extra =>
      intro t member held
      exact (ofExtra t).2 ⟨keeps.extraUsed t member held, contained.extra t member held⟩
    case baseReads =>
      rw [parted.ofBase, parted.ofExtra]
      exact contained.baseReads
    case extraReads =>
      rw [parted.ofBase, parted.ofExtra]
      exact contained.extraReads

end Parted

section Follows
variable {definitions : TokenId → Fragment}
  (ofUsed : ∀ t ∈ j.used.toList, t.AllTokens fun u => u.definition = definitions u.id)
  (ofCondition : j.condition.AllTokens fun u => u.definition = definitions u.id)
include ofUsed ofCondition

/-- Sides that are sound by themselves stay among their own sources. -/
theorem contained_of_sound (disjoint : View.ensureSides j.base j.extra = .ok ())
    (known : ∀ a ∈ j.view.sources.toList, a.index < j.supply.aliases)
    (baseSound : j.aloneBase.2.Sound j.aloneBase.1 j.baseNeeds)
    (extraSound : j.aloneExtra.2.Sound j.aloneExtra.1 j.extraNeeds) : j.Contained where
  base _ member held :=
    baseSound.readsOnly (grows_aloneBase.into rfl).flat _ _
      (View.mem_joinNeeds ofUsed ofCondition member held)
  extra _ member held :=
    extraSound.readsOnly (grows_aloneExtra.into rfl).flat _ _
      (View.mem_joinNeeds ofUsed ofCondition member held)
  baseReads c read := (aliases_apart disjoint known c.1).1 (baseSound.reads _ _ c read)
  extraReads c read := (aliases_apart disjoint known c.1).2 (extraSound.reads _ _ c read)

/-- What the join asks a side for is made of tokens of that side. -/
theorem allTokens_needs {side : View} {own : TokenId → Prop}
    (all : side.AllTokens fun t => t.definition = definitions t.id ∧ own t.id) :
    ∀ t ∈ (side.joinNeeds j.condition j.used).toList, t.AllTokens fun u => own u.id := by
  intro t needed
  have follows := View.allTokens_joinNeeds ofUsed ofCondition t needed
  exact all.token follows.self (View.contains_of_mem_joinNeeds needed)

theorem apart_of_unshared (unshared : j.Unshared definitions) : j.Apart := by
  obtain ⟨own, foreign, disjoint, ofBase, ofExtra⟩ := unshared
  have baseNeeds : ∀ t ∈ j.baseNeeds.toList, t.AllTokens fun u => own u.id :=
    allTokens_needs ofUsed ofCondition ofBase
  have extraNeeds : ∀ t ∈ j.extraNeeds.toList, t.AllTokens fun u => foreign u.id :=
    allTokens_needs ofUsed ofCondition ofExtra
  have allBase : j.base.AllTokens fun t => own t.id := ofBase.mono fun _ both => both.2
  have allExtra : j.extra.AllTokens fun t => foreign t.id := ofExtra.mono fun _ both => both.2
  have fromBase : Build.Redirected own { settings := j.settings, supply := j.supply }
      j.aloneBase.2 := View.redirected_body allBase _ _ _
  have fromExtra : Build.Redirected foreign
      { settings := j.settings, supply := j.aloneBase.2.supply } j.aloneExtra.2 :=
    View.redirected_body allExtra _ _ _
  have closedBase : Build.Redirected own { settings := j.settings, supply := j.supply }
      j.closedBase.2 :=
    fromBase.trans (Build.redirected_bracketIf (fun t needed => (baseNeeds t needed).self)
      { j.aloneBase.2 with supply := j.aloneExtra.2.supply } j.closesBase j.aloneBase.1)
  have closedExtra : Build.Redirected foreign
      { settings := j.settings, supply := j.aloneBase.2.supply } j.closedExtra.2 :=
    fromExtra.trans (Build.redirected_bracketIf (fun t needed => (extraNeeds t needed).self)
      { j.aloneExtra.2 with supply := j.closedBase.2.supply } j.closesExtra j.aloneExtra.1)
  constructor
  case extraBody =>
    intro id touched
    have inExtra := View.touched_of_allTokens allExtra j.extraNeeds false _ Redirects.flat_empty
      extraNeeds id touched
    exact fromBase.lookup_eq_none rfl fun inBase => disjoint id inBase inExtra
  case baseClosing =>
    intro id touched
    have body := View.allTokens_body allBase j.baseNeeds j.observed
      { settings := j.settings, supply := j.supply } Redirects.flat_empty
    have inBase := Build.touchedIf_of_allTokens body baseNeeds _ _ id touched
    exact fromExtra.lookup_eq_none rfl (disjoint id inBase)
  case extraClosing =>
    intro id touched
    have body := View.allTokens_body allExtra j.extraNeeds false
      { settings := j.settings, supply := j.aloneBase.2.supply } Redirects.flat_empty
    have inExtra := Build.touchedIf_of_allTokens body extraNeeds _ _ id touched
    exact closedBase.lookup_eq_none rfl fun inBase => disjoint id inBase inExtra
  case baseUsed =>
    intro t member held id touched
    have made := Fragment.allTokens_toFragment.2 (ofBase.token (ofUsed t member).self held)
    have inBase := Fragment.touched_of_allTokens made id touched
    exact closedExtra.lookup_eq_none rfl (disjoint id inBase)
  case extraUsed =>
    intro t member held id touched
    have made := Fragment.allTokens_toFragment.2 (ofExtra.token (ofUsed t member).self held)
    have inExtra := Fragment.touched_of_allTokens made id touched
    exact closedBase.lookup_eq_none rfl fun inBase => disjoint id inBase inExtra

end Follows

/-- The two sides of a join are separate exactly if they keep apart and each of them is contained
in its own sources. Sides that are sound by themselves are contained, and sides without a token
in common keep apart. -/
theorem separate_iff_apart {definitions : TokenId → Fragment}
    (accepted : j.base.joined j.extra j.mode j.withNull j.condition = .ok j.view)
    (known : ∀ a ∈ j.view.sources.toList, a.index < j.supply.aliases)
    (ofUsed : ∀ t ∈ j.used.toList, t.AllTokens fun u => u.definition = definitions u.id)
    (ofCondition : j.condition.AllTokens fun u => u.definition = definitions u.id)
    (made : j.Made) :
    (j.view.body j.used j.observed).run { settings := j.settings, supply := j.supply } =
        (j.sides.1.1.join j.sides.1.2 j.mode.kind j.condition, j.sides.2) ∧
      (j.Separate ↔ j.Apart ∧ j.Contained) ∧
      (j.aloneBase.2.Sound j.aloneBase.1 j.baseNeeds →
        j.aloneExtra.2.Sound j.aloneExtra.1 j.extraNeeds → j.Contained) ∧
      (j.Unshared definitions → j.Apart) := by
  have disjoint := (View.joined_eq_ok_iff.1 accepted).1
  refine ⟨?_, ?_, ?_, ?_⟩
  · rw [view, View.body_join, if_neg made.1, if_neg made.2]
    rfl
  · rcases parted_or_leaks j with parted | ⟨mixed, touching⟩
    · exact parted.separate_iff disjoint known
    · exact iff_of_false mixed fun both => touching both.1
  · exact contained_of_sound ofUsed ofCondition disjoint known
  · exact apart_of_unshared ofUsed ofCondition

def one : Token := ⟨⟨2⟩, Fragment.verbatim "1"⟩

/-- A column on top of some expression. -/
def next (under : Fragment) : Token := ⟨⟨3⟩, under ++ Fragment.verbatim " + 1"⟩

/-- Five owners with a constant, and all pets with a column on top of an expression. -/
def adoptions (under : Fragment) : Joining where
  base := .take (.project View.owners (.ofTokens [("id", View.ownerId), ("one", one)])) 5
  extra := .project View.pets (.ofTokens [("owner", View.petOwner), ("next", next under)])
  mode := .left
  withNull := true
  condition := View.ownedBy
  used := .ofList [View.ownerId, one, View.petOwner, next under]
  observed := true
  settings := {}
  supply := { tokens := 4, aliases := 2 }

theorem next_used (under : Fragment) : next under ∈ (adoptions under).used.toList :=
  .tail _ (.tail _ (.tail _ (.head _)))

/-- The constant is not in the template of the pets, so the join is accepted; once the owners are
bracketed, it is one of their columns. Both sides are well scoped by themselves. -/
theorem not_separate_of_shared_constant :
    ∃ j : Joining, j.base.joined j.extra j.mode j.withNull j.condition = .ok j.view ∧ j.Made ∧
      ((j.base.plan j.settings).run j.supply).1.statement.WellScoped ∧
      ((j.extra.plan j.settings).run j.supply).1.statement.WellScoped ∧
      j.Contained ∧ ¬ j.Separate := by
  refine ⟨adoptions one.toFragment, rfl, ⟨by decide, by decide⟩, by decide, by decide, ?_, ?_⟩
  · constructor <;> decide
  · intro separate
    have read := separate.extra (next one.toFragment) (next_used _) (by decide)
    revert read
    decide

def adoptionDefinitions (under : Fragment) (id : TokenId) : Fragment :=
  match id.index with
  | 0 => View.ownerId.definition
  | 1 => View.petOwner.definition
  | 2 => one.definition
  | _ => (next under).definition

theorem follows_adoptions {under : Fragment}
    (ofUnder : under.AllTokens fun u => u.definition = adoptionDefinitions under u.id) :
    ∀ t ∈ (adoptions under).used.toList,
      t.AllTokens fun u => u.definition = adoptionDefinitions under u.id := by
  intro t member
  have listed : t ∈ [View.ownerId, one, View.petOwner, next under] := AscendingSet.mem_ofList member
  simp only [List.mem_cons, List.not_mem_nil, or_false] at listed
  rcases listed with rfl | rfl | rfl | rfl
  · exact ⟨rfl, trivial, trivial⟩
  · exact ⟨rfl, trivial, trivial⟩
  · exact ⟨rfl, trivial, trivial⟩
  · exact ⟨rfl, (Fragment.allTokens_append _ _).2 ⟨ofUnder, trivial, trivial⟩⟩

theorem unshared_adoptions :
    (adoptions (Fragment.verbatim "2")).Unshared (adoptionDefinitions (Fragment.verbatim "2")) := by
  refine ⟨fun id => id = ⟨0⟩ ∨ id = ⟨2⟩, fun id => id = ⟨1⟩ ∨ id = ⟨3⟩, ?_, ?_, ?_⟩
  · rintro id (rfl | rfl) <;> decide
  · simp [adoptions, View.AllTokens, View.owners, Step.AllTokens, Step.fragments,
      Template.AllTokens, Column.toFragment, Fragment.allTokens_toFragment, Token.AllTokens,
      Token.toSegment, Segment.AllTokens, Fragment.AllTokens, adoptionDefinitions, View.ownerId,
      one, Fragment.verbatim, Fragment.column]
  · simp [adoptions, View.AllTokens, View.pets, Step.AllTokens, Step.fragments,
      Template.AllTokens, Column.toFragment, Fragment.allTokens_toFragment, Token.AllTokens,
      Token.toSegment, Segment.AllTokens, Fragment.AllTokens, adoptionDefinitions, View.petOwner,
      next, Fragment.verbatim, Fragment.column]

theorem separate_iff_apart_adoptions :
    (adoptions (Fragment.verbatim "2")).Separate ∧ ¬ (adoptions one.toFragment).Separate := by
  have condition : ∀ under, View.ownedBy.AllTokens fun u =>
      u.definition = adoptionDefinitions under u.id := fun under =>
    ⟨⟨rfl, trivial, trivial⟩, trivial, ⟨rfl, trivial, trivial⟩, trivial⟩
  constructor
  · have follows := @follows_adoptions (Fragment.verbatim "2") ⟨trivial, trivial⟩
    obtain ⟨-, separate, contained, apart⟩ :=
      separate_iff_apart rfl (by decide) follows (condition _) ⟨by decide, by decide⟩
    exact separate.2 ⟨apart unshared_adoptions, contained (by decide) (by decide)⟩
  · intro separate
    have follows := @follows_adoptions one.toFragment ⟨⟨rfl, trivial, trivial⟩, trivial⟩
    have keeps := ((separate_iff_apart rfl (by decide) follows (condition _)
      ⟨by decide, by decide⟩).2.1.1 separate).1
    have untouched := keeps.extraUsed (next one.toFragment) (next_used _) (by decide) one.id
      (by decide)
    revert untouched
    decide

end Joining
end QueryViews
