import QueryViews.Proofs.Bracketing
import QueryViews.Proofs.Scope.WellScoped

/-! What can be read from the body of a view without joins. Redirects outlive the source that
they were made for: a token that one bracket selects and a later one leaves out stands for a
column of a source that is no longer there. A `Standing` tells such hidden tokens from shown
ones, and says whether every expression written so far reads its own source. -/

namespace QueryViews

/-- What tokens stand for in front of one FROM source. -/
structure Sight where
  /-- The table that is read directly; none if the source is a subquery. -/
  table : Option Alias
  /-- Tokens that are columns of the source. -/
  shown : List TokenId := []
  /-- Tokens that have been columns of some source; they stay so unless they are shown. -/
  hidden : List TokenId := []

mutual

/-- Whether all that the segment expands to can be read from the source. -/
def Segment.visible (sight : Sight) : Segment → Bool
  | .token id definition =>
    if id ∈ sight.shown then true
    else if id ∈ sight.hidden then false
    else Fragment.visible sight definition
  | .nested inner => Fragment.visible sight inner
  | .column source _ => sight.table == some source
  | .verbatim _ | .param _ => true

def Fragment.visible (sight : Sight) : Fragment → Bool
  | [] => true
  | segment :: rest => segment.visible sight && Fragment.visible sight rest

end

def Token.visible (sight : Sight) (t : Token) : Bool := t.toSegment.visible sight

theorem Token.visible_toFragment {sight : Sight} {t : Token} :
    t.toFragment.visible sight = true ↔ t.visible sight = true := by
  rw [Token.toFragment, Fragment.visible, Fragment.visible, Bool.and_true, Token.visible]

/-- The clauses of a body and the rows it skips, the sight of its source, and whether every
expression written into it or below it reads its own source. -/
structure Standing extends Sight where
  clauses : ClauseSet := {}
  skipped : Nat := 0
  sound : Bool := true

namespace Standing

def ofTable (id : Alias) : Standing := { table := some id }

/-- Whether the statement that selects these tokens is well scoped. -/
def selects (st : Standing) (targets : List Token) : Bool :=
  st.sound && targets.all (Token.visible st.toSight)

def bracket (st : Standing) (needs : TokenSet) : Standing where
  table := none
  shown := needs.toList.map Token.id
  hidden := st.shown ++ st.hidden
  sound := st.selects needs.toList

def extend (st : Standing) (s : Step) (observed : Bool) : Standing :=
  { st with
    clauses := s.clauses observed st.clauses st.skipped
    skipped := s.skipped st.skipped
    sound := st.sound && (s.written observed).all (Fragment.visible st.toSight) }

/-- Makes room for the step and adds it. -/
def step (st : Standing) (s : Step) (observed : Bool) (needs : TokenSet) : Standing :=
  (if s.brackets observed st.clauses then st.bracket needs else st).extend s observed

/-- The body, built so far with these redirects, has the standing. Expressions refer to
issued sources and tokens only. -/
structure Describes (st : Standing) (issued : Supply) (body : Body) (b : Build) : Prop where
  state : body.state = st.clauses
  skip : body.skip = st.skipped
  grouped : body.grouped = st.clauses.group
  joins : body.joins = []
  joinFree : body.source.JoinFree
  direct : ∀ id, st.table = some id → body.source.id = id ∧ body.source.isSubquery = false
  /-- A subquery is newer than all sources that expressions read themselves. -/
  indirect : st.table = none → issued.aliases ≤ body.source.id.index
  shown : ∀ id ∈ st.shown, ∃ name,
    b.redirects.lookup id = some (Fragment.column body.source.id name) ∧ body.source.Offers name
  hidden : ∀ id ∈ st.hidden, id ∉ st.shown → ∃ source name,
    b.redirects.lookup id = some (Fragment.column source name) ∧ source ≠ body.source.id
  fresh : ∀ id, id ∉ st.shown → id ∉ st.hidden → b.redirects.lookup id = none
  numbered : ∀ id, id ∈ st.shown ∨ id ∈ st.hidden → id.index < issued.tokens
  minted : ∀ id source name, b.redirects.lookup id = some (Fragment.column source name) →
    source.index < b.supply.aliases
  latest : body.source.id.index < b.supply.aliases
  aliases : issued.aliases ≤ b.supply.aliases
  tokens : issued.tokens ≤ b.supply.tokens
  sound : (body.expanded b.redirects).WellScoped ↔ st.sound = true

namespace Describes
variable {st : Standing} {issued : Supply} {body : Body} {b : Build}

theorem flat (describes : st.Describes issued body b) : b.redirects.Flat := by
  intro id f found
  by_cases isShown : id ∈ st.shown
  · obtain ⟨name, stored, -⟩ := describes.shown id isShown
    exact ⟨_, name, Option.some.inj (found.symm.trans stored)⟩
  · by_cases isHidden : id ∈ st.hidden
    · obtain ⟨source, name, stored, -⟩ := describes.hidden id isHidden isShown
      exact ⟨source, name, Option.some.inj (found.symm.trans stored)⟩
    · rw [describes.fresh id isShown isHidden] at found
      exact absurd found nofun

end Describes
end Standing

mutual

theorem Segment.visible_iff {st : Standing} {issued : Supply} {body : Body} {b : Build}
    (describes : st.Describes issued body b) :
    ∀ {segment : Segment}, (∀ c ∈ segment.columns, c.1.index < issued.aliases) →
      (segment.visible st.toSight = true ↔
        Fragment.ReadsOnly [body.source] (segment.substitute b.redirects.lookup))
  | .token id definition, below => by
    unfold Segment.visible Segment.substitute
    by_cases isShown : id ∈ st.shown
    · obtain ⟨name, stored, offered⟩ := describes.shown id isShown
      simp only [isShown, if_true, stored, Fragment.readsOnly_column, offered, and_self]
    · by_cases isHidden : id ∈ st.hidden
      · obtain ⟨source, name, stored, other⟩ := describes.hidden id isHidden isShown
        simp only [isShown, isHidden, if_true, if_false, stored, Fragment.readsOnly_column,
          Ne.symm other, false_and, Bool.false_eq_true]
      · simp only [isShown, isHidden, if_false, describes.fresh id isShown isHidden]
        exact Fragment.visible_iff describes below
  | .nested inner, below => Fragment.visible_iff describes (f := inner) below
  | .column source name, below => by
    have old : source.index < issued.aliases := below (source, name) (List.mem_singleton_self _)
    show (st.toSight.table == some source) = true ↔ Fragment.ReadsOnly [body.source] (.column source name)
    rw [Fragment.readsOnly_column, beq_iff_eq]
    cases table : st.table with
    | some id =>
      obtain ⟨same, direct⟩ := describes.direct id table
      rw [same, Option.some_inj]
      exact (and_iff_left (Source.offers_of_table direct name)).symm
    | none =>
      have newer := describes.indirect table
      refine ⟨nofun, fun both => ?_⟩
      rw [both.1] at newer
      omega
  | .verbatim _, _ | .param _, _ => by
    simp [Segment.visible, Segment.substitute, Fragment.ReadsOnly, Fragment.columns,
      Segment.columns]

theorem Fragment.visible_iff {st : Standing} {issued : Supply} {body : Body} {b : Build}
    (describes : st.Describes issued body b) :
    ∀ {f : Fragment}, (∀ c ∈ Fragment.columns f, c.1.index < issued.aliases) →
      (Fragment.visible st.toSight f = true ↔
        Fragment.ReadsOnly [body.source] (Fragment.substitute b.redirects.lookup f))
  | [], _ => by simp [Fragment.visible, Fragment.substitute, Fragment.ReadsOnly, Fragment.columns]
  | segment :: rest, below => by
    obtain ⟨first, others⟩ := List.forall_mem_append.1 below
    rw [Fragment.visible, Bool.and_eq_true, Fragment.substitute, Fragment.readsOnly_append,
      Segment.visible_iff describes first, Fragment.visible_iff describes others]

end

theorem Step.mem_fragments_extend {s : Step} {observed : Bool} {b : Body}
    (fits : s.Fits b.state) (f : Fragment) :
    f ∈ (s.extend observed b).fragments ↔ f ∈ b.fragments ∨ f ∈ s.written observed := by
  cases s with
  | filter condition =>
    simp only [extend, Body.addCondition, written, Body.fragments]
    split
    · grind
    · grind
  | group keys content =>
    simp only [extend, Body.groupBy, written, Body.fragments, keys_eq_nil fits]
    grind
  | order items =>
    cases observed with
    | true =>
      simp only [extend, Body.addOrder, written, Body.fragments, if_true]
      grind
    | false => simp [extend, written]
  | take | skip | project | bracket => exact (or_iff_left List.not_mem_nil).symm

namespace Standing.Describes
variable {st : Standing} {issued : Supply} {body : Body} {b : Build}

theorem expand_readsOnly_iff (describes : st.Describes issued body b) {f : Fragment}
    (below : ∀ c ∈ f.columns, c.1.index < issued.aliases) :
    (b.redirects.expand f).ReadsOnly [body.source] ↔ f.visible st.toSight = true := by
  rw [Redirects.expand_of_flat describes.flat]
  exact (Fragment.visible_iff describes below).symm

/-- The statement that selects some tokens is as well scoped as the standing says. -/
theorem statement_wellScoped_iff (describes : st.Describes issued body b) {targets : List Token}
    (distinct : (targets.map Token.id).Nodup)
    (below : ∀ t ∈ targets, ∀ c ∈ t.toFragment.columns, c.1.index < issued.aliases) :
    (b.statement body targets).1.WellScoped ↔ st.selects targets = true := by
  have sources : (b.statement body targets).1.body.sources =
      [body.source.expanded b.redirects] := by
    show (body.expanded b.redirects).sources = _
    simp [Body.sources, Body.expanded, describes.joins]
  have listed : (Build.outputNames b.settings targets).map Prod.fst = targets := by
    rw [Build.map_fst_outputNames, Token.distinct_of_nodup distinct]
  have columns : (∀ c ∈ (b.statement body targets).1.columns,
      c.expr.ReadsOnly [body.source.expanded b.redirects]) ↔
        ∀ t ∈ targets, t.visible st.toSight = true := by
    rw [Build.columns_eq, List.forall_mem_map]
    simp only [Fragment.readsOnly_expanded]
    refine ⟨fun all t member => ?_, fun all entry member => ?_⟩
    · rw [← listed] at member
      obtain ⟨entry, inside, rfl⟩ := List.mem_map.1 member
      have named : entry.1 ∈ targets := listed ▸ List.mem_map_of_mem inside
      exact Token.visible_toFragment.1
        ((describes.expand_readsOnly_iff (below _ named)).1 (all entry inside))
    · have named : entry.1 ∈ targets := listed ▸ List.mem_map_of_mem member
      exact (describes.expand_readsOnly_iff (below _ named)).2
        (Token.visible_toFragment.2 (all _ named))
  rw [Statement.wellScoped_iff, sources, columns, selects, Bool.and_eq_true, List.all_eq_true]
  exact and_congr_left' describes.sound

theorem statement_joinFree (describes : st.Describes issued body b) (targets : List Token) :
    (b.statement body targets).1.JoinFree := by
  rw [Statement.joinFree_iff]
  refine ⟨?_, Source.joinFree_expanded.2 describes.joinFree⟩
  show (body.expanded b.redirects).joins = []
  rw [Body.expanded, describes.joins]
  rfl

theorem stored (describes : st.Describes issued body b) (id : TokenId)
    (seen : id ∈ st.shown ∨ id ∈ st.hidden) :
    ∃ source name, b.redirects.lookup id = some (Fragment.column source name) := by
  by_cases isShown : id ∈ st.shown
  · obtain ⟨name, found, -⟩ := describes.shown id isShown
    exact ⟨_, name, found⟩
  · obtain ⟨source, name, found, -⟩ := describes.hidden id (seen.resolve_left isShown) isShown
    exact ⟨source, name, found⟩

theorem noted (describes : st.Describes issued body b) (label : Option String)
    (state : ClauseSet) : st.Describes issued body (b.noted label state) :=
  { describes with }

theorem bracket (describes : st.Describes issued body b) {needs : TokenSet}
    (numbered : ∀ t ∈ needs.toList, t.id.index < issued.tokens)
    (below : ∀ t ∈ needs.toList, ∀ c ∈ t.toFragment.columns, c.1.index < issued.aliases) :
    (st.bracket needs).Describes issued
      (.ofSource (.subquery (b.statement body needs.toList).1 b.nextAlias))
      (b.bracketed body needs.toList) := by
  have selected : ∀ id ∈ needs.toList.map Token.id, ∃ name,
      (b.statement body needs.toList).2.lookup id = some name := by
    intro id member
    obtain ⟨t, needed, rfl⟩ := List.mem_map.1 member
    exact Build.exists_lookup needed
  have left : ∀ id, id ∉ needs.toList.map Token.id →
      (b.bracketed body needs.toList).redirects.lookup id = b.redirects.lookup id := by
    intro id absent
    exact Build.lookup_bracketed_of_unselected body fun t needed same =>
      absent (same ▸ List.mem_map_of_mem needed)
  exact
    { state := rfl
      skip := rfl
      grouped := rfl
      joins := rfl
      joinFree := describes.statement_joinFree needs.toList
      direct := fun _ none => nomatch none
      indirect := fun _ => describes.aliases
      shown := by
        intro id isShown
        obtain ⟨name, found⟩ := selected id isShown
        obtain ⟨t, -, -, column⟩ := Build.column_of_lookup found
        exact ⟨name, by rw [Build.lookup_bracketed, found]; rfl, _, column, rfl⟩
      hidden := by
        intro id isHidden notShown
        rw [left id notShown]
        obtain ⟨source, name, stored⟩ := describes.stored id (List.mem_append.1 isHidden)
        refine ⟨source, name, stored, ?_⟩
        rintro rfl
        exact Nat.lt_irrefl _ (describes.minted id _ name stored)
      fresh := by
        intro id notShown notHidden
        rw [left id notShown]
        exact describes.fresh id (fun seen => notHidden (List.mem_append_left _ seen))
          fun seen => notHidden (List.mem_append_right _ seen)
      numbered := by
        rintro id (isShown | isHidden)
        · obtain ⟨t, needed, rfl⟩ := List.mem_map.1 isShown
          exact numbered t needed
        · exact describes.numbered id (List.mem_append.1 isHidden)
      minted := by
        intro id source name found
        by_cases isShown : id ∈ needs.toList.map Token.id
        · obtain ⟨output, named⟩ := selected id isShown
          rw [Build.lookup_bracketed, named] at found
          cases found
          exact Nat.lt_succ_self _
        · rw [left id isShown] at found
          exact Nat.lt_succ_of_lt (describes.minted id source name found)
      latest := Nat.lt_succ_self _
      aliases := Nat.le_succ_of_le describes.aliases
      tokens := describes.tokens
      sound := by
        rw [Body.wellScoped_expanded rfl]
        refine (and_iff_left fun f none => absurd none List.not_mem_nil).trans ?_
        exact describes.statement_wellScoped_iff needs.nodup_ids below }

theorem extend (describes : st.Describes issued body b) {s : Step} {observed : Bool}
    (fits : s.Fits st.clauses)
    (below : ∀ f ∈ s.written observed, ∀ c ∈ f.columns, c.1.index < issued.aliases) :
    (st.extend s observed).Describes issued (s.extend observed body) b := by
  have sameGroup : body.grouped = body.state.group := by
    rw [describes.state, describes.grouped]
  have state := Step.state_extend s observed sameGroup
  rw [describes.state, describes.skip] at state
  have source : (s.extend observed body).source = body.source := Step.source_extend s observed body
  exact
    { state := state
      skip := by rw [Step.skip_extend, describes.skip]; rfl
      grouped := (Step.grouped_extend s observed sameGroup).trans (congrArg ClauseSet.group state)
      joins := by rw [Step.joins_extend, describes.joins]
      joinFree := source ▸ describes.joinFree
      direct := source ▸ describes.direct
      indirect := source ▸ describes.indirect
      shown := source ▸ describes.shown
      hidden := source ▸ describes.hidden
      fresh := describes.fresh
      numbered := describes.numbered
      minted := describes.minted
      latest := source ▸ describes.latest
      aliases := describes.aliases
      tokens := describes.tokens
      sound := by
        have before := describes.sound
        have written : (∀ f ∈ s.written observed, (b.redirects.expand f).ReadsOnly [body.source]) ↔
            (s.written observed).all (Fragment.visible st.toSight) = true := by
          rw [List.all_eq_true]
          exact forall₂_congr fun f member => describes.expand_readsOnly_iff (below f member)
        rw [Body.wellScoped_expanded describes.joins] at before
        rw [Body.wellScoped_expanded (by rw [Step.joins_extend, describes.joins]), source]
        simp only [Step.mem_fragments_extend (describes.state ▸ fits), or_imp, forall_and]
        rw [← and_assoc, before, written, Standing.extend, Bool.and_eq_true] }

/-- A token minted now is newer than all tokens that stand for columns. -/
theorem selects_minted (describes : st.Describes issued body b) {definition : Fragment}
    (plain : definition.visible st.toSight = true) :
    st.selects [⟨⟨b.supply.tokens⟩, definition⟩] = st.sound := by
  have unseen : ¬ (⟨b.supply.tokens⟩ ∈ st.shown ∨ ⟨b.supply.tokens⟩ ∈ st.hidden) := by
    intro seen
    have old := describes.numbered _ seen
    have tokens := describes.tokens
    simp only at old
    omega
  have visible : Token.visible st.toSight ⟨⟨b.supply.tokens⟩, definition⟩ = true := by
    obtain ⟨notShown, notHidden⟩ := not_or.1 unseen
    rw [Token.visible, Token.toSegment, Segment.visible, if_neg notShown, if_neg notHidden, plain]
  simp [selects, visible]

theorem step (describes : st.Describes issued body b) {s : Step} {observed : Bool}
    {needs : TokenSet} (numbered : ∀ t ∈ needs.toList, t.id.index < issued.tokens)
    (needed : ∀ t ∈ needs.toList, ∀ c ∈ t.toFragment.columns, c.1.index < issued.aliases)
    (written : ∀ f ∈ s.written observed, ∀ c ∈ f.columns, c.1.index < issued.aliases) :
    let room := (Building.makeRoom s observed body needs).run b
    (st.step s observed needs).Describes issued (s.extend observed room.1) room.2 := by
  rw [Building.run_makeRoom, describes.state, Standing.step]
  split
  · rw [Building.run_bracket]
    exact ((describes.noted _ _).bracket numbered needed).extend s.fits_empty written
  next clear =>
    have fits : s.Fits st.clauses := Step.fits_of_not_brackets (Bool.eq_false_iff.2 clear)
    exact (describes.noted _ _).extend fits written

end Standing.Describes

theorem Standing.describes_table {text : Fragment} {id : Alias} {b : Build} {issued : Supply}
    (untouched : b.redirects = {}) (known : id.index < issued.aliases)
    (aliases : issued.aliases ≤ b.supply.aliases) (tokens : issued.tokens ≤ b.supply.tokens) :
    (Standing.ofTable id).Describes issued (.ofTable (b.redirects.expand text) id) b where
  state := rfl
  skip := rfl
  grouped := rfl
  joins := rfl
  joinFree := trivial
  direct _ same := ⟨Option.some.inj same, rfl⟩
  indirect none := nomatch none
  shown _ none := absurd none List.not_mem_nil
  hidden _ none := absurd none List.not_mem_nil
  fresh _ _ _ := by rw [untouched]; rfl
  numbered _ none := absurd none (by simp [Standing.ofTable])
  minted _ _ _ found := by rw [untouched] at found; exact nomatch found
  latest := Nat.lt_of_lt_of_le known aliases
  aliases := aliases
  tokens := tokens
  sound := by
    rw [Body.wellScoped_expanded rfl]
    exact iff_of_true ⟨trivial, fun _ none => absurd none List.not_mem_nil⟩ rfl

end QueryViews
