import QueryViews.Proofs.Meaning.SideRows

/-! Rows of a statement that joins two sides. They are the scenes that the base side keeps, each with
the records of the joined source that it meets or, in a left join that finds none, with nothing.
Where nothing reads NULL for whatever is asked of the extra side, they are the rows of the two
sides by themselves, joined. -/

namespace QueryViews

theorem Body.select_join {V R : Type} {I : Interpretation V} (b : Body) (source : Source)
    (kind : JoinKind) (condition : Fragment) (eval : Fragment → R → V) (rows : List R) :
    (b.join (.ofSource source) kind condition).select I eval rows = b.select I eval rows := by
  have filters : (b.join (.ofSource source) kind condition).filters = b.filters :=
    List.append_nil b.filters
  rw [select, select, filters]
  rfl

theorem Body.meets_window_join (b x : Body) (kind : JoinKind) (condition : Fragment) :
    (b.join x kind condition).state.meets .window = b.state.meets .window := by
  simp [ClauseSet.meets, ClauseSet.window, state, join, addJoin]

theorem JoinKind.fst_of_mem_pairs {L R : Type} {kind : JoinKind} {meets : L → R → Bool}
    {rights : List R} {one : L} {pair : L × Option R} (inside : pair ∈ kind.pairs meets rights one) :
    pair.1 = one := by
  unfold pairs at inside
  split at inside
  · exact congrArg Prod.fst (List.mem_singleton.1 inside)
  · obtain ⟨other, -, rfl⟩ := List.mem_map.1 inside
    rfl

namespace Joining
variable (j : Joining)

/-- The statement for what the join asks of its base side, by itself; and of its extra side. -/
def askedOfBase : Statement × List (TokenId × String) :=
  j.aloneBase.2.statement j.aloneBase.1 j.baseNeeds.toList

def askedOfExtra : Statement × List (TokenId × String) :=
  j.aloneExtra.2.statement j.aloneExtra.1 j.extraNeeds.toList

def selecting (targets : List Token) : Statement × List (TokenId × String) :=
  j.sides.2.statement (j.sides.1.1.join j.sides.1.2 j.mode.kind j.condition) targets

/-- The source that is joined, if the extra side is closed off unless it is one source. -/
def source : Source := j.closedExtra.1.source

section Scenes
variable {V : Type} (E : Engine V) (contents : Fragment → List (Record V))

def baseScenes : List (Scene V) :=
  j.closedBase.1.select E.toInterpretation
    (fun f => E.evalOn (j.closedBase.2.redirects.expand f))
    ((j.closedBase.1.expanded j.closedBase.2.redirects).scenes E contents)

def extraRecords : List (Record V) :=
  (j.source.expanded j.closedExtra.2.redirects).records E contents

/-- The scenes of the base side, each with what the left join finds for it. -/
def pairs : List (Scene V × Option (Record V)) :=
  (j.baseScenes E contents).flatMap
    (JoinKind.left.pairs (E.meets j.source.id (j.sides.2.redirects.expand j.condition))
      (j.extraRecords E contents))

/-- The value of an expression of the extra side where there is nothing to join. -/
def absent (t : Token) : V := E.evalOn (j.closedExtra.2.redirects.expandToken t) E.nowhere

end Scenes

variable {j : Joining}

theorem closedExtra_eq_ofSource (left : j.mode = .left) :
    j.closedExtra.1 = .ofSource j.source := by
  have clear : j.closedExtra.1.state.meets (j.mode.blockersOfExtra j.settings.joinPolicy) = false :=
    Build.clear_bracketIf { j.aloneExtra.2 with supply := j.closedBase.2.supply } j.aloneExtra.1 _ _
  rw [left] at clear
  exact Body.eq_ofSource clear

theorem aggregate_of_open (left : j.mode = .left) (unclosed : j.closesExtra = false) :
    j.aloneExtra.1.state.meets .aggregate = false := by
  rw [closesExtra, left] at unclosed
  have clear : j.aloneExtra.1.state.meets .all = false := unclosed
  exact ClauseSet.clear_of_le (by decide) clear

theorem clear_closedBase : j.closedBase.1.state.meets .aggregate = false :=
  Build.clear_bracketIf { j.aloneBase.2 with supply := j.aloneExtra.2.supply } j.aloneBase.1 _ _

theorem select_closedExtra {V : Type} (E : Engine V) (contents : Fragment → List (Record V))
    (left : j.mode = .left) (eval : Fragment → Scene V → V) :
    j.closedExtra.1.select E.toInterpretation eval
      ((j.closedExtra.1.expanded j.closedExtra.2.redirects).scenes E contents) =
        (j.extraRecords E contents).map (E.nowhere.put j.source.id) := by
  rw [closedExtra_eq_ofSource left, Body.select_ofSource, ← Source.id_expanded j.source]
  rfl

namespace Orderly
variable {definitions : TokenId → Fragment} {ofBase ofExtra : TokenId → Prop} {V : Type}
  {E : Engine V} {contents : Fragment → List (Record V)}

/-- With a record of the joined source put in, what the base side reads stays as it is. -/
theorem evalOn_base (orderly : j.Orderly definitions ofBase ofExtra) {f : Fragment}
    (own : f.AllTokens fun t => ofBase t.id)
    (reads : (j.closedBase.2.redirects.expand f).ReadsOnly j.closedBase.1.sources)
    (scene : Scene V) (record : Record V) :
    E.evalOn (j.sides.2.redirects.expand f) (scene.put j.source.id record) =
      E.evalOn (j.closedBase.2.redirects.expand f) scene := by
  rw [orderly.expand_base own]
  refine Interpretation.evalOn_congr fun c read => ?_
  obtain ⟨s, listed, same, -⟩ := reads c read
  have other : c.1 ≠ j.source.id := same ▸ orderly.id_closedBase_ne listed List.mem_cons_self
  rw [scene.put_of_ne record other]

theorem evalOn_extra (orderly : j.Orderly definitions ofBase ofExtra) (left : j.mode = .left)
    {f : Fragment} (own : f.AllTokens fun t => ofExtra t.id)
    (reads : (j.closedExtra.2.redirects.expand f).ReadsOnly j.closedExtra.1.sources)
    (scene : Scene V) (record : Record V) :
    E.evalOn (j.sides.2.redirects.expand f) (scene.put j.source.id record) =
      E.evalOn (j.closedExtra.2.redirects.expand f) (E.nowhere.put j.source.id record) := by
  rw [orderly.expand_extra own]
  rw [closedExtra_eq_ofSource left] at reads
  refine Interpretation.evalOn_congr fun c read => ?_
  obtain ⟨s, listed, same, -⟩ := reads c read
  have only : c.1 = j.source.id := same ▸ congrArg Source.id (List.mem_singleton.1 listed)
  rw [only, Scene.put_self, Scene.put_self]

theorem reads_closedBase (orderly : j.Orderly definitions ofBase ofExtra) :
    ∀ f ∈ j.closedBase.1.fragments, (f.AllTokens fun t => ofBase t.id) ∧
      (j.closedBase.2.redirects.expand f).ReadsOnly j.closedBase.1.sources := by
  intro f member
  refine ⟨orderly.allTokens_closedBase f (List.mem_append_left _ member), ?_⟩
  exact orderly.baseSound.fragments _ _ f member

theorem evalOn_clause (orderly : j.Orderly definitions ofBase ofExtra) {f : Fragment}
    (member : f ∈ j.closedBase.1.fragments) (pair : Scene V × Option (Record V)) :
    E.evalOn (j.sides.2.redirects.expand f) (E.seat j.source.id pair) =
      E.evalOn (j.closedBase.2.redirects.expand f) pair.1 := by
  obtain ⟨own, reads⟩ := orderly.reads_closedBase f member
  exact orderly.evalOn_base own reads pair.1 _

theorem body_selecting (orderly : j.Orderly definitions ofBase ofExtra) (left : j.mode = .left)
    (targets : List Token) :
    (j.selecting targets).1.body =
      (j.closedBase.1.join (.ofSource j.source) .left j.condition).expanded j.sides.2.redirects := by
  show (j.sides.1.1.join j.sides.1.2 j.mode.kind j.condition).expanded _ = _
  rw [orderly.parted.ofBase, orderly.parted.ofExtra, closedExtra_eq_ofSource left, left]
  rfl

theorem scenes_selecting (orderly : j.Orderly definitions ofBase ofExtra) (left : j.mode = .left)
    (targets : List Token) :
    (j.selecting targets).1.body.scenes E contents =
      (((j.closedBase.1.expanded j.closedBase.2.redirects).scenes E contents).flatMap
        (JoinKind.left.pairs (E.meets j.source.id (j.sides.2.redirects.expand j.condition))
          (j.extraRecords E contents))).map (E.seat j.source.id) := by
  have source : j.source.expanded j.sides.2.redirects =
      j.source.expanded j.closedExtra.2.redirects := congrArg Body.source orderly.expanded_extra
  rw [orderly.body_selecting left, Body.scenes_join, orderly.expanded_base, source,
    List.map_flatMap]
  rfl

/-- The rows of the joined statement: the scenes of the base side with what is found for them. -/
theorem records_selecting (orderly : j.Orderly definitions ofBase ofExtra) (left : j.mode = .left)
    (targets : List Token) :
    (j.selecting targets).1.records E contents =
      (j.pairs E contents).map fun pair =>
        E.record (j.selecting targets).1.columns (E.seat j.source.id pair) := by
  let joint := j.closedBase.1.join (.ofSource j.source) .left j.condition
  have rows : (j.selecting targets).1.body.groups = false := by
    rw [orderly.body_selecting left]
    rfl
  have filters : ∀ f ∈ joint.filters, f ∈ j.closedBase.1.fragments := by
    intro f member
    have inBase : f ∈ j.closedBase.1.filters := by
      rw [← List.append_nil j.closedBase.1.filters]
      exact member
    simp [Body.fragments, inBase]
  have order : ∀ item ∈ joint.order, item.expr ∈ j.closedBase.1.fragments := fun item listed =>
    List.mem_append_right _ (List.mem_map_of_mem listed)
  have window : joint.state.meets .window = false := by
    rw [Body.meets_window_join]
    exact ClauseSet.clear_of_le (by decide) clear_closedBase
  -- conditions and order of the base side stand above the join, but read the base side only
  rw [Statement.records_of_rows rows, orderly.scenes_selecting left, orderly.body_selecting left,
    Body.select_expanded (fun f member => orderly.evalOn_clause (filters f member))
      fun item listed => orderly.evalOn_clause (order item listed),
    Body.select_flatMap window (fun _ _ => JoinKind.fst_of_mem_pairs)
      fun f => E.evalOn (j.closedBase.2.redirects.expand f),
    Body.select_join, List.map_map]
  rfl

/-- What the condition meets of the two sides, the join asks one of them for. -/
theorem mem_needs_of_frontier (orderly : j.Orderly definitions ofBase ofExtra) {t : Token}
    (met : t ∈ j.condition.frontier (j.base.scope.union j.extra.scope)) :
    t ∈ j.baseNeeds.toList ∨ t ∈ j.extraNeeds.toList := by
  have held := (Fragment.allTokens_frontier orderly.condition t met).2
  rcases AscendingSet.contains_union.1 held with inBase | inExtra
  · have ofSide := Fragment.mem_frontier_of_le
      (fun id inside => AscendingSet.contains_union.2 (.inl inside)) inBase met
    exact .inl (View.mem_joinNeeds_of_frontier orderly.used orderly.condition ofSide)
  · have ofSide := Fragment.mem_frontier_of_le
      (fun id inside => AscendingSet.contains_union.2 (.inr inside)) inExtra met
    exact .inr (View.mem_joinNeeds_of_frontier orderly.used orderly.condition ofSide)

theorem evalOn_baseNeeds (orderly : j.Orderly definitions ofBase ofExtra) {t : Token}
    (needed : t ∈ j.baseNeeds.toList) (scene : Scene V) (record : Record V) :
    E.evalOn (j.sides.2.redirects.expandToken t) (scene.put j.source.id record) =
      E.evalOn (j.closedBase.2.redirects.expandToken t) scene := by
  have own := allTokens_needs orderly.used orderly.condition orderly.base t needed
  have reads := orderly.baseSound.readsOnly flat_aloneBase j.closesBase j.aloneExtra.2.supply needed
  exact orderly.evalOn_base (Fragment.allTokens_toFragment.2 own) reads scene record

theorem evalOn_extraNeeds (orderly : j.Orderly definitions ofBase ofExtra) (left : j.mode = .left)
    {t : Token} (needed : t ∈ j.extraNeeds.toList) (scene : Scene V) (record : Record V) :
    E.evalOn (j.sides.2.redirects.expandToken t) (scene.put j.source.id record) =
      E.evalOn (j.closedExtra.2.redirects.expandToken t) (E.nowhere.put j.source.id record) := by
  have own := allTokens_needs orderly.used orderly.condition orderly.extra t needed
  have reads := orderly.extraSound.readsOnly flat_aloneExtra j.closesExtra j.closedBase.2.supply
    needed
  exact orderly.evalOn_extra left (Fragment.allTokens_toFragment.2 own) reads scene record

/-- On a row without a match, a token of the extra side has the value that its expression has
where every column is NULL. -/
theorem evalOn_unmatched (orderly : j.Orderly definitions ofBase ofExtra) (left : j.mode = .left)
    {t : Token} (needed : t ∈ j.extraNeeds.toList) (scene : Scene V) :
    E.evalOn (j.sides.2.redirects.expandToken t) (E.seat j.source.id (scene, none)) =
      j.absent E t := by
  have value := orderly.evalOn_extraNeeds (E := E) left needed scene E.missing
  rw [E.put_missing] at value
  exact value

end Orderly

section Records
variable (j) {V : Type} (E : Engine V)

/-- The value of a token on records of both sides, NULL for the extra side if it has none. -/
def tokenValue (pair : Record V × Option (Record V)) (id : TokenId) : V :=
  if j.base.scope.contains id then E.named j.askedOfBase.2 pair.1 id
  else E.named j.askedOfExtra.2 (pair.2.getD E.missing) id

def tokenRow (pair : Record V × Option (Record V)) : TokenRow V := fun id =>
  if (j.base.scope.union j.extra.scope).contains id then some (j.tokenValue E pair id) else none

def recordsMeet (base extra : Record V) : Bool :=
  E.holds (E.value (j.condition.pieces (j.tokenRow E (base, some extra)) E.nowhere))

/-- The record that selects tokens under these names. -/
def outputOf (names : List (TokenId × String)) (pair : Record V × Option (Record V)) : Record V :=
  fun name => ((names.map fun entry => (entry.2, j.tokenValue E pair entry.1)).lookup name).getD E.null

end Records

namespace Orderly
variable {definitions : TokenId → Fragment} {ofBase ofExtra : TokenId → Prop} {V : Type}
  {E : Engine V} {contents : Fragment → List (Record V)}

theorem not_base_of_extra (orderly : j.Orderly definitions ofBase ofExtra) {id : TokenId}
    (held : j.extra.scope.contains id = true) : ¬ j.base.scope.contains id = true := fun inBase =>
  orderly.disjoint id ((orderly.base.mono fun _ both => both.2).of_scope inBase)
    ((orderly.extra.mono fun _ both => both.2).of_scope held)

section Reading
variable {readBase readExtra : Scene V → Record V}
  (ofReadBase : ∀ t ∈ j.baseNeeds.toList, ∀ scene,
    E.evalOn (j.closedBase.2.redirects.expandToken t) scene =
      E.named j.askedOfBase.2 (readBase scene) t.id)
  (ofReadExtra : ∀ t ∈ j.extraNeeds.toList, ∀ scene,
    E.evalOn (j.closedExtra.2.redirects.expandToken t) scene =
      E.named j.askedOfExtra.2 (readExtra scene) t.id)
include ofReadBase ofReadExtra

/-- If rows without a match are NULL, tokens have the values of their sides' records. -/
theorem evalOn_seat (orderly : j.Orderly definitions ofBase ofExtra) (left : j.mode = .left)
    (nulls : ∀ t ∈ j.extraNeeds.toList, j.absent E t = E.null) {t : Token}
    (needed : t ∈ j.baseNeeds.toList ∨ t ∈ j.extraNeeds.toList)
    (pair : Scene V × Option (Record V)) :
    E.evalOn (j.sides.2.redirects.expandToken t) (E.seat j.source.id pair) =
      j.tokenValue E (readBase pair.1,
        pair.2.map fun record => readExtra (E.nowhere.put j.source.id record)) t.id := by
  rcases needed with ofBase | ofExtra
  · rw [tokenValue, if_pos (View.contains_of_mem_joinNeeds ofBase), ← ofReadBase t ofBase]
    exact orderly.evalOn_baseNeeds ofBase pair.1 _
  · rw [tokenValue, if_neg (orderly.not_base_of_extra (View.contains_of_mem_joinNeeds ofExtra))]
    obtain ⟨scene, record?⟩ := pair
    cases record? with
    | none =>
      rw [orderly.evalOn_unmatched left ofExtra, nulls t ofExtra]
      exact (E.named_missing _ _).symm
    | some record =>
      exact (orderly.evalOn_extraNeeds left ofExtra scene record).trans (ofReadExtra t ofExtra _)

/-- The condition, evaluated on the sources of both sides, says what it says of their records. -/
theorem meets_eq (orderly : j.Orderly definitions ofBase ofExtra) (left : j.mode = .left)
    (nulls : ∀ t ∈ j.extraNeeds.toList, j.absent E t = E.null) (composes : E.Composes j.condition)
    (reached : j.condition.inReach (j.base.scope.union j.extra.scope) = true)
    (kept : ∀ t ∈ j.condition.passed (j.base.scope.union j.extra.scope),
      t.id ∉ j.base.past ++ j.extra.past) (scene : Scene V) (record : Record V) :
    E.meets j.source.id (j.sides.2.redirects.expand j.condition) scene record =
      j.recordsMeet E (readBase scene) (readExtra (E.nowhere.put j.source.id record)) := by
  let scope := j.base.scope.union j.extra.scope
  let joined : Scene V := E.seat j.source.id (scene, some record)
  let known : TokenRow V := j.sides.2.redirects.known E.toInterpretation joined
  let told : TokenRow V :=
    j.tokenRow E (readBase scene, some (readExtra (E.nowhere.put j.source.id record)))
  have flat : j.sides.2.redirects.Flat := orderly.parted.redirects.flat
  have outside : ∀ id, scope.contains id = false → told id = none := fun id absent =>
    if_neg (by rw [absent]; exact Bool.false_ne_true)
  have met : ∀ t ∈ j.condition.frontier scope,
      told t.id = some (E.value (t.toFragment.pieces known joined)) := by
    intro t inFrontier
    have held := (Fragment.allTokens_frontier orderly.condition t inFrontier).2
    refine (if_pos held).trans (congrArg some ?_)
    have value := orderly.evalOn_seat ofReadBase ofReadExtra left nulls
      (orderly.mem_needs_of_frontier inFrontier) (scene, some record)
    rw [Redirects.expandToken, flat.evalOn_expand] at value
    exact value.symm
  have passed : ∀ t ∈ j.condition.passed scope, known t.id = none := fun t above =>
    congrArg (Option.map _) (orderly.lookup_sides (kept t above))
  have inReach : ∀ id, scope.contains id = true → (told id).isSome = true := fun id held =>
    (congrArg Option.isSome (if_pos held)).trans rfl
  refine congrArg E.holds ?_
  -- from the redirected tokens to those of the two scopes, which are all that it reads
  calc E.evalOn (j.sides.2.redirects.expand j.condition) joined
      = E.value (j.condition.pieces known joined) := flat.evalOn_expand _ _
    _ = E.value (j.condition.pieces told joined) :=
      (composes known told joined (Fragment.refines_of_frontier outside met passed)).symm
    _ = E.value (j.condition.pieces told E.nowhere) :=
      congrArg E.value (Fragment.pieces_of_reach inReach _ _ reached)

theorem record_seat (orderly : j.Orderly definitions ofBase ofExtra) (left : j.mode = .left)
    (nulls : ∀ t ∈ j.extraNeeds.toList, j.absent E t = E.null) {targets : List Token}
    (needed : ∀ t ∈ targets, t ∈ j.baseNeeds.toList ∨ t ∈ j.extraNeeds.toList)
    (pair : Scene V × Option (Record V)) :
    E.record (j.selecting targets).1.columns (E.seat j.source.id pair) =
      j.outputOf E (j.selecting targets).2 (readBase pair.1,
        pair.2.map fun record => readExtra (E.nowhere.put j.source.id record)) := by
  have entries : (j.selecting targets).1.columns.map
      (fun c => (c.name, E.evalOn c.expr (E.seat j.source.id pair))) =
        (j.selecting targets).2.map fun entry => (entry.2, j.tokenValue E (readBase pair.1,
          pair.2.map fun record => readExtra (E.nowhere.put j.source.id record)) entry.1) := by
    rw [selecting, Build.columns_eq, Build.names_eq, List.map_map, List.map_map]
    refine List.map_congr_left fun entry listed => ?_
    exact congrArg (entry.2, ·) (orderly.evalOn_seat ofReadBase ofReadExtra left nulls
      (needed _ (Build.mem_of_mem_outputNames listed)) pair)
  funext name
  rw [Interpretation.record, Interpretation.listed, entries, outputOf]

end Reading

/-- Where rows without a match are NULL, the rows of the joined statement are those of its two
sides by themselves, joined. -/
theorem records_of_nulls (orderly : j.Orderly definitions ofBase ofExtra) (left : j.mode = .left)
    (nulls : ∀ t ∈ j.extraNeeds.toList, j.absent E t = E.null) (composes : E.Composes j.condition)
    (reached : j.condition.inReach (j.base.scope.union j.extra.scope) = true)
    (kept : ∀ t ∈ j.condition.passed (j.base.scope.union j.extra.scope),
      t.id ∉ j.base.past ++ j.extra.past) {targets : List Token}
    (needed : ∀ t ∈ targets, t ∈ j.baseNeeds.toList ∨ t ∈ j.extraNeeds.toList) :
    (j.selecting targets).1.records E contents =
      ((j.askedOfBase.1.records E contents).flatMap
        (JoinKind.left.pairs (j.recordsMeet E) (j.askedOfExtra.1.records E contents))).map
          (j.outputOf E (j.selecting targets).2) := by
  obtain ⟨readBase, ofBaseRecords, ofReadBase⟩ := Build.exists_read E contents j.aloneBase.1
    j.baseNeeds flat_aloneBase (fun unclosed => unclosed) j.aloneExtra.2.supply
  obtain ⟨readExtra, ofExtraRecords, ofReadExtra⟩ := Build.exists_read E contents j.aloneExtra.1
    j.extraNeeds flat_aloneExtra (aggregate_of_open left) j.closedBase.2.supply
  let readSource : Record V → Record V := fun record =>
    readExtra (E.nowhere.put j.source.id record)
  have bases : j.askedOfBase.1.records E contents = (j.baseScenes E contents).map readBase :=
    ofBaseRecords
  have extras : j.askedOfExtra.1.records E contents = (j.extraRecords E contents).map readSource := by
    refine ofExtraRecords.trans
      ((congrArg (List.map readExtra) (select_closedExtra E contents left _)).trans ?_)
    exact List.map_map
  have agree := fun scene record =>
    (orderly.meets_eq ofReadBase ofReadExtra left nulls composes reached kept scene record).symm
  rw [orderly.records_selecting left, bases, extras, JoinKind.flatMap_pairs agree, List.map_map]
  exact List.map_congr_left fun pair _ =>
    orderly.record_seat ofReadBase ofReadExtra left nulls needed pair

end Orderly
end Joining
end QueryViews
