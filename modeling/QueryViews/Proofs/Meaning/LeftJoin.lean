import Mathlib.Data.Option.NAry
import QueryViews.Proofs.Meaning.JoinedRows

/-! Left joins. A row without a match is NULL in all columns of the joined source, but an extra side
without clauses of its own is not a source of its own: its tokens are written out above the join,
and a constant among them has its value there too. In brackets, every token of the side is a column
of the joined source. -/

namespace QueryViews
namespace Joining
variable {j : Joining}

section Bracketed
variable (j)

def bracketed : Joining := { j with extra := .bracket j.extra .always }

variable {j} {definitions : TokenId → Fragment} {ofBase ofExtra : TokenId → Prop}

theorem aloneExtra_bracketed :
    j.bracketed.aloneExtra = j.aloneExtra.2.bracketIf true j.aloneExtra.1 j.extraNeeds := by
  have needs : (Step.bracket .always).needs false j.extra.scope j.extraNeeds = j.extraNeeds :=
    AscendingSet.narrow_eq_self fun t => View.contains_of_mem_joinNeeds
  have noted : ∀ (b : Build) (state : ClauseSet), b.noted none state = b := fun b state => by
    rw [Build.noted, Option.map_none, Option.toList_none, List.append_nil]
  have built := j.extra.run_body_onto (.bracket .always) j.extraNeeds false
    { settings := j.settings, supply := j.aloneBase.2.supply }
  simp only [needs, Build.run_makeRoom] at built
  simp only [Step.label, BracketPoint.always, noted, Step.extend, Step.brackets] at built
  exact built

theorem Orderly.bracketed (orderly : j.Orderly definitions ofBase ofExtra) :
    j.bracketed.Orderly definitions ofBase ofExtra where
  accepted := orderly.accepted
  known := orderly.known
  used := orderly.used
  condition := orderly.condition
  disjoint := orderly.disjoint
  base := orderly.base
  extra := (View.allTokens_onto (s := .bracket .always)).2
    ⟨orderly.extra, fun f none => absurd none List.not_mem_nil⟩
  baseSound := orderly.baseSound
  extraSound := by
    rw [aloneExtra_bracketed]
    exact orderly.extraSound.bracketed flat_aloneExtra

section Rows
variable {V : Type} {E : Engine V} {contents : Fragment → List (Record V)} {t : Token}

/-- A side with clauses of its own is closed off, so it is NULL where there is nothing to join. -/
theorem absent_of_closesExtra (closes : j.closesExtra = true) (needed : t ∈ j.extraNeeds.toList) :
    j.absent E t = E.null := by
  rw [absent, closedExtra, closes]
  exact Build.evalOn_nowhere_bracketed E j.aloneExtra.1
    (b := { j.aloneExtra.2 with supply := j.closedBase.2.supply })
    flat_aloneExtra needed

theorem absent_bracketed (needed : t ∈ j.extraNeeds.toList) :
    j.bracketed.absent E t = E.null := by
  have unclosed : j.bracketed.closesExtra = false := by
    rw [closesExtra, aloneExtra_bracketed]
    rfl
  rw [absent, closedExtra, unclosed, aloneExtra_bracketed]
  exact Build.evalOn_nowhere_bracketed E j.aloneExtra.1 flat_aloneExtra needed

theorem names_askedOfExtra_bracketed : j.bracketed.askedOfExtra.2 = j.askedOfExtra.2 := by
  rw [askedOfExtra, aloneExtra_bracketed]
  rfl

theorem records_askedOfExtra_bracketed :
    j.bracketed.askedOfExtra.1.records E contents = j.askedOfExtra.1.records E contents := by
  rw [askedOfExtra, aloneExtra_bracketed]
  exact Build.records_bracketed E contents j.aloneExtra.1 j.extraNeeds
    flat_aloneExtra

theorem tokenValue_bracketed : j.bracketed.tokenValue E = j.tokenValue E := by
  funext pair id
  rw [tokenValue, names_askedOfExtra_bracketed]
  rfl

theorem recordsMeet_bracketed : j.bracketed.recordsMeet E = j.recordsMeet E := by
  funext base extra
  rw [recordsMeet, recordsMeet]
  have rows : j.bracketed.tokenRow E = j.tokenRow E := by
    funext pair id
    rw [tokenRow, tokenValue_bracketed]
    rfl
  rw [rows]
  rfl

theorem outputOf_bracketed : j.bracketed.outputOf E = j.outputOf E := by
  funext names pair name
  rw [outputOf, tokenValue_bracketed]
  rfl

end Rows

theorem settings_sides : j.sides.2.settings = j.settings :=
  (View.grows_sides j.base.grows_body j.extra.grows_body j.mode j.condition j.used j.observed
    _).settings

theorem names_selecting_bracketed (targets : List Token) :
    (j.bracketed.selecting targets).2 = (j.selecting targets).2 := by
  rw [selecting, selecting, Build.names_eq, Build.names_eq, settings_sides, settings_sides]
  rfl

end Bracketed

/-- The join is asked for all of its rows, in their order. -/
def Full (j : Joining) : Prop := j.used = j.view.template.tokenSet ∧ j.observed = true

theorem plan_of_full (left : j.mode = .left) (full : j.Full) :
    let plan := ((j.view.plan j.settings).run j.supply).1
    plan.statement = (j.selecting j.view.template.tokens).1 ∧
      plan.reader.names = (j.selecting j.view.template.tokens).2 := by
  intro plan
  have made : (j.view.body j.view.template.tokenSet true).run
      { settings := j.settings, supply := j.supply } =
        (j.sides.1.1.join j.sides.1.2 j.mode.kind j.condition, j.sides.2) := by
    have eager : ¬ j.extra.dropsExtra j.mode j.used := by
      rw [left]
      exact nofun
    have both : ¬ j.base.dropsBase j.mode j.withNull j.observed j.used := by
      rw [left]
      exact nofun
    rw [← full.1, ← full.2, view, View.body_join, if_neg eager, if_neg both]
    rfl
  have start : plan = Plan.ofBody
      ((j.view.body j.view.template.tokenSet true).run
        { settings := j.settings, supply := j.supply }).2
      ((j.view.body j.view.template.tokenSet true).run
        { settings := j.settings, supply := j.supply }).1 j.view.template := rfl
  rw [start, made]
  exact ⟨rfl, rfl⟩

theorem mem_columns_view {c : Column} (inside : c ∈ j.extra.template.columns) :
    c.widen j.withNull ∈ j.view.template.columns := by
  rw [view, View.template, Template.columns_pair]
  exact List.mem_append_right _ (Template.mem_columns_widen.2 ⟨c, inside, rfl⟩)

section Template
variable {definitions : TokenId → Fragment} {ofBase ofExtra : TokenId → Prop}
  (orderly : j.Orderly definitions ofBase ofExtra)
include orderly

theorem Orderly.allTokens_view : j.view.AllTokens fun t => t.definition = definitions t.id :=
  ⟨orderly.base.mono fun _ both => both.1, orderly.extra.mono fun _ both => both.1,
    orderly.condition⟩

theorem Orderly.needed_of_column (whole : j.used = j.view.template.tokenSet) {c : Column}
    (inside : c ∈ j.view.template.columns) :
    c.token ∈ j.baseNeeds.toList ∨ c.token ∈ j.extraNeeds.toList := by
  have used : c.token ∈ j.used.toList := by
    refine AscendingSet.mem_of_holds (fun u listed => (orderly.used u listed).self)
      (orderly.allTokens_view.template c inside).self ?_
    rw [whole]
    exact Template.holds_tokenSet.2 ⟨c, inside, rfl⟩
  have held : j.view.scope.contains c.token.id = true := Template.contains_scope.2 ⟨c, inside, rfl⟩
  exact (View.contains_scope_join.1 held).imp
    (View.mem_joinNeeds orderly.used orderly.condition used)
    (View.mem_joinNeeds orderly.used orderly.condition used)

theorem Orderly.needed_of_extra (whole : j.used = j.view.template.tokenSet) {c : Column}
    (inside : c ∈ j.extra.template.columns) : c.token ∈ j.extraNeeds.toList := by
  have widened : c.widen j.withNull ∈ j.view.template.columns := mem_columns_view inside
  have held : j.extra.scope.contains c.token.id = true := Template.contains_scope.2 ⟨c, inside, rfl⟩
  refine (orderly.needed_of_column whole widened).resolve_left fun inBase => ?_
  exact orderly.not_base_of_extra held (View.contains_of_mem_joinNeeds inBase)

/-- On a row without a match, a column of the extra side is read as its expression is where every
column is NULL. -/
theorem Orderly.named_unmatched {V : Type} {E : Engine V} (left : j.mode = .left)
    (whole : j.used = j.view.template.tokenSet) {c : Column}
    (inside : c ∈ j.extra.template.columns) (scene : Scene V) :
    let selected := j.selecting j.view.template.tokens
    E.named selected.2 (E.record selected.1.columns (E.seat j.source.id (scene, none)))
      c.token.id = j.absent E c.token := by
  intro selected
  have widened : c.widen j.withNull ∈ j.view.template.columns := mem_columns_view inside
  have listed : (c.widen j.withNull).token ∈ j.view.template.tokens := Template.token_mem_tokens
    (fun d member => (orderly.allTokens_view.template d member).self) widened
  have distinct := Token.nodup_distinct (j.view.template.columns.map Column.token)
  have read : E.named selected.2 (E.record selected.1.columns (E.seat j.source.id (scene, none)))
      c.token.id = E.evalOn (j.sides.2.redirects.expandToken c.token)
        (E.seat j.source.id (scene, none)) :=
    Interpretation.named_listed listed fun u member => List.inj_on_of_nodup_map distinct member listed
  exact read.trans (orderly.evalOn_unmatched left (orderly.needed_of_extra whole inside) scene)

theorem Orderly.column_of_needed {t : Token} (needed : t ∈ j.extraNeeds.toList) :
    ∃ c ∈ j.extra.template.columns, c.token = t := by
  obtain ⟨c, inside, same⟩ := Template.contains_scope.1 (View.contains_of_mem_joinNeeds needed)
  have ofColumn := (orderly.extra.template c inside).self.1
  have ofNeeded := (View.allTokens_joinNeeds orderly.used orderly.condition t needed).self
  exact ⟨c, inside, Token.eq_of_id ofColumn ofNeeded same⟩

end Template

/-- If rows without a match are NULL already, brackets around the extra side change no row. -/
theorem Orderly.records_bracketed {definitions : TokenId → Fragment} {ofBase ofExtra : TokenId → Prop}
    {V : Type} {E : Engine V} {contents : Fragment → List (Record V)}
    (orderly : j.Orderly definitions ofBase ofExtra) (left : j.mode = .left)
    (nulls : ∀ c ∈ j.extra.template.columns, j.absent E c.token = E.null)
    (composes : E.Composes j.condition)
    (reached : j.condition.inReach (j.base.scope.union j.extra.scope) = true)
    (kept : ∀ t ∈ j.condition.passed (j.base.scope.union j.extra.scope),
      t.id ∉ j.base.past ++ j.extra.past) {targets : List Token}
    (needed : ∀ t ∈ targets, t ∈ j.baseNeeds.toList ∨ t ∈ j.extraNeeds.toList) :
    (j.selecting targets).1.records E contents =
      (j.bracketed.selecting targets).1.records E contents := by
  have nullsOfNeeds : ∀ t ∈ j.extraNeeds.toList, j.absent E t = E.null := by
    intro t asked
    obtain ⟨c, inside, rfl⟩ := orderly.column_of_needed asked
    exact nulls c inside
  -- both are the records of the two sides, joined, and brackets change no record of a side
  rw [orderly.records_of_nulls left nullsOfNeeds composes reached kept needed,
    orderly.bracketed.records_of_nulls left (fun t asked => absent_bracketed asked) composes
      reached kept needed, records_askedOfExtra_bracketed, recordsMeet_bracketed,
    outputOf_bracketed, names_selecting_bracketed]
  rfl

/-- A left join gives each row of its base side with the records that it meets or, where there are
none, with nothing; there, each column of the extra side has the value that its expression has
where every column is NULL. That is NULL for a column of the joined source, and for all columns if
the extra side has any clause of its own, since it is a subquery then. Wherever it is NULL, the
rows are those of the join with the extra side in brackets, for expressions whose values are put
together from those of their tokens. -/
theorem rows_of_left_join {definitions : TokenId → Fragment} {V : Type} (E : Engine V)
    (contents : Fragment → List (Record V))
    (accepted : j.base.joined j.extra j.mode j.withNull j.condition = .ok j.view)
    (left : j.mode = .left) (full : j.Full)
    (known : ∀ a ∈ j.view.sources.toList, a.index < j.supply.aliases)
    (ofCondition : j.condition.AllTokens fun u => u.definition = definitions u.id)
    (unshared : j.Unshared definitions)
    (baseSound : j.aloneBase.2.Sound j.aloneBase.1 j.baseNeeds)
    (extraSound : j.aloneExtra.2.Sound j.aloneExtra.1 j.extraNeeds) :
    let plan := ((j.view.plan j.settings).run j.supply).1
    let bracketed := ((j.bracketed.view.plan j.settings).run j.supply).1
    let row := fun pair => E.record plan.statement.columns (E.seat j.source.id pair)
    plan.statement.records E contents = (j.pairs E contents).map row ∧
      (∀ c ∈ j.extra.template.columns, ∀ scene,
        E.named plan.reader.names (row (scene, none)) c.token.id = j.absent E c.token) ∧
      (∀ c ∈ j.extra.template.columns,
        (j.closesExtra = true ∨ ∃ source name,
          j.closedExtra.2.redirects.expandToken c.token = Fragment.column source name) →
        j.absent E c.token = E.null) ∧
      (E.Composes j.condition →
        (∀ t ∈ j.condition.passed (j.base.scope.union j.extra.scope),
          t.id ∉ j.base.past ++ j.extra.past) →
        (∀ c ∈ j.extra.template.columns, j.absent E c.token = E.null) →
        plan.statement.records E contents = bracketed.statement.records E contents) := by
  intro plan bracketed row
  obtain ⟨sides, reached, -⟩ := View.joined_eq_ok_iff.1 accepted
  obtain ⟨ofBase, ofExtra, disjoint, allBase, allExtra⟩ := unshared
  have used : ∀ t ∈ j.used.toList, t.AllTokens fun u => u.definition = definitions u.id := by
    have all : j.view.AllTokens fun t => t.definition = definitions t.id :=
      ⟨allBase.mono fun _ both => both.1, allExtra.mono fun _ both => both.1, ofCondition⟩
    rw [full.1]
    exact all.template.tokenSet
  have orderly : j.Orderly definitions ofBase ofExtra :=
    { accepted := sides, known, used, condition := ofCondition, disjoint, base := allBase
      extra := allExtra, baseSound, extraSound }
  obtain ⟨selecting, names⟩ := plan_of_full left full
  have targets : ∀ t ∈ j.view.template.tokens, t ∈ j.baseNeeds.toList ∨ t ∈ j.extraNeeds.toList := by
    intro t member
    obtain ⟨c, inside, rfl⟩ := List.mem_map.1 (Token.mem_distinct member)
    exact orderly.needed_of_column full.1 inside
  refine ⟨?rows, ?unmatched, ?nulls, ?brackets⟩
  case rows =>
    simp only [plan, row, selecting]
    exact orderly.records_selecting left _
  case unmatched =>
    intro c inside scene
    simp only [plan, row, selecting, names]
    exact orderly.named_unmatched left full.1 inside scene
  case nulls =>
    rintro c inside (closes | ⟨source, name, column⟩)
    · exact absent_of_closesExtra closes (orderly.needed_of_extra full.1 inside)
    · rw [absent, column, Interpretation.evalOn_column]
      rfl
  case brackets =>
    intro composes kept nulls
    have same : bracketed.statement = (j.bracketed.selecting j.view.template.tokens).1 :=
      (plan_of_full (j := j.bracketed) left full).1
    simp only [plan, selecting]
    rw [same]
    exact orderly.records_bracketed left nulls composes reached kept targets

section Sums

def plus : Option Nat → Option Nat → Option Nat := Option.map₂ (· + ·)

/-- The sum of the values, with one for each "1" and each " + 1"; it is NULL if a value is. -/
def nullableSum : List (Piece (Option Nat)) → Option Nat
  | [] => some 0
  | .value v :: rest => plus v (nullableSum rest)
  | .verbatim text :: rest =>
    plus (some (if text = "1" ∨ text = " + 1" then 1 else 0)) (nullableSum rest)
  | .param _ :: rest => nullableSum rest

theorem plus_zero (v : Option Nat) : plus v (some 0) = v := by
  cases v with
  | none | some => rfl

theorem zero_plus (v : Option Nat) : plus (some 0) v = v := by
  cases v with
  | none => rfl
  | some n => exact congrArg some (Nat.zero_add n)

theorem plus_assoc (a b c : Option Nat) : plus (plus a b) c = plus a (plus b c) :=
  Option.map₂_assoc Nat.add_assoc

theorem nullableSum_append (front back : List (Piece (Option Nat))) :
    nullableSum (front ++ back) = plus (nullableSum front) (nullableSum back) := by
  induction front with
  | nil => exact (zero_plus _).symm
  | cons piece rest ih =>
    cases piece with
    | value | verbatim => rw [List.cons_append, nullableSum, nullableSum, ih, plus_assoc]
    | param => exact ih

/-- Expressions are sums, conditions ask for an even one, and all values tie. -/
def nullableSums : Engine (Option Nat) where
  value := nullableSum
  value_single := plus_zero
  holds v := v.any fun n => n % 2 == 0
  null := none
  precedes _ _ _ _ := true
  ordered _ _ := .trivial
  groups _ _ := []

end Sums

/-- All owners, each with the pets it has and a further column of these. -/
def companions (further : Token) : Joining where
  base := View.owners
  extra := .project View.pets (.ofTokens [("owner", View.petOwner), ("further", further)])
  mode := .left
  withNull := true
  condition := View.ownedBy
  used := .ofList [View.ownerId, View.petOwner, further]
  observed := true
  settings := {}
  supply := { tokens := 4, aliases := 2 }

/-- Two owners, and a pet of the first one. -/
def kennel (text : Fragment) : List (Record (Option Nat)) :=
  match text with
  | [.verbatim "owners"] => [fun _ => some 1, fun _ => some 2]
  | [.verbatim "pets"] => [fun _ => some 1]
  | _ => []

theorem unshared_companions : (companions (next View.petOwner.toFragment)).Unshared
    (adoptionDefinitions View.petOwner.toFragment) := by
  refine ⟨fun id => id = ⟨0⟩, fun id => id = ⟨1⟩ ∨ id = ⟨3⟩, ?_, ?_, ?_⟩
  · rintro id rfl
    decide
  · simp [companions, View.AllTokens, View.owners, Template.AllTokens, Token.AllTokens,
      Token.toSegment, Segment.AllTokens, Fragment.AllTokens, adoptionDefinitions, View.ownerId,
      Fragment.verbatim, Fragment.column]
  · simp [companions, View.AllTokens, View.pets, Step.AllTokens, Step.fragments,
      Template.AllTokens, Column.toFragment, Token.AllTokens, Token.toSegment, Segment.AllTokens,
      Fragment.AllTokens, adoptionDefinitions, View.petOwner, next, Fragment.verbatim,
      Fragment.column, Token.toFragment]

/-- A column on top of a column of the pets is NULL where there is no pet. -/
theorem rows_of_left_join_companions :
    let j := companions (next View.petOwner.toFragment)
    let plan := ((j.view.plan {}).run { tokens := 4, aliases := 2 }).1
    let bracketed := ((j.bracketed.view.plan {}).run { tokens := 4, aliases := 2 }).1
    let row := fun pair => nullableSums.record plan.statement.columns
      (nullableSums.seat j.source.id pair)
    plan.statement.records nullableSums kennel = (j.pairs nullableSums kennel).map row ∧
      (∀ c ∈ j.extra.template.columns, ∀ scene,
        nullableSums.named plan.reader.names (row (scene, none)) c.token.id = none) ∧
      plan.statement.records nullableSums kennel = bracketed.statement.records nullableSums kennel := by
  have condition : View.ownedBy.AllTokens fun u =>
      u.definition = adoptionDefinitions View.petOwner.toFragment u.id :=
    ⟨⟨rfl, trivial, trivial⟩, trivial, ⟨rfl, trivial, trivial⟩, trivial⟩
  have nulls : ∀ c ∈ (companions (next View.petOwner.toFragment)).extra.template.columns,
      (companions (next View.petOwner.toFragment)).absent nullableSums c.token = none := by
    decide +kernel
  have composes : nullableSums.Composes View.ownedBy :=
    Interpretation.composes_of_concat nullableSum_append View.ownedBy
  obtain ⟨rows, unmatched, -, brackets⟩ := rows_of_left_join nullableSums kennel rfl rfl ⟨rfl, rfl⟩
    (by decide) condition unshared_companions (by decide) (by decide)
  refine ⟨rows, fun c inside scene => ?_, brackets composes (by decide) nulls⟩
  exact (unmatched c inside scene).trans (nulls c inside)

/-- One owner and no pets. -/
def lonely (text : Fragment) : List (Record (Option Nat)) :=
  match text with
  | [.verbatim "owners"] => [fun _ => some 1]
  | _ => []

/-- With one row on the left and none on the right, a left join has one row. -/
theorem records_of_lonely {V : Type} {E : Engine V} {contents : Fragment → List (Record V)}
    {s : Statement} {left right : Source} {condition : Fragment} {record : Record V}
    (body : s.body = (Body.ofSource left).join (.ofSource right) .left condition)
    (one : left.records E contents = [record]) (none : right.records E contents = []) :
    s.records E contents =
      [E.record s.columns ((E.nowhere.put left.id record).put right.id E.missing)] := by
  have scenes : s.body.scenes E contents =
      [(E.nowhere.put left.id record).put right.id E.missing] := by
    rw [body]
    show JoinClause.scenes E contents [⟨.left, right, condition⟩]
      ((left.records E contents).map (E.nowhere.put left.id)) = _
    rw [JoinClause.scenes, one, none]
    rfl
  rw [Statement.records_of_rows (by rw [body]; rfl), scenes, body, Body.select_join,
    Body.select_ofSource]
  rfl

/-- The pets in brackets, with the constant as one of their columns. -/
def listedPets : Statement where
  columns := [⟨Fragment.column ⟨1⟩ "owner", Settings.columnName {} 0⟩,
    ⟨Fragment.verbatim "1", Settings.columnName {} 1⟩]
  body := .ofTable (Fragment.verbatim "pets") ⟨1⟩

/-- A constant of the joined side is there for an owner without pets too. In brackets, it would be
a column of the joined source, and NULL. -/
theorem not_null_of_constant :
    let plan := (((companions one).view.plan {}).run { tokens := 4, aliases := 2 }).1
    let bracketed := (((companions one).bracketed.view.plan {}).run { tokens := 4, aliases := 2 }).1
    (companions one).base.joined (companions one).extra .left true View.ownedBy =
        .ok (companions one).view ∧
      (plan.statement.records nullableSums lonely).map
        (nullableSums.named plan.reader.names · one.id) = [some 1] ∧
      (bracketed.statement.records nullableSums lonely).map
        (nullableSums.named bracketed.reader.names · one.id) = [none] := by
  let owners : Source := .table (Fragment.verbatim "owners") ⟨0⟩
  let pets : Source := .table (Fragment.verbatim "pets") ⟨1⟩
  have none : listedPets.records nullableSums lonely = [] := by
    rw [Statement.records_of_rows rfl]
    exact congrArg (List.map _) (Body.select_ofSource _ _ _)
  intro plan bracketed
  have bare : plan.statement.body = (Body.ofSource owners).join (.ofSource pets) .left
      (Fragment.column ⟨0⟩ "id" ++ Fragment.verbatim " = " ++ Fragment.column ⟨1⟩ "owner") := rfl
  have inBrackets : bracketed.statement.body =
      (Body.ofSource owners).join (.ofSource (.subquery listedPets ⟨2⟩)) .left
        (Fragment.column ⟨0⟩ "id" ++ Fragment.verbatim " = " ++
          Fragment.column ⟨2⟩ (Settings.columnName {} 0)) := rfl
  refine ⟨rfl, ?_, ?_⟩
  · rw [records_of_lonely bare rfl rfl]
    decide +kernel
  · rw [records_of_lonely inBrackets rfl none]
    decide +kernel

end Joining
end QueryViews
