import QueryViews.Proofs.Bracketing
import QueryViews.Proofs.Meaning.Selection
import QueryViews.Proofs.Meaning.Values

/-! Meaning of all statements. The FROM and JOIN sources of a SELECT are read side by side; a left
join keeps what it finds no match for, and reads NULL there for every column of the joined source.
Which groups a grouped SELECT makes of its scenes, and what expressions are worth on them, is left
open, like the meaning of expressions. -/

namespace QueryViews

section
variable {V : Type}

/-- One record of each source of a SELECT, side by side. -/
abbrev Scene (V : Type) := Alias → Record V

namespace Scene

def put (scene : Scene V) (source : Alias) (record : Record V) : Scene V := fun other =>
  if other = source then record else scene other

@[simp] theorem put_self (scene : Scene V) (source : Alias) (record : Record V) :
    scene.put source record source = record := if_pos rfl

theorem put_of_ne (scene : Scene V) {source other : Alias} (record : Record V)
    (different : other ≠ source) : scene.put source record other = scene other := if_neg different

end Scene

namespace Interpretation
variable (I : Interpretation V)

/-- What is read in the place of a record that is not there. -/
def missing : Record V := fun _ => I.null

def nowhere : Scene V := fun _ => I.missing

/-- The value of an expression on a scene, all tokens written out. -/
def evalOn (f : Fragment) (scene : Scene V) : V := I.value (f.pieces (fun _ => none) scene)

/-- The record of a select list, given the value of each expression. -/
def listed (columns : List OutputColumn) (value : Fragment → V) : Record V := fun name =>
  ((columns.map fun c => (c.name, value c.expr)).lookup name).getD I.null

def record (columns : List OutputColumn) (scene : Scene V) : Record V :=
  I.listed columns (I.evalOn · scene)

/-- The value of a token by the name that it has in a record. -/
def named (names : List (TokenId × String)) (record : Record V) (id : TokenId) : V :=
  ((names.lookup id).map record).getD I.null

section
variable {I} {columns : List OutputColumn} {value : Fragment → V}

theorem listed_of_mem (distinct : (columns.map OutputColumn.name).Nodup) {c : OutputColumn}
    (inside : c ∈ columns) : I.listed columns value c.name = value c.expr := by
  have names : ((columns.map fun c => (c.name, value c.expr)).map Prod.fst).Nodup := by
    rw [List.map_map]
    exact distinct
  rw [listed, lookup_eq_some_of_mem names (List.mem_map.2 ⟨c, inside, rfl⟩), Option.getD_some]

theorem listed_of_absent {name : String} (absent : ∀ c ∈ columns, c.name ≠ name) :
    I.listed columns value name = I.null := by
  have none : (columns.map fun c => (c.name, value c.expr)).lookup name = none := by
    refine List.lookup_eq_none_iff.2 fun entry listed => bne_iff_ne.2 ?_
    obtain ⟨c, inside, rfl⟩ := List.mem_map.1 listed
    exact (absent c inside).symm
  rw [listed, none, Option.getD_none]

theorem named_missing (I : Interpretation V) (names : List (TokenId × String)) (id : TokenId) :
    I.named names I.missing id = I.null := by
  unfold named
  cases names.lookup id with
  | none | some => rfl

/-- A token's value stands under the name it was selected with. -/
theorem named_listed {b : Build} {body : Body} {targets : List Token} {t : Token}
    (member : t ∈ targets) (only : ∀ u ∈ targets, u.id = t.id → u = t) :
    I.named (b.statement body targets).2 (I.listed (b.statement body targets).1.columns value)
      t.id = value (b.redirects.expandToken t) := by
  obtain ⟨name, found⟩ : ∃ name, (b.statement body targets).2.lookup t.id = some name :=
    Build.exists_lookup member
  obtain ⟨u, kept, same, column⟩ := Build.column_of_lookup found
  obtain rfl := only u (Token.mem_distinct kept) same
  rw [named, found]
  exact listed_of_mem (b.nodup_columnNames body targets) column

end
end Interpretation

/-- What a row on the left is paired with: each row on the right that it meets or, by a left join
that finds none, nothing. -/
def JoinKind.pairs {L R : Type} (kind : JoinKind) (meets : L → R → Bool) (rights : List R)
    (left : L) : List (L × Option R) :=
  match kind, rights.filter (meets left) with
  | .left, [] => [(left, none)]
  | _, met => met.map fun right => (left, some right)

namespace Interpretation
variable (I : Interpretation V)

def meets (source : Alias) (condition : Fragment) (scene : Scene V) (record : Record V) : Bool :=
  I.holds (I.evalOn condition (scene.put source record))

/-- The scene with a record of the joined source; NULL for all its columns if there is none. -/
def seat (source : Alias) : Scene V × Option (Record V) → Scene V
  | (scene, record?) => scene.put source (record?.getD I.missing)

/-- The scenes after a join, for one before it. -/
def join (kind : JoinKind) (source : Alias) (condition : Fragment) (records : List (Record V))
    (scene : Scene V) : List (Scene V) :=
  (kind.pairs (I.meets source condition) records scene).map (I.seat source)

@[simp] theorem put_missing (source : Alias) : I.nowhere.put source I.missing = I.nowhere := by
  funext other name
  unfold Scene.put
  split
  · rfl
  · rfl

end Interpretation

structure Engine (V : Type) extends Interpretation V where
  /-- The values of expressions on each group that a grouped body gives of the scenes it keeps. -/
  groups : Body → List (Scene V) → List (Fragment → V)

/-- Whether the body gives groups rather than rows of its sources. -/
def Body.groups (b : Body) : Bool := b.grouped || !b.keys.isEmpty || !b.having.isEmpty

mutual

def Source.records (E : Engine V) (contents : Fragment → List (Record V)) :
    Source → List (Record V)
  | .table text _ => contents text
  | .subquery statement _ => statement.records E contents

def JoinClause.scenes (E : Engine V) (contents : Fragment → List (Record V)) :
    List JoinClause → List (Scene V) → List (Scene V)
  | [], scenes => scenes
  | ⟨kind, source, condition⟩ :: rest, scenes =>
    let records := source.records E contents
    JoinClause.scenes E contents rest (scenes.flatMap (E.join kind source.id condition records))

/-- The records a statement gives over tables with these contents. -/
def Statement.records (E : Engine V) (contents : Fragment → List (Record V)) :
    Statement → List (Record V)
  | ⟨columns, ⟨source, joins, filters, keys, grouped, having, order, skip, take⟩⟩ =>
    let body : Body := ⟨source, joins, filters, keys, grouped, having, order, skip, take⟩
    let records := source.records E contents
    let scenes := JoinClause.scenes E contents joins (records.map (E.nowhere.put source.id))
    if body.groups then
      let kept := scenes.filter fun scene => filters.all fun f => E.holds (E.evalOn f scene)
      (E.groups body kept).map (E.listed columns)
    else (body.select E.toInterpretation E.evalOn scenes).map (E.record columns)

end

def Body.scenes (E : Engine V) (contents : Fragment → List (Record V)) (b : Body) :
    List (Scene V) :=
  JoinClause.scenes E contents b.joins
    ((b.source.records E contents).map (E.nowhere.put b.source.id))

variable {E : Engine V} {contents : Fragment → List (Record V)}

theorem Statement.records_of_rows {s : Statement} (rows : s.body.groups = false) :
    s.records E contents =
      (s.body.select E.toInterpretation E.evalOn (s.body.scenes E contents)).map
        (E.record s.columns) := by
  obtain ⟨columns, source, joins, filters, keys, grouped, having, order, skip, take⟩ := s
  rw [records]
  exact if_neg (Bool.eq_false_iff.1 rows)

/-- A statement gives nothing under names that it does not select. -/
theorem Statement.records_off {s : Statement} {record : Record V}
    (given : record ∈ s.records E contents) {name : String}
    (absent : ∀ c ∈ s.columns, c.name ≠ name) : record name = E.null := by
  obtain ⟨columns, source, joins, filters, keys, grouped, having, order, skip, take⟩ := s
  rw [records] at given
  split at given
  · obtain ⟨group, -, rfl⟩ := List.mem_map.1 given
    exact Interpretation.listed_of_absent absent
  · obtain ⟨scene, -, rfl⟩ := List.mem_map.1 given
    exact Interpretation.listed_of_absent absent

theorem JoinClause.scenes_append (joins others : List JoinClause) (scenes : List (Scene V)) :
    JoinClause.scenes E contents (joins ++ others) scenes =
      JoinClause.scenes E contents others (JoinClause.scenes E contents joins scenes) := by
  induction joins generalizing scenes with
  | nil => rfl
  | cons j rest ih =>
    obtain ⟨kind, source, condition⟩ := j
    rw [List.cons_append, JoinClause.scenes, JoinClause.scenes, ih]

theorem JoinKind.pairs_map {L R L' R' : Type} {kind : JoinKind} {meets : L' → R' → Bool}
    {other : L → R → Bool} {g : L → L'} {h : R → R'}
    (agree : ∀ left right, meets (g left) (h right) = other left right) (rights : List R)
    (left : L) :
    kind.pairs meets (rights.map h) (g left) =
      (kind.pairs other rights left).map fun (left, right?) => (g left, right?.map h) := by
  have met : (rights.map h).filter (meets (g left)) = (rights.filter (other left)).map h := by
    simp only [List.filter_map, Function.comp_def, agree]
  unfold pairs
  rw [met]
  cases kind with
  | inner => simp [Function.comp_def]
  | left =>
    cases rights.filter (other left) with
    | nil => rfl
    | cons => simp [Function.comp_def]

theorem JoinKind.flatMap_pairs {L R L' R' : Type} {kind : JoinKind} {meets : L' → R' → Bool}
    {other : L → R → Bool} {g : L → L'} {h : R → R'}
    (agree : ∀ left right, meets (g left) (h right) = other left right) (lefts : List L)
    (rights : List R) :
    (lefts.map g).flatMap (kind.pairs meets (rights.map h)) =
      (lefts.flatMap (kind.pairs other rights)).map fun pair => (g pair.1, pair.2.map h) := by
  rw [List.flatMap_map, List.map_flatMap]
  exact List.flatMap_congr fun left _ => JoinKind.pairs_map agree rights left

theorem Body.scenes_join (b : Body) (source : Source) (kind : JoinKind) (condition : Fragment)
    (r : Redirects) :
    ((b.join (.ofSource source) kind condition).expanded r).scenes E contents =
      ((b.expanded r).scenes E contents).flatMap
        (E.join kind source.id (r.expand condition) ((source.expanded r).records E contents)) := by
  let clause : JoinClause := ⟨kind, source, condition⟩
  have joins : (b.joins ++ [clause] ++ []).map (JoinClause.expanded r) =
      b.joins.map (JoinClause.expanded r) ++ [clause.expanded r] := by
    rw [List.append_nil, List.map_append, List.map_singleton]
  show JoinClause.scenes E contents ((b.joins ++ [clause] ++ []).map (JoinClause.expanded r)) _ = _
  rw [joins, JoinClause.scenes_append, ← Source.id_expanded (r := r) source]
  rfl

section Values
variable {I : Interpretation V}

mutual

theorem Segment.pieces_congr {known : TokenRow V} {one two : Scene V} :
    ∀ {segment : Segment}, (∀ c ∈ segment.columns, one c.1 c.2 = two c.1 c.2) →
      segment.pieces known one = segment.pieces known two
  | .token id definition, agree => by
    unfold Segment.pieces
    rw [Fragment.pieces_congr (by exact agree)]
  | .nested _, agree => Fragment.pieces_congr (by exact agree)
  | .column source name, agree => by
    have same : one source name = two source name := agree _ (List.mem_singleton_self _)
    rw [Segment.pieces, Segment.pieces, same]
  | .verbatim _, _ | .param _, _ => rfl

theorem Fragment.pieces_congr {known : TokenRow V} {one two : Scene V} :
    ∀ {f : Fragment}, (∀ c ∈ Fragment.columns f, one c.1 c.2 = two c.1 c.2) →
      Fragment.pieces known one f = Fragment.pieces known two f
  | [], _ => rfl
  | segment :: rest, agree => by
    obtain ⟨first, later⟩ := List.forall_mem_append.1 agree
    rw [Fragment.pieces, Fragment.pieces, Segment.pieces_congr first, Fragment.pieces_congr later]

end

theorem Interpretation.evalOn_congr {f : Fragment} {one two : Scene V}
    (agree : ∀ c ∈ f.columns, one c.1 c.2 = two c.1 c.2) : I.evalOn f one = I.evalOn f two := by
  rw [evalOn, evalOn, Fragment.pieces_congr agree]

theorem Interpretation.evalOn_column (source : Alias) (name : String) (scene : Scene V) :
    I.evalOn (Fragment.column source name) scene = scene source name :=
  I.value_single _

/-- The values of redirected tokens on a scene. -/
def Redirects.known (r : Redirects) (I : Interpretation V) (scene : Scene V) : TokenRow V :=
  fun id => (r.lookup id).map fun f => I.evalOn f scene

mutual

theorem Segment.pieces_substitute_known {r : Redirects} (flat : r.Flat) (scene : Scene V) :
    ∀ segment : Segment, Fragment.pieces (fun _ => none) scene (segment.substitute r.lookup) =
      segment.pieces (r.known I scene) scene
  | .token id definition => by
    unfold Segment.substitute Segment.pieces
    cases found : r.lookup id with
    | some f =>
      obtain ⟨source, name, rfl⟩ := flat id f found
      simp only [Redirects.known, found, Option.map_some, Interpretation.evalOn_column]
      rfl
    | none =>
      simp only [Redirects.known, found, Option.map_none]
      exact Fragment.pieces_substitute_known flat scene definition
  | .nested inner => Fragment.pieces_substitute_known flat scene inner
  | .verbatim _ | .column _ _ | .param _ => rfl

theorem Fragment.pieces_substitute_known {r : Redirects} (flat : r.Flat) (scene : Scene V) :
    ∀ f : Fragment, Fragment.pieces (fun _ => none) scene (Fragment.substitute r.lookup f) =
      Fragment.pieces (r.known I scene) scene f
  | [] => rfl
  | segment :: rest => by
    rw [Fragment.substitute, Fragment.pieces_append, Fragment.pieces,
      Segment.pieces_substitute_known flat scene segment,
      Fragment.pieces_substitute_known flat scene rest]

end

/-- Once expanded, an expression has the value it has with the redirected tokens known. -/
theorem Redirects.Flat.evalOn_expand {r : Redirects} (flat : r.Flat) (f : Fragment)
    (scene : Scene V) :
    I.evalOn (r.expand f) scene = I.value (f.pieces (r.known I scene) scene) := by
  rw [expand_of_flat flat, Interpretation.evalOn, Fragment.pieces_substitute_known flat]

end Values

mutual

/-- Of each token on its way, `more` tells the value that the token has with what is known. -/
def Segment.Refines (I : Interpretation V) (known more : TokenRow V) (scene : Scene V) :
    Segment → Prop
  | .token id definition =>
    match more id with
    | some v => v = I.value ((Segment.token id definition).pieces known scene)
    | none => known id = none ∧ Fragment.Refines I known more scene definition
  | .nested inner => Fragment.Refines I known more scene inner
  | .verbatim _ | .column _ _ | .param _ => True

def Fragment.Refines (I : Interpretation V) (known more : TokenRow V) (scene : Scene V) :
    Fragment → Prop
  | [] => True
  | segment :: rest =>
    segment.Refines I known more scene ∧ Fragment.Refines I known more scene rest

end

/-- Its value can be put together from the values of tokens in it. -/
def Interpretation.Composes (I : Interpretation V) (f : Fragment) : Prop :=
  ∀ known more scene, f.Refines I known more scene →
    I.value (f.pieces more scene) = I.value (f.pieces known scene)

section Composing
variable {I : Interpretation V}

mutual

theorem Segment.value_pieces_of_refines {combine : V → V → V}
    (concat : ∀ front back, I.value (front ++ back) = combine (I.value front) (I.value back))
    {known more : TokenRow V} {scene : Scene V} :
    ∀ {segment : Segment}, segment.Refines I known more scene →
      I.value (segment.pieces more scene) = I.value (segment.pieces known scene)
  | .token id definition, refines => by
    unfold Segment.Refines at refines
    unfold Segment.pieces
    cases told : more id with
    | some v =>
      rw [told] at refines
      exact (I.value_single v).trans refines
    | none =>
      rw [told] at refines
      rw [refines.1]
      exact Fragment.value_pieces_of_refines concat refines.2
  | .nested _, refines => Fragment.value_pieces_of_refines concat (by exact refines)
  | .verbatim _, _ | .column _ _, _ | .param _, _ => rfl

theorem Fragment.value_pieces_of_refines {combine : V → V → V}
    (concat : ∀ front back, I.value (front ++ back) = combine (I.value front) (I.value back))
    {known more : TokenRow V} {scene : Scene V} :
    ∀ {f : Fragment}, Fragment.Refines I known more scene f →
      I.value (Fragment.pieces more scene f) = I.value (Fragment.pieces known scene f)
  | [], _ => rfl
  | _ :: _, ⟨first, rest⟩ => by
    rw [Fragment.pieces, Fragment.pieces, concat, concat,
      Segment.value_pieces_of_refines concat first, Fragment.value_pieces_of_refines concat rest]

end

theorem Interpretation.composes_of_concat {combine : V → V → V}
    (concat : ∀ front back, I.value (front ++ back) = combine (I.value front) (I.value back))
    (f : Fragment) : I.Composes f :=
  fun _ _ _ refines => Fragment.value_pieces_of_refines concat refines

end Composing

section Reach
variable {I : Interpretation V} {scope : Scope} {known more : TokenRow V} {scene : Scene V}

mutual

/-- Values for the tokens of a scope refine what stops at them. -/
theorem Segment.refines_of_frontier
    (outside : ∀ id, scope.contains id = false → more id = none) :
    ∀ {segment : Segment},
      (∀ t ∈ segment.frontier scope, more t.id = some (I.value (t.toFragment.pieces known scene))) →
      (∀ t ∈ segment.passed scope, known t.id = none) → segment.Refines I known more scene
  | .token id definition, met, passed => by
    unfold Segment.frontier at met
    unfold Segment.passed at passed
    unfold Segment.Refines
    cases held : scope.contains id with
    | true =>
      rw [held, if_pos rfl] at met
      have told := met _ (List.mem_singleton_self _)
      rw [told]
      exact congrArg I.value (List.append_nil _)
    | false =>
      rw [held, if_neg Bool.false_ne_true] at met passed
      obtain ⟨self, below⟩ := List.forall_mem_cons.1 passed
      rw [outside id held]
      exact ⟨self, Fragment.refines_of_frontier outside met below⟩
  | .nested _, met, passed => Fragment.refines_of_frontier outside (by exact met) (by exact passed)
  | .verbatim _, _, _ | .column _ _, _, _ | .param _, _, _ => trivial

theorem Fragment.refines_of_frontier
    (outside : ∀ id, scope.contains id = false → more id = none) :
    ∀ {f : Fragment},
      (∀ t ∈ Fragment.frontier scope f, more t.id = some (I.value (t.toFragment.pieces known scene))) →
      (∀ t ∈ Fragment.passed scope f, known t.id = none) → Fragment.Refines I known more scene f
  | [], _, _ => trivial
  | _ :: _, met, passed => by
    obtain ⟨metFirst, metRest⟩ := List.forall_mem_append.1 met
    obtain ⟨passedFirst, passedRest⟩ := List.forall_mem_append.1 passed
    exact ⟨Segment.refines_of_frontier outside metFirst passedFirst,
      Fragment.refines_of_frontier outside metRest passedRest⟩

end

end Reach

theorem Interpretation.reading_eq (I : Interpretation V) (source : Alias) (record : Record V) :
    I.reading source record = I.nowhere.put source record := by
  funext other name
  unfold reading Scene.put
  split
  · rfl
  · rfl

theorem Interpretation.eval_eq (I : Interpretation V) (source : Alias) (f : Fragment)
    (record : Record V) : I.eval source f record = I.evalOn f (I.nowhere.put source record) := by
  rw [eval, evalOn, reading_eq]

theorem Body.select_map {R S : Type} {I : Interpretation V} (b : Body) {eval : Fragment → R → V}
    {other : Fragment → S → V} {g : R → S} (agree : ∀ f row, other f (g row) = eval f row)
    (rows : List R) : b.select I other (rows.map g) = (b.select I eval rows).map g := by
  have identical : b.order.map (SortKey.map id) = b.order := List.map_id b.order
  have order : ∀ one two, I.rowPrecedes other b.order (g one) (g two) =
      I.rowPrecedes eval b.order one two := by
    intro one two
    rw [← congrArg (I.rowPrecedes other) identical]
    exact I.rowPrecedes_map (fun item _ row => agree item.expr row) one two
  simp only [select, List.filter_map, Function.comp_def, agree]
  rw [← window_map]
  exact congrArg b.window (List.map_mergeSort fun one _ two _ => (order one two).symm).symm

mutual

/-- A statement without joins and groups has the records that it has by itself. -/
theorem Source.records_of_records? {records : List (Record V)} :
    ∀ {source : Source}, source.records? E.toInterpretation contents = some records →
      source.records E contents = records
  | .table _ _, given => Option.some.inj given
  | .subquery _ _, given => Statement.records_of_records? (by exact given)

theorem Statement.records_of_records? {records : List (Record V)} :
    ∀ {s : Statement}, s.records? E.toInterpretation contents = some records →
      s.records E contents = records
  | ⟨columns, ⟨source, joins, filters, keys, grouped, having, order, skip, take⟩⟩, given => by
    rw [Statement.records?] at given
    split at given
    next plain =>
      obtain ⟨below, found, rfl⟩ := Option.map_eq_some_iff.1 given
      simp only [Body.isPlain, Bool.and_eq_true, List.isEmpty_iff, Bool.not_eq_true'] at plain
      obtain ⟨⟨⟨rfl, rfl⟩, rfl⟩, rfl⟩ := plain
      rw [Statement.records_of_rows rfl, Body.scenes, JoinClause.scenes, Source.records_of_records? found,
        Body.select_map _ (fun f row => (E.eval_eq source.id f row).symm), List.map_map]
      refine List.map_congr_left fun record _ => ?_
      funext name
      simp only [Function.comp_apply, Interpretation.record, Interpretation.listed,
        Interpretation.output, Interpretation.eval_eq]
    next => exact nomatch given

end

end
end QueryViews
