import QueryViews.Proofs.Demand.Tidy
import QueryViews.Proofs.Renaming.Renamed
import QueryViews.Proofs.Renaming.Written
import QueryViews.Proofs.Scope.JoinFree
import QueryViews.Query.Compiler

/-! Queries do not depend on identities. A view and the same view with other identities are compiled
to the same text with the same parameters and to readers that read rows alike, from wherever
subqueries are numbered; so a view compiles to the same text as often as it is compiled. -/

namespace QueryViews

theorem Build.tokens_bracketIf (b : Build) (applies : Bool) (body : Body) (needs : TokenSet) :
    (b.bracketIf applies body needs).2.supply.tokens = b.supply.tokens := by
  cases applies with
  | false => rfl
  | true => rfl

/-- Building a view takes no number for a token. -/
theorem View.tokens_body (v : View) (used : TokenSet) (observed : Bool) (b : Build) :
    ((v.body used observed).run b).2.supply.tokens = b.supply.tokens := by
  induction v, used, observed, b using visits_induction with
  | table => rfl
  | onto s v used observed b ih =>
    simp only [run_body_onto, Build.run_makeRoom, Build.tokens_bracketIf]
    exact ih
  | baseOnly base extra mode withNull condition used observed b drops ih =>
    rw [run_body_of_dropsExtra b drops]
    exact ih
  | extraOnly base extra mode withNull condition used observed b keeps drops ih =>
    rw [run_body_of_dropsBase b keeps drops]
    exact ih
  | both base extra mode withNull condition used observed b joins ofBase ofExtra =>
    rw [run_body_of_joins b joins]
    simp only [run_sides, Build.tokens_bracketIf]
    exact ofExtra.trans ofBase

theorem View.tokens_countedBody (v : View) (b : Build) :
    (v.countedBody.run b).2.supply.tokens = b.supply.tokens := by
  rw [countedBody, StateT.run_bind]
  show ((Building.bracketOn .aggregate _ .empty).run _).2.supply.tokens = _
  rw [Build.run_bracketOn, Build.tokens_bracketIf]
  exact v.tokens_body .empty false b

variable {ρ : Pairing}

/-- Plans for twin statements, whose tokens are selected under the same names. -/
structure Plan.Twin (ρ : Pairing) (p p' : Plan) : Prop where
  statement : Statement.Twin ρ p.statement p'.statement
  names : List.Forall₂ (fun entry entry' => ρ.token entry.1 entry'.1 ∧ entry.2 = entry'.2)
    p.reader.names p'.reader.names
  decisions : p.decisions = p'.decisions

theorem Build.TwinBodies.plan {built built' : Body × Build} (twins : TwinBodies ρ built built')
    {t t' : Template} (columns : t.Twin ρ t') :
    (Plan.ofBody built.2 built.1 t).Twin ρ (Plan.ofBody built'.2 built'.1 t') where
  statement := twins.build.statement twins.body columns.tokens
  names := twins.build.names built.1 built'.1 columns.tokens
  decisions := twins.build.decisions

namespace View.Twin
variable {v v' : View} {s s' : Supply}

theorem started (settings : Settings)
    (numbers : ∀ k, ρ.source ⟨s.aliases + k⟩ ⟨s'.aliases + k⟩) :
    Build.Twin ρ { settings, supply := s } { settings, supply := s' } :=
  ⟨rfl, .nil, rfl, numbers⟩

theorem plan (twin : v.Twin ρ v') (settings : Settings)
    (numbers : ∀ k, ρ.source ⟨s.aliases + k⟩ ⟨s'.aliases + k⟩) :
    ((v.plan settings).run s).1.Twin ρ ((v'.plan settings).run s').1 :=
  (twin.body twin.template.tokenSet true (started settings numbers)).plan twin.template

theorem countedBody (twin : v.Twin ρ v') {b b' : Build} (builds : b.Twin ρ b') :
    Build.TwinBodies ρ (v.countedBody.run b) (v'.countedBody.run b') := by
  have nothing : (AscendingSet.empty : TokenSet).Twin ρ .empty := List.Forall₂.nil
  have below := twin.body nothing false builds
  rw [View.countedBody, View.countedBody, StateT.run_bind, StateT.run_bind]
  show Build.TwinBodies ρ ((Building.bracketOn .aggregate _ .empty).run _)
    ((Building.bracketOn .aggregate _ .empty).run _)
  rw [Build.run_bracketOn, Build.run_bracketOn]
  exact below.build.bracketIf below.body nothing (congrArg (·.meets .aggregate) below.body.state)

theorem countPlan (twin : v.Twin ρ v') (settings : Settings)
    (numbers : ∀ k, ρ.source ⟨s.aliases + k⟩ ⟨s'.aliases + k⟩)
    (counters : ρ.token ⟨s.tokens⟩ ⟨s'.tokens⟩) :
    ((v.countPlan settings).run s).1.Twin ρ ((v'.countPlan settings).run s').1 := by
  apply (twin.countedBody (started settings numbers)).plan
  apply List.Forall₂.cons _ .nil
  have text : Fragment.Twin ρ (Fragment.verbatim "count(*)") (Fragment.verbatim "count(*)") :=
    .cons (.verbatim _) .nil
  have paired : ρ.token ⟨(v.countedBody.run { settings, supply := s }).2.supply.tokens⟩
      ⟨(v'.countedBody.run { settings, supply := s' }).2.supply.tokens⟩ := by
    rw [tokens_countedBody, tokens_countedBody]
    exact counters
  exact ⟨paired, text⟩

end View.Twin

/-- The same text for the same parameters, and the same values for any row. -/
structure Query.Same (q q' : Query) : Prop where
  sql : q.sql = q'.sql
  params : q.params = q'.params
  decisions : q.decisions = q'.decisions
  decode : ∀ row, q.reader.decode row = q'.reader.decode row

theorem Plan.Twin.write {p p' : Plan} (twin : p.Twin ρ p') (style : Style)
    (textual : style.dialect.Textual) :
    (p.write style).sql = (p'.write style).sql ∧ (p.write style).params = (p'.write style).params ∧
      (p.write style).decisions = (p'.write style).decisions := by
  obtain ⟨text, rendering⟩ := twin.statement.render textual {} {} ⟨.nil, rfl⟩
  exact ⟨text, rendering.params, twin.decisions⟩

mutual

/-- Only the shape of a template counts for what values are put into. -/
theorem Template.refill_modifyColumns (f : Column → Column) : ∀ (t : Template) (values : List Json),
    (t.modifyColumns f).refill values = t.refill values
  | .column _, _ => rfl
  | .list items, values => by
    rw [Template.modifyColumns, Template.refill, Template.refill,
      Template.refillItems_modifyItems f items]
  | .record fields, values => by
    rw [Template.modifyColumns, Template.refill, Template.refill,
      Template.refillFields_modifyFields f fields]

theorem Template.refillItems_modifyItems (f : Column → Column) :
    ∀ (items : List Template) (values : List Json),
      Template.refillItems (Template.modifyItems f items) values =
        Template.refillItems items values
  | [], _ => rfl
  | t :: rest, values => by
    simp only [Template.modifyItems, Template.refillItems, Template.refill_modifyColumns f t,
      Template.refillItems_modifyItems f rest]

theorem Template.refillFields_modifyFields (f : Column → Column) :
    ∀ {keys : List String} (fields : Fields Template keys) (values : List Json),
      Template.refillFields (Template.modifyFields f fields) values =
        Template.refillFields fields values
  | _, .nil, _ => rfl
  | _, .cons key t rest _, values => by
    simp only [Template.modifyFields, Template.refillFields, Template.refill_modifyColumns f t,
      Template.refillFields_modifyFields f rest]

end

namespace RowReader
variable {τ : Renaming} {r : RowReader}

def rename (τ : Renaming) (r : RowReader) : RowReader :=
  ⟨r.template.rename τ, r.names.map fun entry => (τ.token entry.1, entry.2)⟩

theorem lookup_rename {names : List (TokenId × String)} {id : TokenId}
    (apart : ∀ entry ∈ names, τ.token id = τ.token entry.1 → id = entry.1) :
    (names.map fun entry => (τ.token entry.1, entry.2)).lookup (τ.token id) = names.lookup id := by
  induction names with
  | nil => rfl
  | cons entry rest ih =>
    obtain ⟨here, later⟩ := List.forall_mem_cons.1 apart
    have equal : (τ.token id == τ.token entry.1) = (id == entry.1) := by
      rw [Bool.eq_iff_iff, beq_iff_eq, beq_iff_eq]
      exact ⟨here, fun same => congrArg τ.token same⟩
    rw [List.map_cons, List.lookup_cons, List.lookup_cons, equal, ih later]

/-- A reader for other identities reads rows alike, if no two of its names fall together. -/
theorem decode_rename (apart : ∀ c ∈ r.template.columns, ∀ entry ∈ r.names,
      τ.token c.token.id = τ.token entry.1 → c.token.id = entry.1) (row : Row) :
    (r.rename τ).decode row = r.decode row := by
  have each : ∀ c ∈ r.template.columns,
      (r.rename τ).decodeColumn row (c.rename τ) = r.decodeColumn row c := by
    intro c inside
    have name : (r.rename τ).nameOf (c.rename τ).token.id = r.nameOf c.token.id :=
      congrArg (Option.getD · "") (lookup_rename (apart c inside))
    unfold decodeColumn
    rw [name]
    rfl
  have columns : (r.rename τ).template.columns.map ((r.rename τ).decodeColumn row) =
      r.template.columns.map (r.decodeColumn row) := by
    rw [rename, Template.columns_rename, List.map_map]
    exact List.map_congr_left each
  unfold decode
  rw [columns]
  simp only [rename, Template.rename, Template.refill_modifyColumns]

/-- The reader for the number of rows. -/
def counting (settings : Settings) (id : TokenId) : RowReader where
  template := .column
    (({ token := ⟨id, Fragment.verbatim "count(*)"⟩, nullable := false } : Column).format
      Format.integer)
  names := [(id, settings.columnName 0)]

theorem decode_counting (settings : Settings) (id other : TokenId) (row : Row) :
    (counting settings id).decode row = (counting settings other).decode row := by
  let τ : Renaming := { Renaming.same with token := fun _ => other }
  have renamed : (counting settings id).rename τ = counting settings other := rfl
  rw [← renamed]
  refine (decode_rename (fun c inside entry listed _ => ?_) row).symm
  obtain rfl := List.mem_singleton.1 inside
  obtain rfl := List.mem_singleton.1 listed
  rfl

end RowReader

theorem View.reader_countPlan (v : View) (settings : Settings) (s : Supply) :
    ((v.countPlan settings).run s).1.reader = .counting settings ⟨s.tokens⟩ := by
  have tokens := v.tokens_countedBody { settings, supply := s }
  have kept : (v.countedBody.run { settings, supply := s }).2.settings = settings := by
    rw [countedBody, StateT.run_bind]
    show ((Building.bracketOn .aggregate _ .empty).run _).2.settings = _
    rw [Build.run_bracketOn]
    exact (Build.grows_bracketIf _ _ _ _).settings.trans (v.grows_body _ _ _).settings
  have shape : ((v.countPlan settings).run s).1.reader =
      .counting (v.countedBody.run { settings, supply := s }).2.settings
        ⟨(v.countedBody.run { settings, supply := s }).2.supply.tokens⟩ := rfl
  rw [shape, tokens, kept]

/-- The tokens of the view keep their order, and its sources stay apart. -/
structure Renaming.Faithful (τ : Renaming) (v : View) : Prop where
  rises : ∀ t ∈ v.ids, ∀ u ∈ v.ids, t.index < u.index → (τ.token t).index < (τ.token u).index
  apart : ∀ a ∈ v.aliases, ∀ b ∈ v.aliases, τ.source a = τ.source b → a = b

/-- The supply has handed out all identities of the view. -/
structure Supply.Covers (s : Supply) (v : View) : Prop where
  tokens : ∀ t ∈ v.ids, t.index < s.tokens
  aliases : ∀ a ∈ v.aliases, a.index < s.aliases

namespace Renaming.Faithful
variable {τ : Renaming} {v : View} {s s' : Supply}

theorem rises_iff (faithful : τ.Faithful v) {t u : TokenId} (one : t ∈ v.ids) (two : u ∈ v.ids) :
    t.index < u.index ↔ (τ.token t).index < (τ.token u).index := by
  rcases Nat.lt_trichotomy t.index u.index with below | same | above
  · exact iff_of_true below (faithful.rises t one u two below)
  · obtain rfl : t = u := TokenId.eq_of_rank same
    exact iff_of_false (Nat.lt_irrefl _) (Nat.lt_irrefl _)
  · exact iff_of_false (Nat.lt_asymm above) (Nat.lt_asymm (faithful.rises u two t one above))

theorem token_inj (faithful : τ.Faithful v) {t u : TokenId} (one : t ∈ v.ids) (two : u ∈ v.ids)
    (same : τ.token t = τ.token u) : t = u := by
  have below := faithful.rises_iff one two
  have above := faithful.rises_iff two one
  rw [same] at below above
  apply TokenId.eq_of_rank
  show t.index = u.index
  omega

/-- The identities of a view with the new ones, and those that the two supplies go on with. -/
def pairing (faithful : τ.Faithful v) (covers : s.Covers v) (covers' : s'.Covers (v.rename τ)) :
    Pairing where
  token t u := t ∈ v.ids ∧ u = τ.token t ∨ ∃ k, t = ⟨s.tokens + k⟩ ∧ u = ⟨s'.tokens + k⟩
  source a b := a ∈ v.aliases ∧ b = τ.source a ∨
    ∃ k, a = ⟨s.aliases + k⟩ ∧ b = ⟨s'.aliases + k⟩
  ascends := by
    have old : ∀ t ∈ v.ids, t.index < s.tokens ∧ (τ.token t).index < s'.tokens := fun t inside =>
      ⟨covers.tokens t inside, covers'.tokens _ (View.token_mem_ids_rename inside)⟩
    rintro t t' u u' (⟨one, rfl⟩ | ⟨k, rfl, rfl⟩) (⟨two, rfl⟩ | ⟨m, rfl, rfl⟩)
    · exact faithful.rises_iff one two
    · have bounds := old t one
      simp only
      omega
    · have bounds := old u two
      simp only
      omega
    · simp
  distinguishes := by
    have old : ∀ a ∈ v.aliases, a.index < s.aliases ∧ (τ.source a).index < s'.aliases :=
      fun a inside =>
        ⟨covers.aliases a inside, covers'.aliases _ (View.source_mem_aliases_rename inside)⟩
    rintro a a' b b' (⟨one, rfl⟩ | ⟨k, rfl, rfl⟩) (⟨two, rfl⟩ | ⟨m, rfl, rfl⟩)
    · exact ⟨fun same => congrArg τ.source same, faithful.apart _ one _ two⟩
    · have bounds := old a one
      constructor
      · intro same
        have index : a.index = s.aliases + m := congrArg Alias.index same
        omega
      · intro same
        have index : (τ.source a).index = s'.aliases + m := congrArg Alias.index same
        omega
    · have bounds := old b two
      constructor
      · intro same
        have index : s.aliases + k = b.index := congrArg Alias.index same
        omega
      · intro same
        have index : s'.aliases + k = (τ.source b).index := congrArg Alias.index same
        omega
    · simp

theorem twin (faithful : τ.Faithful v) (covers : s.Covers v) (covers' : s'.Covers (v.rename τ)) :
    v.Twin (faithful.pairing covers covers') (v.rename τ) :=
  View.twin_rename (fun _ inside => .inl ⟨inside, rfl⟩) fun _ inside => .inl ⟨inside, rfl⟩

end Renaming.Faithful

/-- Whatever the supply knows of sources, some supply with the same sources covers the view. -/
theorem Supply.exists_covers {s : Supply} {v : View}
    (known : ∀ a ∈ v.aliases, a.index < s.aliases) :
    ∃ n, Supply.Covers { s with tokens := n } v := by
  have bound : ∀ ids : List TokenId, ∃ n, ∀ t ∈ ids, t.index < n := by
    intro ids
    induction ids with
    | nil => exact ⟨0, fun t none => absurd none List.not_mem_nil⟩
    | cons t rest ih =>
      obtain ⟨n, all⟩ := ih
      refine ⟨max (t.index + 1) n, List.forall_mem_cons.2 ⟨by omega, fun u inside => ?_⟩⟩
      have below := all u inside
      omega
  obtain ⟨n, all⟩ := bound v.ids
  exact ⟨n, all, known⟩

theorem View.allTokens_ids (v : View) : v.AllTokens fun t => t.id ∈ v.ids :=
  allTokens_iff_fragments.2 fun f given =>
    (Fragment.allTokens_ids f).mono fun _ inside => List.mem_flatMap.2 ⟨f, given, inside⟩

theorem View.id_mem_ids {v : View} {settings : Settings} {s : Supply} {entry : TokenId × String}
    (listed : entry ∈ ((v.plan settings).run s).1.reader.names) : entry.1 ∈ v.ids := by
  obtain ⟨named, selected, rfl⟩ := List.mem_map.1 listed
  exact (v.allTokens_ids.template.tokens _ (Build.mem_of_mem_outputNames selected)).self

theorem List.eq_map_of_forall₂ {α β : Type} {R : α → β → Prop} {f : α → β} {l : List α}
    {m : List β} (related : List.Forall₂ R l m) (only : ∀ a ∈ l, ∀ b, R a b → b = f a) :
    m = l.map f := by
  induction related with
  | nil => rfl
  | cons first _ ih =>
    obtain ⟨here, later⟩ := List.forall_mem_cons.1 only
    rw [List.map_cons, here _ first, ih later]

namespace View
variable {τ : Renaming} {v : View} {c : Compiler} {s s' : Supply}

/-- The query for the rows of a renamed view. -/
theorem compile_of_faithful (faithful : τ.Faithful v) (textual : c.dialect.Textual)
    (known : ∀ a ∈ v.aliases, a.index < s.aliases)
    (known' : ∀ a ∈ (v.rename τ).aliases, a.index < s'.aliases) :
    ((c.compile v).run s).1.Same ((c.compile (v.rename τ)).run s').1 ∧
      ((c.compile (v.rename τ)).run s').1.reader = ((c.compile v).run s).1.reader.rename τ := by
  -- no token is minted for the rows, so the tokens may be numbered from anywhere
  obtain ⟨n, covers⟩ := Supply.exists_covers known
  obtain ⟨n', covers'⟩ := Supply.exists_covers known'
  have numbers : ∀ k, (faithful.pairing covers covers').source ⟨s.aliases + k⟩
      ⟨s'.aliases + k⟩ := fun k => .inr ⟨k, rfl, rfl⟩
  have plans := (faithful.twin covers covers').plan c.settings numbers
  obtain ⟨sql, params, decisions⟩ := plans.write c.style textual
  have reader : ((c.compile (v.rename τ)).run s').1.reader =
      ((c.compile v).run s).1.reader.rename τ := by
    have names := List.eq_map_of_forall₂ (f := fun entry => (τ.token entry.1, entry.2)) plans.names
      fun entry listed entry' paired => by
        have inside := id_mem_ids listed
        rcases paired.1 with ⟨-, same⟩ | ⟨k, same, -⟩
        · exact Prod.ext same paired.2.symm
        · have below := covers.tokens _ inside
          have index : entry.1.index = n + k := congrArg TokenId.index same
          have bound : entry.1.index < n := below
          omega
    have template : (v.rename τ).template = v.template.rename τ := template_rename v
    exact congrArg₂ RowReader.mk template names
  refine ⟨⟨sql, params, decisions, fun row => ?_⟩, reader⟩
  rw [reader]
  refine (RowReader.decode_rename (fun col inside entry listed same => ?_) row).symm
  have ofColumn := (v.allTokens_ids.template col inside).self
  exact faithful.token_inj ofColumn (id_mem_ids listed) same

/-- The query for the number of rows of a renamed view. -/
theorem compileCount_of_faithful (faithful : τ.Faithful v) (textual : c.dialect.Textual)
    (covers : s.Covers v) (covers' : s'.Covers (v.rename τ)) :
    ((c.compileCount v).run s).1.Same ((c.compileCount (v.rename τ)).run s').1 := by
  have plans := (faithful.twin covers covers').countPlan c.settings
    (fun k => .inr ⟨k, rfl, rfl⟩) (.inr ⟨0, rfl, rfl⟩)
  obtain ⟨sql, params, decisions⟩ := plans.write c.style textual
  refine ⟨sql, params, decisions, fun row => ?_⟩
  show ((v.countPlan c.settings).run s).1.reader.decode row =
    (((v.rename τ).countPlan c.settings).run s').1.reader.decode row
  rw [reader_countPlan, reader_countPlan]
  exact RowReader.decode_counting _ _ _ _

theorem faithful_same (v : View) : Renaming.same.Faithful v :=
  ⟨fun _ _ _ _ below => below, fun _ _ _ _ same => same⟩

/-- Compiled text does not depend on identities. -/
theorem compile_rename (faithful : τ.Faithful v) (textual : c.dialect.Textual)
    (known : ∀ a ∈ v.aliases, a.index < s.aliases)
    (known' : ∀ a ∈ (v.rename τ).aliases, a.index < s'.aliases) :
    let rows := ((c.compile v).run s).1
    let rows' := ((c.compile (v.rename τ)).run s').1
    let count := ((c.compileCount v).run s).1
    let count' := ((c.compileCount (v.rename τ)).run s').1
    (rows.Same rows' ∧ rows'.reader = rows.reader.rename τ) ∧
      (s.Covers v → s'.Covers (v.rename τ) → count.Same count' ∧
        ∃ name, count.reader.names = [(⟨s.tokens⟩, name)] ∧
          count'.reader.names = [(⟨s'.tokens⟩, name)]) ∧
      ∀ later, s.Before later → rows.Same ((c.compile v).run later).1 ∧
        (s.Covers v → count.Same ((c.compileCount v).run later).1) := by
  refine ⟨compile_of_faithful faithful textual known known', ?count, ?again⟩
  case count =>
    intro covers covers'
    refine ⟨compileCount_of_faithful faithful textual covers covers', c.settings.columnName 0, ?_⟩
    constructor
    · exact congrArg RowReader.names (v.reader_countPlan c.settings s)
    · exact congrArg RowReader.names ((v.rename τ).reader_countPlan c.settings s')
  case again =>
    intro later before
    have knownLater : ∀ a ∈ (v.rename .same).aliases, a.index < later.aliases := by
      rw [rename_same]
      exact fun a inside => Nat.lt_of_lt_of_le (known a inside) before.aliases
    have rows := compile_of_faithful (faithful_same v) textual known knownLater
    rw [rename_same] at rows
    refine ⟨rows.1, fun covers => ?_⟩
    have coversLater : later.Covers (v.rename .same) := by
      rw [rename_same] at knownLater ⊢
      exact ⟨fun t inside => Nat.lt_of_lt_of_le (covers.tokens t inside) before.tokens, knownLater⟩
    have count := compileCount_of_faithful (faithful_same v) textual covers coversLater
    rw [rename_same] at count
    exact count

/-- Other numbers for tokens, in their order, and sources the other way round. -/
def reversing : Renaming := ⟨fun t => ⟨2 * t.index + 1⟩, fun a => ⟨7 - a.index⟩⟩

/-- The owners are joined with some of their pets and cut off, so two subqueries are numbered. -/
theorem compile_rename_laterOwners :
    let c : Compiler := {}
    let rows := ((c.compile laterOwners).run ⟨2, 2, 0⟩).1
    rows.Same ((c.compile (laterOwners.rename reversing)).run ⟨40, 8, 0⟩).1 ∧
      ((c.compileCount laterOwners).run ⟨2, 2, 0⟩).1.Same
        ((c.compileCount (laterOwners.rename reversing)).run ⟨40, 8, 0⟩).1 ∧
      rows.Same ((c.compile laterOwners).run ⟨9, 5, 0⟩).1 := by
  have faithful : reversing.Faithful laterOwners := ⟨by decide, by decide⟩
  have known : ∀ a ∈ laterOwners.aliases, a.index < (⟨2, 2, 0⟩ : Supply).aliases := by decide
  have known' : ∀ a ∈ (laterOwners.rename reversing).aliases,
      a.index < (⟨40, 8, 0⟩ : Supply).aliases := by decide
  obtain ⟨⟨rows, -⟩, count, again⟩ :=
    compile_rename (c := {}) faithful Dialect.textual_postgres known known'
  have covers : (⟨2, 2, 0⟩ : Supply).Covers laterOwners := ⟨by decide, known⟩
  have covers' : (⟨40, 8, 0⟩ : Supply).Covers (laterOwners.rename reversing) :=
    ⟨by decide, known'⟩
  exact ⟨rows, (count covers covers').1, (again ⟨9, 5, 0⟩ ⟨by decide, by decide⟩).1⟩

end View
end QueryViews
