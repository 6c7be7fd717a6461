import Mathlib.Data.List.Forall2
import QueryViews.Proofs.Clauses.Nesting
import QueryViews.Proofs.Fragment.SpelledOut
import QueryViews.Proofs.Meaning.Selection
import QueryViews.Proofs.Meaning.Values

/-! Compiling keeps the meaning of row pipelines. Every row of such a view comes from one record
of its table, and the tokens of the row have the values that their definitions have on that
record. The invariant says so of the source that a body reads, with the records it reads and how
each of them is seen there; what the body selects of them are the rows of the view. -/

namespace QueryViews

section
variable {V : Type} {I : Interpretation V} {contents : Fragment → List (Record V)} {table : Alias}
  {definitions : TokenId → Fragment}

/-- The body reads one record for each of these rows of the table, and every token it shows has
the value of its definition there. -/
structure Carries (I : Interpretation V) (contents : Fragment → List (Record V)) (table : Alias)
    (definitions : TokenId → Fragment) (st : Standing) (body : Body) (b : Build)
    (rows : List (Record V)) (seen : Record V → Record V) : Prop where
  source : ∀ r, (body.source.expanded r).records? I contents = some (rows.map seen)
  direct : ∀ id, st.table = some id → id = table ∧ ∀ row, seen row = row
  shown : ∀ id ∈ st.shown, ∀ name,
    b.redirects.lookup id = some (Fragment.column body.source.id name) →
      ∀ row, seen row name = I.eval table (definitions id) row
  plain : body.isPlain = true
  written : ∀ f ∈ body.fragments, f.visible st.toSight = true ∧ I.Inlines f ∧
    f.AllTokens fun t => t.definition = definitions t.id

namespace Carries
variable {st : Standing} {issued : Supply} {body : Body} {b : Build} {rows : List (Record V)}
  {seen : Record V → Record V}

theorem ungrouped (carries : Carries I contents table definitions st body b rows seen) :
    body.grouped = false := by
  have parts := carries.plain
  simp only [Body.isPlain, Bool.and_eq_true, Bool.not_eq_true'] at parts
  exact parts.1.2

/-- Once expanded, a visible expression has the value on the source that it has on the table. -/
theorem eval_expand (carries : Carries I contents table definitions st body b rows seen)
    (describes : st.Describes issued body b) {f : Fragment}
    (visible : f.visible st.toSight = true) (inlines : I.Inlines f)
    (follows : f.AllTokens fun t => t.definition = definitions t.id) (row : Record V) :
    I.eval body.source.id (b.redirects.expand f) (seen row) = I.eval table f row := by
  let known : TokenRow V := fun id =>
    if id ∈ st.shown then some (I.eval table (definitions id) row) else none
  have written : Fragment.pieces (fun _ => none) (I.reading body.source.id (seen row))
      (f.substitute b.redirects.lookup) = f.pieces known (I.reading table row) := by
    refine Fragment.pieces_substitute ?_ ?_ ?_ visible
    · intro id isShown
      obtain ⟨name, stands, -⟩ := describes.shown id isShown
      refine ⟨_, name, stands, ?_⟩
      simp [known, isShown, Interpretation.reading, carries.shown id isShown name stands]
    · intro id notShown notHidden
      exact ⟨describes.fresh id notShown notHidden, by simp [known, notShown]⟩
    · intro source isTable
      obtain ⟨same, -⟩ := describes.direct source isTable
      obtain ⟨rfl, identical⟩ := carries.direct source isTable
      rw [same, identical]
  rw [Interpretation.eval, Redirects.expand_of_flat describes.flat, written, Interpretation.eval]
  refine inlines _ known (follows.mono fun t same v value => ?_)
  have isShown : t.id ∈ st.shown := by
    by_contra absent
    simp [known, absent] at value
  simp only [known, isShown, if_true] at value
  rw [← Option.some.inj value, same, Interpretation.eval]

theorem select_expanded (carries : Carries I contents table definitions st body b rows seen)
    (describes : st.Describes issued body b) :
    (body.expanded b.redirects).select I (I.eval body.source.id) (rows.map seen) =
      (body.select I (I.eval table) rows).map seen := by
  have same : ∀ f ∈ body.fragments, ∀ row,
      I.eval body.source.id (b.redirects.expand f) (seen row) = I.eval table f row := by
    intro f member row
    obtain ⟨visible, inlines, follows⟩ := carries.written f member
    exact carries.eval_expand describes visible inlines follows row
  refine Body.select_expanded (fun f member => same f ?_) (fun item member => same item.expr ?_) rows
  · simp [Body.fragments, member]
  · simp only [Body.fragments, List.mem_append]
    exact .inr (List.mem_map_of_mem member)

/-- The records of a statement made of the body are what its select list makes of the rows that
the body selects. -/
theorem records_statement (carries : Carries I contents table definitions st body b rows seen)
    (describes : st.Describes issued body b) (targets : List Token) :
    (b.statement body targets).1.records? I contents =
      some ((body.select I (I.eval table) rows).map fun row =>
        I.output body.source.id (b.statement body targets).1.columns (seen row)) := by
  have plain : (body.expanded b.redirects).isPlain = true := by
    have parts := carries.plain
    simp only [Body.isPlain, Body.expanded, List.isEmpty_map] at parts ⊢
    exact parts
  have whole : (b.statement body targets).1.body = body.expanded b.redirects := rfl
  have source : (body.expanded b.redirects).source = body.source.expanded b.redirects := rfl
  rw [Statement.records?_eq, whole, if_pos plain, source, Source.id_expanded,
    carries.source b.redirects, Option.map_some, carries.select_expanded describes, List.map_map]
  rfl

/-- A token's value stands under the name it was selected with. -/
theorem output_statement (carries : Carries I contents table definitions st body b rows seen)
    (describes : st.Describes issued body b) {targets : List Token}
    (readable : ∀ t ∈ targets, t.visible st.toSight = true ∧ I.Inlines t.toFragment ∧
      t.AllTokens fun u => u.definition = definitions u.id)
    {id : TokenId} {name : String} (found : (b.statement body targets).2.lookup id = some name)
    (row : Record V) :
    I.output body.source.id (b.statement body targets).1.columns (seen row) name =
      I.eval table (definitions id) row := by
  obtain ⟨t, listed, rfl, selected⟩ := Build.column_of_lookup found
  obtain ⟨visible, inlines, follows⟩ := readable t (Token.mem_distinct listed)
  have names : (((b.statement body targets).1.columns.map fun c =>
      (c.name, I.eval body.source.id c.expr (seen row))).map Prod.fst).Nodup := by
    have all := Build.nodup_outputNames b.settings targets
    rw [Build.columns_eq, List.map_map, List.map_map]
    exact all
  have value := carries.eval_expand describes (Token.visible_toFragment.2 visible) inlines
    (Fragment.allTokens_toFragment.2 follows) row
  rw [Interpretation.output, lookup_eq_some_of_mem names (List.mem_map.2 ⟨_, selected, rfl⟩),
    Option.getD_some, ← follows.self, ← I.eval_toFragment]
  exact value

theorem ofTable (text : Fragment) (untouched : b.redirects = {}) :
    Carries I contents table definitions (.ofTable table) (.ofTable (b.redirects.expand text) table)
      b (contents (({} : Redirects).expand text)) fun row => row where
  source r := by
    have written := r.expand_of_spelledOut (Redirects.spelledOut_expand {} text)
    rw [untouched, List.map_id']
    exact congrArg (fun f => some (contents f)) written
  direct id isTable := ⟨(Option.some.inj isTable).symm, fun _ => rfl⟩
  shown _ none := absurd none List.not_mem_nil
  plain := rfl
  written _ none := absurd none List.not_mem_nil

theorem noted (carries : Carries I contents table definitions st body b rows seen)
    (label : Option String) (state : ClauseSet) :
    Carries I contents table definitions st body (b.noted label state) rows seen :=
  { carries with }

/-- A bracket reads the rows that its subquery selects. -/
theorem bracket (carries : Carries I contents table definitions st body b rows seen)
    (describes : st.Describes issued body b) {needs : TokenSet}
    (readable : ∀ t ∈ needs.toList, t.visible st.toSight = true ∧ I.Inlines t.toFragment ∧
      t.AllTokens fun u => u.definition = definitions u.id) :
    Carries I contents table definitions (st.bracket needs)
      (.ofSource (.subquery (b.statement body needs.toList).1 b.nextAlias))
      (b.bracketed body needs.toList) (body.select I (I.eval table) rows) fun row =>
        I.output body.source.id (b.statement body needs.toList).1.columns (seen row) where
  source _ := carries.records_statement describes needs.toList
  direct _ none := nomatch none
  shown id isShown name stands row := by
    obtain ⟨t, needed, rfl⟩ := List.mem_map.1 isShown
    obtain ⟨output, found⟩ : ∃ output, (b.statement body needs.toList).2.lookup t.id = some output :=
      Build.exists_lookup needed
    rw [Build.lookup_bracketed, found] at stands
    cases stands
    exact carries.output_statement describes readable found row
  plain := rfl
  written _ none := absurd none List.not_mem_nil

theorem extend (carries : Carries I contents table definitions st body b rows seen)
    {s : Step} {observed : Bool} (rowwise : s.Rowwise) (fits : s.Fits body.state)
    (written : ∀ f ∈ s.written observed, f.visible st.toSight = true ∧ I.Inlines f ∧
      f.AllTokens fun t => t.definition = definitions t.id) :
    Carries I contents table definitions (st.extend s observed) (s.extend observed body) b rows
      seen where
  source := by
    rw [Step.source_extend]
    exact carries.source
  direct := carries.direct
  shown := by
    rw [Step.source_extend]
    exact carries.shown
  plain := by
    have parts := carries.plain
    cases s with
    | filter condition =>
      rw [Step.extend, Body.addCondition, if_neg (Bool.eq_false_iff.1 carries.ungrouped)]
      exact parts
    | order items =>
      cases observed with
      | true => exact parts
      | false => exact parts
    | take | skip | project | bracket => exact parts
    | group => exact absurd rowwise not_false
  written f member := by
    rcases (Step.mem_fragments_extend fits f).1 member with earlier | added
    · exact carries.written f earlier
    · exact written f added

/-- Making room for a row step and adding it keeps what the step keeps of the rows so far. -/
theorem step (carries : Carries I contents table definitions st body b rows seen)
    (describes : st.Describes issued body b) {s : Step} {observed : Bool} (rowwise : s.Rowwise)
    (roomy : s.HasRoom body.skip) {needs : TokenSet}
    (readable : ∀ t ∈ needs.toList, t.visible st.toSight = true ∧ I.Inlines t.toFragment ∧
      t.AllTokens fun u => u.definition = definitions u.id)
    (written : ∀ f ∈ s.written observed,
      f.visible (if s.brackets observed st.clauses then st.bracket needs else st).toSight = true ∧
        I.Inlines f ∧ f.AllTokens fun t => t.definition = definitions t.id) :
    let room := (Building.makeRoom s observed body needs).run b
    ∃ kept shape, Carries I contents table definitions (st.step s observed needs)
        (s.extend observed room.1) room.2 kept shape ∧
      (s.extend observed room.1).select I (I.eval table) kept =
        s.keepIf observed I (I.eval table) (body.select I (I.eval table) rows) := by
  rw [Building.run_makeRoom, describes.state, Standing.step]
  cases decided : s.brackets observed st.clauses with
  | true =>
    rw [decided, if_pos rfl] at written
    rw [if_pos rfl, if_pos rfl, Building.run_bracket]
    refine ⟨_, _, ((carries.noted s.label st.clauses).bracket (describes.noted _ _)
      readable).extend rowwise s.fits_empty written, ?_⟩
    rw [Step.select_extend rowwise (roomy.of_le (Nat.zero_le _)) (.inr rfl) rfl,
      Body.select_ofSource]
  | false =>
    have clear : s.brackets observed body.state = false := describes.state ▸ decided
    rw [decided, if_neg Bool.false_ne_true] at written
    rw [if_neg Bool.false_ne_true, if_neg Bool.false_ne_true]
    exact ⟨rows, seen, (carries.noted _ _).extend rowwise (Step.fits_of_not_brackets clear) written,
      Step.select_extend rowwise roomy (.inl clear) carries.ungrouped _ rows⟩

end Carries

/-- The row of a view that comes from one record of its table. -/
def Interpretation.rowOf (I : Interpretation V) (table : Alias) (template : Template)
    (record : Record V) : TokenRow V :=
  template.row fun c => I.eval table c.toFragment record

theorem Template.row_congr {t : Template} {one two : Column → V}
    (agree : ∀ c ∈ t.columns, one c = two c) : t.row one = t.row two := by
  funext id
  rw [row, row]
  refine Option.map_congr fun c found => agree c ?_
  exact List.mem_of_find?_eq_some found

theorem Interpretation.inlines_of_column (I : Interpretation V) {t : Token} {source : Alias}
    {name : String} (column : t.definition = Fragment.column source name) :
    I.Inlines t.toFragment := by
  intro columns known follows
  have written := (Fragment.allTokens_toFragment.1 follows).self
  cases found : known t.id with
  | none =>
    rw [Fragment.pieces_toFragment_of_unknown found, Fragment.pieces_toFragment_of_unknown rfl,
      column]
    rfl
  | some v =>
    have single : t.toFragment.pieces known columns = [.value v] := by
      simp [Token.toFragment, Token.toSegment, Fragment.pieces, Segment.pieces, found]
    rw [single, I.value_single, Fragment.pieces_toFragment_of_unknown rfl]
    exact written v found

variable {supply : Supply} {template : Template}

/-- The row has a value for each token of the template: the one of its definition. -/
theorem Interpretation.rowOf_eq_some (ofTemplate : template.AllTokens (Token.IssuedBy definitions supply))
    {c : Column} (inside : c ∈ template.columns) (record : Record V) :
    I.rowOf table template record c.token.id =
      some (I.eval table (definitions c.token.id) record) := by
  cases found : template.columns.find? fun other => other.token.id = c.token.id with
  | none => exact absurd (List.find?_eq_none.1 found c inside) (by simp)
  | some other =>
    have same : other.token.id = c.token.id := by simpa using List.find?_some found
    have ofOther := (ofTemplate other (List.mem_of_find?_eq_some found)).self
    rw [rowOf, Template.row, found, Option.map_some, Column.toFragment, I.eval_toFragment,
      ofOther.definition, same]

/-- An expression in reach of a view has the same value on its row as on the record. -/
theorem Interpretation.evalRow_rowOf
    (ofTemplate : template.AllTokens (Token.IssuedBy definitions supply)) {f : Fragment}
    (ofExpr : f.AllTokens (Token.IssuedBy definitions supply))
    (reached : f.inReach template.scope = true) (inlines : I.Inlines f) (record : Record V) :
    I.evalRow f (I.rowOf table template record) = I.eval table f record := by
  have held : ∀ id, template.scope.contains id = true →
      (I.rowOf table template record id).isSome = true := by
    intro id inScope
    obtain ⟨c, inside, rfl⟩ := Template.contains_scope.1 inScope
    rw [I.rowOf_eq_some ofTemplate inside, Option.isSome_some]
  rw [evalRow, Fragment.pieces_of_reach held _ (I.reading table record) reached, eval]
  refine inlines _ _ (ofExpr.mono fun t made v value => ?_)
  obtain ⟨c, found, rfl⟩ := Option.map_eq_some_iff.1 value
  have same : c.token.id = t.id := by simpa using List.find?_some found
  have ofColumn := (ofTemplate c (List.mem_of_find?_eq_some found)).self
  obtain rfl := Token.eq_of_issued ofColumn made same
  exact I.eval_toFragment c.token table record

/-- A row step on the rows of a view is the step on the records that they come from. -/
theorem Step.rows?_rowOf {s : Step} {v : View} (rowwise : s.Rowwise) (fits : s.Accepted v.scope)
    (ofTemplate : v.template.AllTokens (Token.IssuedBy definitions supply))
    (ofStep : s.AllTokens (Token.IssuedBy definitions supply))
    (inlines : ∀ f ∈ s.fragments, I.Inlines f) (records : List (Record V)) :
    s.rows? I (records.map (I.rowOf table v.template)) =
      some ((s.keep I (I.eval table) records).map (I.rowOf table (s.onto v).template)) := by
  have value : ∀ f ∈ s.fragments, ∀ record,
      I.evalRow f (I.rowOf table v.template record) = I.eval table f record := fun f member =>
    I.evalRow_rowOf ofTemplate (ofStep f member) (fits.fragments ofStep f member) (inlines f member)
  cases s with
  | filter condition =>
    have same := value condition (List.mem_singleton_self _)
    simp only [rows?, keep, List.filter_map, Function.comp_def, same]
    rfl
  | project template =>
    simp only [rows?, keep, List.map_map]
    refine congrArg some (List.map_congr_left fun record _ => Template.row_congr fun c inside => ?_)
    exact value c.toFragment (List.mem_map_of_mem inside) record
  | order items =>
    have compare : ∀ one two, I.rowPrecedes I.evalRow items (I.rowOf table v.template one)
        (I.rowOf table v.template two) = I.rowPrecedes (I.eval table) items one two := by
      have identical : items.map (SortKey.map id) = items := List.map_id items
      rw [← congrArg (I.rowPrecedes I.evalRow) identical]
      exact I.rowPrecedes_map fun item listed => value item.expr (List.mem_map_of_mem listed)
    simp only [rows?, keep]
    exact congrArg some (List.map_mergeSort fun a _ b _ => (compare a b).symm).symm
  | take count => simp only [rows?, keep, List.map_take]; rfl
  | skip count => simp only [rows?, keep, List.map_drop]; rfl
  | bracket => rfl
  | group => exact absurd rowwise not_false

/-- A row step finds what it needs in a body that serves it: the needed tokens are columns of the
view, and what the step writes stays in sight. -/
theorem Carries.step_onto {st : Standing} {issued : Supply} {body : Body} {b : Build}
    {rows : List (Record V)} {seen : Record V → Record V} {s : Step} {v : View} {used : TokenSet}
    {observed : Bool} (carries : Carries I contents table definitions st body b rows seen)
    (describes : st.Describes issued body b) (rowwise : s.Rowwise) (roomy : s.HasRoom body.skip)
    (serves : st.Serves v (s.needs observed v.scope used)) (fits : s.Accepted v.scope)
    (kept : ¬ s.Recalls v) (ofTemplate : v.template.AllTokens (Token.IssuedBy definitions supply))
    (ofStep : s.AllTokens (Token.IssuedBy definitions supply))
    (ofUsed : ∀ t ∈ used.toList, t.AllTokens (Token.IssuedBy definitions supply))
    (held : ∀ t ∈ used.toList, (s.onto v).scope.contains t.id = true)
    (columns : ∀ c ∈ v.template.columns, I.Inlines c.toFragment)
    (inlines : ∀ f ∈ s.fragments, I.Inlines f) :
    let needs := s.needs observed v.scope used
    let room := (Building.makeRoom s observed body needs).run b
    ∃ kept shape, Carries I contents table definitions (st.step s observed needs)
        (s.extend observed room.1) room.2 kept shape ∧
      (s.extend observed room.1).select I (I.eval table) kept =
        s.keepIf observed I (I.eval table) (body.select I (I.eval table) rows) := by
  have ofNeeds := ofStep.needs observed ofUsed v.scope
  have readable : ∀ t ∈ (s.needs observed v.scope used).toList,
      t.visible st.toSight = true ∧ I.Inlines t.toFragment ∧
        t.AllTokens fun u => u.definition = definitions u.id := by
    intro t member
    obtain ⟨c, inside, same⟩ := Template.contains_scope.1 (ofNeeds t member).2
    obtain rfl := Token.eq_of_issued (ofTemplate c inside).self (ofNeeds t member).1.self same
    exact ⟨serves.visible _ member, columns c inside,
      (ofNeeds _ member).1.mono fun u made => made.definition⟩
  have whole := serves.step fits kept ofStep ofUsed held
  have written := List.all_eq_true.1 (Bool.and_eq_true_iff.1 whole.sound).2
  refine carries.step describes rowwise roomy readable fun f member => ?_
  have given := Step.mem_fragments_of_written observed member
  exact ⟨written f member, inlines f given, (ofStep f given).mono fun t made => made.definition⟩

namespace View
variable {text : Fragment} {id : Alias} {steps : List Step} {v : View}

/-- The rows of a view made by row steps come from the records of its table that the steps keep. -/
theorem foldlM_rows? (ofTable : template.AllTokens (Token.IssuedBy definitions supply))
    (issued : ∀ s ∈ steps, s.AllTokens (Token.IssuedBy definitions supply))
    (rowwise : ∀ s ∈ steps, s.Rowwise)
    (inlines : ∀ s ∈ steps, ∀ f ∈ s.fragments, I.Inlines f)
    (made : (View.table text id template).applyAll steps = .ok v) (records : List (Record V)) :
    steps.foldlM (Step.rows? I) (records.map (I.rowOf id template)) =
      some ((Step.keepAll I (I.eval id) steps records).map (I.rowOf id v.template)) := by
  induction made using applyAll_induction with
  | nil => rfl
  | concat steps s v before fits ih =>
    obtain ⟨earlier, latest⟩ := List.forall_mem_append.1 issued
    obtain ⟨rowsBefore, rowLast⟩ := List.forall_mem_append.1 rowwise
    obtain ⟨inlinesBefore, inlinesLast⟩ := List.forall_mem_append.1 inlines
    have self := List.mem_singleton_self s
    rw [List.foldlM_append, ih earlier rowsBefore inlinesBefore, Step.keepAll_concat]
    show (s.rows? I ((Step.keepAll I (I.eval id) steps records).map
      (I.rowOf id v.template))).bind some = _
    rw [Step.rows?_rowOf (rowLast s self) fits (allTokens_template (by exact ofTable) earlier before)
      (latest s self) (inlinesLast s self), Option.bind_some]

theorem inlines_columns
    (declared : ∀ c ∈ template.columns, ∃ name, c.token.definition = Fragment.column id name)
    (inlines : ∀ s ∈ steps, ∀ f ∈ s.fragments, I.Inlines f)
    (made : (View.table text id template).applyAll steps = .ok v) :
    ∀ c ∈ v.template.columns, I.Inlines c.toFragment := by
  induction made using applyAll_induction with
  | nil =>
    intro c inside
    obtain ⟨name, column⟩ := declared c inside
    exact I.inlines_of_column column
  | concat steps s v before fits ih =>
    obtain ⟨earlier, latest⟩ := List.forall_mem_append.1 inlines
    intro c inside
    exact (Step.mem_columns_onto inside).elim (latest s (List.mem_singleton_self s) _)
      (ih earlier c)

/-- The rows below a skip are built in their order, whatever is observed above it, so what they skip
is known from the steps. -/
theorem hasRoom_body {s : Step} {observed : Bool}
    (made : (View.table text id template).applyAll steps = .ok v)
    (room : s.HasRoom (Outline.run steps).skipped) (used : TokenSet) (b : Build) :
    s.HasRoom ((v.body used (s.observes observed)).run b).1.skip := by
  cases s with
  | skip count =>
    obtain ⟨free, rfl⟩ := steps_of_applyAll made
    have known : ((v.body used true).run b).1.skip = (Outline.run v.steps).skipped :=
      congrArg Outline.skipped (outline_body free used b)
    exact (congrArg (Step.HasRoom · (.skip count)) known).mpr room
  | filter | project | group | order | take | bracket => trivial

variable (contents) in
/-- Whatever is used of a view made by row steps, the body built for it selects the records that
the steps keep, in their order if that is observed. -/
theorem exists_selection (known : id.index < supply.aliases)
    (declared : ∀ c ∈ template.columns, ∃ name, c.token.definition = Fragment.column id name)
    (ofTable : template.AllTokens (Token.IssuedBy definitions supply))
    (issued : ∀ s ∈ steps, s.AllTokens (Token.IssuedBy definitions supply))
    (rowwise : ∀ s ∈ steps, s.Rowwise)
    (inlines : ∀ s ∈ steps, ∀ f ∈ s.fragments, I.Inlines f)
    (made : (View.table text id template).applyAll steps = .ok v)
    (kept : (View.table text id template).RecallFree steps) (fit : SkipsFit steps) :
    let records := Step.keepAll I (I.eval id) steps (contents (({} : Redirects).expand text))
    ∀ (used : TokenSet) (observed : Bool) (b : Build),
      (∀ t ∈ used.toList, t.AllTokens (Token.IssuedBy definitions supply)) →
      (∀ t ∈ used.toList, v.scope.contains t.id = true) →
      b.redirects = {} → b.supply = supply →
        let built := (v.body used observed).run b
        ∃ rows seen, Carries I contents id definitions
            ((View.table text id template).standing id steps.reverse used observed)
            built.1 built.2 rows seen ∧
          (built.1.select I (I.eval id) rows).Perm records ∧
          (observed = true → built.1.select I (I.eval id) rows = records) := by
  induction made using applyAll_induction with
  | nil =>
    intro records used observed b _ _ untouched _
    have all := Body.select_ofSource (I := I) (.table (b.redirects.expand text) id) (I.eval id)
      (contents (({} : Redirects).expand text))
    exact ⟨_, _, Carries.ofTable text untouched, .of_eq all, fun _ => all⟩
  | concat steps s v before fits ih =>
    intro records used observed b ofUsed held untouched same
    obtain ⟨earlier, latest⟩ := List.forall_mem_append.1 issued
    obtain ⟨rowsBefore, rowLast⟩ := List.forall_mem_append.1 rowwise
    obtain ⟨inlinesBefore, inlinesLast⟩ := List.forall_mem_append.1 inlines
    obtain ⟨keptBefore, keptLast⟩ := (recallFree_concat before).1 kept
    obtain ⟨fitBefore, roomLast⟩ := Outline.fits_concat.1 fit
    have ofStep := latest s (List.mem_singleton_self s)
    have ofTemplate : v.template.AllTokens (Token.IssuedBy definitions supply) :=
      allTokens_template (by exact ofTable) earlier before
    have ofNeeds := ofStep.needs observed ofUsed v.scope
    have needed : ∀ t ∈ (s.needs observed v.scope used).toList,
        t.AllTokens (Token.IssuedBy definitions supply) := fun t member => (ofNeeds t member).1
    have inScope : ∀ t ∈ (s.needs observed v.scope used).toList,
        v.scope.contains t.id = true := fun t member => (ofNeeds t member).2
    obtain ⟨rows, seen, carries, permuted, selected⟩ :=
      ih earlier rowsBefore inlinesBefore keptBefore fitBefore _ (s.observes observed) b needed
        inScope untouched same
    have describes :=
      describes_standing known earlier before _ (s.observes observed) b needed untouched same
    have serves := serves_standing declared ofTable earlier before keptBefore _
      (s.observes observed) needed inScope
    obtain ⟨rowsAfter, shape, extended, chosen⟩ :=
      carries.step_onto describes (rowLast s (List.mem_singleton_self s))
        (hasRoom_body before roomLast _ b) serves fits keptLast ofTemplate ofStep ofUsed held
        (inlines_columns declared inlinesBefore before)
        (inlinesLast s (List.mem_singleton_self s))
    rw [run_body_onto, List.reverse_concat, standing, ← eq_under_of_applyAll before]
    have last : records = s.keep I (I.eval id)
        (Step.keepAll I (I.eval id) steps (contents (({} : Redirects).expand text))) :=
      Step.keepAll_concat ..
    refine ⟨rowsAfter, shape, extended, ?_, fun seen => ?_⟩
    · rw [chosen, last]
      exact Step.keepIf_perm _ permuted selected
    · rw [chosen, last]
      exact Step.keepIf_eq _ seen selected

variable (contents) in
/-- The rows of a view made by row steps come from some records of its table, and so do those
that a body built for the view selects, whatever is used of it. -/
theorem exists_carries (known : id.index < supply.aliases)
    (declared : ∀ c ∈ template.columns, ∃ name, c.token.definition = Fragment.column id name)
    (ofTable : template.AllTokens (Token.IssuedBy definitions supply))
    (issued : ∀ s ∈ steps, s.AllTokens (Token.IssuedBy definitions supply))
    (rowwise : ∀ s ∈ steps, s.Rowwise)
    (inlines : ∀ s ∈ steps, ∀ f ∈ s.fragments, I.Inlines f)
    (made : (View.table text id template).applyAll steps = .ok v)
    (kept : (View.table text id template).RecallFree steps) (fit : SkipsFit steps) :
    ∃ records : List (Record V),
      steps.foldlM (Step.rows? I)
          ((contents (({} : Redirects).expand text)).map (I.rowOf id template)) =
        some (records.map (I.rowOf id v.template)) ∧
      (∀ c ∈ v.template.columns, I.Inlines c.toFragment) ∧
      ∀ (used : TokenSet) (b : Build),
        (∀ t ∈ used.toList, t.AllTokens (Token.IssuedBy definitions supply)) →
        (∀ t ∈ used.toList, v.scope.contains t.id = true) →
        b.redirects = {} → b.supply = supply →
          let built := (v.body used true).run b
          ∃ rows seen, Carries I contents id definitions
              ((View.table text id template).standing id steps.reverse used true)
              built.1 built.2 rows seen ∧
            built.1.select I (I.eval id) rows = records := by
  have builds :=
    exists_selection contents known declared ofTable issued rowwise inlines made kept fit
  refine ⟨_, foldlM_rows? ofTable issued rowwise inlines made _,
    inlines_columns declared inlines made, fun used b ofUsed held untouched same => ?_⟩
  obtain ⟨rows, seen, carries, -, selected⟩ := builds used true b ofUsed held untouched same
  exact ⟨rows, seen, carries, selected rfl⟩

/-- The statement for the rows of a view made by row steps gives the rows that the steps give,
one after the other, on the rows of the table: as many, in the same order, and with the same
value for every token of the template. -/
theorem records_plan_of_rowwise {settings : Settings} (known : id.index < supply.aliases)
    (declared : ∀ c ∈ template.columns, ∃ name, c.token.definition = Fragment.column id name)
    (ofTable : template.AllTokens (Token.IssuedBy definitions supply))
    (issued : ∀ s ∈ steps, s.AllTokens (Token.IssuedBy definitions supply))
    (rowwise : ∀ s ∈ steps, s.Rowwise)
    (inlines : ∀ s ∈ steps, ∀ f ∈ s.fragments, I.Inlines f)
    (made : (View.table text id template).applyAll steps = .ok v)
    (kept : (View.table text id template).RecallFree steps) (fit : SkipsFit steps) :
    let plan := ((v.plan settings).run supply).1
    let table := contents (({} : Redirects).expand text)
    ∃ records rows, plan.statement.records? I contents = some records ∧
      steps.foldlM (Step.rows? I) (table.map (I.rowOf id template)) = some rows ∧
      List.Forall₂ (fun record row => ∀ c ∈ v.template.columns,
        row c.token.id = some (record (plan.reader.nameOf c.token.id))) records rows := by
  intro plan table
  have ofTemplate : v.template.AllTokens (Token.IssuedBy definitions supply) :=
    allTokens_template (by exact ofTable) issued made
  obtain ⟨records, folded, columns, builds⟩ :=
    exists_carries contents known declared ofTable issued rowwise inlines made kept fit
  have held : ∀ t ∈ v.template.tokenSet.toList, v.scope.contains t.id = true :=
    fun t member => Template.contains_of_mem_tokenSet member
  have describes := describes_standing known issued made v.template.tokenSet true
    { settings, supply } ofTemplate.tokenSet rfl rfl
  have serves := serves_standing declared ofTable issued made kept v.template.tokenSet true
    ofTemplate.tokenSet held
  obtain ⟨rows, seen, carries, selected⟩ :=
    builds v.template.tokenSet { settings, supply } ofTemplate.tokenSet held rfl rfl
  have readable : ∀ t ∈ v.template.tokens, t.visible (standing (.table text id template) id
      steps.reverse v.template.tokenSet true).toSight = true ∧ I.Inlines t.toFragment ∧
      t.AllTokens fun u => u.definition = definitions u.id := by
    intro t listed
    obtain ⟨c, inside, rfl⟩ := List.mem_map.1 (Token.mem_distinct listed)
    exact ⟨serves.visible _ (ofTemplate.mem_tokenSet listed), columns c inside,
      (ofTemplate c inside).mono fun u issued => issued.definition⟩
  refine ⟨_, _, carries.records_statement describes v.template.tokens, folded, ?_⟩
  rw [selected, List.forall₂_map_left_iff, List.forall₂_map_right_iff, List.forall₂_same]
  intro record _ c inside
  obtain ⟨t, listed, same⟩ := Token.exists_mem_distinct (List.mem_map_of_mem inside)
  let built := (v.body v.template.tokenSet true).run { settings, supply }
  obtain ⟨name, found⟩ : ∃ name,
      (built.2.statement built.1 v.template.tokens).2.lookup t.id = some name :=
    Build.exists_lookup listed
  rw [same] at found
  have named : plan.reader.nameOf c.token.id = name := congrArg (·.getD "") found
  rw [I.rowOf_eq_some ofTemplate inside, named,
    ← carries.output_statement describes readable found record]

end View

end

namespace View

/-- The sum of the values, and one for each " + 1". -/
def pieceSum : List (Piece Nat) → Nat
  | [] => 0
  | .value v :: rest => v + pieceSum rest
  | .verbatim text :: rest => (if text = " + 1" then 1 else 0) + pieceSum rest
  | .param _ :: rest => pieceSum rest

theorem pieceSum_append (front back : List (Piece Nat)) :
    pieceSum (front ++ back) = pieceSum front + pieceSum back := by
  induction front with
  | nil => exact (Nat.zero_add _).symm
  | cons piece rest ih =>
    cases piece with
    | value | verbatim => rw [List.cons_append, pieceSum, pieceSum, ih, Nat.add_assoc]
    | param => exact ih

theorem ble_ordered : TotalPreorder Nat.ble where
  trans a b c ab bc := by
    rw [Nat.ble_eq] at *
    exact Nat.le_trans ab bc
  total a b := by
    rw [Bool.or_eq_true, Nat.ble_eq, Nat.ble_eq]
    exact Nat.le_total a b

/-- Expressions are sums, and conditions keep rows where the sum is more than one. -/
def sums : Interpretation Nat where
  value := pieceSum
  value_single v := Nat.add_zero v
  holds v := Nat.blt 1 v
  null := 0
  precedes direction _ a b :=
    match direction with
    | .ascending => Nat.ble a b
    | .descending => Nat.ble b a
  ordered direction _ := by
    cases direction with
    | ascending => exact ble_ordered
    | descending => exact ⟨fun a b c ab bc => ble_ordered.trans c b a bc ab,
        fun a b => ble_ordered.total b a⟩

/-- Up to two orders, the higher bills of them first. -/
def highestBills : List Step :=
  [.project (.ofTokens [("amount", amount), ("billed", billed)]), .take 2,
    .filter (billed.toFragment ++ Fragment.verbatim " > 1"),
    .order [⟨billed.toFragment, .descending, none⟩], .project (.ofTokens [("billed", billed)])]

theorem records_plan_of_rowwise_orders :
    ∃ v, orders.applyAll highestBills = .ok v ∧
      let plan := ((v.plan {}).run { tokens := 2, aliases := 1 }).1
      let table : List (Record Nat) := [fun _ => 0, fun _ => 3, fun _ => 5]
      ∃ records rows, plan.statement.records? sums (fun _ => table) = some records ∧
        highestBills.foldlM (Step.rows? sums)
          (table.map (sums.rowOf ⟨0⟩ (.ofTokens [("amount", amount)]))) = some rows ∧
        List.Forall₂ (fun record row => ∀ c ∈ v.template.columns,
          row c.token.id = some (record (plan.reader.nameOf c.token.id))) records rows := by
  have ofSteps : ∀ s ∈ highestBills, s.AllTokens (Token.IssuedBy orderDefinitions ⟨2, 1, 0⟩) := by
    simp [highestBills, Step.AllTokens, Step.fragments, Column.toFragment,
      Fragment.allTokens_toFragment, amount_issued, billed_issued, Fragment.verbatim,
      Fragment.AllTokens, Segment.AllTokens]
  have rowwise : ∀ s ∈ highestBills, s.Rowwise := by
    simp [highestBills, Step.Rowwise]
  have inlines : ∀ f : Fragment, sums.Inlines f := sums.inlines_of_concat pieceSum_append
  refine ⟨_, rfl, ?_⟩
  exact records_plan_of_rowwise (by decide) orders_declared orders_issued ofSteps rowwise
    (fun _ _ f _ => inlines f) rfl (by decide) (by decide)

end View
end QueryViews
