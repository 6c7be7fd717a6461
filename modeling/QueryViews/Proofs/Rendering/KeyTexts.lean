import QueryViews.Proofs.Rendering.QuestionMarks

/-! Group keys in a text. A SELECT writes its list first and its keys later, and an expression that
stands in both is rendered twice. Sources keep their names from one time to the other, and numbered
parameters do not: so both texts are the same exactly if the expression has no parameter. -/

namespace QueryViews

theorem length_toDigits_le {n m : Nat} (le : n ≤ m) :
    (Nat.toDigits 10 n).length ≤ (Nat.toDigits 10 m).length := by
  have bound : m < 10 ^ (Nat.toDigits 10 m).length :=
    (Nat.length_toDigits_le_iff (by decide) Nat.length_toDigits_pos).1 (Nat.le_refl _)
  exact (Nat.length_toDigits_le_iff (by decide) Nat.length_toDigits_pos).2
    (Nat.lt_of_le_of_lt le bound)

theorem length_join_le {α : Type} {f g : α → String} {parts : List α}
    (longer : ∀ a ∈ parts, (f a).length ≤ (g a).length) :
    (String.join (parts.map f)).length ≤ (String.join (parts.map g)).length := by
  induction parts with
  | nil => exact Nat.le_refl _
  | cons a rest ih =>
    obtain ⟨first, others⟩ := List.forall_mem_cons.1 longer
    simp only [List.map_cons, String.join_cons, String.length_append]
    exact Nat.add_le_add first (ih others)

/-- Where no part is shorter than its counterpart, texts are the same only part by part. -/
theorem eq_of_join_eq {α : Type} {f g : α → String} {parts : List α}
    (longer : ∀ a ∈ parts, (f a).length ≤ (g a).length)
    (same : String.join (parts.map f) = String.join (parts.map g)) : ∀ a ∈ parts, f a = g a := by
  induction parts with
  | nil => exact fun a none => absurd none List.not_mem_nil
  | cons a rest ih =>
    obtain ⟨first, others⟩ := List.forall_mem_cons.1 longer
    simp only [List.map_cons, String.join_cons] at same
    have total := congrArg String.length same
    have tails := length_join_le others
    simp only [String.length_append] at total
    have lists := congrArg String.toList same
    simp only [String.toList_append] at lists
    have heads : (f a).toList.length = (g a).toList.length := by
      rw [String.length_toList, String.length_toList]
      omega
    obtain ⟨head, tail⟩ := List.append_inj lists heads
    exact List.forall_mem_cons.2
      ⟨String.toList_injective head, ih others (String.toList_injective tail)⟩

/-- The piece as it is written once that many more parameters have been numbered. -/
def SqlPiece.later (style : Style) (more : Nat) : SqlPiece → SqlPiece
  | .placeholder index _ => .placeholder (index + more) (style.dialect.placeholder (index + more))
  | .verbatim text => .verbatim text
  | .column source name written => .column source name written
  | .label source written => .label source written

theorem Rendering.placeAlias_of_mem {r : Rendering} {source : Alias} (named : source ∈ r.aliases) :
    r.placeAlias source = (r.aliases.idxOf source, r) := by
  have after : (r.placeAlias source).2 = r := by
    unfold placeAlias
    cases found : r.aliases.idxOf? source with
    | none => exact absurd named (List.idxOf?_eq_none_iff.1 found)
    | some position => rfl
  exact Prod.ext (by rw [position_placeAlias, after]) after

namespace Render
variable {style : Style}

/-- What is written along a script leaves its names and numbers behind. -/
theorem wrote_of_marked {m : Render SqlText} {script : List Passage}
    (along : SqlText.marked <$> m = Passage.writeAll style script) (r : Rendering) :
    Wrote style r (m.run r).2 script (m.run r).1.marked := by
  have wrote : Wrote style r _ _ _ := Wrote.writeAll script r
  rw [← along] at wrote
  exact wrote

theorem params_segment (segment : Segment) (r : Rendering) :
    ((segment.render style).run r).2.params =
      r.params ++ segment.marks.filterMap Mark.param? := by
  have along := (Segment.marked_render style segment).trans (Passage.writeAll_once _).symm
  simpa [Passage.once] using (wrote_of_marked along r).params

theorem wrote_fragment (f : Fragment) (r : Rendering) :
    let written := (Fragment.render style f).run r
    Wrote style r written.2 [.once f.marks] written.1.marked :=
  wrote_of_marked (marked_fragment f) r

theorem params_fragment (f : Fragment) (r : Rendering) :
    ((Fragment.render style f).run r).2.params = r.params ++ f.params := by
  simpa [Passage.once, Fragment.params] using (wrote_fragment f r).params

end Render

section Again
variable {style : Style}

mutual

theorem Segment.render_again : ∀ (segment : Segment) {r later : Rendering} {more : Nat},
    ((segment.render style).run r).2.aliases <+: later.aliases →
      later.params.length = r.params.length + more →
        (segment.render style).run later =
          (((segment.render style).run r).1.map (SqlPiece.later style more),
            { later with params := later.params ++ segment.marks.filterMap Mark.param? })
  | .verbatim text, r, later, more, _, _ => by
    simp only [Segment.marks, List.filterMap_nil, List.append_nil]
    rfl
  | .column source name, r, later, more, named, _ => by
    have known : (r.placeAlias source).2.aliases <+: later.aliases := named
    have same : later.aliases.idxOf source = (r.placeAlias source).1 := by
      obtain ⟨others, extended⟩ := known
      rw [← extended, List.idxOf_append_of_mem (r.mem_placeAlias source), r.position_placeAlias]
    have placed := Rendering.placeAlias_of_mem (known.subset (r.mem_placeAlias source))
    rw [same] at placed
    have again : ((Segment.column source name).render style).run later =
        ([.column source name (style.dialect.qualify
            (style.tableStem ++ toString (later.placeAlias source).1) name)],
          (later.placeAlias source).2) := rfl
    simp only [again, placed, Segment.marks, List.filterMap_cons, Mark.param?, List.filterMap_nil,
      List.append_nil]
    rfl
  | .param value, r, later, more, _, counted => by
    have again : ((Segment.param value).render style).run later =
        ([.placeholder later.params.length (style.dialect.placeholder later.params.length)],
          { later with params := later.params ++ [value] }) := rfl
    rw [again, counted]
    rfl
  | .nested inner, r, later, more, named, counted => by
    exact Fragment.render_again inner named counted
  | .token _ definition, r, later, more, named, counted => by
    exact Fragment.render_again definition named counted

/-- Rendered again, a fragment is written with the same names and with later numbers. -/
theorem Fragment.render_again : ∀ (f : Fragment) {r later : Rendering} {more : Nat},
    ((Fragment.render style f).run r).2.aliases <+: later.aliases →
      later.params.length = r.params.length + more →
        (Fragment.render style f).run later =
          (((Fragment.render style f).run r).1.map (SqlPiece.later style more),
            { later with params := later.params ++ f.params })
  | [], r, later, more, _, _ => by
    simp only [Fragment.params, Fragment.marks, List.filterMap_nil, List.append_nil]
    rfl
  | segment :: rest, r, later, more, named, counted => by
    let first := (segment.render style).run r
    let second := (Fragment.render style rest).run first.2
    have kept : first.2.aliases <+: second.2.aliases :=
      (Render.wrote_fragment rest first.2).within.aliases
    have here := Segment.render_again segment (kept.trans named) counted
    let between : Rendering :=
      { later with params := later.params ++ segment.marks.filterMap Mark.param? }
    have between_counted : between.params.length = first.2.params.length + more := by
      simp only [between, first, Render.params_segment, List.length_append, counted]
      omega
    have between_named : second.2.aliases <+: between.aliases := named
    have others := Fragment.render_again rest between_named between_counted
    have whole : (Fragment.render style (segment :: rest)).run later =
        (((segment.render style).run later).1 ++
            ((Fragment.render style rest).run ((segment.render style).run later).2).1,
          ((Fragment.render style rest).run ((segment.render style).run later).2).2) := rfl
    have params : Fragment.params (segment :: rest) =
        segment.marks.filterMap Mark.param? ++ Fragment.params rest := List.filterMap_append
    rw [whole, here, others, params, ← List.append_assoc, ← List.map_append]
    rfl

end

end Again

/-- Rendered again in the numbered style, with nothing forgotten in between, an expression has the
same text exactly if it has no parameter. -/
theorem Fragment.text_again_iff (stem : String) (f : Fragment) {r later : Rendering}
    (within : ((Fragment.render ⟨.postgres, stem⟩ f).run r).2.Within later) :
    ((Fragment.render ⟨.postgres, stem⟩ f).run r).1.toString =
        ((Fragment.render ⟨.postgres, stem⟩ f).run later).1.toString ↔ f.params = [] := by
  let style : Style := ⟨.postgres, stem⟩
  let pieces := ((Fragment.render style f).run r).1
  let done := ((Fragment.render style f).run r).2
  have wrote : Wrote style r done [.once f.marks] pieces.marked := Render.wrote_fragment f r
  have room := within.params.length_le
  rw [Render.params_fragment, List.length_append] at room
  obtain ⟨more, counted⟩ : ∃ more, later.params.length = r.params.length + more :=
    Nat.exists_eq_add_of_le (by omega)
  rw [Fragment.render_again f within.aliases counted]
  have given : ∀ piece ∈ pieces, piece.isMarked = true → piece.Given style done :=
    fun piece member marked => wrote.given piece (List.mem_filter.2 ⟨member, marked⟩)
  constructor
  · intro same
    have written : ∀ piece ∈ pieces, piece.written = (piece.later style more).written := by
      refine eq_of_join_eq (fun piece member => ?_) ?_
      · cases piece with
        | verbatim | column | label => exact Nat.le_refl _
        | placeholder index written =>
          obtain ⟨-, rfl⟩ := given _ member rfl
          show ("$" ++ toString (index + 1)).length ≤ ("$" ++ toString (index + more + 1)).length
          rw [String.length_append, String.length_append]
          have digits := length_toDigits_le (show index + 1 ≤ index + more + 1 by omega)
          rw [← Nat.toList_repr, ← Nat.toList_repr, String.length_toList,
            String.length_toList] at digits
          exact Nat.add_le_add_left digits _
      · rw [SqlText.toString, SqlText.toString, List.map_map] at same
        exact same
    refine List.eq_nil_iff_forall_not_mem.2 fun value bound => ?_
    -- a piece that stands for a parameter has another number the second time
    have marks : pieces.marked.filterMap (SqlPiece.mark? done.params) = f.marks := by
      simpa [Passage.once, Passage.shown] using wrote.marks
    obtain ⟨mark, marked, read⟩ := List.mem_filterMap.1 bound
    rw [← marks] at marked
    obtain ⟨piece, member, stands⟩ := List.mem_filterMap.1 marked
    have inside := (List.mem_filter.1 member).1
    cases piece with
    | verbatim => cases stands
    | column | label =>
      obtain rfl := Option.some.inj stands
      cases read
    | placeholder index text =>
      have here := written _ inside
      obtain ⟨-, rfl⟩ := given _ inside rfl
      have numbers : index + 1 = index + more + 1 :=
        Settings.columnName_injective { columnStem := "$" } here
      have some : 0 < f.params.length := List.length_pos_of_mem bound
      omega
  · intro none
    have unnumbered : pieces.marked.filterMap SqlPiece.index? = [] := by
      rw [wrote.numbers (by simp [Passage.once])]
      simp only [Fragment.params] at none
      simp [Passage.once, none]
    have same : pieces.map (SqlPiece.later style more) = pieces := by
      refine (List.map_congr_left fun piece member => ?_).trans (List.map_id _)
      cases piece with
      | verbatim | column | label => rfl
      | placeholder index text =>
        have nothing := List.filterMap_eq_nil_iff.1 unnumbered _
          (List.mem_filter.2 ⟨member, rfl⟩)
        cases nothing
    exact congrArg SqlText.toString same.symm

/-- A SELECT, and what has been named and numbered by the time that it is written. -/
structure Site where
  select : Statement
  start : Rendering

section
variable (style : Style)

mutual

def Source.sites : Source → Rendering → List Site
  | .table _ _, _ => []
  | .subquery statement _, r => Statement.sites statement r

def JoinClause.allSites : List JoinClause → Rendering → List Site
  | [], _ => []
  | ⟨_, source, condition⟩ :: rest, r =>
    let joined := ((Source.render style source).run r).2
    let met := ((Fragment.render style condition).run joined).2
    Source.sites source r ++ JoinClause.allSites rest met

/-- The statement and all its subqueries, each where it is written. -/
def Statement.sites : Statement → Rendering → List Site
  | ⟨columns, ⟨source, joins, filters, keys, grouped, having, order, skip, take⟩⟩, r =>
    let listed := ((Render.columns style columns).run r).2
    let sourced := ((Source.render style source).run listed).2
    ⟨⟨columns, ⟨source, joins, filters, keys, grouped, having, order, skip, take⟩⟩, r⟩ ::
      (Source.sites source listed ++ JoinClause.allSites joins sourced)

end

mutual

theorem Source.select_sites : ∀ (source : Source) (r : Rendering),
    (source.sites style r).map Site.select = source.selects
  | .table _ _, _ => rfl
  | .subquery statement _, r => Statement.select_sites statement r

theorem JoinClause.select_allSites : ∀ (joins : List JoinClause) (r : Rendering),
    (JoinClause.allSites style joins r).map Site.select = JoinClause.allSelects joins
  | [], _ => rfl
  | ⟨_, source, condition⟩ :: rest, r => by
    rw [JoinClause.allSites, List.map_append, Source.select_sites source,
      JoinClause.select_allSites rest]
    rfl

theorem Statement.select_sites : ∀ (s : Statement) (r : Rendering),
    (s.sites style r).map Site.select = s.selects
  | ⟨columns, ⟨source, joins, filters, keys, grouped, having, order, skip, take⟩⟩, r => by
    rw [Statement.sites, List.map_cons, List.map_append, Source.select_sites source,
      JoinClause.select_allSites joins]
    rfl

end

namespace Site

/-- The text of the SELECT. -/
def text (site : Site) : SqlText := ((site.select.render style).run site.start).1

/-- The expressions of the select list as they are written, without their names. -/
def listed (site : Site) : List SqlText :=
  ((Render.fragments style (site.select.columns.map OutputColumn.expr)).run site.start).1

/-- What has been named and numbered when it comes to the keys. -/
def beforeKeys (site : Site) : Rendering :=
  let listed := ((Render.columns style site.select.columns).run site.start).2
  let sourced := ((site.select.body.source.render style).run listed).2
  let joined := ((JoinClause.renderAll style site.select.body.joins).run sourced).2
  ((Render.filters style site.select.body.filters).run joined).2

/-- The group keys as they are written. -/
def keys (site : Site) : List SqlText :=
  ((Render.fragments style site.select.body.keys).run (site.beforeKeys style)).1

end Site

theorem infix_append_left {l a : SqlText} (inside : l <:+: a) (b : SqlText) : l <:+: a ++ b :=
  inside.trans (List.prefix_append a b).isInfix

theorem infix_append_right {l b : SqlText} (a : SqlText) (inside : l <:+: b) : l <:+: a ++ b :=
  inside.trans (List.suffix_append a b).isInfix

mutual

theorem Source.infix_of_mem_sites {site : Site} : ∀ {source : Source} {r : Rendering},
    site ∈ source.sites style r → site.text style <:+: ((source.render style).run r).1
  | .table _ _, _, inside => absurd inside List.not_mem_nil
  | .subquery statement id, r, inside => by
    have deeper := Statement.infix_of_mem_sites (s := statement) inside
    refine infix_append_left (infix_append_left ?_ (SqlText.verbatim " as ")) _
    exact infix_append_left (infix_append_right (SqlText.verbatim "(") deeper)
      (SqlText.verbatim ")")

theorem JoinClause.infix_of_mem_allSites {site : Site} :
    ∀ {joins : List JoinClause} {r : Rendering}, site ∈ JoinClause.allSites style joins r →
      site.text style <:+: ((JoinClause.renderAll style joins).run r).1
  | [], _, inside => absurd inside List.not_mem_nil
  | ⟨kind, source, condition⟩ :: rest, r, inside => by
    rcases List.mem_append.1 inside with first | later
    · have deeper := Source.infix_of_mem_sites first
      refine infix_append_left (infix_append_left
        (infix_append_left ?_ (SqlText.verbatim " on ")) _) _
      exact infix_append_right (SqlText.verbatim kind.keyword) deeper
    · exact infix_append_right _ (JoinClause.infix_of_mem_allSites later)

/-- The text of a SELECT is part of the text of the statement. -/
theorem Statement.infix_of_mem_sites {site : Site} : ∀ {s : Statement} {r : Rendering},
    site ∈ s.sites style r → site.text style <:+: ((s.render style).run r).1
  | ⟨columns, ⟨source, joins, filters, keys, grouped, having, order, skip, take⟩⟩, r, inside => by
    rcases List.mem_cons.1 inside with rfl | deeper
    · exact List.infix_rfl
    · -- five clauses follow after the joins
      refine infix_append_left (infix_append_left (infix_append_left (infix_append_left
        (infix_append_left ?_ _) _) _) _) _
      rcases List.mem_append.1 deeper with inSource | inJoins
      · exact infix_append_left (infix_append_right _ (Source.infix_of_mem_sites inSource)) _
      · exact infix_append_right _ (JoinClause.infix_of_mem_allSites inJoins)

end

end

theorem Rendering.Within.refl (r : Rendering) : r.Within r := ⟨List.prefix_rfl, List.prefix_rfl⟩

namespace Render
variable {style : Style}

theorem run_fragments_cons (f : Fragment) (rest : List Fragment) (r : Rendering) :
    (fragments style (f :: rest)).run r =
      let first := (Fragment.render style f).run r
      let others := (fragments style rest).run first.2
      (first.1 :: others.1, others.2) := by
  simp only [fragments, List.mapM_cons, StateT.run_bind]
  rfl

theorem within_fragments (parts : List Fragment) (r : Rendering) :
    r.Within ((fragments style parts).run r).2 := by
  induction parts generalizing r with
  | nil => exact .refl r
  | cons f rest ih =>
    rw [run_fragments_cons]
    exact (wrote_fragment f r).within.trans (ih _)

variable (style) in
/-- Each of several fragments is rendered with what the ones before it leave. -/
theorem exists_run_of_getElem? {parts : List Fragment} {i : Nat} {f : Fragment}
    (there : parts[i]? = some f) (r : Rendering) : ∃ before, r.Within before ∧
      ((fragments style parts).run r).1[i]? = some ((Fragment.render style f).run before).1 ∧
      ((Fragment.render style f).run before).2.Within ((fragments style parts).run r).2 := by
  induction parts generalizing i r with
  | nil => exact nomatch there
  | cons first rest ih =>
    rw [run_fragments_cons]
    cases i with
    | zero =>
      obtain rfl := Option.some.inj there
      exact ⟨r, .refl r, rfl, within_fragments rest _⟩
    | succ i =>
      obtain ⟨before, kept, written, after⟩ := ih there ((Fragment.render style first).run r).2
      exact ⟨before, (wrote_fragment first r).within.trans kept, written, after⟩

theorem run_mapM_column (items : List OutputColumn) (r : Rendering) :
    (items.mapM (column style)).run r =
      let written := (fragments style (items.map OutputColumn.expr)).run r
      (written.1.zipWith (fun text c => style.dialect.selectAs text c.name) items, written.2) := by
  induction items generalizing r with
  | nil => rfl
  | cons c rest ih =>
    rw [List.map_cons, run_fragments_cons, List.mapM_cons, StateT.run_bind]
    have first : (column style c).run r =
        (style.dialect.selectAs ((Fragment.render style c.expr).run r).1 c.name,
          ((Fragment.render style c.expr).run r).2) := rfl
    have others := ih ((Fragment.render style c.expr).run r).2
    rw [first]
    show (_ :: ((rest.mapM (column style)).run _).1, ((rest.mapM (column style)).run _).2) = _
    rw [others]
    rfl

theorem run_columns {items : List OutputColumn} (some : items ≠ []) (r : Rendering) :
    (columns style items).run r =
      let written := (fragments style (items.map OutputColumn.expr)).run r
      (SqlText.join ", "
        (written.1.zipWith (fun text c => style.dialect.selectAs text c.name) items), written.2) := by
  have nonempty : ¬ items.isEmpty = true := by simpa using some
  rw [columns, if_neg nonempty]
  show (SqlText.join ", " ((items.mapM (column style)).run r).1,
    ((items.mapM (column style)).run r).2) = _
  rw [run_mapM_column]

theorem state_columns (items : List OutputColumn) (r : Rendering) :
    ((columns style items).run r).2 =
      ((fragments style (items.map OutputColumn.expr)).run r).2 := by
  cases items with
  | nil => rfl
  | cons c rest => rw [run_columns (List.cons_ne_nil c rest)]

theorem run_keys {parts : List Fragment} (some : parts ≠ []) (r : Rendering) :
    ((keys style parts).run r).1 =
      SqlText.verbatim " group by " ++ SqlText.join ", " ((fragments style parts).run r).1 := by
  have nonempty : ¬ parts.isEmpty = true := by simpa using some
  rw [keys, unlessEmpty, if_neg nonempty]
  rfl

end Render

namespace Site
variable {style : Style}

/-- The text begins with the select list, and the clause of the keys follows after the
conditions. -/
theorem text_of_columns (site : Site) (some : site.select.columns ≠ []) :
    ∃ sources rest, site.text style =
      SqlText.verbatim "select " ++ SqlText.join ", " ((site.listed style).zipWith
          (fun text c => style.dialect.selectAs text c.name) site.select.columns) ++ sources ++
        ((Render.keys style site.select.body.keys).run (site.beforeKeys style)).1 ++ rest := by
  obtain ⟨⟨columns, ⟨source, joins, filters, keys, _, having, order, skip, take⟩⟩, start⟩ := site
  let listed := (Render.columns style columns).run start
  let sourced := (source.render style).run listed.2
  let joined := (JoinClause.renderAll style joins).run sourced.2
  let filtered := (Render.filters style filters).run joined.2
  let grouping := (Render.keys style keys).run filtered.2
  let kept := (Render.having style having).run grouping.2
  let sorted := (Render.order style order).run kept.2
  refine ⟨SqlText.verbatim " from " ++ sourced.1 ++ joined.1 ++ filtered.1,
    kept.1 ++ sorted.1 ++ Render.window style skip take, ?_⟩
  have list : listed.1 = SqlText.join ", "
      (((Render.fragments style (columns.map OutputColumn.expr)).run start).1.zipWith
        (fun text c => style.dialect.selectAs text c.name) columns) := by
    simp only [listed, Render.run_columns some]
  show SqlText.verbatim "select " ++ listed.1 ++ SqlText.verbatim " from " ++ sourced.1 ++ joined.1
    ++ filtered.1 ++ grouping.1 ++ kept.1 ++ sorted.1 ++ Render.window style skip take = _
  rw [list]
  simp only [List.append_assoc]
  rfl

theorem text_eq (site : Site) (some : site.select.columns ≠ [])
    (grouped : site.select.body.keys ≠ []) :
    ∃ sources rest, site.text style =
      SqlText.verbatim "select " ++ SqlText.join ", " ((site.listed style).zipWith
          (fun text c => style.dialect.selectAs text c.name) site.select.columns) ++ sources ++
        (SqlText.verbatim " group by " ++ SqlText.join ", " (site.keys style)) ++ rest := by
  obtain ⟨sources, rest, text⟩ := site.text_of_columns some
  rw [Render.run_keys grouped] at text
  exact ⟨sources, rest, text⟩

/-- Nothing is forgotten between the select list and the keys. -/
theorem within_beforeKeys {times : Option NullPlacement → Nat}
    (repeats : style.dialect.Repeats times) (site : Site) :
    ((Render.fragments style (site.select.columns.map OutputColumn.expr)).run site.start).2.Within
      (site.beforeKeys style) := by
  rw [← Render.state_columns]
  have sourced := fun r => (Render.wrote_of_marked
    (Source.marked_render repeats site.select.body.source) r).within
  have joined := fun r => (Render.wrote_of_marked
    (JoinClause.marked_renderAll repeats site.select.body.joins) r).within
  have filtered := fun r => (Render.wrote_of_marked (m := Render.filters style _)
    (Render.marked_filters site.select.body.filters) r).within
  exact (sourced _).trans ((joined _).trans (filtered _))

/-- An expression of the select list that is a key too is written the same way in both places
exactly if it has no parameter. -/
theorem listed_eq_key_iff (stem : String) (site : Site) {i j : Nat} {f : Fragment}
    (selected : (site.select.columns.map OutputColumn.expr)[i]? = some f)
    (grouped : site.select.body.keys[j]? = some f) :
    ∃ shown key, (site.listed ⟨.postgres, stem⟩)[i]? = some shown ∧
      (site.keys ⟨.postgres, stem⟩)[j]? = some key ∧
        (shown.toString = key.toString ↔ f.params = []) := by
  let style : Style := ⟨.postgres, stem⟩
  obtain ⟨atList, -, shown, after⟩ := Render.exists_run_of_getElem? style selected site.start
  obtain ⟨atKeys, before, key, -⟩ :=
    Render.exists_run_of_getElem? style grouped (site.beforeKeys style)
  have repeats : style.dialect.Repeats fun _ => 1 := Dialect.repeats_postgres
  have between := site.within_beforeKeys repeats
  exact ⟨_, _, shown, key, f.text_again_iff stem ((after.trans between).trans before)⟩

end Site

theorem Build.expandToken_mem_columns (b : Build) (body : Body) {targets : List Token} {t : Token}
    (selected : t ∈ Token.distinct targets) :
    b.redirects.expandToken t ∈ (b.statement body targets).1.columns.map OutputColumn.expr := by
  rw [← map_fst_outputNames b.settings] at selected
  obtain ⟨entry, listed, rfl⟩ := List.mem_map.1 selected
  rw [columns_eq, List.map_map]
  exact List.mem_map_of_mem listed

/-- A key that is selected too is the same expression in both places. -/
theorem Build.exists_listed_key (b : Build) (body : Body) {targets : List Token} {t : Token}
    (selected : t ∈ Token.distinct targets) (key : t.toFragment ∈ body.keys) :
    let s := (b.statement body targets).1
    ∃ i j : Nat, (s.columns.map OutputColumn.expr)[i]? = some (b.redirects.expandToken t) ∧
      s.body.keys[j]? = some (b.redirects.expandToken t) := by
  intro s
  have grouped : b.redirects.expandToken t ∈ s.body.keys := List.mem_map_of_mem key
  obtain ⟨i, atList⟩ := List.mem_iff_getElem?.1 (b.expandToken_mem_columns body selected)
  obtain ⟨j, atKeys⟩ := List.mem_iff_getElem?.1 grouped
  exact ⟨i, j, atList, atKeys⟩

/-- Every SELECT stands in the text with its list and its keys. An expression in both of them, as
is a key that is selected, is written the same way both times exactly if it has no parameter. -/
structure Query.KeysShown (q : Query) (style : Style) (s : Statement) : Prop where
  selects : (s.sites style {}).map Site.select = s.selects
  placed : ∀ site ∈ s.sites style {}, site.text style <:+: q.text
  clauses : ∀ site ∈ s.sites style {}, site.select.columns ≠ [] → site.select.body.keys ≠ [] →
    ∃ sources rest, site.text style =
      SqlText.verbatim "select " ++ SqlText.join ", " ((site.listed style).zipWith
          (fun text c => style.dialect.selectAs text c.name) site.select.columns) ++ sources ++
        (SqlText.verbatim " group by " ++ SqlText.join ", " (site.keys style)) ++ rest
  tokens : ∀ site ∈ s.sites style {}, ∀ (b : Build) (body : Body) (targets : List Token),
    site.select = (b.statement body targets).1 → ∀ t ∈ Token.distinct targets,
      t.toFragment ∈ body.keys → ∃ i j : Nat,
        (site.select.columns.map OutputColumn.expr)[i]? = some (b.redirects.expandToken t) ∧
          site.select.body.keys[j]? = some (b.redirects.expandToken t)
  texts : ∀ site ∈ s.sites style {}, ∀ (i j : Nat) (f : Fragment),
    (site.select.columns.map OutputColumn.expr)[i]? = some f →
      site.select.body.keys[j]? = some f →
        ∃ shown key, (site.listed style)[i]? = some shown ∧ (site.keys style)[j]? = some key ∧
          (shown.toString = key.toString ↔ f.params = [])

theorem Plan.keysShown_write (p : Plan) (stem : String) :
    (p.write ⟨.postgres, stem⟩).KeysShown ⟨.postgres, stem⟩ p.statement where
  selects := p.statement.select_sites _ {}
  placed _ inside := Statement.infix_of_mem_sites _ inside
  clauses site _ := site.text_eq
  tokens site _ b body targets made t selected key := by
    rw [made]
    exact b.exists_listed_key body selected key
  texts site _ _ _ _ := site.listed_eq_key_iff stem

/-- In the numbered style, whatever the view, the keys of a SELECT that are selected have the same
text in its list and in its GROUP BY clause as long as they have no parameter, and never if they
have one. -/
theorem Compiler.keysShown_compile (v : View) (settings : Settings) (supply : Supply) :
    let c : Compiler := ⟨.postgres, settings⟩
    ((c.compile v).run supply).1.KeysShown c.style ((v.plan settings).run supply).1.statement ∧
      ((c.compileCount v).run supply).1.KeysShown c.style
        ((v.countPlan settings).run supply).1.statement :=
  ⟨Plan.keysShown_write _ _, Plan.keysShown_write _ _⟩

namespace View

/-- The amounts with a fee on top that is bound as a parameter. -/
def charged : Token :=
  ⟨⟨1⟩, amount.toFragment ++ Fragment.verbatim " + " ++ Fragment.param (.whole 5)⟩

theorem not_shown_as_key_of_param : ∃ v,
    orders.apply (.group (.ofTokens [("charged", charged)]) (.ofTokens [])) = .ok v ∧
      let style : Style := ⟨.postgres, "t"⟩
      ∃ site ∈ ((v.plan {}).run { tokens := 2, aliases := 1 }).1.statement.sites style {}, ∃ f,
        (site.select.columns.map OutputColumn.expr)[0]? = some f ∧
          site.select.body.keys[0]? = some f ∧
            (site.listed style)[0]?.map SqlText.toString = some "\"t0\".\"amount\" + $1" ∧
              (site.keys style)[0]?.map SqlText.toString = some "\"t0\".\"amount\" + $2" := by
  refine ⟨_, rfl, _, List.mem_cons_self, _, rfl, rfl, ?listed, ?keys⟩
  case listed => decide +kernel
  case keys => decide +kernel

end View
end QueryViews
