import QueryViews.Proofs.Join.Support
import QueryViews.Proofs.Renaming.Built

/-! Views with other identities. A view is renamed as a whole: in its templates, its definitions,
its conditions and its sources. It is a twin of what it was under any pairing that pairs each of
its identities with the new one. -/

namespace QueryViews

/-- New identities for tokens and sources. -/
structure Renaming where
  token : TokenId → TokenId
  source : Alias → Alias

/-- Every identity stays. -/
def Renaming.same : Renaming := ⟨id, id⟩

variable (τ : Renaming)

mutual

def Segment.rename : Segment → Segment
  | .verbatim text => .verbatim text
  | .token id definition => .token (τ.token id) (Fragment.rename definition)
  | .column source name => .column (τ.source source) name
  | .param value => .param value
  | .nested inner => .nested (Fragment.rename inner)

def Fragment.rename : Fragment → Fragment
  | [] => []
  | segment :: rest => segment.rename :: Fragment.rename rest

end

mutual

/-- The identities of the tokens at any depth, in definitions too. -/
def Segment.ids : Segment → List TokenId
  | .token id definition => id :: Fragment.ids definition
  | .nested inner => Fragment.ids inner
  | .verbatim _ | .column _ _ | .param _ => []

def Fragment.ids : Fragment → List TokenId
  | [] => []
  | segment :: rest => segment.ids ++ Fragment.ids rest

end

def Token.rename (t : Token) : Token := ⟨τ.token t.id, t.definition.rename τ⟩

def Column.rename (c : Column) : Column := { c with token := c.token.rename τ }

def Template.rename (t : Template) : Template := t.modifyColumns (Column.rename τ)

namespace View

def rename : View → View
  | .table text id template => .table (text.rename τ) (τ.source id) (template.rename τ)
  | .filter input condition => .filter input.rename (condition.rename τ)
  | .project input template => .project input.rename (template.rename τ)
  | .group input keys content => .group input.rename (keys.rename τ) (content.rename τ)
  | .order input items => .order input.rename (items.map (SortKey.map (Fragment.rename τ)))
  | .take input count => .take input.rename count
  | .skip input count => .skip input.rename count
  | .bracket input point => .bracket input.rename point
  | .join base extra mode withNull condition =>
    .join base.rename extra.rename mode withNull (condition.rename τ)

/-- The identities of the tokens of the view. -/
def ids (v : View) : List TokenId := v.fragments.flatMap Fragment.ids

/-- The sources of the view, and those that its expressions refer to. -/
def aliases (v : View) : List Alias :=
  v.sources.toList ++ v.fragments.flatMap fun f => f.columns.map Prod.fst

end View

mutual

theorem Segment.ids_rename : ∀ segment : Segment,
    (segment.rename τ).ids = segment.ids.map τ.token
  | .token id definition => congrArg (τ.token id :: ·) (Fragment.ids_rename definition)
  | .nested inner => Fragment.ids_rename inner
  | .verbatim _ | .column _ _ | .param _ => rfl

theorem Fragment.ids_rename : ∀ f : Fragment,
    Fragment.ids (Fragment.rename τ f) = (Fragment.ids f).map τ.token
  | [] => rfl
  | segment :: rest => by
    rw [Fragment.rename, Fragment.ids, Fragment.ids, List.map_append, Segment.ids_rename segment,
      Fragment.ids_rename rest]

end

mutual

theorem Segment.columns_rename : ∀ segment : Segment,
    (segment.rename τ).columns = segment.columns.map fun c => (τ.source c.1, c.2)
  | .token _ definition => Fragment.columns_rename definition
  | .nested inner => Fragment.columns_rename inner
  | .verbatim _ | .column _ _ | .param _ => rfl

theorem Fragment.columns_rename : ∀ f : Fragment,
    Fragment.columns (Fragment.rename τ f) =
      (Fragment.columns f).map fun c => (τ.source c.1, c.2)
  | [] => rfl
  | segment :: rest => by
    rw [Fragment.rename, Fragment.columns, Fragment.columns, List.map_append,
      Segment.columns_rename segment, Fragment.columns_rename rest]

end

mutual

theorem Segment.rename_same : ∀ segment : Segment, segment.rename .same = segment
  | .token id definition => congrArg (Segment.token id) (Fragment.rename_same definition)
  | .nested inner => congrArg Segment.nested (Fragment.rename_same inner)
  | .verbatim _ | .column _ _ | .param _ => rfl

theorem Fragment.rename_same : ∀ f : Fragment, Fragment.rename .same f = f
  | [] => rfl
  | segment :: rest => by
    rw [Fragment.rename, Segment.rename_same segment, Fragment.rename_same rest]

end

mutual

theorem Segment.allTokens_ids : ∀ segment : Segment, segment.AllTokens fun t => t.id ∈ segment.ids
  | .token id definition => by
    refine ⟨List.mem_cons_self, (Fragment.allTokens_ids definition).mono fun t inside => ?_⟩
    exact List.mem_cons_of_mem _ inside
  | .nested inner => Fragment.allTokens_ids inner
  | .verbatim _ | .column _ _ | .param _ => trivial

theorem Fragment.allTokens_ids : ∀ f : Fragment, f.AllTokens fun t => t.id ∈ Fragment.ids f
  | [] => trivial
  | segment :: rest => by
    constructor
    · exact (Segment.allTokens_ids segment).mono fun t inside => List.mem_append_left _ inside
    · exact (Fragment.allTokens_ids rest).mono fun t inside => List.mem_append_right _ inside

end

mutual

theorem Segment.twin_rename {ρ : Pairing} : ∀ {segment : Segment},
    (∀ id ∈ segment.ids, ρ.token id (τ.token id)) →
      (∀ c ∈ segment.columns, ρ.source c.1 (τ.source c.1)) → segment.Twin ρ (segment.rename τ)
  | .token id definition, tokens, sources => by
    obtain ⟨here, below⟩ := List.forall_mem_cons.1 tokens
    exact .token here (Fragment.twin_rename below sources)
  | .nested inner, tokens, sources => .nested (Fragment.twin_rename tokens sources)
  | .column source name, _, sources => .column name (sources _ (List.mem_singleton_self _))
  | .verbatim text, _, _ => .verbatim text
  | .param value, _, _ => .param value

/-- A fragment is a twin of the renamed one, if its identities are paired with the new ones. -/
theorem Fragment.twin_rename {ρ : Pairing} : ∀ {f : Fragment},
    (∀ id ∈ Fragment.ids f, ρ.token id (τ.token id)) →
      (∀ c ∈ Fragment.columns f, ρ.source c.1 (τ.source c.1)) →
        Fragment.Twin ρ f (Fragment.rename τ f)
  | [], _, _ => .nil
  | segment :: rest, tokens, sources => by
    obtain ⟨first, later⟩ := List.forall_mem_append.1 tokens
    obtain ⟨here, beyond⟩ := List.forall_mem_append.1 sources
    exact .cons (Segment.twin_rename first here) (Fragment.twin_rename later beyond)

end

theorem Template.columns_rename (t : Template) :
    (t.rename τ).columns = t.columns.map (Column.rename τ) :=
  columns_modifyColumns _ t

theorem Template.toFragments_rename (t : Template) :
    (t.rename τ).columns.map Column.toFragment =
      (t.columns.map Column.toFragment).map (Fragment.rename τ) := by
  rw [Template.columns_rename, List.map_map, List.map_map]
  rfl

theorem Template.rename_same (t : Template) : t.rename .same = t := by
  apply Template.modifyColumns_of_fixed
  intro c
  have token : c.token.rename .same = c.token := by
    rw [Token.rename, Fragment.rename_same]
    rfl
  rw [Column.rename, token]

namespace Step

/-- The call on a renamed view. -/
def rename : Step → Step
  | .filter condition => .filter (condition.rename τ)
  | .project template => .project (template.rename τ)
  | .group keys content => .group (keys.rename τ) (content.rename τ)
  | .order items => .order (items.map (SortKey.map (Fragment.rename τ)))
  | .take count => .take count
  | .skip count => .skip count
  | .bracket point => .bracket point

theorem rename_onto (s : Step) (v : View) :
    (s.onto v).rename τ = (s.rename τ).onto (v.rename τ) := by
  cases s with
  | filter | project | group | order | take | skip | bracket => rfl

theorem fragments_rename (s : Step) :
    (s.rename τ).fragments = s.fragments.map (Fragment.rename τ) := by
  cases s with
  | project template => exact template.toFragments_rename τ
  | group keys content =>
    simp only [rename, fragments, List.map_append, Template.toFragments_rename]
  | order items =>
    simp only [rename, fragments, List.map_map]
    rfl
  | filter | take | skip | bracket => rfl

theorem rename_same (s : Step) : s.rename .same = s := by
  cases s with
  | filter condition => rw [rename, Fragment.rename_same]
  | project template => rw [rename, Template.rename_same]
  | group keys content => rw [rename, Template.rename_same, Template.rename_same]
  | order items =>
    have kept : SortKey.map (Fragment.rename .same) = id := by
      funext key
      simp [SortKey.map, Fragment.rename_same]
    rw [rename, kept, List.map_id]
  | take | skip | bracket => rfl

end Step

variable {τ} {ρ : Pairing}

theorem Template.twin_rename {t : Template}
    (twins : ∀ f ∈ t.columns.map Column.toFragment, f.Twin ρ (f.rename τ)) :
    t.Twin ρ (t.rename τ) := by
  unfold Template.Twin
  rw [Template.columns_rename, List.forall₂_map_right_iff, List.forall₂_same]
  intro c inside
  cases twins c.toFragment (List.mem_map_of_mem inside) with
  | cons token _ =>
    cases token with
    | token id below => exact ⟨id, below⟩

theorem Step.twin_rename {s : Step} (twins : ∀ f ∈ s.fragments, f.Twin ρ (f.rename τ)) :
    s.Twin ρ (s.rename τ) := by
  cases s with
  | filter condition => exact .filter (twins _ (List.mem_singleton_self _))
  | project template => exact .project (Template.twin_rename twins)
  | group keys content =>
    rw [fragments, List.map_append] at twins
    obtain ⟨ofKeys, ofContent⟩ := List.forall_mem_append.1 twins
    exact .group (Template.twin_rename ofKeys) (Template.twin_rename ofContent)
  | order items =>
    apply Step.Twin.order
    rw [List.forall₂_map_right_iff, List.forall₂_same]
    intro item listed
    exact ⟨twins _ (List.mem_map_of_mem listed), rfl, rfl⟩
  | take count => exact .take count
  | skip count => exact .skip count
  | bracket point => exact .bracket point

namespace View

theorem mem_sources_join {base extra : View} {mode : JoinMode} {withNull : Bool}
    {condition : Fragment} {a : Alias} :
    a ∈ (View.join base extra mode withNull condition).sources.toList ↔
      a ∈ base.sources.toList ∨ a ∈ extra.sources.toList := by
  rw [mem_sources_iff, mem_sources_iff, mem_sources_iff, contains_sources_join]

theorem fragments_rename (v : View) :
    (v.rename τ).fragments = v.fragments.map (Fragment.rename τ) := by
  induction v using induction_onto with
  | table text id template =>
    exact congrArg (text.rename τ :: ·) (template.toFragments_rename τ)
  | onto s v ih =>
    rw [Step.rename_onto, fragments_onto, fragments_onto, List.map_append, ih,
      Step.fragments_rename]
  | join base extra mode withNull condition ofBase ofExtra =>
    simp only [rename, fragments, List.map_cons, List.map_append, ofBase, ofExtra]

theorem source_mem_sources_rename {v : View} {a : Alias} (inside : a ∈ v.sources.toList) :
    τ.source a ∈ (v.rename τ).sources.toList := by
  induction v using induction_onto with
  | table text id template =>
    have only : a ∈ [id] := inside
    obtain rfl := List.mem_singleton.1 only
    exact List.mem_singleton_self _
  | onto s v ih =>
    rw [Step.sources_onto] at inside
    rw [Step.rename_onto, Step.sources_onto]
    exact ih inside
  | join base extra mode withNull condition ofBase ofExtra =>
    apply mem_sources_join.2
    exact (mem_sources_join.1 inside).imp ofBase ofExtra

theorem token_mem_ids_rename {v : View} {t : TokenId} (inside : t ∈ v.ids) :
    τ.token t ∈ (v.rename τ).ids := by
  obtain ⟨f, given, within⟩ := List.mem_flatMap.1 inside
  rw [ids, fragments_rename]
  apply List.mem_flatMap.2
  refine ⟨f.rename τ, List.mem_map_of_mem given, ?_⟩
  rw [Fragment.ids_rename]
  exact List.mem_map_of_mem within

theorem source_mem_aliases_rename {v : View} {a : Alias} (inside : a ∈ v.aliases) :
    τ.source a ∈ (v.rename τ).aliases := by
  rcases List.mem_append.1 inside with table | read
  · exact List.mem_append_left _ (source_mem_sources_rename table)
  · obtain ⟨f, given, within⟩ := List.mem_flatMap.1 read
    obtain ⟨c, listed, rfl⟩ := List.mem_map.1 within
    apply List.mem_append_right
    rw [fragments_rename]
    apply List.mem_flatMap.2
    refine ⟨f.rename τ, List.mem_map_of_mem given, ?_⟩
    rw [Fragment.columns_rename, List.map_map]
    exact List.mem_map.2 ⟨c, listed, rfl⟩

theorem template_rename (v : View) : (v.rename τ).template = v.template.rename τ := by
  induction v using induction_onto with
  | table text id template => rfl
  | onto s v ih =>
    rw [Step.rename_onto]
    cases s with
    | project | group => rfl
    | filter | order | take | skip | bracket => exact ih
  | join base extra mode withNull condition ofBase ofExtra =>
    have widened : (extra.template.rename τ).widen withNull =
        (extra.template.widen withNull).rename τ := by
      unfold Template.widen Template.rename
      rw [Template.modifyColumns_comp, Template.modifyColumns_comp]
      rfl
    rw [rename, template, template, ofBase, ofExtra, widened]
    rfl

theorem rename_same (v : View) : v.rename .same = v := by
  induction v using induction_onto with
  | table text id template =>
    rw [rename, Fragment.rename_same, Template.rename_same]
    rfl
  | onto s v ih => rw [Step.rename_onto, ih, Step.rename_same]
  | join base extra mode withNull condition ofBase ofExtra =>
    rw [rename, ofBase, ofExtra, Fragment.rename_same]

theorem twin_of_fragments {v : View} (twins : ∀ f ∈ v.fragments, f.Twin ρ (f.rename τ))
    (sources : ∀ a ∈ v.sources.toList, ρ.source a (τ.source a)) : v.Twin ρ (v.rename τ) := by
  induction v using induction_onto with
  | table text id template =>
    obtain ⟨ofText, ofTemplate⟩ := List.forall_mem_cons.1 twins
    exact .table ofText (sources id (List.mem_singleton_self _)) (Template.twin_rename ofTemplate)
  | onto s v ih =>
    rw [fragments_onto] at twins
    rw [Step.sources_onto] at sources
    obtain ⟨ofStep, below⟩ := List.forall_mem_append.1 twins
    rw [Step.rename_onto]
    exact .onto (ih below sources) (Step.twin_rename ofStep)
  | join base extra mode withNull condition ofBase ofExtra =>
    obtain ⟨met, sides⟩ := List.forall_mem_cons.1 twins
    obtain ⟨baseTwins, extraTwins⟩ := List.forall_mem_append.1 sides
    have baseSources := fun a inside => sources a (mem_sources_join.2 (.inl inside))
    have extraSources := fun a inside => sources a (mem_sources_join.2 (.inr inside))
    exact .join mode withNull (ofBase baseTwins baseSources) (ofExtra extraTwins extraSources) met

/-- A view is a twin of the renamed one, if its identities are paired with the new ones. -/
theorem twin_rename {v : View} (tokens : ∀ t ∈ v.ids, ρ.token t (τ.token t))
    (sources : ∀ a ∈ v.aliases, ρ.source a (τ.source a)) : v.Twin ρ (v.rename τ) := by
  obtain ⟨tables, reads⟩ := List.forall_mem_append.1 sources
  refine twin_of_fragments (fun f given => ?_) tables
  apply Fragment.twin_rename
  · exact fun id inside => tokens id (List.mem_flatMap.2 ⟨f, given, inside⟩)
  · intro c read
    exact reads c.1 (List.mem_flatMap.2 ⟨f, given, List.mem_map_of_mem read⟩)

end View
end QueryViews
