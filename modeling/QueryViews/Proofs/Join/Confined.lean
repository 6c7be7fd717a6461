import QueryViews.Proofs.Join.Elision
import QueryViews.Proofs.Join.Support

/-! What views read. A view that calls put together from tables, each with columns over itself,
holds each of its tables once, and none of its expressions, written out, goes beyond the tables of
the view that the expression was given to. -/

namespace QueryViews

section Reach
variable {definitions : TokenId → Fragment} {scope : Scope} {Q : Alias × String → Prop}

mutual

theorem Segment.columns_of_reach
    (held : ∀ id, scope.contains id = true → ∀ c ∈ (definitions id).columns, Q c) :
    ∀ {segment : Segment}, segment.inReach scope = true →
      (segment.AllTokens fun t => t.definition = definitions t.id) → ∀ c ∈ segment.columns, Q c
  | .token id definition, reached, ⟨self, below⟩ => by
    have same : definition = definitions id := self
    rw [Segment.inReach_token, Bool.or_eq_true] at reached
    rcases reached with inScope | further
    · exact same ▸ held id inScope
    · exact Fragment.columns_of_reach held further below
  | .nested _, reached, defined =>
    Fragment.columns_of_reach held (by exact reached) (by exact defined)
  | .column _ _, reached, _ => nomatch reached
  | .verbatim _, _, _ | .param _, _, _ => fun _ none => absurd none List.not_mem_nil

/-- What is in reach of a scope reads no columns but those read by what the scope holds. -/
theorem Fragment.columns_of_reach
    (held : ∀ id, scope.contains id = true → ∀ c ∈ (definitions id).columns, Q c) :
    ∀ {f : Fragment}, Fragment.inReach scope f = true →
      f.AllTokens (fun t => t.definition = definitions t.id) → ∀ c ∈ Fragment.columns f, Q c
  | [], _, _ => fun _ none => absurd none List.not_mem_nil
  | _ :: _, reached, ⟨first, rest⟩ => by
    obtain ⟨here, later⟩ := Bool.and_eq_true_iff.1 reached
    exact List.forall_mem_append.2 ⟨Segment.columns_of_reach held here first,
      Fragment.columns_of_reach held later rest⟩

end

theorem Token.columns_toFragment (t : Token) : t.toFragment.columns = t.definition.columns := by
  simp [Token.toFragment, Token.toSegment, Fragment.columns, Segment.columns]

end Reach

/-- The sources that are read once each token is written out as its definition. -/
def Fragment.sources (f : Fragment) : List Alias := (({} : Redirects).expand f).columns.map (·.1)

theorem Fragment.mem_sources_iff {f : Fragment} {a : Alias} :
    a ∈ f.sources ↔ ∃ name, (a, name) ∈ f.columns := by
  have written : ({} : Redirects).expand f = Fragment.substitute (fun _ => none) f := rfl
  rw [sources, written, columns_written]
  exact List.mem_map.trans
    ⟨fun ⟨(_, name), read, same⟩ => ⟨name, same ▸ read⟩, fun ⟨name, read⟩ => ⟨_, read, rfl⟩⟩

namespace View

/-- The aliases of the tables in the view, one entry for each place where a table stands. -/
def tables : View → List Alias
  | .table _ id _ => [id]
  | .filter input _ | .project input _ | .group input _ _ | .order input _ | .take input _
  | .skip input _ | .bracket input _ => input.tables
  | .join base extra _ _ _ => base.tables ++ extra.tables

/-- The expressions given to the call that made the view. -/
def given : View → List Fragment
  | .table _ _ template => template.columns.map Column.toFragment
  | .filter _ condition => (Step.filter condition).fragments
  | .project _ template => (Step.project template).fragments
  | .group _ keys content => (Step.group keys content).fragments
  | .order _ items => (Step.order items).fragments
  | .take _ _ | .skip _ _ | .bracket _ _ => []
  | .join _ _ _ _ condition => [condition]

/-- The view and all views that it was made of. -/
def parts : View → List View
  | .table text id template => [.table text id template]
  | .filter input condition => .filter input condition :: input.parts
  | .project input template => .project input template :: input.parts
  | .group input keys content => .group input keys content :: input.parts
  | .order input items => .order input items :: input.parts
  | .take input count => .take input count :: input.parts
  | .skip input count => .skip input count :: input.parts
  | .bracket input point => .bracket input point :: input.parts
  | .join base extra mode withNull condition =>
    .join base extra mode withNull condition :: (base.parts ++ extra.parts)

/-- The view reads its own tables. They are all there is to its sources, no table stands in it
twice, and neither its rows nor what was given to the call that made it read any other. -/
structure Confined (v : View) : Prop where
  sources : ∀ a, v.sources.contains a = true ↔ a ∈ v.tables
  once : v.tables.Nodup
  reads : ∀ f ∈ v.template.columns.map Column.toFragment ++ v.given, ∀ a ∈ f.sources,
    v.sources.contains a = true

/-- The view comes from accepted calls only, on tables whose columns read nothing but their table,
be they columns of it, derived from such columns, or constants. -/
inductive Composed : View → Prop
  | table (text : Fragment) (id : Alias) (template : Template)
    (own : ∀ c ∈ template.columns, ∀ a ∈ c.toFragment.sources, a = id) :
    Composed (.table text id template)
  | apply {v w : View} {s : Step} (input : Composed v) (call : v.apply s = .ok w) : Composed w
  | joined {base extra w : View} {mode : JoinMode} {withNull : Bool} {condition : Fragment}
    (ofBase : Composed base) (ofExtra : Composed extra)
    (call : base.joined extra mode withNull condition = .ok w) : Composed w

section
variable {v w base extra : View} {s : Step} {mode : JoinMode} {withNull : Bool}
  {condition : Fragment} {definitions : TokenId → Fragment}

theorem tables_onto (v : View) (s : Step) : (s.onto v).tables = v.tables := by
  cases s with
  | filter | project | group | order | take | skip | bracket => rfl

theorem given_onto (v : View) (s : Step) : (s.onto v).given = s.fragments := by
  cases s with
  | filter | project | group | order | take | skip | bracket => rfl

theorem parts_onto (v : View) (s : Step) : (s.onto v).parts = s.onto v :: v.parts := by
  cases s with
  | filter | project | group | order | take | skip | bracket => rfl

/-- What a confined view offers reads its sources. -/
theorem Confined.columns_of_held (confined : v.Confined)
    (defined : v.AllTokens fun t => t.definition = definitions t.id) :
    ∀ id, v.scope.contains id = true →
      ∀ c ∈ (definitions id).columns, v.sources.contains c.1 = true := by
  rintro id held ⟨a, name⟩ read
  obtain ⟨column, inside, rfl⟩ := Template.contains_scope.1 held
  rw [← (defined.template column inside).self, ← Token.columns_toFragment] at read
  exact confined.reads column.toFragment (List.mem_append_left _ (List.mem_map_of_mem inside)) a
    (Fragment.mem_sources_iff.2 ⟨name, read⟩)

theorem confined_table {text : Fragment} {id : Alias} {template : Template}
    (own : ∀ c ∈ template.columns, ∀ a ∈ c.toFragment.sources, a = id) :
    (View.table text id template).Confined where
  sources a := mem_sources_iff.symm
  once := List.nodup_cons.2 ⟨List.not_mem_nil, List.nodup_nil⟩
  reads f listed a read := by
    obtain ⟨c, inside, rfl⟩ := List.mem_map.1 (or_self_iff.1 (List.mem_append.1 listed))
    exact mem_sources_iff.1 (List.mem_singleton.2 (own c inside a read))

/-- A step reads what is in reach of the view below it. -/
theorem Confined.onto (confined : v.Confined) (fits : s.Accepted v.scope)
    (defined : (s.onto v).AllTokens fun t => t.definition = definitions t.id) :
    (s.onto v).Confined where
  sources a := by rw [Step.sources_onto, tables_onto, confined.sources]
  once := tables_onto v s ▸ confined.once
  reads f listed a read := by
    obtain ⟨ofInput, ofStep⟩ := allTokens_onto.1 defined
    -- the columns above a step are given to it or were there before
    have either : f ∈ s.fragments ∨ f ∈ v.template.columns.map Column.toFragment := by
      rcases List.mem_append.1 listed with column | new
      · obtain ⟨c, inside, rfl⟩ := List.mem_map.1 column
        exact (Step.mem_columns_onto inside).imp_right List.mem_map_of_mem
      · exact .inl (given_onto v s ▸ new)
    rw [Step.sources_onto]
    rcases either with new | before
    · obtain ⟨name, inside⟩ := Fragment.mem_sources_iff.1 read
      exact Fragment.columns_of_reach (confined.columns_of_held ofInput)
        (fits.fragments_of_defined ofStep f new) (ofStep f new) (a, name) inside
    · exact confined.reads f (List.mem_append_left _ before) a read

/-- The sides of a join have no source in common, so each table still stands in one place. -/
theorem Confined.join (ofBase : base.Confined) (ofExtra : extra.Confined)
    (sides : ensureSides base extra = .ok ())
    (reached : Fragment.inReach (base.scope.union extra.scope) condition = true)
    (defined : (View.join base extra mode withNull condition).AllTokens
      fun t => t.definition = definitions t.id) :
    (View.join base extra mode withNull condition).Confined where
  sources a := by
    rw [contains_sources_join, ofBase.sources, ofExtra.sources, tables, List.mem_append]
  once := by
    refine List.nodup_append.2 ⟨ofBase.once, ofExtra.once, fun a inBase b inExtra same => ?_⟩
    have absent := sources_apart sides ((ofBase.sources a).2 inBase)
    have shared := (ofExtra.sources b).2 inExtra
    exact Bool.false_ne_true (absent.symm.trans (same ▸ shared))
  reads f listed a read := by
    obtain ⟨inBase, inExtra, ofCondition⟩ := defined
    rw [contains_sources_join]
    rcases List.mem_append.1 listed with column | on
    · obtain ⟨c, inside, rfl⟩ := List.mem_map.1 column
      rw [template, Template.columns_pair] at inside
      rcases List.mem_append.1 inside with left | right
      · have shown := List.mem_map_of_mem (f := Column.toFragment) left
        exact .inl (ofBase.reads _ (List.mem_append_left _ shown) a read)
      · obtain ⟨d, offered, rfl⟩ := Template.mem_columns_widen.1 right
        have shown := List.mem_map_of_mem (f := Column.toFragment) offered
        exact .inr (ofExtra.reads _ (List.mem_append_left _ shown) a read)
    · -- the condition is checked against both sides at once, and each token is held by one of them
      obtain rfl := List.mem_singleton.1 on
      obtain ⟨name, inside⟩ := Fragment.mem_sources_iff.1 read
      refine Fragment.columns_of_reach
        (Q := fun c => base.sources.contains c.1 = true ∨ extra.sources.contains c.1 = true)
        (fun id held c below => ?_) reached ofCondition (a, name) inside
      exact (AscendingSet.contains_union.1 held).imp
        (fun offered => ofBase.columns_of_held inBase id offered c below)
        fun offered => ofExtra.columns_of_held inExtra id offered c below

theorem Composed.confined (composed : v.Composed)
    (defined : v.AllTokens fun t => t.definition = definitions t.id) : v.Confined := by
  induction composed with
  | table text id template own => exact confined_table own
  | apply input call ih =>
    obtain ⟨fits, rfl⟩ := apply_eq_ok_iff.1 call
    exact (ih (allTokens_onto.1 defined).1).onto fits defined
  | joined ofBase ofExtra call confinedBase confinedExtra =>
    obtain ⟨sides, reached, rfl⟩ := joined_eq_ok_iff.1 call
    exact (confinedBase defined.1).join (confinedExtra defined.2.1) sides reached defined

theorem Composed.applyAll {steps : List Step} (composed : v.Composed)
    (made : v.applyAll steps = .ok w) : w.Composed := by
  induction made using applyAll_induction with
  | nil => exact composed
  | concat steps s u before fits ih => exact ih.apply (apply_eq_ok_iff.2 ⟨fits, rfl⟩)

theorem Composed.parts (composed : v.Composed) : ∀ w ∈ v.parts, w.Composed := by
  induction composed with
  | table text id template own => exact List.forall_mem_singleton.2 (.table text id template own)
  | apply input call ih =>
    obtain ⟨-, rfl⟩ := apply_eq_ok_iff.1 call
    rw [parts_onto]
    exact List.forall_mem_cons.2 ⟨input.apply call, ih⟩
  | joined ofBase ofExtra call base extra =>
    obtain ⟨-, -, rfl⟩ := joined_eq_ok_iff.1 call
    exact List.forall_mem_cons.2
      ⟨ofBase.joined ofExtra call, List.forall_mem_append.2 ⟨base, extra⟩⟩

theorem AllTokens.parts {P : Token → Prop} (all : v.AllTokens P) : ∀ w ∈ v.parts, w.AllTokens P := by
  induction v using induction_onto with
  | table text id template => exact List.forall_mem_singleton.2 all
  | onto s v ih =>
    rw [parts_onto]
    exact List.forall_mem_cons.2 ⟨all, ih (allTokens_onto.1 all).1⟩
  | join base extra mode withNull condition ofBase ofExtra =>
    exact List.forall_mem_cons.2
      ⟨all, List.forall_mem_append.2 ⟨ofBase all.1, ofExtra all.2.1⟩⟩

/-- A view that accepted calls put together from tables with columns over themselves reads its own
tables only, at every stage of the calls. -/
theorem Composed.confined_parts (composed : v.Composed)
    (defined : v.AllTokens fun t => t.definition = definitions t.id) :
    ∀ w ∈ v.parts, w.Confined :=
  fun w part => (composed.parts w part).confined (defined.parts w part)

end

/-- Derived from a column of the pets. -/
def fee : Token := ⟨⟨2⟩, Fragment.verbatim "10 * " ++ petOwner.toFragment⟩

/-- A constant. -/
def currency : Token := ⟨⟨3⟩, Fragment.verbatim "'EUR'"⟩

def feeTotal : Token :=
  ⟨⟨4⟩, Fragment.verbatim "sum(" ++ fee.toFragment ++ Fragment.verbatim ")"⟩

def petFees : View := .table (Fragment.verbatim "pets") ⟨1⟩
  (.ofTokens [("owner", petOwner), ("fee", fee), ("currency", currency)])

def totals : List Step :=
  [.filter (fee.toFragment ++ Fragment.verbatim " > 12"),
    .group (.ofTokens [("id", ownerId), ("currency", currency)]) (.ofTokens [("total", feeTotal)]),
    .order [⟨feeTotal.toFragment, .descending, none⟩]]

def feeDefinitions (id : TokenId) : Fragment :=
  if id = ⟨0⟩ then ownerId.definition
  else if id = ⟨1⟩ then petOwner.definition
  else if id = ⟨2⟩ then fee.definition
  else if id = ⟨3⟩ then currency.definition
  else feeTotal.definition

def pricedPets : View := .join owners petFees .left true ownedBy

theorem defined_totals :
    (totals.foldl (fun v s => s.onto v) pricedPets).AllTokens
      fun t => t.definition = feeDefinitions t.id := by
  have ofId : ownerId.AllTokens fun t => t.definition = feeDefinitions t.id :=
    ⟨rfl, trivial, trivial⟩
  have ofOwner : petOwner.AllTokens fun t => t.definition = feeDefinitions t.id :=
    ⟨rfl, trivial, trivial⟩
  have ofFee : fee.AllTokens fun t => t.definition = feeDefinitions t.id :=
    ⟨rfl, trivial, ofOwner, trivial⟩
  have ofCurrency : currency.AllTokens fun t => t.definition = feeDefinitions t.id :=
    ⟨rfl, trivial, trivial⟩
  have ofTotal : feeTotal.AllTokens fun t => t.definition = feeDefinitions t.id :=
    ⟨rfl, trivial, ofFee, trivial, trivial⟩
  simp [totals, Step.onto, pricedPets, petFees, owners, ownedBy, AllTokens, Step.AllTokens,
    Step.fragments, Template.AllTokens, Template.columns_ofTokens, Fragment.verbatim,
    Fragment.allTokens_toFragment, Column.toFragment, Fragment.AllTokens, Segment.AllTokens, ofId,
    ofOwner, ofFee, ofCurrency, ofTotal]

theorem confined_parts_fees :
    owners.joined petFees .left true ownedBy = .ok pricedPets ∧
      ∃ v, pricedPets.applyAll totals = .ok v ∧ v.parts.length = 6 ∧
        ∀ w ∈ v.parts, w.Confined := by
  have joins : owners.joined petFees .left true ownedBy = .ok pricedPets := rfl
  have made : pricedPets.applyAll totals =
    .ok (totals.foldl (fun v s => s.onto v) pricedPets) := rfl
  have ofOwners : owners.Composed := .table _ _ _ fun c inside => by
    obtain rfl := List.mem_singleton.1 inside
    decide
  have ofFees : petFees.Composed := .table _ _ _ <| by
    rw [Template.columns_ofTokens (by decide)]
    simp only [List.map_cons, List.map_nil, List.forall_mem_cons]
    decide
  have composed := (ofOwners.joined ofFees joins).applyAll made
  exact ⟨joins, _, made, rfl, composed.confined_parts defined_totals⟩

end View
end QueryViews
