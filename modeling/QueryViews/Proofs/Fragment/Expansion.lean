import QueryViews.Proofs.Fragment.Tokens

/-! Source columns in fragments, and redirects that are columns: nothing is left to expand in
them, so expansion is one substitution. -/

namespace QueryViews

mutual

/-- The source columns read at any depth, through definitions too. -/
def Segment.columns : Segment → List (Alias × String)
  | .column source name => [(source, name)]
  | .token _ definition => Fragment.columns definition
  | .nested inner => Fragment.columns inner
  | .verbatim _ | .param _ => []

def Fragment.columns : Fragment → List (Alias × String)
  | [] => []
  | segment :: rest => segment.columns ++ Fragment.columns rest

end

@[simp] theorem Fragment.columns_append (f g : Fragment) :
    Fragment.columns (f ++ g) = Fragment.columns f ++ Fragment.columns g := by
  induction f with
  | nil => rfl
  | cons segment rest ih => simp [Fragment.columns, ih]

mutual

/-- A segment without columns of its own reads those of its tokens' definitions. -/
theorem Segment.forall_columns {Q : Alias × String → Prop} :
    ∀ {segment : Segment}, segment.readsSource = false →
      segment.AllTokens (fun t => ∀ c ∈ t.definition.columns, Q c) → ∀ c ∈ segment.columns, Q c
  | .token _ _, _, ⟨self, _⟩ => self
  | .nested _, reads, all => Fragment.forall_columns reads (by exact all)
  | .column _ _, reads, _ => nomatch reads
  | .verbatim _, _, _ | .param _, _, _ => fun _ none => absurd none List.not_mem_nil

theorem Fragment.forall_columns {Q : Alias × String → Prop} :
    ∀ {f : Fragment}, Fragment.readsSource f = false →
      Fragment.AllTokens (fun t => ∀ c ∈ t.definition.columns, Q c) f →
        ∀ c ∈ Fragment.columns f, Q c
  | [], _, _ => fun _ none => absurd none List.not_mem_nil
  | _ :: _, reads, ⟨first, rest⟩ => by
    obtain ⟨here, later⟩ := Bool.or_eq_false_iff.1 reads
    exact List.forall_mem_append.2
      ⟨Segment.forall_columns here first, Fragment.forall_columns later rest⟩

end

mutual

theorem Segment.columns_written :
    ∀ segment : Segment, (segment.substitute fun _ => none).columns = segment.columns
  | .token _ definition => Fragment.columns_written definition
  | .nested inner => Fragment.columns_written inner
  | .verbatim _ | .column _ _ | .param _ => rfl

/-- Writing tokens out as they are defined reads the same columns. -/
theorem Fragment.columns_written :
    ∀ f : Fragment, Fragment.columns (Fragment.substitute (fun _ => none) f) = Fragment.columns f
  | [] => rfl
  | segment :: rest => by
    rw [Fragment.substitute, Fragment.columns_append, Segment.columns_written segment,
      Fragment.columns_written rest, Fragment.columns]

end

namespace Redirects

/-- Every redirect is a column of some source. -/
def Flat (r : Redirects) : Prop :=
  ∀ id f, r.lookup id = some f → ∃ source name, f = Fragment.column source name

theorem flat_empty : Flat {} := fun _ _ found => nomatch found

theorem lookup_redirect (r : Redirects) (id other : TokenId) (target : Fragment) :
    (r.redirect id target).lookup other = if other = id then some target else r.lookup other := by
  by_cases same : other = id
  · rw [if_pos same, same, lookup_redirect_self]
  · rw [if_neg same, lookup_redirect_of_ne r same]

theorem Flat.redirect {r : Redirects} (flat : r.Flat) (id : TokenId) (source : Alias)
    (name : String) : (r.redirect id (Fragment.column source name)).Flat := by
  intro other f found
  rw [lookup_redirect] at found
  split at found
  · exact ⟨source, name, (Option.some.inj found).symm⟩
  · exact flat other f found

theorem expandWithin_column (depth : Nat) (r : Redirects) (source : Alias) (name : String) :
    expandWithin depth r (Fragment.column source name) = Fragment.column source name := by
  cases depth with
  | zero => rfl
  | succ depth => rfl

theorem expand_of_flat {r : Redirects} (flat : r.Flat) (f : Fragment) :
    r.expand f = Fragment.substitute r.lookup f := by
  unfold expand
  cases stored : r.entries.length with
  | zero =>
    have none : r.lookup = fun _ => Option.none := by
      funext id
      rw [lookup, List.eq_nil_of_length_eq_zero stored]
      rfl
    rw [expandWithin, none]
  | succ depth =>
    rw [expandWithin]
    congr 1
    funext id
    cases found : r.lookup id with
    | none => rfl
    | some target =>
      obtain ⟨source, name, rfl⟩ := flat id target found
      rw [Option.map_some, expandWithin_column]

end Redirects
end QueryViews
