import QueryViews.Proofs.Join.Shadowing

/-! Sources of a built body: they are tables of its view, or they were numbered while it was built.
Redirects made on the way stand for columns of them. -/

namespace QueryViews

/-- Every redirect is a column of one of these sources. -/
def Redirects.Into (r : Redirects) (made : List Alias) : Prop :=
  ∀ id f, r.lookup id = some f → ∃ a ∈ made, ∃ name, f = Fragment.column a name

namespace Redirects.Into
variable {r : Redirects} {made : List Alias}

theorem flat (into : r.Into made) : r.Flat := by
  intro id f found
  obtain ⟨a, -, name, column⟩ := into id f found
  exact ⟨a, name, column⟩

theorem mono {more : List Alias} (into : r.Into made) (within : ∀ a ∈ made, a ∈ more) :
    r.Into more := by
  intro id f found
  obtain ⟨a, inside, column⟩ := into id f found
  exact ⟨a, within a inside, column⟩

/-- Where such redirects leak, one of these sources is read. -/
theorem exists_read (into : r.Into made) {columns : List (Alias × String)}
    (leaks : r.LeaksInto columns) : ∃ c ∈ columns, c.1 ∈ made := by
  obtain ⟨id, source, name, found, read⟩ := leaks
  obtain ⟨a, inside, other, same⟩ := into id _ found
  simp only [Fragment.column, List.cons.injEq, Segment.column.injEq] at same
  exact ⟨_, read, same.1.1 ▸ inside⟩

end Redirects.Into

namespace Build

/-- From one build to a later one, with these sources coming in and tables among them. -/
structure Grows (tables : Alias → Prop) (made : List Alias) (before after : Build) : Prop where
  settings : after.settings = before.settings
  supply : before.supply.aliases ≤ after.supply.aliases
  numbered : ∀ a ∈ made, tables a ∨
    before.supply.aliases ≤ a.index ∧ a.index < after.supply.aliases
  redirects : ∀ id f, after.redirects.lookup id = some f →
    before.redirects.lookup id = some f ∨ ∃ a ∈ made, ∃ name, f = Fragment.column a name

namespace Grows
variable {tables others : Alias → Prop} {one two : List Alias} {first second third : Build}

theorem append (before : Grows tables one first second) (after : Grows others two second third) :
    Grows (fun a => tables a ∨ others a) (one ++ two) first third where
  settings := after.settings.trans before.settings
  supply := Nat.le_trans before.supply after.supply
  numbered a inside := by
    have lower := before.supply
    have upper := after.supply
    rcases List.mem_append.1 inside with earlier | later
    · exact (before.numbered a earlier).imp .inl (by omega)
    · exact (after.numbered a later).imp .inr (by omega)
  redirects id f found := by
    rcases after.redirects id f found with kept | ⟨a, inside, column⟩
    · rcases before.redirects id f kept with start | ⟨a, inside, column⟩
      · exact .inl start
      · exact .inr ⟨a, List.mem_append_left _ inside, column⟩
    · exact .inr ⟨a, List.mem_append_right _ inside, column⟩

theorem mono (grows : Grows tables one first second) (known : ∀ a, tables a → others a)
    (same : ∀ a, a ∈ two ↔ a ∈ one) : Grows others two first second where
  settings := grows.settings
  supply := grows.supply
  numbered a inside := (grows.numbered a ((same a).1 inside)).imp_left (known a)
  redirects id f found := (grows.redirects id f found).imp_right fun ⟨a, inside, column⟩ =>
    ⟨a, (same a).2 inside, column⟩

theorem of_noted {label : Option String} {state : ClauseSet}
    (grows : Grows tables one (first.noted label state) second) : Grows tables one first second :=
  ⟨grows.settings, grows.supply, grows.numbered, grows.redirects⟩

/-- From nothing redirected, all redirects are columns of what came in. -/
theorem into (grows : Grows tables one first second) (fresh : first.redirects = {}) :
    second.redirects.Into one := by
  intro id f found
  refine (grows.redirects id f found).resolve_left fun earlier => ?_
  rw [fresh] at earlier
  exact nomatch earlier

end Grows

theorem grows_bracketIf (b : Build) (applies : Bool) (body : Body) (needs : TokenSet) :
    Grows (fun _ => False) (b.madeIf applies) b (b.bracketIf applies body needs).2 := by
  cases applies with
  | false => exact ⟨rfl, Nat.le_refl _, fun _ absent => absurd absent List.not_mem_nil,
      fun _ _ found => .inl found⟩
  | true =>
    refine ⟨rfl, Nat.le_succ _, fun a inside => ?_, fun id f found => ?_⟩
    · obtain rfl := List.mem_singleton.1 inside
      exact .inr ⟨Nat.le_refl _, Nat.lt_succ_self _⟩
    · have bracketed : (b.bracketed body needs.toList).redirects.lookup id = some f := found
      exact (lookup_bracketed_eq_some bracketed).imp_right fun ⟨name, column⟩ =>
        ⟨b.nextAlias, List.mem_singleton_self _, name, column⟩

end Build

theorem Step.aliases_extend (s : Step) (observed : Bool) (b : Body) :
    (s.extend observed b).aliases = b.aliases := by
  rw [Body.aliases, source_extend, joins_extend, Body.aliases]

theorem Step.sources_onto (s : Step) (v : View) : (s.onto v).sources = v.sources := by
  cases s with
  | filter | project | group | order | take | skip | bracket => rfl

namespace View

theorem mem_sources_iff {v : View} {a : Alias} :
    a ∈ v.sources.toList ↔ v.sources.contains a = true := by
  rw [AscendingSet.contains, AscendingSet.containsRank_iff]
  constructor
  · exact fun inside => ⟨a, inside, rfl⟩
  · rintro ⟨b, inside, same⟩
    obtain rfl : b = a := congrArg Alias.mk same
    exact inside

/-- Sides that can be joined read different tables. -/
theorem sources_apart {base extra : View} (accepted : ensureSides base extra = .ok ()) {a : Alias}
    (inBase : base.sources.contains a = true) : extra.sources.contains a = false :=
  (ensureSides_eq_ok_iff.1 accepted).1 a (mem_sources_iff.2 inBase)

theorem contains_sources_join {base extra : View} {mode : JoinMode} {withNull : Bool}
    {condition : Fragment} {a : Alias} :
    (View.join base extra mode withNull condition).sources.contains a = true ↔
      base.sources.contains a = true ∨ extra.sources.contains a = true :=
  AscendingSet.contains_union

theorem grows_sides {base extra : View}
    (ofBase : ∀ used observed (b : Build), Build.Grows (fun a => base.sources.contains a = true)
      ((base.body used observed).run b).1.aliases b ((base.body used observed).run b).2)
    (ofExtra : ∀ used observed (b : Build), Build.Grows (fun a => extra.sources.contains a = true)
      ((extra.body used observed).run b).1.aliases b ((extra.body used observed).run b).2)
    (mode : JoinMode) (condition : Fragment) (used : TokenSet) (observed : Bool) (b : Build) :
    let both := (base.sides extra mode condition used observed).run b
    Build.Grows (fun a => base.sources.contains a = true ∨ extra.sources.contains a = true)
      (both.1.1.aliases ++ both.1.2.aliases) b both.2 := by
  rw [run_sides]
  have first := ofBase (base.joinNeeds condition used) observed b
  have second := ofExtra (extra.joinNeeds condition used) false
    ((base.body (base.joinNeeds condition used) observed).run b).2
  refine (((first.append second).append (Build.grows_bracketIf _ _ _ _)).append
    (Build.grows_bracketIf _ _ _ _)).mono (fun a => ?_) fun a => ?_
  · simp
  · simp only [List.mem_append, Build.mem_aliases_bracketIf, or_assoc]
    exact or_congr_right or_left_comm

/-- The sources of a built body are tables of the view or numbered on the way, and so are those
that tokens were redirected to. -/
theorem grows_body (v : View) : ∀ used observed (b : Build),
    Build.Grows (fun a => v.sources.contains a = true) ((v.body used observed).run b).1.aliases b
      ((v.body used observed).run b).2 := by
  induction v using induction_onto with
  | table text id template =>
    intro used observed b
    refine ⟨rfl, Nat.le_refl _, fun a inside => .inl ?_, fun _ _ found => .inl found⟩
    have only : a ∈ [id] ++ [] := inside
    obtain rfl := List.mem_singleton.1 only
    simp [sources, AscendingSet.singleton, AscendingSet.contains]
  | onto s v ih =>
    intro used observed b
    simp only [run_body_onto, Build.run_makeRoom, Step.aliases_extend, Step.sources_onto]
    have below := ih (s.needs observed v.scope used) (s.observes observed) b
    refine (below.append (Build.grows_bracketIf _ _ _ _).of_noted).mono ?_ fun a => ?_
    · exact fun a either => either.resolve_right not_false
    · exact (Build.mem_aliases_bracketIf _ _ _).trans List.mem_append.symm
  | join base extra mode withNull condition ofBase ofExtra =>
    intro used observed b
    have fromBase : ∀ a, base.sources.contains a = true →
        (View.join base extra mode withNull condition).sources.contains a = true :=
      fun a table => contains_sources_join.2 (.inl table)
    have fromExtra : ∀ a, extra.sources.contains a = true →
        (View.join base extra mode withNull condition).sources.contains a = true :=
      fun a table => contains_sources_join.2 (.inr table)
    rw [body_join]
    by_cases withoutExtra : extra.dropsExtra mode used
    · rw [if_pos withoutExtra]
      have only := ofBase (used.narrow base.scope) observed b
      exact only.mono fromBase fun a => Iff.rfl
    · rw [if_neg withoutExtra]
      by_cases withoutBase : base.dropsBase mode withNull observed used
      · rw [if_pos withoutBase]
        have only := ofExtra (used.narrow extra.scope) observed b
        exact only.mono fromExtra fun a => Iff.rfl
      · rw [if_neg withoutBase]
        have both := grows_sides ofBase ofExtra mode condition used observed b
        refine both.mono (fun a => ?_) fun a => Body.mem_aliases_join.trans List.mem_append.symm
        exact fun either => either.elim (fromBase a) (fromExtra a)

end View
end QueryViews
