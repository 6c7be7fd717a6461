import QueryViews.Proofs.Fragment.Expansion
import QueryViews.Proofs.Needs
import QueryViews.Proofs.StepBody

/-! What a bracket does to a build: which names it selects tokens under, and what tokens stand
for once it is made. -/

namespace QueryViews

theorem lookup_eq_some_of_mem {κ α : Type} [BEq κ] [LawfulBEq κ] {entries : List (κ × α)} {k : κ}
    {a : α} (distinct : (entries.map Prod.fst).Nodup) (member : (k, a) ∈ entries) :
    entries.lookup k = some a := by
  induction entries with
  | nil => exact absurd member List.not_mem_nil
  | cons entry rest ih =>
    obtain ⟨fresh, others⟩ := List.nodup_cons.1 distinct
    rcases List.mem_cons.1 member with rfl | later
    · exact List.lookup_cons_self
    · have different : k ≠ entry.1 := by
        rintro rfl
        exact fresh (List.mem_map.2 ⟨_, later, rfl⟩)
      rw [List.lookup_cons, beq_false_of_ne different]
      exact ih others later

theorem mem_of_lookup_eq_some {κ α : Type} [BEq κ] [LawfulBEq κ] {entries : List (κ × α)} {k : κ}
    {a : α} (found : entries.lookup k = some a) : (k, a) ∈ entries := by
  obtain ⟨before, after, rfl, -⟩ := List.lookup_eq_some_iff.1 found
  exact List.mem_append_right before List.mem_cons_self

theorem Settings.columnName_injective (s : Settings) {i j : Nat}
    (same : s.columnName i = s.columnName j) : i = j := by
  have digits : Nat.repr i = Nat.repr j := (String.append_right_inj _).1 same
  have chars : Nat.toDigits 10 i = Nat.toDigits 10 j := by
    rw [← Nat.toList_repr, ← Nat.toList_repr, digits]
  rw [← @Nat.ofDigitChars_ten_toDigits i, chars, Nat.ofDigitChars_ten_toDigits]

namespace Build

theorem map_fst_outputNames (settings : Settings) (targets : List Token) :
    (outputNames settings targets).map Prod.fst = Token.distinct targets := by
  refine List.ext_getElem (by simp [outputNames]) fun i _ _ => ?_
  simp [outputNames]

theorem nodup_outputNames (settings : Settings) (targets : List Token) :
    ((outputNames settings targets).map Prod.snd).Nodup := by
  have shape : (outputNames settings targets).map Prod.snd =
      (List.range (Token.distinct targets).length).map settings.columnName := by
    refine List.ext_getElem (by simp [outputNames]) fun i _ _ => ?_
    simp [outputNames]
  rw [shape]
  exact List.pairwise_map.2 (List.nodup_range.imp fun different same =>
    different (settings.columnName_injective same))

theorem mem_of_mem_outputNames {settings : Settings} {targets : List Token} {entry : Token × String}
    (listed : entry ∈ outputNames settings targets) : entry.1 ∈ targets := by
  have kept : entry.1 ∈ Token.distinct targets := by
    rw [← map_fst_outputNames settings]
    exact List.mem_map_of_mem listed
  exact Token.mem_distinct kept

variable (b : Build) (body : Body) (targets : List Token)

theorem names_eq : (b.statement body targets).2 =
    (outputNames b.settings targets).map fun entry => (entry.1.id, entry.2) := rfl

theorem columns_eq : (b.statement body targets).1.columns =
    (outputNames b.settings targets).map fun entry =>
      ⟨b.redirects.expandToken entry.1, entry.2⟩ := rfl

theorem nodup_columnNames :
    ((b.statement body targets).1.columns.map OutputColumn.name).Nodup := by
  have all := nodup_outputNames b.settings targets
  rw [columns_eq, List.map_map]
  exact all

theorem nodup_names : ((b.statement body targets).2.map Prod.fst).Nodup := by
  have shape : (b.statement body targets).2.map Prod.fst =
      ((outputNames b.settings targets).map Prod.fst).map Token.id := by
    rw [names_eq, List.map_map, List.map_map]
    rfl
  rw [shape, map_fst_outputNames]
  exact Token.nodup_distinct targets

variable {b body targets}

/-- A name is looked up for the token whose expression is selected under it. -/
theorem column_of_lookup {id : TokenId} {name : String}
    (found : (b.statement body targets).2.lookup id = some name) :
    ∃ t ∈ Token.distinct targets, t.id = id ∧
      ⟨b.redirects.expandToken t, name⟩ ∈ (b.statement body targets).1.columns := by
  obtain ⟨entry, listed, same⟩ := List.mem_map.1 (mem_of_lookup_eq_some found)
  obtain ⟨rfl, rfl⟩ := Prod.mk.inj same
  refine ⟨entry.1, ?_, rfl, List.mem_map.2 ⟨entry, listed, rfl⟩⟩
  rw [← map_fst_outputNames b.settings]
  exact List.mem_map_of_mem listed

theorem exists_lookup {t : Token} (member : t ∈ targets) :
    ∃ name, (b.statement body targets).2.lookup t.id = some name := by
  obtain ⟨u, kept, same⟩ := Token.exists_mem_distinct member
  rw [← map_fst_outputNames b.settings] at kept
  obtain ⟨entry, listed, rfl⟩ := List.mem_map.1 kept
  exact ⟨entry.2, lookup_eq_some_of_mem (nodup_names b body targets)
    (List.mem_map.2 ⟨entry, listed, by rw [← same]⟩)⟩

theorem lookup_eq_none {id : TokenId} (absent : ∀ t ∈ targets, t.id ≠ id) :
    (b.statement body targets).2.lookup id = none := by
  cases found : (b.statement body targets).2.lookup id with
  | none => rfl
  | some name =>
    obtain ⟨t, kept, same, -⟩ := column_of_lookup found
    exact absurd same (absent t (Token.mem_distinct kept))

theorem lookup_redirectAll {names : List (TokenId × String)} (source : Alias)
    (distinct : (names.map Prod.fst).Nodup) (id : TokenId) :
    (b.redirectAll source names).redirects.lookup id =
      ((names.lookup id).map (Fragment.column source)).or (b.redirects.lookup id) := by
  induction names generalizing b with
  | nil => rfl
  | cons entry rest ih =>
    obtain ⟨fresh, others⟩ := List.nodup_cons.1 distinct
    have step : b.redirectAll source (entry :: rest) =
        ({ b with
          redirects := b.redirects.redirect entry.1 (Fragment.column source entry.2) } :
            Build).redirectAll source rest := rfl
    rw [step, ih others, Redirects.lookup_redirect, List.lookup_cons]
    by_cases same : id = entry.1
    · subst same
      have absent : rest.lookup entry.1 = none := by
        refine List.lookup_eq_none_iff.2 fun other listed => bne_iff_ne.2 ?_
        intro same
        exact fresh (List.mem_map.2 ⟨other, listed, same.symm⟩)
      simp [absent]
    · rw [if_neg same, beq_false_of_ne same]

/-- The source that the next bracket makes. -/
def nextAlias (b : Build) : Alias := ⟨b.supply.aliases⟩

/-- The build once the targets of a body are selected by a subquery. -/
def bracketed (b : Build) (body : Body) (targets : List Token) : Build :=
  ({ b with supply := b.supply.takeAlias.2 } : Build).redirectAll b.nextAlias
    (b.statement body targets).2

theorem lookup_bracketed (b : Build) (body : Body) (targets : List Token) (id : TokenId) :
    (b.bracketed body targets).redirects.lookup id =
      (((b.statement body targets).2.lookup id).map (Fragment.column b.nextAlias)).or
        (b.redirects.lookup id) :=
  lookup_redirectAll b.nextAlias (nodup_names b body targets) id

/-- Tokens that are not selected stand for what they stood for. -/
theorem lookup_bracketed_of_unselected {b : Build} (body : Body) {targets : List Token}
    {id : TokenId} (absent : ∀ t ∈ targets, t.id ≠ id) :
    (b.bracketed body targets).redirects.lookup id = b.redirects.lookup id := by
  rw [lookup_bracketed, lookup_eq_none absent]
  rfl

theorem lookup_bracketed_eq_some {b : Build} {body : Body} {targets : List Token} {id : TokenId}
    {f : Fragment} (found : (b.bracketed body targets).redirects.lookup id = some f) :
    b.redirects.lookup id = some f ∨ ∃ name, f = Fragment.column b.nextAlias name := by
  rw [lookup_bracketed] at found
  rcases Option.or_eq_some_iff.1 found with selected | ⟨-, before⟩
  · obtain ⟨name, -, rfl⟩ := Option.map_eq_some_iff.1 selected
    exact .inr ⟨name, rfl⟩
  · exact .inl before

theorem flat_bracketed {b : Build} (flat : b.redirects.Flat) (body : Body) (targets : List Token) :
    (b.bracketed body targets).redirects.Flat := by
  intro id f found
  rcases lookup_bracketed_eq_some found with before | ⟨name, column⟩
  · exact flat id f before
  · exact ⟨_, name, column⟩

/-- A selected token stands for its output column. -/
theorem expandToken_bracketed {b : Build} {body : Body} (flat : b.redirects.Flat)
    {targets : List Token} {t : Token} {name : String}
    (found : (b.statement body targets).2.lookup t.id = some name) :
    (b.bracketed body targets).redirects.expandToken t = Fragment.column b.nextAlias name := by
  have stands : (b.bracketed body targets).redirects.lookup t.id =
      some (Fragment.column b.nextAlias name) := by
    rw [lookup_bracketed, found]
    rfl
  rw [Redirects.expandToken, Redirects.expand_of_flat (flat_bracketed flat _ _)]
  simp [Token.toFragment, Token.toSegment, Fragment.substitute, Segment.substitute, stands]

@[simp] theorem aliases_bracketed (b : Build) (body : Body) (targets : List Token) :
    (b.bracketed body targets).supply.aliases = b.supply.aliases + 1 := rfl

/-- The build with a decision kept if it has a label. -/
def noted (b : Build) (label : Option String) (state : ClauseSet) : Build :=
  { b with decisions := b.decisions ++ (label.map fun name => (name, state)).toList }

end Build

namespace Building

theorem run_bracket (b : Build) (body : Body) (used : TokenSet) :
    (bracket body used).run b =
      (Body.ofSource (.subquery (b.statement body used.toList).1 b.nextAlias),
        b.bracketed body used.toList) := rfl

theorem run_bracketOn (blockers : ClauseSet) (b : Build) (body : Body) (used : TokenSet) :
    (bracketOn blockers body used).run b =
      if body.state.meets blockers then (bracket body used).run b else (body, b) := by
  rw [bracketOn]
  split
  · rfl
  · rfl

theorem run_makeRoom (s : Step) (observed : Bool) (b : Build) (body : Body) (needs : TokenSet) :
    (makeRoom s observed body needs).run b =
      if s.brackets observed body.state then
        (bracket body needs).run (b.noted s.label body.state)
      else (body, b.noted s.label body.state) := by
  have decided : (decide s.label body.state (s.brackets observed body.state)).run b =
      (s.brackets observed body.state, b.noted s.label body.state) := by
    cases s.label with
    | none => simp [decide, Build.noted]; rfl
    | some name => rfl
  rw [makeRoom, StateT.run_bind, decided]
  cases s.brackets observed body.state with
  | true => rfl
  | false => rfl

end Building

theorem View.run_body_onto (v : View) (s : Step) (used : TokenSet) (observed : Bool) (b : Build) :
    ((s.onto v).body used observed).run b =
      let needs := s.needs observed v.scope used
      let built := (v.body needs (s.observes observed)).run b
      let room := (Building.makeRoom s observed built.1 needs).run built.2
      (s.extend observed room.1, room.2) := by
  rw [View.body_onto]
  rfl

end QueryViews
