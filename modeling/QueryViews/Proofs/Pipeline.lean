import QueryViews.Proofs.Fragment.Expansion
import QueryViews.Proofs.Steps

/-! Pipelines: a table with accepted steps on top of it, and what the steps refer to. -/

namespace QueryViews

/-- All tokens and aliases that one supply has handed out have been handed out by the other. -/
structure Supply.Before (supply later : Supply) : Prop where
  tokens : supply.tokens ≤ later.tokens
  aliases : supply.aliases ≤ later.aliases

/-- A token made by the supply: its identity has one definition, and its number and those of the
sources it reads have been handed out. -/
structure Token.IssuedBy (definitions : TokenId → Fragment) (supply : Supply) (t : Token) :
    Prop where
  definition : t.definition = definitions t.id
  number : t.id.index < supply.tokens
  columns : ∀ c ∈ t.definition.columns, c.1.index < supply.aliases

section Issued
variable {definitions : TokenId → Fragment} {supply : Supply}

theorem Fragment.columns_issued {f : Fragment}
    (issued : Fragment.AllTokens (Token.IssuedBy definitions supply) f)
    (free : Fragment.readsSource f = false) :
    ∀ c ∈ Fragment.columns f, c.1.index < supply.aliases :=
  Fragment.forall_columns free (issued.mono fun _ made => made.columns)

theorem Token.columns_issued {t : Token} (issued : t.AllTokens (Token.IssuedBy definitions supply)) :
    ∀ c ∈ t.toFragment.columns, c.1.index < supply.aliases :=
  Fragment.columns_issued (Fragment.allTokens_toFragment.2 issued) rfl

theorem Token.eq_of_issued {t u : Token} (first : t.IssuedBy definitions supply)
    (second : u.IssuedBy definitions supply) (same : t.id = u.id) : t = u := by
  obtain ⟨id, definition⟩ := t
  obtain ⟨other, meaning⟩ := u
  obtain rfl : id = other := same
  exact congrArg (Token.mk id) (first.definition.trans second.definition.symm)

theorem Template.AllTokens.mem_tokenSet {template : Template}
    (issued : template.AllTokens (Token.IssuedBy definitions supply)) {t : Token}
    (listed : t ∈ template.tokens) : t ∈ template.tokenSet.toList := by
  obtain ⟨c, inside, rfl⟩ := List.mem_map.1 (Token.mem_distinct listed)
  obtain ⟨u, member, same⟩ := AscendingSet.holds_iff.1 (Template.holds_tokenSet.2 ⟨c, inside, rfl⟩)
  exact Token.eq_of_issued (issued.tokenSet u member).self (issued c inside).self same ▸ member

end Issued

/-- All expressions of an accepted step are in reach, not only those of its distinct tokens. -/
theorem Step.Accepted.fragments_of_defined {definitions : TokenId → Fragment} {s : Step}
    {scope : Scope} (fits : s.Accepted scope)
    (defined : s.AllTokens fun t => t.definition = definitions t.id) :
    ∀ f ∈ s.fragments, Fragment.inReach scope f = true := by
  have ofTemplate : ∀ t : Template, (t.AllTokens fun u => u.definition = definitions u.id) →
      (∀ u ∈ t.tokens, u.inReach scope = true) →
      ∀ c ∈ t.columns, Fragment.inReach scope c.toFragment = true := by
    intro t made reached c inside
    obtain ⟨u, listed, same⟩ := Token.exists_mem_distinct (List.mem_map_of_mem inside)
    have equal := Token.eq_of_id (made.tokens u listed).self (made c inside).self same
    exact Token.inReach_toFragment.2 (equal ▸ reached u listed)
  intro f member
  cases s with
  | filter condition =>
    obtain rfl := List.mem_singleton.1 member
    exact fits
  | project template =>
    obtain ⟨c, inside, rfl⟩ := List.mem_map.1 member
    exact ofTemplate template defined.project fits c inside
  | group keys content =>
    obtain ⟨c, inside, rfl⟩ := List.mem_map.1 member
    rcases List.mem_append.1 inside with ofKeys | ofContent
    · exact ofTemplate keys defined.group.1 fits.1 c ofKeys
    · exact ofTemplate content defined.group.2 fits.2 c ofContent
  | order items =>
    obtain ⟨item, listed, rfl⟩ := List.mem_map.1 member
    exact fits item listed
  | take | skip | bracket => exact absurd member List.not_mem_nil

theorem Step.Accepted.fragments {definitions : TokenId → Fragment} {supply : Supply} {s : Step}
    {scope : Scope} (fits : s.Accepted scope)
    (issued : s.AllTokens (Token.IssuedBy definitions supply)) :
    ∀ f ∈ s.fragments, Fragment.inReach scope f = true :=
  fits.fragments_of_defined fun f given => (issued f given).mono fun _ made => made.definition

mutual

/-- Tokens on the way down to the scope that the scope does not hold themselves. -/
def Segment.passed (scope : Scope) : Segment → List Token
  | .token id definition =>
    if scope.contains id then [] else ⟨id, definition⟩ :: Fragment.passed scope definition
  | .nested inner => Fragment.passed scope inner
  | .verbatim _ | .column _ _ | .param _ => []

def Fragment.passed (scope : Scope) : Fragment → List Token
  | [] => []
  | segment :: rest => segment.passed scope ++ Fragment.passed scope rest

end

theorem Token.passed_toFragment {scope : Scope} {t : Token} (held : scope.contains t.id = true) :
    Fragment.passed scope t.toFragment = [] := by
  simp [Token.toFragment, Token.toSegment, Fragment.passed, Segment.passed, held]

namespace View

/-- The identities that the template of the view, or of a view below it, has held. -/
def past : View → List TokenId
  | .table _ _ template => template.columns.map (·.token.id)
  | .project input template => template.columns.map (·.token.id) ++ input.past
  | .group input keys content => (keys.columns ++ content.columns).map (·.token.id) ++ input.past
  | .filter input _ | .order input _ | .take input _ | .skip input _ | .bracket input _ =>
    input.past
  | .join base extra _ _ _ => base.past ++ extra.past

end View

/-- Some expression of the step goes through a token that an earlier template held and the
template of the view does not hold any more. -/
def Step.Recalls (v : View) (s : Step) : Prop :=
  ∃ f ∈ s.fragments, ∃ t ∈ Fragment.passed v.scope f, t.id ∈ v.past

instance (v : View) (s : Step) : Decidable (s.Recalls v) :=
  inferInstanceAs (Decidable (∃ f ∈ s.fragments, ∃ t ∈ Fragment.passed v.scope f, t.id ∈ v.past))

namespace View

theorem mem_past_of_contains {v : View} {id : TokenId} (held : v.scope.contains id = true) :
    id ∈ v.past := by
  induction v with
  | table text source template =>
    obtain ⟨c, inside, rfl⟩ := Template.contains_scope.1 held
    exact List.mem_map.2 ⟨c, inside, rfl⟩
  | project input template =>
    obtain ⟨c, inside, rfl⟩ := Template.contains_scope.1 held
    exact List.mem_append_left _ (List.mem_map.2 ⟨c, inside, rfl⟩)
  | group input keys content =>
    obtain ⟨c, inside, rfl⟩ := Template.contains_scope.1 held
    rw [template, Template.columns_pair] at inside
    exact List.mem_append_left _ (List.mem_map.2 ⟨c, inside, rfl⟩)
  | filter input _ ih | order input _ ih | take input _ ih | skip input _ ih | bracket input _ ih =>
    exact ih held
  | join base extra mode withNull condition ofBase ofExtra =>
    rcases contains_scope_join.1 held with onBase | onExtra
    · exact List.mem_append_left _ (ofBase onBase)
    · exact List.mem_append_right _ (ofExtra onExtra)

theorem mem_past_onto {v : View} (s : Step) {id : TokenId} (earlier : id ∈ v.past) :
    id ∈ (s.onto v).past := by
  cases s with
  | project | group => exact List.mem_append_right _ earlier
  | filter | order | take | skip | bracket => exact earlier

/-- No step of the sequence, in the order of the calls, recalls a dropped token. -/
def RecallFree (v : View) : List Step → Prop
  | [] => True
  | s :: rest => ¬ s.Recalls v ∧ (s.onto v).RecallFree rest

instance decideRecallFree : ∀ (v : View) (steps : List Step), Decidable (v.RecallFree steps)
  | _, [] => .isTrue trivial
  | v, s :: rest => @instDecidableAnd _ _ inferInstance (decideRecallFree (s.onto v) rest)

/-- The view with steps on top of it, the last one first. -/
def under (v : View) (above : List Step) : View := above.foldr (fun s input => s.onto input) v

theorem applyAll_concat {v w : View} {steps : List Step} {s : Step} :
    v.applyAll (steps ++ [s]) = .ok w ↔
      ∃ u, v.applyAll steps = .ok u ∧ u.apply s = .ok w := by
  rw [applyAll, List.foldlM_append, Except.bind_eq_ok_iff]
  refine exists_congr fun u => and_congr_right fun _ => ?_
  rw [List.foldlM_cons, Except.bind_eq_ok_iff]
  refine ⟨?_, fun last => ⟨w, last, rfl⟩⟩
  rintro ⟨_, last, same⟩
  obtain rfl := Except.ok.inj same
  exact last

/-- What holds of the start and is kept by every accepted call holds of the whole run. -/
theorem applyAll_induction {start : View}
    {motive : ∀ steps v, start.applyAll steps = .ok v → Prop}
    (nil : motive [] start rfl)
    (concat : ∀ steps s v (before : start.applyAll steps = .ok v) (fits : s.Accepted v.scope),
      motive steps v before → motive (steps ++ [s]) (s.onto v)
        (applyAll_concat.2 ⟨v, before, apply_eq_ok_iff.2 ⟨fits, rfl⟩⟩))
    {steps : List Step} {v : View} (made : start.applyAll steps = .ok v) :
    motive steps v made := by
  -- steps are put on at the end, so the list is taken apart from there
  have runs : ∀ (latest : List Step) v (made : start.applyAll latest.reverse = .ok v),
      motive latest.reverse v made := by
    intro latest
    induction latest with
    | nil =>
      intro v made
      obtain rfl := Except.ok.inj made
      exact nil
    | cons s earlier ih =>
      intro v
      rw [List.reverse_cons]
      intro made
      obtain ⟨u, before, last⟩ := applyAll_concat.1 made
      obtain ⟨fits, rfl⟩ := apply_eq_ok_iff.1 last
      exact concat _ s u before fits (ih u before)
  have all := runs steps.reverse v
  rw [List.reverse_reverse] at all
  exact all made

theorem allTokens_template {start v : View} {P : Token → Prop} {steps : List Step}
    (ofStart : start.template.AllTokens P) (ofSteps : ∀ s ∈ steps, s.AllTokens P)
    (made : start.applyAll steps = .ok v) : v.template.AllTokens P := by
  induction made using applyAll_induction with
  | nil => exact ofStart
  | concat steps s v before fits ih =>
    obtain ⟨earlier, latest⟩ := List.forall_mem_append.1 ofSteps
    exact Step.AllTokens.onto (latest s (List.mem_singleton_self s)) (ih earlier)

theorem eq_under_of_applyAll {start v : View} {steps : List Step}
    (made : start.applyAll steps = .ok v) : v = start.under steps.reverse := by
  induction made using applyAll_induction with
  | nil => rfl
  | concat steps s v before fits ih =>
    rw [List.reverse_concat, under, List.foldr_cons, ih]
    rfl

theorem recallFree_concat {start v : View} {steps : List Step} {s : Step}
    (made : start.applyAll steps = .ok v) :
    start.RecallFree (steps ++ [s]) ↔ start.RecallFree steps ∧ ¬ s.Recalls v := by
  induction steps generalizing start with
  | nil =>
    obtain rfl := Except.ok.inj made
    simp [RecallFree]
  | cons first rest ih =>
    obtain ⟨middle, applied, onwards⟩ := Except.bind_eq_ok_iff.1 made
    obtain ⟨-, rfl⟩ := apply_eq_ok_iff.1 applied
    rw [List.cons_append, RecallFree, RecallFree, ih onwards, and_assoc]

end View
end QueryViews
