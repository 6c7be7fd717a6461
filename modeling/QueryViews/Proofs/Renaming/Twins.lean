import Mathlib.Data.List.Forall2
import QueryViews.Proofs.Needs

/-! Twins: expressions that are the same but for the identities in them. Tokens are paired in their
order and sources one to one, so nothing that is done with identities on the way to a statement
tells twins apart: ascending sets, needs and expansions of twins are twins again. -/

namespace QueryViews

/-- The identities of one view, each paired with the one that stands in its place in another. -/
structure Pairing where
  token : TokenId → TokenId → Prop
  source : Alias → Alias → Prop
  ascends : ∀ {t t' u u'}, token t t' → token u u' → (t.index < u.index ↔ t'.index < u'.index)
  distinguishes : ∀ {a a' b b'}, source a a' → source b b' → (a = b ↔ a' = b')

mutual

inductive Segment.Twin (ρ : Pairing) : Segment → Segment → Prop
  | verbatim (text : String) : Segment.Twin ρ (.verbatim text) (.verbatim text)
  | token {t t' : TokenId} {f f' : Fragment} : ρ.token t t' → Fragment.Twin ρ f f' →
    Segment.Twin ρ (.token t f) (.token t' f')
  | column {a a' : Alias} (name : String) : ρ.source a a' →
    Segment.Twin ρ (.column a name) (.column a' name)
  | param (value : Json) : Segment.Twin ρ (.param value) (.param value)
  | nested {f f' : Fragment} : Fragment.Twin ρ f f' → Segment.Twin ρ (.nested f) (.nested f')

inductive Fragment.Twin (ρ : Pairing) : Fragment → Fragment → Prop
  | nil : Fragment.Twin ρ [] []
  | cons {s s' : Segment} {f f' : Fragment} : Segment.Twin ρ s s' → Fragment.Twin ρ f f' →
    Fragment.Twin ρ (s :: f) (s' :: f')

end

structure Token.Twin (ρ : Pairing) (t t' : Token) : Prop where
  id : ρ.token t.id t'.id
  definition : Fragment.Twin ρ t.definition t'.definition

variable {ρ : Pairing}

theorem Pairing.token_inj {t t' u u' : TokenId} (one : ρ.token t t') (two : ρ.token u u') :
    t = u ↔ t' = u' := by
  have same : ∀ a b : TokenId, a = b ↔ ¬ a.index < b.index ∧ ¬ b.index < a.index := by
    rintro ⟨i⟩ ⟨j⟩
    simp only [TokenId.mk.injEq]
    omega
  rw [same t u, same t' u', ρ.ascends one two, ρ.ascends two one]

theorem Pairing.mem_iff {ids ids' : List TokenId} (paired : List.Forall₂ ρ.token ids ids')
    {t t' : TokenId} (same : ρ.token t t') : t ∈ ids ↔ t' ∈ ids' := by
  induction paired with
  | nil => simp
  | cons first _ ih => rw [List.mem_cons, List.mem_cons, ρ.token_inj same first, ih]

theorem Token.Twin.toSegment {t t' : Token} (twin : t.Twin ρ t') :
    t.toSegment.Twin ρ t'.toSegment := .token twin.id twin.definition

theorem Token.Twin.toFragment {t t' : Token} (twin : t.Twin ρ t') :
    t.toFragment.Twin ρ t'.toFragment := .cons twin.toSegment .nil

theorem Fragment.Twin.append {f f' g g' : Fragment} (first : Fragment.Twin ρ f f')
    (second : Fragment.Twin ρ g g') : Fragment.Twin ρ (f ++ g) (f' ++ g') := by
  induction f generalizing f' with
  | nil =>
    cases first
    exact second
  | cons s rest ih =>
    cases first with
    | cons segment others => exact .cons segment (ih others)

theorem Fragment.Twin.of_toSegments {tokens tokens' : List Token}
    (twins : List.Forall₂ (Token.Twin ρ) tokens tokens') :
    Fragment.Twin ρ (tokens.map Token.toSegment) (tokens'.map Token.toSegment) := by
  induction twins with
  | nil => exact .nil
  | cons first _ ih => exact .cons first.toSegment ih

mutual

theorem Segment.Twin.tokens : ∀ {s s' : Segment}, s.Twin ρ s' →
    List.Forall₂ (Token.Twin ρ) s.tokens s'.tokens
  | _, _, .token same below => .cons ⟨same, below⟩ .nil
  | _, _, .nested inner => inner.tokens
  | _, _, .verbatim _ | _, _, .column _ _ | _, _, .param _ => .nil

theorem Fragment.Twin.tokens : ∀ {f f' : Fragment}, Fragment.Twin ρ f f' →
    List.Forall₂ (Token.Twin ρ) (Fragment.tokens f) (Fragment.tokens f')
  | _, _, .nil => .nil
  | _, _, .cons first rest => List.rel_append first.tokens rest.tokens

end

/-- Of twin lists the same places are left out. -/
theorem Token.Twin.distinctBeyond {tokens tokens' : List Token}
    (twins : List.Forall₂ (Token.Twin ρ) tokens tokens') {seen seen' : List TokenId}
    (before : List.Forall₂ ρ.token seen seen') :
    List.Forall₂ (Token.Twin ρ) (Token.distinctBeyond seen tokens)
      (Token.distinctBeyond seen' tokens') := by
  induction twins generalizing seen seen' with
  | nil => exact .nil
  | @cons t t' _ _ first _ ih =>
    unfold Token.distinctBeyond
    by_cases known : t.id ∈ seen
    · rw [if_pos known, if_pos ((Pairing.mem_iff before first.id).1 known)]
      exact ih before
    · rw [if_neg known, if_neg fun old => known ((Pairing.mem_iff before first.id).2 old)]
      exact .cons first (ih (.cons first.id before))

theorem Token.Twin.distinct {tokens tokens' : List Token}
    (twins : List.Forall₂ (Token.Twin ρ) tokens tokens') :
    List.Forall₂ (Token.Twin ρ) (Token.distinct tokens) (Token.distinct tokens') :=
  Token.Twin.distinctBeyond twins .nil

theorem isEmpty_of_forall₂ {α β : Type} {R : α → β → Prop} {l : List α} {m : List β}
    (related : List.Forall₂ R l m) : l.isEmpty = m.isEmpty := by
  cases related with
  | nil => rfl
  | cons _ _ => rfl

namespace AscendingSet

section
variable {α β : Type} [Ranked α] [Ranked β] {R : α → β → Prop}

/-- Related members are put at the same place, if ranks are related in their order. -/
theorem forall₂_place (agree : ∀ {a b x y}, R a b → R x y →
      (Ranked.rank a < Ranked.rank x ↔ Ranked.rank b < Ranked.rank y))
    {a : α} {b : β} (same : R a b) {l : List α} {m : List β} (related : List.Forall₂ R l m) :
    List.Forall₂ R (place a l) (place b m) := by
  induction related with
  | nil => exact .cons same .nil
  | @cons x y rest others first ofRest ih =>
    have below := agree same first
    have above := agree first same
    have equal : Ranked.rank a = Ranked.rank x ↔ Ranked.rank b = Ranked.rank y := by omega
    simp only [place, below, equal]
    split
    · exact .cons same (.cons first ofRest)
    · split
      · exact .cons same ofRest
      · exact .cons first ih

theorem forall₂_insertAll (agree : ∀ {a b x y}, R a b → R x y →
      (Ranked.rank a < Ranked.rank x ↔ Ranked.rank b < Ranked.rank y))
    {members : List α} {others : List β} (related : List.Forall₂ R members others)
    {s : AscendingSet α} {t : AscendingSet β} (before : List.Forall₂ R s.toList t.toList) :
    List.Forall₂ R (s.insertAll members).toList (t.insertAll others).toList := by
  induction related generalizing s t with
  | nil => exact before
  | cons first _ ih => exact ih (forall₂_place agree first before)

end

/-- Sets of twin tokens, one by one. -/
def Twin (ρ : Pairing) (used used' : AscendingSet Token) : Prop :=
  List.Forall₂ (Token.Twin ρ) used.toList used'.toList

namespace Twin
variable {used used' more more' : AscendingSet Token}

theorem insertAll (twin : used.Twin ρ used') {tokens tokens' : List Token}
    (twins : List.Forall₂ (Token.Twin ρ) tokens tokens') :
    (used.insertAll tokens).Twin ρ (used'.insertAll tokens') :=
  forall₂_insertAll (fun one two => ρ.ascends one.id two.id) twins twin

theorem ofList {tokens tokens' : List Token}
    (twins : List.Forall₂ (Token.Twin ρ) tokens tokens') :
    (AscendingSet.ofList tokens).Twin ρ (AscendingSet.ofList tokens') := by
  have start : (AscendingSet.empty : TokenSet).Twin ρ AscendingSet.empty := List.Forall₂.nil
  exact start.insertAll twins

theorem union (twin : used.Twin ρ used') (others : more.Twin ρ more') :
    (used.union more).Twin ρ (used'.union more') := insertAll twin others

theorem isEmpty (twin : used.Twin ρ used') : used.isEmpty = used'.isEmpty :=
  isEmpty_of_forall₂ twin

end Twin
end AscendingSet

/-- Scopes that hold the same of any two paired tokens. -/
def Scope.Twin (ρ : Pairing) (scope scope' : Scope) : Prop :=
  ∀ {t t'}, ρ.token t t' → scope.contains t = scope'.contains t'

theorem Scope.Twin.ofList {ids ids' : List TokenId} (paired : List.Forall₂ ρ.token ids ids') :
    Scope.Twin ρ (AscendingSet.ofList ids) (AscendingSet.ofList ids') := by
  intro t t' same
  have listed : ∀ (ids : List TokenId) (t : TokenId),
      (AscendingSet.ofList ids).contains t = true ↔ t ∈ ids := by
    intro ids t
    rw [AscendingSet.contains, AscendingSet.containsRank_ofList, List.any_eq_true]
    constructor
    · rintro ⟨u, inside, equal⟩
      exact TokenId.eq_of_rank (eq_of_beq equal) ▸ inside
    · exact fun inside => ⟨t, inside, beq_self_eq_true _⟩
  rw [Bool.eq_iff_iff, listed, listed]
  exact Pairing.mem_iff paired same

structure Descent.Twin (ρ : Pairing) (walk walk' : Descent) : Prop where
  entered : List.Forall₂ ρ.token walk.entered walk'.entered
  met : List.Forall₂ (Token.Twin ρ) walk.met walk'.met

mutual

theorem Segment.Twin.descend {scope scope' : Scope} (scopes : Scope.Twin ρ scope scope') :
    ∀ {s s' : Segment}, s.Twin ρ s' → ∀ {walk walk' : Descent}, walk.Twin ρ walk' →
      (s.descend scope walk).Twin ρ (s'.descend scope' walk')
  | .token t f, .token t' f', .token same below, walk, walk', before => by
    unfold Segment.descend
    rw [scopes same]
    split
    · exact ⟨before.entered, .cons ⟨same, below⟩ before.met⟩
    · simp only [Pairing.mem_iff before.entered same]
      split
      · exact before
      · exact below.descend scopes ⟨.cons same before.entered, before.met⟩
  | _, _, .nested inner, _, _, before => inner.descend scopes before
  | _, _, .verbatim _, _, _, before | _, _, .column _ _, _, _, before
  | _, _, .param _, _, _, before => before

theorem Fragment.Twin.descend {scope scope' : Scope} (scopes : Scope.Twin ρ scope scope') :
    ∀ {f f' : Fragment}, Fragment.Twin ρ f f' → ∀ {walk walk' : Descent}, walk.Twin ρ walk' →
      (Fragment.descend scope f walk).Twin ρ (Fragment.descend scope' f' walk')
  | _, _, .nil, _, _, before => before
  | _, _, .cons first rest, _, _, before => rest.descend scopes (first.descend scopes before)

end

theorem AscendingSet.Twin.narrow {used used' : AscendingSet Token} (twin : used.Twin ρ used')
    {scope scope' : Scope} (scopes : Scope.Twin ρ scope scope') :
    (AscendingSet.narrow used scope).Twin ρ (AscendingSet.narrow used' scope') := by
  have walked : Descent.Twin ρ {} {} := ⟨.nil, .nil⟩
  exact .ofList ((Fragment.Twin.of_toSegments twin).descend scopes walked).met

mutual

theorem Segment.Twin.substitute {one two : TokenId → Option Fragment}
    (replaced : ∀ {t t'}, ρ.token t t' → Option.Rel (Fragment.Twin ρ) (one t) (two t')) :
    ∀ {s s' : Segment}, s.Twin ρ s' → Fragment.Twin ρ (s.substitute one) (s'.substitute two)
  | .token t f, .token t' f', .token same below => by
    unfold Segment.substitute
    have both := replaced same
    cases found : one t with
    | none =>
      cases lost : two t' with
      | none => exact below.substitute replaced
      | some g => rw [found, lost] at both; cases both
    | some f =>
      cases lost : two t' with
      | none => rw [found, lost] at both; cases both
      | some g =>
        rw [found, lost] at both
        cases both with
        | some twin => exact twin
  | _, _, .nested inner => inner.substitute replaced
  | _, _, .verbatim text => .cons (.verbatim text) .nil
  | _, _, .column name same => .cons (.column name same) .nil
  | _, _, .param value => .cons (.param value) .nil

theorem Fragment.Twin.substitute {one two : TokenId → Option Fragment}
    (replaced : ∀ {t t'}, ρ.token t t' → Option.Rel (Fragment.Twin ρ) (one t) (two t')) :
    ∀ {f f' : Fragment}, Fragment.Twin ρ f f' →
      Fragment.Twin ρ (Fragment.substitute one f) (Fragment.substitute two f')
  | _, _, .nil => .nil
  | _, _, .cons first rest => (first.substitute replaced).append (rest.substitute replaced)

end

/-- Paired tokens stand for twins, and the redirects were made in the same order. -/
def Redirects.Twin (ρ : Pairing) (r r' : Redirects) : Prop :=
  List.Forall₂ (fun entry entry' => ρ.token entry.1 entry'.1 ∧ Fragment.Twin ρ entry.2 entry'.2)
    r.entries r'.entries

namespace Redirects.Twin
variable {r r' : Redirects}

theorem lookup (twin : r.Twin ρ r') {t t' : TokenId} (same : ρ.token t t') :
    Option.Rel (Fragment.Twin ρ) (r.lookup t) (r'.lookup t') := by
  obtain ⟨entries⟩ := r
  obtain ⟨entries'⟩ := r'
  have pairs : List.Forall₂ (fun entry entry' =>
    ρ.token entry.1 entry'.1 ∧ Fragment.Twin ρ entry.2 entry'.2) entries entries' := twin
  unfold Redirects.lookup
  induction pairs with
  | nil => exact .none
  | @cons entry entry' _ _ first others ih =>
    rw [List.lookup_cons, List.lookup_cons]
    by_cases here : t = entry.1
    · have there := (ρ.token_inj same first.1).1 here
      rw [beq_iff_eq.2 here, beq_iff_eq.2 there]
      exact .some first.2
    · have away : t' ≠ entry'.1 := fun there => here ((ρ.token_inj same first.1).2 there)
      rw [beq_false_of_ne here, beq_false_of_ne away]
      exact ih others

theorem erase (twin : r.Twin ρ r') {t t' : TokenId} (same : ρ.token t t') :
    (r.erase t).Twin ρ (r'.erase t') := by
  apply List.rel_filter _ twin
  intro entry entry' paired
  simp only [decide_eq_true_eq, ne_eq, ρ.token_inj paired.1 same]

theorem redirect (twin : r.Twin ρ r') {t t' : TokenId} (same : ρ.token t t') {f f' : Fragment}
    (targets : Fragment.Twin ρ f f') : (r.redirect t f).Twin ρ (r'.redirect t' f') :=
  .cons ⟨same, targets⟩ (twin.erase same)

theorem expandWithin (depth : Nat) : ∀ {r r' : Redirects}, r.Twin ρ r' → ∀ {f f' : Fragment},
    Fragment.Twin ρ f f' →
      Fragment.Twin ρ (Redirects.expandWithin depth r f) (Redirects.expandWithin depth r' f') := by
  induction depth with
  | zero =>
    intro r r' twin f f' twins
    exact twins.substitute fun _ => .none
  | succ depth ih =>
    intro r r' twin f f' twins
    apply twins.substitute
    intro t t' same
    have found := twin.lookup same
    revert found
    generalize r.lookup t = one, r'.lookup t' = two
    intro found
    cases found with
    | none => exact .none
    | some targets => exact .some (ih (twin.erase same) targets)

theorem expand (twin : r.Twin ρ r') {f f' : Fragment} (twins : Fragment.Twin ρ f f') :
    Fragment.Twin ρ (r.expand f) (r'.expand f') := by
  unfold Redirects.expand
  rw [twin.length_eq]
  exact expandWithin _ twin twins

theorem expandToken (twin : r.Twin ρ r') {t t' : Token} (twins : t.Twin ρ t') :
    Fragment.Twin ρ (r.expandToken t) (r'.expandToken t') := twin.expand twins.toFragment

end Redirects.Twin
end QueryViews
