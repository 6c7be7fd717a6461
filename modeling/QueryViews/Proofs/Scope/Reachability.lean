import QueryViews.Proofs.Fragment.Touched
import QueryViews.Proofs.Steps

/-! The check on what an expression refers to is exact. Written out down to the tokens of the scope,
an expression that passes reads no source column, and one that does not pass reads one; the error
names what reads the first. -/

namespace QueryViews

mutual

/-- Tokens are replaced by their definitions, except for those that the scope holds. -/
def Segment.unfolded (scope : Scope) : Segment → Segment
  | .token id definition =>
    if scope.contains id then .token id definition
    else .nested (Fragment.unfolded scope definition)
  | .nested inner => .nested (Fragment.unfolded scope inner)
  | .verbatim text => .verbatim text
  | .column source name => .column source name
  | .param value => .param value

def Fragment.unfolded (scope : Scope) : Fragment → Fragment
  | [] => []
  | segment :: rest => segment.unfolded scope :: Fragment.unfolded scope rest

end

mutual

theorem Segment.readsSource_eq_false_iff :
    ∀ {segment : Segment}, segment.readsSource = false ↔ segment.ownColumns = []
  | .nested _ => Fragment.readsSource_eq_false_iff
  | .column _ _ => iff_of_false nofun (List.cons_ne_nil _ _)
  | .token _ _ | .verbatim _ | .param _ => iff_of_true rfl rfl

theorem Fragment.readsSource_eq_false_iff :
    ∀ {f : Fragment}, Fragment.readsSource f = false ↔ Fragment.ownColumns f = []
  | [] => iff_of_true rfl rfl
  | segment :: rest => by
    rw [Fragment.readsSource, Fragment.ownColumns, Bool.or_eq_false_iff, List.append_eq_nil_iff,
      Segment.readsSource_eq_false_iff, Fragment.readsSource_eq_false_iff]

end

mutual

theorem Segment.inReach_iff_unfolded {scope : Scope} :
    ∀ {segment : Segment}, segment.inReach scope = true ↔
      (segment.unfolded scope).ownColumns = []
  | .token id definition => by
    rw [Segment.inReach_token, Segment.unfolded]
    cases scope.contains id with
    | true => exact iff_of_true rfl rfl
    | false => exact Fragment.inReach_iff_unfolded
  | .nested _ => Fragment.inReach_iff_unfolded
  | .column _ _ => iff_of_false Bool.false_ne_true (List.cons_ne_nil _ _)
  | .verbatim _ | .param _ => iff_of_true rfl rfl

/-- In reach is what reads no source column once it is written out down to the scope. -/
theorem Fragment.inReach_iff_unfolded {scope : Scope} :
    ∀ {f : Fragment}, Fragment.inReach scope f = true ↔
      Fragment.ownColumns (Fragment.unfolded scope f) = []
  | [] => iff_of_true rfl rfl
  | segment :: rest => by
    rw [Fragment.inReach, Fragment.unfolded, Fragment.ownColumns, Bool.and_eq_true,
      List.append_eq_nil_iff, Segment.inReach_iff_unfolded, Fragment.inReach_iff_unfolded]

end

/-- Nothing that the token is built on reads a source column, down to the tokens of the scope. -/
def Token.Sheltered (scope : Scope) (t : Token) : Prop :=
  (t.toFragment.unfolded scope).ownColumns = []

theorem Token.inReach_iff_sheltered {scope : Scope} {t : Token} :
    t.inReach scope = true ↔ t.Sheltered scope := by
  rw [Sheltered, ← Fragment.inReach_iff_unfolded, Token.inReach_toFragment]

/-- The identity of the first of the tokens that is built on a source column. -/
def Token.FirstExposed (scope : Scope) (tokens : List Token) (id : TokenId) : Prop :=
  ∃ before t after, tokens = before ++ t :: after ∧ (∀ u ∈ before, u.Sheltered scope) ∧
    ¬ t.Sheltered scope ∧ t.id = id

/-- What is to be named of an expression: a source column that stands in it, else the first of its
tokens that is built on one. -/
def Fragment.Exposes (scope : Scope) (f : Fragment) : Dangling → Prop
  | .sourceColumn => f.ownColumns ≠ []
  | .token id => f.ownColumns = [] ∧ Token.FirstExposed scope f.tokens id

namespace Scope
variable {scope : Scope} {context : String} {error : ViewError}

theorem ensureTokens_eq_error_iff {tokens : List Token} :
    scope.ensureTokens context tokens = .error error ↔
      ∃ id, error = .danglingReference context (.token id) ∧
        Token.FirstExposed scope tokens id := by
  have named : ∀ t, tokens.find? (fun u => !u.inReach scope) = some t ↔
      ∃ before after, tokens = before ++ t :: after ∧ (∀ u ∈ before, u.Sheltered scope) ∧
        ¬ t.Sheltered scope := by
    intro t
    rw [List.find?_eq_some_iff_append, ← Token.inReach_iff_sheltered, Bool.not_eq_true',
      Bool.not_eq_true, and_comm]
    simp only [← exists_and_right, and_assoc, Bool.not_not, Token.inReach_iff_sheltered]
  unfold ensureTokens
  split
  next t found =>
    obtain ⟨before, after, split, earlier, exposed⟩ := (named t).1 found
    constructor
    · rintro ⟨⟩
      exact ⟨t.id, rfl, before, t, after, split, earlier, exposed, rfl⟩
    · rintro ⟨_, rfl, front, u, back, other, sheltered, first, rfl⟩
      have same := found.symm.trans ((named u).2 ⟨front, back, other, sheltered, first⟩)
      rw [Option.some.inj same]
  next nothing =>
    refine iff_of_false nofun ?_
    rintro ⟨_, -, front, u, back, other, sheltered, first, -⟩
    have found := (named u).2 ⟨front, back, other, sheltered, first⟩
    rw [nothing] at found
    exact nomatch found

theorem ensureFragment_eq_error_iff {f : Fragment} :
    scope.ensureFragment context f = .error error ↔
      ∃ reference, error = .danglingReference context reference ∧ f.Exposes scope reference := by
  unfold ensureFragment
  cases reads : Fragment.readsSource f with
  | true =>
    have own : f.ownColumns ≠ [] := fun none =>
      Bool.noConfusion (reads.symm.trans (Fragment.readsSource_eq_false_iff.2 none))
    rw [if_pos rfl]
    constructor
    · rintro ⟨⟩
      exact ⟨.sourceColumn, rfl, own⟩
    · rintro ⟨reference, rfl, exposes⟩
      cases reference with
      | sourceColumn => rfl
      | token id => exact absurd exposes.1 own
  | false =>
    have none := Fragment.readsSource_eq_false_iff.1 reads
    rw [if_neg Bool.false_ne_true, ensureTokens_eq_error_iff]
    constructor
    · rintro ⟨id, rfl, first⟩
      exact ⟨.token id, rfl, none, first⟩
    · rintro ⟨reference, rfl, exposes⟩
      cases reference with
      | sourceColumn => exact absurd none exposes
      | token id => exact ⟨id, rfl, exposes.2⟩

/-- An expression is accepted exactly if it reads no source column once its tokens are replaced by
their definitions, those of the scope excepted. Otherwise the error says so in this context, and
names a source column only if one stands in the expression itself. A template is accepted exactly
if each of its tokens would be. -/
theorem ensure_iff_unfolded (scope : Scope) (context : String) (f : Fragment) (t : Template) :
    (scope.ensureFragment context f = .ok () ↔ (f.unfolded scope).ownColumns = []) ∧
    (∀ error, scope.ensureFragment context f = .error error ↔
      ∃ reference, error = .danglingReference context reference ∧ f.Exposes scope reference) ∧
    (scope.ensureTemplate context t = .ok () ↔ ∀ u ∈ t.tokens, u.Sheltered scope) ∧
    ∀ error, scope.ensureTemplate context t = .error error ↔
      ∃ id, error = .danglingReference context (.token id) ∧
        Token.FirstExposed scope t.tokens id := by
  refine ⟨?_, fun error => ensureFragment_eq_error_iff, ?_, fun error => ensureTokens_eq_error_iff⟩
  · rw [ensureFragment_eq_ok_iff, Fragment.inReach_iff_unfolded]
  · simp only [ensureTemplate_eq_ok_iff, Token.inReach_iff_sheltered]

end Scope
end QueryViews
