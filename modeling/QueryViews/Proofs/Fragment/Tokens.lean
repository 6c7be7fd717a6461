import QueryViews.Fragment.Redirects
import QueryViews.View.Frontier
import QueryViews.View.Reach

/-! Properties of all tokens of a fragment, at any depth. Walks down through definitions meet
and enter only such tokens, and two ways to resolve or to stop that agree on them agree on the
fragment. -/

namespace QueryViews

mutual

/-- Every token in it, at any depth, has the property. -/
def Segment.AllTokens (P : Token → Prop) : Segment → Prop
  | .token id definition => P ⟨id, definition⟩ ∧ Fragment.AllTokens P definition
  | .nested inner => Fragment.AllTokens P inner
  | .verbatim _ | .column _ _ | .param _ => True

def Fragment.AllTokens (P : Token → Prop) : Fragment → Prop
  | [] => True
  | segment :: rest => segment.AllTokens P ∧ Fragment.AllTokens P rest

end

mutual

def Segment.decideAllTokens (P : Token → Prop) [DecidablePred P] :
    ∀ segment : Segment, Decidable (segment.AllTokens P)
  | .token _ definition =>
    @instDecidableAnd _ _ inferInstance (Fragment.decideAllTokens P definition)
  | .nested inner => Fragment.decideAllTokens P inner
  | .verbatim _ | .column _ _ | .param _ => .isTrue trivial

def Fragment.decideAllTokens (P : Token → Prop) [DecidablePred P] :
    ∀ f : Fragment, Decidable (Fragment.AllTokens P f)
  | [] => .isTrue trivial
  | segment :: rest =>
    @instDecidableAnd _ _ (segment.decideAllTokens P) (Fragment.decideAllTokens P rest)

end

instance (P : Token → Prop) [DecidablePred P] (f : Fragment) : Decidable (f.AllTokens P) :=
  f.decideAllTokens P

def Token.AllTokens (P : Token → Prop) (t : Token) : Prop := t.toSegment.AllTokens P

namespace Token
variable {P : Token → Prop} {t : Token}

theorem AllTokens.self (all : t.AllTokens P) : P t := all.1

theorem AllTokens.definition (all : t.AllTokens P) : Fragment.AllTokens P t.definition := all.2

end Token

@[simp] theorem Fragment.allTokens_append {P : Token → Prop} (f g : Fragment) :
    Fragment.AllTokens P (f ++ g) ↔ Fragment.AllTokens P f ∧ Fragment.AllTokens P g := by
  induction f with
  | nil => simp [Fragment.AllTokens]
  | cons segment rest ih => simp [Fragment.AllTokens, ih, and_assoc]

theorem Fragment.allTokens_toFragment {P : Token → Prop} {t : Token} :
    Fragment.AllTokens P t.toFragment ↔ t.AllTokens P := by
  simp [Token.toFragment, Token.AllTokens, Fragment.AllTokens]

theorem Token.allTokens_toFragments {P : Token → Prop} {tokens : List Token} :
    (∀ f ∈ tokens.map Token.toFragment, f.AllTokens P) ↔ ∀ t ∈ tokens, t.AllTokens P := by
  rw [List.forall_mem_map]
  exact forall₂_congr fun _ _ => Fragment.allTokens_toFragment

theorem Fragment.allTokens_map_toSegment {P : Token → Prop} {tokens : List Token} :
    Fragment.AllTokens P (tokens.map Token.toSegment) ↔ ∀ t ∈ tokens, t.AllTokens P := by
  induction tokens with
  | nil => simp [Fragment.AllTokens]
  | cons t rest ih => simp [Fragment.AllTokens, Token.AllTokens, ih]

mutual

theorem Segment.AllTokens.mono {P Q : Token → Prop} (imp : ∀ t, P t → Q t) :
    ∀ {segment : Segment}, segment.AllTokens P → segment.AllTokens Q
  | .token _ _, ⟨self, below⟩ => ⟨imp _ self, Fragment.AllTokens.mono imp below⟩
  | .nested _, inner => Fragment.AllTokens.mono imp inner
  | .verbatim _, _ | .column _ _, _ | .param _, _ => trivial

theorem Fragment.AllTokens.mono {P Q : Token → Prop} (imp : ∀ t, P t → Q t) :
    ∀ {f : Fragment}, Fragment.AllTokens P f → Fragment.AllTokens Q f
  | [], _ => trivial
  | _ :: _, ⟨first, rest⟩ => ⟨first.mono imp, Fragment.AllTokens.mono imp rest⟩

end

mutual

theorem Segment.allTokens_true : ∀ segment : Segment, segment.AllTokens fun _ => True
  | .token _ definition => ⟨trivial, Fragment.allTokens_true definition⟩
  | .nested inner => Fragment.allTokens_true inner
  | .verbatim _ | .column _ _ | .param _ => trivial

theorem Fragment.allTokens_true : ∀ f : Fragment, Fragment.AllTokens (fun _ => True) f
  | [] => trivial
  | segment :: rest => ⟨segment.allTokens_true, Fragment.allTokens_true rest⟩

end

mutual

theorem Segment.AllTokens.and {P Q : Token → Prop} :
    ∀ {segment : Segment}, segment.AllTokens P → segment.AllTokens Q →
      segment.AllTokens fun t => P t ∧ Q t
  | .token _ _, ⟨one, below⟩, ⟨two, under⟩ => ⟨⟨one, two⟩, Fragment.AllTokens.and below under⟩
  | .nested _, inner, within => Fragment.AllTokens.and inner within
  | .verbatim _, _, _ | .column _ _, _, _ | .param _, _, _ => trivial

theorem Fragment.AllTokens.and {P Q : Token → Prop} :
    ∀ {f : Fragment}, Fragment.AllTokens P f → Fragment.AllTokens Q f →
      Fragment.AllTokens (fun t => P t ∧ Q t) f
  | [], _, _ => trivial
  | _ :: _, ⟨first, rest⟩, ⟨one, others⟩ => ⟨first.and one, Fragment.AllTokens.and rest others⟩

end

mutual

theorem Segment.follows_iff {definitions : TokenId → Fragment} :
    ∀ {segment : Segment}, segment.Follows definitions ↔
      segment.AllTokens fun t => t.definition = definitions t.id
  | .token _ _ => and_congr_right fun _ => Fragment.follows_iff
  | .nested _ => Fragment.follows_iff
  | .verbatim _ | .column _ _ | .param _ => Iff.rfl

theorem Fragment.follows_iff {definitions : TokenId → Fragment} :
    ∀ {f : Fragment}, Fragment.Follows definitions f ↔
      Fragment.AllTokens (fun t => t.definition = definitions t.id) f
  | [] => Iff.rfl
  | _ :: _ => and_congr Segment.follows_iff Fragment.follows_iff

end

mutual

theorem Segment.allTokens_iff_tokens {P : Token → Prop} :
    ∀ {segment : Segment}, segment.AllTokens P ↔ ∀ t ∈ segment.tokens, t.AllTokens P
  | .token id definition => by
    simp [Segment.tokens, Token.AllTokens, Token.toSegment]
  | .nested inner => by
    simpa only [Segment.AllTokens, Segment.tokens] using Fragment.allTokens_iff_tokens
  | .verbatim _ | .column _ _ | .param _ => by simp [Segment.AllTokens, Segment.tokens]

theorem Fragment.allTokens_iff_tokens {P : Token → Prop} :
    ∀ {f : Fragment}, Fragment.AllTokens P f ↔ ∀ t ∈ Fragment.tokens f, t.AllTokens P
  | [] => by simp [Fragment.AllTokens, Fragment.tokens]
  | segment :: rest => by
    simp only [Fragment.AllTokens, Fragment.tokens, List.forall_mem_append,
      Segment.allTokens_iff_tokens, Fragment.allTokens_iff_tokens]

end

mutual

theorem Segment.allTokens_frontier {P : Token → Prop} {scope : Scope} :
    ∀ {segment : Segment}, segment.AllTokens P →
      ∀ t ∈ segment.frontier scope, t.AllTokens P ∧ scope.contains t.id = true
  | .token id definition, all, t, member => by
    unfold Segment.frontier at member
    split at member
    next inside =>
      obtain rfl := List.mem_singleton.1 member
      exact ⟨all, inside⟩
    next => exact Fragment.allTokens_frontier all.2 t member
  | .nested _, all, t, member => Fragment.allTokens_frontier (by exact all) t member
  | .verbatim _, _, _, member | .column _ _, _, _, member | .param _, _, _, member =>
    absurd member List.not_mem_nil

theorem Fragment.allTokens_frontier {P : Token → Prop} {scope : Scope} :
    ∀ {f : Fragment}, Fragment.AllTokens P f →
      ∀ t ∈ Fragment.frontier scope f, t.AllTokens P ∧ scope.contains t.id = true
  | [], _, _, member => absurd member List.not_mem_nil
  | _ :: _, ⟨first, rest⟩, t, member =>
    (List.mem_append.1 member).elim (Segment.allTokens_frontier first t)
      (Fragment.allTokens_frontier rest t)

end

mutual

/-- What a walk meets are tokens at some depth that the scope holds. -/
theorem Segment.met_descend {P : Token → Prop} {scope : Scope} :
    ∀ {segment : Segment}, segment.AllTokens P → ∀ {walk : Descent},
      (∀ t ∈ walk.met, t.AllTokens P ∧ scope.contains t.id = true) →
      ∀ t ∈ (segment.descend scope walk).met, t.AllTokens P ∧ scope.contains t.id = true
  | .token id definition, all, walk, before => by
    unfold Segment.descend
    split
    next inside =>
      intro t member
      rcases List.mem_cons.1 member with rfl | earlier
      · exact ⟨all, inside⟩
      · exact before t earlier
    · split
      · exact before
      · exact Fragment.met_descend all.2 before
  | .nested _, all, _, before => Fragment.met_descend (by exact all) before
  | .verbatim _, _, _, before | .column _ _, _, _, before | .param _, _, _, before => before

theorem Fragment.met_descend {P : Token → Prop} {scope : Scope} :
    ∀ {f : Fragment}, Fragment.AllTokens P f → ∀ {walk : Descent},
      (∀ t ∈ walk.met, t.AllTokens P ∧ scope.contains t.id = true) →
      ∀ t ∈ (Fragment.descend scope f walk).met, t.AllTokens P ∧ scope.contains t.id = true
  | [], _, _, before => before
  | _ :: _, ⟨first, rest⟩, _, before =>
    Fragment.met_descend rest (Segment.met_descend first before)

end

mutual

theorem Segment.substitute_congr {one two : TokenId → Option Fragment} :
    ∀ {segment : Segment}, segment.AllTokens (fun t => one t.id = two t.id) →
      segment.substitute one = segment.substitute two
  | .token id definition, ⟨same, below⟩ => by
    unfold Segment.substitute
    rw [show one id = two id from same, Fragment.substitute_congr below]
  | .nested _, inner => Fragment.substitute_congr (by exact inner)
  | .verbatim _, _ | .column _ _, _ | .param _, _ => rfl

theorem Fragment.substitute_congr {one two : TokenId → Option Fragment} :
    ∀ {f : Fragment}, Fragment.AllTokens (fun t => one t.id = two t.id) f →
      Fragment.substitute one f = Fragment.substitute two f
  | [], _ => rfl
  | _ :: _, ⟨first, rest⟩ => by
    unfold Fragment.substitute
    rw [Segment.substitute_congr first, Fragment.substitute_congr rest]

end

mutual

theorem Segment.inReach_congr {one two : Scope} :
    ∀ {segment : Segment}, segment.AllTokens (fun t => one.contains t.id = two.contains t.id) →
      segment.inReach one = segment.inReach two
  | .token id definition, ⟨same, below⟩ => by
    rw [Segment.inReach_token, Segment.inReach_token, Fragment.inReach_congr below]
    exact congrArg (· || _) same
  | .nested _, inner => Fragment.inReach_congr (by exact inner)
  | .verbatim _, _ | .column _ _, _ | .param _, _ => rfl

theorem Fragment.inReach_congr {one two : Scope} :
    ∀ {f : Fragment}, Fragment.AllTokens (fun t => one.contains t.id = two.contains t.id) f →
      Fragment.inReach one f = Fragment.inReach two f
  | [], _ => rfl
  | _ :: _, ⟨first, rest⟩ => by
    unfold Fragment.inReach
    rw [Segment.inReach_congr first, Fragment.inReach_congr rest]

end

mutual

theorem Segment.descend_congr {one two : Scope} :
    ∀ {segment : Segment}, segment.AllTokens (fun t => one.contains t.id = two.contains t.id) →
      ∀ walk, segment.descend one walk = segment.descend two walk
  | .token id definition, ⟨same, below⟩, walk => by
    unfold Segment.descend
    rw [show one.contains id = two.contains id from same, Fragment.descend_congr below]
  | .nested _, inner, walk => Fragment.descend_congr (by exact inner) walk
  | .verbatim _, _, _ | .column _ _, _, _ | .param _, _, _ => rfl

theorem Fragment.descend_congr {one two : Scope} :
    ∀ {f : Fragment}, Fragment.AllTokens (fun t => one.contains t.id = two.contains t.id) f →
      ∀ walk, Fragment.descend one f walk = Fragment.descend two f walk
  | [], _, _ => rfl
  | _ :: _, ⟨first, rest⟩, walk => by
    unfold Fragment.descend
    rw [Segment.descend_congr first, Fragment.descend_congr rest]

end

end QueryViews
