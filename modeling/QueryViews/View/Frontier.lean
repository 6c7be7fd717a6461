import QueryViews.Fragment.Basic

/-! Needs of a step in terms of what the scope below it holds. The frontier of a token is what
is met first on the way down through definitions. Definitions share parts, so the way down goes
into every identity once; where identities stand for one definition each, all of the frontier is
met nevertheless (`holds_narrow_iff`). -/

namespace QueryViews

mutual

/-- The tokens of the scope that are met first on the way down through definitions. -/
def Segment.frontier (scope : Scope) : Segment → List Token
  | .token id definition =>
    if scope.contains id then [⟨id, definition⟩] else Fragment.frontier scope definition
  | .nested inner => Fragment.frontier scope inner
  | .verbatim _ | .column _ _ | .param _ => []

def Fragment.frontier (scope : Scope) : Fragment → List Token
  | [] => []
  | segment :: rest => segment.frontier scope ++ Fragment.frontier scope rest

end

def Token.frontier (scope : Scope) (t : Token) : List Token := t.toSegment.frontier scope

@[simp] theorem Fragment.frontier_append (scope : Scope) (f g : Fragment) :
    Fragment.frontier scope (f ++ g) = Fragment.frontier scope f ++ Fragment.frontier scope g := by
  induction f with
  | nil => simp [Fragment.frontier]
  | cons segment rest ih => simp [Fragment.frontier, ih]

theorem Fragment.frontier_map_toSegment (scope : Scope) (tokens : List Token) :
    Fragment.frontier scope (tokens.map Token.toSegment) =
      tokens.flatMap (Token.frontier scope) := by
  induction tokens with
  | nil => rfl
  | cons t rest ih =>
    simp only [List.map_cons, List.flatMap_cons, Fragment.frontier, ih, Token.frontier]

/-- A walk through definitions: the identities gone into, and the tokens of the scope met. -/
structure Descent where
  entered : List TokenId := []
  met : List Token := []

mutual

/-- Goes on with a walk, into no identity that has been entered before. -/
def Segment.descend (scope : Scope) : Segment → Descent → Descent
  | .token id definition, walk =>
    if scope.contains id then { walk with met := ⟨id, definition⟩ :: walk.met }
    else if id ∈ walk.entered then walk
    else Fragment.descend scope definition { walk with entered := id :: walk.entered }
  | .nested inner, walk => Fragment.descend scope inner walk
  | .verbatim _, walk | .column _ _, walk | .param _, walk => walk

def Fragment.descend (scope : Scope) : Fragment → Descent → Descent
  | [], walk => walk
  | segment :: rest, walk => Fragment.descend scope rest (segment.descend scope walk)

end

/-- Needs in terms of what the scope holds: derived tokens give way to what they are derived
from, and constants need nothing. -/
def AscendingSet.narrow (needs : TokenSet) (scope : Scope) : TokenSet :=
  .ofList (Fragment.descend scope (needs.toList.map Token.toSegment) {}).met

mutual

/-- Every token in it, at any depth, has the definition that its identity stands for. -/
def Segment.Follows (definitions : TokenId → Fragment) : Segment → Prop
  | .token id definition => definition = definitions id ∧ Fragment.Follows definitions definition
  | .nested inner => Fragment.Follows definitions inner
  | .verbatim _ | .column _ _ | .param _ => True

def Fragment.Follows (definitions : TokenId → Fragment) : Fragment → Prop
  | [] => True
  | segment :: rest => segment.Follows definitions ∧ Fragment.Follows definitions rest

end

namespace Descent

/-- An identity entered before is either finished, with all of its frontier met, or it is on the
way to here, and then its definition is no smaller than `size`. -/
def Ready (definitions : TokenId → Fragment) (scope : Scope) (size : Nat) (walk : Descent) :
    Prop :=
  ∀ id ∈ walk.entered, size ≤ sizeOf (definitions id) ∨
    ∀ t ∈ Fragment.frontier scope (definitions id), t ∈ walk.met

/-- The walk `after` goes on from `before` through a part with the given frontier. -/
structure Covers (definitions : TokenId → Fragment) (scope : Scope) (frontier : List Token)
    (before after : Descent) : Prop where
  keeps : ∀ t ∈ before.met, t ∈ after.met
  meets : ∀ t ∈ frontier, t ∈ after.met
  finishes : ∀ id ∈ after.entered, id ∈ before.entered ∨
    ∀ t ∈ Fragment.frontier scope (definitions id), t ∈ after.met
  only : ∀ t ∈ after.met, t ∈ before.met ∨ t ∈ frontier

variable {definitions : TokenId → Fragment} {scope : Scope}

theorem Covers.refl (walk : Descent) : Covers definitions scope [] walk walk where
  keeps _ member := member
  meets _ member := absurd member List.not_mem_nil
  finishes _ member := .inl member
  only _ member := .inl member

theorem Covers.trans {first second : List Token} {before between after : Descent}
    (one : Covers definitions scope first before between)
    (two : Covers definitions scope second between after) :
    Covers definitions scope (first ++ second) before after where
  keeps t member := two.keeps t (one.keeps t member)
  meets t member := (List.mem_append.1 member).elim
    (fun inFirst => two.keeps t (one.meets t inFirst)) (two.meets t)
  finishes id member := (two.finishes id member).elim
    (fun earlier => (one.finishes id earlier).imp_right
      fun all t inFrontier => two.keeps t (all t inFrontier)) .inr
  only t member := (two.only t member).elim
    (fun earlier => (one.only t earlier).imp_right (List.mem_append_left second))
    fun inSecond => .inr (List.mem_append_right first inSecond)

theorem Ready.after {size smaller : Nat} {frontier : List Token} {before after : Descent}
    (ready : Ready definitions scope size before) (le : smaller ≤ size)
    (covers : Covers definitions scope frontier before after) :
    Ready definitions scope smaller after := fun id member =>
  (covers.finishes id member).elim
    (fun earlier => (ready id earlier).imp (Nat.le_trans le)
      fun all t inFrontier => covers.keeps t (all t inFrontier)) .inr

end Descent

mutual

theorem Segment.covers_descend {definitions : TokenId → Fragment} {scope : Scope} :
    ∀ (segment : Segment) (walk : Descent), segment.Follows definitions →
      walk.Ready definitions scope (sizeOf segment) →
      walk.Covers definitions scope (segment.frontier scope) (segment.descend scope walk)
  | .token id definition, walk, ⟨same, follows⟩, ready => by
    have below : sizeOf definition < sizeOf (Segment.token id definition) := by
      simp only [Segment.token.sizeOf_spec]
      omega
    unfold Segment.frontier Segment.descend
    split
    · exact
        { keeps := fun t member => List.mem_cons_of_mem _ member
          meets := fun t member => List.mem_singleton.1 member ▸ List.mem_cons_self
          finishes := fun id member => .inl member
          only := fun t member =>
            (List.mem_cons.1 member).symm.imp_right List.mem_singleton.2 }
    split
    next entered =>
      have all := (ready id entered).resolve_left (by rw [← same]; omega)
      exact
        { keeps := fun t member => member
          meets := same ▸ all
          finishes := fun id member => .inl member
          only := fun t member => .inl member }
    next fresh =>
      have inside := Fragment.covers_descend definition { walk with entered := id :: walk.entered }
        follows fun other member => by
          rcases List.mem_cons.1 member with rfl | earlier
          · exact .inl (same ▸ Nat.le_refl _)
          · exact (ready other earlier).imp_left fun le => by omega
      exact
        { inside with
          finishes := fun other member => by
            rcases inside.finishes other member with entered | all
            · rcases List.mem_cons.1 entered with rfl | earlier
              · exact .inr (same ▸ inside.meets)
              · exact .inl earlier
            · exact .inr all }
  | .nested inner, walk, follows, ready =>
    Fragment.covers_descend inner walk follows
      (ready.after (by simp only [Segment.nested.sizeOf_spec]; omega) (.refl walk))
  | .verbatim _, walk, _, _ | .column _ _, walk, _, _ | .param _, walk, _, _ => .refl walk

theorem Fragment.covers_descend {definitions : TokenId → Fragment} {scope : Scope} :
    ∀ (f : Fragment) (walk : Descent), Fragment.Follows definitions f →
      walk.Ready definitions scope (sizeOf f) →
      walk.Covers definitions scope (Fragment.frontier scope f) (Fragment.descend scope f walk)
  | [], walk, _, _ => .refl walk
  | segment :: rest, walk, follows, ready =>
    have first := Segment.covers_descend segment walk follows.1
      (ready.after (by simp only [List.cons.sizeOf_spec]; omega) (.refl walk))
    first.trans (Fragment.covers_descend rest _ follows.2
      (ready.after (by simp only [List.cons.sizeOf_spec]; omega) first))

end

/-- A walk meets all of the frontier and nothing else. -/
theorem Fragment.mem_met_iff {definitions : TokenId → Fragment} {f : Fragment}
    (follows : Fragment.Follows definitions f) (scope : Scope) (t : Token) :
    t ∈ (Fragment.descend scope f {}).met ↔ t ∈ Fragment.frontier scope f := by
  have covers : Descent.Covers definitions scope (Fragment.frontier scope f) {}
      (Fragment.descend scope f {}) :=
    Fragment.covers_descend f {} follows fun _ member => absurd member List.not_mem_nil
  exact ⟨fun member => (covers.only t member).resolve_left List.not_mem_nil, covers.meets t⟩

theorem AscendingSet.holds_narrow_iff {definitions : TokenId → Fragment} {needs : TokenSet}
    (follows : Fragment.Follows definitions (needs.toList.map Token.toSegment)) (scope : Scope)
    (id : TokenId) :
    (needs.narrow scope).holds id = true ↔
      ∃ t ∈ needs.toList, ∃ u ∈ t.frontier scope, u.id = id := by
  have same : ∀ u : Token, (Ranked.rank u == id.index) = true ↔ u.id = id := by
    intro u
    constructor
    · exact fun equal => congrArg TokenId.mk (eq_of_beq equal)
    · rintro rfl
      exact beq_self_eq_true _
  simp only [holds, narrow, containsRank_ofList, List.any_eq_true, same,
    Fragment.mem_met_iff follows, Fragment.frontier_map_toSegment, List.mem_flatMap]
  constructor
  · rintro ⟨u, ⟨t, needed, met⟩, equal⟩
    exact ⟨t, needed, u, met, equal⟩
  · rintro ⟨t, needed, u, met, equal⟩
    exact ⟨u, ⟨t, needed, met⟩, equal⟩

end QueryViews
