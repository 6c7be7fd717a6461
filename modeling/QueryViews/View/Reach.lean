import QueryViews.Fragment.Basic
import QueryViews.Template
import QueryViews.View.Error

/-! What can be reached from a scope. A token is in reach when the scope holds it, or when it
reads no source itself and all tokens it is defined by are in reach. -/

namespace QueryViews

mutual

/-- Whether a segment can be evaluated from what the scope holds. -/
def Segment.inReach (scope : Scope) : Segment → Bool
  | .token id definition =>
    scope.contains id ||
      (!Fragment.readsSource definition && Fragment.inReach scope definition)
  | .nested inner => Fragment.inReach scope inner
  | .column _ _ => false
  | .verbatim _ | .param _ => true

def Fragment.inReach (scope : Scope) : Fragment → Bool
  | [] => true
  | segment :: rest => segment.inReach scope && Fragment.inReach scope rest

end

def Token.inReach (scope : Scope) (t : Token) : Bool := t.toSegment.inReach scope

mutual

theorem Segment.inReach_of_readsSource (scope : Scope) :
    ∀ {segment : Segment}, segment.readsSource = true → segment.inReach scope = false
  | .column _ _, _ => rfl
  | .nested _, reads => Fragment.inReach_of_readsSource scope reads

theorem Fragment.inReach_of_readsSource (scope : Scope) :
    ∀ {f : Fragment}, Fragment.readsSource f = true → Fragment.inReach scope f = false
  | segment :: rest, reads => by
    rcases Bool.or_eq_true_iff.1 reads with first | later
    · simp [Fragment.inReach, Segment.inReach_of_readsSource scope first]
    · simp [Fragment.inReach, Fragment.inReach_of_readsSource scope later]

end

/-- Looking for source columns first changes no answer. -/
theorem Segment.inReach_token (scope : Scope) (id : TokenId) (definition : Fragment) :
    (Segment.token id definition).inReach scope =
      (scope.contains id || Fragment.inReach scope definition) := by
  cases reads : Fragment.readsSource definition with
  | false => simp [Segment.inReach, reads]
  | true => simp [Segment.inReach, reads, Fragment.inReach_of_readsSource scope reads]

@[simp] theorem Fragment.inReach_append (scope : Scope) (f g : Fragment) :
    Fragment.inReach scope (f ++ g) = (Fragment.inReach scope f && Fragment.inReach scope g) := by
  induction f with
  | nil => simp [Fragment.inReach]
  | cons segment rest ih => simp [Fragment.inReach, ih, Bool.and_assoc]

namespace Scope

/-- Fails for the first token out of reach. -/
def ensureTokens (scope : Scope) (context : String) (tokens : List Token) :
    Except ViewError Unit :=
  match tokens.find? fun t => !t.inReach scope with
  | some t => .error (.danglingReference context (.token t.id))
  | none => .ok ()

/-- A fragment must not read a source by itself, and its tokens must be in reach. -/
def ensureFragment (scope : Scope) (context : String) (f : Fragment) : Except ViewError Unit :=
  if f.readsSource then .error (.danglingReference context .sourceColumn)
  else scope.ensureTokens context f.tokens

def ensureTemplate (scope : Scope) (context : String) (t : Template) : Except ViewError Unit :=
  scope.ensureTokens context t.tokens

end Scope
end QueryViews
