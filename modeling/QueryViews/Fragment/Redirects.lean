import QueryViews.Fragment.Basic

/-! What tokens currently stand for. Expansion replaces each token by its redirect, or by its
definition where it has none, until no token and no nesting is left. -/

namespace QueryViews

mutual

/-- Writes a token as what `resolve` gives for it, else as its own definition. -/
def Segment.substitute (resolve : TokenId → Option Fragment) : Segment → Fragment
  | .token id definition =>
    match resolve id with
    | some replacement => replacement
    | none => Fragment.substitute resolve definition
  | .nested inner => Fragment.substitute resolve inner
  | .verbatim text => [.verbatim text]
  | .column source name => [.column source name]
  | .param value => [.param value]

def Fragment.substitute (resolve : TokenId → Option Fragment) : Fragment → Fragment
  | [] => []
  | segment :: rest => segment.substitute resolve ++ Fragment.substitute resolve rest

end

@[simp] theorem Fragment.substitute_append (resolve : TokenId → Option Fragment) (f g : Fragment) :
    Fragment.substitute resolve (f ++ g) =
      Fragment.substitute resolve f ++ Fragment.substitute resolve g := by
  induction f with
  | nil => simp [Fragment.substitute]
  | cons segment rest ih => simp [Fragment.substitute, ih]

/-- The newest redirect of each redirected token. -/
structure Redirects where
  entries : List (TokenId × Fragment) := []
deriving Inhabited

namespace Redirects

def lookup (r : Redirects) (id : TokenId) : Option Fragment := r.entries.lookup id

def erase (r : Redirects) (id : TokenId) : Redirects := ⟨r.entries.filter (·.1 ≠ id)⟩

def redirect (r : Redirects) (id : TokenId) (target : Fragment) : Redirects :=
  ⟨(id, target) :: (r.erase id).entries⟩

/-- A token whose redirect is being expanded cannot occur in that expansion, so each level
has one redirect less to follow. -/
def expandWithin : Nat → Redirects → Fragment → Fragment
  | 0, _, f => f.substitute fun _ => none
  | depth + 1, r, f =>
    f.substitute fun id => (r.lookup id).map (expandWithin depth (r.erase id))

def expand (r : Redirects) (f : Fragment) : Fragment := expandWithin r.entries.length r f

def expandToken (r : Redirects) (t : Token) : Fragment := r.expand t.toFragment

@[simp] theorem lookup_redirect_self (r : Redirects) (id : TokenId) (target : Fragment) :
    (r.redirect id target).lookup id = some target := by
  simp [redirect, lookup]

@[simp] theorem lookup_erase_of_ne (r : Redirects) {id other : TokenId} (different : other ≠ id) :
    (r.erase id).lookup other = r.lookup other := by
  obtain ⟨entries⟩ := r
  simp only [erase, lookup]
  induction entries with
  | nil => rfl
  | cons entry rest ih =>
    obtain ⟨key, target⟩ := entry
    by_cases erased : key = id
    · subst erased
      have passed : (other == key) = false := by simpa using different
      have dropped : decide (key ≠ key) = false := by simp
      simp only [List.filter_cons, dropped, List.lookup_cons, passed]
      exact ih
    · have kept : decide (key ≠ id) = true := by simpa using erased
      simp only [List.filter_cons, kept, if_true, List.lookup_cons, ih]

theorem lookup_redirect_of_ne (r : Redirects) {id other : TokenId} (different : other ≠ id)
    (target : Fragment) : (r.redirect id target).lookup other = r.lookup other := by
  have other_ne : (other == id) = false := by simpa using different
  rw [← lookup_erase_of_ne r different]
  simp only [redirect, lookup, List.lookup_cons, other_ne]

theorem expandWithin_append (depth : Nat) (r : Redirects) (f g : Fragment) :
    expandWithin depth r (f ++ g) = expandWithin depth r f ++ expandWithin depth r g := by
  cases depth with
  | zero => simp [expandWithin]
  | succ depth => simp [expandWithin]

/-- Fragments are expanded piece by piece. -/
@[simp] theorem expand_append (r : Redirects) (f g : Fragment) :
    r.expand (f ++ g) = r.expand f ++ r.expand g :=
  expandWithin_append _ r f g

end Redirects
end QueryViews
