import QueryViews.Identity
import QueryViews.Json.Basic

/-! SQL expressions as lists of segments: text that is written as it stands, references to
other expressions and to source columns, bound parameters, and nested expressions. -/

namespace QueryViews

/-- A token carries its own definition, so a fragment needs no environment to be read. -/
inductive Segment where
  | verbatim (text : String)
  | token (id : TokenId) (definition : List Segment)
  | column (source : Alias) (name : String)
  | param (value : Json)
  | nested (inner : List Segment)
deriving Inhabited

abbrev Fragment := List Segment

/-- A named expression. Two tokens are the same exactly when their identities are. -/
structure Token where
  id : TokenId
  definition : Fragment
deriving Inhabited

instance : Ranked Token := ⟨fun t => t.id.index⟩

abbrev TokenSet := AscendingSet Token

/-- The identities a view offers to what is built on it. -/
abbrev Scope := AscendingSet TokenId

mutual

def Segment.tokens : Segment → List Token
  | .token id definition => [⟨id, definition⟩]
  | .nested inner => Fragment.tokens inner
  | .verbatim _ | .column _ _ | .param _ => []

/-- The tokens a fragment refers to itself, in order of appearance. -/
def Fragment.tokens : Fragment → List Token
  | [] => []
  | segment :: rest => segment.tokens ++ Fragment.tokens rest

end

mutual

def Segment.readsSource : Segment → Bool
  | .column _ _ => true
  | .nested inner => Fragment.readsSource inner
  | .verbatim _ | .token _ _ | .param _ => false

/-- Whether a source column stands in the fragment itself, outside its tokens. -/
def Fragment.readsSource : Fragment → Bool
  | [] => false
  | segment :: rest => segment.readsSource || Fragment.readsSource rest

end

namespace Token

def toSegment (t : Token) : Segment := .token t.id t.definition

def toFragment (t : Token) : Fragment := [t.toSegment]

/-- The tokens that the definition refers to. -/
def dependencies (t : Token) : List Token := t.definition.tokens

def readsSource (t : Token) : Bool := t.definition.readsSource

def mint (definition : Fragment) : Minting Token :=
  return ⟨← TokenId.mint, definition⟩

/-- The first token of each identity, leaving out the identities already seen. -/
def distinctBeyond (seen : List TokenId) : List Token → List Token
  | [] => []
  | t :: rest =>
    if t.id ∈ seen then distinctBeyond seen rest
    else t :: distinctBeyond (t.id :: seen) rest

def distinct : List Token → List Token := distinctBeyond []

end Token

/-- Membership of an identity in a set of tokens. -/
def AscendingSet.holds (s : TokenSet) (id : TokenId) : Bool := s.containsRank id.index

namespace Fragment

def verbatim (text : String) : Fragment := [.verbatim text]

def column (source : Alias) (name : String) : Fragment := [.column source name]

def param (value : Json) : Fragment := [.param value]

def nest (inner : Fragment) : Fragment := [.nested inner]

/-- The fragments one after the other, with the separator between them. -/
def join (separator : String) (parts : List Fragment) : Fragment :=
  (parts.intersperse (verbatim separator)).flatten

def paren (inner : Fragment) : Fragment := verbatim "(" ++ inner ++ verbatim ")"

def call (function : String) (arguments : List Fragment) : Fragment :=
  verbatim (function ++ "(") ++ join ", " arguments ++ verbatim ")"

end Fragment

@[simp] theorem Fragment.tokens_append (f g : Fragment) :
    Fragment.tokens (f ++ g) = Fragment.tokens f ++ Fragment.tokens g := by
  induction f with
  | nil => simp [Fragment.tokens]
  | cons segment rest ih => simp [Fragment.tokens, ih]

@[simp] theorem Fragment.readsSource_append (f g : Fragment) :
    Fragment.readsSource (f ++ g) = (Fragment.readsSource f || Fragment.readsSource g) := by
  induction f with
  | nil => simp [Fragment.readsSource]
  | cons segment rest ih => simp [Fragment.readsSource, ih, Bool.or_assoc]

end QueryViews
