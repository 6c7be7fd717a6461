import QueryViews.Identity
import QueryViews.Text.Quoted

/-! What can be wrong with a view while it is put together. -/

namespace QueryViews

/-- What a condition or a template refers to although it is out of reach. -/
inductive Dangling where
  | sourceColumn
  | token (id : TokenId)
deriving DecidableEq, Repr

inductive ViewError where
  | tagMismatch (expected : String) (found : Option String)
  | danglingReference (context : String) (reference : Dangling)
  | sharedSource
  | sharedToken (id : TokenId)
deriving DecidableEq, Repr

def Dangling.message : Dangling → String
  | .sourceColumn => "a raw source column"
  | .token id => "Token#" ++ toString id.index

def tagText : Option String → String
  | none => "None"
  | some tag => "Some(" ++ Text.quoted tag ++ ")"

def ViewError.message : ViewError → String
  | .tagMismatch expected found =>
    "column is tagged " ++ tagText found ++ " but `" ++ expected ++ "` was required"
  | .danglingReference context reference =>
    context ++ " references " ++ reference.message
      ++ ", which is not reachable from the views it was given"
  | .sharedSource =>
    "both sides of a join read the same table definition; declare the table twice for a self join"
  | .sharedToken id =>
    "TokenId(" ++ toString id.index
      ++ ") appears on both sides of a join; build a separate column for each side"

end QueryViews
