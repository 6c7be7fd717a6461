import Mathlib.Data.List.Nodup
import QueryViews.Proofs.Decode.Places

/-! Trees of joins. The joined view holds every view of the tree where the sides of the joins above
it lead: each of its columns is the same, but nullable as soon as one of these joins took it as a
side that may be missing. A value that is NULL is accepted there, and read back as null. -/

namespace QueryViews

/-- Views that are put together by joins alone. -/
inductive Joins where
  | view (v : View)
  | join (base extra : Joins) (mode : JoinMode) (withNull : Bool) (condition : Fragment)

/-- The side of a join that a view stands on. -/
inductive Side where
  | base
  | extra (withNull : Bool)
deriving DecidableEq

namespace Side

def key : Side → Template.Key
  | .base => .field "base"
  | .extra _ => .field "extra"

end Side

/-- A view of a tree, and the sides of the joins above it from the outermost one inwards. -/
structure Place where
  route : List Side
  view : View

namespace Place

def path (p : Place) (inner : List Template.Key) : List Template.Key :=
  p.route.map Side.key ++ inner

def under (side : Side) (p : Place) : Place := { p with route := side :: p.route }

end Place

namespace Joins

/-- The calls that join the tree, the inner joins first; one that is refused ends them. -/
def made : Joins → Except ViewError View
  | .view v => .ok v
  | .join base extra mode withNull condition => do
    let b ← base.made
    let x ← extra.made
    b.joined x mode withNull condition

/-- The views of the tree in the order of the template. -/
def places : Joins → List Place
  | .view v => [⟨[], v⟩]
  | .join base extra _ withNull _ =>
    base.places.map (Place.under .base) ++ extra.places.map (Place.under (.extra withNull))

end Joins

namespace Column

end Column

namespace Template

end Template

namespace Joins
variable {tree : Joins} {j : View}

end Joins

namespace Joins
variable {tree : Joins} {j : View}

def ownerId : Token := ⟨⟨0⟩, Fragment.column ⟨0⟩ "id"⟩

def petOwner : Token := ⟨⟨1⟩, Fragment.column ⟨1⟩ "owner"⟩

def petName : Column := { token := ⟨⟨2⟩, Fragment.column ⟨1⟩ "name"⟩, nullable := false }

def toyOwner : Token := ⟨⟨3⟩, Fragment.column ⟨2⟩ "owner"⟩

def owners : View := .table (Fragment.verbatim "owners") ⟨0⟩ (.ofTokens [("id", ownerId)])

def pets : View := .table (Fragment.verbatim "pets") ⟨1⟩ (.ofFields
  [("owner", .column { token := petOwner, nullable := false }), ("names", .list [.column petName])])

def toys : View := .table (Fragment.verbatim "toys") ⟨2⟩ (.ofTokens [("owner", toyOwner)])

end Joins
end QueryViews
