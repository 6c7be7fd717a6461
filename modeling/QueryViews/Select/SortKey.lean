import QueryViews.Fragment.Basic

/-! Keys of an ORDER BY clause, over whatever stands for an expression. -/

namespace QueryViews

inductive Direction where
  | ascending
  | descending
deriving DecidableEq, Repr

def Direction.keyword : Direction → String
  | .ascending => "asc"
  | .descending => "desc"

/-- Where NULL is put among the ordered values. -/
inductive NullPlacement where
  | first
  | last
deriving DecidableEq, Repr

structure SortKey (ε : Type) where
  expr : ε
  direction : Direction
  nulls : Option NullPlacement := none

def SortKey.map {ε δ : Type} (f : ε → δ) (key : SortKey ε) : SortKey δ :=
  { key with expr := f key.expr }

abbrev OrderItem := SortKey Fragment

end QueryViews
