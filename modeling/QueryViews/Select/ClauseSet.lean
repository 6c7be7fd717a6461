/-! Which clauses a SELECT body carries, and which of them a new clause cannot be put above. -/

namespace QueryViews

structure ClauseSet where
  leftJoin : Bool := false
  innerJoin : Bool := false
  filter : Bool := false
  group : Bool := false
  having : Bool := false
  order : Bool := false
  skip : Bool := false
  take : Bool := false
deriving DecidableEq, Repr, Inhabited

namespace ClauseSet

def empty : ClauseSet := {}

def all : ClauseSet := ⟨true, true, true, true, true, true, true, true⟩

def meets (s t : ClauseSet) : Bool :=
  s.leftJoin && t.leftJoin || s.innerJoin && t.innerJoin || s.filter && t.filter
    || s.group && t.group || s.having && t.having || s.order && t.order
    || s.skip && t.skip || s.take && t.take

/-- The members of a set in the order of their bits, the lowest first. -/
def toList (s : ClauseSet) : List Bool :=
  [s.leftJoin, s.innerJoin, s.filter, s.group, s.having, s.order, s.skip, s.take]

def bits (s : ClauseSet) : Nat := s.toList.foldr (fun member high => 2 * high + member.toNat) 0

/-- The set with these bits; bits above the lowest eight are ignored. -/
def ofBits (bits : Nat) : ClauseSet where
  leftJoin := bits.testBit 0
  innerJoin := bits.testBit 1
  filter := bits.testBit 2
  group := bits.testBit 3
  having := bits.testBit 4
  order := bits.testBit 5
  skip := bits.testBit 6
  take := bits.testBit 7

/-- The clauses that cut a window out of the rows. -/
def window : ClauseSet := { skip := true, take := true }

/-- The clauses after which a body no longer lists its own source rows. -/
def aggregate : ClauseSet := { window with group := true, having := true }

/-- Everything that comes after joins and conditions on rows. -/
def afterRows : ClauseSet := { aggregate with order := true }

end ClauseSet

/-- What a view step adds to a body. -/
inductive Clause where
  | filter
  | group
  | order
  | paginate
deriving DecidableEq, Repr

/-- The clauses that force a body into a subquery before this one is added. -/
def Clause.blockers : Clause → ClauseSet
  | .filter | .order => .window
  | .group => .afterRows
  | .paginate => .empty

def Clause.isBlocked (clause : Clause) (state : ClauseSet) : Bool :=
  state.meets clause.blockers

end QueryViews
