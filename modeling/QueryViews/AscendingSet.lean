/-! Finite sets kept as lists in strictly ascending rank, so that walking a set visits its
members in one fixed order and every rank occurs at most once. -/

namespace QueryViews

/-- The number by which members of a set are told apart and put in order. -/
class Ranked (α : Type) where
  rank : α → Nat

structure AscendingSet (α : Type) [Ranked α] where
  toList : List α
  ascending : toList.Pairwise (fun a b => Ranked.rank a < Ranked.rank b)

namespace AscendingSet
variable {α : Type} [Ranked α]

def empty : AscendingSet α := ⟨[], .nil⟩

/-- Puts `a` at its place in an ascending list, over a member of equal rank. -/
def place (a : α) : List α → List α
  | [] => [a]
  | b :: rest =>
    if Ranked.rank a < Ranked.rank b then a :: b :: rest
    else if Ranked.rank a = Ranked.rank b then a :: rest
    else b :: place a rest

theorem mem_place {a x : α} {l : List α} (member : x ∈ place a l) : x = a ∨ x ∈ l := by
  induction l with
  | nil => simpa [place] using member
  | cons b rest ih =>
    unfold place at member
    split at member
    · simpa using member
    · split at member
      · rcases List.mem_cons.1 member with rfl | inRest
        · exact .inl rfl
        · exact .inr (List.mem_cons_of_mem _ inRest)
      · rcases List.mem_cons.1 member with rfl | inRest
        · exact .inr List.mem_cons_self
        · exact (ih inRest).imp_right (List.mem_cons_of_mem _)

theorem pairwise_place {l : List α} (a : α)
    (sorted : l.Pairwise (fun x y => Ranked.rank x < Ranked.rank y)) :
    (place a l).Pairwise (fun x y => Ranked.rank x < Ranked.rank y) := by
  induction l with
  | nil => simp [place]
  | cons b rest ih =>
    obtain ⟨below, sortedRest⟩ := List.pairwise_cons.1 sorted
    unfold place
    split
    next smaller =>
      refine List.pairwise_cons.2 ⟨fun x member => ?_, sorted⟩
      rcases List.mem_cons.1 member with rfl | inRest
      · exact smaller
      · exact Nat.lt_trans smaller (below x inRest)
    next notSmaller =>
      split
      next equal =>
        exact List.pairwise_cons.2 ⟨fun x member => equal ▸ below x member, sortedRest⟩
      next different =>
        refine List.pairwise_cons.2 ⟨fun x member => ?_, ih sortedRest⟩
        rcases mem_place member with rfl | inRest
        · omega
        · exact below x inRest

/-- Adds `a`, replacing the member of the same rank if there is one. -/
def insert (s : AscendingSet α) (a : α) : AscendingSet α :=
  ⟨place a s.toList, pairwise_place a s.ascending⟩

def insertAll (s : AscendingSet α) (members : List α) : AscendingSet α :=
  members.foldl insert s

def ofList (members : List α) : AscendingSet α := empty.insertAll members

def singleton (a : α) : AscendingSet α := ofList [a]

def union (s t : AscendingSet α) : AscendingSet α := s.insertAll t.toList

def containsRank (s : AscendingSet α) (rank : Nat) : Bool :=
  s.toList.any (Ranked.rank · == rank)

def contains (s : AscendingSet α) (a : α) : Bool := s.containsRank (Ranked.rank a)

def size (s : AscendingSet α) : Nat := s.toList.length

def isEmpty (s : AscendingSet α) : Bool := s.toList.isEmpty

/-- The least member that `t` holds too. -/
def firstCommon? (s t : AscendingSet α) : Option α := s.toList.find? t.contains

theorem any_rank_place {a : α} {l : List α} (rank : Nat) :
    (place a l).any (Ranked.rank · == rank) =
      (Ranked.rank a == rank || l.any (Ranked.rank · == rank)) := by
  induction l with
  | nil => simp [place]
  | cons b rest ih =>
    unfold place
    split
    · simp
    · split
      next equal => simp [equal]
      next different => simp [ih, Bool.or_left_comm]

@[simp] theorem containsRank_empty (rank : Nat) :
    (empty : AscendingSet α).containsRank rank = false := rfl

@[simp] theorem containsRank_insert (s : AscendingSet α) (a : α) (rank : Nat) :
    (s.insert a).containsRank rank = (Ranked.rank a == rank || s.containsRank rank) :=
  any_rank_place rank

@[simp] theorem containsRank_insertAll (s : AscendingSet α) (members : List α) (rank : Nat) :
    (s.insertAll members).containsRank rank =
      (s.containsRank rank || members.any (Ranked.rank · == rank)) := by
  induction members generalizing s with
  | nil => simp [insertAll]
  | cons a rest ih =>
    have step : s.insertAll (a :: rest) = (s.insert a).insertAll rest := rfl
    rw [step, ih, containsRank_insert, List.any_cons, Bool.or_assoc, Bool.or_left_comm]

@[simp] theorem containsRank_ofList (members : List α) (rank : Nat) :
    (ofList members).containsRank rank = members.any (Ranked.rank · == rank) := by
  simp [ofList]

@[simp] theorem containsRank_union (s t : AscendingSet α) (rank : Nat) :
    (s.union t).containsRank rank = (s.containsRank rank || t.containsRank rank) :=
  containsRank_insertAll s t.toList rank

end AscendingSet
end QueryViews
