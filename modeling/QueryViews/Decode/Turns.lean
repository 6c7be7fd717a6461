/-! Waiting in turns. The front of a queue is served: a turn with no waits left leaves, any other
uses up one wait and goes to the back. Two waits with nobody leaving between them make a round,
and so does each wait of a turn that is alone. -/

namespace QueryViews

/-- A place in a list, and the waits that are left to it. -/
structure Turn where
  index : Nat
  waits : Nat

namespace Turn

def ofWaits (waits : List Nat) : List Turn := waits.zipIdx.map fun (n, index) => ⟨index, n⟩

def allWaits : List Turn → Nat
  | [] => 0
  | turn :: rest => turn.waits + allWaits rest

theorem allWaits_append (a b : List Turn) : allWaits (a ++ b) = allWaits a + allWaits b := by
  induction a with
  | nil => simp [allWaits]
  | cons turn rest ih => simp [allWaits, ih, Nat.add_assoc]

/-- The rounds that have ended, beside the `ended` ones before, once all turns below the index
`awaited` have left the queue. A round has begun when the turn served last waited. -/
def roundsUntil (awaited ended : Nat) (begun : Bool) : List Turn → Nat
  | [] => ended
  | [last] => ended + last.waits
  | ⟨_, 0⟩ :: next :: rest =>
    if (next :: rest).all fun turn => awaited ≤ turn.index then ended
    else roundsUntil awaited ended false (next :: rest)
  | ⟨index, waits + 1⟩ :: next :: rest =>
    roundsUntil awaited (ended + begun.toNat) (!begun) (next :: rest ++ [⟨index, waits⟩])
termination_by queue => allWaits queue + queue.length
decreasing_by
  all_goals
    simp only [allWaits, allWaits_append, List.length_cons, List.length_append, List.cons_append,
      List.length_nil]
    omega

end Turn
end QueryViews
