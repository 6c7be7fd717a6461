import QueryViews.Decode.Error
import QueryViews.Decode.Turns

/-! Decodings that run side by side. What matters of each is how many rounds it waits before it
is done, and how it ends. -/

namespace QueryViews

structure Attempt (α : Type) where
  rounds : Nat
  outcome : Except DecodeError α

namespace Attempt
variable {α β : Type}

def done (outcome : Except DecodeError α) : Attempt α := ⟨0, outcome⟩

def delayed (rounds : Nat) (a : Attempt α) : Attempt α := ⟨rounds + a.rounds, a.outcome⟩

def map (f : α → β) (a : Attempt α) : Attempt β := ⟨a.rounds, a.outcome.map f⟩

/-- The failure that is met first: the one after the fewest rounds, of several the earliest in
the list. -/
def firstFailure? : List (Attempt α) → Option (Nat × DecodeError)
  | [] => none
  | a :: rest =>
    match a.outcome, firstFailure? rest with
    | .ok _, later => later
    | .error error, none => some (a.rounds, error)
    | .error error, some (rounds, later) =>
      if a.rounds ≤ rounds then some (a.rounds, error) else some (rounds, later)

def longest (attempts : List (Attempt α)) : Nat := (attempts.map rounds).foldl max 0

/-- All at once, until the first failure. -/
def together (attempts : List (Attempt α)) : Attempt (List α) :=
  match firstFailure? attempts with
  | some (rounds, error) => ⟨rounds, .error error⟩
  | none => ⟨longest attempts, attempts.mapM outcome⟩

/-- They take turns, and the results are awaited in the order of the list, so the earliest
failure in it counts. -/
def inTurns (attempts : List (Attempt α)) : Attempt (List α) :=
  let succeeded := attempts.takeWhile fun a => a.outcome.toBool
  let queue := Turn.ofWaits (attempts.map rounds)
  ⟨Turn.roundsUntil (succeeded.length + 1) 0 false queue, attempts.mapM outcome⟩

/-- Up to this many attempts are watched all at once. -/
def watchLimit : Nat := 30

def gather (attempts : List (Attempt α)) : Attempt (List α) :=
  if attempts.length ≤ watchLimit then together attempts else inTurns attempts

end Attempt
end QueryViews
