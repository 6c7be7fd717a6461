/-! Arithmetic texts. Products and quotients bind tighter than sums and differences, and operators
of one strength are taken from the left. A stack machine evaluates a text from left to right; what
it computes on trees is exactly what the grammar reads. -/

namespace QueryViews.Arithmetic

inductive Operator where
  | plus
  | minus
  | times
  | per
deriving DecidableEq, Repr

namespace Operator

def symbol : Operator → Char
  | plus => '+'
  | minus => '-'
  | times => '*'
  | per => '/'

/-- How tightly the operator binds. -/
def strength : Operator → Nat
  | plus | minus => 0
  | times | per => 1

theorem strength_lt_two (op : Operator) : op.strength < 2 := by
  cases op <;> decide

end Operator

/-- What the operators mean. -/
abbrev Meaning (α : Type) := Operator → α → α → α

inductive Term (ν : Type) where
  | leaf (name : ν)
  | node (op : Operator) (left right : Term ν)
deriving DecidableEq, Repr

def Term.value {ν α : Type} (I : Meaning α) (row : ν → α) : Term ν → α
  | leaf name => row name
  | node op left right => I op (left.value I row) (right.value I row)

inductive Lexeme (ν : Type) where
  | operand (name : ν)
  | operator (op : Operator)
  | opening
  | closing
deriving DecidableEq, Repr

/-- The text reads as the tree at a strength: 0 for sums, 1 for products, 2 for single operands and
for what stands in parentheses. The right operand has to bind tighter than the operator. -/
inductive Reads {ν : Type} : Nat → List (Lexeme ν) → Term ν → Prop
  | operand (name : ν) : Reads 2 [.operand name] (.leaf name)
  | group {xs : List (Lexeme ν)} {t : Term ν} (inner : Reads 0 xs t) :
    Reads 2 (.opening :: (xs ++ [.closing])) t
  | looser {strength : Nat} {xs : List (Lexeme ν)} {t : Term ν}
    (tight : Reads (strength + 1) xs t) : Reads strength xs t
  | operation {xs ys : List (Lexeme ν)} {l r : Term ν} (op : Operator)
    (left : Reads op.strength xs l) (right : Reads (op.strength + 1) ys r) :
    Reads op.strength (xs ++ .operator op :: ys) (.node op l r)

theorem Reads.mono {ν : Type} {xs : List (Lexeme ν)} {t : Term ν} {tight loose : Nat}
    (reads : Reads tight xs t) (le : loose ≤ tight) : Reads loose xs t := by
  induction le with
  | refl => exact reads
  | step _ ih => exact ih reads.looser

/-- What waits for its right operand, or for its closing parenthesis. -/
inductive Pending (α : Type) where
  | operation (left : α) (op : Operator)
  | group
deriving DecidableEq, Repr

/-- Carries out the operations that bind at least that tightly. -/
def reduce {α : Type} (I : Meaning α) (strength : Nat) :
    List (Pending α) → α → List (Pending α) × α
  | .operation left op :: below, last =>
    if strength ≤ op.strength then reduce I strength below (I op left last)
    else (.operation left op :: below, last)
  | .group :: below, last => (.group :: below, last)
  | [], last => ([], last)

/-- An operand is wanted next, or the last one is still held. -/
inductive State (α : Type) where
  | wanting (stack : List (Pending α))
  | holding (stack : List (Pending α)) (last : α)

section Machine
variable {ν α : Type} (I : Meaning α) (row : ν → α)

def State.step : State α → Lexeme ν → Option (State α)
  | .wanting stack, .operand name => some (.holding stack (row name))
  | .wanting stack, .opening => some (.wanting (.group :: stack))
  | .holding stack last, .operator op =>
    let (below, left) := reduce I op.strength stack last
    some (.wanting (.operation left op :: below))
  | .holding stack last, .closing =>
    match reduce I 0 stack last with
    | (.group :: below, inner) => some (.holding below inner)
    | _ => none
  | _, _ => none

def State.run (s : State α) (text : List (Lexeme ν)) : Option (State α) :=
  text.foldlM (State.step I row) s

def State.result? : State α → Option α
  | .wanting _ => none
  | .holding stack last =>
    match reduce I 0 stack last with
    | ([], value) => some value
    | _ => none

/-- The value of a text, if it is well formed. -/
def evaluate? (text : List (Lexeme ν)) : Option α := do
  (← (State.wanting []).run I row text).result? I

end Machine

/-- The tree that a text reads as. -/
def parse? {ν : Type} (text : List (Lexeme ν)) : Option (Term ν) := evaluate? .node .leaf text

/-- The operation on top, if there is one, binds less tightly. -/
def Below {α : Type} (strength : Nat) : List (Pending α) → Prop
  | .operation _ op :: _ => op.strength < strength
  | .group :: _ | [] => True

section
variable {ν α : Type} {I : Meaning α} {row : ν → α}

theorem Below.mono {stack : List (Pending α)} {loose tight : Nat} (below : Below loose stack)
    (le : loose ≤ tight) : Below tight stack := by
  cases stack with
  | nil => trivial
  | cons pending stack =>
    cases pending with
    | operation left op => exact Nat.lt_of_lt_of_le below le
    | group => trivial

theorem below_two (stack : List (Pending α)) : Below 2 stack := by
  cases stack with
  | nil => trivial
  | cons pending stack =>
    cases pending with
    | operation left op => exact op.strength_lt_two
    | group => trivial

theorem reduce_of_below {stack : List (Pending α)} {strength : Nat} (below : Below strength stack)
    (last : α) : reduce I strength stack last = (stack, last) := by
  cases stack with
  | nil => rfl
  | cons pending stack =>
    cases pending with
    | operation left op => exact if_neg (Nat.not_le.2 below)
    | group => rfl

theorem reduce_operation {op : Operator} {strength : Nat} (tight : strength ≤ op.strength)
    (stack : List (Pending α)) (left last : α) :
    reduce I strength (.operation left op :: stack) last =
      reduce I strength stack (I op left last) :=
  if_pos tight

namespace State

variable {s t : State α} {x : Lexeme ν} {xs : List (Lexeme ν)}

theorem run_append (ran : s.run I row xs = some t) (ys : List (Lexeme ν)) :
    s.run I row (xs ++ ys) = t.run I row ys := by
  have first : xs.foldlM (State.step I row) s = some t := ran
  rw [run, List.foldlM_append, first]
  rfl

theorem run_cons (stepped : s.step I row x = some t) (xs : List (Lexeme ν)) :
    s.run I row (x :: xs) = t.run I row xs := by
  rw [run, List.foldlM_cons, stepped]
  rfl

variable (row) in
/-- Over what binds less tightly, the machine comes to hold the value of what is read. -/
theorem run_of_reads {strength : Nat} {xs : List (Lexeme ν)} {t : Term ν}
    (reads : Reads strength xs t) : ∀ stack, Below strength stack →
      ∃ above last, (wanting stack).run I row xs = some (holding above last) ∧
        ∀ loose ≤ strength, reduce I loose above last = reduce I loose stack (t.value I row) := by
  induction reads with
  | operand name => exact fun stack _ => ⟨stack, row name, rfl, fun _ _ => rfl⟩
  | @group xs t inner ih =>
    intro stack _
    obtain ⟨above, last, ran, reduced⟩ := ih (.group :: stack) trivial
    have closed : reduce I 0 above last = (.group :: stack, t.value I row) :=
      reduced 0 (Nat.le_refl 0)
    refine ⟨stack, t.value I row, ?_, fun _ _ => rfl⟩
    have opened : (wanting stack).step I row .opening = some (wanting (.group :: stack)) := rfl
    have ended : (holding above last).step I row .closing =
        some (holding stack (t.value I row)) := by
      simp only [step, closed]
    rw [run_cons opened, run_append ran, run_cons ended]
    rfl
  | looser tight ih =>
    intro stack below
    obtain ⟨above, last, ran, reduced⟩ := ih stack (below.mono (Nat.le_succ _))
    exact ⟨above, last, ran, fun loose le => reduced loose (Nat.le_succ_of_le le)⟩
  | @operation xs ys l r op left right ofLeft ofRight =>
    intro stack below
    obtain ⟨above, last, ranLeft, reducedLeft⟩ := ofLeft stack below
    have first : reduce I op.strength above last = (stack, l.value I row) :=
      (reducedLeft _ (Nat.le_refl _)).trans (reduce_of_below below _)
    have pushed : (holding above last).step I row (.operator op) =
        some (wanting (.operation (l.value I row) op :: stack)) := by
      simp only [step, first]
    obtain ⟨top, held, ranRight, reducedRight⟩ :=
      ofRight (.operation (l.value I row) op :: stack) (Nat.lt_succ_self op.strength)
    refine ⟨top, held, ?_, fun loose le => ?_⟩
    · rw [run_append ranLeft, run_cons pushed, ranRight]
    · rw [reducedRight loose (Nat.le_succ_of_le le), reduce_operation le]
      rfl

end State

/-- Only the values of the operands in the text are looked at. -/
theorem State.run_congr {other : ν → α} {xs : List (Lexeme ν)}
    (same : ∀ name, .operand name ∈ xs → row name = other name) (s : State α) :
    s.run I row xs = s.run I other xs := by
  induction xs generalizing s with
  | nil => rfl
  | cons x xs ih =>
    have step : s.step I row x = s.step I other x := by
      cases x with
      | operand name =>
        cases s with
        | wanting stack =>
          rw [State.step, State.step, same name List.mem_cons_self]
        | holding => rfl
      | operator | opening | closing => cases s <;> rfl
    have rest := ih fun name inside => same name (List.mem_cons_of_mem x inside)
    rw [run, run, List.foldlM_cons, List.foldlM_cons, step]
    exact bind_congr rest

theorem evaluate?_congr {other : ν → α} {xs : List (Lexeme ν)}
    (same : ∀ name, .operand name ∈ xs → row name = other name) :
    evaluate? I row xs = evaluate? I other xs := by
  rw [evaluate?, evaluate?, State.run_congr same]

theorem evaluate?_of_run {xs : List (Lexeme ν)} {above : List (Pending α)} {last value : α}
    (ran : (State.wanting []).run I row xs = some (.holding above last))
    (reduced : reduce I 0 above last = ([], value)) : evaluate? I row xs = some value := by
  have result : (State.holding above last).result? I = some value := by
    simp only [State.result?, reduced]
  rw [evaluate?, ran]
  exact result

theorem evaluate?_of_reads {xs : List (Lexeme ν)} {t : Term ν} (reads : Reads 0 xs t) :
    evaluate? I row xs = some (t.value I row) := by
  obtain ⟨above, last, ran, reduced⟩ := State.run_of_reads (I := I) row reads [] trivial
  exact evaluate?_of_run ran (reduced 0 (Nat.le_refl 0))

end

section
variable {ν : Type}

/-- The text that has led to the stack. -/
inductive Left : List (Lexeme ν) → List (Pending (Term ν)) → Prop
  | nothing : Left [] []
  | group {xs : List (Lexeme ν)} {stack : List (Pending (Term ν))} (before : Left xs stack) :
    Left (xs ++ [.opening]) (.group :: stack)
  | operation {xs ys : List (Lexeme ν)} {stack : List (Pending (Term ν))} {l : Term ν}
    {op : Operator} (before : Left xs stack) (left : Reads op.strength ys l)
    (below : Below op.strength stack) :
    Left (xs ++ (ys ++ [.operator op])) (.operation l op :: stack)

/-- The text that has led to the state; what is held last is an operand or stood in parentheses. -/
def State.Follows (xs : List (Lexeme ν)) : State (Term ν) → Prop
  | .wanting stack => Left xs stack
  | .holding stack last => ∃ ys zs, xs = ys ++ zs ∧ Left ys stack ∧ Reads 2 zs last

theorem Left.reduce {ys : List (Lexeme ν)} {stack : List (Pending (Term ν))}
    (left : Left ys stack) :
    ∀ {zs : List (Lexeme ν)} {t : Term ν} {tight : Nat}, Reads tight zs t → Below tight stack →
      ∀ {loose : Nat}, loose ≤ tight → ∃ before after, before ++ after = ys ++ zs ∧
        Left before (reduce .node loose stack t).1 ∧
          Reads loose after (reduce .node loose stack t).2 ∧
            Below loose (reduce .node loose stack t).1 := by
  induction left with
  | nothing => exact fun reads _ loose le => ⟨[], _, rfl, .nothing, reads.mono le, trivial⟩
  | @group xs stack before _ =>
    exact fun reads _ loose le => ⟨_, _, rfl, before.group, reads.mono le, trivial⟩
  | @operation xs ys stack l op before left below ih =>
    intro zs t tight reads under loose le
    by_cases carried : loose ≤ op.strength
    · have whole := Reads.operation op left (reads.mono under)
      obtain ⟨front, back, same, shown⟩ := ih whole below carried
      rw [reduce_operation carried]
      exact ⟨front, back, by simp [same], shown⟩
    · have stays : Below loose (.operation l op :: stack) := Nat.lt_of_not_le carried
      rw [reduce_of_below stays]
      exact ⟨_, _, rfl, .operation before left below, reads.mono le, stays⟩

namespace State

theorem Follows.step {xs : List (Lexeme ν)} {s next : State (Term ν)} {x : Lexeme ν}
    (follows : s.Follows xs) (stepped : s.step .node .leaf x = some next) :
    next.Follows (xs ++ [x]) := by
  cases s with
  | wanting stack =>
    cases x with
    | operand name =>
      cases stepped
      exact ⟨xs, _, rfl, follows, .operand name⟩
    | opening =>
      cases stepped
      exact follows.group
    | operator | closing => cases stepped
  | holding stack last =>
    obtain ⟨ys, zs, rfl, left, held⟩ := follows
    cases x with
    | operator op =>
      cases stepped
      obtain ⟨front, back, same, shown, reads, below⟩ :=
        left.reduce held (below_two stack) (Nat.le_of_lt op.strength_lt_two)
      rw [← same, List.append_assoc]
      exact .operation shown reads below
    | closing =>
      obtain ⟨front, back, same, shown, reads, -⟩ :=
        left.reduce held (below_two stack) (Nat.zero_le 2)
      simp only [State.step] at stepped
      split at stepped
      next below inner reduced =>
        cases stepped
        rw [reduced] at shown reads
        cases shown with
        | @group before _ opened =>
          refine ⟨before, .opening :: (back ++ [.closing]), ?_, opened, reads.group⟩
          rw [← same]
          simp
      next => cases stepped
    | operand | opening => cases stepped

theorem Follows.run {xs ys : List (Lexeme ν)} {s last : State (Term ν)} (follows : s.Follows xs)
    (ran : s.run .node .leaf ys = some last) : last.Follows (xs ++ ys) := by
  induction ys generalizing xs s with
  | nil =>
    cases ran
    rwa [List.append_nil]
  | cons y ys ih =>
    obtain ⟨next, stepped, rest⟩ := Option.bind_eq_some_iff.1 ran
    simpa using ih (follows.step stepped) rest

end State

/-- The machine reads what the grammar reads, and nothing else. -/
theorem parse?_eq_some_iff {xs : List (Lexeme ν)} {t : Term ν} :
    parse? xs = some t ↔ Reads 0 xs t := by
  constructor
  · intro parsed
    obtain ⟨last, ran, result⟩ := Option.bind_eq_some_iff.1 parsed
    have follows := State.Follows.run (s := .wanting []) .nothing ran
    cases last with
    | wanting stack => cases result
    | holding stack held =>
      obtain ⟨ys, zs, same, left, reads⟩ := follows
      obtain ⟨front, back, again, shown, whole, -⟩ :=
        left.reduce reads (below_two stack) (Nat.zero_le 2)
      simp only [State.result?] at result
      split at result
      next value reduced =>
        cases result
        rw [reduced] at shown whole
        cases shown
        rw [List.nil_append] at same again
        rwa [same, ← again]
      next => cases result
  · intro reads
    have value : ∀ t : Term ν, t.value .node .leaf = t := by
      intro t
      induction t with
      | leaf => rfl
      | node op l r left right => rw [Term.value, left, right]
    rw [parse?, evaluate?_of_reads reads, value]

end
end QueryViews.Arithmetic
