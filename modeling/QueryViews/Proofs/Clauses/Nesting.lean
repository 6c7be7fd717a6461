import QueryViews.Proofs.Clauses.Aggregates
import QueryViews.Proofs.Clauses.Course

/-! How deep the subqueries of a view without joins are nested. Whether a step closes off the SELECT
below it depends on the clauses that it carries by then and on nothing else. A machine that knows
the clauses, and how many rows are skipped, tells from the steps how the view is built. It need not
know the rows as long as the skips fit the register that adds them up. -/

namespace QueryViews

/-- The clauses of the outermost SELECT, and how many subqueries there are below it. -/
structure Nesting where
  clauses : ClauseSet := {}
  depth : Nat := 0
deriving DecidableEq, Repr

namespace Step

/-- The step cannot be put above a SELECT with these clauses. -/
def blocked (clauses : ClauseSet) : Step → Bool
  | .filter _ | .order _ => clauses.skip || clauses.take
  | .group _ _ => clauses.order || clauses.group || clauses.having || clauses.skip || clauses.take
  | .bracket point => point.applies clauses
  | .project _ | .take _ | .skip _ => false

/-- The clauses once the step is put above them. -/
def mark (clauses : ClauseSet) : Step → ClauseSet
  | .filter _ =>
    if clauses.group then { clauses with having := true } else { clauses with filter := true }
  | .group _ _ => { clauses with group := true }
  | .order items => if items = [] then clauses else { clauses with order := true }
  | .take _ => { clauses with take := true }
  | .skip count => if 0 < count then { clauses with skip := true } else clauses
  | .project _ | .bracket _ => clauses

end Step

namespace Nesting

/-- All there is becomes a subquery of a SELECT that carries nothing yet. -/
def close (n : Nesting) : Nesting := { depth := n.depth + 1 }

def step (n : Nesting) (s : Step) : Nesting :=
  let room := if s.blocked n.clauses then n.close else n
  { room with clauses := s.mark room.clauses }

def run (steps : List Step) : Nesting := steps.foldl step {}

end Nesting

/-- A nesting, and how many rows the outermost SELECT skips. -/
structure Outline extends Nesting where
  skipped : Nat := 0
deriving DecidableEq, Repr

namespace Outline

def close (o : Outline) : Outline := { depth := o.depth + 1 }

def step (o : Outline) (s : Step) : Outline :=
  let room := if s.blocked o.clauses then o.close else o
  { room with
    clauses := s.clauses true room.clauses room.skipped
    skipped := s.skipped room.skipped }

def run (steps : List Step) : Outline := steps.foldl step {}

/-- No skip among the steps overflows. -/
def Fits (o : Outline) : List Step → Prop
  | [] => True
  | s :: rest => s.HasRoom o.skipped ∧ (o.step s).Fits rest

def decideFits (o : Outline) : (steps : List Step) → Decidable (o.Fits steps)
  | [] => inferInstanceAs (Decidable True)
  | s :: rest => @instDecidableAnd _ _ inferInstance ((o.step s).decideFits rest)

instance (o : Outline) (steps : List Step) : Decidable (o.Fits steps) := o.decideFits steps

theorem fits_concat {o : Outline} {steps : List Step} {s : Step} :
    o.Fits (steps ++ [s]) ↔ o.Fits steps ∧ s.HasRoom (steps.foldl step o).skipped := by
  induction steps generalizing o with
  | nil => exact ⟨fun fits => ⟨trivial, fits.1⟩, fun both => ⟨both.2, trivial⟩⟩
  | cons first rest ih => exact (and_congr_right fun _ => ih).trans and_assoc.symm

/-- The clauses show a skip exactly if rows are skipped. -/
def Shows (o : Outline) : Prop := o.clauses.skip = decide (0 < o.skipped)

end Outline

/-- No skip among the steps on a table overflows. -/
def SkipsFit (steps : List Step) : Prop := Outline.Fits {} steps

instance (steps : List Step) : Decidable (SkipsFit steps) :=
  inferInstanceAs (Decidable (Outline.Fits {} steps))

theorem Step.brackets_eq_blocked (s : Step) (clauses : ClauseSet) :
    s.brackets true clauses = s.blocked clauses := by
  cases s with
  | filter | order =>
    simp [brackets, blocked, Clause.blockers, ClauseSet.meets, ClauseSet.window]
  | group keys content =>
    simp only [brackets, blocked, Clause.blockers, ClauseSet.meets, ClauseSet.afterRows,
      ClauseSet.aggregate, ClauseSet.window, Bool.and_true, Bool.and_false, Bool.false_or]
    ac_rfl
  | project | take | skip | bracket => rfl

namespace Outline
variable {o : Outline} {s : Step}

theorem Shows.step (shows : o.Shows) (s : Step) : (o.step s).Shows := by
  have room : (if s.blocked o.clauses then o.close else o).Shows := by
    split
    · rfl
    · exact shows
  rw [Outline.step]
  generalize (if s.blocked o.clauses then o.close else o) = ready at room
  cases s with
  | filter condition =>
    simp only [Shows, Step.clauses, Step.skipped]
    split
    · exact room
    · exact room
  | group | order | take | project | bracket => exact room
  | skip => rfl

end Outline

namespace Body

/-- What the machine knows of a body. -/
def outline (b : Body) : Outline where
  clauses := b.state
  depth := b.nested.length
  skipped := b.skip

theorem outline_bracketIf (b : Body) (build : Build) (applies : Bool) (needs : TokenSet) :
    (build.bracketIf applies b needs).1.outline =
      if applies then b.outline.close else b.outline := by
  cases applies with
  | false => rfl
  | true =>
    have one : (build.bracketIf true b needs).1.nested.length = b.nested.length + 1 := by
      rw [Build.nested_bracketIf, if_pos rfl, List.singleton_append, List.length_cons]
    rw [outline, one]
    rfl

/-- A step does to a body what the machine does to what it knows of the body. -/
theorem Marked.outline_extend {b : Body} (marked : b.Marked) (build : Build) (s : Step)
    (needs : TokenSet) :
    (s.extend true (build.bracketIf (s.brackets true b.state) b needs).1).outline =
      b.outline.step s := by
  -- a condition goes by whether the body is grouped, which its clauses tell as the body is marked
  have room := (marked.bracketIf build (s.brackets true b.state) needs).grouped_eq
  have known := b.outline_bracketIf build (s.brackets true b.state) needs
  rw [s.brackets_eq_blocked] at known room ⊢
  rw [outline, s.state_extend true room, s.nested_extend, s.skip_extend, Outline.step]
  exact congrArg (fun o : Outline =>
    { clauses := s.clauses true o.clauses o.skipped, depth := o.depth,
      skipped := s.skipped o.skipped : Outline }) known

end Body

namespace View

/-- There is no join anywhere in the view. -/
def JoinFree : View → Prop
  | .table _ _ _ => True
  | .filter input _ | .project input _ | .group input _ _ | .order input _ | .take input _
  | .skip input _ | .bracket input _ => input.JoinFree
  | .join _ _ _ _ _ => False

/-- The steps on the table at the bottom of the view, in the order of the calls. -/
def steps : View → List Step
  | .table _ _ _ | .join _ _ _ _ _ => []
  | .filter input condition => input.steps ++ [.filter condition]
  | .project input template => input.steps ++ [.project template]
  | .group input keys content => input.steps ++ [.group keys content]
  | .order input items => input.steps ++ [.order items]
  | .take input count => input.steps ++ [.take count]
  | .skip input count => input.steps ++ [.skip count]
  | .bracket input point => input.steps ++ [.bracket point]

variable {v : View}

theorem joinFree_onto {s : Step} : (s.onto v).JoinFree ↔ v.JoinFree := by
  cases s with
  | filter | project | group | order | take | skip | bracket => exact Iff.rfl

theorem steps_onto (v : View) (s : Step) : (s.onto v).steps = v.steps ++ [s] := by
  cases s with
  | filter | project | group | order | take | skip | bracket => rfl

theorem steps_of_applyAll {text : Fragment} {id : Alias} {template : Template} {steps : List Step}
    (made : (View.table text id template).applyAll steps = .ok v) :
    v.JoinFree ∧ v.steps = steps := by
  induction made using applyAll_induction with
  | nil => exact ⟨trivial, rfl⟩
  | concat steps s v before fits ih =>
    obtain ⟨free, same⟩ := ih
    exact ⟨joinFree_onto.2 free, by rw [steps_onto, same]⟩

theorem outline_body (free : v.JoinFree) (used : TokenSet) (b : Build) :
    ((v.body used true).run b).1.outline = .run v.steps := by
  induction v using induction_onto generalizing used b with
  | table => rfl
  | onto s v ih =>
    have below := ih (joinFree_onto.1 free) (s.needs true v.scope used) b
    have marked := v.marked_body (s.needs true v.scope used) true b
    rw [run_body_onto]
    simp only [Build.run_makeRoom, s.observes_true]
    rw [marked.outline_extend, below, steps_onto, Outline.run, Outline.run, List.foldl_concat]
  | join => exact free.elim

end View
end QueryViews
