import QueryViews.Proofs.Arithmetic.Precedence

/-! Trees that are written out without parentheses. The text always reads as some tree; it has the
value of the tree that was written exactly if every operand binds tightly enough for its operator.
Under a meaning that lets operators regroup, a right operand may bind as tightly as they do. -/

namespace QueryViews.Arithmetic

/-- With such an operator on the left, operations of one strength can be grouped either way. -/
def Meaning.Regroups {α : Type} (I : Meaning α) (regroups : Operator → Bool) : Prop :=
  ∀ outer op, regroups outer = true → op.strength = outer.strength →
    ∀ a b c, I op (I outer a b) c = I outer a (I op b c)

namespace Term
variable {ν : Type}

/-- The operands and operators in their order, without any parentheses. -/
def lexemes : Term ν → List (Lexeme ν)
  | leaf name => [.operand name]
  | node op left right => left.lexemes ++ .operator op :: right.lexemes

/-- How tightly it binds as a whole. -/
def strength : Term ν → Nat
  | leaf _ => 2
  | node op _ _ => op.strength

/-- No operand needs parentheses. On the right side of an operator that regroups, neither do
operations of its own strength. -/
def Plain (regroups : Operator → Bool) : Term ν → Prop
  | leaf _ => True
  | node op left right =>
    (op.strength ≤ left.strength ∧ left.Plain regroups) ∧
      (op.strength < right.strength ∨ right.strength = op.strength ∧ regroups op = true) ∧
        right.Plain regroups

def decidePlain (regroups : Operator → Bool) : ∀ t : Term ν, Decidable (t.Plain regroups)
  | leaf _ => .isTrue trivial
  | node op left right =>
    have := left.decidePlain regroups
    have := right.decidePlain regroups
    inferInstanceAs (Decidable ((op.strength ≤ left.strength ∧ left.Plain regroups) ∧
      (op.strength < right.strength ∨ right.strength = op.strength ∧ regroups op = true) ∧
        right.Plain regroups))

instance (regroups : Operator → Bool) (t : Term ν) : Decidable (t.Plain regroups) :=
  t.decidePlain regroups

/-- No operand needs parentheses, whatever the operators mean. -/
abbrev Bare (t : Term ν) : Prop := t.Plain fun _ => false

end Term

/-- No parenthesis is open. -/
def Open {α : Type} (stack : List (Pending α)) : Prop := ∀ pending ∈ stack, pending ≠ .group

section
variable {ν α : Type} {I : Meaning α} {row : ν → α}

theorem open_reduce {stack : List (Pending α)} (clear : Open stack) (strength : Nat) (last : α) :
    Open (reduce I strength stack last).1 := by
  fun_induction reduce I strength stack last with
  | case1 last left op below carried ih =>
    exact ih fun pending inside => clear pending (List.mem_cons_of_mem _ inside)
  | case2 | case3 | case4 => exact clear

theorem reduce_zero_of_open {stack : List (Pending α)} (clear : Open stack) (last : α) :
    ∃ value, reduce I 0 stack last = ([], value) := by
  induction stack generalizing last with
  | nil => exact ⟨last, rfl⟩
  | cons pending stack ih =>
    obtain ⟨first, others⟩ := List.forall_mem_cons.1 clear
    cases pending with
    | operation left op =>
      rw [reduce_operation (Nat.zero_le _)]
      exact ih others _
    | group => exact absurd rfl first

variable (row) in
theorem Term.exists_run (t : Term ν) : ∀ stack : List (Pending α), Open stack →
    ∃ above last, (State.wanting stack).run I row t.lexemes = some (.holding above last) ∧
      Open above := by
  induction t with
  | leaf name => exact fun stack clear => ⟨stack, row name, rfl, clear⟩
  | node op left right ofLeft ofRight =>
    intro stack clear
    obtain ⟨above, last, ranLeft, clearLeft⟩ := ofLeft stack clear
    let reduced := reduce I op.strength above last
    have pushed : (State.holding above last).step I row (.operator op) =
        some (.wanting (.operation reduced.2 op :: reduced.1)) := rfl
    have clearRight : Open (.operation reduced.2 op :: reduced.1) :=
      List.forall_mem_cons.2 ⟨nofun, open_reduce clearLeft _ _⟩
    obtain ⟨top, held, ranRight, cleared⟩ := ofRight _ clearRight
    refine ⟨top, held, ?_, cleared⟩
    rw [lexemes, State.run_append ranLeft, State.run_cons pushed, ranRight]

theorem Term.exists_parse (t : Term ν) : ∃ u, parse? t.lexemes = some u := by
  obtain ⟨above, last, ran, clear⟩ := t.exists_run (I := node) leaf []
    fun _ none => absurd none List.not_mem_nil
  obtain ⟨u, reduced⟩ := reduce_zero_of_open (I := node) clear last
  exact ⟨u, evaluate?_of_run ran reduced⟩

/-- A tree of this strength may be written above the stack: what is on top binds less tightly, or
as tightly and regroups. -/
def Takes (regroups : Operator → Bool) (strength : Nat) : List (Pending α) → Prop
  | .operation _ op :: below =>
    op.strength < strength ∨ op.strength = strength ∧ regroups op = true ∧ Below strength below
  | .group :: _ | [] => True

variable {regroups : Operator → Bool}

theorem Takes.mono {stack : List (Pending α)} {loose tight : Nat}
    (takes : Takes regroups loose stack) (le : loose ≤ tight) : Takes regroups tight stack := by
  cases stack with
  | nil => trivial
  | cons pending below =>
    cases pending with
    | group => trivial
    | operation left op =>
      rcases takes with under | ⟨same, rest⟩
      · exact .inl (Nat.lt_of_lt_of_le under le)
      · rcases Nat.eq_or_lt_of_le le with rfl | more
        · exact .inr ⟨same, rest⟩
        · exact .inl (same ▸ more)

/-- When an operator comes, what is on top can be carried out already. -/
theorem Takes.reduce (lawful : I.Regroups regroups) {op : Operator} {stack : List (Pending α)}
    (takes : Takes regroups op.strength stack) (left : α) :
    Below op.strength (reduce I op.strength stack left).1 ∧ ∀ loose ≤ op.strength, ∀ right,
      reduce I loose (reduce I op.strength stack left).1
          (I op (reduce I op.strength stack left).2 right) =
        reduce I loose stack (I op left right) := by
  cases stack with
  | nil => exact ⟨trivial, fun _ _ _ => rfl⟩
  | cons pending below =>
    cases pending with
    | group => exact ⟨trivial, fun _ _ _ => rfl⟩
    | operation first outer =>
      rcases takes with under | ⟨same, grouped, under⟩
      · have stays : Below op.strength (.operation first outer :: below) := under
        rw [reduce_of_below stays]
        exact ⟨stays, fun _ _ _ => rfl⟩
      · rw [reduce_operation (Nat.le_of_eq same.symm), reduce_of_below under]
        refine ⟨under, fun loose le right => ?_⟩
        rw [reduce_operation (same ▸ le), lawful outer op grouped same.symm]

variable (row) in
theorem Term.Plain.run (lawful : I.Regroups regroups) {t : Term ν} (plain : t.Plain regroups) :
    ∀ stack : List (Pending α), Takes regroups t.strength stack →
      ∃ above last, (State.wanting stack).run I row t.lexemes = some (.holding above last) ∧
        ∀ loose ≤ t.strength, reduce I loose above last = reduce I loose stack (t.value I row) := by
  induction t with
  | leaf name => exact fun stack _ => ⟨stack, row name, rfl, fun _ _ => rfl⟩
  | node op left right ofLeft ofRight =>
    intro stack takes
    obtain ⟨⟨leftBinds, leftPlain⟩, rightBinds, rightPlain⟩ := plain
    obtain ⟨above, last, ranLeft, reducedLeft⟩ := ofLeft leftPlain stack (takes.mono leftBinds)
    let reduced := reduce I op.strength stack (left.value I row)
    obtain ⟨under, carried⟩ := Takes.reduce lawful takes (left.value I row)
    have pushed : (State.holding above last).step I row (.operator op) =
        some (.wanting (.operation reduced.2 op :: reduced.1)) := by
      simp only [State.step, reducedLeft _ leftBinds, reduced]
    have rightTakes : Takes regroups right.strength (.operation reduced.2 op :: reduced.1) := by
      rcases rightBinds with tight | ⟨same, grouped⟩
      · exact .inl tight
      · exact .inr ⟨same.symm, grouped, same ▸ under⟩
    have rightLe : op.strength ≤ right.strength :=
      rightBinds.elim Nat.le_of_lt fun same => Nat.le_of_eq same.1.symm
    obtain ⟨top, held, ranRight, reducedRight⟩ := ofRight rightPlain _ rightTakes
    refine ⟨top, held, ?_, fun loose le => ?_⟩
    · rw [lexemes, State.run_append ranLeft, State.run_cons pushed, ranRight]
    · rw [reducedRight loose (Nat.le_trans le rightLe), reduce_operation le, carried loose le]
      rfl

theorem Term.Plain.evaluate? (lawful : I.Regroups regroups) {t : Term ν}
    (plain : t.Plain regroups) : evaluate? I row t.lexemes = some (t.value I row) := by
  obtain ⟨above, last, ran, reduced⟩ := Term.Plain.run row lawful plain [] trivial
  exact evaluate?_of_run ran (reduced 0 (Nat.zero_le _))

end

namespace Term
variable {ν : Type} (regroups : Operator → Bool)

/-- The operation on trees, grouped from the left as far as it can be regrouped. -/
def graft (op : Operator) (left : Term ν) : Term ν → Term ν
  | leaf name => node op left (leaf name)
  | node below middle right =>
    if regroups op = true ∧ below.strength = op.strength then
      node below (graft op left middle) right
    else node op left (node below middle right)

theorem regroups_graft : Meaning.Regroups (graft regroups : Meaning (Term ν)) regroups := by
  intro outer op grouped same a b c
  induction c with
  | leaf name =>
    rw [graft, graft, graft, if_pos ⟨grouped, same⟩]
  | node below middle right ih =>
    rw [graft, graft]
    split
    next carried => rw [ih, graft, if_pos ⟨grouped, carried.2.trans same⟩]
    next => rw [graft, if_pos ⟨grouped, same⟩]

theorem strength_graft (op : Operator) (left right : Term ν) :
    (graft regroups op left right).strength = op.strength := by
  cases right with
  | leaf name => rfl
  | node below middle right =>
    rw [graft]
    split
    next carried => exact carried.2
    next => rfl

variable {regroups}

theorem of_bare_graft {op : Operator} {left right : Term ν}
    (bare : (graft regroups op left right).Bare) :
    (op.strength ≤ left.strength ∧ left.Bare) ∧
      (op.strength < right.strength ∨ right.strength = op.strength ∧ regroups op = true) ∧
        right.Bare := by
  induction right with
  | leaf name => exact ⟨bare.1, .inl op.strength_lt_two, trivial⟩
  | node below middle right ih _ =>
    rw [graft] at bare
    split at bare
    next carried =>
      obtain ⟨⟨-, first⟩, second⟩ := bare
      obtain ⟨ofLeft, tight, ofMiddle⟩ := ih first
      have binds : below.strength ≤ middle.strength := by
        rw [carried.2]
        exact tight.elim Nat.le_of_lt fun same => Nat.le_of_eq same.1.symm
      exact ⟨ofLeft, .inr ⟨carried.2, carried.1⟩, ⟨binds, ofMiddle⟩, second⟩
    next =>
      obtain ⟨ofLeft, tight, ofRight⟩ := bare
      exact ⟨ofLeft, .inl (tight.resolve_right fun both => Bool.false_ne_true both.2), ofRight⟩

theorem strength_value_graft (t : Term ν) :
    (t.value (graft regroups) leaf).strength = t.strength := by
  cases t with
  | leaf name => rfl
  | node op left right => exact strength_graft regroups op _ _

theorem plain_of_bare_value {t : Term ν} (bare : (t.value (graft regroups) leaf).Bare) :
    t.Plain regroups := by
  induction t with
  | leaf name => trivial
  | node op left right ofLeft ofRight =>
    obtain ⟨⟨leftBinds, leftBare⟩, rightBinds, rightBare⟩ := of_bare_graft bare
    rw [strength_value_graft] at leftBinds rightBinds
    exact ⟨⟨leftBinds, ofLeft leftBare⟩, rightBinds, ofRight rightBare⟩

theorem Bare.value_graft {t : Term ν} (bare : t.Bare) : t.value (graft regroups) leaf = t := by
  induction t with
  | leaf name => rfl
  | node op left right ofLeft ofRight =>
    obtain ⟨⟨-, leftBare⟩, tight, rightBare⟩ := bare
    rw [value, ofLeft leftBare, ofRight rightBare]
    cases right with
    | leaf name => rfl
    | node below middle right =>
      have tight : op.strength < below.strength :=
        tight.resolve_right fun both => Bool.false_ne_true both.2
      exact if_neg fun carried => Nat.ne_of_gt tight carried.2

/-- A text without parentheses reads as a tree that needs none. -/
theorem bare_of_reads {strength : Nat} {xs : List (Lexeme ν)} {t : Term ν}
    (reads : Reads strength xs t) (unopened : .opening ∉ xs) : strength ≤ t.strength ∧ t.Bare := by
  induction reads with
  | operand name => exact ⟨Nat.le_refl 2, trivial⟩
  | group inner ih => exact absurd List.mem_cons_self unopened
  | looser tight ih =>
    obtain ⟨binds, bare⟩ := ih unopened
    exact ⟨Nat.le_of_succ_le binds, bare⟩
  | operation op left right ofLeft ofRight =>
    obtain ⟨inLeft, inRight⟩ := not_or.1 (mt List.mem_append.2 unopened)
    have inRight := mt (List.mem_cons_of_mem (Lexeme.operator op)) inRight
    obtain ⟨leftBinds, leftBare⟩ := ofLeft inLeft
    obtain ⟨rightBinds, rightBare⟩ := ofRight inRight
    exact ⟨Nat.le_refl _, ⟨leftBinds, leftBare⟩, .inl rightBinds, rightBare⟩

theorem opening_not_mem_lexemes (t : Term ν) : .opening ∉ t.lexemes := by
  induction t with
  | leaf name => simp [lexemes]
  | node op left right ofLeft ofRight => simp [lexemes, ofLeft, ofRight]

/-- Written without parentheses, a tree keeps its value under all such meanings exactly if it is
plain. -/
theorem evaluate?_iff_plain {t : Term ν} :
    (∀ (α : Type) (I : Meaning α), I.Regroups regroups → ∀ row : ν → α,
      evaluate? I row t.lexemes = some (t.value I row)) ↔ t.Plain regroups := by
  constructor
  · intro keeps
    obtain ⟨u, parsed⟩ := t.exists_parse
    have reads := parse?_eq_some_iff.1 parsed
    have bare := (bare_of_reads reads t.opening_not_mem_lexemes).2
    have read : evaluate? (graft regroups) leaf t.lexemes = some (u.value (graft regroups) leaf) :=
      evaluate?_of_reads reads
    have same := read.symm.trans (keeps (Term ν) _ (regroups_graft regroups) leaf)
    rw [bare.value_graft, Option.some.injEq] at same
    exact plain_of_bare_value (same ▸ bare)
  · exact fun plain α I lawful row => plain.evaluate? lawful

end Term
end QueryViews.Arithmetic
