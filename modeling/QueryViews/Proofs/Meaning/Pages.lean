import QueryViews.Proofs.Meaning.Selection

/-! Pages of a view. Taking and skipping rows moves the window of the body and touches nothing else
of it. The window that comes of many such calls leaves of any list what the calls leave of it one
after the other, unless they skip more rows than a register counts. -/

namespace QueryViews

/-- A call that keeps the first rows, or leaves them out. -/
inductive Cut where
  | take (count : Nat)
  | skip (count : Nat)
deriving DecidableEq, Repr

namespace Cut

def step : Cut → Step
  | .take count => .take count
  | .skip count => .skip count

/-- What the call leaves of a list. -/
def leave {R : Type} (rows : List R) : Cut → List R
  | .take count => rows.take count
  | .skip count => rows.drop count

/-- The body with the call put on its window. -/
def narrow (b : Body) : Cut → Body
  | .take count => b.addTake count
  | .skip count => b.addSkip count

theorem window_narrow {R : Type} {b : Body} {c : Cut}
    (room : b.skip + c.step.skips < Text.registerBound) (rows : List R) :
    (c.narrow b).window rows = c.leave (b.window rows) := by
  cases c with
  | take count => exact b.window_addTake count rows
  | skip count => exact b.window_addSkip room rows

theorem skip_narrow {b : Body} {c : Cut} (room : b.skip + c.step.skips < Text.registerBound) :
    (c.narrow b).skip = b.skip + c.step.skips := by
  cases c with
  | take count => rfl
  | skip count => exact Nat.mod_eq_of_lt room

theorem window_foldl_narrow {R : Type} {cuts : List Cut} {b : Body}
    (room : b.skip + totalCount (cuts.map fun c => c.step.skips) < Text.registerBound)
    (rows : List R) :
    (cuts.foldl narrow b).window rows = cuts.foldl leave (b.window rows) := by
  induction cuts generalizing b with
  | nil => rfl
  | cons c rest ih =>
    rw [List.map_cons, totalCount, ← Nat.add_assoc] at room
    have first : b.skip + c.step.skips < Text.registerBound :=
      Nat.lt_of_le_of_lt (Nat.le_add_right _ _) room
    have later := ih (b := c.narrow b) (by rwa [skip_narrow first])
    rw [List.foldl_cons, later, window_narrow first, List.foldl_cons]

variable (cuts : List Cut) (b : Body)

theorem eq_foldl_narrow :
    let cut := cuts.foldl narrow b
    cut = { b with skip := cut.skip, take := cut.take } := by
  induction cuts generalizing b with
  | nil => cases b with | mk => rfl
  | cons c rest ih =>
    cases c with
    | take | skip => exact ih _

end Cut

namespace View

/-- The view with the calls made on it, the first one first. -/
def cut (v : View) (cuts : List Cut) : View := cuts.foldl (fun w c => c.step.onto w) v

theorem scope_cut (v : View) (cuts : List Cut) : (v.cut cuts).scope = v.scope := by
  induction cuts generalizing v with
  | nil => rfl
  | cons c rest ih =>
    cases c with
    | take | skip => exact ih _

theorem run_body_cut_one (v : View) (c : Cut) (used : TokenSet) (b : Build) :
    ((c.step.onto v).body used true).run b =
      let below := (v.body (used.narrow v.scope) true).run b
      (c.narrow below.1, below.2) := by
  cases c with
  | take | skip => rfl

/-- Of tokens that the view offers, paging asks for those that are asked of it. -/
theorem run_body_cut (v : View) (cuts : List Cut) {used : TokenSet}
    (offered : ∀ t ∈ used.toList, v.scope.contains t.id = true) (b : Build) :
    ((v.cut cuts).body used true).run b =
      let below := (v.body used true).run b
      (cuts.foldl Cut.narrow below.1, below.2) := by
  induction cuts generalizing v with
  | nil => rfl
  | cons c rest ih =>
    have above := ih (c.step.onto v) (v.scope_cut [c] ▸ offered)
    rw [run_body_cut_one, AscendingSet.narrow_eq_self offered] at above
    exact above

/-- Of any other tokens, the last call asks in terms of what the view offers, and the calls below
it have nothing left to change. -/
theorem run_body_cut_concat (v : View) (first : List Cut) (last : Cut) (used : TokenSet)
    (b : Build) :
    ((v.cut (first ++ [last])).body used true).run b =
      let below := (v.body (used.narrow v.scope) true).run b
      ((first ++ [last]).foldl Cut.narrow below.1, below.2) := by
  -- the calls are put on one after the other, but what is asked is passed on from the last one
  have split : v.cut (first ++ [last]) = last.step.onto (v.cut first) := List.foldl_concat ..
  rw [split, run_body_cut_one, scope_cut,
    run_body_cut v first fun _ member => AscendingSet.contains_of_mem_narrow member]
  exact congrArg (·, _) (List.foldl_concat ..).symm

/-- Paging a view. Nothing is built that would not be built for the view alone: no subquery is
added, and only the window of the body moves. As long as the rows skipped can be counted, the moved
window leaves of any rows what the calls leave, one after the other, of what the window of the view
leaves. -/
theorem window_of_cuts (v : View) (cuts : List Cut) (used : TokenSet) (b : Build) :
    let asked := if cuts = [] then used else used.narrow v.scope
    let below := (v.body asked true).run b
    let paged := ((v.cut cuts).body used true).run b
    ((∀ t ∈ used.toList, v.scope.contains t.id = true) → asked = used) ∧
      paged.2 = below.2 ∧
      paged.1 = { below.1 with skip := paged.1.skip, take := paged.1.take } ∧
      (below.1.skip + totalCount (cuts.map fun c => c.step.skips) < Text.registerBound →
        ∀ (R : Type) (rows : List R),
          paged.1.window rows = cuts.foldl Cut.leave (below.1.window rows)) := by
  intro asked below paged
  have built : paged = (cuts.foldl Cut.narrow below.1, below.2) := by
    obtain rfl | ⟨first, last, rfl⟩ := cuts.eq_nil_or_concat
    · rfl
    · simp only [paged, below, asked, List.concat_eq_append, run_body_cut_concat]
      rw [if_neg (List.append_ne_nil_of_right_ne_nil first (List.cons_ne_nil last []))]
  refine ⟨fun offered => ?_, ?_, ?_, fun room R rows => ?_⟩
  · simp only [asked, AscendingSet.narrow_eq_self offered, ite_self]
  · rw [built]
  · rw [built]
    exact Cut.eq_foldl_narrow cuts below.1
  · rw [built]
    exact Cut.window_foldl_narrow room rows

/-- Five orders after the first. -/
def fiveOrders : View :=
  (table (Fragment.verbatim "orders") ⟨0⟩ (.ofTokens [])).cut [.skip 1, .take 5]

/-- Three rows after the first, where five rows after the first are left already. -/
theorem window_of_cuts_orders :
    let start : Build := { settings := {}, supply := {} }
    let paged := ((fiveOrders.cut [.skip 1, .take 3, .skip 0]).body .empty true).run start
    ((fiveOrders.body .empty true).run start).1.skip + 1 < Text.registerBound ∧
      paged.1.window (List.range 10) = [2, 3, 4] := by
  intro start paged
  have room : ((fiveOrders.body .empty true).run start).1.skip + 1 < Text.registerBound := by decide
  obtain ⟨-, -, -, window⟩ := window_of_cuts fiveOrders [.skip 1, .take 3, .skip 0] .empty start
  exact ⟨room, (window (by decide) Nat (List.range 10)).trans (by decide)⟩

end View
end QueryViews
