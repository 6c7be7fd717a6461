import QueryViews.Proofs.Meaning.Interpretation
import QueryViews.Proofs.StepBody

/-! Extending a body by a step selects what the step keeps of the rows selected before, where
the body has room for the step. An order that nobody observes does not change which rows these
are. -/

namespace QueryViews

section
variable {V R : Type} {I : Interpretation V}

theorem TotalPreorder.trivial : TotalPreorder fun _ _ : R => true where
  trans _ _ _ _ _ := rfl
  total _ _ := rfl

theorem Interpretation.rowPrecedes_ordered (I : Interpretation V) (eval : Fragment → R → V)
    (items : List OrderItem) : TotalPreorder (I.rowPrecedes eval items) := by
  induction items with
  | nil => exact .trivial
  | cons item rest ih =>
    have keys := I.ordered item.direction item.nulls
    exact TotalPreorder.lexicographic
      ⟨fun a b c => keys.trans _ _ _, fun a b => keys.total _ _⟩ ih

theorem lexicographic_assoc (one two three : R → R → Bool) :
    lexicographic (lexicographic one two) three = lexicographic one (lexicographic two three) := by
  funext a b
  simp only [lexicographic]
  cases one a b <;> cases one b a <;> cases two a b <;> cases two b a <;> simp

theorem Interpretation.rowPrecedes_append (I : Interpretation V) (eval : Fragment → R → V)
    (items others : List OrderItem) :
    I.rowPrecedes eval (items ++ others) =
      lexicographic (I.rowPrecedes eval items) (I.rowPrecedes eval others) := by
  induction items with
  | nil =>
    funext a b
    simp [rowPrecedes, lexicographic]
  | cons item rest ih =>
    rw [List.cons_append, rowPrecedes, rowPrecedes, ih, lexicographic_assoc]

namespace Body
variable {b : Body}

theorem window_of_open (clear : b.state.meets .window = false) (rows : List R) :
    b.window rows = rows := by
  have parts : decide (0 < b.skip) = false ∧ b.take.isSome = false := by
    simpa [ClauseSet.meets, ClauseSet.window, state] using clear
  have none : b.take = none := Option.isSome_eq_false_iff.1 parts.2 |> Option.isNone_iff_eq_none.1
  have start : b.skip = 0 := by simpa using parts.1
  simp [window, none, start]

theorem window_addTake (b : Body) (count : Nat) (rows : List R) :
    (b.addTake count).window rows = (b.window rows).take count := by
  cases taken : b.take with
  | none => simp [window, addTake, taken]
  | some limit => simp [window, addTake, taken, List.take_take, Nat.min_comm]

theorem window_addSkip (b : Body) {count : Nat} (room : b.skip + count < Text.registerBound)
    (rows : List R) : (b.addSkip count).window rows = (b.window rows).drop count := by
  have start : addCounts b.skip count = b.skip + count := Nat.mod_eq_of_lt room
  cases taken : b.take with
  | none => simp [window, addSkip, taken, start, List.drop_drop]
  | some limit => simp [window, addSkip, taken, start, List.drop_drop, List.drop_take]

theorem select_ofSource (source : Source) (eval : Fragment → R → V) (rows : List R) :
    (ofSource source).select I eval rows = rows := by
  have all : rows.filter (fun _ => true) = rows := List.filter_eq_self.2 fun _ _ => rfl
  have sorted : rows.mergeSort (fun _ _ => true) = rows :=
    List.mergeSort_of_pairwise (List.pairwise_of_forall fun _ _ => rfl)
  show ((rows.filter fun _ => true).mergeSort fun _ _ => true).drop 0 = rows
  rw [all, sorted, List.drop_zero]

end Body

/-- The rows that the step keeps, where an order that nobody observes is left out. -/
def Step.keepIf (observed : Bool) (I : Interpretation V) (eval : Fragment → R → V)
    (rows : List R) (s : Step) : List R :=
  match s with
  | .order _ => if observed then s.keep I eval rows else rows
  | _ => s.keep I eval rows

/-- With room for the step, it can as well be carried out on the rows selected so far. -/
theorem Step.select_extend {s : Step} {observed : Bool} {b : Body} (rowwise : s.Rowwise)
    (room : s.HasRoom b.skip) (clear : s.brackets observed b.state = false ∨ b.state = {})
    (ungrouped : b.grouped = false)
    (eval : Fragment → R → V) (rows : List R) :
    (s.extend observed b).select I eval rows =
      s.keepIf observed I eval (b.select I eval rows) := by
  have ordered := I.rowPrecedes_ordered eval b.order
  cases s with
  | filter condition =>
    have clear : b.state.meets .window = false := clear.elim id fun empty => by rw [empty]; rfl
    have all : ∀ row, ((b.filters ++ [condition]).all fun f => I.holds (eval f row)) =
        (I.holds (eval condition row) && b.filters.all fun f => I.holds (eval f row)) := by
      intro row
      rw [List.all_append, List.all_cons, List.all_nil, Bool.and_true, Bool.and_comm]
    simp only [extend, Body.addCondition, ungrouped, Bool.false_eq_true, if_false, keepIf, keep,
      Body.select, Body.window_of_open clear, all]
    rw [filter_mergeSort ordered, List.filter_filter]
    exact Body.window_of_open (b := { b with filters := _ }) clear _
  | order items =>
    cases observed with
    | true =>
      have clear : b.state.meets .window = false := clear.elim id fun empty => by rw [empty]; rfl
      simp only [extend, Body.addOrder, if_true, keepIf, keep, Body.select,
        Body.window_of_open clear]
      rw [mergeSort_mergeSort (I.rowPrecedes_ordered eval items) ordered,
        ← I.rowPrecedes_append]
      exact Body.window_of_open (b := { b with order := _ }) clear _
    | false => rfl
  | take count => exact b.window_addTake count _
  | skip count => exact b.window_addSkip room _
  | project | bracket => rfl
  | group => exact absurd rowwise not_false

section Unordered
variable {s : Step} {observed : Bool} {some all : List R} (eval : Fragment → R → V)

/-- Whether or not its order is observed, a step keeps the same rows, as it depends on the order
of the rows before it only where it observes that. -/
theorem Step.keepIf_perm (same : some.Perm all) (ordered : s.observes observed = true → some = all) :
    (s.keepIf observed I eval some).Perm (s.keep I eval all) := by
  cases s with
  | filter condition => exact same.filter _
  | order items =>
    have sorted : (all.mergeSort (I.rowPrecedes eval items)).Perm all := List.mergeSort_perm _ _
    cases observed with
    | true => exact ((List.mergeSort_perm some _).trans same).trans sorted.symm
    | false => exact same.trans sorted.symm
  | take count | skip count => exact .of_eq (congrArg _ (ordered rfl))
  | project | group | bracket => exact same

theorem Step.keepIf_eq (seen : observed = true) (ordered : s.observes observed = true → some = all) :
    s.keepIf observed I eval some = s.keep I eval all := by
  cases s with
  | order items => rw [ordered seen, keepIf, if_pos seen]
  | filter | project | group | bracket => rw [ordered seen]; rfl
  | take | skip => rw [ordered rfl]; rfl

end Unordered

/-- The rows that the steps keep, one after the other. -/
def Step.keepAll (I : Interpretation V) (eval : Fragment → R → V) (steps : List Step)
    (rows : List R) : List R :=
  steps.foldl (fun kept s => s.keep I eval kept) rows

theorem Step.keepAll_concat (eval : Fragment → R → V) (steps : List Step) (s : Step)
    (rows : List R) :
    keepAll I eval (steps ++ [s]) rows = s.keep I eval (keepAll I eval steps rows) :=
  List.foldl_concat ..

variable {S : Type}

theorem Interpretation.rowPrecedes_map {eval : Fragment → R → V} {other : Fragment → S → V}
    {g : R → S} {h : Fragment → Fragment} {items : List OrderItem}
    (agree : ∀ item ∈ items, ∀ row, other (h item.expr) (g row) = eval item.expr row) (a b : R) :
    I.rowPrecedes other (items.map (SortKey.map h)) (g a) (g b) = I.rowPrecedes eval items a b := by
  induction items with
  | nil => rfl
  | cons item rest ih =>
    obtain ⟨here, later⟩ := List.forall_mem_cons.1 agree
    simp only [List.map_cons, rowPrecedes, lexicographic, SortKey.map, here, ih later]

theorem Body.window_map (b : Body) (g : R → S) (rows : List R) :
    b.window (rows.map g) = (b.window rows).map g := by
  unfold window
  cases b.take with
  | none => simp only [List.map_drop]
  | some count => simp only [List.map_drop, List.map_take]

/-- An expanded body selects the same rows, seen through the source they are read from. -/
theorem Body.select_expanded {r : Redirects} {b : Body} {eval : Fragment → R → V}
    {other : Fragment → S → V} {g : R → S}
    (filters : ∀ f ∈ b.filters, ∀ row, other (r.expand f) (g row) = eval f row)
    (order : ∀ item ∈ b.order, ∀ row, other (r.expand item.expr) (g row) = eval item.expr row)
    (rows : List R) :
    (b.expanded r).select I other (rows.map g) = (b.select I eval rows).map g := by
  have kept : (rows.map g).filter
      (fun row => (b.filters.map r.expand).all fun f => I.holds (other f row)) =
        (rows.filter fun row => b.filters.all fun f => I.holds (eval f row)).map g := by
    rw [List.filter_map]
    refine congrArg (List.map g) (List.filter_congr fun row _ => ?_)
    simp only [Function.comp_apply, List.all_map]
    rw [Bool.eq_iff_iff, List.all_eq_true, List.all_eq_true]
    refine forall₂_congr fun f member => ?_
    rw [Function.comp_apply, filters f member row]
  have sorted : ∀ l : List R,
      (l.map g).mergeSort (I.rowPrecedes other (b.order.map (SortKey.map r.expand))) =
        (l.mergeSort (I.rowPrecedes eval b.order)).map g := by
    intro l
    exact (List.map_mergeSort fun x _ y _ => (I.rowPrecedes_map order x y).symm).symm
  have whole : (b.expanded r).select I other (rows.map g) =
      b.window (((rows.map g).filter fun row =>
        (b.filters.map r.expand).all fun f => I.holds (other f row)).mergeSort
          (I.rowPrecedes other (b.order.map (SortKey.map r.expand)))) := rfl
  rw [whole, kept, sorted, window_map]
  rfl

/-- A body without a window selects the families of the rows that it selects. -/
theorem Body.select_flatMap {b : Body} (clear : b.state.meets .window = false)
    {family : R → List S} {owner : S → R} (owned : ∀ row, ∀ x ∈ family row, owner x = row)
    (eval : Fragment → R → V) (rows : List R) :
    b.select I (fun f x => eval f (owner x)) (rows.flatMap family) =
      (b.select I eval rows).flatMap family := by
  have kept : (rows.flatMap family).filter
      (fun x => b.filters.all fun f => I.holds (eval f (owner x))) =
        (rows.filter fun row => b.filters.all fun f => I.holds (eval f row)).flatMap family := by
    induction rows with
    | nil => rfl
    | cons row rest ih =>
      have same : ∀ x ∈ family row, (b.filters.all fun f => I.holds (eval f (owner x))) =
          b.filters.all fun f => I.holds (eval f row) := fun x inside => by rw [owned row x inside]
      rw [List.flatMap_cons, List.filter_append, ih, List.filter_congr same, List.filter_cons]
      split
      next holds => rw [List.flatMap_cons, List.filter_eq_self.2 fun _ _ => holds]
      next fails => rw [List.filter_eq_nil_iff.2 fun _ _ => fails, List.nil_append]
  have precedes : I.rowPrecedes (fun f x => eval f (owner x)) b.order =
      fun x y => I.rowPrecedes eval b.order (owner x) (owner y) := by
    funext x y
    have identical : b.order.map (SortKey.map id) = b.order := List.map_id b.order
    have mapped : I.rowPrecedes eval (b.order.map (SortKey.map id)) (owner x) (owner y) =
        I.rowPrecedes (fun f x => eval f (owner x)) b.order x y :=
      I.rowPrecedes_map (fun _ _ _ => rfl) x y
    rw [identical] at mapped
    exact mapped.symm
  rw [select, select, window_of_open clear, window_of_open clear, kept, precedes]
  exact mergeSort_flatMap owned (I.rowPrecedes_ordered eval b.order) _

end
end QueryViews
