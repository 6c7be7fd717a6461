import Mathlib.Data.List.Sort

/-! Stable sorting by total preorders. `List.mergeSort` puts each element where an insertion
would put it; from that it follows that sorting commutes with filtering, and that sorting again
by another order is sorting once by both. Lists of elements that are compared by what they belong
to are sorted as a whole with that. -/

namespace QueryViews

/-- A comparison that orders all values, up to ties. -/
structure TotalPreorder {α : Type} (le : α → α → Bool) : Prop where
  trans : ∀ a b c, le a b = true → le b c = true → le a c = true
  total : ∀ a b, (le a b || le b a) = true

/-- Ties of the first comparison are resolved by the second one. -/
def lexicographic {α : Type} (first second : α → α → Bool) (a b : α) : Bool :=
  first a b && (!first b a || second a b)

section
variable {α : Type} {le first second : α → α → Bool}

theorem TotalPreorder.of_not (order : TotalPreorder le) {a b : α} (above : ¬ le a b = true) :
    le b a = true := by
  have either := order.total a b
  rw [Bool.or_eq_true] at either
  exact either.resolve_left above

theorem TotalPreorder.lexicographic (one : TotalPreorder first) (two : TotalPreorder second) :
    TotalPreorder (lexicographic first second) where
  trans a b c ab bc := by
    simp only [QueryViews.lexicographic, Bool.and_eq_true, Bool.or_eq_true, Bool.not_eq_true'] at *
    obtain ⟨fab, tab⟩ := ab
    obtain ⟨fbc, tbc⟩ := bc
    refine ⟨one.trans a b c fab fbc, ?_⟩
    cases fca : first c a with
    | false => exact .inl rfl
    | true =>
      have fba : first b a = true := one.trans b c a fbc fca
      have fcb : first c b = true := one.trans c a b fca fab
      rw [fba] at tab
      rw [fcb] at tbc
      exact .inr (two.trans a b c (tab.resolve_left nofun) (tbc.resolve_left nofun))
  total a b := by
    have f := one.total a b
    have s := two.total a b
    simp only [QueryViews.lexicographic]
    cases hab : first a b <;> cases hba : first b a <;> simp_all

/-- Inserts an element before the first one that it may stand in front of. -/
abbrev insertBy (le : α → α → Bool) (a : α) (l : List α) : List α :=
  l.orderedInsert (fun x y => le x y = true) a

theorem insertBy_cons (le : α → α → Bool) (a b : α) (l : List α) :
    insertBy le a (b :: l) = if le a b then a :: b :: l else b :: insertBy le a l :=
  List.orderedInsert_cons _ a b l

theorem insertBy_of_forall {a : α} {l : List α} (below : ∀ b ∈ l, le a b = true) :
    insertBy le a l = a :: l := by
  cases l with
  | nil => rfl
  | cons b rest => rw [insertBy_cons, if_pos (below b List.mem_cons_self)]

theorem insertBy_append {a : α} {before after : List α} (above : ∀ b ∈ before, ¬ le a b = true)
    (below : ∀ b ∈ after, le a b = true) :
    insertBy le a (before ++ after) = before ++ a :: after := by
  induction before with
  | nil => exact insertBy_of_forall below
  | cons b rest ih =>
    obtain ⟨first, others⟩ := List.forall_mem_cons.1 above
    rw [List.cons_append, insertBy_cons, if_neg first, ih others, List.cons_append]

theorem insertBy_congr {one two : α → α → Bool} {a : α} {l : List α}
    (agree : ∀ b ∈ l, one a b = two a b) : insertBy one a l = insertBy two a l := by
  induction l with
  | nil => rfl
  | cons b rest ih =>
    obtain ⟨here, others⟩ := List.forall_mem_cons.1 agree
    rw [insertBy_cons, insertBy_cons, here, ih others]

/-- The head of a list is inserted into the rest once that is sorted. -/
theorem mergeSort_cons_eq (order : TotalPreorder le) (a : α) (l : List α) :
    (a :: l).mergeSort le = insertBy le a (l.mergeSort le) := by
  obtain ⟨before, after, sorted, rest, above⟩ := List.mergeSort_cons order.trans order.total a l
  have pairwise := List.pairwise_mergeSort order.trans order.total (a :: l)
  rw [sorted] at pairwise
  have below := (List.pairwise_cons.1 (List.pairwise_append.1 pairwise).2.1).1
  rw [sorted, rest, insertBy_append (fun b member => by simpa using above b member) below]

theorem filter_insertBy (order : TotalPreorder le) (p : α → Bool) (a : α) {l : List α}
    (sorted : l.Pairwise fun x y => le x y = true) :
    (insertBy le a l).filter p =
      if p a then insertBy le a (l.filter p) else l.filter p := by
  induction l with
  | nil => simp [insertBy, List.filter_cons]
  | cons b rest ih =>
    obtain ⟨least, others⟩ := List.pairwise_cons.1 sorted
    by_cases under : le a b = true
    · have below : ∀ x ∈ (b :: rest).filter p, le a x = true := by
        intro x member
        rcases List.mem_cons.1 (List.mem_of_mem_filter member) with rfl | later
        · exact under
        · exact order.trans a b x under (least x later)
      rw [insertBy_cons, if_pos under, insertBy_of_forall below, List.filter_cons]
    · rw [insertBy_cons, if_neg under, List.filter_cons, ih others, List.filter_cons]
      cases p a with
      | false => rfl
      | true =>
        cases p b with
        | false => rfl
        | true => simp only [if_true, insertBy_cons, if_neg under]

theorem filter_mergeSort (order : TotalPreorder le) (p : α → Bool) (l : List α) :
    (l.mergeSort le).filter p = (l.filter p).mergeSort le := by
  induction l with
  | nil => simp
  | cons a rest ih =>
    rw [mergeSort_cons_eq order, filter_insertBy order p a
      (List.pairwise_mergeSort order.trans order.total rest), ih, List.filter_cons]
    split
    · rw [mergeSort_cons_eq order]
    · rfl

/-- An element that the second order puts behind another one stays behind it on ties. -/
theorem insertBy_comm (one : TotalPreorder first) {a b : α} (behind : ¬ second a b = true)
    (l : List α) :
    insertBy first b (insertBy (lexicographic first second) a l) =
      insertBy (lexicographic first second) a (insertBy first b l) := by
  have tie : lexicographic first second a b = !first b a := by
    cases back : first b a with
    | false =>
      have ahead : first a b = true := one.of_not (by simp [back])
      simp [lexicographic, back, ahead]
    | true => simp [lexicographic, back, behind]
  induction l with
  | nil =>
    simp only [insertBy_cons, List.orderedInsert_nil, tie]
    cases first b a with
    | false => rfl
    | true => rfl
  | cons c rest ih =>
    by_cases ac : lexicographic first second a c = true
    · have firstAC : first a c = true := (Bool.and_eq_true_iff.1 ac).1
      by_cases ba : first b a = true
      · have bc : first b c = true := one.trans b a c ba firstAC
        simp only [insertBy_cons, ac, ba, bc, tie, Bool.not_true, Bool.false_eq_true, if_true,
          if_false]
      · by_cases bc : first b c = true
        · simp only [insertBy_cons, ac, ba, bc, tie, if_true, Bool.not_false, if_false,
            Bool.false_eq_true]
        · simp only [insertBy_cons, ac, ba, bc, if_true, if_false, Bool.false_eq_true]
    · by_cases bc : first b c = true
      · -- otherwise a would come before c by the first order alone
        have ba : first b a = true := by
          by_contra ahead
          have firstAC := one.trans a b c (one.of_not ahead) bc
          have firstCA : first c a = true := by
            by_contra strict
            exact ac (by simp [lexicographic, firstAC, strict])
          exact ahead (one.trans b c a bc firstCA)
        simp only [insertBy_cons, ac, ba, bc, tie, Bool.not_true, Bool.false_eq_true, if_true,
          if_false]
      · simp only [insertBy_cons, ac, bc, Bool.false_eq_true, if_false, ih]

theorem mergeSort_insertBy (one : TotalPreorder first) (two : TotalPreorder second) (a : α)
    {l : List α} (sorted : l.Pairwise fun x y => second x y = true) :
    (insertBy second a l).mergeSort first =
      insertBy (lexicographic first second) a (l.mergeSort first) := by
  induction l with
  | nil => simp
  | cons b rest ih =>
    obtain ⟨least, others⟩ := List.pairwise_cons.1 sorted
    by_cases under : second a b = true
    · have agree : ∀ x ∈ (b :: rest).mergeSort first,
          first a x = lexicographic first second a x := by
        intro x member
        have below : second a x = true := by
          rcases List.mem_cons.1 (List.mem_mergeSort.1 member) with rfl | later
          · exact under
          · exact two.trans a b x under (least x later)
        simp [lexicographic, below]
      rw [insertBy_cons, if_pos under, mergeSort_cons_eq one, insertBy_congr agree]
    · rw [insertBy_cons, if_neg under, mergeSort_cons_eq one, ih others, mergeSort_cons_eq one,
        insertBy_comm one under]

/-- Sorting a sorted list by another order leaves the old one for the ties. -/
theorem mergeSort_mergeSort (one : TotalPreorder first) (two : TotalPreorder second)
    (l : List α) :
    (l.mergeSort second).mergeSort first = l.mergeSort (lexicographic first second) := by
  induction l with
  | nil => simp
  | cons a rest ih =>
    rw [mergeSort_cons_eq two, mergeSort_cons_eq (one.lexicographic two), ← ih,
      mergeSort_insertBy one two a (List.pairwise_mergeSort two.trans two.total rest)]

theorem mergeSort_append_eq (order : TotalPreorder le) (front back : List α) :
    (front ++ back).mergeSort le = front.foldr (insertBy le) (back.mergeSort le) := by
  induction front with
  | nil => rfl
  | cons a rest ih => rw [List.cons_append, mergeSort_cons_eq order, ih, List.foldr_cons]

theorem foldr_insertBy_of_forall {front back : List α}
    (below : ∀ a ∈ front, ∀ b ∈ front ++ back, le a b = true) :
    front.foldr (insertBy le) back = front ++ back := by
  induction front with
  | nil => rfl
  | cons a rest ih =>
    obtain ⟨first, others⟩ := List.forall_mem_cons.1 below
    have later := ih fun x member b inside => others x member b (List.mem_cons_of_mem a inside)
    rw [List.foldr_cons, later, List.cons_append]
    exact insertBy_of_forall fun b inside => first b (List.mem_cons_of_mem a inside)

theorem foldr_insertBy_append {inserted before : List α} (after : List α)
    (above : ∀ a ∈ inserted, ∀ b ∈ before, ¬ le a b = true) :
    inserted.foldr (insertBy le) (before ++ after) =
      before ++ inserted.foldr (insertBy le) after := by
  induction inserted with
  | nil => rfl
  | cons a rest ih =>
    obtain ⟨first, others⟩ := List.forall_mem_cons.1 above
    rw [List.foldr_cons, ih others, List.foldr_cons]
    generalize rest.foldr (insertBy le) after = sorted
    clear ih others above
    induction before with
    | nil => rfl
    | cons b before ih =>
      obtain ⟨here, later⟩ := List.forall_mem_cons.1 first
      rw [List.cons_append, insertBy_cons, if_neg here, ih later, List.cons_append]

section Families
variable {β : Type} {family : α → List β} {owner : β → α} (owned : ∀ a, ∀ b ∈ family a, owner b = a)
include owned

/-- The family of an inserted element is inserted where the element is. -/
theorem foldr_insertBy_flatMap (order : TotalPreorder le) (a : α) {l : List α}
    (sorted : l.Pairwise fun x y => le x y = true) :
    (family a).foldr (insertBy fun x y => le (owner x) (owner y)) (l.flatMap family) =
      (insertBy le a l).flatMap family := by
  have self : le a a = true := by simpa using order.total a a
  induction l with
  | nil =>
    refine foldr_insertBy_of_forall fun x inside y member => ?_
    have same : y ∈ family a := by simpa using member
    rw [owned a x inside, owned a y same, self]
  | cons b rest ih =>
    obtain ⟨least, others⟩ := List.pairwise_cons.1 sorted
    by_cases under : le a b = true
    · rw [insertBy_cons, if_pos under]
      refine (foldr_insertBy_of_forall fun x inside y member => ?_).trans List.flatMap_cons.symm
      rw [owned a x inside]
      rcases List.mem_append.1 member with same | other
      · rw [owned a y same, self]
      · obtain ⟨c, listed, ofFamily⟩ := List.mem_flatMap.1 other
        rw [owned c y ofFamily]
        rcases List.mem_cons.1 listed with rfl | later
        · exact under
        · exact order.trans a b c under (least c later)
    · rw [insertBy_cons, if_neg under, List.flatMap_cons, List.flatMap_cons, ← ih others]
      refine foldr_insertBy_append _ fun x inside y member => ?_
      rw [owned a x inside, owned b y member]
      exact under

/-- Families sorted by their owners are the families of the sorted owners. -/
theorem mergeSort_flatMap (order : TotalPreorder le) (l : List α) :
    (l.flatMap family).mergeSort (fun x y => le (owner x) (owner y)) =
      (l.mergeSort le).flatMap family := by
  have families : TotalPreorder fun x y => le (owner x) (owner y) :=
    ⟨fun x y z => order.trans _ _ _, fun x y => order.total _ _⟩
  induction l with
  | nil => simp
  | cons a rest ih =>
    rw [List.flatMap_cons, mergeSort_append_eq families, ih, mergeSort_cons_eq order]
    exact foldr_insertBy_flatMap owned order a
      (List.pairwise_mergeSort order.trans order.total rest)

end Families

end
end QueryViews
