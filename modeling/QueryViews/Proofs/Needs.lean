import QueryViews.Proofs.Fragment.Tokens

/-! Needs in terms of a scope: which tokens they are, which of them a fragment brings along, and
when two scopes give the same needs. -/

namespace QueryViews

namespace AscendingSet
variable {α : Type} [Ranked α]

theorem mem_insertAll {s : AscendingSet α} {members : List α} {x : α}
    (member : x ∈ (s.insertAll members).toList) : x ∈ s.toList ∨ x ∈ members := by
  induction members generalizing s with
  | nil => exact .inl member
  | cons a rest ih =>
    rcases ih (s := s.insert a) member with placed | later
    · rcases mem_place placed with rfl | earlier
      · exact .inr List.mem_cons_self
      · exact .inl earlier
    · exact .inr (List.mem_cons_of_mem a later)

theorem mem_ofList {members : List α} {x : α} (member : x ∈ (ofList members).toList) :
    x ∈ members :=
  (mem_insertAll member).resolve_left List.not_mem_nil

theorem mem_union {s t : AscendingSet α} {x : α} (member : x ∈ (s.union t).toList) :
    x ∈ s.toList ∨ x ∈ t.toList :=
  mem_insertAll member

theorem contains_union {s t : AscendingSet α} {a : α} :
    (s.union t).contains a = true ↔ s.contains a = true ∨ t.contains a = true := by
  rw [contains, containsRank_union, Bool.or_eq_true]
  rfl

theorem place_of_lt {a : α} {l : List α} (below : ∀ b ∈ l, Ranked.rank a < Ranked.rank b) :
    place a l = a :: l := by
  cases l with
  | nil => rfl
  | cons b rest => rw [place, if_pos (below b List.mem_cons_self)]

@[ext] theorem ext {s t : AscendingSet α} (same : s.toList = t.toList) : s = t := by
  cases s
  cases t
  cases same
  rfl

/-- Inserting the greatest member first puts every other one in front. -/
theorem ofList_reverse (s : AscendingSet α) : ofList s.toList.reverse = s := by
  apply ext
  have inOrder : ∀ l : List α, l.Pairwise (fun a b => Ranked.rank a < Ranked.rank b) →
      (l.foldr (fun a built => insert built a) empty).toList = l := by
    intro l sorted
    induction l with
    | nil => rfl
    | cons a rest ih =>
      obtain ⟨below, ascending⟩ := List.pairwise_cons.1 sorted
      have tail := ih ascending
      exact (congrArg (place a) tail).trans (place_of_lt below)
  rw [ofList, insertAll, List.foldl_reverse]
  exact inOrder s.toList s.ascending

theorem firstCommon?_eq_none_iff {s t : AscendingSet α} :
    s.firstCommon? t = none ↔ ∀ a ∈ s.toList, t.contains a = false := by
  simp [firstCommon?]

theorem containsRank_iff {s : AscendingSet α} {rank : Nat} :
    s.containsRank rank = true ↔ ∃ a ∈ s.toList, Ranked.rank a = rank := by
  simp [containsRank]

end AscendingSet

theorem TokenId.eq_of_rank {a b : TokenId} (same : Ranked.rank a = Ranked.rank b) : a = b :=
  congrArg TokenId.mk same

/-- Where identities stand for one definition each, they tell tokens apart. -/
theorem Token.eq_of_id {definitions : TokenId → Fragment} {t u : Token}
    (first : t.definition = definitions t.id) (second : u.definition = definitions u.id)
    (same : t.id = u.id) : t = u := by
  obtain ⟨id, definition⟩ := t
  obtain ⟨other, meaning⟩ := u
  obtain rfl : id = other := same
  obtain rfl : definition = meaning := first.trans second.symm
  rfl

theorem AscendingSet.holds_iff {s : TokenSet} {id : TokenId} :
    s.holds id = true ↔ ∃ t ∈ s.toList, t.id = id := by
  rw [holds, containsRank_iff]
  exact exists_congr fun t => and_congr_right fun _ =>
    ⟨TokenId.eq_of_rank, fun same => congrArg TokenId.index same⟩

theorem AscendingSet.mem_of_holds {definitions : TokenId → Fragment} {s : TokenSet}
    (ofSet : ∀ u ∈ s.toList, u.definition = definitions u.id) {t : Token}
    (defined : t.definition = definitions t.id) (held : s.holds t.id = true) : t ∈ s.toList := by
  obtain ⟨u, listed, same⟩ := holds_iff.1 held
  exact Token.eq_of_id (ofSet u listed) defined same ▸ listed

theorem AscendingSet.holds_union {s t : TokenSet} {id : TokenId} :
    (s.union t).holds id = true ↔ s.holds id = true ∨ t.holds id = true := by
  rw [holds, containsRank_union, Bool.or_eq_true]
  rfl

theorem AscendingSet.holds_insertAll {s : TokenSet} {tokens : List Token} {id : TokenId} :
    (s.insertAll tokens).holds id = true ↔ s.holds id = true ∨ ∃ t ∈ tokens, t.id = id := by
  rw [holds, containsRank_insertAll, Bool.or_eq_true, List.any_eq_true]
  refine or_congr_right (exists_congr fun t => and_congr_right fun _ => ?_)
  exact ⟨fun same => TokenId.eq_of_rank (eq_of_beq same),
    fun same => beq_iff_eq.2 (congrArg TokenId.index same)⟩

mutual

theorem Template.columns_modifyColumns (f : Column → Column) :
    ∀ t : Template, (t.modifyColumns f).columns = t.columns.map f
  | .column _ => rfl
  | .list items => Template.columnsOfItems_modifyItems f items
  | .record fields => Template.columnsOfFields_modifyFields f fields

theorem Template.columnsOfItems_modifyItems (f : Column → Column) :
    ∀ items : List Template,
      Template.columnsOfItems (Template.modifyItems f items) =
        (Template.columnsOfItems items).map f
  | [] => rfl
  | t :: rest => by
    rw [Template.modifyItems, Template.columnsOfItems, Template.columnsOfItems, List.map_append,
      Template.columns_modifyColumns f t, Template.columnsOfItems_modifyItems f rest]

theorem Template.columnsOfFields_modifyFields (f : Column → Column) :
    ∀ {keys : List String} (fields : Fields Template keys),
      Template.columnsOfFields (Template.modifyFields f fields) =
        (Template.columnsOfFields fields).map f
  | _, .nil => rfl
  | _, .cons _ t rest _ => by
    rw [Template.modifyFields, Template.columnsOfFields, Template.columnsOfFields,
      List.map_append, Template.columns_modifyColumns f t,
      Template.columnsOfFields_modifyFields f rest]

end

mutual

theorem Template.modifyColumns_of_fixed {f : Column → Column} (fixed : ∀ c, f c = c) :
    ∀ t : Template, t.modifyColumns f = t
  | .column c => congrArg Template.column (fixed c)
  | .list items => congrArg Template.list (Template.modifyItems_of_fixed fixed items)
  | .record fields => congrArg Template.record (Template.modifyFields_of_fixed fixed fields)

theorem Template.modifyItems_of_fixed {f : Column → Column} (fixed : ∀ c, f c = c) :
    ∀ items : List Template, Template.modifyItems f items = items
  | [] => rfl
  | t :: rest => by
    rw [Template.modifyItems, Template.modifyColumns_of_fixed fixed t,
      Template.modifyItems_of_fixed fixed rest]

theorem Template.modifyFields_of_fixed {f : Column → Column} (fixed : ∀ c, f c = c) :
    ∀ {keys : List String} (fields : Fields Template keys), Template.modifyFields f fields = fields
  | _, .nil => rfl
  | _, .cons key t rest _ => by
    rw [Template.modifyFields, Template.modifyColumns_of_fixed fixed t,
      Template.modifyFields_of_fixed fixed rest]

end

mutual

theorem Template.modifyColumns_comp (f g : Column → Column) :
    ∀ t : Template, (t.modifyColumns f).modifyColumns g = t.modifyColumns (g ∘ f)
  | .column _ => rfl
  | .list items => congrArg Template.list (Template.modifyItems_comp f g items)
  | .record fields => congrArg Template.record (Template.modifyFields_comp f g fields)

theorem Template.modifyItems_comp (f g : Column → Column) : ∀ items : List Template,
    Template.modifyItems g (Template.modifyItems f items) = Template.modifyItems (g ∘ f) items
  | [] => rfl
  | t :: rest => by
    rw [Template.modifyItems, Template.modifyItems, Template.modifyItems,
      Template.modifyColumns_comp f g t, Template.modifyItems_comp f g rest]

theorem Template.modifyFields_comp (f g : Column → Column) :
    ∀ {keys : List String} (fields : Fields Template keys),
      Template.modifyFields g (Template.modifyFields f fields) =
        Template.modifyFields (g ∘ f) fields
  | _, .nil => rfl
  | _, .cons key t rest _ => by
    rw [Template.modifyFields, Template.modifyFields, Template.modifyFields,
      Template.modifyColumns_comp f g t, Template.modifyFields_comp f g rest]

end

namespace Template

theorem columnsOfFields_eq {keys : List String} (fields : Fields Template keys) :
    columnsOfFields fields = fields.toList.flatMap fun field => field.2.columns := by
  induction fields with
  | nil => rfl
  | cons key t rest fresh ih => rw [columnsOfFields, ih, Fields.toList, List.flatMap_cons]

@[simp] theorem columns_pair {a b : String} {t u : Template} {distinct : a ≠ b} :
    (Template.record (.pair a t b u distinct)).columns = t.columns ++ u.columns := by
  rw [columns, Fields.pair, columnsOfFields, columnsOfFields, columnsOfFields, List.append_nil]

/-- A record with a column that is never NULL for each key. -/
def ofTokens (entries : List (String × Token)) : Template :=
  .ofFields (entries.map fun (key, token) => (key, .column { token, nullable := false }))

@[simp] theorem columns_ofTokens {entries : List (String × Token)}
    (distinct : (entries.map Prod.fst).Nodup) :
    (ofTokens entries).columns = entries.map fun (_, token) => { token, nullable := false } := by
  have keys : ((entries.map fun (key, token) =>
      (key, Template.column { token, nullable := false })).map Prod.fst).Nodup := by
    rw [List.map_map]
    exact distinct
  rw [ofTokens, ofFields, columns, columnsOfFields_eq, Fields.toList_ofList,
    Fields.settle_of_nodup keys, List.flatMap_map, List.map_eq_flatMap]
  rfl

/-- Widening changes no token. -/
theorem mem_columns_widen {t : Template} {nullable : Bool} {c : Column} :
    c ∈ (t.widen nullable).columns ↔ ∃ d ∈ t.columns, d.widen nullable = c := by
  rw [widen, columns_modifyColumns, List.mem_map]

/-- Every token a column of the template reads, at any depth, has the property. -/
def AllTokens (P : Token → Prop) (t : Template) : Prop := ∀ c ∈ t.columns, c.token.AllTokens P

theorem contains_scope {t : Template} {id : TokenId} :
    t.scope.contains id = true ↔ ∃ c ∈ t.columns, c.token.id = id := by
  rw [scope, AscendingSet.contains, AscendingSet.containsRank_ofList, List.any_map,
    List.any_eq_true]
  exact exists_congr fun c => and_congr_right fun _ =>
    ⟨fun same => TokenId.eq_of_rank (eq_of_beq same),
      fun same => beq_iff_eq.2 (congrArg TokenId.index same)⟩

theorem holds_tokenSet {t : Template} {id : TokenId} :
    t.tokenSet.holds id = true ↔ ∃ c ∈ t.columns, c.token.id = id := by
  rw [tokenSet, AscendingSet.ofList, AscendingSet.holds_insertAll]
  constructor
  · rintro (none | ⟨u, member, same⟩)
    · exact absurd none Bool.false_ne_true
    · obtain ⟨c, inside, rfl⟩ := List.mem_map.1 member
      exact ⟨c, inside, same⟩
  · rintro ⟨c, inside, same⟩
    exact .inr ⟨c.token, List.mem_map_of_mem inside, same⟩

end Template

namespace Token

theorem mem_distinctBeyond {seen : List TokenId} {tokens : List Token} {t : Token}
    (member : t ∈ distinctBeyond seen tokens) : t ∈ tokens ∧ t.id ∉ seen := by
  induction tokens generalizing seen with
  | nil => exact absurd member List.not_mem_nil
  | cons u rest ih =>
    unfold distinctBeyond at member
    split at member
    · exact (ih member).imp_left (List.mem_cons_of_mem u)
    next fresh =>
      rcases List.mem_cons.1 member with rfl | later
      · exact ⟨List.mem_cons_self, fresh⟩
      · obtain ⟨inRest, new⟩ := ih later
        exact ⟨List.mem_cons_of_mem u inRest, fun old => new (List.mem_cons_of_mem _ old)⟩

theorem mem_distinct {tokens : List Token} {t : Token} (member : t ∈ distinct tokens) :
    t ∈ tokens :=
  (mem_distinctBeyond member).1

theorem exists_mem_distinctBeyond {seen : List TokenId} {tokens : List Token} {t : Token}
    (member : t ∈ tokens) (fresh : t.id ∉ seen) :
    ∃ u ∈ distinctBeyond seen tokens, u.id = t.id := by
  induction tokens generalizing seen with
  | nil => exact absurd member List.not_mem_nil
  | cons u rest ih =>
    unfold distinctBeyond
    split
    next old =>
      rcases List.mem_cons.1 member with rfl | later
      · exact absurd old fresh
      · exact ih later fresh
    · by_cases same : u.id = t.id
      · exact ⟨u, List.mem_cons_self, same⟩
      · rcases List.mem_cons.1 member with rfl | later
        · exact absurd rfl same
        · have unseen : t.id ∉ u.id :: seen := by
            simpa only [List.mem_cons, not_or] using ⟨fun equal => same equal.symm, fresh⟩
          obtain ⟨w, kept, equal⟩ := ih later unseen
          exact ⟨w, List.mem_cons_of_mem u kept, equal⟩

theorem exists_mem_distinct {tokens : List Token} {t : Token} (member : t ∈ tokens) :
    ∃ u ∈ distinct tokens, u.id = t.id :=
  exists_mem_distinctBeyond member List.not_mem_nil

theorem nodup_distinctBeyond (seen : List TokenId) (tokens : List Token) :
    ((distinctBeyond seen tokens).map Token.id).Nodup := by
  induction tokens generalizing seen with
  | nil => exact List.nodup_nil
  | cons u rest ih =>
    unfold distinctBeyond
    split
    · exact ih seen
    · refine List.nodup_cons.2 ⟨fun member => ?_, ih _⟩
      obtain ⟨t, inRest, same⟩ := List.mem_map.1 member
      exact (mem_distinctBeyond inRest).2 (same ▸ List.mem_cons_self)

theorem nodup_distinct (tokens : List Token) : ((distinct tokens).map Token.id).Nodup :=
  nodup_distinctBeyond [] tokens

theorem distinctBeyond_of_nodup {seen : List TokenId} {tokens : List Token}
    (distinct : (tokens.map Token.id).Nodup) (fresh : ∀ t ∈ tokens, t.id ∉ seen) :
    distinctBeyond seen tokens = tokens := by
  induction tokens generalizing seen with
  | nil => rfl
  | cons u rest ih =>
    obtain ⟨alone, others⟩ := List.nodup_cons.1 distinct
    rw [distinctBeyond, if_neg (fresh u List.mem_cons_self), ih others]
    intro t later seenBefore
    rcases List.mem_cons.1 seenBefore with same | earlier
    · exact alone (same ▸ List.mem_map_of_mem later)
    · exact fresh t (List.mem_cons_of_mem u later) earlier

theorem distinct_of_nodup {tokens : List Token} (distinct : (tokens.map Token.id).Nodup) :
    Token.distinct tokens = tokens :=
  distinctBeyond_of_nodup distinct fun _ _ => List.not_mem_nil

end Token

theorem AscendingSet.nodup_ids (s : TokenSet) : (s.toList.map Token.id).Nodup :=
  List.pairwise_map.2 (s.ascending.imp fun below same =>
    Nat.ne_of_lt below (congrArg TokenId.index same))

namespace Template
variable {P : Token → Prop} {t : Template}

theorem AllTokens.tokens (all : t.AllTokens P) : ∀ u ∈ t.tokens, u.AllTokens P := by
  intro u member
  obtain ⟨c, inside, rfl⟩ := List.mem_map.1 (Token.mem_distinct member)
  exact all c inside

theorem AllTokens.tokenSet (all : t.AllTokens P) : ∀ u ∈ t.tokenSet.toList, u.AllTokens P := by
  intro u member
  obtain ⟨c, inside, rfl⟩ := List.mem_map.1 (AscendingSet.mem_ofList member)
  exact all c inside

theorem token_mem_tokens {definitions : TokenId → Fragment}
    (defined : ∀ c ∈ t.columns, c.token.definition = definitions c.token.id) {c : Column}
    (inside : c ∈ t.columns) : c.token ∈ t.tokens := by
  obtain ⟨u, listed, same⟩ := Token.exists_mem_distinct (List.mem_map_of_mem inside)
  obtain ⟨d, among, rfl⟩ := List.mem_map.1 (Token.mem_distinct listed)
  have equal : d.token = c.token := Token.eq_of_id (defined d among) (defined c inside) same
  exact equal ▸ listed

theorem contains_of_mem_tokenSet {u : Token} (member : u ∈ t.tokenSet.toList) :
    t.scope.contains u.id = true := by
  obtain ⟨c, inside, rfl⟩ := List.mem_map.1 (AscendingSet.mem_ofList member)
  exact contains_scope.2 ⟨c, inside, rfl⟩

end Template

mutual

theorem Segment.frontier_eq_tokens (scope : Scope) :
    ∀ segment : Segment, segment.frontier scope = segment.tokens.flatMap (Token.frontier scope)
  | .token id definition => by simp [Segment.tokens, Token.frontier, Token.toSegment]
  | .nested inner => by
    rw [Segment.frontier, Segment.tokens, Fragment.frontier_eq_tokens scope inner]
  | .verbatim _ | .column _ _ | .param _ => by simp [Segment.frontier, Segment.tokens]

theorem Fragment.frontier_eq_tokens (scope : Scope) :
    ∀ f : Fragment, Fragment.frontier scope f =
      (Fragment.tokens f).flatMap (Token.frontier scope)
  | [] => rfl
  | segment :: rest => by
    rw [Fragment.frontier, Fragment.tokens, List.flatMap_append,
      Segment.frontier_eq_tokens scope segment, Fragment.frontier_eq_tokens scope rest]

end

theorem Token.mem_frontier_self {scope : Scope} {t : Token} (held : scope.contains t.id = true) :
    t ∈ t.frontier scope := by
  rw [Token.frontier, Token.toSegment, Segment.frontier, if_pos held]
  exact List.mem_singleton_self _

namespace AscendingSet
variable {needs : TokenSet} {scope : Scope}

theorem mem_narrow {P : Token → Prop} (all : ∀ t ∈ needs.toList, t.AllTokens P) :
    ∀ t ∈ (needs.narrow scope).toList, t.AllTokens P ∧ scope.contains t.id = true := by
  intro t member
  exact Fragment.met_descend (Fragment.allTokens_map_toSegment.2 all)
    (fun _ none => absurd none List.not_mem_nil) t (mem_ofList member)

theorem contains_of_mem_narrow {t : Token} (member : t ∈ (needs.narrow scope).toList) :
    scope.contains t.id = true := by
  have anything : ∀ u ∈ needs.toList, u.AllTokens fun _ => True := by
    intro u _
    exact Fragment.allTokens_toFragment.1 (Fragment.allTokens_true u.toFragment)
  exact (mem_narrow anything t member).2

theorem narrow_congr {one two : Scope}
    (agree : ∀ t ∈ needs.toList, t.AllTokens fun u => one.contains u.id = two.contains u.id) :
    needs.narrow one = needs.narrow two := by
  rw [narrow, narrow, Fragment.descend_congr (Fragment.allTokens_map_toSegment.2 agree)]

/-- A walk over tokens of the scope enters no definition. -/
theorem met_descend_of_contains {tokens : List Token}
    (inside : ∀ t ∈ tokens, scope.contains t.id = true) (walk : Descent) :
    (Fragment.descend scope (tokens.map Token.toSegment) walk).met =
      tokens.reverse ++ walk.met := by
  induction tokens generalizing walk with
  | nil => rfl
  | cons t rest ih =>
    obtain ⟨first, others⟩ := List.forall_mem_cons.1 inside
    simp only [List.map_cons, Fragment.descend, Token.toSegment, Segment.descend, first, if_true,
      List.reverse_cons, List.append_assoc, List.singleton_append]
    exact ih others _

theorem narrow_eq_self (inside : ∀ t ∈ needs.toList, scope.contains t.id = true) :
    needs.narrow scope = needs := by
  rw [narrow, met_descend_of_contains inside, List.append_nil, ofList_reverse]

/-- Tokens that are met nowhere on the way down leave no needs. -/
theorem isEmpty_narrow
    (outside : ∀ t ∈ needs.toList, t.AllTokens fun u => scope.contains u.id = false) :
    (needs.narrow scope).isEmpty = true := by
  refine List.isEmpty_iff.2 (List.eq_nil_iff_forall_not_mem.2 fun t member => ?_)
  obtain ⟨all, inside⟩ := mem_narrow outside t member
  exact absurd inside (by simp [all.self])

end AscendingSet
end QueryViews
