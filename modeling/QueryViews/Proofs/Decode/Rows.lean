import QueryViews.Proofs.Bracketing
import QueryViews.Query.Compiler

/-! Rows read back. Names are given to the distinct tokens of a template, values are looked up and
decoded column by column, and the template takes them one after the other: together this puts
the decoded value of every column in the place of that column. -/

namespace QueryViews

namespace Template

mutual

/-- The template with a value in the place of every column. -/
def fill (value : Column → Json) : Template → Json
  | .column c => value c
  | .list items => .array (fillItems value items)
  | .record fields => .ofFields (fillFields value fields)

def fillItems (value : Column → Json) : List Template → List Json
  | [] => []
  | t :: rest => t.fill value :: fillItems value rest

def fillFields (value : Column → Json) {keys : List String} :
    Fields Template keys → List (String × Json)
  | .nil => []
  | .cons key t rest _ => (key, t.fill value) :: fillFields value rest

end

mutual

theorem refill_columns (value : Column → Json) :
    ∀ (t : Template) (rest : List Json),
      t.refill (t.columns.map value ++ rest) = (t.fill value, rest)
  | .column _, _ => rfl
  | .list items, rest => by
    have filled := refillItems_columns value items rest
    simp only [columns, refill, filled, fill]
  | .record fields, rest => by
    have filled := refillFields_columns value fields rest
    simp only [columns, refill, filled, fill]

theorem refillItems_columns (value : Column → Json) :
    ∀ (items : List Template) (rest : List Json),
      refillItems items ((columnsOfItems items).map value ++ rest) = (fillItems value items, rest)
  | [], _ => rfl
  | t :: items, rest => by
    have first := refill_columns value t ((columnsOfItems items).map value ++ rest)
    have others := refillItems_columns value items rest
    simp only [columnsOfItems, List.map_append, List.append_assoc, refillItems, first, others,
      fillItems]

theorem refillFields_columns (value : Column → Json) :
    ∀ {keys : List String} (fields : Fields Template keys) (rest : List Json),
      refillFields fields ((columnsOfFields fields).map value ++ rest) =
        (fillFields value fields, rest)
  | _, .nil, _ => rfl
  | _, .cons key t fields _, rest => by
    have first := refill_columns value t ((columnsOfFields fields).map value ++ rest)
    have others := refillFields_columns value fields rest
    simp only [columnsOfFields, List.map_append, List.append_assoc, refillFields, first, others,
      fillFields]

end

end Template

section Results
variable {ε α β : Type} {outcome : α → Except ε β}

theorem Except.mapM_eq_ok {items : List α} {value : α → β}
    (succeed : ∀ a ∈ items, outcome a = .ok (value a)) :
    items.mapM outcome = .ok (items.map value) := by
  induction items with
  | nil => rfl
  | cons a rest ih =>
    obtain ⟨first, others⟩ := List.forall_mem_cons.1 succeed
    rw [List.mapM_cons, first, ih others]
    rfl

theorem Except.mapM_eq_error {before after : List α} {a : α} {error : ε}
    (succeed : ∀ b ∈ before, ∃ v, outcome b = .ok v) (fails : outcome a = .error error) :
    (before ++ a :: after).mapM outcome = .error error := by
  induction before with
  | nil =>
    rw [List.nil_append, List.mapM_cons, fails]
    rfl
  | cons b rest ih =>
    obtain ⟨⟨v, first⟩, others⟩ := List.forall_mem_cons.1 succeed
    rw [List.cons_append, List.mapM_cons, first, ih others]
    rfl

end Results

namespace Attempt
variable {α : Type} {attempts : List (Attempt α)}

theorem mapM_outcome_of_firstFailure (waitless : ∀ a ∈ attempts, a.rounds = 0) :
    match firstFailure? attempts with
    | some (rounds, error) => rounds = 0 ∧ attempts.mapM outcome = .error error
    | none => True := by
  induction attempts with
  | nil => trivial
  | cons a rest ih =>
    obtain ⟨first, others⟩ := List.forall_mem_cons.1 waitless
    have later := ih others
    cases ended : a.outcome with
    | ok v =>
      cases found : firstFailure? rest with
      | none => simp only [firstFailure?, ended, found]
      | some failure =>
        rw [found] at later
        simp only [firstFailure?, ended, found]
        refine ⟨later.1, ?_⟩
        rw [List.mapM_cons, ended, later.2]
        rfl
    | error e =>
      -- a later failure comes in the same round, and the first of these is taken
      have whole : (a :: rest).mapM outcome = .error e := by
        rw [List.mapM_cons, ended]
        rfl
      cases found : firstFailure? rest with
      | none => simp only [firstFailure?, ended, found, first, whole, and_self]
      | some failure =>
        simp only [firstFailure?, ended, found, first, Nat.zero_le, if_true, whole, and_self]

/-- Attempts that wait for nothing end as they do one after the other. -/
theorem outcome_gather (waitless : ∀ a ∈ attempts, a.rounds = 0) :
    (gather attempts).outcome = attempts.mapM outcome := by
  unfold gather
  split
  · have failure := mapM_outcome_of_firstFailure waitless
    unfold together
    cases found : firstFailure? attempts with
    | none => rfl
    | some first =>
      rw [found] at failure
      exact failure.2.symm
  · rfl

end Attempt

namespace Column

/-- No format of the column waits. -/
def Synchronous (c : Column) : Prop := ∀ step ∈ c.steps, step.rounds = 0

theorem rounds_runAll {steps : List DecodeStep} (waitless : ∀ step ∈ steps, step.rounds = 0)
    (v : Json) : (DecodeStep.runAll steps v).rounds = 0 := by
  induction steps generalizing v with
  | nil => rfl
  | cons step rest ih =>
    obtain ⟨first, others⟩ := List.forall_mem_cons.1 waitless
    unfold DecodeStep.runAll
    cases step.format v with
    | ok w =>
      show step.rounds + (DecodeStep.runAll rest w).rounds = 0
      rw [first, ih others w]
    | error => exact first

theorem Synchronous.rounds_decode {c : Column} (waitless : c.Synchronous) (name : String)
    (raw : Json) : (c.decode name raw).rounds = 0 := by
  unfold decode
  split
  · rfl
  · exact rounds_runAll waitless raw

end Column

namespace RowReader
variable {r : RowReader} {row : Row} {raw : Column → Json}

theorem decodeColumn_eq {c : Column} (found : row.get? (r.nameOf c.token.id) = some (raw c)) :
    r.decodeColumn row c = c.decode (r.nameOf c.token.id) (raw c) := by
  simp only [decodeColumn, found]

theorem decodeOne_eq (raw : Column → Json) (found : ∀ c ∈ r.template.columns,
      row.get? (r.nameOf c.token.id) = some (raw c))
    (synchronous : ∀ c ∈ r.template.columns, c.Synchronous) :
    r.decodeOne row =
      (r.template.columns.mapM fun c : Column =>
        (c.decode (r.nameOf c.token.id) (raw c)).outcome).map
          fun values => (r.template.refill values).1 := by
  have attempts : r.template.columns.map (r.decodeColumn row) =
      r.template.columns.map fun c => c.decode (r.nameOf c.token.id) (raw c) :=
    List.map_congr_left fun c inside => decodeColumn_eq (found c inside)
  have waitless : ∀ a ∈ r.template.columns.map (r.decodeColumn row), a.rounds = 0 := by
    rw [attempts]
    intro a member
    obtain ⟨c, inside, rfl⟩ := List.mem_map.1 member
    exact (synchronous c inside).rounds_decode _ _
  rw [decodeOne, decode, Attempt.map, Attempt.outcome_gather waitless, attempts, List.mapM_map]
  rfl

end RowReader

/-- The row has the value of each token under the name of the output column in its place. -/
def Statement.Answers (s : Statement) (tokens : List Token) (val : TokenId → Json) (row : Row) :
    Prop :=
  ∀ entry ∈ tokens.zip s.columns, row.get? entry.2.name = some (val entry.1.id)

namespace Build
variable {b : Build} {body : Body} {targets : List Token}

theorem map_name_columns : (b.statement body targets).1.columns.map OutputColumn.name =
    (outputNames b.settings targets).map Prod.snd := by
  rw [columns_eq, List.map_map]
  rfl

theorem zip_columns (distinct : (targets.map Token.id).Nodup) :
    targets.zip (b.statement body targets).1.columns =
      (outputNames b.settings targets).map fun entry =>
        (entry.1, ⟨b.redirects.expandToken entry.1, entry.2⟩) := by
  have beside : ∀ named : List (Token × String), named.map Prod.fst = targets →
      targets.zip (named.map fun entry =>
        (⟨b.redirects.expandToken entry.1, entry.2⟩ : OutputColumn)) =
        named.map fun entry => (entry.1, ⟨b.redirects.expandToken entry.1, entry.2⟩) := by
    rintro named rfl
    exact List.zip_map'
  rw [columns_eq]
  refine beside _ ?_
  rw [map_fst_outputNames, Token.distinct_of_nodup distinct]

theorem map_expr_columns (distinct : (targets.map Token.id).Nodup) :
    (b.statement body targets).1.columns.map OutputColumn.expr =
      targets.map b.redirects.expandToken := by
  have entries := map_fst_outputNames b.settings targets
  rw [Token.distinct_of_nodup distinct] at entries
  calc (b.statement body targets).1.columns.map OutputColumn.expr
      = ((outputNames b.settings targets).map Prod.fst).map b.redirects.expandToken := by
        rw [columns_eq, List.map_map, List.map_map]
        rfl
    _ = targets.map b.redirects.expandToken := by rw [entries]

theorem ne_empty_of_mem_outputNames {entry : Token × String}
    (named : entry ∈ outputNames b.settings targets) : entry.2 ≠ "" := by
  obtain ⟨index, inside, rfl⟩ := List.mem_mapIdx.1 named
  intro empty
  exact Nat.repr_ne_empty (String.append_eq_empty_iff.1 empty).2

/-- The name that is looked up for a token is that of the output column in its place. -/
theorem exists_zip_columns (distinct : (targets.map Token.id).Nodup) {t : Token}
    (listed : t ∈ targets) : ∃ c, (t, c) ∈ targets.zip (b.statement body targets).1.columns ∧
      (b.statement body targets).2.lookup t.id = some c.name ∧ c.name ≠ "" := by
  have entries := map_fst_outputNames b.settings targets
  rw [Token.distinct_of_nodup distinct] at entries
  obtain ⟨entry, named, rfl⟩ := List.mem_map.1 (entries ▸ listed)
  refine ⟨⟨b.redirects.expandToken entry.1, entry.2⟩, ?_, ?_, ne_empty_of_mem_outputNames named⟩
  · rw [zip_columns distinct]
    exact List.mem_map.2 ⟨entry, named, rfl⟩
  · exact lookup_eq_some_of_mem (nodup_names b body targets) (List.mem_map.2 ⟨entry, named, rfl⟩)

end Build

namespace View

/-- A compiled view selects each distinct token of its template once, in the order of the
template and under names of their own. A row with values under these names is read back as the
template with every column decoded in its place, or fails as the first column that fails. -/
theorem compile_reads_back (compiler : Compiler) (v : View) (supply : Supply) :
    let query := ((compiler.compile v).run supply).1
    let built := (v.body v.template.tokenSet true).run { settings := compiler.settings, supply }
    let statement := (built.2.statement built.1 v.template.tokens).1
    query.text = ((Statement.render compiler.style statement).run {}).1 ∧
      statement.columns.map OutputColumn.expr =
        v.template.tokens.map built.2.redirects.expandToken ∧
      (v.template.tokens.map Token.id).Nodup ∧
      (statement.columns.map OutputColumn.name).Nodup ∧
      (∀ c ∈ v.template.columns, ∃ column ∈ statement.columns,
        query.reader.names.lookup c.token.id = some column.name ∧ column.name ≠ "") ∧
      ∀ (val : TokenId → Json) (row : Row), statement.Answers v.template.tokens val row →
        (∀ c ∈ v.template.columns, c.Synchronous) →
          let outcome (c : Column) : Except DecodeError Json :=
            (c.decode (query.reader.nameOf c.token.id) (val c.token.id)).outcome
          (∀ value : Column → Json, (∀ c ∈ v.template.columns, outcome c = .ok (value c)) →
            query.reader.decodeOne row = .ok (v.template.fill value)) ∧
          ∀ before c after error, v.template.columns = before ++ c :: after →
            (∀ d ∈ before, ∃ w, outcome d = .ok w) → outcome c = .error error →
              query.reader.decodeOne row = .error error := by
  intro query built statement
  have distinct : (v.template.tokens.map Token.id).Nodup := Token.nodup_distinct _
  have named : ∀ c ∈ v.template.columns, ∃ column,
      (∃ t ∈ v.template.tokens, t.id = c.token.id ∧
        (t, column) ∈ v.template.tokens.zip statement.columns) ∧
      query.reader.names.lookup c.token.id = some column.name ∧ column.name ≠ "" := by
    intro c inside
    obtain ⟨t, listed, same⟩ := Token.exists_mem_distinct (List.mem_map_of_mem inside)
    obtain ⟨column, beside, found, filled⟩ := Build.exists_zip_columns distinct listed
    exact ⟨column, ⟨t, listed, same, beside⟩, same ▸ found, filled⟩
  refine ⟨rfl, Build.map_expr_columns distinct, distinct, ?_, ?_, ?_⟩
  · rw [Build.map_name_columns]
    exact Build.nodup_outputNames _ _
  · intro c inside
    obtain ⟨column, ⟨t, -, -, beside⟩, found, filled⟩ := named c inside
    exact ⟨column, (List.of_mem_zip beside).2, found, filled⟩
  · intro val row answers synchronous outcome
    have raw : ∀ c ∈ query.reader.template.columns,
        row.get? (query.reader.nameOf c.token.id) = some (val c.token.id) := by
      intro c inside
      obtain ⟨column, ⟨t, -, same, beside⟩, found, -⟩ := named c inside
      have name : query.reader.nameOf c.token.id = column.name := congrArg (·.getD "") found
      rw [name, ← same]
      exact answers _ beside
    have decoded : query.reader.decodeOne row = (v.template.columns.mapM outcome).map
        fun values => (v.template.refill values).1 :=
      RowReader.decodeOne_eq (fun c => val c.token.id) raw synchronous
    constructor
    · intro value succeed
      have filled := Template.refill_columns value v.template []
      rw [List.append_nil] at filled
      rw [decoded, Except.mapM_eq_ok succeed, Except.map, filled]
    · intro before c after error shape succeed fails
      rw [decoded, shape, Except.mapM_eq_error succeed fails]
      rfl

def code : Token := ⟨⟨0⟩, Fragment.column ⟨0⟩ "code"⟩

/-- A code as it is, if there is one, and in a list of its own. -/
def codes : View := .table (Fragment.verbatim "products") ⟨0⟩ (.ofFields
  [("code", .column { token := code, nullable := true }),
    ("all", .list [.column
      { token := code, nullable := false, steps := [⟨0, fun v => .ok (.array [v])⟩] }])])

theorem compile_reads_back_codes :
    let query := ((Compiler.compile {} codes).run { tokens := 1, aliases := 1 }).1
    query.reader.decodeOne [("other", .null), ("value_0", .whole 7)] =
        .ok (.ofFields [("code", .whole 7), ("all", .array [.array [.whole 7]])]) ∧
      query.reader.decodeOne [("value_0", .null)] = .error (.unexpectedNull "value_0") := by
  obtain ⟨-, -, -, -, -, reads⟩ := compile_reads_back {} codes { tokens := 1, aliases := 1 }
  have synchronous : ∀ c ∈ codes.template.columns, c.Synchronous :=
    List.forall_mem_cons.2 ⟨fun _ none => absurd none List.not_mem_nil,
      List.forall_mem_singleton.2 (List.forall_mem_singleton.2 rfl)⟩
  constructor
  · let value (c : Column) : Json := if c.nullable then .whole 7 else .array [.whole 7]
    refine (reads (fun _ => .whole 7) _ (fun entry listed => ?_) synchronous).1 value ?_
    · obtain rfl := List.mem_singleton.1 listed
      rfl
    · exact List.forall_mem_cons.2 ⟨rfl, List.forall_mem_singleton.2 rfl⟩
  · refine (reads (fun _ => .null) _ (fun entry listed => ?_) synchronous).2
      [_] _ [] (.unexpectedNull "value_0") rfl ?_ rfl
    · obtain rfl := List.mem_singleton.1 listed
      rfl
    · exact List.forall_mem_singleton.2 ⟨.null, rfl⟩

end View
end QueryViews
