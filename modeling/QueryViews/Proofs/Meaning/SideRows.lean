import QueryViews.Proofs.Join.Orderly
import QueryViews.Proofs.Meaning.Scenes

/-! The rows of one side of a join. A side by itself is a statement; in the join, it is the body
of that statement or a subquery around it. Either way its scenes can be read as the records of the
statement, and what was asked of the side has the value that the record has under its name. -/

namespace QueryViews
namespace Build
variable {b : Build} {body : Body} {needs : TokenSet}

namespace Sound

/-- Whatever is left to evaluate on a side can be read from its sources. -/
theorem fragments (sound : b.Sound body needs) (applies : Bool) (supply : Supply) :
    let closed := { b with supply := supply }.bracketIf applies body needs
    ∀ f ∈ closed.1.fragments, (closed.2.redirects.expand f).ReadsOnly closed.1.sources := by
  intro closed f member
  cases applies with
  | true => exact absurd member List.not_mem_nil
  | false =>
    have reads := (Statement.wellScoped_iff.1 sound.1).1.2.2
    refine Body.readsOnly_expanded.1 (reads _ ?_)
    show b.redirects.expand f ∈ (body.expanded b.redirects).fragments
    rw [Body.fragments_expanded]
    exact List.mem_map_of_mem member

theorem bracketed (sound : b.Sound body needs) (flat : b.redirects.Flat) :
    let closed := b.bracketIf true body needs
    closed.2.Sound closed.1 needs := by
  intro closed
  have columns : ∀ c ∈ (closed.2.statement closed.1 needs.toList).1.columns,
      c.expr.ReadsOnly closed.1.sources := by
    intro c selected
    rw [columns_eq] at selected
    obtain ⟨entry, listed, rfl⟩ := List.mem_map.1 selected
    exact sound.readsOnly flat true b.supply (mem_of_mem_outputNames listed)
  constructor
  · refine Statement.wellScoped_iff.2 ⟨⟨sound.1, trivial, ?_⟩, columns⟩
    exact fun f none => absurd none List.not_mem_nil
  · intro c read
    rw [Statement.reads_eq] at read
    refine mem_aliases_statement.2 ?_
    rcases List.mem_append.1 read with below | own
    · exact sound.reads true b.supply c below
    · obtain ⟨f, member, inside⟩ := List.mem_flatMap.1 own
      obtain ⟨d, selected, rfl⟩ := List.mem_map.1 member
      obtain ⟨s, listed, same, -⟩ := columns d selected c (Fragment.mem_columns_of_own inside)
      exact same ▸ Body.id_mem_aliases listed

end Sound

section Rows
variable {V : Type} (E : Engine V) (contents : Fragment → List (Record V))

/-- Without groups, a statement gives one record for each scene that its body selects. -/
theorem records_of_ungrouped {body : Body} (ungrouped : body.Ungrouped) (targets : List Token) :
    (b.statement body targets).1.records E contents =
      (body.select E.toInterpretation (fun f => E.evalOn (b.redirects.expand f))
        ((body.expanded b.redirects).scenes E contents)).map
          (E.record (b.statement body targets).1.columns) := by
  have rows : (body.expanded b.redirects).groups = false := by
    obtain ⟨keys, grouped, having⟩ := ungrouped
    simp [Body.groups, Body.expanded, keys, grouped, having]
  let scenes := (body.expanded b.redirects).scenes E contents
  have same : (body.expanded b.redirects).select E.toInterpretation E.evalOn (scenes.map id) =
      (body.select E.toInterpretation (fun f => E.evalOn (b.redirects.expand f)) scenes).map id :=
    Body.select_expanded (fun _ _ _ => rfl) (fun _ _ _ => rfl) scenes
  rw [List.map_id, List.map_id] at same
  rw [Statement.records_of_rows rows]
  exact congrArg (List.map _) same

/-- Closed or not, the scenes that a side selects are read as the records of its statement. -/
theorem exists_read (body : Body) (needs : TokenSet) (flat : b.redirects.Flat) {applies : Bool}
    (kept : applies = false → body.state.meets .aggregate = false) (supply : Supply) :
    let closed := { b with supply := supply }.bracketIf applies body needs
    let eval : Fragment → Scene V → V := fun f => E.evalOn (closed.2.redirects.expand f)
    ∃ read : Scene V → Record V,
      (b.statement body needs.toList).1.records E contents =
          (closed.1.select E.toInterpretation eval
            ((closed.1.expanded closed.2.redirects).scenes E contents)).map read ∧
        ∀ t ∈ needs.toList, ∀ scene, eval t.toFragment scene =
          E.named (b.statement body needs.toList).2 (read scene) t.id := by
  intro closed eval
  let asked := b.statement body needs.toList
  -- an open side is read by its select list, a subquery has the record in its place of the scene
  cases applies with
  | false =>
    refine ⟨E.record asked.1.columns, ?_, fun t needed scene => ?_⟩
    · exact records_of_ungrouped E contents (.of_clear (kept rfl)) needs.toList
    · have value : E.named asked.2 (E.listed asked.1.columns (E.evalOn · scene)) t.id =
          E.evalOn (b.redirects.expandToken t) scene :=
        Interpretation.named_listed needed fun u listed =>
          List.inj_on_of_nodup_map needs.nodup_ids listed needed
      exact value.symm
  | true =>
    let later : Build := { b with supply := supply }
    refine ⟨fun scene => scene later.nextAlias, ?_, fun t needed scene => ?_⟩
    · have seen : closed.1.select E.toInterpretation eval
          ((closed.1.expanded closed.2.redirects).scenes E contents) =
            (asked.1.records E contents).map (E.nowhere.put later.nextAlias) :=
        Body.select_ofSource _ _ _
      rw [seen, List.map_map]
      refine (List.map_id _).symm.trans (List.map_congr_left fun record _ => ?_)
      exact (Scene.put_self _ _ record).symm
    · obtain ⟨name, found⟩ : ∃ name, asked.2.lookup t.id = some name := exists_lookup needed
      have column : closed.2.redirects.expand t.toFragment = Fragment.column later.nextAlias name :=
        expandToken_bracketed (b := later) flat found
      have value : E.named asked.2 (scene later.nextAlias) t.id = scene later.nextAlias name := by
        rw [Interpretation.named, found]
        rfl
      simp only [eval, column, Interpretation.evalOn_column]
      exact value.symm

theorem evalOn_nowhere_bracketed (body : Body) (flat : b.redirects.Flat) {t : Token}
    (needed : t ∈ needs.toList) :
    E.evalOn ((b.bracketIf true body needs).2.redirects.expandToken t) E.nowhere = E.null := by
  obtain ⟨name, found⟩ : ∃ name, (b.statement body needs.toList).2.lookup t.id = some name :=
    exists_lookup needed
  have column : (b.bracketIf true body needs).2.redirects.expandToken t =
      Fragment.column b.nextAlias name := expandToken_bracketed flat found
  rw [column, Interpretation.evalOn_column]
  rfl

/-- A subquery around a side changes no record of it. -/
theorem records_bracketed (body : Body) (needs : TokenSet) (flat : b.redirects.Flat) :
    let closed := b.bracketIf true body needs
    (closed.2.statement closed.1 needs.toList).1.records E contents =
      (b.statement body needs.toList).1.records E contents := by
  intro closed
  let inner := b.statement body needs.toList
  let outer := closed.2.statement closed.1 needs.toList
  have rows : outer.1.records E contents = ((inner.1.records E contents).map
      (E.nowhere.put b.nextAlias)).map (E.record outer.1.columns) := by
    rw [Statement.records_of_rows rfl]
    exact congrArg (List.map _) (Body.select_ofSource _ _ _)
  have names : outer.1.columns.map OutputColumn.name = inner.1.columns.map OutputColumn.name := by
    simp only [outer, inner, columns_eq, List.map_map]
    rfl
  have columns : ∀ c ∈ outer.1.columns, c.expr = Fragment.column b.nextAlias c.name := by
    intro c selected
    rw [columns_eq] at selected
    obtain ⟨entry, listed, rfl⟩ := List.mem_map.1 selected
    have found : inner.2.lookup entry.1.id = some entry.2 :=
      lookup_eq_some_of_mem (nodup_names b body needs.toList) (List.mem_map.2 ⟨entry, listed, rfl⟩)
    exact expandToken_bracketed flat found
  have distinct : (outer.1.columns.map OutputColumn.name).Nodup :=
    closed.2.nodup_columnNames closed.1 needs.toList
  rw [rows, List.map_map]
  refine (List.map_congr_left fun record given => ?_).trans (List.map_id _)
  funext name
  let value : Fragment → V := fun f => E.evalOn f (E.nowhere.put b.nextAlias record)
  show E.listed outer.1.columns value name = record name
  -- under a name that neither selects, both records are NULL
  by_cases selected : name ∈ inner.1.columns.map OutputColumn.name
  · rw [← names] at selected
    obtain ⟨c, inside, rfl⟩ := List.mem_map.1 selected
    refine (Interpretation.listed_of_mem distinct inside).trans ?_
    simp only [value, columns c inside, Interpretation.evalOn_column, Scene.put_self]
  · have absent : ∀ columns : List OutputColumn, name ∉ columns.map OutputColumn.name →
        ∀ c ∈ columns, c.name ≠ name := by
      rintro columns outside c inside rfl
      exact outside (List.mem_map_of_mem inside)
    refine (Interpretation.listed_of_absent (absent _ (names ▸ selected))).trans ?_
    exact (Statement.records_off given (absent _ selected)).symm

end Rows
end Build
end QueryViews
