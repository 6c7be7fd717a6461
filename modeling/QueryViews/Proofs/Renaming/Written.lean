import QueryViews.Dialect.Postgres
import QueryViews.Dialect.Sqlite
import QueryViews.Proofs.Renaming.Built
import QueryViews.Select.Rendering

/-! Writing twins. Sources are named in the order of their first appearance, and twins name paired
sources in the same order, so they are written as the same text with the same parameters. -/

namespace QueryViews

/-- Texts that read the same, whatever their pieces were written for. -/
def SqlText.Alike (s t : SqlText) : Prop := s.toString = t.toString

namespace SqlText.Alike
variable {s s' t t' : SqlText}

theorem refl (s : SqlText) : s.Alike s := rfl

theorem append (first : s.Alike s') (second : t.Alike t') : (s ++ t).Alike (s' ++ t') := by
  unfold SqlText.Alike at first second ⊢
  rw [toString_append, toString_append, first, second]

theorem join (separator : String) {parts parts' : List SqlText}
    (alike : List.Forall₂ SqlText.Alike parts parts') :
    (SqlText.join separator parts).Alike (SqlText.join separator parts') := by
  induction alike with
  | nil => exact refl _
  | @cons _ _ rest rest' first others ih =>
    cases others with
    | nil => simpa [SqlText.join] using first
    | cons second more =>
      have tail := (refl (verbatim separator)).append ih
      exact first.append tail

end SqlText.Alike

/-- The dialect goes by what the expressions read like. -/
structure Dialect.Textual (d : Dialect) : Prop where
  selectAs : ∀ {s t : SqlText} (name : String), s.Alike t →
    (d.selectAs s name).Alike (d.selectAs t name)
  ordering : ∀ {keys keys' : List (SortKey SqlText)},
    List.Forall₂ (SortKey.Alike SqlText.Alike) keys keys' →
      (d.ordering keys).Alike (d.ordering keys')

namespace Dialect

theorem textual_postgres : postgres.Textual where
  selectAs name alike := alike.append (.refl _)
  ordering alike := by
    apply (SqlText.Alike.refl _).append
    apply SqlText.Alike.join
    apply List.rel_map _ alike
    intro key key' same
    unfold Postgres.sortKey
    rw [same.direction, same.nulls]
    exact same.expr.append (.refl _)

theorem textual_sqlite : sqlite.Textual where
  selectAs name alike := alike.append (.refl _)
  ordering alike := by
    apply (SqlText.Alike.refl _).append
    apply SqlText.Alike.join
    apply List.rel_flatMap alike
    rintro ⟨expr, direction, nulls⟩ ⟨expr', direction', nulls'⟩ same
    obtain rfl : direction = direction' := same.direction
    obtain rfl : nulls = nulls' := same.nulls
    have written : ∀ text : String,
        (expr ++ SqlText.verbatim text).Alike (expr' ++ SqlText.verbatim text) := fun text =>
      same.expr.append (.refl _)
    cases nulls with
    | none => exact .cons (written _) .nil
    | some placement =>
      cases placement with
      | first | last => exact .cons (written _) (.cons (written _) .nil)

end Dialect

variable {ρ : Pairing}

/-- Paired sources have been named in the same order, and the same parameters numbered. -/
structure Rendering.Twin (ρ : Pairing) (r r' : Rendering) : Prop where
  aliases : List.Forall₂ ρ.source r.aliases r'.aliases
  params : r.params = r'.params

theorem Pairing.idxOf?_eq {sources sources' : List Alias}
    (paired : List.Forall₂ ρ.source sources sources') {a a' : Alias} (same : ρ.source a a') :
    sources.idxOf? a = sources'.idxOf? a' := by
  induction paired with
  | nil => rfl
  | @cons b b' _ _ first _ ih =>
    have equal : (b == a) = (b' == a') := by
      rw [Bool.eq_iff_iff, beq_iff_eq, beq_iff_eq]
      exact ρ.distinguishes first same
    rw [List.idxOf?_cons, List.idxOf?_cons, equal, ih]

theorem Rendering.Twin.placeAlias {r r' : Rendering} (twin : r.Twin ρ r') {a a' : Alias}
    (same : ρ.source a a') : (r.placeAlias a).1 = (r'.placeAlias a').1 ∧
      (r.placeAlias a).2.Twin ρ (r'.placeAlias a').2 := by
  unfold Rendering.placeAlias
  rw [Pairing.idxOf?_eq twin.aliases same]
  cases r'.aliases.idxOf? a' with
  | some position => exact ⟨rfl, twin⟩
  | none =>
    exact ⟨twin.aliases.length_eq, List.rel_append twin.aliases (.cons same .nil), twin.params⟩

/-- From twin renderings, both give related results and leave twin renderings. -/
def Render.Agree (ρ : Pairing) {α β : Type} (R : α → β → Prop) (x : Render α) (y : Render β) :
    Prop :=
  ∀ r r' : Rendering, r.Twin ρ r' → R (x.run r).1 (y.run r').1 ∧ (x.run r).2.Twin ρ (y.run r').2

namespace Render.Agree
variable {α β γ δ : Type} {R : α → β → Prop} {S : γ → δ → Prop}

theorem ret {a : α} {b : β} (same : R a b) : Agree ρ R (return a) (return b) :=
  fun _ _ twin => ⟨same, twin⟩

theorem bind {x : Render α} {y : Render β} {f : α → Render γ} {g : β → Render δ}
    (first : Agree ρ R x y) (next : ∀ a b, R a b → Agree ρ S (f a) (g b)) :
    Agree ρ S (x >>= f) (y >>= g) := by
  intro r r' twin
  obtain ⟨same, after⟩ := first r r' twin
  exact next _ _ same _ _ after

theorem mapM {f : α → Render γ} {g : β → Render δ} (each : ∀ a b, R a b → Agree ρ S (f a) (g b))
    {l : List α} {m : List β} (related : List.Forall₂ R l m) :
    Agree ρ (List.Forall₂ S) (l.mapM f) (m.mapM g) := by
  induction related with
  | nil => exact ret .nil
  | cons first _ ih =>
    rw [List.mapM_cons, List.mapM_cons]
    apply (each _ _ first).bind
    intro c d head
    apply ih.bind
    intro rest rest' tail
    exact ret (.cons head tail)

end Render.Agree

theorem Style.agree_aliasName (style : Style) {a a' : Alias} (same : ρ.source a a') :
    Render.Agree ρ Eq (style.aliasName a) (style.aliasName a') := by
  intro r r' twin
  obtain ⟨position, after⟩ := twin.placeAlias same
  exact ⟨congrArg (fun n => style.tableStem ++ toString n) position, after⟩

mutual

theorem Segment.Twin.render (style : Style) : ∀ {s s' : Segment}, s.Twin ρ s' →
    Render.Agree ρ SqlText.Alike (s.render style) (s'.render style)
  | _, _, .verbatim text => .ret (.refl _)
  | _, _, .column name same => by
    apply (style.agree_aliasName same).bind
    rintro table _ rfl
    exact .ret (.refl _)
  | _, _, .param value => fun r r' twin => by
    have count := congrArg List.length twin.params
    constructor
    · exact congrArg
        (fun n => SqlText.toString [.placeholder n (style.dialect.placeholder n)]) count
    · exact ⟨twin.aliases, congrArg (· ++ [value]) twin.params⟩
  | _, _, .nested inner => inner.render style
  | _, _, .token _ below => below.render style

/-- Twin fragments are written alike. -/
theorem Fragment.Twin.render (style : Style) : ∀ {f f' : Fragment}, Fragment.Twin ρ f f' →
    Render.Agree ρ SqlText.Alike (Fragment.render style f) (Fragment.render style f')
  | _, _, .nil => .ret (.refl _)
  | _, _, .cons first rest => by
    apply (first.render style).bind
    intro s s' one
    apply (rest.render style).bind
    intro t t' two
    exact .ret (one.append two)

end

namespace Render.Agree
variable {style : Style}

theorem fragments {parts parts' : List Fragment}
    (twins : List.Forall₂ (Fragment.Twin ρ) parts parts') :
    Agree ρ (List.Forall₂ SqlText.Alike) (Render.fragments style parts)
      (Render.fragments style parts') :=
  .mapM (fun _ _ twin => twin.render style) twins

theorem unlessEmpty {ε δ : Type} {Q : ε → δ → Prop} {parts : List ε} {parts' : List δ}
    (twins : List.Forall₂ Q parts parts') {clause clause' : Render SqlText}
    (written : Agree ρ SqlText.Alike clause clause') :
    Agree ρ SqlText.Alike (Render.unlessEmpty parts clause)
      (Render.unlessEmpty parts' clause') := by
  unfold Render.unlessEmpty
  rw [isEmpty_of_forall₂ twins]
  split
  · exact .ret (.refl _)
  · exact written

theorem conjunction {conditions conditions' : List Fragment}
    (twins : List.Forall₂ (Fragment.Twin ρ) conditions conditions') :
    Agree ρ SqlText.Alike (Render.conjunction style conditions)
      (Render.conjunction style conditions') := by
  let close (texts : List SqlText) : Render SqlText :=
    return SqlText.join " and " (texts.map Render.parenthesised)
  have joined : Agree ρ SqlText.Alike (Render.fragments style conditions >>= close)
      (Render.fragments style conditions' >>= close) := by
    apply (fragments twins).bind
    intro texts texts' alike
    apply ret
    apply SqlText.Alike.join
    apply List.rel_map _ alike
    exact fun _ _ text => ((SqlText.Alike.refl _).append text).append (.refl _)
  cases twins with
  | nil => exact joined
  | cons first rest =>
    cases rest with
    | nil => exact first.render style
    | cons _ _ => exact joined

/-- A clause made of a keyword and one text. -/
theorem headed {x y : Render SqlText} (written : Agree ρ SqlText.Alike x y) (keyword : String) :
    Agree ρ SqlText.Alike (do return SqlText.verbatim keyword ++ (← x))
      (do return SqlText.verbatim keyword ++ (← y)) := by
  apply written.bind
  intro text text' alike
  exact ret ((SqlText.Alike.refl _).append alike)

theorem keys {parts parts' : List Fragment}
    (twins : List.Forall₂ (Fragment.Twin ρ) parts parts') :
    Agree ρ SqlText.Alike (Render.keys style parts) (Render.keys style parts') := by
  apply unlessEmpty twins
  apply (fragments twins).bind
  intro texts texts' alike
  exact ret ((SqlText.Alike.refl _).append (.join _ alike))

theorem columns (textual : style.dialect.Textual) {items items' : List OutputColumn}
    (twins : List.Forall₂ (OutputColumn.Twin ρ) items items') :
    Agree ρ SqlText.Alike (Render.columns style items) (Render.columns style items') := by
  have each : ∀ c c' : OutputColumn, c.Twin ρ c' →
      Agree ρ SqlText.Alike (Render.column style c) (Render.column style c') := by
    intro c c' twin
    apply (twin.expr.render style).bind
    intro text text' alike
    rw [twin.name]
    exact ret (textual.selectAs _ alike)
  unfold Render.columns
  rw [isEmpty_of_forall₂ twins]
  split
  · exact ret (.refl _)
  · apply (mapM each twins).bind
    intro texts texts' alike
    exact ret (.join _ alike)

theorem order (textual : style.dialect.Textual) {items items' : List OrderItem}
    (twins : List.Forall₂ (SortKey.Alike (Fragment.Twin ρ)) items items') :
    Agree ρ SqlText.Alike (Render.order style items) (Render.order style items') := by
  have each : ∀ item item' : OrderItem, item.Alike (Fragment.Twin ρ) item' →
      Agree ρ (SortKey.Alike SqlText.Alike) (Render.sortKey style item)
        (Render.sortKey style item') := by
    intro item item' twin
    apply (twin.expr.render style).bind
    intro text text' alike
    exact ret ⟨alike, twin.direction, twin.nulls⟩
  apply unlessEmpty twins
  apply (mapM each twins).bind
  intro keys keys' alike
  exact ret ((SqlText.Alike.refl _).append (textual.ordering alike))

theorem labelled {text text' : SqlText} (alike : text.Alike text') {a a' : Alias}
    (same : ρ.source a a') :
    Agree ρ SqlText.Alike (style.labelled text a) (style.labelled text' a') := by
  apply (style.agree_aliasName same).bind
  rintro name _ rfl
  exact ret ((alike.append (.refl _)).append (.refl _))

end Render.Agree

section
variable {style : Style}

mutual

theorem Source.Twin.render (textual : style.dialect.Textual) : ∀ {s s' : Source},
    Source.Twin ρ s s' → Render.Agree ρ SqlText.Alike (s.render style) (s'.render style)
  | _, _, .table text same => by
    apply (text.render style).bind
    intro written written' alike
    exact .labelled alike same
  | _, _, .subquery statement same => by
    apply (statement.render textual).bind
    intro written written' alike
    exact .labelled (((SqlText.Alike.refl _).append alike).append (.refl _)) same

theorem JoinClause.AllTwin.render (textual : style.dialect.Textual) :
    ∀ {joins joins' : List JoinClause}, JoinClause.AllTwin ρ joins joins' →
      Render.Agree ρ SqlText.Alike (JoinClause.renderAll style joins)
        (JoinClause.renderAll style joins')
  | _, _, .nil => .ret (.refl _)
  | _, _, .cons kind source condition rest => by
    apply (source.render textual).bind
    intro joined joined' ofSource
    apply (condition.render style).bind
    intro met met' ofCondition
    apply (rest.render textual).bind
    intro others others' ofRest
    exact .ret (((((SqlText.Alike.refl _).append ofSource).append (.refl _)).append
      ofCondition).append ofRest)

/-- Twin statements are written alike, clause by clause. -/
theorem Statement.Twin.render (textual : style.dialect.Textual) : ∀ {s s' : Statement},
    Statement.Twin ρ s s' → Render.Agree ρ SqlText.Alike (s.render style) (s'.render style)
  | _, _, .mk grouped skip take columns source joins filters keys having order => by
    apply (Render.Agree.columns textual columns).bind
    intro selected selected' ofColumns
    apply (source.render textual).bind
    intro rows rows' ofSource
    apply (joins.render textual).bind
    intro joined joined' ofJoins
    apply (Render.Agree.unlessEmpty filters ((Render.Agree.conjunction filters).headed _)).bind
    intro filtered filtered' ofFilters
    apply (Render.Agree.keys keys).bind
    intro groups groups' ofKeys
    apply (Render.Agree.unlessEmpty having ((Render.Agree.conjunction having).headed _)).bind
    intro kept kept' ofHaving
    apply (Render.Agree.order textual order).bind
    intro sorted sorted' ofOrder
    have front := (((SqlText.Alike.refl (SqlText.verbatim "select ")).append ofColumns).append
      (.refl (SqlText.verbatim " from "))).append ofSource
    exact .ret ((((((front.append ofJoins).append ofFilters).append ofKeys).append
      ofHaving).append ofOrder).append (.refl _))

end

end
end QueryViews
