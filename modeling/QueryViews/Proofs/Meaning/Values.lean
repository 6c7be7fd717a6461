import QueryViews.Proofs.Meaning.Interpretation
import QueryViews.Proofs.Scope.JoinFree

/-! Values of expressions. On a row of a view, on a record of its table, and, once expanded, on a
record of the source that its body reads, an expression has one value. -/

namespace QueryViews

section
variable {V : Type} {I : Interpretation V}

namespace Fragment

@[simp] theorem pieces_append (known : TokenRow V) (columns : Alias → Record V) (f g : Fragment) :
    pieces known columns (f ++ g) = pieces known columns f ++ pieces known columns g := by
  induction f with
  | nil => rfl
  | cons segment rest ih => simp [pieces, ih]

theorem pieces_toFragment_of_unknown {t : Token} {known : TokenRow V} {columns : Alias → Record V}
    (unknown : known t.id = none) :
    t.toFragment.pieces known columns = t.definition.pieces known columns := by
  simp [Token.toFragment, Token.toSegment, pieces, Segment.pieces, unknown]

end Fragment

theorem Interpretation.eval_toFragment (t : Token) (source : Alias) (record : Record V) :
    I.eval source t.toFragment record = I.eval source t.definition record := by
  rw [eval, eval, Fragment.pieces_toFragment_of_unknown rfl]

mutual

theorem Segment.value_pieces_of_concat {combine : V → V → V}
    (concat : ∀ front back, I.value (front ++ back) = combine (I.value front) (I.value back))
    {columns : Alias → Record V} {known : TokenRow V} :
    ∀ {segment : Segment}, (segment.AllTokens fun t => ∀ v, known t.id = some v →
      v = I.value (t.definition.pieces (fun _ => none) columns)) →
      I.value (segment.pieces known columns) = I.value (segment.pieces (fun _ => none) columns)
  | .token id definition, ⟨self, below⟩ => by
    unfold Segment.pieces
    cases found : known id with
    | none => exact Fragment.value_pieces_of_concat concat below
    | some v => exact (I.value_single v).trans (self v found)
  | .nested _, all => Fragment.value_pieces_of_concat concat (by exact all)
  | .verbatim _, _ | .column _ _, _ | .param _, _ => rfl

theorem Fragment.value_pieces_of_concat {combine : V → V → V}
    (concat : ∀ front back, I.value (front ++ back) = combine (I.value front) (I.value back))
    {columns : Alias → Record V} {known : TokenRow V} :
    ∀ {f : Fragment}, (Fragment.AllTokens (fun t => ∀ v, known t.id = some v →
      v = I.value (t.definition.pieces (fun _ => none) columns)) f) →
      I.value (Fragment.pieces known columns f) = I.value (Fragment.pieces (fun _ => none) columns f)
  | [], _ => rfl
  | _ :: _, ⟨first, rest⟩ => by
    rw [Fragment.pieces, Fragment.pieces, concat, concat,
      Segment.value_pieces_of_concat concat first, Fragment.value_pieces_of_concat concat rest]

end

/-- Tokens can be written out wherever expressions have the values of their parts put together. -/
theorem Interpretation.inlines_of_concat {combine : V → V → V}
    (concat : ∀ front back, I.value (front ++ back) = combine (I.value front) (I.value back))
    (f : Fragment) : I.Inlines f :=
  fun _ _ all => Fragment.value_pieces_of_concat concat all

mutual

/-- What is in reach is read off the tokens of the scope; no source column is looked at. -/
theorem Segment.pieces_of_reach {scope : Scope} {known : TokenRow V}
    (held : ∀ id, scope.contains id = true → (known id).isSome = true)
    (one two : Alias → Record V) :
    ∀ {segment : Segment}, segment.inReach scope = true →
      segment.pieces known one = segment.pieces known two
  | .token id definition, reached => by
    rw [Segment.inReach_token, Bool.or_eq_true] at reached
    unfold Segment.pieces
    cases found : known id with
    | some v => rfl
    | none =>
      have outside : ¬ scope.contains id = true := by
        intro inside
        have some := held id inside
        rw [found] at some
        exact absurd some nofun
      exact Fragment.pieces_of_reach held one two (reached.resolve_left outside)
  | .nested _, reached => Fragment.pieces_of_reach held one two (by exact reached)
  | .column _ _, reached => nomatch reached
  | .verbatim _, _ | .param _, _ => rfl

theorem Fragment.pieces_of_reach {scope : Scope} {known : TokenRow V}
    (held : ∀ id, scope.contains id = true → (known id).isSome = true)
    (one two : Alias → Record V) :
    ∀ {f : Fragment}, Fragment.inReach scope f = true →
      Fragment.pieces known one f = Fragment.pieces known two f
  | [], _ => rfl
  | segment :: rest, reached => by
    obtain ⟨first, others⟩ := Bool.and_eq_true_iff.1 reached
    rw [Fragment.pieces, Fragment.pieces, Segment.pieces_of_reach held one two first,
      Fragment.pieces_of_reach held one two others]

end

mutual

/-- A visible segment, written out for its source, has the pieces it has with the values of the
columns that its tokens stand for. -/
theorem Segment.pieces_substitute {sight : Sight} {resolve : TokenId → Option Fragment}
    {known : TokenRow V} {one two : Alias → Record V}
    (shown : ∀ id ∈ sight.shown, ∃ source name,
      resolve id = some (Fragment.column source name) ∧ known id = some (one source name))
    (fresh : ∀ id, id ∉ sight.shown → id ∉ sight.hidden → resolve id = none ∧ known id = none)
    (direct : ∀ source, sight.table = some source → one source = two source) :
    ∀ {segment : Segment}, segment.visible sight = true →
      Fragment.pieces (fun _ => none) one (segment.substitute resolve) =
        segment.pieces known two
  | .token id definition, seen => by
    unfold Segment.visible at seen
    unfold Segment.substitute Segment.pieces
    by_cases isShown : id ∈ sight.shown
    · obtain ⟨source, name, stands, value⟩ := shown id isShown
      rw [stands, value]
      rfl
    · rw [if_neg isShown] at seen
      by_cases isHidden : id ∈ sight.hidden
      · rw [if_pos isHidden] at seen
        exact absurd seen nofun
      · rw [if_neg isHidden] at seen
        rw [(fresh id isShown isHidden).1, (fresh id isShown isHidden).2]
        exact Fragment.pieces_substitute shown fresh direct seen
  | .nested _, seen => Fragment.pieces_substitute shown fresh direct (by exact seen)
  | .column source name, seen => by
    have same : one source = two source := direct source (beq_iff_eq.1 seen)
    simp [Segment.substitute, Fragment.pieces, Segment.pieces, same]
  | .verbatim _, _ | .param _, _ => rfl

theorem Fragment.pieces_substitute {sight : Sight} {resolve : TokenId → Option Fragment}
    {known : TokenRow V} {one two : Alias → Record V}
    (shown : ∀ id ∈ sight.shown, ∃ source name,
      resolve id = some (Fragment.column source name) ∧ known id = some (one source name))
    (fresh : ∀ id, id ∉ sight.shown → id ∉ sight.hidden → resolve id = none ∧ known id = none)
    (direct : ∀ source, sight.table = some source → one source = two source) :
    ∀ {f : Fragment}, Fragment.visible sight f = true →
      Fragment.pieces (fun _ => none) one (Fragment.substitute resolve f) =
        Fragment.pieces known two f
  | [], _ => rfl
  | segment :: rest, seen => by
    obtain ⟨first, others⟩ := Bool.and_eq_true_iff.1 seen
    rw [Fragment.substitute, Fragment.pieces_append, Fragment.pieces,
      Segment.pieces_substitute shown fresh direct first,
      Fragment.pieces_substitute shown fresh direct others]

end

end
end QueryViews
