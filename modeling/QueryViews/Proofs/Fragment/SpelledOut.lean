import Mathlib.Data.Nat.Find
import QueryViews.Fragment.Rendering
import QueryViews.Proofs.Fragment.Expansion

/-! Expressions in which every token has been written out. Expansion makes such expressions and leaves
them as they are. It gives what following the redirects gives, wherever that comes to an end, as it
does where redirects are columns. Rendering gives an expression and its expansion the same text. -/

namespace QueryViews

/-- Text, a source column or a parameter: nothing that is still to be written out. -/
def Segment.IsBare : Segment → Prop
  | .verbatim _ | .column _ _ | .param _ => True
  | .token _ _ | .nested _ => False

def Fragment.SpelledOut (f : Fragment) : Prop := ∀ segment ∈ f, segment.IsBare

theorem Fragment.spelledOut_append {f g : Fragment} :
    SpelledOut (f ++ g) ↔ f.SpelledOut ∧ g.SpelledOut := List.forall_mem_append

section Substitution
variable {resolve : TokenId → Option Fragment}

mutual

theorem Segment.spelledOut_substitute (replaced : ∀ id f, resolve id = some f → f.SpelledOut) :
    ∀ segment : Segment, (segment.substitute resolve).SpelledOut
  | .token id definition => by
    unfold Segment.substitute
    cases found : resolve id with
    | some f => exact replaced id f found
    | none => exact Fragment.spelledOut_substitute replaced definition
  | .nested inner => Fragment.spelledOut_substitute replaced inner
  | .verbatim _ | .column _ _ | .param _ => List.forall_mem_singleton.2 trivial

theorem Fragment.spelledOut_substitute (replaced : ∀ id f, resolve id = some f → f.SpelledOut) :
    ∀ f : Fragment, (Fragment.substitute resolve f).SpelledOut
  | [] => fun _ none => absurd none List.not_mem_nil
  | segment :: rest => Fragment.spelledOut_append.2
    ⟨Segment.spelledOut_substitute replaced segment, Fragment.spelledOut_substitute replaced rest⟩

end

theorem Segment.substitute_of_isBare : ∀ {segment : Segment}, segment.IsBare →
    segment.substitute resolve = [segment]
  | .verbatim _, _ | .column _ _, _ | .param _, _ => rfl

theorem Fragment.substitute_of_spelledOut {f : Fragment} (spelled : f.SpelledOut) :
    Fragment.substitute resolve f = f := by
  induction f with
  | nil => rfl
  | cons segment rest ih =>
    obtain ⟨bare, later⟩ := List.forall_mem_cons.1 spelled
    rw [Fragment.substitute, Segment.substitute_of_isBare bare, ih later, List.singleton_append]

end Substitution

namespace Redirects

theorem spelledOut_expandWithin (depth : Nat) :
    ∀ (r : Redirects) (f : Fragment), (expandWithin depth r f).SpelledOut := by
  induction depth with
  | zero => exact fun r => Fragment.spelledOut_substitute fun _ _ found => nomatch found
  | succ depth ih =>
    refine fun r => Fragment.spelledOut_substitute fun id replacement found => ?_
    obtain ⟨target, -, rfl⟩ := Option.map_eq_some_iff.1 found
    exact ih (r.erase id) target

/-- Whatever tokens stand for, none is left by expansion. -/
theorem spelledOut_expand (r : Redirects) (f : Fragment) : (r.expand f).SpelledOut :=
  spelledOut_expandWithin _ r f

theorem expand_of_spelledOut (r : Redirects) {f : Fragment} (spelled : f.SpelledOut) :
    r.expand f = f := by
  unfold expand
  cases r.entries.length with
  | zero => exact Fragment.substitute_of_spelledOut spelled
  | succ depth => exact Fragment.substitute_of_spelledOut spelled

/-- Expansion by its rules, one segment after the other: a token is written as the expansion of what
it is redirected to, or of its definition where it is not redirected. The number bounds how many
redirects are followed inside one another; where they lead round in circles no number suffices. -/
inductive Expands (r : Redirects) : Nat → Fragment → Fragment → Prop
  | nil {depth : Nat} : Expands r depth [] []
  | bare {depth : Nat} {segment : Segment} {rest after : Fragment} (isBare : segment.IsBare)
    (others : Expands r depth rest after) : Expands r depth (segment :: rest) (segment :: after)
  | nested {depth : Nat} {inner rest here after : Fragment} (inside : Expands r depth inner here)
    (others : Expands r depth rest after) : Expands r depth (.nested inner :: rest) (here ++ after)
  | redirected {depth : Nat} {id : TokenId} {definition target rest here after : Fragment}
    (stands : r.lookup id = some target) (replaced : Expands r depth target here)
    (others : Expands r (depth + 1) rest after) :
    Expands r (depth + 1) (.token id definition :: rest) (here ++ after)
  | defined {depth : Nat} {id : TokenId} {definition rest here after : Fragment}
    (stays : r.lookup id = none) (written : Expands r depth definition here)
    (others : Expands r depth rest after) :
    Expands r depth (.token id definition :: rest) (here ++ after)

variable {r : Redirects} {depth : Nat} {f g target : Fragment} {id : TokenId}

theorem Expands.unique {more : Nat} {g' : Fragment} (one : r.Expands depth f g)
    (other : r.Expands more f g') : g' = g := by
  induction one generalizing more g' with
  | nil =>
    cases other with
    | nil => rfl
  | bare isBare _ ih =>
    cases other with
    | bare _ others => rw [ih others]
    | nested | redirected | defined => exact isBare.elim
  | nested _ _ ofInside ofOthers =>
    cases other with
    | nested inside others => rw [ofInside inside, ofOthers others]
    | bare isBare => exact isBare.elim
  | redirected stands _ _ ofTarget ofOthers =>
    cases other with
    | redirected stands' replaced others =>
      obtain rfl := Option.some.inj (stands.symm.trans stands')
      rw [ofTarget replaced, ofOthers others]
    | defined stays => exact nomatch stands.symm.trans stays
    | bare isBare => exact isBare.elim
  | defined stays _ _ ofDefinition ofOthers =>
    cases other with
    | redirected stands => exact nomatch stands.symm.trans stays
    | defined _ written others => rw [ofDefinition written, ofOthers others]
    | bare isBare => exact isBare.elim

/-- What is not deeper than every expansion of a redirect does not follow that redirect. -/
theorem Expands.erase_of_shallow {bound : Nat} (stands : r.lookup id = some target)
    (shallow : ∀ earlier < bound, ∀ here, ¬ r.Expands earlier target here)
    (expands : r.Expands depth f g) (within : depth ≤ bound) : (r.erase id).Expands depth f g := by
  induction expands with
  | nil => exact .nil
  | bare isBare _ ih => exact .bare isBare (ih within)
  | nested _ _ ofInside ofOthers => exact .nested (ofInside within) (ofOthers within)
  | @redirected depth other definition target' rest here after stands' replaced _ ofTarget ofOthers =>
    by_cases same : other = id
    · obtain rfl := Option.some.inj (stands.symm.trans (same ▸ stands'))
      exact absurd replaced (shallow depth within here)
    · exact .redirected ((r.lookup_erase_of_ne same).trans stands')
        (ofTarget (Nat.le_of_succ_le within)) (ofOthers within)
  | @defined depth other definition rest here after stays _ _ ofDefinition ofOthers =>
    have different : other ≠ id := by
      rintro rfl
      exact nomatch stands.symm.trans stays
    exact .defined ((r.lookup_erase_of_ne different).trans stays) (ofDefinition within)
      (ofOthers within)

/-- A redirect that is being followed is not met again, or following it would not end. -/
theorem Expands.erase (stands : r.lookup id = some target) (expands : r.Expands depth target g) :
    ∃ least, (r.erase id).Expands least target g := by
  classical
  let found : ∃ least, ∃ here, r.Expands least target here := ⟨depth, g, expands⟩
  obtain ⟨here, first⟩ := Nat.find_spec found
  rw [← first.unique expands] at first
  exact ⟨_, first.erase_of_shallow stands (fun earlier before here expansion =>
    Nat.find_min found before ⟨here, expansion⟩) (Nat.le_refl _)⟩

theorem Expands.eq_substitute {resolve : TokenId → Option Fragment}
    (stays : ∀ id, r.lookup id = none → resolve id = none)
    (replaced : ∀ id target, r.lookup id = some target →
      ∀ depth here, r.Expands depth target here → resolve id = some here)
    (expands : r.Expands depth f g) : g = f.substitute resolve := by
  induction expands with
  | nil => rfl
  | bare isBare _ ih =>
    rw [ih, Fragment.substitute, Segment.substitute_of_isBare isBare, List.singleton_append]
  | nested _ _ ofInside ofOthers =>
    rw [ofInside, ofOthers, Fragment.substitute, Segment.substitute]
  | redirected stands expansion _ _ ofOthers =>
    rw [ofOthers, Fragment.substitute, Segment.substitute, replaced _ _ stands _ _ expansion]
  | defined unredirected _ _ ofDefinition ofOthers =>
    rw [ofDefinition, ofOthers, Fragment.substitute, Segment.substitute, stays _ unredirected]

theorem length_erase_lt (stands : r.lookup id = some target) :
    (r.erase id).entries.length < r.entries.length := by
  obtain ⟨before, after, entries, -⟩ := List.lookup_eq_some_iff.1 stands
  refine List.length_filter_lt_length_iff_exists.2 ⟨(id, target), ?_, by simp⟩
  rw [entries]
  exact List.mem_append_right before List.mem_cons_self

theorem Expands.eq_expandWithin {bound : Nat} (few : r.entries.length ≤ bound)
    (expands : r.Expands depth f g) : g = expandWithin bound r f := by
  induction bound generalizing r depth f g with
  | zero =>
    refine expands.eq_substitute (fun _ _ => rfl) fun id target stands => ?_
    exact absurd (length_erase_lt stands) (by omega)
  | succ bound ih =>
    refine expands.eq_substitute (fun id stays => ?_) fun id target stands depth here expansion => ?_
    · rw [stays, Option.map_none]
    · obtain ⟨least, without⟩ := expansion.erase stands
      have fewer := length_erase_lt stands
      rw [stands, Option.map_some, ← ih (by omega) without]

/-- Whatever the redirects, where their rules give an expansion, it is the one that is computed. -/
theorem Expands.eq_expand (expands : r.Expands depth f g) : g = r.expand f :=
  expands.eq_expandWithin (Nat.le_refl _)

mutual

theorem Flat.expands_segment (flat : r.Flat) {rest after : Fragment}
    (others : r.Expands 1 rest after) :
    ∀ segment : Segment, r.Expands 1 (segment :: rest) (segment.substitute r.lookup ++ after)
  | .token id definition => by
    rw [Segment.substitute]
    cases found : r.lookup id with
    | some target =>
      obtain ⟨source, name, rfl⟩ := flat id target found
      exact .redirected found (.bare trivial .nil) others
    | none => exact .defined found (Flat.expands_substitute flat definition) others
  | .nested inner => .nested (Flat.expands_substitute flat inner) others
  | .verbatim _ | .column _ _ | .param _ => .bare trivial others

theorem Flat.expands_substitute (flat : r.Flat) :
    ∀ f : Fragment, r.Expands 1 f (Fragment.substitute r.lookup f)
  | [] => .nil
  | segment :: rest => Flat.expands_segment flat (Flat.expands_substitute flat rest) segment

end

/-- Columns lead nowhere else: every expansion ends, and no redirect is followed inside another. -/
theorem Flat.expands_iff (flat : r.Flat) : r.Expands 1 f g ↔ g = r.expand f := by
  constructor
  · exact Expands.eq_expand
  · rintro rfl
    rw [expand_of_flat flat]
    exact Flat.expands_substitute flat f

end Redirects

mutual

theorem Segment.render_written (style : Style) : ∀ segment : Segment,
    Fragment.render style (segment.substitute fun _ => none) = segment.render style
  | .token _ definition => Fragment.render_written style definition
  | .nested inner => Fragment.render_written style inner
  | .verbatim _ | .column _ _ | .param _ => by simp [Segment.substitute, Fragment.render]

/-- The names and numbers are given out in the same order, at whatever depth they are met. -/
theorem Fragment.render_written (style : Style) : ∀ f : Fragment,
    Fragment.render style (Fragment.substitute (fun _ => none) f) = Fragment.render style f
  | [] => rfl
  | segment :: rest => by
    rw [Fragment.substitute, Fragment.render_append, Segment.render_written style segment,
      Fragment.render_written style rest, Fragment.render]

end

/-- Where nothing is redirected, it makes no difference whether an expression is expanded before it
is rendered: the text is the same, and so are the sources named and the parameters numbered by then,
whatever there were before. Any expansion is the one its rules give, if they give one. It leaves only
text, columns and parameters, so a second one changes nothing, and it goes piece by piece. -/
theorem Fragment.render_expand (f : Fragment) :
    (∀ (style : Style) (before : Rendering),
      (Fragment.render style (({} : Redirects).expand f)).run before =
        (Fragment.render style f).run before) ∧
    ∀ r : Redirects, (∀ depth g, r.Expands depth f g → g = r.expand f) ∧
      (r.expand f).SpelledOut ∧ r.expand (r.expand f) = r.expand f ∧
        ∀ g, r.expand (f ++ g) = r.expand f ++ r.expand g := by
  constructor
  · intro style before
    have written : ({} : Redirects).expand f = f.substitute fun _ => none := rfl
    rw [written, Fragment.render_written]
  · intro r
    have spelled := r.spelledOut_expand f
    exact ⟨fun _ _ expands => expands.eq_expand, spelled, r.expand_of_spelledOut spelled,
      r.expand_append f⟩

end QueryViews
