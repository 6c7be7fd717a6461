import QueryViews.Proofs.Fragment.Expansion

/-! Two sets of redirects in one. What an expansion gives depends on the redirects of the tokens
that it touches only, so two parties that redirect different tokens do not notice each other as
long as neither touches a token of the other. -/

namespace QueryViews

mutual

/-- The tokens that an expansion comes across, down to those that it replaces. -/
def Segment.touched (resolve : TokenId → Option Fragment) : Segment → List TokenId
  | .token id definition =>
    id :: if (resolve id).isSome then [] else Fragment.touched resolve definition
  | .nested inner => Fragment.touched resolve inner
  | .verbatim _ | .column _ _ | .param _ => []

def Fragment.touched (resolve : TokenId → Option Fragment) : Fragment → List TokenId
  | [] => []
  | segment :: rest => segment.touched resolve ++ Fragment.touched resolve rest

end

mutual

/-- The source columns that stand in the segment itself, outside its tokens. -/
def Segment.ownColumns : Segment → List (Alias × String)
  | .column source name => [(source, name)]
  | .nested inner => Fragment.ownColumns inner
  | .token _ _ | .verbatim _ | .param _ => []

def Fragment.ownColumns : Fragment → List (Alias × String)
  | [] => []
  | segment :: rest => segment.ownColumns ++ Fragment.ownColumns rest

end

@[simp] theorem Fragment.ownColumns_append (f g : Fragment) :
    Fragment.ownColumns (f ++ g) = Fragment.ownColumns f ++ Fragment.ownColumns g := by
  induction f with
  | nil => rfl
  | cons segment rest ih => simp [Fragment.ownColumns, ih]

mutual

theorem Segment.mem_columns_of_own {c : Alias × String} :
    ∀ {segment : Segment}, c ∈ segment.ownColumns → c ∈ segment.columns
  | .column _ _, inside => inside
  | .nested _, inside => Fragment.mem_columns_of_own (by exact inside)
  | .token _ _, inside | .verbatim _, inside | .param _, inside => absurd inside List.not_mem_nil

theorem Fragment.mem_columns_of_own {c : Alias × String} :
    ∀ {f : Fragment}, c ∈ Fragment.ownColumns f → c ∈ Fragment.columns f
  | [], inside => inside
  | _ :: _, inside => by
    rcases List.mem_append.1 inside with first | later
    · exact List.mem_append_left _ (Segment.mem_columns_of_own first)
    · exact List.mem_append_right _ (Fragment.mem_columns_of_own later)

end

mutual

/-- A column that stands in a fragment stays when its tokens are replaced. -/
theorem Segment.ownColumns_substitute (resolve : TokenId → Option Fragment) {c : Alias × String} :
    ∀ {segment : Segment}, c ∈ segment.ownColumns →
      c ∈ Fragment.ownColumns (segment.substitute resolve)
  | .column _ _, inside => List.mem_append_left _ inside
  | .nested _, inside => Fragment.ownColumns_substitute resolve (by exact inside)
  | .token _ _, inside | .verbatim _, inside | .param _, inside => absurd inside List.not_mem_nil

theorem Fragment.ownColumns_substitute (resolve : TokenId → Option Fragment) {c : Alias × String} :
    ∀ {f : Fragment}, c ∈ Fragment.ownColumns f →
      c ∈ Fragment.ownColumns (Fragment.substitute resolve f)
  | [], inside => inside
  | segment :: rest, inside => by
    rw [Fragment.substitute, Fragment.ownColumns_append]
    rcases List.mem_append.1 inside with first | later
    · exact List.mem_append_left _ (Segment.ownColumns_substitute resolve first)
    · exact List.mem_append_right _ (Fragment.ownColumns_substitute resolve later)

end

mutual

theorem Segment.substitute_of_untouched {own joint : TokenId → Option Fragment} :
    ∀ {segment : Segment}, (∀ id ∈ segment.touched own, joint id = own id) →
      segment.substitute joint = segment.substitute own
  | .token id definition, agree => by
    unfold Segment.touched at agree
    obtain ⟨here, below⟩ := List.forall_mem_cons.1 agree
    unfold Segment.substitute
    rw [here]
    cases found : own id with
    | some replacement => rfl
    | none =>
      rw [found, Option.isSome_none, if_neg Bool.false_ne_true] at below
      exact Fragment.substitute_of_untouched below
  | .nested _, agree => Fragment.substitute_of_untouched (by exact agree)
  | .verbatim _, _ | .column _ _, _ | .param _, _ => rfl

/-- Redirects of tokens that are not touched make no difference. -/
theorem Fragment.substitute_of_untouched {own joint : TokenId → Option Fragment} :
    ∀ {f : Fragment}, (∀ id ∈ Fragment.touched own f, joint id = own id) →
      Fragment.substitute joint f = Fragment.substitute own f
  | [], _ => rfl
  | _ :: _, agree => by
    obtain ⟨first, later⟩ := List.forall_mem_append.1 agree
    rw [Fragment.substitute, Fragment.substitute, Segment.substitute_of_untouched first,
      Fragment.substitute_of_untouched later]

end

namespace Redirects

theorem ownColumns_expand (r : Redirects) {f : Fragment} {c : Alias × String}
    (inside : c ∈ f.ownColumns) : c ∈ (r.expand f).ownColumns := by
  unfold expand
  cases r.entries.length with
  | zero => exact Fragment.ownColumns_substitute _ inside
  | succ depth => exact Fragment.ownColumns_substitute _ inside

def touched (r : Redirects) (f : Fragment) : List TokenId := Fragment.touched r.lookup f

/-- One of these columns is what some token is redirected to. -/
def LeaksInto (r : Redirects) (columns : List (Alias × String)) : Prop :=
  ∃ id source name, r.lookup id = some (Fragment.column source name) ∧ (source, name) ∈ columns

theorem LeaksInto.mono {r : Redirects} {one two : List (Alias × String)} (leaks : r.LeaksInto one)
    (within : ∀ c ∈ one, c ∈ two) : r.LeaksInto two := by
  obtain ⟨id, source, name, found, inside⟩ := leaks
  exact ⟨id, source, name, found, within _ inside⟩

/-- The redirects of two parties, who redirect different tokens, in one. -/
structure Joint (own foreign joint : Redirects) : Prop where
  lookup : ∀ id, joint.lookup id = (own.lookup id).or (foreign.lookup id)
  apart : ∀ id, (own.lookup id).isSome = true → foreign.lookup id = none
  flatOwn : own.Flat
  flatForeign : foreign.Flat

namespace Joint
variable {own foreign joint : Redirects}

theorem flat (both : Joint own foreign joint) : joint.Flat := by
  intro id f found
  rw [both.lookup] at found
  rcases Option.or_eq_some_iff.1 found with first | ⟨-, second⟩
  · exact both.flatOwn id f first
  · exact both.flatForeign id f second

theorem apart_swap (both : Joint own foreign joint) (id : TokenId)
    (redirected : (foreign.lookup id).isSome = true) : own.lookup id = none := by
  cases found : own.lookup id with
  | none => rfl
  | some f =>
    rw [both.apart id (by rw [found]; rfl)] at redirected
    exact absurd redirected nofun

theorem swap (both : Joint own foreign joint) : Joint foreign own joint where
  lookup id := by
    rw [both.lookup]
    cases redirected : foreign.lookup id with
    | none => simp
    | some f => rw [both.apart_swap id (by rw [redirected]; rfl)]; rfl
  apart := both.apart_swap
  flatOwn := both.flatForeign
  flatForeign := both.flatOwn

theorem expand_of_untouched (both : Joint own foreign joint) {f : Fragment}
    (untouched : ∀ id ∈ own.touched f, foreign.lookup id = none) :
    joint.expand f = own.expand f := by
  rw [expand_of_flat both.flat, expand_of_flat both.flatOwn]
  refine Fragment.substitute_of_untouched fun id member => ?_
  rw [both.lookup, untouched id member, Option.or_none]

end Joint
end Redirects

mutual

theorem Segment.leaksInto_of_touched {own foreign joint : Redirects}
    (both : Redirects.Joint own foreign joint) {id : TokenId}
    (redirected : (foreign.lookup id).isSome = true) :
    ∀ {segment : Segment}, id ∈ segment.touched own.lookup →
      foreign.LeaksInto (Fragment.ownColumns (segment.substitute joint.lookup))
  | .token here definition, touched => by
    unfold Segment.touched at touched
    unfold Segment.substitute
    rw [both.lookup]
    cases stands : foreign.lookup here with
    | some f =>
      obtain ⟨source, name, rfl⟩ := both.flatForeign here f stands
      rw [both.apart_swap here (by rw [stands]; rfl)]
      exact ⟨here, source, name, stands, List.mem_singleton_self _⟩
    | none =>
      have below := (List.mem_cons.1 touched).resolve_left fun same => by
        rw [same, stands] at redirected
        exact absurd redirected nofun
      cases replaced : own.lookup here with
      | some f =>
        rw [replaced] at below
        exact absurd below List.not_mem_nil
      | none =>
        rw [replaced] at below
        exact Fragment.leaksInto_of_touched both redirected below
  | .nested _, touched => Fragment.leaksInto_of_touched both redirected (by exact touched)
  | .verbatim _, touched | .column _ _, touched | .param _, touched =>
    absurd touched List.not_mem_nil

/-- A fragment that touches a foreign token expands to a column of the other party. -/
theorem Fragment.leaksInto_of_touched {own foreign joint : Redirects}
    (both : Redirects.Joint own foreign joint) {id : TokenId}
    (redirected : (foreign.lookup id).isSome = true) :
    ∀ {f : Fragment}, id ∈ Fragment.touched own.lookup f →
      foreign.LeaksInto (Fragment.ownColumns (Fragment.substitute joint.lookup f))
  | [], touched => absurd touched List.not_mem_nil
  | _ :: _, touched => by
    rw [Fragment.substitute, Fragment.ownColumns_append]
    rcases List.mem_append.1 touched with first | later
    · exact (Segment.leaksInto_of_touched both redirected first).mono fun c inside =>
        List.mem_append_left _ inside
    · exact (Fragment.leaksInto_of_touched both redirected later).mono fun c inside =>
        List.mem_append_right _ inside

end

theorem Redirects.Joint.leaksInto_expand {own foreign joint : Redirects}
    (both : Joint own foreign joint) {f : Fragment} {id : TokenId} (touched : id ∈ own.touched f)
    (redirected : (foreign.lookup id).isSome = true) :
    foreign.LeaksInto (joint.expand f).ownColumns := by
  rw [expand_of_flat both.flat]
  exact Fragment.leaksInto_of_touched both redirected touched

end QueryViews
