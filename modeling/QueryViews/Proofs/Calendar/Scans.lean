import QueryViews.Calendar.Scan
import QueryViews.Proofs.Calendar.Instants
import QueryViews.Proofs.Text.Blanks
import QueryViews.Proofs.Text.Digits

/-! What the scans make of the texts they read, and what holds of everything they read. -/

namespace QueryViews.Calendar.Scan
variable {α β : Type} {text rest : List Char}

theorem bind_of_some {scan : Scan α} {next : α → Scan β} {a : α} {middle : List Char}
    (found : scan text = some (a, middle)) : (scan >>= next) text = next a middle := by
  change (scan text).bind (fun found => next found.1 found.2) = _
  rw [found]
  rfl

theorem bind_of_none {scan : Scan α} {next : α → Scan β} (nothing : scan text = none) :
    (scan >>= next) text = none := by
  change (scan text).bind (fun found => next found.1 found.2) = _
  rw [nothing]
  rfl

/-- Whatever the scan reads has the property. -/
def Yields (scan : Scan α) (property : α → Prop) : Prop :=
  ∀ text a rest, scan text = some (a, rest) → property a

namespace Yields
variable {scan : Scan α} {next : α → Scan β} {property : β → Prop}

theorem bind {first : α → Prop} (before : Yields scan first)
    (behind : ∀ a, first a → Yields (next a) property) : Yields (scan >>= next) property := by
  intro text b rest read
  change (scan text).bind (fun found => next found.1 found.2) = _ at read
  obtain ⟨⟨a, middle⟩, found, read⟩ := Option.bind_eq_some_iff.1 read
  exact behind a (before text a middle found) middle b rest read

/-- Where nothing need be known of what is read first. -/
theorem after (behind : ∀ a, Yields (next a) property) : Yields (scan >>= next) property := by
  have any : Yields scan fun _ => True := fun _ _ _ _ => trivial
  exact any.bind fun a _ => behind a

theorem pure {b : β} (holds : property b) : Yields (pure b) property := by
  rintro text _ rest ⟨⟩
  exact holds

theorem failure : Yields failure property := nofun

theorem failure_bind : Yields (Alternative.failure >>= next) property := by
  have nothing : Yields (Alternative.failure : Scan α) fun _ => False := failure
  exact nothing.bind fun _ read => read.elim

theorem ite {c : Prop} [Decidable c] {one other : Scan β} (accepted : c → Yields one property)
    (refused : ¬c → Yields other property) : Yields (if c then one else other) property := by
  split
  next holds => exact accepted holds
  next fails => exact refused fails

end Yields

theorem get_eq : (get : Scan (List Char)) text = some (text, text) := rfl

theorem set_eq (left : List Char) : (set left : Scan PUnit) text = some ((), left) := rfl

theorem exactly_cons (c : Char) : exactly c (c :: rest) = some ((), rest) :=
  congrFun (if_pos rfl) (c :: rest)

theorem oneOf_cons {choices : List Char} {c : Char} (offered : c ∈ choices) :
    oneOf choices (c :: rest) = some (c, rest) :=
  congrFun (if_pos offered) (c :: rest)

/-- Just so many digits. -/
structure Digits (count : Nat) (text : List Char) : Prop where
  length : text.length = count
  digit : ∀ c ∈ text, c.isDigit = true

theorem digits_append {count : Nat} {number : List Char} (written : Digits count number) :
    digits count (number ++ rest) = some (Text.digitsValue number, rest) := by
  have taken : (number ++ rest).take count = number := List.take_left' written.length
  have left : (number ++ rest).drop count = rest := List.drop_left' written.length
  have all : number.all Char.isDigit = true := List.all_eq_true.2 written.digit
  have accepted : ((number ++ rest).take count).length = count ∧
      ((number ++ rest).take count).all Char.isDigit := by
    rw [taken]
    exact ⟨written.length, all⟩
  refine (congrFun (if_pos accepted) (number ++ rest)).trans ?_
  show some (Text.digitsValue ((number ++ rest).take count), (number ++ rest).drop count) = _
  rw [taken, left]

theorem digits_of_head {count : Nat} {c : Char} (positive : 0 < count) (other : c.isDigit = false) :
    digits count (c :: rest) = none := by
  obtain ⟨fewer, rfl⟩ := Nat.exists_eq_succ_of_ne_zero (Nat.ne_of_gt positive)
  have refused : ¬(((c :: rest).take (fewer + 1)).length = fewer + 1 ∧
      ((c :: rest).take (fewer + 1)).all Char.isDigit) := by
    rintro ⟨-, all⟩
    rw [List.take_succ_cons, List.all_cons, other] at all
    cases all
  exact congrFun (if_neg refused) (c :: rest)

theorem takeWhile_digits {number : List Char} (all : ∀ c ∈ number, c.isDigit = true)
    (ends : ∀ c ∈ rest.head?, c.isDigit = false) :
    (number ++ rest).takeWhile Char.isDigit = number := by
  rw [List.takeWhile_append_of_pos all]
  cases rest with
  | nil => exact List.append_nil number
  | cons c others =>
    rw [List.takeWhile_cons_of_neg (by simp [ends c rfl]), List.append_nil]

/-- The digits that a text starts with, up to a limit. -/
def leadingDigits (limit : Option Nat) (text : List Char) : List Char :=
  (limit.map (text.takeWhile Char.isDigit).take).getD (text.takeWhile Char.isDigit)

theorem someDigits_eq (limit : Option Nat) (text : List Char) :
    someDigits limit text =
      if (leadingDigits limit text).isEmpty then none
      else some (Text.digitsValue (leadingDigits limit text),
        text.drop (leadingDigits limit text).length) := by
  by_cases empty : (leadingDigits limit text).isEmpty = true
  · rw [if_pos empty]
    exact congrFun (if_pos empty) text
  · rw [if_neg empty]
    exact congrFun (if_neg empty) text

theorem leadingDigits_append {limit : Option Nat} {number : List Char}
    (all : ∀ c ∈ number, c.isDigit = true) (short : ∀ most ∈ limit, number.length ≤ most)
    (ends : ∀ c ∈ rest.head?, c.isDigit = false) :
    leadingDigits limit (number ++ rest) = number := by
  rw [leadingDigits, takeWhile_digits all ends]
  cases limit with
  | none => rfl
  | some most => exact List.take_of_length_le (short most rfl)

theorem someDigits_append {limit : Option Nat} {number : List Char}
    (all : ∀ c ∈ number, c.isDigit = true) (present : number ≠ [])
    (short : ∀ most ∈ limit, number.length ≤ most)
    (ends : ∀ c ∈ rest.head?, c.isDigit = false) :
    someDigits limit (number ++ rest) = some (Text.digitsValue number, rest) := by
  have notEmpty : ¬number.isEmpty = true := fun empty => present (List.isEmpty_iff.1 empty)
  rw [someDigits_eq, leadingDigits_append all short ends, if_neg notEmpty, List.drop_left]

theorem someDigits_of_head {limit : Option Nat} (ends : ∀ c ∈ text.head?, c.isDigit = false) :
    someDigits limit text = none := by
  have nothing : leadingDigits limit ([] ++ text) = [] :=
    leadingDigits_append (fun _ none => absurd none List.not_mem_nil)
      (fun _ _ => Nat.zero_le _) ends
  rw [List.nil_append] at nothing
  rw [someDigits_eq, nothing]
  rfl

theorem skipBlanks_of_head (visible : ∀ c ∈ text.head?, Text.isBlank c = false) :
    skipBlanks text = some ((), text) :=
  congrArg (fun left => some ((), left)) (Text.trimStart_of_head visible)

theorem looseField_append {number : List Char} (written : Digits 2 number)
    (ends : ∀ c ∈ rest.head?, c.isDigit = false) :
    looseField (number ++ rest) = some (Text.digitsValue number, rest) := by
  have present : number ≠ [] := fun none => by
    have two := none ▸ written.length
    cases two
  have visible : ∀ c ∈ (number ++ rest).head?, Text.isBlank c = false := fun c first => by
    rw [List.head?_append, List.head?_eq_some_head present] at first
    obtain rfl := Option.some.inj first
    exact Text.isBlank_of_isDigit (written.digit _ (List.head_mem present))
  have short : ∀ most ∈ some 2, number.length ≤ most := fun most two =>
    Option.some.inj two ▸ Nat.le_of_eq written.length
  exact (bind_of_some (skipBlanks_of_head visible)).trans
    (someDigits_append written.digit present short ends)

theorem looseField_of_head {c : Char} (visible : Text.isBlank c = false)
    (other : c.isDigit = false) : looseField (c :: rest) = none := by
  have blankless : ∀ d ∈ (c :: rest).head?, Text.isBlank d = false := fun d first =>
    Option.some.inj first ▸ visible
  exact (bind_of_some (skipBlanks_of_head blankless)).trans
    (someDigits_of_head fun d first => Option.some.inj first ▸ other)

/-- Behind its sign, a year goes on as long as there are digits. -/
theorem exists_looseYear {sign : Char} {number : List Char} (signed : sign = '-' ∨ sign = '+')
    (all : ∀ c ∈ number, c.isDigit = true) (present : number ≠ [])
    (ends : ∀ c ∈ rest.head?, c.isDigit = false) :
    ∃ year, looseYear (sign :: (number ++ rest)) = some (year, rest) := by
  have visible : ∀ c ∈ (sign :: (number ++ rest)).head?, Text.isBlank c = false := fun c first => by
    obtain rfl : sign = c := Option.some.inj first
    rcases signed with rfl | rfl <;> decide
  have digits : someDigits none (number ++ rest) = some (Text.digitsValue number, rest) :=
    someDigits_append all present nofun ends
  unfold looseYear
  rw [bind_of_some (skipBlanks_of_head visible)]
  rcases signed with rfl | rfl
  · exact ⟨-(Text.digitsValue number : Int), (bind_of_some get_eq).trans
      ((bind_of_some (set_eq _)).trans (bind_of_some digits))⟩
  · exact ⟨Text.digitsValue number, (bind_of_some get_eq).trans
      ((bind_of_some (set_eq _)).trans (bind_of_some digits))⟩

theorem fraction_point (text : List Char) :
    fraction ('.' :: text) =
      if (text.takeWhile Char.isDigit).isEmpty then none
      else some (Text.digitsValue ((text.takeWhile Char.isDigit).take 9) *
          tenTo (9 - ((text.takeWhile Char.isDigit).take 9).length),
        text.drop (text.takeWhile Char.isDigit).length) := by
  by_cases empty : (text.takeWhile Char.isDigit).isEmpty = true
  · rw [if_pos empty]
    exact congrFun (if_pos empty) ('.' :: text)
  · rw [if_neg empty]
    exact congrFun (if_neg empty) ('.' :: text)

theorem fraction_of_head (noPoint : ∀ c ∈ text.head?, c ≠ '.') :
    fraction text = some (0, text) := by
  cases text with
  | nil => rfl
  | cons c others =>
    have other := noPoint c rfl
    simp only [fraction, bind, StateT.bind, get, getThe, MonadStateOf.get, StateT.get, pure,
      Option.bind_some, List.cons.injEq, other, false_and, imp_self, implies_true]
    rfl

/-- The digits that count are scaled to nanoseconds, so a fraction is less than a second. -/
theorem fraction_yields : Yields fraction (· < nanosPerSecond) := by
  intro text nanos rest read
  by_cases point : ∃ behind, text = '.' :: behind
  · obtain ⟨behind, rfl⟩ := point
    rw [fraction_point] at read
    split at read
    next => cases read
    next =>
      obtain ⟨rfl, -⟩ := Prod.mk.inj (Option.some.inj read)
      generalize taken : (behind.takeWhile Char.isDigit).take 9 = kept
      have all : ∀ c ∈ kept, c.isDigit = true := fun c inside =>
        List.mem_takeWhile_imp (List.mem_of_mem_take (taken ▸ inside))
      have short : kept.length ≤ 9 := taken ▸ List.length_take_le 9 _
      calc Text.digitsValue kept * tenTo (9 - kept.length)
          < tenTo kept.length * tenTo (9 - kept.length) :=
            Nat.mul_lt_mul_of_pos_right (Text.digitsValue_lt all) (tenTo_pos _)
        _ = tenTo (kept.length + (9 - kept.length)) := (Nat.pow_add 10 _ _).symm
        _ = tenTo 9 := by rw [Nat.add_sub_cancel' short]
        _ = nanosPerSecond := by decide
  · have noPoint : ∀ c ∈ text.head?, c ≠ '.' := by
      rintro c first rfl
      obtain ⟨behind, rfl⟩ := List.head?_eq_some_iff.1 first
      exact point ⟨behind, rfl⟩
    rw [fraction_of_head noPoint] at read
    obtain ⟨rfl, -⟩ := Prod.mk.inj (Option.some.inj read)
    decide

theorem offset_zulu : offset ('Z' :: rest) = some (0, rest) := rfl

/-- An offset is one of whole minutes. -/
theorem offset_yields : Yields offset (· % 60 = 0) := by
  refine .after fun sign => .ite (fun _ => .pure rfl) fun _ => ?_
  refine .after fun hours => .after fun _ => .after fun minutes => ?_
  refine .ite (fun _ => .failure_bind) fun _ => .pure ?_
  split <;> omega

theorem moment_yields {m : Moment} {ahead : Int} (nanos : m.nanos < nanosPerSecond)
    (minutes : ahead % 60 = 0) :
    Yields (if m.isValid then return m.toInstant ahead else failure) Instant.Regular :=
  .ite (fun valid => .pure (m.regular_toInstant valid nanos minutes)) fun _ => .failure

theorem strict_yields : Yields strict Instant.Regular := by
  refine .after fun year => .after fun _ => .after fun month => .after fun _ => .after fun day =>
    .after fun _ => .after fun hour => .after fun _ => .after fun minute => .after fun _ =>
    .after fun second => .bind fraction_yields fun nanos small => ?_
  exact .bind offset_yields fun ahead whole => moment_yields small whole

theorem loose_yields : Yields loose Instant.Regular := by
  refine .after fun year => .after fun _ => .after fun month => .after fun _ => .after fun day =>
    .after fun _ => .after fun hour => .after fun _ => .after fun minute => .after fun _ =>
    .after fun second => .bind fraction_yields fun nanos small => ?_
  exact moment_yields small rfl

end QueryViews.Calendar.Scan
