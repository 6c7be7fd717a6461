import QueryViews.Column
import QueryViews.Proofs.Decimal.FiniteFloats
import QueryViews.Proofs.Decode.Integers

/-! Columns that may not be NULL, under the stock formats. NULL is looked for in raw values only.
No stock format takes NULL, and one of them can still bring it up: a float that is read from text
and has no spelling in JSON becomes NULL. -/

namespace QueryViews

/-- The numbers that a JSON document holds: integers in range, and finite floats. -/
def Json.Proper : Json → Prop
  | .whole n => wholeMin ≤ n ∧ n < wholeBound
  | .float x => x.isFinite = true
  | .null | .bool _ | .string _ | .array _ | .object _ => True

/-- The text is taken as a float, but it is an infinity, not a number, or too large for one. -/
def Text.Unrepresentable (text : List Char) : Prop :=
  ∃ r, real (trim text) = .ok r ∧ r.toFloat? = none

/-- The stock formats of scalars. -/
inductive Stock where
  | boolean
  | integer
  | float
  | text
  | timestamp
deriving DecidableEq, Repr

namespace Stock

def format : Stock → Format
  | boolean => Format.boolean
  | integer => Format.integer
  | float => Format.float
  | text => Format.text
  | timestamp => Format.timestamp

/-- Runs a value through a chain of stock formats until one of them fails. -/
def runAll (chain : List Stock) (v : Json) : Except DecodeError Json :=
  chain.foldlM (fun v stock => stock.format v) v

theorem runAll_cons (stock : Stock) (rest : List Stock) (v : Json) :
    runAll (stock :: rest) v = (stock.format v).bind (runAll rest) :=
  List.foldlM_cons

theorem runAll_concat (chain : List Stock) (last : Stock) (v : Json) :
    runAll (chain ++ [last]) v = (runAll chain v).bind last.format := by
  rw [runAll, List.foldlM_append]
  refine congrArg (Except.bind _) (funext fun w => ?_)
  exact List.foldlM_cons.trans (bind_pure (last.format w))

theorem outcome_runAll {steps : List DecodeStep} {chain : List Stock}
    (formats : steps.map DecodeStep.format = chain.map format) (v : Json) :
    (DecodeStep.runAll steps v).outcome = runAll chain v := by
  induction steps generalizing chain v with
  | nil =>
    obtain rfl : chain = [] := List.map_eq_nil_iff.1 formats.symm
    rfl
  | cons step rest ih =>
    cases chain with
    | nil => cases formats
    | cons stock others =>
      obtain ⟨same, following⟩ := List.cons.inj formats
      rw [runAll_cons, DecodeStep.runAll, same]
      cases stock.format v with
      | error => rfl
      | ok w => exact ih following w

end Stock

namespace Format
variable {v w : Json}

theorem exists_of_boolean (formatted : boolean v = .ok w) : ∃ b, w = .bool b := by
  unfold boolean at formatted
  split at formatted
  case h_1 b => exact ⟨b, (Except.ok.inj formatted).symm⟩
  case h_2 =>
    split at formatted
    · exact ⟨false, (Except.ok.inj formatted).symm⟩
    · split at formatted
      · exact ⟨true, (Except.ok.inj formatted).symm⟩
      · cases formatted
  case h_4 =>
    simp only at formatted
    split at formatted
    · exact ⟨true, (Except.ok.inj formatted).symm⟩
    · split at formatted
      · exact ⟨false, (Except.ok.inj formatted).symm⟩
      · cases formatted
  all_goals cases formatted

theorem exists_of_integer (proper : v.Proper) (formatted : integer v = .ok w) :
    ∃ n, w = .whole n ∧ Json.wholeMin ≤ n ∧ n < Json.wholeBound := by
  have wider : Text.integerBound ≤ Json.wholeBound := by decide
  cases v with
  | whole n =>
    obtain rfl := Except.ok.inj formatted
    exact ⟨n, rfl, proper⟩
  | float x =>
    simp only [integer] at formatted
    cases exact : exactInteger? x with
    | none =>
      rw [exact] at formatted
      cases formatted
    | some n =>
      simp only [exact] at formatted
      split at formatted
      next inRange =>
        exact ⟨n, (Except.ok.inj formatted).symm, inRange.1, Int.lt_of_lt_of_le inRange.2 wider⟩
      next => cases formatted
  | string text =>
    have whole : ∃ n, w = .whole n := by
      rw [integer_string] at formatted
      split at formatted
      next n _ => exact ⟨n, (Except.ok.inj formatted).symm⟩
      next => cases formatted
    obtain ⟨n, rfl⟩ := whole
    obtain ⟨-, low, high⟩ := integer_string_eq_ok_iff.1 formatted
    exact ⟨n, rfl, low, Int.lt_of_lt_of_le high wider⟩
  | null => cases formatted
  | bool => cases formatted
  | array => cases formatted
  | object => cases formatted

theorem exists_of_text (formatted : text v = .ok w) : ∃ t, w = .string t := by
  unfold text at formatted
  split at formatted
  case h_1 t => exact ⟨t, (Except.ok.inj formatted).symm⟩
  case h_2 => exact ⟨_, (Except.ok.inj formatted).symm⟩
  case h_3 => exact ⟨_, (Except.ok.inj formatted).symm⟩
  case h_4 => exact ⟨_, (Except.ok.inj formatted).symm⟩
  all_goals cases formatted

theorem exists_of_timestamp (formatted : timestamp v = .ok w) : ∃ t, w = .string t := by
  unfold timestamp at formatted
  simp only at formatted
  split at formatted
  next instant _ => exact ⟨instant.toString, (Except.ok.inj formatted).symm⟩
  next => cases formatted

theorem ofFloat_of_finite {x : Float} (finite : x.isFinite = true) : Json.ofFloat x = .float x :=
  if_pos finite

/-- Numbers stay numbers. Only a text can be taken for a float and come out as NULL. -/
theorem exists_of_float (proper : v.Proper) (formatted : float v = .ok w) :
    (∃ x, w = .float x ∧ x.isFinite = true) ∨
      w = .null ∧ ∃ t, v = .string t ∧ Text.Unrepresentable t.toList := by
  cases v with
  | whole n =>
    have finite := Binary64.isFinite_ofInt proper.1 proper.2
    obtain rfl := Except.ok.inj formatted
    exact .inl ⟨_, ofFloat_of_finite finite, finite⟩
  | float x =>
    have finite : x.isFinite = true := proper
    obtain rfl := Except.ok.inj formatted
    exact .inl ⟨x, ofFloat_of_finite finite, finite⟩
  | string t =>
    simp only [float] at formatted
    cases read : Text.real (Text.trim t.toList) with
    | error =>
      rw [read] at formatted
      cases formatted
    | ok r =>
      simp only [read] at formatted
      obtain rfl := Except.ok.inj formatted
      cases nearest : r.toFloat? with
      | none => exact .inr ⟨rfl, t, rfl, r, read, nearest⟩
      | some x =>
        have finite := Text.Real.isFinite_of_toFloat? nearest
        exact .inl ⟨x, ofFloat_of_finite finite, finite⟩
  | null => cases formatted
  | bool => cases formatted
  | array => cases formatted
  | object => cases formatted

theorem float_of_unrepresentable {t : String} (unrepresentable : Text.Unrepresentable t.toList) :
    float (.string t) = .ok .null := by
  obtain ⟨r, read, nearest⟩ := unrepresentable
  simp only [float, read, nearest]
  rfl

end Format

namespace Stock

/-- What a format makes of a proper value is proper again. It is NULL only where a text was taken
for a float. -/
theorem proper_of_format {stock : Stock} {v w : Json} (proper : v.Proper)
    (formatted : stock.format v = .ok w) :
    w.Proper ∧ (w = .null →
      stock = .float ∧ ∃ t, v = .string t ∧ Text.Unrepresentable t.toList) := by
  cases stock with
  | boolean =>
    obtain ⟨b, rfl⟩ := Format.exists_of_boolean formatted
    exact ⟨trivial, nofun⟩
  | integer =>
    obtain ⟨n, rfl, inRange⟩ := Format.exists_of_integer proper formatted
    exact ⟨inRange, nofun⟩
  | float =>
    rcases Format.exists_of_float proper formatted with ⟨x, rfl, finite⟩ | ⟨rfl, text⟩
    · exact ⟨finite, nofun⟩
    · exact ⟨trivial, fun _ => ⟨rfl, text⟩⟩
  | text =>
    obtain ⟨t, rfl⟩ := Format.exists_of_text formatted
    exact ⟨trivial, nofun⟩
  | timestamp =>
    obtain ⟨t, rfl⟩ := Format.exists_of_timestamp formatted
    exact ⟨trivial, nofun⟩

theorem proper_of_runAll {chain : List Stock} {v w : Json} (proper : v.Proper)
    (passed : runAll chain v = .ok w) : w.Proper := by
  induction chain generalizing v with
  | nil => exact Except.ok.inj passed ▸ proper
  | cons stock rest ih =>
    rw [runAll_cons] at passed
    cases formatted : stock.format v with
    | error =>
      rw [formatted] at passed
      cases passed
    | ok u =>
      rw [formatted] at passed
      exact ih (proper_of_format proper formatted).1 passed

/-- No stock format takes NULL. -/
theorem eq_nil_of_runAll_null {chain : List Stock} {w : Json}
    (passed : runAll chain .null = .ok w) : chain = [] ∧ w = .null := by
  cases chain with
  | nil => exact ⟨rfl, (Except.ok.inj passed).symm⟩
  | cons stock rest =>
    rw [runAll_cons] at passed
    cases stock <;> cases passed

/-- A chain brings up NULL only as its last step, from a text that is taken for a float. -/
theorem runAll_eq_null_iff {chain : List Stock} {v : Json} (proper : v.Proper) (given : v ≠ .null) :
    runAll chain v = .ok .null ↔
      ∃ before t, chain = before ++ [.float] ∧ runAll before v = .ok (.string t) ∧
        Text.Unrepresentable t.toList := by
  constructor
  · intro passed
    rcases List.eq_nil_or_concat chain with rfl | ⟨before, last, rfl⟩
    · exact absurd (Except.ok.inj passed) given
    · rw [List.concat_eq_append, runAll_concat] at passed
      cases reached : runAll before v with
      | error =>
        rw [reached] at passed
        cases passed
      | ok w =>
        rw [reached] at passed
        obtain ⟨-, text⟩ := proper_of_format (proper_of_runAll proper reached) passed
        obtain ⟨rfl, t, rfl, unrepresentable⟩ := text rfl
        exact ⟨before, t, List.concat_eq_append, reached, unrepresentable⟩
  · rintro ⟨before, t, rfl, reached, unrepresentable⟩
    rw [runAll_concat, reached]
    exact Format.float_of_unrepresentable unrepresentable

end Stock

/-- A column that may not be NULL, with a chain of stock formats, decodes to NULL exactly where the
chain ends in the float format and the steps before it hand over a text that is taken for a float
and has no spelling in JSON. -/
theorem Column.decode_eq_null_iff {c : Column} {chain : List Stock} {raw : Json}
    (strict : c.nullable = false)
    (formats : c.steps.map DecodeStep.format = chain.map Stock.format) (proper : raw.Proper)
    (name : String) :
    (c.decode name raw).outcome = .ok .null ↔
      ∃ before t, chain = before ++ [.float] ∧ Stock.runAll before raw = .ok (.string t) ∧
        Text.Unrepresentable t.toList := by
  unfold decode
  by_cases given : raw = .null
  · rw [given, strict]
    constructor
    · intro refused
      cases refused
    · rintro ⟨before, t, -, reached, -⟩
      cases (Stock.eq_nil_of_runAll_null reached).2
  · have present : raw.isNull = false := by
      cases raw with
      | null => exact absurd rfl given
      | _ => rfl
    rw [present, if_neg Bool.false_ne_true, Stock.outcome_runAll formats]
    exact Stock.runAll_eq_null_iff proper given

/-- A measured value that may not be missing, kept as it comes and then taken for a float. -/
def readingColumn : Column where
  token := ⟨⟨0⟩, [.verbatim "reading"]⟩
  nullable := false
  steps := [⟨0, Format.text⟩, ⟨0, Format.float⟩]

/-- A sensor that was driven out of its range. -/
theorem Column.decode_eq_null_iff_reading :
    readingColumn.nullable = false ∧
      readingColumn.steps.map DecodeStep.format = [Stock.text, .float].map Stock.format ∧
      (Json.string " -Infinity").Proper ∧
      (readingColumn.decode "value_0" (.string " -Infinity")).outcome = .ok .null := by
  have formats : readingColumn.steps.map DecodeStep.format =
    [Stock.text, .float].map Stock.format := rfl
  have proper : (Json.string " -Infinity").Proper := trivial
  have unrepresentable : Text.Unrepresentable " -Infinity".toList := ⟨.notFinite, by decide, rfl⟩
  exact ⟨rfl, formats, proper, (decode_eq_null_iff rfl formats proper "value_0").2
    ⟨[.text], " -Infinity", rfl, rfl, unrepresentable⟩⟩

/-- The word for an infinity brings up NULL in a column that may not be NULL. -/
theorem Column.not_strict_of_infinity :
    ¬∀ (c : Column) (chain : List Stock) (name : String) (raw : Json),
      c.nullable = false → c.steps.map DecodeStep.format = chain.map Stock.format →
        raw.Proper → (c.decode name raw).outcome ≠ .ok .null := by
  intro strict
  let column : Column := ⟨⟨⟨0⟩, [.verbatim "x"]⟩, false, [⟨0, Format.float⟩], none⟩
  have decoded : (column.decode "v" (.string "inf")).outcome = .ok .null := by
    have unrepresentable : Text.Unrepresentable "inf".toList := ⟨.notFinite, by decide, rfl⟩
    have formats : column.steps.map DecodeStep.format = [Stock.float].map Stock.format := rfl
    have passed : Stock.runAll [.float] (.string "inf") = .ok .null :=
      (Stock.runAll_concat [] .float _).trans (Format.float_of_unrepresentable unrepresentable)
    exact (Stock.outcome_runAll formats _).trans passed
  exact strict column [.float] "v" (.string "inf") rfl rfl trivial decoded

end QueryViews
